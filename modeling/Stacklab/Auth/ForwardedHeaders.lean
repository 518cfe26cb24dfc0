import Stacklab.Lib.GoText

/-! What the headers of trusted proxies say about a client, and which part of them the client can
write itself. -/
namespace Stacklab.Auth

open Lib

/-- The parts of `net` and `net/netip` that are used, and the case table of `strings.ToLower`. -/
structure NetLib where
  Addr : Type
  Net : Type
  splitHostPort : String → Option String
  parseAddr : String → Option Addr
  contains : Net → Addr → Bool
  text : Addr → String
  unicodeToLower : Char → Char
  parseAddr_empty : parseAddr "" = none

/-- The fields of a request that are read here. -/
structure ProxyRequest where
  remoteAddr : String
  tls : Bool
  proxySecret : String
  forwardedFor : String
  forwardedProto : String
  deriving DecidableEq, Repr

/-- The settings that name the trusted proxies. -/
structure ProxyConfig extends NetLib where
  trustedProxies : List Net
  trustedProxySecret : String

def headerParts (headerValue : String) : List String :=
  (splitChar ',' headerValue).map String.ofList

namespace ProxyConfig

variable (cfg : ProxyConfig)

def isTrustedProxy (addr : cfg.Addr) : Bool := cfg.trustedProxies.any (cfg.contains · addr)

def trustedProxyRequest (remoteHost presentedSecret : String) : Bool :=
  if cfg.trustedProxies.isEmpty ∨ cfg.trustedProxySecret = "" ∨
      presentedSecret.utf8ByteSize ≠ cfg.trustedProxySecret.utf8ByteSize then false
  else
    match cfg.parseAddr (trimSpace remoteHost) with
    | none => false
    | some remoteAddr =>
      cfg.isTrustedProxy remoteAddr && presentedSecret == cfg.trustedProxySecret

/-- The address that an entry names, unless it is a proxy or no address at all. -/
def clientEntry (part : String) : Option cfg.Addr :=
  (cfg.parseAddr (trimSpace part)).filter fun addr => !cfg.isTrustedProxy addr

def trustedForwardedFor (headerValue : String) : String :=
  if trimSpace headerValue = "" then ""
  else
    match (headerParts headerValue).reverse.findSome? cfg.clientEntry with
    | some addr => cfg.text addr
    | none => ""

def toLower (s : String) : String :=
  String.ofList (s.toList.map fun c => if c.toNat < 128 then c.toLower else cfg.unicodeToLower c)

def trustedForwardedProto (headerValue : String) : String :=
  if trimSpace headerValue = "" then ""
  else cfg.toLower (trimSpace ((headerParts headerValue).headD ""))

def clientIP (r : ProxyRequest) : String :=
  match cfg.splitHostPort r.remoteAddr with
  | none => r.remoteAddr
  | some host =>
    if cfg.trustedProxyRequest host r.proxySecret then
      let trustedForwardedIP := cfg.trustedForwardedFor r.forwardedFor
      if trustedForwardedIP ≠ "" then trustedForwardedIP else host
    else host

def secureRequest (r : ProxyRequest) : Bool :=
  if r.tls then true
  else
    let host := (cfg.splitHostPort r.remoteAddr).getD r.remoteAddr
    if !cfg.trustedProxyRequest host r.proxySecret then false
    else cfg.trustedForwardedProto r.forwardedProto = "https"

/-- The request comes from a trusted proxy. -/
abbrev Trusted (r : ProxyRequest) : Prop :=
  cfg.trustedProxyRequest ((cfg.splitHostPort r.remoteAddr).getD r.remoteAddr) r.proxySecret = true

end ProxyConfig

/-- The header ends with these entries; what is left of them the client may have sent. -/
def EndsWith (tail headerValue : String) : Prop :=
  headerValue = tail ∨ ∃ sent, headerValue = sent ++ "," ++ tail

open ProxyConfig

section Parts

variable {cfg : ProxyConfig} {s tail entry : String}

theorem isSpace_of_blank (h : trimSpace s = "") : ∀ c ∈ s.toList, isSpace c = true := by
  have hnil : trimSpaceList s.toList = [] := by
    simpa [trimSpace] using congrArg String.toList h
  have hrest : ∀ c ∈ s.toList.dropWhile isSpace, isSpace c = true := by
    simpa [trimSpaceList, List.dropWhile_eq_nil_iff] using hnil
  intro c hc
  rw [← List.takeWhile_append_dropWhile (p := isSpace) (l := s.toList)] at hc
  rcases List.mem_append.mp hc with hc | hc
  · exact List.mem_takeWhile_imp hc
  · exact hrest c hc

theorem headerParts_blank (h : trimSpace s = "") : headerParts s = [s] := by
  have hsingle : s.toList.splitOnP (· == ',') = [s.toList] := by
    apply List.splitOnP_eq_singleton
    intro c hc
    have hspace := isSpace_of_blank h c hc
    by_contra hcomma
    rw [Bool.not_eq_false, beq_iff_eq] at hcomma
    subst hcomma
    exact absurd hspace (by decide)
  simp [headerParts, splitChar, List.splitOn, hsingle]

theorem headerParts_append (sent tail : String) :
    headerParts (sent ++ "," ++ tail) = headerParts sent ++ headerParts tail := by
  have hsplit := List.splitOnP_append_cons (p := (· == ',')) sent.toList tail.toList
    (show (',' == ',') = true by decide)
  simp [headerParts, splitChar, List.splitOn, hsplit]

/-- A blank value names no address, so it needs no case of its own. -/
theorem trustedForwardedFor_eq (headerValue : String) :
    cfg.trustedForwardedFor headerValue =
      (((headerParts headerValue).reverse.findSome? cfg.clientEntry).map cfg.text).getD "" := by
  unfold trustedForwardedFor
  split
  next hblank =>
    simp [headerParts_blank hblank, clientEntry, hblank, cfg.parseAddr_empty]
  · cases (headerParts headerValue).reverse.findSome? cfg.clientEntry <;> rfl

/-- The entries from the rightmost one on that is not the address of a trusted proxy. -/
structure FromUntrusted (cfg : ProxyConfig) (tail entry : String) : Prop where
  untrusted : ∀ addr, cfg.parseAddr (trimSpace entry) = some addr → cfg.isTrustedProxy addr = false
  proxies : ∃ right, headerParts tail = entry :: right ∧ ∀ part ∈ right, ∃ addr,
    cfg.parseAddr (trimSpace part) = some addr ∧ cfg.isTrustedProxy addr = true

theorem FromUntrusted.forwarded (h : FromUntrusted cfg tail entry) :
    (∀ addr, cfg.parseAddr (trimSpace entry) = some addr → ∀ headerValue,
      EndsWith tail headerValue → cfg.trustedForwardedFor headerValue = cfg.text addr) ∧
    (cfg.parseAddr (trimSpace entry) = none →
      cfg.trustedForwardedFor tail = "" ∧ ∀ sent,
        cfg.trustedForwardedFor (sent ++ "," ++ tail) = cfg.trustedForwardedFor sent) := by
  obtain ⟨right, hparts, hproxies⟩ := h.proxies
  have hright : right.reverse.findSome? cfg.clientEntry = none := by
    rw [List.findSome?_eq_none_iff]
    intro part hpart
    obtain ⟨addr, hparse, htrusted⟩ := hproxies part (by simpa using hpart)
    simp [clientEntry, hparse, htrusted]
  refine ⟨?_, ?_⟩
  · intro addr hparse headerValue hends
    have hentry : cfg.clientEntry entry = some addr := by
      simp [clientEntry, hparse, h.untrusted addr hparse]
    rcases hends with rfl | ⟨sent, rfl⟩
    · simp [trustedForwardedFor_eq, hparts, hright, hentry]
    · simp [trustedForwardedFor_eq, headerParts_append, hparts, hright, hentry]
  · intro hparse
    have hentry : cfg.clientEntry entry = none := by simp [clientEntry, hparse]
    refine ⟨by simp [trustedForwardedFor_eq, hparts, hright, hentry], fun sent => ?_⟩
    simp [trustedForwardedFor_eq, headerParts_append, hparts, hright, hentry]

theorem trustedForwardedProto_append (hparts : headerParts s = [s]) (last : String) :
    cfg.trustedForwardedProto (s ++ "," ++ last) = cfg.toLower (trimSpace s) := by
  have hnot : trimSpace (s ++ "," ++ last) ≠ "" :=
    fun hblank => absurd (isSpace_of_blank hblank ',' (by simp)) (by decide)
  rw [trustedForwardedProto, if_neg hnot, headerParts_append, hparts]
  rfl

theorem toLower_scheme : cfg.toLower (trimSpace "https") = "https" ∧
    cfg.toLower (trimSpace "http") = "http" := by
  have htrim : trimSpace "https" = "https" ∧ trimSpace "http" = "http" := by decide
  rw [htrim.1, htrim.2]
  exact ⟨by simp [toLower], by simp [toLower]⟩

end Parts

section Main

variable (cfg : ProxyConfig) (r : ProxyRequest)

/-- When the entry that decides names an address, or nothing that is sent names another one. -/
def AddressDecided (entry : String) : Prop :=
  ∀ host, cfg.splitHostPort r.remoteAddr = some host →
    (cfg.parseAddr (trimSpace entry)).isSome = true ∨
      ∀ sent, cfg.trustedForwardedFor sent = "" ∨ cfg.trustedForwardedFor sent = host

variable {cfg r} {tail entry last : String} (htrusted : cfg.Trusted r)
include htrusted

theorem clientIP_eq {host : String} (hsplit : cfg.splitHostPort r.remoteAddr = some host)
    (headerValue : String) :
    cfg.clientIP { r with forwardedFor := headerValue } =
      if cfg.trustedForwardedFor headerValue ≠ "" then
        cfg.trustedForwardedFor headerValue else host := by
  rw [Trusted, hsplit, Option.getD_some] at htrusted
  simp only [clientIP, hsplit, htrusted, if_true]

theorem clientIP_decided_iff (htail : FromUntrusted cfg tail entry) :
    (∀ h h', EndsWith tail h → EndsWith tail h' →
      cfg.clientIP { r with forwardedFor := h } = cfg.clientIP { r with forwardedFor := h' }) ↔
      AddressDecided cfg r entry := by
  obtain ⟨haddress, hnone⟩ := htail.forwarded
  constructor
  · intro hsame host hsplit
    cases hparse : cfg.parseAddr (trimSpace entry) with
    | some addr => exact .inl rfl
    | none =>
      right
      intro sent
      obtain ⟨htailValue, hsent⟩ := hnone hparse
      have heq := hsame tail (sent ++ "," ++ tail) (.inl rfl) (.inr ⟨sent, rfl⟩)
      rw [clientIP_eq htrusted hsplit, clientIP_eq htrusted hsplit, htailValue, hsent] at heq
      by_cases hempty : cfg.trustedForwardedFor sent = ""
      · exact .inl hempty
      · rw [if_neg (by simp), if_pos hempty] at heq
        exact .inr heq.symm
  · intro hdecided h h' hh hh'
    cases hsplit : cfg.splitHostPort r.remoteAddr with
    | none => simp only [clientIP, hsplit]
    | some host =>
      rw [clientIP_eq htrusted hsplit, clientIP_eq htrusted hsplit]
      cases hparse : cfg.parseAddr (trimSpace entry) with
      | some addr => rw [haddress addr hparse h hh, haddress addr hparse h' hh']
      | none =>
        obtain hsome | hhost := hdecided host hsplit
        · simp [hparse] at hsome
        · have hall : ∀ sent, (if cfg.trustedForwardedFor sent ≠ "" then
              cfg.trustedForwardedFor sent else host) = host := by
            intro sent
            rcases hhost sent with hempty | heq
            · simp [hempty]
            · rw [heq]
              split <;> rfl
          rw [hall, hall]

theorem secureRequest_decided_iff :
    (∀ h h', EndsWith last h → EndsWith last h' →
      cfg.secureRequest { r with forwardedProto := h } =
        cfg.secureRequest { r with forwardedProto := h' }) ↔ r.tls = true := by
  refine ⟨?_, fun htls h h' _ _ => by simp [secureRequest, htls]⟩
  intro hsame
  by_contra htls
  have hsecure : ∀ h, cfg.secureRequest { r with forwardedProto := h } =
      decide (cfg.trustedForwardedProto h = "https") := by
    rw [Trusted] at htrusted
    simp [secureRequest, htls, htrusted]
  have heq := hsame _ _ (.inr ⟨"https", rfl⟩) (.inr ⟨"http", rfl⟩)
  rw [hsecure, hsecure, trustedForwardedProto_append (by decide),
    trustedForwardedProto_append (by decide), toLower_scheme.1, toLower_scheme.2] at heq
  exact absurd heq (by decide)

end Main

/-- What a client sends itself decides nothing exactly if the connection is encrypted and the
entry that the trusted proxies vouch for names an address. -/
theorem sent_headers_decide_nothing_iff {cfg : ProxyConfig} {tail entry : String}
    {r : ProxyRequest} (last : String) (htrusted : cfg.Trusted r)
    (htail : FromUntrusted cfg tail entry) :
    ((∀ h h', EndsWith tail h → EndsWith tail h' →
        cfg.clientIP { r with forwardedFor := h } = cfg.clientIP { r with forwardedFor := h' }) ∧
      ∀ h h', EndsWith last h → EndsWith last h' →
        cfg.secureRequest { r with forwardedProto := h } =
          cfg.secureRequest { r with forwardedProto := h' }) ↔
      AddressDecided cfg r entry ∧ r.tls = true :=
  and_congr (clientIP_decided_iff htrusted htail) (secureRequest_decided_iff htrusted)

/-- Addresses are texts of digits and points, and a network is one address. -/
def oneProxy : ProxyConfig where
  Addr := String
  Net := String
  splitHostPort s := (cut ':' s).map Prod.fst
  parseAddr s :=
    if s ≠ "" ∧ s.toList.all (fun c => c.isDigit || c = '.') then some s else none
  contains net addr := net = addr
  text := id
  unicodeToLower := id
  parseAddr_empty := rfl
  trustedProxies := ["10.0.0.1"]
  trustedProxySecret := "secret"

def proxied (tls : Bool) (forwardedFor forwardedProto : String) : ProxyRequest :=
  ⟨"10.0.0.1:80", tls, "secret", forwardedFor, forwardedProto⟩

/-- Behind TLS, an address that the proxy has added is the client's. -/
theorem added_address_decides :
    oneProxy.clientIP (proxied true "2.2.2.2,1.1.1.1" "") =
      oneProxy.clientIP (proxied true "1.1.1.1" "") := by
  have hparse : oneProxy.parseAddr (trimSpace "1.1.1.1") = some "1.1.1.1" := rfl
  have htail : FromUntrusted oneProxy "1.1.1.1" "1.1.1.1" := by
    refine ⟨?_, [], by decide, by simp⟩
    intro addr haddr
    cases hparse.symm.trans haddr
    decide
  have htrusted : oneProxy.Trusted (proxied true "" "") := by decide
  exact ((sent_headers_decide_nothing_iff "" htrusted htail).mpr
    ⟨fun _ _ => .inl (by rw [hparse]; rfl), rfl⟩).1 "2.2.2.2,1.1.1.1" "1.1.1.1"
      (.inr ⟨"2.2.2.2", rfl⟩) (.inl rfl)

/-- An entry that is no address is passed over, and of the schemes the first one counts. -/
theorem sent_headers_decide :
    oneProxy.Trusted (proxied false "" "") ∧
    oneProxy.clientIP (proxied false "1.1.1.1,unknown" "") = "1.1.1.1" ∧
    oneProxy.clientIP (proxied false "2.2.2.2,unknown" "") = "2.2.2.2" ∧
    oneProxy.secureRequest (proxied false "" "https,http") = true ∧
    oneProxy.secureRequest (proxied false "" "http,http") = false := by
  decide +kernel

end Stacklab.Auth
