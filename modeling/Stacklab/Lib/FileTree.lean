import Mathlib.Data.List.Infix

/-! A file system as a tree of named nodes, and how a path with symbolic links is walked. -/
namespace Stacklab.Lib

abbrev Name : Type := String

/-- The names from the root down. -/
abbrev Path : Type := List Name

/-- Where a symbolic link points: from the root or from the directory of the link. -/
structure Target where
  absolute : Bool
  names : List Name
  deriving DecidableEq, Repr

inductive Node
  | dir
  | file (regular : Bool)
  | link (target : Target)
  deriving DecidableEq, Repr

def Node.isLink : Node → Bool
  | .link _ => true
  | .dir | .file _ => false

/-- A name that can stand in a directory. -/
def Plain (n : Name) : Prop := n ≠ "" ∧ n ≠ "." ∧ n ≠ ".."

instance (n : Name) : Decidable (Plain n) := inferInstanceAs (Decidable (_ ∧ _ ∧ _))

structure Tree where
  node : Path → Option Node
  root : node [] = some .dir
  parent : ∀ p n, node (p ++ [n]) ≠ none → node p = some .dir
  plain : ∀ p n, node (p ++ [n]) ≠ none → Plain n

/-- How far the names lead before the first symbolic link. -/
inductive Segment
  | arrived (p : Path)
  | link (here : Path) (target : Target) (rest : List Name)
  | missing
  | notDir

/-- Where a walk ends; `left` is the number of links that it could still have followed. -/
inductive Walk
  | found (p : Path) (left : ℕ)
  | missing
  | notDir
  | loop
  deriving DecidableEq, Repr

def segment (node : Path → Option Node) : Path → List Name → Segment
  | here, [] => .arrived here
  | here, n :: rest =>
    if n = "." then segment node here rest
    else if n = ".." then segment node here.dropLast rest
    else match node (here ++ [n]) with
      | none => .missing
      | some .dir => segment node (here ++ [n]) rest
      | some (.file _) => if rest = [] then .arrived (here ++ [n]) else .notDir
      | some (.link target) => .link here target rest

def Target.start (target : Target) (here : Path) : Path := if target.absolute then [] else here

/-- Walk the names from a directory and follow at most `links` symbolic links. -/
def walk (node : Path → Option Node) (links : ℕ) (here : Path) (names : List Name) : Walk :=
  match segment node here names with
  | .arrived p => .found p links
  | .missing => .missing
  | .notDir => .notDir
  | .link here target rest =>
    match links with
    | 0 => .loop
    | links + 1 => walk node links (target.start here) (target.names ++ rest)

variable {t : Tree} {here p : Path} {names a b rest : List Name} {links left : ℕ}
  {target : Target}

namespace Tree

theorem parent_dir (t : Tree) (h : t.node here = some .dir) : t.node here.dropLast = some .dir := by
  rcases List.eq_nil_or_concat here with rfl | ⟨q, n, rfl⟩
  · exact h
  · rw [List.concat_eq_append] at h ⊢
    rw [List.dropLast_concat]
    exact t.parent q n (by simp [h])

/-- A segment from a directory arrives at a directory or a file. -/
theorem segment_arrived (h : t.node here = some .dir)
    (hs : segment t.node here names = .arrived p) :
    t.node p = some .dir ∨ ∃ regular, t.node p = some (.file regular) := by
  induction names generalizing here with
  | nil =>
    cases hs
    exact .inl h
  | cons n rest ih =>
    rw [segment] at hs
    split at hs
    · exact ih h hs
    · split at hs
      · exact ih (t.parent_dir h) hs
      · split at hs
        · cases hs
        next hd =>
          exact ih hd hs
        next regular hf =>
          split at hs
          · cases hs
            exact .inr ⟨regular, hf⟩
          · cases hs
        · cases hs

theorem segment_link (h : t.node here = some .dir) {at_ : Path}
    (hs : segment t.node here names = .link at_ target rest) : t.node at_ = some .dir := by
  induction names generalizing here with
  | nil => cases hs
  | cons n names ih =>
    rw [segment] at hs
    split at hs
    · exact ih h hs
    · split at hs
      · exact ih (t.parent_dir h) hs
      · split at hs
        · cases hs
        next hd =>
          exact ih hd hs
        · split at hs <;> cases hs
        · cases hs
          exact h

theorem start_dir (t : Tree) (h : t.node here = some .dir) :
    t.node (target.start here) = some .dir := by
  rw [Target.start]
  split
  · exact t.root
  · exact h

/-- Where a segment goes on with more names. -/
def goOn (t : Tree) (b : List Name) : Segment → Segment
  | .arrived p =>
    if b = [] then .arrived p else if t.node p = some .dir then segment t.node p b else .notDir
  | .link here target rest => .link here target (rest ++ b)
  | .missing => .missing
  | .notDir => .notDir

theorem segment_append (h : t.node here = some .dir) :
    segment t.node here (a ++ b) = t.goOn b (segment t.node here a) := by
  induction a generalizing here with
  | nil =>
    cases b with
    | nil => rfl
    | cons n b => simp [segment, goOn, h]
  | cons n a ih =>
    rw [List.cons_append, segment, segment]
    split
    · exact ih h
    · split
      · exact ih (t.parent_dir h)
      · split
        · rfl
        next hd =>
          exact ih hd
        next regular hf =>
          by_cases ha : a = []
          · by_cases hb : b = []
            · simp [ha, hb, goOn]
            · simp [ha, hb, goOn, hf]
          · simp [ha, goOn]
        · rfl

/-- Where a walk goes on with more names. -/
def walkOn (t : Tree) (b : List Name) : Walk → Walk
  | .found p left =>
    if b = [] then .found p left
    else if t.node p = some .dir then walk t.node left p b else .notDir
  | w => w

theorem walk_append (h : t.node here = some .dir) :
    walk t.node links here (a ++ b) = t.walkOn b (walk t.node links here a) := by
  induction links generalizing here a with
  | zero =>
    rw [walk, segment_append h]
    rw [walk]
    cases hs : segment t.node here a with
    | arrived p =>
      by_cases hb : b = []
      · simp [goOn, walkOn, hb]
      · by_cases hp : t.node p = some .dir
        · simp only [goOn, walkOn, hb, hp, if_true, if_false]
          rw [walk]
        · simp [goOn, walkOn, hb, hp]
    | link at_ target rest => rfl
    | missing => rfl
    | notDir => rfl
  | succ links ih =>
    rw [walk, segment_append h]
    rw [walk]
    cases hs : segment t.node here a with
    | arrived p =>
      by_cases hb : b = []
      · simp [goOn, walkOn, hb]
      · by_cases hp : t.node p = some .dir
        · simp only [goOn, walkOn, hb, hp, if_true, if_false]
          rw [walk]
        · simp [goOn, walkOn, hb, hp]
    | link at_ target rest =>
      simp only [goOn]
      rw [← List.append_assoc]
      exact ih (t.start_dir (segment_link h hs))
    | missing => rfl
    | notDir => rfl

theorem walk_found (h : t.node here = some .dir)
    (hw : walk t.node links here names = .found p left) :
    t.node p = some .dir ∨ ∃ regular, t.node p = some (.file regular) := by
  induction links generalizing here names with
  | zero =>
    rw [walk] at hw
    split at hw
    next hs =>
      cases hw
      exact segment_arrived h hs
    · cases hw
    · cases hw
    · cases hw
  | succ links ih =>
    rw [walk] at hw
    split at hw
    next hs =>
      cases hw
      exact segment_arrived h hs
    · cases hw
    · cases hw
    next hs =>
      exact ih (t.start_dir (segment_link h hs)) hw

/-- More links to spare change nothing of a walk that ends. -/
theorem walk_more (k : ℕ) (hw : walk t.node links here names = .found p left) :
    walk t.node (links + k) here names = .found p (left + k) := by
  induction links generalizing here names with
  | zero =>
    rw [walk] at hw ⊢
    split at hw <;> cases hw
    rfl
  | succ links ih =>
    rw [Nat.succ_add]
    rw [walk] at hw ⊢
    split at hw
    · cases hw
      simp [Nat.succ_add]
    · cases hw
    · cases hw
    · exact ih hw

theorem walk_prefix (h : t.node here = some .dir)
    (hw : walk t.node links here (a ++ b) = .found p left) :
    ∃ q rest, walk t.node links here a = .found q rest ∧ (b ≠ [] → t.node q = some .dir) := by
  rw [walk_append h] at hw
  cases hq : walk t.node links here a with
  | found q rest =>
    refine ⟨q, rest, rfl, fun hb => ?_⟩
    by_contra hd
    simp [walkOn, hq, hb, hd] at hw
  | missing => simp [walkOn, hq] at hw
  | notDir => simp [walkOn, hq] at hw
  | loop => simp [walkOn, hq] at hw

variable {d : Path} {n : Name} {v : Option Node} {t' : Tree}

/-- The names go on below a directory that the walk has reached. -/
theorem walk_below (h : t.node here = some .dir) (hb : b ≠ [])
    (hw : walk t.node links here a = .found d left) (hd : t.node d = some .dir) :
    walk t.node links here (a ++ b) = walk t.node left d b := by
  simp [walk_append h, hw, walkOn, hb, hd]

theorem walk_cons_dir (hn : Plain n) (hd : t.node (d ++ [n]) = some .dir) :
    walk t.node links d (n :: rest) = walk t.node links (d ++ [n]) rest := by
  have hs : segment t.node d (n :: rest) = segment t.node (d ++ [n]) rest := by
    simp [segment, hn.2.1, hn.2.2, hd]
  cases links with
  | zero => rw [walk, walk, hs]
  | succ links => rw [walk, walk, hs]

theorem walk_cons_none (hn : Plain n) (hd : t.node (d ++ [n]) = none) :
    walk t.node links d (n :: rest) = .missing := by
  have hs : segment t.node d (n :: rest) = .missing := by
    simp [segment, hn.2.1, hn.2.2, hd]
  cases links with
  | zero => rw [walk, hs]
  | succ links => rw [walk, hs]

theorem walk_nil : walk t.node links here [] = .found here links := by
  cases links with
  | zero => rw [walk, segment]
  | succ links => rw [walk, segment]

theorem walk_singleton_file (hn : Plain n) {regular : Bool}
    (hd : t.node (d ++ [n]) = some (.file regular)) :
    walk t.node links d [n] = .found (d ++ [n]) links := by
  have hs : segment t.node d [n] = .arrived (d ++ [n]) := by
    simp [segment, hn.2.1, hn.2.2, hd]
  cases links with
  | zero => rw [walk, hs]
  | succ links => rw [walk, hs]

/-- The name of a directory or file from the root leads there without any link. -/
theorem walk_physical
    (hp : t.node p = some .dir ∨ ∃ regular, t.node p = some (.file regular)) :
    walk t.node links [] p = .found p links := by
  induction p using List.reverseRecOn with
  | nil => exact walk_nil
  | append_singleton q n ih =>
    have hne : t.node (q ++ [n]) ≠ none := by
      rcases hp with hp | ⟨regular, hp⟩ <;> simp [hp]
    have hq := t.parent q n hne
    rw [walk_below t.root (by simp) (ih (.inl hq)) hq]
    rcases hp with hp | ⟨regular, hp⟩
    · rw [walk_cons_dir (t.plain q n hne) hp, walk_nil]
    · exact walk_singleton_file (t.plain q n hne) hp

/-- No name on the way to a place is a link. -/
def Unlinked (t : Tree) (p : Path) : Prop :=
  ∀ q ∈ p.inits, ∀ target, t.node q ≠ some (.link target)

theorem noLink_iff :
    v.all (fun node => !node.isLink) = true ↔ ∀ target, v ≠ some (.link target) := by
  cases v with
  | none => simp
  | some node => cases node <;> simp [Node.isLink]

instance (t : Tree) (p : Path) : Decidable (t.Unlinked p) :=
  decidable_of_iff (∀ q ∈ p.inits, (t.node q).all (fun node => !node.isLink) = true)
    (forall₂_congr fun _ _ => noLink_iff)

theorem segment_unlinked (hnames : ∀ n ∈ names, Plain n) (hlinks : t.Unlinked (here ++ names)) :
    segment t.node here names = .arrived (here ++ names) ∨
      segment t.node here names = .missing ∨ segment t.node here names = .notDir := by
  induction names generalizing here with
  | nil =>
    rw [List.append_nil]
    exact .inl rfl
  | cons n names ih =>
    obtain ⟨hn, hrest⟩ := List.forall_mem_cons.mp hnames
    have happend : here ++ n :: names = (here ++ [n]) ++ names := by simp
    rw [happend] at hlinks ⊢
    rw [segment, if_neg hn.2.1, if_neg hn.2.2]
    split
    · exact .inr (.inl rfl)
    · exact ih hrest hlinks
    · split
      next hnil =>
        rw [hnil, List.append_nil]
        exact .inl rfl
      · exact .inr (.inr rfl)
    next target hlink =>
      exact absurd hlink (hlinks _ ((List.mem_inits _ _).mpr (List.prefix_append _ _)) target)

/-- Without a link on the way, a walk can only end where the names say. -/
theorem walk_unlinked (hnames : ∀ n ∈ names, Plain n) (hlinks : t.Unlinked (here ++ names))
    (hw : walk t.node links here names = .found p left) : p = here ++ names := by
  have hs := segment_unlinked hnames hlinks
  rw [walk.eq_def] at hw
  rcases hs with hs | hs | hs
  · rw [hs] at hw
    cases hw
    rfl
  · rw [hs] at hw
    cases hw
  · rw [hs] at hw
    cases hw

/-- Put a node, or nothing, where no directory stands. -/
def put (t : Tree) (d : Path) (n : Name) (v : Option Node) (hd : t.node d = some .dir)
    (hn : t.node (d ++ [n]) ≠ some .dir) (hp : Plain n) : Tree where
  node := Function.update t.node (d ++ [n]) v
  root := by
    rw [Function.update_of_ne (by simp)]
    exact t.root
  parent := by
    intro p m hm
    by_cases he : p ++ [m] = d ++ [n]
    · obtain ⟨rfl, -⟩ := List.append_inj' he rfl
      rwa [Function.update_of_ne (by simp)]
    · rw [Function.update_of_ne he] at hm
      have hdir := t.parent p m hm
      rw [Function.update_of_ne]
      · exact hdir
      · rintro rfl
        exact hn hdir
  plain := by
    intro p m hm
    by_cases he : p ++ [m] = d ++ [n]
    · obtain ⟨-, hnm⟩ := List.append_inj' he rfl
      cases hnm
      exact hp
    · rw [Function.update_of_ne he] at hm
      exact t.plain p m hm

/-- Put a node where there can be one. -/
def grow (t : Tree) (d : Path) (n : Name) (v : Node) : Tree :=
  if h : t.node d = some .dir ∧ t.node (d ++ [n]) ≠ some .dir ∧ Plain n then
    t.put d n (some v) h.1 h.2.1 h.2.2
  else t

theorem grow_of_ne {v : Node} (h : p ≠ d ++ [n]) : (t.grow d n v).node p = t.node p := by
  rw [grow]
  split
  · exact Function.update_of_ne h _ _
  · rfl

/-- Every directory and every link of one tree is also in the other. -/
def Keeps (t t' : Tree) : Prop :=
  ∀ p, (t.node p = some .dir ∨ ∃ target, t.node p = some (.link target)) →
    t'.node p = t.node p

theorem Keeps.refl : Keeps t t := fun _ _ => rfl

theorem Keeps.trans {t'' : Tree} (h : Keeps t t') (h' : Keeps t' t'') : Keeps t t'' := by
  intro p hp
  have hp' := h p hp
  rw [← hp'] at hp ⊢
  exact h' p hp

theorem keeps_put {hd : t.node d = some .dir} {hn : t.node (d ++ [n]) ≠ some .dir} {hp : Plain n}
    (hl : ∀ target, t.node (d ++ [n]) ≠ some (.link target)) : Keeps t (t.put d n v hd hn hp) := by
  intro p hk
  by_cases he : p = d ++ [n]
  · subst he
    rcases hk with hk | ⟨target, hk⟩
    · exact absurd hk hn
    · exact absurd hk (hl target)
  · exact Function.update_of_ne he _ _

/-- Only directories and links decide where a segment goes, up to its last name. -/
theorem segment_keeps (hk : Keeps t t') {s : Segment} (hs : segment t.node here names = s)
    (hend : (∃ p, s = .arrived p ∧ t.node p = some .dir) ∨
      ∃ at_ target rest, s = .link at_ target rest) : segment t'.node here names = s := by
  induction names generalizing here with
  | nil => exact hs
  | cons n names ih =>
    rw [segment] at hs ⊢
    by_cases h1 : n = "."
    · rw [if_pos h1] at hs ⊢
      exact ih hs
    by_cases h2 : n = ".."
    · rw [if_neg h1, if_pos h2] at hs ⊢
      exact ih hs
    rw [if_neg h1, if_neg h2] at hs ⊢
    split at hs
    · subst hs
      rcases hend with ⟨p, hp, -⟩ | ⟨at_, target, rest, hp⟩ <;> cases hp
    next hd =>
      rw [hk _ (.inl hd), hd]
      exact ih hs
    next regular hf =>
      split at hs
      · subst hs
        rcases hend with ⟨p, hp, hdir⟩ | ⟨at_, target, rest, hp⟩
        · cases hp
          rw [hf] at hdir
          cases hdir
        · cases hp
      · subst hs
        rcases hend with ⟨p, hp, -⟩ | ⟨at_, target, rest, hp⟩ <;> cases hp
    next target hl =>
      rw [hk _ (.inr ⟨target, hl⟩), hl]
      exact hs

theorem walk_keeps (hk : Keeps t t') (hw : walk t.node links here names = .found p left)
    (hp : t.node p = some .dir) : walk t'.node links here names = .found p left := by
  induction links generalizing here names with
  | zero =>
    rw [walk] at hw ⊢
    split at hw <;> cases hw
    rename_i hs
    rw [segment_keeps hk hs (.inl ⟨_, rfl, hp⟩)]
  | succ links ih =>
    rw [walk] at hw ⊢
    split at hw
    next hs =>
      cases hw
      rw [segment_keeps hk hs (.inl ⟨_, rfl, hp⟩)]
    · cases hw
    · cases hw
    next hs =>
      rw [segment_keeps hk hs (.inr ⟨_, _, _, rfl⟩)]
      exact ih hw

end Tree

end Stacklab.Lib
