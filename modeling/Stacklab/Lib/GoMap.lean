import Mathlib.Data.List.AList

/-! Go maps: association lists with distinct keys, iterated in an order the runtime picks. -/
namespace Stacklab.Lib

abbrev GoMap (K V : Type) : Type := AList (fun _ : K => V)

/-- The order in which each execution of a `range` statement visits a map's entries. -/
structure RangeOrder (α : Type) where
  order : ℕ → List α → List α
  perm : ∀ n l, (order n l).Perm l

namespace RangeOrder

variable {α : Type}

/-- The order in which the entries are stored. -/
def stored : RangeOrder α where
  order _ l := l
  perm _ _ := .refl _

theorem mem_order (ro : RangeOrder α) {n : ℕ} {l : List α} {a : α} :
    a ∈ ro.order n l ↔ a ∈ l :=
  (ro.perm n l).mem_iff

end RangeOrder

namespace GoMap

variable {K V : Type} [DecidableEq K] {m : GoMap K V} {k k' : K} {v v' : V} {p : K → Bool}

theorem lookup_eq_some_iff : m.lookup k = some v ↔ ⟨k, v⟩ ∈ m.entries :=
  AList.mem_lookup_iff

/-- Assign one value to every key of a list. -/
def insertAll (m : GoMap K V) (v : V) (ks : List K) : GoMap K V :=
  ks.foldl (fun m k => m.insert k v) m

theorem lookup_insert (m : GoMap K V) (k k' : K) (v : V) :
    (AList.insert k' v m).lookup k = if k = k' then some v else m.lookup k := by
  by_cases h : k = k'
  · subst h
    simp
  · simp [h, AList.lookup_insert_ne]

theorem lookup_erase (m : GoMap K V) (k k' : K) :
    (m.erase k').lookup k = if k = k' then none else m.lookup k := by
  by_cases h : k = k'
  · subst h
    simp
  · simp [h, AList.lookup_erase_ne]

theorem lookup_insert_cases (h : (AList.insert k v m).lookup k' = some v') :
    k' = k ∧ v' = v ∨ m.lookup k' = some v' := by
  rw [lookup_insert] at h
  split at h
  next heq => exact .inl ⟨heq, (Option.some.inj h).symm⟩
  · exact .inr h

theorem lookup_of_lookup_erase (h : (m.erase k').lookup k = some v) : m.lookup k = some v := by
  rw [lookup_erase] at h
  split at h
  · cases h
  · exact h

/-- A property of all entries and of a new one holds after the assignment. -/
theorem forall_insert {P : K → V → Prop} (h : ∀ k v, m.lookup k = some v → P k v) (hv : P k v) :
    ∀ k' v', (AList.insert k v m).lookup k' = some v' → P k' v' := by
  intro k' v' hl
  rcases lookup_insert_cases hl with ⟨rfl, rfl⟩ | hold
  · exact hv
  · exact h k' v' hold

theorem lookup_insertAll (m : GoMap K V) (v : V) (ks : List K) (k : K) :
    (insertAll m v ks).lookup k = if k ∈ ks then some v else m.lookup k := by
  induction ks generalizing m with
  | nil => simp [insertAll]
  | cons k' ks ih =>
    have hcons : insertAll m v (k' :: ks) = insertAll (m.insert k' v) v ks := rfl
    rw [hcons, ih, lookup_insert]
    by_cases hk : k = k' <;> by_cases hks : k ∈ ks <;> simp [hk, hks]

/-- Change every value of the map. -/
def mapValues (f : V → V) (m : GoMap K V) : GoMap K V where
  entries := m.entries.map fun e => ⟨e.1, f e.2⟩
  nodupKeys := by
    have hkeys : (m.entries.map fun e => (⟨e.1, f e.2⟩ : Sigma fun _ : K => V)).keys =
        m.entries.keys := by
      simp [List.keys, Function.comp_def]
    unfold List.NodupKeys
    rw [hkeys]
    exact m.nodupKeys

theorem lookup_mapValues (f : V → V) (m : GoMap K V) (k : K) :
    (m.mapValues f).lookup k = (m.lookup k).map f := by
  change List.dlookup k (m.entries.map fun e => (⟨e.1, f e.2⟩ : Sigma fun _ : K => V)) =
    (List.dlookup k m.entries).map f
  induction m.entries with
  | nil => rfl
  | cons e rest ih =>
    obtain ⟨k', v⟩ := e
    by_cases hk : k = k'
    · subst hk
      simp
    · rw [List.map_cons, List.dlookup_cons_ne _ _ hk, List.dlookup_cons_ne _ _ hk, ih]

/-- Delete the keys that a predicate picks. -/
def eraseWhere (p : K → Bool) (m : GoMap K V) : GoMap K V where
  entries := m.entries.filter fun e => !p e.1
  nodupKeys := m.nodupKeys.sublist List.filter_sublist

theorem lookup_of_lookup_eraseWhere (h : (m.eraseWhere p).lookup k = some v) :
    m.lookup k = some v := by
  have hmem := lookup_eq_some_iff.mp h
  exact lookup_eq_some_iff.mpr (List.mem_of_mem_filter hmem)

theorem lookup_eraseWhere_of_not (hk : p k = false) : (m.eraseWhere p).lookup k = m.lookup k := by
  apply Option.ext
  intro v
  rw [lookup_eq_some_iff, lookup_eq_some_iff]
  change ⟨k, v⟩ ∈ m.entries.filter _ ↔ _
  simp [hk]

theorem lookup_eraseWhere_of (hk : p k = true) : (m.eraseWhere p).lookup k = none := by
  apply Option.eq_none_iff_forall_ne_some.mpr
  intro v h
  have hmem : ⟨k, v⟩ ∈ m.entries.filter _ := lookup_eq_some_iff.mp h
  simp [hk] at hmem

/-- The values of a map in any order, when each has its key as its id. -/
theorem values_of_perm {id : V → K} (hid : ∀ k v, m.lookup k = some v → id v = k) {values : List V}
    (h : values.Perm (m.entries.map Sigma.snd)) :
    (∀ v ∈ values, m.lookup (id v) = some v) ∧ (values.map id).Nodup := by
  refine ⟨fun v hv => ?_, ?_⟩
  · obtain ⟨e, he, rfl⟩ := List.mem_map.mp (h.mem_iff.mp hv)
    have hlookup := lookup_eq_some_iff.mpr he
    rw [hid e.1 e.2 hlookup, hlookup]
  · have hkeys : (m.entries.map Sigma.snd).map id = m.entries.map Sigma.fst := by
      rw [List.map_map]
      exact List.map_congr_left fun e he => hid e.1 e.2 (lookup_eq_some_iff.mpr he)
    rw [(h.map id).nodup_iff, hkeys]
    exact m.nodupKeys

theorem entries_eq_nil_iff : m.entries = [] ↔ ∀ k, m.lookup k = none := by
  constructor
  · intro h k
    have hm : m = ∅ := AList.ext (by simp [h])
    simp [hm]
  · intro h
    apply List.eq_nil_iff_forall_not_mem.mpr
    rintro ⟨k, v⟩ he
    simpa [lookup_eq_some_iff.mpr he] using h k

variable [DecidableEq V]

/-- Delete the keys of a list that still map to the given value. -/
def eraseAll (m : GoMap K V) (v : V) (ks : List K) : GoMap K V :=
  ks.foldl (fun m k => if m.lookup k = some v then m.erase k else m) m

theorem lookup_eraseAll (m : GoMap K V) (v : V) (ks : List K) (k : K) :
    (eraseAll m v ks).lookup k =
      if k ∈ ks ∧ m.lookup k = some v then none else m.lookup k := by
  induction ks generalizing m with
  | nil => simp [eraseAll]
  | cons k' ks ih =>
    have hcons : eraseAll m v (k' :: ks) =
        eraseAll (if m.lookup k' = some v then m.erase k' else m) v ks := rfl
    rw [hcons, ih]
    by_cases hv : m.lookup k' = some v
    · rw [if_pos hv, lookup_erase]
      by_cases hk : k = k'
      · subst hk
        simp [hv]
      · simp [hk]
    · rw [if_neg hv]
      by_cases hk : k = k'
      · subst hk
        simp [hv]
      · simp [hk]

end GoMap

end Stacklab.Lib
