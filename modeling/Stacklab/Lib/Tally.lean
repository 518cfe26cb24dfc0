import Stacklab.Lib.GoMap

/-! Maps of counters and the sum of their values. -/
namespace Stacklab.Lib.GoMap

variable {K : Type} [DecidableEq K]

def sumValues (l : List (Sigma fun _ : K => Int)) : Int := l.foldr (fun e acc => e.2 + acc) 0

def total (m : GoMap K Int) : Int := sumValues m.entries

theorem sumValues_kerase (k : K) (l : List (Sigma fun _ : K => Int)) :
    sumValues (l.kerase k) = sumValues l - (l.dlookup k).getD 0 := by
  induction l with
  | nil => rfl
  | cons e l ih =>
    obtain ⟨k', v⟩ := e
    by_cases hk : k = k'
    · subst hk
      have hkerase : List.kerase k (⟨k, v⟩ :: l) = l := List.kerase_cons_eq rfl
      rw [hkerase, List.dlookup_cons_eq]
      change sumValues l = v + sumValues l - v
      omega
    · rw [List.kerase_cons_ne hk, List.dlookup_cons_ne _ _ hk]
      change v + sumValues (l.kerase k) = v + sumValues l - _
      omega

theorem total_erase (m : GoMap K Int) (k : K) :
    total (m.erase k) = total m - (m.lookup k).getD 0 :=
  sumValues_kerase k m.entries

theorem total_insert (m : GoMap K Int) (k : K) (v : Int) :
    total (m.insert k v) = total m - (m.lookup k).getD 0 + v := by
  have hsum := sumValues_kerase k m.entries
  have hinsert : total (m.insert k v) = v + sumValues (m.entries.kerase k) := rfl
  have htotal : total m = sumValues m.entries := rfl
  have hlookup : m.lookup k = m.entries.dlookup k := rfl
  rw [hinsert, htotal, hlookup, hsum]
  omega

end Stacklab.Lib.GoMap
