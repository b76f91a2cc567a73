import Mathlib.Data.Finmap

/-! Lookups in a finite map after one of its keys was written or erased, and
two maps that are each other's inverse. -/

namespace Lib

variable {κ α : Type} [DecidableEq κ]

theorem lookup_insert_eq (m : Finmap fun _ : κ => α) (key other : κ) (v : α) :
    (m.insert key v).lookup other = if other = key then some v else m.lookup other := by
  split_ifs with h
  · rw [h, Finmap.lookup_insert]
  · exact Finmap.lookup_insert_of_ne _ h

theorem lookup_erase_eq (m : Finmap fun _ : κ => α) (key other : κ) :
    (m.erase key).lookup other = if other = key then none else m.lookup other := by
  split_ifs with h
  · rw [h, Finmap.lookup_erase]
  · exact Finmap.lookup_erase_ne h

variable [DecidableEq α]

/-- `m` and `inverse` hold the same pairs. -/
def Inverse (m : Finmap fun _ : κ => α) (inverse : Finmap fun _ : α => κ) : Prop :=
  ∀ key v, m.lookup key = some v ↔ inverse.lookup v = some key

theorem Inverse.injective {m : Finmap fun _ : κ => α} {inverse : Finmap fun _ : α => κ}
    (h : Inverse m inverse) {key other : κ} {v : α} (hkey : m.lookup key = some v)
    (hother : m.lookup other = some v) : key = other := by
  rw [h] at hkey hother
  exact Option.some.inj (hkey.symm.trans hother)

theorem inverse_empty : Inverse (∅ : Finmap fun _ : κ => α) ∅ := by
  intro key v
  rw [Finmap.lookup_empty, Finmap.lookup_empty]
  exact ⟨nofun, nofun⟩

/-- A pair that is new on both sides. -/
theorem Inverse.insert {m : Finmap fun _ : κ => α} {inverse : Finmap fun _ : α => κ}
    (h : Inverse m inverse) {key : κ} {v : α} (hkey : m.lookup key = none)
    (hv : inverse.lookup v = none) : Inverse (m.insert key v) (inverse.insert v key) := by
  intro other w
  rw [lookup_insert_eq, lookup_insert_eq]
  by_cases hother : other = key
  · subst hother
    by_cases hw : w = v
    · simp [hw]
    · have hnone : inverse.lookup w ≠ some other := by
        rw [ne_eq, ← h, hkey]
        exact nofun
      simp [hw, Ne.symm hw, hnone]
  · by_cases hw : w = v
    · subst hw
      have hnone : m.lookup other ≠ some w := by
        rw [ne_eq, h, hv]
        exact nofun
      simp [hother, Ne.symm hother, hnone]
    · rw [if_neg hother, if_neg hw]
      exact h other w

end Lib
