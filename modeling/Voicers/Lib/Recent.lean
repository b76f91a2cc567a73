import Mathlib.Data.List.Destutter

/-! A list of the most recent entries, the newest first: an entry that repeats
the newest one is dropped, and so are those beyond a limit. -/

namespace Lib

variable {α : Type} [DecidableEq α]

def pushRecent (limit : Nat) (recent : List α) (a : α) : List α :=
  if recent.head? = some a then recent else (a :: recent).take limit

theorem head?_destutter_ne (l : List α) : (l.destutter (· ≠ ·)).head? = l.head? := by
  cases l with
  | nil => rfl
  | cons a l =>
    rw [List.destutter_cons']
    induction l with
    | nil => rfl
    | cons b l ih =>
      by_cases hab : a = b
      · rw [List.destutter'_cons_neg _ (not_not_intro hab)]
        exact ih
      · rw [List.destutter'_cons_pos _ hab]
        rfl

theorem destutter_ne_cons (a : α) (l : List α) :
    (a :: l).destutter (· ≠ ·) =
      if l.head? = some a then l.destutter (· ≠ ·) else a :: l.destutter (· ≠ ·) := by
  cases l with
  | nil => rfl
  | cons b l =>
    rw [List.destutter_cons_cons, List.destutter_cons', List.head?_cons]
    by_cases hab : a = b
    · rw [if_neg (not_not_intro hab), if_pos (congrArg some hab.symm), hab]
    · rw [if_pos hab, if_neg fun h => hab (Option.some.inj h).symm]

/-- The entries that are kept are the first of all that were pushed, without repetitions. -/
theorem pushRecent_take {limit : Nat} (hlimit : 0 < limit) (l : List α) (a : α) :
    pushRecent limit ((l.destutter (· ≠ ·)).take limit) a =
      ((a :: l).destutter (· ≠ ·)).take limit := by
  have hhead : ((l.destutter (· ≠ ·)).take limit).head? = l.head? := by
    rw [List.head?_take, if_neg (Nat.ne_of_gt hlimit), head?_destutter_ne]
  rw [pushRecent, hhead, destutter_ne_cons]
  split_ifs with hrepeats
  · rfl
  · obtain ⟨limit, rfl⟩ := Nat.exists_eq_succ_of_ne_zero (Nat.ne_of_gt hlimit)
    rw [List.take_succ_cons, List.take_succ_cons, List.take_take,
      Nat.min_eq_left (Nat.le_succ limit)]

theorem foldl_pushRecent {limit : Nat} (hlimit : 0 < limit) (pushed l : List α) :
    pushed.foldl (pushRecent limit) ((l.destutter (· ≠ ·)).take limit) =
      ((pushed.reverse ++ l).destutter (· ≠ ·)).take limit := by
  induction pushed generalizing l with
  | nil => rfl
  | cons a pushed ih =>
    rw [List.foldl_cons, pushRecent_take hlimit, ih, List.reverse_cons, List.append_assoc,
      List.singleton_append]

end Lib
