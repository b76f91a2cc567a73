import Mathlib.Data.List.Sort

/-! Lists sorted by a rank, the highest first, and when two ranks sort a list
the same way. -/

namespace Lib

section

variable {α : Type} {r s : α → α → Prop} [DecidableRel r] [DecidableRel s] {l : List α}

theorem insertionSort_congr (h : ∀ a ∈ l, ∀ b ∈ l, (r a b ↔ s a b)) :
    l.insertionSort r = l.insertionSort s := by
  simpa using List.map_insertionSort r s id l h

/-- In a sorted list the order tells what comes first. -/
theorem sublist_insertionSort_of_rel [Std.Total r] [IsTrans α r] [Std.Antisymm r] {a b : α}
    (ha : a ∈ l) (hb : b ∈ l) (hne : a ≠ b) (hab : r a b) : [a, b].Sublist (l.insertionSort r) := by
  have hsorted := List.pairwise_insertionSort r l
  obtain ⟨front, back, hsplit⟩ := List.append_of_mem ((List.mem_insertionSort r).mpr ha)
  rw [hsplit] at hsorted ⊢
  have hmem : b ∈ front ++ a :: back := hsplit ▸ (List.mem_insertionSort r).mpr hb
  rcases List.mem_append.mp hmem with hfront | hback
  · have hba := (List.pairwise_append.mp hsorted).2.2 b hfront a List.mem_cons_self
    exact absurd (antisymm hab hba) hne
  · have hback : b ∈ back := by simpa [hne.symm] using hback
    exact (List.cons_sublist_cons.mpr (List.singleton_sublist.mpr hback)).trans
      (List.sublist_append_right front _)

theorem insertionSort_eq_of_perm [Std.Total r] [IsTrans α r] [Std.Antisymm r] {m : List α}
    (h : l.Perm m) : l.insertionSort r = m.insertionSort r := by
  have hperm := (List.perm_insertionSort r l).trans (h.trans (List.perm_insertionSort r m).symm)
  exact hperm.eq_of_pairwise' (List.pairwise_insertionSort r l) (List.pairwise_insertionSort r m)

theorem pairwise_ne_insertionSort [Std.Total r] [IsTrans α r] (h : l.Nodup) :
    (l.insertionSort r).Pairwise fun a b => r a b ∧ a ≠ b :=
  (List.pairwise_insertionSort r l).and ((List.perm_insertionSort r l).nodup_iff.mpr h)

/-- The first of a sorted list is before all others. -/
theorem rel_of_insertionSort_eq_cons [Std.Total r] [IsTrans α r] {first : α} {rest : List α}
    (h : l.insertionSort r = first :: rest) : first ∈ l ∧ ∀ a ∈ l, r first a := by
  have hmem : ∀ a, a ∈ l ↔ a = first ∨ a ∈ rest := by
    intro a
    rw [← List.mem_insertionSort r, h, List.mem_cons]
  have hsorted := List.pairwise_insertionSort r l
  rw [h] at hsorted
  refine ⟨(hmem first).mpr (.inl rfl), fun a ha => ?_⟩
  rcases (hmem a).mp ha with rfl | hrest
  · exact refl_of r a
  · exact List.rel_of_pairwise_cons hsorted hrest

theorem insertionSort_eq_iff [Std.Total r] [IsTrans α r] [Std.Antisymm r] [Std.Total s]
    [IsTrans α s] [Std.Antisymm s] :
    l.insertionSort r = l.insertionSort s ↔ ∀ a ∈ l, ∀ b ∈ l, (r a b ↔ s a b) := by
  constructor
  · intro h a ha b hb
    by_cases hne : a = b
    · subst hne
      exact iff_of_true (refl_of r a) (refl_of s a)
    constructor
    · intro hab
      have hsub := sublist_insertionSort_of_rel ha hb hne hab
      rw [h] at hsub
      exact List.pairwise_pair.mp ((List.pairwise_insertionSort s l).sublist hsub)
    · intro hab
      have hsub := sublist_insertionSort_of_rel ha hb hne hab
      rw [← h] at hsub
      exact List.pairwise_pair.mp ((List.pairwise_insertionSort r l).sublist hsub)
  · exact insertionSort_congr

end

section

variable {α β : Type} [LinearOrder α] [LinearOrder β] {rank : α → β}

/-- Values of one rank are in their own order. -/
def RankBefore (rank : α → β) (a b : α) : Prop :=
  rank b < rank a ∨ (rank b = rank a ∧ a ≤ b)

instance : DecidableRel (RankBefore rank) := fun _ _ => inferInstanceAs (Decidable (_ ∨ _))

instance : Std.Total (RankBefore rank) where
  total a b := by
    rcases lt_trichotomy (rank a) (rank b) with hlt | heq | hlt
    · exact .inr (.inl hlt)
    · rcases le_total a b with hle | hle
      · exact .inl (.inr ⟨heq.symm, hle⟩)
      · exact .inr (.inr ⟨heq, hle⟩)
    · exact .inl (.inl hlt)

instance : IsTrans α (RankBefore rank) where
  trans a b c hab hbc := by
    rcases hab with hab | ⟨hab, hle⟩
    · rcases hbc with hbc | ⟨hbc, _⟩
      · exact .inl (hbc.trans hab)
      · exact .inl (hbc ▸ hab)
    · rcases hbc with hbc | ⟨hbc, hle'⟩
      · exact .inl (hab ▸ hbc)
      · exact .inr ⟨hbc.trans hab, hle.trans hle'⟩

instance : Std.Antisymm (RankBefore rank) where
  antisymm a b hab hba := by
    rcases hab with hab | ⟨hab, hle⟩
    · rcases hba with hba | ⟨hba, _⟩
      · exact absurd hab (lt_asymm hba)
      · exact absurd hba hab.ne'
    · rcases hba with hba | ⟨_, hle'⟩
      · exact absurd hab hba.ne'
      · exact le_antisymm hle hle'

/-- Within a group the marked value comes first. -/
def MarkedBefore (group : α → β) (mark : Option α) (a b : α) : Prop :=
  group b < group a ∨ (group b = group a ∧ (mark = some a ∨ (mark ≠ some b ∧ a ≤ b)))

/-- A value that only one of the two marks is on comes first in its group anyway. -/
def MarksAgree (group : α → β) (mark mark' : Option α) (l : List α) : Prop :=
  ∀ a ∈ l, (mark = some a ↔ mark' = some a) ∨ ∀ b ∈ l, group b = group a → a ≤ b

variable {group : α → β} {mark mark' : Option α} {l : List α}

omit [LinearOrder β] in
theorem MarksAgree.symm (h : MarksAgree group mark mark' l) : MarksAgree group mark' mark l :=
  fun a ha => (h a ha).imp_left Iff.symm

theorem MarksAgree.markedBefore (h : MarksAgree group mark mark' l) {a b : α} (ha : a ∈ l)
    (hb : b ∈ l) (hab : MarkedBefore group mark a b) : MarkedBefore group mark' a b := by
  rcases hab with hlt | ⟨hgroup, hab⟩
  · exact .inl hlt
  refine .inr ⟨hgroup, ?_⟩
  have hle : mark' = some a ∨ a ≤ b := by
    rcases hab with hmark | ⟨_, hle⟩
    · exact (h a ha).imp (fun hsame => hsame.mp hmark) fun hfirst => hfirst b hb hgroup
    · exact .inr hle
  by_cases hmarked : mark' = some b
  · -- the marked value is the first of its group under either mark
    rcases hle with hmark | hle
    · exact .inl hmark
    have hba : b ≤ a := by
      rcases h b hb with hsame | hfirst
      · rcases hab with hmark | ⟨hnot, _⟩
        · exact (Option.some.inj ((hsame.mpr hmarked).symm.trans hmark)).le
        · exact absurd (hsame.mpr hmarked) hnot
      · exact hfirst a ha hgroup.symm
    rw [le_antisymm hle hba]
    exact .inl hmarked
  · exact hle.imp_right fun hle => ⟨hmarked, hle⟩

theorem marksAgree_iff :
    MarksAgree group mark mark' l ↔
      ∀ a ∈ l, ∀ b ∈ l, (MarkedBefore group mark a b ↔ MarkedBefore group mark' a b) := by
  refine ⟨fun h a ha b hb => ⟨h.markedBefore ha hb, h.symm.markedBefore ha hb⟩, fun h a ha => ?_⟩
  have hfirst : ∀ {m m' : Option α}, (∀ b ∈ l, MarkedBefore group m a b → MarkedBefore group m' a b) →
      m = some a → m' ≠ some a → ∀ b ∈ l, group b = group a → a ≤ b := by
    intro m m' himp hmark hnot b hb hgroup
    rcases himp b hb (.inr ⟨hgroup, .inl hmark⟩) with hlt | ⟨_, hmark' | ⟨_, hle⟩⟩
    · exact absurd hgroup hlt.ne
    · exact absurd hmark' hnot
    · exact hle
  by_cases hmark : mark = some a
  · by_cases hmark' : mark' = some a
    · exact .inl (iff_of_true hmark hmark')
    · exact .inr (hfirst (fun b hb => (h a ha b hb).mp) hmark hmark')
  · by_cases hmark' : mark' = some a
    · exact .inr (hfirst (fun b hb => (h a ha b hb).mpr) hmark' hmark)
    · exact .inl (iff_of_false hmark hmark')

/-- The mark ranks after the group and before the order of the values. -/
theorem rankBefore_iff_markedBefore {γ : Type} [LinearOrder γ] {rank : α → γ} {a b : α}
    (hlt : rank b < rank a ↔
      group b < group a ∨ (group b = group a ∧ mark = some a ∧ mark ≠ some b))
    (heq : rank b = rank a ↔ group b = group a ∧ (mark = some b ↔ mark = some a)) :
    RankBefore rank a b ↔ MarkedBefore group mark a b := by
  unfold RankBefore MarkedBefore
  rw [hlt, heq]
  by_cases hne : a = b
  · subst hne
    simp [em]
  by_cases hmark : mark = some a
  · have hother : mark ≠ some b := fun hb => hne (Option.some.inj (hmark.symm.trans hb))
    simp [hmark, hne]
  · by_cases hother : mark = some b
    · simp [hother, Ne.symm hne]
    · simp [hmark, hother]

end

end Lib
