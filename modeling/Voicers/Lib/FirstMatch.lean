import Mathlib.Algebra.BigOperators.Group.List.Basic
import Mathlib.Data.List.Nodup
import Mathlib.Logic.Function.Basic

/-! Updates of the first element of a list that satisfies a test, the way
`iter_mut().find(..)` and `position(..)` are used on vectors of records. -/

namespace Lib

variable {α : Type}

def updateFirst (p : α → Bool) (f : α → α) : List α → List α
  | [] => []
  | a :: l => if p a then f a :: l else a :: updateFirst p f l

/-- Changes the first element that satisfies `p`, or appends `f new`. -/
def updateOrPush (p : α → Bool) (f : α → α) (new : α) (l : List α) : List α :=
  if l.any p then updateFirst p f l else l ++ [f new]

def pushUnique [DecidableEq α] (l : List α) (a : α) : List α := if a ∈ l then l else l ++ [a]

section

variable {p : α → Bool} {f : α → α} {l : List α}

theorem mem_pushUnique [DecidableEq α] {l : List α} {a b : α} :
    b ∈ pushUnique l a ↔ b ∈ l ∨ b = a := by
  unfold pushUnique
  split_ifs with h
  · constructor
    · exact .inl
    · rintro (hb | rfl)
      · exact hb
      · exact h
  · simp

theorem pushUnique_ne_nil [DecidableEq α] (l : List α) (a : α) : pushUnique l a ≠ [] := by
  exact List.ne_nil_of_mem (mem_pushUnique.mpr (.inr rfl))

theorem mem_foldl_pushUnique [DecidableEq α] {l acc : List α} {b : α} :
    b ∈ l.foldl pushUnique acc ↔ b ∈ acc ∨ b ∈ l := by
  induction l generalizing acc with
  | nil => simp
  | cons a l ih =>
    simp only [List.foldl_cons, ih, mem_pushUnique, List.mem_cons]
    exact or_assoc

theorem mem_updateFirst {b : α} (h : b ∈ updateFirst p f l) :
    b ∈ l ∨ ∃ a ∈ l, p a = true ∧ b = f a := by
  induction l with
  | nil => simp [updateFirst] at h
  | cons a l ih =>
    by_cases ha : p a = true
    · simp only [updateFirst, ha, if_true] at h
      rcases List.mem_cons.mp h with rfl | h
      · exact .inr ⟨a, List.mem_cons_self, ha, rfl⟩
      · exact .inl (List.mem_cons_of_mem _ h)
    · simp only [updateFirst, ha] at h
      rcases List.mem_cons.mp h with rfl | h
      · exact .inl List.mem_cons_self
      · rcases ih h with h | ⟨c, hc, hp, rfl⟩
        · exact .inl (List.mem_cons_of_mem _ h)
        · exact .inr ⟨c, List.mem_cons_of_mem _ hc, hp, rfl⟩

theorem map_updateFirst {β : Type} {g : α → β} (h : ∀ a, p a = true → g (f a) = g a) :
    (updateFirst p f l).map g = l.map g := by
  induction l with
  | nil => rfl
  | cons a l ih =>
    by_cases ha : p a = true
    · simp [updateFirst, ha, h a ha]
    · simp [updateFirst, ha, ih]

theorem filter_updateFirst {q : α → Bool} (hin : ∀ a, p a = true → q a = false)
    (hout : ∀ a, p a = true → q (f a) = false) :
    (updateFirst p f l).filter q = l.filter q := by
  induction l with
  | nil => rfl
  | cons a l ih =>
    by_cases ha : p a = true
    · simp [updateFirst, ha, hin a ha, hout a ha]
    · simp [updateFirst, ha, List.filter_cons, ih]

theorem updateFirst_updateFirst {g : α → α} (hf : ∀ a, p a = true → p (f a) = true) :
    updateFirst p g (updateFirst p f l) = updateFirst p (fun a => g (f a)) l := by
  induction l with
  | nil => rfl
  | cons a l ih =>
    by_cases ha : p a = true
    · simp [updateFirst, ha, hf a ha]
    · simp [updateFirst, ha, ih]

theorem updateFirst_eq_self (h : ∀ a, l.find? p = some a → f a = a) : updateFirst p f l = l := by
  induction l with
  | nil => rfl
  | cons a l ih =>
    by_cases ha : p a = true
    · simp [updateFirst, ha, h a (by simp [ha])]
    · simp [updateFirst, ha, ih fun b hb => h b (by simpa [ha] using hb)]

/-- A selection tells whether an update that it cannot see past changed anything. -/
theorem eq_of_filter_updateFirst {q : α → Bool} (hq : ∀ a, q (f a) = q a)
    (h : (updateFirst p f l).filter q = l.filter q) {a : α} (ha : l.find? p = some a)
    (hqa : q a = true) : f a = a := by
  induction l with
  | nil => simp at ha
  | cons b l ih =>
    by_cases hb : p b = true
    · obtain rfl : b = a := by simpa [hb] using ha
      simp only [updateFirst, hb, if_true, List.filter_cons, hq, hqa] at h
      exact (List.cons.inj h).1
    · rw [List.find?_cons_of_neg hb] at ha
      refine ih ?_ ha
      by_cases hqb : q b = true
      · simpa [updateFirst, hb, List.filter_cons, hqb] using h
      · simpa [updateFirst, hb, List.filter_cons, hqb] using h

theorem find?_updateFirst (hf : ∀ a, p a = true → p (f a) = true) :
    (updateFirst p f l).find? p = (l.find? p).map f := by
  induction l with
  | nil => rfl
  | cons a l ih =>
    by_cases ha : p a = true
    · simp [updateFirst, ha, hf a ha]
    · simp [updateFirst, ha, ih]

theorem find?_updateFirst_same {q : α → Bool} (hq : ∀ a, p a = true → q (f a) = q a)
    (h : l.find? p = l.find? q) : (updateFirst p f l).find? q = (l.find? q).map f := by
  induction l with
  | nil => rfl
  | cons a l ih =>
    by_cases ha : p a = true
    · have hqa : q a = true := by
        rw [List.find?_cons_of_pos ha] at h
        exact List.find?_some h.symm
      simp [updateFirst, ha, hq a ha, hqa]
    · by_cases hqa : q a = true
      · rw [List.find?_cons_of_pos hqa] at h
        exact absurd (List.find?_some h) ha
      · simp only [List.find?_cons_of_neg ha, List.find?_cons_of_neg hqa] at h
        simp only [updateFirst, ha, Bool.false_eq_true, if_false, List.find?_cons_of_neg hqa]
        exact ih h

/-- The first match of `q` stays, or is the element changed. -/
theorem find?_updateFirst_or {q : α → Bool} (hq : ∀ a, p a = true → q (f a) = q a) :
    (updateFirst p f l).find? q = l.find? q ∨
      ∃ a, l.find? q = some a ∧ p a = true ∧ (updateFirst p f l).find? q = some (f a) := by
  induction l with
  | nil => exact .inl rfl
  | cons a l ih =>
    by_cases ha : p a = true
    · by_cases hqa : q a = true
      · exact .inr ⟨a, by simp [hqa], ha, by simp [updateFirst, ha, hq a ha, hqa]⟩
      · exact .inl (by simp [updateFirst, ha, hq a ha, hqa])
    · by_cases hqa : q a = true
      · exact .inl (by simp [updateFirst, ha, hqa])
      · simpa [updateFirst, ha, hqa] using ih

theorem find?_updateFirst_of_not {q : α → Bool} (hq : ∀ a, p a = true → q (f a) = q a)
    (h : ∀ a, l.find? q = some a → ¬ p a = true) : (updateFirst p f l).find? q = l.find? q := by
  rcases find?_updateFirst_or (l := l) hq with hsame | ⟨a, ha, hp, _⟩
  · exact hsame
  · exact absurd hp (h a ha)

theorem find?_updateOrPush {new : α} (hf : ∀ a, p a = true → p (f a) = true)
    (hnew : p (f new) = true) :
    (updateOrPush p f new l).find? p = some (f ((l.find? p).getD new)) := by
  unfold updateOrPush
  split_ifs with hany
  · rw [find?_updateFirst hf]
    obtain ⟨a, ha⟩ := Option.isSome_iff_exists.mp ((List.find?_isSome (p := p)).mpr (by simpa using hany))
    rw [ha]
    rfl
  · have hnone : l.find? p = none := by simpa using hany
    rw [List.find?_append, hnone]
    simp [hnew]

/-- Records found by another key stay as they are. -/
theorem find?_updateOrPush_of_ne {new : α} {q : α → Bool} (hq : ∀ a, p a = true → q (f a) = q a)
    (hpq : ∀ a, p a = true → q a = false) (hnew : q (f new) = false) :
    (updateOrPush p f new l).find? q = l.find? q := by
  unfold updateOrPush
  split_ifs
  · refine find?_updateFirst_of_not hq fun a ha hp => ?_
    exact Bool.noConfusion ((hpq a hp).symm.trans (List.find?_some ha))
  · rw [List.find?_append]
    simp [hnew]

section

variable {β : Type} [DecidableEq β] {key : α → β} {k : β}

/-- Records found by their key after an update of one. -/
theorem find?_key_updateFirst (hf : ∀ a, key (f a) = key a) :
    (fun q => (updateFirst (fun a => key a = k) f l).find? fun a => key a = q) =
      Function.update (fun q => l.find? fun a => key a = q) k
        ((l.find? fun a => key a = k).map f) := by
  funext q
  by_cases hq : q = k
  · subst hq
    rw [Function.update_self]
    exact find?_updateFirst fun a ha => by rwa [hf]
  · rw [Function.update_of_ne hq]
    refine find?_updateFirst_of_not (fun a _ => by rw [hf]) fun a ha hk => hq ?_
    have hkey := List.find?_some ha
    exact (of_decide_eq_true hkey).symm.trans (of_decide_eq_true hk)

theorem find?_key_updateOrPush {new : α} (hf : ∀ a, key (f a) = key a) (hnew : key new = k) :
    (fun q => (updateOrPush (fun a => key a = k) f new l).find? fun a => key a = q) =
      Function.update (fun q => l.find? fun a => key a = q) k
        (some (f ((l.find? fun a => key a = k).getD new))) := by
  funext q
  by_cases hq : q = k
  · subst hq
    rw [Function.update_self]
    refine find?_updateOrPush (fun a ha => by rwa [hf]) ?_
    rw [hf, hnew, decide_eq_true rfl]
  · rw [Function.update_of_ne hq]
    apply find?_updateOrPush_of_ne
    · exact fun a _ => by rw [hf]
    · exact fun a ha => decide_eq_false fun h => hq (h ▸ of_decide_eq_true ha)
    · exact decide_eq_false fun h => hq (h ▸ (hf new).trans hnew)

end

theorem mem_updateOrPush {new b : α} (h : b ∈ updateOrPush p f new l) :
    b ∈ l ∨ (∃ a ∈ l, p a = true ∧ b = f a) ∨ ((∀ a ∈ l, p a = false) ∧ b = f new) := by
  unfold updateOrPush at h
  split_ifs at h with hany
  · rcases mem_updateFirst h with h | h
    · exact .inl h
    · exact .inr (.inl h)
  · rcases List.mem_append.mp h with h | h
    · exact .inl h
    · refine .inr (.inr ⟨?_, by simpa using h⟩)
      simpa using hany

/-- A view of the records sees an update as one of its own. -/
theorem map_updateFirst_view {β : Type} {g : α → β} {r : β → Bool} {f' : β → β}
    (hp : ∀ a, r (g a) = p a) (hf : ∀ a, g (f a) = f' (g a)) :
    (updateFirst p f l).map g = updateFirst r f' (l.map g) := by
  induction l with
  | nil => rfl
  | cons a l ih =>
    by_cases ha : p a = true
    · simp [updateFirst, hp, ha, hf]
    · simp [updateFirst, hp, ha, ih]

theorem map_updateOrPush_view {β : Type} {g : α → β} {r : β → Bool} {f' : β → β} {new : α}
    (hp : ∀ a, r (g a) = p a) (hf : ∀ a, g (f a) = f' (g a)) :
    (updateOrPush p f new l).map g = updateOrPush r f' (g new) (l.map g) := by
  have hany : (l.map g).any r = l.any p := by
    rw [List.any_map]
    exact congrArg l.any (funext hp)
  unfold updateOrPush
  rw [hany]
  split_ifs
  · exact map_updateFirst_view hp hf
  · rw [List.map_append, List.map_singleton, hf]

theorem updateFirst_updateOrPush {g : α → α} {new : α} (hf : ∀ a, p a = true → p (f a) = true)
    (hnew : p (f new) = true) :
    updateFirst p g (updateOrPush p f new l) = updateOrPush p (fun a => g (f a)) new l := by
  unfold updateOrPush
  split_ifs with hany
  · exact updateFirst_updateFirst hf
  · have hnone : ∀ a ∈ l, ¬ p a = true := by simpa using hany
    clear hany
    induction l with
    | nil => simp [updateFirst, hnew]
    | cons a l ih =>
      have ha := hnone a List.mem_cons_self
      have hrest := ih fun b hb => hnone b (List.mem_cons_of_mem _ hb)
      simp only [List.cons_append, updateFirst, ha, Bool.false_eq_true, if_false, hrest]

theorem updateOrPush_of_any {new : α} (h : l.any p = true) :
    updateOrPush p f new l = updateFirst p f l := if_pos h

theorem updateFirst_congr {q : α → Bool} (h : ∀ a ∈ l, p a = q a) :
    updateFirst p f l = updateFirst q f l := by
  induction l with
  | nil => rfl
  | cons a l ih =>
    have ha := h a List.mem_cons_self
    have hl := ih fun b hb => h b (List.mem_cons_of_mem _ hb)
    simp only [updateFirst, ha, hl]

theorem updateOrPush_congr {q : α → Bool} {new : α} (h : ∀ a ∈ l, p a = q a) :
    updateOrPush p f new l = updateOrPush q f new l := by
  have hany : l.any p = l.any q := by
    rw [Bool.eq_iff_iff, List.any_eq_true, List.any_eq_true]
    exact exists_congr fun a => and_congr_right fun ha => by rw [h a ha]
  simp only [updateOrPush, hany, updateFirst_congr h]

theorem map_updateOrPush {β : Type} {g : α → β} {new : α} (h : ∀ a, p a = true → g (f a) = g a) :
    (updateOrPush p f new l).map g = if l.any p then l.map g else l.map g ++ [g (f new)] := by
  unfold updateOrPush
  split_ifs
  · exact map_updateFirst h
  · simp

/-- Records found by their key keep distinct keys. -/
theorem nodup_map_updateOrPush {β : Type} {g : α → β} {new : α}
    (h : ∀ a, p a = true → g (f a) = g a) (hnew : ∀ a, g a = g (f new) → p a = true)
    (hl : (l.map g).Nodup) : ((updateOrPush p f new l).map g).Nodup := by
  rw [map_updateOrPush h]
  split_ifs with hany
  · exact hl
  · rw [← List.concat_eq_append]
    refine List.Nodup.concat ?_ hl
    intro hmem
    obtain ⟨a, ha, heq⟩ := List.mem_map.mp hmem
    exact hany (List.any_eq_true.mpr ⟨a, ha, hnew a heq⟩)

theorem map_prefix_updateOrPush {β : Type} {g : α → β} {new : α}
    (h : ∀ a, p a = true → g (f a) = g a) : l.map g <+: (updateOrPush p f new l).map g := by
  rw [map_updateOrPush h]
  split_ifs
  · exact List.prefix_rfl
  · exact List.prefix_append _ _

theorem nodup_pushUnique [DecidableEq α] {l : List α} (a : α) (hl : l.Nodup) :
    (pushUnique l a).Nodup := by
  unfold pushUnique
  split_ifs with h
  · exact hl
  · rw [← List.concat_eq_append]
    exact List.Nodup.concat h hl

theorem nodup_foldl_pushUnique [DecidableEq α] {acc : List α} (l : List α) (h : acc.Nodup) :
    (l.foldl pushUnique acc).Nodup := by
  induction l generalizing acc with
  | nil => exact h
  | cons a l ih => exact ih (nodup_pushUnique a h)

theorem foldl_pushUnique_eq_self [DecidableEq α] {l acc : List α} :
    l.foldl pushUnique acc = acc ↔ ∀ a ∈ l, a ∈ acc := by
  constructor
  · intro h a ha
    rw [← h]
    exact mem_foldl_pushUnique.mpr (.inr ha)
  · intro h
    induction l with
    | nil => rfl
    | cons a l ih =>
      have ha : pushUnique acc a = acc := if_pos (h a List.mem_cons_self)
      rw [List.foldl_cons, ha]
      exact ih fun b hb => h b (List.mem_cons_of_mem _ hb)

theorem prefix_foldl_pushUnique [DecidableEq α] (acc l : List α) : acc <+: l.foldl pushUnique acc := by
  induction l generalizing acc with
  | nil => exact List.prefix_refl acc
  | cons a l ih =>
    have hone : acc <+: pushUnique acc a := by
      unfold pushUnique
      split_ifs
      · exact List.prefix_refl acc
      · exact List.prefix_append acc [a]
    exact hone.trans (ih (pushUnique acc a))

theorem foldl_pushUnique_append [DecidableEq α] (acc l : List α) :
    l.foldl pushUnique acc = acc ++ (l.filter fun a => a ∉ acc).eraseDups := by
  induction l generalizing acc with
  | nil => simp
  | cons a l ih =>
    rw [List.foldl_cons, ih]
    by_cases ha : a ∈ acc
    · have hsame : pushUnique acc a = acc := if_pos ha
      rw [hsame, List.filter_cons_of_neg (by simpa using ha)]
    · have hpush : pushUnique acc a = acc ++ [a] := if_neg ha
      have hlater : (l.filter fun b => b ∉ acc ++ [a]) =
          (l.filter fun b => b ∉ acc).filter fun b => !b == a := by
        rw [List.filter_filter]
        refine List.filter_congr fun b _ => ?_
        simp only [List.mem_append, List.mem_singleton, not_or, Bool.decide_and]
        rw [Bool.and_comm]
        by_cases hba : b = a <;> simp [hba]
      rw [hpush, List.filter_cons_of_pos (by simpa using ha), List.eraseDups_cons, hlater,
        List.append_assoc]
      rfl

theorem foldl_pushUnique_nil [DecidableEq α] (l : List α) : l.foldl pushUnique [] = l.eraseDups := by
  rw [foldl_pushUnique_append, List.nil_append, List.filter_eq_self.mpr (by simp)]

/-- An update that neither gives nor takes a property keeps whether some
element has it. -/
theorem exists_updateFirst {P : α → Prop} (hP : ∀ a, p a = true → (P (f a) ↔ P a)) :
    (∃ a ∈ updateFirst p f l, P a) ↔ ∃ a ∈ l, P a := by
  induction l with
  | nil => rfl
  | cons a l ih =>
    by_cases ha : p a = true
    · simp only [updateFirst, ha, if_true, List.exists_mem_cons_iff, hP a ha]
    · simp only [updateFirst, ha, Bool.false_eq_true, if_false, List.exists_mem_cons_iff]
      exact or_congr Iff.rfl ih

theorem exists_updateOrPush {P : α → Prop} {new : α} (hP : ∀ a, p a = true → (P (f a) ↔ P a))
    (hnew : ¬ P (f new)) : (∃ a ∈ updateOrPush p f new l, P a) ↔ ∃ a ∈ l, P a := by
  unfold updateOrPush
  split_ifs
  · exact exists_updateFirst hP
  · simp [List.mem_append, or_and_right, exists_or, hnew]

theorem exists_updateFirst_mono {P : α → Prop} (hP : ∀ a ∈ l, p a = true → P a → P (f a))
    (h : ∃ a ∈ l, P a) : ∃ a ∈ updateFirst p f l, P a := by
  induction l with
  | nil => simp at h
  | cons a l ih =>
    have hrest := ih fun b hb => hP b (List.mem_cons_of_mem _ hb)
    by_cases ha : p a = true
    · simp only [updateFirst, ha, if_true, List.exists_mem_cons_iff] at h ⊢
      exact h.imp_left (hP a List.mem_cons_self ha)
    · simp only [updateFirst, ha, Bool.false_eq_true, if_false, List.exists_mem_cons_iff] at h ⊢
      exact h.imp_right hrest

theorem exists_updateOrPush_mono {P : α → Prop} {new : α}
    (hP : ∀ a ∈ l, p a = true → P a → P (f a)) (h : ∃ a ∈ l, P a) :
    ∃ a ∈ updateOrPush p f new l, P a := by
  unfold updateOrPush
  split_ifs
  · exact exists_updateFirst_mono hP h
  · obtain ⟨a, ha, hPa⟩ := h
    exact ⟨a, List.mem_append_left _ ha, hPa⟩

/-- Records are told apart by their keys. -/
theorem countP_key_filter {β : Type} [DecidableEq β] {g : α → β} (h : (l.map g).Nodup) {a : α}
    (ha : a ∈ l) (q : α → Bool) :
    (l.filter q).countP (fun b => g b = g a) = if q a then 1 else 0 := by
  rw [List.countP_filter]
  induction l with
  | nil => cases ha
  | cons b l ih =>
    obtain ⟨hb, hl⟩ := List.nodup_cons.mp h
    have hne : ∀ c ∈ l, g c ≠ g b := fun c hc heq => hb (heq ▸ List.mem_map_of_mem hc)
    rw [List.countP_cons]
    rcases List.mem_cons.mp ha with rfl | hmem
    · have hnone : l.countP (fun c => decide (g c = g a) && q c) = 0 := by
        refine List.countP_eq_zero.mpr fun c hc => ?_
        simp [hne c hc]
      simp [hnone]
    · have hfirst : g b ≠ g a := fun heq => hne a hmem heq.symm
      simpa [hfirst] using ih hl hmem

/-- With distinct keys, a record is found by its key. -/
theorem find?_of_nodup {β : Type} [DecidableEq β] {g : α → β} (h : (l.map g).Nodup) {a : α}
    (ha : a ∈ l) : l.find? (fun b => g b = g a) = some a := by
  induction l with
  | nil => simp at ha
  | cons b l ih =>
    obtain ⟨hb, hl⟩ := List.nodup_cons.mp h
    rcases List.mem_cons.mp ha with rfl | hmem
    · simp
    · have hne : g b ≠ g a := fun heq => hb (heq ▸ List.mem_map_of_mem hmem)
      rw [List.find?_cons_of_neg (by simpa using hne)]
      exact ih hl hmem

/-- Two tables with distinct keys and the same record for each key. -/
theorem perm_of_find?_key {β : Type} [DecidableEq β] {g : α → β} {m : List α}
    (hl : (l.map g).Nodup) (hm : (m.map g).Nodup)
    (h : ∀ k, (l.find? fun a => g a = k) = m.find? fun a => g a = k) : l.Perm m := by
  have hmem : ∀ {t : List α}, (t.map g).Nodup →
      ∀ a, a ∈ t ↔ (t.find? fun b => g b = g a) = some a := fun ht a =>
    ⟨find?_of_nodup ht, List.mem_of_find?_eq_some⟩
  refine (List.perm_ext_iff_of_nodup hl.of_map hm.of_map).mpr fun a => ?_
  rw [hmem hl, hmem hm, h]

theorem sum_map_updateFirst {γ : Type} [AddCommMonoid γ] {g : α → γ} {c : γ}
    (hg : ∀ a, p a = true → g (f a) = g a + c) (h : l.any p = true) :
    ((updateFirst p f l).map g).sum = (l.map g).sum + c := by
  induction l with
  | nil => cases h
  | cons a l ih =>
    by_cases ha : p a = true
    · simp only [updateFirst, ha, if_true, List.map_cons, List.sum_cons, hg a ha]
      exact add_right_comm _ _ _
    · have hrest := ih (by simpa [ha] using h)
      simp only [updateFirst, ha, Bool.false_eq_true, if_false, List.map_cons, List.sum_cons, hrest]
      exact (add_assoc _ _ _).symm

/-- A count that goes up with each update, and starts there in a new record. -/
theorem sum_map_updateOrPush {γ : Type} [AddCommMonoid γ] {g : α → γ} {c : γ} {new : α}
    (hg : ∀ a, p a = true → g (f a) = g a + c) (hnew : g (f new) = c) :
    ((updateOrPush p f new l).map g).sum = (l.map g).sum + c := by
  unfold updateOrPush
  split_ifs with hany
  · exact sum_map_updateFirst hg hany
  · simp [hnew]

theorem find?_eraseP_of_ne {q : α → Bool} (hpq : ∀ a, p a = true → q a = false) :
    (l.eraseP p).find? q = l.find? q := by
  induction l with
  | nil => rfl
  | cons a l ih =>
    by_cases ha : p a = true
    · simp [ha, hpq a ha]
    · rw [List.eraseP_cons_of_neg ha, List.find?_cons, List.find?_cons, ih]

theorem exists_eraseP {P : α → Prop} (h : ∀ a, l.find? p = some a → ¬ P a) :
    (∃ a ∈ l.eraseP p, P a) ↔ ∃ a ∈ l, P a := by
  induction l with
  | nil => rfl
  | cons a l ih =>
    by_cases ha : p a = true
    · have hno : ¬ P a := h a (by simp [ha])
      simp [ha, hno]
    · have hih := ih fun b hb => h b (by simpa [ha] using hb)
      simp only [List.eraseP_cons, ha, cond_false, List.exists_mem_cons_iff]
      exact or_congr Iff.rfl hih

theorem exists_updateFirst_of {P : α → Prop} (hP : ∀ a ∈ l, p a = true → P (f a))
    (h : l.any p = true) : ∃ a ∈ updateFirst p f l, P a := by
  induction l with
  | nil => simp at h
  | cons a l ih =>
    by_cases ha : p a = true
    · exact ⟨f a, by simp [updateFirst, ha], hP a List.mem_cons_self ha⟩
    · obtain ⟨b, hb, hp⟩ := ih (fun b hb => hP b (List.mem_cons_of_mem _ hb)) (by simpa [ha] using h)
      exact ⟨b, by simp [updateFirst, ha, hb], hp⟩

theorem exists_updateOrPush_of {P : α → Prop} {new : α} (hP : ∀ a, p a = true → P (f a))
    (hnew : P (f new)) : ∃ a ∈ updateOrPush p f new l, P a := by
  unfold updateOrPush
  split_ifs with hany
  · exact exists_updateFirst_of (fun a _ => hP a) hany
  · exact ⟨f new, by simp, hnew⟩

end

end Lib
