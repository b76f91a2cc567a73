import Voicers.Lib.Trace

/-! A growing family of machines of one kind, each of which steps on its own, in
any order. What one of them goes through is a run of that machine alone. -/

namespace Lib

variable {σ ι ο α : Type}

/-- A new machine starts, or the one with the given number makes a step. -/
inductive FamilyInput (α ι : Type)
  | start (how : α)
  | member (number : Nat) (input : ι)

def familyStep (start : α → σ) (step : σ → ι → Option (ο × σ)) (members : List σ) :
    FamilyInput α ι → Option (Option ο × List σ)
  | .start how => some (none, members ++ [start how])
  | .member number input =>
    match members[number]? with
    | none => none
    | some s =>
      match step s input with
      | none => none
      | some (output, t) => some (some output, members.set number t)

abbrev FamilyTransition (σ ι ο α : Type) := Transition (List σ) (FamilyInput α ι) (Option ο)

/-- A transition of the family as one of the member with the given number. -/
def memberTransition (number : Nat) (x : FamilyTransition σ ι ο α) : Option (Transition σ ι ο) :=
  match x.input, x.output, x.before[number]?, x.after[number]? with
  | .member other input, some output, some before, some after =>
    if other = number then some ⟨before, input, output, after⟩ else none
  | _, _, _, _ => none

def memberTrace (number : Nat) (tr : List (FamilyTransition σ ι ο α)) : List (Transition σ ι ο) :=
  tr.filterMap (memberTransition number)

def startedBy (x : FamilyTransition σ ι ο α) : Option α :=
  match x.input with
  | .start how => some how
  | .member _ _ => none

/-- How the members were started, in the order of their numbers. -/
def starts (tr : List (FamilyTransition σ ι ο α)) : List α := tr.filterMap startedBy

section

variable {start : α → σ} {step : σ → ι → Option (ο × σ)} {members members' : List σ}
  {tr : List (FamilyTransition σ ι ο α)} {x : FamilyTransition σ ι ο α} {number : Nat} {s : σ}

theorem memberTrace_snoc (number : Nat) (tr : List (FamilyTransition σ ι ο α))
    (x : FamilyTransition σ ι ο α) :
    memberTrace number (tr ++ [x]) = memberTrace number tr ++ (memberTransition number x).toList := by
  rw [memberTrace, List.filterMap_append]
  cases hx : memberTransition number x with
  | none => simp [memberTrace, hx]
  | some _ => simp [memberTrace, hx]

theorem starts_snoc (tr : List (FamilyTransition σ ι ο α)) (x : FamilyTransition σ ι ο α) :
    starts (tr ++ [x]) = starts tr ++ (startedBy x).toList := by
  rw [starts, List.filterMap_append]
  cases hx : startedBy x with
  | none => simp [starts, hx]
  | some _ => simp [starts, hx]

/-- A step of the family starts a member or is a step of one, and leaves the others alone. -/
theorem familyStep_cases
    (h : familyStep start step x.before x.input = some (x.output, x.after)) :
    (∃ how, startedBy x = some how ∧ x.after = x.before ++ [start how] ∧
      ∀ number, memberTransition number x = none) ∨
    ∃ number y, startedBy x = none ∧ x.before[number]? = some y.before ∧
      step y.before y.input = some (y.output, y.after) ∧ x.after = x.before.set number y.after ∧
      memberTransition number x = some y ∧
      ∀ other, other ≠ number → memberTransition other x = none := by
  obtain ⟨before, input, output, after⟩ := x
  cases input with
  | start how =>
    exact .inl ⟨how, rfl, (Prod.mk.inj (Option.some.inj h)).2.symm, fun _ => rfl⟩
  | member number input =>
    unfold familyStep at h
    cases hbefore : before[number]? with
    | none => simp [hbefore] at h
    | some s =>
      cases hstep : step s input with
      | none => simp [hbefore, hstep] at h
      | some result =>
        simp only [hbefore, hstep, Option.some.injEq, Prod.mk.injEq] at h
        obtain ⟨rfl, rfl⟩ := h
        have hlt : number < before.length := (List.getElem?_eq_some_iff.mp hbefore).1
        have hafter : (before.set number result.2)[number]? = some result.2 :=
          List.getElem?_set_self hlt
        refine .inr ⟨number, ⟨s, input, result.1, result.2⟩, rfl, hbefore, hstep, rfl, ?_, ?_⟩
        · simp [memberTransition, hbefore, hafter]
        · intro other hother
          unfold memberTransition
          split
          · rename_i hinput _ _ _
            cases hinput
            exact if_neg (Ne.symm hother)
          · rfl

/-- What is known of the members after a run of the family. -/
structure FamilyRun (start : α → σ) (step : σ → ι → Option (ο × σ))
    (tr : List (FamilyTransition σ ι ο α)) (members : List σ) : Prop where
  length : (starts tr).length = members.length
  later number : members.length ≤ number → memberTrace number tr = []
  member number s : members[number]? = some s → ∃ how, (starts tr)[number]? = some how ∧
    Trace step (start how) (memberTrace number tr) s

theorem FamilyRun.snoc (h : FamilyRun start step tr x.before)
    (hstep : familyStep start step x.before x.input = some (x.output, x.after)) :
    FamilyRun start step (tr ++ [x]) x.after := by
  obtain ⟨how, hhow, hafter, hnone⟩ | ⟨number, y, hhow, hbefore, hy, hafter, hsome, hothers⟩ :=
    familyStep_cases hstep
  · have htrace : ∀ number, memberTrace number (tr ++ [x]) = memberTrace number tr := by
      intro number
      rw [memberTrace_snoc, hnone]
      exact List.append_nil _
    refine ⟨?_, ?_, ?_⟩
    · rw [starts_snoc, hhow, hafter, List.length_append, List.length_append, h.length]
      rfl
    · intro number hle
      rw [htrace]
      refine h.later number (Nat.le_trans ?_ hle)
      simp [hafter]
    · intro number s hs
      rw [htrace, starts_snoc, hhow]
      rw [hafter] at hs
      by_cases hlt : number < x.before.length
      · rw [List.getElem?_append_left hlt] at hs
        obtain ⟨how', hhow', htr⟩ := h.member number s hs
        exact ⟨how', by rwa [List.getElem?_append_left (h.length ▸ hlt)], htr⟩
      · have hnumber : number = x.before.length := by
          have hbound := (List.getElem?_eq_some_iff.mp hs).1
          simp only [List.length_append, List.length_singleton] at hbound
          omega
        subst hnumber
        rw [List.getElem?_concat_length] at hs
        cases hs
        refine ⟨how, ?_, ?_⟩
        · rw [← h.length]
          exact List.getElem?_concat_length ..
        · rw [h.later _ (Nat.le_refl _)]
          exact .nil _
  · have hlength : x.after.length = x.before.length := by rw [hafter, List.length_set]
    have hstarts : starts (tr ++ [x]) = starts tr := by
      rw [starts_snoc, hhow]
      exact List.append_nil _
    refine ⟨by rw [hstarts, h.length, hlength], ?_, ?_⟩
    · intro other hle
      rw [hlength] at hle
      have hlt : number < x.before.length := (List.getElem?_eq_some_iff.mp hbefore).1
      rw [memberTrace_snoc, hothers other (by omega), h.later other hle]
      rfl
    · intro other s hs
      rw [hstarts, memberTrace_snoc]
      rw [hafter] at hs
      by_cases hother : other = number
      · subst hother
        rw [List.getElem?_set_self (List.getElem?_eq_some_iff.mp hbefore).1] at hs
        cases hs
        obtain ⟨how', hhow', htr⟩ := h.member other y.before hbefore
        refine ⟨how', hhow', ?_⟩
        rw [hsome]
        exact Trace.append_iff.mpr ⟨y.before, htr, .cons hy (.nil _)⟩
      · rw [List.getElem?_set_ne (Ne.symm hother)] at hs
        rw [hothers other hother]
        simpa using h.member other s hs

/-- A member of a family sees a run of its own. -/
theorem familyRun (h : Trace (familyStep start step) [] tr members) :
    FamilyRun start step tr members :=
  h.snoc_induction (P := FamilyRun start step)
    ⟨rfl, fun _ _ => rfl, fun number s hs => by simp at hs⟩
    fun _ _ _ hstep ih => ih.snoc hstep

end

end Lib
