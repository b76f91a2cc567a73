import Voicers.Lib.Trace

/-! Two runs of one system that differ only in hidden inputs. When states that
look alike stay so under hidden inputs on either side and under a common
input on both, the two runs show the same outputs. -/

namespace Lib

variable {σ ι ο γ β : Type} {step : σ → ι → Option (ο × σ)}

section

variable {α α' δ δ' : Type} {r : α → δ → Prop} {r' : α' → δ' → Prop} {a : Option α} {d : Option δ}

theorem rel_cases (h : Option.Rel r a d) :
    (a = none ∧ d = none) ∨ ∃ x y, a = some x ∧ d = some y ∧ r x y := by
  cases h with
  | none => exact .inl ⟨rfl, rfl⟩
  | some hr => exact .inr ⟨_, _, rfl, rfl, hr⟩

theorem rel_bind (h : Option.Rel r a d) {f : α → Option α'} {g : δ → Option δ'}
    (hfg : ∀ x y, r x y → Option.Rel r' (f x) (g y)) : Option.Rel r' (a.bind f) (d.bind g) := by
  cases h with
  | none => exact .none
  | some hr => exact hfg _ _ hr

theorem rel_map (h : Option.Rel r a d) {f : α → α'} {g : δ → δ'}
    (hfg : ∀ x y, r x y → r' (f x) (g y)) : Option.Rel r' (a.map f) (d.map g) := by
  cases h with
  | none => exact .none
  | some hr => exact .some (hfg _ _ hr)

theorem rel_imp {s : α → δ → Prop} (h : Option.Rel r a d) (himp : ∀ x y, r x y → s x y) :
    Option.Rel s a d := by
  cases h with
  | none => exact .none
  | some hr => exact .some (himp _ _ hr)

theorem rel_rfl {s : α → α → Prop} (h : ∀ x, s x x) (a : Option α) : Option.Rel s a a := by
  cases a with
  | none => exact .none
  | some x => exact .some (h x)

end

/-- The inputs of a run that are not hidden. -/
def heard (isHidden : Transition σ ι ο → Bool) (tr : List (Transition σ ι ο)) : List ι :=
  (tr.filter fun x => !isHidden x).map Transition.input

def shown (view : ο → List β) (tr : List (Transition σ ι ο)) : List β :=
  tr.flatMap fun x => view x.output

/-- Every transition meets `Q`, which may look at a summary of the run that
led to it. -/
def Guarded (update : γ → Transition σ ι ο → γ) (Q : γ → Transition σ ι ο → Prop) :
    γ → List (Transition σ ι ο) → Prop
  | _, [] => True
  | g, x :: tr => Q g x ∧ Guarded update Q (update g x) tr

instance decidableGuarded {update : γ → Transition σ ι ο → γ} {Q : γ → Transition σ ι ο → Prop}
    [∀ g x, Decidable (Q g x)] (g : γ) (tr : List (Transition σ ι ο)) :
    Decidable (Guarded update Q g tr) :=
  match tr with
  | [] => inferInstanceAs (Decidable True)
  | x :: tr => @instDecidableAnd _ _ _ (decidableGuarded (update g x) tr)

theorem heard_eq (isHidden : Transition σ ι ο → Bool) (tr : List (Transition σ ι ο)) :
    heard isHidden tr = (((tr.map Transition.input).zip (tr.map isHidden)).filter
      fun p => !p.2).map Prod.fst := by
  rw [List.zip_map', List.filter_map, List.map_map]
  rfl

theorem heard_append (isHidden : Transition σ ι ο → Bool) (a b : List (Transition σ ι ο)) :
    heard isHidden (a ++ b) = heard isHidden a ++ heard isHidden b := by
  simp only [heard, List.filter_append, List.map_append]

theorem shown_append (view : ο → List β) (a b : List (Transition σ ι ο)) :
    shown view (a ++ b) = shown view a ++ shown view b :=
  List.flatMap_append

/-- What has to be shown of one step on either side, and of one on both. -/
structure Unwinding (step : σ → ι → Option (ο × σ)) (isHidden : Transition σ ι ο → Bool)
    (view : ο → List β) (update : γ → Transition σ ι ο → γ) (Q : γ → Transition σ ι ο → Prop)
    (R : γ → σ → γ → σ → Prop) : Prop where
  symm : ∀ g s h t, R g s h t → R h t g s
  hidden : ∀ g (x : Transition σ ι ο) h t,
    step x.before x.input = some (x.output, x.after) → isHidden x = true → Q g x →
    R g x.before h t → R (update g x) x.after h t ∧ view x.output = []
  both : ∀ g (x : Transition σ ι ο) h (y : Transition σ ι ο),
    step x.before x.input = some (x.output, x.after) →
    step y.before y.input = some (y.output, y.after) →
    isHidden x = false → isHidden y = false → x.input = y.input → Q g x → Q h y →
    R g x.before h y.before →
    R (update g x) x.after (update h y) y.after ∧ view x.output = view y.output

section

variable {isHidden : Transition σ ι ο → Bool} {view : ο → List β}
  {update : γ → Transition σ ι ο → γ} {Q : γ → Transition σ ι ο → Prop}
  {R : γ → σ → γ → σ → Prop}

/-- A run that hears nothing shows nothing and keeps the likeness. -/
theorem Unwinding.silent (hu : Unwinding step isHidden view update Q R) {g h : γ} {s s' t : σ}
    {tr : List (Transition σ ι ο)} (htr : Trace step s tr s') (hq : Guarded update Q g tr)
    (hheard : heard isHidden tr = []) (hr : R g s h t) : shown view tr = [] := by
  induction htr generalizing g with
  | nil => rfl
  | @cons s m t' i o tr hstep _ ih =>
    obtain ⟨hx, hrest⟩ := hq
    have hall : ∀ x ∈ (⟨s, i, o, m⟩ : Transition σ ι ο) :: tr, isHidden x = true := by
      simpa [heard, List.filter_eq_nil_iff] using hheard
    obtain ⟨hnext, hview⟩ := hu.hidden g ⟨s, i, o, m⟩ h t hstep (hall _ List.mem_cons_self) hx hr
    have htail : heard isHidden tr = [] := by
      simpa [heard, List.filter_eq_nil_iff] using
        fun x hx => hall x (List.mem_cons_of_mem _ hx)
    have hshown := ih hrest htail hnext
    simp only [shown, List.flatMap_cons] at hshown ⊢
    rw [hview, hshown]
    rfl

/-- Up to the next input it hears, a run shows nothing and keeps the
likeness. -/
theorem Unwinding.advance (hu : Unwinding step isHidden view update Q R) {g h : γ} {s s' t : σ}
    {i : ι} {is : List ι} {tr : List (Transition σ ι ο)} (htr : Trace step s tr s')
    (hq : Guarded update Q g tr) (hheard : heard isHidden tr = i :: is) (hr : R g s h t) :
    ∃ g' x rest, step x.before x.input = some (x.output, x.after) ∧ Trace step x.after rest s' ∧
      x.input = i ∧ isHidden x = false ∧ Q g' x ∧ Guarded update Q (update g' x) rest ∧
      heard isHidden rest = is ∧ R g' x.before h t ∧
      shown view tr = view x.output ++ shown view rest := by
  induction htr generalizing g with
  | nil => cases hheard
  | @cons s m t' j o tr hstep htail ih =>
    obtain ⟨hx, hrest⟩ := hq
    cases hh : isHidden ⟨s, j, o, m⟩ with
    | true =>
      obtain ⟨hnext, hview⟩ := hu.hidden g ⟨s, j, o, m⟩ h t hstep hh hx hr
      have hheard' : heard isHidden tr = i :: is := by
        simpa [heard, hh] using hheard
      obtain ⟨g', x, rest, h1, h2, h3, h4, h5, h6, h7, h8, h9⟩ := ih hrest hheard' hnext
      refine ⟨g', x, rest, h1, h2, h3, h4, h5, h6, h7, h8, ?_⟩
      rw [← h9]
      simp only [shown, List.flatMap_cons, hview, List.nil_append]
    | false =>
      have hheard' : j :: heard isHidden tr = i :: is := by
        simpa [heard, hh] using hheard
      obtain ⟨rfl, htl⟩ := List.cons.inj hheard'
      exact ⟨g, ⟨s, j, o, m⟩, tr, hstep, htail, rfl, hh, hx, hrest, htl, hr, rfl⟩

theorem Unwinding.shown_eq (hu : Unwinding step isHidden view update Q R) {g h : γ}
    {s s' t t' : σ} {a b : List (Transition σ ι ο)} (ha : Trace step s a s')
    (hb : Trace step t b t') (hqa : Guarded update Q g a) (hqb : Guarded update Q h b)
    (hheard : heard isHidden a = heard isHidden b) (hr : R g s h t) :
    shown view a = shown view b := by
  induction ha generalizing g h t b with
  | nil s =>
    have hnil : heard isHidden b = [] := hheard.symm
    exact (hu.silent hb hqb hnil (hu.symm _ _ _ _ hr)).symm
  | @cons s m s' i o a hstep _ ih =>
    obtain ⟨hx, hrest⟩ := hqa
    cases hh : isHidden ⟨s, i, o, m⟩ with
    | true =>
      obtain ⟨hnext, hview⟩ := hu.hidden g ⟨s, i, o, m⟩ h t hstep hh hx hr
      have hheard' : heard isHidden a = heard isHidden b := by
        simpa [heard, hh] using hheard
      have hshown := ih hb hrest hqb hheard' hnext
      rw [← hshown]
      simp only [shown, List.flatMap_cons, hview, List.nil_append]
    | false =>
      have hheard' : heard isHidden b = i :: heard isHidden a := by
        simpa [heard, hh] using hheard.symm
      obtain ⟨h', y, rest, hy, hyrest, hinput, hyhidden, hyq, hyguard, hyheard, hyr, hyshown⟩ :=
        hu.advance hb hqb hheard' (hu.symm _ _ _ _ hr)
      obtain ⟨hnext, hview⟩ := hu.both g ⟨s, i, o, m⟩ h' y hstep hy hh hyhidden hinput.symm hx hyq
        (hu.symm _ _ _ _ hyr)
      have hshown := ih hyrest hrest hyguard hyheard.symm hnext
      rw [hyshown, ← hshown, ← hview]
      simp only [shown, List.flatMap_cons]

end

end Lib
