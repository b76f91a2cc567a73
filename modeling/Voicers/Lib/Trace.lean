import Mathlib.Data.List.Basic
import Mathlib.Data.List.Induction

/-! Runs of a partial step function, recorded transition by transition. A
step may refuse, which ends the run; the record keeps the states on both
sides of every transition, so that properties of whole runs can speak about
what a step found and what it left behind. -/

namespace Lib

structure Transition (σ ι ο : Type) where
  before : σ
  input : ι
  output : ο
  after : σ

section

variable {σ ι ο : Type} {step : σ → ι → Option (ο × σ)}

/-- `Trace step s tr t`: the transitions `tr` lead from `s` to `t`. -/
inductive Trace (step : σ → ι → Option (ο × σ)) : σ → List (Transition σ ι ο) → σ → Prop
  | nil (s : σ) : Trace step s [] s
  | cons {s m t : σ} {i : ι} {o : ο} {tr : List (Transition σ ι ο)} :
      step s i = some (o, m) → Trace step m tr t → Trace step s (⟨s, i, o, m⟩ :: tr) t

/-- Runs the inputs in order; `none` as soon as one of them is refused. -/
def execute (step : σ → ι → Option (ο × σ)) : σ → List ι → Option (List (Transition σ ι ο) × σ)
  | s, [] => some ([], s)
  | s, i :: is =>
    match step s i with
    | none => none
    | some (o, m) =>
      match execute step m is with
      | none => none
      | some (tr, t) => some (⟨s, i, o, m⟩ :: tr, t)

theorem execute_trace {s t : σ} {is : List ι} {tr : List (Transition σ ι ο)}
    (h : execute step s is = some (tr, t)) : Trace step s tr t := by
  induction is generalizing s tr with
  | nil =>
    simp only [execute, Option.some.injEq, Prod.mk.injEq] at h
    obtain ⟨rfl, rfl⟩ := h
    exact .nil s
  | cons i is ih =>
    simp only [execute] at h
    cases hs : step s i with
    | none => simp [hs] at h
    | some r =>
      obtain ⟨o, m⟩ := r
      cases he : execute step m is with
      | none => simp [hs, he] at h
      | some q =>
        obtain ⟨tr', t'⟩ := q
        simp only [hs, he, Option.some.injEq, Prod.mk.injEq] at h
        obtain ⟨rfl, rfl⟩ := h
        exact .cons hs (ih he)

theorem execute_cons {s m t : σ} {i : ι} {o : ο} {is : List ι} {tr : List (Transition σ ι ο)}
    (h : step s i = some (o, m)) (h' : execute step m is = some (tr, t)) :
    execute step s (i :: is) = some (⟨s, i, o, m⟩ :: tr, t) := by
  simp only [execute, h, h']

theorem execute_append {s m t : σ} {is js : List ι} {a b : List (Transition σ ι ο)}
    (h : execute step s is = some (a, m)) (h' : execute step m js = some (b, t)) :
    execute step s (is ++ js) = some (a ++ b, t) := by
  induction is generalizing s a with
  | nil =>
    simp only [execute, Option.some.injEq, Prod.mk.injEq] at h
    obtain ⟨rfl, rfl⟩ := h
    exact h'
  | cons i is ih =>
    cases hs : step s i with
    | none => simp [execute, hs] at h
    | some r =>
      cases he : execute step r.2 is with
      | none => simp [execute, hs, he] at h
      | some q =>
        simp only [execute, hs, he, Option.some.injEq, Prod.mk.injEq] at h
        obtain ⟨rfl, rfl⟩ := h
        exact execute_cons hs (ih he)

theorem execute_inputs {s t : σ} {is : List ι} {tr : List (Transition σ ι ο)}
    (h : execute step s is = some (tr, t)) : tr.map Transition.input = is := by
  induction is generalizing s tr with
  | nil =>
    simp only [execute, Option.some.injEq, Prod.mk.injEq] at h
    rw [← h.1, List.map_nil]
  | cons i is ih =>
    cases hs : step s i with
    | none => simp [execute, hs] at h
    | some r =>
      cases he : execute step r.2 is with
      | none => simp [execute, hs, he] at h
      | some q =>
        simp only [execute, hs, he, Option.some.injEq, Prod.mk.injEq] at h
        obtain ⟨rfl, rfl⟩ := h
        rw [List.map_cons, ih he]

/-- When every step from the invariant returns, keeps it and pays for a
counted output with the potential, all inputs run and the potential of the
first state bounds the count. -/
theorem execute_potential {I : σ → Prop} {A : ι → Prop} {V : σ → Nat} {counted : ο → Bool}
    (hstep : ∀ s i, I s → A i → ∃ o t, step s i = some (o, t) ∧ I t ∧
      V t + (if counted o then 1 else 0) ≤ V s)
    {s : σ} (hs : I s) {is : List ι} (ha : ∀ i ∈ is, A i) :
    ∃ tr t, execute step s is = some (tr, t) ∧ tr.countP (fun x => counted x.output) ≤ V s := by
  induction is generalizing s with
  | nil => exact ⟨[], s, rfl, Nat.zero_le _⟩
  | cons i is ih =>
    obtain ⟨o, m, hm, hi, hv⟩ := hstep s i hs (ha i List.mem_cons_self)
    obtain ⟨tr, t, he, hc⟩ := ih hi fun j hj => ha j (List.mem_cons_of_mem _ hj)
    refine ⟨⟨s, i, o, m⟩ :: tr, t, by simp [execute, hm, he], ?_⟩
    rw [List.countP_cons]
    simp only
    omega

theorem execute_total (hstep : ∀ s i, ∃ o t, step s i = some (o, t)) (s : σ) (is : List ι) :
    ∃ tr t, execute step s is = some (tr, t) := by
  induction is generalizing s with
  | nil => exact ⟨[], s, rfl⟩
  | cons i is ih =>
    obtain ⟨o, m, hm⟩ := hstep s i
    obtain ⟨tr, t, ht⟩ := ih m
    exact ⟨_, t, execute_cons hm ht⟩

theorem execute_mono {step' : σ → ι → Option (ο × σ)}
    (hstep : ∀ s i r, step s i = some r → step' s i = some r) {s : σ} {is : List ι}
    {r : List (Transition σ ι ο) × σ} (h : execute step s is = some r) :
    execute step' s is = some r := by
  induction is generalizing s r with
  | nil => exact h
  | cons i is ih =>
    cases hs : step s i with
    | none => simp [execute, hs] at h
    | some q =>
      cases he : execute step q.2 is with
      | none => simp [execute, hs, he] at h
      | some p =>
        simp only [execute, hs, he] at h
        simpa only [execute, hstep _ _ _ hs, ih he] using h

theorem Trace.append_iff {s t : σ} {a b : List (Transition σ ι ο)} :
    Trace step s (a ++ b) t ↔ ∃ m, Trace step s a m ∧ Trace step m b t := by
  induction a generalizing s with
  | nil =>
    constructor
    · exact fun h => ⟨s, .nil s, h⟩
    · rintro ⟨m, h, hb⟩
      cases h
      exact hb
  | cons x a ih =>
    constructor
    · rintro (_ | ⟨hs, ht⟩)
      obtain ⟨m, ha, hb⟩ := ih.mp ht
      exact ⟨m, .cons hs ha, hb⟩
    · rintro ⟨m, _ | ⟨hs, ha⟩, hb⟩
      exact .cons hs (ih.mpr ⟨m, ha, hb⟩)

theorem Trace.invariant_on {I : σ → Prop} {Q : Transition σ ι ο → Prop}
    (hstep : ∀ x : Transition σ ι ο, Q x → I x.before →
      step x.before x.input = some (x.output, x.after) → I x.after)
    {s t : σ} {tr : List (Transition σ ι ο)} (h : Trace step s tr t) (hq : ∀ x ∈ tr, Q x)
    (hs : I s) : I t := by
  induction h with
  | nil => exact hs
  | cons he _ ih =>
    have hx := hstep _ (hq _ List.mem_cons_self) hs he
    exact ih (fun x hm => hq x (List.mem_cons_of_mem _ hm)) hx

theorem Trace.invariant {I : σ → Prop} (hstep : ∀ s i o t, I s → step s i = some (o, t) → I t)
    {s t : σ} {tr : List (Transition σ ι ο)} (h : Trace step s tr t) (hs : I s) : I t :=
  h.invariant_on (Q := fun _ => True) (fun _ _ hi he => hstep _ _ _ _ hi he) (fun _ _ => trivial) hs

/-- What holds of the first state holds all along a run exactly when every
transition meets the condition under which a step keeps it; the condition may
rest on an invariant. -/
theorem Trace.invariant_iff_under {J I : σ → Prop} {C : Transition σ ι ο → Prop}
    (hkeep : ∀ s i o t, J s → step s i = some (o, t) → J t)
    (hstep : ∀ x : Transition σ ι ο, step x.before x.input = some (x.output, x.after) →
      J x.before → I x.before → (I x.after ↔ C x))
    {s t : σ} {tr : List (Transition σ ι ο)} (h : Trace step s tr t) (hj : J s) (hs : I s) :
    (∀ x ∈ tr, I x.before ∧ I x.after) ↔ ∀ x ∈ tr, C x := by
  induction h with
  | nil => simp
  | @cons s m t i o tr he _ ih =>
    have hx := hstep ⟨s, i, o, m⟩ he hj hs
    have hm := hkeep s i o m hj he
    simp only [List.forall_mem_cons]
    constructor
    · rintro ⟨⟨_, hi⟩, hall⟩
      exact ⟨hx.mp hi, (ih hm hi).mp hall⟩
    · rintro ⟨hc, hall⟩
      have hi := hx.mpr hc
      exact ⟨⟨hs, hi⟩, (ih hm hi).mpr hall⟩

theorem Trace.invariant_iff {I : σ → Prop} {C : Transition σ ι ο → Prop}
    (hstep : ∀ x : Transition σ ι ο, step x.before x.input = some (x.output, x.after) →
      I x.before → (I x.after ↔ C x))
    {s t : σ} {tr : List (Transition σ ι ο)} (h : Trace step s tr t) (hs : I s) :
    (∀ x ∈ tr, I x.before ∧ I x.after) ↔ ∀ x ∈ tr, C x :=
  h.invariant_iff_under (J := fun _ => True) (fun _ _ _ _ _ _ => trivial)
    (fun x he _ => hstep x he) trivial hs

theorem Trace.split {s t : σ} {pre post : List (Transition σ ι ο)} {x : Transition σ ι ο}
    (h : Trace step s (pre ++ x :: post) t) :
    Trace step s pre x.before ∧ step x.before x.input = some (x.output, x.after) ∧
      Trace step x.after post t := by
  obtain ⟨m, hpre, hrest⟩ := Trace.append_iff.mp h
  cases hrest with
  | cons hs hpost => exact ⟨hpre, hs, hpost⟩

/-- Induction on a run from its end: what the empty run satisfies and every
further transition keeps holds of each run together with its last state. -/
theorem Trace.snoc_induction {s : σ} {P : List (Transition σ ι ο) → σ → Prop} (hnil : P [] s)
    (hsnoc : ∀ tr x, Trace step s tr x.before →
      step x.before x.input = some (x.output, x.after) → P tr x.before → P (tr ++ [x]) x.after)
    {tr : List (Transition σ ι ο)} {t : σ} (h : Trace step s tr t) : P tr t := by
  induction tr using List.reverseRecOn generalizing t with
  | nil =>
    cases h
    exact hnil
  | append_singleton tr x ih =>
    obtain ⟨htr, hstep, hend⟩ := h.split
    cases hend
    exact hsnoc tr x htr hstep (ih htr)

theorem Trace.of_mem {I : σ → Prop} (hstep : ∀ s i o t, I s → step s i = some (o, t) → I t)
    {s t : σ} {tr : List (Transition σ ι ο)} (h : Trace step s tr t) (hs : I s)
    {x : Transition σ ι ο} (hx : x ∈ tr) :
    I x.before ∧ step x.before x.input = some (x.output, x.after) := by
  obtain ⟨pre, post, rfl⟩ := List.append_of_mem hx
  obtain ⟨hpre, he, _⟩ := h.split
  exact ⟨hpre.invariant hstep hs, he⟩

/-- Every transition of the list meets `Q`, which may look back at the run
that led to it. -/
def Along (Q : List (Transition σ ι ο) → Transition σ ι ο → Prop)
    (tr : List (Transition σ ι ο)) : Prop :=
  ∀ pre x post, tr = pre ++ x :: post → Q pre x

theorem along_nil (Q : List (Transition σ ι ο) → Transition σ ι ο → Prop) : Along Q [] := by
  intro pre x post h
  simp at h

theorem along_iff_mem {Q : Transition σ ι ο → Prop} {tr : List (Transition σ ι ο)} :
    Along (fun _ x => Q x) tr ↔ ∀ x ∈ tr, Q x := by
  constructor
  · intro h x hx
    obtain ⟨pre, post, rfl⟩ := List.append_of_mem hx
    exact h pre x post rfl
  · rintro h pre x post rfl
    exact h x (List.mem_append_right _ List.mem_cons_self)

theorem along_snoc {Q : List (Transition σ ι ο) → Transition σ ι ο → Prop}
    {tr : List (Transition σ ι ο)} {x : Transition σ ι ο} :
    Along Q (tr ++ [x]) ↔ Along Q tr ∧ Q tr x := by
  constructor
  · intro h
    refine ⟨fun pre y post heq => h pre y (post ++ [x]) ?_, h tr x [] rfl⟩
    rw [heq, List.append_assoc, List.cons_append]
  · rintro ⟨htr, hx⟩ pre y post heq
    rcases List.eq_nil_or_concat post with rfl | ⟨post, z, rfl⟩
    · obtain ⟨rfl, hxy⟩ := List.append_inj' heq rfl
      obtain rfl := List.singleton_inj.mp hxy
      exact hx
    · rw [List.concat_eq_append, ← List.cons_append, ← List.append_assoc] at heq
      exact htr pre y post (List.append_inj' heq rfl).1

/-- Rely and guarantee along a run: when the transitions meet `Q`, they keep
an invariant of the run and its last state, and meet what follows from it. -/
theorem Trace.along {I : List (Transition σ ι ο) → σ → Prop}
    {Q R : List (Transition σ ι ο) → Transition σ ι ο → Prop} {s : σ} (hnil : I [] s)
    (hkeep : ∀ tr x, step x.before x.input = some (x.output, x.after) → Q tr x →
      I tr x.before → I (tr ++ [x]) x.after)
    (hmeet : ∀ tr x, step x.before x.input = some (x.output, x.after) → Q tr x →
      I tr x.before → R tr x)
    {tr : List (Transition σ ι ο)} {t : σ} (h : Trace step s tr t) (hq : Along Q tr) :
    I tr t ∧ Along R tr := by
  revert hq
  refine Trace.snoc_induction (P := fun tr t => Along Q tr → I tr t ∧ Along R tr) ?_ ?_ h
  · exact fun _ => ⟨hnil, along_nil R⟩
  · intro tr x _ hstep ih hq
    obtain ⟨hq, hx⟩ := along_snoc.mp hq
    obtain ⟨hi, hr⟩ := ih hq
    exact ⟨hkeep tr x hstep hx hi, along_snoc.mpr ⟨hr, hmeet tr x hstep hx hi⟩⟩

/-- What the empty run satisfies holds after each transition exactly when each
meets the condition under which a step keeps it. -/
theorem Trace.along_iff {J I : List (Transition σ ι ο) → σ → Prop}
    {C : List (Transition σ ι ο) → Transition σ ι ο → Prop} {s : σ} (hj : J [] s) (hs : I [] s)
    (hkeep : ∀ tr x, step x.before x.input = some (x.output, x.after) → J tr x.before →
      J (tr ++ [x]) x.after)
    (hstep : ∀ tr x, step x.before x.input = some (x.output, x.after) → J tr x.before →
      I tr x.before → (I (tr ++ [x]) x.after ↔ C tr x))
    {tr : List (Transition σ ι ο)} {t : σ} (h : Trace step s tr t) :
    Along (fun pre x => I (pre ++ [x]) x.after) tr ↔ Along C tr := by
  have hall : J tr t ∧ (Along C tr → I tr t) ∧
      (Along (fun pre x => I (pre ++ [x]) x.after) tr ↔ Along C tr) := by
    refine Trace.snoc_induction (P := fun tr t => J tr t ∧ (Along C tr → I tr t) ∧
      (Along (fun pre x => I (pre ++ [x]) x.after) tr ↔ Along C tr)) ?_ ?_ h
    · exact ⟨hj, fun _ => hs, iff_of_true (along_nil _) (along_nil C)⟩
    · rintro tr x _ he ⟨hjtr, hmet, hiff⟩
      refine ⟨hkeep tr x he hjtr, fun hc => ?_, ?_⟩
      · obtain ⟨hc, hx⟩ := along_snoc.mp hc
        exact (hstep tr x he hjtr (hmet hc)).mpr hx
      · rw [along_snoc, along_snoc, hiff]
        exact and_congr_right fun hc => hstep tr x he hjtr (hmet hc)
  exact hall.2.2

/-- Some transition of the list meets `A`, and none after it meets `E`. -/
def Since (A E : Transition σ ι ο → Prop) (tr : List (Transition σ ι ο)) : Prop :=
  ∃ pre x post, tr = pre ++ x :: post ∧ A x ∧ ∀ y ∈ post, ¬ E y

theorem not_since_nil (A E : Transition σ ι ο → Prop) : ¬ Since A E [] := by
  rintro ⟨pre, x, post, h, _⟩
  simp at h

theorem since_snoc {A E : Transition σ ι ο → Prop} {tr : List (Transition σ ι ο)}
    {x : Transition σ ι ο} : Since A E (tr ++ [x]) ↔ A x ∨ Since A E tr ∧ ¬ E x := by
  constructor
  · rintro ⟨pre, y, post, heq, hy, hpost⟩
    rcases List.eq_nil_or_concat post with rfl | ⟨post, z, rfl⟩
    · obtain ⟨rfl, hxy⟩ := List.append_inj' heq rfl
      obtain rfl := List.singleton_inj.mp hxy
      exact .inl hy
    · rw [List.concat_eq_append, ← List.cons_append, ← List.append_assoc] at heq
      obtain ⟨rfl, hxz⟩ := List.append_inj' heq rfl
      obtain rfl := List.singleton_inj.mp hxz
      refine .inr ⟨⟨pre, y, post, rfl, hy, fun w hw => hpost w ?_⟩, hpost x ?_⟩
      · simp [hw]
      · simp
  · rintro (hx | ⟨⟨pre, y, post, rfl, hy, hpost⟩, hx⟩)
    · exact ⟨tr, x, [], rfl, hx, by simp⟩
    · refine ⟨pre, y, post ++ [x], by simp, hy, fun w hw => ?_⟩
      rcases List.mem_append.mp hw with hw | hw
      · exact hpost w hw
      · obtain rfl := List.mem_singleton.mp hw
        exact hx

end

/-- A list counts at most `k` when each counted element has fewer than `k`
before it. -/
theorem countP_le_of_splits {α : Type} {q : α → Bool} {l : List α} {k : Nat}
    (h : ∀ a u c, l = a ++ u :: c → q u = true → a.countP q < k) : l.countP q ≤ k := by
  induction l using List.reverseRecOn with
  | nil => exact Nat.zero_le k
  | append_singleton l u ih =>
    rw [List.countP_append]
    by_cases hu : q u = true
    · have hlast := h l u [] rfl hu
      have hone : [u].countP q = 1 := by simp [hu]
      omega
    · have hrest := ih fun a v c hl hv => h a v (c ++ [u]) (by simp [hl]) hv
      have hzero : [u].countP q = 0 := by simp [hu]
      omega

end Lib
