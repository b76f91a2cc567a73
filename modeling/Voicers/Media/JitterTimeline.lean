import Voicers.Media.JitterInvariant

/-! The slots a jitter buffer plays. Over a run without overflow the cursor
advances one frame at a time, except when a gap rebase takes it to the
oldest pending packet. -/

namespace Voicers

open Lib

abbrev JitterTransition := Transition JitterBuffer JitterOp (Option PlayoutDecision)

/-- Calls on a fresh buffer; `none` when one of them panics. -/
def jitterRun (π : Profile) (ops : List JitterOp) :
    Option (List JitterTransition × JitterBuffer) :=
  execute (JitterBuffer.call π) JitterBuffer.new ops

def decisions (tr : List JitterTransition) : List PlayoutDecision :=
  tr.filterMap Transition.output

def Emits (t : JitterTransition) : Prop := ∃ d, t.output = some d ∧ d ≠ .hold

/-- The slot of a decision is the timestamp one frame before the cursor it
leaves. -/
def Handles (t : JitterTransition) (s : Nat) : Prop :=
  Emits t ∧ t.after.nextPlayoutTimestampSamples = some (s + frameSamples)

def Rebases (t : JitterTransition) : Prop :=
  t.after.driftCorrections = t.before.driftCorrections + 1

/-- The slot timeline of a run. An epoch is a stretch of the run in which the
cursor stays set; `start` is its first transition and `next` compares two
consecutive emitting decisions of one epoch. -/
structure SlotTimeline (tr : List JitterTransition) : Prop where
  slot : ∀ t ∈ tr, Emits t → ∃ s, Handles t s
  start : ∀ t ∈ tr, t.before.nextPlayoutTimestampSamples = none →
    t.after.nextPlayoutTimestampSamples ≠ none →
    ∃ s p, t.before.pending.first? = some (s, p) ∧ t.output = some (.packet p) ∧ Handles t s
  next : ∀ pre t mid u post s s', tr = pre ++ t :: (mid ++ u :: post) →
    Handles t s → Handles u s' → (∀ v ∈ mid, ¬ Emits v) →
    (∀ v ∈ mid, v.after.nextPlayoutTimestampSamples ≠ none) →
    s' = s + frameSamples ∨
      (Rebases u ∧ (∃ p, u.before.pending.first? = some (s', p)) ∧
        s + frameSamples + frameSamples * driftRebaseThresholdFrames < s')
  packet : ∀ t ∈ tr, ∀ p s, t.output = some (.packet p) → Handles t s →
    t.before.pending.get? s = some p ∧ p.timestampSamples = s
  fec : ∀ t ∈ tr, ∀ r s, t.output = some (.fec r) → Handles t s →
    t.before.pending.get? s = none ∧ ∃ p, t.before.pending.get? (s + frameSamples) = some p ∧
      p.payload = r ∧ t.after.pending.get? (s + frameSamples) = some p
  fecNext : ∀ pre t mid u post r s, tr = pre ++ t :: (mid ++ u :: post) →
    t.output = some (.fec r) → Handles t s → (∀ v ∈ mid, ¬ Emits v) → Emits u →
    ∃ p, t.before.pending.get? (s + frameSamples) = some p ∧ u.output = some (.packet p)
  conceal : ∀ t ∈ tr, ∀ s, t.output = some .conceal → Handles t s →
    t.before.pending.get? s = none ∧ t.before.pending.get? (s + frameSamples) = none

namespace JitterBuffer

theorem insert_next (b : JitterBuffer) (p : EncodedPacket) :
    (b.insert p).nextPlayoutTimestampSamples = b.nextPlayoutTimestampSamples := by
  rcases insert_cases b p with ⟨_, h⟩ | ⟨_, dropped, h⟩
  · rw [h]
    rfl
  · rw [h.rest]
    rfl

/-- The packet at the cursor survives every insertion: newer packets do not
replace it, and the overflow loop stops at it. -/
theorem insert_get?_cursor {b : JitterBuffer} {n : Nat} {q : EncodedPacket}
    (hn : b.nextPlayoutTimestampSamples = some n) (hq : b.pending.get? n = some q)
    (p : EncodedPacket) : (b.insert p).pending.get? n = some q := by
  rcases insert_cases b p with ⟨_, h⟩ | ⟨_, dropped, h⟩
  · rw [h]
    exact hq
  · have hm : (n, q) ∈ (b.store p).pending.entries :=
      SortedMap.mem_insertNew.mpr (.inl (SortedMap.get?_eq_some_iff.mp hq))
    rw [h.split] at hm
    rcases List.mem_append.mp hm with hd | hr
    · exact absurd hn.symm (h.cursor _ hd)
    · exact SortedMap.get?_eq_some_iff.mpr hr

/-- What an emitting decision does when its cursor is at `n`: it jumps over a
gap to the oldest packet, or it handles the slot `n`. -/
def SlotStep (b : JitterBuffer) (n : Nat) (d : PlayoutDecision) (b' : JitterBuffer) : Prop :=
  (∃ e p, b.pending.first? = some (e, p) ∧ n + frameSamples * driftRebaseThresholdFrames < e ∧
    d = .packet p ∧ b'.nextPlayoutTimestampSamples = some (e + frameSamples) ∧
    b'.driftCorrections = b.driftCorrections + 1) ∨
  (b'.nextPlayoutTimestampSamples = some (n + frameSamples) ∧
    ((∃ p, b.pending.get? n = some p ∧ d = .packet p) ∨
      (∃ p, b.pending.get? n = none ∧ b.pending.get? (n + frameSamples) = some p ∧
        d = .fec p.payload ∧ b'.pending = b.pending) ∨
      (b.pending.get? n = none ∧ b.pending.get? (n + frameSamples) = none ∧ d = .conceal)))

theorem DueStep.slotStep {b b' : JitterBuffer} {now n t : Nat} {d : PlayoutDecision}
    (h : DueStep .dev b now n t d b') (hd : d ≠ .hold) : SlotStep b n d b' := by
  cases h with
  | early | grace | underrun => exact absurd rfl hd
  | rebased _ hf hfar hu =>
    obtain ⟨limit, hl, hlt⟩ := hfar
    obtain ⟨rfl, _⟩ := Profile.dev_u64 hl
    obtain ⟨rfl, _⟩ := Profile.dev_u64 hu
    exact .inl ⟨_, _, hf, hlt, rfl, by simp [afterPacket], by simp [afterPacket, JitterBuffer.rebased]⟩
  | played _ _ hp hu =>
    obtain ⟨rfl, _⟩ := Profile.dev_u64 hu
    exact .inr ⟨by simp [afterPacket], .inl ⟨_, hp, rfl⟩⟩
  | fec _ _ hn _ hu hp =>
    obtain ⟨rfl, _⟩ := Profile.dev_u64 hu
    exact .inr ⟨rfl, .inr (.inl ⟨_, hn, hp, rfl, rfl⟩)⟩
  | conceal _ _ hn _ hu hp =>
    obtain ⟨rfl, _⟩ := Profile.dev_u64 hu
    exact .inr ⟨rfl, .inr (.inr ⟨hn, hp, rfl⟩)⟩

/-- While no decision emits, the cursor stays where it is or is forgotten. -/
theorem DueStep.quiet {π : Profile} {b b' : JitterBuffer} {now n t : Nat}
    (h : DueStep π b now n t .hold b') :
    b' = b ∨ (b' = b.underrun ∧ b.pending.get? n = none) := by
  cases h with
  | early | grace => exact .inl rfl
  | underrun _ _ hp _ => exact .inr ⟨rfl, hp⟩

theorem SlotStep.packet_at {b b' : JitterBuffer} {n : Nat} {d : PlayoutDecision} {q : EncodedPacket}
    (h : SlotStep b n d b') (hq : b.pending.get? n = some q) :
    d = .packet q ∧ b'.nextPlayoutTimestampSamples = some (n + frameSamples) := by
  rcases h with ⟨e, p, hf, hlt, _⟩ | ⟨hnext, ⟨p, hp, hd⟩ | ⟨p, hn, _⟩ | ⟨hn, _⟩⟩
  · have hle := SortedMap.first?_le hf (SortedMap.get?_eq_some_iff.mp hq)
    simp only at hle
    omega
  · rw [hq] at hp
    cases hp
    exact ⟨hd, hnext⟩
  · simp [hq] at hn
  · simp [hq] at hn

section

variable {b b' : JitterBuffer} {now : Nat} {d : PlayoutDecision}

/-- An emitting decision of a `dev` build works at the cursor or, when there
is none, at the oldest pending packet. -/
theorem decision_slotStep (hw : b.WellFormed)
    (h : b.nextPlayoutDecision .dev now = some (d, b')) (hd : d ≠ .hold) :
    ∃ n, SlotStep b n d b' ∧ (b.nextPlayoutTimestampSamples = some n ∨
      (b.nextPlayoutTimestampSamples = none ∧ ∃ p, b.pending.first? = some (n, p))) := by
  rcases decision_cases hw h with ⟨_, _, rfl, _⟩ | ⟨hn, _, s, p, t, hf, _, hp, hs⟩ | ⟨n, t, hn, _, hs⟩
  · exact absurd rfl hd
  · have hstep := hs.slotStep hd
    rw [hp] at hstep
    exact ⟨s, hstep, .inr ⟨hn, p, hf⟩⟩
  · exact ⟨n, hs.slotStep hd, .inl hn⟩

theorem decision_primes {π : Profile} (hw : b.WellFormed)
    (hn : b.nextPlayoutTimestampSamples = none) (hl : b.targetDepth ≤ b.pending.length)
    (h : b.nextPlayoutDecision π now = some (d, b')) : d ≠ .hold := by
  rintro rfl
  rcases decision_cases hw h with ⟨_, hlt, _⟩ | ⟨_, _, s, p, t, hf, ht, hp, hs⟩ | ⟨n, t, hsome, _⟩
  · omega
  · have hg : (b.prime now).pending.get? s = some p := SortedMap.get?_of_first? hf
    generalize b.prime now = c at hs hg
    cases hs with
    | early he => omega
    | grace _ _ hnone => simp [hg] at hnone
    | underrun _ _ hnone => simp [hg] at hnone
  · simp [hn] at hsome

theorem decision_hold {π : Profile} (hw : b.WellFormed)
    (h : b.nextPlayoutDecision π now = some (.hold, b')) :
    b' = b ∨ (b' = b.underrun ∧ ∃ n, b.nextPlayoutTimestampSamples = some n ∧
      b.pending.get? n = none) := by
  rcases decision_cases hw h with ⟨_, _, _, rfl⟩ | ⟨hn, hl, _⟩ | ⟨n, t, hn, _, hs⟩
  · exact .inl rfl
  · exact absurd rfl (decision_primes hw hn hl h)
  · rcases hs.quiet with rfl | ⟨rfl, hp⟩
    · exact .inl rfl
    · exact .inr ⟨rfl, n, hn, hp⟩

end

end JitterBuffer

section

variable {π : Profile} {x : JitterTransition}

theorem emits_decision {d : PlayoutDecision} (ho : x.output = some d)
    (h : x.before.call π x.input = some (x.output, x.after)) :
    ∃ now, x.before.nextPlayoutDecision π now = some (d, x.after) := by
  rw [ho] at h
  cases hi : x.input with
  | insert p => simp [hi, JitterBuffer.call] at h
  | nextPlayoutDecision now =>
    simp only [hi, JitterBuffer.call, Option.map_eq_some_iff, Prod.mk.injEq, Option.some.injEq] at h
    obtain ⟨⟨_, _⟩, hd, rfl, rfl⟩ := h
    exact ⟨now, hd⟩

theorem quiet_call (hw : x.before.WellFormed) (hq : ¬ Emits x)
    (h : x.before.call π x.input = some (x.output, x.after)) :
    (∃ p, x.after = x.before.insert p) ∨ x.after = x.before ∨
      (x.after = x.before.underrun ∧ ∃ n, x.before.nextPlayoutTimestampSamples = some n ∧
        x.before.pending.get? n = none) := by
  cases ho : x.output with
  | none =>
    cases hi : x.input with
    | insert p =>
      simp only [hi, ho, JitterBuffer.call, Option.some.injEq, Prod.mk.injEq, true_and] at h
      exact .inl ⟨p, h.symm⟩
    | nextPlayoutDecision now => simp [hi, ho, JitterBuffer.call] at h
  | some d =>
    have hd : d = .hold := by
      by_contra hne
      exact hq ⟨d, ho, hne⟩
    subst hd
    obtain ⟨now, hd⟩ := emits_decision ho h
    exact .inr (JitterBuffer.decision_hold hw hd)

theorem cursor_kept {n : Nat} (hq : ¬ Emits x ∧ x.after.nextPlayoutTimestampSamples ≠ none)
    (hi : x.before.WellFormed ∧ x.before.nextPlayoutTimestampSamples = some n)
    (h : x.before.call π x.input = some (x.output, x.after)) :
    x.after.WellFormed ∧ x.after.nextPlayoutTimestampSamples = some n := by
  refine ⟨hi.1.call h, ?_⟩
  rcases quiet_call hi.1 hq.1 h with ⟨p, he⟩ | he | ⟨he, _⟩
  · rw [he, JitterBuffer.insert_next]
    exact hi.2
  · rw [he]
    exact hi.2
  · exact absurd (by rw [he]; rfl) hq.2

theorem cursor_packet_kept {n : Nat} {q : EncodedPacket} (hq : ¬ Emits x)
    (hi : x.before.WellFormed ∧ x.before.nextPlayoutTimestampSamples = some n ∧
      x.before.pending.get? n = some q)
    (h : x.before.call π x.input = some (x.output, x.after)) :
    x.after.WellFormed ∧ x.after.nextPlayoutTimestampSamples = some n ∧
      x.after.pending.get? n = some q := by
  obtain ⟨hw, hn, hp⟩ := hi
  refine ⟨hw.call h, ?_⟩
  rcases quiet_call hw hq h with ⟨p, he⟩ | he | ⟨_, m, hm, hnone⟩
  · rw [he, JitterBuffer.insert_next]
    exact ⟨hn, JitterBuffer.insert_get?_cursor hn hp p⟩
  · rw [he]
    exact ⟨hn, hp⟩
  · rw [hn] at hm
    cases hm
    simp [hp] at hnone

theorem emits_slotStep (hw : x.before.WellFormed) (he : Emits x)
    (h : x.before.call .dev x.input = some (x.output, x.after)) :
    ∃ d n, x.output = some d ∧ x.before.SlotStep n d x.after ∧
      (x.before.nextPlayoutTimestampSamples = some n ∨
        (x.before.nextPlayoutTimestampSamples = none ∧
          ∃ p, x.before.pending.first? = some (n, p))) := by
  obtain ⟨d, ho, hd⟩ := he
  obtain ⟨now, hdec⟩ := emits_decision ho h
  obtain ⟨n, hs, hn⟩ := JitterBuffer.decision_slotStep hw hdec hd
  exact ⟨d, n, ho, hs, hn⟩

end

theorem jitterRun_trace {π : Profile} {ops : List JitterOp} {tr : List JitterTransition}
    {b : JitterBuffer} (h : jitterRun π ops = some (tr, b)) :
    Trace (JitterBuffer.call π) JitterBuffer.new tr b := execute_trace h

theorem jitterTrace_wellFormed {π : Profile} {tr : List JitterTransition} {b : JitterBuffer}
    (h : Trace (JitterBuffer.call π) JitterBuffer.new tr b) : b.WellFormed :=
  h.invariant (fun _ _ _ _ hw he => hw.call he) JitterBuffer.wellFormed_new

theorem jitterRun_mem {π : Profile} {ops : List JitterOp} {tr : List JitterTransition}
    {b : JitterBuffer} (h : jitterRun π ops = some (tr, b)) {x : JitterTransition} (hx : x ∈ tr) :
    x.before.WellFormed ∧ x.before.call π x.input = some (x.output, x.after) :=
  (jitterRun_trace h).of_mem (fun _ _ _ _ hw he => hw.call he) JitterBuffer.wellFormed_new hx

theorem Handles.unique {t : JitterTransition} {s s' : Nat} (h : Handles t s) (h' : Handles t s') :
    s = s' := by
  have he := Option.some.inj (h.2.symm.trans h'.2)
  omega

section

variable {ops : List JitterOp} {tr : List JitterTransition} {b : JitterBuffer}

theorem emits_handles (h : jitterRun .dev ops = some (tr, b)) {t : JitterTransition} (ht : t ∈ tr)
    (he : Emits t) : ∃ s, Handles t s := by
  obtain ⟨hw, hc⟩ := jitterRun_mem h ht
  obtain ⟨d, n, _, hs, _⟩ := emits_slotStep hw he hc
  rcases hs with ⟨e, p, _, _, _, hnext, _⟩ | ⟨hnext, _⟩
  · exact ⟨e, he, hnext⟩
  · exact ⟨n, he, hnext⟩

theorem epoch_start (h : jitterRun .dev ops = some (tr, b)) {t : JitterTransition} (ht : t ∈ tr)
    (hn : t.before.nextPlayoutTimestampSamples = none)
    (ha : t.after.nextPlayoutTimestampSamples ≠ none) :
    ∃ s p, t.before.pending.first? = some (s, p) ∧ t.output = some (.packet p) ∧ Handles t s := by
  obtain ⟨hw, hc⟩ := jitterRun_mem h ht
  have he : Emits t := by
    by_contra hq
    rcases quiet_call hw hq hc with ⟨p, he⟩ | he | ⟨_, n, hsome, _⟩
    · exact ha (by rw [he, JitterBuffer.insert_next, hn])
    · exact ha (by rw [he, hn])
    · simp [hn] at hsome
  obtain ⟨d, n, ho, hs, hsome | ⟨_, p, hf⟩⟩ := emits_slotStep hw he hc
  · simp [hn] at hsome
  · obtain ⟨rfl, hnext⟩ := hs.packet_at (SortedMap.get?_of_first? hf)
    exact ⟨n, p, hf, ho, he, hnext⟩

theorem epoch_next (h : jitterRun .dev ops = some (tr, b)) {pre mid post : List JitterTransition}
    {t u : JitterTransition} {s s' : Nat} (htr : tr = pre ++ t :: (mid ++ u :: post))
    (ht : Handles t s) (hu : Handles u s') (hq : ∀ v ∈ mid, ¬ Emits v)
    (hc : ∀ v ∈ mid, v.after.nextPlayoutTimestampSamples ≠ none) :
    s' = s + frameSamples ∨
      (Rebases u ∧ (∃ p, u.before.pending.first? = some (s', p)) ∧
        s + frameSamples + frameSamples * driftRebaseThresholdFrames < s') := by
  have hmem : t ∈ tr := by simp [htr]
  obtain ⟨hw, hcall⟩ := jitterRun_mem h hmem
  have htrace := jitterRun_trace h
  rw [htr] at htrace
  obtain ⟨hmid, hstep, _⟩ := htrace.split.2.2.split
  obtain ⟨hwu, hnu⟩ := hmid.invariant_on
    (I := fun c => c.WellFormed ∧ c.nextPlayoutTimestampSamples = some (s + frameSamples))
    (fun x hx hi he => cursor_kept hx hi he) (fun v hv => ⟨hq v hv, hc v hv⟩)
    ⟨hw.call hcall, ht.2⟩
  obtain ⟨d, n, _, hs, hn | ⟨hn, _⟩⟩ := emits_slotStep hwu hu.1 hstep
  · rw [hnu] at hn
    obtain rfl := Option.some.inj hn
    rcases hs with ⟨e, p, hf, hlt, _, hnext, hdrift⟩ | ⟨hnext, _⟩
    · obtain rfl := hu.unique ⟨hu.1, hnext⟩
      exact .inr ⟨hdrift, ⟨p, hf⟩, hlt⟩
    · exact .inl (hu.unique ⟨hu.1, hnext⟩)
  · simp [hnu] at hn

theorem handles_packet (h : jitterRun .dev ops = some (tr, b)) {t : JitterTransition} (ht : t ∈ tr)
    {p : EncodedPacket} {s : Nat} (ho : t.output = some (.packet p)) (hs : Handles t s) :
    t.before.pending.get? s = some p ∧ p.timestampSamples = s := by
  obtain ⟨hw, hc⟩ := jitterRun_mem h ht
  have hget : t.before.pending.get? s = some p := by
    obtain ⟨d, n, hd, hstep, _⟩ := emits_slotStep hw hs.1 hc
    rw [ho] at hd
    obtain rfl := Option.some.inj hd
    rcases hstep with ⟨e, q, hf, _, hp, hnext, _⟩ | ⟨hnext, ⟨q, hq, hp⟩ | ⟨q, _, _, hp, _⟩ | ⟨_, _, hp⟩⟩
    · obtain rfl := PlayoutDecision.packet.inj hp
      obtain rfl := hs.unique ⟨hs.1, hnext⟩
      exact SortedMap.get?_of_first? hf
    · obtain rfl := PlayoutDecision.packet.inj hp
      obtain rfl := hs.unique ⟨hs.1, hnext⟩
      exact hq
    · cases hp
    · cases hp
  exact ⟨hget, hw.keys _ (SortedMap.get?_eq_some_iff.mp hget)⟩

theorem handles_fec (h : jitterRun .dev ops = some (tr, b)) {t : JitterTransition} (ht : t ∈ tr)
    {r : List UInt8} {s : Nat} (ho : t.output = some (.fec r)) (hs : Handles t s) :
    t.before.pending.get? s = none ∧ ∃ p, t.before.pending.get? (s + frameSamples) = some p ∧
      p.payload = r ∧ t.after.pending.get? (s + frameSamples) = some p := by
  obtain ⟨hw, hc⟩ := jitterRun_mem h ht
  obtain ⟨d, n, hd, hstep, _⟩ := emits_slotStep hw hs.1 hc
  rw [ho] at hd
  obtain rfl := Option.some.inj hd
  rcases hstep with ⟨e, q, _, _, hp, _⟩ | ⟨hnext, ⟨q, _, hp⟩ | ⟨q, hnone, hq, hp, hpend⟩ | ⟨_, _, hp⟩⟩
  · cases hp
  · cases hp
  · obtain rfl := PlayoutDecision.fec.inj hp
    obtain rfl := hs.unique ⟨hs.1, hnext⟩
    exact ⟨hnone, q, hq, rfl, by rw [hpend]; exact hq⟩
  · cases hp

theorem handles_conceal (h : jitterRun .dev ops = some (tr, b)) {t : JitterTransition} (ht : t ∈ tr)
    {s : Nat} (ho : t.output = some .conceal) (hs : Handles t s) :
    t.before.pending.get? s = none ∧ t.before.pending.get? (s + frameSamples) = none := by
  obtain ⟨hw, hc⟩ := jitterRun_mem h ht
  obtain ⟨d, n, hd, hstep, _⟩ := emits_slotStep hw hs.1 hc
  rw [ho] at hd
  obtain rfl := Option.some.inj hd
  rcases hstep with ⟨e, q, _, _, hp, _⟩ | ⟨hnext, ⟨q, _, hp⟩ | ⟨q, _, _, hp, _⟩ | ⟨hnone, hq, _⟩⟩
  · cases hp
  · cases hp
  · cases hp
  · obtain rfl := hs.unique ⟨hs.1, hnext⟩
    exact ⟨hnone, hq⟩

/-- The packet a `fec` decision recovers from is the next one played,
whatever is inserted in between. -/
theorem fec_then_packet (h : jitterRun .dev ops = some (tr, b))
    {pre mid post : List JitterTransition} {t u : JitterTransition} {r : List UInt8} {s : Nat}
    (htr : tr = pre ++ t :: (mid ++ u :: post)) (ho : t.output = some (.fec r))
    (hs : Handles t s) (hq : ∀ v ∈ mid, ¬ Emits v) (hu : Emits u) :
    ∃ p, t.before.pending.get? (s + frameSamples) = some p ∧ u.output = some (.packet p) := by
  have hmem : t ∈ tr := by simp [htr]
  obtain ⟨hw, hcall⟩ := jitterRun_mem h hmem
  obtain ⟨_, p, hp, _, hpa⟩ := handles_fec h hmem ho hs
  have htrace := jitterRun_trace h
  rw [htr] at htrace
  obtain ⟨hmid, hstep, _⟩ := htrace.split.2.2.split
  obtain ⟨hwu, hnu, hpu⟩ := hmid.invariant_on
    (I := fun c => c.WellFormed ∧ c.nextPlayoutTimestampSamples = some (s + frameSamples) ∧
      c.pending.get? (s + frameSamples) = some p)
    (fun x hx hi he => cursor_packet_kept hx hi he) hq ⟨hw.call hcall, hs.2, hpa⟩
  obtain ⟨d, n, hd, hslot, hn | ⟨hn, _⟩⟩ := emits_slotStep hwu hu hstep
  · rw [hnu] at hn
    obtain rfl := Option.some.inj hn
    obtain ⟨rfl, _⟩ := hslot.packet_at hpu
    exact ⟨p, hp, hd⟩
  · simp [hnu] at hn

/-- Runs in which no addition overflows follow the slot timeline, and they
are the same in every build. -/
theorem jitter_slot_timeline (h : jitterRun .dev ops = some (tr, b)) :
    SlotTimeline tr ∧ ∀ π, jitterRun π ops = some (tr, b) := by
  refine ⟨⟨?_, ?_, ?_, ?_, ?_, ?_, ?_⟩, ?_⟩
  · exact fun t ht he => emits_handles h ht he
  · exact fun t ht hn ha => epoch_start h ht hn ha
  · exact fun pre t mid u post s s' htr ht hu hq hc => epoch_next h htr ht hu hq hc
  · exact fun t ht p s ho hs => handles_packet h ht ho hs
  · exact fun t ht r s ho hs => handles_fec h ht ho hs
  · exact fun pre t mid u post r s htr ho hs hq hu => fec_then_packet h htr ho hs hq hu
  · exact fun t ht s ho hs => handles_conceal h ht ho hs
  · exact fun π => execute_mono (fun c i r hr => JitterBuffer.call_of_dev hr π) h

end

/-- A lost frame, recovered from the packet after it; the duplicate inserted
in between does not disturb the recovery. -/
def recoveredGap : List JitterOp :=
  [.insert ⟨0, [1]⟩, .insert ⟨1920, [3]⟩, .insert ⟨2880, [4]⟩, .insert ⟨3840, [5]⟩,
    .nextPlayoutDecision (millis 100), .nextPlayoutDecision (millis 126), .insert ⟨1920, [9]⟩,
    .nextPlayoutDecision (millis 126)]

theorem jitter_slot_timeline_recoveredGap :
    ∃ tr b, jitterRun .dev recoveredGap = some (tr, b) ∧
      decisions tr = [.packet ⟨0, [1]⟩, .fec [3], .packet ⟨1920, [3]⟩] ∧ SlotTimeline tr := by
  have h : (jitterRun .dev recoveredGap).map (fun r => decisions r.1) =
      some [.packet ⟨0, [1]⟩, .fec [3], .packet ⟨1920, [3]⟩] := by decide
  obtain ⟨⟨tr, b⟩, hr, hd⟩ := Option.map_eq_some_iff.mp h
  exact ⟨tr, b, hr, hd, (jitter_slot_timeline hr).1⟩

end Voicers
