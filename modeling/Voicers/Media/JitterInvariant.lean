import Voicers.Media.JitterStep
import Voicers.Lib.Trace

/-! The overflow loop of `insert`, and the representation invariant over
whole runs of a jitter buffer. -/

namespace Voicers

open Lib

namespace JitterBuffer

section

variable (b : JitterBuffer)

@[simp] theorem noteStableTick_pending : b.noteStableTick.pending = b.pending := by
  unfold noteStableTick; split_ifs <;> rfl

@[simp] theorem noteStableTick_next :
    b.noteStableTick.nextPlayoutTimestampSamples = b.nextPlayoutTimestampSamples := by
  unfold noteStableTick; split_ifs <;> rfl

@[simp] theorem noteStableTick_deadline :
    b.noteStableTick.nextPlayoutDeadline = b.nextPlayoutDeadline := by
  unfold noteStableTick; split_ifs <;> rfl

@[simp] theorem noteStableTick_late : b.noteStableTick.latePackets = b.latePackets := by
  unfold noteStableTick; split_ifs <;> rfl

@[simp] theorem noteStableTick_lost : b.noteStableTick.lostPackets = b.lostPackets := by
  unfold noteStableTick; split_ifs <;> rfl

@[simp] theorem noteStableTick_concealed :
    b.noteStableTick.concealedFrames = b.concealedFrames := by
  unfold noteStableTick; split_ifs <;> rfl

@[simp] theorem noteStableTick_drift :
    b.noteStableTick.driftCorrections = b.driftCorrections := by
  unfold noteStableTick; split_ifs <;> rfl

end

theorem zero_lt_stableTicks : 0 < stablePlayoutTicksBeforeShrink := by decide

theorem WellFormed.noteStableTick {b : JitterBuffer} (hw : b.WellFormed) :
    b.noteStableTick.WellFormed := by
  have hmin := hw.minDepth
  have hmax := hw.maxDepth
  unfold JitterBuffer.noteStableTick
  split_ifs with hl ht
  · exact ⟨hw.clock, hw.minDepth, hw.maxDepth, zero_lt_stableTicks, hw.keys⟩
  · refine ⟨hw.clock, le_max_right _ _, ?_, zero_lt_stableTicks, hw.keys⟩
    exact max_le (by omega) (by decide)
  · exact ⟨hw.clock, hw.minDepth, hw.maxDepth, not_le.mp ht, hw.keys⟩

theorem WellFormed.raiseTargetDepth {b : JitterBuffer} (hw : b.WellFormed) :
    b.raiseTargetDepth.WellFormed where
  clock := hw.clock
  minDepth := by
    have := hw.minDepth
    simp only [JitterBuffer.raiseTargetDepth, jitterMinDepth, jitterMaxTargetDepth] at *
    omega
  maxDepth := min_le_right _ _
  stableTicks := zero_lt_stableTicks
  keys := hw.keys

theorem WellFormed.dueStep {π : Profile} {b b' : JitterBuffer} {now n t : Nat}
    {d : PlayoutDecision} (hw : b.WellFormed) (hs : DueStep π b now n t d b') : b'.WellFormed := by
  have erased {m : SortedMap Nat EncodedPacket} {k : Nat}
      (hm : ∀ e ∈ m.entries, e.2.timestampSamples = e.1) :
      ∀ e ∈ (m.erase k).entries, e.2.timestampSamples = e.1 :=
    fun e he => hm e (SortedMap.mem_erase.mp he).1
  cases hs with
  | early | grace => exact hw
  | rebased =>
    exact WellFormed.noteStableTick ⟨rfl, hw.minDepth, hw.maxDepth, hw.stableTicks, erased hw.keys⟩
  | played =>
    exact WellFormed.noteStableTick ⟨rfl, hw.minDepth, hw.maxDepth, hw.stableTicks, erased hw.keys⟩
  | underrun => exact ⟨rfl, hw.minDepth, hw.maxDepth, zero_lt_stableTicks, hw.keys⟩
  | fec | conceal =>
    exact WellFormed.raiseTargetDepth ⟨rfl, hw.minDepth, hw.maxDepth, hw.stableTicks, hw.keys⟩

theorem WellFormed.primed {b : JitterBuffer} (hw : b.WellFormed)
    (hl : b.targetDepth ≤ b.pending.length) (now : Nat) : (b.prime now).WellFormed := by
  obtain ⟨s, p, t, _, _, hp⟩ := hw.prime hl now
  rw [hp]
  exact ⟨rfl, hw.minDepth, hw.maxDepth, zero_lt_stableTicks, hw.keys⟩

theorem WellFormed.decision {π : Profile} {b b' : JitterBuffer} {now : Nat} {d : PlayoutDecision}
    (hw : b.WellFormed) (h : b.nextPlayoutDecision π now = some (d, b')) : b'.WellFormed := by
  rcases decision_cases hw h with ⟨_, _, _, rfl⟩ | ⟨_, hl, s, p, t, _, _, _, hs⟩ | ⟨n, t, _, _, hs⟩
  · exact hw
  · exact (hw.primed hl now).dueStep hs
  · exact hw.dueStep hs

/-- What the overflow loop leaves of `b`, having removed the entries
`dropped` from its front. -/
structure Eviction (b : JitterBuffer) (dropped : List (Nat × EncodedPacket)) (b' : JitterBuffer) :
    Prop where
  split : b.pending.entries = dropped ++ b'.pending.entries
  cursor : ∀ e ∈ dropped, some e.1 ≠ b.nextPlayoutTimestampSamples
  rest : b' = { b with
    pending := b'.pending
    driftCorrections := b.driftCorrections + dropped.length }
  full : dropped ≠ [] → jitterMaxDepth ≤ b'.pending.length
  stops : b'.pending.length ≤ jitterMaxDepth ∨
    ∃ e, b'.pending.first? = some e ∧ some e.1 = b.nextPlayoutTimestampSamples

theorem eviction_nil {b : JitterBuffer} (h : b.pending.length ≤ jitterMaxDepth ∨
    ∃ e, b.pending.first? = some e ∧ some e.1 = b.nextPlayoutTimestampSamples) :
    Eviction b [] b where
  split := rfl
  cursor := by simp
  rest := rfl
  full := by simp
  stops := h

theorem evictOverflow_eviction {fuel : Nat} {b : JitterBuffer} (h : b.pending.length ≤ fuel) :
    ∃ dropped, Eviction b dropped (evictOverflow fuel b) := by
  induction fuel generalizing b with
  | zero => exact ⟨[], eviction_nil (.inl (by omega))⟩
  | succ fuel ih =>
    unfold evictOverflow
    split_ifs with hl
    · cases hf : b.pending.first? with
      | none =>
        have := SortedMap.first?_eq_none_iff.mp hf
        omega
      | some e =>
        obtain ⟨oldest, p⟩ := e
        by_cases hc : some oldest = b.nextPlayoutTimestampSamples
        · simp only [hc, if_true]
          exact ⟨[], eviction_nil (.inr ⟨_, hf, hc⟩)⟩
        · simp only [hc, if_false]
          have hlen := SortedMap.length_erase (SortedMap.get?_of_first? hf)
          simp only at hlen
          obtain ⟨dropped, hd⟩ := ih (b := { b with
            pending := b.pending.erase oldest
            driftCorrections := b.driftCorrections + 1 }) (by simp only; omega)
          refine ⟨(oldest, p) :: dropped, ⟨?_, ?_, ?_, ?_, hd.stops⟩⟩
          · rw [SortedMap.entries_eq_cons hf, List.cons_append]
            exact congrArg _ hd.split
          · rintro e he
            rcases List.mem_cons.mp he with rfl | he
            · exact hc
            · exact hd.cursor e he
          · rw [hd.rest]
            simp only [List.length_cons, JitterBuffer.mk.injEq, true_and]
            omega
          · intro _
            by_cases hnil : dropped = []
            · have hs := congrArg List.length hd.split
              simp only [hnil, List.nil_append] at hs
              simp only [SortedMap.length] at hlen hl ⊢
              omega
            · exact hd.full hnil
    · exact ⟨[], eviction_nil (.inl (by omega))⟩

theorem insert_cases (b : JitterBuffer) (p : EncodedPacket) :
    (b.isLate p = true ∧ b.insert p = { b with latePackets := b.latePackets + 1 }.raiseTargetDepth) ∨
    (b.isLate p = false ∧ ∃ dropped, Eviction (b.store p) dropped (b.insert p)) := by
  cases hl : b.isLate p with
  | true => exact .inl ⟨rfl, by simp [insert, hl]⟩
  | false =>
    simp only [insert, hl, Bool.false_eq_true, if_false, false_and, false_or, true_and]
    exact evictOverflow_eviction le_rfl

theorem WellFormed.insert {b : JitterBuffer} (hw : b.WellFormed) (p : EncodedPacket) :
    (b.insert p).WellFormed := by
  rcases insert_cases b p with ⟨_, h⟩ | ⟨_, dropped, h⟩
  · rw [h]
    exact WellFormed.raiseTargetDepth ⟨hw.clock, hw.minDepth, hw.maxDepth, hw.stableTicks, hw.keys⟩
  · have hk : ∀ e ∈ (b.insert p).pending.entries, e.2.timestampSamples = e.1 := by
      intro e he
      have hm : e ∈ (b.store p).pending.entries := h.split ▸ List.mem_append_right _ he
      rcases SortedMap.mem_insertNew.mp hm with hm | ⟨_, rfl⟩
      · exact hw.keys e hm
      · rfl
    rw [h.rest]
    exact ⟨hw.clock, hw.minDepth, hw.maxDepth, hw.stableTicks, hk⟩

theorem WellFormed.call {π : Profile} {b b' : JitterBuffer} {op : JitterOp}
    {o : Option PlayoutDecision} (hw : b.WellFormed) (h : b.call π op = some (o, b')) :
    b'.WellFormed := by
  cases op with
  | insert p =>
    simp only [JitterBuffer.call, Option.some.injEq, Prod.mk.injEq] at h
    exact h.2 ▸ hw.insert p
  | nextPlayoutDecision now =>
    simp only [JitterBuffer.call, Option.map_eq_some_iff] at h
    obtain ⟨⟨d, c⟩, hd, he⟩ := h
    exact (Prod.mk.inj he).2 ▸ hw.decision hd

end JitterBuffer

end Voicers
