import Voicers.Media.JitterTimeline

/-! Why a jitter buffer never panics on its own cursor. Both `expect`s of
`next_playout_decision` read the playout timestamp once a deadline has
passed, and the two are set and forgotten together. -/

namespace Voicers

open Lib

theorem Profile.release_u64 (x : Nat) : ∃ y, Profile.release.u64 x = some y := by
  unfold Profile.u64
  split_ifs
  · exact ⟨x, rfl⟩
  · exact ⟨x % u64Range, rfl⟩

namespace JitterBuffer

/-- The buffer as `next_playout_decision` has it when it reads the deadline. -/
def armed (b : JitterBuffer) (now : Nat) : JitterBuffer :=
  if b.nextPlayoutTimestampSamples = none ∧ b.targetDepth ≤ b.pending.length then b.prime now
  else b

/-- No `expect` of `next_playout_decision` fails on the armed buffer `b`: past
the deadline there is a cursor, and there still is one after the gap check. -/
def ExpectsHold (π : Profile) (b : JitterBuffer) (now : Nat) : Prop :=
  ∀ t, b.nextPlayoutDeadline = some t → t ≤ now →
    ∃ n, b.nextPlayoutTimestampSamples = some n ∧
      ∀ c, b.rebase π now n = some c → ∃ m, c.nextPlayoutTimestampSamples = some m

section

variable {π : Profile} {b : JitterBuffer} {now n : Nat}

theorem decision_armed (π : Profile) (b : JitterBuffer) (now : Nat) :
    b.nextPlayoutDecision π now =
      if b.nextPlayoutTimestampSamples = none ∧ b.pending.length < b.targetDepth then
        some (.hold, b)
      else (b.armed now).playDue π now := by
  cases hn : b.nextPlayoutTimestampSamples with
  | some n => simp [nextPlayoutDecision, armed, hn]
  | none =>
    by_cases hl : b.pending.length < b.targetDepth
    · simp [nextPlayoutDecision, hn, hl]
    · simp [nextPlayoutDecision, armed, hn, hl, not_lt.mp hl]

theorem rebase_cursor {c : JitterBuffer} (hn : b.nextPlayoutTimestampSamples = some n)
    (h : b.rebase π now n = some c) : ∃ m, c.nextPlayoutTimestampSamples = some m := by
  cases hf : b.pending.first? with
  | none =>
    simp only [rebase, hf, Option.some.injEq] at h
    exact ⟨n, h ▸ hn⟩
  | some e =>
    simp only [rebase, hf, Option.bind_eq_bind, Option.bind_eq_some_iff, Option.pure_def,
      Option.some.injEq] at h
    obtain ⟨limit, -, rfl⟩ := h
    split_ifs
    · exact ⟨e.1, rfl⟩
    · exact ⟨n, hn⟩

theorem release_rebase (b : JitterBuffer) (now n : Nat) :
    ∃ c, b.rebase .release now n = some c := by
  cases hf : b.pending.first? with
  | none => exact ⟨b, by simp [rebase, hf]⟩
  | some e =>
    obtain ⟨limit, hu⟩ := Profile.release_u64 (n + frameSamples * driftRebaseThresholdFrames)
    simp [rebase, hf, hu]

/-- Where machine additions wrap around, the `expect`s alone can fail. -/
theorem release_playDue_iff :
    (∃ r, b.playDue .release now = some r) ↔ b.ExpectsHold .release now := by
  cases ht : b.nextPlayoutDeadline with
  | none => simp [playDue, ExpectsHold, ht]
  | some t =>
    by_cases he : now < t
    · simp [playDue, ExpectsHold, ht, he]
    · cases hn : b.nextPlayoutTimestampSamples with
      | none => simp [playDue, ExpectsHold, ht, hn]
      | some n =>
        obtain ⟨c, hc⟩ := release_rebase b now n
        obtain ⟨m, hm⟩ := rebase_cursor hn hc
        obtain ⟨next, hu⟩ := Profile.release_u64 (m + frameSamples)
        have hreturns : ∃ r, b.playDue .release now = some r := by
          simp only [playDue, ht, he, if_false, hn, hc, Option.bind_eq_bind, Option.bind_some, hm]
          exact playSlot_returns hu
        exact iff_of_true hreturns fun t' _ _ => ⟨n, hn, fun c' hr => rebase_cursor hn hr⟩

theorem WellFormed.expectsHold (hw : b.WellFormed) (π : Profile) (now : Nat) :
    b.ExpectsHold π now := by
  intro t ht _
  have hc := hw.clock
  rw [ht] at hc
  obtain ⟨n, hn⟩ := Option.isSome_iff_exists.mp hc
  exact ⟨n, hn, fun c hr => rebase_cursor hn hr⟩

theorem WellFormed.armed (hw : b.WellFormed) (now : Nat) : (b.armed now).WellFormed := by
  unfold JitterBuffer.armed
  split_ifs with h
  · exact hw.primed h.2 now
  · exact hw

theorem WellFormed.release_call (hw : b.WellFormed) (op : JitterOp) :
    ∃ r, b.call .release op = some r := by
  cases op with
  | insert p => exact ⟨_, rfl⟩
  | nextPlayoutDecision now =>
    obtain ⟨r, hr⟩ := release_playDue_iff.mpr ((hw.armed now).expectsHold .release now)
    rw [JitterBuffer.call, decision_armed, hr]
    split_ifs
    · exact ⟨_, rfl⟩
    · exact ⟨_, rfl⟩

/-- A call that sets a cursor where there was none took the start branch. -/
theorem WellFormed.starts_deep {op : JitterOp} {o : Option PlayoutDecision} {b' : JitterBuffer}
    (hw : b.WellFormed) (h : b.call π op = some (o, b'))
    (hn : b.nextPlayoutTimestampSamples = none) (hn' : b'.nextPlayoutTimestampSamples ≠ none) :
    b.targetDepth ≤ b.queueDepth := by
  cases op with
  | insert p =>
    simp only [JitterBuffer.call, Option.some.injEq, Prod.mk.injEq] at h
    rw [← h.2, insert_next] at hn'
    exact absurd hn hn'
  | nextPlayoutDecision now =>
    simp only [JitterBuffer.call, Option.map_eq_some_iff] at h
    obtain ⟨⟨d, c⟩, hd, he⟩ := h
    obtain ⟨-, rfl⟩ := Prod.mk.inj he
    rcases decision_cases hw hd with ⟨_, _, _, rfl⟩ | ⟨_, hl, _⟩ | ⟨n, _, hs, _⟩
    · exact absurd hn hn'
    · exact hl
    · simp [hn] at hs

end

end JitterBuffer

/-- What a run `tr` of calls on a fresh buffer and the buffer it leaves
satisfy. -/
structure JitterSafety (π : Profile) (tr : List JitterTransition) (b : JitterBuffer) : Prop where
  clock : b.nextPlayoutTimestampSamples.isSome ↔ b.nextPlayoutDeadline.isSome
  depth : 2 ≤ b.targetDepth ∧ b.targetDepth ≤ 6
  stableTicks : b.stablePlayoutTicks < 50
  keys : ∀ e ∈ b.pending.entries, e.2.timestampSamples = e.1
  expects : ∀ now, (b.armed now).ExpectsHold π now
  releaseReturns : ∀ op, ∃ r, b.call .release op = some r
  startBranch : b.targetDepth ≤ b.queueDepth → b.pending.first? ≠ none
  starts : ∀ x ∈ tr, x.before.nextPlayoutTimestampSamples = none →
    x.after.nextPlayoutTimestampSamples ≠ none → x.before.pending.first? ≠ none

theorem JitterBuffer.WellFormed.first_of_deep {b : JitterBuffer} (hw : b.WellFormed)
    (hl : b.targetDepth ≤ b.queueDepth) : b.pending.first? ≠ none := by
  obtain ⟨s, p, _, hf, _⟩ := hw.prime hl 0
  simp [hf]

theorem jitter_safety {π : Profile} {tr : List JitterTransition} {b : JitterBuffer}
    (h : Trace (JitterBuffer.call π) JitterBuffer.new tr b) : JitterSafety π tr b := by
  have hkeep : ∀ s i o t, JitterBuffer.WellFormed s → JitterBuffer.call π s i = some (o, t) →
      JitterBuffer.WellFormed t := fun _ _ _ _ hw hc => hw.call hc
  have hw := h.invariant hkeep JitterBuffer.wellFormed_new
  exact
    { clock := by rw [hw.clock]
      depth := ⟨hw.minDepth, hw.maxDepth⟩
      stableTicks := hw.stableTicks
      keys := hw.keys
      expects := fun now => (hw.armed now).expectsHold π now
      releaseReturns := hw.release_call
      startBranch := hw.first_of_deep
      starts := by
        intro x hx hn hn'
        obtain ⟨hwx, hcall⟩ := h.of_mem hkeep JitterBuffer.wellFormed_new hx
        exact hwx.first_of_deep (hwx.starts_deep hcall hn hn') }

def primingOps : List JitterOp :=
  [.insert ⟨0, [1]⟩, .insert ⟨960, [2]⟩, .insert ⟨1920, [3]⟩, .nextPlayoutDecision (millis 100)]

theorem jitter_safety_threeFrames : ∃ tr b, jitterRun .dev primingOps = some (tr, b) ∧
    decisions tr = [.packet ⟨0, [1]⟩] ∧ JitterSafety .dev tr b := by
  have hrun : (jitterRun .dev primingOps).map (fun r => decisions r.1) =
      some [.packet ⟨0, [1]⟩] := by decide
  obtain ⟨⟨tr, b⟩, hexec, hd⟩ := Option.map_eq_some_iff.mp hrun
  exact ⟨tr, b, hexec, hd, jitter_safety (execute_trace hexec)⟩

end Voicers
