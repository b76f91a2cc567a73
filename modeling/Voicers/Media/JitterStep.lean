import Voicers.Media.Jitter

/-! What one call on a jitter buffer can do. The representation invariant is
kept by every call, and under it a decision is one of the branches of
`DueStep`, so later proofs never unfold `nextPlayoutDecision`. -/

namespace Voicers

open Lib

theorem Profile.u64_of_lt {π : Profile} {x : Nat} (h : x < u64Range) : π.u64 x = some x := by
  simp [Profile.u64, h]

theorem Profile.dev_u64 {x y : Nat} (h : Profile.dev.u64 x = some y) : y = x ∧ x < u64Range := by
  unfold Profile.u64 at h
  split_ifs at h with hx
  · exact ⟨(Option.some.inj h).symm, hx⟩

theorem Profile.u64_of_dev {x y : Nat} (h : Profile.dev.u64 x = some y) (π : Profile) :
    π.u64 x = some y := by
  obtain ⟨rfl, hx⟩ := Profile.dev_u64 h
  exact Profile.u64_of_lt hx

namespace JitterBuffer

structure WellFormed (b : JitterBuffer) : Prop where
  clock : b.nextPlayoutTimestampSamples.isSome = b.nextPlayoutDeadline.isSome
  minDepth : jitterMinDepth ≤ b.targetDepth
  maxDepth : b.targetDepth ≤ jitterMaxTargetDepth
  stableTicks : b.stablePlayoutTicks < stablePlayoutTicksBeforeShrink
  keys : ∀ e ∈ b.pending.entries, e.2.timestampSamples = e.1

theorem wellFormed_new : new.WellFormed where
  clock := rfl
  minDepth := by decide
  maxDepth := by decide
  stableTicks := by decide
  keys := by simp [new, SortedMap.empty]

def afterPacket (b : JitterBuffer) (s next : Nat) (deadline : Nat) : JitterBuffer :=
  noteStableTick { b with
    pending := b.pending.erase s
    nextPlayoutTimestampSamples := some next
    nextPlayoutDeadline := some (deadline + frameDuration) }

def afterLoss (b : JitterBuffer) (next : Nat) (deadline : Nat) : JitterBuffer :=
  raiseTargetDepth { b with
    nextPlayoutTimestampSamples := some next
    nextPlayoutDeadline := some (deadline + frameDuration)
    concealedFrames := b.concealedFrames + 1
    lostPackets := b.lostPackets + 1 }

def underrun (b : JitterBuffer) : JitterBuffer :=
  { b with
    nextPlayoutTimestampSamples := none
    nextPlayoutDeadline := none
    stablePlayoutTicks := 0 }

def rebased (b : JitterBuffer) (now : Nat) (earliest : Nat) : JitterBuffer :=
  { b with
    nextPlayoutTimestampSamples := some earliest
    nextPlayoutDeadline := some now
    driftCorrections := b.driftCorrections + 1 }

/-- A cursor further behind the oldest packet than the threshold, as the
machine addition of profile `π` sees it. -/
def FarBehind (π : Profile) (expected earliest : Nat) : Prop :=
  ∃ limit, π.u64 (expected + frameSamples * driftRebaseThresholdFrames) = some limit ∧
    limit < earliest

def Near (π : Profile) (b : JitterBuffer) (expected : Nat) : Prop :=
  ∀ e ∈ b.pending.first?, ∃ limit,
    π.u64 (expected + frameSamples * driftRebaseThresholdFrames) = some limit ∧ e.1 ≤ limit

/-- The branches of a decision of a buffer with cursor `n` and deadline `t`. -/
inductive DueStep (π : Profile) (b : JitterBuffer) (now : Nat) (n : Nat) (t : Nat) :
    PlayoutDecision → JitterBuffer → Prop
  | early : now < t → DueStep π b now n t .hold b
  | rebased {e : Nat} {p : EncodedPacket} {next : Nat} :
      t ≤ now → b.pending.first? = some (e, p) → FarBehind π n e →
      π.u64 (e + frameSamples) = some next →
      DueStep π b now n t (.packet p) ((b.rebased now e).afterPacket e next t)
  | played {p : EncodedPacket} {next : Nat} :
      t ≤ now → Near π b n → b.pending.get? n = some p → π.u64 (n + frameSamples) = some next →
      DueStep π b now n t (.packet p) (b.afterPacket n next t)
  | grace : t ≤ now → Near π b n → b.pending.get? n = none → now < t + playoutLateGrace →
      DueStep π b now n t .hold b
  | underrun : t + playoutLateGrace ≤ now → Near π b n → b.pending.get? n = none →
      b.pending.length < b.targetDepth → DueStep π b now n t .hold b.underrun
  | fec {p : EncodedPacket} {next : Nat} :
      t + playoutLateGrace ≤ now → Near π b n → b.pending.get? n = none →
      b.targetDepth ≤ b.pending.length → π.u64 (n + frameSamples) = some next →
      b.pending.get? next = some p →
      DueStep π b now n t (.fec p.payload) (b.afterLoss next t)
  | conceal {next : Nat} :
      t + playoutLateGrace ≤ now → Near π b n → b.pending.get? n = none →
      b.targetDepth ≤ b.pending.length → π.u64 (n + frameSamples) = some next →
      b.pending.get? next = none →
      DueStep π b now n t .conceal (b.afterLoss next t)

section

variable {π : Profile} {b b' : JitterBuffer} {now : Nat} {d : PlayoutDecision}

theorem playSlot_packet {t : Nat} {n : Nat} {p : EncodedPacket}
    (hp : b.pending.get? n = some p) (h : b.playSlot π now t n = some (d, b')) :
    ∃ next, π.u64 (n + frameSamples) = some next ∧ d = .packet p ∧ b' = b.afterPacket n next t := by
  cases hu : π.u64 (n + frameSamples) with
  | none => simp [playSlot, hp, advancePlayoutClock, hu] at h
  | some next =>
    simp only [playSlot, hp, advancePlayoutClock, hu] at h
    refine ⟨next, rfl, ?_⟩
    have h := Option.some.inj h
    exact ⟨(congrArg Prod.fst h).symm, (congrArg Prod.snd h).symm⟩

theorem dueStep_of_playSlot {t : Nat} {n : Nat} (ht : t ≤ now) (hn : Near π b n)
    (h : b.playSlot π now t n = some (d, b')) : DueStep π b now n t d b' := by
  cases hp : b.pending.get? n with
  | some p =>
    obtain ⟨next, hu, rfl, rfl⟩ := playSlot_packet hp h
    exact .played ht hn hp hu
  | none =>
    simp only [playSlot, hp] at h
    split_ifs at h with hg hl
    · simp only [Option.some.injEq, Prod.mk.injEq] at h
      obtain ⟨rfl, rfl⟩ := h
      exact .grace ht hn hp hg
    · simp only [Option.some.injEq, Prod.mk.injEq] at h
      obtain ⟨rfl, rfl⟩ := h
      exact .underrun (by omega) hn hp hl
    · cases hu : π.u64 (n + frameSamples) with
      | none => simp [hu] at h
      | some next =>
        cases hf : b.pending.get? next with
        | some p =>
          simp only [hu, advancePlayoutClock, Option.bind_eq_bind, Option.bind_some, hf,
            Option.pure_def, Option.some.injEq, Prod.mk.injEq] at h
          obtain ⟨rfl, rfl⟩ := h
          exact .fec (by omega) hn hp (by omega) hu hf
        | none =>
          simp only [hu, advancePlayoutClock, Option.bind_eq_bind, Option.bind_some, hf,
            Option.pure_def, Option.some.injEq, Prod.mk.injEq] at h
          obtain ⟨rfl, rfl⟩ := h
          exact .conceal (by omega) hn hp (by omega) hu hf

theorem playDue_cases {n : Nat} {t : Nat} (hn : b.nextPlayoutTimestampSamples = some n)
    (ht : b.nextPlayoutDeadline = some t) (h : b.playDue π now = some (d, b')) :
    DueStep π b now n t d b' := by
  simp only [playDue, hn, ht] at h
  split_ifs at h with he
  · simp only [Option.some.injEq, Prod.mk.injEq] at h
    obtain ⟨rfl, rfl⟩ := h
    exact .early he
  · have hle : t ≤ now := by omega
    cases hf : b.pending.first? with
    | none =>
      simp only [rebase, hf, Option.bind_eq_bind, Option.bind_some, hn] at h
      exact dueStep_of_playSlot hle (by simp [Near, hf]) h
    | some e =>
      obtain ⟨e, p⟩ := e
      cases hu : π.u64 (n + frameSamples * driftRebaseThresholdFrames) with
      | none => simp [rebase, hf, hu] at h
      | some limit =>
        by_cases hl : limit < e
        · simp only [rebase, hf, hu, Option.bind_eq_bind, Option.bind_some, hl, if_true,
            Option.pure_def] at h
          have hp : (b.rebased now e).pending.get? e = some p := SortedMap.get?_of_first? hf
          obtain ⟨next, hnext, rfl, rfl⟩ := playSlot_packet hp h
          exact .rebased hle hf ⟨limit, hu, hl⟩ hnext
        · simp only [rebase, hf, hu, Option.bind_eq_bind, Option.bind_some, hl, if_false,
            Option.pure_def, hn] at h
          exact dueStep_of_playSlot hle (by simpa [Near, hf, hu] using hl) h

theorem WellFormed.deadline (hw : b.WellFormed) {n : Nat}
    (hn : b.nextPlayoutTimestampSamples = some n) : ∃ t, b.nextPlayoutDeadline = some t := by
  have hc := hw.clock
  rw [hn] at hc
  exact Option.isSome_iff_exists.mp hc.symm

theorem WellFormed.prime (hw : b.WellFormed) (hl : b.targetDepth ≤ b.pending.length) (now : Nat) :
    ∃ s p t, b.pending.first? = some (s, p) ∧ t ≤ now ∧
      b.prime now = { b with
        nextPlayoutTimestampSamples := some s
        nextPlayoutDeadline := some t
        stablePlayoutTicks := 0 } := by
  have hm := hw.minDepth
  cases hf : b.pending.first? with
  | none =>
    have := SortedMap.first?_eq_none_iff.mp hf
    simp only [jitterMinDepth] at hm
    omega
  | some e =>
    obtain ⟨s, p⟩ := e
    refine ⟨s, p, _, rfl, ?_, by simp only [JitterBuffer.prime, hf, Option.map_some]; rfl⟩
    split_ifs <;> omega

/-- A decision either waits for the target depth, or is a step of a buffer
with a cursor: the buffer itself or the one just primed. -/
theorem decision_cases (hw : b.WellFormed) (h : b.nextPlayoutDecision π now = some (d, b')) :
    (b.nextPlayoutTimestampSamples = none ∧ b.pending.length < b.targetDepth ∧
      d = .hold ∧ b' = b) ∨
    (b.nextPlayoutTimestampSamples = none ∧ b.targetDepth ≤ b.pending.length ∧
      ∃ s p t, b.pending.first? = some (s, p) ∧ t ≤ now ∧
        b.prime now = { b with
          nextPlayoutTimestampSamples := some s
          nextPlayoutDeadline := some t
          stablePlayoutTicks := 0 } ∧
        DueStep π (b.prime now) now s t d b') ∨
    (∃ n t, b.nextPlayoutTimestampSamples = some n ∧ b.nextPlayoutDeadline = some t ∧
      DueStep π b now n t d b') := by
  cases hn : b.nextPlayoutTimestampSamples with
  | some n =>
    obtain ⟨t, ht⟩ := hw.deadline hn
    simp only [nextPlayoutDecision, hn] at h
    exact .inr (.inr ⟨n, t, rfl, ht, playDue_cases hn ht h⟩)
  | none =>
    simp only [nextPlayoutDecision, hn] at h
    split_ifs at h with hl
    · simp only [Option.some.injEq, Prod.mk.injEq] at h
      exact .inl ⟨rfl, hl, h.1.symm, h.2.symm⟩
    · have hl' : b.targetDepth ≤ b.pending.length := by omega
      obtain ⟨s, p, t, hf, ht, hp⟩ := hw.prime hl' now
      refine .inr (.inl ⟨rfl, hl', s, p, t, hf, ht, hp, ?_⟩)
      exact playDue_cases (by simp [hp]) (by simp [hp]) h

end

section

variable {b : JitterBuffer} {now t n : Nat}

theorem rebase_of_dev {b' : JitterBuffer} (h : b.rebase .dev now n = some b') (π : Profile) :
    b.rebase π now n = some b' := by
  cases hf : b.pending.first? with
  | none => simpa [rebase, hf] using h
  | some e =>
    cases hu : Profile.dev.u64 (n + frameSamples * driftRebaseThresholdFrames) with
    | none => simp [rebase, hf, hu] at h
    | some limit => simpa [rebase, hf, hu, Profile.u64_of_dev hu π] using h

theorem playSlot_of_dev {r : PlayoutDecision × JitterBuffer}
    (h : b.playSlot .dev now t n = some r) (π : Profile) : b.playSlot π now t n = some r := by
  cases hu : Profile.dev.u64 (n + frameSamples) with
  | none =>
    simp only [playSlot, advancePlayoutClock, hu] at h ⊢
    cases hp : b.pending.get? n with
    | some p => simp [hp] at h
    | none =>
      simp only [hp] at h ⊢
      split_ifs at h ⊢ <;> simp_all
  | some next => simpa [playSlot, advancePlayoutClock, hu, Profile.u64_of_dev hu π] using h

theorem playDue_of_dev {r : PlayoutDecision × JitterBuffer}
    (h : b.playDue .dev now = some r) (π : Profile) : b.playDue π now = some r := by
  cases ht : b.nextPlayoutDeadline with
  | none => simpa [playDue, ht] using h
  | some t =>
    by_cases he : now < t
    · simpa [playDue, ht, he] using h
    · cases hn : b.nextPlayoutTimestampSamples with
      | none => simp [playDue, ht, he, hn] at h
      | some n =>
        simp only [playDue, ht, he, hn, if_false, Option.bind_eq_bind, Option.bind_eq_some_iff] at h ⊢
        obtain ⟨c, hc, hr⟩ := h
        refine ⟨c, rebase_of_dev hc π, ?_⟩
        cases hm : c.nextPlayoutTimestampSamples with
        | none => simp [hm] at hr
        | some m =>
          simp only [hm] at hr ⊢
          exact playSlot_of_dev hr π

theorem decision_of_dev {r : PlayoutDecision × JitterBuffer}
    (h : b.nextPlayoutDecision .dev now = some r) (π : Profile) :
    b.nextPlayoutDecision π now = some r := by
  unfold nextPlayoutDecision at h ⊢
  cases hn : b.nextPlayoutTimestampSamples with
  | none =>
    simp only [hn] at h ⊢
    split_ifs at h ⊢ with hl
    · exact h
    · exact playDue_of_dev h π
  | some n =>
    simp only [hn] at h ⊢
    exact playDue_of_dev h π

theorem call_of_dev {op : JitterOp} {r : Option PlayoutDecision × JitterBuffer}
    (h : b.call .dev op = some r) (π : Profile) : b.call π op = some r := by
  cases op with
  | insert p => exact h
  | nextPlayoutDecision now =>
    simp only [call, Option.map_eq_some_iff] at h ⊢
    obtain ⟨q, hq, rfl⟩ := h
    exact ⟨q, decision_of_dev hq π, rfl⟩

end

section

variable {π : Profile} {b : JitterBuffer} {now t n : Nat}

theorem playSlot_returns {next : Nat} (hu : π.u64 (n + frameSamples) = some next) :
    ∃ r, b.playSlot π now t n = some r := by
  cases hp : b.pending.get? n with
  | some p => simp [playSlot, hp, advancePlayoutClock, hu]
  | none =>
    simp only [playSlot, hp, advancePlayoutClock, hu, Option.bind_eq_bind, Option.bind_some]
    split_ifs
    · exact ⟨_, rfl⟩
    · exact ⟨_, rfl⟩
    · cases b.pending.get? next with
      | some q => exact ⟨_, rfl⟩
      | none => exact ⟨_, rfl⟩

/-- The room one decision needs above a timestamp it may work at. -/
def reach : Nat := frameSamples * driftRebaseThresholdFrames

theorem playDue_returns (hn : b.nextPlayoutTimestampSamples = some n)
    (hc : n + reach < u64Range) (hk : ∀ e ∈ b.pending.entries, e.1 + reach < u64Range) :
    ∃ r, b.playDue π now = some r := by
  have hreach : frameSamples ≤ reach := by decide
  cases ht : b.nextPlayoutDeadline with
  | none => simp [playDue, ht]
  | some t =>
    by_cases he : now < t
    · simp [playDue, ht, he]
    · simp only [playDue, ht, he, if_false, hn]
      cases hf : b.pending.first? with
      | none =>
        simp only [rebase, hf, Option.bind_eq_bind, Option.bind_some, hn]
        exact playSlot_returns (Profile.u64_of_lt (by omega))
      | some e =>
        obtain ⟨e, p⟩ := e
        have hek : e + reach < u64Range := hk _ (SortedMap.mem_of_first? hf)
        have hu : π.u64 (n + frameSamples * driftRebaseThresholdFrames) = some (n + reach) :=
          Profile.u64_of_lt hc
        by_cases hl : n + reach < e
        · simp only [rebase, hf, hu, Option.bind_eq_bind, Option.bind_some, hl, if_true,
            Option.pure_def]
          exact playSlot_returns (Profile.u64_of_lt (by omega))
        · simp only [rebase, hf, hu, Option.bind_eq_bind, Option.bind_some, hl, if_false,
            Option.pure_def, hn]
          exact playSlot_returns (Profile.u64_of_lt (by omega))

/-- A decision returns when the cursor and everything pending lie below the
end of the `u64` range by the reach of the gap check. -/
theorem decision_returns (π : Profile) (now : Nat) (hw : b.WellFormed)
    (hc : ∀ c, b.nextPlayoutTimestampSamples = some c → c + reach < u64Range)
    (hk : ∀ e ∈ b.pending.entries, e.1 + reach < u64Range) :
    ∃ d b', b.nextPlayoutDecision π now = some (d, b') := by
  have hpair {r : Option (PlayoutDecision × JitterBuffer)} (h : ∃ q, r = some q) :
      ∃ d b', r = some (d, b') := by
    obtain ⟨⟨d, b'⟩, h⟩ := h
    exact ⟨d, b', h⟩
  apply hpair
  cases hn : b.nextPlayoutTimestampSamples with
  | some n =>
    simp only [nextPlayoutDecision, hn]
    exact playDue_returns hn (hc n hn) hk
  | none =>
    simp only [nextPlayoutDecision, hn]
    split_ifs with hl
    · exact ⟨_, rfl⟩
    · obtain ⟨s, p, t, hf, _, hp⟩ := hw.prime (not_lt.mp hl) now
      exact playDue_returns (n := s) (by simp [hp]) (hk _ (SortedMap.mem_of_first? hf)) hk

end

end JitterBuffer

end Voicers
