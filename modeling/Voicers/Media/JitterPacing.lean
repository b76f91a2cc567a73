import Voicers.Media.JitterAccounting
import Voicers.Media.JitterDrain

/-! The pace of playout. Every emitting decision moves the deadline on by one
frame, also one that jumps over a gap, and nothing else moves it while the
cursor stays set; an epoch is therefore paced by the clock it started at. -/

namespace Voicers

open Lib

def emissions (tr : List JitterTransition) : Nat := tr.countP fun x => emitted x.output

/-- How far before the clock an epoch of this depth starts. -/
def startupOffset (depth : Nat) : Nat := frameDuration * (depth - 1)

/-- The deadline of the first slot of an epoch that starts at `start`. -/
def epochAnchor (start depth : Nat) : Nat :=
  if startupOffset depth ≤ start then start - startupOffset depth else start

/-- A stretch of a run that begins with the priming of the cursor and in which
the cursor stays set; the last transition may be the one that forgets it. -/
structure IsEpoch (start depth : Nat) (epoch : List JitterTransition) : Prop where
  primes : ∃ x rest, epoch = x :: rest ∧ x.input = .nextPlayoutDecision start ∧
    x.before.nextPlayoutTimestampSamples = none ∧ x.after.nextPlayoutTimestampSamples ≠ none ∧
    x.before.targetDepth = depth
  stays : ∀ v ∈ epoch.dropLast, v.after.nextPlayoutTimestampSamples ≠ none

/-- A recovered frame, a concealed frame, or the reset of an underrun. -/
def TakenLate (x : JitterTransition) : Prop :=
  (∃ r, x.output = some (.fec r)) ∨ x.output = some .conceal ∨
    (x.before.nextPlayoutTimestampSamples ≠ none ∧ x.after.nextPlayoutTimestampSamples = none)

def emittedBy (clock : Nat) (x : JitterTransition) : Bool :=
  match x.input with
  | .insert _ => false
  | .nextPlayoutDecision now => now ≤ clock && emitted x.output

structure PacedEpoch (start depth : Nat) (epoch : List JitterTransition) : Prop where
  emission : ∀ a u c, epoch = a ++ u :: c → Emits u → ∃ now, u.input = .nextPlayoutDecision now ∧
    start + frameDuration * emissions a ≤ now + startupOffset depth ∧
    (start < startupOffset depth → start + frameDuration * emissions a ≤ now)
  budget : ∀ clock, epoch.countP (emittedBy clock) ≤ depth + (clock - start) / frameDuration
  late : ∀ a u c, epoch = a ++ u :: c → TakenLate u → ∃ now deadline,
    u.input = .nextPlayoutDecision now ∧ u.before.nextPlayoutDeadline = some deadline ∧
    deadline = epochAnchor start depth + frameDuration * emissions a ∧
    deadline + playoutLateGrace ≤ now

theorem emitted_iff {x : JitterTransition} : emitted x.output = true ↔ Emits x := by
  cases ho : x.output with
  | none => simp [emitted, Emits, ho]
  | some d => simp [emitted, Emits, ho]

theorem emissions_append (a b : List JitterTransition) :
    emissions (a ++ b) = emissions a + emissions b := List.countP_append

theorem emissions_cons (x : JitterTransition) (tr : List JitterTransition) :
    emissions (x :: tr) = emissions tr + emissions [x] := by
  rw [← List.singleton_append, emissions_append, Nat.add_comm]

theorem emissions_emits {x : JitterTransition} (h : Emits x) : emissions [x] = 1 := by
  simp [emissions, emitted_iff.mpr h]

theorem emissions_quiet {x : JitterTransition} (h : ¬ Emits x) : emissions [x] = 0 := by
  have hq : ¬ emitted x.output = true := fun he => h (emitted_iff.mp he)
  simp [emissions, hq]

namespace JitterBuffer

/-- The deadline a decision works with: the one of the buffer, or the one it
has just primed. -/
def deadlineRead (b : JitterBuffer) (now : Nat) : Option Nat :=
  match b.nextPlayoutTimestampSamples with
  | none => (b.prime now).nextPlayoutDeadline
  | some _ => b.nextPlayoutDeadline

/-- What a decision does to the deadline `t` it reads. -/
inductive ClockStep (now t : Nat) : PlayoutDecision → JitterBuffer → Prop
  | emits {d : PlayoutDecision} {b' : JitterBuffer} : t ≤ now → d ≠ .hold →
      ((∀ p, d ≠ .packet p) → t + playoutLateGrace ≤ now) →
      b'.nextPlayoutTimestampSamples ≠ none →
      b'.nextPlayoutDeadline = some (t + frameDuration) → ClockStep now t d b'
  | waits {b' : JitterBuffer} : b'.nextPlayoutTimestampSamples ≠ none →
      b'.nextPlayoutDeadline = some t → ClockStep now t .hold b'
  | resets {b' : JitterBuffer} : t + playoutLateGrace ≤ now →
      b'.nextPlayoutTimestampSamples = none → ClockStep now t .hold b'

section

variable {π : Profile} {b b' : JitterBuffer} {now n t : Nat} {d : PlayoutDecision}

theorem DueStep.clockStep (hn : b.nextPlayoutTimestampSamples = some n)
    (ht : b.nextPlayoutDeadline = some t) (h : DueStep π b now n t d b') :
    ClockStep now t d b' := by
  have hset : b.nextPlayoutTimestampSamples ≠ none := by simp [hn]
  cases h with
  | early | grace => exact .waits hset ht
  | rebased hle | played hle =>
    exact .emits hle (by simp) (fun hp => absurd rfl (hp _)) (by simp [afterPacket])
      (by simp [afterPacket])
  | underrun hle => exact .resets hle rfl
  | fec hle | conceal hle =>
    exact .emits (by omega) (by simp) (fun _ => hle) (by simp [afterLoss, raiseTargetDepth]) rfl

theorem prime_deadline (b : JitterBuffer) (now : Nat) :
    (b.prime now).nextPlayoutDeadline = some (epochAnchor now b.targetDepth) := rfl

theorem decision_clockStep (hw : b.WellFormed) (h : b.nextPlayoutDecision π now = some (d, b')) :
    (b.nextPlayoutTimestampSamples = none ∧ b' = b ∧ d = .hold) ∨
      ∃ t, b.deadlineRead now = some t ∧ ClockStep now t d b' := by
  rcases decision_cases hw h with ⟨hn, _, rfl, rfl⟩ | ⟨hn, _, s, p, t, _, _, hp, hs⟩ | ⟨n, t, hn, ht, hs⟩
  · exact .inl ⟨hn, rfl, rfl⟩
  · have ht : (b.prime now).nextPlayoutDeadline = some t := by rw [hp]
    exact .inr ⟨t, by simp only [deadlineRead, hn, ht], hs.clockStep (by rw [hp]) ht⟩
  · exact .inr ⟨t, by simp only [deadlineRead, hn, ht], hs.clockStep hn ht⟩

theorem decision_primed_packet (hw : b.WellFormed) (hn : b.nextPlayoutTimestampSamples = none)
    (h : b.nextPlayoutDecision π now = some (d, b'))
    (ha : b'.nextPlayoutTimestampSamples ≠ none) : ∃ p, d = .packet p := by
  rcases decision_cases hw h with ⟨_, _, _, rfl⟩ | ⟨_, _, s, p, t, hf, hle, _, hs⟩ | ⟨n, t, hsome, _⟩
  · exact absurd hn ha
  · have hget : (b.prime now).pending.get? s = some p := SortedMap.get?_of_first? hf
    generalize b.prime now = c at hs hget
    cases hs with
    | early he => omega
    | rebased | played => exact ⟨_, rfl⟩
    | grace _ _ hnone | underrun _ _ hnone | fec _ _ hnone | conceal _ _ hnone => simp [hget] at hnone
  · simp [hn] at hsome

theorem insert_deadline (b : JitterBuffer) (p : EncodedPacket) :
    (b.insert p).nextPlayoutDeadline = b.nextPlayoutDeadline := by
  rcases insert_cases b p with ⟨_, h⟩ | ⟨_, dropped, h⟩
  · rw [h]
    rfl
  · rw [h.rest]
    rfl

end

end JitterBuffer

section

variable {π : Profile} {x : JitterTransition} {t : Nat}

theorem call_decision {now : Nat} (hi : x.input = .nextPlayoutDecision now)
    (h : x.before.call π x.input = some (x.output, x.after)) :
    ∃ d, x.output = some d ∧ x.before.nextPlayoutDecision π now = some (d, x.after) := by
  simp only [hi, JitterBuffer.call, Option.map_eq_some_iff, Prod.mk.injEq] at h
  obtain ⟨⟨d, b'⟩, hd, ho, rfl⟩ := h
  exact ⟨d, ho.symm, hd⟩

theorem call_clockStep (hw : x.before.WellFormed) (hn : x.before.nextPlayoutTimestampSamples ≠ none)
    (ht : x.before.nextPlayoutDeadline = some t)
    (h : x.before.call π x.input = some (x.output, x.after)) :
    (x.output = none ∧ x.after.nextPlayoutTimestampSamples = x.before.nextPlayoutTimestampSamples ∧
      x.after.nextPlayoutDeadline = some t) ∨
    ∃ now d, x.input = .nextPlayoutDecision now ∧ x.output = some d ∧
      JitterBuffer.ClockStep now t d x.after := by
  cases hi : x.input with
  | insert p =>
    simp only [hi, JitterBuffer.call, Option.some.injEq, Prod.mk.injEq] at h
    obtain ⟨ho, ha⟩ := h
    refine .inl ⟨ho.symm, ?_, ?_⟩
    · rw [← ha, JitterBuffer.insert_next]
    · rw [← ha, JitterBuffer.insert_deadline, ht]
  | nextPlayoutDecision now =>
    obtain ⟨d, ho, hd⟩ := call_decision hi h
    rcases JitterBuffer.decision_clockStep hw hd with ⟨hnone, _⟩ | ⟨s, hs, hstep⟩
    · exact absurd hnone hn
    · obtain ⟨n, hsome⟩ := Option.ne_none_iff_exists'.mp hn
      have hst : s = t := by
        rw [JitterBuffer.deadlineRead, hsome] at hs
        exact Option.some.inj (hs.symm.trans ht)
      exact .inr ⟨now, d, rfl, ho, hst ▸ hstep⟩

/-- One transition inside an epoch moves the deadline by a frame exactly when
it emits. -/
theorem deadline_step (hw : x.before.WellFormed) (hn : x.before.nextPlayoutTimestampSamples ≠ none)
    (ht : x.before.nextPlayoutDeadline = some t)
    (h : x.before.call π x.input = some (x.output, x.after))
    (hset : x.after.nextPlayoutTimestampSamples ≠ none) :
    x.after.nextPlayoutDeadline = some (t + frameDuration * emissions [x]) := by
  rcases call_clockStep hw hn ht h with ⟨ho, _, hd⟩ | ⟨now, d, _, ho, hstep⟩
  · have hq : ¬ Emits x := fun ⟨e, he, _⟩ => by simp [ho] at he
    rw [hd, emissions_quiet hq, Nat.mul_zero, Nat.add_zero]
  · cases hstep with
    | emits _ hne _ _ hd => rw [hd, emissions_emits ⟨d, ho, hne⟩, Nat.mul_one]
    | waits _ hd =>
      have hq : ¬ Emits x := fun ⟨e, he, hne⟩ => hne (Option.some.inj (he.symm.trans ho))
      rw [hd, emissions_quiet hq, Nat.mul_zero, Nat.add_zero]
    | resets _ hnone => exact absurd hnone hset

end

/-- Along a run in which the cursor stays set, the deadline counts the frames
emitted. -/
theorem deadline_along {π : Profile} {b c : JitterBuffer} {tr : List JitterTransition} {t : Nat}
    (h : Trace (JitterBuffer.call π) b tr c) (hw : b.WellFormed)
    (hn : b.nextPlayoutTimestampSamples ≠ none) (ht : b.nextPlayoutDeadline = some t)
    (hset : ∀ v ∈ tr, v.after.nextPlayoutTimestampSamples ≠ none) :
    c.WellFormed ∧ c.nextPlayoutTimestampSamples ≠ none ∧
      c.nextPlayoutDeadline = some (t + frameDuration * emissions tr) := by
  induction h generalizing t with
  | nil => exact ⟨hw, hn, by simpa [emissions] using ht⟩
  | @cons s m e i o tr hcall _ ih =>
    have hm : m.nextPlayoutTimestampSamples ≠ none := hset _ List.mem_cons_self
    have hd := deadline_step (x := ⟨s, i, o, m⟩) hw hn ht hcall hm
    obtain ⟨hwc, hnc, hdc⟩ := ih (hw.call hcall) hm hd fun v hv => hset v (List.mem_cons_of_mem _ hv)
    refine ⟨hwc, hnc, ?_⟩
    rw [hdc, emissions_cons _ tr, Nat.mul_add]
    congr 1
    omega

/-- The transition that primes the cursor plays a packet and leaves the
deadline of the second slot. -/
theorem primes_clock {π : Profile} {x : JitterTransition} {start : Nat} (hw : x.before.WellFormed)
    (h : x.before.call π x.input = some (x.output, x.after))
    (hi : x.input = .nextPlayoutDecision start)
    (hn : x.before.nextPlayoutTimestampSamples = none)
    (ha : x.after.nextPlayoutTimestampSamples ≠ none) :
    (∃ p, x.output = some (.packet p)) ∧
      x.after.nextPlayoutDeadline =
        some (epochAnchor start x.before.targetDepth + frameDuration) := by
  obtain ⟨d, ho, hd⟩ := call_decision hi h
  obtain ⟨p, rfl⟩ := JitterBuffer.decision_primed_packet hw hn hd ha
  refine ⟨⟨p, ho⟩, ?_⟩
  rcases JitterBuffer.decision_clockStep hw hd with ⟨_, hb, _⟩ | ⟨t, ht, hstep⟩
  · exact absurd (by rw [hb, hn]) ha
  · rw [JitterBuffer.deadlineRead, hn] at ht
    obtain rfl := Option.some.inj ((JitterBuffer.prime_deadline _ _).symm.trans ht)
    cases hstep with
    | emits _ _ _ _ hclock => exact hclock

section

variable {π : Profile} {ops : List JitterOp} {tr pre epoch post : List JitterTransition}
  {b : JitterBuffer} {start depth : Nat}

/-- A transition of an epoch is the one that primes it, or it finds the
deadline of its slot. -/
theorem IsEpoch.slot (he : IsEpoch start depth epoch)
    (h : Trace (JitterBuffer.call π) JitterBuffer.new (pre ++ epoch ++ post) b)
    {a c : List JitterTransition} {u : JitterTransition} (hsplit : epoch = a ++ u :: c) :
    jitterMinDepth ≤ depth ∧ u.before.WellFormed ∧
      u.before.call π u.input = some (u.output, u.after) ∧
      ((emissions a = 0 ∧ u.input = .nextPlayoutDecision start ∧
          u.before.nextPlayoutTimestampSamples = none ∧
          u.after.nextPlayoutTimestampSamples ≠ none ∧ u.before.targetDepth = depth) ∨
        (u.before.nextPlayoutTimestampSamples ≠ none ∧ u.before.nextPlayoutDeadline =
          some (epochAnchor start depth + frameDuration * emissions a))) := by
  obtain ⟨x, rest, hx, hi, hn, ha, hdepth⟩ := he.primes
  have htrace : Trace (JitterBuffer.call π) JitterBuffer.new (pre ++ x :: (rest ++ post)) b := by
    simpa [hx] using h
  obtain ⟨hpre, hcall, hrest⟩ := htrace.split
  have hw := jitterTrace_wellFormed hpre
  have hmin : jitterMinDepth ≤ depth := hdepth ▸ hw.minDepth
  cases a with
  | nil =>
    obtain ⟨rfl, rfl⟩ := List.cons.inj (hx.symm.trans hsplit)
    exact ⟨hmin, hw, hcall, .inl ⟨rfl, hi, hn, ha, hdepth⟩⟩
  | cons y a =>
    obtain ⟨rfl, htail⟩ := List.cons.inj (hx.symm.trans hsplit)
    have hmiddle : rest = a ++ u :: c := htail
    subst hmiddle
    obtain ⟨⟨p, ho⟩, hclock⟩ := primes_clock hw hcall hi hn ha
    have hset : ∀ v ∈ a, v.after.nextPlayoutTimestampSamples ≠ none := by
      intro v hv
      refine he.stays v ?_
      rw [hsplit, List.dropLast_append_of_ne_nil (List.cons_ne_nil _ _)]
      exact List.mem_append_left _ (List.mem_cons_of_mem _ hv)
    rw [List.append_assoc, List.cons_append] at hrest
    obtain ⟨hmid, hu, _⟩ := hrest.split
    obtain ⟨hwu, hnu, hdu⟩ := deadline_along hmid (hw.call hcall) ha hclock hset
    refine ⟨hmin, hwu, hu, .inr ⟨hnu, ?_⟩⟩
    rw [hdu, emissions_cons _ a, emissions_emits ⟨_, ho, by simp⟩, hdepth, Nat.mul_add, Nat.mul_one]
    congr 1
    omega

theorem IsEpoch.emission (he : IsEpoch start depth epoch)
    (h : Trace (JitterBuffer.call π) JitterBuffer.new (pre ++ epoch ++ post) b)
    {a c : List JitterTransition} {u : JitterTransition} (hsplit : epoch = a ++ u :: c)
    (hu : Emits u) : ∃ now, u.input = .nextPlayoutDecision now ∧
      epochAnchor start depth + frameDuration * emissions a ≤ now := by
  obtain ⟨_, hw, hcall, ⟨hzero, hi, _⟩ | ⟨hn, ht⟩⟩ := he.slot h hsplit
  · refine ⟨start, hi, ?_⟩
    rw [hzero, epochAnchor]
    split_ifs <;> omega
  · rcases call_clockStep hw hn ht hcall with ⟨ho, _⟩ | ⟨now, d, hi, ho, hstep⟩
    · obtain ⟨e, he, _⟩ := hu
      simp [ho] at he
    · obtain ⟨e, he, hne⟩ := hu
      obtain rfl := Option.some.inj (he.symm.trans ho)
      cases hstep with
      | emits hle => exact ⟨now, hi, hle⟩
      | waits => exact absurd rfl hne
      | resets => exact absurd rfl hne

theorem IsEpoch.late (he : IsEpoch start depth epoch)
    (h : Trace (JitterBuffer.call π) JitterBuffer.new (pre ++ epoch ++ post) b)
    {a c : List JitterTransition} {u : JitterTransition} (hsplit : epoch = a ++ u :: c)
    (hu : TakenLate u) : ∃ now deadline, u.input = .nextPlayoutDecision now ∧
      u.before.nextPlayoutDeadline = some deadline ∧
      deadline = epochAnchor start depth + frameDuration * emissions a ∧
      deadline + playoutLateGrace ≤ now := by
  obtain ⟨_, hw, hcall, ⟨_, hi, hn, ha, hdepth⟩ | ⟨hn, ht⟩⟩ := he.slot h hsplit
  · obtain ⟨⟨p, ho⟩, _⟩ := primes_clock hw hcall hi hn ha
    rcases hu with ⟨r, hr⟩ | hr | ⟨_, hr⟩
    · simp [ho] at hr
    · simp [ho] at hr
    · exact absurd hr ha
  · rcases call_clockStep hw hn ht hcall with ⟨ho, hnext, _⟩ | ⟨now, d, hi, ho, hstep⟩
    · rcases hu with ⟨r, hr⟩ | hr | ⟨_, hr⟩
      · simp [ho] at hr
      · simp [ho] at hr
      · exact absurd (hnext ▸ hr) hn
    · refine ⟨now, _, hi, ht, rfl, ?_⟩
      rw [TakenLate, ho] at hu
      cases hstep with
      | emits _ _ hgrace hset =>
        refine hgrace fun p hp => ?_
        subst hp
        rcases hu with ⟨r, hr⟩ | hr | ⟨_, hr⟩
        · simp at hr
        · simp at hr
        · exact hset hr
      | waits hset =>
        rcases hu with ⟨r, hr⟩ | hr | ⟨_, hr⟩
        · simp at hr
        · simp at hr
        · exact absurd hr hset
      | resets hgrace => exact hgrace

theorem emittedBy_iff {clock : Nat} {x : JitterTransition} : emittedBy clock x = true ↔
    Emits x ∧ ∃ now, x.input = .nextPlayoutDecision now ∧ now ≤ clock := by
  cases hi : x.input with
  | insert p => simp [emittedBy, hi]
  | nextPlayoutDecision now =>
    simp [emittedBy, hi, emitted_iff, and_comm]

/-- The decisions that emit are paced by the clock of the epoch, whatever the
clock of the run does in between. -/
theorem playout_pacing (h : jitterRun π ops = some (tr, b)) (htr : tr = pre ++ epoch ++ post)
    (he : IsEpoch start depth epoch) : PacedEpoch start depth epoch := by
  have htrace := jitterRun_trace h
  rw [htr] at htrace
  have hfloor : start ≤ epochAnchor start depth + startupOffset depth ∧
      (start < startupOffset depth → epochAnchor start depth = start) := by
    unfold epochAnchor
    split_ifs <;> omega
  refine ⟨fun a u c hsplit hu => ?_, fun clock => ?_, fun a u c => he.late htrace⟩
  · obtain ⟨now, hi, hle⟩ := he.emission htrace hsplit hu
    exact ⟨now, hi, by omega, fun hlt => by have := hfloor.2 hlt; omega⟩
  · apply countP_le_of_splits
    intro a u c hsplit hu
    obtain ⟨hemits, now, hi, hnow⟩ := emittedBy_iff.mp hu
    obtain ⟨later, hi', hle⟩ := he.emission htrace hsplit hemits
    have hsame : later = now := by simpa [hi] using hi'.symm
    have hmin := (he.slot htrace hsplit).1
    have hfewer : a.countP (emittedBy clock) ≤ emissions a :=
      List.countP_mono_left fun x _ hx => emitted_iff.mpr (emittedBy_iff.mp hx).1
    have hslot := hfloor.1
    simp only [startupOffset, jitterMinDepth, frameDuration, millis] at *
    omega

end

theorem playout_pacing_recoveredGap : ∃ tr b, jitterRun .dev recoveredGap = some (tr, b) ∧
    ∃ pre epoch, tr = pre ++ epoch ∧ epoch.length = 4 ∧ PacedEpoch (millis 100) 3 epoch := by
  have hrun : (jitterRun .dev recoveredGap).map (fun r => (r.1.drop 4).map fun x =>
      (x.input, x.before.nextPlayoutTimestampSamples, x.after.nextPlayoutTimestampSamples,
        x.before.targetDepth)) =
      some [(.nextPlayoutDecision (millis 100), none, some 960, 3),
        (.nextPlayoutDecision (millis 126), some 960, some 1920, 3),
        (.insert ⟨1920, [9]⟩, some 1920, some 1920, 4),
        (.nextPlayoutDecision (millis 126), some 1920, some 2880, 4)] := by decide
  obtain ⟨⟨tr, b⟩, hr, hd⟩ := Option.map_eq_some_iff.mp hrun
  simp only [List.map_eq_cons_iff, List.map_eq_nil_iff, Prod.mk.injEq] at hd
  obtain ⟨x, _, hx, ⟨hi, hn, ha, hdepth⟩, y, _, rfl, ⟨_, _, hy, _⟩, z, _, rfl, ⟨_, _, hz, _⟩,
    w, _, rfl, _, rfl⟩ := hd
  refine ⟨tr, b, hr, tr.take 4, [x, y, z, w], by rw [← hx, List.take_append_drop], rfl, ?_⟩
  have htr : tr = tr.take 4 ++ [x, y, z, w] ++ [] := by
    rw [← hx, List.append_nil, List.take_append_drop]
  refine playout_pacing hr htr ⟨⟨x, _, rfl, hi, hn, ?_, hdepth⟩, ?_⟩
  · simp [ha]
  · simp [ha, hy, hz]

/-- After the jump at `now` the clock of the buffer starts again there. -/
structure Reanchored (now : Nat) (x : JitterTransition) (post : List JitterTransition) : Prop where
  deadline : x.after.nextPlayoutDeadline = some (now + frameDuration)
  pace : ∀ a u c, post = a ++ u :: c → (∀ v ∈ a, v.after.nextPlayoutTimestampSamples ≠ none) →
    Emits u → ∃ later, u.input = .nextPlayoutDecision later ∧
      now + frameDuration * (emissions a + 1) ≤ later

/-- The gap check fires only in a decision that plays the packet it jumps to,
one frame after the deadline read before the check. -/
theorem JitterBuffer.rebases_clock {π : Profile} {b b' : JitterBuffer} {now : Nat}
    {d : PlayoutDecision} (hw : b.WellFormed) (h : b.nextPlayoutDecision π now = some (d, b'))
    (hr : b.rebases π now = true) : b'.nextPlayoutTimestampSamples ≠ none ∧
      ∃ t, b.deadlineRead now = some t ∧ b'.nextPlayoutDeadline = some (t + frameDuration) := by
  have hdrift := decision_drift hw h
  rw [hr, if_pos rfl] at hdrift
  have hne : d ≠ .hold := by
    rintro rfl
    rcases decision_hold hw h with rfl | ⟨rfl, _⟩
    · omega
    · have hkept : b.underrun.driftCorrections = b.driftCorrections := rfl
      omega
  rcases decision_clockStep hw h with ⟨_, _, hd⟩ | ⟨t, ht, hstep⟩
  · exact absurd hd hne
  · cases hstep with
    | emits _ _ _ hset hclock => exact ⟨hset, t, ht, hclock⟩
    | waits => exact absurd rfl hne
    | resets => exact absurd rfl hne

theorem reanchored_pace {π : Profile} {c d : JitterBuffer} {post : List JitterTransition} {now : Nat}
    (h : Trace (JitterBuffer.call π) c post d) (hw : c.WellFormed)
    (hn : c.nextPlayoutTimestampSamples ≠ none)
    (ht : c.nextPlayoutDeadline = some (now + frameDuration))
    {a e : List JitterTransition} {u : JitterTransition} (hsplit : post = a ++ u :: e)
    (hset : ∀ v ∈ a, v.after.nextPlayoutTimestampSamples ≠ none) (hu : Emits u) :
    ∃ later, u.input = .nextPlayoutDecision later ∧
      now + frameDuration * (emissions a + 1) ≤ later := by
  rw [hsplit] at h
  obtain ⟨hmid, hcall, _⟩ := h.split
  obtain ⟨hwu, hnu, hdu⟩ := deadline_along hmid hw hn ht hset
  obtain ⟨e, he, hne⟩ := hu
  rcases call_clockStep hwu hnu hdu hcall with ⟨ho, _⟩ | ⟨later, d, hi, ho, hstep⟩
  · simp [ho] at he
  · obtain rfl := Option.some.inj (he.symm.trans ho)
    cases hstep with
    | emits hle =>
      refine ⟨later, hi, ?_⟩
      rw [Nat.mul_add, Nat.mul_one]
      omega
    | waits => exact absurd rfl hne
    | resets => exact absurd rfl hne

/-- The deadline stored by the gap check is overwritten in the same call from
the one read before it, so the clock starts again only where the two agree. -/
theorem rebase_reanchors_iff {π : Profile} {ops : List JitterOp}
    {tr pre post : List JitterTransition} {b : JitterBuffer} {x : JitterTransition} {now : Nat}
    (h : jitterRun π ops = some (tr, b)) (htr : tr = pre ++ x :: post)
    (hi : x.input = .nextPlayoutDecision now) (hr : x.before.rebases π now = true) :
    Reanchored now x post ↔ x.before.deadlineRead now = some now := by
  have htrace := jitterRun_trace h
  rw [htr] at htrace
  obtain ⟨hpre, hcall, hpost⟩ := htrace.split
  have hw := jitterTrace_wellFormed hpre
  obtain ⟨d, _, hd⟩ := call_decision hi hcall
  obtain ⟨hset, t, ht, hclock⟩ := JitterBuffer.rebases_clock hw hd hr
  constructor
  · intro hre
    have hsame := Option.some.inj (hclock.symm.trans hre.deadline)
    rw [ht, Nat.add_right_cancel hsame]
  · intro hnow
    obtain rfl := Option.some.inj (ht.symm.trans hnow)
    exact ⟨hclock, fun a u c hsplit hstay hu =>
      reanchored_pace hpost (hw.call hcall) hset hclock hsplit hstay hu⟩

/-- Three packets are played on time, the next ones are far ahead and come
late; the decisions after the jump do not wait for the frame they emitted. -/
def stalledGap : List JitterOp :=
  [.insert ⟨0, [1]⟩, .insert ⟨960, [2]⟩, .insert ⟨1920, [3]⟩, .nextPlayoutDecision (millis 1000),
    .nextPlayoutDecision (millis 1000), .nextPlayoutDecision (millis 1000),
    .insert ⟨19200, [4]⟩, .insert ⟨20160, [5]⟩, .insert ⟨21120, [6]⟩,
    .nextPlayoutDecision (millis 1100), .nextPlayoutDecision (millis 1100),
    .nextPlayoutDecision (millis 1100)]

theorem stalledGap_run : ∃ tr b pre x y z, jitterRun .dev stalledGap = some (tr, b) ∧
    tr = pre ++ x :: [y, z] ∧ x.input = .nextPlayoutDecision (millis 1100) ∧
    x.before.rebases .dev (millis 1100) = true ∧ x.after.nextPlayoutDeadline = some (millis 1040) ∧
    y.output = some (.packet ⟨20160, [5]⟩) ∧ z.output = some (.packet ⟨21120, [6]⟩) := by
  have hrun : (jitterRun .dev stalledGap).map (fun r => (r.1.drop 9).map fun x =>
      (x.input, x.before.rebases .dev (millis 1100), x.after.nextPlayoutDeadline, x.output)) =
      some [(.nextPlayoutDecision (millis 1100), true, some (millis 1040), some (.packet ⟨19200, [4]⟩)),
        (.nextPlayoutDecision (millis 1100), false, some (millis 1060), some (.packet ⟨20160, [5]⟩)),
        (.nextPlayoutDecision (millis 1100), false, some (millis 1080),
          some (.packet ⟨21120, [6]⟩))] := by decide
  obtain ⟨⟨tr, b⟩, hr, hd⟩ := Option.map_eq_some_iff.mp hrun
  simp only [List.map_eq_cons_iff, List.map_eq_nil_iff, Prod.mk.injEq] at hd
  obtain ⟨x, _, hx, ⟨hi, hre, ha, _⟩, y, _, rfl, ⟨_, _, _, hy⟩, z, _, rfl, ⟨_, _, _, hz⟩, rfl⟩ := hd
  exact ⟨tr, b, tr.take 9, x, y, z, hr, by rw [← hx, List.take_append_drop], hi, hre, ha, hy, hz⟩

/-- After the jump at 1100 ms the deadline stays at the old pace, and two more
frames leave at once. -/
theorem stalledGap_catches_up : ∃ tr b pre x y z, jitterRun .dev stalledGap = some (tr, b) ∧
    tr = pre ++ x :: [y, z] ∧ x.input = .nextPlayoutDecision (millis 1100) ∧
    x.before.rebases .dev (millis 1100) = true ∧
    x.after.nextPlayoutDeadline ≠ some (millis 1100 + frameDuration) ∧
    y.output = some (.packet ⟨20160, [5]⟩) ∧ z.output = some (.packet ⟨21120, [6]⟩) := by
  obtain ⟨tr, b, pre, x, y, z, hr, htr, hi, hre, ha, hy, hz⟩ := stalledGap_run
  exact ⟨tr, b, pre, x, y, z, hr, htr, hi, hre, by rw [ha]; decide, hy, hz⟩

theorem rebase_reanchors_iff_stalledGap : ∃ tr b pre x post,
    jitterRun .dev stalledGap = some (tr, b) ∧ tr = pre ++ x :: post ∧
    (Reanchored (millis 1100) x post ↔
      x.before.deadlineRead (millis 1100) = some (millis 1100)) := by
  obtain ⟨tr, b, pre, x, y, z, hr, htr, hi, hre, _⟩ := stalledGap_run
  exact ⟨tr, b, pre, x, [y, z], hr, htr, rebase_reanchors_iff hr htr hi hre⟩

end Voicers
