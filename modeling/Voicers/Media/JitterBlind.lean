import Voicers.Media.JitterInvariant

/-! Jitter buffers that differ in the payloads of some packets. No call looks
at a payload: buffers that are the same but for the marked packets stay so,
and take their packets from the same slots. -/

namespace Voicers

open Lib

variable {marked : Nat → Bool} {π : Profile} {now t n : Nat}

def EncodedPacket.blank (marked : Nat → Bool) (packet : EncodedPacket) : EncodedPacket :=
  if marked packet.timestampSamples then { packet with payload := [] } else packet

@[simp] theorem EncodedPacket.timestampSamples_blank (packet : EncodedPacket) :
    (packet.blank marked).timestampSamples = packet.timestampSamples := by
  unfold EncodedPacket.blank
  split_ifs
  · rfl
  · rfl

theorem EncodedPacket.blank_of_not {packet : EncodedPacket}
    (h : marked packet.timestampSamples = false) : packet.blank marked = packet := by
  simp [EncodedPacket.blank, h]

@[simp] theorem EncodedPacket.blank_blank (packet : EncodedPacket) :
    (packet.blank marked).blank marked = packet.blank marked := by
  cases h : marked packet.timestampSamples with
  | true => simp [EncodedPacket.blank, h]
  | false => rw [EncodedPacket.blank_of_not h, EncodedPacket.blank_of_not h]

/-- The payload is all that a decision for loss recovery tells of its packet. -/
def PlayoutDecision.blank (marked : Nat → Bool) : PlayoutDecision → PlayoutDecision
  | .packet p => .packet (p.blank marked)
  | .fec _ => .fec []
  | decision => decision

/-- The packet whose samples a decision asks for; that of a loss recovery is
still pending afterwards. -/
def PlayoutDecision.source? (after : JitterBuffer) : PlayoutDecision → Option EncodedPacket
  | .packet p => some p
  | .fec _ => after.nextPlayoutTimestampSamples.bind after.pending.get?
  | _ => none

def PlayoutDecision.takes (marked : Nat → Bool) (after : JitterBuffer)
    (decision : PlayoutDecision) : Bool :=
  (decision.source? after).any fun packet => marked packet.timestampSamples

namespace JitterBuffer

def blank (marked : Nat → Bool) (b : JitterBuffer) : JitterBuffer :=
  { b with pending := b.pending.mapValues (EncodedPacket.blank marked) }

def blankStep (marked : Nat → Bool) (r : PlayoutDecision × JitterBuffer) :
    PlayoutDecision × JitterBuffer :=
  (r.1.blank marked, r.2.blank marked)

section

variable {b : JitterBuffer}

@[simp] theorem blank_blank : (b.blank marked).blank marked = b.blank marked := by
  have hpending : (b.pending.mapValues (EncodedPacket.blank marked)).mapValues
      (EncodedPacket.blank marked) = b.pending.mapValues (EncodedPacket.blank marked) := by
    simp only [SortedMap.mapValues, List.map_map, SortedMap.mk.injEq]
    refine List.map_congr_left fun e _ => ?_
    simp
  simp only [blank, hpending]

theorem blank_noteStableTick : (b.blank marked).noteStableTick = b.noteStableTick.blank marked := by
  by_cases hfew : b.pending.length ≤ b.targetDepth
  · simp [noteStableTick, blank, hfew]
  · by_cases hstable : stablePlayoutTicksBeforeShrink ≤ b.stablePlayoutTicks + 1
    · simp [noteStableTick, blank, hfew, hstable]
    · simp [noteStableTick, blank, hfew, hstable]

theorem blank_advancePlayoutClock : (b.blank marked).advancePlayoutClock π t n =
    (b.advancePlayoutClock π t n).map (blank marked) := by
  unfold advancePlayoutClock
  cases π.u64 (n + frameSamples) with
  | none => rfl
  | some next => rfl

theorem blank_evictOverflow (fuel : Nat) :
    (b.blank marked).evictOverflow fuel = (b.evictOverflow fuel).blank marked := by
  induction fuel generalizing b with
  | zero => rfl
  | succ fuel ih =>
    unfold evictOverflow
    simp only [blank, SortedMap.length_mapValues, SortedMap.first?_mapValues]
    split_ifs with hfull
    · cases hfirst : b.pending.first? with
      | none => rfl
      | some oldest =>
        simp only [Option.map_some, SortedMap.erase_mapValues]
        split_ifs
        · rfl
        · exact ih (b := { b with
            pending := b.pending.erase oldest.1
            driftCorrections := b.driftCorrections + 1 })
    · rfl

theorem blank_insert (packet : EncodedPacket) :
    (b.blank marked).insert (packet.blank marked) = (b.insert packet).blank marked := by
  have hlate : (b.blank marked).isLate (packet.blank marked) = b.isLate packet := by
    simp only [isLate, blank, EncodedPacket.timestampSamples_blank]
  have hstore : (b.blank marked).store (packet.blank marked) = (b.store packet).blank marked := by
    simp only [store, blank, EncodedPacket.timestampSamples_blank, SortedMap.insertNew_mapValues]
  unfold insert
  rw [hlate, hstore]
  split_ifs
  · rfl
  · rw [blank_evictOverflow]
    simp only [blank, SortedMap.length_mapValues]

theorem blank_prime : (b.blank marked).prime now = (b.prime now).blank marked := by
  simp only [prime, blank, SortedMap.first?_mapValues, Option.map_map]
  rfl

theorem blank_rebase : (b.blank marked).rebase π now n = (b.rebase π now n).map (blank marked) := by
  unfold rebase
  simp only [blank, SortedMap.first?_mapValues]
  cases b.pending.first? with
  | none => rfl
  | some earliest =>
    simp only [Option.map_some]
    cases π.u64 (n + frameSamples * driftRebaseThresholdFrames) with
    | none => rfl
    | some limit =>
      simp only [Option.bind_eq_bind, Option.bind_some, Option.pure_def, Option.map_some]
      split_ifs
      · rfl
      · rfl

theorem blank_playSlot : ((b.blank marked).playSlot π now t n).map (blankStep marked) =
    (b.playSlot π now t n).map (blankStep marked) := by
  have hget : ∀ k, (b.blank marked).pending.get? k =
      (b.pending.get? k).map (EncodedPacket.blank marked) := fun _ => SortedMap.get?_mapValues
  have herase : { b.blank marked with pending := (b.blank marked).pending.erase n } =
      blank marked { b with pending := b.pending.erase n } := by
    simp only [blank, SortedMap.erase_mapValues]
  have hlength : (b.blank marked).pending.length = b.pending.length := SortedMap.length_mapValues
  unfold playSlot
  rw [hget]
  cases hslot : b.pending.get? n with
  | some packet =>
    simp only [Option.map_some]
    rw [herase, blank_advancePlayoutClock]
    cases { b with pending := b.pending.erase n }.advancePlayoutClock π t n with
    | none => rfl
    | some advanced =>
      simp [blankStep, PlayoutDecision.blank, blank_noteStableTick]
  | none =>
    simp only [Option.map_none, hlength]
    by_cases hgrace : now < t + playoutLateGrace
    · simp [hgrace, blankStep, PlayoutDecision.blank]
    · rw [if_neg hgrace, if_neg hgrace]
      have hdepth : (b.blank marked).targetDepth = b.targetDepth := rfl
      rw [hdepth]
      by_cases hfew : b.pending.length < b.targetDepth
      · rw [if_pos hfew, if_pos hfew]
        have hunder : blank marked (b.blank marked).underrun = b.underrun.blank marked :=
          blank_blank (b := b.underrun)
        exact congrArg (fun after => some (PlayoutDecision.hold, after)) hunder
      · rw [if_neg hfew, if_neg hfew, blank_advancePlayoutClock]
        cases π.u64 (n + frameSamples) with
        | none => simp only [Option.bind_eq_bind, Option.bind_none]
        | some ahead =>
          cases b.advancePlayoutClock π t n with
          | none => rfl
          | some advanced =>
            simp only [Option.bind_eq_bind, Option.bind_some, Option.map_some, hget]
            have hlost : blank marked (raiseTargetDepth { advanced.blank marked with
                concealedFrames := (advanced.blank marked).concealedFrames + 1
                lostPackets := (advanced.blank marked).lostPackets + 1 }) =
              blank marked (raiseTargetDepth { advanced with
                concealedFrames := advanced.concealedFrames + 1
                lostPackets := advanced.lostPackets + 1 }) :=
              blank_blank (b := raiseTargetDepth { advanced with
                concealedFrames := advanced.concealedFrames + 1
                lostPackets := advanced.lostPackets + 1 })
            cases b.pending.get? ahead with
            | none => exact congrArg (fun after => some (PlayoutDecision.conceal, after)) hlost
            | some packet => exact congrArg (fun after => some (PlayoutDecision.fec [], after)) hlost

theorem blank_playDue : ((b.blank marked).playDue π now).map (blankStep marked) =
    (b.playDue π now).map (blankStep marked) := by
  have hhold : blankStep marked (.hold, b.blank marked) = blankStep marked (.hold, b) :=
    congrArg (Prod.mk _) blank_blank
  unfold playDue
  have hclock : (b.blank marked).nextPlayoutDeadline = b.nextPlayoutDeadline := rfl
  have hcursor : (b.blank marked).nextPlayoutTimestampSamples = b.nextPlayoutTimestampSamples := rfl
  rw [hclock, hcursor]
  cases b.nextPlayoutDeadline with
  | none => exact congrArg some hhold
  | some deadline =>
    simp only
    by_cases hearly : now < deadline
    · rw [if_pos hearly, if_pos hearly]
      exact congrArg some hhold
    · rw [if_neg hearly, if_neg hearly]
      cases b.nextPlayoutTimestampSamples with
      | none => rfl
      | some expected =>
        simp only [blank_rebase]
        cases b.rebase π now expected with
        | none => rfl
        | some rebased =>
          simp only [Option.map_some, Option.bind_eq_bind, Option.bind_some]
          have hmoved : (rebased.blank marked).nextPlayoutTimestampSamples =
            rebased.nextPlayoutTimestampSamples := rfl
          rw [hmoved]
          cases rebased.nextPlayoutTimestampSamples with
          | none => rfl
          | some slot => exact blank_playSlot

/-- The decision of the blanked buffer is that of the buffer, blanked. -/
theorem blank_decision : ((b.blank marked).nextPlayoutDecision π now).map (blankStep marked) =
    (b.nextPlayoutDecision π now).map (blankStep marked) := by
  have hlength : (b.blank marked).pending.length = b.pending.length := SortedMap.length_mapValues
  have hcursor : (b.blank marked).nextPlayoutTimestampSamples = b.nextPlayoutTimestampSamples := rfl
  have hdepth : (b.blank marked).targetDepth = b.targetDepth := rfl
  unfold nextPlayoutDecision
  rw [hlength, hcursor, hdepth]
  cases b.nextPlayoutTimestampSamples with
  | some n => exact blank_playDue
  | none =>
    simp only
    by_cases hfew : b.pending.length < b.targetDepth
    · rw [if_pos hfew, if_pos hfew]
      exact congrArg (fun after => some (PlayoutDecision.hold, after)) blank_blank
    · rw [if_neg hfew, if_neg hfew, blank_prime]
      exact blank_playDue

theorem fec_source (hw : b.WellFormed) {payload : List UInt8} {after : JitterBuffer}
    (h : b.nextPlayoutDecision π now = some (.fec payload, after)) :
    ∃ packet, (PlayoutDecision.fec payload).source? after = some packet ∧
      packet.payload = payload := by
  have hdue : ∀ {c : JitterBuffer} {n t : Nat}, DueStep π c now n t (.fec payload) after →
      ∃ packet, (PlayoutDecision.fec payload).source? after = some packet ∧
        packet.payload = payload := by
    rintro c n t hstep
    cases hstep with
    | fec _ _ _ _ _ hslot => exact ⟨_, hslot, rfl⟩
  rcases decision_cases hw h with ⟨_, _, hhold, _⟩ | ⟨_, _, s, p, t, _, _, _, hstep⟩ | ⟨n, t, _, _, hstep⟩
  · cases hhold
  · exact hdue hstep
  · exact hdue hstep

end

/-- The buffers are the same but for the payloads of marked packets. -/
structure Alike (marked : Nat → Bool) (a b : JitterBuffer) : Prop where
  left : a.WellFormed
  right : b.WellFormed
  blank : a.blank marked = b.blank marked

section

variable {a b : JitterBuffer}

theorem Alike.refl (hw : a.WellFormed) : Alike marked a a := ⟨hw, hw, rfl⟩

theorem Alike.get? (h : Alike marked a b) (k : Nat) :
    (a.pending.get? k).map (EncodedPacket.blank marked) =
      (b.pending.get? k).map (EncodedPacket.blank marked) := by
  have hpending := congrArg (fun c => c.pending.get? k) h.blank
  simpa only [JitterBuffer.blank, SortedMap.get?_mapValues] using hpending

theorem eq_of_blank {p q : EncodedPacket} (h : p.blank marked = q.blank marked)
    (hp : marked p.timestampSamples = false) : p = q := by
  have hstamp : p.timestampSamples = q.timestampSamples := by
    simpa using congrArg EncodedPacket.timestampSamples h
  rwa [EncodedPacket.blank_of_not hp, EncodedPacket.blank_of_not (hstamp ▸ hp)] at h

theorem Alike.cursor (h : Alike marked a b) :
    a.nextPlayoutTimestampSamples = b.nextPlayoutTimestampSamples := by
  have hblank : (a.blank marked).nextPlayoutTimestampSamples =
      (b.blank marked).nextPlayoutTimestampSamples := by rw [h.blank]
  exact hblank

theorem Alike.source? (h : Alike marked a b) {d e : PlayoutDecision}
    (hde : d.blank marked = e.blank marked) :
    (d.source? a).map (EncodedPacket.blank marked) =
      (e.source? b).map (EncodedPacket.blank marked) := by
  cases d with
  | hold => cases e with
    | hold => rfl
    | _ => cases hde
  | conceal => cases e with
    | conceal => rfl
    | _ => cases hde
  | packet p => cases e with
    | packet q => exact congrArg some (PlayoutDecision.packet.inj hde)
    | _ => cases hde
  | fec x => cases e with
    | fec y =>
      simp only [PlayoutDecision.source?, h.cursor]
      cases b.nextPlayoutTimestampSamples with
      | none => rfl
      | some slot => exact h.get? slot
    | _ => cases hde

/-- Both panic, or both take the same packet and go on alike; they decide the
same unless that packet is marked. -/
theorem Alike.decision (h : Alike marked a b) (π : Profile) (now : Nat) :
    Option.Rel (fun r r' => Alike marked r.2 r'.2 ∧ r.1.takes marked r.2 = r'.1.takes marked r'.2 ∧
        (r.1.takes marked r.2 = false → r.1 = r'.1))
      (a.nextPlayoutDecision π now) (b.nextPlayoutDecision π now) := by
  have hsame : (a.nextPlayoutDecision π now).map (blankStep marked) =
      (b.nextPlayoutDecision π now).map (blankStep marked) := by
    rw [← blank_decision, h.blank, blank_decision]
  cases ha : a.nextPlayoutDecision π now with
  | none =>
    rw [ha] at hsame
    rw [Option.map_eq_none_iff.mp hsame.symm]
    exact .none
  | some r =>
    obtain ⟨d, a'⟩ := r
    rw [ha] at hsame
    obtain ⟨⟨e, b'⟩, hb, hstep⟩ := Option.map_eq_some_iff.mp hsame.symm
    rw [hb]
    obtain ⟨hde, hblank⟩ := Prod.mk.inj hstep
    have hafter : Alike marked a' b' := ⟨h.left.decision ha, h.right.decision hb, hblank.symm⟩
    have hsource := hafter.source? hde.symm
    refine .some ⟨hafter, ?_, fun hfree => ?_⟩
    · have htakes : ∀ source : Option EncodedPacket,
          (source.any fun p => marked p.timestampSamples) =
            ((source.map (EncodedPacket.blank marked)).map EncodedPacket.timestampSamples).any
              marked := by
        intro source
        cases source with
        | none => rfl
        | some p => simp
      unfold PlayoutDecision.takes
      rw [htakes, htakes, hsource]
    · cases d with
      | hold => cases e with
        | hold => rfl
        | _ => cases hde
      | conceal => cases e with
        | conceal => rfl
        | _ => cases hde
      | packet p => cases e with
        | packet q =>
          exact congrArg PlayoutDecision.packet
            (eq_of_blank (PlayoutDecision.packet.inj hde).symm hfree)
        | _ => cases hde
      | fec x => cases e with
        | fec y =>
          obtain ⟨p, hp, rfl⟩ := fec_source h.left ha
          obtain ⟨q, hq, rfl⟩ := fec_source h.right hb
          rw [hp, hq] at hsource
          unfold PlayoutDecision.takes at hfree
          rw [hp] at hfree
          rw [eq_of_blank (Option.some.inj hsource) hfree]
        | _ => cases hde

/-- The mark of a slot is that of the frame that found it free. -/
def markSlot (marked : Nat → Bool) (b : JitterBuffer) (timestampSamples : Nat) (mark : Bool) :
    Nat → Bool :=
  if (b.pending.get? timestampSamples).isNone then Function.update marked timestampSamples mark
  else marked

theorem Alike.markSlot_eq (h : Alike marked a b) (k : Nat) (mark : Bool) :
    markSlot marked a k mark = markSlot marked b k mark := by
  have hfree : (a.pending.get? k).isNone = (b.pending.get? k).isNone := by
    have hget := congrArg Option.isNone (h.get? k)
    simpa only [Option.isNone_map] using hget
  unfold markSlot
  rw [hfree]

/-- A taken slot keeps its packet. -/
theorem insert_taken {p q : EncodedPacket} (hslot : p.timestampSamples = q.timestampSamples)
    (htaken : (a.pending.get? p.timestampSamples).isSome) : a.insert p = a.insert q := by
  have hlate : a.isLate p = a.isLate q := by simp only [isLate, hslot]
  have hstore : a.store p = a.store q := by
    obtain ⟨w, hw⟩ := Option.isSome_iff_exists.mp htaken
    simp only [store, SortedMap.insertNew_of_some hw, SortedMap.insertNew_of_some (hslot ▸ hw)]
  unfold insert
  rw [hlate, hstore]

theorem blank_markSlot (hw : a.WellFormed) {k : Nat} (hfree : a.pending.get? k = none)
    (mark : Bool) : a.blank (Function.update marked k mark) = a.blank marked := by
  have hpending : a.pending.mapValues (EncodedPacket.blank (Function.update marked k mark)) =
      a.pending.mapValues (EncodedPacket.blank marked) := by
    refine SortedMap.mapValues_congr fun e he => ?_
    have hne : e.2.timestampSamples ≠ k := by
      rw [hw.keys e he]
      rintro rfl
      exact SortedMap.get?_eq_none_iff.mp hfree e.2 he
    simp only [EncodedPacket.blank, Function.update_of_ne hne]
  simp only [blank, hpending]

theorem Alike.insert (h : Alike marked a b) {p q : EncodedPacket} {mark : Bool}
    (hslot : p.timestampSamples = q.timestampSamples) (hsame : mark = true ∨ p = q) :
    Alike (markSlot marked a p.timestampSamples mark) (a.insert p) (b.insert q) := by
  refine ⟨h.left.insert p, h.right.insert q, ?_⟩
  rw [← blank_insert, ← blank_insert]
  have hget := h.get? p.timestampSamples
  cases hfree : a.pending.get? p.timestampSamples with
  | none =>
    rw [hfree] at hget
    have hfree' := Option.map_eq_none_iff.mp hget.symm
    have hmarks : markSlot marked a p.timestampSamples mark =
        Function.update marked p.timestampSamples mark := by simp [markSlot, hfree]
    have hpacket : p.blank (Function.update marked p.timestampSamples mark) =
        q.blank (Function.update marked p.timestampSamples mark) := by
      rcases hsame with rfl | rfl
      · cases p
        cases q
        simp only at hslot
        simp [EncodedPacket.blank, hslot]
      · rfl
    rw [hmarks, blank_markSlot h.left hfree, blank_markSlot h.right hfree', h.blank, hpacket]
  | some w =>
    have hmarks : markSlot marked a p.timestampSamples mark = marked := by simp [markSlot, hfree]
    rw [hmarks, h.blank]
    have htaken : ((b.blank marked).pending.get? (p.blank marked).timestampSamples).isSome := by
      rw [← h.blank]
      simp [JitterBuffer.blank, hfree]
    exact insert_taken (by simp [hslot]) htaken

end

end JitterBuffer

end Voicers
