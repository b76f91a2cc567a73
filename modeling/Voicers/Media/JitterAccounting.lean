import Voicers.Media.JitterTimeline
import Mathlib.Data.List.Count

/-! Where the packets given to a jitter buffer go. Every call moves packets
between the input, the map and the four ways out of it; the counters of the
buffer follow. -/

namespace Voicers

open Lib

def JitterBuffer.packets (b : JitterBuffer) : List EncodedPacket := b.pending.entries.map Prod.snd

/-- Whether the gap check of `playDue` fires. -/
def JitterBuffer.rebasesDue (π : Profile) (b : JitterBuffer) (now : Nat) : Bool :=
  match b.nextPlayoutDeadline, b.nextPlayoutTimestampSamples, b.pending.first? with
  | some deadline, some expected, some (earliest, _) =>
    match π.u64 (expected + frameSamples * driftRebaseThresholdFrames) with
    | some limit => deadline ≤ now ∧ limit < earliest
    | none => false
  | _, _, _ => false

def JitterBuffer.rebases (π : Profile) (b : JitterBuffer) (now : Nat) : Bool :=
  match b.nextPlayoutTimestampSamples with
  | none =>
    if b.pending.length < b.targetDepth then false else (b.prime now).rebasesDue π now
  | some _ => b.rebasesDue π now

section

variable (x : JitterTransition)

def inserted : List EncodedPacket :=
  match x.input with
  | .insert p => [p]
  | .nextPlayoutDecision _ => []

def rejectedLate : List EncodedPacket := (inserted x).filter x.before.isLate

def ignoredDuplicate : List EncodedPacket :=
  (inserted x).filter fun p =>
    !x.before.isLate p && (x.before.pending.get? p.timestampSamples).isSome

def played : List EncodedPacket :=
  match x.output with
  | some (.packet p) => [p]
  | _ => []

def evicted : List EncodedPacket :=
  ((inserted x).filter (fun p => !x.before.isLate p)).flatMap fun p =>
    ((x.before.store p).pending.entries.filter (fun e => e ∉ x.after.pending.entries)).map Prod.snd

def concealments : Nat :=
  match x.output with
  | some (.fec _) => 1
  | some .conceal => 1
  | _ => 0

def rebasings (π : Profile) : Nat :=
  match x.input with
  | .insert _ => 0
  | .nextPlayoutDecision now => if x.before.rebases π now then 1 else 0

end

/-- The accounts of a run that ends in `b`. -/
structure Accounted (π : Profile) (tr : List JitterTransition) (b : JitterBuffer) : Prop where
  packets : (tr.flatMap inserted).Perm (tr.flatMap rejectedLate ++ tr.flatMap ignoredDuplicate ++
    tr.flatMap played ++ tr.flatMap evicted ++ b.packets)
  late : b.latePackets = (tr.flatMap rejectedLate).length
  drift : b.driftCorrections = (tr.flatMap evicted).length + (tr.map (rebasings · π)).sum
  lost : b.lostPackets = (tr.map concealments).sum
  concealed : b.concealedFrames = (tr.map concealments).sum

structure StepAccounted (π : Profile) (x : JitterTransition) : Prop where
  packets : (x.before.packets ++ inserted x).Perm (rejectedLate x ++ ignoredDuplicate x ++
    played x ++ evicted x ++ x.after.packets)
  late : x.after.latePackets = x.before.latePackets + (rejectedLate x).length
  drift : x.after.driftCorrections = x.before.driftCorrections + (evicted x).length + rebasings x π
  lost : x.after.lostPackets = x.before.lostPackets + concealments x
  concealed : x.after.concealedFrames = x.before.concealedFrames + concealments x

namespace JitterBuffer

section

variable {π : Profile} {b b' : JitterBuffer} {now n t : Nat} {d : PlayoutDecision}

theorem rebasesDue_iff (hn : b.nextPlayoutTimestampSamples = some n)
    (ht : b.nextPlayoutDeadline = some t) :
    b.rebasesDue π now = true ↔
      t ≤ now ∧ ∃ e p, b.pending.first? = some (e, p) ∧ FarBehind π n e := by
  cases hf : b.pending.first? with
  | none => simp [rebasesDue, hn, ht, hf]
  | some e =>
    obtain ⟨e, p⟩ := e
    cases hu : π.u64 (n + frameSamples * driftRebaseThresholdFrames) with
    | none => simp [rebasesDue, hn, ht, hf, hu, FarBehind]
    | some limit => simp [rebasesDue, hn, ht, hf, hu, FarBehind]

theorem Near.not_rebasesDue (hn : b.nextPlayoutTimestampSamples = some n)
    (ht : b.nextPlayoutDeadline = some t) (h : Near π b n) : b.rebasesDue π now = false := by
  by_contra hr
  obtain ⟨_, e, p, hf, limit, hl, hlt⟩ := (rebasesDue_iff hn ht).mp (by simpa using hr)
  obtain ⟨limit', hl', hle⟩ := h (e, p) hf
  rw [hl] at hl'
  cases hl'
  exact absurd hlt (by simpa using hle)

theorem DueStep.drift (hn : b.nextPlayoutTimestampSamples = some n)
    (ht : b.nextPlayoutDeadline = some t) (h : DueStep π b now n t d b') :
    b'.driftCorrections = b.driftCorrections + if b.rebasesDue π now then 1 else 0 := by
  cases h with
  | early he =>
    have hr : ¬ b.rebasesDue π now = true := fun hr => by
      have := ((rebasesDue_iff hn ht).mp hr).1
      omega
    simp [hr]
  | rebased hle hf hfar _ =>
    have hr : b.rebasesDue π now = true := (rebasesDue_iff hn ht).mpr ⟨hle, _, _, hf, hfar⟩
    simp [hr, afterPacket, JitterBuffer.rebased]
  | played _ hnear _ _ => simp [hnear.not_rebasesDue hn ht, afterPacket]
  | grace _ hnear _ _ => simp [hnear.not_rebasesDue hn ht]
  | underrun _ hnear _ _ => simp [hnear.not_rebasesDue hn ht, JitterBuffer.underrun]
  | fec _ hnear _ _ _ _ => simp [hnear.not_rebasesDue hn ht, afterLoss, raiseTargetDepth]
  | conceal _ hnear _ _ _ _ => simp [hnear.not_rebasesDue hn ht, afterLoss, raiseTargetDepth]

theorem decision_drift (hw : b.WellFormed) (h : b.nextPlayoutDecision π now = some (d, b')) :
    b'.driftCorrections = b.driftCorrections + if b.rebases π now then 1 else 0 := by
  rcases decision_cases hw h with ⟨hn, hl, _, rfl⟩ | ⟨hn, hl, s, p, t, _, _, hp, hs⟩ | ⟨n, t, hn, ht, hs⟩
  · simp [rebases, hn, hl]
  · have hd := hs.drift (by simp [hp]) (by simp [hp])
    have hprime : (b.prime now).driftCorrections = b.driftCorrections := rfl
    rw [hprime] at hd
    simpa [rebases, hn, hl] using hd
  · simpa [rebases, hn] using hs.drift hn ht

theorem packets_erase {s : Nat} {p : EncodedPacket} (h : b.pending.get? s = some p) :
    b.packets.Perm (p :: (b.pending.erase s).entries.map Prod.snd) :=
  (SortedMap.erase_perm h).map Prod.snd

/-- What a decision does to the packets and to the counters: it plays one
packet, holds, or counts one as lost and concealed. -/
inductive Accounts (b : JitterBuffer) : PlayoutDecision → JitterBuffer → Prop
  | packet {b' : JitterBuffer} {p : EncodedPacket} (hlate : b'.latePackets = b.latePackets)
      (hpackets : b.packets.Perm (p :: b'.packets)) (hlost : b'.lostPackets = b.lostPackets)
      (hconcealed : b'.concealedFrames = b.concealedFrames) : Accounts b (.packet p) b'
  | hold {b' : JitterBuffer} (hlate : b'.latePackets = b.latePackets)
      (hpackets : b'.packets = b.packets) (hlost : b'.lostPackets = b.lostPackets)
      (hconcealed : b'.concealedFrames = b.concealedFrames) : Accounts b .hold b'
  | loss {b' : JitterBuffer} {d : PlayoutDecision} (hd : d = .conceal ∨ ∃ r, d = .fec r)
      (hlate : b'.latePackets = b.latePackets) (hpackets : b'.packets = b.packets)
      (hlost : b'.lostPackets = b.lostPackets + 1)
      (hconcealed : b'.concealedFrames = b.concealedFrames + 1) : Accounts b d b'

theorem DueStep.packets (h : DueStep π b now n t d b') : b.Accounts d b' := by
  cases h with
  | early => exact .hold rfl rfl rfl rfl
  | grace => exact .hold rfl rfl rfl rfl
  | underrun => exact .hold rfl rfl rfl rfl
  | rebased _ hf _ _ =>
    refine .packet ?_ ?_ ?_ ?_
    · simp [afterPacket, JitterBuffer.rebased]
    · simpa [JitterBuffer.packets, afterPacket, JitterBuffer.rebased] using
        packets_erase (SortedMap.get?_of_first? hf)
    · simp [afterPacket, JitterBuffer.rebased]
    · simp [afterPacket, JitterBuffer.rebased]
  | played _ _ hp _ =>
    refine .packet ?_ ?_ ?_ ?_
    · simp [afterPacket]
    · simpa [JitterBuffer.packets, afterPacket] using packets_erase hp
    · simp [afterPacket]
    · simp [afterPacket]
  | fec => exact .loss (.inr ⟨_, rfl⟩) rfl rfl rfl rfl
  | conceal => exact .loss (.inl rfl) rfl rfl rfl rfl

theorem decision_packets (hw : b.WellFormed) (h : b.nextPlayoutDecision π now = some (d, b')) :
    b.Accounts d b' := by
  rcases decision_cases hw h with ⟨_, _, rfl, rfl⟩ | ⟨_, _, s, p, t, _, _, _, hs⟩ | ⟨n, t, _, _, hs⟩
  · exact .hold rfl rfl rfl rfl
  · -- priming the cursor leaves packets and counters
    cases hs.packets with
    | packet hlate hpackets hlost hconcealed => exact .packet hlate hpackets hlost hconcealed
    | hold hlate hpackets hlost hconcealed => exact .hold hlate hpackets hlost hconcealed
    | loss hd hlate hpackets hlost hconcealed => exact .loss hd hlate hpackets hlost hconcealed
  · exact hs.packets

end

end JitterBuffer

theorem stepAccounted_decision {π : Profile} {x : JitterTransition} {now : Nat}
    {d : PlayoutDecision} (hw : x.before.WellFormed) (hi : x.input = .nextPlayoutDecision now)
    (ho : x.output = some d) (h : x.before.nextPlayoutDecision π now = some (d, x.after)) :
    StepAccounted π x := by
  have hd := JitterBuffer.decision_drift hw h
  have hin : inserted x = [] := by simp [inserted, hi]
  have hrej : rejectedLate x = [] := by simp [rejectedLate, hin]
  have hign : ignoredDuplicate x = [] := by simp [ignoredDuplicate, hin]
  have hev : evicted x = [] := by simp [evicted, hin]
  have hreb : rebasings x π = if x.before.rebases π now then 1 else 0 := by simp [rebasings, hi]
  have hdrift : x.after.driftCorrections = x.before.driftCorrections + (evicted x).length +
      rebasings x π := by
    rw [hev, hreb]
    simpa using hd
  cases JitterBuffer.decision_packets hw h with
  | packet hlate hpackets hlost hconcealed =>
    refine ⟨?_, by simp [hrej, hlate], hdrift, ?_, ?_⟩
    · rw [hin, hrej, hign, hev]
      simpa [played, ho] using hpackets
    · simp [concealments, ho, hlost]
    · simp [concealments, ho, hconcealed]
  | hold hlate hpackets hlost hconcealed =>
    refine ⟨?_, by simp [hrej, hlate], hdrift, ?_, ?_⟩
    · simp [hin, hrej, hign, hev, played, ho, hpackets]
    · simp [concealments, ho, hlost]
    · simp [concealments, ho, hconcealed]
  | loss hd hlate hpackets hlost hconcealed =>
    rcases hd with rfl | ⟨r, rfl⟩
    all_goals
      refine ⟨?_, by simp [hrej, hlate], hdrift, ?_, ?_⟩
      · simp [hin, hrej, hign, hev, played, ho, hpackets]
      · simp [concealments, ho, hlost]
      · simp [concealments, ho, hconcealed]

theorem stepAccounted_insert {π : Profile} {x : JitterTransition} {p : EncodedPacket}
    (hi : x.input = .insert p) (ho : x.output = none) (h : x.after = x.before.insert p) :
    StepAccounted π x := by
  have hin : inserted x = [p] := by simp [inserted, hi]
  have hplayed : played x = [] := by simp [played, ho]
  have hcon : concealments x = 0 := by simp [concealments, ho]
  have hreb : rebasings x π = 0 := by simp [rebasings, hi]
  rcases JitterBuffer.insert_cases x.before p with ⟨hl, he⟩ | ⟨hl, dropped, he⟩
  · rw [← h] at he
    have hrej : rejectedLate x = [p] := by simp [rejectedLate, hin, hl]
    have hign : ignoredDuplicate x = [] := by simp [ignoredDuplicate, hin, hl]
    have hev : evicted x = [] := by simp [evicted, hin, hl]
    refine ⟨?_, by simp [hrej, he, JitterBuffer.raiseTargetDepth],
      by simp [hev, hreb, he, JitterBuffer.raiseTargetDepth],
      by simp [hcon, he, JitterBuffer.raiseTargetDepth],
      by simp [hcon, he, JitterBuffer.raiseTargetDepth]⟩
    have hpk : x.after.packets = x.before.packets := by
      rw [he]
      rfl
    rw [hin, hrej, hign, hplayed, hev, hpk]
    exact List.perm_append_comm
  · rw [← h] at he
    have hrej : rejectedLate x = [] := by simp [rejectedLate, hin, hl]
    have hev : evicted x = dropped.map Prod.snd := by
      simp [evicted, hin, hl, ← SortedMap.filter_notMem_suffix he.split]
    have hrest := he.rest
    refine ⟨?_, by rw [hrest, hrej]; rfl, by rw [hrest, hev, hreb]; simp [JitterBuffer.store],
      by rw [hrest, hcon]; rfl, by rw [hrest, hcon]; rfl⟩
    have hsplit : (x.before.store p).packets = evicted x ++ x.after.packets := by
      rw [hev, JitterBuffer.packets, he.split, List.map_append]
      rfl
    cases hg : x.before.pending.get? p.timestampSamples with
    | some q =>
      have hign : ignoredDuplicate x = [p] := by simp [ignoredDuplicate, hin, hl, hg]
      have hst : (x.before.store p).packets = x.before.packets := by
        simp [JitterBuffer.packets, JitterBuffer.store, SortedMap.insertNew_of_some hg]
      rw [hin, hrej, hign, hplayed, ← hst, hsplit]
      exact List.perm_append_comm
    | none =>
      have hign : ignoredDuplicate x = [] := by simp [ignoredDuplicate, hin, hl, hg]
      have hst : (x.before.store p).packets.Perm (p :: x.before.packets) :=
        (SortedMap.insertNew_perm hg p).map Prod.snd
      rw [hin, hrej, hign, hplayed]
      exact List.perm_append_comm.trans (hst.symm.trans (by rw [hsplit]; simp))

theorem stepAccounted {π : Profile} {x : JitterTransition} (hw : x.before.WellFormed)
    (h : x.before.call π x.input = some (x.output, x.after)) : StepAccounted π x := by
  cases hi : x.input with
  | insert p =>
    simp only [hi, JitterBuffer.call, Option.some.injEq, Prod.mk.injEq] at h
    exact stepAccounted_insert hi h.1.symm h.2.symm
  | nextPlayoutDecision now =>
    simp only [hi, JitterBuffer.call, Option.map_eq_some_iff, Prod.mk.injEq] at h
    obtain ⟨⟨d, b'⟩, hd, ho, rfl⟩ := h
    exact stepAccounted_decision hw hi ho.symm hd

theorem Accounted.snoc {π : Profile} {tr : List JitterTransition} {x : JitterTransition}
    (ha : Accounted π tr x.before) (hs : StepAccounted π x) : Accounted π (tr ++ [x]) x.after := by
  have hlate := ha.late
  have hdrift := ha.drift
  have hlost := ha.lost
  have hconcealed := ha.concealed
  have slate := hs.late
  have sdrift := hs.drift
  have slost := hs.lost
  have sconcealed := hs.concealed
  constructor
  · rw [List.perm_iff_count]
    intro p
    have hp := ha.packets.count_eq p
    have sp := hs.packets.count_eq p
    simp only [List.flatMap_append, List.flatMap_singleton, List.count_append] at hp sp ⊢
    omega
  · simp only [List.flatMap_append, List.flatMap_singleton, List.length_append]
    omega
  · simp only [List.flatMap_append, List.flatMap_singleton, List.length_append, List.map_append,
      List.map_singleton, List.sum_append, List.sum_singleton]
    omega
  · simp only [List.map_append, List.map_singleton, List.sum_append, List.sum_singleton]
    omega
  · simp only [List.map_append, List.map_singleton, List.sum_append, List.sum_singleton]
    omega

theorem accounted_new (π : Profile) : Accounted π [] JitterBuffer.new :=
  ⟨.nil, rfl, rfl, rfl, rfl⟩

section

variable {π : Profile} {ops : List JitterOp} {tr : List JitterTransition} {b : JitterBuffer}

theorem accounted_run (h : Trace (JitterBuffer.call π) JitterBuffer.new tr b) :
    Accounted π tr b := by
  refine h.snoc_induction (P := Accounted π) (accounted_new π) ?_
  intro tr x htr hstep ih
  have hw := jitterTrace_wellFormed htr
  exact ih.snoc (stepAccounted hw hstep)

/-- A packet that is already pending is not replaced by a later one with its
timestamp; only the overflow loop can remove it. -/
theorem earlier_packet_stays {x : JitterTransition} {p q : EncodedPacket}
    (h : x.before.call π x.input = some (x.output, x.after)) (hi : x.input = .insert p)
    (hl : x.before.isLate p = false) (hq : x.before.pending.get? p.timestampSamples = some q) :
    x.after.pending.get? p.timestampSamples = some q ∨ q ∈ evicted x := by
  simp only [hi, JitterBuffer.call, Option.some.injEq, Prod.mk.injEq] at h
  rcases JitterBuffer.insert_cases x.before p with ⟨hlate, _⟩ | ⟨_, dropped, he⟩
  · simp [hl] at hlate
  · rw [h.2] at he
    have hm : (p.timestampSamples, q) ∈ (x.before.store p).pending.entries :=
      SortedMap.mem_insertNew.mpr (.inl (SortedMap.get?_eq_some_iff.mp hq))
    have hev : evicted x = dropped.map Prod.snd := by
      simp [evicted, inserted, hi, hl, ← SortedMap.filter_notMem_suffix he.split]
    rw [he.split] at hm
    rcases List.mem_append.mp hm with hd | hr
    · exact .inr (hev ▸ List.mem_map_of_mem hd)
    · exact .inl (SortedMap.get?_eq_some_iff.mpr hr)

/-- Every packet given to a buffer is rejected as late, ignored as a
duplicate, played, evicted or still pending, exactly once. -/
theorem jitter_conservation (h : jitterRun π ops = some (tr, b)) :
    Accounted π tr b ∧
    (tr.flatMap inserted).length = b.latePackets + (tr.flatMap ignoredDuplicate).length +
      (tr.flatMap played).length + (tr.flatMap evicted).length + b.queueDepth ∧
    ∀ x ∈ tr, ∀ p q, x.input = .insert p → x.before.isLate p = false →
      x.before.pending.get? p.timestampSamples = some q →
      x.after.pending.get? p.timestampSamples = some q ∨ q ∈ evicted x := by
  have ha := accounted_run (jitterRun_trace h)
  refine ⟨ha, ?_, fun x hx p q hi hl hq => earlier_packet_stays (jitterRun_mem h hx).2 hi hl hq⟩
  have hlen := ha.packets.length_eq
  have hlate := ha.late
  have hdepth : b.packets.length = b.queueDepth := by
    simp [JitterBuffer.packets, JitterBuffer.queueDepth, SortedMap.length]
  simp only [List.length_append] at hlen
  omega

end

/-- A late packet, a duplicate, a packet played and four evicted. -/
def crowdedStart : List JitterOp :=
  [.insert ⟨1, [7]⟩, .insert ⟨960, [1]⟩, .insert ⟨1920, [2]⟩, .insert ⟨1920, [9]⟩,
    .nextPlayoutDecision (millis 100), .insert ⟨0, [0]⟩] ++
  (List.range 10).map fun k => .insert ⟨2880 + 960 * k, []⟩

theorem jitter_conservation_crowdedStart :
    ∃ tr b, jitterRun .release crowdedStart = some (tr, b) ∧ b.latePackets = 1 ∧
      (tr.flatMap ignoredDuplicate).length = 1 ∧ (tr.flatMap played).length = 1 ∧
      (tr.flatMap evicted).length = 4 ∧ b.driftCorrections = 4 ∧ b.queueDepth = 8 ∧
      (tr.flatMap inserted).length = b.latePackets + (tr.flatMap ignoredDuplicate).length +
        (tr.flatMap played).length + (tr.flatMap evicted).length + b.queueDepth := by
  have h : (jitterRun .release crowdedStart).map (fun r => (r.2.latePackets,
      (r.1.flatMap ignoredDuplicate).length, (r.1.flatMap played).length,
      (r.1.flatMap evicted).length, r.2.driftCorrections, r.2.queueDepth)) =
      some (1, 1, 1, 4, 4, 8) := by decide
  obtain ⟨⟨tr, b⟩, hr, hd⟩ := Option.map_eq_some_iff.mp h
  simp only [Prod.mk.injEq] at hd
  obtain ⟨h1, h2, h3, h4, h5, h6⟩ := hd
  exact ⟨tr, b, hr, h1, h2, h3, h4, h5, h6, (jitter_conservation hr).2.1⟩

end Voicers
