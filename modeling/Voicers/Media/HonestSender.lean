import Voicers.Media.PeerMute

/-! A sender that numbers its frames as the engine does, and the jitter buffer
they arrive at. The timestamps of such a sender are frame multiples, so the
buffer keeps nothing behind its cursor or between its slots, in whatever
order the frames arrive. -/

namespace Voicers

open Lib

section

variable {κ : Codec}

/-- The frame an event hands to the network for `peerId`. -/
def PlaybackState.builtFrame (π : Profile) (s : PlaybackState κ) (peerId : String) :
    PlaybackEvent κ → Option MediaFrame
  | .buildNextAudioFrame q pcm nowMs =>
    if q = peerId then
      s.media.bind fun peers =>
        (buildNextAudioFrame π s.status peers q pcm nowMs).bind fun r => r.1
    else none
  | _ => none

def builtFrames (π : Profile) (peerId : String) (tr : List (PlaybackTransition κ)) :
    List MediaFrame :=
  tr.filterMap fun x => x.before.builtFrame π peerId x.input

/-- A packet as `handle_incoming_frame` makes it from one of the frames. -/
def CarriedBy (π : Profile) (frames : List MediaFrame) (packet : EncodedPacket) : Prop :=
  ∃ frame ∈ frames, ∃ timestampSamples, normalizeTimestampSamples π frame = some timestampSamples ∧
    packet = ⟨timestampSamples, frame.payload⟩

/-- The send counters of a runtime: the timestamp counts the frames numbered
so far. -/
structure CountsFrames (runtime : MediaPeerRuntime κ) : Prop where
  first : 1 ≤ runtime.nextSendSequence
  timestamp : runtime.nextSendTimestampSamples = (runtime.nextSendSequence - 1) * frameSamples
  sequence_lt : runtime.nextSendSequence < u64Range
  timestamp_lt : runtime.nextSendTimestampSamples < u64Range

variable {peers peers' : MediaPeers κ} {peerId : String} {runtime : MediaPeerRuntime κ}

theorem countsFrames_new (decoder : κ.Decoder) (encoder : κ.Encoder) :
    CountsFrames (κ := κ) ⟨1, 0, decoder, encoder, .new, 0⟩ :=
  ⟨le_rfl, (Nat.zero_mul _).symm, show 1 < u64Range by decide, show 0 < u64Range by decide⟩

/-- A change of the receive side only. -/
theorem CountsFrames.congr {runtime' : MediaPeerRuntime κ} (h : CountsFrames runtime)
    (hs : runtime'.nextSendSequence = runtime.nextSendSequence)
    (ht : runtime'.nextSendTimestampSamples = runtime.nextSendTimestampSamples) :
    CountsFrames runtime' := by
  refine ⟨?_, ?_, ?_, ?_⟩
  · exact hs ▸ h.first
  · rw [ht, hs, h.timestamp]
  · exact hs ▸ h.sequence_lt
  · exact ht ▸ h.timestamp_lt

theorem playoutBurst_counters {π : Profile} {gain now fuel : Nat} {pcm : List κ.Pcm}
    {runtime' : MediaPeerRuntime κ}
    (h : playoutBurst π gain now fuel runtime = some (pcm, runtime')) :
    runtime'.nextSendSequence = runtime.nextSendSequence ∧
      runtime'.nextSendTimestampSamples = runtime.nextSendTimestampSamples := by
  induction fuel generalizing runtime pcm with
  | zero =>
    simp only [playoutBurst, Option.some.injEq, Prod.mk.injEq] at h
    exact h.2 ▸ ⟨rfl, rfl⟩
  | succ fuel ih =>
    simp only [playoutBurst, Option.bind_eq_bind, Option.bind_eq_some_iff] at h
    obtain ⟨⟨d, jitter⟩, _, h⟩ := h
    cases hdec : (decodeDecision runtime.decoder d).1 with
    | none =>
      simp only [hdec, Option.pure_def, Option.some.injEq, Prod.mk.injEq] at h
      exact h.2 ▸ ⟨rfl, rfl⟩
    | some samples =>
      simp only [hdec, Option.bind_eq_some_iff] at h
      obtain ⟨⟨rest, last⟩, hrest, h⟩ := h
      simp only [Option.pure_def, Option.some.injEq, Prod.mk.injEq] at h
      obtain ⟨_, rfl⟩ := h
      have hcounters := ih hrest
      exact hcounters

/-- The send side of the engine. -/
def sendCounters (peers : MediaPeers κ) (peerId : String) : Option (Nat × Nat) :=
  (peers peerId).map fun runtime =>
    (runtime.nextSendSequence, runtime.nextSendTimestampSamples)

theorem sendCounters_update {runtime' : MediaPeerRuntime κ} (hp : peers peerId = some runtime)
    (hs : runtime'.nextSendSequence = runtime.nextSendSequence)
    (ht : runtime'.nextSendTimestampSamples = runtime.nextSendTimestampSamples) :
    sendCounters (Function.update peers peerId (some runtime')) = sendCounters peers := by
  funext q
  by_cases hq : q = peerId
  · subst hq
    simp only [sendCounters, Function.update_self, hp, Option.map_some, hs, ht]
  · simp only [sendCounters, Function.update_of_ne hq]

/-- A tick leaves the send side alone. -/
theorem drivePlayout_counters {π : Profile} {now : Nat} {peerIds : List String}
    {state state' : DaemonStatus} {pcm : List (String × κ.Pcm)}
    (hd : Voicers.drivePlayout π now peerIds state peers = some (pcm, state', peers')) :
    sendCounters peers' = sendCounters peers := by
  induction peerIds generalizing state peers pcm with
  | nil =>
    simp only [Voicers.drivePlayout, Option.some.injEq, Prod.mk.injEq] at hd
    rw [hd.2.2]
  | cons peerId peerIds ih =>
    cases hp : peers peerId with
    | none =>
      simp only [Voicers.drivePlayout, hp] at hd
      exact ih hd
    | some rt =>
      simp only [Voicers.drivePlayout, hp, Option.bind_eq_bind, Option.bind_eq_some_iff] at hd
      obtain ⟨⟨samples, rt'⟩, hburst, ⟨rest, state₁, peers₁⟩, hrest, hd⟩ := hd
      simp only [Option.pure_def, Option.some.injEq, Prod.mk.injEq] at hd
      obtain ⟨_, rfl, rfl⟩ := hd
      obtain ⟨hs, ht⟩ := playoutBurst_counters hburst
      rw [ih hrest, sendCounters_update hp hs ht]

theorem EveryRuntime.of_counters (h : EveryRuntime CountsFrames peers)
    (hc : sendCounters peers' = sendCounters peers) : EveryRuntime CountsFrames peers' := by
  intro q rt' hq
  have hcq := congrFun hc q
  simp only [sendCounters, hq, Option.map_some] at hcq
  obtain ⟨rt, hrt, heq⟩ := Option.map_eq_some_iff.mp hcq.symm
  obtain ⟨hs, ht⟩ := Prod.mk.inj heq
  exact (h q rt hrt).congr hs.symm ht.symm

theorem EveryRuntime.incoming {π : Profile} {state state' : DaemonStatus} {frame : MediaFrame}
    {ack : Option MediaAck} (h : EveryRuntime CountsFrames peers)
    (hf : handleIncomingFrame π state peers peerId frame = some (ack, state', peers')) :
    EveryRuntime CountsFrames peers' := by
  cases he : ensurePeerRuntime peers peerId with
  | none =>
    simp only [handleIncomingFrame, he, Option.some.injEq, Prod.mk.injEq] at hf
    exact hf.2.2 ▸ h
  | some e =>
    obtain ⟨rt, peers₁⟩ := e
    obtain ⟨hrt, hpeers⟩ := h.ensure_of countsFrames_new he
    simp only [handleIncomingFrame, he, Option.bind_eq_bind, Option.bind_eq_some_iff,
      Option.pure_def, Option.some.injEq, Prod.mk.injEq] at hf
    obtain ⟨jitter, _, _, _, rfl⟩ := hf
    exact hpeers.set (hrt.congr rfl rfl)

/-- A request leaves the engine as it is when the peer can have no runtime.
Otherwise the runtime counts on, whatever the encoder makes of the samples. -/
theorem buildNextAudioFrame_cases {π : Profile} {state state' : DaemonStatus} {pcm : κ.Pcm}
    {nowMs : UInt64} {sent : Option MediaFrame}
    (hb : buildNextAudioFrame π state peers peerId pcm nowMs = some (sent, state', peers')) :
    (ensurePeerRuntime peers peerId = none ∧ sent = none ∧ peers' = peers) ∨
    ∃ rt peers₁ sequence timestamp, ensurePeerRuntime peers peerId = some (rt, peers₁) ∧
      π.u64 (rt.nextSendSequence + 1) = some sequence ∧
      π.u64 (rt.nextSendTimestampSamples + frameSamples) = some timestamp ∧
      peers' = Function.update peers₁ peerId (some { rt with
        nextSendSequence := sequence
        nextSendTimestampSamples := timestamp
        encoder := (κ.encodeFloat rt.encoder pcm).2 }) ∧
      ∀ frame, sent = some frame → frame.sequence = UInt64.ofNat rt.nextSendSequence ∧
        frame.timestampSamples = UInt64.ofNat rt.nextSendTimestampSamples := by
  cases he : ensurePeerRuntime peers peerId with
  | none =>
    simp only [buildNextAudioFrame, he, Option.some.injEq, Prod.mk.injEq] at hb
    exact .inl ⟨rfl, hb.1.symm, hb.2.2.symm⟩
  | some e =>
    obtain ⟨rt, peers₁⟩ := e
    simp only [buildNextAudioFrame, he, Option.bind_eq_bind, Option.bind_eq_some_iff] at hb
    obtain ⟨sequence, hs, timestamp, ht, hb⟩ := hb
    refine .inr ⟨rt, peers₁, sequence, timestamp, rfl, hs, ht, ?_⟩
    cases henc : (κ.encodeFloat rt.encoder pcm).1 with
    | none =>
      simp only [henc, Option.pure_def, Option.some.injEq, Prod.mk.injEq] at hb
      obtain ⟨rfl, _, rfl⟩ := hb
      exact ⟨rfl, by simp⟩
    | some payload =>
      simp only [henc, Option.pure_def, Option.some.injEq, Prod.mk.injEq] at hb
      obtain ⟨rfl, _, rfl⟩ := hb
      refine ⟨rfl, fun frame hframe => ?_⟩
      obtain rfl := Option.some.inj hframe
      exact ⟨rfl, rfl⟩

/-- Counting on by one frame, below the end of the `u64` range. -/
theorem CountsFrames.next (h : CountsFrames runtime) (encoder : κ.Encoder)
    (hlt : runtime.nextSendTimestampSamples + frameSamples < u64Range) :
    CountsFrames { runtime with
      nextSendSequence := runtime.nextSendSequence + 1
      nextSendTimestampSamples := runtime.nextSendTimestampSamples + frameSamples
      encoder := encoder } := by
  have hfirst := h.first
  have htimestamp := h.timestamp
  simp only [frameSamples] at htimestamp hlt
  refine ⟨Nat.le_add_left 1 _, ?_, ?_, hlt⟩
  · simp only [htimestamp, frameSamples]
    omega
  · simp only
    omega

/-- What the counters of a runtime put into a frame. -/
theorem CountsFrames.stamp {frame : MediaFrame} (h : CountsFrames runtime)
    (hs : frame.sequence = UInt64.ofNat runtime.nextSendSequence)
    (ht : frame.timestampSamples = UInt64.ofNat runtime.nextSendTimestampSamples) :
    frame.sequence.toNat = runtime.nextSendSequence ∧
      frame.timestampSamples.toNat = (runtime.nextSendSequence - 1) * frameSamples := by
  rw [hs, ht, ← h.timestamp]
  exact ⟨UInt64.toNat_ofNat_of_lt' h.sequence_lt, UInt64.toNat_ofNat_of_lt' h.timestamp_lt⟩

/-- A frame that is built carries the counters of its sender, and a checked
build has counted on. -/
theorem EveryRuntime.build {state state' : DaemonStatus} {pcm : κ.Pcm} {nowMs : UInt64}
    {sent : Option MediaFrame} (h : EveryRuntime CountsFrames peers)
    (hb : buildNextAudioFrame .dev state peers peerId pcm nowMs = some (sent, state', peers')) :
    EveryRuntime CountsFrames peers' ∧ ∀ frame, sent = some frame →
      ∃ k, frame.sequence.toNat = k + 1 ∧ frame.timestampSamples.toNat = k * frameSamples ∧
        k * frameSamples + frameSamples < u64Range := by
  rcases buildNextAudioFrame_cases hb with
    ⟨_, rfl, rfl⟩ | ⟨rt, peers₁, sequence, timestamp, he, hs, ht, rfl, hsent⟩
  · exact ⟨h, by simp⟩
  · obtain ⟨hrt, hpeers⟩ := h.ensure_of countsFrames_new he
    obtain ⟨rfl, _⟩ := Profile.dev_u64 hs
    obtain ⟨rfl, htlt⟩ := Profile.dev_u64 ht
    refine ⟨hpeers.set (hrt.next _ htlt), fun frame hframe => ?_⟩
    obtain ⟨hseq, hts⟩ := hrt.stamp (hsent frame hframe).1 (hsent frame hframe).2
    have hfirst := hrt.first
    refine ⟨rt.nextSendSequence - 1, by omega, hts, ?_⟩
    rw [← hrt.timestamp]
    exact htlt

/-- What is left of the engine, if it has not panicked, counts its frames. -/
def SendsCounted (s : PlaybackState κ) : Prop :=
  ∀ peers, s.media = some peers → EveryRuntime CountsFrames peers

theorem SendsCounted.run {s : PlaybackState κ} {call : PlaybackCall κ} (h : SendsCounted s)
    (hcall : ∀ peers r, EveryRuntime CountsFrames peers → call s.status peers = some r →
      EveryRuntime CountsFrames r.2.2) : SendsCounted (s.run call).2 := by
  cases hm : s.media with
  | none => simpa only [PlaybackState.run, hm] using h
  | some peers =>
    cases hc : call s.status peers with
    | none => simp [PlaybackState.run, hm, hc, SendsCounted]
    | some r =>
      intro peers' hp
      simp only [PlaybackState.run, hm, hc, Option.some.injEq] at hp
      exact hp ▸ hcall peers r (h peers hm) hc

theorem SendsCounted.step {s t : PlaybackState κ} {event : PlaybackEvent κ}
    {pcm : List (String × κ.Pcm)} (h : SendsCounted s)
    (hs : s.step .dev event = some (pcm, t)) : SendsCounted t := by
  cases event with
  | shared status =>
    simp only [PlaybackState.step, Option.some.injEq, Prod.mk.injEq] at hs
    exact hs.2 ▸ h
  | command command =>
    simp only [PlaybackState.step, Option.some.injEq] at hs
    rw [show t = (pcm, t).2 from rfl, ← hs]
    exact h.run fun peers r hp hr => Option.some.inj hr ▸ hp.command_of countsFrames_new command
  | incomingFrame q frame =>
    simp only [PlaybackState.step, Option.some.injEq] at hs
    rw [show t = (pcm, t).2 from rfl, ← hs]
    refine h.run fun peers r hp hr => ?_
    obtain ⟨⟨ack, state, peers'⟩, hf, rfl⟩ := Option.map_eq_some_iff.mp hr
    exact hp.incoming hf
  | buildNextAudioFrame q samples nowMs =>
    simp only [PlaybackState.step, Option.some.injEq] at hs
    rw [show t = (pcm, t).2 from rfl, ← hs]
    refine h.run fun peers r hp hr => ?_
    obtain ⟨⟨frame, state, peers'⟩, hf, rfl⟩ := Option.map_eq_some_iff.mp hr
    exact (hp.build hf).1
  | playout now peerIds =>
    simp only [PlaybackState.step] at hs
    split_ifs at hs
    rw [show t = (pcm, t).2 from rfl, ← Option.some.inj hs]
    refine h.run fun peers r hp hr => ?_
    obtain ⟨samples, state, peers'⟩ := r
    exact hp.of_counters (drivePlayout_counters hr)

/-- The frames a peer has built for another, whatever else its engine did. -/
theorem builtFrames_counted {status : DaemonStatus} {sent : List (PlaybackTransition κ)}
    {s : PlaybackState κ} (h : Trace (PlaybackState.step .dev) (.start status) sent s)
    {frame : MediaFrame} (hf : frame ∈ builtFrames .dev peerId sent) :
    ∃ k, frame.sequence.toNat = k + 1 ∧ frame.timestampSamples.toNat = k * frameSamples ∧
      k * frameSamples + frameSamples < u64Range := by
  obtain ⟨x, hx, hframe⟩ := List.mem_filterMap.mp hf
  have hstart : SendsCounted (.start status : PlaybackState κ) := by
    intro peers hp q runtime hq
    obtain rfl := Option.some.inj hp
    simp at hq
  obtain ⟨hcount, _⟩ := h.of_mem (fun _ _ _ _ hi he => hi.step he) hstart hx
  cases hi : x.input with
  | buildNextAudioFrame q pcm nowMs =>
    simp only [hi, PlaybackState.builtFrame] at hframe
    split_ifs at hframe
    obtain ⟨peers, hm, hbuilt⟩ := Option.bind_eq_some_iff.mp hframe
    obtain ⟨⟨built, state, peers'⟩, hb, hsent⟩ := Option.bind_eq_some_iff.mp hbuilt
    exact ((hcount peers hm).build hb).2 frame hsent
  | shared | command | incomingFrame | playout => simp [hi, PlaybackState.builtFrame] at hframe

/-- A frame without a timestamp is the first one, and its sequence number
stands for the same slot. -/
theorem CarriedBy.slot {π : Profile} {status : DaemonStatus} {sent : List (PlaybackTransition κ)}
    {s : PlaybackState κ} (h : Trace (PlaybackState.step .dev) (.start status) sent s)
    {packet : EncodedPacket} (hp : CarriedBy π (builtFrames .dev peerId sent) packet) :
    packet.timestampSamples % frameSamples = 0 ∧
      packet.timestampSamples + frameSamples < u64Range := by
  obtain ⟨frame, hf, timestamp, hn, rfl⟩ := hp
  obtain ⟨k, hseq, hts, hlt⟩ := builtFrames_counted h hf
  have hclaimed : frame.claimedTimestamp = k * frameSamples := by
    unfold MediaFrame.claimedTimestamp
    split_ifs with hzero
    · exact hts
    · rw [hseq, Nat.add_sub_cancel]
  have hrange : frame.claimedTimestamp < u64Range := by omega
  rw [normalizeTimestampSamples_of_lt π hrange] at hn
  obtain rfl := Option.some.inj hn
  rw [hclaimed]
  exact ⟨Nat.mul_mod_left k frameSamples, hlt⟩

end

/-- Everything pending lies on the grid of frames, from the cursor on. -/
structure OnTime (b : JitterBuffer) : Prop where
  wf : b.WellFormed
  grid : ∀ e ∈ b.pending.entries, e.1 % frameSamples = 0 ∧ e.1 + frameSamples < u64Range
  cursor : ∀ n, b.nextPlayoutTimestampSamples = some n →
    n % frameSamples = 0 ∧ ∀ e ∈ b.pending.entries, n ≤ e.1

namespace JitterBuffer

section

variable {π : Profile} {b b' : JitterBuffer} {now n t : Nat} {d : PlayoutDecision}

theorem onTime_new : OnTime new where
  wf := wellFormed_new
  grid := by simp [new, SortedMap.empty]
  cursor := by simp [new]

/-- The packet at the cursor, or the oldest, is taken out and the cursor
moves behind it. -/
theorem OnTime.afterPacket (h : OnTime b) {s next : Nat} {p : EncodedPacket}
    (hs : ∀ e ∈ b.pending.entries, s ≤ e.1) (hp : b.pending.get? s = some p)
    (hu : π.u64 (s + frameSamples) = some next) (hw : (b.afterPacket s next t).WellFormed) :
    OnTime (b.afterPacket s next t) := by
  have hsp := h.grid _ (SortedMap.get?_eq_some_iff.mp hp)
  obtain rfl := Option.some.inj ((Profile.u64_of_lt hsp.2).symm.trans hu)
  refine ⟨hw, fun e he => ?_, fun m hm => ?_⟩
  · exact h.grid e (SortedMap.mem_erase.mp (by simpa [JitterBuffer.afterPacket] using he)).1
  · have hnext : s + frameSamples = m := by simpa [JitterBuffer.afterPacket] using hm
    subst hnext
    refine ⟨by simpa using hsp.1, fun e he => ?_⟩
    obtain ⟨hmem, hne⟩ := SortedMap.mem_erase.mp (by simpa [JitterBuffer.afterPacket] using he)
    have hle := hs e hmem
    have hgrid := (h.grid e hmem).1
    have hslot := hsp.1
    simp only [frameSamples] at hgrid hslot ⊢
    omega

/-- A missing slot is skipped only while something newer is pending. -/
theorem OnTime.afterLoss (h : OnTime b) (hn : b.nextPlayoutTimestampSamples = some n) {next : Nat}
    (hnone : b.pending.get? n = none) (hl : b.targetDepth ≤ b.pending.length)
    (hu : π.u64 (n + frameSamples) = some next) (hw : (b.afterLoss next t).WellFormed) :
    OnTime (b.afterLoss next t) := by
  obtain ⟨hgrid, hle⟩ := h.cursor n hn
  have hahead : ∀ e ∈ b.pending.entries, n + frameSamples ≤ e.1 := by
    intro e he
    have hne : e.1 ≠ n := fun hen => SortedMap.get?_eq_none_iff.mp hnone e.2 (hen ▸ he)
    have := hle e he
    have := (h.grid e he).1
    simp only [frameSamples] at *
    omega
  obtain ⟨e, he⟩ : ∃ e, e ∈ b.pending.entries := by
    have := h.wf.minDepth
    refine List.exists_mem_of_length_pos ?_
    simp only [jitterMinDepth, SortedMap.length] at *
    omega
  have hlt : n + frameSamples < u64Range := by
    have := hahead e he
    have := (h.grid e he).2
    omega
  obtain rfl := Option.some.inj ((Profile.u64_of_lt hlt).symm.trans hu)
  refine ⟨hw, h.grid, fun m hm => ?_⟩
  have hnext : n + frameSamples = m := by
    simpa [JitterBuffer.afterLoss, raiseTargetDepth] using hm
  subst hnext
  exact ⟨by simpa using hgrid, hahead⟩

theorem OnTime.dueStep (h : OnTime b) (hn : b.nextPlayoutTimestampSamples = some n)
    (hs : DueStep π b now n t d b') : OnTime b' := by
  have hw := h.wf.dueStep hs
  cases hs with
  | early | grace => exact h
  | @rebased e p next _ hf _ hu =>
    have hrebased : OnTime (b.rebased now e) := by
      refine ⟨⟨rfl, h.wf.minDepth, h.wf.maxDepth, h.wf.stableTicks, h.wf.keys⟩, h.grid, fun m hm => ?_⟩
      obtain rfl := Option.some.inj hm
      exact ⟨(h.grid _ (SortedMap.mem_of_first? hf)).1, fun x hx => SortedMap.first?_le hf hx⟩
    exact OnTime.afterPacket hrebased (fun x hx => SortedMap.first?_le hf hx)
      (SortedMap.get?_of_first? hf) hu hw
  | played _ _ hp hu => exact OnTime.afterPacket h (h.cursor n hn).2 hp hu hw
  | underrun => exact ⟨hw, h.grid, by simp [underrun]⟩
  | fec _ _ hnone hl hu _ => exact OnTime.afterLoss h hn hnone hl hu hw
  | conceal _ _ hnone hl hu _ => exact OnTime.afterLoss h hn hnone hl hu hw

theorem OnTime.decision (h : OnTime b) (hd : b.nextPlayoutDecision π now = some (d, b')) :
    OnTime b' := by
  rcases decision_cases h.wf hd with ⟨_, _, _, rfl⟩ | ⟨_, hl, s, p, t, hf, _, hp, hs⟩ | ⟨n, t, hn, _, hs⟩
  · exact h
  · have hprimed : OnTime (b.prime now) := by
      refine ⟨h.wf.primed hl now, h.grid, fun m hm => ?_⟩
      rw [hp] at hm
      obtain rfl := Option.some.inj hm
      exact ⟨(h.grid _ (SortedMap.mem_of_first? hf)).1, fun x hx => SortedMap.first?_le hf hx⟩
    exact OnTime.dueStep hprimed (by rw [hp]) hs
  · exact OnTime.dueStep h hn hs

theorem OnTime.insert (h : OnTime b) {p : EncodedPacket}
    (hp : p.timestampSamples % frameSamples = 0 ∧ p.timestampSamples + frameSamples < u64Range) :
    OnTime (b.insert p) := by
  have hw := h.wf.insert p
  have hnext := insert_next b p
  rcases insert_cases b p with ⟨_, hi⟩ | ⟨hlate, dropped, hi⟩
  · refine ⟨hw, fun e he => h.grid e (by rw [hi] at he; exact he), fun n hn => ?_⟩
    obtain ⟨hgrid, hle⟩ := h.cursor n (hnext ▸ hn)
    exact ⟨hgrid, fun e he => hle e (by rw [hi] at he; exact he)⟩
  · have hmem : ∀ e ∈ (b.insert p).pending.entries,
        e ∈ b.pending.entries ∨ e = (p.timestampSamples, p) := by
      intro e he
      have hm : e ∈ (b.store p).pending.entries := hi.split ▸ List.mem_append_right _ he
      exact (SortedMap.mem_insertNew.mp hm).imp_right fun hnew => hnew.2
    refine ⟨hw, fun e he => ?_, fun n hn => ?_⟩
    · rcases hmem e he with he | rfl
      · exact h.grid e he
      · exact hp
    · obtain ⟨hgrid, hle⟩ := h.cursor n (hnext ▸ hn)
      refine ⟨hgrid, fun e he => ?_⟩
      rcases hmem e he with he | rfl
      · exact hle e he
      · simpa [isLate, hnext ▸ hn] using hlate

theorem OnTime.call {op : JitterOp} {o : Option PlayoutDecision} (h : OnTime b)
    (hp : ∀ p, op = .insert p →
      p.timestampSamples % frameSamples = 0 ∧ p.timestampSamples + frameSamples < u64Range)
    (hc : b.call π op = some (o, b')) : OnTime b' := by
  cases op with
  | insert p =>
    simp only [JitterBuffer.call, Option.some.injEq, Prod.mk.injEq] at hc
    exact hc.2 ▸ OnTime.insert h (hp p rfl)
  | nextPlayoutDecision now =>
    simp only [JitterBuffer.call, Option.map_eq_some_iff, Prod.mk.injEq] at hc
    obtain ⟨⟨d, c⟩, hd, _, rfl⟩ := hc
    exact OnTime.decision h hd

end

end JitterBuffer

theorem strandedFrom_onGrid {c : Nat} {ks : List Nat} (hs : ks.Pairwise (· < ·))
    (h : ∀ k ∈ ks, OnGrid c k) : strandedFrom c ks = 0 := by
  induction ks generalizing c with
  | nil => rfl
  | cons e ks ih =>
    have he := h e List.mem_cons_self
    obtain ⟨hlt, hs⟩ := List.pairwise_cons.mp hs
    rw [strandedFrom, if_pos (.inr he)]
    refine ih hs fun k hk => ?_
    have hk' := h k (List.mem_cons_of_mem _ hk)
    have hek := hlt k hk
    simp only [OnGrid, frameSamples] at he hk' ⊢
    omega

/-- No pending packet is behind the cursor or off its grid, and each of them
still has its turn. -/
structure NothingStale (b : JitterBuffer) : Prop where
  ahead : ∀ n, b.nextPlayoutTimestampSamples = some n →
    ∀ e ∈ b.pending.entries, n ≤ e.1 ∧ e.1 % frameSamples = n % frameSamples
  playable : b.stranded = 0

theorem OnTime.nothingStale {b : JitterBuffer} (h : OnTime b) : NothingStale b where
  ahead n hn e he := by
    obtain ⟨hgrid, hle⟩ := h.cursor n hn
    exact ⟨hle e he, (h.grid e he).1.trans hgrid.symm⟩
  playable := by
    have hkeys : ∀ c, c % frameSamples = 0 → (∀ k ∈ b.keys, c ≤ k) → strandedFrom c b.keys = 0 := by
      intro c hc hle
      refine strandedFrom_onGrid b.keys_sorted fun k hk => ⟨hle k hk, ?_⟩
      obtain ⟨e, he, rfl⟩ := List.mem_map.mp hk
      have hgrid := (h.grid e he).1
      have := hle e.1 hk
      simp only [frameSamples] at *
      omega
    unfold JitterBuffer.stranded
    cases hn : b.nextPlayoutTimestampSamples with
    | some n =>
      obtain ⟨hgrid, hle⟩ := h.cursor n hn
      refine hkeys n hgrid fun k hk => ?_
      obtain ⟨e, he, rfl⟩ := List.mem_map.mp hk
      exact hle e he
    | none =>
      have hsorted := b.keys_sorted
      cases hk : b.keys with
      | nil => rfl
      | cons e ks =>
        rw [hk] at hsorted hkeys
        have hfirst : e ∈ b.keys := hk ▸ List.mem_cons_self
        obtain ⟨x, hx, hxe⟩ := List.mem_map.mp hfirst
        refine hkeys e (hxe ▸ (h.grid x hx).1) fun k hk => ?_
        rcases List.mem_cons.mp hk with rfl | hk
        · exact le_rfl
        · exact ((List.pairwise_cons.mp hsorted).1 k hk).le

/-- The frames `sent` one peer has built for another, with counters that do
not overflow, arrive in any order, any number of times or not at all, between
decisions at any clock values. -/
theorem no_stale_packets {κ : Codec} {status : DaemonStatus} {events : List (PlaybackEvent κ)}
    {sent : List (PlaybackTransition κ)} {s : PlaybackState κ} {peerId : String} {π : Profile}
    {ops : List JitterOp} {tr : List JitterTransition} {b : JitterBuffer}
    (hs : execute (PlaybackState.step .dev) (.start status) events = some (sent, s))
    (h : jitterRun π ops = some (tr, b))
    (hops : ∀ p, .insert p ∈ ops → CarriedBy π (builtFrames .dev peerId sent) p) :
    ∀ x ∈ tr, NothingStale x.before ∧ NothingStale x.after := by
  have hsent := execute_trace hs
  have hslot : ∀ x ∈ tr, ∀ p, x.input = .insert p → p.timestampSamples % frameSamples = 0 ∧
      p.timestampSamples + frameSamples < u64Range := by
    intro x hx p hp
    have hmem : JitterOp.insert p ∈ ops := by
      rw [← execute_inputs h, ← hp]
      exact List.mem_map_of_mem hx
    exact (hops p hmem).slot hsent
  intro x hx
  obtain ⟨pre, post, rfl⟩ := List.append_of_mem hx
  obtain ⟨hpre, hcall, _⟩ := (jitterRun_trace h).split
  have hbefore : OnTime x.before := hpre.invariant_on
    (fun y hq hi he => JitterBuffer.OnTime.call hi hq he)
    (fun y hy => hslot y (List.mem_append_left _ hy)) JitterBuffer.onTime_new
  exact ⟨hbefore.nothingStale, (JitterBuffer.OnTime.call hbefore (hslot x hx) hcall).nothingStale⟩

/-- Three frames for the listener, among other things the engine does. -/
def framesForListener : List (PlaybackEvent silentCodec) :=
  [.buildNextAudioFrame "listener" [1] 0, .playout (millis 20) ["listener"],
    .buildNextAudioFrame "listener" [2] 20, .buildNextAudioFrame "other" [9] 20,
    .buildNextAudioFrame "listener" [3] 40]

/-- The same frames as they arrive. -/
def shuffledFrames : List JitterOp :=
  [.insert ⟨1920, [3]⟩, .insert ⟨0, [1]⟩, .insert ⟨960, [2]⟩, .insert ⟨1920, [3]⟩,
    .nextPlayoutDecision (millis 100)]

theorem no_stale_packets_shuffledFrames : ∃ tr b, jitterRun .release shuffledFrames = some (tr, b) ∧
    ∀ x ∈ tr, NothingStale x.before ∧ NothingStale x.after := by
  have hrun : (execute (PlaybackState.step .dev) (.start (DaemonStatus.fresh "sender"))
      framesForListener).map (fun r => builtFrames .dev "listener" r.1) =
      some [⟨1, 0, 0, .audioOpus, sampleRateHz, frameChannels, frameDurationMs, [1]⟩,
        ⟨2, 20, 960, .audioOpus, sampleRateHz, frameChannels, frameDurationMs, [2]⟩,
        ⟨3, 40, 1920, .audioOpus, sampleRateHz, frameChannels, frameDurationMs, [3]⟩] := by
    decide +kernel
  obtain ⟨⟨sent, s⟩, hs, hframes⟩ := Option.map_eq_some_iff.mp hrun
  have hops : ∀ p, .insert p ∈ shuffledFrames →
      CarriedBy .release (builtFrames .dev "listener" sent) p := by
    intro p hp
    simp only at hframes
    rw [hframes]
    simp only [shuffledFrames, List.mem_cons, JitterOp.insert.injEq, reduceCtorEq, List.not_mem_nil,
      or_false] at hp
    rcases hp with rfl | rfl | rfl | rfl
    · exact ⟨_, .tail _ (.tail _ (.head _)), 1920, rfl, rfl⟩
    · exact ⟨_, .head _, 0, by decide, rfl⟩
    · exact ⟨_, .tail _ (.head _), 960, rfl, rfl⟩
    · exact ⟨_, .tail _ (.tail _ (.head _)), 1920, rfl, rfl⟩
  obtain ⟨⟨tr, b⟩, hr⟩ := Option.isSome_iff_exists.mp
    (show (jitterRun .release shuffledFrames).isSome = true by decide)
  exact ⟨tr, b, hr, no_stale_packets hs hr hops⟩

end Voicers
