import Voicers.Media.Engine
import Voicers.Media.JitterDrain

/-! The receive side of the media engine and the range of the timestamps it
works with. A timestamp from the wire can become the playout cursor, and
every decision can move the cursor by one more frame. -/

namespace Voicers

open Lib

/-- What the receive side of the engine reacts to; `status` is a change of
the shared status by another task. -/
inductive ReceiveEvent
  | incomingFrame (peerId : String) (frame : MediaFrame)
  | playout (now : Nat) (peerIds : List String)
  | command (command : MediaCommand)
  | status (status : DaemonStatus)
deriving DecidableEq

structure ReceiveState (κ : Codec) where
  status : DaemonStatus
  peers : MediaPeers κ

section

variable {κ : Codec}

def ReceiveState.step (π : Profile) (s : ReceiveState κ) :
    ReceiveEvent → Option (List (String × κ.Pcm) × ReceiveState κ)
  | .incomingFrame peerId frame =>
    (handleIncomingFrame π s.status s.peers peerId frame).map fun r => ([], ⟨r.2.1, r.2.2⟩)
  | .playout now peerIds =>
    (drivePlayout π now peerIds s.status s.peers).map fun r => (r.1, ⟨r.2.1, r.2.2⟩)
  | .command command =>
    let r := runMediaCommand s.status s.peers command
    some ([], ⟨r.1, r.2⟩)
  | .status status => some ([], { s with status := status })

/-- A run of the receive side of an engine that has just started; `none` when
an addition or multiplication of a checked build overflows. -/
def receiveRun (π : Profile) (κ : Codec) (status : DaemonStatus) (events : List ReceiveEvent) :
    Option (List (Transition (ReceiveState κ) ReceiveEvent (List (String × κ.Pcm))) ×
      ReceiveState κ) :=
  execute (ReceiveState.step π) ⟨status, fun _ => none⟩ events

/-- The decisions an event can lead to. -/
def ReceiveEvent.decisions : ReceiveEvent → Nat
  | .playout _ peerIds => maxPlayoutBurstFrames * peerIds.length
  | _ => 0

/-- Every audio frame claims a timestamp that leaves a frame of room for each
decision of the run, and the reach of the gap check. -/
def TimestampsInRange (events : List ReceiveEvent) : Prop :=
  ∀ peerId frame, .incomingFrame peerId frame ∈ events → frame.frameKind = .audioOpus →
    frame.claimedTimestamp +
      frameSamples * ((events.map ReceiveEvent.decisions).sum + driftRebaseThresholdFrames) <
        u64Range

end

namespace JitterBuffer

/-- Room for `r` further decisions. -/
structure Fits (r : Nat) (b : JitterBuffer) : Prop where
  wf : b.WellFormed
  cursor : ∀ c, b.nextPlayoutTimestampSamples = some c →
    c + frameSamples * (r + driftRebaseThresholdFrames) < u64Range
  keys : ∀ k ∈ b.keys, k + frameSamples * (r + driftRebaseThresholdFrames) < u64Range

theorem fits_new (r : Nat) : new.Fits r where
  wf := wellFormed_new
  cursor := by simp [new]
  keys := by simp [new, JitterBuffer.keys, SortedMap.empty]

section

variable {b b' : JitterBuffer} {r now n t : Nat} {d : PlayoutDecision}

theorem Fits.mono {q : Nat} (h : b.Fits r) (hq : q ≤ r) : b.Fits q := by
  have hle : frameSamples * (q + driftRebaseThresholdFrames) ≤
      frameSamples * (r + driftRebaseThresholdFrames) :=
    Nat.mul_le_mul_left _ (Nat.add_le_add_right hq _)
  refine ⟨h.wf, fun c hc => ?_, fun k hk => ?_⟩
  · have := h.cursor c hc
    omega
  · have := h.keys k hk
    omega

theorem Fits.dueStep (h : b.Fits (r + 1)) (hn : b.nextPlayoutTimestampSamples = some n)
    (hs : DueStep .dev b now n t d b') : b'.Fits r := by
  have hw := h.wf.dueStep hs
  have hc := h.cursor n hn
  have hr := h.mono (Nat.le_succ r)
  have hsucc : frameSamples * (r + 1 + driftRebaseThresholdFrames) =
      frameSamples + frameSamples * (r + driftRebaseThresholdFrames) := by
    rw [Nat.add_right_comm, Nat.mul_succ, Nat.add_comm]
  rcases hs.strands h.wf with ⟨_, ⟨rfl, _⟩ | ⟨rfl, _⟩⟩ |
    ⟨k, p, _, hk, _, hnext, _, hkeys, _⟩ | ⟨_, _, _, hnext, _, hpend, _⟩
  · exact hr
  · exact ⟨hw, by simp [underrun], hr.keys⟩
  · refine ⟨hw, fun c' hc' => ?_, fun j hj => ?_⟩
    · obtain rfl := Option.some.inj (hnext.symm.trans hc')
      have hbound := h.keys k hk
      omega
    · exact hr.keys j (List.mem_filter.mp (hkeys ▸ hj)).1
  · refine ⟨hw, fun c' hc' => ?_, fun j hj => ?_⟩
    · obtain rfl := Option.some.inj (hnext.symm.trans hc')
      omega
    · exact hr.keys j (by rw [JitterBuffer.keys, ← hpend]; exact hj)

theorem Fits.decision (h : b.Fits (r + 1)) (now : Nat) :
    ∃ d b', b.nextPlayoutDecision .dev now = some (d, b') ∧ b'.Fits r := by
  have hreach : reach ≤ frameSamples * (r + 1 + driftRebaseThresholdFrames) := by
    exact Nat.mul_le_mul_left _ (Nat.le_add_left _ _)
  obtain ⟨d, b', hd⟩ := decision_returns .dev now h.wf
    (fun c hc => by have := h.cursor c hc; omega)
    (fun e he => by have := h.keys e.1 (List.mem_map_of_mem he); omega)
  refine ⟨d, b', hd, ?_⟩
  rcases decision_cases h.wf hd with ⟨_, _, _, rfl⟩ | ⟨_, hl, s, p, t, hf, _, hp, hs⟩ | ⟨n, t, hn, _, hs⟩
  · exact h.mono (Nat.le_succ r)
  · refine Fits.dueStep (b := b.prime now) (n := s) ⟨h.wf.primed hl now, fun c hc => ?_, h.keys⟩
      (by rw [hp]) hs
    rw [hp] at hc
    obtain rfl := Option.some.inj hc
    exact h.keys _ (List.mem_map_of_mem (SortedMap.mem_of_first? hf))
  · exact h.dueStep hn hs

theorem mem_keys_insert {p : EncodedPacket} {k : Nat} (h : k ∈ (b.insert p).keys) :
    k ∈ b.keys ∨ k = p.timestampSamples := by
  obtain ⟨e, he, rfl⟩ := List.mem_map.mp h
  rcases insert_cases b p with ⟨_, hi⟩ | ⟨_, dropped, hi⟩
  · rw [hi] at he
    exact .inl (List.mem_map_of_mem he)
  · have hm : e ∈ (b.store p).pending.entries := hi.split ▸ List.mem_append_right _ he
    rcases SortedMap.mem_insertNew.mp hm with hm | ⟨_, rfl⟩
    · exact .inl (List.mem_map_of_mem hm)
    · exact .inr rfl

theorem Fits.insert {p : EncodedPacket} (h : b.Fits r)
    (hp : p.timestampSamples + frameSamples * (r + driftRebaseThresholdFrames) < u64Range) :
    (b.insert p).Fits r := by
  refine ⟨h.wf.insert p, fun c hc => h.cursor c (insert_next b p ▸ hc), fun k hk => ?_⟩
  rcases mem_keys_insert hk with hk | rfl
  · exact h.keys k hk
  · exact hp

end

end JitterBuffer

section

variable {κ : Codec}

def EveryRuntime (P : MediaPeerRuntime κ → Prop) (peers : MediaPeers κ) : Prop :=
  ∀ peerId runtime, peers peerId = some runtime → P runtime

section

variable {P : MediaPeerRuntime κ → Prop} {peers peers' : MediaPeers κ} {peerId : String}

theorem EveryRuntime.update (h : EveryRuntime P peers) {runtime : Option (MediaPeerRuntime κ)}
    (hr : ∀ rt, runtime = some rt → P rt) :
    EveryRuntime P (Function.update peers peerId runtime) := by
  intro q rt hq
  by_cases hpq : q = peerId
  · subst hpq
    rw [Function.update_self] at hq
    exact hr rt hq
  · rw [Function.update_of_ne hpq] at hq
    exact h q rt hq

theorem EveryRuntime.set {runtime : MediaPeerRuntime κ} (h : EveryRuntime P peers)
    (hr : P runtime) : EveryRuntime P (Function.update peers peerId (some runtime)) :=
  h.update fun _ heq => Option.some.inj heq ▸ hr

/-- What a new runtime has, each runtime has after one is looked up. -/
theorem EveryRuntime.ensure_of (hnew : ∀ decoder encoder, P ⟨1, 0, decoder, encoder, .new, 0⟩)
    {runtime : MediaPeerRuntime κ} (h : EveryRuntime P peers)
    (he : ensurePeerRuntime peers peerId = some (runtime, peers')) :
    P runtime ∧ EveryRuntime P peers' := by
  cases hp : peers peerId with
  | some rt =>
    simp only [ensurePeerRuntime, hp, Option.some.injEq, Prod.mk.injEq] at he
    obtain ⟨rfl, rfl⟩ := he
    exact ⟨h peerId rt hp, h⟩
  | none =>
    simp only [ensurePeerRuntime, hp, Option.bind_eq_bind, Option.bind_eq_some_iff, Option.pure_def,
      Option.some.injEq, Prod.mk.injEq] at he
    obtain ⟨encoder, _, decoder, _, rfl, rfl⟩ := he
    exact ⟨hnew decoder encoder, h.set (hnew decoder encoder)⟩

theorem EveryRuntime.command_of (hnew : ∀ decoder encoder, P ⟨1, 0, decoder, encoder, .new, 0⟩)
    {state : DaemonStatus} (h : EveryRuntime P peers) (command : MediaCommand) :
    EveryRuntime P (runMediaCommand state peers command).2 := by
  cases command with
  | registerPeer peerId =>
    simp only [runMediaCommand]
    cases he : ensurePeerRuntime peers peerId with
    | none => exact h
    | some e => exact (h.ensure_of hnew he).2
  | disconnectPeer peerId => exact h.update fun rt hrt => by simp at hrt
  | handleAck peerId ack => exact h

end

def PeersFit (r : Nat) (peers : MediaPeers κ) : Prop :=
  ∀ peerId runtime, peers peerId = some runtime → runtime.jitter.Fits r

theorem PeersFit.mono {q r : Nat} {peers : MediaPeers κ} (h : PeersFit r peers) (hq : q ≤ r) :
    PeersFit q peers :=
  fun peerId runtime hp => (h peerId runtime hp).mono hq

theorem PeersFit.set {r : Nat} {peers : MediaPeers κ} (h : PeersFit r peers) {peerId : String}
    {runtime : MediaPeerRuntime κ} (hr : runtime.jitter.Fits r) :
    PeersFit r (Function.update peers peerId (some runtime)) :=
  EveryRuntime.set (P := fun runtime => runtime.jitter.Fits r) h hr

theorem normalizeTimestampSamples_of_lt (π : Profile) {frame : MediaFrame}
    (h : frame.claimedTimestamp < u64Range) :
    normalizeTimestampSamples π frame = some frame.claimedTimestamp := by
  unfold normalizeTimestampSamples
  unfold MediaFrame.claimedTimestamp at h ⊢
  split_ifs at h ⊢
  · rfl
  · exact Profile.u64_of_lt h

theorem receive_fits {r : Nat} {b : JitterBuffer} {frame : MediaFrame} (h : b.Fits r)
    (hf : frame.frameKind = .audioOpus → frame.claimedTimestamp +
      frameSamples * (r + driftRebaseThresholdFrames) < u64Range) :
    ∃ b', b.receive .dev frame = some b' ∧ b'.Fits r := by
  cases hk : frame.frameKind with
  | probe => exact ⟨b, by simp [JitterBuffer.receive, hk], h⟩
  | audioOpus =>
    have hlt := hf hk
    have hn := normalizeTimestampSamples_of_lt .dev (Nat.lt_of_le_of_lt (Nat.le_add_right _ _) hlt)
    refine ⟨b.insert ⟨frame.claimedTimestamp, frame.payload⟩, ?_, h.insert hlt⟩
    simp only [JitterBuffer.receive, hk, hn, Option.map_some]

theorem playoutBurst_fits (gain now fuel : Nat) {r : Nat} (runtime : MediaPeerRuntime κ)
    (h : runtime.jitter.Fits (r + fuel)) :
    ∃ pcm runtime', playoutBurst .dev gain now fuel runtime = some (pcm, runtime') ∧
      runtime'.jitter.Fits r := by
  induction fuel generalizing runtime with
  | zero => exact ⟨[], runtime, rfl, h⟩
  | succ fuel ih =>
    obtain ⟨d, b', hd, hb⟩ := JitterBuffer.Fits.decision h now
    cases hdec : (decodeDecision runtime.decoder d).1 with
    | none =>
      refine ⟨[], { runtime with
        jitter := b'
        decoder := (decodeDecision runtime.decoder d).2 }, ?_, hb.mono (Nat.le_add_right _ _)⟩
      simp only [playoutBurst, hd, Option.bind_eq_bind, Option.bind_some, hdec, Option.pure_def]
    | some samples =>
      obtain ⟨pcm, runtime', hrest, hfit⟩ := ih
        { runtime with
          jitter := b'
          decoder := (decodeDecision runtime.decoder d).2
          decodedFrames := runtime.decodedFrames + 1 } hb
      refine ⟨κ.applyOutputGain samples gain :: pcm, runtime', ?_, hfit⟩
      simp only [playoutBurst, hd, Option.bind_eq_bind, Option.bind_some, hdec, hrest,
        Option.pure_def]

theorem drivePlayout_fits (now : Nat) (state : DaemonStatus) {r : Nat} {peerIds : List String}
    {peers : MediaPeers κ} (h : PeersFit (r + maxPlayoutBurstFrames * peerIds.length) peers) :
    ∃ pcm state' peers', drivePlayout .dev now peerIds state peers = some (pcm, state', peers') ∧
      PeersFit r peers' := by
  induction peerIds generalizing state peers with
  | nil => exact ⟨[], state, peers, rfl, h⟩
  | cons peerId peerIds ih =>
    rw [List.length_cons, Nat.mul_succ, ← Nat.add_assoc] at h
    have hrest := h.mono (Nat.le_add_right _ _)
    cases hp : peers peerId with
    | none =>
      obtain ⟨pcm, state', peers', hd, hfit⟩ := ih state hrest
      exact ⟨pcm, state', peers', by simp only [drivePlayout, hp, hd], hfit⟩
    | some runtime =>
      obtain ⟨pcm, runtime', hb, hfit⟩ := playoutBurst_fits (state.peerOutputGain peerId) now
        maxPlayoutBurstFrames runtime (h peerId runtime hp)
      have hupdate : PeersFit (r + maxPlayoutBurstFrames * peerIds.length)
          (Function.update peers peerId (some runtime')) := hrest.set hfit
      obtain ⟨rest, state', peers', hd, hfit'⟩ :=
        ih (state.updatePeerMedia peerId runtime'.report) hupdate
      refine ⟨pcm.map (fun samples => (peerId, samples)) ++ rest, state', peers', ?_, hfit'⟩
      simp only [drivePlayout, hp, hb, Option.bind_eq_bind, Option.bind_some, hd, Option.pure_def]

theorem runMediaCommand_fits {r : Nat} {state : DaemonStatus} {peers : MediaPeers κ}
    (h : PeersFit r peers) (command : MediaCommand) :
    PeersFit r (runMediaCommand state peers command).2 :=
  EveryRuntime.command_of (P := fun runtime => runtime.jitter.Fits r)
    (fun _ _ => JitterBuffer.fits_new r) h command

theorem handleIncomingFrame_fits (state : DaemonStatus) (peerId : String) {r : Nat}
    {peers : MediaPeers κ} {frame : MediaFrame} (h : PeersFit r peers)
    (hf : frame.frameKind = .audioOpus → frame.claimedTimestamp +
      frameSamples * (r + driftRebaseThresholdFrames) < u64Range) :
    ∃ ack state' peers', handleIncomingFrame .dev state peers peerId frame =
      some (ack, state', peers') ∧ PeersFit r peers' := by
  cases he : ensurePeerRuntime peers peerId with
  | none => exact ⟨none, state, peers, by simp only [handleIncomingFrame, he], h⟩
  | some e =>
    obtain ⟨runtime, peers₁⟩ := e
    obtain ⟨hrt, hpeers⟩ := EveryRuntime.ensure_of (P := fun runtime => runtime.jitter.Fits r)
      (fun _ _ => JitterBuffer.fits_new r) h he
    obtain ⟨b', hb, hfit⟩ := receive_fits hrt hf
    simp only [handleIncomingFrame, he, hb, Option.bind_eq_bind, Option.bind_some, Option.pure_def]
    exact ⟨_, _, _, rfl, hpeers.set hfit⟩

theorem ReceiveState.step_fits {r : Nat} {s : ReceiveState κ} {event : ReceiveEvent}
    (h : PeersFit (r + event.decisions) s.peers)
    (hf : ∀ peerId frame, event = .incomingFrame peerId frame → frame.frameKind = .audioOpus →
      frame.claimedTimestamp + frameSamples * (r + driftRebaseThresholdFrames) < u64Range) :
    ∃ pcm t, s.step .dev event = some (pcm, t) ∧ PeersFit r t.peers := by
  cases event with
  | incomingFrame peerId frame =>
    obtain ⟨ack, state', peers', he, hfit⟩ :=
      handleIncomingFrame_fits s.status peerId h (hf peerId frame rfl)
    exact ⟨[], ⟨state', peers'⟩, by simp only [ReceiveState.step, he, Option.map_some], hfit⟩
  | playout now peerIds =>
    obtain ⟨pcm, state', peers', he, hfit⟩ := drivePlayout_fits now s.status h
    exact ⟨pcm, ⟨state', peers'⟩, by simp only [ReceiveState.step, he, Option.map_some], hfit⟩
  | command command => exact ⟨[], _, rfl, runMediaCommand_fits h command⟩
  | status status => exact ⟨[], _, rfl, h⟩

theorem receive_returns {r : Nat} (events : List ReceiveEvent) {s : ReceiveState κ}
    (h : PeersFit (r + (events.map ReceiveEvent.decisions).sum) s.peers)
    (hf : ∀ peerId frame, .incomingFrame peerId frame ∈ events → frame.frameKind = .audioOpus →
      frame.claimedTimestamp +
        frameSamples * (r + (events.map ReceiveEvent.decisions).sum + driftRebaseThresholdFrames) <
          u64Range) :
    ∃ tr t, execute (ReceiveState.step .dev) s events = some (tr, t) := by
  induction events generalizing s with
  | nil => exact ⟨[], s, rfl⟩
  | cons event events ih =>
    simp only [List.map_cons, List.sum_cons] at h hf
    have hsplit : r + (event.decisions + (events.map ReceiveEvent.decisions).sum) =
        r + (events.map ReceiveEvent.decisions).sum + event.decisions := by omega
    have hless : frameSamples * (r + (events.map ReceiveEvent.decisions).sum +
          driftRebaseThresholdFrames) ≤ frameSamples * (r + (events.map ReceiveEvent.decisions).sum +
            event.decisions + driftRebaseThresholdFrames) :=
      Nat.mul_le_mul_left _ (by omega)
    rw [hsplit] at h hf
    obtain ⟨pcm, t, hstep, hfit⟩ := ReceiveState.step_fits h (fun peerId frame he hk => by
      have := hf peerId frame (by simp [he]) hk
      omega)
    obtain ⟨tr, t', hrest⟩ := ih hfit (fun peerId frame hm hk => by
      have := hf peerId frame (List.mem_cons_of_mem _ hm) hk
      omega)
    exact ⟨⟨s, event, pcm, t⟩ :: tr, t', by simp only [execute, hstep, hrest]⟩

theorem receive_of_dev {b b' : JitterBuffer} {frame : MediaFrame}
    (h : b.receive .dev frame = some b') (π : Profile) : b.receive π frame = some b' := by
  cases hk : frame.frameKind with
  | probe => simpa [JitterBuffer.receive, hk] using h
  | audioOpus =>
    simp only [JitterBuffer.receive, hk, Option.map_eq_some_iff] at h ⊢
    obtain ⟨ts, hts, rfl⟩ := h
    refine ⟨ts, ?_, rfl⟩
    unfold normalizeTimestampSamples at hts ⊢
    split_ifs at hts ⊢
    · exact hts
    · exact Profile.u64_of_dev hts π

theorem playoutBurst_of_dev {gain now fuel : Nat} {runtime : MediaPeerRuntime κ}
    {r : List κ.Pcm × MediaPeerRuntime κ}
    (h : playoutBurst .dev gain now fuel runtime = some r) (π : Profile) :
    playoutBurst π gain now fuel runtime = some r := by
  induction fuel generalizing runtime r with
  | zero => exact h
  | succ fuel ih =>
    simp only [playoutBurst, Option.bind_eq_bind, Option.bind_eq_some_iff] at h ⊢
    obtain ⟨q, hq, h⟩ := h
    refine ⟨q, JitterBuffer.decision_of_dev hq π, ?_⟩
    cases hd : (decodeDecision runtime.decoder q.1).1 with
    | none => simpa only [hd] using h
    | some pcm =>
      simp only [hd, Option.bind_eq_some_iff] at h ⊢
      obtain ⟨rest, hrest, h⟩ := h
      exact ⟨rest, ih hrest, h⟩

theorem drivePlayout_of_dev {now : Nat} {peerIds : List String} {state : DaemonStatus}
    {peers : MediaPeers κ} {r : List (String × κ.Pcm) × DaemonStatus × MediaPeers κ}
    (h : drivePlayout .dev now peerIds state peers = some r) (π : Profile) :
    drivePlayout π now peerIds state peers = some r := by
  induction peerIds generalizing state peers r with
  | nil => exact h
  | cons peerId peerIds ih =>
    cases hp : peers peerId with
    | none =>
      simp only [drivePlayout, hp] at h ⊢
      exact ih h
    | some runtime =>
      simp only [drivePlayout, hp, Option.bind_eq_bind, Option.bind_eq_some_iff] at h ⊢
      obtain ⟨q, hq, rest, hrest, h⟩ := h
      exact ⟨q, playoutBurst_of_dev hq π, rest, ih hrest, h⟩

theorem ReceiveState.step_of_dev {s : ReceiveState κ} {event : ReceiveEvent}
    {r : List (String × κ.Pcm) × ReceiveState κ} (h : s.step .dev event = some r) (π : Profile) :
    s.step π event = some r := by
  cases event with
  | incomingFrame peerId frame =>
    simp only [ReceiveState.step, Option.map_eq_some_iff] at h ⊢
    obtain ⟨q, hq, rfl⟩ := h
    refine ⟨q, ?_, rfl⟩
    cases he : ensurePeerRuntime s.peers peerId with
    | none => simpa only [handleIncomingFrame, he] using hq
    | some e =>
      simp only [handleIncomingFrame, he, Option.bind_eq_bind, Option.bind_eq_some_iff] at hq ⊢
      obtain ⟨b', hb, hq⟩ := hq
      exact ⟨b', receive_of_dev hb π, hq⟩
  | playout now peerIds =>
    simp only [ReceiveState.step, Option.map_eq_some_iff] at h ⊢
    obtain ⟨q, hq, rfl⟩ := h
    exact ⟨q, drivePlayout_of_dev hq π, rfl⟩
  | command command => exact h
  | status status => exact h

end

/-- With all claimed timestamps in range no operation overflows: a checked
build returns from every event, and an unchecked one computes the same. -/
theorem timestamps_never_overflow (κ : Codec) (status : DaemonStatus) (events : List ReceiveEvent)
    (h : TimestampsInRange events) :
    ∃ tr t, receiveRun .dev κ status events = some (tr, t) ∧
      ∀ π, receiveRun π κ status events = some (tr, t) := by
  obtain ⟨tr, t, he⟩ := receive_returns (r := 0) events
    (s := (⟨status, fun _ => none⟩ : ReceiveState κ)) (fun peerId runtime hp => by simp at hp)
    (fun peerId frame hm hk => by simpa using h peerId frame hm hk)
  exact ⟨tr, t, he, fun π => execute_mono (fun s i r hr => ReceiveState.step_of_dev hr π) he⟩

/-- A codec without sound, for fixed runs. -/
def silentCodec : Codec where
  Pcm := List UInt8
  Encoder := Unit
  Decoder := Unit
  buildEncoder := some ()
  buildDecoder := some ()
  encodeFloat _ pcm := (some pcm, ())
  decodePacket _ payload _ := (some payload, ())
  decodePacketLoss _ := (some [], ())
  applyOutputGain pcm _ := pcm

/-- A daemon that has just started with an empty peer book. -/
def DaemonStatus.fresh (localPeerId : String) : DaemonStatus where
  localPeerId := localPeerId
  session := { roomName := none, displayName := "local", selfMuted := false }
  network :=
    { observedAddrs := [], pathScores := [], savedPeerAddrs := [], knownPeers := [], friends := [],
      seenUsers := [], discoveredPeers := [], ignoredPeerIds := [] }
  peers := []
  pendingPeerApprovals := []

def audioFrame (sequence timestampSamples : UInt64) : MediaFrame where
  sequence := sequence
  timestampMs := 0
  timestampSamples := timestampSamples
  frameKind := .audioOpus
  sampleRateHz := sampleRateHz
  channels := frameChannels
  frameDurationMs := frameDurationMs
  payload := []

theorem timestamps_never_overflow_firstFrames :
    ∃ tr t, receiveRun .release silentCodec (DaemonStatus.fresh "local")
      [.incomingFrame "p" (audioFrame 1 0), .incomingFrame "p" (audioFrame 2 960),
        .incomingFrame "p" (audioFrame 3 1920), .playout (millis 100) ["p"]] = some (tr, t) := by
  obtain ⟨tr, t, _, h⟩ := timestamps_never_overflow silentCodec (DaemonStatus.fresh "local")
    [.incomingFrame "p" (audioFrame 1 0), .incomingFrame "p" (audioFrame 2 960),
      .incomingFrame "p" (audioFrame 3 1920), .playout (millis 100) ["p"]] (by
      intro peerId frame hm _
      simp only [List.mem_cons, ReceiveEvent.incomingFrame.injEq, List.not_mem_nil, or_false,
        reduceCtorEq] at hm
      rcases hm with ⟨_, rfl⟩ | ⟨_, rfl⟩ | ⟨_, rfl⟩ <;> decide)
  exact ⟨tr, t, h .release⟩

/-- The last three timestamps of the range. -/
def endOfRange : List ReceiveEvent :=
  [.incomingFrame "p" (audioFrame 1 0xFFFFFFFFFFFFFFFD), .incomingFrame "p" (audioFrame 2 0xFFFFFFFFFFFFFFFE),
    .incomingFrame "p" (audioFrame 3 0xFFFFFFFFFFFFFFFF), .playout (millis 100) ["p"]]

/-- A frame without a timestamp overflows the multiplication of its sequence
number, and frames at the end of the range the gap check. An unchecked build
wraps the cursor around to the start of the range. -/
theorem wire_timestamps_overflow :
    receiveRun .dev silentCodec (DaemonStatus.fresh "local")
      [.incomingFrame "p" (audioFrame 0x8000000000000000 0)] = none ∧
    receiveRun .dev silentCodec (DaemonStatus.fresh "local") endOfRange = none ∧
    (receiveRun .release silentCodec (DaemonStatus.fresh "local") endOfRange).map (fun r =>
      (r.2.peers "p").map fun runtime => runtime.jitter.nextPlayoutTimestampSamples) =
        some (some (some 959)) := by
  refine ⟨?_, ?_, by decide +kernel⟩
  · exact Option.isNone_iff_eq_none.mp (by decide +kernel)
  · exact Option.isNone_iff_eq_none.mp (by decide +kernel)

end Voicers
