import Voicers.Network.Muting

/-! What a muted microphone still sends. A chunk that is captured while the
daemon is muted enters the pipeline like any other, and stays there until the
next device starts the pipeline afresh. -/

namespace Voicers

open Lib

variable {κ : Codec} {lib : Libp2p} {mic : Microphone κ}

abbrev VoiceTransition (κ : Codec) (lib : Libp2p) (mic : Microphone κ) :=
  Transition (VoiceState κ mic) (VoiceEvent κ lib mic) (List (VoiceEffect κ))

def voiceRun (π : Profile) (lib : Libp2p) (mic : Microphone κ) (fuel : Nat)
    (status : DaemonStatus) (hasLiveCapture webRtc : Bool) (events : List (VoiceEvent κ lib mic)) :
    Option (List (VoiceTransition κ lib mic) × VoiceState κ mic) :=
  execute (voiceStep π lib fuel) (.start mic status hasLiveCapture webRtc) events

def VoiceEffect.frame? : VoiceEffect κ → Option MediaFrame
  | .network (.sendMedia _ (.frame frame)) => some frame
  | .network (.sendMedia _ (.relayedFrame _ frame)) => some frame
  | .webRtcFrame _ frame => some frame
  | _ => none

/-- The frames that leave the daemon, by whichever way. -/
def sentFrames (effects : List (VoiceEffect κ)) : List MediaFrame :=
  effects.filterMap VoiceEffect.frame?

def VoiceState.selfMuted (s : VoiceState κ mic) : Bool := s.daemon.status.session.selfMuted

def capturedWhileMuted (x : VoiceTransition κ lib mic) : Bool :=
  match x.input with
  | .captured _ => x.before.selfMuted
  | _ => false

/-- The pipeline holds something captured under mute: since a chunk that was
not empty, until a device is opened. -/
def holdsMuted (held : Bool) (x : VoiceTransition κ lib mic) : Bool :=
  match x.input with
  | .captured chunk => held || (x.before.selfMuted && !chunk.samples.isEmpty)
  | .selectCaptureDevice opened => held && !(opened && x.before.daemon.media.isSome)
  | _ => held

def VoiceState.buildsFrame (π : Profile) (s : VoiceState κ mic) : VoiceEvent κ lib mic → Bool
  | .sendMediaFrame peerId _ _ => s.daemon.buildsFrame π lib peerId
  | _ => false

def Ingested.isPanic {ρ : SampleArith} : Ingested ρ → Bool
  | .panicked => true
  | _ => false

def VoiceState.panics (fuel : Nat) (s : VoiceState κ mic) : VoiceEvent κ lib mic → Bool
  | .captured chunk => (s.capture.ingest fuel chunk).isPanic
  | _ => false

/-- No frame is built from a pipeline that holds something captured under
mute, and no chunk makes the resampling loop run over its input. -/
def QuietStep (π : Profile) (fuel : Nat) (held : Bool) (x : VoiceTransition κ lib mic) : Prop :=
  x.before.panics fuel x.input = false ∧ (held = true → x.before.buildsFrame π x.input = false)

instance (π : Profile) (fuel : Nat) (held : Bool) (x : VoiceTransition κ lib mic) :
    Decidable (QuietStep π fuel held x) := inferInstanceAs (Decidable (_ ∧ _))

/-- States of two runs that send the same. -/
structure Alike (held : Bool) (s : VoiceState κ mic) (held' : Bool) (t : VoiceState κ mic) :
    Prop where
  daemon : s.daemon = t.daemon
  live : s.hasLiveCapture = t.hasLiveCapture
  webRtc : s.webRtcConnectionState = t.webRtcConnectionState
  gain : s.capture.inputGain = t.capture.inputGain
  framed : s.capture.Framed
  framed' : t.capture.Framed
  capture : held = false → held' = false → s.capture = t.capture

theorem Alike.symm {g h : Bool} {s t : VoiceState κ mic} (ha : Alike g s h t) : Alike h t g s where
  daemon := ha.daemon.symm
  live := ha.live.symm
  webRtc := ha.webRtc.symm
  gain := ha.gain.symm
  framed := ha.framed'
  framed' := ha.framed
  capture := fun hh hg => (ha.capture hg hh).symm

theorem Alike.start (status : DaemonStatus) (hasLiveCapture webRtc : Bool) :
    Alike false (.start mic status hasLiveCapture webRtc) false
      (.start mic status hasLiveCapture webRtc) where
  daemon := rfl
  live := rfl
  webRtc := rfl
  gain := rfl
  framed := CapturePipeline.framed_new
  framed' := CapturePipeline.framed_new
  capture := fun _ _ => rfl

section

variable {π : Profile} {fuel : Nat} {g h : Bool} {s t s' t' : VoiceState κ mic}
  {o o' : List (VoiceEffect κ)}

theorem Alike.outside (ha : Alike g s h t) (daemon : Daemon κ) (hasLiveCapture : Bool)
    (webRtc : Option String) : Alike g ⟨daemon, s.capture, hasLiveCapture, webRtc⟩ h
      ⟨daemon, t.capture, hasLiveCapture, webRtc⟩ :=
  ⟨rfl, rfl, rfl, ha.gain, ha.framed, ha.framed', ha.capture⟩

theorem Alike.muted (ha : Alike g s h t) {p : CapturePipeline mic.arith}
    (hp : s.capture.Keeps p) : Alike true { s with capture := p } h t where
  daemon := ha.daemon
  live := ha.live
  webRtc := ha.webRtc
  gain := hp.gain.trans ha.gain
  framed := hp.framed ha.framed
  framed' := ha.framed'
  capture := fun hg => by cases hg

theorem Alike.samples (ha : Alike g s h t) {p q : CapturePipeline mic.arith}
    (hp : s.capture.Keeps p) (hq : t.capture.Keeps q) (heq : s.capture = t.capture → p = q) :
    Alike g { s with capture := p } h { t with capture := q } where
  daemon := ha.daemon
  live := ha.live
  webRtc := ha.webRtc
  gain := (hp.gain.trans ha.gain).trans hq.gain.symm
  framed := hp.framed ha.framed
  framed' := hq.framed ha.framed'
  capture := fun hg hh => heq (ha.capture hg hh)

theorem voiceStep_captured {chunk : CaptureChunk mic.arith}
    (hstep : voiceStep π lib fuel s (.captured chunk) = some (o, s'))
    (hquiet : s.panics fuel (.captured chunk : VoiceEvent κ lib mic) = false) :
    ∃ p, s.capture.ingest fuel chunk = .ready p ∧ o = [] ∧ s' = { s with capture := p } := by
  unfold VoiceState.panics at hquiet
  unfold voiceStep at hstep
  cases hr : s.capture.ingest fuel chunk with
  | ready p =>
    simp only [hr, Option.ite_none_right_eq_some, Option.some.injEq, Prod.mk.injEq] at hstep
    obtain ⟨_, rfl, rfl⟩ := hstep
    exact ⟨p, rfl, rfl, rfl⟩
  | panicked => simp [hr, Ingested.isPanic] at hquiet
  | unfinished => simp [hr] at hstep

theorem voiceStep_sendMediaFrame (s : VoiceState κ mic) {peerId : String} {nowMs : UInt64}
    {channelOpen : Bool} :
    voiceStep π lib fuel s (.sendMediaFrame peerId nowMs channelOpen) =
      some ((s.onSendMediaFrame π lib peerId nowMs channelOpen).1,
        (s.onSendMediaFrame π lib peerId nowMs channelOpen).2) := rfl

theorem Alike.captured (ha : Alike g s h t) {chunk : CaptureChunk mic.arith}
    (hs : voiceStep π lib fuel s (.captured chunk) = some (o, s'))
    (ht : voiceStep π lib fuel t (.captured chunk) = some (o', t'))
    (hqs : s.panics fuel (.captured chunk : VoiceEvent κ lib mic) = false)
    (hqt : t.panics fuel (.captured chunk : VoiceEvent κ lib mic) = false) :
    Alike g s' h t' ∧ o = o' := by
  obtain ⟨p, hp, rfl, rfl⟩ := voiceStep_captured hs hqs
  obtain ⟨q, hq, rfl, rfl⟩ := voiceStep_captured ht hqt
  refine ⟨ha.samples (CapturePipeline.ingest_keeps hp) (CapturePipeline.ingest_keeps hq) ?_, rfl⟩
  intro heq
  rw [heq, hq] at hp
  exact (Ingested.ready.inj hp).symm

theorem Alike.setInputGain (ha : Alike g s h t) (percent : UInt8) :
    Alike g { s with capture := s.capture.setInputGain percent } h
      { t with capture := t.capture.setInputGain percent } where
  daemon := ha.daemon
  live := ha.live
  webRtc := ha.webRtc
  gain := rfl
  framed := ha.framed
  framed' := ha.framed'
  capture := fun hg hh => by rw [ha.capture hg hh]

theorem Alike.reset (ha : Alike g s h t) :
    Alike false { s with capture := s.capture.reset, hasLiveCapture := true } false
      { t with capture := t.capture.reset, hasLiveCapture := true } where
  daemon := ha.daemon
  live := rfl
  webRtc := ha.webRtc
  gain := ha.gain
  framed := s.capture.reset_keeps.framed ha.framed
  framed' := t.capture.reset_keeps.framed ha.framed'
  capture := fun _ _ => CapturePipeline.reset_eq ha.framed ha.framed' ha.gain

theorem VoiceState.onSendMediaFrame_network {s : VoiceState κ mic}
    (h : s.webRtcConnectionState = none) (peerId : String) (nowMs : UInt64) (channelOpen : Bool) :
    (s.onSendMediaFrame π lib peerId nowMs channelOpen).1 =
      (s.daemon.onSendMediaFrame π lib peerId (s.nextPcm peerId).1 nowMs).2.map .network :=
  List.map_congr_left fun effect _ => VoiceState.carry_network h channelOpen effect

theorem VoiceState.nextPcm_keeps (s : VoiceState κ mic) (peerId : String) :
    s.capture.Keeps (s.nextPcm peerId).2 := by
  unfold nextPcm
  split
  · next hready => exact CapturePipeline.takeReadyFrame_keeps hready
  · split
    · exact ⟨rfl, id⟩
    · exact ⟨rfl, id⟩

/-- A tick reads the pipelines only where they are equal. -/
theorem Alike.onSendMediaFrame (ha : Alike g s h t) {peerId : String} (nowMs : UInt64)
    (channelOpen : Bool)
    (hqs : g = true → s.daemon.buildsFrame π lib peerId = false)
    (hqt : h = true → t.daemon.buildsFrame π lib peerId = false) :
    Alike g (s.onSendMediaFrame π lib peerId nowMs channelOpen).2 h
        (t.onSendMediaFrame π lib peerId nowMs channelOpen).2 ∧
      (s.onSendMediaFrame π lib peerId nowMs channelOpen).1 =
        (t.onSendMediaFrame π lib peerId nowMs channelOpen).1 := by
  obtain ⟨d, p, live, webRtc⟩ := s
  obtain ⟨d', q, live', webRtc'⟩ := t
  obtain rfl : d = d' := ha.daemon
  obtain rfl : live = live' := ha.live
  obtain rfl : webRtc = webRtc' := ha.webRtc
  cases hbuilds : d.buildsFrame π lib peerId with
  | true =>
    have hg : g = false := by
      cases g
      · rfl
      · simp [hbuilds] at hqs
    have hh : h = false := by
      cases h
      · rfl
      · simp [hbuilds] at hqt
    obtain rfl : p = q := ha.capture hg hh
    refine ⟨?_, rfl⟩
    have hkeeps := VoiceState.nextPcm_keeps (⟨d, p, live, webRtc⟩ : VoiceState κ mic) peerId
    simp only [VoiceState.onSendMediaFrame, hbuilds, if_true]
    exact (ha.samples hkeeps hkeeps fun _ => rfl).outside _ _ _
  | false =>
    have hsame := Daemon.onSendMediaFrame_unread hbuilds
      (VoiceState.nextPcm (⟨d, p, live, webRtc⟩ : VoiceState κ mic) peerId).1
      (VoiceState.nextPcm (⟨d, q, live, webRtc⟩ : VoiceState κ mic) peerId).1 nowMs
    simp only [VoiceState.onSendMediaFrame, hbuilds, hsame, Bool.false_eq_true, if_false]
    exact ⟨ha.outside _ _ _, rfl⟩

theorem Alike.selectCaptureDevice (ha : Alike g s h t) {opened : Bool}
    (hs : voiceStep π lib fuel s (.selectCaptureDevice opened) = some (o, s'))
    (ht : voiceStep π lib fuel t (.selectCaptureDevice opened) = some (o', t')) :
    Alike (g && !(opened && s.daemon.media.isSome)) s'
      (h && !(opened && t.daemon.media.isSome)) t' ∧ o = o' := by
  obtain ⟨rfl, rfl⟩ := Prod.mk.inj (Option.some.inj hs)
  obtain ⟨rfl, rfl⟩ := Prod.mk.inj (Option.some.inj ht)
  have hmedia : t.daemon.media.isSome = s.daemon.media.isSome := by rw [ha.daemon]
  rw [hmedia]
  refine ⟨?_, rfl⟩
  by_cases hopen : (opened && s.daemon.media.isSome) = true
  · simp only [hopen, if_true, Bool.not_true, Bool.and_false]
    exact ha.reset
  · simp only [hopen, Bool.not_false, Bool.and_true]
    exact ha

/-- Two sides that take the same event, none of it a chunk under mute. -/
theorem Alike.both (ha : Alike g s h t) {i : VoiceEvent κ lib mic}
    (hs : voiceStep π lib fuel s i = some (o, s')) (ht : voiceStep π lib fuel t i = some (o', t'))
    (hmuted : capturedWhileMuted ⟨s, i, o, s'⟩ = false)
    (hqs : QuietStep π fuel g ⟨s, i, o, s'⟩) (hqt : QuietStep π fuel h ⟨t, i, o', t'⟩) :
    Alike (holdsMuted g ⟨s, i, o, s'⟩) s' (holdsMuted h ⟨t, i, o', t'⟩) t' ∧ o = o' := by
  obtain ⟨d, p, live, webRtc⟩ := s
  obtain ⟨d', q, live', webRtc'⟩ := t
  obtain rfl : d = d' := ha.daemon
  obtain rfl : live = live' := ha.live
  obtain rfl : webRtc = webRtc' := ha.webRtc
  cases i with
  | daemon event =>
    simp only [voiceStep, Option.ite_none_left_eq_some, Option.some.injEq, Prod.mk.injEq] at hs ht
    obtain ⟨_, rfl, rfl⟩ := hs
    obtain ⟨_, rfl, rfl⟩ := ht
    exact ⟨ha.outside _ _ _, rfl⟩
  | captured chunk =>
    have hheard : d.status.session.selfMuted = false := hmuted
    simp only [holdsMuted, VoiceState.selfMuted, hheard, Bool.false_and, Bool.or_false]
    exact ha.captured hs ht hqs.1 hqt.1
  | toggleMuteSelf =>
    obtain ⟨rfl, rfl⟩ := Prod.mk.inj (Option.some.inj hs)
    obtain ⟨rfl, rfl⟩ := Prod.mk.inj (Option.some.inj ht)
    exact ⟨ha.outside _ _ _, rfl⟩
  | setInputGainPercent percent =>
    obtain ⟨rfl, rfl⟩ := Prod.mk.inj (Option.some.inj hs)
    obtain ⟨rfl, rfl⟩ := Prod.mk.inj (Option.some.inj ht)
    refine ⟨?_, rfl⟩
    by_cases hm : d.media.isSome = true
    · simp only [hm, if_true]
      exact ha.setInputGain percent
    · simp only [hm]
      exact ha
  | selectCaptureDevice opened => exact ha.selectCaptureDevice hs ht
  | sendMediaFrame peerId nowMs channelOpen =>
    have hsend := ha.onSendMediaFrame nowMs channelOpen hqs.2 hqt.2
    obtain ⟨rfl, rfl⟩ := Prod.mk.inj (Option.some.inj hs)
    obtain ⟨rfl, rfl⟩ := Prod.mk.inj (Option.some.inj ht)
    exact hsend
  | webRtcMediaFrame peerId frame =>
    simp only [voiceStep, Option.ite_none_right_eq_some, Option.some.injEq, Prod.mk.injEq] at hs ht
    obtain ⟨_, rfl, rfl⟩ := hs
    obtain ⟨_, rfl, rfl⟩ := ht
    exact ⟨ha.outside _ _ _, rfl⟩
  | webRtcConnectionState peerId state =>
    simp only [voiceStep, Option.ite_none_right_eq_some, Option.some.injEq, Prod.mk.injEq] at hs ht
    obtain ⟨_, rfl, rfl⟩ := hs
    obtain ⟨_, rfl, rfl⟩ := ht
    exact ⟨ha.outside _ _ _, rfl⟩

/-- One side takes a chunk under mute: unless it is empty, the pipeline holds
something from then on. -/
theorem Alike.hidden (ha : Alike g s h t) {i : VoiceEvent κ lib mic}
    (hs : voiceStep π lib fuel s i = some (o, s')) (hmuted : capturedWhileMuted ⟨s, i, o, s'⟩ = true)
    (hquiet : s.panics fuel i = false) : Alike (holdsMuted g ⟨s, i, o, s'⟩) s' h t ∧ o = [] := by
  cases i with
  | captured chunk =>
    obtain ⟨p, hp, rfl, rfl⟩ := voiceStep_captured hs hquiet
    have hself : s.selfMuted = true := hmuted
    refine ⟨?_, rfl⟩
    cases hempty : chunk.samples.isEmpty with
    | true =>
      simp only [CapturePipeline.ingest, hempty, if_true] at hp
      obtain rfl := Ingested.ready.inj hp
      simp only [holdsMuted, hempty, Bool.not_true, Bool.and_false, Bool.or_false]
      exact ha
    | false =>
      simp only [holdsMuted, hself, hempty, Bool.not_false, Bool.and_true, Bool.or_true]
      exact ha.muted (CapturePipeline.ingest_keeps hp)
  | _ => cases hmuted

end

theorem selfMute_unwinding (π : Profile) (lib : Libp2p) (mic : Microphone κ) (fuel : Nat) :
    Unwinding (voiceStep π lib fuel) capturedWhileMuted sentFrames holdsMuted (QuietStep π fuel)
      (@Alike κ mic) where
  symm _ _ _ _ ha := ha.symm
  hidden g x h t hstep hmuted hquiet ha := by
    obtain ⟨hnext, hsilent⟩ := ha.hidden hstep hmuted hquiet.1
    exact ⟨hnext, by rw [hsilent]; rfl⟩
  both g x h y hx hy hxh hyh hinput hqx hqy ha := by
    obtain ⟨s, i, o, s'⟩ := x
    obtain ⟨t, j, o', t'⟩ := y
    obtain rfl : i = j := hinput
    obtain ⟨hnext, hsame⟩ := ha.both hx hy hxh hqx hqy
    exact ⟨hnext, congrArg sentFrames hsame⟩

/-- Two runs that hear the same but for the chunks captured under mute send
the same frames, as long as no frame is built between such a chunk and the
next device that is opened. -/
theorem muted_audio_unheard {π : Profile} {fuel : Nat} {status : DaemonStatus}
    {hasLiveCapture webRtc : Bool}
    {events events' : List (VoiceEvent κ lib mic)} {a b : List (VoiceTransition κ lib mic)}
    {s t : VoiceState κ mic}
    (ha : voiceRun π lib mic fuel status hasLiveCapture webRtc events = some (a, s))
    (hb : voiceRun π lib mic fuel status hasLiveCapture webRtc events' = some (b, t))
    (hheard : heard capturedWhileMuted a = heard capturedWhileMuted b)
    (hqa : Guarded holdsMuted (QuietStep π fuel) false a)
    (hqb : Guarded holdsMuted (QuietStep π fuel) false b) :
    shown sentFrames a = shown sentFrames b :=
  (selfMute_unwinding π lib mic fuel).shown_eq (execute_trace ha) (execute_trace hb) hqa hqb hheard
    (.start status hasLiveCapture webRtc)

/-- Silence and then a click, one frame at 48 kHz; the last sample only lets the
click out. -/
def click : CaptureChunk binary32 where
  sampleRateHz := 48000
  samples := List.replicate 959 0 ++ [1, 0]

/-- What the filter and the gate of a fresh pipeline make of the click. -/
def clickProcessed : List binary32.Sample × VoiceProcessorChain binary32 :=
  (VoiceProcessorChain.new binary32).processFrame (List.replicate 959 0 ++ [1])

theorem clickProcessed_any : clickProcessed.1.any (· ≠ 0) = true := by
  have hclick : ((⟨0, 0⟩ : HighPassFilter binary32).process [1]).1 = [hpfAlpha binary32] := by
    decide
  have hgated : clickProcessed.1 = (AdaptiveNoiseGate.process
        (VoiceProcessorChain.new binary32).noiseGate
        (List.replicate 959 0 ++ [hpfAlpha binary32])).1 := by
    rw [← hclick, ← HighPassFilter.process_silence]
    rfl
  rw [hgated, AdaptiveNoiseGate.process, List.any_map, rmsLevel_silence, List.any_append]
  refine Bool.or_eq_true_iff.mpr (.inr ?_)
  decide +kernel

/-- The pipeline when the click has come through the loop. -/
def clicked : CapturePipeline binary32 := { CapturePipeline.new binary32 with
  inputSamples := [0]
  frameAssembly := [] ++ List.replicate 959 0 ++ [1] }

theorem clicked_finishFrame : clicked.finishFrame = { CapturePipeline.new binary32 with
    inputSamples := [0]
    voiceProcessor := clickProcessed.2
    readyFrames := [clickProcessed.1] } := by
  have hlen : clicked.frameAssembly.length = frameSamples := by
    simp only [clicked, List.length_append, List.length_replicate]
    decide
  have hunity : binary32.lt (sampleEpsilon binary32)
      (binary32.abs (clicked.inputGain - 1)) = false := by decide
  rw [CapturePipeline.finishFrame, if_pos hlen]
  simp only [hunity, Bool.false_eq_true, if_false]
  rfl

theorem ingest_click : (CapturePipeline.new binary32).ingest 961 click =
    .ready clicked.finishFrame.dropOldest := by
  have hloop : CapturePipeline.rebuildReadyFrames 961
      ((CapturePipeline.new binary32).accept click) =
        CapturePipeline.rebuildReadyFrames 1 clicked.finishFrame := by
    rw [CapturePipeline.rebuildReadyFrames_silence rfl rfl (by decide) 959 2 (by decide) rfl,
      CapturePipeline.rebuildReadyFrames_copy rfl rfl rfl (by decide)]
    rfl
  have hend : CapturePipeline.rebuildReadyFrames 1 clicked.finishFrame =
      .ready clicked.finishFrame := by
    refine CapturePipeline.rebuildReadyFrames_end (x := 0) ?_ ?_ 0
    · rw [clicked_finishFrame]
      rfl
    · rw [clicked_finishFrame]
  rw [CapturePipeline.ingest, if_neg (by decide), hloop, hend]

def soundPayload (sound : Bool) : List UInt8 := [if sound then 1 else 0]

/-- A codec that hears whether there is a sound. A packet is about the frame
before: the encoder looks ahead, and a sound at the end of a frame is in the next
packet. -/
def soundCodec : Codec where
  Pcm := Bool
  Encoder := Bool
  Decoder := Unit
  buildEncoder := some false
  buildDecoder := some ()
  encodeFloat before pcm := (some (soundPayload before), pcm)
  decodePacket _ _ _ := (some false, ())
  decodePacketLoss _ := (some false, ())
  applyOutputGain pcm _ := pcm

def soundMicrophone : Microphone soundCodec where
  arith := binary32
  toPcm samples := samples.any (· ≠ 0)
  tone _ := false

/-- A friend calls, the daemon is muted, captures `chunks` and sends two frames. -/
def mutedCall (chunks : List (CaptureChunk soundMicrophone.arith)) :
    List (VoiceEvent soundCodec sampleLibp2p soundMicrophone) :=
  [.daemon (.connectionEstablished remote incoming),
    .daemon (.sessionHello remote sampleHello 0), .toggleMuteSelf] ++
  (chunks.map .captured ++
    [.sendMediaFrame remotePeer 0 false, .sendMediaFrame remotePeer 20 false])

def mutedDaemon : Daemon soundCodec :=
  (((Daemon.start (sampleStatus friendBook)).handle .release sampleLibp2p
    (.connectionEstablished remote incoming)).1.handle .release sampleLibp2p
      (.sessionHello remote sampleHello 0)).1.withStatus toggleMuteSelf

def sentPayloads (effects : List (VoiceEffect soundCodec)) : List (List UInt8) :=
  (sentFrames effects).map MediaFrame.payload

/-- The first packet says nothing, the second whether there was a sound in the
first frame. -/
theorem mutedDaemon_sends (pcm pcm' : Bool) :
    let first := mutedDaemon.onSendMediaFrame .release sampleLibp2p remotePeer pcm 0
    let second := first.1.onSendMediaFrame .release sampleLibp2p remotePeer pcm' 20
    sentPayloads (first.2.map .network) = [soundPayload false] ∧
      sentPayloads (second.2.map .network) = [soundPayload pcm] := by
  cases pcm with
  | false => cases pcm' with
    | false => decide +kernel
    | true => decide +kernel
  | true => cases pcm' with
    | false => decide +kernel
    | true => decide +kernel

def mutedState (capture : CapturePipeline soundMicrophone.arith) :
    VoiceState soundCodec soundMicrophone where
  daemon := mutedDaemon
  capture := capture
  hasLiveCapture := true
  webRtcConnectionState := none

def mutedRun (chunks : List (CaptureChunk soundMicrophone.arith)) :
    Option (List (VoiceTransition soundCodec sampleLibp2p soundMicrophone) ×
      VoiceState soundCodec soundMicrophone) :=
  voiceRun .release sampleLibp2p soundMicrophone 961 (sampleStatus friendBook) true false
    (mutedCall chunks)

/-- The second payload says whether there is a sound in the pipeline that the
chunks have left. -/
theorem mutedRun_payloads {chunks : List (CaptureChunk soundMicrophone.arith)}
    {b : List (VoiceTransition soundCodec sampleLibp2p soundMicrophone)}
    {p : CapturePipeline soundMicrophone.arith}
    (hb : execute (voiceStep .release sampleLibp2p 961) (mutedState (.new binary32))
      (chunks.map .captured) = some (b, mutedState p))
    (hheard : heard capturedWhileMuted b = []) (hshown : shown sentFrames b = []) :
    ∃ a s, mutedRun chunks = some (a, s) ∧ heard capturedWhileMuted a = mutedCall [] ∧
      (shown sentFrames a).map MediaFrame.payload =
        [soundPayload false, soundPayload ((mutedState p).nextPcm remotePeer).1] := by
  obtain ⟨pre, hpre, hpreheard, hpreshown⟩ : ∃ pre, execute (voiceStep .release sampleLibp2p 961)
      (VoiceState.start soundMicrophone (sampleStatus friendBook) true false)
      [.daemon (.connectionEstablished remote incoming),
        .daemon (.sessionHello remote sampleHello 0), .toggleMuteSelf] =
        some (pre, mutedState (.new binary32)) ∧
      heard capturedWhileMuted pre = [.daemon (.connectionEstablished remote incoming),
        .daemon (.sessionHello remote sampleHello 0), .toggleMuteSelf] ∧
      shown sentFrames pre = [] := by
    refine ⟨_, rfl, rfl, ?_⟩
    decide +kernel
  let first := (mutedState p).onSendMediaFrame .release sampleLibp2p remotePeer 0 false
  let second := first.2.onSendMediaFrame .release sampleLibp2p remotePeer 20 false
  have hticks : execute (voiceStep .release sampleLibp2p 961) (mutedState p)
      [.sendMediaFrame remotePeer 0 false, .sendMediaFrame remotePeer 20 false] =
        some ([⟨mutedState p, .sendMediaFrame remotePeer 0 false, first.1, first.2⟩,
          ⟨first.2, .sendMediaFrame remotePeer 20 false, second.1, second.2⟩], second.2) :=
    execute_cons (voiceStep_sendMediaFrame _) (execute_cons (voiceStep_sendMediaFrame _) rfl)
  have hsent := mutedDaemon_sends ((mutedState p).nextPcm remotePeer).1
    (first.2.nextPcm remotePeer).1
  -- there is no data channel
  have hidle : (mutedState p).webRtcConnectionState = none := rfl
  have hidle' : first.2.webRtcConnectionState = none := rfl
  have hfirst : sentPayloads first.1 = [soundPayload false] := by
    rw [VoiceState.onSendMediaFrame_network hidle]
    exact hsent.1
  have hsecond : sentPayloads second.1 =
      [soundPayload ((mutedState p).nextPcm remotePeer).1] := by
    rw [VoiceState.onSendMediaFrame_network hidle']
    exact hsent.2
  refine ⟨_, _, execute_append hpre (execute_append hb hticks), ?_, ?_⟩
  · rw [heard_append, heard_append, hheard, hpreheard]
    rfl
  · rw [shown_append, shown_append, hshown, hpreshown, List.nil_append, List.nil_append]
    rw [sentPayloads] at hfirst hsecond
    simp only [shown, List.flatMap_cons, List.flatMap_nil, List.append_nil, List.map_append,
      hfirst, hsecond, List.singleton_append]

theorem click_captured : voiceStep .release sampleLibp2p 961 (mutedState (.new binary32))
    (.captured click) = some ([], mutedState clicked.finishFrame.dropOldest) := by
  have hready : (mutedState (.new binary32)).capture.ingest 961 click =
      .ready clicked.finishFrame.dropOldest := ingest_click
  have halive : ((mutedState (.new binary32)).hasLiveCapture &&
      (mutedState (.new binary32)).daemon.media.isSome) = true := by decide +kernel
  unfold voiceStep
  simp only [halive, if_true, hready]
  rfl

theorem click_nextPcm :
    ((mutedState clicked.finishFrame.dropOldest).nextPcm remotePeer).1 = true := by
  have hready : (mutedState clicked.finishFrame.dropOldest).capture.readyFrames =
      [clickProcessed.1] := by
    simp only [mutedState, clicked_finishFrame]
    rfl
  have hpcm : ∀ samples : List binary32.Sample,
      soundMicrophone.toPcm samples = samples.any (· ≠ 0) := fun _ => rfl
  rw [VoiceState.nextPcm_ready hready, hpcm, clickProcessed_any]

/-- The click is heard, although it was captured under mute: a run without it
sends another second frame. -/
theorem mutedClick_heard : ∃ a s b t, mutedRun [click] = some (a, s) ∧ mutedRun [] = some (b, t) ∧
    heard capturedWhileMuted a = heard capturedWhileMuted b ∧
    (shown sentFrames a).map MediaFrame.payload ≠
      (shown sentFrames b).map MediaFrame.payload := by
  have hmuted : mutedDaemon.status.session.selfMuted = true := by decide +kernel
  have hclick : execute (voiceStep .release sampleLibp2p 961) (mutedState (.new binary32))
      ([click].map .captured) = some ([⟨mutedState (.new binary32), .captured click, [],
        mutedState clicked.finishFrame.dropOldest⟩], mutedState clicked.finishFrame.dropOldest) :=
    execute_cons click_captured rfl
  obtain ⟨a, s, ha, haheard, hasent⟩ := mutedRun_payloads hclick
    (by simp [heard, capturedWhileMuted, VoiceState.selfMuted, mutedState, hmuted]) rfl
  have hnone : execute (voiceStep .release sampleLibp2p 961) (mutedState (.new binary32))
      (([] : List (CaptureChunk soundMicrophone.arith)).map .captured) =
        some ([], mutedState (.new binary32)) := rfl
  obtain ⟨b, t, hb, hbheard, hbsent⟩ := mutedRun_payloads hnone rfl rfl
  refine ⟨a, s, b, t, ha, hb, haheard.trans hbheard.symm, ?_⟩
  rw [hasent, hbsent, click_nextPcm]
  decide +kernel

/-- The daemon is muted only until a device is chosen; the friend calls after
that and is sent two frames. -/
def reopenedCall (chunks : List (CaptureChunk soundMicrophone.arith)) :
    List (VoiceEvent soundCodec sampleLibp2p soundMicrophone) :=
  .toggleMuteSelf :: chunks.map .captured ++ [.toggleMuteSelf, .selectCaptureDevice true,
    .daemon (.connectionEstablished remote incoming),
    .daemon (.sessionHello remote sampleHello 0), .sendMediaFrame remotePeer 0 false,
    .sendMediaFrame remotePeer 20 false]

def reopenedRun (chunks : List (CaptureChunk soundMicrophone.arith)) :
    Option (List (VoiceTransition soundCodec sampleLibp2p soundMicrophone) ×
      VoiceState soundCodec soundMicrophone) :=
  voiceRun .release sampleLibp2p soundMicrophone 2 (sampleStatus friendBook) true false
    (reopenedCall chunks)

theorem muted_audio_unheard_reopened : ∃ a s b t,
    reopenedRun [⟨48000, [1]⟩] = some (a, s) ∧ reopenedRun [] = some (b, t) ∧
    (shown sentFrames a).length = 2 ∧ shown sentFrames a = shown sentFrames b := by
  have hspeck : (reopenedRun [⟨48000, [1]⟩]).map (fun r =>
      (r.1.map capturedWhileMuted, (shown sentFrames r.1).length,
        decide (Guarded holdsMuted (QuietStep .release 2) false r.1))) =
      some ([false, true, false, false, false, false, false, false], 2, true) := by
    decide +kernel
  have hnone : (reopenedRun []).map (fun r => (r.1.map capturedWhileMuted,
        decide (Guarded holdsMuted (QuietStep .release 2) false r.1))) =
      some ([false, false, false, false, false, false, false], true) := by decide +kernel
  obtain ⟨⟨a, s⟩, ha, hspeck⟩ := Option.map_eq_some_iff.mp hspeck
  obtain ⟨⟨b, t⟩, hb, hnone⟩ := Option.map_eq_some_iff.mp hnone
  simp only [Prod.mk.injEq, decide_eq_true_eq] at hspeck hnone
  obtain ⟨hmarks, htwo, hquiet⟩ := hspeck
  obtain ⟨hmarks', hquiet'⟩ := hnone
  have hheard : heard capturedWhileMuted a = heard capturedWhileMuted b := by
    rw [heard_eq, heard_eq, execute_inputs ha, execute_inputs hb, hmarks, hmarks']
    rfl
  exact ⟨a, s, b, t, ha, hb, htwo, muted_audio_unheard ha hb hheard hquiet hquiet'⟩

end Voicers
