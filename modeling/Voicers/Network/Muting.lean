import Voicers.Network.DaemonMove
import Voicers.Media.Capture
import Voicers.Lib.TwoRuns

/-! The daemon with its microphone and the WebRTC transport: what is captured,
which frame a media tick builds and the three ways it leaves. Muting oneself
sets a flag that neither the microphone nor a tick reads. -/

namespace Voicers

open Lib

variable {κ : Codec} {lib : Libp2p}

/-- The samples of a microphone, as the codec takes them. The tone a peer
hears without a microphone has its phase in the encoder of the peer. -/
structure Microphone (κ : Codec) where
  arith : SampleArith
  toPcm : List arith.Sample → κ.Pcm
  tone : String → κ.Pcm

variable {mic : Microphone κ}

/-- `webRtcConnectionState` is `none` in a build without the transport. -/
structure VoiceState (κ : Codec) (mic : Microphone κ) where
  daemon : Daemon κ
  capture : CapturePipeline mic.arith
  hasLiveCapture : Bool
  webRtcConnectionState : Option String

inductive VoiceEffect (κ : Codec)
  | network (effect : Effect κ)
  | webRtcFrame (peerId : String) (frame : MediaFrame)

/-- `opened` tells whether the device opens, `channelOpen` whether the data
channel of the peer takes a frame. -/
inductive VoiceEvent (κ : Codec) (lib : Libp2p) (mic : Microphone κ)
  | daemon (event : Event κ lib)
  | captured (chunk : CaptureChunk mic.arith)
  | toggleMuteSelf
  | setInputGainPercent (percent : UInt8)
  | selectCaptureDevice (opened : Bool)
  | sendMediaFrame (peerId : String) (nowMs : UInt64) (channelOpen : Bool)
  | webRtcMediaFrame (peerId : String) (frame : MediaFrame)
  | webRtcConnectionState (peerId state : String)

def webRtcMediaPath : String := "webrtc-data-channel"

def Event.isMediaTick : Event κ lib → Bool
  | .sendMediaFrame _ _ _ => true
  | _ => false

/-- The engine reads its microphone for a frame of `peerId`. -/
def readsPcm (π : Profile) (peers : MediaPeers κ) (peerId : String) : Bool :=
  match ensurePeerRuntime peers peerId with
  | none => false
  | some (runtime, _) => (π.u64 (runtime.nextSendSequence + 1)).isSome &&
    (π.u64 (runtime.nextSendTimestampSamples + frameSamples)).isSome

namespace Daemon

/-- The route asks the engine for a frame of `peerId`: a relayed one, too, ends
at its peer. -/
def routeAsks (lib : Libp2p) (d : Daemon κ) (peerId : String) : Bool :=
  match resolveRoute lib d.status d.relayOffers peerId with
  | .direct => lib.isPeerId peerId
  | .relayed _ _ => peerId ≠ d.status.localPeerId
  | .unreachable => false

def tickBuilds (π : Profile) (lib : Libp2p) (d : Daemon κ) (peerId : String) : Bool :=
  d.routeAsks lib peerId && d.flushMedia.media.any fun peers => readsPcm π peers peerId

def buildsFrame (π : Profile) (lib : Libp2p) (d : Daemon κ) (peerId : String) : Bool :=
  d.mediaTicks peerId ≠ 0 && peerId ∈ d.activeMediaFlows &&
    (d.consumeTick peerId).tickBuilds π lib peerId

end Daemon

def webRtcConnected (connectionState : String) : Bool :=
  let connectionState := trim connectionState
  connectionState ≠ "disabled" &&
    (" connected".toList.isSuffixOf connectionState.toList || connectionState = "connected")

namespace VoiceState

def start (mic : Microphone κ) (status : DaemonStatus) (hasLiveCapture webRtc : Bool) :
    VoiceState κ mic where
  daemon := .start status
  capture := .new mic.arith
  hasLiveCapture := hasLiveCapture
  webRtcConnectionState := if webRtc then some "idle" else none

def withDaemon (s : VoiceState κ mic) (f : Daemon κ → Daemon κ) : VoiceState κ mic :=
  { s with daemon := f s.daemon }

/-- The samples of the next frame, and the pipeline without them. -/
def nextPcm (s : VoiceState κ mic) (peerId : String) : κ.Pcm × CapturePipeline mic.arith :=
  match s.capture.takeReadyFrame with
  | some (frame, capture) => (mic.toPcm frame, capture)
  | none =>
    if s.hasLiveCapture then
      (mic.toPcm (s.capture.lastFrame?.getD (silenceFrame mic.arith)), s.capture)
    else (mic.tone peerId, s.capture)

def prefersWebRtc (s : VoiceState κ mic) : Bool := s.webRtcConnectionState.any webRtcConnected

/-- A frame of a direct route goes by the data channel if there is one. -/
def carry (s : VoiceState κ mic) (channelOpen : Bool) : Effect κ → VoiceEffect κ
  | .sendMedia peerId (.frame frame) =>
    if s.prefersWebRtc && channelOpen then .webRtcFrame peerId frame
    else .network (.sendMedia peerId (.frame frame))
  | effect => .network effect

/-- `SendMediaFrame`. The frame takes its samples from the microphone only
when it is built. -/
def onSendMediaFrame (π : Profile) (lib : Libp2p) (s : VoiceState κ mic) (peerId : String)
    (nowMs : UInt64) (channelOpen : Bool) : List (VoiceEffect κ) × VoiceState κ mic :=
  let next := s.nextPcm peerId
  let r := s.daemon.onSendMediaFrame π lib peerId next.1 nowMs
  (r.2.map (s.carry channelOpen),
    { s with
      daemon := r.1
      capture := if s.daemon.buildsFrame π lib peerId then next.2 else s.capture })

end VoiceState

def toggleMuteSelf (status : DaemonStatus) : DaemonStatus :=
  { status with session := { status.session with selfMuted := !status.session.selfMuted } }

def recordWebRtcState (status : DaemonStatus) (peerId state : String) : DaemonStatus :=
  if state = "connected" then recordPathScore status webRtcMediaPath (some peerId) true
  else if state = "failed" ∨ state = "closed" then
    recordPathScore status webRtcMediaPath (some peerId) false
  else status

/-- A chunk is received only by an engine that runs with a device; `fuel` bounds
the loop that resamples it. -/
def voiceStep (π : Profile) (lib : Libp2p) (fuel : Nat) (s : VoiceState κ mic) :
    VoiceEvent κ lib mic → Option (List (VoiceEffect κ) × VoiceState κ mic)
  | .daemon event =>
    if event.isMediaTick then none
    else
      let r := s.daemon.handle π lib event
      some (r.2.map .network, { s with daemon := r.1 })
  | .captured chunk =>
    if s.hasLiveCapture && s.daemon.media.isSome then
      match s.capture.ingest fuel chunk with
      | .ready capture => some ([], { s with capture := capture })
      | .panicked => some ([], s.withDaemon fun d => { d with media := none, mediaQueue := [] })
      | .unfinished => none
    else none
  | .toggleMuteSelf => some ([], s.withDaemon fun d => d.withStatus toggleMuteSelf)
  | .setInputGainPercent percent =>
    some ([], if s.daemon.media.isSome then { s with capture := s.capture.setInputGain percent }
      else s)
  | .selectCaptureDevice opened =>
    some ([], if opened && s.daemon.media.isSome then
        { s with capture := s.capture.reset, hasLiveCapture := true }
      else s)
  | .sendMediaFrame peerId nowMs channelOpen =>
    some (s.onSendMediaFrame π lib peerId nowMs channelOpen)
  | .webRtcMediaFrame peerId frame =>
    if s.webRtcConnectionState.isSome then
      some ([], s.withDaemon fun d => (d.callMedia fun status peers =>
        handleIncomingFrame π status peers peerId frame).2)
    else none
  | .webRtcConnectionState peerId state =>
    if s.webRtcConnectionState.isSome then
      some ([], { s with
        daemon := s.daemon.withStatus fun status => recordWebRtcState status peerId state
        webRtcConnectionState := some (peerId ++ " " ++ state) })
    else none

theorem VoiceState.nextPcm_ready {s : VoiceState κ mic} {frame : List mic.arith.Sample}
    {rest : List (List mic.arith.Sample)} (h : s.capture.readyFrames = frame :: rest)
    (peerId : String) : (s.nextPcm peerId).1 = mic.toPcm frame := by
  simp only [nextPcm, CapturePipeline.takeReadyFrame, h]

theorem VoiceState.carry_network {s : VoiceState κ mic} (h : s.webRtcConnectionState = none)
    (channelOpen : Bool) (effect : Effect κ) : s.carry channelOpen effect = .network effect := by
  unfold carry
  split
  · simp [prefersWebRtc, h]
  · rfl

theorem buildNextAudioFrame_unread {π : Profile} {peers : MediaPeers κ} {peerId : String}
    (h : readsPcm π peers peerId = false) (status : DaemonStatus) (pcm pcm' : κ.Pcm)
    (nowMs : UInt64) : buildNextAudioFrame π status peers peerId pcm nowMs =
      buildNextAudioFrame π status peers peerId pcm' nowMs := by
  unfold readsPcm at h
  unfold buildNextAudioFrame
  cases he : ensurePeerRuntime peers peerId with
  | none => rfl
  | some r =>
    simp only [he, Bool.and_eq_false_iff, Option.isSome_eq_false_iff,
      Option.isNone_iff_eq_none] at h
    rcases h with hseq | hts
    · simp only [hseq, Option.bind_eq_bind, Option.bind_none]
    · simp only [hts, Option.bind_eq_bind, Option.bind_none]

namespace Daemon

theorem callMedia_unread {π : Profile} {d : Daemon κ} {peerId : String}
    (h : (d.flushMedia.media.any fun peers => readsPcm π peers peerId) = false)
    (pcm pcm' : κ.Pcm) (nowMs : UInt64) :
    (d.callMedia fun status peers => buildNextAudioFrame π status peers peerId pcm nowMs) =
      d.callMedia fun status peers => buildNextAudioFrame π status peers peerId pcm' nowMs := by
  unfold callMedia
  cases hm : d.flushMedia.media with
  | none => simp only [hm]
  | some peers =>
    rw [hm, Option.any_some] at h
    simp only [hm, buildNextAudioFrame_unread h d.flushMedia.status pcm pcm']

theorem runMediaTick_unread {π : Profile} {d : Daemon κ} {peerId : String}
    (h : d.tickBuilds π lib peerId = false) (pcm pcm' : κ.Pcm) (nowMs : UInt64) :
    d.runMediaTick π lib peerId pcm nowMs = d.runMediaTick π lib peerId pcm' nowMs := by
  have hcall : d.routeAsks lib peerId = true →
      (d.callMedia fun status peers => buildNextAudioFrame π status peers peerId pcm nowMs) =
        d.callMedia fun status peers => buildNextAudioFrame π status peers peerId pcm' nowMs := by
    intro hasks
    rw [tickBuilds, hasks, Bool.true_and] at h
    exact callMedia_unread h pcm pcm' nowMs
  unfold routeAsks at hcall
  unfold runMediaTick
  cases hroute : resolveRoute lib d.status d.relayOffers peerId with
  | direct =>
    simp only [hroute] at hcall
    by_cases hid : lib.isPeerId peerId = true
    · simp only [hid, if_true, hcall hid]
    · simp only [hid, Bool.false_eq_true, if_false]
  | relayed via destination =>
    obtain rfl := relayed_destination hroute
    simp only [hroute, decide_eq_true_eq] at hcall
    by_cases hlocal : destination = d.status.localPeerId
    · simp only [hlocal, if_true]
    · simp only [hlocal, if_false, hcall hlocal]
  | unreachable => rfl

/-- A tick that builds no frame does not look at the samples. -/
theorem onSendMediaFrame_unread {π : Profile} {d : Daemon κ} {peerId : String}
    (h : d.buildsFrame π lib peerId = false) (pcm pcm' : κ.Pcm) (nowMs : UInt64) :
    d.onSendMediaFrame π lib peerId pcm nowMs = d.onSendMediaFrame π lib peerId pcm' nowMs := by
  unfold onSendMediaFrame
  by_cases hticks : d.mediaTicks peerId = 0
  · simp only [hticks, if_true]
  · by_cases hflow : peerId ∈ d.activeMediaFlows
    · simp only [buildsFrame, hticks, hflow, ne_eq, not_false_eq_true, decide_true,
        Bool.true_and] at h
      simp only [hticks, hflow, if_false, if_true]
      exact runMediaTick_unread h pcm pcm' nowMs
    · simp only [hticks, hflow, if_false]

end Daemon

end Voicers
