import Voicers.Core.Status
import Voicers.Lib.FirstMatch
import Voicers.Media.Jitter
import Mathlib.Logic.Function.Basic

/-! The media engine (`media.rs`): one runtime for each peer, fed by commands
of the network task and drained by the playout tick. Opus and the sample
arithmetic are a parameter; the microphone pipeline is reduced to the frame
it hands over. -/

namespace Voicers

open Lib

/-- The audio codec and the sample arithmetic the engine calls. A decoder or
encoder is returned with its new internal state; `none` is an error. -/
structure Codec where
  Pcm : Type
  Encoder : Type
  Decoder : Type
  buildEncoder : Option Encoder
  buildDecoder : Option Decoder
  encodeFloat : Encoder → Pcm → Option (List UInt8) × Encoder
  decodePacket : Decoder → List UInt8 → Bool → Option Pcm × Decoder
  decodePacketLoss : Decoder → Option Pcm × Decoder
  applyOutputGain : Pcm → Nat → Pcm

def maxPlayoutBurstFrames : Nat := 4
def sampleRateHz : UInt32 := 48000
def frameChannels : UInt8 := 1
def frameDurationMs : UInt16 := 20

variable (κ : Codec)

structure MediaPeerRuntime where
  nextSendSequence : Nat
  nextSendTimestampSamples : Nat
  decoder : κ.Decoder
  encoder : κ.Encoder
  jitter : JitterBuffer
  decodedFrames : Nat

abbrev MediaPeers := String → Option (MediaPeerRuntime κ)

/-- Commands the network task queues without waiting for an answer. -/
inductive MediaCommand
  | registerPeer (peerId : String)
  | disconnectPeer (peerId : String)
  | handleAck (peerId : String) (ack : MediaAck)
deriving DecidableEq

def JitterBuffer.streamState (b : JitterBuffer) : MediaStreamState :=
  if b.nextPlayoutTimestampSamples.isSome then .active
  else if b.pending.length = 0 then .idle
  else .primed

def DaemonStatus.updatePeerMedia (state : DaemonStatus) (peerId : String)
    (update : PeerMediaState → PeerMediaState) : DaemonStatus :=
  { state with
    peers := updateFirst (fun p => p.peerId = peerId)
      (fun p => { p with media := update p.media }) state.peers }

/-- `percent_to_gain` of the peer's volume, as a percentage. -/
def DaemonStatus.peerOutputGain (state : DaemonStatus) (peerId : String) : Nat :=
  match state.peer? peerId with
  | some peer => min peer.outputVolumePercent 200
  | none => 100

/-- The timestamp a frame claims: its own, or the one its sequence number
stands for. -/
def MediaFrame.claimedTimestamp (frame : MediaFrame) : Nat :=
  if frame.timestampSamples ≠ 0 then frame.timestampSamples.toNat
  else (frame.sequence.toNat - 1) * frameSamples

def normalizeTimestampSamples (π : Profile) (frame : MediaFrame) : Option Nat :=
  if frame.timestampSamples ≠ 0 then some frame.timestampSamples.toNat
  else π.u64 ((frame.sequence.toNat - 1) * frameSamples)

def JitterBuffer.receive (π : Profile) (jitter : JitterBuffer) (frame : MediaFrame) :
    Option JitterBuffer :=
  match frame.frameKind with
  | .probe => some jitter
  | .audioOpus => (normalizeTimestampSamples π frame).map fun timestampSamples =>
    jitter.insert ⟨timestampSamples, frame.payload⟩

section

variable {κ}

def ensurePeerRuntime (peers : MediaPeers κ) (peerId : String) :
    Option (MediaPeerRuntime κ × MediaPeers κ) :=
  match peers peerId with
  | some runtime => some (runtime, peers)
  | none => do
    let encoder ← κ.buildEncoder
    let decoder ← κ.buildDecoder
    let runtime : MediaPeerRuntime κ :=
      { nextSendSequence := 1
        nextSendTimestampSamples := 0
        decoder := decoder
        encoder := encoder
        jitter := JitterBuffer.new
        decodedFrames := 0 }
    return (runtime, Function.update peers peerId (some runtime))

def MediaPeerRuntime.report (runtime : MediaPeerRuntime κ) (media : PeerMediaState) :
    PeerMediaState :=
  { media with
    latePackets := runtime.jitter.latePackets
    lostPackets := runtime.jitter.lostPackets
    concealedFrames := runtime.jitter.concealedFrames
    driftCorrections := runtime.jitter.driftCorrections
    queuedPackets := runtime.jitter.queueDepth
    decodedFrames := runtime.decodedFrames
    queuedSamples := runtime.jitter.queuedSamples
    streamState := runtime.jitter.streamState }

/-- The commands without an answer. A runtime that cannot be built leaves
everything as it is. -/
def runMediaCommand (state : DaemonStatus) (peers : MediaPeers κ) :
    MediaCommand → DaemonStatus × MediaPeers κ
  | .registerPeer peerId =>
    match ensurePeerRuntime peers peerId with
    | none => (state, peers)
    | some (_, peers) =>
      (state.updatePeerMedia peerId (fun media => { media with streamState := .primed }), peers)
  | .disconnectPeer peerId =>
    (state.updatePeerMedia peerId (fun media => { media with
        streamState := .idle, queuedPackets := 0, decodedFrames := 0, queuedSamples := 0 }),
      Function.update peers peerId none)
  | .handleAck peerId ack =>
    (state.updatePeerMedia peerId (fun media => { media with
        streamState := .active
        lastSequence := some ack.acceptedSequence
        queuedPackets := ack.queueDepth
        queuedSamples := ack.queuedSamples }),
      peers)

/-- `none` is a panic; an answer without an acknowledgement is an error. -/
def handleIncomingFrame (π : Profile) (state : DaemonStatus) (peers : MediaPeers κ)
    (peerId : String) (frame : MediaFrame) :
    Option (Option MediaAck × DaemonStatus × MediaPeers κ) :=
  match ensurePeerRuntime peers peerId with
  | none => some (none, state, peers)
  | some (runtime, peers) => do
    let jitter ← runtime.jitter.receive π frame
    let runtime := { runtime with jitter := jitter }
    let ack : MediaAck :=
      { acceptedSequence := frame.sequence
        queueDepth := jitter.queueDepth
        queuedSamples := jitter.queuedSamples }
    return (some ack,
      state.updatePeerMedia peerId (fun media =>
        { runtime.report media with
          receivedPackets := media.receivedPackets + 1
          lastSequence := some frame.sequence }),
      Function.update peers peerId (some runtime))

/-- The samples of a decision; a packet that does not decode is concealed. -/
def decodeDecision (decoder : κ.Decoder) : PlayoutDecision → Option κ.Pcm × κ.Decoder
  | .hold => (none, decoder)
  | .packet packet =>
    match κ.decodePacket decoder packet.payload false with
    | (some pcm, decoder) => (some pcm, decoder)
    | (none, decoder) => κ.decodePacketLoss decoder
  | .fec recoveryPacket =>
    match κ.decodePacket decoder recoveryPacket true with
    | (some pcm, decoder) => (some pcm, decoder)
    | (none, decoder) => κ.decodePacketLoss decoder
  | .conceal => κ.decodePacketLoss decoder

/-- The inner loop of `drive_playout`: at most `fuel` frames, until one holds
or cannot be decoded. -/
def playoutBurst (π : Profile) (gain now : Nat) :
    Nat → MediaPeerRuntime κ → Option (List κ.Pcm × MediaPeerRuntime κ)
  | 0, runtime => some ([], runtime)
  | fuel + 1, runtime => do
    let (decision, jitter) ← runtime.jitter.nextPlayoutDecision π now
    let decoded := decodeDecision runtime.decoder decision
    let runtime := { runtime with jitter := jitter, decoder := decoded.2 }
    match decoded.1 with
    | none => return ([], runtime)
    | some pcm =>
      let (rest, runtime) ← playoutBurst π gain now fuel
        { runtime with decodedFrames := runtime.decodedFrames + 1 }
      return (κ.applyOutputGain pcm gain :: rest, runtime)

/-- One playout tick over the peers in `peerIds`, the keys of the engine's map
in its own order. The samples are those pushed to the peers' outputs. -/
def drivePlayout (π : Profile) (now : Nat) :
    List String → DaemonStatus → MediaPeers κ →
      Option (List (String × κ.Pcm) × DaemonStatus × MediaPeers κ)
  | [], state, peers => some ([], state, peers)
  | peerId :: peerIds, state, peers =>
    match peers peerId with
    | none => drivePlayout π now peerIds state peers
    | some runtime => do
      let (pcm, runtime) ←
        playoutBurst π (state.peerOutputGain peerId) now maxPlayoutBurstFrames runtime
      let (rest, state, peers) ← drivePlayout π now peerIds
        (state.updatePeerMedia peerId runtime.report)
        (Function.update peers peerId (some runtime))
      return (pcm.map (fun samples => (peerId, samples)) ++ rest, state, peers)

def buildNextAudioFrame (π : Profile) (state : DaemonStatus) (peers : MediaPeers κ)
    (peerId : String) (pcm : κ.Pcm) (nowMs : UInt64) :
    Option (Option MediaFrame × DaemonStatus × MediaPeers κ) :=
  match ensurePeerRuntime peers peerId with
  | none => some (none, state, peers)
  | some (runtime, peers) => do
    let nextSendSequence ← π.u64 (runtime.nextSendSequence + 1)
    let nextSendTimestampSamples ← π.u64 (runtime.nextSendTimestampSamples + frameSamples)
    let encoded := κ.encodeFloat runtime.encoder pcm
    let sent := { runtime with
      nextSendSequence := nextSendSequence
      nextSendTimestampSamples := nextSendTimestampSamples
      encoder := encoded.2 }
    let peers := Function.update peers peerId (some sent)
    match encoded.1 with
    | none => return (none, state, peers)
    | some payload =>
      let frame : MediaFrame :=
        { sequence := UInt64.ofNat runtime.nextSendSequence
          timestampMs := nowMs
          timestampSamples := UInt64.ofNat runtime.nextSendTimestampSamples
          frameKind := .audioOpus
          sampleRateHz := sampleRateHz
          channels := frameChannels
          frameDurationMs := frameDurationMs
          payload := payload }
      return (some frame,
        state.updatePeerMedia peerId (fun media => { media with
          sentPackets := media.sentPackets + 1
          lastSequence := some frame.sequence
          streamState := if media.streamState = .idle then .primed else media.streamState }),
        peers)

end

end Voicers
