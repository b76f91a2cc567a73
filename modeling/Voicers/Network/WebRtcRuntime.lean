import Mathlib.Logic.Encodable.Basic
import Mathlib.Logic.Equiv.List
import Voicers.App.Cli
import Voicers.Core.Status
import Voicers.Lib.Lookup
import Voicers.Lib.Trace

/-! The WebRTC runtime (`webrtc_transport.rs`): the commands of the network task,
served one after the other, and the callbacks of the connections and channels,
which come in between. What the library answers is part of the event; its
connections and channels are numbers, new ones each time. Waiting for room in a
channel between tasks is left out. -/

namespace Voicers

open Lib

inductive WebRtcSignal
  | offer (sdp : String)
  | answer (sdp : String)
  | iceCandidate (candidate : String) (sdpMid : Option String) (sdpMlineIndex : Option UInt16)
  | iceComplete
deriving DecidableEq

/-- The servers are those of the command line, field by field. -/
structure WebRtcTransportConfig where
  stunServers : List String
  turnServers : List TurnServerConfig
deriving DecidableEq

structure RtcIceServer where
  urls : List String
  username : String
  credential : String
deriving DecidableEq

def iceUrl (defaultScheme value : String) : String :=
  if ["stun:", "stuns:", "turn:", "turns:"].any (fun scheme =>
      scheme.toList.isPrefixOf value.toList) then value
  else defaultScheme ++ ":" ++ value

def rtcConfiguration (config : WebRtcTransportConfig) : List RtcIceServer :=
  (if config.stunServers = [] then []
    else [{ urls := config.stunServers.map (iceUrl "stun"), username := "", credential := "" }]) ++
  config.turnServers.map fun server =>
    { urls := [iceUrl "turn" server.url]
      username := server.username
      credential := server.credential }

/-- Frames as JSON, the way `serde_json` writes and reads them. -/
structure FrameJson where
  toVec : MediaFrame → List UInt8
  fromSlice : List UInt8 → Option MediaFrame
  fromSlice_toVec : ∀ frame, fromSlice (toVec frame) = some frame

/-- The connections and the channels for media; `connectionPeer` and
`channelPeer` tell for which peer the callbacks were set, and of which
connection a channel is. -/
structure WebRtcRuntime where
  peers : Finmap fun _ : String => Nat
  dataChannels : Finmap fun _ : String => Nat
  connectionPeer : Finmap fun _ : Nat => String
  channelPeer : Finmap fun _ : Nat => String × Nat

/-- What the library answers in the course of one command, as far as it is asked. -/
structure RtcAnswers where
  connection : Option Nat
  channel : Option Nat
  description : Option String
  parsed : Bool
  remoteSet : Bool
  localSet : Bool
  candidateAdded : Bool

inductive GatheredCandidate
  | complete
  | unreadable
  | candidate (candidate : String) (sdpMid : Option String) (sdpMlineIndex : Option UInt16)

inductive WebRtcEvent
  | createOffer (peerId : String) (answers : RtcAnswers)
  | handleRemoteSignal (peerId : String) (signal : WebRtcSignal) (answers : RtcAnswers)
  | sendMediaFrame (peerId : String) (frame : MediaFrame) (isOpen sent : Bool)
  | onIceCandidate (connection : Nat) (gathered : GatheredCandidate)
  | onStateChange (connection : Nat) (state : String)
  | onDataChannel (connection channel : Nat)
  | onMessage (channel : Nat) (data : List UInt8)

/-- A call of the library, a message to the network task, or the reply to a
command; an error is shown with its outermost context. -/
inductive RtcEffect
  | newPeerConnection (servers : List RtcIceServer)
  | createDataChannel (connection : Nat) (label : String)
  | createDescription (connection : Nat) (isOffer : Bool)
  | setLocalDescription (connection : Nat) (sdp : String)
  | setRemoteDescription (connection : Nat) (sdp : String) (isOffer : Bool)
  | addIceCandidate (connection : Nat) (candidate : String) (sdpMid : Option String)
      (sdpMlineIndex : Option UInt16)
  | send (channel : Nat) (data : List UInt8)
  | outgoing (peerId : String) (signal : WebRtcSignal)
  | incoming (peerId : String) (frame : MediaFrame)
  | connectionState (peerId state : String)
  | reply (result : Except String (List WebRtcSignal))

namespace WebRtcRuntime

def empty : WebRtcRuntime := ⟨∅, ∅, ∅, ∅⟩

/-- The connection of a peer, its callbacks set when it is new. -/
def peerConnection (config : WebRtcTransportConfig) (r : WebRtcRuntime) (peerId : String)
    (created : Option Nat) : Option (Option Nat × List RtcEffect × WebRtcRuntime) :=
  match r.peers.lookup peerId with
  | some connection => some (some connection, [], r)
  | none =>
    let asked := [RtcEffect.newPeerConnection (rtcConfiguration config)]
    match created with
    | none => some (none, asked ++ [.reply (.error "failed to create WebRTC peer connection")], r)
    | some connection =>
      if (r.connectionPeer.lookup connection).isSome then none
      else some (some connection, asked,
        { r with
          peers := r.peers.insert peerId connection
          connectionPeer := r.connectionPeer.insert connection peerId })

/-- A channel must be a new one. -/
def registerDataChannel (r : WebRtcRuntime) (peerId : String) (connection channel : Nat) :
    Option WebRtcRuntime :=
  if (r.channelPeer.lookup channel).isSome then none
  else some { r with
    dataChannels := r.dataChannels.insert peerId channel
    channelPeer := r.channelPeer.insert channel (peerId, connection) }

/-- The local description is created and set; `what` is an offer or an answer. -/
def describe (connection : Nat) (isOffer : Bool) (what : String) (answers : RtcAnswers)
    (signal : String → WebRtcSignal) : List RtcEffect :=
  .createDescription connection isOffer ::
    match answers.description with
    | none => [.reply (.error ("failed to create WebRTC " ++ what))]
    | some sdp => [.setLocalDescription connection sdp, .reply (
      if answers.localSet then .ok [signal sdp]
      else .error ("failed to set local WebRTC " ++ what))]

def createOffer (config : WebRtcTransportConfig) (r : WebRtcRuntime) (peerId : String)
    (answers : RtcAnswers) : Option (List RtcEffect × WebRtcRuntime) := do
  let (connection, effects, r) ← r.peerConnection config peerId answers.connection
  match connection with
  | none => some (effects, r)
  | some connection =>
    let effects := effects ++ [.createDataChannel connection "voicers-media"]
    match answers.channel with
    | none => some (effects ++ [.reply (.error "failed to create WebRTC data channel")], r)
    | some channel =>
      let r ← r.registerDataChannel peerId connection channel
      some (effects ++ describe connection true "offer" answers .offer, r)

/-- A description of the peer, parsed and set. -/
def setRemote (connection : Nat) (sdp : String) (isOffer : Bool) (what : String)
    (answers : RtcAnswers) (rest : List RtcEffect) : List RtcEffect :=
  if !answers.parsed then [.reply (.error ("failed to parse remote WebRTC " ++ what))]
  else .setRemoteDescription connection sdp isOffer ::
    if !answers.remoteSet then [.reply (.error ("failed to set remote WebRTC " ++ what))] else rest

/-- What a signal of the peer does to its connection. -/
def applySignal (connection : Nat) (answers : RtcAnswers) : WebRtcSignal → List RtcEffect
  | .offer sdp => setRemote connection sdp true "offer" answers
      (describe connection false "answer" answers .answer)
  | .answer sdp => setRemote connection sdp false "answer" answers [.reply (.ok [])]
  | .iceCandidate candidate sdpMid sdpMlineIndex =>
    [.addIceCandidate connection candidate sdpMid sdpMlineIndex, .reply (
      if answers.candidateAdded then .ok []
      else .error "failed to add remote WebRTC ICE candidate")]
  | .iceComplete => [.reply (.ok [])]

def handleRemoteSignal (config : WebRtcTransportConfig) (r : WebRtcRuntime) (peerId : String)
    (signal : WebRtcSignal) (answers : RtcAnswers) : Option (List RtcEffect × WebRtcRuntime) :=
  if signal = .iceComplete then some ([.reply (.ok [])], r)
  else do
    let (connection, effects, r) ← r.peerConnection config peerId answers.connection
    match connection with
    | none => some (effects, r)
    | some connection => some (effects ++ applySignal connection answers signal, r)

def sendMediaFrame (json : FrameJson) (r : WebRtcRuntime) (peerId : String) (frame : MediaFrame)
    (isOpen sent : Bool) : List RtcEffect :=
  match r.dataChannels.lookup peerId with
  | none => [.reply (.error ("WebRTC media channel is not available for " ++ peerId))]
  | some channel =>
    if !isOpen then [.reply (.error ("WebRTC media channel for " ++ peerId ++ " is not open"))]
    else [.send channel (json.toVec frame),
      .reply (if sent then .ok [] else .error "failed to send WebRTC media frame")]

def gatheredSignal : GatheredCandidate → Option WebRtcSignal
  | .complete => some .iceComplete
  | .unreadable => none
  | .candidate candidate sdpMid sdpMlineIndex => some (.iceCandidate candidate sdpMid sdpMlineIndex)

def step (json : FrameJson) (config : WebRtcTransportConfig) (r : WebRtcRuntime) :
    WebRtcEvent → Option (List RtcEffect × WebRtcRuntime)
  | .createOffer peerId answers => r.createOffer config peerId answers
  | .handleRemoteSignal peerId signal answers => r.handleRemoteSignal config peerId signal answers
  | .sendMediaFrame peerId frame isOpen sent =>
    some (r.sendMediaFrame json peerId frame isOpen sent, r)
  | .onIceCandidate connection gathered => do
    let peerId ← r.connectionPeer.lookup connection
    some ((gatheredSignal gathered).toList.map (.outgoing peerId), r)
  | .onStateChange connection state => do
    let peerId ← r.connectionPeer.lookup connection
    some ([.connectionState peerId state], r)
  | .onDataChannel connection channel => do
    let peerId ← r.connectionPeer.lookup connection
    let r ← r.registerDataChannel peerId connection channel
    some ([], r)
  | .onMessage channel data => do
    let (peerId, _) ← r.channelPeer.lookup channel
    some ((json.fromSlice data).toList.map (.incoming peerId), r)

end WebRtcRuntime

abbrev WebRtcTransition := Transition WebRtcRuntime WebRtcEvent (List RtcEffect)

abbrev WebRtcRun (json : FrameJson) (config : WebRtcTransportConfig) (tr : List WebRtcTransition)
    (r : WebRtcRuntime) : Prop :=
  Trace (WebRtcRuntime.step json config) .empty tr r

/-- The peer an event is about: the one a command names, or the one for which
the callback was set. -/
def WebRtcEvent.peer? (r : WebRtcRuntime) : WebRtcEvent → Option String
  | .createOffer peerId _ | .handleRemoteSignal peerId _ _ | .sendMediaFrame peerId _ _ _ =>
    some peerId
  | .onIceCandidate connection _ | .onStateChange connection _ | .onDataChannel connection _ =>
    r.connectionPeer.lookup connection
  | .onMessage channel _ => (r.channelPeer.lookup channel).map Prod.fst

/-- What is done is done to the connection and the channels of the peer, and
what leaves the runtime bears its name; a connection is asked for when the peer
has none `before`. -/
def RtcEffect.Serves (config : WebRtcTransportConfig) (before r : WebRtcRuntime)
    (peerId : String) : RtcEffect → Prop
  | .newPeerConnection servers =>
    before.peers.lookup peerId = none ∧ servers = rtcConfiguration config
  | .createDataChannel connection _ | .createDescription connection _
  | .setLocalDescription connection _ | .setRemoteDescription connection _ _
  | .addIceCandidate connection _ _ _ => r.peers.lookup peerId = some connection
  | .send channel _ => ∃ connection, r.channelPeer.lookup channel = some (peerId, connection)
  | .outgoing other _ | .incoming other _ | .connectionState other _ => other = peerId
  | .reply _ => True

namespace WebRtcRuntime

/-- Every peer has a connection of its own, and its channels are on it. -/
structure Linked (r : WebRtcRuntime) : Prop where
  inverse : Inverse r.peers r.connectionPeer
  channel : ∀ channel peerId connection, r.channelPeer.lookup channel = some (peerId, connection) →
    r.peers.lookup peerId = some connection
  media : ∀ peerId channel, r.dataChannels.lookup peerId = some channel →
    ∃ connection, r.channelPeer.lookup channel = some (peerId, connection)

/-- Connections and channels stay with their peers. -/
structure Keeps (r r' : WebRtcRuntime) : Prop where
  peers : ∀ peerId connection, r.peers.lookup peerId = some connection →
    r'.peers.lookup peerId = some connection
  connections : ∀ connection peerId, r.connectionPeer.lookup connection = some peerId →
    r'.connectionPeer.lookup connection = some peerId
  channels : ∀ channel owner, r.channelPeer.lookup channel = some owner →
    r'.channelPeer.lookup channel = some owner

section

variable {json : FrameJson} {config : WebRtcTransportConfig} {before r r' r'' : WebRtcRuntime}
  {peerId : String} {effects : List RtcEffect} {answers : RtcAnswers}

theorem Keeps.refl (r : WebRtcRuntime) : r.Keeps r :=
  ⟨fun _ _ h => h, fun _ _ h => h, fun _ _ h => h⟩

theorem Keeps.trans (h : r.Keeps r') (h' : r'.Keeps r'') : r.Keeps r'' :=
  ⟨fun _ _ hp => h'.peers _ _ (h.peers _ _ hp),
    fun _ _ hc => h'.connections _ _ (h.connections _ _ hc),
    fun _ _ hc => h'.channels _ _ (h.channels _ _ hc)⟩

theorem Keeps.serves (h : r.Keeps r') {effect : RtcEffect} (hserves : effect.Serves config before r peerId) :
    effect.Serves config before r' peerId := by
  cases effect with
  | createDataChannel => exact h.peers _ _ hserves
  | createDescription => exact h.peers _ _ hserves
  | setLocalDescription => exact h.peers _ _ hserves
  | setRemoteDescription => exact h.peers _ _ hserves
  | addIceCandidate => exact h.peers _ _ hserves
  | send channel =>
    obtain ⟨connection, hchannel⟩ := hserves
    exact ⟨connection, h.channels _ _ hchannel⟩
  | _ => exact hserves

theorem Keeps.peer? (h : r.Keeps r') {e : WebRtcEvent} (he : e.peer? r = some peerId) :
    e.peer? r' = some peerId := by
  cases e with
  | onIceCandidate => exact h.connections _ _ he
  | onStateChange => exact h.connections _ _ he
  | onDataChannel => exact h.connections _ _ he
  | onMessage =>
    obtain ⟨owner, howner, rfl⟩ := Option.map_eq_some_iff.mp he
    exact Option.map_eq_some_iff.mpr ⟨owner, h.channels _ _ howner, rfl⟩
  | _ => exact he

theorem linked_empty : Linked empty where
  inverse := inverse_empty
  channel channel peerId connection h := by
    rw [empty, Finmap.lookup_empty] at h
    cases h
  media peerId channel h := by
    rw [empty, Finmap.lookup_empty] at h
    cases h

/-- What a request for the connection of a peer leads to. -/
theorem peerConnection_spec {created connection : Option Nat} (hlinked : r.Linked)
    (h : r.peerConnection config peerId created = some (connection, effects, r')) :
    r'.Linked ∧ r.Keeps r' ∧ r'.dataChannels = r.dataChannels ∧ r'.channelPeer = r.channelPeer ∧
      (∀ connection' ∈ connection, r'.peers.lookup peerId = some connection') ∧
      ∀ effect ∈ effects, effect.Serves config r r' peerId := by
  unfold peerConnection at h
  split at h
  · rename_i connection' hconnection
    cases h
    refine ⟨hlinked, .refl r, rfl, rfl, ?_, by simp⟩
    rintro connection'' hmem
    cases hmem
    exact hconnection
  · rename_i hnone
    split at h
    · cases h
      exact ⟨hlinked, .refl r, rfl, rfl, by simp, by simp [RtcEffect.Serves, hnone]⟩
    · rename_i connection'
      split_ifs at h with hused
      cases h
      rw [Bool.not_eq_true, Option.isSome_eq_false_iff, Option.isNone_iff_eq_none] at hused
      have hkeeps : ∀ other connection, r.peers.lookup other = some connection →
          (r.peers.insert peerId connection').lookup other = some connection := by
        intro other connection hother
        have hne : other ≠ peerId := by
          rintro rfl
          rw [hnone] at hother
          cases hother
        rw [lookup_insert_eq, if_neg hne, hother]
      refine ⟨⟨hlinked.inverse.insert hnone hused, fun channel other connection hchannel =>
        hkeeps _ _ (hlinked.channel channel other connection hchannel), hlinked.media⟩,
        ⟨hkeeps, ?_, fun _ _ hc => hc⟩, rfl, rfl, ?_, by simp [RtcEffect.Serves, hnone]⟩
      · intro connection other hconnection
        have hne : connection ≠ connection' := by
          rintro rfl
          rw [hused] at hconnection
          cases hconnection
        rw [lookup_insert_eq, if_neg hne, hconnection]
      · rintro connection'' hmem
        cases hmem
        exact Finmap.lookup_insert _

theorem registerDataChannel_spec {connection channel : Nat} (hlinked : r.Linked)
    (hconnection : r.peers.lookup peerId = some connection)
    (h : r.registerDataChannel peerId connection channel = some r') :
    r'.Linked ∧ r.Keeps r' ∧ r'.dataChannels = r.dataChannels.insert peerId channel ∧
      r'.channelPeer = r.channelPeer.insert channel (peerId, connection) := by
  unfold registerDataChannel at h
  split_ifs at h with hused
  cases h
  rw [Bool.not_eq_true, Option.isSome_eq_false_iff, Option.isNone_iff_eq_none] at hused
  have hkeeps : ∀ other owner, r.channelPeer.lookup other = some owner →
      (r.channelPeer.insert channel (peerId, connection)).lookup other = some owner := by
    intro other owner hother
    have hne : other ≠ channel := by
      rintro rfl
      rw [hused] at hother
      cases hother
    rw [lookup_insert_eq, if_neg hne, hother]
  refine ⟨⟨hlinked.inverse, ?_, ?_⟩, ⟨fun _ _ hp => hp, fun _ _ hc => hc, hkeeps⟩, rfl, rfl⟩
  · intro other otherPeer otherConnection hother
    rw [lookup_insert_eq] at hother
    split_ifs at hother
    · cases hother
      exact hconnection
    · exact hlinked.channel _ _ _ hother
  · intro other otherChannel hother
    rw [lookup_insert_eq] at hother
    split_ifs at hother with hsame
    · cases hother
      subst hsame
      exact ⟨connection, Finmap.lookup_insert _⟩
    · obtain ⟨otherConnection, howner⟩ := hlinked.media _ _ hother
      exact ⟨otherConnection, hkeeps _ _ howner⟩

theorem describe_serves {connection : Nat} (h : r.peers.lookup peerId = some connection)
    (isOffer : Bool) (what : String) (answers : RtcAnswers) (signal : String → WebRtcSignal) :
    ∀ effect ∈ describe connection isOffer what answers signal, effect.Serves config before r peerId := by
  unfold describe
  split
  · simp [RtcEffect.Serves, h]
  · simp [RtcEffect.Serves, h]

theorem setRemote_serves {connection : Nat} (h : r.peers.lookup peerId = some connection)
    (sdp : String) (isOffer : Bool) (what : String) (answers : RtcAnswers) {rest : List RtcEffect}
    (hrest : ∀ effect ∈ rest, effect.Serves config before r peerId) :
    ∀ effect ∈ setRemote connection sdp isOffer what answers rest, effect.Serves config before r peerId := by
  unfold setRemote
  split_ifs
  · simp [RtcEffect.Serves]
  · simp [RtcEffect.Serves, h]
  · exact List.forall_mem_cons.mpr ⟨h, hrest⟩

theorem applySignal_serves {connection : Nat} (h : r.peers.lookup peerId = some connection)
    (answers : RtcAnswers) (signal : WebRtcSignal) :
    ∀ effect ∈ applySignal connection answers signal, effect.Serves config before r peerId := by
  cases signal with
  | offer sdp => exact setRemote_serves h _ _ _ _ (describe_serves h _ _ _ _)
  | answer sdp => exact setRemote_serves h _ _ _ _ (by simp [RtcEffect.Serves])
  | iceCandidate => simp [applySignal, RtcEffect.Serves, h]
  | iceComplete => simp [applySignal, RtcEffect.Serves]

/-- The channel that an offer registers: there is one when the peer has a
connection or gets one. -/
def offeredChannel (r : WebRtcRuntime) (peerId : String) (answers : RtcAnswers) : Option Nat :=
  if (r.peers.lookup peerId).isSome || answers.connection.isSome then answers.channel else none

theorem peerConnection_isSome {created connection : Option Nat}
    (h : r.peerConnection config peerId created = some (connection, effects, r')) :
    connection.isSome = ((r.peers.lookup peerId).isSome || created.isSome) := by
  unfold peerConnection at h
  split at h
  · rename_i hconnection
    cases h
    simp [hconnection]
  · rename_i hnone
    split at h
    · cases h
      simp [hnone]
    · split_ifs at h
      cases h
      simp

theorem createOffer_spec (hlinked : r.Linked)
    (h : r.createOffer config peerId answers = some (effects, r')) :
    r'.Linked ∧ r.Keeps r' ∧ (∀ effect ∈ effects, effect.Serves config r r' peerId) ∧
      r'.dataChannels =
        (r.offeredChannel peerId answers).elim r.dataChannels (r.dataChannels.insert peerId) ∧
      ∀ channel owner, r'.channelPeer.lookup channel = some owner →
        r.channelPeer.lookup channel = some owner ∨
          owner.1 = peerId ∧ r.offeredChannel peerId answers = some channel := by
  obtain ⟨⟨connection, asked, middle⟩, hconnection, h⟩ := Option.bind_eq_some_iff.mp h
  obtain ⟨hmiddle, hkeeps, hchannels, howners, hpeer, hasked⟩ :=
    peerConnection_spec hlinked hconnection
  have hsome := peerConnection_isSome hconnection
  cases connection with
  | none =>
    cases h
    rw [offeredChannel, ← hsome]
    exact ⟨hmiddle, hkeeps, hasked, hchannels, fun channel owner howner => .inl (howners ▸ howner)⟩
  | some connection =>
    have hpeer := hpeer connection rfl
    rw [offeredChannel, ← hsome, Option.isSome_some, if_pos rfl]
    have hcreate : ∀ effect ∈ asked ++ [.createDataChannel connection "voicers-media"],
        effect.Serves config r middle peerId := by
      rw [List.forall_mem_append]
      exact ⟨hasked, List.forall_mem_singleton.mpr hpeer⟩
    rcases hchannel : answers.channel with _ | channel
    · simp only [hchannel] at h
      cases h
      refine ⟨hmiddle, hkeeps, ?_, hchannels, fun channel owner howner => .inl (howners ▸ howner)⟩
      exact List.forall_mem_append.mpr ⟨hcreate, List.forall_mem_singleton.mpr trivial⟩
    · simp only [hchannel] at h
      obtain ⟨last, hregister, h⟩ := Option.bind_eq_some_iff.mp h
      cases h
      obtain ⟨hlast, hkeepsLast, hdata, howner⟩ := registerDataChannel_spec hmiddle hpeer hregister
      refine ⟨hlast, hkeeps.trans hkeepsLast, ?_, by rw [hdata, hchannels]; rfl, ?_⟩
      · rw [List.forall_mem_append]
        exact ⟨fun effect hmem => hkeepsLast.serves (hcreate effect hmem),
          describe_serves (hkeepsLast.peers _ _ hpeer) _ _ _ _⟩
      · intro other owner hother
        rw [howner, howners, lookup_insert_eq] at hother
        split_ifs at hother with hsame
        · cases hother
          exact .inr ⟨rfl, congrArg some hsame.symm⟩
        · exact .inl hother

theorem handleRemoteSignal_spec {signal : WebRtcSignal} (hlinked : r.Linked)
    (h : r.handleRemoteSignal config peerId signal answers = some (effects, r')) :
    r'.Linked ∧ r.Keeps r' ∧ (∀ effect ∈ effects, effect.Serves config r r' peerId) ∧
      r'.dataChannels = r.dataChannels ∧ r'.channelPeer = r.channelPeer := by
  unfold handleRemoteSignal at h
  split_ifs at h
  · cases h
    exact ⟨hlinked, .refl r, List.forall_mem_singleton.mpr trivial, rfl, rfl⟩
  · obtain ⟨⟨connection, asked, middle⟩, hconnection, h⟩ := Option.bind_eq_some_iff.mp h
    obtain ⟨hmiddle, hkeeps, hchannels, howners, hpeer, hasked⟩ :=
      peerConnection_spec hlinked hconnection
    cases connection with
    | none =>
      cases h
      exact ⟨hmiddle, hkeeps, hasked, hchannels, howners⟩
    | some connection =>
      cases h
      refine ⟨hmiddle, hkeeps, ?_, hchannels, howners⟩
      exact List.forall_mem_append.mpr ⟨hasked, applySignal_serves (hpeer connection rfl) _ _⟩

theorem sendMediaFrame_serves (hlinked : r.Linked) (json : FrameJson) (frame : MediaFrame)
    (isOpen sent : Bool) :
    ∀ effect ∈ r.sendMediaFrame json peerId frame isOpen sent, effect.Serves config before r peerId := by
  unfold sendMediaFrame
  split
  · simp [RtcEffect.Serves]
  · rename_i channel hchannel
    have howner := hlinked.media _ _ hchannel
    cases isOpen
    · simp [RtcEffect.Serves]
    · simpa [RtcEffect.Serves] using howner

/-- The channel that an event registers for the media of a peer. -/
def registers (peerId : String) (r : WebRtcRuntime) : WebRtcEvent → Option Nat
  | .createOffer other answers => if other = peerId then r.offeredChannel other answers else none
  | .onDataChannel connection channel =>
    if r.connectionPeer.lookup connection = some peerId then some channel else none
  | .handleRemoteSignal _ _ _ | .sendMediaFrame _ _ _ _ | .onIceCandidate _ _ | .onStateChange _ _
  | .onMessage _ _ => none

/-- What every event keeps, for whom it works, and which channels it changes. -/
structure StepSpec (config : WebRtcTransportConfig) (r : WebRtcRuntime) (e : WebRtcEvent) (effects : List RtcEffect)
    (r' : WebRtcRuntime) : Prop where
  linked : r'.Linked
  keeps : r.Keeps r'
  serves : ∃ peerId, e.peer? r' = some peerId ∧ ∀ effect ∈ effects, effect.Serves config r r' peerId
  channels : ∀ peerId, r'.dataChannels.lookup peerId =
    (registers peerId r e).or (r.dataChannels.lookup peerId)
  origin : ∀ channel owner, r'.channelPeer.lookup channel = some owner →
    r.channelPeer.lookup channel = some owner ∨ registers owner.1 r e = some channel

theorem step_spec {e : WebRtcEvent} (hlinked : r.Linked)
    (h : r.step json config e = some (effects, r')) : StepSpec config r e effects r' := by
  cases e with
  | createOffer peerId answers =>
    obtain ⟨hlinked', hkeeps, hserves, hchannels, horigin⟩ := createOffer_spec hlinked h
    refine ⟨hlinked', hkeeps, ⟨peerId, rfl, hserves⟩, fun other => ?_, fun channel owner howner => ?_⟩
    · rw [hchannels, registers]
      cases r.offeredChannel peerId answers with
      | none => simp
      | some channel =>
        rw [Option.elim_some, lookup_insert_eq]
        by_cases hother : peerId = other
        · simp [hother]
        · simp [hother, Ne.symm hother]
    · refine (horigin channel owner howner).imp_right fun ⟨hpeer, hoffered⟩ => ?_
      rw [registers, if_pos hpeer.symm, hoffered]
  | handleRemoteSignal peerId signal answers =>
    obtain ⟨hlinked', hkeeps, hserves, hchannels, howners⟩ := handleRemoteSignal_spec hlinked h
    exact ⟨hlinked', hkeeps, ⟨peerId, rfl, hserves⟩, fun other => by rw [hchannels]; rfl,
      fun channel owner howner => .inl (howners ▸ howner)⟩
  | sendMediaFrame peerId frame isOpen sent =>
    cases h
    exact ⟨hlinked, .refl r, ⟨peerId, rfl, sendMediaFrame_serves hlinked json frame isOpen sent⟩,
      fun other => rfl, fun _ _ => .inl⟩
  | onIceCandidate connection gathered =>
    obtain ⟨peerId, hpeer, h⟩ := Option.bind_eq_some_iff.mp h
    cases h
    exact ⟨hlinked, .refl r, ⟨peerId, hpeer, by simp [RtcEffect.Serves]⟩, fun other => rfl,
      fun _ _ => .inl⟩
  | onStateChange connection state =>
    obtain ⟨peerId, hpeer, h⟩ := Option.bind_eq_some_iff.mp h
    cases h
    exact ⟨hlinked, .refl r, ⟨peerId, hpeer, by simp [RtcEffect.Serves]⟩, fun other => rfl,
      fun _ _ => .inl⟩
  | onDataChannel connection channel =>
    obtain ⟨peerId, hpeer, h⟩ := Option.bind_eq_some_iff.mp h
    obtain ⟨registered, hregister, h⟩ := Option.bind_eq_some_iff.mp h
    cases h
    obtain ⟨hlinked', hkeeps, hdata, howners⟩ :=
      registerDataChannel_spec hlinked ((hlinked.inverse _ _).mpr hpeer) hregister
    refine ⟨hlinked', hkeeps, ⟨peerId, hkeeps.connections _ _ hpeer, by simp⟩, fun other => ?_,
      fun other owner howner => ?_⟩
    · rw [hdata, registers, hpeer, lookup_insert_eq]
      by_cases hother : peerId = other
      · simp [hother]
      · simp [hother, Ne.symm hother]
    · rw [howners, lookup_insert_eq] at howner
      split_ifs at howner with hsame
      · cases howner
        exact .inr (by rw [registers, if_pos hpeer, hsame])
      · exact .inl howner
  | onMessage channel data =>
    obtain ⟨owner, howner, h⟩ := Option.bind_eq_some_iff.mp h
    cases h
    refine ⟨hlinked, .refl r, ⟨owner.1, ?_, by simp [RtcEffect.Serves]⟩, fun other => rfl,
      fun _ _ => .inl⟩
    exact Option.map_eq_some_iff.mpr ⟨owner, howner, rfl⟩

end

section

variable {json : FrameJson} {config : WebRtcTransportConfig} {r r' : WebRtcRuntime}
  {tr : List WebRtcTransition}

theorem linked_run (hrun : Trace (WebRtcRuntime.step json config) r tr r') (h : r.Linked) :
    r'.Linked :=
  hrun.invariant (fun _ _ _ _ hlinked hstep => (step_spec hlinked hstep).linked) h

theorem keeps_run (hrun : Trace (WebRtcRuntime.step json config) r tr r') (h : r.Linked) :
    r.Keeps r' := by
  have hboth := hrun.invariant (I := fun s => r.Linked → s.Linked ∧ r.Keeps s) (by
    intro s e effects t hs hstep hlinked
    obtain ⟨hslinked, hkeeps⟩ := hs hlinked
    have hspec := step_spec hslinked hstep
    exact ⟨hspec.linked, hkeeps.trans hspec.keeps⟩) (fun hlinked => ⟨hlinked, .refl r⟩)
  exact (hboth h).2

/-- The media of a peer goes over the channel that was registered last. -/
theorem dataChannels_run (hrun : WebRtcRun json config tr r) (peerId : String) :
    r.dataChannels.lookup peerId =
      (tr.filterMap fun x => registers peerId x.before x.input).getLast? := by
  have hall : r.Linked ∧ r.dataChannels.lookup peerId =
      (tr.filterMap fun x => registers peerId x.before x.input).getLast? := by
    refine hrun.snoc_induction (P := fun tr r => r.Linked ∧ r.dataChannels.lookup peerId =
      (tr.filterMap fun x => registers peerId x.before x.input).getLast?)
      ⟨linked_empty, Finmap.lookup_empty _⟩ ?_
    rintro tr x - hstep ⟨hlinked, ih⟩
    have hspec := step_spec hlinked hstep
    refine ⟨hspec.linked, ?_⟩
    rw [hspec.channels, List.filterMap_append, ih]
    cases hregisters : registers peerId x.before x.input with
    | none => simp [hregisters]
    | some channel => simp [hregisters]
  exact hall.2

/-- Every channel with a callback was registered for the peer of the callback. -/
theorem channelPeer_run (hrun : WebRtcRun json config tr r) {channel : Nat}
    {owner : String × Nat} (h : r.channelPeer.lookup channel = some owner) :
    ∃ y ∈ tr, registers owner.1 y.before y.input = some channel := by
  have hall : r.Linked ∧ ∀ channel owner, r.channelPeer.lookup channel = some owner →
      ∃ y ∈ tr, registers owner.1 y.before y.input = some channel := by
    refine hrun.snoc_induction (P := fun tr r => r.Linked ∧ ∀ channel owner,
      r.channelPeer.lookup channel = some owner →
        ∃ y ∈ tr, registers owner.1 y.before y.input = some channel) ⟨linked_empty, ?_⟩ ?_
    · intro channel owner howner
      rw [empty, Finmap.lookup_empty] at howner
      cases howner
    · rintro tr x - hstep ⟨hlinked, ih⟩
      have hspec := step_spec hlinked hstep
      refine ⟨hspec.linked, fun channel owner howner => ?_⟩
      rcases hspec.origin channel owner howner with hold | hnew
      · obtain ⟨y, hy, hregistered⟩ := ih channel owner hold
        exact ⟨y, List.mem_append_left _ hy, hregistered⟩
      · exact ⟨x, List.mem_append_right _ List.mem_cons_self, hnew⟩
  exact hall.2 channel owner h

end

end WebRtcRuntime

section

variable {json : FrameJson} {config : WebRtcTransportConfig} {r : WebRtcRuntime}
  {tr : List WebRtcTransition}

/-- Peers do not get into each other's way, whatever the order of commands and
callbacks: each has one connection, the same from the first use on; what an
event does, it does to the connection and the channels of its peer, and what it
tells the network task bears the name of that peer. -/
theorem webrtc_isolated (hrun : WebRtcRun json config tr r) :
    (∀ x ∈ tr, ∃ peerId, x.input.peer? r = some peerId ∧
      (∀ effect ∈ x.output, effect.Serves config x.before r peerId) ∧
      ∀ connection, x.before.peers.lookup peerId = some connection →
        r.peers.lookup peerId = some connection) ∧
    ∀ peerId other connection, r.peers.lookup peerId = some connection →
      r.peers.lookup other = some connection → peerId = other := by
  have hlinked := WebRtcRuntime.linked_run hrun WebRtcRuntime.linked_empty
  refine ⟨?_, fun _ _ _ hpeer hother => hlinked.inverse.injective hpeer hother⟩
  intro x hx
  obtain ⟨pre, post, rfl⟩ := List.append_of_mem hx
  obtain ⟨hpre, hstep, hpost⟩ := hrun.split
  have hbefore := WebRtcRuntime.linked_run hpre WebRtcRuntime.linked_empty
  have hspec := WebRtcRuntime.step_spec hbefore hstep
  have hkeeps := WebRtcRuntime.keeps_run hpost hspec.linked
  obtain ⟨peerId, hpeer, hserves⟩ := hspec.serves
  refine ⟨peerId, hkeeps.peer? hpeer, fun effect hmem => hkeeps.serves (hserves effect hmem), ?_⟩
  exact fun connection hconnection => hkeeps.peers _ _ (hspec.keeps.peers _ _ hconnection)

/-- The channel on which the media of a peer goes after a run: the last one
that was registered for it, open or not. -/
def mediaChannel (peerId : String) (tr : List WebRtcTransition) : Option Nat :=
  (tr.filterMap fun x => WebRtcRuntime.registers peerId x.before x.input).getLast?

/-- A frame goes out on the media channel of its peer when that is open, and on
no other one; and a frame that comes in on a channel is passed on as it was
written, under the name of the peer for which the channel was registered. -/
theorem media_frames_carried (hrun : WebRtcRun json config tr r) : Along (fun pre x =>
    (∀ peerId frame isOpen sent, x.input = .sendMediaFrame peerId frame isOpen sent →
      (mediaChannel peerId pre = none → x.output =
        [.reply (.error ("WebRTC media channel is not available for " ++ peerId))]) ∧
      ∀ channel, mediaChannel peerId pre = some channel → x.output =
        if isOpen then [.send channel (json.toVec frame),
          .reply (if sent then .ok [] else .error "failed to send WebRTC media frame")]
        else [.reply (.error ("WebRTC media channel for " ++ peerId ++ " is not open"))]) ∧
    ∀ channel frame, x.input = .onMessage channel (json.toVec frame) →
      ∃ peerId, x.output = [.incoming peerId frame] ∧
        ∃ y ∈ pre, WebRtcRuntime.registers peerId y.before y.input = some channel) tr := by
  rintro pre x post rfl
  obtain ⟨hpre, hstep, -⟩ := hrun.split
  constructor
  · intro peerId frame isOpen sent hinput
    rw [mediaChannel, ← WebRtcRuntime.dataChannels_run hpre peerId]
    rw [hinput, WebRtcRuntime.step, Option.some.injEq, Prod.mk.injEq,
      WebRtcRuntime.sendMediaFrame] at hstep
    refine ⟨fun hnone => ?_, fun channel hchannel => ?_⟩
    · rw [← hstep.1, hnone]
    · rw [← hstep.1, hchannel]
      cases isOpen
      · rfl
      · rfl
  · intro channel frame hinput
    rw [hinput] at hstep
    obtain ⟨owner, howner, hout⟩ := Option.bind_eq_some_iff.mp hstep
    rw [json.fromSlice_toVec, Option.some.injEq, Prod.mk.injEq] at hout
    exact ⟨owner.1, hout.1.symm, WebRtcRuntime.channelPeer_run hpre howner⟩

end

/-- The numbers of a frame. -/
def MediaFrame.fields (frame : MediaFrame) : Nat × Nat × Nat × Bool × Nat × Nat × Nat × List Nat :=
  (frame.sequence.toNat, frame.timestampMs.toNat, frame.timestampSamples.toNat,
    frame.frameKind = .probe, frame.sampleRateHz.toNat, frame.channels.toNat,
    frame.frameDurationMs.toNat, frame.payload.map UInt8.toNat)

def MediaFrame.ofFields : Nat × Nat × Nat × Bool × Nat × Nat × Nat × List Nat → MediaFrame
  | (sequence, timestampMs, timestampSamples, isProbe, sampleRateHz, channels, frameDurationMs,
      payload) =>
    ⟨.ofNat sequence, .ofNat timestampMs, .ofNat timestampSamples,
      if isProbe then .probe else .audioOpus, .ofNat sampleRateHz, .ofNat channels,
      .ofNat frameDurationMs, payload.map UInt8.ofNat⟩

theorem MediaFrame.ofFields_fields (frame : MediaFrame) : ofFields frame.fields = frame := by
  obtain ⟨sequence, timestampMs, timestampSamples, frameKind, sampleRateHz, channels,
    frameDurationMs, payload⟩ := frame
  cases frameKind <;> simp [fields, ofFields, Function.comp_def]

def answeredFrame : MediaFrame := ⟨42, 1234, 0, .audioOpus, 48000, 1, 20, [1, 2, 3, 4]⟩

/-- The JSON of that frame; every other frame is its fields as one number, in unary. -/
def sampleFrameJson : FrameJson where
  toVec frame :=
    if frame = answeredFrame then
      ("\x7b\"sequence\":42,\"timestamp_ms\":1234,\"timestamp_samples\":0," ++
        "\"frame_kind\":\"AudioOpus\",\"sample_rate_hz\":48000,\"channels\":1," ++
        "\"frame_duration_ms\":20,\"payload\":[1,2,3,4]\x7d").toList.map fun c => UInt8.ofNat c.toNat
    else List.replicate (Encodable.encode frame.fields) 0
  fromSlice bytes :=
    if bytes.head? = some 0x7b then some answeredFrame
    else (Encodable.decode bytes.length).map MediaFrame.ofFields
  fromSlice_toVec frame := by
    by_cases hframe : frame = answeredFrame
    · rw [if_pos hframe, hframe]
      decide +kernel
    · rw [if_neg hframe, if_neg, List.length_replicate, Encodable.encodek, Option.map_some,
        MediaFrame.ofFields_fields]
      rw [List.head?_replicate]
      split_ifs
      · exact nofun
      · decide

/-- The library answers with these numbers, and nothing fails. -/
def rtcAnswers (connection channel : Nat) : RtcAnswers :=
  ⟨some connection, some channel, some "v=0", true, true, true, true⟩

/-- Two peers are called; the first one opens a channel of its own, and sends
on the one it was offered. -/
def twoCalls : List WebRtcEvent :=
  [.createOffer "bob" (rtcAnswers 0 0), .handleRemoteSignal "bob" (.answer "v=0") (rtcAnswers 9 9),
    .onIceCandidate 0 .complete, .createOffer "cleo" (rtcAnswers 1 1), .onDataChannel 0 2,
    .onMessage 0 (sampleFrameJson.toVec answeredFrame)]

theorem webrtc_isolated_twoCalls : ∃ (tr : List WebRtcTransition) (r : WebRtcRuntime),
    WebRtcRun sampleFrameJson ⟨[], []⟩ tr r ∧ r.peers.lookup "bob" = some 0 ∧
      r.peers.lookup "cleo" = some 1 ∧ ∀ x ∈ tr, ∃ peerId, x.input.peer? r = some peerId ∧
        ∀ effect ∈ x.output, effect.Serves ⟨[], []⟩ x.before r peerId := by
  have hrun : (execute (WebRtcRuntime.step sampleFrameJson ⟨[], []⟩) .empty twoCalls).map
      (fun r => (r.2.peers.lookup "bob", r.2.peers.lookup "cleo")) = some (some 0, some 1) := by
    decide +kernel
  obtain ⟨r, hr, hpeers⟩ := Option.map_eq_some_iff.mp hrun
  obtain ⟨hbob, hcleo⟩ := Prod.mk.inj hpeers
  have htr : WebRtcRun sampleFrameJson ⟨[], []⟩ r.1 r.2 := execute_trace hr
  refine ⟨r.1, r.2, htr, hbob, hcleo, fun x hx => ?_⟩
  obtain ⟨peerId, hpeer, hserves, -⟩ := (webrtc_isolated htr).1 x hx
  exact ⟨peerId, hpeer, hserves⟩

theorem media_frames_carried_twoCalls : ∃ (pre : List WebRtcTransition) (x : WebRtcTransition),
    WebRtcRun sampleFrameJson ⟨[], []⟩ (pre ++ [x]) x.after ∧ mediaChannel "bob" pre = some 2 ∧
      x.output = [.send 2 (sampleFrameJson.toVec answeredFrame), .reply (.ok [])] := by
  have hrun : (execute (WebRtcRuntime.step sampleFrameJson ⟨[], []⟩) .empty twoCalls).map
      (fun r => mediaChannel "bob" r.1) = some (some 2) := by
    decide +kernel
  obtain ⟨⟨pre, r⟩, hr, hchannel⟩ := Option.map_eq_some_iff.mp hrun
  have htr : WebRtcRun sampleFrameJson ⟨[], []⟩ (pre ++ [⟨r, .sendMediaFrame "bob" answeredFrame
      true true, r.sendMediaFrame sampleFrameJson "bob" answeredFrame true true, r⟩]) r :=
    Trace.append_iff.mpr ⟨r, execute_trace hr, .cons rfl (.nil r)⟩
  refine ⟨pre, _, htr, hchannel, ?_⟩
  exact ((media_frames_carried htr pre _ [] rfl).1 "bob" answeredFrame true true rfl).2 2 hchannel

end Voicers
