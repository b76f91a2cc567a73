import Voicers.App.PeerRequests
import Voicers.Lib.Post
import Voicers.Network.Mesh
import Voicers.Network.WebRtcRuntime

/-! WebRTC signalling between daemons (`network.rs`, `network/swarm_events.rs`,
`app.rs`, in the build with the WebRTC transport). A daemon sends the offers and
answers of its runtime, the candidates that its callbacks have queued, and what
its user types; the signals are delivered or lost in any order. -/

namespace Voicers

open Lib

variable {lib : Libp2p}

def WebRtcSignal.kind : WebRtcSignal → String
  | .offer _ => "offer"
  | .answer _ => "answer"
  | .iceCandidate _ _ _ => "ice-candidate"
  | .iceComplete => "ice-complete"

/-- A daemon as far as it takes part. `webrtc` is `none` where the runtime did
not start; `signals` wait between its callbacks and the network task. -/
structure SignalHost where
  webrtc : Option WebRtcRuntime
  signals : List (String × WebRtcSignal)

inductive SignalHostInput
  | startWebRtcOffer (peerId : String) (answers : RtcAnswers)
  | sendWebRtcSignal (peerId : String) (signal : WebRtcSignal)
  | takeSignal
  | runtime (event : WebRtcEvent)

/-- What the runtime does, and the answer to a control request. -/
structure SignalsDone where
  effects : List RtcEffect
  response : Option ControlResponse

abbrev SignalHostOutput (lib : Libp2p) := NodeOutput (PeerId lib) WebRtcSignal SignalsDone

def RtcEffect.result? : RtcEffect → Option (Except String (List WebRtcSignal))
  | .reply result => some result
  | _ => none

/-- The signal of the other side that takes effect, and on which connection. -/
def RtcEffect.applied : RtcEffect → Option (Nat × WebRtcSignal)
  | .setRemoteDescription connection sdp isOffer =>
    some (connection, if isOffer then .offer sdp else .answer sdp)
  | .addIceCandidate connection candidate sdpMid sdpMlineIndex =>
    some (connection, .iceCandidate candidate sdpMid sdpMlineIndex)
  | _ => none

/-- The reply to a command of the runtime. -/
def rtcReply (command : String) (effects : List RtcEffect) : Except String (List WebRtcSignal) :=
  (effects.findSome? RtcEffect.result?).getD
    (.error ("WebRTC runtime dropped " ++ command ++ " response"))

def RtcEffect.outgoing? : RtcEffect → Option (String × WebRtcSignal)
  | .outgoing peerId signal => some (peerId, signal)
  | _ => none

/-- What the callbacks put into the queue. -/
def outgoingSignals (effects : List RtcEffect) : List (String × WebRtcSignal) :=
  effects.filterMap RtcEffect.outgoing?

/-- `send_webrtc_signal`, for each of the signals. -/
def sendWebRtcSignals (lib : Libp2p) (peerId : String) (signals : List WebRtcSignal) :
    Except String (List (PeerId lib × WebRtcSignal)) :=
  if h : lib.isPeerId peerId = true then .ok (signals.map fun signal => (⟨peerId, h⟩, signal))
  else .error ("invalid peer id for WebRTC signal: " ++ peerId)

def WebRtcEvent.isSignalling : WebRtcEvent → Bool
  | .createOffer _ _ | .handleRemoteSignal _ _ _ => true
  | _ => false

namespace SignalHost

/-- What goes out after a command of the runtime for a peer. -/
def signalsAfter (lib : Libp2p) (peerId command : String) (effects : List RtcEffect) :
    Except String (List (PeerId lib × WebRtcSignal)) := do
  let signals ← rtcReply command effects
  sendWebRtcSignals lib peerId signals

def startWebRtcOffer (json : FrameJson) (config : WebRtcTransportConfig) (lib : Libp2p)
    (host : SignalHost) (peerId : String) (answers : RtcAnswers) :
    Option (SignalHostOutput lib × SignalHost) :=
  match host.webrtc with
  | none => some (⟨[], [], some (.error "WebRTC runtime is not available")⟩, host)
  | some r =>
    match r.step json config (.createOffer peerId answers) with
    | none => none
    | some (effects, r) =>
      let outcome := signalsAfter lib peerId "create-offer" effects
      some (⟨outcome.toOption.getD [], effects,
          some (Voicers.answer outcome fun _ => "started WebRTC offer for " ++ peerId)⟩,
        { host with webrtc := some r })

def sendWebRtcSignal (lib : Libp2p) (host : SignalHost) (peerId : String) (signal : WebRtcSignal) :
    SignalHostOutput lib × SignalHost :=
  let outcome := sendWebRtcSignals lib peerId [signal]
  (⟨outcome.toOption.getD [], [], some (Voicers.answer outcome fun _ =>
    "sent WebRTC " ++ signal.kind ++ " signal to " ++ peerId)⟩, host)

/-- The network task takes a signal out of the queue. -/
def takeSignal (lib : Libp2p) (host : SignalHost) : Option (SignalHostOutput lib × SignalHost) :=
  match host.signals with
  | [] => none
  | (peerId, signal) :: signals =>
    some (⟨(sendWebRtcSignals lib peerId [signal]).toOption.getD [], [], none⟩,
      { host with signals := signals })

/-- A callback of the runtime, or a media frame. -/
def runtimeEvent (json : FrameJson) (config : WebRtcTransportConfig) (lib : Libp2p)
    (host : SignalHost) (event : WebRtcEvent) : Option (SignalHostOutput lib × SignalHost) :=
  match host.webrtc, event.isSignalling with
  | some r, false =>
    match r.step json config event with
    | none => none
    | some (effects, r) => some (⟨[], effects, none⟩,
        { webrtc := some r, signals := host.signals ++ outgoingSignals effects })
  | _, _ => none

def onWebRtcSignal (json : FrameJson) (config : WebRtcTransportConfig) (lib : Libp2p)
    (host : SignalHost) (sender : PeerId lib) (signal : WebRtcSignal) (answers : RtcAnswers) :
    Option (SignalHostOutput lib × SignalHost) :=
  match host.webrtc with
  | none => some (⟨[], [], none⟩, host)
  | some r =>
    match r.step json config (.handleRemoteSignal sender.text signal answers) with
    | none => none
    | some (effects, r) =>
      some (⟨(signalsAfter lib sender.text "remote-signal" effects).toOption.getD [], effects, none⟩,
        { host with webrtc := some r })

def step (json : FrameJson) (config : WebRtcTransportConfig) (host : SignalHost) :
    NodeInput (PeerId lib) SignalHostInput WebRtcSignal RtcAnswers →
      Option (SignalHostOutput lib × SignalHost)
  | .own (.startWebRtcOffer peerId answers) => host.startWebRtcOffer json config lib peerId answers
  | .own (.sendWebRtcSignal peerId signal) => some (host.sendWebRtcSignal lib peerId signal)
  | .own .takeSignal => host.takeSignal lib
  | .own (.runtime event) => host.runtimeEvent json config lib event
  | .receive sender signal answers => host.onWebRtcSignal json config lib sender signal answers

/-- The connection of the runtime for a peer. -/
def connection (host : SignalHost) (peerId : String) : Option Nat :=
  host.webrtc.bind fun r => r.peers.lookup peerId

end SignalHost

namespace WebRtcRuntime

section

variable {json : FrameJson} {config : WebRtcTransportConfig} {r r' : WebRtcRuntime}
  {peerId : String} {effects : List RtcEffect} {answers : RtcAnswers} {signals : List WebRtcSignal}

theorem describe_reply {connection : Nat} {isOffer : Bool} {what : String}
    {signal : String → WebRtcSignal}
    (h : (describe connection isOffer what answers signal).findSome? RtcEffect.result? =
      some (.ok signals)) :
    ∃ sdp, signals = [signal sdp] ∧
      .setLocalDescription connection sdp ∈ describe connection isOffer what answers signal := by
  unfold describe at h ⊢
  cases hdescription : answers.description with
  | none => simp [hdescription, List.findSome?_cons, RtcEffect.result?] at h
  | some sdp =>
    refine ⟨sdp, ?_, by simp⟩
    cases hset : answers.localSet
    · simp [hdescription, hset, List.findSome?_cons, RtcEffect.result?] at h
    · simpa [hdescription, hset, List.findSome?_cons, RtcEffect.result?, eq_comm] using h

/-- A connection that is there is not asked for anything but itself. -/
theorem peerConnection_asked {created connection : Option Nat}
    (h : r.peerConnection config peerId created = some (connection, effects, r')) :
    (∀ effect ∈ effects, (∃ servers, effect = .newPeerConnection servers) ∨
      ∃ error, effect = .reply (.error error)) ∧
    (connection = none → ∃ error, effects.findSome? RtcEffect.result? = some (.error error)) ∧
    (connection ≠ none → effects.findSome? RtcEffect.result? = none) := by
  unfold peerConnection at h
  split at h
  · cases h
    simp
  · split at h
    · cases h
      simp [List.findSome?_cons, RtcEffect.result?]
    · split_ifs at h
      cases h
      simp [List.findSome?_cons, RtcEffect.result?]

theorem createOffer_reply (h : r.createOffer config peerId answers = some (effects, r'))
    (hreply : effects.findSome? RtcEffect.result? = some (.ok signals)) :
    ∃ connection sdp, signals = [.offer sdp] ∧ .setLocalDescription connection sdp ∈ effects := by
  obtain ⟨⟨connection, asked, middle⟩, hconnection, h⟩ := Option.bind_eq_some_iff.mp h
  obtain ⟨-, hnone, hsome⟩ := peerConnection_asked hconnection
  cases connection with
  | none =>
    cases h
    obtain ⟨error, herror⟩ := hnone rfl
    rw [herror] at hreply
    cases hreply
  | some connection =>
    have hasked := hsome nofun
    rcases hchannel : answers.channel with _ | channel
    · simp only [hchannel] at h
      cases h
      simp [List.findSome?_append, hasked, List.findSome?_cons, RtcEffect.result?] at hreply
    · simp only [hchannel] at h
      obtain ⟨last, hregister, h⟩ := Option.bind_eq_some_iff.mp h
      cases h
      have hdescribe : (describe connection true "offer" answers .offer).findSome?
          RtcEffect.result? = some (.ok signals) := by
        simpa [List.findSome?_append, hasked, List.findSome?_cons, RtcEffect.result?] using hreply
      obtain ⟨sdp, hsignals, hmem⟩ := describe_reply hdescribe
      exact ⟨connection, sdp, hsignals, List.mem_append_right _ hmem⟩

theorem handleRemoteSignal_reply {signal : WebRtcSignal}
    (h : r.handleRemoteSignal config peerId signal answers = some (effects, r'))
    (hreply : effects.findSome? RtcEffect.result? = some (.ok signals)) (hne : signals ≠ []) :
    ∃ offer connection sdp, signal = .offer offer ∧ signals = [.answer sdp] ∧
      .setRemoteDescription connection offer true ∈ effects ∧
      .setLocalDescription connection sdp ∈ effects := by
  unfold handleRemoteSignal at h
  split_ifs at h
  · cases h
    cases hreply
    exact absurd rfl hne
  · obtain ⟨⟨connection, asked, middle⟩, hconnection, h⟩ := Option.bind_eq_some_iff.mp h
    obtain ⟨-, hnone, hsome⟩ := peerConnection_asked hconnection
    cases connection with
    | none =>
      cases h
      obtain ⟨error, herror⟩ := hnone rfl
      rw [herror] at hreply
      cases hreply
    | some connection =>
      cases h
      rw [List.findSome?_append, hsome nofun, Option.none_or] at hreply
      cases signal with
      | offer offer =>
        cases hparsed : answers.parsed
        · simp [applySignal, setRemote, hparsed, List.findSome?_cons, RtcEffect.result?] at hreply
        · cases hset : answers.remoteSet
          · simp [applySignal, setRemote, hparsed, hset, List.findSome?_cons,
              RtcEffect.result?] at hreply
          · have hdescribe : (describe connection false "answer" answers .answer).findSome?
                RtcEffect.result? = some (.ok signals) := by
              simpa [applySignal, setRemote, hparsed, hset, List.findSome?_cons,
                RtcEffect.result?] using hreply
            obtain ⟨sdp, hsignals, hmem⟩ := describe_reply hdescribe
            exact ⟨offer, connection, sdp, rfl, hsignals,
              by simp [applySignal, setRemote, hparsed, hset],
              by simp [applySignal, setRemote, hparsed, hset, hmem]⟩
      | answer sdp =>
        cases hparsed : answers.parsed
        all_goals cases hset : answers.remoteSet
        all_goals simp [applySignal, setRemote, hparsed, hset, List.findSome?_cons,
          RtcEffect.result?, hne.symm] at hreply
      | iceCandidate =>
        cases hadded : answers.candidateAdded
        all_goals simp [applySignal, hadded, List.findSome?_cons, RtcEffect.result?,
          hne.symm] at hreply
      | iceComplete =>
        simp [applySignal, List.findSome?_cons, RtcEffect.result?, hne.symm] at hreply

/-- What is done for a signal: it takes effect where it is one of the peer, and
puts nothing into the queue. -/
theorem setRemote_quiet {connection : Nat} {sdp what : String} {isOffer : Bool}
    {rest : List RtcEffect} {effect : RtcEffect}
    (h : effect ∈ setRemote connection sdp isOffer what answers rest)
    (hrest : ∀ effect ∈ rest, effect.applied = none ∧ effect.outgoing? = none) :
    (effect.applied = none ∨ effect = .setRemoteDescription connection sdp isOffer) ∧
      effect.outgoing? = none := by
  unfold setRemote at h
  split_ifs at h
  · obtain rfl := List.mem_singleton.mp h
    exact ⟨.inl rfl, rfl⟩
  · obtain rfl | h := List.mem_cons.mp h
    · exact ⟨.inr rfl, rfl⟩
    · obtain rfl := List.mem_singleton.mp h
      exact ⟨.inl rfl, rfl⟩
  · obtain rfl | h := List.mem_cons.mp h
    · exact ⟨.inr rfl, rfl⟩
    · exact (hrest effect h).imp .inl id

theorem describe_quiet {connection : Nat} {isOffer : Bool} {what : String}
    {signal : String → WebRtcSignal} :
    ∀ effect ∈ describe connection isOffer what answers signal,
      effect.applied = none ∧ effect.outgoing? = none := by
  unfold describe
  cases answers.description with
  | none => simp [RtcEffect.applied, RtcEffect.outgoing?]
  | some sdp => simp [RtcEffect.applied, RtcEffect.outgoing?]

theorem peerConnection_quiet {created connection : Option Nat}
    (h : r.peerConnection config peerId created = some (connection, effects, r')) :
    ∀ effect ∈ effects, effect.applied = none ∧ effect.outgoing? = none := by
  intro effect hmem
  obtain ⟨servers, rfl⟩ | ⟨error, rfl⟩ := (peerConnection_asked h).1 effect hmem
  · exact ⟨rfl, rfl⟩
  · exact ⟨rfl, rfl⟩

theorem createOffer_quiet (h : r.createOffer config peerId answers = some (effects, r')) :
    ∀ effect ∈ effects, effect.applied = none ∧ effect.outgoing? = none := by
  obtain ⟨⟨connection, asked, middle⟩, hconnection, h⟩ := Option.bind_eq_some_iff.mp h
  have hasked := peerConnection_quiet hconnection
  cases connection with
  | none =>
    cases h
    exact hasked
  | some connection =>
    rcases hchannel : answers.channel with _ | channel
    · simp only [hchannel] at h
      cases h
      simp only [List.forall_mem_append, List.forall_mem_singleton]
      exact ⟨⟨hasked, rfl, rfl⟩, rfl, rfl⟩
    · simp only [hchannel] at h
      obtain ⟨last, hregister, h⟩ := Option.bind_eq_some_iff.mp h
      cases h
      simp only [List.forall_mem_append, List.forall_mem_singleton]
      exact ⟨⟨hasked, rfl, rfl⟩, describe_quiet⟩

theorem handleRemoteSignal_quiet {signal : WebRtcSignal}
    (h : r.handleRemoteSignal config peerId signal answers = some (effects, r')) :
    ∀ effect ∈ effects, (∀ connection signal', effect.applied = some (connection, signal') →
      signal' = signal) ∧ effect.outgoing? = none := by
  intro effect hmem
  unfold handleRemoteSignal at h
  split_ifs at h
  · cases h
    obtain rfl := List.mem_singleton.mp hmem
    exact ⟨nofun, rfl⟩
  · obtain ⟨⟨connection, asked, middle⟩, hconnection, h⟩ := Option.bind_eq_some_iff.mp h
    have hasked := peerConnection_quiet hconnection
    have hquiet (hnone : effect.applied = none ∧ effect.outgoing? = none) :
        (∀ connection signal', effect.applied = some (connection, signal') → signal' = signal) ∧
          effect.outgoing? = none :=
      ⟨fun _ _ happlied => absurd (hnone.1.symm.trans happlied) nofun, hnone.2⟩
    cases connection with
    | none =>
      cases h
      exact hquiet (hasked effect hmem)
    | some connection =>
      cases h
      obtain hmem | hmem := List.mem_append.mp hmem
      · exact hquiet (hasked effect hmem)
      · cases signal with
        | offer sdp =>
          obtain ⟨hnone | rfl, hout⟩ := setRemote_quiet hmem describe_quiet
          · exact hquiet ⟨hnone, hout⟩
          · exact ⟨fun _ _ happlied => by cases happlied; rfl, rfl⟩
        | answer sdp =>
          obtain ⟨hnone | rfl, hout⟩ :=
            setRemote_quiet hmem (by simp [RtcEffect.applied, RtcEffect.outgoing?])
          · exact hquiet ⟨hnone, hout⟩
          · exact ⟨fun _ _ happlied => by cases happlied; rfl, rfl⟩
        | iceCandidate candidate sdpMid sdpMlineIndex =>
          obtain rfl | hmem := List.mem_cons.mp hmem
          · exact ⟨fun _ _ happlied => by cases happlied; rfl, rfl⟩
          · obtain rfl := List.mem_singleton.mp hmem
            exact ⟨nofun, rfl⟩
        | iceComplete =>
          obtain rfl := List.mem_singleton.mp hmem
          exact ⟨nofun, rfl⟩

/-- Only gathering puts signals into the queue, for the peer of its connection. -/
theorem callback_quiet {e : WebRtcEvent} (hcallback : e.isSignalling = false)
    (h : r.step json config e = some (effects, r')) :
    ∀ effect ∈ effects, effect.applied = none ∧ ∀ other signal,
      effect.outgoing? = some (other, signal) → ∃ connection gathered,
        e = .onIceCandidate connection gathered ∧ gatheredSignal gathered = some signal ∧
          r.connectionPeer.lookup connection = some other := by
  intro effect hmem
  cases e with
  | createOffer => cases hcallback
  | handleRemoteSignal => cases hcallback
  | sendMediaFrame peerId frame isOpen sent =>
    cases h
    have hquiet : ∀ effect ∈ r.sendMediaFrame json peerId frame isOpen sent,
        effect.applied = none ∧ effect.outgoing? = none := by
      unfold sendMediaFrame
      split
      · simp [RtcEffect.applied, RtcEffect.outgoing?]
      · cases isOpen
        all_goals simp [RtcEffect.applied, RtcEffect.outgoing?]
    obtain ⟨happlied, hout⟩ := hquiet effect hmem
    exact ⟨happlied, fun _ _ hsome => absurd (hout.symm.trans hsome) nofun⟩
  | onIceCandidate connection gathered =>
    obtain ⟨peerId, hpeer, h⟩ := Option.bind_eq_some_iff.mp h
    cases h
    obtain ⟨signal, hsignal, rfl⟩ := List.mem_map.mp hmem
    refine ⟨rfl, fun other signal' hout => ?_⟩
    cases hout
    exact ⟨connection, gathered, rfl, Option.mem_toList.mp hsignal, hpeer⟩
  | onStateChange connection state =>
    obtain ⟨peerId, hpeer, h⟩ := Option.bind_eq_some_iff.mp h
    cases h
    obtain rfl := List.mem_singleton.mp hmem
    exact ⟨rfl, nofun⟩
  | onDataChannel connection channel =>
    obtain ⟨peerId, hpeer, h⟩ := Option.bind_eq_some_iff.mp h
    obtain ⟨registered, hregister, h⟩ := Option.bind_eq_some_iff.mp h
    cases h
    cases hmem
  | onMessage channel data =>
    obtain ⟨owner, howner, h⟩ := Option.bind_eq_some_iff.mp h
    cases h
    obtain ⟨frame, hframe, rfl⟩ := List.mem_map.mp hmem
    exact ⟨rfl, nofun⟩

theorem outgoingSignals_nil (h : ∀ effect ∈ effects, effect.outgoing? = none) :
    outgoingSignals effects = [] := List.filterMap_eq_nil_iff.mpr h

end

end WebRtcRuntime

/-- The event of the runtime that an input of a daemon leads to. -/
def runtimeEvent? : NodeInput (PeerId lib) SignalHostInput WebRtcSignal RtcAnswers → Option WebRtcEvent
  | .own (.startWebRtcOffer peerId answers) => some (.createOffer peerId answers)
  | .own (.runtime event) => some event
  | .receive sender signal answers => some (.handleRemoteSignal sender.text signal answers)
  | .own (.sendWebRtcSignal _ _) | .own .takeSignal => none

/-- What is taken out of the queue. -/
def takenSignals (host : SignalHost) :
    NodeInput (PeerId lib) SignalHostInput WebRtcSignal RtcAnswers → List (String × WebRtcSignal)
  | .own .takeSignal => host.signals.take 1
  | _ => []

/-- Where a signal comes from that a daemon sends to `receiver`. -/
inductive Sends (host host' : SignalHost) (effects : List RtcEffect) (receiver : PeerId lib) :
    WebRtcSignal → NodeInput (PeerId lib) SignalHostInput WebRtcSignal RtcAnswers → Prop
  | typed (signal : WebRtcSignal) :
    Sends host host' effects receiver signal (.own (.sendWebRtcSignal receiver.text signal))
  | offered (sdp : String) (connection : Nat) (answers : RtcAnswers)
    (hlocal : .setLocalDescription connection sdp ∈ effects)
    (hconnection : host'.connection receiver.text = some connection) :
    Sends host host' effects receiver (.offer sdp) (.own (.startWebRtcOffer receiver.text answers))
  | answered (offer sdp : String) (connection : Nat) (answers : RtcAnswers)
    (hremote : .setRemoteDescription connection offer true ∈ effects)
    (hlocal : .setLocalDescription connection sdp ∈ effects)
    (hconnection : host'.connection receiver.text = some connection) :
    Sends host host' effects receiver (.answer sdp) (.receive receiver (.offer offer) answers)
  | forwarded (signal : WebRtcSignal) (signals : List (String × WebRtcSignal))
    (hqueue : host.signals = (receiver.text, signal) :: signals) :
    Sends host host' effects receiver signal (.own .takeSignal)

theorem mem_sendWebRtcSignals {peerId : String} {signals : List WebRtcSignal}
    {receiver : PeerId lib}
    {signal : WebRtcSignal}
    (h : (receiver, signal) ∈ (sendWebRtcSignals lib peerId signals).toOption.getD []) :
    peerId = receiver.text ∧ signal ∈ signals := by
  unfold sendWebRtcSignals at h
  split_ifs at h with hvalid
  · obtain ⟨signal', hmem, heq⟩ := List.mem_map.mp h
    cases heq
    exact ⟨rfl, hmem⟩
  · cases h

namespace SignalHost

theorem mem_signalsAfter {peerId command : String} {effects : List RtcEffect}
    {receiver : PeerId lib} {signal : WebRtcSignal}
    (h : (receiver, signal) ∈ (signalsAfter lib peerId command effects).toOption.getD []) :
    peerId = receiver.text ∧ ∃ signals, signal ∈ signals ∧
      effects.findSome? RtcEffect.result? = some (.ok signals) := by
  unfold signalsAfter rtcReply at h
  cases hreply : effects.findSome? RtcEffect.result? with
  | none =>
    rw [hreply] at h
    cases h
  | some result =>
    rw [hreply] at h
    cases result with
    | error error => cases h
    | ok signals =>
      obtain ⟨rfl, hmem⟩ := mem_sendWebRtcSignals h
      exact ⟨rfl, signals, hmem, rfl⟩

section

variable {json : FrameJson} {config : WebRtcTransportConfig} {host host' : SignalHost}
  {input : NodeInput (PeerId lib) SignalHostInput WebRtcSignal RtcAnswers}
  {out : SignalHostOutput lib}

def Linked (host : SignalHost) : Prop := ∀ r, host.webrtc = some r → r.Linked

/-- A daemon leaves its runtime alone or makes one step of it. -/
theorem step_runtime (h : host.step json config input = some (out, host')) :
    (out.done.effects = [] ∧ host'.webrtc = host.webrtc) ∨
    ∃ r r' event, host.webrtc = some r ∧ host'.webrtc = some r' ∧
      runtimeEvent? input = some event ∧ r.step json config event = some (out.done.effects, r') ∧
      ∀ own, input = .own (.runtime own) → event.isSignalling = false := by
  cases input with
  | own own =>
    cases own with
    | startWebRtcOffer peerId answers =>
      cases hwebrtc : host.webrtc with
      | none =>
        simp only [step, startWebRtcOffer, hwebrtc] at h
        cases h
        exact .inl ⟨rfl, hwebrtc⟩
      | some r =>
        cases hstep : r.step json config (.createOffer peerId answers) with
        | none => simp [step, startWebRtcOffer, hwebrtc, hstep] at h
        | some result =>
          simp only [step, startWebRtcOffer, hwebrtc, hstep] at h
          cases h
          exact .inr ⟨r, result.2, _, rfl, rfl, rfl, hstep, nofun⟩
    | sendWebRtcSignal peerId signal =>
      cases h
      exact .inl ⟨rfl, rfl⟩
    | takeSignal =>
      simp only [step, takeSignal] at h
      split at h
      · cases h
      · cases h
        exact .inl ⟨rfl, rfl⟩
    | runtime event =>
      simp only [step, runtimeEvent] at h
      split at h
      · rename_i r hwebrtc hcallback
        split at h
        · cases h
        · rename_i effects r' hstep
          cases h
          exact .inr ⟨r, r', event, hwebrtc, rfl, rfl, hstep, fun _ _ => hcallback⟩
      · cases h
  | receive sender signal answers =>
    cases hwebrtc : host.webrtc with
    | none =>
      simp only [step, onWebRtcSignal, hwebrtc] at h
      cases h
      exact .inl ⟨rfl, hwebrtc⟩
    | some r =>
      cases hstep : r.step json config (.handleRemoteSignal sender.text signal answers) with
      | none => simp [step, onWebRtcSignal, hwebrtc, hstep] at h
      | some result =>
        simp only [step, onWebRtcSignal, hwebrtc, hstep] at h
        cases h
        exact .inr ⟨r, result.2, _, rfl, rfl, rfl, hstep, nofun⟩

theorem connection_eq {r : WebRtcRuntime} (h : host.webrtc = some r) (peerId : String) :
    host.connection peerId = r.peers.lookup peerId := by
  rw [connection, h]
  rfl

/-- The connections stay with their peers. -/
theorem step_linked (hlinked : host.Linked) (h : host.step json config input = some (out, host')) :
    host'.Linked ∧ ∀ peerId connection, host.connection peerId = some connection →
      host'.connection peerId = some connection := by
  obtain ⟨-, hsame⟩ | ⟨r, r', event, hr, hr', -, hstep, -⟩ := step_runtime h
  · refine ⟨fun r hr => hlinked r (hsame ▸ hr), fun peerId connection hconnection => ?_⟩
    rw [SignalHost.connection, hsame]
    exact hconnection
  · have hspec := WebRtcRuntime.step_spec (hlinked r hr) hstep
    constructor
    · intro r'' hr''
      rw [hr'] at hr''
      cases hr''
      exact hspec.linked
    · intro peerId connection hconnection
      rw [connection_eq hr] at hconnection
      rw [connection_eq hr']
      exact hspec.keeps.peers _ _ hconnection

/-- What takes effect has been received, on the connection for the sender. -/
theorem step_applied (hlinked : host.Linked) (h : host.step json config input = some (out, host'))
    {effect : RtcEffect} {connection : Nat} {signal : WebRtcSignal}
    (hmem : effect ∈ out.done.effects)
    (happlied : effect.applied = some (connection, signal)) :
    ∃ sender answers, input = .receive sender signal answers ∧
      host'.connection sender.text = some connection := by
  obtain ⟨hnil, -⟩ | ⟨r, r', event, hr, hr', hevent, hstep, hcallback⟩ := step_runtime h
  · rw [hnil] at hmem
    cases hmem
  · obtain ⟨peerId, hpeer, hserves⟩ := (WebRtcRuntime.step_spec (hlinked r hr) hstep).serves
    cases input with
    | own own =>
      cases own with
      | startWebRtcOffer other answers =>
        cases hevent
        have hnone := (WebRtcRuntime.createOffer_quiet hstep effect hmem).1
        exact absurd (hnone.symm.trans happlied) nofun
      | sendWebRtcSignal other signal' => cases hevent
      | takeSignal => cases hevent
      | runtime event' =>
        cases hevent
        have hnone := (WebRtcRuntime.callback_quiet (hcallback _ rfl) hstep effect hmem).1
        exact absurd (hnone.symm.trans happlied) nofun
    | receive sender signal' answers =>
      cases hevent
      cases hpeer
      obtain rfl := (WebRtcRuntime.handleRemoteSignal_quiet hstep effect hmem).1 _ _ happlied
      refine ⟨sender, answers, rfl, ?_⟩
      have hserved := hserves effect hmem
      rw [connection_eq hr']
      cases effect with
      | setRemoteDescription => cases happlied; exact hserved
      | addIceCandidate => cases happlied; exact hserved
      | _ => cases happlied

/-- What is queued was gathered on the connection for the peer it is meant for. -/
theorem step_gathers (hlinked : host.Linked) (h : host.step json config input = some (out, host'))
    {peerId : String} {signal : WebRtcSignal}
    (hmem : (peerId, signal) ∈ outgoingSignals out.done.effects) :
    ∃ connection gathered, input = .own (.runtime (.onIceCandidate connection gathered)) ∧
      WebRtcRuntime.gatheredSignal gathered = some signal ∧
      host'.connection peerId = some connection := by
  obtain ⟨effect, heffect, hout⟩ := List.mem_filterMap.mp hmem
  obtain ⟨hnil, -⟩ | ⟨r, r', event, hr, hr', hevent, hstep, hcallback⟩ := step_runtime h
  · rw [hnil] at heffect
    cases heffect
  · have hspec := WebRtcRuntime.step_spec (hlinked r hr) hstep
    cases input with
    | own own =>
      cases own with
      | startWebRtcOffer other answers =>
        cases hevent
        have hnone := (WebRtcRuntime.createOffer_quiet hstep effect heffect).2
        exact absurd (hnone.symm.trans hout) nofun
      | sendWebRtcSignal other signal' => cases hevent
      | takeSignal => cases hevent
      | runtime event' =>
        cases hevent
        obtain ⟨connection, gathered, rfl, hsignal, hpeer⟩ :=
          (WebRtcRuntime.callback_quiet (hcallback _ rfl) hstep effect heffect).2 _ _ hout
        refine ⟨connection, gathered, rfl, hsignal, ?_⟩
        rw [connection_eq hr']
        exact hspec.keeps.peers _ _ (((hlinked r hr).inverse _ _).mpr hpeer)
    | receive sender signal' answers =>
      cases hevent
      have hnone := (WebRtcRuntime.handleRemoteSignal_quiet hstep effect heffect).2
      exact absurd (hnone.symm.trans hout) nofun

/-- The queue is first in, first out. -/
theorem step_queue (h : host.step json config input = some (out, host')) :
    host.signals ++ outgoingSignals out.done.effects = takenSignals host input ++ host'.signals := by
  cases input with
  | own own =>
    cases own with
    | startWebRtcOffer peerId answers =>
      simp only [step, startWebRtcOffer] at h
      split at h
      · cases h
        exact List.append_nil _
      · split at h
        · cases h
        · rename_i hstep
          cases h
          have hquiet := WebRtcRuntime.createOffer_quiet hstep
          have hnil := WebRtcRuntime.outgoingSignals_nil fun effect hmem => (hquiet effect hmem).2
          exact (congrArg _ hnil).trans (List.append_nil _)
    | sendWebRtcSignal peerId signal =>
      cases h
      exact List.append_nil _
    | takeSignal =>
      simp only [step, takeSignal] at h
      split at h
      · cases h
      · rename_i hqueue
        cases h
        rw [takenSignals, hqueue]
        exact List.append_nil _
    | runtime event =>
      simp only [step, runtimeEvent] at h
      split at h
      · split at h
        · cases h
        · cases h
          rfl
      · cases h
  | receive sender signal answers =>
    simp only [step, onWebRtcSignal] at h
    split at h
    · cases h
      exact List.append_nil _
    · split at h
      · cases h
      · rename_i hstep
        cases h
        have hquiet := WebRtcRuntime.handleRemoteSignal_quiet hstep
        have hnil := WebRtcRuntime.outgoingSignals_nil fun effect hmem => (hquiet effect hmem).2
        exact (congrArg _ hnil).trans (List.append_nil _)

theorem step_sends (hlinked : host.Linked) (h : host.step json config input = some (out, host'))
    {receiver : PeerId lib} {signal : WebRtcSignal} (hmem : (receiver, signal) ∈ out.sent) :
    Sends host host' out.done.effects receiver signal input := by
  cases input with
  | own own =>
    cases own with
    | startWebRtcOffer peerId answers =>
      simp only [step, startWebRtcOffer] at h
      split at h
      · cases h
        cases hmem
      · rename_i r hr
        split at h
        · cases h
        · rename_i effects r' hstep
          cases h
          obtain ⟨rfl, signals, hsignal, hreply⟩ := mem_signalsAfter hmem
          obtain ⟨connection, sdp, rfl, hlocal⟩ := WebRtcRuntime.createOffer_reply hstep hreply
          obtain ⟨peerId, hpeer, hserves⟩ := (WebRtcRuntime.step_spec (hlinked r hr) hstep).serves
          cases hpeer
          obtain rfl := List.mem_singleton.mp hsignal
          exact .offered sdp connection answers hlocal (hserves _ hlocal)
    | sendWebRtcSignal peerId signal' =>
      cases h
      obtain ⟨rfl, hsignal⟩ := mem_sendWebRtcSignals hmem
      obtain rfl := List.mem_singleton.mp hsignal
      exact .typed signal
    | takeSignal =>
      simp only [step, takeSignal] at h
      split at h
      · cases h
      · rename_i hqueue
        cases h
        obtain ⟨rfl, hsignal⟩ := mem_sendWebRtcSignals hmem
        obtain rfl := List.mem_singleton.mp hsignal
        exact .forwarded signal _ hqueue
    | runtime event =>
      simp only [step, runtimeEvent] at h
      split at h
      · split at h
        · cases h
        · cases h
          cases hmem
      · cases h
  | receive sender signal' answers =>
    simp only [step, onWebRtcSignal] at h
    split at h
    · cases h
      cases hmem
    · rename_i r hr
      split at h
      · cases h
      · rename_i effects r' hstep
        cases h
        obtain ⟨hsender, signals, hsignal, hreply⟩ := mem_signalsAfter hmem
        obtain rfl := PeerId.ext_text hsender
        obtain ⟨offer, connection, sdp, rfl, rfl, hremote, hlocal⟩ :=
          WebRtcRuntime.handleRemoteSignal_reply hstep hreply (List.ne_nil_of_mem hsignal)
        obtain ⟨peerId, hpeer, hserves⟩ := (WebRtcRuntime.step_spec (hlinked r hr) hstep).serves
        cases hpeer
        obtain rfl := List.mem_singleton.mp hsignal
        exact .answered offer sdp connection answers hremote hlocal (hserves _ hlocal)

theorem linked_run {tr : List (NodeTransition (PeerId lib) SignalHost SignalHostInput WebRtcSignal
      RtcAnswers SignalsDone)} (hlinked : host.Linked)
    (h : Trace (SignalHost.step json config) host tr host') :
    host'.Linked ∧ ∀ peerId connection, host.connection peerId = some connection →
      host'.connection peerId = some connection := by
  refine h.invariant (I := fun s => s.Linked ∧ ∀ peerId connection,
    host.connection peerId = some connection → s.connection peerId = some connection) ?_
    ⟨hlinked, fun _ _ => id⟩
  rintro s i o t ⟨hs, hkept⟩ hstep
  obtain ⟨ht, hkeeps⟩ := step_linked hs hstep
  exact ⟨ht, fun peerId connection hconnection => hkeeps _ _ (hkept _ _ hconnection)⟩

/-- What was queued has been taken, in that order, or waits. -/
theorem queue_run {tr : List (NodeTransition (PeerId lib) SignalHost SignalHostInput WebRtcSignal
      RtcAnswers SignalsDone)} (h : Trace (SignalHost.step json config) host tr host') :
    host.signals ++ (tr.flatMap fun y => outgoingSignals y.output.done.effects) =
      (tr.flatMap fun y => takenSignals y.before y.input) ++ host'.signals := by
  induction h with
  | nil => exact List.append_nil _
  | cons hstep _ ih =>
    rw [List.flatMap_cons, List.flatMap_cons, ← List.append_assoc, step_queue hstep,
      List.append_assoc, ih, List.append_assoc]

end

end SignalHost

/-! ### Daemons that signal to each other -/

abbrev SignalPost (lib : Libp2p) := Post (PeerId lib) SignalHost WebRtcSignal

abbrev SignalTransition (lib : Libp2p) :=
  PostTransition (PeerId lib) SignalHost SignalHostInput WebRtcSignal RtcAnswers SignalsDone

/-- Before any call; `enabled` tells where the runtime has started. -/
def SignalPost.start (enabled : PeerId lib → Bool) : SignalPost lib where
  nodes p := ⟨if enabled p then some .empty else none, []⟩
  inFlight := []

abbrev SignalRun (json : FrameJson) (config : PeerId lib → WebRtcTransportConfig)
    (enabled : PeerId lib → Bool) (tr : List (SignalTransition lib)) (p : SignalPost lib) : Prop :=
  Trace (postStep fun node => SignalHost.step json (config node)) (SignalPost.start enabled) tr p

/-- Where a signal for `node` comes from: the user of `peer` has typed it, or
the runtime of `peer` has made it on its connection for `node`. -/
inductive SignalOrigin (y : SignalTransition lib) (peer node : PeerId lib) : WebRtcSignal → Prop
  | typed (signal : WebRtcSignal) (out : SignalHostOutput lib)
    (hout : y.output = some (peer, .own (.sendWebRtcSignal node.text signal), out)) :
    SignalOrigin y peer node signal
  | offered (sdp : String) (connection : Nat) (answers : RtcAnswers) (out : SignalHostOutput lib)
    (hout : y.output = some (peer, .own (.startWebRtcOffer node.text answers), out))
    (hlocal : .setLocalDescription connection sdp ∈ out.done.effects)
    (hconnection : (y.after.nodes peer).connection node.text = some connection) :
    SignalOrigin y peer node (.offer sdp)
  | answered (offer sdp : String) (connection : Nat) (answers : RtcAnswers)
    (out : SignalHostOutput lib)
    (hout : y.output = some (peer, .receive node (.offer offer) answers, out))
    (hremote : .setRemoteDescription connection offer true ∈ out.done.effects)
    (hlocal : .setLocalDescription connection sdp ∈ out.done.effects)
    (hconnection : (y.after.nodes peer).connection node.text = some connection) :
    SignalOrigin y peer node (.answer sdp)
  | gathered (signal : WebRtcSignal) (connection : Nat) (candidate : GatheredCandidate)
    (out : SignalHostOutput lib)
    (hout : y.output = some (peer, .own (.runtime (.onIceCandidate connection candidate)), out))
    (hsignal : WebRtcRuntime.gatheredSignal candidate = some signal)
    (hconnection : (y.after.nodes peer).connection node.text = some connection) :
    SignalOrigin y peer node signal

section

variable {json : FrameJson} {config : PeerId lib → WebRtcTransportConfig}
  {enabled : PeerId lib → Bool} {tr pre post : List (SignalTransition lib)}
  {x : SignalTransition lib} {p : SignalPost lib} {node : PeerId lib}

theorem linked_start (enabled : PeerId lib → Bool) (node : PeerId lib) :
    ((SignalPost.start enabled).nodes node).Linked := by
  intro r hr
  dsimp only [SignalPost.start] at hr
  split_ifs at hr
  cases hr
  exact WebRtcRuntime.linked_empty

theorem SignalRun.linked (h : SignalRun json config enabled tr p) (node : PeerId lib) :
    (p.nodes node).Linked :=
  (SignalHost.linked_run (linked_start enabled node) (nodeTrace_trace h node)).1

/-- What is taken out of the queue was gathered before. -/
theorem SignalRun.gathered (h : SignalRun json config enabled tr p) {peer node : PeerId lib}
    {signal : WebRtcSignal} (hmem : (node.text, signal) ∈ (p.nodes peer).signals) :
    ∃ before y between, tr = before ++ y :: between ∧ SignalOrigin y peer node signal := by
  have hqueue := SignalHost.queue_run (nodeTrace_trace h peer)
  rw [show ((SignalPost.start enabled).nodes peer).signals = [] from rfl, List.nil_append] at hqueue
  have hmem' := List.mem_append_right
    ((nodeTrace peer tr).flatMap fun y => takenSignals y.before y.input) hmem
  rw [← hqueue] at hmem'
  obtain ⟨z, hz, hout⟩ := List.mem_flatMap.mp hmem'
  obtain ⟨y, hy, hnode⟩ := List.mem_filterMap.mp hz
  obtain ⟨before, between, rfl⟩ := List.append_of_mem hy
  obtain ⟨hhappened, hbefore, hafter⟩ := nodeTransition_eq_some.mp hnode
  obtain ⟨hpre, hstep, -⟩ := h.split
  have hhost := happened_step hstep hhappened
  obtain ⟨connection, candidate, hinput, hsignal, hconnection⟩ :=
    SignalHost.step_gathers (SignalRun.linked hpre peer) hhost hout
  rw [hinput] at hhappened
  exact ⟨before, y, between, rfl,
    .gathered signal connection candidate _ hhappened hsignal hconnection⟩

/-- What takes effect at a daemon was made for it by the peer to whose
connection it is applied, or typed there. -/
theorem SignalRun.origin (h : SignalRun json config enabled (pre ++ x :: post) p)
    {input : NodeInput (PeerId lib) SignalHostInput WebRtcSignal RtcAnswers}
    {out : SignalHostOutput lib} (hout : x.output = some (node, input, out)) {effect : RtcEffect}
    (hmem : effect ∈ out.done.effects) {connection : Nat} {signal : WebRtcSignal}
    (happlied : effect.applied = some (connection, signal)) :
    ∃ peer, (x.after.nodes node).connection peer.text = some connection ∧
      ∃ before y between, pre = before ++ y :: between ∧ SignalOrigin y peer node signal := by
  obtain ⟨hpre, hstep, -⟩ := h.split
  have hhost := happened_step hstep hout
  obtain ⟨peer, answers, rfl, hconnection⟩ :=
    SignalHost.step_applied (SignalRun.linked hpre node) hhost hmem happlied
  refine ⟨peer, hconnection, ?_⟩
  obtain ⟨before, y, between, rfl, input, out', hout', hsent⟩ := receive_sent h hout
  obtain ⟨hbefore, hstep', -⟩ := hpre.split
  have hhost' := happened_step hstep' hout'
  have hsends := SignalHost.step_sends (SignalRun.linked hbefore peer) hhost' hsent
  cases hsends with
  | typed => exact ⟨before, y, between, rfl, .typed signal out' hout'⟩
  | offered sdp connection' answers' hlocal hconn =>
    exact ⟨before, y, between, rfl, .offered sdp connection' answers' out' hout' hlocal hconn⟩
  | answered offer sdp connection' answers' hremote hlocal hconn =>
    exact ⟨before, y, between, rfl,
      .answered offer sdp connection' answers' out' hout' hremote hlocal hconn⟩
  | forwarded _ signals hqueue =>
    have hqueued : (node.text, signal) ∈ (y.before.nodes peer).signals := by
      rw [hqueue]
      exact List.mem_cons_self
    obtain ⟨before', z, between', rfl, horigin⟩ := SignalRun.gathered hbefore hqueued
    exact ⟨before', z, between' ++ y :: between, by simp, horigin⟩

/-- Whatever takes effect at a daemon, a description or a candidate, was made
before by the peer whose connection it is about, on the connection of that peer
for this daemon, or was typed there for it. -/
theorem signals_attributed (h : SignalRun json config enabled tr p) : Along (fun pre x =>
    ∀ node input out, x.output = some (node, input, out) → ∀ effect ∈ out.done.effects,
      ∀ connection signal, effect.applied = some (connection, signal) →
        ∃ peer, (x.after.nodes node).connection peer.text = some connection ∧
          ∃ y ∈ pre, SignalOrigin y peer node signal) tr := by
  rintro pre x post rfl node input out hout effect hmem connection signal happlied
  obtain ⟨peer, hconnection, before, y, between, rfl, horigin⟩ := h.origin hout hmem happlied
  exact ⟨peer, hconnection, y, by simp, horigin⟩

theorem SignalRun.connection_kept {a b : List (SignalTransition lib)}
    (h : SignalRun json config enabled (a ++ x :: b) p) {peerId : String} {connection : Nat}
    (hconnection : (x.after.nodes node).connection peerId = some connection) :
    (p.nodes node).connection peerId = some connection := by
  obtain ⟨hpre, hstep, hpost⟩ := h.split
  have hbefore : SignalRun json config enabled (a ++ [x]) x.after :=
    Trace.append_iff.mpr ⟨_, hpre, .cons hstep (.nil _)⟩
  exact (SignalHost.linked_run (hbefore.linked node) (nodeTrace_trace hpost node)).2 _ _ hconnection

theorem SignalRun.connection_injective (h : SignalRun json config enabled tr p)
    {peer other : PeerId lib} {connection : Nat}
    (hpeer : (p.nodes node).connection peer.text = some connection)
    (hother : (p.nodes node).connection other.text = some connection) : peer = other := by
  have hlinked := h.linked node
  cases hwebrtc : (p.nodes node).webrtc with
  | none =>
    rw [SignalHost.connection, hwebrtc] at hpeer
    cases hpeer
  | some r =>
    rw [SignalHost.connection_eq hwebrtc] at hpeer hother
    exact PeerId.ext_text ((hlinked r hwebrtc).inverse.injective hpeer hother)

/-- The two ends of an answer: where it takes effect on the connection for
`peer`, the runtime of `peer` has set it on its connection for this daemon,
after an offer that this daemon had set on that same connection; unless the
answer or the offer was typed by a user. -/
theorem descriptions_agree (h : SignalRun json config enabled tr p) : Along (fun pre x =>
    ∀ node input out, x.output = some (node, input, out) → ∀ connection sdp,
      .setRemoteDescription connection sdp false ∈ out.done.effects →
        ∃ peer, (x.after.nodes node).connection peer.text = some connection ∧
          ∃ before y between, pre = before ++ y :: between ∧
            ((∃ out', y.output = some (peer, .own (.sendWebRtcSignal node.text (.answer sdp)), out')) ∨
            ∃ offer connection' answers out',
              y.output = some (peer, .receive node (.offer offer) answers, out') ∧
              .setRemoteDescription connection' offer true ∈ out'.done.effects ∧
              .setLocalDescription connection' sdp ∈ out'.done.effects ∧
              (y.after.nodes peer).connection node.text = some connection' ∧
              ∃ z ∈ before,
                (∃ out'', z.output =
                  some (node, .own (.sendWebRtcSignal peer.text (.offer offer)), out'')) ∨
                ∃ answers out'', z.output =
                    some (node, .own (.startWebRtcOffer peer.text answers), out'') ∧
                  .setLocalDescription connection offer ∈ out''.done.effects)) tr := by
  rintro pre x post rfl node input out hout connection sdp hmem
  obtain ⟨peer, hconnection, before, y, between, rfl, horigin⟩ := h.origin hout hmem rfl
  refine ⟨peer, hconnection, before, y, between, rfl, ?_⟩
  cases horigin with
  | typed _ out' hout' => exact .inl ⟨out', hout'⟩
  | gathered _ connection' candidate out' hout' hsignal hconn =>
    cases candidate <;> cases hsignal
  | answered offer _ connection' answers out' hout' hremote hlocal hconn =>
    refine .inr ⟨offer, connection', answers, out', hout', hremote, hlocal, hconn, ?_⟩
    obtain ⟨hpre, hstep, -⟩ := h.split
    obtain ⟨other, hother, before', z, between', rfl, horigin'⟩ :=
      SignalRun.origin hpre hout' hremote rfl
    -- the offer was applied to the connection for `node`, so `node` has sent it
    obtain ⟨hpre', hstep', -⟩ := hpre.split
    have hafter : SignalRun json config enabled ((before' ++ z :: between') ++ [y]) y.after :=
      Trace.append_iff.mpr ⟨_, hpre', .cons hstep' (.nil _)⟩
    obtain rfl := hafter.connection_injective hother hconn
    refine ⟨z, by simp, ?_⟩
    cases horigin' with
    | typed _ out'' hout'' => exact .inl ⟨out'', hout''⟩
    | gathered _ connection'' candidate out'' hout'' hsignal hconn'' =>
      cases candidate <;> cases hsignal
    | offered _ connection'' answers' out'' hout'' hlocal'' hconn'' =>
      -- the connection on which it was made is the one that the answer reaches
      have hrun : SignalRun json config enabled
          (before' ++ z :: (between' ++ y :: between ++ [x])) x.after := by
        have hsame : before' ++ z :: (between' ++ y :: between ++ [x]) =
            (before' ++ z :: between') ++ y :: between ++ [x] := by simp
        rw [hsame]
        exact Trace.append_iff.mpr ⟨_, hpre, .cons hstep (.nil _)⟩
      have hkept := hrun.connection_kept hconn''
      rw [hconnection] at hkept
      cases hkept
      exact .inr ⟨answers', out'', hout'', hlocal''⟩

/-- The signals for a peer among those with a name. -/
def forPeer (peerId : String) (signals : List (String × WebRtcSignal)) : List WebRtcSignal :=
  (signals.filter fun s => s.1 = peerId).map Prod.snd

abbrev SignalHostTransition (lib : Libp2p) :=
  NodeTransition (PeerId lib) SignalHost SignalHostInput WebRtcSignal RtcAnswers SignalsDone

/-- What a daemon takes out of its queue and sends to a peer. -/
def forwardedBy (peer : PeerId lib) (y : SignalHostTransition lib) : List WebRtcSignal :=
  match y.input with
  | .own .takeSignal => (y.output.sent.filter fun s => s.1 = peer).map Prod.snd
  | _ => []

/-- What the callbacks of a daemon have gathered for a peer. -/
def gatheredFor (node peer : PeerId lib) (tr : List (SignalTransition lib)) : List WebRtcSignal :=
  (nodeTrace node tr).flatMap fun y => forPeer peer.text (outgoingSignals y.output.done.effects)

def forwardedTo (node peer : PeerId lib) (tr : List (SignalTransition lib)) : List WebRtcSignal :=
  (nodeTrace node tr).flatMap (forwardedBy peer)

theorem forPeer_append (peerId : String) (a b : List (String × WebRtcSignal)) :
    forPeer peerId (a ++ b) = forPeer peerId a ++ forPeer peerId b := by
  rw [forPeer, List.filter_append, List.map_append]
  rfl

theorem forPeer_flatMap {α : Type} (peerId : String) (l : List α)
    (f : α → List (String × WebRtcSignal)) :
    forPeer peerId (l.flatMap f) = l.flatMap fun a => forPeer peerId (f a) := by
  induction l with
  | nil => rfl
  | cons a l ih => rw [List.flatMap_cons, forPeer_append, ih, List.flatMap_cons]

/-- A signal for a peer that is taken out of the queue is sent to that peer. -/
theorem forwardedBy_eq {y : SignalHostTransition lib} {config : WebRtcTransportConfig}
    (h : y.before.step json config y.input = some (y.output, y.after)) (peer : PeerId lib) :
    forPeer peer.text (takenSignals y.before y.input) = forwardedBy peer y := by
  obtain ⟨before, input, output, after⟩ := y
  cases input with
  | receive => rfl
  | own own =>
    cases own with
    | startWebRtcOffer => rfl
    | sendWebRtcSignal => rfl
    | runtime => rfl
    | takeSignal =>
      simp only [SignalHost.step, SignalHost.takeSignal] at h
      split at h
      · cases h
      · rename_i peerId signal signals hqueue
        cases h
        rw [takenSignals, hqueue, forwardedBy, sendWebRtcSignals]
        by_cases hpeer : peerId = peer.text
        · subst hpeer
          simp [forPeer, peer.valid, Except.toOption]
        · split_ifs with hvalid
          · have hne : (⟨peerId, hvalid⟩ : PeerId lib) ≠ peer := by
              rintro rfl
              exact hpeer rfl
            simp [forPeer, hpeer, Except.toOption, hne]
          · simp [forPeer, hpeer, Except.toOption]

/-- What a daemon has gathered for a peer is sent to it, each signal once and in
that order, but for what still waits; whatever else is gathered and sent. -/
theorem candidates_forwarded (h : SignalRun json config enabled tr p) (node peer : PeerId lib) :
    gatheredFor node peer tr =
      forwardedTo node peer tr ++ forPeer peer.text (p.nodes node).signals := by
  have htrace := nodeTrace_trace h node
  have hqueue : (nodeTrace node tr).flatMap (fun y => outgoingSignals y.output.done.effects) =
      (nodeTrace node tr).flatMap (fun y => takenSignals y.before y.input) ++
        (p.nodes node).signals := SignalHost.queue_run htrace
  have hforwarded : forwardedTo node peer tr = (nodeTrace node tr).flatMap fun y =>
      forPeer peer.text (takenSignals y.before y.input) := by
    refine List.flatMap_congr fun y hy => ?_
    obtain ⟨-, hstep⟩ := htrace.of_mem (I := fun _ => True) (fun _ _ _ _ _ _ => trivial) trivial hy
    exact (forwardedBy_eq hstep peer).symm
  rw [gatheredFor, ← forPeer_flatMap, hqueue, forPeer_append, forPeer_flatMap, hforwarded]

end

def signalLibp2p : Libp2p where
  isPeerId _ := true
  parseMultiaddr _ := none
  allowLoopback := false

def signalPeer (text : String) : PeerId signalLibp2p := ⟨text, rfl⟩

/-- The library answers with a connection, a channel and a description. -/
def describedBy (number : Nat) (sdp : String) : RtcAnswers :=
  ⟨some number, some number, some sdp, true, true, true, true⟩

/-- Ann calls Bob, who answers; a candidate of hers goes with the offer. -/
def annCallsBob : List (PostInput (PeerId signalLibp2p) SignalHostInput RtcAnswers) :=
  [.own (signalPeer "ann") (.startWebRtcOffer "bob" (describedBy 0 "offer")),
    .own (signalPeer "ann") (.runtime (.onIceCandidate 0 .complete)),
    .own (signalPeer "ann") .takeSignal, .deliver 0 (describedBy 7 "answer")]

def sampleSignalStep : SignalPost signalLibp2p →
    PostInput (PeerId signalLibp2p) SignalHostInput RtcAnswers → Option (Happening
      (PeerId signalLibp2p) SignalHostInput WebRtcSignal RtcAnswers SignalsDone ×
      SignalPost signalLibp2p) :=
  postStep fun _ => SignalHost.step sampleFrameJson ⟨[], []⟩

/-- Whom the answer reaches, and what takes effect there. -/
def annAnswered (p : SignalPost signalLibp2p) : Option (Option (String × List (Nat × WebRtcSignal))) :=
  (sampleSignalStep p (.deliver 1 (describedBy 1 ""))).map fun r =>
    r.1.map fun happened => (happened.1.text, happened.2.2.done.effects.filterMap RtcEffect.applied)

/-- The answer takes effect at Ann. -/
theorem annCallsBob_answered : ∃ pre x input, ∃ out : SignalHostOutput signalLibp2p,
    SignalRun sampleFrameJson (fun _ => ⟨[], []⟩) (fun _ => true) (pre ++ [x]) x.after ∧
      x.output = some (signalPeer "ann", input, out) ∧
      .setRemoteDescription 0 "answer" false ∈ out.done.effects := by
  have hrun : (execute sampleSignalStep (SignalPost.start fun _ => true) annCallsBob).bind
      (fun r => annAnswered r.2) = some (some ("ann", [(0, .answer "answer")])) := by
    decide +kernel
  obtain ⟨⟨pre, p⟩, hpre, hlast⟩ := Option.bind_eq_some_iff.mp hrun
  obtain ⟨⟨happened, q⟩, hstep, hout⟩ := Option.map_eq_some_iff.mp hlast
  obtain ⟨⟨node, input, out⟩, rfl, heq⟩ := Option.map_eq_some_iff.mp hout
  obtain ⟨hnode, heffects⟩ := Prod.mk.inj heq
  have hmem : (0, WebRtcSignal.answer "answer") ∈ out.done.effects.filterMap RtcEffect.applied := by
    rw [heffects]
    exact List.mem_cons_self
  obtain ⟨effect, heffect, happlied⟩ := List.mem_filterMap.mp hmem
  refine ⟨pre, ⟨p, _, some (node, input, out), q⟩, input, out,
    Trace.append_iff.mpr ⟨p, execute_trace hpre, .cons hstep (.nil _)⟩, ?_, ?_⟩
  · rw [show node = signalPeer "ann" from PeerId.ext_text hnode]
  · cases effect with
    | setRemoteDescription connection sdp isOffer =>
      cases isOffer
      · cases happlied
        exact heffect
      · cases happlied
    | _ => cases happlied

theorem signals_attributed_annCallsBob : ∃ pre, ∃ x : SignalTransition signalLibp2p, ∃ peer,
    SignalRun sampleFrameJson (fun _ => ⟨[], []⟩) (fun _ => true) (pre ++ [x]) x.after ∧
      (x.after.nodes (signalPeer "ann")).connection peer.text = some 0 ∧
      ∃ y ∈ pre, SignalOrigin y peer (signalPeer "ann") (.answer "answer") := by
  obtain ⟨pre, x, input, out, hrun, hout, hmem⟩ := annCallsBob_answered
  obtain ⟨peer, hconnection, horigin⟩ :=
    signals_attributed hrun pre x [] rfl _ _ _ hout _ hmem _ _ rfl
  exact ⟨pre, x, peer, hrun, hconnection, horigin⟩

theorem descriptions_agree_annCallsBob : ∃ pre, ∃ x : SignalTransition signalLibp2p, ∃ peer,
    SignalRun sampleFrameJson (fun _ => ⟨[], []⟩) (fun _ => true) (pre ++ [x]) x.after ∧
      (x.after.nodes (signalPeer "ann")).connection peer.text = some 0 ∧
      ∃ before y between, pre = before ++ y :: between ∧ ∃ input out,
        y.output = some (peer, input, out) := by
  obtain ⟨pre, x, input, out, hrun, hout, hmem⟩ := annCallsBob_answered
  obtain ⟨peer, hconnection, before, y, between, hpre, hsent⟩ :=
    descriptions_agree hrun pre x [] rfl _ _ _ hout _ _ hmem
  refine ⟨pre, x, peer, hrun, hconnection, before, y, between, hpre, ?_⟩
  obtain ⟨out', hout'⟩ | ⟨_, _, _, out', hout', -⟩ := hsent
  · exact ⟨_, out', hout'⟩
  · exact ⟨_, out', hout'⟩

theorem candidates_forwarded_annCallsBob : ∃ tr p,
    SignalRun sampleFrameJson (fun _ => ⟨[], []⟩) (fun _ => true) tr p ∧
      forwardedTo (signalPeer "ann") (signalPeer "bob") tr = [.iceComplete] ∧
      gatheredFor (signalPeer "ann") (signalPeer "bob") tr = [.iceComplete] := by
  have hrun : (execute sampleSignalStep (SignalPost.start fun _ => true) annCallsBob).map
      (fun r => (forwardedTo (signalPeer "ann") (signalPeer "bob") r.1,
        (r.2.nodes (signalPeer "ann")).signals)) = some ([.iceComplete], []) := by
    decide +kernel
  obtain ⟨⟨tr, p⟩, hexecute, heq⟩ := Option.map_eq_some_iff.mp hrun
  obtain ⟨hforwarded, hsignals⟩ := Prod.mk.inj heq
  have htr : SignalRun sampleFrameJson (fun _ => ⟨[], []⟩) (fun _ => true) tr p :=
    execute_trace hexecute
  refine ⟨tr, p, htr, hforwarded, ?_⟩
  rw [candidates_forwarded htr, hforwarded, hsignals]
  rfl

end Voicers
