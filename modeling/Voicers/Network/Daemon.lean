import Voicers.Network.Dialing
import Voicers.Media.Engine
import Mathlib.Data.Finset.Basic

/-! The network task (`network.rs`, `network/swarm_events.rs`) with what it
shares with the control and media tasks. A daemon moves by events: swarm
events, commands, delayed media ticks and the steps of the other tasks, in
any order. The build is the default one, without the WebRTC transport. -/

namespace Voicers

open Lib

structure PendingDial where
  currentAddress : String
  fallbackAddresses : List String
deriving DecidableEq

inductive PendingRendezvousLookup
  | peerId (peerId : String)
  | room (roomName : String) (resolvedPeers : List String)
deriving DecidableEq

/-- What a control request still does after the network task has answered it. -/
inductive FollowUp
  | approved (peerId : String) (whitelist : Bool)
  | rejected (peerId : String)
deriving DecidableEq

structure Endpoint where
  dialer : Bool
  remoteAddress : String
  isRelayed : Bool
deriving DecidableEq

structure IdentifyInfo where
  listenAddrs : List String
  agentVersion : String
  observedAddr : String
deriving DecidableEq

/-- The state of a daemon. `media` is `none` once the media engine has
panicked; `mediaQueue` holds its unread commands. `helloRequests` counts the
hellos sent to a peer and not answered (the signals, which a peer might answer
with a hello too, are no part of it), `mediaTicks` the media ticks of a peer
that sleep or wait in the command channel. -/
structure Daemon (κ : Codec) where
  status : DaemonStatus
  activeMediaFlows : Finset String
  connectedPeers : Finset String
  pendingDials : String → Option PendingDial
  pendingRendezvousLookups : Nat → Option PendingRendezvousLookup
  pendingInboundApprovals : String → Option PendingInboundApproval
  relayOffers : String → Option (List String)
  media : Option (MediaPeers κ)
  mediaQueue : List MediaCommand
  helloRequests : String → Nat
  mediaTicks : String → Nat
  followUps : List FollowUp

inductive Effect (κ : Codec)
  | dial (address : String)
  | getRecord (key : String)
  | sendHello (peerId : String) (hello : SessionHello)
  | broadcastHello (hello : SessionHello)
  | sessionActive (peerId : String)
  | respondSession (peerId : String) (channel : Nat) (response : SessionResponse)
  | sendMedia (peerId : String) (request : MediaRequest)
  | respondMedia (peerId : String) (response : MediaResponse)
  | pushPeerPcm (peerId : String) (samples : κ.Pcm)

/-- Swarm events come first, then the commands of the network task, the media
engine and the control requests that write the shared status. `dialed` tells
whether the swarm accepts a dial. -/
inductive Event (κ : Codec) (lib : Libp2p)
  | connectionEstablished (peer : PeerId lib) (endpoint : Endpoint)
  | connectionClosed (peer : PeerId lib) (numEstablished : Nat)
  | outgoingConnectionError (peer : Option (PeerId lib)) (dialed : Bool)
  | identifyReceived (peer : PeerId lib) (info : IdentifyInfo)
  | ping (peer : PeerId lib)
  | foundRecord (query : Nat) (invite : CompactInviteV1) (dialed : Bool)
  | lookupFinished (query : Nat)
  | sessionHello (peer : PeerId lib) (hello : SessionHello) (channel : Nat)
  | sessionHelloAck (peer : PeerId lib) (hello : SessionHello)
  | sessionRefused (peer : PeerId lib)
  | mediaRequest (peer : PeerId lib) (request : MediaRequest)
  | mediaResponse (peer : PeerId lib) (response : MediaResponse)
  | dial (address : String) (query : Nat) (dialed : Bool)
  | broadcastSessionHello (hello : SessionHello)
  | approvePendingPeer (peerId : String) (whitelist : Bool)
  | rejectPendingPeer (peerId : String)
  | sendMediaFrame (peerId : String) (pcm : κ.Pcm) (nowMs : UInt64)
  | mediaCommand
  | playout (now : Nat) (peerIds : List String)
  | followUp (index : Nat)
  | seedInviteHints (invite : CompactInviteV1)
  | setSession (session : SessionSummary)
  | saveKnownPeer (peerId : String)
  | renameKnownPeer (peerId displayName : String)
  | forgetKnownPeer (peerId : String)
  | setTrustedContact (peerId : String) (trustedContact : Bool)
  | toggleMutePeer (peerId : String)
  | setPeerVolumePercent (peerId : String) (percent : Nat)

structure PersistedState where
  localDisplayName : Option String
  knownPeerAddrs : List String
  knownPeers : List KnownPeerSummary
  ignoredPeerIds : List String
  pathScores : List PathScoreSummary
deriving DecidableEq

/-- `App::bootstrap`, up to the moment the network task knows its own id. -/
def bootstrap (persisted : PersistedState) (displayName localPeerId : String) : DaemonStatus where
  localPeerId := localPeerId
  session :=
    { roomName := none
      displayName := persisted.localDisplayName.getD displayName
      selfMuted := false }
  network := NetworkSummary.refreshUserViews
    { observedAddrs := []
      pathScores := persisted.pathScores
      savedPeerAddrs := persisted.knownPeerAddrs
      knownPeers := persisted.knownPeers
      friends := []
      seenUsers := []
      discoveredPeers := []
      ignoredPeerIds := persisted.ignoredPeerIds }
  peers := []
  pendingPeerApprovals := []

namespace Daemon

variable {κ : Codec}

def start (status : DaemonStatus) : Daemon κ where
  status := status
  activeMediaFlows := ∅
  connectedPeers := ∅
  pendingDials := fun _ => none
  pendingRendezvousLookups := fun _ => none
  pendingInboundApprovals := fun _ => none
  relayOffers := fun _ => none
  media := some fun _ => none
  mediaQueue := []
  helloRequests := fun _ => 0
  mediaTicks := fun _ => 0
  followUps := []

def withStatus (d : Daemon κ) (f : DaemonStatus → DaemonStatus) : Daemon κ :=
  { d with status := f d.status }

def queueMedia (d : Daemon κ) (command : MediaCommand) : Daemon κ :=
  if d.media.isSome then { d with mediaQueue := d.mediaQueue ++ [command] } else d

def runNextMediaCommand (d : Daemon κ) : Daemon κ :=
  match d.media, d.mediaQueue with
  | some peers, command :: queue =>
    let r := runMediaCommand d.status peers command
    { d with status := r.1, media := some r.2, mediaQueue := queue }
  | _, _ => d

def flushMedia (d : Daemon κ) : Daemon κ := runNextMediaCommand^[d.mediaQueue.length] d

/-- A call of the engine that waits for the answer, and so for the commands
queued before it. A panic ends the engine, and then there is no answer. -/
def callMedia {α : Type} (d : Daemon κ)
    (call : DaemonStatus → MediaPeers κ → Option (Option α × DaemonStatus × MediaPeers κ)) :
    Option α × Daemon κ :=
  let d := d.flushMedia
  match d.media with
  | none => (none, d)
  | some peers =>
    match call d.status peers with
    | none => (none, { d with media := none, mediaQueue := [] })
    | some (answer, status, peers) => (answer, { d with status := status, media := some peers })

def scheduleMediaTick (d : Daemon κ) (peerId : String) : Daemon κ :=
  { d with mediaTicks := Function.update d.mediaTicks peerId (d.mediaTicks peerId + 1) }

def openFlow (d : Daemon κ) (peerId : String) : Daemon κ :=
  if peerId ∈ d.activeMediaFlows then d
  else scheduleMediaTick { d with activeMediaFlows := insert peerId d.activeMediaFlows } peerId

def sendSessionHello (lib : Libp2p) (d : Daemon κ) (peerId : String) (hello : SessionHello) :
    Daemon κ × List (Effect κ) :=
  if lib.isPeerId peerId then
    ({ d with helloRequests := Function.update d.helloRequests peerId (d.helloRequests peerId + 1) },
      [.sendHello peerId hello])
  else (d, [])

def onConnectionEstablished (lib : Libp2p) (d : Daemon κ) (peerId : String) (endpoint : Endpoint) :
    Daemon κ × List (Effect κ) :=
  let hadPendingDial := (d.pendingDials peerId).isSome
  let d := { d with
    connectedPeers := insert peerId d.connectedPeers
    pendingDials := Function.update d.pendingDials peerId none }
  let dialAddress := if endpoint.dialer then endpoint.remoteAddress else ""
  let localHello := d.status.localHello
  let shouldSurface := shouldSurfaceConnectedPeer d.status peerId hadPendingDial
  let d := d.withStatus fun status => recordPathScore status
    (if endpoint.isRelayed then libp2pRelayPath else libp2pDirectPath) (some peerId) true
  if shouldSurface then
    let d := (d.withStatus fun status => upsertPeer lib status peerId dialAddress).queueMedia
      (.registerPeer peerId)
    if endpoint.dialer || isPeerWhitelisted d.status peerId then
      sendSessionHello lib d peerId localHello
    else (d, [])
  else (d, [])

/-- The part of `ConnectionClosed` that holds the status. -/
def closeStatus (status : DaemonStatus) (peerId : String) (numEstablished : Nat) : DaemonStatus :=
  let removePeer := numEstablished = 0 ∧
    (status.peer? peerId).any (fun p => p.session = .none) ∧
    ¬ status.network.knownPeers.any (fun p => p.peerId = peerId) ∧
    ¬ status.pendingPeerApprovals.any (fun pending => pending.peerId = peerId)
  { status with
    peers :=
      if removePeer then status.peers.eraseP (fun p => p.peerId = peerId)
      else updateFirst (fun p => p.peerId = peerId)
        (fun p => { p with
          transport := if numEstablished = 0 then .disconnected else .connected }) status.peers
    network := { status.network with
      knownPeers := updateFirst (fun p => p.peerId = peerId)
        (fun p => { p with connected := 0 < numEstablished }) status.network.knownPeers } }

def onConnectionClosed (d : Daemon κ) (peerId : String) (numEstablished : Nat) : Daemon κ :=
  let d := if numEstablished = 0 then
      { d with connectedPeers := d.connectedPeers.erase peerId } else d
  let d := d.withStatus fun status => closeStatus status peerId numEstablished
  let d := { d with activeMediaFlows := d.activeMediaFlows.erase peerId }
  let d := if numEstablished = 0 then
      { d with relayOffers := Function.update d.relayOffers peerId none } else d
  d.queueMedia (.disconnectPeer peerId)

def onOutgoingConnectionError (lib : Libp2p) (d : Daemon κ) (peerId : Option String)
    (dialed : Bool) : Daemon κ × List (Effect κ) :=
  let pending := peerId.bind d.pendingDials
  let failedPath := match pending with
    | some pending => addressPathName lib pending.currentAddress
    | none => libp2pDirectPath
  let d := d.withStatus fun status => recordPathScore status failedPath peerId false
  match peerId, pending with
  | some peer, some pending =>
    match pending.fallbackAddresses with
    | [] => (d, [])
    | next :: rest =>
      let retry : PendingDial := { currentAddress := next, fallbackAddresses := rest }
      let d := { d with pendingDials := Function.update d.pendingDials peer (some retry) }
      if (lib.parseMultiaddr next).isSome ∧ dialed then (d, [.dial next]) else (d, [])
  | _, _ => (d, [])

def onIdentifyReceived (lib : Libp2p) (d : Daemon κ) (peerId : String) (info : IdentifyInfo) :
    Daemon κ :=
  let remoteAddr := info.listenAddrs.headD "<unknown>"
  let displayName := if info.agentVersion = "" then "peer " ++ shortPeerId peerId
    else info.agentVersion
  let d := if shouldSurfaceApprovedPeer d.status peerId then
      d.withStatus fun status => updateKnownPeer lib
        (getOrInsertPeer status peerId remoteAddr fun peer =>
          { peer with displayName := displayName, transport := .connected })
        peerId none (some displayName) true false
    else d
  if info.observedAddr = "" then d
  else d.withStatus fun status => { status with network := { status.network with
    observedAddrs := pushUnique status.network.observedAddrs info.observedAddr } }

def onPing (d : Daemon κ) (peerId : String) : Daemon κ :=
  d.withStatus fun status => { status with
    peers := updateFirst (fun p => p.peerId = peerId)
      (fun p => { p with transport := .connected }) status.peers }

def dialRankedTarget (d : Daemon κ) (ranked : RankedDialTarget) (dialed : Bool) :
    Daemon κ × List (Effect κ) :=
  if dialed then
    match ranked.peerId with
    | some peerId =>
      let pending : PendingDial :=
        { currentAddress := ranked.primary, fallbackAddresses := ranked.fallbacks }
      ({ d with pendingDials := Function.update d.pendingDials peerId (some pending) },
        [.dial ranked.primary])
    | none => (d, [.dial ranked.primary])
  else (d, [])

def rendezvousRecordPrefix : String := "/voicers/rendezvous/v1/"
def rendezvousRecordKey (peerId : String) : String := rendezvousRecordPrefix ++ peerId
def roomRendezvousRecordKey (roomName : String) : String :=
  rendezvousRecordPrefix ++ "room/" ++ trim roomName

def setLookup (d : Daemon κ) (query : Nat) (lookup : Option PendingRendezvousLookup) : Daemon κ :=
  { d with
    pendingRendezvousLookups := Function.update d.pendingRendezvousLookups query lookup }

def dialPeer (lib : Libp2p) (d : Daemon κ) (address : String) (query : Nat) (dialed : Bool) :
    Daemon κ × List (Effect κ) :=
  let ranked := resolveRankedDialTarget lib d.status.network address
  match lib.parseMultiaddr ranked.primary, ranked.peerId with
  | some _, _ => dialRankedTarget d ranked dialed
  | none, some peerId =>
    (d.setLookup query (some (.peerId peerId)), [.getRecord (rendezvousRecordKey peerId)])
  | none, none =>
    (d.setLookup query (some (.room (trim address) [])),
      [.getRecord (roomRendezvousRecordKey (trim address))])

/-- A record of a lookup that names its peer and its addresses: they enter the
book and the peer is dialed. -/
def dialFoundPeer (lib : Libp2p) (d : Daemon κ) (invite : CompactInviteV1) (dialed : Bool) :
    Daemon κ × List (Effect κ) :=
  let d := d.withStatus fun status => seedRendezvousInvite lib status invite
  let ranked := resolveRankedDialTarget lib d.status.network invite.peerId
  if (lib.parseMultiaddr ranked.primary).isSome then dialRankedTarget d ranked dialed else (d, [])

def onFoundRecord (lib : Libp2p) (d : Daemon κ) (query : Nat) (invite : CompactInviteV1)
    (dialed : Bool) : Daemon κ × List (Effect κ) :=
  match d.pendingRendezvousLookups query with
  | none => (d, [])
  | some (.peerId requested) =>
    if invite.peerId = requested ∧ invite.addrs ≠ [] then
      dialFoundPeer lib (d.setLookup query none) invite dialed
    else (d, [])
  | some (.room roomName resolvedPeers) =>
    if invite.addrs ≠ [] ∧ invite.peerId ∉ resolvedPeers then
      dialFoundPeer lib
        (d.setLookup query (some (.room roomName (invite.peerId :: resolvedPeers)))) invite dialed
    else (d, [])

def applyApprovedSessionHello (lib : Libp2p) (d : Daemon κ) (peerId : String)
    (hello : SessionHello) (channel : Nat) : Daemon κ × List (Effect κ) :=
  let d := (d.withStatus fun status => applySessionHello lib status peerId hello).queueMedia
    (.registerPeer peerId)
  let response := SessionResponse.helloAck d.status.localHello
  let d := if peerId ∈ d.activeMediaFlows then d
    else (d.withStatus fun status => removePendingApproval status peerId).openFlow peerId
  (d, [.sessionActive peerId, .respondSession peerId channel response])

def onSessionHello (lib : Libp2p) (d : Daemon κ) (peerId : String) (hello : SessionHello)
    (channel : Nat) : Daemon κ × List (Effect κ) :=
  if alreadyConnected d.status peerId || !shouldGatePeerApproval d.status peerId then
    applyApprovedSessionHello lib
      { d with relayOffers := Function.update d.relayOffers peerId (some hello.trustedContacts) }
      peerId hello channel
  else
    ({ d with
        pendingInboundApprovals :=
          Function.update d.pendingInboundApprovals peerId (some ⟨hello, channel⟩)
        status := queuePendingPeerApproval d.status peerId hello }, [])

/-- An answer to a hello of this daemon; without one sent there is none. -/
def answerHello (d : Daemon κ) (peerId : String) : Daemon κ :=
  { d with helloRequests := Function.update d.helloRequests peerId (d.helloRequests peerId - 1) }

def onSessionHelloAck (lib : Libp2p) (d : Daemon κ) (peerId : String) (hello : SessionHello) :
    Daemon κ × List (Effect κ) :=
  if d.helloRequests peerId = 0 then (d, [])
  else
    let d := { d.answerHello peerId with
      relayOffers := Function.update d.relayOffers peerId (some hello.trustedContacts) }
    let d := (d.withStatus fun status => applySessionHello lib status peerId hello).queueMedia
      (.registerPeer peerId)
    (d.openFlow peerId, [.sessionActive peerId])

def approvePendingPeer (lib : Libp2p) (d : Daemon κ) (peerId : String) (whitelist : Bool) :
    Daemon κ × List (Effect κ) :=
  match d.pendingInboundApprovals peerId with
  | none => (d, [])
  | some pending =>
    let r := applyApprovedSessionHello lib
      { d with pendingInboundApprovals := Function.update d.pendingInboundApprovals peerId none }
      peerId pending.hello pending.channel
    ({ r.1 with followUps := r.1.followUps ++ [.approved peerId whitelist] }, r.2)

def rejectPendingPeer (d : Daemon κ) (peerId : String) : Daemon κ × List (Effect κ) :=
  match d.pendingInboundApprovals peerId with
  | none => (d, [])
  | some pending =>
    ({ d with
        pendingInboundApprovals := Function.update d.pendingInboundApprovals peerId none
        status := removePendingApproval d.status peerId
        followUps := d.followUps ++ [.rejected peerId] },
      [.respondSession peerId pending.channel (.joinDenied "room join denied")])

/-- The rest of an approval or rejection in the control task. -/
def runFollowUp (status : DaemonStatus) : FollowUp → DaemonStatus
  | .approved peerId whitelist =>
    let status := if whitelist then
        { status with network := NetworkSummary.refreshUserViews { status.network with
            knownPeers := updateFirst (fun p => p.peerId = peerId)
              (fun p => { p with whitelisted := true }) status.network.knownPeers } }
      else status
    removePendingApproval status peerId
  | .rejected peerId => removePendingApproval status peerId

def onMediaRequest (π : Profile) (lib : Libp2p) (d : Daemon κ) (peerId : String) :
    MediaRequest → Daemon κ × List (Effect κ)
  | .frame frame =>
    let r := d.callMedia fun status peers => handleIncomingFrame π status peers peerId frame
    (r.2, match r.1 with
      | some ack => [.respondMedia peerId (.ack ack)]
      | none => [])
  | .relayedFrame destination frame =>
    if destination = d.status.localPeerId then
      let r := d.callMedia fun status peers => handleIncomingFrame π status peers peerId frame
      (r.2, match r.1 with
        | some ack => [.respondMedia peerId (.relayAck destination ack)]
        | none => [])
    else if lib.isPeerId destination ∧ destination ∈ d.connectedPeers ∧
        d.status.network.knownPeers.any (fun p => p.peerId = destination && p.trustedContact) then
      (d, [.sendMedia destination (.relayedFrame destination frame),
        .respondMedia peerId (.relayAck destination
          { acceptedSequence := frame.sequence, queueDepth := 0, queuedSamples := 0 })])
    else (d, [.respondMedia peerId (.relayDenied destination "not relaying for that peer")])

def onMediaResponse (d : Daemon κ) (peerId : String) : MediaResponse → Daemon κ
  | .ack ack => d.queueMedia (.handleAck peerId ack)
  | .relayAck _ ack => d.queueMedia (.handleAck peerId ack)
  | .relayDenied _ _ => d

def setRouteVia (status : DaemonStatus) (peerId : String) (routeVia : Option String) :
    DaemonStatus :=
  status.updatePeerMedia peerId fun media => { media with routeVia := routeVia }

/-- One media tick of a flow. An unreachable peer loses its flow; otherwise
the next tick is scheduled. -/
def runMediaTick (π : Profile) (lib : Libp2p) (d : Daemon κ) (peerId : String) (pcm : κ.Pcm)
    (nowMs : UInt64) : Daemon κ × List (Effect κ) :=
  match resolveRoute lib d.status d.relayOffers peerId with
  | .direct =>
    let r := if lib.isPeerId peerId then d.callMedia fun status peers =>
        buildNextAudioFrame π status peers peerId pcm nowMs
      else (none, d)
    let d := r.2.withStatus fun status => setRouteVia status peerId none
    (d.scheduleMediaTick peerId, match r.1 with
      | some frame => [.sendMedia peerId (.frame frame)]
      | none => [])
  | .relayed via destination =>
    if destination = d.status.localPeerId then (d.scheduleMediaTick peerId, [])
    else
      let r := d.callMedia fun status peers =>
        buildNextAudioFrame π status peers destination pcm nowMs
      let d := r.2.withStatus fun status => setRouteVia status peerId (some via)
      (d.scheduleMediaTick peerId, match r.1 with
        | some frame => [.sendMedia via (.relayedFrame destination frame)]
        | none => [])
  | .unreachable =>
    let d := { d with activeMediaFlows := d.activeMediaFlows.erase peerId }
    (d.withStatus fun status => status.updatePeerMedia peerId fun media =>
      { media with streamState := .idle, routeVia := none }, [])

/-- `SendMediaFrame`: the command of a tick, read from the command channel. -/
def onSendMediaFrame (π : Profile) (lib : Libp2p) (d : Daemon κ) (peerId : String) (pcm : κ.Pcm)
    (nowMs : UInt64) : Daemon κ × List (Effect κ) :=
  if d.mediaTicks peerId = 0 then (d, [])
  else
    let d := { d with
      mediaTicks := Function.update d.mediaTicks peerId (d.mediaTicks peerId - 1) }
    if peerId ∈ d.activeMediaFlows then runMediaTick π lib d peerId pcm nowMs else (d, [])

def onPlayout (π : Profile) (d : Daemon κ) (now : Nat) (peerIds : List String) :
    Daemon κ × List (Effect κ) :=
  match d.media with
  | none => (d, [])
  | some peers =>
    match drivePlayout π now peerIds d.status peers with
    | none => ({ d with media := none, mediaQueue := [] }, [])
    | some (pcm, status, peers) =>
      ({ d with status := status, media := some peers },
        pcm.map fun s => .pushPeerPcm s.1 s.2)

def updatePeer (status : DaemonStatus) (peerId : String) (update : PeerSummary → PeerSummary) :
    DaemonStatus :=
  { status with peers := updateFirst (fun p => p.peerId = peerId) update status.peers }

def handle (π : Profile) (lib : Libp2p) (d : Daemon κ) :
    Event κ lib → Daemon κ × List (Effect κ)
  | .connectionEstablished peer endpoint => d.onConnectionEstablished lib peer.text endpoint
  | .connectionClosed peer numEstablished => (d.onConnectionClosed peer.text numEstablished, [])
  | .outgoingConnectionError peer dialed =>
    d.onOutgoingConnectionError lib (peer.map PeerId.text) dialed
  | .identifyReceived peer info => (d.onIdentifyReceived lib peer.text info, [])
  | .ping peer => (d.onPing peer.text, [])
  | .foundRecord query invite dialed => d.onFoundRecord lib query invite dialed
  | .lookupFinished query => (d.setLookup query none, [])
  | .sessionHello peer hello channel => d.onSessionHello lib peer.text hello channel
  | .sessionHelloAck peer hello => d.onSessionHelloAck lib peer.text hello
  | .sessionRefused peer => (d.answerHello peer.text, [])
  | .mediaRequest peer request => d.onMediaRequest π lib peer.text request
  | .mediaResponse peer response => (d.onMediaResponse peer.text response, [])
  | .dial address query dialed => d.dialPeer lib address query dialed
  | .broadcastSessionHello hello =>
    ({ d with helloRequests := fun p =>
        if p ∈ d.connectedPeers then d.helloRequests p + 1 else d.helloRequests p },
      [.broadcastHello hello])
  | .approvePendingPeer peerId whitelist => d.approvePendingPeer lib peerId whitelist
  | .rejectPendingPeer peerId => d.rejectPendingPeer peerId
  | .sendMediaFrame peerId pcm nowMs => d.onSendMediaFrame π lib peerId pcm nowMs
  | .mediaCommand => (d.runNextMediaCommand, [])
  | .playout now peerIds => d.onPlayout π now peerIds
  | .followUp index => match d.followUps[index]? with
    | none => (d, [])
    | some followUp =>
      ({ d with
          status := runFollowUp d.status followUp
          followUps := d.followUps.eraseIdx index }, [])
  | .seedInviteHints invite => (d.withStatus fun status => Voicers.seedInviteHints status invite, [])
  | .setSession session => (d.withStatus fun status => { status with session := session }, [])
  | .saveKnownPeer peerId =>
    (d.withStatus fun status => (Voicers.saveKnownPeer status peerId).2, [])
  | .renameKnownPeer peerId displayName =>
    (d.withStatus fun status => (Voicers.renameKnownPeer status peerId displayName).2, [])
  | .forgetKnownPeer peerId =>
    (d.withStatus fun status => (Voicers.forgetKnownPeer status peerId).2, [])
  | .setTrustedContact peerId trustedContact =>
    (d.withStatus fun status => (Voicers.setTrustedContact status peerId trustedContact).2, [])
  | .toggleMutePeer peerId =>
    (d.withStatus fun status => updatePeer status peerId fun p => { p with muted := !p.muted }, [])
  | .setPeerVolumePercent peerId percent =>
    (d.withStatus fun status => updatePeer status peerId fun p =>
      { p with outputVolumePercent := min percent 200 }, [])

end Daemon

end Voicers
