import Mathlib.Data.Finset.Basic

/-! The status record of a daemon and the messages daemons exchange
(`voicers-core`). Machine counters are natural numbers; notes, stage texts,
audio levels and room records are left out. -/

namespace Voicers

inductive PeerTransportState
  | planned
  | connecting
  | connected
  | disconnected
deriving DecidableEq

inductive PeerSessionState
  | none
  | handshaking
  | active (roomName : Option String) (displayName : String)
deriving DecidableEq

inductive MediaStreamState
  | idle
  | primed
  | active
deriving DecidableEq

structure PeerMediaState where
  streamState : MediaStreamState
  sentPackets : Nat
  receivedPackets : Nat
  lostPackets : Nat
  latePackets : Nat
  concealedFrames : Nat
  driftCorrections : Nat
  queuedPackets : Nat
  decodedFrames : Nat
  queuedSamples : Nat
  lastSequence : Option UInt64
  routeVia : Option String
deriving DecidableEq

structure PeerSummary where
  peerId : String
  displayName : String
  address : String
  muted : Bool
  outputVolumePercent : Nat
  outputBus : String
  transport : PeerTransportState
  session : PeerSessionState
  media : PeerMediaState
deriving DecidableEq

structure PendingPeerApprovalSummary where
  peerId : String
  displayName : String
  address : String
  roomName : Option String
  known : Bool
deriving DecidableEq

structure KnownPeerSummary where
  peerId : String
  displayName : String
  addresses : List String
  lastDialAddr : Option String
  connected : Bool
  pinned : Bool
  seen : Bool
  whitelisted : Bool
  trustedContact : Bool
deriving DecidableEq

structure PathScoreSummary where
  path : String
  successes : Nat
  failures : Nat
  lastPeerId : Option String
deriving DecidableEq

structure NetworkSummary where
  observedAddrs : List String
  pathScores : List PathScoreSummary
  savedPeerAddrs : List String
  knownPeers : List KnownPeerSummary
  friends : List KnownPeerSummary
  seenUsers : List KnownPeerSummary
  discoveredPeers : List KnownPeerSummary
  ignoredPeerIds : List String
deriving DecidableEq

structure SessionSummary where
  roomName : Option String
  displayName : String
  selfMuted : Bool
deriving DecidableEq

structure DaemonStatus where
  localPeerId : String
  session : SessionSummary
  network : NetworkSummary
  peers : List PeerSummary
  pendingPeerApprovals : List PendingPeerApprovalSummary
deriving DecidableEq

structure SessionHello where
  roomName : Option String
  displayName : String
  trustedContacts : List String
deriving DecidableEq

inductive MediaFrameKind
  | probe
  | audioOpus
deriving DecidableEq

structure MediaFrame where
  sequence : UInt64
  timestampMs : UInt64
  timestampSamples : UInt64
  frameKind : MediaFrameKind
  sampleRateHz : UInt32
  channels : UInt8
  frameDurationMs : UInt16
  payload : List UInt8
deriving DecidableEq

structure MediaAck where
  acceptedSequence : UInt64
  queueDepth : Nat
  queuedSamples : Nat
deriving DecidableEq

inductive MediaRequest
  | frame (frame : MediaFrame)
  | relayedFrame (destination : String) (frame : MediaFrame)
deriving DecidableEq

inductive MediaResponse
  | ack (ack : MediaAck)
  | relayAck (destination : String) (ack : MediaAck)
  | relayDenied (destination : String) (reason : String)
deriving DecidableEq

inductive SessionResponse
  | helloAck (hello : SessionHello)
  | joinDenied (message : String)
deriving DecidableEq

inductive CompactInviteKind
  | directCall
  | room
deriving DecidableEq

structure CompactInviteV1 where
  v : UInt8
  kind : CompactInviteKind
  peerId : String
  addrs : List String
  inviteCode : Option String
  roomName : Option String
  expiresAtMs : Option Nat
deriving DecidableEq

/-- The three views split the peer book by `pinned` and `seen`, in the order
of the book. -/
def NetworkSummary.refreshUserViews (network : NetworkSummary) : NetworkSummary :=
  { network with
    friends := network.knownPeers.filter (fun p => p.pinned)
    seenUsers := network.knownPeers.filter (fun p => !p.pinned && p.seen)
    discoveredPeers := network.knownPeers.filter (fun p => !p.pinned && !p.seen) }

/-- The hello a daemon sends, with the peers it offers to relay for. -/
def DaemonStatus.localHello (state : DaemonStatus) : SessionHello where
  roomName := state.session.roomName
  displayName := state.session.displayName
  trustedContacts := (state.network.knownPeers.filter (fun p => p.trustedContact)).map
    KnownPeerSummary.peerId

def DaemonStatus.peer? (state : DaemonStatus) (peerId : String) : Option PeerSummary :=
  state.peers.find? (fun p => p.peerId = peerId)

def DaemonStatus.knownPeer? (state : DaemonStatus) (peerId : String) : Option KnownPeerSummary :=
  state.network.knownPeers.find? (fun p => p.peerId = peerId)

end Voicers
