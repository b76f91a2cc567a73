import Voicers.Network.Address
import Mathlib.Algebra.Group.Nat.Defs

/-! Sessions with remote peers (`network/session.rs`) and the peer book they
feed (`network.rs`). Each function is what its source does to the shared
status while it holds the lock. -/

namespace Voicers

open Lib

def u64Max : Nat := 2 ^ 64 - 1

def recordPathScore (state : DaemonStatus) (path : String) (peerId : Option String)
    (success : Bool) : DaemonStatus :=
  { state with network := { state.network with
      pathScores := updateOrPush (fun score => score.path = path)
        (fun score =>
          if success then
            { score with successes := min (score.successes + 1) u64Max, lastPeerId := peerId }
          else { score with failures := min (score.failures + 1) u64Max, lastPeerId := peerId })
        { path := path, successes := 0, failures := 0, lastPeerId := none }
        state.network.pathScores } }

def updateKnownPeer (lib : Libp2p) (state : DaemonStatus) (peerId : String)
    (address displayName : Option String) (connected seen : Bool) : DaemonStatus :=
  if peerId ∈ state.network.ignoredPeerIds then state
  else
    let normalizedAddr := address.bind fun addr => shareableAddress lib addr peerId
    let update (entry : KnownPeerSummary) : KnownPeerSummary :=
      { entry with
        displayName := displayName.getD entry.displayName
        addresses := match normalizedAddr with
          | some addr => pushUnique entry.addresses addr
          | none => entry.addresses
        lastDialAddr := normalizedAddr.or entry.lastDialAddr
        connected := connected
        seen := entry.seen || seen }
    let new : KnownPeerSummary :=
      { peerId := peerId
        displayName := displayName.getD ("peer " ++ shortPeerId peerId)
        addresses := []
        lastDialAddr := none
        connected := connected
        pinned := false
        seen := seen
        whitelisted := false
        trustedContact := false }
    { state with network := NetworkSummary.refreshUserViews { state.network with
        knownPeers := updateOrPush (fun p => p.peerId = peerId) update new
          state.network.knownPeers } }

/-- `{index:02}`. -/
def twoDigits (index : Nat) : String :=
  if index < 10 then "0" ++ toString index else toString index

def newPeer (index : Nat) (peerId address : String) : PeerSummary where
  peerId := peerId
  displayName := "peer " ++ toString index
  address := address
  muted := false
  outputVolumePercent := 100
  outputBus := "peer_bus_" ++ twoDigits index
  transport := .connecting
  session := .none
  media :=
    { streamState := .idle, sentPackets := 0, receivedPackets := 0, lostPackets := 0,
      latePackets := 0, concealedFrames := 0, driftCorrections := 0, queuedPackets := 0,
      decodedFrames := 0, queuedSamples := 0, lastSequence := none, routeVia := none }

/-- `get_or_insert_peer` and the changes its caller makes to the entry. -/
def getOrInsertPeer (state : DaemonStatus) (peerId address : String)
    (update : PeerSummary → PeerSummary) : DaemonStatus :=
  { state with
    peers := updateOrPush (fun p => p.peerId = peerId)
      (fun p => update { p with address := address })
      (newPeer (state.peers.length + 1) peerId address) state.peers }

def upsertPeer (lib : Libp2p) (state : DaemonStatus) (peerId address : String) : DaemonStatus :=
  let state := getOrInsertPeer state peerId address fun peer =>
    { peer with
      transport := .connected
      session := if peer.session = .none then .handshaking else peer.session }
  match state.peer? peerId with
  | none => state
  | some peer =>
    let state := if peer.address ≠ "<unknown>" then
        { state with network := { state.network with
            savedPeerAddrs := pushUnique state.network.savedPeerAddrs peer.address } }
      else state
    updateKnownPeer lib state peerId (some peer.address) (some peer.displayName) true false

def isPeerWhitelisted (state : DaemonStatus) (peerId : String) : Bool :=
  match state.knownPeer? peerId with
  | some peer => peer.whitelisted
  | none => false

def shouldGatePeerApproval (state : DaemonStatus) (peerId : String) : Bool :=
  !isPeerWhitelisted state peerId

structure PendingInboundApproval where
  hello : SessionHello
  channel : Nat
deriving DecidableEq

/-- The entry is listed with the data of the first hello; the held hello is
the latest one. -/
def queuePendingPeerApproval (state : DaemonStatus) (peerId : String) (hello : SessionHello) :
    DaemonStatus :=
  let address := match state.peer? peerId with
    | some peer => peer.address
    | none => "<unknown>"
  let known := state.network.knownPeers.any fun p => p.peerId = peerId
  if state.pendingPeerApprovals.any (fun pending => pending.peerId = peerId) then state
  else { state with
    pendingPeerApprovals := state.pendingPeerApprovals ++
      [{ peerId := peerId, displayName := hello.displayName, address := address,
         roomName := hello.roomName, known := known }] }

def removePendingApproval (state : DaemonStatus) (peerId : String) : DaemonStatus :=
  { state with
    pendingPeerApprovals := state.pendingPeerApprovals.filter fun pending =>
      pending.peerId ≠ peerId }

def applySessionHello (lib : Libp2p) (state : DaemonStatus) (peerId : String)
    (hello : SessionHello) : DaemonStatus :=
  let state := { state with
    peers := updateOrPush (fun p => p.peerId = peerId)
      (fun p => { p with
        displayName := hello.displayName
        session := .active hello.roomName hello.displayName
        transport := .connected })
      (newPeer (state.peers.length + 1) peerId "<unknown>") state.peers }
  match state.peer? peerId with
  | none => state
  | some peer =>
    updateKnownPeer lib state peerId (some peer.address) (some hello.displayName) true true

def shouldSurfaceApprovedPeer (state : DaemonStatus) (peerId : String) : Bool :=
  state.peers.any (fun p => p.peerId = peerId) ||
    state.network.knownPeers.any (fun p => p.peerId = peerId)

def shouldSurfacePeerMetadata (state : DaemonStatus) (peerId : String) : Bool :=
  state.peers.any (fun p => p.peerId = peerId) ||
    state.network.knownPeers.any (fun p => p.peerId = peerId) ||
    state.pendingPeerApprovals.any (fun pending => pending.peerId = peerId)

def shouldSurfaceConnectedPeer (state : DaemonStatus) (peerId : String) (hadPendingDial : Bool) :
    Bool :=
  hadPendingDial || shouldSurfacePeerMetadata state peerId

/-- `already_connected`, the first half of the gate for an inbound hello. -/
def alreadyConnected (state : DaemonStatus) (peerId : String) : Bool :=
  state.peers.any fun p => p.peerId = peerId && p.transport = .connected

end Voicers
