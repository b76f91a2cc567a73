import Voicers.Network.Session
import Mathlib.Algebra.Group.Int.Defs
import Mathlib.Data.List.Sort

/-! Which address is dialed and which way media goes
(`network/media_transport.rs`), and the peer book requests that decide it
(`app/peer_book.rs`, `network/invite.rs`). -/

namespace Voicers

open Lib

/-- A `u64` cast to `i64`. -/
def asI64 (n : Nat) : Int := if n < 2 ^ 63 then n else (n : Int) - 2 ^ 64

inductive Route
  | direct
  | relayed (via destination : String)
  | unreachable
deriving DecidableEq

/-- Trusted connected contacts that offer to relay for `target`, with the
score of the path last used with them. -/
def relayCandidates (state : DaemonStatus) (relayOffers : String → Option (List String))
    (target : String) : List (KnownPeerSummary × Int) :=
  (state.network.knownPeers.filter fun c =>
      c.trustedContact && c.connected &&
        match relayOffers c.peerId with
        | some list => list.contains target
        | none => false).map fun c =>
    (c, match state.network.pathScores.find? (fun s => s.lastPeerId = some c.peerId) with
      | some s => asI64 s.successes - asI64 s.failures
      | none => 0)

def relayBefore (a b : KnownPeerSummary × Int) : Prop :=
  b.2 < a.2 ∨ (b.2 = a.2 ∧ a.1.peerId ≤ b.1.peerId)

instance : DecidableRel relayBefore := fun _ _ => inferInstanceAs (Decidable (_ ∨ _))

def relayRoute (lib : Libp2p) (candidates : List (KnownPeerSummary × Int)) (target : String) :
    Route :=
  match candidates.insertionSort relayBefore with
  | [] => .unreachable
  | best :: _ =>
    if lib.isPeerId best.1.peerId ∧ lib.isPeerId target then .relayed best.1.peerId target
    else .unreachable

def resolveRoute (lib : Libp2p) (state : DaemonStatus)
    (relayOffers : String → Option (List String)) (target : String) : Route :=
  match state.knownPeer? target with
  | some peer =>
    if peer.connected && lib.isPeerId target then .direct
    else relayRoute lib (relayCandidates state relayOffers target) target
  | none => relayRoute lib (relayCandidates state relayOffers target) target

structure RankedDialTarget where
  peerId : Option String
  primary : String
  fallbacks : List String
deriving DecidableEq

/-- Path score, path last used with this peer, last dialed address, requested
address. -/
def dialCandidateRank (lib : Libp2p) (network : NetworkSummary) (peerId address : String)
    (requested : Option String) : List Int :=
  let boost (b : Bool) : Int := if b then 1 else 0
  let requestedBoost := boost (requested = some address)
  let lastDialBoost := match network.knownPeers.find? (fun p => p.peerId = peerId) with
    | some peer => boost (peer.lastDialAddr = some address)
    | none => 0
  let path := network.pathScores.find? (fun s => s.path = addressPathName lib address)
  let pathScore := match path with
    | some score => asI64 score.successes - asI64 score.failures
    | none => 0
  let lastPeerBoost := match path with
    | some score => boost (score.lastPeerId = some peerId)
    | none => 0
  [pathScore, lastPeerBoost, lastDialBoost, requestedBoost]

def rankKnownPeerAddresses (lib : Libp2p) (network : NetworkSummary)
    (knownPeer : KnownPeerSummary) (requested : Option String) : List String :=
  let candidates := requested.toList ++ knownPeer.lastDialAddr.toList ++ knownPeer.addresses
  let deduped := candidates.foldl pushUnique []
  let rank := fun address => dialCandidateRank lib network knownPeer.peerId address requested
  deduped.insertionSort fun left right =>
    rank right < rank left ∨ (rank right = rank left ∧ left ≤ right)

def rankedTarget (peerId requested : String) (ranked : List String) : RankedDialTarget where
  peerId := some peerId
  primary := ranked.headD requested
  fallbacks := ranked.drop 1

/-- The Unicode property `White_Space`. -/
def isWhiteSpace (c : Char) : Bool :=
  (0x9 ≤ c.val && c.val ≤ 0xD) || c.val = 0x20 || c.val = 0x85 || c.val = 0xA0 ||
    c.val = 0x1680 || (0x2000 ≤ c.val && c.val ≤ 0x200A) || c.val = 0x2028 || c.val = 0x2029 ||
    c.val = 0x202F || c.val = 0x205F || c.val = 0x3000

/-- `str::trim`. -/
def trim (text : String) : String :=
  String.ofList ((text.toList.dropWhile isWhiteSpace).reverse.dropWhile isWhiteSpace).reverse

def resolveRankedDialTarget (lib : Libp2p) (network : NetworkSummary) (requested : String) :
    RankedDialTarget :=
  let requested := trim requested
  match network.knownPeers.find? (fun p => p.peerId = requested) with
  | some knownPeer =>
    rankedTarget knownPeer.peerId requested (rankKnownPeerAddresses lib network knownPeer none)
  | none =>
    let parsedPeer := (lib.parseMultiaddr requested).bind multiaddrPeerId
    match parsedPeer with
    | some peerId =>
      match network.knownPeers.find? (fun p => p.peerId = peerId) with
      | some knownPeer =>
        rankedTarget peerId requested
          (rankKnownPeerAddresses lib network knownPeer (some requested))
      | none => { peerId := some peerId, primary := requested, fallbacks := [] }
    | none =>
      if lib.isPeerId requested then
        { peerId := some requested, primary := requested, fallbacks := [] }
      else { peerId := none, primary := requested, fallbacks := [] }

/-- The addresses of an invite found through the DHT. -/
def seedRendezvousInvite (lib : Libp2p) (state : DaemonStatus) (invite : CompactInviteV1) :
    DaemonStatus :=
  let state := { state with network := { state.network with
    ignoredPeerIds := state.network.ignoredPeerIds.filter (· ≠ invite.peerId) } }
  let state := updateKnownPeer lib state invite.peerId none none false false
  invite.addrs.foldl
    (fun state address =>
      let normalized := (shareableAddress lib address invite.peerId).getD (trim address)
      if normalized = "" then state
      else { state with network := { state.network with
        savedPeerAddrs := pushUnique state.network.savedPeerAddrs normalized
        knownPeers := updateFirst (fun p => p.peerId = invite.peerId)
          (fun p => { p with
            addresses := pushUnique p.addresses normalized
            lastDialAddr := some normalized })
          state.network.knownPeers } })
    state

def seedInviteHints (state : DaemonStatus) (invite : CompactInviteV1) : DaemonStatus :=
  let known := state.network.knownPeers
  let hint (p : KnownPeerSummary) (address : String) : KnownPeerSummary :=
    { p with
      addresses := pushUnique p.addresses address
      lastDialAddr := p.lastDialAddr.or (some address) }
  let new : KnownPeerSummary :=
    { peerId := invite.peerId
      displayName := "peer " ++ shortPeerId invite.peerId
      addresses := []
      lastDialAddr := none
      connected := false
      pinned := false
      seen := false
      whitelisted := false
      trustedContact := false }
  let addrs := (invite.addrs.map trim).filter (· ≠ "")
  { state with network := NetworkSummary.refreshUserViews { state.network with
      ignoredPeerIds := state.network.ignoredPeerIds.filter (· ≠ invite.peerId)
      knownPeers := updateOrPush (fun p => p.peerId = invite.peerId)
        (fun p => addrs.foldl hint p) new known
      savedPeerAddrs := addrs.foldl pushUnique state.network.savedPeerAddrs } }

def saveKnownPeer (state : DaemonStatus) (peerId : String) : Except String String × DaemonStatus :=
  let livePeer := state.peer? peerId
  let state := { state with network := { state.network with
    ignoredPeerIds := state.network.ignoredPeerIds.filter (· ≠ peerId) } }
  let isActive (p : PeerSummary) : Bool := match p.session with
    | .active _ _ => true
    | _ => false
  let applyLivePeerMetadata (known : KnownPeerSummary) (live : PeerSummary) : KnownPeerSummary :=
    { known with
      displayName := live.displayName
      seen := known.seen || isActive live
      connected := live.transport = .connected
      addresses := if live.address ≠ "" ∧ live.address ≠ "<unknown>" then
          pushUnique known.addresses live.address else known.addresses
      lastDialAddr := if live.address ≠ "" ∧ live.address ≠ "<unknown>" then
          some live.address else known.lastDialAddr }
  let refresh (state : DaemonStatus) (knownPeers : List KnownPeerSummary) : DaemonStatus :=
    { state with network :=
        NetworkSummary.refreshUserViews { state.network with knownPeers := knownPeers } }
  match state.knownPeer? peerId, livePeer with
  | some existing, live =>
    let update (p : KnownPeerSummary) : KnownPeerSummary := match live with
      | some live => applyLivePeerMetadata { p with pinned := true } live
      | none => { p with pinned := true }
    (.ok (update existing).displayName,
      refresh state (updateFirst (fun p => p.peerId = peerId) update state.network.knownPeers))
  | none, some live =>
    let usable := live.address ≠ "<unknown>"
    (.ok live.displayName,
      refresh state (state.network.knownPeers ++
        [{ peerId := live.peerId
           displayName := live.displayName
           addresses := if usable then [live.address] else []
           lastDialAddr := if usable then some live.address else none
           connected := live.transport = .connected
           pinned := true
           seen := isActive live
           whitelisted := false
           trustedContact := false }]))
  | none, none => (.error "peer not found", state)

def renameKnownPeer (state : DaemonStatus) (peerId displayName : String) :
    Except String Unit × DaemonStatus :=
  let renamed := state.network.knownPeers.any (fun p => p.peerId = peerId) ||
    state.peers.any (fun p => p.peerId = peerId)
  if renamed then
    (.ok (), { state with
      network := NetworkSummary.refreshUserViews { state.network with
        knownPeers := updateFirst (fun p => p.peerId = peerId)
          (fun p => { p with displayName := displayName, pinned := true })
          state.network.knownPeers }
      peers := updateFirst (fun p => p.peerId = peerId)
        (fun p => { p with displayName := displayName }) state.peers })
  else (.error "known peer not found", state)

def forgetKnownPeer (state : DaemonStatus) (peerId : String) : Except String Unit × DaemonStatus :=
  if state.network.knownPeers.any (fun p => p.peerId = peerId) then
    (.ok (), { state with network := NetworkSummary.refreshUserViews { state.network with
      knownPeers := updateFirst (fun p => p.peerId = peerId)
        (fun p => { p with pinned := false }) state.network.knownPeers
      ignoredPeerIds := pushUnique state.network.ignoredPeerIds peerId } })
  else (.error "known peer not found", state)

def setTrustedContact (state : DaemonStatus) (peerId : String) (trustedContact : Bool) :
    Except String Unit × DaemonStatus :=
  if state.network.knownPeers.any (fun p => p.peerId = peerId) then
    (.ok (), { state with network := NetworkSummary.refreshUserViews { state.network with
      knownPeers := updateFirst (fun p => p.peerId = peerId)
        (fun p => { p with trustedContact := trustedContact }) state.network.knownPeers } })
  else (.error "peer not found in known peers", state)

section

variable {lib : Libp2p} {network : NetworkSummary} {knownPeer : KnownPeerSummary}
  {requested : Option String}

theorem rankKnownPeerAddresses_perm :
    (rankKnownPeerAddresses lib network knownPeer requested).Perm
      ((requested.toList ++ knownPeer.lastDialAddr.toList ++ knownPeer.addresses).foldl
        pushUnique []) :=
  List.perm_insertionSort _ _

theorem mem_rankKnownPeerAddresses {address : String} :
    address ∈ rankKnownPeerAddresses lib network knownPeer requested ↔
      requested = some address ∨ knownPeer.lastDialAddr = some address ∨
        address ∈ knownPeer.addresses := by
  rw [rankKnownPeerAddresses_perm.mem_iff, mem_foldl_pushUnique]
  simp

theorem nodup_rankKnownPeerAddresses :
    (rankKnownPeerAddresses lib network knownPeer requested).Nodup :=
  rankKnownPeerAddresses_perm.nodup_iff.mpr (nodup_foldl_pushUnique _ .nil)

theorem rankedTarget_addresses (peerId requested : String) {ranked : List String}
    (h : ranked ≠ []) :
    (rankedTarget peerId requested ranked).primary ::
      (rankedTarget peerId requested ranked).fallbacks = ranked := by
  cases ranked with
  | nil => exact absurd rfl h
  | cons primary fallbacks => rfl

theorem resolveRankedDialTarget_known (lib : Libp2p) {requested : String}
    (hknown : network.knownPeers.find? (fun p => p.peerId = trim requested) = some knownPeer) :
    resolveRankedDialTarget lib network requested =
      rankedTarget (trim requested) (trim requested)
        (rankKnownPeerAddresses lib network knownPeer none) := by
  have hid : knownPeer.peerId = trim requested := by simpa using List.find?_some hknown
  simp only [resolveRankedDialTarget, hknown]
  rw [hid]

end

end Voicers
