import Voicers.Network.DaemonMove
import Voicers.Media.Receive

/-! Which peer a dial is tracked under. A dial connects to the peer that the
last `/p2p` component of its address names; a circuit address names its relay
before. -/

namespace Voicers

open Lib

variable {κ : Codec}

def Protocol.peerId? : Protocol → Option String
  | .p2p peerId => some peerId
  | _ => none

/-- The peer a dial of the address connects to. -/
def finalPeerId (address : List Protocol) : Option String :=
  (address.filterMap Protocol.peerId?).getLast?

/-- The first `/p2p` component names the destination, and the request is not
itself the id of another peer in the book. -/
def NamesDestination (network : NetworkSummary) (requested : String) (address : List Protocol)
    (dest : String) : Prop :=
  if network.knownPeers.any (fun p => p.peerId = trim requested) then trim requested = dest
  else multiaddrPeerId address = some dest

theorem multiaddrPeerId_eq_head? (address : List Protocol) :
    multiaddrPeerId address = (address.filterMap Protocol.peerId?).head? := by
  induction address with
  | nil => rfl
  | cons protocol address ih =>
    cases protocol with
    | p2p peerId => rfl
    | _ => exact ih

section

variable {lib : Libp2p} {network : NetworkSummary} {requested : String} {address : List Protocol}
  {dest : String}

theorem resolveRankedDialTarget_peerId (hparse : lib.parseMultiaddr (trim requested) = some address)
    {first : String} (hfirst : multiaddrPeerId address = some first) :
    (resolveRankedDialTarget lib network requested).peerId =
      if network.knownPeers.any (fun p => p.peerId = trim requested) then some (trim requested)
      else some first := by
  simp only [resolveRankedDialTarget, hparse, Option.bind_some, hfirst]
  cases hknown : network.knownPeers.find? (fun p => p.peerId = trim requested) with
  | some known =>
    have hid : known.peerId = trim requested := by simpa using List.find?_some hknown
    have hany : network.knownPeers.any (fun p => p.peerId = trim requested) = true :=
      List.any_eq_true.mpr ⟨known, List.mem_of_find?_eq_some hknown, by simpa using hid⟩
    simp only [hany, if_true, rankedTarget, hid]
  | none =>
    have hany : ¬ network.knownPeers.any (fun p => p.peerId = trim requested) = true := by
      simpa using hknown
    rw [if_neg hany]
    cases network.knownPeers.find? (fun p => p.peerId = first) with
    | some known => rfl
    | none => rfl

/-- A dial that the swarm accepts is tracked under the peer of its target, and
under no other. -/
theorem dialPeer_tracks {d : Daemon κ} (hnetwork : d.status.network = network)
    (hpeer : (resolveRankedDialTarget lib network requested).peerId = some dest)
    (hprimary :
      (lib.parseMultiaddr (resolveRankedDialTarget lib network requested).primary).isSome = true)
    (query : Nat) :
    (d.dialPeer lib requested query true).1.pendingDials = Function.update d.pendingDials dest
      (some ⟨(resolveRankedDialTarget lib network requested).primary,
        (resolveRankedDialTarget lib network requested).fallbacks⟩) := by
  obtain ⟨primary, hprimary⟩ := Option.isSome_iff_exists.mp hprimary
  simp only [Daemon.dialPeer, hnetwork, hprimary, Daemon.dialRankedTarget, if_true, hpeer]

theorem mem_peerIds_upsertPeer_self (lib : Libp2p) (state : DaemonStatus)
    (peerId address : String) : peerId ∈ (upsertPeer lib state peerId address).peerIds := by
  have hinsert : peerId ∈ (getOrInsertPeer state peerId address fun peer =>
      { peer with
        transport := .connected
        session := if peer.session = .none then .handshaking else peer.session }).peerIds := by
    simp only [DaemonStatus.peerIds, List.mem_map, getOrInsertPeer]
    apply exists_updateOrPush_of
    · intro q hq
      exact of_decide_eq_true hq
    · rfl
  simp only [upsertPeer]
  split
  · exact hinsert
  · rw [Daemon.updateKnownPeer_peerIds]
    split_ifs
    · exact hinsert
    · exact hinsert

theorem onConnectionEstablished_tracked {d : Daemon κ}
    (h : (d.pendingDials dest).isSome = true) (endpoint : Endpoint) :
    dest ∈ (d.onConnectionEstablished lib dest endpoint).1.status.peerIds := by
  have hsurface : shouldSurfaceConnectedPeer d.status dest (d.pendingDials dest).isSome = true := by
    simp only [shouldSurfaceConnectedPeer, h, Bool.true_or]
  simp only [Daemon.onConnectionEstablished]
  rw [if_pos hsurface, Daemon.sendSessionHello_status, (Daemon.queueMedia_mediaOnly _ _).samePeers]
  exact mem_peerIds_upsertPeer_self lib _ dest _

/-- A dial of the request is tracked under `dest`: its target is ranked for
this peer, and once the swarm has accepted the dial, the peer and no other has
a new entry among the pending dials, which its connection finds. -/
structure DialsAs (κ : Codec) (lib : Libp2p) (network : NetworkSummary) (requested dest : String) :
    Prop where
  peerId : (resolveRankedDialTarget lib network requested).peerId = some dest
  tracked : ∀ (d : Daemon κ) (query : Nat), d.status.network = network →
    (lib.parseMultiaddr (resolveRankedDialTarget lib network requested).primary).isSome = true →
    (d.dialPeer lib requested query true).1.pendingDials = Function.update d.pendingDials dest
      (some ⟨(resolveRankedDialTarget lib network requested).primary,
        (resolveRankedDialTarget lib network requested).fallbacks⟩) ∧
    ∀ endpoint, dest ∈ ((d.dialPeer lib requested query true).1.onConnectionEstablished lib dest
      endpoint).1.status.peerIds

theorem dialsAs_iff : DialsAs κ lib network requested dest ↔
    (resolveRankedDialTarget lib network requested).peerId = some dest := by
  refine ⟨DialsAs.peerId, fun hpeer => ⟨hpeer, fun d query hnetwork hprimary => ?_⟩⟩
  have htracks := dialPeer_tracks hnetwork hpeer hprimary query
  refine ⟨htracks, fun endpoint => onConnectionEstablished_tracked ?_ endpoint⟩
  rw [htracks, Function.update_self]
  rfl

/-- A dial is tracked under the peer that its address ends with exactly when
the first `/p2p` component names that peer. -/
theorem dial_identity_iff (hparse : lib.parseMultiaddr (trim requested) = some address)
    (hdest : finalPeerId address = some dest) :
    DialsAs κ lib network requested dest ↔ NamesDestination network requested address dest := by
  obtain ⟨first, hfirst⟩ : ∃ first, multiaddrPeerId address = some first := by
    rw [multiaddrPeerId_eq_head?]
    unfold finalPeerId at hdest
    cases hids : address.filterMap Protocol.peerId? with
    | nil => simp [hids] at hdest
    | cons first rest => exact ⟨first, rfl⟩
  rw [dialsAs_iff, resolveRankedDialTarget_peerId hparse hfirst, NamesDestination, hfirst]
  split_ifs
  · exact Option.some_inj
  · rfl

end

def circuitAddress : String :=
  "/ip4/203.0.113.20/tcp/4001/p2p/" ++ relayPeer ++ "/p2p-circuit/p2p/" ++ remotePeer

def circuitLibp2p : Libp2p :=
  { sampleLibp2p with
    parseMultiaddr := fun text =>
      if text = circuitAddress then
        some [.ip4 false false, .tcp, .p2p relayPeer, .p2pCircuit, .p2p remotePeer]
      else none }

theorem circuitAddress_parses : circuitLibp2p.parseMultiaddr (trim circuitAddress) =
    some [.ip4 false false, .tcp, .p2p relayPeer, .p2pCircuit, .p2p remotePeer] := by
  decide +kernel

theorem circuitAddress_dials_relay :
    (circuitLibp2p.parseMultiaddr (trim circuitAddress)).bind finalPeerId = some remotePeer ∧
      (resolveRankedDialTarget circuitLibp2p (sampleStatus emptyBook).network
        circuitAddress).peerId = some relayPeer ∧
      ¬ DialsAs silentCodec circuitLibp2p (sampleStatus emptyBook).network circuitAddress
        remotePeer := by
  have hrelay : (resolveRankedDialTarget circuitLibp2p (sampleStatus emptyBook).network
      circuitAddress).peerId = some relayPeer :=
    resolveRankedDialTarget_peerId circuitAddress_parses rfl
  refine ⟨by rw [circuitAddress_parses]; rfl, hrelay, fun hdials => ?_⟩
  have hsame := hrelay.symm.trans hdials.peerId
  exact absurd hsame (by decide)

theorem dial_identity_iff_circuitAddress :
    DialsAs silentCodec circuitLibp2p (sampleStatus emptyBook).network circuitAddress remotePeer ↔
      NamesDestination (sampleStatus emptyBook).network circuitAddress
        [.ip4 false false, .tcp, .p2p relayPeer, .p2pCircuit, .p2p remotePeer] remotePeer :=
  dial_identity_iff circuitAddress_parses rfl

end Voicers
