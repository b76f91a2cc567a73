import Voicers.Lib.Ranked
import Voicers.Network.Dialing
import Mathlib.Data.List.Lex
import Mathlib.Data.String.Basic

/-! The addresses of a known peer as the terminal interface lists them
(`ui/model.rs` of the client), beside the order in which the daemon dials them.
The client does not parse addresses. -/

namespace Voicers

open Lib

structure FallbackCandidatePreview where
  address : String
  pathLabel : String
  scoreDelta : Int
  successes : Nat
  failures : Nat
  isLastDial : Bool
deriving DecidableEq

def addressPathLabel (address : String) : String :=
  if textContains address "/p2p-circuit/" then "libp2p-relay" else "libp2p-direct"

def pathScore (status : DaemonStatus) (pathLabel : String) : Nat × Nat :=
  match status.network.pathScores.find? (fun score => score.path = pathLabel) with
  | some score => (score.successes, score.failures)
  | none => (0, 0)

def candidateRank (status : DaemonStatus) (peer : KnownPeerSummary) (address : String) : List Int :=
  let boost (b : Bool) : Int := if b then 1 else 0
  let pathLabel := addressPathLabel address
  let score := pathScore status pathLabel
  let lastPeerBoost :=
    match status.network.pathScores.find? (fun score => score.path = pathLabel) with
    | some score => boost (score.lastPeerId = some peer.peerId)
    | none => 0
  let lastDialBoost := boost (peer.lastDialAddr = some address)
  [asI64 score.1 - asI64 score.2, lastPeerBoost, lastDialBoost]

def fallbackCandidates (peer : KnownPeerSummary) : List String :=
  (peer.lastDialAddr.toList ++ peer.addresses).foldl pushUnique []

def rankedFallbackCandidates (status : DaemonStatus) (peer : KnownPeerSummary) :
    List FallbackCandidatePreview :=
  let deduped := fallbackCandidates peer
  let rank := candidateRank status peer
  let sorted := deduped.insertionSort fun left right =>
    rank right < rank left ∨ (rank right = rank left ∧ left ≤ right)
  sorted.map fun address =>
    let pathLabel := addressPathLabel address
    let score := pathScore status pathLabel
    { address := address
      pathLabel := pathLabel
      scoreDelta := asI64 score.1 - asI64 score.2
      successes := score.1
      failures := score.2
      isLastDial := peer.lastDialAddr = some address }

/-- What the scores say about an address of a peer. -/
def standing (lib : Libp2p) (network : NetworkSummary) (peerId address : String) : List Int :=
  (dialCandidateRank lib network peerId address none).take 2

/-- The address the daemon takes for the last dialed one. -/
def bookedDialAddr (network : NetworkSummary) (peerId : String) : Option String :=
  (network.knownPeers.find? fun p => p.peerId = peerId).bind KnownPeerSummary.lastDialAddr

/-- The interface shows the addresses in the order in which they are dialed, and
names the path of each. -/
structure PreviewFollows (lib : Libp2p) (status : DaemonStatus) (peer : KnownPeerSummary) :
    Prop where
  order : (rankedFallbackCandidates status peer).map FallbackCandidatePreview.address =
    rankKnownPeerAddresses lib status.network peer none
  labels : ∀ entry ∈ rankedFallbackCandidates status peer,
    entry.pathLabel = addressPathName lib entry.address

/-- The text of each address tells whether it is a circuit, and the book has the
last dialed address the interface has. -/
structure Previewable (lib : Libp2p) (status : DaemonStatus) (peer : KnownPeerSummary) : Prop where
  circuits : ∀ address ∈ fallbackCandidates peer,
    textContains address "/p2p-circuit/" = true ↔
      ∃ components, lib.parseMultiaddr address = some components ∧ isRelayedAddr components = true
  dialed : MarksAgree (standing lib status.network peer.peerId) peer.lastDialAddr
    (bookedDialAddr status.network peer.peerId) (fallbackCandidates peer)

section

variable {lib : Libp2p} {status : DaemonStatus} {peer : KnownPeerSummary}

theorem standing_pair (lib : Libp2p) (network : NetworkSummary) (peerId address : String) :
    ∃ score lastPeer, standing lib network peerId address = [score, lastPeer] := ⟨_, _, rfl⟩

theorem dialCandidateRank_eq (network : NetworkSummary) (peerId address : String) :
    dialCandidateRank lib network peerId address none =
      standing lib network peerId address ++
        [if bookedDialAddr network peerId = some address then 1 else 0, 0] := by
  unfold standing dialCandidateRank bookedDialAddr
  cases network.knownPeers.find? (fun p => p.peerId = peerId) with
  | none => simp
  | some peer => simp

theorem candidateRank_eq {address : String}
    (hlabel : addressPathLabel address = addressPathName lib address) :
    candidateRank status peer address = standing lib status.network peer.peerId address ++
      [if peer.lastDialAddr = some address then 1 else 0] := by
  unfold candidateRank pathScore standing dialCandidateRank
  rw [hlabel]
  cases hpath : status.network.pathScores.find? (fun s => s.path = addressPathName lib address) with
  | none => simp [hpath, asI64]
  | some score => simp [hpath]

theorem boost_lt {p q : Prop} [Decidable p] [Decidable q] :
    ((if q then 1 else 0) < if p then (1 : Int) else 0) ↔ p ∧ ¬ q := by
  by_cases hp : p
  · by_cases hq : q
    · simp [hp, hq]
    · simp [hp, hq]
  · by_cases hq : q
    · simp [hp, hq]
    · simp [hp, hq]

theorem boost_eq {p q : Prop} [Decidable p] [Decidable q] :
    ((if q then 1 else 0) = if p then (1 : Int) else 0) ↔ (q ↔ p) := by
  by_cases hp : p
  · by_cases hq : q
    · simp [hp, hq]
    · simp [hp, hq]
  · by_cases hq : q
    · simp [hp, hq]
    · simp [hp, hq]

/-- A boost of zero or one after two scores orders as a mark does. -/
theorem rankBefore_boosted {rank : String → List Int} {group : String → List Int}
    {mark : Option String} {rest : List Int} {a b : String}
    (hgroup : ∀ address, ∃ score lastPeer, group address = [score, lastPeer])
    (ha : rank a = group a ++ (if mark = some a then 1 else 0) :: rest)
    (hb : rank b = group b ++ (if mark = some b then 1 else 0) :: rest) :
    RankBefore rank a b ↔ MarkedBefore group mark a b := by
  obtain ⟨scoreA, lastPeerA, hgroupA⟩ := hgroup a
  obtain ⟨scoreB, lastPeerB, hgroupB⟩ := hgroup b
  apply rankBefore_iff_markedBefore
  · rw [ha, hb, hgroupA, hgroupB]
    simp only [List.cons_append, List.nil_append, List.cons_lt_cons_iff, lt_self_iff_false,
      List.cons.injEq, and_false, or_false, and_true, boost_lt, and_or_left, ne_eq, and_assoc, or_assoc]
  · rw [ha, hb, hgroupA, hgroupB]
    simp only [List.cons_append, List.nil_append, List.cons.injEq, and_true, boost_eq, and_assoc]

theorem addressPathLabel_eq_iff (lib : Libp2p) (address : String) :
    addressPathLabel address = addressPathName lib address ↔
      (textContains address "/p2p-circuit/" = true ↔ ∃ components,
        lib.parseMultiaddr address = some components ∧ isRelayedAddr components = true) := by
  have hne : "libp2p-direct" ≠ "libp2p-relay" := by decide
  unfold addressPathLabel addressPathName libp2pRelayPath libp2pDirectPath
  cases lib.parseMultiaddr address with
  | none => by_cases htext : textContains address "/p2p-circuit/" <;> simp [htext]
  | some components =>
    by_cases htext : textContains address "/p2p-circuit/" <;>
      by_cases hrelayed : isRelayedAddr components <;> simp [htext, hrelayed]

theorem map_rankedFallbackCandidates :
    (rankedFallbackCandidates status peer).map FallbackCandidatePreview.address =
      (fallbackCandidates peer).insertionSort (RankBefore (candidateRank status peer)) := by
  rw [rankedFallbackCandidates, List.map_map]
  exact (List.map_id _).trans (insertionSort_congr fun _ _ _ _ => Iff.rfl)

theorem rankKnownPeerAddresses_none (network : NetworkSummary) :
    rankKnownPeerAddresses lib network peer none = (fallbackCandidates peer).insertionSort
      (RankBefore fun address => dialCandidateRank lib network peer.peerId address none) :=
  insertionSort_congr fun _ _ _ _ => Iff.rfl

theorem preview_labels_iff :
    (∀ entry ∈ rankedFallbackCandidates status peer,
      entry.pathLabel = addressPathName lib entry.address) ↔
      ∀ address ∈ fallbackCandidates peer, addressPathLabel address = addressPathName lib address := by
  simp [rankedFallbackCandidates]

/-- Once the labels are those of the daemon, the order is told by the marks. -/
theorem preview_order_iff
    (hlabels : ∀ address ∈ fallbackCandidates peer,
      addressPathLabel address = addressPathName lib address) :
    (rankedFallbackCandidates status peer).map FallbackCandidatePreview.address =
        rankKnownPeerAddresses lib status.network peer none ↔
      MarksAgree (standing lib status.network peer.peerId) peer.lastDialAddr
        (bookedDialAddr status.network peer.peerId) (fallbackCandidates peer) := by
  rw [map_rankedFallbackCandidates, rankKnownPeerAddresses_none, insertionSort_eq_iff,
    marksAgree_iff]
  refine forall₂_congr fun a ha => forall₂_congr fun b hb => ?_
  have hshown : RankBefore (candidateRank status peer) a b ↔ _ :=
    rankBefore_boosted (standing_pair lib status.network peer.peerId)
      (candidateRank_eq (hlabels a ha)) (candidateRank_eq (hlabels b hb))
  have hdialed : RankBefore
      (fun address => dialCandidateRank lib status.network peer.peerId address none) a b ↔ _ :=
    rankBefore_boosted (standing_pair lib status.network peer.peerId)
      (dialCandidateRank_eq status.network peer.peerId a)
      (dialCandidateRank_eq status.network peer.peerId b)
  rw [hshown, hdialed]

theorem preview_follows_iff (lib : Libp2p) (status : DaemonStatus) (peer : KnownPeerSummary) :
    PreviewFollows lib status peer ↔ Previewable lib status peer := by
  have hcircuits : (∀ address ∈ fallbackCandidates peer,
      addressPathLabel address = addressPathName lib address) ↔ _ :=
    forall₂_congr fun address _ => addressPathLabel_eq_iff lib address
  constructor
  · rintro ⟨horder, hlabels⟩
    have hlabels := preview_labels_iff.mp hlabels
    exact ⟨hcircuits.mp hlabels, (preview_order_iff hlabels).mp horder⟩
  · rintro ⟨hcirc, hdialed⟩
    have hlabels := hcircuits.mpr hcirc
    exact ⟨(preview_order_iff hlabels).mpr hdialed, preview_labels_iff.mpr hlabels⟩

/-- With one entry for each peer only the labels can differ. -/
theorem previewable_iff_of_nodup
    (hnodup : (status.network.knownPeers.map KnownPeerSummary.peerId).Nodup)
    (hpeer : peer ∈ status.network.knownPeers) :
    Previewable lib status peer ↔ ∀ address ∈ fallbackCandidates peer,
      textContains address "/p2p-circuit/" = true ↔ ∃ components,
        lib.parseMultiaddr address = some components ∧ isRelayedAddr components = true := by
  have hfound : status.network.knownPeers.find? (fun p => p.peerId = peer.peerId) = some peer := by
    exact find?_of_nodup hnodup hpeer
  have hbooked : bookedDialAddr status.network peer.peerId = peer.lastDialAddr := by
    rw [bookedDialAddr, hfound]
    rfl
  refine ⟨Previewable.circuits, fun hcircuits => ⟨hcircuits, fun address _ => .inl ?_⟩⟩
  rw [hbooked]

end

def circuitRelay : String := "QmQCU2EcMqAqQPR2i9bChDtGNJchTbq5TbXJJ16u19uLTa"

/-- A circuit through a relay to whoever is reserved there. -/
def trailingCircuit : String :=
  "/ip4/203.0.113.20/tcp/4001/p2p/" ++ circuitRelay ++ "/p2p-circuit"

def lanAddr : String := "/ip4/192.0.2.1/tcp/4001"

def trailingLibp2p : Libp2p where
  isPeerId _ := true
  parseMultiaddr text :=
    if text = trailingCircuit then
      some [.ip4 false false, .tcp, .p2p circuitRelay, .p2pCircuit]
    else if text = lanAddr then some [.ip4 false false, .tcp]
    else none
  allowLoopback := false

def relayedFriend : KnownPeerSummary where
  peerId := "QmNnooDu7bfjPFoTZYxMNLWUQJyrVwtbZg5gBMjTezGAJN"
  displayName := "friend"
  addresses := [lanAddr, trailingCircuit]
  lastDialAddr := none
  connected := false
  pinned := true
  seen := true
  whitelisted := false
  trustedContact := false

/-- The relay has worked three times. -/
def relayScored : DaemonStatus where
  localPeerId := "QmaCpDMGvV2BGHeYERUEnRQAwe3N8SzbUtfsmvsqQLuvuJ"
  session := { roomName := none, displayName := "local", selfMuted := false }
  network :=
    { observedAddrs := []
      pathScores := [{ path := libp2pRelayPath, successes := 3, failures := 0, lastPeerId := none }]
      savedPeerAddrs := []
      knownPeers := [relayedFriend]
      friends := [relayedFriend]
      seenUsers := []
      discoveredPeers := []
      ignoredPeerIds := [] }
  peers := []
  pendingPeerApprovals := []

/-- The daemon dials the circuit first, which is shown last and as direct. -/
theorem trailingCircuit_not_followed :
    relayedFriend ∈ relayScored.network.knownPeers ∧
      ¬ PreviewFollows trailingLibp2p relayScored relayedFriend := by
  refine ⟨List.mem_singleton_self _, fun hfollows => ?_⟩
  have hshown : (rankedFallbackCandidates relayScored relayedFriend).map
      FallbackCandidatePreview.address = [lanAddr, trailingCircuit] := by decide +kernel
  have hdialed : rankKnownPeerAddresses trailingLibp2p relayScored.network relayedFriend none =
      [trailingCircuit, lanAddr] := by decide +kernel
  have horder := hshown.symm.trans (hfollows.order.trans hdialed)
  exact absurd horder (by decide)

end Voicers
