import Voicers.Lib.Ranked
import Voicers.Network.DaemonStep
import Mathlib.Data.List.Lex
import Mathlib.Data.Prod.Lex
import Mathlib.Data.String.Basic

/-! The order in which the addresses of a known peer are dialed, and that it
depends on nothing but the set of them. -/

namespace Voicers

open Lib

def pathDelta (network : NetworkSummary) (path : String) : Int :=
  match network.pathScores.find? (fun s => s.path = path) with
  | some score => score.successes - score.failures
  | none => 0

def pathLastPeer (network : NetworkSummary) (path : String) : Option String :=
  (network.pathScores.find? fun s => s.path = path).bind PathScoreSummary.lastPeerId

/-- Score of the path, and whether it was last used with the peer, whether the
address was last dialed, whether it is requested. -/
abbrev DialKey := Int ×ₗ Bool ×ₗ Bool ×ₗ Bool

def dialKey (lib : Libp2p) (network : NetworkSummary) (peer : KnownPeerSummary)
    (requested : Option String) (address : String) : DialKey :=
  toLex (pathDelta network (addressPathName lib address),
    toLex (decide (pathLastPeer network (addressPathName lib address) = some peer.peerId),
      toLex (decide (peer.lastDialAddr = some address), decide (requested = some address))))

/-- The scores as the counters of the network task hold them. -/
def ScoresFit (network : NetworkSummary) : Prop :=
  ∀ score ∈ network.pathScores, score.successes < 2 ^ 63 ∧ score.failures < 2 ^ 63

/-- The book with another list of addresses for the peer. -/
def NetworkSummary.withAddresses (network : NetworkSummary) (peerId : String)
    (addresses : List String) : NetworkSummary :=
  { network with
    knownPeers := network.knownPeers.map fun peer =>
      if peer.peerId = peerId then { peer with addresses := addresses } else peer }

section

variable {lib : Libp2p} {network : NetworkSummary} {peer : KnownPeerSummary}
  {requested : Option String} {address : String}

def DialKey.rank (key : DialKey) : List Int :=
  let boost (b : Bool) : Int := if b then 1 else 0
  [(ofLex key).1, boost (ofLex (ofLex key).2).1, boost (ofLex (ofLex (ofLex key).2).2).1,
    boost (ofLex (ofLex (ofLex key).2).2).2]

theorem DialKey.rank_lt_iff {key other : DialKey} : key.rank < other.rank ↔ key < other := by
  obtain ⟨score, lastPeer, lastDial, wanted⟩ := key
  obtain ⟨score', lastPeer', lastDial', wanted'⟩ := other
  have hboost : ∀ b c : Bool, ((if b then 1 else 0 : Int) < if c then 1 else 0) ↔ b < c := by decide
  have hsame : ∀ b c : Bool, ((if b then 1 else 0 : Int) = if c then 1 else 0) ↔ b = c := by decide
  simp only [rank, List.cons_lt_cons_iff, hboost, hsame, List.not_lt_nil, and_false, or_false]
  change _ ↔ toLex (score, toLex (lastPeer, toLex (lastDial, wanted))) <
    toLex (score', toLex (lastPeer', toLex (lastDial', wanted')))
  simp only [Prod.Lex.toLex_lt_toLex]
  rfl

theorem DialKey.rank_inj {key other : DialKey} : key.rank = other.rank ↔ key = other := by
  constructor
  · intro h
    refine le_antisymm (not_lt.mp fun hlt => ?_) (not_lt.mp fun hlt => ?_)
    · exact (DialKey.rank_lt_iff.mpr hlt).ne h.symm
    · exact (DialKey.rank_lt_iff.mpr hlt).ne h
  · rintro rfl
    rfl

theorem dialCandidateRank_eq_rank (hscores : ScoresFit network)
    (hpeer : network.knownPeers.find? (fun p => p.peerId = peer.peerId) = some peer)
    (requested : Option String) (address : String) :
    dialCandidateRank lib network peer.peerId address requested =
      (dialKey lib network peer requested address).rank := by
  unfold dialCandidateRank dialKey DialKey.rank pathDelta pathLastPeer
  simp only [hpeer, ofLex_toLex]
  cases hscore : network.pathScores.find? (fun s => s.path = addressPathName lib address) with
  | none => simp
  | some score =>
    have hfit : ∀ n < 2 ^ 63, asI64 n = n := fun n hn => if_pos hn
    obtain ⟨hsuccesses, hfailures⟩ := hscores score (List.mem_of_find?_eq_some hscore)
    simp [hfit _ hsuccesses, hfit _ hfailures]

theorem rankKnownPeerAddresses_eq (hscores : ScoresFit network)
    (hpeer : network.knownPeers.find? (fun p => p.peerId = peer.peerId) = some peer) :
    rankKnownPeerAddresses lib network peer requested =
      ((requested.toList ++ peer.lastDialAddr.toList ++ peer.addresses).foldl pushUnique
        []).insertionSort (RankBefore (dialKey lib network peer requested)) := by
  refine insertionSort_congr fun a _ b _ => ?_
  simp only [dialCandidateRank_eq_rank hscores hpeer, DialKey.rank_lt_iff, DialKey.rank_inj]
  rfl

theorem find?_withAddresses (hids : (network.knownPeers.map KnownPeerSummary.peerId).Nodup)
    (hpeer : peer ∈ network.knownPeers) (addresses : List String) :
    (network.withAddresses peer.peerId addresses).knownPeers.find?
        (fun p => p.peerId = peer.peerId) = some { peer with addresses := addresses } := by
  have hkeep : ∀ p : KnownPeerSummary, (if p.peerId = peer.peerId then
      { p with addresses := addresses } else p).peerId = p.peerId := by
    intro p
    split_ifs
    · rfl
    · rfl
  simp only [NetworkSummary.withAddresses, List.find?_map, Function.comp_def, hkeep,
    find?_of_nodup hids hpeer, Option.map_some, if_true]

/-- The ranked list of the same addresses is the same. -/
theorem rankKnownPeerAddresses_withAddresses (hscores : ScoresFit network)
    (hids : (network.knownPeers.map KnownPeerSummary.peerId).Nodup)
    (hpeer : peer ∈ network.knownPeers) {addresses : List String}
    (hsame : ∀ a, a ∈ addresses ↔ a ∈ peer.addresses) :
    rankKnownPeerAddresses lib (network.withAddresses peer.peerId addresses)
        { peer with addresses := addresses } requested =
      rankKnownPeerAddresses lib network peer requested := by
  have hother : ScoresFit (network.withAddresses peer.peerId addresses) := hscores
  rw [rankKnownPeerAddresses_eq hscores (find?_of_nodup hids hpeer),
    rankKnownPeerAddresses_eq hother (find?_withAddresses hids hpeer addresses)]
  have hkey : dialKey lib (network.withAddresses peer.peerId addresses)
      { peer with addresses := addresses } requested = dialKey lib network peer requested := rfl
  rw [hkey]
  apply insertionSort_eq_of_perm
  rw [List.perm_ext_iff_of_nodup (nodup_foldl_pushUnique _ .nil) (nodup_foldl_pushUnique _ .nil)]
  intro a
  simp only [mem_foldl_pushUnique, List.mem_append, hsame]

theorem resolveRankedDialTarget_multiaddr {text : String}
    (hunknown : network.knownPeers.find? (fun p => p.peerId = trim text) = none)
    (hnames : (lib.parseMultiaddr (trim text)).bind multiaddrPeerId = some peer.peerId)
    (hpeer : network.knownPeers.find? (fun p => p.peerId = peer.peerId) = some peer) :
    resolveRankedDialTarget lib network text =
      rankedTarget peer.peerId (trim text)
        (rankKnownPeerAddresses lib network peer (some (trim text))) := by
  simp only [resolveRankedDialTarget, hunknown, hnames, hpeer]

theorem nodup_rankedTarget {peerId text : String} {ranked : List String} (h : ranked.Nodup) :
    ((rankedTarget peerId text ranked).primary ::
      (rankedTarget peerId text ranked).fallbacks).Nodup := by
  cases ranked with
  | nil => exact List.nodup_singleton _
  | cons primary fallbacks => exact h

theorem nodup_resolveRankedDialTarget (lib : Libp2p) (network : NetworkSummary) (text : String) :
    ((resolveRankedDialTarget lib network text).primary ::
      (resolveRankedDialTarget lib network text).fallbacks).Nodup := by
  simp only [resolveRankedDialTarget]
  split
  · exact nodup_rankedTarget nodup_rankKnownPeerAddresses
  · split
    · split
      · exact nodup_rankedTarget nodup_rankKnownPeerAddresses
      · exact List.nodup_singleton _
    · split_ifs
      · exact List.nodup_singleton _
      · exact List.nodup_singleton _

/-- The dial of the text ranks the addresses of the peer: the text is its id,
or a multiaddr of it, which is then requested. -/
def RanksFor (lib : Libp2p) (network : NetworkSummary) (text : String) (peer : KnownPeerSummary)
    (requested : Option String) : Prop :=
  requested = none ∧ trim text = peer.peerId ∨
    requested = some (trim text) ∧ (∀ p ∈ network.knownPeers, p.peerId ≠ trim text) ∧
      (lib.parseMultiaddr (trim text)).bind multiaddrPeerId = some peer.peerId

theorem resolveRankedDialTarget_ranks {text : String}
    (hpeer : network.knownPeers.find? (fun p => p.peerId = peer.peerId) = some peer)
    (h : RanksFor lib network text peer requested) :
    resolveRankedDialTarget lib network text =
      rankedTarget peer.peerId (trim text) (rankKnownPeerAddresses lib network peer requested) := by
  rcases h with ⟨rfl, htext⟩ | ⟨rfl, hunknown, hnames⟩
  · rw [← htext] at hpeer
    rw [resolveRankedDialTarget_known lib hpeer, htext]
  · refine resolveRankedDialTarget_multiaddr ?_ hnames hpeer
    simpa [List.find?_eq_none] using hunknown

/-- The ranked list is the set of the candidates in the order of their keys,
whatever the order in the book, and a dial takes it apart. -/
theorem dial_ranking (lib : Libp2p) (hscores : ScoresFit network)
    (hids : (network.knownPeers.map KnownPeerSummary.peerId).Nodup)
    (hpeer : peer ∈ network.knownPeers) (requested : Option String) :
    (rankKnownPeerAddresses lib network peer requested).Nodup ∧
      (∀ a, a ∈ rankKnownPeerAddresses lib network peer requested ↔
        requested = some a ∨ peer.lastDialAddr = some a ∨ a ∈ peer.addresses) ∧
      (rankKnownPeerAddresses lib network peer requested).Pairwise (fun a b =>
        dialKey lib network peer requested b < dialKey lib network peer requested a ∨
          dialKey lib network peer requested b = dialKey lib network peer requested a ∧ a < b) ∧
      (∀ addresses, (∀ a, a ∈ addresses ↔ a ∈ peer.addresses) →
        rankKnownPeerAddresses lib (network.withAddresses peer.peerId addresses)
            { peer with addresses := addresses } requested =
          rankKnownPeerAddresses lib network peer requested) ∧
      ∀ text, RanksFor lib network text peer requested →
        (resolveRankedDialTarget lib network text).peerId = some peer.peerId ∧
          if rankKnownPeerAddresses lib network peer requested = [] then
            (resolveRankedDialTarget lib network text).primary = trim text ∧
              (resolveRankedDialTarget lib network text).fallbacks = []
          else (resolveRankedDialTarget lib network text).primary ::
              (resolveRankedDialTarget lib network text).fallbacks =
            rankKnownPeerAddresses lib network peer requested := by
  have hfound := find?_of_nodup hids hpeer
  refine ⟨nodup_rankKnownPeerAddresses, fun a => mem_rankKnownPeerAddresses, ?_,
    fun addresses hsame => rankKnownPeerAddresses_withAddresses hscores hids hpeer hsame, ?_⟩
  · rw [rankKnownPeerAddresses_eq hscores hfound]
    refine (pairwise_ne_insertionSort (nodup_foldl_pushUnique _ .nil)).imp ?_
    rintro a b ⟨hlt | ⟨hsame, hle⟩, hne⟩
    · exact .inl hlt
    · exact .inr ⟨hsame, lt_of_le_of_ne hle hne⟩
  · intro text htext
    rw [resolveRankedDialTarget_ranks hfound htext]
    refine ⟨rfl, ?_⟩
    split_ifs with hnone
    · rw [hnone]
      exact ⟨rfl, rfl⟩
    · exact rankedTarget_addresses _ _ hnone

end

/-- A friend whose addresses were noted more than once. -/
def rankedFriend : KnownPeerSummary where
  peerId := remotePeer
  displayName := "friend"
  addresses := ["/dns4/b.example", "/dns4/a.example", "/dns4/b.example"]
  lastDialAddr := some "/dns4/c.example"
  connected := false
  pinned := true
  seen := true
  whitelisted := true
  trustedContact := false

def rankedNetwork : NetworkSummary :=
  { (sampleStatus emptyBook).network with
    knownPeers := [rankedFriend]
    pathScores := [{ path := libp2pDirectPath, successes := 2, failures := 3, lastPeerId := none }] }

theorem dial_ranking_friend :
    (rankKnownPeerAddresses sampleLibp2p rankedNetwork rankedFriend none).Nodup ∧
      rankKnownPeerAddresses sampleLibp2p
          (rankedNetwork.withAddresses remotePeer ["/dns4/a.example", "/dns4/b.example"])
          { rankedFriend with addresses := ["/dns4/a.example", "/dns4/b.example"] } none =
        rankKnownPeerAddresses sampleLibp2p rankedNetwork rankedFriend none ∧
      (resolveRankedDialTarget sampleLibp2p rankedNetwork remotePeer).primary = "/dns4/c.example" ∧
      (resolveRankedDialTarget sampleLibp2p rankedNetwork remotePeer).fallbacks =
        ["/dns4/a.example", "/dns4/b.example"] := by
  have hscores : ScoresFit rankedNetwork := by
    intro score hscore
    obtain rfl := List.mem_singleton.mp hscore
    decide
  obtain ⟨hnodup, _, _, hsame, _⟩ := dial_ranking sampleLibp2p hscores (List.nodup_singleton _)
    (List.mem_singleton_self rankedFriend) none
  refine ⟨hnodup, hsame _ fun a => ?_, ?_, ?_⟩
  · simp [rankedFriend]
    tauto
  · decide +kernel
  · decide +kernel

end Voicers
