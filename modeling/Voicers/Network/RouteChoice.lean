import Voicers.Network.DialRanking
import Voicers.Network.Relaying

/-! Which way the media of a peer goes: directly, through the best contact that
relays for it, or not at all. -/

namespace Voicers

open Lib

/-- A contact the media of the target can be relayed through. -/
def CanRelay (state : DaemonStatus) (relayOffers : String → Option (List String))
    (target via : String) : Prop :=
  ∃ peer ∈ state.network.knownPeers, peer.peerId = via ∧ peer.trustedContact = true ∧
    peer.connected = true ∧ ∃ offered, relayOffers via = some offered ∧ target ∈ offered

/-- The score of the path last used with a contact. -/
def relayScore (state : DaemonStatus) (via : String) : Int :=
  match state.network.pathScores.find? (fun s => s.lastPeerId = some via) with
  | some score => score.successes - score.failures
  | none => 0

def ConnectedContact (state : DaemonStatus) (target : String) : Prop :=
  ∃ peer ∈ state.network.knownPeers, peer.peerId = target ∧ peer.connected = true

/-- The better score, or the smaller id. -/
def PrefersRelay (state : DaemonStatus) (via other : String) : Prop :=
  relayScore state other < relayScore state via ∨
    relayScore state other = relayScore state via ∧ via ≤ other

/-- A book of contacts with unique and valid ids. -/
structure RouteBook (lib : Libp2p) (state : DaemonStatus) : Prop where
  unique : (state.network.knownPeers.map KnownPeerSummary.peerId).Nodup
  valid : ∀ peer ∈ state.network.knownPeers, lib.isPeerId peer.peerId = true
  scores : ScoresFit state.network

def DaemonStatus.withKnownPeers (state : DaemonStatus) (knownPeers : List KnownPeerSummary) :
    DaemonStatus :=
  { state with network := { state.network with knownPeers := knownPeers } }

/-- Contacts stay, connected or trusted if they were, and so do their offers. -/
structure Extends (state : DaemonStatus) (relayOffers : String → Option (List String))
    (extended : DaemonStatus) (extendedOffers : String → Option (List String)) : Prop where
  contacts : ∀ peer ∈ state.network.knownPeers, ∃ kept ∈ extended.network.knownPeers,
    kept.peerId = peer.peerId ∧ (peer.connected = true → kept.connected = true) ∧
      (peer.trustedContact = true → kept.trustedContact = true)
  offers : ∀ via offered target, relayOffers via = some offered → target ∈ offered →
    ∃ more, extendedOffers via = some more ∧ target ∈ more

/-- The route a target should have. -/
inductive RouteSpec (state : DaemonStatus) (relayOffers : String → Option (List String))
    (target : String) : Route → Prop
  | direct (hconnected : ConnectedContact state target) : RouteSpec state relayOffers target .direct
  | relayed (via : String) (hconnected : ¬ ConnectedContact state target)
      (hcan : CanRelay state relayOffers target via)
      (hbest : ∀ other, CanRelay state relayOffers target other → PrefersRelay state via other) :
      RouteSpec state relayOffers target (.relayed via target)
  | unreachable (hconnected : ¬ ConnectedContact state target)
      (hnone : ∀ via, ¬ CanRelay state relayOffers target via) :
      RouteSpec state relayOffers target .unreachable

section

variable {lib : Libp2p} {state : DaemonStatus} {relayOffers : String → Option (List String)}
  {target via : String}

theorem PrefersRelay.antisymm (h : PrefersRelay state via target)
    (hback : PrefersRelay state target via) : via = target := by
  rcases h with hlt | ⟨heq, hle⟩
  · rcases hback with hlt' | ⟨heq', _⟩
    · exact absurd hlt' (lt_asymm hlt)
    · exact absurd heq' hlt.ne'
  · rcases hback with hlt' | ⟨_, hle'⟩
    · exact absurd heq hlt'.ne'
    · exact le_antisymm hle hle'

theorem RouteSpec.unique {route other : Route} (h : RouteSpec state relayOffers target route)
    (h' : RouteSpec state relayOffers target other) : route = other := by
  cases h with
  | direct hconnected =>
    cases h' with
    | direct => rfl
    | relayed via hnot => exact absurd hconnected hnot
    | unreachable hnot => exact absurd hconnected hnot
  | relayed via hnot hcan hbest =>
    cases h' with
    | direct hconnected => exact absurd hconnected hnot
    | relayed via' _ hcan' hbest' => rw [(hbest via' hcan').antisymm (hbest' via hcan)]
    | unreachable _ hnone => exact absurd hcan (hnone via)
  | unreachable hnot hnone =>
    cases h' with
    | direct hconnected => exact absurd hconnected hnot
    | relayed via _ hcan => exact absurd hcan (hnone via)
    | unreachable => rfl

theorem relayScore_eq (hscores : ScoresFit state.network) (via : String) :
    (match state.network.pathScores.find? (fun s => s.lastPeerId = some via) with
      | some s => asI64 s.successes - asI64 s.failures
      | none => 0) = relayScore state via := by
  have hfit : ∀ n < 2 ^ 63, asI64 n = n := fun n hn => if_pos hn
  unfold relayScore
  cases hscore : state.network.pathScores.find? (fun s => s.lastPeerId = some via) with
  | none => rfl
  | some score =>
    obtain ⟨hsuccesses, hfailures⟩ := hscores score (List.mem_of_find?_eq_some hscore)
    simp only [hfit _ hsuccesses, hfit _ hfailures]

theorem mem_relayCandidates (hscores : ScoresFit state.network)
    {candidate : KnownPeerSummary × Int} :
    candidate ∈ relayCandidates state relayOffers target ↔
      candidate.1 ∈ state.network.knownPeers ∧ candidate.1.trustedContact = true ∧
        candidate.1.connected = true ∧
        (∃ offered, relayOffers candidate.1.peerId = some offered ∧ target ∈ offered) ∧
        candidate.2 = relayScore state candidate.1.peerId := by
  obtain ⟨peer, score⟩ := candidate
  simp only [relayCandidates, List.mem_map, List.mem_filter, Bool.and_eq_true, Prod.mk.injEq]
  constructor
  · rintro ⟨found, ⟨hknown, ⟨htrusted, hconnected⟩, hoffers⟩, rfl, rfl⟩
    refine ⟨hknown, htrusted, hconnected, ?_, relayScore_eq hscores _⟩
    cases hoffered : relayOffers found.peerId with
    | none => simp [hoffered] at hoffers
    | some offered =>
      simp only [hoffered, List.contains_iff_mem] at hoffers
      exact ⟨offered, rfl, hoffers⟩
  · rintro ⟨hknown, htrusted, hconnected, ⟨offered, hoffered, htarget⟩, rfl⟩
    refine ⟨peer, ⟨hknown, ⟨htrusted, hconnected⟩, ?_⟩, rfl, relayScore_eq hscores _⟩
    simpa only [hoffered, List.contains_iff_mem] using htarget

/-- Candidates are in the order of their scores, from the highest, and then of their names. -/
theorem relayBefore_iff (a b : KnownPeerSummary × Int) :
    relayBefore a b ↔ toLex (OrderDual.toDual a.2, a.1.peerId) ≤
      toLex (OrderDual.toDual b.2, b.1.peerId) := by
  rw [Prod.Lex.toLex_le_toLex, OrderDual.toDual_lt_toDual, OrderDual.toDual_inj, eq_comm]
  rfl

instance : Std.Total relayBefore where
  total a b := by
    rw [relayBefore_iff, relayBefore_iff]
    exact le_total _ _

instance : IsTrans (KnownPeerSummary × Int) relayBefore where
  trans a b c hab hbc := by
    rw [relayBefore_iff] at hab hbc ⊢
    exact hab.trans hbc

/-- Without a connection, the best candidate decides. -/
theorem relayRoute_spec (hbook : RouteBook lib state) (htarget : lib.isPeerId target = true)
    (hconnected : ¬ ConnectedContact state target) :
    RouteSpec state relayOffers target
      (relayRoute lib (relayCandidates state relayOffers target) target) := by
  have hcan : ∀ via, CanRelay state relayOffers target via →
      ∃ candidate ∈ relayCandidates state relayOffers target, candidate.1.peerId = via ∧
        candidate.2 = relayScore state via := by
    rintro _ ⟨peer, hpeer, rfl, htrusted, hconn, hoffers⟩
    exact ⟨(peer, relayScore state peer.peerId),
      (mem_relayCandidates hbook.scores).mpr ⟨hpeer, htrusted, hconn, hoffers, rfl⟩, rfl, rfl⟩
  unfold relayRoute
  cases hsorted : (relayCandidates state relayOffers target).insertionSort relayBefore with
  | nil =>
    refine .unreachable hconnected fun via hvia => ?_
    obtain ⟨candidate, hmem, _⟩ := hcan via hvia
    rw [← List.mem_insertionSort relayBefore, hsorted] at hmem
    cases hmem
  | cons best rest =>
    obtain ⟨hmem, hfirst⟩ := rel_of_insertionSort_eq_cons hsorted
    obtain ⟨hknown, htrusted, hconn, hoffers, hscore⟩ := (mem_relayCandidates hbook.scores).mp hmem
    dsimp only
    rw [if_pos ⟨hbook.valid best.1 hknown, htarget⟩]
    refine .relayed _ hconnected ⟨best.1, hknown, rfl, htrusted, hconn, hoffers⟩ ?_
    intro other hother
    obtain ⟨candidate, hcandidate, rfl, hother⟩ := hcan other hother
    have hbefore := hfirst candidate hcandidate
    unfold relayBefore at hbefore
    rwa [hscore, hother] at hbefore

theorem resolveRoute_spec (hbook : RouteBook lib state) (htarget : lib.isPeerId target = true)
    (relayOffers : String → Option (List String)) :
    RouteSpec state relayOffers target (resolveRoute lib state relayOffers target) := by
  unfold resolveRoute DaemonStatus.knownPeer?
  cases hknown : state.network.knownPeers.find? (fun p => p.peerId = target) with
  | none =>
    refine relayRoute_spec hbook htarget ?_
    rintro ⟨peer, hpeer, rfl, _⟩
    rw [find?_of_nodup hbook.unique hpeer] at hknown
    cases hknown
  | some peer =>
    have hpeer := List.mem_of_find?_eq_some hknown
    have hid : peer.peerId = target := by simpa using List.find?_some hknown
    dsimp only
    split_ifs with hdirect
    · exact .direct ⟨peer, hpeer, hid, (Bool.and_eq_true_iff.mp hdirect).1⟩
    · refine relayRoute_spec hbook htarget ?_
      rintro ⟨other, hother, rfl, hconnected⟩
      rw [find?_of_nodup hbook.unique hother] at hknown
      obtain rfl := Option.some.inj hknown
      simp [hconnected, htarget] at hdirect

theorem Extends.connected {extended : DaemonStatus}
    {extendedOffers : String → Option (List String)}
    (h : Extends state relayOffers extended extendedOffers) (hc : ConnectedContact state target) :
    ConnectedContact extended target := by
  obtain ⟨peer, hpeer, rfl, hconnected⟩ := hc
  obtain ⟨kept, hkept, hid, hconn, _⟩ := h.contacts peer hpeer
  exact ⟨kept, hkept, hid, hconn hconnected⟩

theorem Extends.canRelay {extended : DaemonStatus}
    {extendedOffers : String → Option (List String)}
    (h : Extends state relayOffers extended extendedOffers)
    (hcan : CanRelay state relayOffers target via) :
    CanRelay extended extendedOffers target via := by
  obtain ⟨peer, hpeer, rfl, htrusted, hconnected, offered, hoffer, htarget⟩ := hcan
  obtain ⟨kept, hkept, hid, hconn, htrust⟩ := h.contacts peer hpeer
  obtain ⟨more, hmore, hmem⟩ := h.offers peer.peerId offered target hoffer htarget
  exact ⟨kept, hkept, hid, htrust htrusted, hconn hconnected, more, hmore, hmem⟩

theorem routeSpec_congr {other : DaemonStatus} {route : Route}
    (hknown : ∀ peer, peer ∈ other.network.knownPeers ↔ peer ∈ state.network.knownPeers)
    (hscores : other.network.pathScores = state.network.pathScores)
    (h : RouteSpec other relayOffers target route) : RouteSpec state relayOffers target route := by
  have hconnected : ConnectedContact other target ↔ ConnectedContact state target := by
    simp only [ConnectedContact, hknown]
  have hcan : ∀ via, CanRelay other relayOffers target via ↔ CanRelay state relayOffers target via := by
    simp only [CanRelay, hknown, implies_true]
  have hscore : ∀ via, relayScore other via = relayScore state via := by
    intro via
    rw [relayScore, hscores, ← relayScore]
  cases h with
  | direct h => exact .direct (hconnected.mp h)
  | relayed via hnot h hbest =>
    refine .relayed via (mt hconnected.mpr hnot) ((hcan via).mp h) fun rival hrival => ?_
    have hprefers := hbest rival ((hcan rival).mpr hrival)
    unfold PrefersRelay at hprefers
    rwa [hscore, hscore] at hprefers
  | unreachable hnot hnone =>
    exact .unreachable (mt hconnected.mpr hnot) fun via hvia => hnone via ((hcan via).mpr hvia)

/-- The route is direct to a connected contact, else through the best contact
that relays for it, and the order of the book does not matter. -/
theorem route_choice (hbook : RouteBook lib state) (htarget : lib.isPeerId target = true)
    (relayOffers : String → Option (List String)) :
    (resolveRoute lib state relayOffers target = .direct ↔ ConnectedContact state target) ∧
      ((∃ via, resolveRoute lib state relayOffers target = .relayed via target) ↔
        ¬ ConnectedContact state target ∧ ∃ via, CanRelay state relayOffers target via) ∧
      (∀ via destination, resolveRoute lib state relayOffers target = .relayed via destination ↔
        ¬ ConnectedContact state target ∧ destination = target ∧
          CanRelay state relayOffers target via ∧
          ∀ other, CanRelay state relayOffers target other → PrefersRelay state via other) ∧
      (∀ via destination, resolveRoute lib state relayOffers target = .relayed via destination →
        via ≠ target) ∧
      (resolveRoute lib state relayOffers target = .unreachable ↔
        ¬ ConnectedContact state target ∧ ∀ via, ¬ CanRelay state relayOffers target via) ∧
      (∀ permuted, permuted.Perm state.network.knownPeers →
        resolveRoute lib (state.withKnownPeers permuted) relayOffers target =
          resolveRoute lib state relayOffers target) ∧
      ∀ extended extendedOffers, RouteBook lib extended →
        Extends state relayOffers extended extendedOffers →
          resolveRoute lib state relayOffers target ≠ .unreachable →
            resolveRoute lib extended extendedOffers target ≠ .unreachable := by
  have hspec := resolveRoute_spec hbook htarget relayOffers
  have hroute : ∀ route, resolveRoute lib state relayOffers target = route ↔
      RouteSpec state relayOffers target route :=
    fun route => ⟨fun h => h ▸ hspec, fun h => hspec.unique h⟩
  have hunreachable : resolveRoute lib state relayOffers target = .unreachable ↔
      ¬ ConnectedContact state target ∧ ∀ via, ¬ CanRelay state relayOffers target via := by
    rw [hroute]
    constructor
    · rintro (_ | _ | ⟨hnot, hnone⟩)
      exact ⟨hnot, hnone⟩
    · exact fun h => .unreachable h.1 h.2
  have hrelayed : ∀ via destination,
      resolveRoute lib state relayOffers target = .relayed via destination ↔
        ¬ ConnectedContact state target ∧ destination = target ∧
          CanRelay state relayOffers target via ∧
          ∀ other, CanRelay state relayOffers target other → PrefersRelay state via other := by
    intro via destination
    rw [hroute]
    constructor
    · rintro (_ | ⟨_, hnot, hcan, hbest⟩)
      exact ⟨hnot, rfl, hcan, hbest⟩
    · rintro ⟨hnot, rfl, hcan, hbest⟩
      exact .relayed via hnot hcan hbest
  refine ⟨?_, ?_, hrelayed, ?_, hunreachable, ?_, ?_⟩
  · rw [hroute]
    constructor
    · rintro (hconnected | _)
      exact hconnected
    · exact .direct
  · constructor
    · rintro ⟨via, h⟩
      obtain ⟨hnot, _, hcan, _⟩ := (hrelayed via target).mp h
      exact ⟨hnot, via, hcan⟩
    · rintro ⟨hnot, via, hcan⟩
      generalize resolveRoute lib state relayOffers target = route at hspec
      cases hspec with
      | direct hconnected => exact absurd hconnected hnot
      | relayed best => exact ⟨best, rfl⟩
      | unreachable _ hnone => exact absurd hcan (hnone via)
  · rintro via destination h rfl
    obtain ⟨hnot, rfl, ⟨peer, hpeer, hid, _, hconnected, _⟩, _⟩ := (hrelayed via _).mp h
    exact hnot ⟨peer, hpeer, hid, hconnected⟩
  · intro permuted hperm
    have hpermuted : RouteBook lib (state.withKnownPeers permuted) :=
      { unique := (hperm.map _).nodup_iff.mpr hbook.unique
        valid := fun peer hpeer => hbook.valid peer (hperm.mem_iff.mp hpeer)
        scores := hbook.scores }
    have hsame := @routeSpec_congr state relayOffers target (state.withKnownPeers permuted) _
      (fun peer => hperm.mem_iff) rfl (resolveRoute_spec hpermuted htarget relayOffers)
    exact hsame.unique hspec
  · intro extended extendedOffers hextended hextends hreached hlost
    have hlate := resolveRoute_spec hextended htarget extendedOffers
    rw [hlost] at hlate
    cases hlate with
    | unreachable hnot hnone =>
      refine hreached (hunreachable.mpr ⟨fun h => hnot (hextends.connected h), fun via hvia => ?_⟩)
      exact hnone via (hextends.canRelay hvia)

end

/-- Two connected contacts, one of them with a better score. -/
def relayBook : DaemonStatus :=
  { sampleStatus emptyBook with
    network := { (sampleStatus emptyBook).network with
      knownPeers := [remotePeer, relayPeer].map fun peerId =>
        { trustedFriend peerId with connected := true }
      pathScores := [
        { path := libp2pDirectPath, successes := 3, failures := 1,
          lastPeerId := some relayPeer }] } }

theorem route_choice_relayBook :
    resolveRoute sampleLibp2p relayBook (fun _ => some [localPeer]) localPeer =
      .relayed relayPeer localPeer := by
  have hbook : RouteBook sampleLibp2p relayBook :=
    { unique := by decide
      valid := by decide
      scores := by unfold ScoresFit; decide }
  obtain ⟨_, _, hrelayed, _⟩ :=
    route_choice hbook localNode.valid fun _ => some [localPeer]
  refine (hrelayed relayPeer localPeer).mpr ⟨?_, rfl, ?_, ?_⟩
  · unfold ConnectedContact
    decide
  · exact ⟨{ trustedFriend relayPeer with connected := true }, by decide, rfl, rfl, rfl,
      [localPeer], rfl, List.mem_singleton_self _⟩
  · rintro other ⟨peer, hpeer, rfl, _⟩
    obtain ⟨peerId, hpeerId, rfl⟩ := List.mem_map.mp hpeer
    simp only [List.mem_cons, List.not_mem_nil, or_false] at hpeerId
    rcases hpeerId with rfl | rfl
    · exact .inl (by decide)
    · exact .inr ⟨rfl, le_refl _⟩

end Voicers
