import Voicers.Network.BookEdits
import Voicers.Network.Lifetime

/-! The lists of peers shown to the user are copies of the peer book. Each
function that writes the book has to renew them; the close of a connection and
the addresses of a found record do not. -/

namespace Voicers

open Lib

variable {κ : Codec} {lib : Libp2p}

/-- The views are what `refresh_user_views` makes of the book. -/
structure Mirrors (network : NetworkSummary) : Prop where
  friends : network.friends = network.refreshUserViews.friends
  seenUsers : network.seenUsers = network.refreshUserViews.seenUsers
  discoveredPeers : network.discoveredPeers = network.refreshUserViews.discoveredPeers

def KeepsViews (s t : DaemonStatus) : Prop := Mirrors s.network → Mirrors t.network

section

variable {s t u : DaemonStatus} {network changed : NetworkSummary}

theorem mirrors_refresh (network : NetworkSummary) : Mirrors network.refreshUserViews :=
  ⟨rfl, rfl, rfl⟩

/-- Each entry is shown once. -/
theorem Mirrors.perm (h : Mirrors network) :
    (network.friends ++ network.seenUsers ++ network.discoveredPeers).Perm network.knownPeers := by
  rw [h.friends, h.seenUsers, h.discoveredPeers]
  simp only [NetworkSummary.refreshUserViews]
  have hrest := List.filter_append_perm (fun p : KnownPeerSummary => p.seen)
    (network.knownPeers.filter fun p => !p.pinned)
  simp only [List.filter_filter] at hrest
  have hall := List.filter_append_perm (fun p : KnownPeerSummary => p.pinned) network.knownPeers
  rw [List.append_assoc]
  refine List.Perm.trans (List.Perm.append_left _ ?_) hall
  simpa only [Bool.and_comm] using hrest

theorem Mirrors.congr (h : Mirrors network) (hknown : changed.knownPeers = network.knownPeers)
    (hfriends : changed.friends = network.friends) (hseen : changed.seenUsers = network.seenUsers)
    (hdiscovered : changed.discoveredPeers = network.discoveredPeers) : Mirrors changed where
  friends := by
    rw [hfriends, h.friends]
    simp only [NetworkSummary.refreshUserViews, hknown]
  seenUsers := by
    rw [hseen, h.seenUsers]
    simp only [NetworkSummary.refreshUserViews, hknown]
  discoveredPeers := by
    rw [hdiscovered, h.discoveredPeers]
    simp only [NetworkSummary.refreshUserViews, hknown]

/-- An entry that changes in the book alone leaves the views behind. -/
theorem mirrors_updateFirst_iff {p : KnownPeerSummary → Bool}
    {f : KnownPeerSummary → KnownPeerSummary} (h : Mirrors network)
    (hpinned : ∀ entry, (f entry).pinned = entry.pinned)
    (hseen : ∀ entry, (f entry).seen = entry.seen)
    (hknown : changed.knownPeers = updateFirst p f network.knownPeers)
    (hfriends : changed.friends = network.friends)
    (hseenUsers : changed.seenUsers = network.seenUsers)
    (hdiscovered : changed.discoveredPeers = network.discoveredPeers) :
    Mirrors changed ↔ ∀ entry, network.knownPeers.find? p = some entry → f entry = entry := by
  constructor
  · rintro ⟨hnewFriends, hnewSeen, hnewDiscovered⟩ entry hentry
    rw [hfriends, h.friends] at hnewFriends
    rw [hseenUsers, h.seenUsers] at hnewSeen
    rw [hdiscovered, h.discoveredPeers] at hnewDiscovered
    simp only [NetworkSummary.refreshUserViews, hknown] at hnewFriends hnewSeen hnewDiscovered
    cases hpin : entry.pinned with
    | true => exact eq_of_filter_updateFirst hpinned hnewFriends.symm hentry hpin
    | false =>
      cases hmet : entry.seen with
      | true =>
        refine eq_of_filter_updateFirst (fun a => ?_) hnewSeen.symm hentry (by simp [hpin, hmet])
        rw [hpinned, hseen]
      | false =>
        refine eq_of_filter_updateFirst (fun a => ?_) hnewDiscovered.symm hentry
          (by simp [hpin, hmet])
        rw [hpinned, hseen]
  · intro hsame
    have hbook : changed.knownPeers = network.knownPeers := hknown.trans (updateFirst_eq_self hsame)
    exact h.congr hbook hfriends hseenUsers hdiscovered

theorem KeepsViews.refl (s : DaemonStatus) : KeepsViews s s := id

theorem KeepsViews.trans (hst : KeepsViews s t) (htu : KeepsViews t u) : KeepsViews s u :=
  fun h => htu (hst h)

theorem KeepsViews.of_refresh (ht : t.network = network.refreshUserViews) : KeepsViews s t := by
  intro _
  rw [ht]
  exact mirrors_refresh network

theorem KeepsViews.of_network (ht : t.network = s.network) : KeepsViews s t := by
  intro h
  rwa [ht]

end

section

variable (lib) (state : DaemonStatus) (peerId : String)

theorem updateKnownPeer_keepsViews (address displayName : Option String) (connected seen : Bool) :
    KeepsViews state (updateKnownPeer lib state peerId address displayName connected seen) := by
  rw [updateKnownPeer_eq]
  split_ifs
  · exact .refl state
  · exact .of_refresh rfl

theorem upsertPeer_keepsViews (address : String) :
    KeepsViews state (upsertPeer lib state peerId address) := by
  obtain ⟨savedPeerAddrs, displayName, htouched⟩ := upsertPeer_touched lib state peerId address
  rw [htouched]
  refine KeepsViews.trans ?_ (updateKnownPeer_keepsViews lib _ peerId _ _ _ _)
  exact fun h => h.congr rfl rfl rfl rfl

theorem applySessionHello_keepsViews (hello : SessionHello) :
    KeepsViews state (applySessionHello lib state peerId hello) := by
  obtain ⟨address, htouched⟩ := applySessionHello_touched lib state peerId hello
  rw [htouched]
  refine KeepsViews.trans ?_ (updateKnownPeer_keepsViews lib _ peerId _ _ _ _)
  exact .of_network rfl

theorem queuePendingPeerApproval_keepsViews (hello : SessionHello) :
    KeepsViews state (queuePendingPeerApproval state peerId hello) := by
  simp only [queuePendingPeerApproval]
  split_ifs
  · exact .refl state
  · exact .of_network rfl

theorem identifiedStatus_keepsViews (info : IdentifyInfo) :
    KeepsViews state (Daemon.identifiedStatus lib state peerId info) := by
  have hobserved : ∀ s : DaemonStatus, KeepsViews s (Daemon.noteObserved s info.observedAddr) := by
    intro s
    obtain ⟨observedAddrs, htouched⟩ := Daemon.noteObserved_touched s info.observedAddr
    rw [htouched]
    exact fun h => h.congr rfl rfl rfl rfl
  unfold Daemon.identifiedStatus
  dsimp only
  refine KeepsViews.trans ?_ (hobserved _)
  split_ifs
  · refine KeepsViews.trans ?_ (updateKnownPeer_keepsViews lib _ peerId _ _ _ _)
    exact .of_network rfl
  · refine KeepsViews.trans ?_ (updateKnownPeer_keepsViews lib _ peerId _ _ _ _)
    exact .of_network rfl
  · exact .refl state

theorem runFollowUp_keepsViews (followUp : FollowUp) :
    KeepsViews state (Daemon.runFollowUp state followUp) := by
  cases followUp with
  | approved approved whitelist =>
    simp only [Daemon.runFollowUp]
    split_ifs
    · exact .of_refresh rfl
    · exact .of_network rfl
  | rejected rejected => exact .of_network rfl

theorem saveKnownPeer_keepsViews : KeepsViews state (saveKnownPeer state peerId).2 := by
  cases hknown : state.knownPeer? peerId with
  | some entry =>
    rw [saveKnownPeer_known state peerId (by simp [hknown])]
    exact .of_refresh rfl
  | none =>
    cases hlive : state.peer? peerId with
    | none =>
      rw [saveKnownPeer_none state peerId hknown hlive]
      exact fun h => h.congr rfl rfl rfl rfl
    | some live =>
      rw [saveKnownPeer_live state peerId hknown hlive]
      exact .of_refresh rfl

theorem renameKnownPeer_keepsViews (displayName : String) :
    KeepsViews state (renameKnownPeer state peerId displayName).2 := by
  simp only [renameKnownPeer]
  split_ifs
  · exact .of_refresh rfl
  · exact .refl state

theorem forgetKnownPeer_keepsViews : KeepsViews state (forgetKnownPeer state peerId).2 := by
  simp only [forgetKnownPeer]
  split_ifs
  · exact .of_refresh rfl
  · exact .refl state

theorem setTrustedContact_keepsViews (trusted : Bool) :
    KeepsViews state (setTrustedContact state peerId trusted).2 := by
  simp only [setTrustedContact]
  split_ifs
  · exact .of_refresh rfl
  · exact .refl state

/-- The close shows if the entry of the peer has the flag it sets. -/
theorem closeStatus_mirrors_iff {n : Nat} (h : Mirrors state.network) :
    Mirrors (Daemon.closeStatus state peerId n).network ↔
      ∀ entry, state.knownPeer? peerId = some entry → entry.connected = decide (0 < n) := by
  have hiff : Mirrors (Daemon.closeStatus state peerId n).network ↔
      ∀ entry, state.knownPeer? peerId = some entry →
        { entry with connected := decide (0 < n) } = entry :=
    mirrors_updateFirst_iff h (fun _ => rfl) (fun _ => rfl) rfl rfl rfl rfl
  rw [hiff]
  refine forall_congr' fun entry => imp_congr_right fun _ => ?_
  constructor
  · intro heq
    rw [← heq]
  · intro heq
    rw [← heq]

theorem find?_updateKnownPeer (address displayName : Option String) (connected seen : Bool)
    (h : peerId ∉ state.network.ignoredPeerIds) :
    (updateKnownPeer lib state peerId address displayName connected seen).knownPeer? peerId =
      some (touchedEntry lib peerId address displayName connected seen
        ((state.knownPeer? peerId).getD
          (blankEntry peerId (displayName.getD ("peer " ++ shortPeerId peerId)) connected seen))) := by
  rw [updateKnownPeer_eq, if_neg h]
  exact find?_updateOrPush (fun _ heq => heq) (by simp [touchedEntry, blankEntry])

/-- The addresses of a record are in the entry of its peer already. -/
def AddsNothing (invite : CompactInviteV1) : Prop :=
  usableAddrs lib invite = [] ∨ ∃ entry, state.knownPeer? invite.peerId = some entry ∧
    (∀ address ∈ usableAddrs lib invite, address ∈ entry.addresses) ∧
    entry.lastDialAddr = (usableAddrs lib invite).getLast?

theorem foldl_notedEntry_eq_self {addrs : List String} {entry : KnownPeerSummary} :
    addrs.foldl (fun entry address => notedEntry address entry) entry = entry ↔
      addrs = [] ∨ ((∀ address ∈ addrs, address ∈ entry.addresses) ∧
        entry.lastDialAddr = addrs.getLast?) := by
  rw [foldl_notedEntry, ← foldl_pushUnique_eq_self]
  cases addrs with
  | nil => simp
  | cons address addrs =>
    obtain ⟨last, hlast⟩ := Option.isSome_iff_exists.mp
      (List.getLast?_isSome.mpr (List.cons_ne_nil address addrs))
    rw [hlast]
    constructor
    · intro h
      refine .inr ⟨?_, ?_⟩
      · conv_rhs => rw [← h]
      · conv_lhs => rw [← h]
        rfl
    · rintro (h | ⟨haddrs, hdial⟩)
      · exact absurd h (List.cons_ne_nil address addrs)
      · rw [haddrs, ← hdial]
        cases hlast : entry.lastDialAddr with
        | none => rw [hlast] at hdial; cases hdial
        | some dialed => rw [Option.some_or, ← hlast]

theorem seedRendezvousInvite_mirrors_iff {invite : CompactInviteV1} (h : Mirrors state.network) :
    Mirrors (seedRendezvousInvite lib state invite).network ↔ AddsNothing lib state invite := by
  have hunignore : Mirrors (unignore state invite.peerId).network := h.congr rfl rfl rfl rfl
  have htouched := updateKnownPeer_keepsViews lib (unignore state invite.peerId) invite.peerId none
    none false false hunignore
  have hallowed : invite.peerId ∉ (unignore state invite.peerId).network.ignoredPeerIds := by
    simp [unignore]
  have hentry := find?_updateKnownPeer lib (unignore state invite.peerId) invite.peerId none none
    false false hallowed
  have hnoted : ∀ entry : KnownPeerSummary,
      ((usableAddrs lib invite).foldl (fun entry address => notedEntry address entry) entry).pinned =
          entry.pinned ∧
        ((usableAddrs lib invite).foldl (fun entry address => notedEntry address entry) entry).seen =
          entry.seen := by
    intro entry
    rw [foldl_notedEntry]
    exact ⟨rfl, rfl⟩
  have hiff : Mirrors (seedRendezvousInvite lib state invite).network ↔
      ∀ entry, (updateKnownPeer lib (unignore state invite.peerId) invite.peerId none none false
        false).knownPeer? invite.peerId = some entry →
        (usableAddrs lib invite).foldl (fun entry address => notedEntry address entry) entry =
          entry := by
    rw [seedRendezvousInvite_noted]
    exact mirrors_updateFirst_iff htouched (fun entry => (hnoted entry).1)
      (fun entry => (hnoted entry).2) rfl rfl rfl rfl
  rw [hiff, hentry]
  simp only [Option.some.injEq, forall_eq', foldl_notedEntry_eq_self, AddsNothing]
  have hsame : (unignore state invite.peerId).knownPeer? invite.peerId =
    state.knownPeer? invite.peerId := rfl
  rw [hsame]
  cases state.knownPeer? invite.peerId with
  | none =>
    constructor
    · rintro (hnone | ⟨_, hlast⟩)
      · exact .inl hnone
      · exact .inl (List.getLast?_eq_none_iff.mp hlast.symm)
    · rintro (hnone | ⟨_, hentry, _⟩)
      · exact .inl hnone
      · cases hentry
  | some entry => simp [touchedEntry]

end

/-- The event leaves the book as the views show it: a close sets a flag that is
set already, a found record has no address that is new. -/
def Daemon.LeavesViews (d : Daemon κ) : Event κ lib → Prop
  | .connectionClosed peer n =>
    ∀ entry, d.status.knownPeer? peer.text = some entry → entry.connected = decide (0 < n)
  | .foundRecord query invite _ => d.adopts query invite = true → AddsNothing lib d.status invite
  | _ => True

def LeavesViews (x : HostTransition κ lib) : Prop :=
  ∀ e, x.input = .event e → x.before.daemon.LeavesViews e

theorem statusAfter_mirrors_iff (d : Daemon κ) (e : Event κ lib) (h : Mirrors d.status.network) :
    Mirrors (d.statusAfter e).network ↔ d.LeavesViews e := by
  have hkept : ∀ {t : DaemonStatus}, KeepsViews d.status t → (Mirrors t.network ↔ True) :=
    fun hkeeps => iff_true_intro (hkeeps h)
  have happroved : ∀ peerId hello, KeepsViews d.status (d.approvedStatus lib peerId hello) := by
    intro peerId hello
    unfold Daemon.approvedStatus
    dsimp only
    split_ifs
    · exact applySessionHello_keepsViews lib d.status peerId hello
    · exact (applySessionHello_keepsViews lib d.status peerId hello).trans (.of_network rfl)
  cases e with
  | connectionEstablished peer endpoint =>
    refine hkept ?_
    have hscore : KeepsViews d.status (recordPathScore d.status
        (if endpoint.isRelayed then libp2pRelayPath else libp2pDirectPath) (some peer.text) true) :=
      fun h => h.congr rfl rfl rfl rfl
    simp only [Daemon.statusAfter, Daemon.establishedStatus]
    by_cases hs : shouldSurfaceConnectedPeer d.status peer.text
        (d.pendingDials peer.text).isSome = true
    · rw [if_pos hs]
      exact hscore.trans (upsertPeer_keepsViews lib _ peer.text _)
    · rw [if_neg hs]
      exact hscore
  | connectionClosed peer n => exact closeStatus_mirrors_iff d.status peer.text h
  | outgoingConnectionError peer dialed => exact hkept fun h => h.congr rfl rfl rfl rfl
  | identifyReceived peer info => exact hkept (identifiedStatus_keepsViews lib d.status peer.text info)
  | foundRecord query invite dialed =>
    simp only [Daemon.statusAfter, Daemon.LeavesViews]
    by_cases ha : d.adopts query invite = true
    · rw [if_pos ha, seedRendezvousInvite_mirrors_iff lib d.status h, imp_iff_right ha]
    · rw [if_neg ha]
      exact ⟨fun _ hadopts => absurd hadopts ha, fun _ => h⟩
  | sessionHello peer hello channel =>
    refine hkept ?_
    simp only [Daemon.statusAfter]
    split_ifs
    · exact happroved peer.text hello
    · exact queuePendingPeerApproval_keepsViews d.status peer.text hello
  | sessionHelloAck peer hello =>
    refine hkept ?_
    simp only [Daemon.statusAfter]
    split_ifs
    · exact .refl _
    · exact applySessionHello_keepsViews lib d.status peer.text hello
  | approvePendingPeer peerId whitelist =>
    refine hkept ?_
    simp only [Daemon.statusAfter]
    split
    · exact .refl _
    · exact happroved peerId _
  | rejectPendingPeer peerId =>
    refine hkept ?_
    simp only [Daemon.statusAfter]
    split_ifs
    · exact .of_network rfl
    · exact .refl _
  | followUp index =>
    refine hkept ?_
    simp only [Daemon.statusAfter]
    split
    · exact .refl _
    · exact runFollowUp_keepsViews d.status _
  | seedInviteHints invite => exact hkept (.of_refresh rfl)
  | saveKnownPeer peerId => exact hkept (saveKnownPeer_keepsViews d.status peerId)
  | renameKnownPeer peerId displayName =>
    exact hkept (renameKnownPeer_keepsViews d.status peerId displayName)
  | forgetKnownPeer peerId => exact hkept (forgetKnownPeer_keepsViews d.status peerId)
  | setTrustedContact peerId trusted =>
    exact hkept (setTrustedContact_keepsViews d.status peerId trusted)
  | _ => exact hkept (.of_network rfl)

section

variable {π : Profile} {h t : Host κ}

theorem HostMove.mirrors_iff {x : HostTransition κ lib} (hmove : HostMove lib x.before x.input x.after)
    (hbefore : Mirrors x.before.status.network) :
    Mirrors x.after.status.network ↔ LeavesViews x := by
  obtain ⟨before, input, output, after⟩ := x
  dsimp only at hmove hbefore
  cases hmove with
  | event e _ _ _ hsame _ =>
    have hiff := statusAfter_mirrors_iff before.daemon e hbefore
    dsimp only
    rw [hsame.network, hiff]
    constructor
    · intro hleaves e' he'
      cases he'
      exact hleaves
    · exact fun hleaves => hleaves e rfl
  | pathOutcome path peerId success =>
    exact ⟨fun _ _ hinput => (nomatch hinput), fun _ => hbefore.congr rfl rfl rfl rfl⟩
  | save localDisplayName => exact ⟨fun _ _ hinput => (nomatch hinput), fun _ => hbefore⟩
  | restart index displayName localPeerId file hfile =>
    exact ⟨fun _ _ hinput => (nomatch hinput), fun _ => mirrors_refresh _⟩

/-- The views show the book all along a run exactly when no step of it leaves
them behind. -/
theorem views_mirror_iff {displayName localPeerId : String} {tr : List (HostTransition κ lib)}
    (hrun : HostRun π displayName localPeerId tr h) :
    (∀ x ∈ tr, Mirrors x.before.status.network ∧ Mirrors x.after.status.network) ↔
      ∀ x ∈ tr, LeavesViews x := by
  refine hrun.invariant_iff (I := fun h => Mirrors h.status.network) ?_ ?_
  · exact fun x hstep hbefore => (HostMove.of_step hstep).mirrors_iff hbefore
  · exact mirrors_refresh _

end

/-- An invited peer connects and hangs up. -/
def endedCall : List (HostEvent silentCodec sampleLibp2p) :=
  [.event (.seedInviteHints callInvite), .event (.connectionEstablished remote incoming),
    .event (.connectionClosed remote 0)]

theorem endedCall_flags :
    (hostRun .release "local-user" localPeer endedCall).map (fun r =>
      (r.1.length, r.2.status.network.knownPeers.map KnownPeerSummary.connected,
        r.2.status.network.discoveredPeers.map KnownPeerSummary.connected)) =
      some (3, [false], [true]) := by
  decide +kernel

/-- The views show the peer connected after it has hung up. -/
theorem endedCall_not_mirrored :
    ¬ ∀ (tr : List (HostTransition silentCodec sampleLibp2p)) (h : Host silentCodec),
      HostRun .release "local-user" localPeer tr h → Mirrors h.status.network := by
  intro hall
  obtain ⟨⟨tr, h⟩, hrun, hflags⟩ := Option.map_eq_some_iff.mp endedCall_flags
  obtain ⟨_, hflags⟩ := Prod.mk.inj hflags
  obtain ⟨hknown, hshown⟩ := Prod.mk.inj hflags
  have hviews := (hall tr h (hostRun_trace hrun)).discoveredPeers
  simp only [NetworkSummary.refreshUserViews] at hviews
  rw [hviews] at hshown
  have htrue : true ∈ (h.status.network.knownPeers.filter fun p => !p.pinned && !p.seen).map
      KnownPeerSummary.connected := by
    rw [hshown]
    exact List.mem_singleton_self true
  have hmem := (List.filter_sublist.map KnownPeerSummary.connected).subset htrue
  rw [hknown] at hmem
  simp at hmem

theorem views_mirror_iff_endedCall :
    ∃ (tr : List (HostTransition silentCodec sampleLibp2p)), tr.length = 3 ∧
      ((∀ x ∈ tr, Mirrors x.before.status.network ∧ Mirrors x.after.status.network) ↔
        ∀ x ∈ tr, LeavesViews x) := by
  obtain ⟨⟨tr, h⟩, hrun, hflags⟩ := Option.map_eq_some_iff.mp endedCall_flags
  exact ⟨tr, (Prod.mk.inj hflags).1, views_mirror_iff (hostRun_trace hrun)⟩

end Voicers
