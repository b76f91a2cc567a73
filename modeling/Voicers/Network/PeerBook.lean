import Voicers.Network.BookEdits
import Voicers.Network.Lifetime

/-! What the first-match searches in the peer book rely on: no peer, address
or path is entered twice, and no entry is taken out again. -/

namespace Voicers

open Lib

variable {κ : Codec} {lib : Libp2p}

def NetworkSummary.knownIds (network : NetworkSummary) : List String :=
  network.knownPeers.map KnownPeerSummary.peerId

structure KnownUnique (known : List KnownPeerSummary) : Prop where
  ids : (known.map KnownPeerSummary.peerId).Nodup
  addresses : ∀ entry ∈ known, entry.addresses.Nodup

structure BookUnique (status : DaemonStatus) : Prop where
  known : KnownUnique status.network.knownPeers
  ignoredKnown : ∀ id ∈ status.network.ignoredPeerIds, id ∈ status.network.knownIds
  ignored : status.network.ignoredPeerIds.Nodup
  saved : status.network.savedPeerAddrs.Nodup
  paths : (status.network.pathScores.map PathScoreSummary.path).Nodup
  peers : (status.peers.map PeerSummary.peerId).Nodup
  pending : (status.pendingPeerApprovals.map PendingPeerApprovalSummary.peerId).Nodup

/-- The step keeps the book free of duplicates and adds entries at its end only. -/
def KeepsBook (s t : DaemonStatus) : Prop :=
  BookUnique s → BookUnique t ∧ s.network.knownIds <+: t.network.knownIds

section

variable {s t u : DaemonStatus} {book : List KnownPeerSummary}

theorem KeepsBook.refl (s : DaemonStatus) : KeepsBook s s := fun h => ⟨h, List.prefix_rfl⟩

theorem KeepsBook.trans (hst : KeepsBook s t) (htu : KeepsBook t u) : KeepsBook s u := by
  intro h
  obtain ⟨ht, hprefix⟩ := hst h
  obtain ⟨hu, hprefix'⟩ := htu ht
  exact ⟨hu, hprefix.trans hprefix'⟩

theorem KnownUnique.nil : KnownUnique [] := ⟨.nil, by simp⟩

theorem KnownUnique.updateFirst (h : KnownUnique book) {p : KnownPeerSummary → Bool}
    {f : KnownPeerSummary → KnownPeerSummary} (hid : ∀ entry, (f entry).peerId = entry.peerId)
    (haddr : ∀ entry, entry.addresses.Nodup → (f entry).addresses.Nodup) :
    KnownUnique (updateFirst p f book) where
  ids := by
    rw [map_updateFirst fun entry _ => hid entry]
    exact h.ids
  addresses := by
    intro entry hentry
    rcases mem_updateFirst hentry with hold | ⟨old, hold, _, rfl⟩
    · exact h.addresses entry hold
    · exact haddr old (h.addresses old hold)

theorem KnownUnique.updateOrPush (h : KnownUnique book)
    {f : KnownPeerSummary → KnownPeerSummary} {new : KnownPeerSummary} {peerId : String}
    (hid : ∀ entry, (f entry).peerId = entry.peerId)
    (haddr : ∀ entry, entry.addresses.Nodup → (f entry).addresses.Nodup)
    (hnew : new.peerId = peerId ∧ new.addresses = []) :
    KnownUnique (updateOrPush (fun entry => entry.peerId = peerId) f new book) where
  ids := by
    refine nodup_map_updateOrPush (fun entry _ => hid entry) ?_ h.ids
    intro entry heq
    rw [hid, hnew.1] at heq
    exact decide_eq_true heq
  addresses := by
    intro entry hentry
    rcases mem_updateOrPush hentry with hold | ⟨old, hold, _, rfl⟩ | ⟨_, rfl⟩
    · exact h.addresses entry hold
    · exact haddr old (h.addresses old hold)
    · exact haddr new (by simp [hnew.2])

/-- An update of the entries that keeps their ids, whatever it does to the views. -/
theorem KeepsBook.known {network : NetworkSummary}
    (hknown : KnownUnique s.network.knownPeers → KnownUnique network.knownPeers)
    (hids : s.network.knownIds <+: network.knownIds)
    (hignored : network.ignoredPeerIds.Sublist s.network.ignoredPeerIds)
    (hsaved : s.network.savedPeerAddrs.Nodup → network.savedPeerAddrs.Nodup)
    (hpaths : network.pathScores = s.network.pathScores) :
    KeepsBook s { s with network := network } := by
  intro h
  refine ⟨{ h with
    known := hknown h.known
    ignoredKnown := fun id hid => hids.subset (h.ignoredKnown id (hignored.subset hid))
    ignored := hignored.nodup h.ignored
    saved := hsaved h.saved
    paths := ?_ }, hids⟩
  rw [hpaths]
  exact h.paths

theorem KeepsBook.updateFirst {network : NetworkSummary} {p : KnownPeerSummary → Bool}
    {f : KnownPeerSummary → KnownPeerSummary}
    (hknown : network.knownPeers = updateFirst p f s.network.knownPeers)
    (hid : ∀ entry, (f entry).peerId = entry.peerId)
    (haddr : ∀ entry, entry.addresses.Nodup → (f entry).addresses.Nodup)
    (hignored : network.ignoredPeerIds.Sublist s.network.ignoredPeerIds)
    (hsaved : s.network.savedPeerAddrs.Nodup → network.savedPeerAddrs.Nodup)
    (hpaths : network.pathScores = s.network.pathScores) :
    KeepsBook s { s with network := network } := by
  refine .known ?_ ?_ hignored hsaved hpaths
  · rw [hknown]
    exact fun h => h.updateFirst hid haddr
  · rw [NetworkSummary.knownIds, NetworkSummary.knownIds, hknown,
      map_updateFirst fun entry _ => hid entry]

theorem KeepsBook.updateOrPush {network : NetworkSummary} {f : KnownPeerSummary → KnownPeerSummary}
    {new : KnownPeerSummary} {peerId : String} (hknown : network.knownPeers =
      updateOrPush (fun entry => entry.peerId = peerId) f new s.network.knownPeers)
    (hid : ∀ entry, (f entry).peerId = entry.peerId)
    (haddr : ∀ entry, entry.addresses.Nodup → (f entry).addresses.Nodup)
    (hnew : new.peerId = peerId ∧ new.addresses = [])
    (hignored : network.ignoredPeerIds.Sublist s.network.ignoredPeerIds)
    (hsaved : s.network.savedPeerAddrs.Nodup → network.savedPeerAddrs.Nodup)
    (hpaths : network.pathScores = s.network.pathScores) :
    KeepsBook s { s with network := network } := by
  refine .known ?_ ?_ hignored hsaved hpaths
  · rw [hknown]
    exact fun h => h.updateOrPush hid haddr hnew
  · rw [NetworkSummary.knownIds, NetworkSummary.knownIds, hknown]
    exact map_prefix_updateOrPush fun entry _ => hid entry

theorem KeepsBook.peers {peers : List PeerSummary}
    (hpeers : (s.peers.map PeerSummary.peerId).Nodup → (peers.map PeerSummary.peerId).Nodup) :
    KeepsBook s { s with peers := peers } := by
  intro h
  exact ⟨{ h with peers := hpeers h.peers }, List.prefix_rfl⟩

theorem DaemonStatus.SameContacts.keepsBook (hsame : s.SameContacts t) : KeepsBook s t := by
  intro h
  rw [hsame.rest]
  refine ⟨{ h with peers := ?_ }, List.prefix_rfl⟩
  rw [hsame.peerIds]
  exact h.peers

end

section

variable (lib) (state : DaemonStatus) (peerId : String)

theorem touchedEntry_addresses {address displayName : Option String} {connected seen : Bool}
    {entry : KnownPeerSummary} (h : entry.addresses.Nodup) :
    (touchedEntry lib peerId address displayName connected seen entry).addresses.Nodup := by
  simp only [touchedEntry]
  split
  · exact nodup_pushUnique _ h
  · exact h

theorem updateKnownPeer_keepsBook (address displayName : Option String) (connected seen : Bool) :
    KeepsBook state (updateKnownPeer lib state peerId address displayName connected seen) := by
  rw [updateKnownPeer_eq]
  split_ifs
  · exact .refl state
  · exact .updateOrPush rfl (fun _ => rfl) (fun _ => touchedEntry_addresses lib peerId) ⟨rfl, rfl⟩
      (List.Sublist.refl _) id rfl

theorem recordPathScore_keepsBook (path : String) (peer : Option String) (success : Bool) :
    KeepsBook state (recordPathScore state path peer success) := by
  intro h
  have hpaths : ((recordPathScore state path peer success).network.pathScores.map
      PathScoreSummary.path).Nodup := by
    simp only [recordPathScore]
    refine nodup_map_updateOrPush (fun score _ => ?_) (fun score heq => ?_) h.paths
    · split_ifs
      · rfl
      · rfl
    · split_ifs at heq
      · exact decide_eq_true heq
      · exact decide_eq_true heq
  exact ⟨{ h with paths := hpaths }, List.prefix_rfl⟩

theorem getOrInsertPeer_keepsBook (address : String) (update : PeerSummary → PeerSummary)
    (hid : ∀ peer, (update peer).peerId = peer.peerId) :
    KeepsBook state (getOrInsertPeer state peerId address update) := by
  apply KeepsBook.peers
  intro h
  refine nodup_map_updateOrPush (fun peer _ => hid _) (fun peer heq => ?_) h
  rw [hid] at heq
  exact decide_eq_true heq

theorem savePeerAddr_keepsBook (address : String) :
    KeepsBook state { state with network := { state.network with
      savedPeerAddrs := pushUnique state.network.savedPeerAddrs address } } := by
  intro h
  exact ⟨{ h with saved := nodup_pushUnique address h.saved }, List.prefix_rfl⟩

theorem upsertPeer_keepsBook (address : String) :
    KeepsBook state (upsertPeer lib state peerId address) := by
  have hinsert := getOrInsertPeer_keepsBook state peerId address
    (fun peer => { peer with
      transport := .connected
      session := if peer.session = .none then .handshaking else peer.session }) fun _ => rfl
  simp only [upsertPeer]
  split
  · exact hinsert
  · refine hinsert.trans (KeepsBook.trans ?_ (updateKnownPeer_keepsBook lib _ peerId _ _ _ _))
    split_ifs
    · exact savePeerAddr_keepsBook _ _
    · exact .refl _

theorem applySessionHello_keepsBook (hello : SessionHello) :
    KeepsBook state (applySessionHello lib state peerId hello) := by
  have hgreeted : KeepsBook state { state with peers := greetedPeers state peerId hello } := by
    apply KeepsBook.peers
    intro h
    exact nodup_map_updateOrPush (fun _ _ => rfl) (fun _ heq => decide_eq_true heq) h
  obtain ⟨address, htouched⟩ := applySessionHello_touched lib state peerId hello
  rw [htouched]
  exact hgreeted.trans (updateKnownPeer_keepsBook lib _ peerId _ _ _ _)

theorem queuePendingPeerApproval_keepsBook (hello : SessionHello) :
    KeepsBook state (queuePendingPeerApproval state peerId hello) := by
  intro h
  simp only [queuePendingPeerApproval]
  split_ifs with hlisted
  · exact ⟨h, List.prefix_rfl⟩
  · refine ⟨{ h with pending := ?_ }, List.prefix_rfl⟩
    rw [List.map_append, List.map_singleton, ← List.concat_eq_append]
    refine List.Nodup.concat ?_ h.pending
    simpa using hlisted

theorem removePendingApproval_keepsBook : KeepsBook state (removePendingApproval state peerId) := by
  intro h
  exact ⟨{ h with pending := (List.filter_sublist.map _).nodup h.pending }, List.prefix_rfl⟩

theorem closeStatus_keepsBook (n : Nat) :
    KeepsBook state (Daemon.closeStatus state peerId n) := by
  have hknown : KeepsBook state { state with network := { state.network with
      knownPeers := updateFirst (fun p => p.peerId = peerId)
        (fun p => { p with connected := 0 < n }) state.network.knownPeers } } :=
    .updateFirst rfl (fun _ => rfl) (fun _ => id) (List.Sublist.refl _) id rfl
  refine hknown.trans (KeepsBook.peers fun h => ?_)
  split_ifs
  · exact (List.eraseP_sublist.map _).nodup h
  · rwa [map_updateFirst fun _ _ => by rfl]
  · rwa [map_updateFirst fun _ _ => by rfl]

theorem onPing_keepsBook (d : Daemon κ) : KeepsBook d.status (d.onPing peerId).status := by
  refine KeepsBook.peers fun h => ?_
  rwa [map_updateFirst fun _ _ => by rfl]

theorem identifiedStatus_keepsBook (info : IdentifyInfo) :
    KeepsBook state (Daemon.identifiedStatus lib state peerId info) := by
  have hobserved : ∀ s : DaemonStatus, KeepsBook s (Daemon.noteObserved s info.observedAddr) := by
    intro s
    obtain ⟨observedAddrs, htouched⟩ := Daemon.noteObserved_touched s info.observedAddr
    rw [htouched]
    exact fun h => ⟨{ h with }, List.prefix_rfl⟩
  have hentry : ∀ displayName, KeepsBook state (updateKnownPeer lib
      (getOrInsertPeer state peerId (info.listenAddrs.headD "<unknown>") fun peer =>
        { peer with displayName := displayName, transport := .connected })
      peerId none (some displayName) true false) := by
    intro displayName
    have hinsert := getOrInsertPeer_keepsBook state peerId (info.listenAddrs.headD "<unknown>")
      (fun peer => { peer with displayName := displayName, transport := .connected }) fun _ => rfl
    exact hinsert.trans (updateKnownPeer_keepsBook lib _ peerId none (some displayName) true false)
  unfold Daemon.identifiedStatus
  dsimp only
  refine KeepsBook.trans ?_ (hobserved _)
  by_cases hs : shouldSurfaceApprovedPeer state peerId = true
  · rw [if_pos hs]
    exact hentry _
  · rw [if_neg hs]
    exact .refl state

/-- The addresses of a record enter the entry and the list of all one by one. -/
theorem foldl_keepsBook {α : Type} {f : DaemonStatus → α → DaemonStatus}
    (hf : ∀ s a, KeepsBook s (f s a)) (l : List α) (s : DaemonStatus) :
    KeepsBook s (l.foldl f s) := by
  induction l generalizing s with
  | nil => exact .refl s
  | cons a l ih => exact (hf s a).trans (ih (f s a))

theorem unignore_keepsBook : KeepsBook state (unignore state peerId) :=
  .known id List.prefix_rfl List.filter_sublist id rfl

theorem noteAddress_keepsBook (address : String) :
    KeepsBook state (noteAddress lib peerId state address) := by
  unfold noteAddress
  dsimp only
  split_ifs
  · exact .refl state
  · exact .updateFirst rfl (fun _ => rfl) (fun _ => nodup_pushUnique _) (List.Sublist.refl _)
      (nodup_pushUnique _) rfl

theorem seedRendezvousInvite_keepsBook (invite : CompactInviteV1) :
    KeepsBook state (seedRendezvousInvite lib state invite) := by
  rw [seedRendezvousInvite_eq]
  have hentry := (unignore_keepsBook state invite.peerId).trans
    (updateKnownPeer_keepsBook lib _ invite.peerId none none false false)
  exact hentry.trans (foldl_keepsBook (fun s => noteAddress_keepsBook lib s invite.peerId) _ _)

theorem hintedEntry_keeps (addrs : List String) (entry : KnownPeerSummary) :
    (hintedEntry addrs entry).peerId = entry.peerId ∧
      (entry.addresses.Nodup → (hintedEntry addrs entry).addresses.Nodup) := by
  rw [hintedEntry_eq]
  exact ⟨rfl, nodup_foldl_pushUnique addrs⟩

theorem seedInviteHints_keepsBook (invite : CompactInviteV1) :
    KeepsBook state (seedInviteHints state invite) := by
  rw [seedInviteHints_eq]
  refine KeepsBook.updateOrPush rfl ?_ ?_ ?_ List.filter_sublist
    (nodup_foldl_pushUnique _) rfl
  · exact fun entry => (hintedEntry_keeps _ entry).1
  · exact fun entry => (hintedEntry_keeps _ entry).2
  · exact ⟨rfl, rfl⟩

theorem runFollowUp_keepsBook (followUp : FollowUp) :
    KeepsBook state (Daemon.runFollowUp state followUp) := by
  cases followUp with
  | approved approved whitelist =>
    simp only [Daemon.runFollowUp]
    refine KeepsBook.trans ?_ (removePendingApproval_keepsBook _ approved)
    split_ifs
    · exact .updateFirst rfl (fun _ => rfl) (fun _ => id) (List.Sublist.refl _) id rfl
    · exact .refl state
  | rejected rejected => exact removePendingApproval_keepsBook state rejected

theorem renameKnownPeer_keepsBook (displayName : String) :
    KeepsBook state (renameKnownPeer state peerId displayName).2 := by
  simp only [renameKnownPeer]
  split_ifs
  · have hknown : KeepsBook state { state with
        network := NetworkSummary.refreshUserViews { state.network with
          knownPeers := updateFirst (fun p => p.peerId = peerId)
            (fun p => { p with displayName := displayName, pinned := true })
            state.network.knownPeers } } :=
      .updateFirst rfl (fun _ => rfl) (fun _ => id) (List.Sublist.refl _) id rfl
    refine hknown.trans (KeepsBook.peers fun h => ?_)
    rwa [map_updateFirst fun _ _ => by rfl]
  · exact .refl state

theorem setTrustedContact_keepsBook (trusted : Bool) :
    KeepsBook state (setTrustedContact state peerId trusted).2 := by
  simp only [setTrustedContact]
  split_ifs
  · exact .updateFirst rfl (fun _ => rfl) (fun _ => id) (List.Sublist.refl _) id rfl
  · exact .refl state

theorem forgetKnownPeer_keepsBook : KeepsBook state (forgetKnownPeer state peerId).2 := by
  simp only [forgetKnownPeer]
  split_ifs with hknown
  · have hunpin : KeepsBook state { state with
        network := NetworkSummary.refreshUserViews { state.network with
          knownPeers := updateFirst (fun p => p.peerId = peerId)
            (fun p => { p with pinned := false }) state.network.knownPeers } } :=
      .updateFirst rfl (fun _ => rfl) (fun _ => id) (List.Sublist.refl _) id rfl
    intro h
    obtain ⟨ht, hprefix⟩ := hunpin h
    refine ⟨{ ht with ignoredKnown := ?_, ignored := nodup_pushUnique peerId ht.ignored }, hprefix⟩
    intro id hid
    rcases mem_pushUnique.mp hid with hold | rfl
    · exact ht.ignoredKnown id hold
    · apply hprefix.subset
      obtain ⟨entry, hentry, heq⟩ := List.any_eq_true.mp hknown
      exact List.mem_map.mpr ⟨entry, hentry, of_decide_eq_true heq⟩
  · exact .refl state

theorem savedEntry_addresses {live : Option PeerSummary} {entry : KnownPeerSummary}
    (h : entry.addresses.Nodup) : (savedEntry live entry).addresses.Nodup := by
  cases live with
  | none => exact h
  | some live =>
    simp only [savedEntry]
    split_ifs
    · exact nodup_pushUnique _ h
    · exact h

theorem knownPeer?_eq_none_iff :
    state.knownPeer? peerId = none ↔ peerId ∉ state.network.knownIds := by
  simp [DaemonStatus.knownPeer?, NetworkSummary.knownIds]

theorem saveKnownPeer_keepsBook : KeepsBook state (saveKnownPeer state peerId).2 := by
  cases hknown : state.knownPeer? peerId with
  | some entry =>
    rw [saveKnownPeer_known state peerId (by simp [hknown])]
    refine .updateFirst rfl (fun entry => ?_) (fun _ => savedEntry_addresses) List.filter_sublist
      id rfl
    cases state.peer? peerId with
    | none => rfl
    | some live => rfl
  | none =>
    cases hlive : state.peer? peerId with
    | none =>
      rw [saveKnownPeer_none state peerId hknown hlive]
      exact unignore_keepsBook state peerId
    | some live =>
      rw [saveKnownPeer_live state peerId hknown hlive]
      have hid := DaemonStatus.peerId_of_peer? hlive
      have habsent := (knownPeer?_eq_none_iff state peerId).mp hknown
      refine .known (fun h => ⟨?_, ?_⟩) ?_ List.filter_sublist id rfl
      · have hnew : (liveEntry live).peerId = peerId := hid
        simp only [NetworkSummary.refreshUserViews, List.map_append, List.map_singleton, hnew]
        rw [← List.concat_eq_append]
        exact List.Nodup.concat habsent h.ids
      · intro entry hentry
        rcases List.mem_append.mp hentry with hold | hnew
        · exact h.addresses entry hold
        · obtain rfl := List.mem_singleton.mp hnew
          simp only [liveEntry]
          split_ifs
          · exact List.nodup_singleton _
          · exact .nil
      · simp only [NetworkSummary.knownIds, NetworkSummary.refreshUserViews, List.map_append]
        exact List.prefix_append _ _

end

theorem statusAfter_keepsBook (d : Daemon κ) (e : Event κ lib) :
    KeepsBook d.status (d.statusAfter e) := by
  have happroved : ∀ peerId hello,
      KeepsBook d.status (d.approvedStatus lib peerId hello) := by
    intro peerId hello
    unfold Daemon.approvedStatus
    dsimp only
    split_ifs
    · exact applySessionHello_keepsBook lib d.status peerId hello
    · exact (applySessionHello_keepsBook lib d.status peerId hello).trans
        (removePendingApproval_keepsBook _ peerId)
  cases e with
  | connectionEstablished peer endpoint =>
    simp only [Daemon.statusAfter, Daemon.establishedStatus]
    split_ifs
    all_goals
      first
      | exact (recordPathScore_keepsBook d.status _ _ true).trans (upsertPeer_keepsBook lib _ _ _)
      | exact recordPathScore_keepsBook d.status _ _ true
  | connectionClosed peer n => exact closeStatus_keepsBook d.status peer.text n
  | outgoingConnectionError peer dialed => exact recordPathScore_keepsBook d.status _ _ false
  | identifyReceived peer info => exact identifiedStatus_keepsBook lib d.status peer.text info
  | ping peer => exact onPing_keepsBook peer.text d
  | foundRecord query invite dialed =>
    simp only [Daemon.statusAfter]
    split_ifs
    · exact seedRendezvousInvite_keepsBook lib d.status invite
    · exact .refl _
  | sessionHello peer hello channel =>
    simp only [Daemon.statusAfter]
    split_ifs
    · exact happroved peer.text hello
    · exact queuePendingPeerApproval_keepsBook d.status peer.text hello
  | sessionHelloAck peer hello =>
    simp only [Daemon.statusAfter]
    split_ifs
    · exact .refl _
    · exact applySessionHello_keepsBook lib d.status peer.text hello
  | approvePendingPeer peerId whitelist =>
    simp only [Daemon.statusAfter]
    split
    · exact .refl _
    · exact happroved peerId _
  | rejectPendingPeer peerId =>
    simp only [Daemon.statusAfter]
    split_ifs
    · exact removePendingApproval_keepsBook d.status peerId
    · exact .refl _
  | followUp index =>
    simp only [Daemon.statusAfter]
    split
    · exact .refl _
    · exact runFollowUp_keepsBook d.status _
  | seedInviteHints invite => exact seedInviteHints_keepsBook d.status invite
  | setSession session => exact fun h => ⟨{ h with }, List.prefix_rfl⟩
  | saveKnownPeer peerId => exact saveKnownPeer_keepsBook d.status peerId
  | renameKnownPeer peerId displayName => exact renameKnownPeer_keepsBook d.status peerId displayName
  | forgetKnownPeer peerId => exact forgetKnownPeer_keepsBook d.status peerId
  | setTrustedContact peerId trusted => exact setTrustedContact_keepsBook d.status peerId trusted
  | _ => exact .refl _

/-- A state file from which a start has a book without duplicates. -/
structure FileUnique (file : PersistedState) : Prop where
  known : KnownUnique file.knownPeers
  ignoredKnown : ∀ id ∈ file.ignoredPeerIds, id ∈ file.knownPeers.map KnownPeerSummary.peerId
  ignored : file.ignoredPeerIds.Nodup
  saved : file.knownPeerAddrs.Nodup
  paths : (file.pathScores.map PathScoreSummary.path).Nodup

structure HostUnique (h : Host κ) : Prop where
  status : BookUnique h.status
  files : ∀ file ∈ emptyState :: h.files, FileUnique file

/-- A start has the entries of the file it reads; any other step keeps those
there are, in their order. -/
def CarriesBook (x : HostTransition κ lib) : Prop :=
  match x.input with
  | .restart index _ _ => ∃ file, x.before.fileAt index = some file ∧
      x.after.status.network.knownPeers = file.knownPeers
  | _ => x.before.status.network.knownIds <+: x.after.status.network.knownIds

/-- The file holds the book some earlier state had. -/
def WrittenFrom (tr : List (HostTransition κ lib)) (file : PersistedState) : Prop :=
  ∃ x ∈ tr, file.knownPeers = x.before.status.network.knownPeers

section

variable {π : Profile} {h t : Host κ}

theorem fileUnique_emptyState : FileUnique emptyState where
  known := .nil
  ignoredKnown := fun _ hid => absurd hid List.not_mem_nil
  ignored := .nil
  saved := .nil
  paths := .nil

theorem BookUnique.file {status : DaemonStatus} (hunique : BookUnique status)
    (localDisplayName : Option String) : FileUnique (persistedState status localDisplayName) where
  known := hunique.known
  ignoredKnown := hunique.ignoredKnown
  ignored := hunique.ignored
  saved := hunique.saved
  paths := hunique.paths

theorem FileUnique.bootstrap {file : PersistedState} (hunique : FileUnique file)
    (displayName localPeerId : String) : BookUnique (bootstrap file displayName localPeerId) where
  known := hunique.known
  ignoredKnown := hunique.ignoredKnown
  ignored := hunique.ignored
  saved := hunique.saved
  paths := hunique.paths
  peers := .nil
  pending := .nil

theorem hostUnique_start (displayName localPeerId : String) :
    HostUnique (Host.start (κ := κ) displayName localPeerId) where
  status := fileUnique_emptyState.bootstrap displayName localPeerId
  files := by
    intro file hfile
    obtain rfl := List.mem_singleton.mp hfile
    exact fileUnique_emptyState

theorem HostMove.unique {e : HostEvent κ lib} (hmove : HostMove lib h e t) (hunique : HostUnique h) :
    HostUnique t := by
  cases hmove with
  | event e t hfiles _ hsame _ =>
    have hstatus := ((statusAfter_keepsBook h.daemon e).trans hsame.keepsBook hunique.status).1
    exact ⟨hstatus, hfiles ▸ hunique.files⟩
  | pathOutcome path peerId success =>
    exact ⟨(recordPathScore_keepsBook h.status path peerId success hunique.status).1, hunique.files⟩
  | save localDisplayName =>
    refine ⟨hunique.status, fun file hfile => ?_⟩
    rw [← List.cons_append] at hfile
    rcases List.mem_append.mp hfile with hold | hnew
    · exact hunique.files file hold
    · obtain rfl := List.mem_singleton.mp hnew
      exact hunique.status.file localDisplayName
  | restart index displayName localPeerId file hfile =>
    have hread := hunique.files file (Host.mem_of_fileAt hfile)
    exact ⟨hread.bootstrap displayName localPeerId, hunique.files⟩

theorem carriesBook_of_move {x : HostTransition κ lib} (hmove : HostMove lib x.before x.input x.after)
    (hunique : HostUnique x.before) : CarriesBook x := by
  obtain ⟨before, input, output, after⟩ := x
  dsimp only at hmove hunique
  cases hmove with
  | event e _ _ _ hsame _ =>
    exact ((statusAfter_keepsBook before.daemon e).trans hsame.keepsBook hunique.status).2
  | pathOutcome path peerId success => exact List.prefix_rfl
  | save localDisplayName => exact List.prefix_rfl
  | restart index displayName localPeerId file hfile => exact ⟨file, hfile, rfl⟩

theorem HostRun.unique {displayName localPeerId : String} {tr : List (HostTransition κ lib)}
    (hrun : HostRun π displayName localPeerId tr h) : HostUnique h :=
  hrun.invariant (fun _ _ _ _ hunique hstep => (HostMove.of_step hstep).unique hunique)
    (hostUnique_start displayName localPeerId)

/-- A file holds the book of the state it was written from. -/
theorem HostRun.written {displayName localPeerId : String} {tr : List (HostTransition κ lib)}
    (hrun : HostRun π displayName localPeerId tr h) : ∀ file ∈ h.files, WrittenFrom tr file := by
  refine Trace.snoc_induction (P := fun tr h => ∀ file ∈ h.files, WrittenFrom tr file) ?_ ?_ hrun
  · simp [Host.start]
  · intro tr x _ hstep ih file hfile
    have hearlier : file ∈ x.before.files → WrittenFrom (tr ++ [x]) file := by
      intro hold
      obtain ⟨y, hy, hbook⟩ := ih file hold
      exact ⟨y, List.mem_append_left _ hy, hbook⟩
    obtain ⟨before, input, output, after⟩ := x
    have hmove := HostMove.of_step hstep
    dsimp only at hmove hfile hearlier
    cases hmove with
    | event e _ hfiles _ _ _ => exact hearlier (hfiles ▸ hfile)
    | pathOutcome path peerId success => exact hearlier hfile
    | save localDisplayName =>
      rcases List.mem_append.mp hfile with hold | hnew
      · exact hearlier hold
      · obtain rfl := List.mem_singleton.mp hnew
        exact ⟨_, List.mem_append_right _ List.mem_cons_self, rfl⟩
    | restart index displayName localPeerId _ _ => exact hearlier hfile

theorem peer_book_unique {displayName localPeerId : String} {tr : List (HostTransition κ lib)}
    (hrun : HostRun π displayName localPeerId tr h) :
    BookUnique h.status ∧ (∀ x ∈ tr, CarriesBook x) ∧ ∀ file ∈ h.files, WrittenFrom tr file := by
  refine ⟨hrun.unique.status, fun x hx => ?_, hrun.written⟩
  have hkeep : ∀ (s : Host κ) (e : HostEvent κ lib) (o : List (Effect κ)) (t : Host κ),
      HostUnique s → s.step π e = some (o, t) → HostUnique t :=
    fun _ _ _ _ hunique hstep => (HostMove.of_step hstep).unique hunique
  obtain ⟨hbefore, hstep⟩ := hrun.of_mem hkeep (hostUnique_start displayName localPeerId) hx
  exact carriesBook_of_move (HostMove.of_step hstep) hbefore

end

/-- The hints of an invite are not written to a file; a start forgets the peer. -/
def hintedStart : List (HostEvent silentCodec sampleLibp2p) :=
  [.event (.seedInviteHints callInvite), .restart none "local-user" localPeer]

theorem hintedStart_entries :
    (hostRun .release "local-user" localPeer hintedStart).map (fun r =>
      r.1.map fun x => (x.before.status.network.knownIds, x.after.status.network.knownIds)) =
      some [([], [remotePeer]), ([remotePeer], [])] := by
  decide +kernel

theorem known_peer_forgotten :
    ¬ ∀ (tr : List (HostTransition silentCodec sampleLibp2p)) (h : Host silentCodec),
      HostRun .release "local-user" localPeer tr h → ∀ x ∈ tr,
        ∀ id ∈ x.before.status.network.knownIds, id ∈ x.after.status.network.knownIds := by
  intro h
  obtain ⟨⟨tr, t⟩, hrun, hentries⟩ := Option.map_eq_some_iff.mp hintedStart_entries
  dsimp only at hentries
  obtain ⟨x, hx, heq⟩ := List.mem_map.mp
    (hentries ▸ (by simp : ([remotePeer], []) ∈ [([], [remotePeer]), ([remotePeer], [])]))
  obtain ⟨hbefore, hafter⟩ := Prod.mk.inj heq
  have hkept := h tr t (hostRun_trace hrun) x hx remotePeer (by simp [hbefore])
  rw [hafter] at hkept
  exact absurd hkept List.not_mem_nil

theorem peer_book_unique_hintedStart :
    ∃ (tr : List (HostTransition silentCodec sampleLibp2p)) (h : Host silentCodec), tr.length = 2 ∧
      BookUnique h.status ∧ (∀ x ∈ tr, CarriesBook x) ∧ ∀ file ∈ h.files, WrittenFrom tr file := by
  obtain ⟨⟨tr, h⟩, hrun, hentries⟩ := Option.map_eq_some_iff.mp hintedStart_entries
  have hlength := congrArg List.length hentries
  exact ⟨tr, h, by simpa using hlength, peer_book_unique (hostRun_trace hrun)⟩

end Voicers
