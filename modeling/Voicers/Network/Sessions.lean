import Voicers.Network.BookEdits
import Voicers.Network.Contacts

/-! The sessions of the listed peers. A session becomes active when a hello or
an answer to a hello is applied, and stays so: neither the media engine nor
the book nor a closed connection takes it back. -/

namespace Voicers

open Lib

variable {κ : Codec} {lib : Libp2p}

def PeerSummary.ActiveFor (peer : PeerSummary) (peerId : String) : Prop :=
  peer.peerId = peerId ∧ ∃ roomName displayName, peer.session = .active roomName displayName

def DaemonStatus.ActiveSession (state : DaemonStatus) (peerId : String) : Prop :=
  ∃ peer ∈ state.peers, peer.ActiveFor peerId

/-- The listed peers have the same ids and sessions, in the same order. -/
def DaemonStatus.SameSessions (s t : DaemonStatus) : Prop :=
  t.peers.map (fun p => (p.peerId, p.session)) = s.peers.map fun p => (p.peerId, p.session)

section

variable {s t u : DaemonStatus} {p : String}

theorem DaemonStatus.SameSessions.trans (h : s.SameSessions t) (h' : t.SameSessions u) :
    s.SameSessions u := Eq.trans h' h

theorem activeSession_iff {state : DaemonStatus} :
    state.ActiveSession p ↔ ∃ roomName displayName,
      (p, .active roomName displayName) ∈ state.peers.map fun q => (q.peerId, q.session) := by
  simp only [DaemonStatus.ActiveSession, PeerSummary.ActiveFor, List.mem_map, Prod.mk.injEq]
  constructor
  · rintro ⟨q, hq, hp, roomName, displayName, hs⟩
    exact ⟨roomName, displayName, q, hq, hp, hs⟩
  · rintro ⟨roomName, displayName, q, hq, hp, hs⟩
    exact ⟨q, hq, hp, roomName, displayName, hs⟩

theorem DaemonStatus.SameSessions.active (h : s.SameSessions t) :
    t.ActiveSession p ↔ s.ActiveSession p := by
  rw [activeSession_iff, activeSession_iff, h]

theorem DaemonStatus.SameContacts.sessions (h : s.SameContacts t) : s.SameSessions t := by
  have hsessions := congrArg (List.map fun c : PeerContact => (c.peerId, c.session)) h.peers
  rw [List.map_map, List.map_map] at hsessions
  exact hsessions

end

section

variable {state : DaemonStatus} {peerId p : String}

theorem activeSession_of_peers {state' : DaemonStatus} (h : state'.peers = state.peers) :
    state'.ActiveSession p ↔ state.ActiveSession p := by
  unfold DaemonStatus.ActiveSession
  rw [h]

theorem updateKnownPeer_active {address displayName : Option String} {connected seen : Bool} :
    (updateKnownPeer lib state peerId address displayName connected seen).ActiveSession p ↔
      state.ActiveSession p :=
  activeSession_of_peers (updateKnownPeer_peers lib state peerId address displayName connected seen)

theorem getOrInsertPeer_active {address : String} {update : PeerSummary → PeerSummary}
    (hid : ∀ q, (update q).peerId = q.peerId)
    (hsession : ∀ q r n, (update q).session = .active r n ↔ q.session = .active r n) :
    (getOrInsertPeer state peerId address update).ActiveSession p ↔ state.ActiveSession p := by
  simp only [DaemonStatus.ActiveSession, getOrInsertPeer]
  apply exists_updateOrPush
  · intro q _
    simp only [PeerSummary.ActiveFor, hid, hsession]
  · simp [PeerSummary.ActiveFor, hsession, newPeer]

theorem upsertPeer_active {address : String} :
    (upsertPeer lib state peerId address).ActiveSession p ↔ state.ActiveSession p := by
  unfold DaemonStatus.ActiveSession
  rw [upsertPeer_peers]
  apply exists_updateOrPush
  · intro q _
    by_cases hs : q.session = .none
    · simp [PeerSummary.ActiveFor, hs]
    · simp [PeerSummary.ActiveFor, hs]
  · simp [PeerSummary.ActiveFor, newPeer]

theorem applySessionHello_active {hello : SessionHello} :
    (applySessionHello lib state peerId hello).ActiveSession p ↔
      state.ActiveSession p ∨ peerId = p := by
  unfold DaemonStatus.ActiveSession
  rw [applySessionHello_peers]
  by_cases hp : peerId = p
  · refine iff_of_true (exists_updateOrPush_of ?_ ?_) (.inr hp)
    · intro q hq
      exact ⟨(of_decide_eq_true hq).trans hp, _, _, rfl⟩
    · exact ⟨hp, _, _, rfl⟩
  · simp only [hp, or_false]
    apply exists_updateOrPush
    · intro q hq
      have hne : q.peerId ≠ p := fun h => hp ((of_decide_eq_true hq).symm.trans h)
      simp [PeerSummary.ActiveFor, hne]
    · exact fun h => hp h.1

theorem closeStatus_active {n : Nat} :
    (Daemon.closeStatus state peerId n).ActiveSession p ↔ state.ActiveSession p := by
  simp only [Daemon.closeStatus, DaemonStatus.ActiveSession]
  split_ifs with hremove
  · obtain ⟨_, hnone, _⟩ := hremove
    apply exists_eraseP
    intro q hfirst hactive
    obtain ⟨_, _, _, hs⟩ := hactive
    have hfound : state.peer? peerId = some q := hfirst
    simp [hfound, hs] at hnone
  · exact exists_updateFirst fun q _ => Iff.rfl
  · exact exists_updateFirst fun q _ => Iff.rfl

theorem updateFirst_active {test : PeerSummary → Bool} {f : PeerSummary → PeerSummary}
    (hf : ∀ q, (f q).peerId = q.peerId ∧ (f q).session = q.session) :
    ({ state with peers := updateFirst test f state.peers } : DaemonStatus).ActiveSession p ↔
      state.ActiveSession p := by
  apply exists_updateFirst
  intro q _
  obtain ⟨hid, hsession⟩ := hf q
  simp only [PeerSummary.ActiveFor, hid, hsession]

end

namespace Daemon

section

variable {p : String}

theorem identifiedStatus_active (state : DaemonStatus) (peerId : String) (info : IdentifyInfo) :
    (identifiedStatus lib state peerId info).ActiveSession p ↔ state.ActiveSession p := by
  unfold identifiedStatus
  rw [activeSession_of_peers (noteObserved_peers _ _)]
  by_cases hs : shouldSurfaceApprovedPeer state peerId = true
  · rw [if_pos hs, updateKnownPeer_active]
    exact getOrInsertPeer_active (fun _ => rfl) fun _ _ _ => Iff.rfl
  · rw [if_neg hs]

theorem approvedStatus_active (d : Daemon κ) (peerId : String) (hello : SessionHello) :
    (d.approvedStatus lib peerId hello).ActiveSession p ↔
      d.status.ActiveSession p ∨ peerId = p := by
  rw [← applySessionHello_active]
  apply activeSession_of_peers
  unfold approvedStatus
  dsimp only
  split_ifs
  · rfl
  · rfl

/-- A hello that is applied under a condition on its peer. -/
theorem ite_active {state t u : DaemonStatus} {q : String} {C : String → Prop} [Decidable (C q)]
    (ht : t.ActiveSession p ↔ state.ActiveSession p ∨ q = p)
    (hu : u.ActiveSession p ↔ state.ActiveSession p) :
    (if C q then t else u).ActiveSession p ↔ state.ActiveSession p ∨ (q = p ∧ C p) := by
  by_cases hc : C q
  · rw [if_pos hc, ht]
    exact or_congr Iff.rfl ⟨fun hq => ⟨hq, hq ▸ hc⟩, fun hq => hq.1⟩
  · have hno : ¬ (q = p ∧ C p) := by
      rintro ⟨rfl, hp⟩
      exact hc hp
    rw [if_neg hc, hu, iff_false_intro hno, or_false]

/-- What an event makes of the sessions of a status. -/
theorem statusAfter_active (d : Daemon κ) (e : Event κ lib) :
    (d.statusAfter e).ActiveSession p ↔ d.status.ActiveSession p ∨ d.Admits e p := by
  have hsame : ∀ {t : DaemonStatus}, t.peers = d.status.peers →
      (t.ActiveSession p ↔ d.status.ActiveSession p ∨ False) := by
    intro t ht
    rw [or_false]
    exact activeSession_of_peers ht
  cases e with
  | connectionEstablished peer endpoint =>
    simp only [statusAfter, establishedStatus, Admits, or_false]
    by_cases hs : shouldSurfaceConnectedPeer d.status peer.text (d.pendingDials peer.text).isSome =
        true
    · rw [if_pos hs, upsertPeer_active]
      rfl
    · rw [if_neg hs]
      rfl
  | connectionClosed peer n =>
    simp only [statusAfter, Admits, or_false]
    exact closeStatus_active
  | identifyReceived peer info =>
    simp only [statusAfter, Admits, or_false]
    exact identifiedStatus_active d.status peer.text info
  | ping peer =>
    simp only [Admits, or_false]
    exact updateFirst_active fun _ => ⟨rfl, rfl⟩
  | foundRecord query invite dialed =>
    refine hsame ?_
    obtain ⟨network, hnetwork⟩ := seedRendezvousInvite_network lib d.status invite
    simp only [statusAfter, hnetwork]
    split_ifs
    · rfl
    · rfl
  | sessionHello peer hello channel =>
    refine ite_active (C := fun id => d.passesGate id = true)
      (approvedStatus_active d peer.text hello) (activeSession_of_peers ?_)
    unfold queuePendingPeerApproval
    dsimp only
    split_ifs
    · rfl
    · rfl
  | sessionHelloAck peer hello =>
    simp only [statusAfter]
    rw [← ite_not]
    exact ite_active (C := fun id => d.helloRequests id ≠ 0) applySessionHello_active Iff.rfl
  | approvePendingPeer peerId whitelist =>
    cases hheld : d.pendingInboundApprovals peerId with
    | none =>
      have hno : ¬ (peerId = p ∧ (d.pendingInboundApprovals p).isSome = true) := by
        rintro ⟨rfl, hp⟩
        simp [hheld] at hp
      simp only [statusAfter, hheld, Admits, hno, or_false]
    | some pending =>
      simp only [statusAfter, hheld, Admits]
      rw [approvedStatus_active]
      refine or_congr Iff.rfl ⟨fun hp => ⟨hp, ?_⟩, fun hp => hp.1⟩
      rw [← hp, hheld]
      rfl
  | rejectPendingPeer peerId =>
    refine hsame ?_
    simp only [statusAfter]
    split_ifs
    · rfl
    · rfl
  | followUp index =>
    refine hsame ?_
    simp only [statusAfter]
    split
    · rfl
    · exact runFollowUp_peers _ _
  | saveKnownPeer peerId => exact hsame (saveKnownPeer_peers _ _)
  | renameKnownPeer peerId displayName =>
    simp only [statusAfter, Admits, or_false, renameKnownPeer]
    split_ifs
    · exact exists_updateFirst fun _ _ => Iff.rfl
    · rfl
  | forgetKnownPeer peerId => exact hsame (forgetKnownPeer_peers _ _)
  | setTrustedContact peerId trusted => exact hsame (setTrustedContact_peers _ _ _)
  | _ => exact hsame rfl

/-- A session is active exactly when it was so before or its hello is applied
by the event. -/
theorem handle_active (π : Profile) (d : Daemon κ) (e : Event κ lib) :
    (d.handle π lib e).1.status.ActiveSession p ↔ d.status.ActiveSession p ∨ d.Admits e p :=
  (handle_contacts π d e).sessions.active.trans (statusAfter_active d e)

end

end Daemon

end Voicers
