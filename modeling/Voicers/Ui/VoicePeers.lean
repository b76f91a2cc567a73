import Voicers.Network.Roster
import Voicers.Network.SessionRoutes
import Voicers.Network.Sessions

/-! The peers the terminal interface shows in the call (`ui/model.rs` of the
client). It goes by their sessions; the daemon does not end a session with the
last connection of its peer. -/

namespace Voicers

open Lib

variable {κ : Codec} {lib : Libp2p}

def visibleVoicePeers (status : DaemonStatus) : List PeerSummary :=
  status.peers.filter sessionActive

/-- Whose session is active is listed as connected and has a connection. -/
def LivePeers (established : String → Nat) (peers : List PeerSummary) : Prop :=
  ∀ peer ∈ peers, sessionActive peer = true →
    peer.transport = .connected ∧ 0 < established peer.peerId

/-- The last connection of the peer is closed. -/
def Leaves (peerId : String) (x : HostTransition κ lib) : Prop :=
  ∃ peer, x.input = .event (.connectionClosed peer 0) ∧ peer.text = peerId

/-- The peer has left, and no hello of it has been applied since. -/
def HasLeft (peerId : String) (tr : List (HostTransition κ lib)) : Prop :=
  Since (Leaves peerId) (AppliesHello peerId) tr

structure SessionsLive (tr : List (HostTransition κ lib)) (h : Host κ) : Prop where
  live : LivePeers h.established h.status.peers
  left : ∀ peerId, HasLeft peerId tr → ¬ h.status.ActiveSession peerId

/-- Hellos are applied for connected peers, and no active peer loses its last
connection. -/
def KeepsLive (x : HostTransition κ lib) : Prop :=
  ∀ e, x.input = .event e → ∀ peerId,
    (x.before.daemon.Admits e peerId → 0 < x.before.established peerId) ∧
      (Leaves peerId x → ¬ x.before.status.ActiveSession peerId)

section

variable {established established' : String → Nat} {peers : List PeerSummary}
  {f : PeerSummary → PeerSummary} {new : PeerSummary} {test : PeerSummary → Bool}

theorem sessionActive_iff {peer : PeerSummary} :
    sessionActive peer = true ↔ ∃ roomName displayName, peer.session = .active roomName displayName := by
  unfold sessionActive
  cases peer.session with
  | active roomName displayName => simp
  | none => simp
  | handshaking => simp

theorem activeSession_iff_mem {state : DaemonStatus} {peerId : String} :
    state.ActiveSession peerId ↔
      ∃ peer ∈ state.peers, peer.peerId = peerId ∧ sessionActive peer = true := by
  simp only [DaemonStatus.ActiveSession, PeerSummary.ActiveFor, sessionActive_iff]

theorem LivePeers.updateFirst (hlive : LivePeers established peers)
    (hcount : ∀ peer ∈ peers, sessionActive peer = true → 0 < established peer.peerId →
      0 < established' peer.peerId)
    (hf : ∀ peer ∈ peers, test peer = true → sessionActive (f peer) = true →
      (f peer).transport = .connected ∧ 0 < established' (f peer).peerId) :
    LivePeers established' (updateFirst test f peers) := by
  intro peer hpeer hactive
  rcases mem_updateFirst hpeer with hold | ⟨old, hold, htest, rfl⟩
  · obtain ⟨hup, hcounted⟩ := hlive peer hold hactive
    exact ⟨hup, hcount peer hold hactive hcounted⟩
  · exact hf old hold htest hactive

theorem LivePeers.updateOrPush (hlive : LivePeers established peers)
    (hcount : ∀ peer ∈ peers, sessionActive peer = true → 0 < established peer.peerId →
      0 < established' peer.peerId)
    (hf : ∀ peer ∈ peers, test peer = true → sessionActive (f peer) = true →
      (f peer).transport = .connected ∧ 0 < established' (f peer).peerId)
    (hnew : sessionActive (f new) = true →
      (f new).transport = .connected ∧ 0 < established' (f new).peerId) :
    LivePeers established' (updateOrPush test f new peers) := by
  intro peer hpeer hactive
  rcases mem_updateOrPush hpeer with hold | ⟨old, hold, htest, rfl⟩ | ⟨_, rfl⟩
  · obtain ⟨hup, hcounted⟩ := hlive peer hold hactive
    exact ⟨hup, hcount peer hold hactive hcounted⟩
  · exact hf old hold htest hactive
  · exact hnew hactive

theorem DaemonStatus.SameRows.live {s t : DaemonStatus} (hsame : s.SameRows t) :
    LivePeers established t.peers ↔ LivePeers established s.peers := by
  have hrows : ∀ status : DaemonStatus, LivePeers established status.peers ↔
      ∀ row ∈ status.peers.map PeerSummary.row, (∃ roomName displayName,
        row.session = .active roomName displayName) →
          row.transport = .connected ∧ 0 < established row.peerId := by
    intro status
    rw [List.forall_mem_map]
    simp only [LivePeers, sessionActive_iff]
    rfl
  rw [hrows, hrows, hsame.rows]

end

section

variable {d : Daemon κ} {e : Event κ lib} {established established' : String → Nat}

theorem greetedPeers_live {peerId : String} {hello : SessionHello}
    (hlive : LivePeers established d.status.peers) (hcounted : 0 < established peerId) :
    LivePeers established (greetedPeers d.status peerId hello) := by
  refine hlive.updateOrPush (fun _ _ _ h => h) ?_ ?_
  · intro peer _ htest _
    have hid : peer.peerId = peerId := of_decide_eq_true htest
    exact ⟨rfl, hid ▸ hcounted⟩
  · exact fun _ => ⟨rfl, hcounted⟩

/-- A peer that is kept as it was, but for its name or volume, stays live. -/
theorem updateFirst_live {test : PeerSummary → Bool} {f : PeerSummary → PeerSummary}
    (hlive : LivePeers established d.status.peers)
    (hf : ∀ peer, (f peer).peerId = peer.peerId ∧ (f peer).session = peer.session)
    (hup : ∀ peer, peer.transport = .connected → (f peer).transport = .connected) :
    LivePeers established (updateFirst test f d.status.peers) := by
  refine hlive.updateFirst (fun _ _ _ h => h) ?_
  intro peer hpeer _ hactive
  obtain ⟨hid, hsession⟩ := hf peer
  rw [sessionActive_iff, hsession, ← sessionActive_iff] at hactive
  obtain ⟨hconnected, hcounted⟩ := hlive peer hpeer hactive
  exact ⟨hup peer hconnected, by rwa [hid]⟩

/-- The list stays live when hellos are applied for connected peers and no
active peer leaves. -/
theorem peersAfter_live (hbooked : Booked d.status)
    (hestablished : establishedAfter established e = some established')
    (hlive : LivePeers established d.status.peers)
    (hadmits : ∀ peerId, d.Admits e peerId → 0 < established peerId)
    (hleaves : ∀ peer, e = .connectionClosed peer 0 → ¬ d.status.ActiveSession peer.text) :
    LivePeers established' (d.peersAfter e) := by
  cases e with
  | connectionEstablished peer endpoint =>
    obtain rfl := Option.some.inj hestablished
    have hmono : ∀ id, 0 < established id →
        0 < Function.update established peer.text (established peer.text + 1) id := by
      intro id hcounted
      by_cases hid : id = peer.text
      · subst hid
        simp
      · rwa [Function.update_of_ne hid]
    simp only [Daemon.peersAfter]
    split_ifs
    · refine hlive.updateOrPush (fun q _ _ => hmono q.peerId) ?_ ?_
      · intro q _ htest _
        have hid : q.peerId = peer.text := of_decide_eq_true htest
        exact ⟨rfl, by simp [hid]⟩
      · intro hactive
        obtain ⟨_, _, hsession⟩ := sessionActive_iff.mp hactive
        simp [newPeer] at hsession
    · intro q hq hactive
      obtain ⟨hup, hcounted⟩ := hlive q hq hactive
      exact ⟨hup, hmono q.peerId hcounted⟩
  | connectionClosed peer n =>
    obtain ⟨_, heq⟩ := Option.ite_none_right_eq_some.mp hestablished
    obtain rfl := Option.some.inj heq
    have hleft : ∀ q ∈ d.status.peers, q.peerId = peer.text → sessionActive q = true → 0 < n := by
      intro q hq hid hactive
      rcases Nat.eq_zero_or_pos n with rfl | hn
      · exact absurd (activeSession_iff_mem.mpr ⟨q, hq, hid, hactive⟩) (hleaves peer rfl)
      · exact hn
    simp only [Daemon.peersAfter]
    rw [closeStatus_listed hbooked]
    refine hlive.updateFirst ?_ ?_
    · intro q hq hactive hcounted
      by_cases hid : q.peerId = peer.text
      · rw [hid, Function.update_self]
        exact hleft q hq hid hactive
      · rwa [Function.update_of_ne hid]
    · intro q hq htest hactive
      have hid : q.peerId = peer.text := of_decide_eq_true htest
      have hn := hleft q hq hid hactive
      exact ⟨if_neg hn.ne', by simpa [hid] using hn⟩
  | identifyReceived peer info =>
    obtain rfl := Option.some.inj hestablished
    simp only [Daemon.peersAfter]
    split_ifs
    · refine hlive.updateOrPush (fun _ _ _ h => h) ?_ ?_
      · intro q hq _ hactive
        exact ⟨rfl, (hlive q hq hactive).2⟩
      · intro hactive
        obtain ⟨_, _, hsession⟩ := sessionActive_iff.mp hactive
        simp [newPeer] at hsession
    · exact hlive
  | sessionHello peer hello channel =>
    obtain rfl := Option.some.inj hestablished
    simp only [Daemon.peersAfter]
    split_ifs with hgate
    · exact greetedPeers_live hlive (hadmits peer.text ⟨rfl, hgate⟩)
    · exact hlive
  | sessionHelloAck peer hello =>
    obtain rfl := Option.some.inj hestablished
    simp only [Daemon.peersAfter]
    split_ifs with hzero
    · exact hlive
    · exact greetedPeers_live hlive (hadmits peer.text ⟨rfl, hzero⟩)
  | approvePendingPeer peerId whitelist =>
    obtain rfl := Option.some.inj hestablished
    cases hheld : d.pendingInboundApprovals peerId with
    | none => simpa only [Daemon.peersAfter, hheld] using hlive
    | some pending =>
      simp only [Daemon.peersAfter, hheld]
      exact greetedPeers_live hlive (hadmits peerId ⟨rfl, by simp [hheld]⟩)
  | ping peer =>
    obtain rfl := Option.some.inj hestablished
    exact updateFirst_live hlive (fun _ => ⟨rfl, rfl⟩) fun _ _ => rfl
  | renameKnownPeer peerId displayName =>
    obtain rfl := Option.some.inj hestablished
    exact updateFirst_live hlive (fun _ => ⟨rfl, rfl⟩) fun _ => id
  | toggleMutePeer peerId =>
    obtain rfl := Option.some.inj hestablished
    exact updateFirst_live hlive (fun _ => ⟨rfl, rfl⟩) fun _ => id
  | setPeerVolumePercent peerId percent =>
    obtain rfl := Option.some.inj hestablished
    exact updateFirst_live hlive (fun _ => ⟨rfl, rfl⟩) fun _ => id
  | _ =>
    obtain rfl := Option.some.inj hestablished
    exact hlive

end

section

variable {π : Profile} {h : Host κ} {tr : List (HostTransition κ lib)} {x : HostTransition κ lib}

theorem admits_established {e : Event κ lib} {d : Daemon κ} {peerId : String}
    {established established' : String → Nat} (hadmits : d.Admits e peerId)
    (hestablished : establishedAfter established e = some established') :
    established' = established := by
  cases e with
  | connectionEstablished peer endpoint => exact hadmits.elim
  | connectionClosed peer n => exact hadmits.elim
  | _ => exact (Option.some.inj hestablished).symm

theorem hasLeft_snoc {peerId : String} : HasLeft peerId (tr ++ [x]) ↔
    Leaves peerId x ∨ HasLeft peerId tr ∧ ¬ AppliesHello peerId x := since_snoc

theorem LivePeers.counted {established : String → Nat} {state : DaemonStatus} {peerId : String}
    (hlive : LivePeers established state.peers) (hactive : state.ActiveSession peerId) :
    0 < established peerId := by
  obtain ⟨peer, hpeer, rfl, hsession⟩ := activeSession_iff_mem.mp hactive
  exact (hlive peer hpeer hsession).2

theorem Leaves.established {peerId : String} {e : Event κ lib}
    {established established' : String → Nat} (hleaves : Leaves peerId x)
    (hinput : x.input = .event e) (hestablished : establishedAfter established e = some established') :
    established' peerId = 0 := by
  obtain ⟨peer, hclosed, rfl⟩ := hleaves
  obtain rfl := HostEvent.event.inj (hinput.symm.trans hclosed)
  obtain ⟨_, heq⟩ := Option.ite_none_right_eq_some.mp hestablished
  obtain rfl := Option.some.inj heq
  exact Function.update_self ..

/-- An event keeps the sessions live exactly when it meets the condition. -/
theorem event_keepsLive_iff {e : Event κ lib} (hinput : x.input = .event e)
    (hstep : x.before.step π x.input = some (x.output, x.after)) (hrost : Rostered x.before)
    (hlive : SessionsLive tr x.before) : SessionsLive (tr ++ [x]) x.after ↔ KeepsLive x := by
  rw [hinput] at hstep
  have hrows := Host.step_rows hstep
  have hmove := HostMove.of_step hstep
  obtain ⟨before, input, output, after⟩ := x
  dsimp only at hinput hstep hrost hlive hrows hmove ⊢
  subst hinput
  cases hmove with
  | event _ _ _ hestablished hsame _ =>
    have hactive : ∀ peerId, after.status.ActiveSession peerId ↔
        before.status.ActiveSession peerId ∨ before.daemon.Admits e peerId := fun peerId =>
      hsame.sessions.active.trans (Daemon.statusAfter_active before.daemon e)
    constructor
    · rintro ⟨hafter, _⟩ e' hinput peerId
      obtain rfl := HostEvent.event.inj hinput
      refine ⟨fun hadmits => ?_, fun hleaves hbefore => ?_⟩
      · rw [← admits_established hadmits hestablished]
        exact hafter.counted ((hactive peerId).mpr (.inr hadmits))
      · have hcounted := hafter.counted ((hactive peerId).mpr (.inl hbefore))
        exact hcounted.ne' (hleaves.established rfl hestablished)
    · intro hkeeps
      have hafter : LivePeers after.established after.status.peers := by
        rw [hrows.live, before.daemon.rowsAfter_peers e]
        refine peersAfter_live hrost.booked hestablished hlive.live ?_ ?_
        · exact fun peerId => (hkeeps e rfl peerId).1
        · rintro peer rfl
          exact (hkeeps _ rfl peer.text).2 ⟨peer, rfl, rfl⟩
      refine ⟨hafter, fun peerId hleft hstill => ?_⟩
      rcases hasLeft_snoc.mp hleft with hleaves | ⟨hgone, happlied⟩
      · exact (hafter.counted hstill).ne' (hleaves.established rfl hestablished)
      · rcases (hactive peerId).mp hstill with hbefore | hadmits
        · exact hlive.left peerId hgone hbefore
        · exact happlied ⟨e, rfl, hadmits⟩

theorem step_keepsLive_iff (hstep : x.before.step π x.input = some (x.output, x.after))
    (hrost : Rostered x.before) (hlive : SessionsLive tr x.before) :
    SessionsLive (tr ++ [x]) x.after ↔ KeepsLive x := by
  have hidle : (∀ e, x.input ≠ .event e) → (SessionsLive (tr ++ [x]) x.after ↔ KeepsLive x) := by
    intro hno
    refine iff_of_true ?_ fun e hinput => absurd hinput (hno e)
    have hleft : ∀ peerId, HasLeft peerId (tr ++ [x]) → HasLeft peerId tr := by
      intro peerId hafter
      rcases hasLeft_snoc.mp hafter with ⟨peer, hinput, _⟩ | ⟨hbefore, _⟩
      · exact absurd hinput (hno _)
      · exact hbefore
    rcases (HostMove.of_step hstep).idle hno with ⟨hpeers, hestablished⟩ | hnone
    · refine ⟨?_, fun peerId hgone hactive => hlive.left peerId (hleft peerId hgone) ?_⟩
      · rw [hpeers, hestablished]
        exact hlive.live
      · rwa [activeSession_iff_mem, ← hpeers, ← activeSession_iff_mem]
    · refine ⟨?_, fun peerId _ hactive => ?_⟩
      · rw [hnone]
        exact fun _ hpeer => absurd hpeer List.not_mem_nil
      · obtain ⟨peer, hpeer, _⟩ := activeSession_iff_mem.mp hactive
        rw [hnone] at hpeer
        cases hpeer
  cases hinput : x.input with
  | event e => exact event_keepsLive_iff hinput hstep hrost hlive
  | _ => exact hidle (by simp [hinput])

/-- The sessions are live all along a run exactly when each step keeps them so;
then nobody who has left is shown in the call. -/
theorem sessions_live_iff {displayName localPeerId : String}
    (hrun : HostRun π displayName localPeerId tr h) :
    (Along (fun pre x => SessionsLive (pre ++ [x]) x.after) tr ↔ ∀ x ∈ tr, KeepsLive x) ∧
      ((∀ x ∈ tr, KeepsLive x) → ∀ peer ∈ visibleVoicePeers h.status,
        peer.transport = .connected ∧ 0 < h.established peer.peerId ∧ ¬ HasLeft peer.peerId tr) := by
  have hstart : SessionsLive ([] : List (HostTransition κ lib))
      (Host.start displayName localPeerId) := by
    refine ⟨fun _ hpeer => absurd hpeer List.not_mem_nil, fun peerId hleft => ?_⟩
    exact absurd hleft (not_since_nil _ _)
  have hrost := rostered_start (κ := κ) displayName localPeerId
  rw [← along_iff_mem]
  constructor
  · refine hrun.along_iff (J := fun _ h => Rostered h) hrost hstart ?_ ?_
    · exact fun _ _ hstep hj => hj.step hstep
    · exact fun _ _ hstep hj hlive => step_keepsLive_iff hstep hj hlive
  · intro hkeeps peer hpeer
    have hend := hrun.along (I := fun tr h => Rostered h ∧ SessionsLive tr h)
      (R := fun _ _ => True) ⟨hrost, hstart⟩
      (fun _ _ hstep hkeep ⟨hj, hlive⟩ =>
        ⟨hj.step hstep, (step_keepsLive_iff hstep hj hlive).mpr hkeep⟩)
      (fun _ _ _ _ _ => trivial) hkeeps
    obtain ⟨⟨_, hlive⟩, _⟩ := hend
    obtain ⟨hlisted, hactive⟩ := List.mem_filter.mp hpeer
    obtain ⟨hconnected, hcounted⟩ := hlive.live peer hlisted hactive
    refine ⟨hconnected, hcounted, fun hleft => hlive.left peer.peerId hleft ?_⟩
    exact activeSession_iff_mem.mpr ⟨peer, hlisted, rfl, hactive⟩

end

/-- A caller is approved and hangs up. -/
def hungUp : List (HostEvent silentCodec sampleLibp2p) :=
  [.event (.connectionEstablished remote incoming), .event (.sessionHello remote sampleHello 0),
    .event (.approvePendingPeer remotePeer false), .event (.connectionClosed remote 0)]

theorem hungUp_listed :
    (hostRun .release "local-user" localPeer hungUp).map (fun r =>
      (r.1.length, (visibleVoicePeers r.2.status).map fun peer =>
        (peer.peerId, peer.transport, r.2.established peer.peerId))) =
      some (4, [(remotePeer, .disconnected, 0)]) := by
  decide +kernel

theorem hungUp_not_live :
    ¬ ∀ (tr : List (HostTransition silentCodec sampleLibp2p)) (h : Host silentCodec),
      HostRun .release "local-user" localPeer tr h → LivePeers h.established h.status.peers := by
  intro hall
  obtain ⟨⟨tr, h⟩, hrun, hlisted⟩ := Option.map_eq_some_iff.mp hungUp_listed
  obtain ⟨_, hvisible⟩ := Prod.mk.inj hlisted
  have hmem := hvisible ▸ List.mem_singleton_self (remotePeer, PeerTransportState.disconnected, 0)
  obtain ⟨peer, hpeer, heq⟩ := List.mem_map.mp hmem
  obtain ⟨_, heq⟩ := Prod.mk.inj heq
  obtain ⟨hdown, _⟩ := Prod.mk.inj heq
  obtain ⟨hpeer, hactive⟩ := List.mem_filter.mp hpeer
  obtain ⟨hup, _⟩ := hall tr h (hostRun_trace hrun) peer hpeer hactive
  rw [hdown] at hup
  cases hup

theorem sessions_live_iff_hungUp :
    ∃ (tr : List (HostTransition silentCodec sampleLibp2p)) (h : Host silentCodec), tr.length = 4 ∧
      (Along (fun pre x => SessionsLive (pre ++ [x]) x.after) tr ↔ ∀ x ∈ tr, KeepsLive x) ∧
      ((∀ x ∈ tr, KeepsLive x) → ∀ peer ∈ visibleVoicePeers h.status,
        peer.transport = .connected ∧ 0 < h.established peer.peerId ∧
          ¬ HasLeft peer.peerId tr) := by
  obtain ⟨⟨tr, h⟩, hrun, hlisted⟩ := Option.map_eq_some_iff.mp hungUp_listed
  exact ⟨tr, h, (Prod.mk.inj hlisted).1, sessions_live_iff (hostRun_trace hrun)⟩

end Voicers
