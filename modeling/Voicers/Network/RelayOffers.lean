import Voicers.Network.Sessions
import Voicers.Network.Approval

/-! The relay offers. Each hello names the peers its sender relays for; the
table keeps the offer of the hello that was applied last, is emptied with the
last connection of the peer, and is read by the routes. -/

namespace Voicers

open Lib

variable {κ : Codec} {lib : Libp2p}

/-- The hello of `peerId` that an event applies: one that passes the gate, an
answer to a hello of this daemon, or a held one that is approved. -/
def Daemon.appliedHello (d : Daemon κ) (e : Event κ lib) (peerId : String) : Option SessionHello :=
  match e with
  | .sessionHello peer hello _ =>
    if peer.text = peerId ∧ d.passesGate peer.text = true then some hello else none
  | .sessionHelloAck peer hello =>
    if peer.text = peerId ∧ d.helloRequests peer.text ≠ 0 then some hello else none
  | .approvePendingPeer approved _ =>
    if approved = peerId then
      (d.pendingInboundApprovals approved).map PendingInboundApproval.hello
    else none
  | _ => none

/-- The hello of `peerId` that was applied last in a run. -/
def lastApplied (tr : List (DaemonTransition κ lib)) (peerId : String) : Option SessionHello :=
  tr.foldl (fun last x => (x.before.appliedHello x.input peerId).or last) none

/-- After the run `tr`, which has led to `d`: the offer of each connected peer
with an active session is that of its last applied hello. -/
def OffersFollow (tr : List (DaemonTransition κ lib)) (d : Daemon κ) : Prop :=
  ∀ p ∈ d.connectedPeers, d.status.ActiveSession p →
    ∃ hello, lastApplied tr p = some hello ∧ d.relayOffers p = some hello.trustedContacts

/-- The event neither connects a peer again whose offer is gone while a hello
of it is applied, nor approves a connected peer with another offer than the
one in the table. -/
def Daemon.KeepsOffers (d : Daemon κ) (last : String → Option SessionHello) (e : Event κ lib) :
    Prop :=
  match e with
  | .connectionEstablished peer _ => peer.text ∉ d.connectedPeers →
      ∀ hello, last peer.text = some hello →
        d.relayOffers peer.text = some hello.trustedContacts
  | .approvePendingPeer peerId _ => peerId ∈ d.connectedPeers →
      ∀ pending, d.pendingInboundApprovals peerId = some pending →
        d.relayOffers peerId = some pending.hello.trustedContacts
  | _ => True

/-- The offers of the connected peers are those of the hellos `last`. -/
def Ledger.Follows (l : Ledger) (last : String → Option SessionHello) : Prop :=
  ∀ p ∈ l.connected, ∀ hello, last p = some hello →
    l.relayOffers p = some hello.trustedContacts

section

variable {tr : List (DaemonTransition κ lib)} {x : DaemonTransition κ lib} {d : Daemon κ}
  {e : Event κ lib} {p : String}

theorem lastApplied_snoc :
    lastApplied (tr ++ [x]) p = (x.before.appliedHello x.input p).or (lastApplied tr p) := by
  simp only [lastApplied, List.foldl_append, List.foldl_cons, List.foldl_nil]

theorem appliedHello_isSome : (d.appliedHello e p).isSome = true ↔ d.Admits e p := by
  cases e with
  | sessionHello peer hello channel =>
    simp only [Daemon.appliedHello, Daemon.Admits]
    split_ifs with h
    · exact iff_of_true rfl ⟨h.1, h.1 ▸ h.2⟩
    · refine iff_of_false (by simp) ?_
      rintro ⟨rfl, hgate⟩
      exact h ⟨rfl, hgate⟩
  | sessionHelloAck peer hello =>
    simp only [Daemon.appliedHello, Daemon.Admits]
    split_ifs with h
    · exact iff_of_true rfl ⟨h.1, h.1 ▸ h.2⟩
    · refine iff_of_false (by simp) ?_
      rintro ⟨rfl, hsent⟩
      exact h ⟨rfl, hsent⟩
  | approvePendingPeer approved whitelist =>
    simp only [Daemon.appliedHello, Daemon.Admits]
    split_ifs with h
    · subst h
      simp
    · exact iff_of_false (by simp) fun hp => h hp.1
  | _ => simp [Daemon.appliedHello, Daemon.Admits]

/-- An active session and an applied hello come together. -/
structure SessionsApplied (tr : List (DaemonTransition κ lib)) (d : Daemon κ) : Prop where
  active : ∀ p, d.status.ActiveSession p ↔ (lastApplied tr p).isSome = true

theorem sessionsApplied_start (persisted : PersistedState) (displayName localPeerId : String) :
    SessionsApplied ([] : List (DaemonTransition κ lib))
      (Daemon.start (bootstrap persisted displayName localPeerId)) where
  active p := by
    simp [Daemon.start, bootstrap, DaemonStatus.ActiveSession, lastApplied]

theorem SessionsApplied.step {π : Profile} (h : SessionsApplied tr x.before)
    (hstep : daemonStep π lib x.before x.input = some (x.output, x.after)) :
    SessionsApplied (tr ++ [x]) x.after where
  active p := by
    rw [(daemonStep_eq hstep).2, Daemon.handle_active, h.active p, ← appliedHello_isSome,
      lastApplied_snoc]
    cases hx : x.before.appliedHello x.input p with
    | none => simp
    | some hello => simp

theorem SessionsApplied.follows_iff (h : SessionsApplied tr d) :
    OffersFollow tr d ↔ d.ledger.Follows (lastApplied tr) := by
  constructor
  · intro hfollow p hp hello hlast
    obtain ⟨hello', hlast', hoffer⟩ := hfollow p hp ((h.active p).mpr (by simp [hlast]))
    rw [hlast, Option.some.injEq] at hlast'
    exact hlast' ▸ hoffer
  · intro hfollow p hp hactive
    obtain ⟨hello, hlast⟩ := Option.isSome_iff_exists.mp ((h.active p).mp hactive)
    exact ⟨hello, hlast, hfollow p hp hello hlast⟩

@[simp] theorem unlistOpened_relayOffers (l : Ledger) :
    (d.unlistOpened p l).relayOffers = l.relayOffers := by
  simp only [Daemon.unlistOpened]
  split_ifs
  · rfl
  · rfl

@[simp] theorem unlistOpened_connected (l : Ledger) :
    (d.unlistOpened p l).connected = l.connected := by
  simp only [Daemon.unlistOpened]
  split_ifs
  · rfl
  · rfl

variable {last : String → Option SessionHello}

theorem Ledger.Follows.update {l l' : Ledger} (h : l.Follows last) (peerId : String)
    (hello : SessionHello) (hc : l'.connected = l.connected)
    (ho : l'.relayOffers = Function.update l.relayOffers peerId (some hello.trustedContacts))
    {applied : String → Option SessionHello} (hself : applied peerId = some hello)
    (hother : ∀ q, q ≠ peerId → applied q = none) :
    l'.Follows fun p => (applied p).or (last p) := by
  intro p hp hello' hor
  have hlast : (applied p).or (last p) = some hello' := hor
  rw [hc] at hp
  rw [ho]
  by_cases hpp : p = peerId
  · subst hpp
    rw [hself, Option.some_or, Option.some.injEq] at hlast
    rw [Function.update_self, hlast]
  · rw [hother p hpp, Option.none_or] at hlast
    rw [Function.update_of_ne hpp]
    exact h p hp hello' hlast

theorem follows_step_iff (h : d.ledger.Follows last) :
    (d.ledgerAfter e).Follows (fun p => (d.appliedHello e p).or (last p)) ↔
      d.KeepsOffers last e := by
  cases e with
  | connectionEstablished peer endpoint =>
    simp only [Ledger.Follows, Daemon.ledgerAfter, Daemon.appliedHello, Option.none_or,
      Finset.mem_insert, Daemon.KeepsOffers]
    constructor
    · intro hfollow _ hello hlast
      exact hfollow peer.text (.inl rfl) hello hlast
    · rintro hkeep p hp hello hlast
      by_cases hin : p ∈ d.connectedPeers
      · exact h p hin hello hlast
      · obtain rfl : p = peer.text := hp.resolve_right hin
        exact hkeep hin hello hlast
  | connectionClosed peer n =>
    refine iff_of_true ?_ trivial
    simp only [Ledger.Follows, Daemon.ledgerAfter, Daemon.appliedHello, Option.none_or]
    split_ifs
    · intro p hp hello hlast
      obtain ⟨hne, hin⟩ := Finset.mem_erase.mp hp
      simp only [ne_eq, hne, not_false_eq_true, Function.update_of_ne]
      exact h p hin hello hlast
    · exact h
  | sessionHello peer hello channel =>
    refine iff_of_true ?_ trivial
    by_cases hgate : d.passesGate peer.text = true
    · simp only [Daemon.ledgerAfter, hgate, if_true]
      apply h.update peer.text hello
      · simp
      · simp [Daemon.ledger]
      · simp [Daemon.appliedHello, hgate]
      · intro q hq
        simp [Daemon.appliedHello, Ne.symm hq]
    · simpa [Ledger.Follows, Daemon.ledgerAfter, Daemon.appliedHello, hgate] using h
  | sessionHelloAck peer hello =>
    refine iff_of_true ?_ trivial
    by_cases hzero : d.helloRequests peer.text = 0
    · simpa [Ledger.Follows, Daemon.ledgerAfter, Daemon.appliedHello, hzero] using h
    · simp only [Daemon.ledgerAfter, hzero, if_false]
      apply h.update peer.text hello
      · rfl
      · rfl
      · simp [Daemon.appliedHello, hzero]
      · intro q hq
        simp [Daemon.appliedHello, Ne.symm hq]
  | approvePendingPeer peerId whitelist =>
    have hkeep : (d.ledgerAfter (.approvePendingPeer peerId whitelist : Event κ lib)).connected =
        d.connectedPeers ∧ (d.ledgerAfter (.approvePendingPeer peerId whitelist :
          Event κ lib)).relayOffers = d.relayOffers := by
      simp only [Daemon.ledgerAfter]
      split_ifs
      · simp [Daemon.ledger]
      · exact ⟨rfl, rfl⟩
    simp only [Ledger.Follows, hkeep.1, hkeep.2, Daemon.appliedHello, Daemon.KeepsOffers]
    constructor
    · intro hfollow hin pending hheld
      exact hfollow peerId hin pending.hello (by simp [hheld])
    · intro hoffer p hin hello hlast
      by_cases hp : peerId = p
      · subst hp
        cases hheld : d.pendingInboundApprovals peerId with
        | none => exact h peerId hin hello (by simpa [hheld] using hlast)
        | some pending =>
          obtain rfl : pending.hello = hello := by simpa [hheld] using hlast
          exact hoffer hin pending hheld
      · exact h p hin hello (by simpa [hp] using hlast)
  | rejectPendingPeer peerId =>
    refine iff_of_true ?_ trivial
    simp only [Ledger.Follows, Daemon.ledgerAfter, Daemon.appliedHello, Option.none_or]
    split_ifs
    · exact h
    · exact h
  | followUp index =>
    refine iff_of_true ?_ trivial
    simp only [Ledger.Follows, Daemon.ledgerAfter, Daemon.appliedHello, Option.none_or]
    split
    · exact h
    · exact h
  | _ => exact iff_of_true h trivial

end

section

variable {π : Profile} {persisted : PersistedState} {displayName localPeerId : String}
  {events : List (Event κ lib)} {tr : List (DaemonTransition κ lib)} {d : Daemon κ}

/-- The relay offers follow the applied hellos all along a run exactly when
every connection and every approval finds the offer in place. -/
theorem relay_offers_iff
    (h : daemonRun π lib (bootstrap persisted displayName localPeerId) events = some (tr, d)) :
    Along (fun pre x => OffersFollow (pre ++ [x]) x.after) tr ↔
      Along (fun pre x => x.before.KeepsOffers (lastApplied pre) x.input) tr := by
  have htr := daemonRun_trace h
  have hnil : SessionsApplied ([] : List (DaemonTransition κ lib))
        (Daemon.start (bootstrap persisted displayName localPeerId)) ∧
      (Daemon.start (bootstrap persisted displayName localPeerId) : Daemon κ).ledger.Follows
        (lastApplied ([] : List (DaemonTransition κ lib))) := by
    refine ⟨sessionsApplied_start persisted displayName localPeerId, ?_⟩
    intro p hp
    simp [Daemon.ledger, Daemon.start] at hp
  have hstep : ∀ (pre : List (DaemonTransition κ lib)) (x : DaemonTransition κ lib),
      daemonStep π lib x.before x.input = some (x.output, x.after) →
      SessionsApplied pre x.before ∧ x.before.ledger.Follows (lastApplied pre) →
      SessionsApplied (pre ++ [x]) x.after ∧
        (x.after.ledger.Follows (lastApplied (pre ++ [x])) ↔
          x.before.KeepsOffers (lastApplied pre) x.input) := by
    rintro pre x hx ⟨hsessions, hfollow⟩
    refine ⟨hsessions.step hx, ?_⟩
    have hsnoc : lastApplied (pre ++ [x]) = fun p =>
        (x.before.appliedHello x.input p).or (lastApplied pre p) := funext fun p => lastApplied_snoc
    rw [Daemon.ledger_step hx, hsnoc]
    exact follows_step_iff hfollow
  constructor
  · intro hall
    refine (htr.along (I := fun tr d => SessionsApplied tr d ∧ d.ledger.Follows (lastApplied tr))
      hnil ?_ ?_ hall).2
    · intro pre x hx hq hi
      obtain ⟨hsessions, _⟩ := hstep pre x hx hi
      exact ⟨hsessions, hsessions.follows_iff.mp hq⟩
    · intro pre x hx hq hi
      obtain ⟨hsessions, hiff⟩ := hstep pre x hx hi
      exact hiff.mp (hsessions.follows_iff.mp hq)
  · intro hall
    refine (htr.along (I := fun tr d => SessionsApplied tr d ∧ d.ledger.Follows (lastApplied tr))
      hnil ?_ ?_ hall).2
    · intro pre x hx hq hi
      obtain ⟨hsessions, hiff⟩ := hstep pre x hx hi
      exact ⟨hsessions, hiff.mpr hq⟩
    · intro pre x hx hq hi
      obtain ⟨hsessions, hiff⟩ := hstep pre x hx hi
      exact hsessions.follows_iff.mpr (hiff.mpr hq)

end

/-- A stranger that relays for the local daemon says hello and is let in. -/
def approvedRelay : List (Event silentCodec sampleLibp2p) :=
  [.connectionEstablished remote incoming,
    .sessionHello remote { sampleHello with trustedContacts := [localPeer] } 0,
    .approvePendingPeer remotePeer false]

theorem approvedRelay_forgets_offer :
    ∃ tr d, daemonRun .release sampleLibp2p (bootstrap emptyBook "local-user" localPeer)
        approvedRelay = some (tr, d) ∧ ¬ OffersFollow tr d := by
  have h : (daemonRun .release sampleLibp2p (bootstrap emptyBook "local-user" localPeer)
      approvedRelay).map (fun r => (decide (remotePeer ∈ r.2.connectedPeers),
        (r.2.status.peer? remotePeer).map (fun p => (p.peerId, p.session)),
        r.2.relayOffers remotePeer)) =
      some (true, some (remotePeer, .active (some "room") "remote"), none) := by decide +kernel
  obtain ⟨⟨tr, d⟩, hrun, hd⟩ := Option.map_eq_some_iff.mp h
  obtain ⟨hin, hd⟩ := Prod.mk.inj hd
  obtain ⟨hpeer, hoffer⟩ := Prod.mk.inj hd
  obtain ⟨peer, hfind, hpeer⟩ := Option.map_eq_some_iff.mp hpeer
  obtain ⟨hid, hsession⟩ := Prod.mk.inj hpeer
  have hactive : d.status.ActiveSession remotePeer :=
    ⟨peer, List.mem_of_find?_eq_some hfind, hid, _, _, hsession⟩
  refine ⟨tr, d, hrun, fun hfollow => ?_⟩
  obtain ⟨hello, _, hsome⟩ := hfollow remotePeer (of_decide_eq_true hin) hactive
  have hnone : d.relayOffers remotePeer = none := hoffer
  rw [hnone] at hsome
  cases hsome

theorem relay_offers_iff_approvedRelay :
    ∃ tr d, daemonRun .release sampleLibp2p (bootstrap emptyBook "local-user" localPeer)
        approvedRelay = some (tr, d) ∧
      (Along (fun pre x => OffersFollow (pre ++ [x]) x.after) tr ↔
        Along (fun pre x => x.before.KeepsOffers (lastApplied pre) x.input) tr) := by
  obtain ⟨⟨tr, d⟩, hrun⟩ := Option.isSome_iff_exists.mp
    (show (daemonRun .release sampleLibp2p (bootstrap emptyBook "local-user" localPeer)
      approvedRelay).isSome by decide +kernel)
  exact ⟨tr, d, hrun, relay_offers_iff hrun⟩

end Voicers
