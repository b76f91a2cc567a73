import Voicers.Network.Connectivity

/-! A peer whose hello has been applied is to be reached directly as long as
it stays connected. The route rests on the flag in the book, which is not kept
for an ignored peer and is cleared by a record of the peer. -/

namespace Voicers

open Lib

variable {κ : Codec} {lib : Libp2p}

def DaemonStatus.transportUp (state : DaemonStatus) (peerId : String) : Bool :=
  (state.peer? peerId).any fun peer => peer.transport = .connected

def KeepsUp (peerId : String) (s t : DaemonStatus) : Prop :=
  s.transportUp peerId = true → t.transportUp peerId = true

section

variable {s t u : DaemonStatus} {peerId p : String}

theorem KeepsUp.refl (s : DaemonStatus) : KeepsUp p s s := id

theorem KeepsUp.of_peers (ht : t.peers = s.peers) : KeepsUp p s t := by
  unfold KeepsUp DaemonStatus.transportUp DaemonStatus.peer?
  rw [ht]
  exact id

theorem KeepsUp.updateFirst {test : PeerSummary → Bool} {f : PeerSummary → PeerSummary}
    (ht : t.peers = updateFirst test f s.peers) (hid : ∀ peer, (f peer).peerId = peer.peerId)
    (hup : ∀ peer, peer.transport = .connected → (f peer).transport = .connected) :
    KeepsUp p s t := by
  intro h
  obtain ⟨peer, hpeer, hconnected⟩ := (Option.any_eq_true _ _).mp h
  have hkeep : ∀ peer, test peer = true →
      decide ((f peer).peerId = p) = decide (peer.peerId = p) := fun peer _ => by rw [hid]
  unfold DaemonStatus.transportUp DaemonStatus.peer?
  rw [ht]
  rcases find?_updateFirst_or (l := s.peers) (q := fun peer => decide (peer.peerId = p)) hkeep with
    hsame | ⟨old, hold, _, hnew⟩
  · rw [hsame]
    exact h
  · obtain rfl := Option.some.inj (hpeer.symm.trans hold)
    rw [hnew]
    exact decide_eq_true (hup peer (of_decide_eq_true hconnected))

theorem KeepsUp.updateOrPush {test : PeerSummary → Bool} {f : PeerSummary → PeerSummary}
    {new : PeerSummary} (ht : t.peers = updateOrPush test f new s.peers)
    (hid : ∀ peer, (f peer).peerId = peer.peerId)
    (hup : ∀ peer, peer.transport = .connected → (f peer).transport = .connected) :
    KeepsUp p s t := by
  unfold Lib.updateOrPush at ht
  split_ifs at ht
  · exact .updateFirst ht hid hup
  · intro h
    obtain ⟨peer, hpeer, hconnected⟩ := (Option.any_eq_true _ _).mp h
    unfold DaemonStatus.peer? at hpeer
    unfold DaemonStatus.transportUp DaemonStatus.peer?
    rw [ht, List.find?_append, hpeer]
    exact hconnected

theorem upsertPeer_keepsUp (state : DaemonStatus) (address : String) :
    KeepsUp p state (upsertPeer lib state peerId address) := by
  have hpeers := upsertPeer_peers lib state peerId address
  unfold connectedPeers at hpeers
  exact .updateOrPush hpeers (fun _ => rfl) fun _ _ => rfl

theorem applySessionHello_keepsUp (state : DaemonStatus) (hello : SessionHello) :
    KeepsUp p state (applySessionHello lib state peerId hello) := by
  have hpeers := applySessionHello_peers lib state peerId hello
  unfold greetedPeers at hpeers
  exact .updateOrPush hpeers (fun _ => rfl) fun _ _ => rfl

theorem applySessionHello_up (state : DaemonStatus) (hello : SessionHello) :
    (applySessionHello lib state peerId hello).transportUp peerId = true := by
  have hpeer := peer?_greetedPeers state peerId hello
  unfold DaemonStatus.peer? at hpeer
  unfold DaemonStatus.transportUp DaemonStatus.peer?
  rw [applySessionHello_peers, hpeer]
  rfl

theorem identifiedStatus_keepsUp (state : DaemonStatus) (info : IdentifyInfo) :
    KeepsUp p state (Daemon.identifiedStatus lib state peerId info) := by
  have hentered : ∀ displayName : String, KeepsUp p state
      (updateKnownPeer lib
        (getOrInsertPeer state peerId (info.listenAddrs.headD "<unknown>") fun peer =>
          { peer with displayName := displayName, transport := .connected })
        peerId none (some displayName) true false) := by
    intro displayName
    have hinsert : KeepsUp p state
        (getOrInsertPeer state peerId (info.listenAddrs.headD "<unknown>") fun peer =>
          { peer with displayName := displayName, transport := .connected }) :=
      KeepsUp.updateOrPush (f := fun peer => { peer with
        address := info.listenAddrs.headD "<unknown>"
        displayName := displayName
        transport := .connected }) rfl (fun _ => rfl) fun _ _ => rfl
    exact fun h => KeepsUp.of_peers (updateKnownPeer_peers lib _ peerId _ _ _ _) (hinsert h)
  unfold Daemon.identifiedStatus
  dsimp only
  refine fun h => KeepsUp.of_peers (Daemon.noteObserved_peers _ _) ?_
  by_cases hs : shouldSurfaceApprovedPeer state peerId = true
  · rw [if_pos hs]
    exact hentered _ h
  · rw [if_neg hs]
    exact h

/-- The close of a connection leaves the others, and those of other peers. -/
theorem closeStatus_keepsUp (state : DaemonStatus) {n : Nat} (hp : p = peerId → 0 < n) :
    KeepsUp p state (Daemon.closeStatus state peerId n) := by
  by_cases hsame : p = peerId
  · subst hsame
    have hn : n ≠ 0 := (hp rfl).ne'
    have hpeers : (Daemon.closeStatus state p n).peers = updateFirst (fun peer => peer.peerId = p)
        (fun peer => { peer with transport := .connected }) state.peers := by
      simp [Daemon.closeStatus, hn]
    exact KeepsUp.updateFirst hpeers (fun _ => rfl) fun _ _ => rfl
  · have hother : ∀ peer : PeerSummary, decide (peer.peerId = peerId) = true →
        decide (peer.peerId = p) = false := by
      intro peer heq
      exact decide_eq_false fun h => hsame (h ▸ of_decide_eq_true heq)
    have hkept : ∀ transport : PeerTransportState,
        (updateFirst (fun peer => peer.peerId = peerId)
          (fun peer : PeerSummary => { peer with transport := transport })
          state.peers).find? (fun peer => peer.peerId = p) = state.peer? p := by
      intro transport
      refine find?_updateFirst_of_not (fun _ _ => rfl) fun peer hpeer heq => ?_
      have hid : peer.peerId = p := by simpa using List.find?_some hpeer
      exact hsame (hid ▸ of_decide_eq_true heq)
    have hfind : (Daemon.closeStatus state peerId n).peer? p = state.peer? p := by
      unfold Daemon.closeStatus DaemonStatus.peer?
      dsimp only
      split_ifs
      · exact find?_eraseP_of_ne hother
      · exact hkept .disconnected
      · exact hkept .connected
    unfold KeepsUp DaemonStatus.transportUp
    rw [hfind]
    exact id

end

/-- The last connection of the peer ends: it is closed, or the daemon starts anew. -/
def EndsConnectivity (peerId : String) : HostEvent κ lib → Prop
  | .event (.connectionClosed peer n) => peer.text = peerId ∧ n = 0
  | .restart _ _ _ => True
  | _ => False

/-- A hello of the peer, or its answer to one, is applied. -/
def AppliesHello (peerId : String) (x : HostTransition κ lib) : Prop :=
  ∃ e, x.input = .event e ∧ x.before.daemon.Admits e peerId

/-- A hello of the peer has been applied since it has been connected. -/
def Joined (peerId : String) (tr : List (HostTransition κ lib)) : Prop :=
  Since (AppliesHello peerId) (fun x => EndsConnectivity peerId x.input) tr

/-- Each peer with an applied hello is reached directly. -/
def SessionsDirect (tr : List (HostTransition κ lib)) (h : Host κ) : Prop :=
  ∀ peerId, Joined peerId tr → ∀ offers, resolveRoute lib h.status offers peerId = .direct

section

variable {d : Daemon κ} {e : Event κ lib} {p : String}

theorem approvedStatus_keepsUp (peerId : String) (hello : SessionHello) :
    KeepsUp p d.status (d.approvedStatus lib peerId hello) := by
  unfold Daemon.approvedStatus
  dsimp only
  split_ifs
  · exact applySessionHello_keepsUp d.status hello
  · exact applySessionHello_keepsUp d.status hello

theorem statusAfter_keepsUp (hends : ¬ EndsConnectivity p (.event e)) :
    KeepsUp p d.status (d.statusAfter e) := by
  cases e with
  | connectionEstablished peer endpoint =>
    simp only [Daemon.statusAfter, Daemon.establishedStatus]
    by_cases hs : shouldSurfaceConnectedPeer d.status peer.text
        (d.pendingDials peer.text).isSome = true
    · rw [if_pos hs]
      exact upsertPeer_keepsUp (recordPathScore d.status _ (some peer.text) true) _
    · rw [if_neg hs]
      exact .of_peers rfl
  | connectionClosed peer n =>
    refine closeStatus_keepsUp d.status fun heq => ?_
    exact Nat.pos_of_ne_zero fun hn => hends ⟨heq.symm, hn⟩
  | identifyReceived peer info => exact identifiedStatus_keepsUp d.status info
  | ping peer => exact .updateFirst rfl (fun _ => rfl) fun _ _ => rfl
  | foundRecord query invite dialed =>
    obtain ⟨network, hseed⟩ := Daemon.seedRendezvousInvite_network lib d.status invite
    simp only [Daemon.statusAfter]
    split_ifs
    · rw [hseed]
      exact .of_peers rfl
    · exact .refl _
  | sessionHello peer hello channel =>
    simp only [Daemon.statusAfter]
    split_ifs
    · exact approvedStatus_keepsUp peer.text hello
    · simp only [queuePendingPeerApproval]
      split_ifs
      · exact .refl _
      · exact .of_peers rfl
  | sessionHelloAck peer hello =>
    simp only [Daemon.statusAfter]
    split_ifs
    · exact .refl _
    · exact applySessionHello_keepsUp d.status hello
  | approvePendingPeer peerId whitelist =>
    simp only [Daemon.statusAfter]
    split
    · exact .refl _
    · exact approvedStatus_keepsUp peerId _
  | rejectPendingPeer peerId =>
    simp only [Daemon.statusAfter]
    split_ifs
    · exact .of_peers rfl
    · exact .refl _
  | followUp index =>
    simp only [Daemon.statusAfter]
    split
    · exact .refl _
    · next followUp _ =>
      cases followUp with
      | approved approved whitelist =>
        simp only [Daemon.runFollowUp]
        split_ifs
        · exact .of_peers rfl
        · exact .of_peers rfl
      | rejected rejected => exact .of_peers rfl
  | saveKnownPeer peerId =>
    simp only [Daemon.statusAfter, saveKnownPeer]
    split
    · exact .of_peers rfl
    · exact .of_peers rfl
    · exact .of_peers rfl
  | renameKnownPeer peerId displayName =>
    simp only [Daemon.statusAfter, renameKnownPeer]
    split_ifs
    · exact .updateFirst rfl (fun _ => rfl) fun _ h => h
    · exact .refl _
  | forgetKnownPeer peerId =>
    simp only [Daemon.statusAfter, forgetKnownPeer]
    split_ifs
    · exact .of_peers rfl
    · exact .refl _
  | setTrustedContact peerId trusted =>
    simp only [Daemon.statusAfter, setTrustedContact]
    split_ifs
    · exact .of_peers rfl
    · exact .refl _
  | _ => exact .of_peers rfl

theorem statusAfter_up (hadmits : d.Admits e p) : (d.statusAfter e).transportUp p = true := by
  have happroved : ∀ hello, (d.approvedStatus lib p hello).transportUp p = true := by
    intro hello
    unfold Daemon.approvedStatus
    dsimp only
    split_ifs
    · exact applySessionHello_up d.status hello
    · exact applySessionHello_up d.status hello
  cases e with
  | sessionHello peer hello channel =>
    obtain ⟨rfl, hgate⟩ := hadmits
    have hafter : d.statusAfter (.sessionHello peer hello channel) =
        d.approvedStatus lib peer.text hello := if_pos hgate
    rw [hafter]
    exact happroved hello
  | sessionHelloAck peer hello =>
    obtain ⟨rfl, hsent⟩ := hadmits
    have hafter : d.statusAfter (.sessionHelloAck peer hello) =
        applySessionHello lib d.status peer.text hello := if_neg hsent
    rw [hafter]
    exact applySessionHello_up d.status hello
  | approvePendingPeer approved whitelist =>
    obtain ⟨rfl, hheld⟩ := hadmits
    obtain ⟨pending, hpending⟩ := Option.isSome_iff_exists.mp hheld
    have hafter : d.statusAfter (.approvePendingPeer approved whitelist : Event κ lib) =
        d.approvedStatus lib approved pending.hello := by
      simp only [Daemon.statusAfter, hpending]
    rw [hafter]
    exact happroved pending.hello
  | _ => exact hadmits.elim

/-- An applied hello sets the flag of its peer, unless the peer is ignored. -/
theorem flagWrite_admits (hadmits : d.Admits e p) : d.flagWrite e =
    if p ∉ d.status.network.ignoredPeerIds then some (p, true) else none := by
  cases e with
  | sessionHello peer hello channel =>
    obtain ⟨rfl, hgate⟩ := hadmits
    have hpasses : d.passesGate peer.text = true := hgate
    simp only [Daemon.flagWrite, hpasses, true_and]
  | sessionHelloAck peer hello =>
    obtain ⟨rfl, hsent⟩ := hadmits
    simp only [Daemon.flagWrite, ne_eq, hsent, not_false_eq_true, true_and]
  | approvePendingPeer approved whitelist =>
    obtain ⟨rfl, hheld⟩ := hadmits
    simp only [Daemon.flagWrite, hheld, true_and]
  | _ => exact hadmits.elim

end

/-- The hellos that wait for the user came from peers. -/
def HeldFromPeers (lib : Libp2p) (d : Daemon κ) : Prop :=
  ∀ peerId, (d.pendingInboundApprovals peerId).isSome = true → lib.isPeerId peerId = true

/-- The event takes a record of the peer from a lookup. -/
def Daemon.AdoptsRecord (d : Daemon κ) (peerId : String) : Event κ lib → Prop
  | .foundRecord query invite _ => d.adopts query invite = true ∧ invite.peerId = peerId
  | _ => False

/-- A hello is applied for a peer that is not ignored, or is marked connected
already; no record is taken of a peer that has joined. -/
def KeepsDirect (tr : List (HostTransition κ lib)) (x : HostTransition κ lib) : Prop :=
  ∀ e, x.input = .event e → ∀ peerId,
    (x.before.daemon.Admits e peerId →
      peerId ∈ x.before.status.network.ignoredPeerIds →
        x.before.status.connectedFlag peerId = true) ∧
    (x.before.daemon.AdoptsRecord peerId e → ¬ Joined peerId tr)

section

variable {d : Daemon κ} {e : Event κ lib} {p : String}

theorem resolveRoute_direct_iff {state : DaemonStatus} :
    (∀ offers, resolveRoute lib state offers p = .direct) ↔
      state.connectedFlag p = true ∧ lib.isPeerId p = true := by
  have hrelay : ∀ candidates, relayRoute lib candidates p ≠ .direct := by
    intro candidates
    unfold relayRoute
    split
    · exact Route.noConfusion
    · split_ifs
      · exact Route.noConfusion
      · exact Route.noConfusion
  unfold DaemonStatus.connectedFlag flagOf resolveRoute DaemonStatus.knownPeer?
  cases state.network.knownPeers.find? (fun entry => entry.peerId = p) with
  | none =>
    constructor
    · exact fun h => absurd (h fun _ => none) (hrelay _)
    · exact fun h => absurd h.1 Bool.false_ne_true
  | some entry =>
    dsimp only
    rw [← Bool.and_eq_true_iff, Option.any_some]
    constructor
    · intro h
      by_contra hnot
      have hroute := h fun _ => none
      rw [if_neg hnot] at hroute
      exact hrelay _ hroute
    · exact fun h _ => if_pos h

theorem heldFromPeers_ledgerAfter (hheld : HeldFromPeers lib d) {peerId : String}
    (h : ((d.ledgerAfter e).held peerId).isSome = true) : lib.isPeerId peerId = true := by
  have hclear : ∀ cleared, ((Function.update d.pendingInboundApprovals cleared none)
      peerId).isSome = true → lib.isPeerId peerId = true := by
    intro cleared hsome
    by_cases hq : peerId = cleared
    · subst hq
      simp at hsome
    · rw [Function.update_of_ne hq] at hsome
      exact hheld peerId hsome
  cases e with
  | sessionHello peer hello channel =>
    simp only [Daemon.ledgerAfter, Daemon.unlistOpened] at h
    split_ifs at h
    · exact hheld peerId h
    · exact hheld peerId h
    · by_cases hq : peerId = peer.text
      · rw [hq]
        exact peer.valid
      · dsimp only at h
        rw [Function.update_of_ne hq] at h
        exact hheld peerId h
  | approvePendingPeer approved whitelist =>
    simp only [Daemon.ledgerAfter, Daemon.unlistOpened] at h
    split_ifs at h
    · exact hclear approved h
    · exact hclear approved h
    · exact hheld peerId h
  | rejectPendingPeer rejected =>
    simp only [Daemon.ledgerAfter] at h
    split_ifs at h
    · exact hclear rejected h
    · exact hheld peerId h
  | followUp index =>
    simp only [Daemon.ledgerAfter] at h
    split at h
    · exact hheld peerId h
    · exact hheld peerId h
  | connectionClosed peer n =>
    simp only [Daemon.ledgerAfter] at h
    split_ifs at h
    · exact hheld peerId h
    · exact hheld peerId h
  | sessionHelloAck peer hello =>
    simp only [Daemon.ledgerAfter] at h
    split_ifs at h
    · exact hheld peerId h
    · exact hheld peerId h
  | _ => exact hheld peerId h

theorem DaemonStatus.SameContacts.transportUp {s t : DaemonStatus} (hsame : s.SameContacts t) :
    t.transportUp p = s.transportUp p := by
  have hcontact := congrArg (Option.any fun contact => contact.transport = .connected)
    (hsame.peer? p)
  rw [Option.any_map, Option.any_map] at hcontact
  exact hcontact

theorem joined_snoc {tr : List (HostTransition κ lib)} {x : HostTransition κ lib} :
    Joined p (tr ++ [x]) ↔
      AppliesHello p x ∨ Joined p tr ∧ ¬ EndsConnectivity p x.input := since_snoc

theorem admits_isPeerId (hheld : HeldFromPeers lib d) (hadmits : d.Admits e p) :
    lib.isPeerId p = true := by
  cases e with
  | sessionHello peer hello channel =>
    obtain ⟨rfl, _⟩ := hadmits
    exact peer.valid
  | sessionHelloAck peer hello =>
    obtain ⟨rfl, _⟩ := hadmits
    exact peer.valid
  | approvePendingPeer approved whitelist =>
    obtain ⟨rfl, hsome⟩ := hadmits
    exact hheld approved hsome
  | _ => exact hadmits.elim

end

/-- What the routes of joined peers rest on, all along a run. -/
structure RoutesRest (lib : Libp2p) (tr : List (HostTransition κ lib)) (h : Host κ) : Prop where
  held : HeldFromPeers lib h.daemon
  up : ∀ peerId, Joined peerId tr → h.status.transportUp peerId = true

section

variable {π : Profile} {h : Host κ} {tr : List (HostTransition κ lib)} {x : HostTransition κ lib}

theorem RoutesRest.step (hrest : RoutesRest lib tr x.before)
    (hmove : HostMove lib x.before x.input x.after) : RoutesRest lib (tr ++ [x]) x.after := by
  have hjoined : ∀ peerId, (∀ e, x.input ≠ .event e) → Joined peerId (tr ++ [x]) →
      Joined peerId tr ∧ ¬ EndsConnectivity peerId x.input := by
    intro peerId hquiet hafter
    rcases joined_snoc.mp hafter with ⟨e, hinput, _⟩ | hbefore
    · exact absurd hinput (hquiet e)
    · exact hbefore
  obtain ⟨before, input, output, after⟩ := x
  dsimp only at hmove hrest hjoined
  cases hmove with
  | event e _ _ _ hsame hledger =>
    refine ⟨fun peerId hsome => ?_, fun peerId hafter => ?_⟩
    · have hheld : after.daemon.pendingInboundApprovals = (before.daemon.ledgerAfter e).held :=
        congrArg Ledger.held hledger
      rw [hheld] at hsome
      exact heldFromPeers_ledgerAfter hrest.held hsome
    · dsimp only
      rw [hsame.transportUp]
      rcases joined_snoc.mp hafter with ⟨e', hinput, hadmits⟩ | ⟨hbefore, hgoes⟩
      · cases hinput
        exact statusAfter_up hadmits
      · exact statusAfter_keepsUp hgoes (hrest.up peerId hbefore)
  | pathOutcome path peerId success =>
    exact ⟨hrest.held, fun q hafter => hrest.up q (hjoined q (fun _ => nofun) hafter).1⟩
  | save localDisplayName =>
    exact ⟨hrest.held, fun q hafter => hrest.up q (hjoined q (fun _ => nofun) hafter).1⟩
  | restart index displayName localPeerId file hfile =>
    refine ⟨fun peerId hsome => ?_, fun q hafter => ?_⟩
    · exact absurd hsome Bool.false_ne_true
    · exact absurd trivial (hjoined q (fun _ => nofun) hafter).2

/-- A flag is cleared by the end of a connection, by a record, or for a peer that
is not listed as connected. -/
theorem flagWrite_clears {d : Daemon κ} {e : Event κ lib} {peerId : String}
    (hwrite : d.flagWrite e = some (peerId, false)) :
    EndsConnectivity peerId (.event e) ∨ d.AdoptsRecord peerId e ∨
      d.status.transportUp peerId = false := by
  have hguard : ∀ {c : Prop} [Decidable c] {written : String × Bool},
      (if c then some written else none) = some (peerId, false) → written = (peerId, false) ∧ c := by
    intro c _ written heq
    obtain ⟨hc, heq⟩ := Option.ite_none_right_eq_some.mp heq
    exact ⟨Option.some.inj heq, hc⟩
  cases e with
  | connectionClosed peer n =>
    left
    obtain ⟨heq, _⟩ := hguard hwrite
    obtain ⟨hid, hn⟩ := Prod.mk.inj heq
    exact ⟨hid, by simpa using hn⟩
  | foundRecord query invite dialed =>
    right; left
    obtain ⟨heq, hadopts⟩ := hguard hwrite
    exact ⟨hadopts, (Prod.mk.inj heq).1⟩
  | saveKnownPeer saved =>
    right; right
    obtain ⟨live, hlive, heq⟩ := Option.map_eq_some_iff.mp hwrite
    obtain ⟨rfl, hdown⟩ := Prod.mk.inj heq
    rw [DaemonStatus.transportUp, hlive]
    exact hdown
  | connectionEstablished peer endpoint =>
    exact absurd (Prod.mk.inj (hguard hwrite).1).2.symm Bool.false_ne_true
  | identifyReceived peer info =>
    exact absurd (Prod.mk.inj (hguard hwrite).1).2.symm Bool.false_ne_true
  | sessionHello peer hello channel =>
    exact absurd (Prod.mk.inj (hguard hwrite).1).2.symm Bool.false_ne_true
  | sessionHelloAck peer hello =>
    exact absurd (Prod.mk.inj (hguard hwrite).1).2.symm Bool.false_ne_true
  | approvePendingPeer approved whitelist =>
    exact absurd (Prod.mk.inj (hguard hwrite).1).2.symm Bool.false_ne_true
  | _ => exact absurd hwrite (Option.some_ne_none _).symm

theorem Daemon.AdoptsRecord.flagWrite {d : Daemon κ} {e : Event κ lib} {peerId : String}
    (hadopts : d.AdoptsRecord peerId e) :
    d.flagWrite e = some (peerId, false) ∧ ¬ EndsConnectivity peerId (.event e) := by
  cases e with
  | foundRecord query invite dialed =>
    obtain ⟨hadopted, rfl⟩ := hadopts
    exact ⟨if_pos hadopted, id⟩
  | _ => exact hadopts.elim

/-- The flag of a peer after an event that does not clear it. -/
theorem writeFlag_kept {flags : String → Bool} {write : Option (String × Bool)} {peerId : String}
    (hflag : flags peerId = true) (hclear : write ≠ some (peerId, false)) :
    writeFlag flags write peerId = true := by
  cases write with
  | none => exact hflag
  | some written =>
    obtain ⟨q, connected⟩ := written
    by_cases hq : peerId = q
    · subst hq
      rw [writeFlag, Function.update_self]
      cases connected with
      | true => rfl
      | false => exact absurd rfl hclear
    · rwa [writeFlag, Function.update_of_ne hq]

theorem statusAfter_direct_iff {e : Event κ lib} (hevent : x.input = .event e)
    (hflags : x.after.status.connectedFlag = (x.before.daemon.statusAfter e).connectedFlag)
    (hrest : RoutesRest lib tr x.before) (hdirect : SessionsDirect tr x.before) :
    SessionsDirect (tr ++ [x]) x.after ↔ KeepsDirect tr x := by
  rw [statusAfter_flag] at hflags
  constructor
  · intro hafter e' hinput peerId
    obtain rfl := HostEvent.event.inj (hevent.symm.trans hinput)
    constructor
    · intro hadmits hignored
      have hjoined : Joined peerId (tr ++ [x]) := joined_snoc.mpr (.inl ⟨e, hevent, hadmits⟩)
      obtain ⟨hflag, _⟩ := resolveRoute_direct_iff.mp (hafter peerId hjoined)
      have hwrite : x.before.daemon.flagWrite e = none :=
        (flagWrite_admits hadmits).trans (if_neg (not_not.mpr hignored))
      rw [hflags, hwrite] at hflag
      exact hflag
    · intro hadopts hjoined
      obtain ⟨hwrite, hgoes⟩ := hadopts.flagWrite
      have hstill : Joined peerId (tr ++ [x]) :=
        joined_snoc.mpr (.inr ⟨hjoined, by rwa [hevent]⟩)
      obtain ⟨hflag, _⟩ := resolveRoute_direct_iff.mp (hafter peerId hstill)
      rw [hflags, hwrite, writeFlag, Function.update_self] at hflag
      cases hflag
  · intro hkeeps peerId hjoined
    obtain ⟨happlied, hadopted⟩ := hkeeps e hevent peerId
    rw [resolveRoute_direct_iff, hflags]
    rcases joined_snoc.mp hjoined with ⟨e', hinput, hadmits⟩ | ⟨hold, hgoes⟩
    · obtain rfl := HostEvent.event.inj (hevent.symm.trans hinput)
      refine ⟨?_, admits_isPeerId hrest.held hadmits⟩
      rw [flagWrite_admits hadmits]
      by_cases hignored : peerId ∈ x.before.daemon.status.network.ignoredPeerIds
      · rw [if_neg (not_not.mpr hignored)]
        exact happlied hadmits hignored
      · rw [if_pos hignored, writeFlag, Function.update_self]
    · obtain ⟨hflag, hvalid⟩ := resolveRoute_direct_iff.mp (hdirect peerId hold)
      refine ⟨writeFlag_kept hflag fun hwrite => ?_, hvalid⟩
      rw [hevent] at hgoes
      rcases flagWrite_clears hwrite with hends | hadopts | hdown
      · exact hgoes hends
      · exact hadopted hadopts hold
      · exact Bool.false_ne_true (hdown.symm.trans (hrest.up peerId hold))

theorem HostMove.keepsDirect_iff (hmove : HostMove lib x.before x.input x.after)
    (hrest : RoutesRest lib tr x.before) (hdirect : SessionsDirect tr x.before) :
    SessionsDirect (tr ++ [x]) x.after ↔ KeepsDirect tr x := by
  have hquiet : (∀ e, x.input ≠ .event e) → (KeepsDirect tr x ∧ ∀ peerId,
      Joined peerId (tr ++ [x]) → Joined peerId tr ∧ ¬ EndsConnectivity peerId x.input) := by
    intro hno
    refine ⟨fun e hinput => absurd hinput (hno e), fun peerId hafter => ?_⟩
    rcases joined_snoc.mp hafter with ⟨e, hinput, _⟩ | hbefore
    · exact absurd hinput (hno e)
    · exact hbefore
  obtain ⟨before, input, output, after⟩ := x
  dsimp only at hmove hrest hdirect hquiet
  cases hmove with
  | event e _ _ _ hsame _ =>
    have hflags : after.status.connectedFlag = (before.daemon.statusAfter e).connectedFlag := by
      rw [DaemonStatus.connectedFlag, DaemonStatus.connectedFlag, hsame.network]
    exact statusAfter_direct_iff rfl hflags hrest hdirect
  | pathOutcome path peerId success =>
    obtain ⟨hkeeps, hjoined⟩ := hquiet (by rintro e ⟨⟩)
    refine iff_of_true (fun q hafter => ?_) hkeeps
    have hroute := resolveRoute_direct_iff.mp (hdirect q (hjoined q hafter).1)
    exact resolveRoute_direct_iff.mpr hroute
  | save localDisplayName =>
    obtain ⟨hkeeps, hjoined⟩ := hquiet (by rintro e ⟨⟩)
    exact iff_of_true (fun q hafter => hdirect q (hjoined q hafter).1) hkeeps
  | restart index displayName localPeerId file hfile =>
    obtain ⟨hkeeps, hjoined⟩ := hquiet (by rintro e ⟨⟩)
    exact iff_of_true (fun q hafter => absurd trivial (hjoined q hafter).2) hkeeps

/-- Along a run, peers with an applied hello are reached directly exactly when
no hello is applied for an ignored peer without a flag and no record is taken
of a peer that has joined. -/
theorem sessions_direct_iff {displayName localPeerId : String}
    (hrun : HostRun π displayName localPeerId tr h) :
    Along (fun pre x => SessionsDirect (pre ++ [x]) x.after) tr ↔ Along KeepsDirect tr := by
  refine hrun.along_iff (J := RoutesRest lib) (I := SessionsDirect) ?_ ?_ ?_ ?_
  · exact ⟨fun peerId hsome => absurd hsome Bool.false_ne_true,
      fun peerId hjoined => absurd hjoined (not_since_nil _ _)⟩
  · exact fun peerId hjoined => absurd hjoined (not_since_nil _ _)
  · exact fun pre y hstep hrest => hrest.step (HostMove.of_step hstep)
  · exact fun pre y hstep hrest hdirect => (HostMove.of_step hstep).keepsDirect_iff hrest hdirect

end

/-- The user forgets a peer, who then calls. -/
def forgottenCall : List (HostEvent silentCodec sampleLibp2p) :=
  [.event (.seedInviteHints callInvite), .event (.forgetKnownPeer remotePeer),
    .event (.connectionEstablished remote incoming), .event (.sessionHello remote sampleHello 0)]

theorem forgottenCall_joined :
    ∃ (tr : List (HostTransition silentCodec sampleLibp2p)) (h : Host silentCodec),
      HostRun .release "local-user" localPeer tr h ∧ tr.map Transition.input = forgottenCall ∧
        Joined remotePeer tr ∧
        resolveRoute sampleLibp2p h.status (fun _ => none) remotePeer = .unreachable := by
  have h : (hostRun .release "local-user" localPeer forgottenCall).map (fun r =>
      (r.1.getLast?.map fun x => x.before.daemon.passesGate remotePeer,
        resolveRoute sampleLibp2p r.2.status (fun _ => none) remotePeer)) =
      some (some true, .unreachable) := by
    decide +kernel
  obtain ⟨⟨tr, h⟩, hrun, hroute⟩ := Option.map_eq_some_iff.mp h
  obtain ⟨hgate, hroute⟩ := Prod.mk.inj hroute
  have hinputs := execute_inputs hrun
  refine ⟨tr, h, hostRun_trace hrun, hinputs, ?_, hroute⟩
  obtain ⟨x, hlast, hpasses⟩ := Option.map_eq_some_iff.mp hgate
  obtain ⟨pre, rfl⟩ := List.getLast?_eq_some_iff.mp hlast
  have hinput : x.input = .event (.sessionHello remote sampleHello 0) := by
    have hlast := congrArg List.getLast? hinputs
    simpa [forgottenCall] using hlast
  exact joined_snoc.mpr (.inl ⟨_, hinput, rfl, hpasses⟩)

theorem forgottenCall_not_direct :
    ¬ ∀ (tr : List (HostTransition silentCodec sampleLibp2p)) (h : Host silentCodec),
      HostRun .release "local-user" localPeer tr h → SessionsDirect tr h := by
  intro hall
  obtain ⟨tr, h, hrun, _, hjoined, hroute⟩ := forgottenCall_joined
  have hdirect := hall tr h hrun remotePeer hjoined fun _ => none
  rw [hroute] at hdirect
  cases hdirect

theorem sessions_direct_iff_forgottenCall :
    ∃ (tr : List (HostTransition silentCodec sampleLibp2p)),
      tr.map Transition.input = forgottenCall ∧
        (Along (fun pre x => SessionsDirect (pre ++ [x]) x.after) tr ↔ Along KeepsDirect tr) := by
  obtain ⟨tr, h, hrun, hinputs, _⟩ := forgottenCall_joined
  exact ⟨tr, hinputs, sessions_direct_iff hrun⟩

end Voicers
