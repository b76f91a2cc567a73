import Voicers.Lib.Post
import Voicers.Network.RelayOffers
import Voicers.Network.Relaying
import Voicers.Network.Roster

/-! Hellos between daemons (`build_local_hello` in `app/state.rs`, the session
protocol in `network.rs` and `network/session.rs`). A daemon tells whom it
trusts when it connects, answers or has changed; the hellos are delivered or
lost in any order, and what they say is shown of the sender and decides
through whom a frame is relayed. -/

namespace Voicers

open Lib

variable {κ : Codec} {lib : Libp2p}

inductive SessionMessage
  | request (hello : SessionHello)
  | response (response : SessionResponse)
deriving DecidableEq

def SessionMessage.hello? : SessionMessage → Option SessionHello
  | .request hello => some hello
  | .response (.helloAck hello) => some hello
  | .response (.joinDenied _) => none

/-- What a session message is to the daemon that receives it. -/
def SessionMessage.event (sender : PeerId lib) (channel : Nat) : SessionMessage → Event κ lib
  | .request hello => .sessionHello sender hello channel
  | .response (.helloAck hello) => .sessionHelloAck sender hello
  | .response (.joinDenied _) => .sessionRefused sender

/-- `hellos` are those that control requests have built and the network task
has not sent yet. -/
structure HelloHost (κ : Codec) where
  daemon : Daemon κ
  hellos : List SessionHello

/-- `broadcast` sends a hello to the peers that the swarm names. -/
inductive HelloHostInput (κ : Codec) (lib : Libp2p)
  | event (event : Event κ lib)
  | buildLocalHello
  | broadcast (index : Nat) (peers : List (PeerId lib))

abbrev HelloHostOutput (κ : Codec) (lib : Libp2p) :=
  NodeOutput (PeerId lib) SessionMessage (List (Effect κ))

abbrev HelloNodeInput (κ : Codec) (lib : Libp2p) :=
  NodeInput (PeerId lib) (HelloHostInput κ lib) SessionMessage Nat

/-- Events that carry a hello come from the other daemons or from `broadcast`. -/
def Event.carriesHello : Event κ lib → Bool
  | .sessionHello _ _ _ | .sessionHelloAck _ _ | .broadcastSessionHello _ => true
  | _ => false

/-- The event is a hello of `peer`, or its answer to one. -/
def Event.Tells (e : Event κ lib) (peer : PeerId lib) (hello : SessionHello) : Prop :=
  (∃ channel, e = .sessionHello peer hello channel) ∨ e = .sessionHelloAck peer hello

/-- The session message of an effect, and for whom. -/
def Effect.sessionMessage? : Effect κ → Option (String × SessionMessage)
  | .sendHello peerId hello => some (peerId, .request hello)
  | .respondSession peerId _ response => some (peerId, .response response)
  | _ => none

def sessionMessages (lib : Libp2p) (effects : List (Effect κ)) :
    List (PeerId lib × SessionMessage) :=
  effects.filterMap fun effect => effect.sessionMessage?.bind fun message =>
    if h : lib.isPeerId message.1 = true then some (⟨message.1, h⟩, message.2) else none

namespace HelloHost

def run (π : Profile) (host : HelloHost κ) (event : Event κ lib) :
    HelloHostOutput κ lib × HelloHost κ :=
  let r := host.daemon.handle π lib event
  (⟨sessionMessages lib r.2, r.2⟩, { host with daemon := r.1 })

/-- `broadcast_session_hello`, for a hello that a control request has built. -/
def broadcast (π : Profile) (host : HelloHost κ) (index : Nat) (peers : List (PeerId lib)) :
    Option (HelloHostOutput κ lib × HelloHost κ) :=
  match host.hellos[index]? with
  | none => none
  | some hello =>
    let r := host.daemon.handle π lib (.broadcastSessionHello hello : Event κ lib)
    some (⟨peers.map fun peer => (peer, .request hello), r.2⟩,
      { daemon := r.1, hellos := host.hellos.eraseIdx index })

def step (π : Profile) (host : HelloHost κ) :
    HelloNodeInput κ lib → Option (HelloHostOutput κ lib × HelloHost κ)
  | .own (.event event) => if event.carriesHello then none else some (host.run π event)
  | .own .buildLocalHello =>
    some (⟨[], []⟩, { host with hellos := host.hellos ++ [host.daemon.status.localHello] })
  | .own (.broadcast index peers) => host.broadcast π index peers
  | .receive sender message channel => some (host.run π (message.event sender channel))

end HelloHost

abbrev HelloPost (κ : Codec) (lib : Libp2p) := Post (PeerId lib) (HelloHost κ) SessionMessage

abbrev HelloTransition (κ : Codec) (lib : Libp2p) :=
  PostTransition (PeerId lib) (HelloHost κ) (HelloHostInput κ lib) SessionMessage Nat
    (List (Effect κ))

def HelloPost.start (status : PeerId lib → DaemonStatus) : HelloPost κ lib where
  nodes node := ⟨Daemon.start (status node), []⟩
  inFlight := []

/-- Daemons that exchange hellos. -/
abbrev HelloRun (π : Profile) (status : PeerId lib → DaemonStatus)
    (tr : List (HelloTransition κ lib)) (p : HelloPost κ lib) : Prop :=
  Trace (postStep fun _ host => host.step π) (HelloPost.start status) tr p

/-- The peer is shown in a session, in this room and under this name. -/
def ShowsSession (peers : List PeerSummary) (peerId : String) (roomName : Option String)
    (displayName : String) : Prop :=
  ∃ peer ∈ peers, peer.peerId = peerId ∧ peer.session = .active roomName displayName

section

variable {peers : List PeerSummary} {peerId other displayName : String}
  {roomName : Option String} {test : PeerSummary → Bool} {f : PeerSummary → PeerSummary}

theorem ShowsSession.of_updateFirst
    (h : ShowsSession (updateFirst test f peers) peerId roomName displayName)
    (hf : ∀ peer, (f peer).peerId = peer.peerId ∧ (f peer).session = peer.session) :
    ShowsSession peers peerId roomName displayName := by
  obtain ⟨peer, hmem, hid, hsession⟩ := h
  obtain hmem | ⟨old, hold, -, rfl⟩ := mem_updateFirst hmem
  · exact ⟨peer, hmem, hid, hsession⟩
  · exact ⟨old, hold, (hf old).1 ▸ hid, (hf old).2 ▸ hsession⟩

/-- A session that is shown was shown before or is set by the update. -/
theorem ShowsSession.of_updateOrPush {new : PeerSummary}
    (h : ShowsSession (updateOrPush test f new peers) peerId roomName displayName) :
    ShowsSession peers peerId roomName displayName ∨
      ∃ peer, (peer = new ∨ peer ∈ peers ∧ test peer = true) ∧ (f peer).peerId = peerId ∧
        (f peer).session = .active roomName displayName := by
  obtain ⟨peer, hmem, hid, hsession⟩ := h
  obtain hmem | ⟨old, hold, htest, rfl⟩ | ⟨-, rfl⟩ := mem_updateOrPush hmem
  · exact .inl ⟨peer, hmem, hid, hsession⟩
  · exact .inr ⟨old, .inr ⟨hold, htest⟩, hid, hsession⟩
  · exact .inr ⟨new, .inl rfl, hid, hsession⟩

theorem ShowsSession.of_greetedPeers {state : DaemonStatus} {hello : SessionHello}
    (h : ShowsSession (greetedPeers state other hello) peerId roomName displayName) :
    ShowsSession state.peers peerId roomName displayName ∨
      other = peerId ∧ hello.roomName = roomName ∧ hello.displayName = displayName := by
  refine h.of_updateOrPush.imp_right ?_
  rintro ⟨peer, hpeer, hid, hsession⟩
  cases hsession
  obtain rfl | ⟨-, htest⟩ := hpeer
  · exact ⟨hid, rfl, rfl⟩
  · exact ⟨(of_decide_eq_true htest).symm.trans hid, rfl, rfl⟩

end

namespace Daemon

variable {π : Profile} {d : Daemon κ} {e : Event κ lib} {effect : Effect κ}

theorem unlistOpened_held (d : Daemon κ) (peerId : String) (l : Ledger) :
    (d.unlistOpened peerId l).held = l.held := by
  unfold unlistOpened
  split_ifs
  · rfl
  · rfl

/-- An entry of the later table is one of the earlier or is `told`. -/
def OnlyTold {α : Type} (table : String → Option α) (told : String → α → Prop)
    (table' : String → Option α) : Prop :=
  ∀ peerId value, table' peerId = some value → table peerId = some value ∨ told peerId value

theorem OnlyTold.update {α : Type} {table : String → Option α} {told : String → α → Prop}
    {peerId : String} {new : Option α} (h : ∀ value ∈ new, told peerId value) :
    OnlyTold table told (Function.update table peerId new) := by
  intro other value hvalue
  by_cases hother : other = peerId
  · subst hother
    rw [Function.update_self] at hvalue
    exact .inr (h value hvalue)
  · rw [Function.update_of_ne hother] at hvalue
    exact .inl hvalue

/-- The offers and the held hellos after an event are those from before, but
for what a hello tells that comes. -/
theorem ledgerAfter_tables (d : Daemon κ) (e : Event κ lib) :
    OnlyTold d.relayOffers (fun peerId contacts => ∃ peer hello, peer.text = peerId ∧
      hello.trustedContacts = contacts ∧ e.Tells peer hello) (d.ledgerAfter e).relayOffers ∧
    OnlyTold d.pendingInboundApprovals (fun peerId pending => ∃ peer, peer.text = peerId ∧
      e.Tells peer pending.hello) (d.ledgerAfter e).held := by
  cases e with
  | connectionClosed peer n =>
    simp only [ledgerAfter]
    split_ifs
    · exact ⟨.update fun _ hvalue => (Option.not_mem_none _ hvalue).elim, fun _ _ => .inl⟩
    · exact ⟨fun _ _ => .inl, fun _ _ => .inl⟩
  | sessionHello peer hello channel =>
    have htells : (Event.sessionHello peer hello channel : Event κ lib).Tells peer hello :=
      .inl ⟨channel, rfl⟩
    simp only [ledgerAfter]
    split_ifs
    · rw [unlistOpened_relayOffers, unlistOpened_held]
      refine ⟨.update fun _ hvalue => ?_, fun _ _ => .inl⟩
      exact ⟨peer, hello, rfl, Option.some.inj hvalue, htells⟩
    · refine ⟨fun _ _ => .inl, .update fun _ hvalue => ?_⟩
      cases hvalue
      exact ⟨peer, rfl, htells⟩
  | sessionHelloAck peer hello =>
    simp only [ledgerAfter]
    split_ifs
    · exact ⟨fun _ _ => .inl, fun _ _ => .inl⟩
    · refine ⟨.update fun _ hvalue => ?_, fun _ _ => .inl⟩
      exact ⟨peer, hello, rfl, Option.some.inj hvalue, .inr rfl⟩
  | approvePendingPeer approved whitelist =>
    simp only [ledgerAfter]
    split_ifs
    · rw [unlistOpened_relayOffers, unlistOpened_held]
      exact ⟨fun _ _ => .inl, .update fun _ hvalue => (Option.not_mem_none _ hvalue).elim⟩
    · exact ⟨fun _ _ => .inl, fun _ _ => .inl⟩
  | rejectPendingPeer rejected =>
    simp only [ledgerAfter]
    split_ifs
    · exact ⟨fun _ _ => .inl, .update fun _ hvalue => (Option.not_mem_none _ hvalue).elim⟩
    · exact ⟨fun _ _ => .inl, fun _ _ => .inl⟩
  | followUp index =>
    simp only [ledgerAfter]
    split
    · exact ⟨fun _ _ => .inl, fun _ _ => .inl⟩
    · exact ⟨fun _ _ => .inl, fun _ _ => .inl⟩
  | _ => exact ⟨fun _ _ => .inl, fun _ _ => .inl⟩

theorem handle_relayOffers {peerId : String} {contacts : List String}
    (h : (d.handle π lib e).1.relayOffers peerId = some contacts) :
    d.relayOffers peerId = some contacts ∨ ∃ peer hello, peer.text = peerId ∧
      hello.trustedContacts = contacts ∧ e.Tells peer hello := by
  have hledger : (d.ledgerAfter e).relayOffers peerId = some contacts := by
    rw [← handle_ledger π d e]
    exact h
  exact (ledgerAfter_tables d e).1 peerId contacts hledger

theorem handle_held {peerId : String} {pending : PendingInboundApproval}
    (h : (d.handle π lib e).1.pendingInboundApprovals peerId = some pending) :
    d.pendingInboundApprovals peerId = some pending ∨
      ∃ peer, peer.text = peerId ∧ e.Tells peer pending.hello := by
  have hledger : (d.ledgerAfter e).held peerId = some pending := by
    rw [← handle_ledger π d e]
    exact h
  exact (ledgerAfter_tables d e).2 peerId pending hledger

/-- The session that a daemon shows for a peer is kept, or is that of a hello
that comes or was held back. -/
theorem peersAfter_session {peerId displayName : String} {roomName : Option String}
    (h : ShowsSession (d.peersAfter e) peerId roomName displayName) :
    ShowsSession d.status.peers peerId roomName displayName ∨
      ∃ hello, (hello.roomName = roomName ∧ hello.displayName = displayName) ∧
        ((∃ peer, peer.text = peerId ∧ e.Tells peer hello) ∨
          ∃ pending, d.pendingInboundApprovals peerId = some pending ∧
            pending.hello = hello) := by
  cases e with
  | connectionEstablished peer endpoint =>
    simp only [peersAfter] at h
    split_ifs at h
    · obtain hold | ⟨other, hother, hid, hsession⟩ := h.of_updateOrPush
      · exact .inl hold
      · dsimp only at hid hsession
        split_ifs at hsession
        obtain rfl | ⟨hmem, -⟩ := hother
        · cases hsession
        · exact .inl ⟨other, hmem, hid, hsession⟩
    · exact .inl h
  | connectionClosed peer n =>
    simp only [peersAfter, closeStatus] at h
    split_ifs at h
    · obtain ⟨other, hmem, hshows⟩ := h
      exact .inl ⟨other, List.mem_of_mem_eraseP hmem, hshows⟩
    · exact .inl (h.of_updateFirst fun _ => ⟨rfl, rfl⟩)
    · exact .inl (h.of_updateFirst fun _ => ⟨rfl, rfl⟩)
  | identifyReceived peer info =>
    simp only [peersAfter] at h
    split_ifs at h
    · obtain hold | ⟨other, hother, hid, hsession⟩ := h.of_updateOrPush
      · exact .inl hold
      · obtain rfl | ⟨hmem, -⟩ := hother
        · cases hsession
        · exact .inl ⟨other, hmem, hid, hsession⟩
    · exact .inl h
  | ping peer => exact .inl (h.of_updateFirst fun _ => ⟨rfl, rfl⟩)
  | sessionHello peer hello channel =>
    simp only [peersAfter] at h
    split_ifs at h
    · refine h.of_greetedPeers.imp_right fun hnew => ?_
      exact ⟨hello, hnew.2, .inl ⟨peer, hnew.1, .inl ⟨channel, rfl⟩⟩⟩
    · exact .inl h
  | sessionHelloAck peer hello =>
    simp only [peersAfter] at h
    split_ifs at h
    · exact .inl h
    · refine h.of_greetedPeers.imp_right fun hnew => ?_
      exact ⟨hello, hnew.2, .inl ⟨peer, hnew.1, .inr rfl⟩⟩
  | approvePendingPeer approved whitelist =>
    simp only [peersAfter] at h
    split at h
    · exact .inl h
    · next pending hpending =>
      refine h.of_greetedPeers.imp_right fun hnew => ?_
      exact ⟨pending.hello, hnew.2, .inr ⟨pending, hnew.1 ▸ hpending, rfl⟩⟩
  | renameKnownPeer renamed name => exact .inl (h.of_updateFirst fun _ => ⟨rfl, rfl⟩)
  | toggleMutePeer muted => exact .inl (h.of_updateFirst fun _ => ⟨rfl, rfl⟩)
  | setPeerVolumePercent other percent => exact .inl (h.of_updateFirst fun _ => ⟨rfl, rfl⟩)
  | _ => exact .inl h

theorem handle_showsSession {peerId displayName : String} {roomName : Option String} :
    ShowsSession (d.handle π lib e).1.status.peers peerId roomName displayName ↔
      ShowsSession (d.peersAfter e) peerId roomName displayName := by
  have hsession (peers : List PeerSummary) : ShowsSession peers peerId roomName displayName ↔
      ∃ contact ∈ peers.map PeerSummary.contact, contact.peerId = peerId ∧
        contact.session = .active roomName displayName := by
    simp [ShowsSession, PeerSummary.contact]
  rw [hsession, hsession, (handle_rows π d e).contacts.peers, rowsAfter_peers]

theorem Searches.no_sessionMessage {effects : List (Effect κ)} (h : Searches effects)
    (hmem : effect ∈ effects) : effect.sessionMessage? = none := by
  obtain ⟨address, rfl⟩ | ⟨key, rfl⟩ := h effect hmem
  · rfl
  · rfl

theorem openFlow_status (d : Daemon κ) (peerId : String) :
    (d.openFlow peerId).status = d.status := by
  unfold openFlow
  split_ifs
  · rfl
  · rfl

theorem applyApprovedSessionHello_hello {peerId receiver : String} {hello sent : SessionHello}
    {channel : Nat} {message : SessionMessage}
    (hmem : effect ∈ (d.applyApprovedSessionHello lib peerId hello channel).2)
    (hmessage : effect.sessionMessage? = some (receiver, message))
    (hsent : message.hello? = some sent) :
    sent = (d.applyApprovedSessionHello lib peerId hello channel).1.status.localHello := by
  simp only [applyApprovedSessionHello] at hmem ⊢
  obtain rfl | hmem := List.mem_cons.mp hmem
  · cases hmessage
  · obtain rfl := List.mem_singleton.mp hmem
    cases hmessage
    cases hsent
    split_ifs
    · rfl
    · rw [openFlow_status]
      rfl

theorem onConnectionEstablished_effects {peerId : String} {endpoint : Endpoint}
    (hmem : effect ∈ (d.onConnectionEstablished lib peerId endpoint).2) :
    effect = .sendHello peerId d.status.localHello := by
  simp only [onConnectionEstablished, sendSessionHello] at hmem
  split_ifs at hmem
  all_goals first
    | exact absurd hmem List.not_mem_nil
    | exact List.mem_singleton.mp hmem

/-- A daemon tells of itself what it knows when the event comes or when it is over. -/
theorem handle_hello {receiver : String} {sent : SessionHello} {message : SessionMessage}
    (hmem : effect ∈ (d.handle π lib e).2)
    (hmessage : effect.sessionMessage? = some (receiver, message))
    (hsent : message.hello? = some sent) :
    sent = d.status.localHello ∨ sent = (d.handle π lib e).1.status.localHello := by
  have hquiet (h : effect.sessionMessage? = none) :
      sent = d.status.localHello ∨ sent = (d.handle π lib e).1.status.localHello := by
    rw [h] at hmessage
    cases hmessage
  cases e with
  | connectionEstablished peer endpoint =>
    obtain rfl := onConnectionEstablished_effects hmem
    cases hmessage
    cases hsent
    exact .inl rfl
  | outgoingConnectionError peer dialed =>
    exact hquiet ((onOutgoingConnectionError_bookOnly d _ dialed).2.no_sessionMessage hmem)
  | foundRecord query invite dialed =>
    exact hquiet ((onFoundRecord_bookOnly d query invite dialed).2.no_sessionMessage hmem)
  | dial address query dialed =>
    exact hquiet ((dialPeer_bookOnly d address query dialed).2.no_sessionMessage hmem)
  | sessionHello peer hello channel =>
    simp only [handle, onSessionHello] at hmem ⊢
    split at hmem
    · next hgate =>
      rw [if_pos hgate]
      exact .inr (applyApprovedSessionHello_hello hmem hmessage hsent)
    · cases hmem
  | sessionHelloAck peer hello =>
    simp only [handle, onSessionHelloAck] at hmem
    split at hmem
    · cases hmem
    · obtain rfl := List.mem_singleton.mp hmem
      cases hmessage
  | mediaRequest peer request =>
    obtain ⟨q, r, rfl⟩ | ⟨r, rfl⟩ := onMediaRequest_effects hmem
    · cases hmessage
    · cases hmessage
  | broadcastSessionHello hello =>
    obtain rfl := List.mem_singleton.mp hmem
    cases hmessage
  | approvePendingPeer peerId whitelist =>
    simp only [handle, approvePendingPeer] at hmem ⊢
    cases hpending : d.pendingInboundApprovals peerId with
    | none => simp [hpending] at hmem
    | some pending =>
      simp only [hpending] at hmem
      exact .inr (applyApprovedSessionHello_hello hmem hmessage hsent)
  | rejectPendingPeer peerId =>
    simp only [handle, rejectPendingPeer] at hmem
    cases hpending : d.pendingInboundApprovals peerId with
    | none => simp [hpending] at hmem
    | some pending =>
      simp only [hpending] at hmem
      obtain rfl := List.mem_singleton.mp hmem
      cases hmessage
      cases hsent
  | sendMediaFrame peerId pcm nowMs =>
    obtain ⟨q, r, rfl⟩ := onSendMediaFrame_effects hmem
    cases hmessage
  | playout now peerIds =>
    simp only [handle, onPlayout] at hmem
    split at hmem
    · cases hmem
    · split at hmem
      · cases hmem
      · obtain ⟨s, -, rfl⟩ := List.mem_map.mp hmem
        cases hmessage
  | followUp index =>
    simp only [handle] at hmem
    split at hmem
    · cases hmem
    · cases hmem
  | _ => cases hmem

end Daemon

namespace HelloHost

variable {π : Profile} {host host' : HelloHost κ} {input : HelloNodeInput κ lib}
  {out : HelloHostOutput κ lib}

/-- A daemon handles an event, its own or that of a message, or builds a hello,
or sends one it has built. -/
theorem step_cases (h : host.step π input = some (out, host')) :
    (∃ event, (out, host') = host.run π event ∧
      ((input = .own (.event event) ∧ event.carriesHello = false) ∨
        ∃ sender message channel, input = .receive sender message channel ∧
          event = message.event sender channel)) ∨
    (out.sent = [] ∧
      host' = { host with hellos := host.hellos ++ [host.daemon.status.localHello] }) ∨
    ∃ (index : Nat) (hello : SessionHello) (peers : List (PeerId lib)),
      host.hellos[index]? = some hello ∧
      out.sent = peers.map (fun peer => (peer, .request hello)) ∧
      host'.daemon = (host.daemon.handle π lib (.broadcastSessionHello hello : Event κ lib)).1 ∧
      host'.hellos = host.hellos.eraseIdx index := by
  cases input with
  | own own =>
    cases own with
    | event event =>
      simp only [step] at h
      split_ifs at h with hcarries
      exact .inl ⟨event, (Option.some.inj h).symm, .inl ⟨rfl, Bool.eq_false_iff.mpr hcarries⟩⟩
    | buildLocalHello =>
      cases h
      exact .inr (.inl ⟨rfl, rfl⟩)
    | broadcast index peers =>
      simp only [step, broadcast] at h
      split at h
      · cases h
      · next hello hget =>
        cases h
        exact .inr (.inr ⟨index, hello, peers, hget, rfl, rfl, rfl⟩)
  | receive sender message channel =>
    exact .inl ⟨_, (Option.some.inj h).symm, .inr ⟨sender, message, channel, rfl, rfl⟩⟩

theorem event_hello {sender peer : PeerId lib} {message : SessionMessage} {hello : SessionHello}
    {channel : Nat}
    (h : (∃ channel', (message.event sender channel : Event κ lib) =
        .sessionHello peer hello channel') ∨
      (message.event sender channel : Event κ lib) = .sessionHelloAck peer hello) :
    sender = peer ∧ message.hello? = some hello := by
  cases message with
  | request _ =>
    obtain ⟨_, heq⟩ | heq := h
    · cases heq
      exact ⟨rfl, rfl⟩
    · cases heq
  | response response =>
    cases response with
    | helloAck _ =>
      obtain ⟨_, heq⟩ | heq := h
      · cases heq
      · cases heq
        exact ⟨rfl, rfl⟩
    | joinDenied _ =>
      obtain ⟨_, heq⟩ | heq := h
      · cases heq
      · cases heq

/-- A step hears a hello of a peer where it reads a message of it. -/
def Hears (input : HelloNodeInput κ lib) (peerId : String) (hello : SessionHello) : Prop :=
  ∃ sender message channel, input = .receive sender message channel ∧ sender.text = peerId ∧
    message.hello? = some hello

/-- The daemon makes no step, or handles an event that tells what is heard. -/
theorem step_daemon (h : host.step π input = some (out, host')) :
    host'.daemon = host.daemon ∨ ∃ event : Event κ lib,
      host'.daemon = (host.daemon.handle π lib event).1 ∧
        ∀ peer hello, event.Tells peer hello → Hears input peer.text hello := by
  obtain ⟨event, hrun, hevent⟩ | ⟨-, rfl⟩ | ⟨index, hello, peers, -, -, hdaemon, -⟩ :=
    step_cases h
  · cases hrun
    refine .inr ⟨event, rfl, fun peer hello htells => ?_⟩
    obtain ⟨-, hcarries⟩ | ⟨sender, message, channel, rfl, rfl⟩ := hevent
    · obtain ⟨_, rfl⟩ | rfl := htells
      · cases hcarries
      · cases hcarries
    · obtain ⟨rfl, hhello⟩ := event_hello htells
      exact ⟨sender, message, channel, rfl, rfl, hhello⟩
  · exact .inl rfl
  · refine .inr ⟨_, hdaemon, fun peer hello htells => ?_⟩
    obtain ⟨_, hevent⟩ | hevent := htells
    · cases hevent
    · cases hevent

theorem step_offer (h : host.step π input = some (out, host')) {peerId : String}
    {contacts : List String} (hoffer : host'.daemon.relayOffers peerId = some contacts) :
    host.daemon.relayOffers peerId = some contacts ∨
      ∃ hello, Hears input peerId hello ∧ hello.trustedContacts = contacts := by
  obtain hsame | ⟨event, hdaemon, hhears⟩ := step_daemon h
  · exact .inl (hsame ▸ hoffer)
  · rw [hdaemon] at hoffer
    refine (Daemon.handle_relayOffers hoffer).imp_right ?_
    rintro ⟨peer, hello, rfl, hcontacts, htells⟩
    exact ⟨hello, hhears peer hello htells, hcontacts⟩

theorem step_held (h : host.step π input = some (out, host')) {peerId : String}
    {pending : PendingInboundApproval}
    (hheld : host'.daemon.pendingInboundApprovals peerId = some pending) :
    host.daemon.pendingInboundApprovals peerId = some pending ∨
      Hears input peerId pending.hello := by
  obtain hsame | ⟨event, hdaemon, hhears⟩ := step_daemon h
  · exact .inl (hsame ▸ hheld)
  · rw [hdaemon] at hheld
    refine (Daemon.handle_held hheld).imp_right ?_
    rintro ⟨peer, rfl, htells⟩
    exact hhears peer pending.hello htells

theorem step_session (h : host.step π input = some (out, host')) {peerId displayName : String}
    {roomName : Option String}
    (hshows : ShowsSession host'.daemon.status.peers peerId roomName displayName) :
    ShowsSession host.daemon.status.peers peerId roomName displayName ∨
      ∃ hello, (hello.roomName = roomName ∧ hello.displayName = displayName) ∧
        (Hears input peerId hello ∨
          ∃ pending, host.daemon.pendingInboundApprovals peerId = some pending ∧
            pending.hello = hello) := by
  obtain hsame | ⟨event, hdaemon, hhears⟩ := step_daemon h
  · exact .inl (hsame ▸ hshows)
  · rw [hdaemon, Daemon.handle_showsSession] at hshows
    refine (Daemon.peersAfter_session hshows).imp_right ?_
    rintro ⟨hello, hagree, ⟨peer, rfl, htells⟩ | hheld⟩
    · exact ⟨hello, hagree, .inl (hhears peer hello htells)⟩
    · exact ⟨hello, hagree, .inr hheld⟩

theorem mem_sessionMessages {effects : List (Effect κ)} {receiver : PeerId lib}
    {message : SessionMessage} (h : (receiver, message) ∈ sessionMessages lib effects) :
    ∃ effect ∈ effects, effect.sessionMessage? = some (receiver.text, message) := by
  obtain ⟨effect, hmem, hmessage⟩ := List.mem_filterMap.mp h
  obtain ⟨⟨peerId, sent⟩, heffect, hsent⟩ := Option.bind_eq_some_iff.mp hmessage
  split_ifs at hsent
  cases hsent
  exact ⟨effect, hmem, heffect⟩

/-- What a daemon sends of itself it knows before the step or after it, or a
control request has built it. -/
theorem step_sends (h : host.step π input = some (out, host')) {receiver : PeerId lib}
    {message : SessionMessage} {sent : SessionHello} (hmem : (receiver, message) ∈ out.sent)
    (hsent : message.hello? = some sent) :
    sent = host.daemon.status.localHello ∨ sent = host'.daemon.status.localHello ∨
      sent ∈ host.hellos := by
  obtain ⟨event, hrun, -⟩ | ⟨hnone, -⟩ | ⟨index, hello, peers, hget, hout, -, -⟩ := step_cases h
  · cases hrun
    obtain ⟨effect, heffect, hmessage⟩ := mem_sessionMessages hmem
    exact (Daemon.handle_hello heffect hmessage hsent).imp_right .inl
  · rw [hnone] at hmem
    cases hmem
  · rw [hout] at hmem
    obtain ⟨peer, -, heq⟩ := List.mem_map.mp hmem
    cases heq
    cases hsent
    exact .inr (.inr (List.mem_of_getElem? hget))

theorem step_hellos (h : host.step π input = some (out, host')) {hello : SessionHello}
    (hmem : hello ∈ host'.hellos) :
    hello ∈ host.hellos ∨ hello = host.daemon.status.localHello := by
  obtain ⟨event, hrun, -⟩ | ⟨-, rfl⟩ | ⟨index, _, peers, -, -, -, hhellos⟩ := step_cases h
  · cases hrun
    exact .inl hmem
  · exact (List.mem_append.mp hmem).imp_right List.mem_singleton.mp
  · rw [hhellos] at hmem
    exact .inl (List.mem_of_mem_eraseIdx hmem)

/-- A hello that waits to be sent is what the daemon knew of itself when it was built. -/
theorem hellos_run {d : Daemon κ} {tr : List (Transition (HelloHost κ) (HelloNodeInput κ lib)
      (HelloHostOutput κ lib))} (h : Trace (step π) ⟨d, []⟩ tr host) :
    ∀ hello ∈ host.hellos, ∃ y ∈ tr, hello = y.before.daemon.status.localHello := by
  refine h.snoc_induction (P := fun tr host =>
    ∀ hello ∈ host.hellos, ∃ y ∈ tr, hello = y.before.daemon.status.localHello) ?_ ?_
  · intro hello hmem
    cases hmem
  · intro tr x _ hstep ih hello hmem
    obtain hold | hbuilt := step_hellos hstep hmem
    · obtain ⟨y, hy, hknown⟩ := ih hello hold
      exact ⟨y, List.mem_append_left _ hy, hknown⟩
    · exact ⟨x, List.mem_append_right _ (List.mem_singleton_self x), hbuilt⟩

abbrev HelloHostTransition (κ : Codec) (lib : Libp2p) :=
  Transition (HelloHost κ) (HelloNodeInput κ lib) (HelloHostOutput κ lib)

def Heard (tr : List (HelloHostTransition κ lib)) (peerId : String) (hello : SessionHello) : Prop :=
  ∃ y ∈ tr, Hears y.input peerId hello

section

variable {tr : List (HelloHostTransition κ lib)} {x : HelloHostTransition κ lib}
  {status : DaemonStatus} {peerId : String} {hello : SessionHello}

theorem Heard.snoc (h : Heard tr peerId hello) : Heard (tr ++ [x]) peerId hello := by
  obtain ⟨y, hy, hhears⟩ := h
  exact ⟨y, List.mem_append_left _ hy, hhears⟩

theorem Hears.heard (h : Hears x.input peerId hello) : Heard (tr ++ [x]) peerId hello :=
  ⟨x, List.mem_append_right _ (List.mem_singleton_self x), h⟩

/-- An offer in the table came in a hello of its peer. -/
theorem offers_run (h : Trace (step π) ⟨Daemon.start status, []⟩ tr host) :
    ∀ contacts, host.daemon.relayOffers peerId = some contacts →
      ∃ hello, Heard tr peerId hello ∧ hello.trustedContacts = contacts := by
  refine h.snoc_induction (P := fun tr host =>
    ∀ contacts, host.daemon.relayOffers peerId = some contacts →
      ∃ hello, Heard tr peerId hello ∧ hello.trustedContacts = contacts) ?_ ?_
  · intro contacts hoffer
    cases hoffer
  · intro tr x _ hstep ih contacts hoffer
    obtain hold | ⟨hello, hhears, hcontacts⟩ := step_offer hstep hoffer
    · obtain ⟨hello, hheard, hcontacts⟩ := ih contacts hold
      exact ⟨hello, hheard.snoc, hcontacts⟩
    · exact ⟨hello, hhears.heard, hcontacts⟩

/-- A hello that is held back was heard. -/
theorem held_run (h : Trace (step π) ⟨Daemon.start status, []⟩ tr host) :
    ∀ pending, host.daemon.pendingInboundApprovals peerId = some pending →
      Heard tr peerId pending.hello := by
  refine h.snoc_induction (P := fun tr host =>
    ∀ pending, host.daemon.pendingInboundApprovals peerId = some pending →
      Heard tr peerId pending.hello) ?_ ?_
  · intro pending hheld
    cases hheld
  · intro tr x _ hstep ih pending hheld
    obtain hold | hhears := step_held hstep hheld
    · exact (ih pending hold).snoc
    · exact hhears.heard

/-- A session that is shown was told in a hello of its peer. -/
theorem sessions_run (h : Trace (step π) ⟨Daemon.start status, []⟩ tr host)
    (hnone : status.peers = []) :
    ∀ roomName displayName, ShowsSession host.daemon.status.peers peerId roomName displayName →
      ∃ hello, Heard tr peerId hello ∧ hello.roomName = roomName ∧
        hello.displayName = displayName := by
  refine h.snoc_induction (P := fun tr host =>
    ∀ roomName displayName, ShowsSession host.daemon.status.peers peerId roomName displayName →
      ∃ hello, Heard tr peerId hello ∧ hello.roomName = roomName ∧
        hello.displayName = displayName) ?_ ?_
  · rintro roomName displayName ⟨peer, hmem, -⟩
    rw [show (Daemon.start status : Daemon κ).status.peers = [] from hnone] at hmem
    cases hmem
  · intro tr x hbefore hstep ih roomName displayName hshows
    obtain hold | ⟨hello, hagree, hhears | ⟨pending, hheld, rfl⟩⟩ := step_session hstep hshows
    · obtain ⟨hello, hheard, hagree⟩ := ih roomName displayName hold
      exact ⟨hello, hheard.snoc, hagree⟩
    · exact ⟨hello, hhears.heard, hagree⟩
    · exact ⟨pending.hello, (held_run hbefore pending hheld).snoc, hagree⟩

end

end HelloHost

def DaemonStatus.Trusts (state : DaemonStatus) (target : String) : Prop :=
  ∃ contact ∈ state.network.knownPeers, contact.peerId = target ∧ contact.trustedContact = true

theorem mem_localHello {state : DaemonStatus} {target : String} :
    target ∈ state.localHello.trustedContacts ↔ state.Trusts target := by
  simp only [DaemonStatus.localHello, List.mem_map, List.mem_filter, DaemonStatus.Trusts]
  constructor
  · rintro ⟨contact, ⟨hmem, htrusted⟩, hid⟩
    exact ⟨contact, hmem, hid, htrusted⟩
  · rintro ⟨contact, hmem, hid, htrusted⟩
    exact ⟨contact, ⟨hmem, htrusted⟩, hid⟩

theorem relayed_offered {state : DaemonStatus} {relayOffers : String → Option (List String)}
    {target via destination : String}
    (h : resolveRoute lib state relayOffers target = .relayed via destination) :
    ∃ offered, relayOffers via = some offered ∧ target ∈ offered := by
  have hroute : relayRoute lib (relayCandidates state relayOffers target) target =
      .relayed via destination := by
    unfold resolveRoute at h
    split at h
    · split_ifs at h
      exact h
    · exact h
  unfold relayRoute at hroute
  cases hsorted : (relayCandidates state relayOffers target).insertionSort relayBefore with
  | nil => simp [hsorted] at hroute
  | cons best rest =>
    simp only [hsorted] at hroute
    split_ifs at hroute
    cases hroute
    have hbest : best ∈ relayCandidates state relayOffers target := by
      rw [← List.mem_insertionSort relayBefore, hsorted]
      exact List.mem_cons_self
    obtain ⟨contact, hcontact, rfl⟩ := List.mem_map.mp hbest
    obtain ⟨-, hoffers⟩ := List.mem_filter.mp hcontact
    obtain ⟨-, hoffers⟩ := Bool.and_eq_true_iff.mp hoffers
    cases hoffered : relayOffers contact.peerId with
    | none => simp [hoffered] at hoffers
    | some offered =>
      simp only [hoffered, List.contains_iff_mem] at hoffers
      exact ⟨offered, rfl, hoffers⟩

section

variable {π : Profile} {status : PeerId lib → DaemonStatus}
  {tr pre post : List (HelloTransition κ lib)} {y : HelloTransition κ lib}
  {p : HelloPost κ lib} {node peer : PeerId lib}

/-- The hello says what `peer` knew of itself before the step or after it. -/
def Knew (y : HelloTransition κ lib) (peer : PeerId lib) (hello : SessionHello) : Prop :=
  hello = (y.before.nodes peer).daemon.status.localHello ∨
    hello = (y.after.nodes peer).daemon.status.localHello

/-- A hello is sent when it holds or later, never before. -/
theorem HelloRun.sent_known (h : HelloRun π status (pre ++ y :: post) p)
    {input : HelloNodeInput κ lib} {out : HelloHostOutput κ lib}
    (hout : y.output = some (peer, input, out)) {message : SessionMessage} {hello : SessionHello}
    (hmem : (node, message) ∈ out.sent) (hhello : message.hello? = some hello) :
    ∃ z ∈ pre ++ [y], Knew z peer hello := by
  obtain ⟨hpre, hstep, -⟩ := h.split
  have hhost := happened_step hstep hout
  obtain hbefore | hafter | hbuilt := HelloHost.step_sends hhost hmem hhello
  · exact ⟨y, by simp, .inl hbefore⟩
  · exact ⟨y, by simp, .inr hafter⟩
  · obtain ⟨z, hz, hknown⟩ := HelloHost.hellos_run (nodeTrace_trace hpre peer) hello hbuilt
    obtain ⟨x, hx, hnode⟩ := List.mem_filterMap.mp hz
    obtain ⟨-, hbefore, -⟩ := nodeTransition_eq_some.mp hnode
    exact ⟨x, List.mem_append_left _ hx, .inl (hbefore ▸ hknown)⟩

/-- What a daemon has heard of a peer, that peer has sent it, and knew it of
itself by then. -/
theorem HelloRun.heard_known (h : HelloRun π status tr p) {peerId : String} {hello : SessionHello}
    (hheard : HelloHost.Heard (nodeTrace node tr) peerId hello) :
    ∃ peer : PeerId lib, peer.text = peerId ∧ ∃ before y between, tr = before ++ y :: between ∧
      (∃ input out message, y.output = some (peer, input, out) ∧ (node, message) ∈ out.sent ∧
        message.hello? = some hello) ∧
      ∃ z ∈ before ++ [y], Knew z peer hello := by
  obtain ⟨x, hx, peer, message, channel, hinput, rfl, hhello⟩ := hheard
  obtain ⟨z, hz, hnode⟩ := List.mem_filterMap.mp hx
  obtain ⟨hout, -, -⟩ := nodeTransition_eq_some.mp hnode
  rw [hinput] at hout
  obtain ⟨pre, post, rfl⟩ := List.append_of_mem hz
  obtain ⟨before, y, between, rfl, input, out, hsender, hsent⟩ := receive_sent h hout
  have hsplit : HelloRun π status (before ++ y :: (between ++ z :: post)) p := by
    simpa using h
  exact ⟨peer, rfl, before, y, between ++ z :: post, by simp,
    ⟨input, out, message, hsender, hsent, hhello⟩, hsplit.sent_known hsender hsent hhello⟩

/-- A daemon sends a frame for `target` over a relay only if that relay has
told it of `target`, and had `target` among its trusted contacts by then. -/
theorem relays_vouched (h : HelloRun π status tr p) (node : PeerId lib)
    (target via destination : String)
    (hroute : resolveRoute lib (p.nodes node).daemon.status (p.nodes node).daemon.relayOffers
      target = .relayed via destination) :
    ∃ peer : PeerId lib, peer.text = via ∧ ∃ before y between, tr = before ++ y :: between ∧
      (∃ input out message hello, y.output = some (peer, input, out) ∧
        (node, message) ∈ out.sent ∧ message.hello? = some hello ∧
        target ∈ hello.trustedContacts) ∧
      ∃ z ∈ before ++ [y], (z.before.nodes peer).daemon.status.Trusts target ∨
        (z.after.nodes peer).daemon.status.Trusts target := by
  obtain ⟨offered, hoffer, htarget⟩ := relayed_offered hroute
  obtain ⟨hello, hheard, rfl⟩ := HelloHost.offers_run (nodeTrace_trace h node) offered hoffer
  obtain ⟨peer, hpeer, before, y, between, rfl, ⟨input, out, message, hsender, hsent, hhello⟩,
    z, hz, hknew⟩ := h.heard_known hheard
  refine ⟨peer, hpeer, before, y, between, rfl,
    ⟨input, out, message, hello, hsender, hsent, hhello, htarget⟩, z, hz, ?_⟩
  obtain rfl | rfl := hknew
  · exact .inl (mem_localHello.mp htarget)
  · exact .inr (mem_localHello.mp htarget)

/-- The room and the name that a daemon shows for a peer in a session are those
of a hello the peer has sent it, and were the peer's own by then. -/
theorem sessions_told {persisted : PeerId lib → PersistedState} {name : PeerId lib → String}
    (h : HelloRun π (fun node => bootstrap (persisted node) (name node) node.text) tr p)
    (node : PeerId lib) : ∀ shown ∈ (p.nodes node).daemon.status.peers,
      ∀ roomName displayName, shown.session = .active roomName displayName →
        ∃ peer : PeerId lib, peer.text = shown.peerId ∧
          ∃ before y between, tr = before ++ y :: between ∧
            (∃ input out message hello, y.output = some (peer, input, out) ∧
              (node, message) ∈ out.sent ∧ message.hello? = some hello ∧
              hello.roomName = roomName ∧ hello.displayName = displayName) ∧
            ∃ z ∈ before ++ [y], ∃ state, (state = (z.before.nodes peer).daemon.status ∨
                state = (z.after.nodes peer).daemon.status) ∧
              state.session.roomName = roomName ∧ state.session.displayName = displayName := by
  intro shown hmem roomName displayName hsession
  obtain ⟨hello, hheard, rfl, rfl⟩ := HelloHost.sessions_run (nodeTrace_trace h node) rfl
    roomName displayName ⟨shown, hmem, rfl, hsession⟩
  obtain ⟨peer, hpeer, before, y, between, rfl, ⟨input, out, message, hsender, hsent, hhello⟩,
    z, hz, hknew⟩ := h.heard_known hheard
  refine ⟨peer, hpeer, before, y, between, rfl,
    ⟨input, out, message, hello, hsender, hsent, hhello, rfl, rfl⟩, z, hz, ?_⟩
  obtain rfl | rfl := hknew
  · exact ⟨_, .inl rfl, rfl, rfl⟩
  · exact ⟨_, .inr rfl, rfl, rfl⟩

end

/-- The relay calls; the local daemon reads its hello, and has greeted it itself. -/
def greetings : List (PostInput (PeerId sampleLibp2p) (HelloHostInput silentCodec sampleLibp2p)
    Nat) :=
  [.own localNode (.event (.connectionEstablished relay incoming)),
    .own relay (.event (.connectionEstablished localNode { incoming with dialer := true })),
    .deliver 0 0, .deliver 0 1]

def friendsStart (node : PeerId sampleLibp2p) : DaemonStatus :=
  bootstrap friendsBook "local-user" node.text

theorem greetings_met : ∃ (tr : List (HelloTransition silentCodec sampleLibp2p))
    (p : HelloPost silentCodec sampleLibp2p), HelloRun .release friendsStart tr p ∧
      resolveRoute sampleLibp2p (p.nodes localNode).daemon.status
          (p.nodes localNode).daemon.relayOffers remotePeer = .relayed relayPeer remotePeer ∧
        (p.nodes localNode).daemon.status.peers.map (fun q => (q.peerId, q.session)) =
          [(relayPeer, .active none "local-user")] := by
  have hrun : (execute (postStep fun _ (host : HelloHost silentCodec) => host.step .release)
      (HelloPost.start friendsStart) greetings).map (fun r =>
        let d := (r.2.nodes localNode).daemon
        (resolveRoute sampleLibp2p d.status d.relayOffers remotePeer,
          d.status.peers.map fun q => (q.peerId, q.session))) =
      some (.relayed relayPeer remotePeer, [(relayPeer, .active none "local-user")]) := by
    decide +kernel
  obtain ⟨⟨tr, p⟩, hexecute, heq⟩ := Option.map_eq_some_iff.mp hrun
  obtain ⟨hroute, hsessions⟩ := Prod.mk.inj heq
  exact ⟨tr, p, execute_trace hexecute, hroute, hsessions⟩

theorem relays_vouched_greetings : ∃ (tr : List (HelloTransition silentCodec sampleLibp2p))
    (p : HelloPost silentCodec sampleLibp2p), HelloRun .release friendsStart tr p ∧
      ∃ peer : PeerId sampleLibp2p, peer.text = relayPeer ∧
        ∃ z ∈ tr, (z.before.nodes peer).daemon.status.Trusts remotePeer ∨
          (z.after.nodes peer).daemon.status.Trusts remotePeer := by
  obtain ⟨tr, p, htr, hroute, -⟩ := greetings_met
  obtain ⟨peer, hpeer, before, y, between, rfl, -, z, hz, htrusts⟩ :=
    relays_vouched htr localNode remotePeer relayPeer remotePeer hroute
  have hmem : z ∈ before ++ y :: between := by
    rw [List.append_cons]
    exact List.mem_append_left _ hz
  exact ⟨_, p, htr, peer, hpeer, z, hmem, htrusts⟩

theorem sessions_told_greetings : ∃ (tr : List (HelloTransition silentCodec sampleLibp2p))
    (p : HelloPost silentCodec sampleLibp2p), HelloRun .release friendsStart tr p ∧
      ∃ peer : PeerId sampleLibp2p, peer.text = relayPeer ∧ ∃ y ∈ tr, ∃ input out message hello,
        y.output = some (peer, input, out) ∧ (localNode, message) ∈ out.sent ∧
          message.hello? = some hello ∧ hello.displayName = "local-user" := by
  obtain ⟨tr, p, htr, -, hsessions⟩ := greetings_met
  have hshown : (relayPeer, PeerSessionState.active none "local-user") ∈
      (p.nodes localNode).daemon.status.peers.map (fun q => (q.peerId, q.session)) := by
    rw [hsessions]
    exact List.mem_singleton_self _
  obtain ⟨shown, hmem, heq⟩ := List.mem_map.mp hshown
  obtain ⟨hid, hsession⟩ := Prod.mk.inj heq
  obtain ⟨peer, hpeer, before, y, between, rfl,
      ⟨input, out, message, hello, hsender, hsent, hhello, -, hname⟩, -⟩ :=
    sessions_told htr localNode shown hmem none "local-user" hsession
  exact ⟨_, p, htr, peer, hpeer.trans hid, y, by simp, input, out, message, hello, hsender,
    hsent, hhello, hname⟩

end Voicers
