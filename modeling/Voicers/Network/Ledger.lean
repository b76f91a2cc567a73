import Voicers.Network.DaemonFlow

/-! What a daemon keeps about the joins it holds back and the peers it can
reach: the list the user sees, the hellos the network task holds, the
requests that are still being answered, the relay offers and the connected
peers. One equation says what each event does to all of it. -/

namespace Voicers

open Lib

variable {κ : Codec} {lib : Libp2p}

structure Ledger where
  listed : List PendingPeerApprovalSummary
  held : String → Option PendingInboundApproval
  followUps : List FollowUp
  relayOffers : String → Option (List String)
  connected : Finset String
  localPeerId : String

def Ledger.unlist (l : Ledger) (peerId : String) : Ledger :=
  { l with listed := l.listed.filter fun pending => pending.peerId ≠ peerId }

def FollowUp.peerId : FollowUp → String
  | .approved peerId _ => peerId
  | .rejected peerId => peerId

/-- Only the listed peers and the peer book differ. -/
def DaemonStatus.BookAndPeers (state state' : DaemonStatus) : Prop :=
  ∃ peers network, state' = { state with peers := peers, network := network }

theorem DaemonStatus.BookAndPeers.trans {s t u : DaemonStatus} (h : s.BookAndPeers t)
    (h' : t.BookAndPeers u) : s.BookAndPeers u := by
  obtain ⟨peers, network, rfl⟩ := h
  obtain ⟨peers', network', rfl⟩ := h'
  exact ⟨peers', network', rfl⟩

section

variable (lib : Libp2p) (state : DaemonStatus) (peerId : String)

theorem updateKnownPeer_book (address displayName : Option String) (connected seen : Bool) :
    state.BookAndPeers (updateKnownPeer lib state peerId address displayName connected seen) := by
  obtain ⟨network, h⟩ :=
    Daemon.updateKnownPeer_network lib state peerId address displayName connected seen
  exact ⟨state.peers, network, h⟩

theorem upsertPeer_book (address : String) :
    state.BookAndPeers (upsertPeer lib state peerId address) := by
  simp only [upsertPeer, getOrInsertPeer]
  split
  · exact ⟨_, _, rfl⟩
  · refine DaemonStatus.BookAndPeers.trans ?_ (updateKnownPeer_book lib _ peerId _ _ _ _)
    split_ifs
    · exact ⟨_, _, rfl⟩
    · exact ⟨_, _, rfl⟩

theorem applySessionHello_book (hello : SessionHello) :
    state.BookAndPeers (applySessionHello lib state peerId hello) := by
  simp only [applySessionHello]
  split
  · exact ⟨_, _, rfl⟩
  · exact DaemonStatus.BookAndPeers.trans ⟨_, _, rfl⟩ (updateKnownPeer_book lib _ peerId _ _ _ _)

theorem saveKnownPeer_book : state.BookAndPeers (saveKnownPeer state peerId).2 := by
  simp only [saveKnownPeer]
  split
  · exact ⟨_, _, rfl⟩
  · exact ⟨_, _, rfl⟩
  · exact ⟨_, _, rfl⟩

theorem renameKnownPeer_book (displayName : String) :
    state.BookAndPeers (renameKnownPeer state peerId displayName).2 := by
  simp only [renameKnownPeer]
  split_ifs
  · exact ⟨_, _, rfl⟩
  · exact ⟨_, _, rfl⟩

theorem forgetKnownPeer_book : state.BookAndPeers (forgetKnownPeer state peerId).2 := by
  simp only [forgetKnownPeer]
  split_ifs
  · exact ⟨_, _, rfl⟩
  · exact ⟨_, _, rfl⟩

theorem setTrustedContact_book (trusted : Bool) :
    state.BookAndPeers (setTrustedContact state peerId trusted).2 := by
  simp only [setTrustedContact]
  split_ifs
  · exact ⟨_, _, rfl⟩
  · exact ⟨_, _, rfl⟩

end

theorem DaemonStatus.PeersOnly.book {s t : DaemonStatus} (h : s.PeersOnly t) :
    s.BookAndPeers t := by
  obtain ⟨peers, rfl, _⟩ := h
  exact ⟨peers, s.network, rfl⟩

namespace Daemon

def ledger (d : Daemon κ) : Ledger where
  listed := d.status.pendingPeerApprovals
  held := d.pendingInboundApprovals
  followUps := d.followUps
  relayOffers := d.relayOffers
  connected := d.connectedPeers
  localPeerId := d.status.localPeerId

/-- `already_connected || !should_gate_peer_approval(..)`. -/
def passesGate (d : Daemon κ) (peerId : String) : Bool :=
  alreadyConnected d.status peerId || !shouldGatePeerApproval d.status peerId

/-- An applied hello takes its peer off the list only when it opens the flow. -/
def unlistOpened (d : Daemon κ) (peerId : String) (l : Ledger) : Ledger :=
  if peerId ∈ d.activeMediaFlows then l else l.unlist peerId

/-- The ledger after an event. -/
def ledgerAfter (d : Daemon κ) : Event κ lib → Ledger
  | .connectionEstablished peer _ =>
    { d.ledger with connected := insert peer.text d.connectedPeers }
  | .connectionClosed peer numEstablished =>
    if numEstablished = 0 then
      { d.ledger with
        connected := d.connectedPeers.erase peer.text
        relayOffers := Function.update d.relayOffers peer.text none }
    else d.ledger
  | .sessionHello peer hello channel =>
    if d.passesGate peer.text then
      d.unlistOpened peer.text { d.ledger with
        relayOffers := Function.update d.relayOffers peer.text (some hello.trustedContacts) }
    else { d.ledger with
      listed := (queuePendingPeerApproval d.status peer.text hello).pendingPeerApprovals
      held := Function.update d.pendingInboundApprovals peer.text (some ⟨hello, channel⟩) }
  | .sessionHelloAck peer hello =>
    if d.helloRequests peer.text = 0 then d.ledger
    else { d.ledger with
      relayOffers := Function.update d.relayOffers peer.text (some hello.trustedContacts) }
  | .approvePendingPeer peerId whitelist =>
    if (d.pendingInboundApprovals peerId).isSome then
      d.unlistOpened peerId { d.ledger with
        held := Function.update d.pendingInboundApprovals peerId none
        followUps := d.followUps ++ [.approved peerId whitelist] }
    else d.ledger
  | .rejectPendingPeer peerId =>
    if (d.pendingInboundApprovals peerId).isSome then
      { d.ledger.unlist peerId with
        held := Function.update d.pendingInboundApprovals peerId none
        followUps := d.followUps ++ [.rejected peerId] }
    else d.ledger
  | .followUp index => match d.followUps[index]? with
    | none => d.ledger
    | some followUp =>
      { d.ledger.unlist followUp.peerId with followUps := d.followUps.eraseIdx index }
  | _ => d.ledger

section

variable {d d' : Daemon κ}

theorem MediaOnly.ledger (h : d.MediaOnly d') : d'.ledger = d.ledger := by
  obtain ⟨_, _, _, rfl, hs⟩ := h
  obtain ⟨peers, rfl, _⟩ := hs
  rfl

theorem BookOnly.ledger (h : d.BookOnly d') : d'.ledger = d.ledger := by
  obtain ⟨_, _, _, rfl⟩ := h
  rfl

theorem withStatus_ledger {f : DaemonStatus → DaemonStatus} (h : d.status.BookAndPeers (f d.status)) :
    (d.withStatus f).ledger = d.ledger := by
  obtain ⟨peers, network, hf⟩ := h
  simp only [withStatus, Daemon.ledger, hf]

theorem queueMedia_ledger (d : Daemon κ) (command : MediaCommand) :
    (d.queueMedia command).ledger = d.ledger :=
  (d.queueMedia_mediaOnly command).ledger

theorem sendSessionHello_ledger (lib : Libp2p) (c : Prop) [Decidable c] (d : Daemon κ)
    (peerId : String) (hello : SessionHello) :
    (if c then sendSessionHello lib d peerId hello else (d, [])).1.ledger = d.ledger := by
  obtain ⟨requests, hsend⟩ := sendSessionHello_if lib c d peerId hello
  rw [hsend]
  rfl

theorem onConnectionEstablished_ledger (d : Daemon κ) (peer : PeerId lib) (endpoint : Endpoint) :
    (d.onConnectionEstablished lib peer.text endpoint).1.ledger =
      { d.ledger with connected := insert peer.text d.connectedPeers } := by
  simp only [onConnectionEstablished]
  by_cases hs : shouldSurfaceConnectedPeer d.status peer.text
      (d.pendingDials peer.text).isSome = true
  · rw [if_pos hs, sendSessionHello_ledger, queueMedia_ledger,
      withStatus_ledger (upsertPeer_book lib _ _ _)]
    rfl
  · rw [if_neg hs]
    rfl

theorem onConnectionClosed_ledger (d : Daemon κ) (peerId : String) (n : Nat) :
    (d.onConnectionClosed peerId n).ledger =
      if n = 0 then
        { d.ledger with
          connected := d.connectedPeers.erase peerId
          relayOffers := Function.update d.relayOffers peerId none }
      else d.ledger := by
  simp only [onConnectionClosed, queueMedia_ledger]
  by_cases hn : n = 0
  · simp only [hn, if_true]
    rfl
  · simp only [hn, if_false]
    rfl

theorem onIdentifyReceived_ledger (d : Daemon κ) (peerId : String) (info : IdentifyInfo) :
    (d.onIdentifyReceived lib peerId info).ledger = d.ledger := by
  have hobserved : ∀ b : Daemon κ, (if info.observedAddr = "" then b
      else b.withStatus fun status => { status with network := { status.network with
        observedAddrs := pushUnique status.network.observedAddrs info.observedAddr } }).ledger =
      b.ledger := by
    intro b
    split_ifs
    · rfl
    · rfl
  simp only [onIdentifyReceived, hobserved]
  split_ifs
  · exact withStatus_ledger (DaemonStatus.BookAndPeers.trans ⟨_, _, rfl⟩
      (updateKnownPeer_book lib _ peerId _ _ _ _))
  · exact withStatus_ledger (DaemonStatus.BookAndPeers.trans ⟨_, _, rfl⟩
      (updateKnownPeer_book lib _ peerId _ _ _ _))
  · rfl

theorem openFlow_ledger (d : Daemon κ) (peerId : String) :
    (d.openFlow peerId).ledger = d.ledger := by
  simp only [openFlow]
  split_ifs
  · rfl
  · rfl

theorem applyApprovedSessionHello_ledger (lib : Libp2p) (d : Daemon κ) (peerId : String)
    (hello : SessionHello) (channel : Nat) :
    (d.applyApprovedSessionHello lib peerId hello channel).1.ledger =
      d.unlistOpened peerId d.ledger := by
  have happlied : ((d.withStatus fun status =>
      applySessionHello lib status peerId hello).queueMedia (.registerPeer peerId)).ledger =
      d.ledger := by
    rw [queueMedia_ledger, withStatus_ledger (applySessionHello_book lib d.status peerId hello)]
  have hflows : ((d.withStatus fun status =>
      applySessionHello lib status peerId hello).queueMedia
        (.registerPeer peerId)).activeMediaFlows = d.activeMediaFlows :=
    (queueMedia_sameFlows _ _).1
  simp only [applyApprovedSessionHello, unlistOpened, hflows]
  by_cases hp : peerId ∈ d.activeMediaFlows
  · rw [if_pos hp, if_pos hp]
    exact happlied
  · rw [if_neg hp, if_neg hp, openFlow_ledger, ← happlied]
    rfl

theorem onMediaRequest_ledger (π : Profile) (d : Daemon κ) (peerId : String)
    (request : MediaRequest) : (d.onMediaRequest π lib peerId request).1.ledger = d.ledger := by
  have hcall : ∀ frame : MediaFrame, (d.callMedia fun status peers =>
      handleIncomingFrame π status peers peerId frame).2.ledger = d.ledger := fun frame =>
    (d.callMedia_mediaOnly fun _ _ _ _ _ h => (handleIncomingFrame_callFor h).status).ledger
  cases request with
  | frame frame => exact hcall frame
  | relayedFrame destination frame =>
    simp only [onMediaRequest]
    split_ifs
    · exact hcall frame
    · rfl
    · rfl

theorem onMediaResponse_ledger (d : Daemon κ) (peerId : String) (response : MediaResponse) :
    (d.onMediaResponse peerId response).ledger = d.ledger := by
  cases response with
  | ack ack => exact queueMedia_ledger d _
  | relayAck destination ack => exact queueMedia_ledger d _
  | relayDenied destination reason => rfl

theorem setRouteVia_ledger (d : Daemon κ) (peerId : String) (via : Option String) :
    (d.withStatus fun status => setRouteVia status peerId via).ledger = d.ledger :=
  withStatus_ledger (updatePeerMedia_peersOnly _ _ _).book

theorem onSendMediaFrame_ledger (π : Profile) (d : Daemon κ) (peerId : String) (pcm : κ.Pcm)
    (nowMs : UInt64) : (d.onSendMediaFrame π lib peerId pcm nowMs).1.ledger = d.ledger := by
  have hbuild : ∀ b : Daemon κ, (b.callMedia fun status peers =>
      buildNextAudioFrame π status peers peerId pcm nowMs).2.ledger = b.ledger := fun b =>
    (b.callMedia_mediaOnly fun _ _ _ _ _ h => (buildNextAudioFrame_callFor h).1.status).ledger
  have hschedule : ∀ b : Daemon κ, (b.scheduleMediaTick peerId).ledger = b.ledger := fun b => rfl
  have htick : ∀ b : Daemon κ, b.ledger = d.ledger →
      (b.runMediaTick π lib peerId pcm nowMs).1.ledger = d.ledger := by
    intro b hb
    simp only [runMediaTick]
    split
    · rw [hschedule, setRouteVia_ledger]
      split_ifs
      · exact (hbuild b).trans hb
      · exact hb
    · next via destination hroute =>
      obtain rfl := relayed_destination hroute
      split_ifs
      · exact hb
      · rw [hschedule, setRouteVia_ledger]
        exact (hbuild b).trans hb
    · exact (withStatus_ledger (updatePeerMedia_peersOnly _ _ _).book).trans hb
  simp only [onSendMediaFrame]
  split_ifs
  · rfl
  · exact htick _ rfl
  · rfl

theorem runFollowUp_unlist (state : DaemonStatus) (followUp : FollowUp) :
    (runFollowUp state followUp).pendingPeerApprovals =
      state.pendingPeerApprovals.filter (fun pending => pending.peerId ≠ followUp.peerId) ∧
      (runFollowUp state followUp).localPeerId = state.localPeerId := by
  cases followUp with
  | approved peerId whitelist =>
    simp only [runFollowUp]
    split_ifs
    · exact ⟨rfl, rfl⟩
    · exact ⟨rfl, rfl⟩
  | rejected peerId => exact ⟨rfl, rfl⟩

theorem handle_ledger (π : Profile) (d : Daemon κ) (e : Event κ lib) :
    (d.handle π lib e).1.ledger = d.ledgerAfter e := by
  cases e with
  | connectionEstablished peer endpoint => exact onConnectionEstablished_ledger d peer endpoint
  | connectionClosed peer n => exact onConnectionClosed_ledger d peer.text n
  | outgoingConnectionError peer dialed =>
    exact (onOutgoingConnectionError_bookOnly d _ dialed).1.ledger
  | identifyReceived peer info => exact onIdentifyReceived_ledger d peer.text info
  | foundRecord query invite dialed => exact (onFoundRecord_bookOnly d query invite dialed).1.ledger
  | sessionHello peer hello channel =>
    simp only [handle, onSessionHello, ledgerAfter]
    by_cases hgate : d.passesGate peer.text = true
    · rw [if_pos hgate, if_pos (show (_ || _) = true from hgate)]
      exact applyApprovedSessionHello_ledger lib
        { d with relayOffers := Function.update d.relayOffers peer.text (some hello.trustedContacts) }
        peer.text hello channel
    · rw [if_neg hgate, if_neg (show ¬ (_ || _) = true from hgate)]
      simp only [queuePendingPeerApproval, Daemon.ledger]
      split_ifs
      · rfl
      · rfl
  | sessionHelloAck peer hello =>
    simp only [handle, onSessionHelloAck, ledgerAfter]
    split_ifs
    · rfl
    · rw [openFlow_ledger, queueMedia_ledger, withStatus_ledger (applySessionHello_book lib _ _ _)]
      rfl
  | mediaRequest peer request => exact onMediaRequest_ledger π d peer.text request
  | mediaResponse peer response => exact onMediaResponse_ledger d peer.text response
  | dial address query dialed => exact (dialPeer_bookOnly d address query dialed).1.ledger
  | approvePendingPeer peerId whitelist =>
    cases hp : d.pendingInboundApprovals peerId with
    | none => simp [handle, approvePendingPeer, ledgerAfter, hp]
    | some pending =>
      have happlied := applyApprovedSessionHello_ledger lib
        { d with pendingInboundApprovals := Function.update d.pendingInboundApprovals peerId none }
        peerId pending.hello pending.channel
      simp only [handle, approvePendingPeer, ledgerAfter, hp, Option.isSome_some, if_true]
      have happend : ∀ b : Daemon κ, ({ b with followUps := b.followUps ++
          [.approved peerId whitelist] } : Daemon κ).ledger =
          { b.ledger with followUps := b.ledger.followUps ++ [.approved peerId whitelist] } :=
        fun b => rfl
      rw [happend, happlied]
      simp only [unlistOpened]
      split_ifs
      · rfl
      · rfl
  | rejectPendingPeer peerId =>
    cases hp : d.pendingInboundApprovals peerId with
    | none => simp [handle, rejectPendingPeer, ledgerAfter, hp]
    | some pending =>
      simp only [handle, rejectPendingPeer, ledgerAfter, hp, Option.isSome_some, if_true]
      rfl
  | sendMediaFrame peerId pcm nowMs => exact onSendMediaFrame_ledger π d peerId pcm nowMs
  | mediaCommand => exact d.runNextMediaCommand_mediaOnly.ledger
  | playout now peerIds => exact (onPlayout_mediaOnly π d now peerIds).ledger
  | followUp index =>
    cases hf : d.followUps[index]? with
    | none => simp [handle, ledgerAfter, hf]
    | some followUp =>
      obtain ⟨hlisted, hlocal⟩ := runFollowUp_unlist d.status followUp
      simp only [handle, ledgerAfter, hf, Daemon.ledger, Ledger.unlist, hlisted, hlocal]
  | seedInviteHints invite => exact withStatus_ledger ⟨_, _, rfl⟩
  | saveKnownPeer peerId => exact withStatus_ledger (saveKnownPeer_book d.status peerId)
  | renameKnownPeer peerId displayName =>
    exact withStatus_ledger (renameKnownPeer_book d.status peerId displayName)
  | forgetKnownPeer peerId => exact withStatus_ledger (forgetKnownPeer_book d.status peerId)
  | setTrustedContact peerId trusted =>
    exact withStatus_ledger (setTrustedContact_book d.status peerId trusted)
  | ping peer => rfl
  | lookupFinished query => rfl
  | sessionRefused peer => rfl
  | broadcastSessionHello hello => rfl
  | setSession session => rfl
  | toggleMutePeer peerId => rfl
  | setPeerVolumePercent peerId percent => rfl

theorem ledgerAfter_localPeerId (d : Daemon κ) (e : Event κ lib) :
    (d.ledgerAfter e).localPeerId = d.status.localPeerId := by
  have hopened : ∀ p (l : Ledger), (d.unlistOpened p l).localPeerId = l.localPeerId := by
    intro p l
    simp only [unlistOpened]
    split_ifs
    · rfl
    · rfl
  cases e with
  | connectionClosed peer n =>
    simp only [ledgerAfter]
    split_ifs
    · rfl
    · rfl
  | sessionHello peer hello channel =>
    simp only [ledgerAfter]
    split_ifs
    · exact hopened _ _
    · rfl
  | sessionHelloAck peer hello =>
    simp only [ledgerAfter]
    split_ifs
    · rfl
    · rfl
  | approvePendingPeer peerId whitelist =>
    simp only [ledgerAfter]
    split_ifs
    · exact hopened _ _
    · rfl
  | rejectPendingPeer peerId =>
    simp only [ledgerAfter]
    split_ifs
    · rfl
    · rfl
  | followUp index =>
    simp only [ledgerAfter]
    split
    · rfl
    · rfl
  | _ => rfl

theorem handle_localPeerId (π : Profile) (d : Daemon κ) (e : Event κ lib) :
    (d.handle π lib e).1.status.localPeerId = d.status.localPeerId :=
  (congrArg Ledger.localPeerId (handle_ledger π d e)).trans (ledgerAfter_localPeerId d e)

theorem ledger_step {π : Profile} {x : DaemonTransition κ lib}
    (h : daemonStep π lib x.before x.input = some (x.output, x.after)) :
    x.after.ledger = x.before.ledgerAfter x.input := by
  rw [(daemonStep_eq h).2]
  exact handle_ledger π x.before x.input

end

end Daemon

end Voicers
