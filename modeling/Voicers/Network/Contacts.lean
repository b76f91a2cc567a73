import Voicers.Network.Ledger

/-! The status of a daemon after each event, up to what is heard of the
listed peers. The media engine and the volume controls change nothing else. -/

namespace Voicers

open Lib

variable {κ : Codec} {lib : Libp2p}

/-- A listed peer without its media data. -/
structure PeerContact where
  peerId : String
  displayName : String
  address : String
  transport : PeerTransportState
  session : PeerSessionState
deriving DecidableEq

def PeerSummary.contact (peer : PeerSummary) : PeerContact where
  peerId := peer.peerId
  displayName := peer.displayName
  address := peer.address
  transport := peer.transport
  session := peer.session

/-- A listed peer as the other tasks have set it up for the media engine. -/
structure PeerRow extends PeerContact where
  muted : Bool
  outputVolumePercent : Nat
  outputBus : String
deriving DecidableEq

def PeerSummary.row (peer : PeerSummary) : PeerRow where
  toPeerContact := peer.contact
  muted := peer.muted
  outputVolumePercent := peer.outputVolumePercent
  outputBus := peer.outputBus

/-- Only the media data and volumes of the listed peers differ. -/
structure DaemonStatus.SameContacts (s t : DaemonStatus) : Prop where
  rest : t = { s with peers := t.peers }
  peers : t.peers.map PeerSummary.contact = s.peers.map PeerSummary.contact

namespace DaemonStatus.SameContacts

variable {s t u : DaemonStatus}

theorem refl (s : DaemonStatus) : s.SameContacts s := ⟨rfl, rfl⟩

theorem trans (h : s.SameContacts t) (h' : t.SameContacts u) : s.SameContacts u := by
  obtain ⟨hrest, hpeers⟩ := h
  obtain ⟨hrest', hpeers'⟩ := h'
  refine ⟨?_, hpeers'.trans hpeers⟩
  rw [hrest'] at *
  rw [hrest]

theorem updateFirst {test : PeerSummary → Bool} {f : PeerSummary → PeerSummary}
    (hf : ∀ peer, (f peer).contact = peer.contact) :
    s.SameContacts { s with peers := updateFirst test f s.peers } :=
  ⟨rfl, map_updateFirst fun peer _ => hf peer⟩

theorem network (h : s.SameContacts t) : t.network = s.network := by
  rw [h.rest]

theorem pending (h : s.SameContacts t) : t.pendingPeerApprovals = s.pendingPeerApprovals := by
  rw [h.rest]

theorem peerIds (h : s.SameContacts t) :
    t.peers.map PeerSummary.peerId = s.peers.map PeerSummary.peerId := by
  have hids := congrArg (List.map PeerContact.peerId) h.peers
  rw [List.map_map, List.map_map] at hids
  exact hids

theorem peer? (h : s.SameContacts t) (peerId : String) :
    (t.peer? peerId).map PeerSummary.contact = (s.peer? peerId).map PeerSummary.contact := by
  have hfind := congrArg (List.find? fun contact => contact.peerId = peerId) h.peers
  rw [List.find?_map, List.find?_map] at hfind
  exact hfind

end DaemonStatus.SameContacts

/-- Only the media data of the listed peers differ. -/
structure DaemonStatus.SameRows (s t : DaemonStatus) : Prop where
  rest : t = { s with peers := t.peers }
  rows : t.peers.map PeerSummary.row = s.peers.map PeerSummary.row

namespace DaemonStatus.SameRows

variable {s t u : DaemonStatus}

theorem refl (s : DaemonStatus) : s.SameRows s := ⟨rfl, rfl⟩

theorem trans (h : s.SameRows t) (h' : t.SameRows u) : s.SameRows u := by
  obtain ⟨hrest, hrows⟩ := h
  obtain ⟨hrest', hrows'⟩ := h'
  refine ⟨?_, hrows'.trans hrows⟩
  rw [hrest'] at *
  rw [hrest]

theorem contacts (h : s.SameRows t) : s.SameContacts t := by
  have hcontacts := congrArg (List.map PeerRow.toPeerContact) h.rows
  rw [List.map_map, List.map_map] at hcontacts
  exact ⟨h.rest, hcontacts⟩

end DaemonStatus.SameRows

section

theorem updatePeerMedia_rows (state : DaemonStatus) (peerId : String)
    (update : PeerMediaState → PeerMediaState) :
    state.SameRows (state.updatePeerMedia peerId update) :=
  ⟨rfl, map_updateFirst fun _ _ => rfl⟩

theorem runMediaCommand_rows (state : DaemonStatus) (peers : MediaPeers κ)
    (command : MediaCommand) : state.SameRows (runMediaCommand state peers command).1 := by
  cases command with
  | registerPeer peerId =>
    simp only [runMediaCommand]
    split
    · exact .refl state
    · dsimp only
      exact updatePeerMedia_rows state peerId _
  | disconnectPeer peerId =>
    simp only [runMediaCommand]
    exact updatePeerMedia_rows state peerId _
  | handleAck peerId ack =>
    simp only [runMediaCommand]
    exact updatePeerMedia_rows state peerId _

variable {π : Profile} {state state' : DaemonStatus} {peers peers' : MediaPeers κ}

theorem handleIncomingFrame_rows {peerId : String} {frame : MediaFrame} {ack : Option MediaAck}
    (h : handleIncomingFrame π state peers peerId frame = some (ack, state', peers')) :
    state.SameRows state' := by
  cases he : ensurePeerRuntime peers peerId with
  | none =>
    simp only [handleIncomingFrame, he, Option.some.injEq, Prod.mk.injEq] at h
    obtain ⟨_, rfl, _⟩ := h
    exact .refl state
  | some e =>
    simp only [handleIncomingFrame, he, Option.bind_eq_bind, Option.bind_eq_some_iff,
      Option.pure_def, Option.some.injEq, Prod.mk.injEq] at h
    obtain ⟨_, _, _, rfl, _⟩ := h
    exact updatePeerMedia_rows state peerId _

theorem buildNextAudioFrame_rows {peerId : String} {pcm : κ.Pcm} {nowMs : UInt64}
    {frame : Option MediaFrame}
    (h : buildNextAudioFrame π state peers peerId pcm nowMs = some (frame, state', peers')) :
    state.SameRows state' := by
  cases he : ensurePeerRuntime peers peerId with
  | none =>
    simp only [buildNextAudioFrame, he, Option.some.injEq, Prod.mk.injEq] at h
    obtain ⟨_, rfl, _⟩ := h
    exact .refl state
  | some e =>
    simp only [buildNextAudioFrame, he, Option.bind_eq_bind, Option.bind_eq_some_iff] at h
    obtain ⟨_, _, _, _, h⟩ := h
    split at h
    · simp only [Option.pure_def, Option.some.injEq, Prod.mk.injEq] at h
      obtain ⟨_, rfl, _⟩ := h
      exact .refl state
    · simp only [Option.pure_def, Option.some.injEq, Prod.mk.injEq] at h
      obtain ⟨_, rfl, _⟩ := h
      exact updatePeerMedia_rows state peerId _

theorem drivePlayout_rows {now : Nat} {peerIds : List String} {pcm : List (String × κ.Pcm)}
    (h : drivePlayout π now peerIds state peers = some (pcm, state', peers')) :
    state.SameRows state' := by
  induction peerIds generalizing state peers pcm with
  | nil =>
    simp only [drivePlayout, Option.some.injEq, Prod.mk.injEq] at h
    obtain ⟨_, rfl, _⟩ := h
    exact .refl state
  | cons peerId peerIds ih =>
    cases hp : peers peerId with
    | none =>
      simp only [drivePlayout, hp] at h
      exact ih h
    | some runtime =>
      simp only [drivePlayout, hp, Option.bind_eq_bind, Option.bind_eq_some_iff] at h
      obtain ⟨⟨_, _⟩, _, ⟨_, _, _⟩, hrest, h⟩ := h
      simp only [Option.pure_def, Option.some.injEq, Prod.mk.injEq] at h
      obtain ⟨_, rfl, rfl⟩ := h
      exact (updatePeerMedia_rows state peerId _).trans (ih hrest)

end

namespace Daemon

def SameRows (d d' : Daemon κ) : Prop := d.status.SameRows d'.status

theorem runNextMediaCommand_rows (d : Daemon κ) : d.SameRows d.runNextMediaCommand := by
  unfold runNextMediaCommand
  split
  · exact runMediaCommand_rows _ _ _
  · exact .refl _

theorem callMedia_rows {α : Type} (d : Daemon κ)
    {call : DaemonStatus → MediaPeers κ → Option (Option α × DaemonStatus × MediaPeers κ)}
    (hcall : ∀ s ps a s' ps', call s ps = some (a, s', ps') → s.SameRows s') :
    d.SameRows (d.callMedia call).2 := by
  have hflush : d.SameRows d.flushMedia :=
    flushMedia_induction (R := SameRows) (fun _ => .refl _)
      (fun _ _ _ h h' => DaemonStatus.SameRows.trans h h') runNextMediaCommand_rows d
  simp only [callMedia]
  split
  · exact hflush
  · split
    · exact hflush
    · next heq => exact hflush.trans (hcall _ _ _ _ _ heq)

theorem onPlayout_rows (π : Profile) (d : Daemon κ) (now : Nat) (peerIds : List String) :
    d.SameRows (d.onPlayout π now peerIds).1 := by
  simp only [onPlayout]
  split
  · exact .refl _
  · split
    · exact .refl _
    · next heq => exact drivePlayout_rows heq

theorem onMediaRequest_rows (π : Profile) (d : Daemon κ) (peerId : String)
    (request : MediaRequest) : d.SameRows (d.onMediaRequest π lib peerId request).1 := by
  have hcall : ∀ frame : MediaFrame, d.SameRows (d.callMedia fun status peers =>
      handleIncomingFrame π status peers peerId frame).2 := fun frame =>
    d.callMedia_rows fun _ _ _ _ _ h => handleIncomingFrame_rows h
  cases request with
  | frame frame => exact hcall frame
  | relayedFrame destination frame =>
    simp only [onMediaRequest]
    split_ifs
    · exact hcall frame
    · exact .refl _
    · exact .refl _

theorem onSendMediaFrame_rows (π : Profile) (d : Daemon κ) (peerId : String) (pcm : κ.Pcm)
    (nowMs : UInt64) : d.SameRows (d.onSendMediaFrame π lib peerId pcm nowMs).1 := by
  have hbuild : ∀ b : Daemon κ, ∀ q, b.SameRows (b.callMedia fun status peers =>
      buildNextAudioFrame π status peers q pcm nowMs).2 := fun b q =>
    b.callMedia_rows fun _ _ _ _ _ h => buildNextAudioFrame_rows h
  have hroute : ∀ (b : Daemon κ) (via : Option String), d.SameRows b →
      d.SameRows ((b.withStatus fun status => setRouteVia status peerId via).scheduleMediaTick
        peerId) :=
    fun b via h => DaemonStatus.SameRows.trans h
      (updatePeerMedia_rows b.status peerId fun media => { media with routeVia := via })
  let ticked : Daemon κ :=
    { d with mediaTicks := Function.update d.mediaTicks peerId (d.mediaTicks peerId - 1) }
  simp only [onSendMediaFrame]
  split_ifs
  · exact .refl _
  · simp only [runMediaTick]
    split
    · dsimp only
      apply hroute
      split_ifs
      · exact hbuild ticked _
      · exact .refl _
    · split_ifs
      · exact .refl _
      · dsimp only
        apply hroute
        exact hbuild ticked _
    · exact updatePeerMedia_rows d.status peerId fun media =>
        { media with streamState := .idle, routeVia := none }
  · exact .refl _

/-- The record of a lookup enters the book. -/
def adopts (d : Daemon κ) (query : Nat) (invite : CompactInviteV1) : Bool :=
  match d.pendingRendezvousLookups query with
  | none => false
  | some (.peerId requested) => decide (invite.peerId = requested ∧ invite.addrs ≠ [])
  | some (.room _ resolvedPeers) => decide (invite.addrs ≠ [] ∧ invite.peerId ∉ resolvedPeers)

/-- An applied hello; a flow it opens takes the peer off the pending list. -/
def approvedStatus (lib : Libp2p) (d : Daemon κ) (peerId : String) (hello : SessionHello) :
    DaemonStatus :=
  let status := applySessionHello lib d.status peerId hello
  if peerId ∈ d.activeMediaFlows then status else removePendingApproval status peerId

def establishedStatus (lib : Libp2p) (d : Daemon κ) (peerId : String) (endpoint : Endpoint) :
    DaemonStatus :=
  let status := recordPathScore d.status
    (if endpoint.isRelayed then libp2pRelayPath else libp2pDirectPath) (some peerId) true
  if shouldSurfaceConnectedPeer d.status peerId (d.pendingDials peerId).isSome then
    upsertPeer lib status peerId (if endpoint.dialer then endpoint.remoteAddress else "")
  else status

/-- The path a failed dial counts against. -/
def failedPath (lib : Libp2p) (d : Daemon κ) (peerId : Option String) : String :=
  match peerId.bind d.pendingDials with
  | some pending => addressPathName lib pending.currentAddress
  | none => libp2pDirectPath

def noteObserved (status : DaemonStatus) (observedAddr : String) : DaemonStatus :=
  if observedAddr = "" then status
  else { status with network := { status.network with
    observedAddrs := pushUnique status.network.observedAddrs observedAddr } }

/-- Only the observed addresses change. -/
theorem noteObserved_touched (status : DaemonStatus) (observedAddr : String) :
    ∃ observedAddrs, noteObserved status observedAddr = { status with network := {
      status.network with observedAddrs := observedAddrs } } := by
  unfold noteObserved
  split_ifs
  · exact ⟨status.network.observedAddrs, rfl⟩
  · exact ⟨pushUnique status.network.observedAddrs observedAddr, rfl⟩

theorem noteObserved_peers (status : DaemonStatus) (observedAddr : String) :
    (noteObserved status observedAddr).peers = status.peers := by
  obtain ⟨observedAddrs, htouched⟩ := noteObserved_touched status observedAddr
  rw [htouched]

def identifiedStatus (lib : Libp2p) (status : DaemonStatus) (peerId : String) (info : IdentifyInfo) :
    DaemonStatus :=
  let displayName := if info.agentVersion = "" then "peer " ++ shortPeerId peerId
    else info.agentVersion
  noteObserved
    (if shouldSurfaceApprovedPeer status peerId then
      updateKnownPeer lib
        (getOrInsertPeer status peerId (info.listenAddrs.headD "<unknown>") fun peer =>
          { peer with displayName := displayName, transport := .connected })
        peerId none (some displayName) true false
    else status)
    info.observedAddr

/-- The status after an event, the media data of the listed peers aside. -/
def statusAfter (d : Daemon κ) : Event κ lib → DaemonStatus
  | .connectionEstablished peer endpoint => d.establishedStatus lib peer.text endpoint
  | .connectionClosed peer numEstablished => closeStatus d.status peer.text numEstablished
  | .outgoingConnectionError peer _ =>
    recordPathScore d.status (d.failedPath lib (peer.map PeerId.text)) (peer.map PeerId.text) false
  | .identifyReceived peer info => identifiedStatus lib d.status peer.text info
  | .ping peer => (d.onPing peer.text).status
  | .foundRecord query invite _ =>
    if d.adopts query invite then seedRendezvousInvite lib d.status invite else d.status
  | .sessionHello peer hello _ =>
    if d.passesGate peer.text then d.approvedStatus lib peer.text hello
    else queuePendingPeerApproval d.status peer.text hello
  | .sessionHelloAck peer hello =>
    if d.helloRequests peer.text = 0 then d.status else applySessionHello lib d.status peer.text hello
  | .approvePendingPeer peerId _ => match d.pendingInboundApprovals peerId with
    | none => d.status
    | some pending => d.approvedStatus lib peerId pending.hello
  | .rejectPendingPeer peerId =>
    if (d.pendingInboundApprovals peerId).isSome then removePendingApproval d.status peerId
    else d.status
  | .followUp index => match d.followUps[index]? with
    | none => d.status
    | some followUp => runFollowUp d.status followUp
  | .seedInviteHints invite => Voicers.seedInviteHints d.status invite
  | .setSession session => { d.status with session := session }
  | .saveKnownPeer peerId => (Voicers.saveKnownPeer d.status peerId).2
  | .renameKnownPeer peerId displayName => (Voicers.renameKnownPeer d.status peerId displayName).2
  | .forgetKnownPeer peerId => (Voicers.forgetKnownPeer d.status peerId).2
  | .setTrustedContact peerId trustedContact =>
    (Voicers.setTrustedContact d.status peerId trustedContact).2
  | _ => d.status

/-- The status after an event, the media data of the listed peers aside and
with their volumes. -/
def rowsAfter (d : Daemon κ) : Event κ lib → DaemonStatus
  | .toggleMutePeer peerId => updatePeer d.status peerId fun peer => { peer with muted := !peer.muted }
  | .setPeerVolumePercent peerId percent =>
    updatePeer d.status peerId fun peer => { peer with outputVolumePercent := min percent 200 }
  | e => d.statusAfter e

theorem dialRankedTarget_status (d : Daemon κ) (ranked : RankedDialTarget) (dialed : Bool) :
    (d.dialRankedTarget ranked dialed).1.status = d.status := by
  unfold dialRankedTarget
  split
  · split
    · rfl
    · rfl
  · rfl

theorem dialPeer_status (d : Daemon κ) (address : String) (query : Nat) (dialed : Bool) :
    (d.dialPeer lib address query dialed).1.status = d.status := by
  simp only [dialPeer]
  split
  · exact dialRankedTarget_status d _ dialed
  · rfl
  · rfl

theorem dialFoundPeer_status (d : Daemon κ) (invite : CompactInviteV1) (dialed : Bool) :
    (d.dialFoundPeer lib invite dialed).1.status = seedRendezvousInvite lib d.status invite := by
  simp only [dialFoundPeer]
  split_ifs
  · exact dialRankedTarget_status _ _ dialed
  · rfl

/-- A record that a lookup adopts is dialed; any other is passed over. -/
theorem onFoundRecord_eq (d : Daemon κ) (query : Nat) (invite : CompactInviteV1) (dialed : Bool) :
    ∃ lookup, d.onFoundRecord lib query invite dialed =
      if d.adopts query invite then (d.setLookup query lookup).dialFoundPeer lib invite dialed
      else (d, []) := by
  cases hlookup : d.pendingRendezvousLookups query with
  | none => exact ⟨none, by simp [onFoundRecord, adopts, hlookup]⟩
  | some lookup =>
    cases lookup with
    | peerId requested =>
      exact ⟨none, by simp only [onFoundRecord, adopts, hlookup, decide_eq_true_eq]⟩
    | room roomName resolvedPeers =>
      exact ⟨some (.room roomName (invite.peerId :: resolvedPeers)),
        by simp only [onFoundRecord, adopts, hlookup, decide_eq_true_eq]⟩

theorem onFoundRecord_status (d : Daemon κ) (query : Nat) (invite : CompactInviteV1)
    (dialed : Bool) : (d.onFoundRecord lib query invite dialed).1.status =
      if d.adopts query invite then seedRendezvousInvite lib d.status invite else d.status := by
  obtain ⟨lookup, hfound⟩ := @onFoundRecord_eq κ lib d query invite dialed
  rw [hfound]
  split_ifs
  · exact dialFoundPeer_status (d.setLookup query lookup) invite dialed
  · rfl

theorem onOutgoingConnectionError_status (d : Daemon κ) (peerId : Option String) (dialed : Bool) :
    (d.onOutgoingConnectionError lib peerId dialed).1.status =
      recordPathScore d.status (d.failedPath lib peerId) peerId false := by
  simp only [onOutgoingConnectionError]
  split
  · split
    · rfl
    · split
      · rfl
      · rfl
  · rfl

theorem onIdentifyReceived_status (d : Daemon κ) (peerId : String) (info : IdentifyInfo) :
    (d.onIdentifyReceived lib peerId info).status = identifiedStatus lib d.status peerId info := by
  simp only [onIdentifyReceived, identifiedStatus, noteObserved]
  split_ifs
  · rfl
  · rfl
  · rfl
  · rfl
  · rfl
  · rfl

theorem onConnectionClosed_contacts (d : Daemon κ) (peerId : String) (n : Nat) :
    (d.onConnectionClosed peerId n).status = closeStatus d.status peerId n := by
  simp only [onConnectionClosed, queueMedia_status]
  split_ifs
  · rfl
  · rfl

theorem onConnectionEstablished_contacts (d : Daemon κ) (peerId : String) (endpoint : Endpoint) :
    (d.onConnectionEstablished lib peerId endpoint).1.status =
      d.establishedStatus lib peerId endpoint := by
  simp only [onConnectionEstablished, establishedStatus]
  by_cases hs : shouldSurfaceConnectedPeer d.status peerId (d.pendingDials peerId).isSome = true
  · rw [if_pos hs, if_pos hs, sendSessionHello_status, queueMedia_status]
    rfl
  · rw [if_neg hs, if_neg hs]
    rfl

theorem openFlow_contacts (d : Daemon κ) (peerId : String) :
    (d.openFlow peerId).status = d.status := by
  unfold openFlow
  split_ifs
  · rfl
  · rfl

theorem applyApprovedSessionHello_contacts (d : Daemon κ) (peerId : String) (hello : SessionHello)
    (channel : Nat) : (d.applyApprovedSessionHello lib peerId hello channel).1.status =
      d.approvedStatus lib peerId hello := by
  have hflows : ((d.withStatus fun status => applySessionHello lib status peerId hello).queueMedia
      (.registerPeer peerId)).activeMediaFlows = d.activeMediaFlows := (queueMedia_sameFlows _ _).1
  have hstatus : ((d.withStatus fun status => applySessionHello lib status peerId hello).queueMedia
      (.registerPeer peerId)).status = applySessionHello lib d.status peerId hello :=
    queueMedia_status _ _
  simp only [applyApprovedSessionHello, approvedStatus, hflows]
  by_cases hp : peerId ∈ d.activeMediaFlows
  · rw [if_pos hp, if_pos hp]
    exact hstatus
  · rw [if_neg hp, if_neg hp, openFlow_contacts, ← hstatus]
    rfl

/-- One equation for the status after each event. -/
theorem handle_rows (π : Profile) (d : Daemon κ) (e : Event κ lib) :
    (d.rowsAfter e).SameRows (d.handle π lib e).1.status := by
  have heq : ∀ {s t : DaemonStatus}, s = t → t.SameRows s := by
    rintro s _ rfl
    exact .refl s
  cases e with
  | connectionEstablished peer endpoint => exact heq (onConnectionEstablished_contacts d _ endpoint)
  | connectionClosed peer n => exact heq (onConnectionClosed_contacts d peer.text n)
  | outgoingConnectionError peer dialed => exact heq (onOutgoingConnectionError_status d _ dialed)
  | identifyReceived peer info => exact heq (onIdentifyReceived_status d peer.text info)
  | foundRecord query invite dialed => exact heq (onFoundRecord_status d query invite dialed)
  | sessionHello peer hello channel =>
    apply heq
    simp only [handle, onSessionHello, rowsAfter, statusAfter]
    by_cases hgate : d.passesGate peer.text = true
    · rw [if_pos hgate, if_pos (show (_ || _) = true from hgate), applyApprovedSessionHello_contacts]
      rfl
    · rw [if_neg hgate, if_neg (show ¬ (_ || _) = true from hgate)]
  | sessionHelloAck peer hello =>
    apply heq
    simp only [handle, onSessionHelloAck, rowsAfter, statusAfter]
    split_ifs
    · rfl
    · rw [openFlow_contacts, queueMedia_status]
      rfl
  | mediaRequest peer request => exact onMediaRequest_rows π d peer.text request
  | mediaResponse peer response =>
    cases response with
    | ack ack => exact heq (queueMedia_status d _)
    | relayAck destination ack => exact heq (queueMedia_status d _)
    | relayDenied destination reason => exact .refl _
  | dial address query dialed => exact heq (dialPeer_status d address query dialed)
  | approvePendingPeer peerId whitelist =>
    apply heq
    cases hp : d.pendingInboundApprovals peerId with
    | none => simp [handle, approvePendingPeer, rowsAfter, statusAfter, hp]
    | some pending =>
      simp only [handle, approvePendingPeer, rowsAfter, statusAfter, hp]
      exact applyApprovedSessionHello_contacts _ peerId pending.hello pending.channel
  | rejectPendingPeer peerId =>
    apply heq
    cases hp : d.pendingInboundApprovals peerId with
    | none => simp [handle, rejectPendingPeer, rowsAfter, statusAfter, hp]
    | some pending => simp [handle, rejectPendingPeer, rowsAfter, statusAfter, hp]
  | sendMediaFrame peerId pcm nowMs => exact onSendMediaFrame_rows π d peerId pcm nowMs
  | mediaCommand => exact runNextMediaCommand_rows d
  | playout now peerIds => exact onPlayout_rows π d now peerIds
  | followUp index =>
    apply heq
    cases hf : d.followUps[index]? with
    | none => simp [handle, rowsAfter, statusAfter, hf]
    | some followUp => simp [handle, rowsAfter, statusAfter, hf]
  | _ => exact .refl _

theorem handle_contacts (π : Profile) (d : Daemon κ) (e : Event κ lib) :
    (d.statusAfter e).SameContacts (d.handle π lib e).1.status := by
  refine DaemonStatus.SameContacts.trans ?_ (handle_rows π d e).contacts
  cases e with
  | toggleMutePeer peerId => exact .updateFirst fun _ => rfl
  | setPeerVolumePercent peerId percent => exact .updateFirst fun _ => rfl
  | _ => exact .refl _

end Daemon

end Voicers
