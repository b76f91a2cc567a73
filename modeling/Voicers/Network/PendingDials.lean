import Voicers.Network.Contacts

/-! The pending dials after each event. -/

namespace Voicers

variable {κ : Codec} {lib : Libp2p}

/-- The peer and addresses of a dial that is begun for the address; a text
that is not dialed itself is looked up. -/
def dialsBegun (lib : Libp2p) (network : NetworkSummary) (address : String) (dialed : Bool)
    (dials : String → Option PendingDial) : String → Option PendingDial :=
  let ranked := resolveRankedDialTarget lib network address
  if dialed ∧ (lib.parseMultiaddr ranked.primary).isSome then
    match ranked.peerId with
    | some peerId => Function.update dials peerId (some ⟨ranked.primary, ranked.fallbacks⟩)
    | none => dials
  else dials

namespace Daemon

def dialsAfter (d : Daemon κ) : Event κ lib → String → Option PendingDial
  | .connectionEstablished peer _ => Function.update d.pendingDials peer.text none
  | .outgoingConnectionError peer _ => match peer.map PeerId.text with
    | none => d.pendingDials
    | some peerId => match d.pendingDials peerId with
      | some ⟨_, next :: rest⟩ => Function.update d.pendingDials peerId (some ⟨next, rest⟩)
      | _ => d.pendingDials
  | .foundRecord query invite dialed =>
    if d.adopts query invite then
      dialsBegun lib (seedRendezvousInvite lib d.status invite).network invite.peerId dialed
        d.pendingDials
    else d.pendingDials
  | .dial address _ dialed => dialsBegun lib d.status.network address dialed d.pendingDials
  | _ => d.pendingDials

section

variable {d d' : Daemon κ}

theorem MediaOnly.dials (h : d.MediaOnly d') : d'.pendingDials = d.pendingDials := by
  obtain ⟨_, _, _, rfl, _⟩ := h
  rfl

theorem queueMedia_dials (d : Daemon κ) (command : MediaCommand) :
    (d.queueMedia command).pendingDials = d.pendingDials := (d.queueMedia_mediaOnly command).dials

theorem openFlow_dials (d : Daemon κ) (peerId : String) :
    (d.openFlow peerId).pendingDials = d.pendingDials := by
  unfold openFlow
  split_ifs
  · rfl
  · rfl

theorem sendSessionHello_dials (c : Prop) [Decidable c] (d : Daemon κ) (peerId : String)
    (hello : SessionHello) :
    (if c then sendSessionHello lib d peerId hello else (d, [])).1.pendingDials = d.pendingDials := by
  obtain ⟨requests, hsend⟩ := sendSessionHello_if lib c d peerId hello
  rw [hsend]

theorem onConnectionEstablished_dials (d : Daemon κ) (peerId : String) (endpoint : Endpoint) :
    (d.onConnectionEstablished lib peerId endpoint).1.pendingDials =
      Function.update d.pendingDials peerId none := by
  simp only [onConnectionEstablished]
  by_cases hs : shouldSurfaceConnectedPeer d.status peerId (d.pendingDials peerId).isSome = true
  · rw [if_pos hs, sendSessionHello_dials, queueMedia_dials]
    rfl
  · rw [if_neg hs]
    rfl

theorem onConnectionClosed_dials (d : Daemon κ) (peerId : String) (n : Nat) :
    (d.onConnectionClosed peerId n).pendingDials = d.pendingDials := by
  simp only [onConnectionClosed, queueMedia_dials]
  split_ifs
  · rfl
  · rfl

theorem dialRankedTarget_dials (d : Daemon κ) (ranked : RankedDialTarget) (dialed : Bool) :
    (d.dialRankedTarget ranked dialed).1.pendingDials =
      if dialed then
        match ranked.peerId with
        | some peerId => Function.update d.pendingDials peerId (some ⟨ranked.primary, ranked.fallbacks⟩)
        | none => d.pendingDials
      else d.pendingDials := by
  unfold dialRankedTarget
  split_ifs
  · cases ranked.peerId with
    | some peerId => rfl
    | none => rfl
  · rfl

theorem dialPeer_dials (d : Daemon κ) (address : String) (query : Nat) (dialed : Bool) :
    (d.dialPeer lib address query dialed).1.pendingDials =
      dialsBegun lib d.status.network address dialed d.pendingDials := by
  unfold dialPeer dialsBegun
  dsimp only
  cases hparse : lib.parseMultiaddr (resolveRankedDialTarget lib d.status.network address).primary with
  | some multiaddr =>
    dsimp only
    rw [dialRankedTarget_dials]
    simp
  | none =>
    cases (resolveRankedDialTarget lib d.status.network address).peerId with
    | some peerId => simp [setLookup]
    | none => simp [setLookup]

theorem dialFoundPeer_dials (d : Daemon κ) (invite : CompactInviteV1) (dialed : Bool) :
    (d.dialFoundPeer lib invite dialed).1.pendingDials =
      dialsBegun lib (seedRendezvousInvite lib d.status invite).network invite.peerId dialed
        d.pendingDials := by
  by_cases hparse : (lib.parseMultiaddr (resolveRankedDialTarget lib
      (seedRendezvousInvite lib d.status invite).network invite.peerId).primary).isSome = true
  · have hdial : d.dialFoundPeer lib invite dialed =
        (d.withStatus fun status => seedRendezvousInvite lib status invite).dialRankedTarget
          (resolveRankedDialTarget lib (seedRendezvousInvite lib d.status invite).network
            invite.peerId) dialed := if_pos hparse
    rw [hdial, dialRankedTarget_dials]
    unfold dialsBegun
    simp only [hparse, and_true]
    rfl
  · have hkept : d.dialFoundPeer lib invite dialed =
        (d.withStatus fun status => seedRendezvousInvite lib status invite, []) := if_neg hparse
    rw [hkept]
    unfold dialsBegun
    exact (if_neg fun h => hparse h.2).symm

theorem onFoundRecord_dials (d : Daemon κ) (query : Nat) (invite : CompactInviteV1)
    (dialed : Bool) : (d.onFoundRecord lib query invite dialed).1.pendingDials =
      if d.adopts query invite then
        dialsBegun lib (seedRendezvousInvite lib d.status invite).network invite.peerId dialed
          d.pendingDials
      else d.pendingDials := by
  obtain ⟨lookup, hfound⟩ := @onFoundRecord_eq κ lib d query invite dialed
  rw [hfound]
  split_ifs
  · exact dialFoundPeer_dials (d.setLookup query lookup) invite dialed
  · rfl

theorem onOutgoingConnectionError_dials (d : Daemon κ) (peer : Option (PeerId lib)) (dialed : Bool) :
    (d.onOutgoingConnectionError lib (peer.map PeerId.text) dialed).1.pendingDials =
      d.dialsAfter (.outgoingConnectionError peer dialed : Event κ lib) := by
  cases peer with
  | none => rfl
  | some peer =>
    unfold onOutgoingConnectionError dialsAfter
    simp only [Option.map_some, Option.bind_some, withStatus]
    cases hpending : d.pendingDials peer.text with
    | none => rfl
    | some pending =>
      obtain ⟨currentAddress, fallbackAddresses⟩ := pending
      cases fallbackAddresses with
      | nil => rfl
      | cons next rest =>
        dsimp only
        split_ifs
        · rfl
        · rfl

theorem onIdentifyReceived_dials (d : Daemon κ) (peerId : String) (info : IdentifyInfo) :
    (d.onIdentifyReceived lib peerId info).pendingDials = d.pendingDials := by
  simp only [onIdentifyReceived]
  split_ifs
  · rfl
  · rfl
  · rfl
  · rfl
  · rfl
  · rfl

theorem applyApprovedSessionHello_dials (d : Daemon κ) (peerId : String) (hello : SessionHello)
    (channel : Nat) : (d.applyApprovedSessionHello lib peerId hello channel).1.pendingDials =
      d.pendingDials := by
  have hqueued := queueMedia_dials
    (d.withStatus fun status => applySessionHello lib status peerId hello) (.registerPeer peerId)
  simp only [applyApprovedSessionHello]
  split_ifs
  · exact hqueued
  · rw [openFlow_dials]
    exact hqueued

theorem onMediaRequest_dials (π : Profile) (d : Daemon κ) (peerId : String)
    (request : MediaRequest) :
    (d.onMediaRequest π lib peerId request).1.pendingDials = d.pendingDials := by
  have hcall : ∀ frame : MediaFrame, (d.callMedia fun status peers =>
      handleIncomingFrame π status peers peerId frame).2.pendingDials = d.pendingDials := fun frame =>
    (d.callMedia_mediaOnly fun _ _ _ _ _ h => (handleIncomingFrame_callFor h).status).dials
  cases request with
  | frame frame => exact hcall frame
  | relayedFrame destination frame =>
    simp only [onMediaRequest]
    split_ifs
    · exact hcall frame
    · rfl
    · rfl

theorem onSendMediaFrame_dials (π : Profile) (d : Daemon κ) (peerId : String) (pcm : κ.Pcm)
    (nowMs : UInt64) :
    (d.onSendMediaFrame π lib peerId pcm nowMs).1.pendingDials = d.pendingDials := by
  have hbuild : ∀ (b : Daemon κ) (q : String), (b.callMedia fun status peers =>
      buildNextAudioFrame π status peers q pcm nowMs).2.pendingDials = b.pendingDials := fun b q =>
    (b.callMedia_mediaOnly fun _ _ _ _ _ h => (buildNextAudioFrame_callFor h).1.status).dials
  simp only [onSendMediaFrame]
  split_ifs
  · rfl
  · simp only [runMediaTick]
    split
    · dsimp only [scheduleMediaTick, withStatus]
      split_ifs
      · exact hbuild _ peerId
      · rfl
    · split_ifs
      · rfl
      · dsimp only [scheduleMediaTick, withStatus]
        exact hbuild _ _
    · rfl
  · rfl

theorem handle_dials (π : Profile) (d : Daemon κ) (e : Event κ lib) :
    (d.handle π lib e).1.pendingDials = d.dialsAfter e := by
  cases e with
  | connectionEstablished peer endpoint => exact onConnectionEstablished_dials d peer.text endpoint
  | connectionClosed peer n => exact onConnectionClosed_dials d peer.text n
  | outgoingConnectionError peer dialed => exact onOutgoingConnectionError_dials d peer dialed
  | identifyReceived peer info => exact onIdentifyReceived_dials d peer.text info
  | foundRecord query invite dialed => exact onFoundRecord_dials d query invite dialed
  | sessionHello peer hello channel =>
    simp only [handle, onSessionHello]
    split_ifs
    · exact applyApprovedSessionHello_dials _ peer.text hello channel
    · rfl
  | sessionHelloAck peer hello =>
    simp only [handle, onSessionHelloAck]
    split_ifs
    · rfl
    · rw [openFlow_dials, queueMedia_dials]
      rfl
  | mediaRequest peer request => exact onMediaRequest_dials π d peer.text request
  | mediaResponse peer response =>
    cases response with
    | ack ack => exact queueMedia_dials d _
    | relayAck destination ack => exact queueMedia_dials d _
    | relayDenied destination reason => rfl
  | dial address query dialed => exact dialPeer_dials d address query dialed
  | approvePendingPeer peerId whitelist =>
    cases hheld : d.pendingInboundApprovals peerId with
    | none => simp only [handle, approvePendingPeer, hheld, dialsAfter]
    | some pending =>
      simp only [handle, approvePendingPeer, hheld]
      exact applyApprovedSessionHello_dials _ peerId pending.hello pending.channel
  | rejectPendingPeer peerId =>
    cases hheld : d.pendingInboundApprovals peerId with
    | none => simp only [handle, rejectPendingPeer, hheld, dialsAfter]
    | some pending => simp only [handle, rejectPendingPeer, hheld, dialsAfter]
  | sendMediaFrame peerId pcm nowMs => exact onSendMediaFrame_dials π d peerId pcm nowMs
  | mediaCommand => exact d.runNextMediaCommand_mediaOnly.dials
  | playout now peerIds => exact (onPlayout_mediaOnly π d now peerIds).dials
  | followUp index =>
    cases hf : d.followUps[index]? with
    | none => simp only [handle, hf, dialsAfter]
    | some followUp => simp only [handle, hf, dialsAfter]
  | _ => rfl

end

end Daemon

end Voicers
