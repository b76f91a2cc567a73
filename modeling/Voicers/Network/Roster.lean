import Voicers.Network.PeerBook

/-! The list of peers after each event, and what places and books it: a listed
peer has an entry in the peer book, and its output bus is numbered by its
place in the list. -/

namespace Voicers

open Lib

variable {κ : Codec} {lib : Libp2p}

/-- The listed peers after an Identify message that is surfaced. -/
def identifiedPeers (state : DaemonStatus) (peerId : String) (info : IdentifyInfo) :
    List PeerSummary :=
  updateOrPush (fun peer => peer.peerId = peerId)
    (fun peer => { peer with
      address := info.listenAddrs.headD "<unknown>"
      displayName := if info.agentVersion = "" then "peer " ++ shortPeerId peerId
        else info.agentVersion
      transport := .connected })
    (newPeer (state.peers.length + 1) peerId (info.listenAddrs.headD "<unknown>")) state.peers

def Endpoint.dialAddress (endpoint : Endpoint) : String :=
  if endpoint.dialer then endpoint.remoteAddress else ""

def outputBusName (index : Nat) : String := "peer_bus_" ++ twoDigits index

/-- The places of the listed peers number their buses. -/
def BusesNumbered (peers : List PeerSummary) : Prop :=
  peers.map PeerSummary.outputBus = (List.range peers.length).map fun index => outputBusName (index + 1)

/-- Every listed peer is in the book. -/
def Booked (status : DaemonStatus) : Prop :=
  ∀ id ∈ status.peerIds, id ∈ status.network.knownIds

namespace Daemon

def peersAfter (d : Daemon κ) : Event κ lib → List PeerSummary
  | .connectionEstablished peer endpoint =>
    if shouldSurfaceConnectedPeer d.status peer.text (d.pendingDials peer.text).isSome then
      Voicers.connectedPeers d.status peer.text endpoint.dialAddress
    else d.status.peers
  | .connectionClosed peer numEstablished => (closeStatus d.status peer.text numEstablished).peers
  | .identifyReceived peer info =>
    if shouldSurfaceApprovedPeer d.status peer.text then identifiedPeers d.status peer.text info
    else d.status.peers
  | .ping peer => updateFirst (fun p => p.peerId = peer.text)
      (fun p => { p with transport := .connected }) d.status.peers
  | .sessionHello peer hello _ =>
    if d.passesGate peer.text then greetedPeers d.status peer.text hello else d.status.peers
  | .sessionHelloAck peer hello =>
    if d.helloRequests peer.text = 0 then d.status.peers else greetedPeers d.status peer.text hello
  | .approvePendingPeer peerId _ => match d.pendingInboundApprovals peerId with
    | none => d.status.peers
    | some pending => greetedPeers d.status peerId pending.hello
  | .renameKnownPeer peerId displayName => updateFirst (fun p => p.peerId = peerId)
      (fun p => { p with displayName := displayName }) d.status.peers
  | .toggleMutePeer peerId => updateFirst (fun p => p.peerId = peerId)
      (fun p => { p with muted := !p.muted }) d.status.peers
  | .setPeerVolumePercent peerId percent => updateFirst (fun p => p.peerId = peerId)
      (fun p => { p with outputVolumePercent := min percent 200 }) d.status.peers
  | _ => d.status.peers

end Daemon

section

variable {state : DaemonStatus} {peerId : String}

theorem renameKnownPeer_listed (displayName : String) :
    (renameKnownPeer state peerId displayName).2.peers = updateFirst (fun p => p.peerId = peerId)
      (fun p => { p with displayName := displayName }) state.peers := by
  unfold renameKnownPeer
  dsimp only
  split_ifs with hrenamed
  · rfl
  · refine (updateFirst_eq_self fun peer hpeer => ?_).symm
    dsimp only at hpeer
    have hlisted : state.peers.any (fun p => p.peerId = peerId) = true :=
      List.any_eq_true.mpr ⟨peer, List.mem_of_find?_eq_some hpeer,
        by simpa using List.find?_some hpeer⟩
    simp [hlisted] at hrenamed

theorem identifiedStatus_peers (info : IdentifyInfo) :
    (Daemon.identifiedStatus lib state peerId info).peers =
      if shouldSurfaceApprovedPeer state peerId then identifiedPeers state peerId info
      else state.peers := by
  unfold Daemon.identifiedStatus
  rw [Daemon.noteObserved_peers]
  by_cases hs : shouldSurfaceApprovedPeer state peerId = true
  · rw [if_pos hs, if_pos hs, updateKnownPeer_peers]
    rfl
  · rw [if_neg hs, if_neg hs]

end

namespace Daemon

theorem approvedStatus_peers (d : Daemon κ) (peerId : String) (hello : SessionHello) :
    (d.approvedStatus lib peerId hello).peers = greetedPeers d.status peerId hello := by
  rw [← applySessionHello_peers lib d.status peerId hello]
  unfold approvedStatus
  dsimp only
  split_ifs
  · rfl
  · rfl

theorem rowsAfter_peers (d : Daemon κ) (e : Event κ lib) : (d.rowsAfter e).peers = d.peersAfter e := by
  cases e with
  | connectionEstablished peer endpoint =>
    simp only [rowsAfter, statusAfter, establishedStatus, peersAfter]
    by_cases hs : shouldSurfaceConnectedPeer d.status peer.text
        (d.pendingDials peer.text).isSome = true
    · rw [if_pos hs, if_pos hs, upsertPeer_peers]
      rfl
    · rw [if_neg hs, if_neg hs]
      rfl
  | identifyReceived peer info => exact identifiedStatus_peers info
  | foundRecord query invite dialed =>
    obtain ⟨network, hnetwork⟩ := seedRendezvousInvite_network lib d.status invite
    simp only [rowsAfter, statusAfter, hnetwork, peersAfter]
    split_ifs
    · rfl
    · rfl
  | sessionHello peer hello channel =>
    simp only [rowsAfter, statusAfter, peersAfter]
    split_ifs
    · exact approvedStatus_peers d peer.text hello
    · unfold queuePendingPeerApproval
      dsimp only
      split_ifs
      · rfl
      · rfl
  | sessionHelloAck peer hello =>
    simp only [rowsAfter, statusAfter, peersAfter]
    split_ifs
    · rfl
    · exact applySessionHello_peers lib d.status peer.text hello
  | approvePendingPeer peerId whitelist =>
    cases hheld : d.pendingInboundApprovals peerId with
    | none => simp only [rowsAfter, statusAfter, peersAfter, hheld]
    | some pending =>
      simp only [rowsAfter, statusAfter, peersAfter, hheld]
      exact approvedStatus_peers d peerId pending.hello
  | rejectPendingPeer peerId =>
    simp only [rowsAfter, statusAfter, peersAfter]
    split_ifs
    · rfl
    · rfl
  | followUp index =>
    simp only [rowsAfter, statusAfter, peersAfter]
    split
    · rfl
    · exact runFollowUp_peers d.status _
  | saveKnownPeer peerId => exact saveKnownPeer_peers d.status peerId
  | renameKnownPeer peerId displayName => exact renameKnownPeer_listed displayName
  | forgetKnownPeer peerId => exact forgetKnownPeer_peers d.status peerId
  | setTrustedContact peerId trusted => exact setTrustedContact_peers d.status peerId trusted
  | _ => rfl

end Daemon

section

variable {state : DaemonStatus} {peers : List PeerSummary} {peerId : String}
  {f : PeerSummary → PeerSummary}

theorem BusesNumbered.of_map {peers' : List PeerSummary} (h : BusesNumbered peers)
    (hsame : peers'.map PeerSummary.outputBus = peers.map PeerSummary.outputBus) :
    BusesNumbered peers' := by
  have hlength := congrArg List.length hsame
  rw [List.length_map, List.length_map] at hlength
  unfold BusesNumbered
  rw [hsame, hlength]
  exact h

theorem BusesNumbered.updateFirst {test : PeerSummary → Bool} (h : BusesNumbered peers)
    (hf : ∀ peer, (f peer).outputBus = peer.outputBus) : BusesNumbered (updateFirst test f peers) :=
  h.of_map (map_updateFirst fun peer _ => hf peer)

/-- A peer that is listed anew gets the number of its place. -/
theorem BusesNumbered.updateOrPush {test : PeerSummary → Bool} {address : String}
    (h : BusesNumbered peers) (hf : ∀ peer, (f peer).outputBus = peer.outputBus) :
    BusesNumbered (updateOrPush test f (newPeer (peers.length + 1) peerId address) peers) := by
  unfold Lib.updateOrPush
  split_ifs
  · exact h.updateFirst hf
  · unfold BusesNumbered at h ⊢
    rw [List.map_append, h, List.length_append, List.length_singleton, List.range_succ,
      List.map_append, List.map_singleton, List.map_singleton, hf]
    rfl

theorem BusesNumbered.connected (h : BusesNumbered state.peers) (address : String) :
    BusesNumbered (connectedPeers state peerId address) := h.updateOrPush fun _ => rfl

theorem BusesNumbered.greeted (h : BusesNumbered state.peers) (hello : SessionHello) :
    BusesNumbered (greetedPeers state peerId hello) := h.updateOrPush fun _ => rfl

theorem BusesNumbered.identified (h : BusesNumbered state.peers) (info : IdentifyInfo) :
    BusesNumbered (identifiedPeers state peerId info) := h.updateOrPush fun _ => rfl

theorem any_known_iff : state.network.knownPeers.any (fun entry => entry.peerId = peerId) = true ↔
    peerId ∈ state.network.knownIds := by
  simp [NetworkSummary.knownIds]

/-- A closed connection takes nobody off the list: who is listed is known. -/
theorem closeStatus_listed (hbooked : Booked state) (n : Nat) :
    (Daemon.closeStatus state peerId n).peers = updateFirst (fun peer => peer.peerId = peerId)
      (fun peer => { peer with transport := if n = 0 then .disconnected else .connected })
      state.peers := by
  refine if_neg ?_
  rintro ⟨_, hlisted, hunknown, _⟩
  obtain ⟨peer, hpeer, _⟩ := (Option.any_eq_true _ _).mp hlisted
  exact hunknown (any_known_iff.mpr (hbooked _ (DaemonStatus.mem_peerIds_of_peer? hpeer)))

theorem Daemon.peersAfter_buses (d : Daemon κ) (e : Event κ lib) (hbooked : Booked d.status)
    (h : BusesNumbered d.status.peers) : BusesNumbered (d.peersAfter e) := by
  cases e with
  | connectionEstablished peer endpoint =>
    simp only [peersAfter]
    split_ifs
    · exact h.connected endpoint.dialAddress
    · exact h
  | connectionClosed peer n =>
    simp only [peersAfter]
    rw [closeStatus_listed hbooked]
    exact h.updateFirst fun _ => rfl
  | identifyReceived peer info =>
    simp only [peersAfter]
    split_ifs
    · exact h.identified info
    · exact h
  | sessionHello peer hello channel =>
    simp only [peersAfter]
    split_ifs
    · exact h.greeted hello
    · exact h
  | sessionHelloAck peer hello =>
    simp only [peersAfter]
    split_ifs
    · exact h
    · exact h.greeted hello
  | approvePendingPeer peerId whitelist =>
    simp only [peersAfter]
    split
    · exact h
    · exact h.greeted _
  | ping peer => exact h.updateFirst fun _ => rfl
  | renameKnownPeer peerId displayName => exact h.updateFirst fun _ => rfl
  | toggleMutePeer peerId => exact h.updateFirst fun _ => rfl
  | setPeerVolumePercent peerId percent => exact h.updateFirst fun _ => rfl
  | _ => exact h

end

section

variable {state : DaemonStatus} {peerId : String}

theorem mem_known_updateKnownPeer
    (hignored : peerId ∈ state.network.ignoredPeerIds → peerId ∈ state.network.knownIds)
    (address displayName : Option String) (connected seen : Bool) :
    peerId ∈ (updateKnownPeer lib state peerId address displayName connected seen).network.knownIds := by
  rw [updateKnownPeer_eq]
  split_ifs with hmem
  · exact hignored hmem
  · refine List.mem_map.mpr ?_
    exact exists_updateOrPush_of (fun entry hid => of_decide_eq_true hid) rfl

theorem mem_known_upsertPeer (hunique : BookUnique state) (address : String) :
    peerId ∈ (upsertPeer lib state peerId address).network.knownIds := by
  obtain ⟨savedPeerAddrs, displayName, htouched⟩ := upsertPeer_touched lib state peerId address
  rw [htouched]
  refine mem_known_updateKnownPeer ?_ _ _ _ _
  exact hunique.ignoredKnown peerId

theorem mem_known_applySessionHello (hunique : BookUnique state) (hello : SessionHello) :
    peerId ∈ (applySessionHello lib state peerId hello).network.knownIds := by
  obtain ⟨address, htouched⟩ := applySessionHello_touched lib state peerId hello
  rw [htouched]
  refine mem_known_updateKnownPeer ?_ _ _ _ _
  exact hunique.ignoredKnown peerId

theorem approvedStatus_network (d : Daemon κ) (hello : SessionHello) :
    (d.approvedStatus lib peerId hello).network =
      (applySessionHello lib d.status peerId hello).network := by
  unfold Daemon.approvedStatus
  dsimp only
  split_ifs
  · rfl
  · rfl

theorem Booked.mono {s t : DaemonStatus} (hbooked : Booked s)
    (hbook : s.network.knownIds <+: t.network.knownIds)
    (hpeers : ∀ id ∈ t.peerIds, id ∈ s.peerIds ∨ id ∈ t.network.knownIds) : Booked t := by
  intro id hid
  rcases hpeers id hid with hold | hknown
  · exact hbook.subset (hbooked id hold)
  · exact hknown

theorem Daemon.rowsAfter_network (d : Daemon κ) (e : Event κ lib) :
    (d.rowsAfter e).network = (d.statusAfter e).network := by
  cases e with
  | _ => rfl

/-- A listed peer is one that was listed before, or one that the event books. -/
theorem Daemon.peersAfter_ids (d : Daemon κ) (e : Event κ lib) (hunique : BookUnique d.status) :
    ∀ id ∈ (d.peersAfter e).map PeerSummary.peerId,
      id ∈ d.status.peerIds ∨ id ∈ (d.rowsAfter e).network.knownIds := by
  have hentered : ∀ {peerId : String} {f : PeerSummary → PeerSummary} {new : PeerSummary},
      (∀ peer, (f peer).peerId = peer.peerId) → new.peerId = peerId →
      peerId ∈ (d.rowsAfter e).network.knownIds →
      ∀ id ∈ (updateOrPush (fun peer => peer.peerId = peerId) f new d.status.peers).map
        PeerSummary.peerId, id ∈ d.status.peerIds ∨ id ∈ (d.rowsAfter e).network.knownIds := by
    intro peerId f new hf hnew hknown id hid
    rcases mem_peerIds_updateOrPush hf hnew hid with hold | rfl
    · exact .inl hold
    · exact .inr hknown
  have hkept : ∀ {test : PeerSummary → Bool} {f : PeerSummary → PeerSummary},
      (∀ peer, (f peer).peerId = peer.peerId) →
      ∀ id ∈ (updateFirst test f d.status.peers).map PeerSummary.peerId,
        id ∈ d.status.peerIds ∨ id ∈ (d.rowsAfter e).network.knownIds := by
    intro test f hf id hid
    rw [map_updateFirst fun peer _ => hf peer] at hid
    exact .inl hid
  have hsame : ∀ id ∈ d.status.peers.map PeerSummary.peerId,
      id ∈ d.status.peerIds ∨ id ∈ (d.rowsAfter e).network.knownIds := fun _ hid => .inl hid
  cases e with
  | connectionEstablished peer endpoint =>
    simp only [peersAfter]
    split_ifs with hs
    · refine hentered (fun _ => rfl) rfl ?_
      have hscored := (recordPathScore_keepsBook d.status
        (if endpoint.isRelayed then libp2pRelayPath else libp2pDirectPath) (some peer.text) true
        hunique).1
      simp only [rowsAfter, statusAfter, establishedStatus]
      rw [if_pos hs]
      exact mem_known_upsertPeer hscored _
    · exact hsame
  | connectionClosed peer n => exact fun id hid => .inl (closeStatus_peerIds n hid)
  | identifyReceived peer info =>
    simp only [peersAfter]
    split_ifs with hs
    · refine hentered (fun _ => rfl) rfl ?_
      simp only [rowsAfter, statusAfter, identifiedStatus]
      rw [if_pos hs]
      obtain ⟨observedAddrs, htouched⟩ := noteObserved_touched (updateKnownPeer lib
        (getOrInsertPeer d.status peer.text (info.listenAddrs.headD "<unknown>") fun peer' =>
          { peer' with
            displayName := if info.agentVersion = "" then "peer " ++ shortPeerId peer.text
              else info.agentVersion
            transport := .connected })
        peer.text none (some (if info.agentVersion = "" then "peer " ++ shortPeerId peer.text
          else info.agentVersion)) true false) info.observedAddr
      rw [htouched]
      refine mem_known_updateKnownPeer ?_ _ _ _ _
      exact hunique.ignoredKnown peer.text
    · exact hsame
  | sessionHello peer hello channel =>
    simp only [peersAfter]
    split_ifs with hgate
    · refine hentered (fun _ => rfl) rfl ?_
      simp only [rowsAfter, statusAfter, if_pos hgate, approvedStatus_network]
      exact mem_known_applySessionHello hunique hello
    · exact hsame
  | sessionHelloAck peer hello =>
    simp only [peersAfter]
    split_ifs with hzero
    · exact hsame
    · refine hentered (fun _ => rfl) rfl ?_
      simp only [rowsAfter, statusAfter, if_neg hzero]
      exact mem_known_applySessionHello hunique hello
  | approvePendingPeer peerId whitelist =>
    cases hheld : d.pendingInboundApprovals peerId with
    | none =>
      simp only [peersAfter, hheld]
      exact hsame
    | some pending =>
      simp only [peersAfter, hheld]
      refine hentered (fun _ => rfl) rfl ?_
      simp only [rowsAfter, statusAfter, hheld, approvedStatus_network]
      exact mem_known_applySessionHello hunique pending.hello
  | ping peer => exact hkept fun _ => rfl
  | renameKnownPeer peerId displayName => exact hkept fun _ => rfl
  | toggleMutePeer peerId => exact hkept fun _ => rfl
  | setPeerVolumePercent peerId percent => exact hkept fun _ => rfl
  | _ => exact hsame

theorem Daemon.rowsAfter_booked (d : Daemon κ) (e : Event κ lib) (hunique : BookUnique d.status)
    (hbooked : Booked d.status) : Booked (d.rowsAfter e) := by
  refine hbooked.mono ?_ ?_
  · rw [d.rowsAfter_network e]
    exact (statusAfter_keepsBook d e hunique).2
  · intro id hid
    rw [DaemonStatus.peerIds, d.rowsAfter_peers e] at hid
    exact d.peersAfter_ids e hunique id hid

end

/-- The list is in the book and its places number the buses. -/
structure Rostered (h : Host κ) : Prop where
  unique : HostUnique h
  booked : Booked h.status
  buses : BusesNumbered h.status.peers

section

theorem ofDigitChars_twoDigits (index : Nat) :
    Nat.ofDigitChars 10 (twoDigits index).toList 0 = index := by
  have hdigits : (toString index).toList = Nat.toDigits 10 index := by
    rw [Nat.toString_eq_ofList_toDigits, String.toList_ofList]
  unfold twoDigits
  split_ifs
  · rw [String.toList_append, hdigits]
    exact Nat.ofDigitChars_ten_toDigits
  · rw [hdigits]
    exact Nat.ofDigitChars_ten_toDigits

theorem outputBusName_injective : Function.Injective outputBusName := by
  intro a b hname
  have htext := congrArg String.toList hname
  simp only [outputBusName, String.toList_append] at htext
  have hdigits := List.append_cancel_left htext
  rw [← ofDigitChars_twoDigits a, ← ofDigitChars_twoDigits b, hdigits]

theorem BusesNumbered.nodup {peers : List PeerSummary} (h : BusesNumbered peers) :
    (peers.map PeerSummary.outputBus).Nodup := by
  rw [h]
  refine List.Nodup.map (fun a b hname => ?_) List.nodup_range
  have hindex := outputBusName_injective hname
  exact Nat.succ.inj hindex

variable {s t : DaemonStatus} {π : Profile} {h : Host κ}

theorem DaemonStatus.SameRows.outputBuses (hsame : s.SameRows t) :
    t.peers.map PeerSummary.outputBus = s.peers.map PeerSummary.outputBus := by
  have hbuses := congrArg (List.map PeerRow.outputBus) hsame.rows
  rw [List.map_map, List.map_map] at hbuses
  exact hbuses

theorem DaemonStatus.SameRows.booked (hsame : s.SameRows t) (hbooked : Booked s) : Booked t := by
  unfold Booked DaemonStatus.peerIds
  rw [hsame.contacts.peerIds, hsame.contacts.network]
  exact hbooked

theorem Host.step_rows {e : Event κ lib} {o : List (Effect κ)} {h' : Host κ}
    (hstep : h.step π (.event e) = some (o, h')) :
    (h.daemon.rowsAfter e).SameRows h'.status := by
  obtain ⟨_, _, heq⟩ := Option.map_eq_some_iff.mp hstep
  obtain ⟨_, rfl⟩ := Prod.mk.inj heq
  exact Daemon.handle_rows π h.daemon e

theorem rostered_start (displayName localPeerId : String) :
    Rostered (Host.start (κ := κ) displayName localPeerId) where
  unique := hostUnique_start displayName localPeerId
  booked := fun _ hid => absurd hid List.not_mem_nil
  buses := rfl

theorem Rostered.step {e : HostEvent κ lib} {o : List (Effect κ)} {h' : Host κ} (hrost : Rostered h)
    (hstep : h.step π e = some (o, h')) : Rostered h' := by
  have hmove := HostMove.of_step hstep
  refine ⟨hmove.unique hrost.unique, ?_, ?_⟩
  · cases hmove with
    | event e =>
      exact (Host.step_rows hstep).booked
        (h.daemon.rowsAfter_booked e hrost.unique.status hrost.booked)
    | pathOutcome path peerId success => exact hrost.booked
    | save localDisplayName => exact hrost.booked
    | restart index displayName localPeerId file hfile =>
      exact fun _ hid => absurd hid List.not_mem_nil
  · cases hmove with
    | event e =>
      refine BusesNumbered.of_map ?_ (Host.step_rows hstep).outputBuses
      rw [h.daemon.rowsAfter_peers e]
      exact h.daemon.peersAfter_buses e hrost.booked hrost.buses
    | pathOutcome path peerId success => exact hrost.buses
    | save localDisplayName => exact hrost.buses
    | restart index displayName localPeerId file hfile => rfl

theorem HostRun.rostered {displayName localPeerId : String} {tr : List (HostTransition κ lib)}
    (hrun : HostRun π displayName localPeerId tr h) : Rostered h :=
  hrun.invariant (fun _ _ _ _ hrost hstep => hrost.step hstep)
    (rostered_start displayName localPeerId)

/-- No two listed peers are routed to the same bus. -/
theorem output_buses_distinct {displayName localPeerId : String} {tr : List (HostTransition κ lib)}
    (hrun : HostRun π displayName localPeerId tr h) :
    (h.status.peers.map PeerSummary.outputBus).Nodup :=
  hrun.rostered.buses.nodup

end

/-- Two peers whose invites the user has pasted come and go. -/
def twoCallers : List (HostEvent silentCodec sampleLibp2p) :=
  [.event (.seedInviteHints callInvite),
    .event (.seedInviteHints { callInvite with peerId := relayPeer }),
    .event (.connectionEstablished remote incoming), .event (.connectionEstablished relay incoming),
    .event (.connectionClosed remote 0), .event (.connectionEstablished remote incoming)]

theorem output_buses_distinct_twoCallers :
    ∃ (tr : List (HostTransition silentCodec sampleLibp2p)) (h : Host silentCodec),
      HostRun .release "local-user" localPeer tr h ∧
        h.status.peers.map PeerSummary.outputBus = ["peer_bus_01", "peer_bus_02"] ∧
        (h.status.peers.map PeerSummary.outputBus).Nodup := by
  have h : (hostRun .release "local-user" localPeer twoCallers).map (fun r =>
      r.2.status.peers.map PeerSummary.outputBus) = some ["peer_bus_01", "peer_bus_02"] := by
    decide +kernel
  obtain ⟨⟨tr, h⟩, hrun, hbuses⟩ := Option.map_eq_some_iff.mp h
  exact ⟨tr, h, hostRun_trace hrun, hbuses, output_buses_distinct (hostRun_trace hrun)⟩

end Voicers
