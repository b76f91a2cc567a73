import Voicers.Network.Roster

/-! The addresses in the peer book. Each event writes those of one peer at
most; a new entry is one that is written. -/

namespace Voicers

open Lib

variable {κ : Codec} {lib : Libp2p}

/-- An entry of the book as far as its addresses go. -/
structure DialCard where
  peerId : String
  addresses : List String
  lastDialAddr : Option String
deriving DecidableEq

def KnownPeerSummary.card (entry : KnownPeerSummary) : DialCard where
  peerId := entry.peerId
  addresses := entry.addresses
  lastDialAddr := entry.lastDialAddr

def NetworkSummary.cards (network : NetworkSummary) : List DialCard :=
  network.knownPeers.map KnownPeerSummary.card

/-- Addresses that are entered for a peer; the last dialed one is replaced, or
kept when there is one. -/
structure AddressWrite where
  peerId : String
  addresses : List String
  lastDial : Option String
  replaces : Bool
deriving DecidableEq

def AddressWrite.apply (w : AddressWrite) (card : DialCard) : DialCard :=
  { card with
    addresses := w.addresses.foldl pushUnique card.addresses
    lastDialAddr := if w.replaces then w.lastDial.or card.lastDialAddr
      else card.lastDialAddr.or w.lastDial }

def writeCards (write : Option AddressWrite) (cards : List DialCard) : List DialCard :=
  match write with
  | none => cards
  | some w => updateOrPush (fun card => card.peerId = w.peerId) w.apply ⟨w.peerId, [], none⟩ cards

/-- What `update_known_peer` writes. -/
def touchWrite (lib : Libp2p) (state : DaemonStatus) (peerId : String) (address : Option String) :
    Option AddressWrite :=
  let normalizedAddr := address.bind fun addr => shareableAddress lib addr peerId
  if peerId ∈ state.network.ignoredPeerIds then none
  else some ⟨peerId, normalizedAddr.toList, normalizedAddr, true⟩

/-- The addresses of an invite that is pasted, as they enter the book. -/
def hintedAddrs (invite : CompactInviteV1) : List String := (invite.addrs.map trim).filter (· ≠ "")

namespace Daemon

/-- The peer's connection is more than transport. -/
def surfaces (d : Daemon κ) (peerId : String) : Bool :=
  shouldSurfaceConnectedPeer d.status peerId (d.pendingDials peerId).isSome

def addressWrite (d : Daemon κ) : Event κ lib → Option AddressWrite
  | .connectionEstablished peer endpoint =>
    if d.surfaces peer.text then touchWrite lib d.status peer.text (some endpoint.dialAddress)
    else none
  | .identifyReceived peer _ =>
    if shouldSurfaceApprovedPeer d.status peer.text then touchWrite lib d.status peer.text none
    else none
  | .foundRecord query invite _ =>
    if d.adopts query invite then
      some ⟨invite.peerId, usableAddrs lib invite, (usableAddrs lib invite).getLast?, true⟩
    else none
  | .sessionHello peer _ _ =>
    if d.passesGate peer.text then
      touchWrite lib d.status peer.text (some (d.status.listedAddress peer.text))
    else none
  | .sessionHelloAck peer _ =>
    if d.helloRequests peer.text = 0 then none
    else touchWrite lib d.status peer.text (some (d.status.listedAddress peer.text))
  | .approvePendingPeer peerId _ =>
    if (d.pendingInboundApprovals peerId).isSome then
      touchWrite lib d.status peerId (some (d.status.listedAddress peerId))
    else none
  | .seedInviteHints invite =>
    some ⟨invite.peerId, hintedAddrs invite, (hintedAddrs invite).head?, false⟩
  | .saveKnownPeer peerId => match d.status.knownPeer? peerId, d.status.peer? peerId with
    | _, none => none
    | some _, some live =>
      if live.address ≠ "" ∧ live.address ≠ "<unknown>" then
        some ⟨peerId, [live.address], some live.address, true⟩
      else none
    | none, some live =>
      if live.address ≠ "<unknown>" then some ⟨peerId, [live.address], some live.address, true⟩
      else some ⟨peerId, [], none, true⟩
  | _ => none

/-- The addresses an event enters in the list of all. -/
def savedAddrs (d : Daemon κ) : Event κ lib → List String
  | .connectionEstablished peer endpoint =>
    if d.surfaces peer.text ∧ endpoint.dialAddress ≠ "<unknown>" then [endpoint.dialAddress] else []
  | .foundRecord query invite _ => if d.adopts query invite then usableAddrs lib invite else []
  | .seedInviteHints invite => hintedAddrs invite
  | _ => []

end Daemon

section

variable {state : DaemonStatus} {peerId : String} {known : List KnownPeerSummary}

theorem touchWrite_peerId {touched : Option String} {w : AddressWrite}
    (h : touchWrite lib state peerId touched = some w) : w.peerId = peerId := by
  obtain ⟨_, heq⟩ := Option.ite_none_left_eq_some.mp h
  obtain rfl := Option.some.inj heq
  rfl

theorem cards_updateFirst {p : KnownPeerSummary → Bool} {f : KnownPeerSummary → KnownPeerSummary}
    (hf : ∀ entry, (f entry).card = entry.card) :
    (updateFirst p f known).map KnownPeerSummary.card = known.map KnownPeerSummary.card :=
  map_updateFirst fun entry _ => hf entry

theorem touchedEntry_card (address displayName : Option String) (connected seen : Bool)
    (entry : KnownPeerSummary) :
    (touchedEntry lib peerId address displayName connected seen entry).card =
      AddressWrite.apply ⟨peerId, (address.bind fun addr => shareableAddress lib addr peerId).toList,
        address.bind fun addr => shareableAddress lib addr peerId, true⟩ entry.card := by
  cases hnormal : address.bind fun addr => shareableAddress lib addr peerId with
  | none => simp [touchedEntry, KnownPeerSummary.card, AddressWrite.apply, hnormal]
  | some addr => simp [touchedEntry, KnownPeerSummary.card, AddressWrite.apply, hnormal]

theorem updateKnownPeer_cards (address displayName : Option String) (connected seen : Bool) :
    (updateKnownPeer lib state peerId address displayName connected seen).network.cards =
      writeCards (touchWrite lib state peerId address) state.network.cards := by
  unfold touchWrite
  dsimp only
  rw [updateKnownPeer_eq]
  split_ifs
  · rfl
  · exact map_updateOrPush_view (fun _ => rfl) fun entry =>
      touchedEntry_card address displayName connected seen entry

theorem updateKnownPeer_saved (address displayName : Option String) (connected seen : Bool) :
    (updateKnownPeer lib state peerId address displayName connected seen).network.savedPeerAddrs =
      state.network.savedPeerAddrs := by
  rw [updateKnownPeer_eq]
  split_ifs
  · rfl
  · rfl

theorem applySessionHello_cards (hello : SessionHello) :
    (applySessionHello lib state peerId hello).network.cards =
      writeCards (touchWrite lib state peerId (some (state.listedAddress peerId)))
        state.network.cards := by
  rw [applySessionHello_eq, updateKnownPeer_cards]
  rfl

theorem applySessionHello_saved (hello : SessionHello) :
    (applySessionHello lib state peerId hello).network.savedPeerAddrs =
      state.network.savedPeerAddrs := by
  rw [applySessionHello_eq, updateKnownPeer_saved]

theorem upsertPeer_cards (address : String) :
    (upsertPeer lib state peerId address).network.cards =
      writeCards (touchWrite lib state peerId (some address)) state.network.cards := by
  obtain ⟨displayName, htouched⟩ := upsertPeer_eq lib state peerId address
  rw [htouched, updateKnownPeer_cards]
  rfl

theorem upsertPeer_saved (address : String) :
    (upsertPeer lib state peerId address).network.savedPeerAddrs =
      if address = "<unknown>" then state.network.savedPeerAddrs
      else pushUnique state.network.savedPeerAddrs address := by
  obtain ⟨displayName, htouched⟩ := upsertPeer_eq lib state peerId address
  rw [htouched, updateKnownPeer_saved]

theorem foldl_notedEntry_card (peerId : String) (addrs : List String) (entry : KnownPeerSummary) :
    (addrs.foldl (fun entry address => notedEntry address entry) entry).card =
      AddressWrite.apply ⟨peerId, addrs, addrs.getLast?, true⟩ entry.card := by
  rw [foldl_notedEntry]
  rfl

/-- A record first touches the entry, which leaves its addresses alone. -/
theorem seedRendezvousInvite_cards (invite : CompactInviteV1) :
    (seedRendezvousInvite lib state invite).network.cards = writeCards (some
      ⟨invite.peerId, usableAddrs lib invite, (usableAddrs lib invite).getLast?, true⟩)
        state.network.cards := by
  have hunignored : invite.peerId ∉ (unignore state invite.peerId).network.ignoredPeerIds := by
    simp [unignore]
  have htouched : (updateKnownPeer lib (unignore state invite.peerId) invite.peerId
      none none false false).network.cards =
        writeCards (touchWrite lib (unignore state invite.peerId) invite.peerId none)
          (unignore state invite.peerId).network.cards :=
    updateKnownPeer_cards none none false false
  unfold touchWrite at htouched
  dsimp only at htouched
  rw [if_neg hunignored] at htouched
  rw [seedRendezvousInvite_noted]
  refine (map_updateFirst_view (r := fun card : DialCard => card.peerId = invite.peerId)
    (fun _ => rfl) fun entry => foldl_notedEntry_card invite.peerId _ entry).trans ?_
  refine (congrArg (updateFirst _ _) htouched).trans ?_
  refine (updateFirst_updateOrPush (fun _ => id) (by simp [AddressWrite.apply])).trans ?_
  refine congrArg (fun f => updateOrPush _ f _ _) (funext fun card => ?_)
  simp [AddressWrite.apply]

theorem seedRendezvousInvite_saved (invite : CompactInviteV1) :
    (seedRendezvousInvite lib state invite).network.savedPeerAddrs =
      (usableAddrs lib invite).foldl pushUnique state.network.savedPeerAddrs := by
  rw [seedRendezvousInvite_noted]
  dsimp only
  rw [updateKnownPeer_saved]
  rfl

theorem seedInviteHints_cards (invite : CompactInviteV1) :
    (seedInviteHints state invite).network.cards = writeCards (some
      ⟨invite.peerId, hintedAddrs invite, (hintedAddrs invite).head?, false⟩)
        state.network.cards := by
  rw [seedInviteHints_eq]
  refine map_updateOrPush_view (fun _ => rfl) fun entry => ?_
  rw [hintedEntry_eq]
  rfl

theorem closeStatus_cards (n : Nat) :
    (Daemon.closeStatus state peerId n).network.cards = state.network.cards :=
  cards_updateFirst fun _ => rfl

theorem noteObserved_addresses (status : DaemonStatus) (observedAddr : String) :
    (Daemon.noteObserved status observedAddr).network.cards = status.network.cards ∧
      (Daemon.noteObserved status observedAddr).network.savedPeerAddrs =
        status.network.savedPeerAddrs := by
  obtain ⟨observedAddrs, htouched⟩ := Daemon.noteObserved_touched status observedAddr
  rw [htouched]
  exact ⟨rfl, rfl⟩

theorem identifiedStatus_cards (info : IdentifyInfo) :
    (Daemon.identifiedStatus lib state peerId info).network.cards =
      writeCards (if shouldSurfaceApprovedPeer state peerId then touchWrite lib state peerId none
        else none) state.network.cards := by
  unfold Daemon.identifiedStatus
  rw [(noteObserved_addresses _ _).1]
  by_cases hs : shouldSurfaceApprovedPeer state peerId = true
  · rw [if_pos hs, if_pos hs]
    exact updateKnownPeer_cards none _ true false
  · rw [if_neg hs, if_neg hs]
    rfl

theorem identifiedStatus_saved (info : IdentifyInfo) :
    (Daemon.identifiedStatus lib state peerId info).network.savedPeerAddrs =
      state.network.savedPeerAddrs := by
  unfold Daemon.identifiedStatus
  rw [(noteObserved_addresses _ _).2]
  by_cases hs : shouldSurfaceApprovedPeer state peerId = true
  · rw [if_pos hs]
    exact updateKnownPeer_saved none _ true false
  · rw [if_neg hs]

theorem establishedStatus_addresses (d : Daemon κ) (peerId : String) (endpoint : Endpoint) :
    (d.establishedStatus lib peerId endpoint).network.cards =
        writeCards (if d.surfaces peerId then
          touchWrite lib d.status peerId (some endpoint.dialAddress) else none)
          d.status.network.cards ∧
      (d.establishedStatus lib peerId endpoint).network.savedPeerAddrs =
        if d.surfaces peerId ∧ endpoint.dialAddress ≠ "<unknown>" then
          pushUnique d.status.network.savedPeerAddrs endpoint.dialAddress
        else d.status.network.savedPeerAddrs := by
  unfold Daemon.establishedStatus
  dsimp only
  by_cases hs : d.surfaces peerId = true
  · rw [if_pos hs, if_pos (show shouldSurfaceConnectedPeer _ _ _ = true from hs), upsertPeer_cards,
      upsertPeer_saved]
    refine ⟨rfl, ?_⟩
    by_cases hunknown : endpoint.dialAddress = "<unknown>"
    · exact (if_pos hunknown).trans (if_neg fun h => h.2 hunknown).symm
    · exact (if_neg hunknown).trans (if_pos ⟨hs, hunknown⟩).symm
  · rw [if_neg hs, if_neg (show ¬ shouldSurfaceConnectedPeer _ _ _ = true from hs)]
    exact ⟨rfl, (if_neg fun h => hs h.1).symm⟩

theorem saveKnownPeer_cards (d : Daemon κ) (peerId : String) :
    (saveKnownPeer d.status peerId).2.network.cards =
      writeCards (d.addressWrite (.saveKnownPeer peerId : Event κ lib)) d.status.network.cards := by
  have happend : ∀ w : AddressWrite, w.peerId = peerId → d.status.knownPeer? peerId = none →
      writeCards (some w) d.status.network.cards =
        d.status.network.cards ++ [w.apply ⟨w.peerId, [], none⟩] := by
    rintro w rfl hknown
    refine if_neg fun hany => ?_
    obtain ⟨card, hcard, hid⟩ := List.any_eq_true.mp hany
    obtain ⟨entry, hentry, rfl⟩ := List.mem_map.mp hcard
    refine (knownPeer?_eq_none_iff d.status w.peerId).mp hknown ?_
    exact List.mem_map.mpr ⟨entry, hentry, of_decide_eq_true hid⟩
  cases hknown : d.status.knownPeer? peerId with
  | some entry =>
    rw [saveKnownPeer_known d.status peerId (by simp [hknown])]
    have hlisted : d.status.network.cards.any (fun card => card.peerId = peerId) = true := by
      refine List.any_eq_true.mpr ⟨entry.card, List.mem_map_of_mem (List.mem_of_find?_eq_some hknown), ?_⟩
      have hid := List.find?_some hknown
      exact hid
    cases hlive : d.status.peer? peerId with
    | none =>
      simp only [Daemon.addressWrite, hknown, hlive]
      exact cards_updateFirst fun _ => rfl
    | some live =>
      simp only [Daemon.addressWrite, hknown, hlive]
      split_ifs with husable
      · refine Eq.trans ?_ (updateOrPush_of_any hlisted).symm
        refine map_updateFirst_view (fun _ => rfl) fun entry => ?_
        simp only [savedEntry, if_pos husable]
        rfl
      · refine cards_updateFirst fun entry => ?_
        simp only [savedEntry, if_neg husable]
        rfl
  | none =>
    cases hlive : d.status.peer? peerId with
    | none =>
      rw [saveKnownPeer_none d.status peerId hknown hlive]
      simp only [Daemon.addressWrite, hknown, hlive]
      rfl
    | some live =>
      have hid := DaemonStatus.peerId_of_peer? hlive
      rw [saveKnownPeer_live d.status peerId hknown hlive]
      simp only [Daemon.addressWrite, hknown, hlive]
      split_ifs with husable
      · rw [happend ⟨peerId, [live.address], some live.address, true⟩ rfl hknown]
        simp [NetworkSummary.cards, withKnown, NetworkSummary.refreshUserViews, unignore, liveEntry,
          husable, KnownPeerSummary.card, AddressWrite.apply, pushUnique, hid]
      · rw [happend ⟨peerId, [], none, true⟩ rfl hknown]
        simp [NetworkSummary.cards, withKnown, NetworkSummary.refreshUserViews, unignore, liveEntry,
          husable, KnownPeerSummary.card, AddressWrite.apply, hid]

/-- Who is listed is known, so that a save enters no unchecked address. -/
theorem addressWrite_saveKnownPeer_iff {d : Daemon κ} {w : AddressWrite} (hbooked : Booked d.status) :
    d.addressWrite (.saveKnownPeer peerId : Event κ lib) = some w ↔
      ∃ live, d.status.peer? peerId = some live ∧ live.address ≠ "" ∧
        live.address ≠ "<unknown>" ∧ w = ⟨peerId, [live.address], some live.address, true⟩ := by
  constructor
  · intro hwrite
    cases hlive : d.status.peer? peerId with
    | none =>
      simp only [Daemon.addressWrite, hlive] at hwrite
      cases hwrite
    | some live =>
      cases hknown : d.status.knownPeer? peerId with
      | none =>
        have hlisted := DaemonStatus.mem_peerIds_of_peer? hlive
        exact absurd (hbooked peerId hlisted) ((knownPeer?_eq_none_iff d.status peerId).mp hknown)
      | some entry =>
        simp only [Daemon.addressWrite, hlive, hknown] at hwrite
        obtain ⟨⟨hsome, hnamed⟩, heq⟩ := Option.ite_none_right_eq_some.mp hwrite
        exact ⟨live, rfl, hsome, hnamed, (Option.some.inj heq).symm⟩
  · rintro ⟨live, hlive, hsome, hnamed, rfl⟩
    cases hknown : d.status.knownPeer? peerId with
    | none =>
      have hlisted := DaemonStatus.mem_peerIds_of_peer? hlive
      exact absurd (hbooked peerId hlisted) ((knownPeer?_eq_none_iff d.status peerId).mp hknown)
    | some entry => simp only [Daemon.addressWrite, hlive, hknown, if_pos (And.intro hsome hnamed)]

theorem renameKnownPeer_cards (displayName : String) :
    (renameKnownPeer state peerId displayName).2.network.cards = state.network.cards := by
  unfold renameKnownPeer
  dsimp only
  split_ifs
  · exact cards_updateFirst fun _ => rfl
  · rfl

theorem forgetKnownPeer_cards :
    (forgetKnownPeer state peerId).2.network.cards = state.network.cards := by
  unfold forgetKnownPeer
  split_ifs
  · exact cards_updateFirst fun _ => rfl
  · rfl

theorem setTrustedContact_cards (trusted : Bool) :
    (setTrustedContact state peerId trusted).2.network.cards = state.network.cards := by
  unfold setTrustedContact
  split_ifs
  · exact cards_updateFirst fun _ => rfl
  · rfl

theorem runFollowUp_cards (followUp : FollowUp) :
    (Daemon.runFollowUp state followUp).network.cards = state.network.cards := by
  cases followUp with
  | approved peerId whitelist =>
    unfold Daemon.runFollowUp
    dsimp only
    split_ifs
    · exact cards_updateFirst fun _ => rfl
    · rfl
  | rejected peerId => rfl

end

/-- The addresses of the book after an event. -/
theorem statusAfter_cards (d : Daemon κ) (e : Event κ lib) :
    (d.statusAfter e).network.cards = writeCards (d.addressWrite e) d.status.network.cards := by
  cases e with
  | connectionEstablished peer endpoint => exact (establishedStatus_addresses d _ endpoint).1
  | connectionClosed peer n => exact closeStatus_cards n
  | identifyReceived peer info => exact identifiedStatus_cards info
  | foundRecord query invite dialed =>
    simp only [Daemon.statusAfter, Daemon.addressWrite]
    split_ifs
    · exact seedRendezvousInvite_cards invite
    · rfl
  | sessionHello peer hello channel =>
    simp only [Daemon.statusAfter, Daemon.addressWrite]
    by_cases hgate : d.passesGate peer.text = true
    · rw [if_pos hgate, if_pos hgate, approvedStatus_network, applySessionHello_cards]
    · rw [if_neg hgate, if_neg hgate]
      unfold queuePendingPeerApproval
      dsimp only
      split_ifs
      · rfl
      · rfl
  | sessionHelloAck peer hello =>
    simp only [Daemon.statusAfter, Daemon.addressWrite]
    split_ifs
    · rfl
    · exact applySessionHello_cards hello
  | approvePendingPeer peerId whitelist =>
    cases hheld : d.pendingInboundApprovals peerId with
    | none =>
      simp only [Daemon.statusAfter, Daemon.addressWrite, hheld]
      rfl
    | some pending =>
      simp only [Daemon.statusAfter, Daemon.addressWrite, hheld, Option.isSome_some, if_true]
      rw [approvedStatus_network, applySessionHello_cards]
  | rejectPendingPeer peerId =>
    simp only [Daemon.statusAfter, Daemon.addressWrite]
    split_ifs
    · rfl
    · rfl
  | followUp index =>
    simp only [Daemon.statusAfter, Daemon.addressWrite]
    split
    · rfl
    · exact runFollowUp_cards _
  | seedInviteHints invite => exact seedInviteHints_cards invite
  | saveKnownPeer peerId => exact saveKnownPeer_cards d peerId
  | renameKnownPeer peerId displayName => exact renameKnownPeer_cards displayName
  | forgetKnownPeer peerId => exact forgetKnownPeer_cards
  | setTrustedContact peerId trusted => exact setTrustedContact_cards trusted
  | _ => rfl

theorem saveKnownPeer_saved (state : DaemonStatus) (peerId : String) :
    (saveKnownPeer state peerId).2.network.savedPeerAddrs = state.network.savedPeerAddrs := by
  cases hknown : state.knownPeer? peerId with
  | some entry =>
    rw [saveKnownPeer_known state peerId (by simp [hknown])]
    rfl
  | none =>
    cases hlive : state.peer? peerId with
    | none =>
      rw [saveKnownPeer_none state peerId hknown hlive]
      rfl
    | some live =>
      rw [saveKnownPeer_live state peerId hknown hlive]
      rfl

theorem statusAfter_saved (d : Daemon κ) (e : Event κ lib) :
    (d.statusAfter e).network.savedPeerAddrs =
      (d.savedAddrs e).foldl pushUnique d.status.network.savedPeerAddrs := by
  cases e with
  | connectionEstablished peer endpoint =>
    refine (establishedStatus_addresses d _ endpoint).2.trans ?_
    simp only [Daemon.savedAddrs]
    split_ifs
    · rfl
    · rfl
  | identifyReceived peer info => exact identifiedStatus_saved info
  | foundRecord query invite dialed =>
    simp only [Daemon.statusAfter, Daemon.savedAddrs]
    split_ifs
    · exact seedRendezvousInvite_saved invite
    · rfl
  | sessionHello peer hello channel =>
    simp only [Daemon.statusAfter, Daemon.savedAddrs]
    split_ifs
    · rw [approvedStatus_network]
      exact applySessionHello_saved hello
    · unfold queuePendingPeerApproval
      dsimp only
      split_ifs
      · rfl
      · rfl
  | sessionHelloAck peer hello =>
    simp only [Daemon.statusAfter, Daemon.savedAddrs]
    split_ifs
    · rfl
    · exact applySessionHello_saved hello
  | approvePendingPeer peerId whitelist =>
    simp only [Daemon.statusAfter, Daemon.savedAddrs]
    split
    · rfl
    · rw [approvedStatus_network]
      exact applySessionHello_saved _
  | rejectPendingPeer peerId =>
    simp only [Daemon.statusAfter, Daemon.savedAddrs]
    split_ifs
    · rfl
    · rfl
  | followUp index =>
    simp only [Daemon.statusAfter, Daemon.savedAddrs]
    split
    · rfl
    · next followUp _ =>
      cases followUp with
      | approved peerId whitelist =>
        unfold Daemon.runFollowUp
        dsimp only
        split_ifs
        · rfl
        · rfl
      | rejected peerId => rfl
  | saveKnownPeer peerId => exact saveKnownPeer_saved d.status peerId
  | renameKnownPeer peerId displayName =>
    simp only [Daemon.statusAfter, Daemon.savedAddrs, renameKnownPeer]
    split_ifs
    · rfl
    · rfl
  | forgetKnownPeer peerId =>
    simp only [Daemon.statusAfter, Daemon.savedAddrs, forgetKnownPeer]
    split_ifs
    · rfl
    · rfl
  | setTrustedContact peerId trusted =>
    simp only [Daemon.statusAfter, Daemon.savedAddrs, setTrustedContact]
    split_ifs
    · rfl
    · rfl
  | _ => rfl

end Voicers
