import Voicers.Network.AddressBook
import Voicers.Network.PendingDials

/-! A daemon in its own book. An invite or record of its own, pasted or found,
is not told from those of others. -/

namespace Voicers

open Lib

variable {κ : Codec} {lib : Libp2p}

/-- The peer a text names that is in nobody's entry. -/
def dialTarget (lib : Libp2p) (address : String) : Option String :=
  ((lib.parseMultiaddr (trim address)).bind multiaddrPeerId).or
    (if lib.isPeerId (trim address) then some (trim address) else none)

/-- The book does not know the text, which is an address of the peer. -/
def DialsUnknown (lib : Libp2p) (network : NetworkSummary) (address peerId : String) : Prop :=
  trim address ∉ network.knownIds ∧ (lib.parseMultiaddr (trim address)).isSome = true ∧
    dialTarget lib address = some peerId

/-- The daemon neither knows itself nor is about to dial itself. -/
def SelfFree (h : Host κ) : Prop :=
  h.status.localPeerId ∉ h.status.network.knownIds ∧
    h.daemon.pendingDials h.status.localPeerId = none

/-- The event enters the daemon in its own book. -/
def Daemon.EntersSelf (d : Daemon κ) : Event κ lib → Prop
  | .connectionEstablished peer _ =>
    peer.text = d.status.localPeerId ∧ d.surfaces peer.text = true
  | .foundRecord query invite _ =>
    d.adopts query invite = true ∧ invite.peerId = d.status.localPeerId
  | .seedInviteHints invite => invite.peerId = d.status.localPeerId
  | .sessionHelloAck peer _ =>
    peer.text = d.status.localPeerId ∧ d.helloRequests peer.text ≠ 0
  | .approvePendingPeer peerId _ =>
    peerId = d.status.localPeerId ∧ (d.pendingInboundApprovals peerId).isSome = true
  | _ => False

/-- The event begins a dial of the daemon itself. -/
def Daemon.DialsSelf (d : Daemon κ) : Event κ lib → Prop
  | .foundRecord query invite dialed =>
    d.adopts query invite = true ∧ dialed = true ∧ trim invite.peerId ≠ invite.peerId ∧
      DialsUnknown lib d.status.network invite.peerId d.status.localPeerId
  | .dial address _ dialed =>
    dialed = true ∧ DialsUnknown lib d.status.network address d.status.localPeerId
  | _ => False

/-- No event takes the daemon for one of its peers, and a start has an id that
its file does not know. -/
def KeepsSelfFree (x : HostTransition κ lib) : Prop :=
  match x.input with
  | .event e => ¬ x.before.daemon.EntersSelf e ∧ ¬ x.before.daemon.DialsSelf e
  | .restart index _ localPeerId => ∀ file, x.before.fileAt index = some file →
      localPeerId ∉ file.knownPeers.map KnownPeerSummary.peerId
  | _ => True

section

variable {network : NetworkSummary} {address peerId : String} {write : Option AddressWrite}
  {cards : List DialCard}

theorem knownIds_eq_cards : network.knownIds = network.cards.map DialCard.peerId := by
  rw [NetworkSummary.cards, List.map_map]
  rfl

theorem mem_ids_writeCards : peerId ∈ (writeCards write cards).map DialCard.peerId ↔
    peerId ∈ cards.map DialCard.peerId ∨ ∃ w, write = some w ∧ w.peerId = peerId := by
  cases write with
  | none => simp [writeCards]
  | some w =>
    have hids : (writeCards (some w) cards).map DialCard.peerId =
        if cards.any (fun card => card.peerId = w.peerId) then cards.map DialCard.peerId
        else cards.map DialCard.peerId ++ [w.peerId] := map_updateOrPush fun _ _ => rfl
    rw [hids]
    split_ifs with hany
    · constructor
      · exact .inl
      · rintro (hold | ⟨_, hwrite, rfl⟩)
        · exact hold
        · obtain rfl := Option.some.inj hwrite
          obtain ⟨card, hcard, hid⟩ := List.any_eq_true.mp hany
          exact List.mem_map.mpr ⟨card, hcard, of_decide_eq_true hid⟩
    · simp [eq_comm]

theorem resolveRankedDialTarget_unknown (hunknown : peerId ∉ network.knownIds) :
    (lib.parseMultiaddr (resolveRankedDialTarget lib network address).primary).isSome = true ∧
        (resolveRankedDialTarget lib network address).peerId = some peerId ↔
      DialsUnknown lib network address peerId := by
  have hknownId : ∀ {id : String} {known : KnownPeerSummary},
      network.knownPeers.find? (fun p => p.peerId = id) = some known → id ∈ network.knownIds := by
    intro id known hfind
    have hid : known.peerId = id := by simpa using List.find?_some hfind
    exact hid ▸ List.mem_map_of_mem (List.mem_of_find?_eq_some hfind)
  unfold DialsUnknown dialTarget resolveRankedDialTarget
  dsimp only
  cases hrequested : network.knownPeers.find? (fun p => p.peerId = trim address) with
  | some known =>
    have hid : known.peerId = trim address := by simpa using List.find?_some hrequested
    constructor
    · rintro ⟨_, hpeer⟩
      obtain rfl := hid.symm.trans (Option.some.inj hpeer)
      exact absurd (hknownId hrequested) hunknown
    · rintro ⟨habsent, _⟩
      exact absurd (hknownId hrequested) habsent
  | none =>
    have habsent : trim address ∉ network.knownIds := by
      simpa [NetworkSummary.knownIds] using hrequested
    cases (lib.parseMultiaddr (trim address)).bind multiaddrPeerId with
    | some parsed =>
      dsimp only
      cases hparsed : network.knownPeers.find? (fun p => p.peerId = parsed) with
      | some known =>
        have hne : some parsed ≠ some peerId := by
          rintro ⟨⟩
          exact hunknown (hknownId hparsed)
        exact iff_of_false (fun h => hne h.2) fun h => hne h.2.2
      | none => exact ⟨fun h => ⟨habsent, h.1, h.2⟩, fun h => ⟨h.2.1, h.2.2⟩⟩
    | none =>
      dsimp only
      rw [Option.none_or]
      split_ifs
      · exact ⟨fun h => ⟨habsent, h.1, h.2⟩, fun h => ⟨h.2.1, h.2.2⟩⟩
      · exact ⟨fun h => ⟨habsent, h.1, h.2⟩, fun h => ⟨h.2.1, h.2.2⟩⟩

theorem dialsBegun_none_iff {dialed : Bool} {dials : String → Option PendingDial}
    (hunknown : peerId ∉ network.knownIds) (hnone : dials peerId = none) :
    dialsBegun lib network address dialed dials peerId = none ↔
      ¬ (dialed = true ∧ DialsUnknown lib network address peerId) := by
  rw [← resolveRankedDialTarget_unknown hunknown]
  unfold dialsBegun
  split_ifs with hdials
  · obtain ⟨hdialed, hparses⟩ := hdials
    cases htarget : (resolveRankedDialTarget lib network address).peerId with
    | none => exact iff_of_true hnone fun h => absurd h.2.2 (Option.some_ne_none _).symm
    | some target =>
      dsimp only
      by_cases hsame : peerId = target
      · subst hsame
        simp [hdialed, hparses]
      · rw [Function.update_of_ne hsame]
        exact iff_of_true hnone fun h => hsame (Option.some.inj h.2.2).symm
  · exact iff_of_true hnone fun h => hdials ⟨h.1, h.2.1⟩

end

section

variable {d : Daemon κ} {e : Event κ lib} {peerId : String}

/-- A write under the daemon's own id. -/
def Daemon.WritesSelf (d : Daemon κ) (e : Event κ lib) : Prop :=
  ∃ w, d.addressWrite e = some w ∧ w.peerId = d.status.localPeerId

theorem touchWrite_self {state : DaemonStatus} {touched : Option String} {localId : String}
    (hallowed : localId ∉ state.network.ignoredPeerIds) :
    (∃ w, touchWrite lib state peerId touched = some w ∧ w.peerId = localId) ↔ peerId = localId := by
  constructor
  · rintro ⟨w, hwrite, rfl⟩
    exact (touchWrite_peerId hwrite).symm
  · rintro rfl
    exact ⟨_, if_neg hallowed, rfl⟩

/-- Who is listed or known is not the daemon itself. -/
theorem ne_self_of_surfaced (hbooked : Booked d.status)
    (hfree : d.status.localPeerId ∉ d.status.network.knownIds)
    (hsurfaced : shouldSurfaceApprovedPeer d.status peerId = true) :
    peerId ≠ d.status.localPeerId := by
  rintro rfl
  rcases Bool.or_eq_true_iff.mp hsurfaced with hlisted | hknown
  · obtain ⟨peer, hpeer, hid⟩ := List.any_eq_true.mp hlisted
    exact hfree (hbooked _ (List.mem_map.mpr ⟨peer, hpeer, of_decide_eq_true hid⟩))
  · exact hfree (any_known_iff.mp hknown)

theorem surfaced_of_gate (hgate : d.passesGate peerId = true) :
    shouldSurfaceApprovedPeer d.status peerId = true := by
  refine Bool.or_eq_true_iff.mpr ?_
  rcases Bool.or_eq_true_iff.mp hgate with hlisted | hwhitelisted
  · left
    obtain ⟨peer, hpeer, hid⟩ := List.any_eq_true.mp hlisted
    exact List.any_eq_true.mpr ⟨peer, hpeer, (Bool.and_eq_true_iff.mp hid).1⟩
  · right
    rw [← isSome_knownPeer?]
    cases hknown : d.status.knownPeer? peerId with
    | some entry => rfl
    | none => simp [shouldGatePeerApproval, isPeerWhitelisted, hknown] at hwhitelisted

theorem writesSelf_iff (hunique : BookUnique d.status) (hbooked : Booked d.status)
    (hfree : d.status.localPeerId ∉ d.status.network.knownIds) :
    d.WritesSelf e ↔ d.EntersSelf e := by
  have hallowed : d.status.localPeerId ∉ d.status.network.ignoredPeerIds :=
    fun hignored => hfree (hunique.ignoredKnown _ hignored)
  have hno : ∀ {peerId : String} {touched : Option String},
      shouldSurfaceApprovedPeer d.status peerId = true →
      ¬ ∃ w, touchWrite lib d.status peerId touched = some w ∧ w.peerId = d.status.localPeerId := by
    intro peerId touched hsurfaced hwrites
    exact ne_self_of_surfaced hbooked hfree hsurfaced ((touchWrite_self hallowed).mp hwrites)
  have hnone : ¬ ∃ w : AddressWrite, False ∧ w.peerId = d.status.localPeerId := by
    rintro ⟨w, hsome, _⟩
    exact hsome
  unfold Daemon.WritesSelf
  cases e with
  | connectionEstablished peer endpoint =>
    dsimp only [Daemon.addressWrite]
    split_ifs with hs
    · rw [touchWrite_self hallowed]
      exact (and_iff_left hs).symm
    · exact iff_of_false hnone fun h => hs h.2
  | identifyReceived peer info =>
    dsimp only [Daemon.addressWrite]
    split_ifs with hs
    · exact iff_of_false (hno hs) id
    · exact iff_of_false hnone id
  | foundRecord query invite dialed =>
    dsimp only [Daemon.addressWrite]
    split_ifs with hadopts
    · simp [Daemon.EntersSelf, hadopts]
    · exact iff_of_false hnone fun h => hadopts h.1
  | sessionHello peer hello channel =>
    dsimp only [Daemon.addressWrite]
    split_ifs with hgate
    · exact iff_of_false (hno (surfaced_of_gate hgate)) id
    · exact iff_of_false hnone id
  | sessionHelloAck peer hello =>
    dsimp only [Daemon.addressWrite]
    split_ifs with hzero
    · exact iff_of_false hnone fun h => h.2 hzero
    · rw [touchWrite_self hallowed]
      exact (and_iff_left hzero).symm
  | approvePendingPeer approved whitelist =>
    dsimp only [Daemon.addressWrite]
    split_ifs with hheld
    · rw [touchWrite_self hallowed]
      exact (and_iff_left hheld).symm
    · exact iff_of_false hnone fun h => hheld h.2
  | seedInviteHints invite => simp [Daemon.addressWrite, Daemon.EntersSelf]
  | saveKnownPeer saved =>
    refine iff_of_false ?_ id
    rintro ⟨w, hwrite, hself⟩
    obtain ⟨live, hlive, _, _, rfl⟩ := (addressWrite_saveKnownPeer_iff hbooked).mp hwrite
    exact hfree (hself ▸ hbooked saved (DaemonStatus.mem_peerIds_of_peer? hlive))
  | _ =>
    refine iff_of_false ?_ id
    rintro ⟨w, hsome, _⟩
    cases hsome

end

section

variable {d : Daemon κ} {e : Event κ lib}

theorem statusAfter_self_iff (hunique : BookUnique d.status) (hbooked : Booked d.status)
    (hfree : d.status.localPeerId ∉ d.status.network.knownIds) :
    d.status.localPeerId ∉ (d.statusAfter e).network.knownIds ↔ ¬ d.EntersSelf e := by
  rw [← writesSelf_iff hunique hbooked hfree, knownIds_eq_cards, statusAfter_cards,
    mem_ids_writeCards, ← knownIds_eq_cards, or_iff_right hfree]
  rfl

theorem dialsAfter_self_iff (hfree : d.status.localPeerId ∉ d.status.network.knownIds)
    (hnone : d.pendingDials d.status.localPeerId = none) (henters : ¬ d.EntersSelf e) :
    d.dialsAfter e d.status.localPeerId = none ↔ ¬ d.DialsSelf e := by
  cases e with
  | connectionEstablished peer endpoint =>
    refine iff_of_true ?_ id
    by_cases hself : d.status.localPeerId = peer.text
    · rw [Daemon.dialsAfter, ← hself, Function.update_self]
    · rw [Daemon.dialsAfter, Function.update_of_ne hself]
      exact hnone
  | outgoingConnectionError peer dialed =>
    refine iff_of_true ?_ id
    cases peer with
    | none => exact hnone
    | some peer =>
      cases hpending : d.pendingDials peer.text with
      | none => simpa only [Daemon.dialsAfter, Option.map_some, hpending] using hnone
      | some pending =>
        have hother : d.status.localPeerId ≠ peer.text := by
          intro hself
          rw [← hself, hnone] at hpending
          cases hpending
        obtain ⟨currentAddress, fallbackAddresses⟩ := pending
        cases fallbackAddresses with
        | nil => simpa only [Daemon.dialsAfter, Option.map_some, hpending] using hnone
        | cons next rest =>
          simp only [Daemon.dialsAfter, Option.map_some, hpending]
          rw [Function.update_of_ne hother]
          exact hnone
  | foundRecord query invite dialed =>
    simp only [Daemon.dialsAfter, Daemon.DialsSelf]
    split_ifs with hadopts
    · have hother : invite.peerId ≠ d.status.localPeerId := fun h => henters ⟨hadopts, h⟩
      have hseeded : ∀ id, id ∈ (seedRendezvousInvite lib d.status invite).network.knownIds ↔
          id ∈ d.status.network.knownIds ∨ invite.peerId = id := by
        intro id
        rw [knownIds_eq_cards, seedRendezvousInvite_cards, mem_ids_writeCards, ← knownIds_eq_cards]
        simp
      have hunknown : d.status.localPeerId ∉
          (seedRendezvousInvite lib d.status invite).network.knownIds := by
        rw [hseeded]
        rintro (hknown | hnamed)
        · exact hfree hknown
        · exact hother hnamed
      rw [dialsBegun_none_iff hunknown hnone]
      unfold DialsUnknown
      rw [hseeded, not_or]
      refine not_congr ⟨?_, ?_⟩
      · rintro ⟨hdialed, ⟨habsent, htrimmed⟩, hparses⟩
        exact ⟨hadopts, hdialed, fun heq => htrimmed heq.symm, habsent, hparses⟩
      · rintro ⟨_, hdialed, htrimmed, habsent, hparses⟩
        exact ⟨hdialed, ⟨habsent, fun heq => htrimmed heq.symm⟩, hparses⟩
    · exact iff_of_true hnone fun h => hadopts h.1
  | dial address query dialed => exact dialsBegun_none_iff hfree hnone
  | _ => exact iff_of_true hnone id

end

section

variable {π : Profile} {h : Host κ} {x : HostTransition κ lib}

theorem step_keepsSelfFree_iff (hstep : x.before.step π x.input = some (x.output, x.after))
    (hrost : Rostered x.before) (hself : SelfFree x.before) :
    SelfFree x.after ↔ KeepsSelfFree x := by
  have hmove := HostMove.of_step hstep
  obtain ⟨before, input, output, after⟩ := x
  dsimp only at hstep hmove hrost hself
  cases hmove with
  | event e _ _ _ hsame hledger =>
    obtain ⟨_, _, heq⟩ := Option.map_eq_some_iff.mp hstep
    obtain ⟨_, rfl⟩ := Prod.mk.inj heq
    have hlocal := congrArg Ledger.localPeerId hledger
    rw [Daemon.ledgerAfter_localPeerId] at hlocal
    have hdials := Daemon.handle_dials π before.daemon e
    dsimp only [Daemon.ledger] at hlocal
    unfold SelfFree KeepsSelfFree
    dsimp only [Host.status] at hsame hlocal ⊢
    rw [hlocal, hdials, hsame.network,
      statusAfter_self_iff hrost.unique.status hrost.booked hself.1]
    exact and_congr_right (dialsAfter_self_iff hself.1 hself.2)
  | pathOutcome path peerId success => exact iff_of_true hself trivial
  | save localDisplayName => exact iff_of_true hself trivial
  | restart index displayName localPeerId file hfile =>
    constructor
    · intro hafter file' hfile'
      obtain rfl := Option.some.inj (hfile.symm.trans hfile')
      exact hafter.1
    · exact fun hkeeps => ⟨hkeeps file hfile, rfl⟩

/-- A daemon is in its own book at no point of a run exactly when no step
takes it for one of its peers. -/
theorem self_free_iff {displayName localPeerId : String} {tr : List (HostTransition κ lib)}
    (hrun : HostRun π displayName localPeerId tr h) :
    (∀ x ∈ tr, SelfFree x.before ∧ SelfFree x.after) ↔ ∀ x ∈ tr, KeepsSelfFree x := by
  have hstart : SelfFree (Host.start (κ := κ) displayName localPeerId) :=
    ⟨List.not_mem_nil, rfl⟩
  refine hrun.invariant_iff_under (fun _ _ _ _ hrost hstep => hrost.step hstep) ?_
    (rostered_start displayName localPeerId) hstart
  exact fun x hstep hrost hself => step_keepsSelfFree_iff hstep hrost hself

end

/-- The user pastes the daemon's own invite. -/
def ownInvite : List (HostEvent silentCodec sampleLibp2p) :=
  [.event (.seedInviteHints { callInvite with peerId := localPeer })]

theorem ownInvite_known :
    (hostRun .release "local-user" localPeer ownInvite).map (fun r =>
      (r.1.length, r.2.status.localPeerId, r.2.status.network.knownIds)) =
      some (1, localPeer, [localPeer]) := by
  decide +kernel

theorem ownInvite_not_self_free :
    ¬ ∀ (tr : List (HostTransition silentCodec sampleLibp2p)) (h : Host silentCodec),
      HostRun .release "local-user" localPeer tr h → SelfFree h := by
  intro hall
  obtain ⟨⟨tr, h⟩, hrun, hknown⟩ := Option.map_eq_some_iff.mp ownInvite_known
  obtain ⟨_, hbook⟩ := Prod.mk.inj hknown
  obtain ⟨hlocal, hids⟩ := Prod.mk.inj hbook
  refine (hall tr h (hostRun_trace hrun)).1 ?_
  dsimp only at hlocal hids
  rw [hlocal, hids]
  exact List.mem_singleton_self localPeer

theorem self_free_iff_ownInvite :
    ∃ tr : List (HostTransition silentCodec sampleLibp2p), tr.length = 1 ∧
      ((∀ x ∈ tr, SelfFree x.before ∧ SelfFree x.after) ↔ ∀ x ∈ tr, KeepsSelfFree x) := by
  obtain ⟨⟨tr, h⟩, hrun, hknown⟩ := Option.map_eq_some_iff.mp ownInvite_known
  exact ⟨tr, (Prod.mk.inj hknown).1, self_free_iff (hostRun_trace hrun)⟩

end Voicers
