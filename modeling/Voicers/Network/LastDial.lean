import Voicers.Network.AddressBook

/-! Where the last dialed address of a peer comes from. It is meant to be the
one a dial has last succeeded with, but hellos, records, pasted invites and
saved peers enter addresses that were never dialed. -/

namespace Voicers

open Lib

variable {κ : Codec} {lib : Libp2p}

/-- A dial of the address, up to the peer's id at its end, has succeeded. -/
def ProvenBy (peerId address : String) (x : HostTransition κ lib) : Prop :=
  ∃ peer endpoint, x.input = .event (.connectionEstablished peer endpoint) ∧
    peer.text = peerId ∧ endpoint.dialer = true ∧
    (address = endpoint.remoteAddress ∨ address = endpoint.remoteAddress ++ "/p2p/" ++ peerId)

def Proven (peerId address : String) (tr : List (HostTransition κ lib)) : Prop :=
  ∃ x ∈ tr, ProvenBy peerId address x

def ProvenEntries (tr : List (HostTransition κ lib)) (known : List KnownPeerSummary) : Prop :=
  ∀ entry ∈ known, ∀ address, entry.lastDialAddr = some address → Proven entry.peerId address tr

/-- The last dialed addresses of the book, and of the files that were written
from it, are proven. -/
structure LastDialsProven (tr : List (HostTransition κ lib)) (h : Host κ) : Prop where
  status : ProvenEntries tr h.status.network.knownPeers
  files : ∀ file ∈ h.files, ProvenEntries tr file.knownPeers

/-- The event enters the address as the last dialed one of the peer without a
dial that has succeeded. -/
def Daemon.EntersUndialed (d : Daemon κ) (peerId address : String) (e : Event κ lib) : Prop :=
  match e with
  | .connectionEstablished peer endpoint => peer.text = peerId ∧ endpoint.dialer = false ∧
      d.surfaces peerId = true ∧ peerId ∉ d.status.network.ignoredPeerIds ∧
      shareableAddress lib "" peerId = some address
  | .foundRecord query invite _ => invite.peerId = peerId ∧ d.adopts query invite = true ∧
      (usableAddrs lib invite).getLast? = some address
  | .seedInviteHints invite => invite.peerId = peerId ∧
      (∀ entry, d.status.knownPeer? peerId = some entry → entry.lastDialAddr = none) ∧
      (hintedAddrs invite).head? = some address
  | .saveKnownPeer saved => saved = peerId ∧ address ≠ "" ∧ address ≠ "<unknown>" ∧
      ∃ live, d.status.peer? peerId = some live ∧ live.address = address
  | e => d.Admits e peerId ∧ peerId ∉ d.status.network.ignoredPeerIds ∧
      shareableAddress lib (d.status.listedAddress peerId) peerId = some address

/-- An address that is entered without a dial has been proven before. -/
def KeepsProven (tr : List (HostTransition κ lib)) (x : HostTransition κ lib) : Prop :=
  ∀ e, x.input = .event e → ∀ peerId address,
    x.before.daemon.EntersUndialed peerId address e → Proven peerId address tr

/-- The write makes the address the last dialed one of its peer. -/
def AddressWrite.Sets (w : AddressWrite) (cards : List DialCard) (address : String) : Prop :=
  w.lastDial = some address ∧
    (w.replaces = true ∨ ∀ card ∈ cards, card.peerId = w.peerId → card.lastDialAddr = none)

section

variable {w : AddressWrite} {cards : List DialCard} {P : String → String → Prop}

/-- What holds of the last dialed addresses holds after a write exactly when
it holds of the address that the write sets. -/
theorem writeCards_lastDial_iff (hunique : (cards.map DialCard.peerId).Nodup)
    (hcards : ∀ card ∈ cards, ∀ a, card.lastDialAddr = some a → P card.peerId a) :
    (∀ card ∈ writeCards (some w) cards, ∀ a, card.lastDialAddr = some a → P card.peerId a) ↔
      ∀ a, w.Sets cards a → P w.peerId a := by
  constructor
  · rintro hafter a ⟨hlast, hsets⟩
    have hset : ∀ card ∈ cards, card.peerId = w.peerId →
        (w.apply card).peerId = w.peerId ∧ (w.apply card).lastDialAddr = some a := by
      intro card hcard hid
      refine ⟨hid, ?_⟩
      rcases hsets with hreplaces | hkept
      · simp [AddressWrite.apply, hreplaces, hlast]
      · simp [AddressWrite.apply, hkept card hcard hid, hlast]
    have hentered : ∃ card ∈ writeCards (some w) cards,
        card.peerId = w.peerId ∧ card.lastDialAddr = some a := by
      unfold writeCards updateOrPush
      dsimp only
      split_ifs with hany
      · exact exists_updateFirst_of (fun card hcard hid => hset card hcard (of_decide_eq_true hid)) hany
      · refine ⟨_, List.mem_append_right _ (List.mem_singleton_self _), rfl, ?_⟩
        simp [AddressWrite.apply, hlast]
    obtain ⟨card, hcard, hid, hnow⟩ := hentered
    exact hid ▸ hafter card hcard a hnow
  · intro hset card hcard a ha
    have hwritten : ∀ old : DialCard, (∀ b, old.lastDialAddr = some b → P w.peerId b) →
        (w.replaces = false → old.lastDialAddr = none →
          ∀ c ∈ cards, c.peerId = w.peerId → c.lastDialAddr = none) →
        (w.apply old).lastDialAddr = some a → P w.peerId a := by
      intro old hold hfirst hnow
      cases hreplaces : w.replaces with
      | true =>
        simp only [AddressWrite.apply, hreplaces, if_true] at hnow
        rcases Option.or_eq_some_iff.mp hnow with hnew | ⟨_, hkept⟩
        · exact hset a ⟨hnew, .inl hreplaces⟩
        · exact hold a hkept
      | false =>
        simp only [AddressWrite.apply, hreplaces, Bool.false_eq_true, if_false] at hnow
        rcases Option.or_eq_some_iff.mp hnow with hkept | ⟨hnone, hnew⟩
        · exact hold a hkept
        · exact hset a ⟨hnew, .inr (hfirst hreplaces hnone)⟩
    rcases mem_updateOrPush hcard with hold | ⟨old, hold, hid, rfl⟩ | ⟨habsent, rfl⟩
    · exact hcards card hold a ha
    · have hid : old.peerId = w.peerId := of_decide_eq_true hid
      refine (show P old.peerId a from hid ▸ hwritten old ?_ ?_ ha)
      · exact fun b hb => hid ▸ hcards old hold b hb
      · intro _ hnone c hc hcid
        rw [List.inj_on_of_nodup_map hunique hc hold (hcid.trans hid.symm)]
        exact hnone
    · refine hwritten _ (fun b hb => by cases hb) ?_ ha
      intro _ _ c hc hcid
      exact absurd (habsent c hc) (by simp [hcid])

end

section

variable {d : Daemon κ} {e : Event κ lib} {peerId address : String} {w : AddressWrite}
  {state : DaemonStatus} {cards : List DialCard}

theorem shareableAddress_cases {shared : String}
    (h : shareableAddress lib address peerId = some shared) :
    shared = address ∨ shared = address ++ "/p2p/" ++ peerId := by
  unfold shareableAddress at h
  split_ifs at h
  · split at h
    · cases h
    · split_ifs at h
      exact .inl (Option.some.inj h).symm
  · split at h
    · cases h
    · split_ifs at h
      exact .inr (Option.some.inj h).symm

theorem touchWrite_sets_iff {touched : Option String} :
    (∃ w, touchWrite lib state peerId touched = some w ∧ w.peerId = peerId ∧ w.Sets cards address) ↔
      peerId ∉ state.network.ignoredPeerIds ∧
        (touched.bind fun addr => shareableAddress lib addr peerId) = some address := by
  constructor
  · rintro ⟨w, hwrite, _, hlast, _⟩
    obtain ⟨hallowed, heq⟩ := Option.ite_none_left_eq_some.mp hwrite
    obtain rfl := Option.some.inj heq
    exact ⟨hallowed, hlast⟩
  · rintro ⟨hallowed, hlast⟩
    exact ⟨_, if_neg hallowed, rfl, hlast, .inl rfl⟩

theorem unset_iff (hunique : KnownUnique state.network.knownPeers) :
    (∀ card ∈ state.network.cards, card.peerId = peerId → card.lastDialAddr = none) ↔
      ∀ entry, state.knownPeer? peerId = some entry → entry.lastDialAddr = none := by
  rw [NetworkSummary.cards, List.forall_mem_map]
  constructor
  · intro hnone entry hentry
    have hid : entry.peerId = peerId := by simpa using List.find?_some hentry
    exact hnone entry (List.mem_of_find?_eq_some hentry) hid
  · rintro hnone entry hentry rfl
    exact hnone entry (find?_of_nodup hunique.ids hentry)

theorem entersUndialed_sets (hunique : BookUnique d.status) (hbooked : Booked d.status)
    (henters : d.EntersUndialed peerId address e) :
    ∃ w, d.addressWrite e = some w ∧ w.peerId = peerId ∧ w.Sets d.status.network.cards address := by
  cases e with
  | connectionEstablished peer endpoint =>
    obtain ⟨rfl, hinbound, hs, hallowed, hshared⟩ := henters
    have hempty : endpoint.dialAddress = "" := by simp [Endpoint.dialAddress, hinbound]
    simp only [Daemon.addressWrite, hs, if_true, hempty]
    exact touchWrite_sets_iff.mpr ⟨hallowed, hshared⟩
  | foundRecord query invite dialed =>
    obtain ⟨rfl, hadopts, hlast⟩ := henters
    exact ⟨_, if_pos hadopts, rfl, hlast, .inl rfl⟩
  | seedInviteHints invite =>
    obtain ⟨rfl, hnone, hfirst⟩ := henters
    exact ⟨_, rfl, rfl, hfirst, .inr ((unset_iff hunique.known).mpr hnone)⟩
  | saveKnownPeer saved =>
    obtain ⟨rfl, hsome, hnamed, live, hlive, rfl⟩ := henters
    refine ⟨⟨_, [live.address], some live.address, true⟩,
      (addressWrite_saveKnownPeer_iff hbooked).mpr ?_, rfl, rfl, .inl rfl⟩
    exact ⟨live, hlive, hsome, hnamed, rfl⟩
  | sessionHello peer hello channel =>
    obtain ⟨⟨rfl, hgate⟩, hallowed, hshared⟩ := henters
    simp only [Daemon.addressWrite, if_pos (show d.passesGate peer.text = true from hgate)]
    exact touchWrite_sets_iff.mpr ⟨hallowed, hshared⟩
  | sessionHelloAck peer hello =>
    obtain ⟨⟨rfl, hsent⟩, hallowed, hshared⟩ := henters
    simp only [Daemon.addressWrite, if_neg hsent]
    exact touchWrite_sets_iff.mpr ⟨hallowed, hshared⟩
  | approvePendingPeer approved whitelist =>
    obtain ⟨⟨rfl, hheld⟩, hallowed, hshared⟩ := henters
    simp only [Daemon.addressWrite, if_pos hheld]
    exact touchWrite_sets_iff.mpr ⟨hallowed, hshared⟩
  | _ => exact henters.1.elim

/-- An address is set by a dial that has succeeded, or without one. -/
theorem AddressWrite.Sets.cases (hunique : BookUnique d.status) (hbooked : Booked d.status)
    (hwrite : d.addressWrite e = some w) (hsets : w.Sets d.status.network.cards address) :
    d.EntersUndialed w.peerId address e ∨
      ∃ peer endpoint, e = .connectionEstablished peer endpoint ∧ peer.text = w.peerId ∧
        endpoint.dialer = true ∧ (address = endpoint.remoteAddress ∨
          address = endpoint.remoteAddress ++ "/p2p/" ++ w.peerId) := by
  have htouch : ∀ {peerId : String} {touched : Option String},
      touchWrite lib d.status peerId touched = some w → w.peerId = peerId ∧
        peerId ∉ d.status.network.ignoredPeerIds ∧
        (touched.bind fun addr => shareableAddress lib addr peerId) = some address := by
    intro peerId touched htouched
    have hid := touchWrite_peerId htouched
    exact ⟨hid, touchWrite_sets_iff.mp ⟨w, htouched, hid, hsets⟩⟩
  cases e with
  | connectionEstablished peer endpoint =>
    obtain ⟨hs, htouched⟩ := Option.ite_none_right_eq_some.mp hwrite
    obtain ⟨hid, hallowed, hshared⟩ := htouch htouched
    rw [hid]
    cases hdialer : endpoint.dialer with
    | true =>
      have hdial : endpoint.dialAddress = endpoint.remoteAddress := by
        simp [Endpoint.dialAddress, hdialer]
      rw [Option.bind_some, hdial] at hshared
      exact .inr ⟨peer, endpoint, rfl, rfl, hdialer, shareableAddress_cases hshared⟩
    | false =>
      have hempty : endpoint.dialAddress = "" := by simp [Endpoint.dialAddress, hdialer]
      rw [Option.bind_some, hempty] at hshared
      exact .inl ⟨rfl, hdialer, hs, hallowed, hshared⟩
  | identifyReceived peer info =>
    obtain ⟨_, htouched⟩ := Option.ite_none_right_eq_some.mp hwrite
    obtain ⟨_, _, hshared⟩ := htouch htouched
    cases hshared
  | foundRecord query invite dialed =>
    obtain ⟨hadopts, heq⟩ := Option.ite_none_right_eq_some.mp hwrite
    obtain rfl := Option.some.inj heq
    exact .inl ⟨rfl, hadopts, hsets.1⟩
  | seedInviteHints invite =>
    obtain rfl := Option.some.inj hwrite
    refine .inl ⟨rfl, ?_, hsets.1⟩
    rcases hsets.2 with hreplaces | hnone
    · exact absurd hreplaces Bool.false_ne_true
    · exact (unset_iff hunique.known).mp hnone
  | saveKnownPeer saved =>
    obtain ⟨live, hlive, hsome, hnamed, rfl⟩ := (addressWrite_saveKnownPeer_iff hbooked).mp hwrite
    obtain rfl := Option.some.inj hsets.1
    exact .inl ⟨rfl, hsome, hnamed, live, hlive, rfl⟩
  | sessionHello peer hello channel =>
    obtain ⟨hgate, htouched⟩ := Option.ite_none_right_eq_some.mp hwrite
    obtain ⟨hid, hallowed, hshared⟩ := htouch htouched
    rw [hid]
    exact .inl ⟨⟨rfl, hgate⟩, hallowed, hshared⟩
  | sessionHelloAck peer hello =>
    obtain ⟨hsent, htouched⟩ := Option.ite_none_left_eq_some.mp hwrite
    obtain ⟨hid, hallowed, hshared⟩ := htouch htouched
    rw [hid]
    exact .inl ⟨⟨rfl, hsent⟩, hallowed, hshared⟩
  | approvePendingPeer approved whitelist =>
    obtain ⟨hheld, htouched⟩ := Option.ite_none_right_eq_some.mp hwrite
    obtain ⟨hid, hallowed, hshared⟩ := htouch htouched
    rw [hid]
    exact .inl ⟨⟨rfl, hheld⟩, hallowed, hshared⟩
  | _ => cases hwrite

end

section

variable {π : Profile} {h : Host κ} {tr : List (HostTransition κ lib)} {x : HostTransition κ lib}
  {known : List KnownPeerSummary} {peerId address : String}

theorem proven_snoc : Proven peerId address (tr ++ [x]) ↔
    Proven peerId address tr ∨ ProvenBy peerId address x := by
  simp [Proven, or_and_right, exists_or]

theorem ProvenEntries.mono (hproven : ProvenEntries tr known) : ProvenEntries (tr ++ [x]) known :=
  fun entry hentry a ha => proven_snoc.mpr (.inl (hproven entry hentry a ha))

theorem provenEntries_iff {network : NetworkSummary} : ProvenEntries tr network.knownPeers ↔
    ∀ card ∈ network.cards, ∀ a, card.lastDialAddr = some a → Proven card.peerId a tr := by
  rw [NetworkSummary.cards, List.forall_mem_map]
  rfl

/-- What is entered without a dial is not proven by the same event. -/
theorem entersUndialed_not_provenBy {d : Daemon κ} {e : Event κ lib} (hinput : x.input = .event e)
    (henters : d.EntersUndialed peerId address e) : ¬ ProvenBy peerId address x := by
  rintro ⟨peer, endpoint, hdialed, _, hdialer, _⟩
  obtain rfl := HostEvent.event.inj (hinput.symm.trans hdialed)
  obtain ⟨_, hinbound, _⟩ := henters
  exact absurd (hdialer.symm.trans hinbound) (by decide)

theorem statusAfter_proven_iff {e : Event κ lib} (hinput : x.input = .event e)
    (hrost : Rostered x.before) (hproven : ProvenEntries tr x.before.status.network.knownPeers) :
    ProvenEntries (tr ++ [x]) (x.before.daemon.statusAfter e).network.knownPeers ↔
      KeepsProven tr x := by
  have hunique : (x.before.status.network.cards.map DialCard.peerId).Nodup := by
    rw [NetworkSummary.cards, List.map_map]
    exact hrost.unique.status.known.ids
  have hbefore := provenEntries_iff.mp (hproven.mono (x := x))
  rw [provenEntries_iff, statusAfter_cards]
  cases hwrite : x.before.daemon.addressWrite e with
  | none =>
    refine iff_of_true hbefore fun e' hinput' peerId a henters => ?_
    obtain rfl := HostEvent.event.inj (hinput.symm.trans hinput')
    obtain ⟨w, hsome, _⟩ := entersUndialed_sets hrost.unique.status hrost.booked henters
    rw [hwrite] at hsome
    cases hsome
  | some w =>
    refine (writeCards_lastDial_iff (P := fun q a => Proven q a (tr ++ [x])) hunique hbefore).trans ?_
    constructor
    · intro hset e' hinput' peerId a henters
      obtain rfl := HostEvent.event.inj (hinput.symm.trans hinput')
      obtain ⟨w', hsome, rfl, hsets⟩ :=
        entersUndialed_sets hrost.unique.status hrost.booked henters
      obtain rfl := Option.some.inj (hwrite.symm.trans hsome)
      rcases proven_snoc.mp (hset a hsets) with hold | hnow
      · exact hold
      · exact absurd hnow (entersUndialed_not_provenBy hinput henters)
    · intro hkeeps a hsets
      rcases hsets.cases hrost.unique.status hrost.booked hwrite with henters | hdialed
      · exact proven_snoc.mpr (.inl (hkeeps e hinput w.peerId a henters))
      · obtain ⟨peer, endpoint, rfl, hpeer, hdialer, haddress⟩ := hdialed
        exact proven_snoc.mpr (.inr ⟨peer, endpoint, hinput, hpeer, hdialer, haddress⟩)

theorem HostMove.keepsProven_iff (hmove : HostMove lib x.before x.input x.after)
    (hrost : Rostered x.before) (hproven : LastDialsProven tr x.before) :
    LastDialsProven (tr ++ [x]) x.after ↔ KeepsProven tr x := by
  have hfiles : ∀ file ∈ x.before.files, ProvenEntries (tr ++ [x]) file.knownPeers :=
    fun file hfile => (hproven.files file hfile).mono
  have hstatus := hproven.status.mono (x := x)
  have hevent := fun e hinput => statusAfter_proven_iff (e := e) hinput hrost hproven.status
  obtain ⟨before, input, output, after⟩ := x
  dsimp only at hmove hrost hproven hfiles hstatus hevent
  cases hmove with
  | event e _ hsame_files _ hsame _ =>
    rw [← hevent e rfl, ← hsame.network]
    constructor
    · exact fun hafter => hafter.status
    · intro hafter
      refine ⟨hafter, ?_⟩
      dsimp only
      rw [hsame_files]
      exact hfiles
  | pathOutcome path peerId success =>
    exact iff_of_true ⟨hstatus, hfiles⟩ (by rintro e ⟨⟩)
  | save localDisplayName =>
    refine iff_of_true ⟨hstatus, fun file hfile => ?_⟩ (by rintro e ⟨⟩)
    rcases List.mem_append.mp hfile with hold | hnew
    · exact hfiles file hold
    · obtain rfl := List.mem_singleton.mp hnew
      exact hstatus
  | restart index displayName localPeerId file hfile =>
    refine iff_of_true ⟨?_, hfiles⟩ (by rintro e ⟨⟩)
    rcases List.mem_cons.mp (Host.mem_of_fileAt hfile) with rfl | hwritten
    · exact fun _ hentry => absurd hentry List.not_mem_nil
    · exact hfiles file hwritten

/-- The last dialed addresses are proven all along a run exactly when each step
enters none that is not. -/
theorem last_dials_proven_iff {displayName localPeerId : String}
    (hrun : HostRun π displayName localPeerId tr h) :
    Along (fun pre x => LastDialsProven (pre ++ [x]) x.after) tr ↔ Along KeepsProven tr := by
  refine hrun.along_iff (J := fun _ h => Rostered h) (I := LastDialsProven)
    (rostered_start displayName localPeerId) ?_ ?_ ?_
  · exact ⟨fun _ hentry => absurd hentry List.not_mem_nil,
      fun _ hfile => absurd hfile List.not_mem_nil⟩
  · exact fun _ _ hstep hrost => hrost.step hstep
  · exact fun _ _ hstep hrost hproven =>
      (HostMove.of_step hstep).keepsProven_iff hrost hproven

end

def dialedAddress : String := "/ip4/203.0.113.4/tcp/4001/p2p/" ++ remotePeer

def listenAddress : String := "/ip4/198.51.100.7/tcp/4002"

def dialLibp2p : Libp2p :=
  { sampleLibp2p with
    parseMultiaddr := fun text =>
      if text = dialedAddress then some [.ip4 false false, .tcp, .p2p remotePeer]
      else if text = listenAddress then some [.ip4 false false, .tcp]
      else none }

def dialedRemote : PeerId dialLibp2p := ⟨remotePeer, by decide⟩

/-- A call that is answered after the peer has told where it listens. -/
def answeredCall : List (HostEvent silentCodec dialLibp2p) :=
  [.event (.dial dialedAddress 0 true),
    .event (.connectionEstablished dialedRemote ⟨true, dialedAddress, false⟩),
    .event (.identifyReceived dialedRemote ⟨[listenAddress], "", ""⟩),
    .event (.sessionHelloAck dialedRemote sampleHello)]

theorem answeredCall_lastDial :
    (hostRun .release "local-user" localPeer answeredCall).map (fun r =>
      r.2.status.network.knownPeers.map fun entry => (entry.peerId, entry.lastDialAddr)) =
      some [(remotePeer, some (listenAddress ++ "/p2p/" ++ remotePeer))] := by
  decide +kernel

theorem answeredCall_not_proven :
    ¬ ∀ (tr : List (HostTransition silentCodec dialLibp2p)) (h : Host silentCodec),
      HostRun .release "local-user" localPeer tr h → LastDialsProven tr h := by
  intro hall
  obtain ⟨⟨tr, h⟩, hrun, hlast⟩ := Option.map_eq_some_iff.mp answeredCall_lastDial
  have hmem := hlast ▸ List.mem_singleton_self
    (remotePeer, some (listenAddress ++ "/p2p/" ++ remotePeer))
  obtain ⟨entry, hentry, heq⟩ := List.mem_map.mp hmem
  obtain ⟨hid, haddress⟩ := Prod.mk.inj heq
  obtain ⟨x, hx, peer, endpoint, hinput, _, _, hremote⟩ :=
    (hall tr h (hostRun_trace hrun)).status entry hentry _ haddress
  have hevent : x.input ∈ answeredCall := execute_inputs hrun ▸ List.mem_map_of_mem hx
  rw [hinput] at hevent
  have hdialed : endpoint.remoteAddress = dialedAddress := by
    simp only [answeredCall, List.mem_cons, HostEvent.event.injEq, reduceCtorEq,
      Event.connectionEstablished.injEq, List.not_mem_nil, or_false, false_or] at hevent
    rw [hevent.2]
  rw [hdialed, hid] at hremote
  exact absurd hremote (by decide)

theorem last_dials_proven_iff_answeredCall :
    ∃ tr : List (HostTransition silentCodec dialLibp2p),
      tr.map Transition.input = answeredCall ∧
        (Along (fun pre x => LastDialsProven (pre ++ [x]) x.after) tr ↔ Along KeepsProven tr) := by
  obtain ⟨⟨tr, h⟩, hrun, _⟩ := Option.map_eq_some_iff.mp answeredCall_lastDial
  exact ⟨tr, execute_inputs hrun, last_dials_proven_iff (hostRun_trace hrun)⟩

end Voicers
