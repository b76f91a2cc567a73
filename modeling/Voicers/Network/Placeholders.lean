import Voicers.Network.AddressBook

/-! Texts that stand for a missing address: the empty dial address of a
connection that came in, and `<unknown>`. None of them is an address to dial,
but some writers of the book enter them. -/

namespace Voicers

open Lib

variable {κ : Codec} {lib : Libp2p}

def Placeholder (address : String) : Prop := address = "" ∨ address = "<unknown>"

structure RealAddresses (saved : List String) (known : List KnownPeerSummary) : Prop where
  saved : ∀ address ∈ saved, ¬ Placeholder address
  addresses : ∀ entry ∈ known, ∀ address ∈ entry.addresses, ¬ Placeholder address
  lastDial : ∀ entry ∈ known, ∀ address, entry.lastDialAddr = some address → ¬ Placeholder address

/-- Neither the book nor a file that was written from it has a placeholder. -/
structure HostReal (h : Host κ) : Prop where
  status : RealAddresses h.status.network.savedPeerAddrs h.status.network.knownPeers
  files : ∀ file ∈ h.files, RealAddresses file.knownPeerAddrs file.knownPeers

/-- A connection that is more than transport was dialed, and the addresses of
records and pasted invites are not the placeholder. -/
def KeepsReal (x : HostTransition κ lib) : Prop :=
  match x.input with
  | .event (.connectionEstablished peer endpoint) =>
    x.before.daemon.surfaces peer.text = true → endpoint.dialAddress ≠ ""
  | .event (.foundRecord query invite _) =>
    x.before.daemon.adopts query invite = true → "<unknown>" ∉ usableAddrs lib invite
  | .event (.seedInviteHints invite) => "<unknown>" ∉ hintedAddrs invite
  | _ => True

def RealCard (card : DialCard) : Prop :=
  (∀ address ∈ card.addresses, ¬ Placeholder address) ∧
    ∀ address, card.lastDialAddr = some address → ¬ Placeholder address

section

variable {address peerId : String} {network : NetworkSummary}

theorem realAddresses_iff : RealAddresses network.savedPeerAddrs network.knownPeers ↔
    (∀ address ∈ network.savedPeerAddrs, ¬ Placeholder address) ∧
      ∀ card ∈ network.cards, RealCard card := by
  rw [NetworkSummary.cards, List.forall_mem_map]
  constructor
  · rintro ⟨hsaved, haddresses, hlast⟩
    exact ⟨hsaved, fun entry hentry => ⟨haddresses entry hentry, hlast entry hentry⟩⟩
  · rintro ⟨hsaved, hcards⟩
    exact ⟨hsaved, fun entry hentry => (hcards entry hentry).1, fun entry hentry => (hcards entry hentry).2⟩

theorem not_placeholder_of_slash (hslash : '/' ∈ address.toList) : ¬ Placeholder address := by
  rintro (rfl | rfl)
  · simp at hslash
  · revert hslash
    decide

/-- An address is shared with the id of its peer. -/
theorem shareableAddress_real {shared : String}
    (h : shareableAddress lib address peerId = some shared) : ¬ Placeholder shared := by
  apply not_placeholder_of_slash
  unfold shareableAddress at h
  split_ifs at h with hid hcontains
  · split at h
    · cases h
    · split_ifs at h
      obtain rfl := Option.some.inj h
      obtain ⟨rest, hrest, hprefix⟩ := List.any_eq_true.mp hcontains
      have hstart := List.isPrefixOf_iff_prefix.mp hprefix
      have htail : rest <:+ address.toList := (List.mem_tails ..).mp hrest
      exact htail.subset (hstart.subset (by decide))
  · split at h
    · cases h
    · split_ifs at h
      obtain rfl := Option.some.inj h
      simp

theorem mem_usableAddrs {invite : CompactInviteV1} (h : address ∈ usableAddrs lib invite) :
    address ≠ "" := by simpa using (List.mem_filter.mp h).2

theorem mem_hintedAddrs {invite : CompactInviteV1} (h : address ∈ hintedAddrs invite) :
    address ≠ "" := by simpa using (List.mem_filter.mp h).2

theorem touchWrite_real {state : DaemonStatus} {address : Option String} {w : AddressWrite}
    (h : touchWrite lib state peerId address = some w) :
    (∀ a ∈ w.addresses, ¬ Placeholder a) ∧ ∀ a, w.lastDial = some a → ¬ Placeholder a := by
  obtain ⟨_, heq⟩ := Option.ite_none_left_eq_some.mp h
  obtain rfl := Option.some.inj heq
  have hshared : ∀ a, (address.bind fun addr => shareableAddress lib addr peerId) = some a →
      ¬ Placeholder a := by
    intro a hsome
    obtain ⟨addr, _, hshare⟩ := Option.bind_eq_some_iff.mp hsome
    exact shareableAddress_real hshare
  exact ⟨fun a ha => hshared a (Option.mem_toList.mp ha), hshared⟩

theorem AddressWrite.apply_real {w : AddressWrite} {card : DialCard}
    (haddresses : ∀ a ∈ w.addresses, ¬ Placeholder a)
    (hlast : ∀ a, w.lastDial = some a → ¬ Placeholder a) (hcard : RealCard card) :
    RealCard (w.apply card) := by
  constructor
  · intro a ha
    rcases mem_foldl_pushUnique.mp ha with hold | hnew
    · exact hcard.1 a hold
    · exact haddresses a hnew
  · intro a ha
    simp only [AddressWrite.apply] at ha
    split_ifs at ha
    · rcases Option.or_eq_some_iff.mp ha with hnew | ⟨_, hold⟩
      · exact hlast a hnew
      · exact hcard.2 a hold
    · rcases Option.or_eq_some_iff.mp ha with hold | ⟨_, hnew⟩
      · exact hcard.2 a hold
      · exact hlast a hnew

theorem writeCards_real {write : Option AddressWrite} {cards : List DialCard}
    (hwrite : ∀ w, write = some w → (∀ a ∈ w.addresses, ¬ Placeholder a) ∧
      ∀ a, w.lastDial = some a → ¬ Placeholder a)
    (hcards : ∀ card ∈ cards, RealCard card) : ∀ card ∈ writeCards write cards, RealCard card := by
  cases write with
  | none => exact hcards
  | some w =>
    obtain ⟨haddresses, hlast⟩ := hwrite w rfl
    intro card hcard
    rcases mem_updateOrPush hcard with hold | ⟨old, hold, _, rfl⟩ | ⟨_, rfl⟩
    · exact hcards card hold
    · exact AddressWrite.apply_real haddresses hlast (hcards old hold)
    · refine AddressWrite.apply_real haddresses hlast ⟨?_, ?_⟩
      · simp
      · simp

end

section

variable {d : Daemon κ} {e : Event κ lib} {π : Profile} {h : Host κ} {x : HostTransition κ lib}

/-- What an event writes is real when it keeps to the condition; a peer that
is listed but not known, which `save_known_peer` would enter unchecked, does
not occur. -/
theorem addressWrite_real (hbooked : Booked d.status) (hsaved : ∀ a ∈ d.savedAddrs e, ¬ Placeholder a)
    {w : AddressWrite} (hwrite : d.addressWrite e = some w) :
    (∀ a ∈ w.addresses, ¬ Placeholder a) ∧ ∀ a, w.lastDial = some a → ¬ Placeholder a := by
  cases e with
  | connectionEstablished peer endpoint =>
    exact touchWrite_real (Option.ite_none_right_eq_some.mp hwrite).2
  | identifyReceived peer info =>
    exact touchWrite_real (Option.ite_none_right_eq_some.mp hwrite).2
  | sessionHello peer hello channel =>
    exact touchWrite_real (Option.ite_none_right_eq_some.mp hwrite).2
  | sessionHelloAck peer hello =>
    exact touchWrite_real (Option.ite_none_left_eq_some.mp hwrite).2
  | approvePendingPeer peerId whitelist =>
    exact touchWrite_real (Option.ite_none_right_eq_some.mp hwrite).2
  | foundRecord query invite dialed =>
    obtain ⟨hadopts, heq⟩ := Option.ite_none_right_eq_some.mp hwrite
    obtain rfl := Option.some.inj heq
    simp only [Daemon.savedAddrs, if_pos hadopts] at hsaved
    exact ⟨hsaved, fun a ha => hsaved a (List.mem_of_getLast? ha)⟩
  | seedInviteHints invite =>
    obtain rfl := Option.some.inj hwrite
    exact ⟨hsaved, fun a ha => hsaved a (List.mem_of_head? ha)⟩
  | saveKnownPeer peerId =>
    obtain ⟨live, _, hsome, hnamed, rfl⟩ := (addressWrite_saveKnownPeer_iff hbooked).mp hwrite
    have hreal : ¬ Placeholder live.address := by
      rintro (hempty | hunknown)
      · exact hsome hempty
      · exact hnamed hunknown
    refine ⟨fun a ha => ?_, fun a ha => ?_⟩
    · obtain rfl := List.mem_singleton.mp ha
      exact hreal
    · obtain rfl := Option.some.inj ha
      exact hreal
  | _ => cases hwrite

theorem savedAddrs_real_iff (hinput : x.input = .event e) :
    (∀ a ∈ x.before.daemon.savedAddrs e, ¬ Placeholder a) ↔ KeepsReal x := by
  have hrecord : ∀ addrs : List String, (∀ a ∈ addrs, a ≠ "") →
      ((∀ a ∈ addrs, ¬ Placeholder a) ↔ "<unknown>" ∉ addrs) := by
    intro addrs hsome
    constructor
    · exact fun hreal hmem => hreal _ hmem (.inr rfl)
    · rintro hno a ha (hempty | rfl)
      · exact hsome a ha hempty
      · exact hno ha
  unfold KeepsReal
  rw [hinput]
  cases e with
  | connectionEstablished peer endpoint =>
    dsimp only [Daemon.savedAddrs]
    constructor
    · intro hreal hs hempty
      have hnamed : endpoint.dialAddress ≠ "<unknown>" := by
        rw [hempty]
        decide
      rw [if_pos ⟨hs, hnamed⟩] at hreal
      exact hreal _ (List.mem_singleton_self _) (.inl hempty)
    · intro hdialed a ha
      split_ifs at ha with hs
      · obtain rfl := List.mem_singleton.mp ha
        rintro (hempty | hunknown)
        · exact hdialed hs.1 hempty
        · exact hs.2 hunknown
      · exact absurd ha List.not_mem_nil
  | foundRecord query invite dialed =>
    dsimp only [Daemon.savedAddrs]
    by_cases hadopts : x.before.daemon.adopts query invite = true
    · rw [if_pos hadopts, hrecord _ fun _ => mem_usableAddrs]
      exact ⟨fun hno _ => hno, fun hno => hno hadopts⟩
    · rw [if_neg hadopts]
      exact iff_of_true (fun _ ha => absurd ha List.not_mem_nil) fun hyes => absurd hyes hadopts
  | seedInviteHints invite => exact hrecord _ fun _ => mem_hintedAddrs
  | _ => exact iff_of_true (fun _ ha => absurd ha List.not_mem_nil) trivial

theorem statusAfter_real_iff (hinput : x.input = .event e) (hbooked : Booked x.before.status)
    (hreal : RealAddresses x.before.status.network.savedPeerAddrs x.before.status.network.knownPeers) :
    RealAddresses (x.before.daemon.statusAfter e).network.savedPeerAddrs
      (x.before.daemon.statusAfter e).network.knownPeers ↔ KeepsReal x := by
  obtain ⟨hsaved, hcards⟩ := realAddresses_iff.mp hreal
  rw [← savedAddrs_real_iff hinput, realAddresses_iff, statusAfter_saved, statusAfter_cards]
  constructor
  · rintro ⟨hafter, _⟩ a ha
    exact hafter a (mem_foldl_pushUnique.mpr (.inr ha))
  · intro hnew
    refine ⟨fun a ha => ?_, writeCards_real (fun w => addressWrite_real hbooked hnew) hcards⟩
    rcases mem_foldl_pushUnique.mp ha with hold | hentered
    · exact hsaved a hold
    · exact hnew a hentered

theorem HostMove.keepsReal_iff (hmove : HostMove lib x.before x.input x.after)
    (hrost : Rostered x.before) (hreal : HostReal x.before) : HostReal x.after ↔ KeepsReal x := by
  obtain ⟨before, input, output, after⟩ := x
  dsimp only at hmove hrost hreal
  cases hmove with
  | event e _ hfiles _ hsame _ =>
    have hstatus := statusAfter_real_iff (x := ⟨before, .event e, output, after⟩) rfl hrost.booked
      hreal.status
    rw [← hstatus]
    constructor
    · intro hafter
      have hreal' := hafter.status
      dsimp only at hreal'
      rwa [hsame.network] at hreal'
    · intro hafter
      refine ⟨?_, ?_⟩
      · dsimp only
        rwa [hsame.network]
      · dsimp only
        rw [hfiles]
        exact hreal.files
  | pathOutcome path peerId success => exact iff_of_true ⟨hreal.status, hreal.files⟩ trivial
  | save localDisplayName =>
    refine iff_of_true ⟨hreal.status, fun file hfile => ?_⟩ trivial
    rcases List.mem_append.mp hfile with hold | hnew
    · exact hreal.files file hold
    · obtain rfl := List.mem_singleton.mp hnew
      exact hreal.status
  | restart index displayName localPeerId file hfile =>
    refine iff_of_true ⟨?_, hreal.files⟩ trivial
    rcases List.mem_cons.mp (Host.mem_of_fileAt hfile) with rfl | hwritten
    · refine ⟨?_, ?_, ?_⟩
      · exact fun _ ha => absurd ha List.not_mem_nil
      · exact fun _ hentry => absurd hentry List.not_mem_nil
      · exact fun _ hentry => absurd hentry List.not_mem_nil
    · exact hreal.files file hwritten

/-- The book is free of placeholders all along a run exactly when each step
keeps to the condition. -/
theorem real_addresses_iff {displayName localPeerId : String} {tr : List (HostTransition κ lib)}
    (hrun : HostRun π displayName localPeerId tr h) :
    (∀ x ∈ tr, HostReal x.before ∧ HostReal x.after) ↔ ∀ x ∈ tr, KeepsReal x := by
  have hstart : HostReal (Host.start (κ := κ) displayName localPeerId) := by
    refine ⟨⟨?_, ?_, ?_⟩, fun _ hfile => absurd hfile List.not_mem_nil⟩
    · exact fun _ ha => absurd ha List.not_mem_nil
    · exact fun _ hentry => absurd hentry List.not_mem_nil
    · exact fun _ hentry => absurd hentry List.not_mem_nil
  refine hrun.invariant_iff_under (fun _ _ _ _ hrost hstep => hrost.step hstep) ?_
    (rostered_start displayName localPeerId) hstart
  exact fun x hstep hrost hreal => (HostMove.of_step hstep).keepsReal_iff hrost hreal

end

/-- A known peer calls. -/
def inboundCall : List (HostEvent silentCodec sampleLibp2p) :=
  [.event (.seedInviteHints callInvite), .event (.connectionEstablished remote incoming)]

theorem inboundCall_saved :
    (hostRun .release "local-user" localPeer inboundCall).map (fun r =>
      (r.1.length, r.2.status.network.savedPeerAddrs)) =
      some (2, ["/ip4/203.0.113.4/tcp/4001", ""]) := by
  decide +kernel

theorem inboundCall_not_real :
    ¬ ∀ (tr : List (HostTransition silentCodec sampleLibp2p)) (h : Host silentCodec),
      HostRun .release "local-user" localPeer tr h →
        RealAddresses h.status.network.savedPeerAddrs h.status.network.knownPeers := by
  intro hall
  obtain ⟨⟨tr, h⟩, hrun, hsaved⟩ := Option.map_eq_some_iff.mp inboundCall_saved
  obtain ⟨_, hsaved⟩ := Prod.mk.inj hsaved
  refine (hall tr h (hostRun_trace hrun)).saved "" ?_ (.inl rfl)
  dsimp only at hsaved
  rw [hsaved]
  exact List.mem_cons_of_mem _ (List.mem_singleton_self "")

theorem real_addresses_iff_inboundCall :
    ∃ tr : List (HostTransition silentCodec sampleLibp2p), tr.length = 2 ∧
      ((∀ x ∈ tr, HostReal x.before ∧ HostReal x.after) ↔ ∀ x ∈ tr, KeepsReal x) := by
  obtain ⟨⟨tr, h⟩, hrun, hsaved⟩ := Option.map_eq_some_iff.mp inboundCall_saved
  exact ⟨tr, (Prod.mk.inj hsaved).1, real_addresses_iff (hostRun_trace hrun)⟩

end Voicers
