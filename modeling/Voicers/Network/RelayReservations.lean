import Mathlib.Data.Finset.Card
import Voicers.Network.DialIdentity

/-! Reservations at relays (`network.rs` and the Identify branch of
`swarm_events.rs`). A peer that can relay is asked once, and at most four are;
one without an address to ask it at takes one of the four places too. -/

namespace Voicers

open Lib

def maxAutoRelayCandidates : Nat := 4

def isP2p : Protocol → Bool
  | .p2p _ => true
  | _ => false

def relayReservationAddr (relayAddr : List Protocol) : Except String (List Protocol) :=
  if !relayAddr.any isP2p then .error "relay address is missing /p2p/<relay-peer-id>"
  else if !relayAddr.contains .p2pCircuit then .ok (relayAddr ++ [.p2pCircuit])
  else .ok relayAddr

def relayAddrForPeer (address : List Protocol) (peerId : String) : List Protocol :=
  if address.any isP2p then address else address ++ [.p2p peerId]

/-- What Identify tells of a peer; `hop` is whether it can relay, and `refused`
whether the swarm refuses to listen at a reservation. -/
structure Identified where
  peerId : String
  hop : Bool
  listenAddrs : List (List Protocol)
  refused : Bool
deriving DecidableEq

/-- What a swarm is asked for, and what is noted. -/
inductive RelayAction
  | addAddress (peerId : String) (address : List Protocol)
  | listenOn (address : List Protocol)
  | note (text : String)
deriving DecidableEq

variable (lib : Libp2p) (multiaddrText : List Protocol → String)

/-- The address at which a peer can be asked. -/
def Identified.relayAddr (info : Identified) : Option (List Protocol) :=
  (info.listenAddrs.find? fun address =>
    isShareableMultiaddr lib address && !isRelayedAddr address).map
      fun address => relayAddrForPeer address info.peerId

def Identified.reserve (info : Identified) : List RelayAction :=
  match info.relayAddr lib with
  | none => []
  | some relayAddr =>
    match relayReservationAddr relayAddr with
    | .error error => [.note ("relay reservation request failed for " ++ info.peerId ++ ": " ++ error)]
    | .ok reservationAddr =>
      [.listenOn reservationAddr, .note (
        if info.refused then "relay reservation request failed for " ++ info.peerId ++
          ": failed to request relay reservation at " ++ multiaddrText reservationAddr
        else "requesting relay reservation from " ++ info.peerId)]

/-- The relays that were attempted, through one Identify. -/
def identifyStep (attemptedRelays : Finset String) (info : Identified) :
    Option (List RelayAction × Finset String) :=
  let known := (info.listenAddrs.filter isSupportedDialAddr).map (.addAddress info.peerId)
  if info.hop ∧ attemptedRelays.card < maxAutoRelayCandidates ∧ info.peerId ∉ attemptedRelays then
    some (known ++ info.reserve lib multiaddrText, insert info.peerId attemptedRelays)
  else some (known, attemptedRelays)

abbrev RelayTransition := Transition (Finset String) Identified (List RelayAction)

abbrev RelayRun (tr : List RelayTransition) (attemptedRelays : Finset String) : Prop :=
  Trace (identifyStep lib multiaddrText) ∅ tr attemptedRelays

/-- The addresses at which reservations are requested. -/
def RelayAction.reservation? : RelayAction → Option (List Protocol)
  | .listenOn address => some address
  | _ => none

def RelayAction.peer? : RelayAction → Option (String × List Protocol)
  | .addAddress peerId address => some (peerId, address)
  | _ => none

def reservations (actions : List RelayAction) : List (List Protocol) :=
  actions.filterMap RelayAction.reservation?

/-- The peers that have said they can relay. -/
def hopPeers (tr : List RelayTransition) : Finset String :=
  ((tr.filter fun x => x.input.hop).map fun x => x.input.peerId).toFinset

section

variable {lib} {multiaddrText} {tr pre post : List RelayTransition} {attempted : Finset String} {x : RelayTransition}

theorem any_isP2p_relayAddrForPeer (address : List Protocol) (peerId : String) :
    (relayAddrForPeer address peerId).any isP2p = true := by
  unfold relayAddrForPeer
  split_ifs with hp2p
  · exact hp2p
  · simp [isP2p]

theorem relayAddrForPeer_circuit {base : List Protocol} (h : isRelayedAddr base = false)
    (peerId : String) : isRelayedAddr (relayAddrForPeer base peerId) = false := by
  unfold relayAddrForPeer
  split_ifs
  · exact h
  · simpa [isRelayedAddr] using h

theorem reserve_reservations (info : Identified) :
    reservations (info.reserve lib multiaddrText) = ((info.relayAddr lib).map (· ++ [.p2pCircuit])).toList := by
  unfold Identified.reserve
  cases haddr : info.relayAddr lib with
  | none => rfl
  | some relayAddr =>
    obtain ⟨base, hbase, rfl⟩ := Option.map_eq_some_iff.mp haddr
    have hfound := List.find?_some hbase
    rw [Bool.and_eq_true, Bool.not_eq_true'] at hfound
    have hcircuit := relayAddrForPeer_circuit hfound.2 info.peerId
    have hok : relayReservationAddr (relayAddrForPeer base info.peerId) =
        .ok (relayAddrForPeer base info.peerId ++ [.p2pCircuit]) := by
      rw [isRelayedAddr] at hcircuit
      rw [relayReservationAddr, any_isP2p_relayAddrForPeer, hcircuit]
      rfl
    simp only [hok]
    rfl

/-- What one Identify does: a peer that can relay and was not asked takes one
of the places that are left. -/
theorem identifyStep_cases {info : Identified} {actions : List RelayAction}
    {attempted' : Finset String}
    (h : identifyStep lib multiaddrText attempted info = some (actions, attempted')) :
    ((info.hop = true ∧ attempted.card < maxAutoRelayCandidates ∧ info.peerId ∉ attempted) ∧
      attempted' = insert info.peerId attempted ∧
      reservations actions = ((info.relayAddr lib).map (· ++ [.p2pCircuit])).toList) ∨
    (¬(info.hop = true ∧ attempted.card < maxAutoRelayCandidates ∧ info.peerId ∉ attempted) ∧
      attempted' = attempted ∧ reservations actions = []) := by
  have hknown : reservations ((info.listenAddrs.filter isSupportedDialAddr).map
      (.addAddress info.peerId)) = [] := by simp [reservations, RelayAction.reservation?]
  unfold identifyStep at h
  split_ifs at h with hask
  · obtain ⟨rfl, rfl⟩ := Prod.mk.inj (Option.some.inj h)
    refine .inl ⟨hask, rfl, ?_⟩
    rw [reservations, List.filterMap_append]
    exact (congrArg₂ (· ++ ·) hknown (reserve_reservations info)).trans (List.nil_append _)
  · obtain ⟨rfl, rfl⟩ := Prod.mk.inj (Option.some.inj h)
    exact .inr ⟨hask, rfl, hknown⟩

theorem hopPeers_snoc (tr : List RelayTransition) (x : RelayTransition) :
    hopPeers (tr ++ [x]) =
      if x.input.hop then insert x.input.peerId (hopPeers tr) else hopPeers tr := by
  ext peerId
  by_cases hhop : x.input.hop = true
  · simp [hopPeers, List.filter_append, hhop]
  · simp [hopPeers, List.filter_append, hhop]

/-- The attempted relays are relays, and are all of them up to the limit. -/
theorem RelayRun.card_attempted (h : RelayRun lib multiaddrText tr attempted) :
    attempted ⊆ hopPeers tr ∧ attempted.card = min maxAutoRelayCandidates (hopPeers tr).card := by
  refine h.snoc_induction (P := fun tr attempted => attempted ⊆ hopPeers tr ∧
    attempted.card = min maxAutoRelayCandidates (hopPeers tr).card) ⟨subset_rfl, rfl⟩ ?_
  rintro tr x - hstep ⟨hsub, hcard⟩
  rw [hopPeers_snoc]
  obtain ⟨⟨hhop, hroom, hnew⟩, hafter, -⟩ | ⟨hask, hafter, -⟩ := identifyStep_cases hstep
  · have heq := Finset.eq_of_subset_of_card_le hsub (by omega)
    rw [if_pos hhop, hafter, heq]
    rw [heq] at hroom hnew
    refine ⟨subset_rfl, ?_⟩
    rw [Finset.card_insert_of_notMem hnew]
    omega
  · rw [hafter]
    split_ifs with hhop
    · refine ⟨hsub.trans (Finset.subset_insert _ _), ?_⟩
      have hle := Finset.card_le_card (Finset.subset_insert x.input.peerId (hopPeers tr))
      by_cases hroom : x.before.card < maxAutoRelayCandidates
      · have hin : x.input.peerId ∈ x.before := by
          by_contra hnew
          exact hask ⟨hhop, hroom, hnew⟩
        rw [Finset.insert_eq_of_mem (hsub hin)]
        exact hcard
      · omega
    · exact ⟨hsub, hcard⟩

theorem RelayRun.attempted_eq (h : RelayRun lib multiaddrText tr attempted)
    (hroom : attempted.card < maxAutoRelayCandidates) : attempted = hopPeers tr := by
  obtain ⟨hsub, hcard⟩ := h.card_attempted
  exact Finset.eq_of_subset_of_card_le hsub (by omega)

theorem RelayRun.length_reservations (h : RelayRun lib multiaddrText tr attempted) :
    (tr.flatMap fun x => reservations x.output).length ≤ attempted.card := by
  refine h.snoc_induction (P := fun tr attempted =>
    (tr.flatMap fun x => reservations x.output).length ≤ attempted.card) (le_refl 0) ?_
  intro tr x _ hstep ih
  rw [List.flatMap_append, List.length_append, List.flatMap_singleton]
  obtain ⟨⟨-, -, hnew⟩, hafter, hres⟩ | ⟨-, hafter, hres⟩ := identifyStep_cases hstep
  · have hone : (reservations x.output).length ≤ 1 := by
      rw [hres]
      cases x.input.relayAddr lib <;> simp
    rw [hafter, Finset.card_insert_of_notMem hnew]
    omega
  · rw [hafter, hres]
    exact ih

/-- A reservation is requested for each of the first four peers that say they
can relay, once, and for no other; it is made where `relayAddr` is found, and a
relay without such a place takes one of the four all the same. -/
theorem reservations_requested (h : RelayRun lib multiaddrText tr attempted) :
    Along (fun pre x => reservations x.output =
      if x.input.hop = true ∧ x.input.peerId ∉ hopPeers pre ∧
          (hopPeers pre).card < maxAutoRelayCandidates then
        ((x.input.relayAddr lib).map (· ++ [.p2pCircuit])).toList
      else []) tr ∧
    attempted.card = min maxAutoRelayCandidates (hopPeers tr).card ∧
    (tr.flatMap fun x => reservations x.output).length ≤ attempted.card := by
  refine ⟨?_, h.card_attempted.2, h.length_reservations⟩
  rintro pre x post rfl
  obtain ⟨hpre, hstep, -⟩ := h.split
  obtain ⟨hsub, hcard⟩ := RelayRun.card_attempted hpre
  obtain ⟨⟨hhop, hroom, hnew⟩, -, hres⟩ | ⟨hask, -, hres⟩ := identifyStep_cases hstep
  · have heq := RelayRun.attempted_eq hpre hroom
    rw [heq] at hroom hnew
    rw [if_pos ⟨hhop, hnew, hroom⟩, hres]
  · rw [hres, if_neg]
    rintro ⟨hhop, hnew, hroom⟩
    exact hask ⟨hhop, by omega, fun hin => hnew (hsub hin)⟩

variable {refused : List Protocol → Bool} {listenAddr : String} {relayAddr : Option String}
  {bootstrapAddrs : List String} {useDefault : Bool} {start : NetworkStart}

end

/-- A relay that tells `addrs`. -/
def hopPeer (peerId : String) (addrs : List (List Protocol)) : Identified :=
  ⟨peerId, true, addrs, false⟩

/-- A library that reads one text, an address of `boot`. -/
def relayLibp2p : Libp2p where
  isPeerId _ := true
  parseMultiaddr text :=
    if text = "boot" then some [.ip4 false false, .tcp, .p2p "boot"]
    else if text = "listen" then some [.ip4 true false, .tcp] else none
  allowLoopback := false

/-- Five relays, of which the first cannot be asked. -/
def fiveRelays : List Identified :=
  hopPeer "ann" [[.ip4 false true, .tcp]] ::
    ["bob", "cleo", "dan", "eve"].map (hopPeer · [[.ip4 false false, .tcp]])

theorem reservations_requested_five : ∃ (tr : List RelayTransition) (attempted : Finset String),
    RelayRun relayLibp2p (fun _ => "") tr attempted ∧
      tr.map (fun x => (reservations x.output).length) = [0, 1, 1, 1, 0] ∧
      attempted.card = min maxAutoRelayCandidates (hopPeers tr).card ∧
      (tr.flatMap fun x => reservations x.output).length ≤ attempted.card := by
  have hrun : (execute (identifyStep relayLibp2p (fun _ => "")) ∅ fiveRelays).map
      (fun r => r.1.map fun x => (reservations x.output).length) = some [0, 1, 1, 1, 0] := by
    decide +kernel
  obtain ⟨r, hr, hlengths⟩ := Option.map_eq_some_iff.mp hrun
  have htr : RelayRun relayLibp2p (fun _ => "") r.1 r.2 := execute_trace hr
  exact ⟨r.1, r.2, htr, hlengths, (reservations_requested htr).2⟩

end Voicers
