import Voicers.Lib.Outbox
import Voicers.Network.Invite

/-! The records of a daemon in the DHT (`maybe_publish_rendezvous_record` and
its callers in `network.rs` and `network/swarm_events.rs`). A put ends some
time after it was made, and what it has written then counts as published. -/

namespace Voicers

open Lib

/-- What the network task publishes from. `broadcasts` counts the requests that
have changed the status and whose `BroadcastSessionHello` is not handled. -/
structure Publisher where
  status : InviteState
  connectedPeers : Finset String
  dhtRoutablePeers : Finset String
  records : Outbox String (List UInt8)
  broadcasts : Nat

inductive PublishEvent (lib : Libp2p)
  | invite (event : InviteEvent lib)
  | setTrustedContact
  | broadcastSessionHello
  | putRecordOk (query : Nat)
  | putRecordErr (query : Nat)
  | connectionEstablished (peer : PeerId lib)
  | connectionClosed (peer : PeerId lib) (numEstablished : Nat)
  | routingUpdated (peer : PeerId lib) (isNewPeer : Bool)
  | bootstrapOk

/-- The events of the swarm that end with a publication; `expiredListenAddr` is
not handled, and control requests are not events of the swarm. -/
def InviteEvent.publishes {lib : Libp2p} : InviteEvent lib → Bool
  | .newListenAddr _ | .newExternalAddrCandidate _ | .externalAddrConfirmed _
  | .externalAddrExpired _ | .identifyReceived _ | .upnpNewExternalAddr _
  | .upnpExpiredExternalAddr _ => true
  | _ => false

/-- The control requests that broadcast a hello once they have changed the status. -/
def InviteState.broadcastsAfter {lib : Libp2p} (s : InviteState) : InviteEvent lib → Bool
  | .createRoom _ _ _ => true
  | .setDisplayName displayName => trim displayName ≠ ""
  | .rotateInviteCode _ _ => match s.customRoom with
    | none => false
    | some roomName => roomHasPermission s.rooms roomName s.localPeerId .createRoomInvite
  | _ => false

def InviteState.currentPayloads (lib : Libp2p) (json : InviteJson) (s : InviteState) :
    List (String × List UInt8) :=
  (s.currentRendezvousRecords lib).map fun record => (record.1, json.toVec record.2)

namespace Publisher

def start (file : StateFile) (displayName : String) : Publisher where
  status := .load file displayName
  connectedPeers := ∅
  dhtRoutablePeers := ∅
  records := .empty
  broadcasts := 0

def hasActiveDhtPeer (s : Publisher) : Bool :=
  decide (∃ peer ∈ s.connectedPeers, peer ∈ s.dhtRoutablePeers)

/-- `accepts` tells whether the store of the DHT takes a put. -/
def maybePublish (json : InviteJson) (lib : Libp2p) (accepts : String → List UInt8 → Bool)
    (s : Publisher) : Publisher :=
  if s.hasActiveDhtPeer then
    { s with records := (s.status.currentPayloads lib json).foldl (Outbox.offer accepts) s.records }
  else s

/-- The sets of peers after an event. -/
def handlePeers {lib : Libp2p} (s : Publisher) : PublishEvent lib → Publisher
  | .connectionEstablished peer =>
    { s with connectedPeers := insert peer.text s.connectedPeers }
  | .connectionClosed peer numEstablished =>
    if numEstablished = 0 then { s with connectedPeers := s.connectedPeers.erase peer.text } else s
  | .routingUpdated peer _ => { s with dhtRoutablePeers := insert peer.text s.dhtRoutablePeers }
  | _ => s

def step (json : InviteJson) (lib : Libp2p) (self : LocalPeerId)
    (accepts : String → List UInt8 → Bool) (s : Publisher) :
    PublishEvent lib → Option (Unit × Publisher)
  | .invite event => (s.status.step json lib self event).map fun r =>
    let t : Publisher := { s with
      status := r.2
      broadcasts := if s.status.broadcastsAfter event then s.broadcasts + 1 else s.broadcasts }
    ((), if event.publishes then t.maybePublish json lib accepts else t)
  | .setTrustedContact => some ((), { s with broadcasts := s.broadcasts + 1 })
  | .broadcastSessionHello =>
    if s.broadcasts = 0 then none
    else some ((), maybePublish json lib accepts { s with broadcasts := s.broadcasts - 1 })
  | .putRecordOk query => some ((), { s with records := s.records.complete query })
  | .putRecordErr query => some ((), { s with records := s.records.abandon query })
  | .routingUpdated peer isNewPeer =>
    let t := s.handlePeers (.routingUpdated peer isNewPeer)
    some ((), if isNewPeer then t.maybePublish json lib accepts else t)
  | .bootstrapOk => some ((), s.maybePublish json lib accepts)
  | event => some ((), s.handlePeers event)

end Publisher

abbrev PublishTransition (lib : Libp2p) := Transition Publisher (PublishEvent lib) Unit

abbrev PublishRun (json : InviteJson) {lib : Libp2p} (self : LocalPeerId)
    (accepts : String → List UInt8 → Bool) (file : StateFile) (displayName : String)
    (tr : List (PublishTransition lib)) (s : Publisher) : Prop :=
  Trace (Publisher.step json lib self accepts) (Publisher.start file displayName) tr s

/-- The events whose handler ends with a publication. -/
def PublishEvent.publishes {lib : Libp2p} : PublishEvent lib → Bool
  | .invite event => event.publishes
  | .broadcastSessionHello | .bootstrapOk => true
  | .routingUpdated _ isNewPeer => isNewPeer
  | _ => false

/-- Puts are taken and succeed, and a peer of the DHT is there for each publication. -/
structure PutsSucceed {lib : Libp2p} (accepts : String → List UInt8 → Bool)
    (tr : List (PublishTransition lib)) : Prop where
  accepted : ∀ key payload, accepts key payload = true
  succeed : ∀ x ∈ tr, ∀ query, x.input ≠ .putRecordErr query
  present : ∀ x ∈ tr, x.input.publishes = true → x.after.hasActiveDhtPeer = true

/-- No put is under way, and no broadcast is left to handle. -/
def Publisher.Quiet (s : Publisher) : Prop := s.records.pending = [] ∧ s.broadcasts = 0

/-- What is published under each key is the current record. -/
def Publisher.Converged (json : InviteJson) (lib : Libp2p) (s : Publisher) : Prop :=
  ∀ record ∈ s.status.currentRendezvousRecords lib,
    s.records.published record.1 = some (json.toVec record.2)

/-- Each current record is published, or a put of it is under way. -/
def Publisher.Covered (json : InviteJson) (lib : Libp2p) (s : Publisher) : Prop :=
  ∀ record ∈ s.status.currentPayloads lib json, s.records.Holds record

/-- While no broadcast is left to handle, a put that ends leaves the current
records to itself or to other puts, and the records of a room taken from an
invite, and those under a new identity, have been put before. -/
def KeepsRecords (json : InviteJson) {lib : Libp2p} (self : LocalPeerId)
    (x : PublishTransition lib) : Prop :=
  x.before.broadcasts = 0 → match x.input with
    | .putRecordOk query =>
      x.before.records.Settles query (x.before.status.currentPayloads lib json)
    | .invite (.adoptRoomInvite roomName) =>
      ∀ record ∈ (x.before.status.adoptRoomInvite roomName).currentPayloads lib json,
        x.before.records.Holds record
    | .invite .assignLocalPeerId =>
      ∀ record ∈ (x.before.status.assignLocalPeerId self.text).currentPayloads lib json,
        x.before.records.Holds record
    | _ => True

namespace Publisher

section

variable {json : InviteJson} {lib : Libp2p} {self : LocalPeerId}
  {accepts : String → List UInt8 → Bool} {s t : Publisher}

theorem maybePublish_covered (haccepted : ∀ key payload, accepts key payload = true)
    (hactive : s.hasActiveDhtPeer = true) : (s.maybePublish json lib accepts).Covered json lib := by
  intro record hrecord
  rw [maybePublish, if_pos hactive] at hrecord ⊢
  exact Outbox.holds_foldl_offer (fun r _ => haccepted r.1 r.2) hrecord

/-- A publication changes nothing but the records. -/
theorem maybePublish_frame (json : InviteJson) (lib : Libp2p)
    (accepts : String → List UInt8 → Bool) (s : Publisher) :
    (s.maybePublish json lib accepts).hasActiveDhtPeer = s.hasActiveDhtPeer ∧
      (s.maybePublish json lib accepts).broadcasts = s.broadcasts := by
  unfold maybePublish
  split_ifs
  · exact ⟨rfl, rfl⟩
  · exact ⟨rfl, rfl⟩

theorem covered_of_publish (haccepted : ∀ key payload, accepts key payload = true)
    (hactive : (s.maybePublish json lib accepts).hasActiveDhtPeer = true) :
    (s.maybePublish json lib accepts).Covered json lib := by
  rw [(maybePublish_frame json lib accepts s).1] at hactive
  exact maybePublish_covered haccepted hactive

/-- Nothing is left to publish, or a broadcast will look for it. -/
def Due (json : InviteJson) (lib : Libp2p) (s : Publisher) : Prop :=
  s.broadcasts = 0 → s.Covered json lib

theorem due_of_broadcast (h : s.broadcasts ≠ 0) : s.Due json lib := fun h0 => absurd h0 h

theorem due_invite_iff {x : PublishTransition lib} {event : InviteEvent lib}
    (hinput : x.input = .invite event)
    (hstep : step json lib self accepts x.before x.input = some (x.output, x.after))
    (haccepted : ∀ key payload, accepts key payload = true)
    (hpresent : x.input.publishes = true → x.after.hasActiveDhtPeer = true)
    (hbefore : x.before.Due json lib) : x.after.Due json lib ↔ KeepsRecords json self x := by
  obtain ⟨before, input, output, after⟩ := x
  dsimp only at hinput hstep hpresent hbefore ⊢
  subst hinput
  obtain ⟨r, hr, heq⟩ := Option.map_eq_some_iff.mp hstep
  obtain ⟨_, hafter⟩ := Prod.mk.inj heq
  have hpublished : event.publishes = true → after.Due json lib := by
    intro hpublishes
    have hactive := hpresent hpublishes
    rw [if_pos hpublishes] at hafter
    rw [← hafter] at hactive ⊢
    exact fun _ => covered_of_publish haccepted hactive
  have hbroadcast : event.publishes = false → before.status.broadcastsAfter event = true →
      after.Due json lib := by
    intro hpublishes hbroadcasts
    refine due_of_broadcast ?_
    rw [← hafter, hpublishes, hbroadcasts]
    exact Nat.succ_ne_zero _
  have hsame : event.publishes = false → before.status.broadcastsAfter event = false →
      r.2 = before.status → after.Due json lib := by
    intro hpublishes hbroadcasts hstatus
    rw [← hafter, hpublishes, hbroadcasts, hstatus]
    exact hbefore
  have hcontrol : ∀ {status : InviteState}, before.status.control status = some r →
      r.2 = status := by
    intro status hserved
    unfold InviteState.control at hserved
    split_ifs at hserved
    exact (congrArg Prod.snd (Option.some.inj hserved)).symm
  cases event with
  | expiredListenAddr address =>
    have hstatus : r.2 = before.status := (congrArg Prod.snd (Option.some.inj hr)).symm
    exact iff_of_true (hsame rfl rfl hstatus) fun _ => trivial
  | createRoom roomName inviteCode expiresAtMs =>
    exact iff_of_true (hbroadcast rfl rfl) fun _ => trivial
  | setDisplayName displayName =>
    refine iff_of_true ?_ fun _ => trivial
    by_cases hname : trim displayName = ""
    · refine hsame rfl (decide_eq_false (not_not.mpr hname)) ?_
      rw [hcontrol hr, InviteState.setDisplayName, if_pos hname]
    · exact hbroadcast rfl (decide_eq_true hname)
  | rotateInviteCode inviteCode expiresAtMs =>
    refine iff_of_true ?_ fun _ => trivial
    cases hrotates : before.status.broadcastsAfter
        (.rotateInviteCode inviteCode expiresAtMs : InviteEvent lib) with
    | true => exact hbroadcast rfl hrotates
    | false =>
      refine hsame rfl hrotates ?_
      rw [hcontrol hr, InviteState.rotateInviteCode]
      simp only [InviteState.broadcastsAfter] at hrotates
      split
      · rfl
      · next roomName hcustom =>
        rw [hcustom] at hrotates
        exact if_neg (by simpa using hrotates)
  | adoptRoomInvite roomName =>
    have hstatus := hcontrol hr
    rw [← hafter, hstatus]
    rfl
  | assignLocalPeerId =>
    have hstatus : r.2 = before.status.assignLocalPeerId self.text := by
      obtain ⟨_, hassigned⟩ := Option.ite_none_right_eq_some.mp hr
      exact (congrArg Prod.snd (Option.some.inj hassigned)).symm
    rw [← hafter, hstatus]
    rfl
  | _ => exact iff_of_true (hpublished rfl) fun _ => trivial

theorem handlePeers_frame (s : Publisher) (event : PublishEvent lib) :
    (s.handlePeers event).status = s.status ∧ (s.handlePeers event).records = s.records ∧
      (s.handlePeers event).broadcasts = s.broadcasts := by
  cases event with
  | connectionClosed peer numEstablished =>
    simp only [handlePeers]
    split_ifs
    · exact ⟨rfl, rfl, rfl⟩
    · exact ⟨rfl, rfl, rfl⟩
  | _ => exact ⟨rfl, rfl, rfl⟩

theorem Due.handlePeers (h : s.Due json lib) (event : PublishEvent lib) :
    (s.handlePeers event).Due json lib := by
  obtain ⟨hstatus, hrecords, hbroadcasts⟩ := handlePeers_frame s event
  unfold Due Covered at h ⊢
  rw [hstatus, hrecords, hbroadcasts]
  exact h

/-- Whether everything stays published is told by the step alone. -/
theorem due_step_iff {x : PublishTransition lib}
    (hstep : step json lib self accepts x.before x.input = some (x.output, x.after))
    (haccepted : ∀ key payload, accepts key payload = true)
    (hsucceed : ∀ query, x.input ≠ .putRecordErr query)
    (hpresent : x.input.publishes = true → x.after.hasActiveDhtPeer = true)
    (hbefore : x.before.Due json lib) : x.after.Due json lib ↔ KeepsRecords json self x := by
  obtain ⟨before, input, output, after⟩ := x
  dsimp only at hstep hsucceed hpresent hbefore ⊢
  have hpublished : ∀ t : Publisher, after = t.maybePublish json lib accepts →
      after.hasActiveDhtPeer = true → after.Due json lib := by
    rintro t rfl hactive
    exact fun _ => covered_of_publish haccepted hactive
  cases input with
  | invite event =>
    exact due_invite_iff (x := ⟨before, .invite event, output, after⟩) rfl hstep haccepted hpresent
      hbefore
  | setTrustedContact =>
    obtain ⟨_, rfl⟩ := Prod.mk.inj (Option.some.inj hstep)
    exact iff_of_true (due_of_broadcast (Nat.succ_ne_zero _)) fun _ => trivial
  | broadcastSessionHello =>
    obtain ⟨_, hsome⟩ := Option.ite_none_left_eq_some.mp hstep
    have hafter := (congrArg Prod.snd (Option.some.inj hsome)).symm
    exact iff_of_true (hpublished _ hafter (hpresent rfl)) fun _ => trivial
  | putRecordOk query =>
    obtain ⟨_, rfl⟩ := Prod.mk.inj (Option.some.inj hstep)
    exact imp_congr_right fun hnone => Outbox.holds_complete_iff (hbefore hnone)
  | putRecordErr query => exact absurd rfl (hsucceed query)
  | connectionEstablished peer =>
    obtain ⟨_, rfl⟩ := Prod.mk.inj (Option.some.inj hstep)
    exact iff_of_true (hbefore.handlePeers _) fun _ => trivial
  | connectionClosed peer numEstablished =>
    obtain ⟨_, rfl⟩ := Prod.mk.inj (Option.some.inj hstep)
    exact iff_of_true (hbefore.handlePeers _) fun _ => trivial
  | routingUpdated peer isNewPeer =>
    obtain ⟨_, hafter⟩ := Prod.mk.inj (Option.some.inj hstep)
    refine iff_of_true ?_ fun _ => trivial
    cases isNewPeer with
    | true => exact hpublished _ hafter.symm (hpresent rfl)
    | false =>
      rw [← hafter, if_neg Bool.false_ne_true]
      exact hbefore.handlePeers _
  | bootstrapOk =>
    have hafter := (congrArg Prod.snd (Option.some.inj hstep)).symm
    exact iff_of_true (hpublished _ hafter (hpresent rfl)) fun _ => trivial

/-- The puts under way end in the given order. -/
def afterPuts (s : Publisher) (queries : List Nat) : Publisher :=
  { s with records := queries.foldl Outbox.complete s.records }

theorem Due.converged (hdue : s.Due json lib) (hquiet : s.Quiet) : s.Converged json lib := by
  intro record hrecord
  have hholds := hdue hquiet.2 (record.1, json.toVec record.2) (List.mem_map_of_mem hrecord)
  exact hholds.published_of_quiet hquiet.1

/-- A current record that no put is under way for stays unpublished. -/
theorem exists_not_converged (hdue : ¬ s.Due json lib) :
    ∃ queries, (s.afterPuts queries).Quiet ∧ ¬ (s.afterPuts queries).Converged json lib := by
  obtain ⟨hnone, huncovered⟩ := Classical.not_imp.mp hdue
  obtain ⟨queries, hquiet⟩ := Outbox.exists_quiet s.records
  refine ⟨queries, ⟨hquiet, hnone⟩, fun hconverged => huncovered fun payload hpayload => ?_⟩
  obtain ⟨record, hrecord, rfl⟩ := List.mem_map.mp hpayload
  have hlast : (queries.foldl Outbox.complete s.records).Holds (record.1, json.toVec record.2) :=
    .inl (hconverged record hrecord)
  exact Outbox.holds_of_foldl_complete hlast

theorem due_start (file : StateFile) (displayName : String) :
    (start file displayName).Due json lib := by
  intro _ record hrecord
  simp [start, InviteState.currentPayloads, InviteState.currentRendezvousRecords,
    InviteState.currentDirectCallInvite, InviteState.load] at hrecord

end

end Publisher

section

variable {json : InviteJson} {lib : Libp2p} {self : LocalPeerId}
  {accepts : String → List UInt8 → Bool} {file : StateFile} {displayName : String}
  {tr : List (PublishTransition lib)} {s : Publisher}

theorem PublishRun.due (hrun : PublishRun json self accepts file displayName tr s)
    (hputs : PutsSucceed accepts tr) (hkeeps : ∀ x ∈ tr, KeepsRecords json self x) :
    s.Due json lib := by
  refine hrun.invariant_on (I := fun s => s.Due json lib)
    (Q := fun x => x ∈ tr ∧ KeepsRecords json self x) ?_
    (fun x hx => ⟨hx, hkeeps x hx⟩) (Publisher.due_start file displayName)
  rintro x ⟨hx, hkept⟩ hbefore hstep
  exact (Publisher.due_step_iff hstep hputs.accepted (hputs.succeed x hx) (hputs.present x hx)
    hbefore).mpr hkept

/-- While each step keeps its records, what is published is current as soon as
nothing is under way. After a first step that does not, the puts under way can
end so that it is not. -/
theorem publication_converges (hrun : PublishRun json self accepts file displayName tr s)
    (hputs : PutsSucceed accepts tr) :
    ((∀ x ∈ tr, KeepsRecords json self x) → s.Quiet → s.Converged json lib) ∧
      ∀ pre x, tr = pre ++ [x] → (∀ y ∈ pre, KeepsRecords json self y) →
        ¬ KeepsRecords json self x →
          ∃ queries, (s.afterPuts queries).Quiet ∧ ¬ (s.afterPuts queries).Converged json lib := by
  refine ⟨fun hkeeps hquiet => (hrun.due hputs hkeeps).converged hquiet, ?_⟩
  rintro pre x rfl hkeeps hlast
  obtain ⟨hpre, hstep, hend⟩ := Trace.split hrun
  cases hend
  have hx : x ∈ pre ++ [x] := List.mem_append_right _ (List.mem_singleton_self x)
  have hbefore : x.before.Due json lib := by
    refine PublishRun.due hpre ?_ hkeeps
    exact ⟨hputs.accepted, fun y hy => hputs.succeed y (List.mem_append_left _ hy),
      fun y hy => hputs.present y (List.mem_append_left _ hy)⟩
  have hiff := Publisher.due_step_iff hstep hputs.accepted (hputs.succeed x hx)
    (hputs.present x hx) hbefore
  exact Publisher.exists_not_converged fun hdue => hlast (hiff.mp hdue)

end

def dhtPeer : PeerId hostLibp2p where
  text := "QmbLHAnMoJPWSCR5Zhtx6BHJX9KiKNN6tpvbUcqanj75Nb"
  valid := rfl

/-- The first record is on its way when a second address comes and goes. -/
def flappingAddr : List (PublishEvent hostLibp2p) :=
  [.connectionEstablished dhtPeer, .routingUpdated dhtPeer false, .invite .assignLocalPeerId,
    .invite (.newListenAddr hostMultiaddr), .putRecordOk 0,
    .invite (.externalAddrConfirmed foreignMultiaddr),
    .invite (.externalAddrExpired foreignMultiaddr), .putRecordOk 1]

def publishRun (events : List (PublishEvent hostLibp2p)) :
    Option (List (PublishTransition hostLibp2p) × Publisher) :=
  execute (Publisher.step serdeJson hostLibp2p hostPeerId fun _ _ => true)
    (Publisher.start .default "") events

theorem publishRun_putsSucceed {events : List (PublishEvent hostLibp2p)}
    {tr : List (PublishTransition hostLibp2p)} {s : Publisher}
    (hrun : publishRun events = some (tr, s))
    (hsucceed : ∀ query, PublishEvent.putRecordErr query ∉ events)
    (hpresent : tr.all (fun x => !x.input.publishes || x.after.hasActiveDhtPeer) = true) :
    PutsSucceed (fun _ _ => true) tr where
  accepted _ _ := rfl
  succeed x hx query heq := by
    have hmem : x.input ∈ events := execute_inputs hrun ▸ List.mem_map_of_mem hx
    exact hsucceed query (heq ▸ hmem)
  present x hx hpublishes := by
    have hpeer := List.all_eq_true.mp hpresent x hx
    simpa [hpublishes] using hpeer

/-- The last publication finds the record published, and a put under way then replaces it. -/
theorem flappingAddr_not_converged :
    ∃ (tr : List (PublishTransition hostLibp2p)) (s : Publisher),
      PublishRun serdeJson hostPeerId (fun _ _ => true) .default "" tr s ∧
      PutsSucceed (fun _ _ => true) tr ∧ s.Quiet ∧
      ¬ s.Converged serdeJson hostLibp2p := by
  have h : (publishRun flappingAddr).map (fun r =>
      (r.1.all fun x => !x.input.publishes || x.after.hasActiveDhtPeer,
        r.2.records.pending.isEmpty, r.2.broadcasts,
        (r.2.status.currentPayloads hostLibp2p serdeJson).all fun payload =>
          decide (r.2.records.published payload.1 = some payload.2))) =
      some (true, true, 0, false) := by decide +kernel
  obtain ⟨⟨tr, s⟩, hrun, hs⟩ := Option.map_eq_some_iff.mp h
  simp only [Prod.mk.injEq] at hs
  obtain ⟨hpresent, hpending, hbroadcasts, hstale⟩ := hs
  refine ⟨tr, s, execute_trace hrun, publishRun_putsSucceed hrun (by simp [flappingAddr]) hpresent,
    ⟨List.isEmpty_iff.mp hpending, hbroadcasts⟩, fun hconverged => ?_⟩
  have hall : (s.status.currentPayloads hostLibp2p serdeJson).all (fun payload =>
      decide (s.records.published payload.1 = some payload.2)) = true := by
    refine List.all_eq_true.mpr fun payload hpayload => decide_eq_true ?_
    obtain ⟨record, hrecord, rfl⟩ := List.mem_map.mp hpayload
    exact hconverged record hrecord
  rw [hall] at hstale
  cases hstale

/-- The run up to the end of the first put. -/
theorem publication_converges_steadyAddr :
    ∃ (tr : List (PublishTransition hostLibp2p)) (s : Publisher),
      tr.map Transition.input = flappingAddr.take 5 ∧
      PublishRun serdeJson hostPeerId (fun _ _ => true) .default "" tr s ∧
      PutsSucceed (fun _ _ => true) tr ∧
      ((∀ x ∈ tr, KeepsRecords serdeJson hostPeerId x) → s.Quiet →
          s.Converged serdeJson hostLibp2p) ∧
        ∀ pre x, tr = pre ++ [x] → (∀ y ∈ pre, KeepsRecords serdeJson hostPeerId y) →
          ¬ KeepsRecords serdeJson hostPeerId x →
            ∃ queries, (s.afterPuts queries).Quiet ∧
              ¬ (s.afterPuts queries).Converged serdeJson hostLibp2p := by
  have h : (publishRun (flappingAddr.take 5)).map (fun r =>
      r.1.all fun x => !x.input.publishes || x.after.hasActiveDhtPeer) = some true := by
    decide +kernel
  obtain ⟨⟨tr, s⟩, hrun, hpresent⟩ := Option.map_eq_some_iff.mp h
  have hputs := publishRun_putsSucceed hrun (by simp [flappingAddr]) hpresent
  exact ⟨tr, s, execute_inputs hrun, execute_trace hrun, hputs,
    publication_converges (execute_trace hrun) hputs⟩

end Voicers
