import Voicers.Lib.Recent
import Voicers.Network.Invite
import Voicers.Network.StunProbes

/-! What the daemon shows of how it can be reached: the address lists, the
state of the NAT and the notes, written by the network task
(`network/swarm_events.rs`) and by the STUN probes (`network/stun.rs`), which
run next to it. -/

namespace Voicers

open Lib

structure Reachability where
  natStatus : String
  listenAddrs : List String
  externalAddrs : List String
  observedAddrs : List String
  stunAddrs : List String
  notes : List String
deriving DecidableEq

def startNotes (statePath : String) : List String :=
  ["Linux-first milestone: daemon owns per-peer logical buses.",
    "PipeWire node publication is planned after the transport and decode path.",
    "state file " ++ statePath]

def Reachability.start (statePath : String) : Reachability where
  natStatus := "detecting local reachability"
  listenAddrs := []
  externalAddrs := []
  observedAddrs := []
  stunAddrs := []
  notes := startNotes statePath

def insertUniqueNote (notes : List String) (note : String) : List String :=
  if notes.head? = some note then notes else (note :: notes).take 8

/-- `identified` is the note on the peer that Identify told about, when it is
shown; `note` stands for what every other part of the daemon notes. -/
inductive ReachEvent (lib : Libp2p)
  | newListenAddr (address : Multiaddr lib)
  | newExternalAddrCandidate (address : Multiaddr lib)
  | externalAddrConfirmed (address : Multiaddr lib)
  | externalAddrExpired (address : Multiaddr lib)
  | identifyReceived (identified : Option String) (observedAddr : String)
  | reservationReqAccepted (relayPeerId : String) (renewal : Bool)
  | upnpNewExternalAddr (address : Multiaddr lib)
  | upnpExpiredExternalAddr (address : Multiaddr lib)
  | upnpGatewayNotFound
  | upnpNonRoutableGateway
  | stunProbe (server : String) (calls : ProbeCalls)
  | note (text : String)

def stunRendered (server : String) (mappedAddr : SocketAddr) : String :=
  "stun:" ++ server ++ " -> " ++ mappedAddr.text

namespace Reachability

/-- The state with one more note, and that note. -/
def noting (r : Reachability) (text : String) : List String × Reachability :=
  ([text], { r with notes := insertUniqueNote r.notes text })

def recordProbe (r : Reachability) (server : String) :
    Except String SocketAddr → List String × Reachability
  | .ok mappedAddr => noting
    { r with
      stunAddrs := pushUnique r.stunAddrs (stunRendered server mappedAddr)
      natStatus := "STUN reflexive UDP endpoint " ++ mappedAddr.text }
    ("STUN observed " ++ stunRendered server mappedAddr)
  | .error error => r.noting ("STUN probe failed against " ++ server ++ ": " ++ error)

def step {lib : Libp2p} (pid : UInt32) (r : Reachability) :
    ReachEvent lib → Option (List String × Reachability)
  | .newListenAddr address => some
    (noting { r with listenAddrs := pushUnique r.listenAddrs address.text }
      ("listening on " ++ address.text))
  | .newExternalAddrCandidate address =>
    if isShareableMultiaddr lib address.components then some
      (noting { r with observedAddrs := pushUnique r.observedAddrs address.text }
        ("confirmed observed address " ++ address.text))
    else some ([], r)
  | .externalAddrConfirmed address => some
    (noting
      { r with
        externalAddrs := pushUnique r.externalAddrs address.text
        natStatus := if isRelayedAddr address.components then "relay reservation active"
          else "external address confirmed" }
      ("external address confirmed " ++ address.text))
  | .externalAddrExpired address => some
    (noting
      { r with
        externalAddrs := InviteState.removeAddr r.externalAddrs address.text
        observedAddrs := InviteState.removeAddr r.observedAddrs address.text }
      ("external address expired " ++ address.text))
  | .identifyReceived identified observedAddr =>
    let (texts, r) := match identified with
      | none => ([], r)
      | some peerId => r.noting ("identified session peer " ++ peerId)
    if observedAddr = "" then some (texts, r)
    else some (texts,
      { r with
        observedAddrs := pushUnique r.observedAddrs observedAddr
        natStatus := "observed by remote peers" })
  | .reservationReqAccepted relayPeerId renewal => some
    (noting { r with natStatus := "relay reservation accepted" }
      ("relay reservation " ++ (if renewal then "renewed" else "accepted") ++ " by " ++ relayPeerId))
  | .upnpNewExternalAddr address => some
    (noting
      { r with
        externalAddrs := pushUnique r.externalAddrs address.text
        natStatus := "upnp mapped" }
      ("UPnP mapped " ++ address.text))
  | .upnpExpiredExternalAddr address =>
    let externalAddrs := InviteState.removeAddr r.externalAddrs address.text
    some (noting
      { r with
        externalAddrs := externalAddrs
        natStatus := if externalAddrs = [] then "upnp mapping expired" else r.natStatus }
      ("UPnP mapping expired for " ++ address.text))
  | .upnpGatewayNotFound => some
    (noting { r with natStatus := "no upnp gateway found" } "UPnP gateway not found")
  | .upnpNonRoutableGateway => some
    (noting { r with natStatus := "gateway is not publicly routable" }
      "UPnP gateway is not publicly routable")
  | .stunProbe server calls => (probeStunServer pid server calls).map (r.recordProbe server)
  | .note text => some (r.noting text)

end Reachability

abbrev ReachTransition (lib : Libp2p) := Transition Reachability (ReachEvent lib) (List String)

namespace ReachEvent

variable {lib : Libp2p}

def listens : ReachEvent lib → Option String
  | .newListenAddr address => some address.text
  | _ => none

/-- The external address that an event brings, and the one it takes away. -/
def brings : ReachEvent lib → Option String
  | .externalAddrConfirmed address | .upnpNewExternalAddr address => some address.text
  | _ => none

def takes : ReachEvent lib → Option String
  | .externalAddrExpired address | .upnpExpiredExternalAddr address => some address.text
  | _ => none

def observes : ReachEvent lib → Option String
  | .newExternalAddrCandidate address =>
    if isShareableMultiaddr lib address.components then some address.text else none
  | .identifyReceived _ observedAddr => if observedAddr = "" then none else some observedAddr
  | _ => none

/-- Observed addresses expire with the external ones, but not with a mapping of UPnP. -/
def forgets : ReachEvent lib → Option String
  | .externalAddrExpired address => some address.text
  | _ => none

/-- The endpoint that a probe finds. -/
def probed (pid : UInt32) : ReachEvent lib → Option (String × SocketAddr)
  | .stunProbe server calls =>
    match probeStunServer pid server calls with
    | some (.ok mappedAddr) => some (server, mappedAddr)
    | _ => none
  | _ => none

/-- What an event says of the NAT; `left` are the external addresses it leaves. -/
def natStatus (pid : UInt32) (left : List String) : ReachEvent lib → Option String
  | .externalAddrConfirmed address => some (
    if isRelayedAddr address.components then "relay reservation active"
    else "external address confirmed")
  | .identifyReceived _ observedAddr =>
    if observedAddr = "" then none else some "observed by remote peers"
  | .reservationReqAccepted _ _ => some "relay reservation accepted"
  | .upnpNewExternalAddr _ => some "upnp mapped"
  | .upnpExpiredExternalAddr _ => if left = [] then some "upnp mapping expired" else none
  | .upnpGatewayNotFound => some "no upnp gateway found"
  | .upnpNonRoutableGateway => some "gateway is not publicly routable"
  | e@(.stunProbe _ _) => (e.probed pid).map fun found =>
    "STUN reflexive UDP endpoint " ++ found.2.text
  | _ => none

end ReachEvent

/-- A list of addresses through an event that takes one away and brings one. -/
def bookAddrs (taken brought : Option String) (addrs : List String) : List String :=
  brought.toList.foldl pushUnique (taken.elim addrs (InviteState.removeAddr addrs))

section

variable {lib : Libp2p} {pid : UInt32} {r r' : Reachability} {e : ReachEvent lib}
  {texts : List String} {tr : List (ReachTransition lib)} {statePath : String}

/-- What one event writes, list by list. -/
structure ReachWrites (pid : UInt32) (r : Reachability) (e : ReachEvent lib) (texts : List String)
    (r' : Reachability) : Prop where
  notes : r'.notes = texts.foldl insertUniqueNote r.notes
  listen : r'.listenAddrs = bookAddrs none e.listens r.listenAddrs
  external : r'.externalAddrs = bookAddrs e.takes e.brings r.externalAddrs
  observed : r'.observedAddrs = bookAddrs e.forgets e.observes r.observedAddrs
  stun : r'.stunAddrs =
    bookAddrs none ((e.probed pid).map fun found => stunRendered found.1 found.2) r.stunAddrs
  natStatus : r'.natStatus = (e.natStatus pid r'.externalAddrs).getD r.natStatus

theorem Reachability.step_writes (h : r.step pid e = some (texts, r')) :
    ReachWrites pid r e texts r' := by
  cases e with
  | newExternalAddrCandidate address =>
    rw [Reachability.step] at h
    split_ifs at h with hshare
    · cases h
      exact ⟨rfl, rfl, rfl, by simp [ReachEvent.observes, hshare]; rfl, rfl, rfl⟩
    · cases h
      exact ⟨rfl, rfl, rfl, by simp [ReachEvent.observes, hshare]; rfl, rfl, rfl⟩
  | identifyReceived identified observedAddr =>
    cases identified
    all_goals
      rw [Reachability.step] at h
      split_ifs at h with hempty
      all_goals
        cases h
        refine ⟨rfl, rfl, rfl, ?_, rfl, ?_⟩
        all_goals simp [ReachEvent.observes, ReachEvent.natStatus, bookAddrs, ReachEvent.forgets, hempty]
  | upnpExpiredExternalAddr address =>
    cases h
    refine ⟨rfl, rfl, rfl, rfl, rfl, ?_⟩
    by_cases hleft : InviteState.removeAddr r.externalAddrs address.text = []
    all_goals simp [ReachEvent.natStatus, hleft]
  | stunProbe server calls =>
    obtain ⟨result, hresult, hrecord⟩ := Option.map_eq_some_iff.mp h
    cases result with
    | error error =>
      cases hrecord
      have hnone : (.stunProbe server calls : ReachEvent lib).probed pid = none := by
        rw [ReachEvent.probed, hresult]
      exact ⟨rfl, rfl, rfl, rfl, by rw [hnone]; rfl, by rw [ReachEvent.natStatus, hnone]; rfl⟩
    | ok mappedAddr =>
      cases hrecord
      have hfound : (.stunProbe server calls : ReachEvent lib).probed pid =
          some (server, mappedAddr) := by rw [ReachEvent.probed, hresult]
      exact ⟨rfl, rfl, rfl, rfl, by rw [hfound]; rfl, by rw [ReachEvent.natStatus, hfound]; rfl⟩
  | _ =>
    cases h
    exact ⟨rfl, rfl, rfl, rfl, rfl, rfl⟩

theorem mem_bookAddrs {taken brought : Option String} {addrs : List String} {address : String} :
    address ∈ bookAddrs taken brought addrs ↔
      brought = some address ∨ address ∈ addrs ∧ taken ≠ some address := by
  have htaken : address ∈ taken.elim addrs (InviteState.removeAddr addrs) ↔
      address ∈ addrs ∧ taken ≠ some address := by
    cases taken with
    | none => simp
    | some other =>
      rw [Option.elim_some, InviteState.removeAddr, List.mem_filter, decide_eq_true_eq, ne_eq, ne_eq,
        Option.some.injEq, eq_comm]
  rw [bookAddrs, mem_foldl_pushUnique, htaken, Option.mem_toList, or_comm]

theorem nodup_bookAddrs {taken brought : Option String} {addrs : List String}
    (h : addrs.Nodup) : (bookAddrs taken brought addrs).Nodup := by
  have htaken : (taken.elim addrs (InviteState.removeAddr addrs)).Nodup := by
    cases taken with
    | none => exact h
    | some other => exact h.filter _
  exact nodup_foldl_pushUnique brought.toList htaken

/-- The lists of addresses of a run, each read off the events alone: what came
and did not leave afterwards. -/
structure ReachBooks (pid : UInt32) (tr : List (ReachTransition lib)) (r : Reachability) : Prop where
  listen address : address ∈ r.listenAddrs ↔ ∃ x ∈ tr, x.input.listens = some address
  external address : address ∈ r.externalAddrs ↔
    Since (fun x => x.input.brings = some address) (fun x => x.input.takes = some address) tr
  observed address : address ∈ r.observedAddrs ↔
    Since (fun x => x.input.observes = some address) (fun x => x.input.forgets = some address) tr
  stun text : text ∈ r.stunAddrs ↔ ∃ x ∈ tr, ∃ server mappedAddr,
    x.input.probed pid = some (server, mappedAddr) ∧ text = stunRendered server mappedAddr
  nodup : r.listenAddrs.Nodup ∧ r.externalAddrs.Nodup ∧ r.observedAddrs.Nodup ∧ r.stunAddrs.Nodup

theorem reachBooks_start (pid : UInt32) (statePath : String) :
    ReachBooks pid ([] : List (ReachTransition lib)) (.start statePath) where
  listen address := by simp [Reachability.start]
  external address := iff_of_false (List.not_mem_nil) (not_since_nil _ _)
  observed address := iff_of_false (List.not_mem_nil) (not_since_nil _ _)
  stun text := by simp [Reachability.start]
  nodup := ⟨.nil, .nil, .nil, .nil⟩

/-- What one event writes is what the books say of it. -/
theorem ReachBooks.snoc {x : ReachTransition lib} (h : ReachBooks pid tr x.before)
    (hwrites : ReachWrites pid x.before x.input x.output x.after) :
    ReachBooks pid (tr ++ [x]) x.after where
  listen address := by
    rw [hwrites.listen, mem_bookAddrs, h.listen]
    simp [or_and_right, exists_or, or_comm]
  external address := by
    rw [hwrites.external, mem_bookAddrs, h.external, since_snoc]
  observed address := by
    rw [hwrites.observed, mem_bookAddrs, h.observed, since_snoc]
  stun text := by
    rw [hwrites.stun, mem_bookAddrs, h.stun]
    simp [or_and_right, exists_or, or_comm, eq_comm]
  nodup := by
    obtain ⟨hlisten, hexternal, hobserved, hstun⟩ := h.nodup
    rw [hwrites.listen, hwrites.external, hwrites.observed, hwrites.stun]
    exact ⟨nodup_bookAddrs hlisten, nodup_bookAddrs hexternal, nodup_bookAddrs hobserved,
      nodup_bookAddrs hstun⟩

theorem insertUniqueNote_eq : insertUniqueNote = pushRecent 8 := rfl

theorem startNotes_recent (statePath : String) :
    startNotes statePath = ((startNotes statePath).destutter (· ≠ ·)).take 8 := by
  have hchain : (startNotes statePath).IsChain (· ≠ ·) := by
    refine .cons_cons (by decide) (.cons_cons (fun h => ?_) (.singleton _))
    have hfirst := congrArg (fun text => text.toList.head?) h
    rw [String.toList_append] at hfirst
    have hstate : "state file ".toList.head? = some 's' := by decide
    rw [List.head?_append, hstate, Option.some_or] at hfirst
    exact absurd hfirst (by decide)
  rw [List.destutter_of_isChain _ _ hchain]
  rfl

theorem Reachability.step_total (pid : UInt32) (r : Reachability) (e : ReachEvent lib) :
    ∃ texts r', r.step pid e = some (texts, r') := by
  have hsome : (r.step pid e).isSome = true := by
    cases e with
    | newExternalAddrCandidate => exact apply_ite Option.isSome .. |>.trans (ite_self _)
    | identifyReceived => exact apply_ite Option.isSome .. |>.trans (ite_self _)
    | stunProbe server calls =>
      rw [Reachability.step, Option.isSome_map]
      exact probeStunServer_isSome server calls
    | _ => rfl
  obtain ⟨⟨texts, r'⟩, hstep⟩ := Option.isSome_iff_exists.mp hsome
  exact ⟨texts, r', hstep⟩

abbrev ReachRun (pid : UInt32) (statePath : String) (tr : List (ReachTransition lib))
    (r : Reachability) : Prop :=
  Trace (Reachability.step pid) (.start statePath) tr r

theorem ReachRun.notes (h : ReachRun pid statePath tr r) :
    r.notes = (((tr.flatMap Transition.output).reverse ++ startNotes statePath).destutter
      (· ≠ ·)).take 8 := by
  have hfold : r.notes = (tr.flatMap Transition.output).foldl insertUniqueNote
      (startNotes statePath) := by
    refine h.snoc_induction (P := fun tr r => r.notes =
      (tr.flatMap Transition.output).foldl insertUniqueNote (startNotes statePath)) rfl ?_
    intro tr x _ hstep ih
    rw [(Reachability.step_writes hstep).notes, ih, List.flatMap_append, List.foldl_append,
      List.flatMap_singleton]
  rw [hfold, startNotes_recent, insertUniqueNote_eq, foldl_pushRecent (by decide),
    ← startNotes_recent]

theorem ReachRun.books (h : ReachRun pid statePath tr r) : ReachBooks pid tr r :=
  h.snoc_induction (P := ReachBooks pid) (reachBooks_start pid statePath)
    fun _ _ _ hstep ih => ih.snoc (Reachability.step_writes hstep)

theorem ReachRun.natStatus (h : ReachRun pid statePath tr r) :
    r.natStatus = (tr.filterMap fun x =>
      x.input.natStatus pid x.after.externalAddrs).getLast?.getD "detecting local reachability" := by
  refine h.snoc_induction (P := fun tr r => r.natStatus = (tr.filterMap fun x =>
    x.input.natStatus pid x.after.externalAddrs).getLast?.getD "detecting local reachability")
    rfl ?_
  intro tr x _ hstep ih
  rw [(Reachability.step_writes hstep).natStatus, List.filterMap_append, ih]
  cases hstatus : x.input.natStatus pid x.after.externalAddrs with
  | none => simp [hstatus]
  | some status => simp [hstatus]

/-- After any run of events, whatever the probes met, the notes are the eight
newest without repetitions, the lists hold what came and was not taken away
since, and the state of the NAT is the last one an event told. -/
theorem reachability_recorded (pid : UInt32) (statePath : String)
    (events : List (ReachEvent lib)) : ∃ tr r,
    execute (Reachability.step pid) (.start statePath) events = some (tr, r) ∧
      r.notes = (((tr.flatMap Transition.output).reverse ++ startNotes statePath).destutter
        (· ≠ ·)).take 8 ∧
      ReachBooks pid tr r ∧
      r.natStatus = (tr.filterMap fun x =>
        x.input.natStatus pid x.after.externalAddrs).getLast?.getD "detecting local reachability" := by
  obtain ⟨tr, r, hrun⟩ := execute_total (Reachability.step_total pid) (.start statePath) events
  have htr : ReachRun pid statePath tr r := execute_trace hrun
  exact ⟨tr, r, hrun, htr.notes, htr.books, htr.natStatus⟩

end

end Voicers
