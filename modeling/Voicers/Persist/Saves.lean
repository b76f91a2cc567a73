import Voicers.Core.Rooms
import Voicers.Lib.Trace
import Voicers.Network.Daemon

/-! The state file (`persist.rs`). A save writes a temporary file and renames
it into place; a save of the network task takes the rooms from the file it
replaces. All saves share one temporary file and no lock, and each of their
file-system steps may come between those of the others. -/

namespace Voicers

open Lib

structure StateFile extends PersistedState where
  rooms : List RoomSummary
  lastShareInvite : Option String
deriving DecidableEq

def StateFile.default : StateFile where
  localDisplayName := none
  knownPeerAddrs := []
  knownPeers := []
  ignoredPeerIds := []
  pathScores := []
  rooms := []
  lastShareInvite := none

/-- What the network task must not lose. -/
def StateFile.roomData (state : StateFile) : List RoomSummary × Option String :=
  (state.rooms, state.localDisplayName)

/-- The file format: what has been encoded decodes to itself. -/
structure StateFormat where
  Bytes : Type
  encode : StateFile → Bytes
  decode : Bytes → Option StateFile
  decode_encode : ∀ state, decode (encode state) = some state

structure Disk (φ : StateFormat) where
  file : Option φ.Bytes
  tmp : Option φ.Bytes

variable {φ : StateFormat}

/-- `none` is an error of the decoder. -/
def Disk.load (disk : Disk φ) : Option StateFile :=
  match disk.file with
  | none => some .default
  | some bytes => φ.decode bytes

/-- The state `save_network` writes over the existing one. -/
def networkState (existing : StateFile) (network : NetworkSummary)
    (directCallInvite : Option String) : StateFile where
  localDisplayName := existing.localDisplayName
  rooms := existing.rooms
  knownPeerAddrs := network.savedPeerAddrs
  knownPeers := network.knownPeers
  ignoredPeerIds := network.ignoredPeerIds
  lastShareInvite := directCallInvite
  pathScores := network.pathScores

/-- A call of `save_network` (which starts with reading) or of `save_full`,
before its next step. -/
inductive SaveCall
  | reading (network : NetworkSummary) (directCallInvite : Option String)
  | writing (full : Bool) (state : StateFile)
  | moving (full : Bool) (state : StateFile)
  | finished (ok : Bool)

def SaveCall.succeeded : SaveCall → Bool
  | .finished ok => ok
  | _ => false

theorem SaveCall.succeeded_iff {call : SaveCall} :
    call.succeeded = true ↔ call = .finished true := by
  cases call with
  | finished ok => simp [SaveCall.succeeded]
  | _ => simp [SaveCall.succeeded]

/-- The disk, the calls in the order in which they began, and the state of
the last `save_full` whose rename has completed. -/
structure SaveState (φ : StateFormat) where
  disk : Disk φ
  calls : List SaveCall
  lastFull : Option StateFile

inductive SaveEvent
  | saveNetwork (network : NetworkSummary) (directCallInvite : Option String)
  | saveFull (state : StateFile)
  | advance (index : Nat)

namespace SaveState

/-- The next step of a call; the rename of a missing file fails. -/
def advance (s : SaveState φ) (index : Nat) : SaveCall → Option (SaveState φ)
  | .reading network directCallInvite =>
    let existing := s.disk.load.getD .default
    some { s with
      calls := s.calls.set index (.writing false (networkState existing network directCallInvite)) }
  | .writing full state =>
    some { s with
      disk := { s.disk with tmp := some (φ.encode state) }
      calls := s.calls.set index (.moving full state) }
  | .moving full state =>
    match s.disk.tmp with
    | none => some { s with calls := s.calls.set index (.finished false) }
    | some bytes =>
      some {
        disk := { file := some bytes, tmp := none }
        calls := s.calls.set index (.finished true)
        lastFull := if full then some state else s.lastFull }
  | .finished _ => none

def step (s : SaveState φ) : SaveEvent → Option (Unit × SaveState φ)
  | .saveNetwork network directCallInvite =>
    some ((), { s with calls := s.calls ++ [.reading network directCallInvite] })
  | .saveFull state => some ((), { s with calls := s.calls ++ [.writing true state] })
  | .advance index => ((s.calls[index]?).bind (s.advance index)).map fun t => ((), t)

/-- The step mixes up no two saves with different rooms or names: it neither
overwrites the temporary file of another call that is about to rename it, nor
completes a `save_full` while a `save_network` holds what it read before. -/
def separate (s : SaveState φ) : SaveEvent → Bool
  | .advance index =>
    match s.calls[index]? with
    | some (.writing _ state) => s.calls.all fun
        | .moving _ other => other.roomData = state.roomData
        | _ => true
    | some (.moving true state) => s.calls.all fun
        | .writing false other => other.roomData = state.roomData
        | .moving false other => other.roomData = state.roomData
        | _ => true
    | _ => true
  | _ => true

/-- After a completed save the file decodes, with the rooms and the name of
the last completed `save_full`. -/
structure Saved (s : SaveState φ) : Prop where
  decodes : .finished true ∈ s.calls → s.disk.load.isSome = true
  latest : ∀ full, s.lastFull = some full →
    ∃ state, s.disk.load = some state ∧ state.roomData = full.roomData

/-- What a `save_network` has read and what stands in the temporary file goes
with the last completed `save_full` and with the calls about to rename. -/
structure Consistent (s : SaveState φ) : Prop extends s.Saved where
  read : ∀ state, .writing false state ∈ s.calls ∨ .moving false state ∈ s.calls →
    ∀ full, s.lastFull = some full → state.roomData = full.roomData
  tmp : ∀ full state, .moving full state ∈ s.calls → ∀ bytes, s.disk.tmp = some bytes →
    ∃ other, φ.decode bytes = some other ∧ other.roomData = state.roomData

section

variable {s t : SaveState φ} {index : Nat}

theorem Consistent.begin (h : s.Consistent) {call : SaveCall}
    (hcall : (∃ network invite, call = .reading network invite) ∨ ∃ state, call = .writing true state) :
    Consistent { s with calls := s.calls ++ [call] } := by
  have hold : ∀ c, c ∈ s.calls ++ [call] → c ∈ s.calls ∨ c = call := by
    intro c hc
    simpa using hc
  have hnew : ∀ full state, call ≠ .moving full state ∧ call ≠ .writing false state ∧
      call ≠ .finished full := by
    rcases hcall with ⟨_, _, rfl⟩ | ⟨_, rfl⟩
    · simp
    · simp
  refine ⟨⟨fun hfin => ?_, h.latest⟩, fun state hstate => ?_, fun full state hren => ?_⟩
  · exact h.decodes ((hold _ hfin).resolve_right fun he => (hnew true .default).2.2 he.symm)
  · apply h.read state
    rcases hstate with hw | hr
    · exact .inl ((hold _ hw).resolve_right fun he => (hnew true state).2.1 he.symm)
    · exact .inr ((hold _ hr).resolve_right fun he => (hnew false state).1 he.symm)
  · exact h.tmp full state ((hold _ hren).resolve_right fun he => (hnew full state).1 he.symm)

theorem Consistent.readFile (h : s.Consistent) (network : NetworkSummary)
    (directCallInvite : Option String) :
    Consistent { s with
      calls := s.calls.set index
        (.writing false (networkState (s.disk.load.getD .default) network directCallInvite)) } := by
  refine ⟨⟨fun hfin => ?_, h.latest⟩, fun state hstate full hfull => ?_, fun full state hren => ?_⟩
  · rcases List.mem_or_eq_of_mem_set hfin with hc | hc
    · exact h.decodes hc
    · cases hc
  · rcases hstate with hw | hr
    · rcases List.mem_or_eq_of_mem_set hw with hc | hc
      · exact h.read state (.inl hc) full hfull
      · cases hc
        obtain ⟨loaded, hload, hsame⟩ := h.latest full hfull
        simp only [hload, Option.getD_some]
        exact hsame
    · rcases List.mem_or_eq_of_mem_set hr with hc | hc
      · exact h.read state (.inr hc) full hfull
      · cases hc
  · rcases List.mem_or_eq_of_mem_set hren with hc | hc
    · exact h.tmp full state hc
    · cases hc

theorem Consistent.write (h : s.Consistent) {full : Bool} {state : StateFile}
    (hcall : s.calls[index]? = some (.writing full state))
    (hsep : s.separate (.advance index) = true) :
    Consistent { s with
      disk := { s.disk with tmp := some (φ.encode state) }
      calls := s.calls.set index (.moving full state) } := by
  simp only [separate, hcall, List.all_eq_true] at hsep
  refine ⟨⟨fun hfin => ?_, h.latest⟩, fun other hother last hlast => ?_, fun f other hren => ?_⟩
  · rcases List.mem_or_eq_of_mem_set hfin with hc | hc
    · exact h.decodes hc
    · cases hc
  · rcases hother with hw | hr
    · rcases List.mem_or_eq_of_mem_set hw with hc | hc
      · exact h.read other (.inl hc) last hlast
      · cases hc
    · rcases List.mem_or_eq_of_mem_set hr with hc | hc
      · exact h.read other (.inr hc) last hlast
      · cases hc
        exact h.read state (.inl (List.mem_of_getElem? hcall)) last hlast
  · intro bytes hbytes
    obtain rfl := Option.some.inj hbytes
    refine ⟨state, φ.decode_encode state, ?_⟩
    rcases List.mem_or_eq_of_mem_set hren with hc | hc
    · exact (of_decide_eq_true (hsep _ hc)).symm
    · cases hc
      rfl

theorem Consistent.lose (h : s.Consistent) :
    Consistent { s with calls := s.calls.set index (.finished false) } := by
  refine ⟨⟨fun hfin => ?_, h.latest⟩, fun other hother => ?_, fun f other hren => ?_⟩
  · rcases List.mem_or_eq_of_mem_set hfin with hc | hc
    · exact h.decodes hc
    · cases hc
  · apply h.read other
    rcases hother with hw | hr
    · exact .inl ((List.mem_or_eq_of_mem_set hw).resolve_right (by simp))
    · exact .inr ((List.mem_or_eq_of_mem_set hr).resolve_right (by simp))
  · exact h.tmp f other ((List.mem_or_eq_of_mem_set hren).resolve_right (by simp))

theorem Consistent.rename (h : s.Consistent) {full : Bool} {state : StateFile} {bytes : φ.Bytes}
    (hcall : s.calls[index]? = some (.moving full state)) (htmp : s.disk.tmp = some bytes)
    (hsep : s.separate (.advance index) = true) :
    Consistent {
      disk := { file := some bytes, tmp := none }
      calls := s.calls.set index (.finished true)
      lastFull := if full then some state else s.lastFull } := by
  obtain ⟨written, hdecode, hsame⟩ := h.tmp full state (List.mem_of_getElem? hcall) bytes htmp
  refine ⟨⟨fun _ => ?_, fun last hlast => ⟨written, hdecode, hsame.trans ?_⟩⟩,
    fun other hother last hlast => ?_, fun f other hren bytes' hbytes => ?_⟩
  · simp [Disk.load, hdecode]
  · cases full with
    | true =>
      obtain rfl := Option.some.inj hlast
      rfl
    | false => exact h.read state (.inr (List.mem_of_getElem? hcall)) last hlast
  · have hold : .writing false other ∈ s.calls ∨ .moving false other ∈ s.calls := by
      rcases hother with hw | hr
      · exact .inl ((List.mem_or_eq_of_mem_set hw).resolve_right (by simp))
      · exact .inr ((List.mem_or_eq_of_mem_set hr).resolve_right (by simp))
    cases full with
    | true =>
      obtain rfl := Option.some.inj hlast
      simp only [separate, hcall, List.all_eq_true] at hsep
      rcases hold with hw | hr
      · exact of_decide_eq_true (hsep _ hw)
      · exact of_decide_eq_true (hsep _ hr)
    | false => exact h.read other hold last hlast
  · cases hbytes

theorem Consistent.step {e : SaveEvent} (h : s.Consistent) (hsep : s.separate e = true)
    (hstep : s.step e = some ((), t)) : t.Consistent := by
  cases e with
  | saveNetwork network directCallInvite =>
    obtain rfl := (Prod.mk.inj (Option.some.inj hstep)).2
    exact h.begin (.inl ⟨network, directCallInvite, rfl⟩)
  | saveFull state =>
    obtain rfl := (Prod.mk.inj (Option.some.inj hstep)).2
    exact h.begin (.inr ⟨state, rfl⟩)
  | advance index =>
    simp only [SaveState.step, Option.map_eq_some_iff, Option.bind_eq_some_iff, Prod.mk.injEq,
      true_and, exists_eq_right] at hstep
    obtain ⟨call, hcall, hstep⟩ := hstep
    cases call with
    | reading network directCallInvite =>
      obtain rfl := Option.some.inj hstep
      exact h.readFile network directCallInvite
    | writing full state =>
      obtain rfl := Option.some.inj hstep
      exact h.write hcall hsep
    | moving full state =>
      cases htmp : s.disk.tmp with
      | none =>
        simp only [SaveState.advance, htmp, Option.some.injEq] at hstep
        subst hstep
        exact h.lose
      | some bytes =>
        simp only [SaveState.advance, htmp, Option.some.injEq] at hstep
        subst hstep
        exact h.rename hcall htmp hsep
    | finished ok => cases hstep

end

end SaveState

/-- A disk in any state, with no save under way. -/
def SaveState.start (disk : Disk φ) : SaveState φ where
  disk := disk
  calls := []
  lastFull := none

def saveRun (disk : Disk φ) (events : List SaveEvent) :
    Option (List (Transition (SaveState φ) SaveEvent Unit) × SaveState φ) :=
  execute SaveState.step (SaveState.start disk) events

theorem consistent_start (disk : Disk φ) : (SaveState.start disk).Consistent where
  decodes h := by simp [SaveState.start] at h
  latest full h := by simp [SaveState.start] at h
  read state h := by simp [SaveState.start] at h
  tmp full state h := by simp [SaveState.start] at h

/-- No save is lost in a run that mixes up no two saves: at any time the file
holds the rooms of the last completed `save_full`. -/
theorem saves_lose_no_rooms {disk : Disk φ} {events : List SaveEvent}
    {tr : List (Transition (SaveState φ) SaveEvent Unit)} {s : SaveState φ}
    (h : saveRun disk events = some (tr, s))
    (hsep : ∀ x ∈ tr, x.before.separate x.input = true) : s.Saved := by
  have hconsistent : s.Consistent := (execute_trace h).invariant_on
    (fun x hx hi hstep => SaveState.Consistent.step hi hx hstep) hsep (consistent_start disk)
  exact hconsistent.toSaved

def plainFormat : StateFormat where
  Bytes := StateFile
  encode := id
  decode := some
  decode_encode _ := rfl

def emptyDisk : Disk plainFormat where
  file := none
  tmp := none

def sampleRoom : RoomSummary where
  name := "room"
  engaged := true
  roles := []
  members := []
  currentInvite := none

def roomFile : StateFile :=
  { StateFile.default with
    localDisplayName := some "local-user"
    rooms := [sampleRoom] }

/-- The network task reads the file, the control task saves a new room, and
the network task writes what it has read. -/
def overtakenSave : List SaveEvent :=
  [.saveNetwork (bootstrap ⟨none, [], [], [], []⟩ "" "").network none, .saveFull roomFile,
    .advance 0, .advance 1, .advance 1, .advance 0, .advance 0]

theorem overtakenSave_loses_room :
    ∃ tr s, saveRun emptyDisk overtakenSave = some (tr, s) ∧
      (∀ call ∈ s.calls, call = .finished true) ∧ ¬ s.Saved := by
  have h : (saveRun emptyDisk overtakenSave).map (fun r =>
      (r.2.calls.all SaveCall.succeeded, r.2.lastFull, r.2.disk.load.map StateFile.rooms)) =
      some (true, some roomFile, some []) := by decide +kernel
  obtain ⟨⟨tr, s⟩, hrun, hs⟩ := Option.map_eq_some_iff.mp h
  obtain ⟨hdone, hs⟩ := Prod.mk.inj hs
  obtain ⟨hlast, hload⟩ := Prod.mk.inj hs
  refine ⟨tr, s, hrun, fun call hcall => ?_, fun hsaved => ?_⟩
  · exact SaveCall.succeeded_iff.mp (List.all_eq_true.mp hdone call hcall)
  · obtain ⟨state, hstate, hrooms⟩ := hsaved.latest roomFile hlast
    simp only [hstate, Option.map_some, Option.some.injEq] at hload
    have hempty : roomFile.rooms = [] := (Prod.mk.inj hrooms).1.symm.trans hload
    exact absurd hempty (by decide)

/-- The same two saves, one after the other. -/
def orderedSaves : List SaveEvent :=
  [.saveFull roomFile, .advance 0, .advance 0,
    .saveNetwork (bootstrap ⟨none, [], [], [], []⟩ "" "").network none,
    .advance 1, .advance 1, .advance 1]

theorem saves_lose_no_rooms_orderedSaves :
    ∃ tr s, saveRun emptyDisk orderedSaves = some (tr, s) ∧ s.Saved := by
  have h : (saveRun emptyDisk orderedSaves).map (fun r =>
      r.1.all fun x => x.before.separate x.input) = some true := by decide +kernel
  obtain ⟨⟨tr, s⟩, hrun, hsep⟩ := Option.map_eq_some_iff.mp h
  exact ⟨tr, s, hrun, saves_lose_no_rooms hrun fun x hx => List.all_eq_true.mp hsep x hx⟩

end Voicers
