import Voicers.Media.Receive
import Voicers.Network.DaemonStep
import Voicers.Persist.Saves

/-! A state file that cannot be loaded. A start and a save of the network task
take the default state for it, and the save then writes that over the file.
Each save is one step here; their order is all that matters. -/

namespace Voicers

open Lib

variable {κ : Codec} {lib : Libp2p} {φ : StateFormat}

def readState : Option φ.Bytes → Option StateFile
  | none => some .default
  | some bytes => φ.decode bytes

/-- The file system may refuse to read a file that is there. -/
def Disk.loadIf (disk : Disk φ) (readable : Bool) : Option StateFile :=
  if readable || disk.file.isNone then disk.load else none

/-- A save that fails may leave anything in the temporary file. -/
inductive SaveOutcome (φ : StateFormat)
  | failed (tmp : Option φ.Bytes)
  | moved

def Disk.save (disk : Disk φ) (state : StateFile) : SaveOutcome φ → Disk φ
  | .failed tmp => { disk with tmp := tmp }
  | .moved => { file := some (φ.encode state), tmp := none }

def Disk.saveNetwork (disk : Disk φ) (network : NetworkSummary) (directCallInvite : Option String)
    (readable : Bool) (outcome : SaveOutcome φ) : Disk φ :=
  disk.save (networkState ((disk.loadIf readable).getD .default) network directCallInvite) outcome

structure StoredDaemon (κ : Codec) (φ : StateFormat) where
  daemon : Daemon κ
  disk : Disk φ

/-- `outside` stands for other programs, a newer version among them, and for
the file system, which may damage or lose the file. -/
inductive StoreEvent (κ : Codec) (lib : Libp2p) (φ : StateFormat)
  | bootstrap (displayName localPeerId : String) (readable : Bool)
  | network (event : Event κ lib)
  | saveNetwork (directCallInvite : Option String) (readable : Bool) (outcome : SaveOutcome φ)
  | saveFull (state : StateFile) (outcome : SaveOutcome φ)
  | outside (file : Option φ.Bytes)

def StoredDaemon.step (π : Profile) (s : StoredDaemon κ φ) :
    StoreEvent κ lib φ → Option (List (Effect κ) × StoredDaemon κ φ)
  | .bootstrap displayName localPeerId readable =>
    let persisted := (s.disk.loadIf readable).getD .default
    some ([], { s with
      daemon := .start (Voicers.bootstrap persisted.toPersistedState displayName localPeerId) })
  | .network event =>
    let r := s.daemon.handle π lib event
    some (r.2, { s with daemon := r.1 })
  | .saveNetwork directCallInvite readable outcome =>
    some ([], { s with disk :=
      s.disk.saveNetwork s.daemon.status.network directCallInvite readable outcome })
  | .saveFull state outcome => some ([], { s with disk := s.disk.save state outcome })
  | .outside file => some ([], { s with disk := { s.disk with file := file } })

abbrev StoreTransition (κ : Codec) (lib : Libp2p) (φ : StateFormat) :=
  Transition (StoredDaemon κ φ) (StoreEvent κ lib φ) (List (Effect κ))

/-- The file is written by someone else than the network task. -/
def StoreEvent.replaces : StoreEvent κ lib φ → Bool
  | .saveFull _ .moved => true
  | .outside _ => true
  | _ => false

/-- The file that the network task has to keep the rooms of. -/
def keptFile (first : Option φ.Bytes) (tr : List (StoreTransition κ lib φ)) : Option φ.Bytes :=
  tr.foldl (fun file x => if x.input.replaces then x.after.disk.file else file) first

/-- The file is still the kept one, or both decode to the same rooms and name. -/
def KeepsRooms (kept file : Option φ.Bytes) : Prop :=
  file = kept ∨ ∃ old new, readState kept = some old ∧ readState file = some new ∧
    new.roomData = old.roomData

/-- A save of the network task that completes has loaded the file before, or
the file holds neither rooms nor a name. -/
def LoadsFile (x : StoreTransition κ lib φ) : Prop :=
  ∀ directCallInvite readable, x.input = .saveNetwork directCallInvite readable .moved →
    (∃ state, x.before.disk.loadIf readable = some state) ∨
      ∃ state, x.before.disk.load = some state ∧ state.roomData = StateFile.default.roomData

section

variable {disk : Disk φ} {kept file : Option φ.Bytes} {state : StateFile}

theorem load_eq_readState (disk : Disk φ) : disk.load = readState disk.file := by
  unfold Disk.load readState
  cases disk.file with
  | none => rfl
  | some bytes => rfl

theorem loadIf_eq_some {readable : Bool} (h : disk.loadIf readable = some state) :
    disk.load = some state := by
  unfold Disk.loadIf at h
  split_ifs at h
  exact h

theorem networkState_roomData (existing : StateFile) (network : NetworkSummary)
    (directCallInvite : Option String) :
    (networkState existing network directCallInvite).roomData = existing.roomData := rfl

theorem keepsRooms_encode_iff :
    KeepsRooms kept (some (φ.encode state)) ↔
      ∃ old, readState kept = some old ∧ old.roomData = state.roomData := by
  have hread : readState (some (φ.encode state)) = some state := φ.decode_encode state
  constructor
  · rintro (rfl | ⟨old, new, hold, hnew, hsame⟩)
    · exact ⟨state, hread, rfl⟩
    · rw [hread] at hnew
      obtain rfl := Option.some.inj hnew
      exact ⟨old, hold, hsame.symm⟩
  · rintro ⟨old, hold, hsame⟩
    exact .inr ⟨old, state, hold, hread, hsame.symm⟩

/-- A file that decodes shows the rooms of the kept one. -/
theorem KeepsRooms.decodes (h : KeepsRooms kept file) (hfile : readState file = some state) :
    ∃ old, readState kept = some old ∧ old.roomData = state.roomData := by
  rcases h with rfl | ⟨old, new, hold, hnew, hsame⟩
  · exact ⟨state, hfile, rfl⟩
  · rw [hfile] at hnew
    obtain rfl := Option.some.inj hnew
    exact ⟨old, hold, hsame.symm⟩

theorem KeepsRooms.undecodable (h : KeepsRooms kept file) (hkept : readState kept = none) :
    file = kept := by
  rcases h with hsame | ⟨old, new, hold, _⟩
  · exact hsame
  · rw [hkept] at hold
    cases hold

/-- The save keeps the rooms exactly when what it found for them, the state it
loaded or else the default one, has those of the file. -/
theorem saveNetwork_keepsRooms_iff (h : KeepsRooms kept disk.file) (network : NetworkSummary)
    (directCallInvite : Option String) (readable : Bool) :
    KeepsRooms kept (disk.saveNetwork network directCallInvite readable .moved).file ↔
      (∃ state, disk.loadIf readable = some state) ∨
        ∃ state, disk.load = some state ∧ state.roomData = StateFile.default.roomData := by
  refine keepsRooms_encode_iff.trans ?_
  rw [networkState_roomData]
  cases hload : disk.loadIf readable with
  | some state =>
    have hfile := (load_eq_readState disk).symm.trans (loadIf_eq_some hload)
    exact iff_of_true (h.decodes hfile) (.inl ⟨state, rfl⟩)
  | none =>
    simp only [Option.getD_none, reduceCtorEq, exists_false, false_or]
    constructor
    · rintro ⟨old, hold, hdefault⟩
      rcases h with hsame | ⟨old', new, hold', hnew, hsame⟩
      · refine ⟨old, ?_, hdefault⟩
        rw [load_eq_readState, hsame, hold]
      · rw [hold] at hold'
        obtain rfl := Option.some.inj hold'
        exact ⟨new, (load_eq_readState disk).trans hnew, hsame.trans hdefault⟩
    · rintro ⟨state, hstate, hdefault⟩
      obtain ⟨old, hold, hsame⟩ := h.decodes ((load_eq_readState disk).symm.trans hstate)
      exact ⟨old, hold, hsame.trans hdefault⟩

theorem keptFile_snoc (first : Option φ.Bytes) (tr : List (StoreTransition κ lib φ))
    (x : StoreTransition κ lib φ) : keptFile first (tr ++ [x]) =
      if x.input.replaces then x.after.disk.file else keptFile first tr := by
  simp only [keptFile, List.foldl_append, List.foldl_cons, List.foldl_nil]

variable {π : Profile} {s₀ s : StoredDaemon κ φ} {tr : List (StoreTransition κ lib φ)}
  {x : StoreTransition κ lib φ} {first : Option φ.Bytes}

theorem keepsRooms_step (hstep : x.before.step π x.input = some (x.output, x.after))
    (h : KeepsRooms (keptFile first tr) x.before.disk.file) :
    KeepsRooms (keptFile first (tr ++ [x])) x.after.disk.file ↔ LoadsFile x := by
  rw [keptFile_snoc]
  cases hinput : x.input with
  | bootstrap displayName localPeerId readable =>
    rw [hinput] at hstep
    obtain ⟨_, hafter⟩ := Prod.mk.inj (Option.some.inj hstep)
    refine iff_of_true ?_ fun _ _ hsave => by simp [hinput] at hsave
    rw [← hafter]
    exact h
  | network event =>
    rw [hinput] at hstep
    obtain ⟨_, hafter⟩ := Prod.mk.inj (Option.some.inj hstep)
    refine iff_of_true ?_ fun _ _ hsave => by simp [hinput] at hsave
    rw [← hafter]
    exact h
  | saveNetwork directCallInvite readable outcome =>
    rw [hinput] at hstep
    obtain ⟨_, hafter⟩ := Prod.mk.inj (Option.some.inj hstep)
    rw [← hafter]
    cases outcome with
    | failed tmp => exact iff_of_true h fun _ _ hsave => by simp [hinput] at hsave
    | moved =>
      refine (saveNetwork_keepsRooms_iff h _ directCallInvite readable).trans ⟨?_, fun hloads => ?_⟩
      · rintro hload _ _ hsave
        obtain ⟨rfl, rfl, _⟩ := StoreEvent.saveNetwork.inj (hinput.symm.trans hsave)
        exact hload
      · exact hloads directCallInvite readable hinput
  | saveFull state outcome =>
    rw [hinput] at hstep
    obtain ⟨_, hafter⟩ := Prod.mk.inj (Option.some.inj hstep)
    refine iff_of_true ?_ fun _ _ hsave => by simp [hinput] at hsave
    cases outcome with
    | failed tmp =>
      rw [← hafter]
      exact h
    | moved => exact .inl rfl
  | outside file => exact iff_of_true (.inl rfl) fun _ _ hsave => by simp [hinput] at hsave

/-- The network task keeps the rooms of the file all along a run exactly when
each of its saves loads the file first; then a file that does not decode stays
as it is. -/
theorem stored_rooms_kept_iff (hrun : Trace (StoredDaemon.step π) s₀ tr s) :
    (Along (fun pre x => KeepsRooms (keptFile s₀.disk.file (pre ++ [x])) x.after.disk.file) tr ↔
        ∀ x ∈ tr, LoadsFile x) ∧
      ((∀ x ∈ tr, LoadsFile x) → readState (keptFile s₀.disk.file tr) = none →
        s.disk.file = keptFile s₀.disk.file tr) := by
  constructor
  · rw [← along_iff_mem]
    refine hrun.along_iff (J := fun _ _ => True)
      (I := fun tr s => KeepsRooms (keptFile s₀.disk.file tr) s.disk.file) trivial (.inl rfl) ?_ ?_
    · exact fun _ _ _ _ => trivial
    · exact fun _ _ hstep _ hkeeps => keepsRooms_step hstep hkeeps
  · intro hloads
    have hkeeps := (hrun.along (I := fun tr s => KeepsRooms (keptFile s₀.disk.file tr) s.disk.file)
      (R := fun _ _ => True) (.inl rfl)
      (fun _ _ hstep hloads hkeeps => (keepsRooms_step hstep hkeeps).mpr hloads)
      (fun _ _ _ _ _ => trivial) (along_iff_mem.mpr hloads)).1
    exact hkeeps.undecodable

end

/-- `none` stands for what a newer version has written. -/
def newerFormat : StateFormat where
  Bytes := Option StateFile
  encode := some
  decode := id
  decode_encode _ := rfl

def newerDisk : Disk newerFormat where
  file := some none
  tmp := none

def newerStart : StoredDaemon silentCodec newerFormat where
  daemon := .start (sampleStatus emptyBook)
  disk := newerDisk

/-- An older daemon starts on the file and someone calls and hangs up. -/
def olderDaemon : List (StoreEvent silentCodec sampleLibp2p newerFormat) :=
  [.bootstrap "local-user" localPeer true, .network (.connectionEstablished remote incoming),
    .network (.connectionClosed remote 0), .saveNetwork none true .moved]

def storeRun (events : List (StoreEvent silentCodec sampleLibp2p newerFormat)) :
    Option (List (StoreTransition silentCodec sampleLibp2p newerFormat) ×
      StoredDaemon silentCodec newerFormat) :=
  execute (StoredDaemon.step .release) newerStart events

theorem olderDaemon_file :
    (storeRun olderDaemon).map (fun r =>
      (readState (keptFile newerDisk.file r.1), r.2.disk.load.map StateFile.roomData)) =
      some (none, some ([], none)) := by
  decide +kernel

theorem olderDaemon_resets_rooms :
    ¬ ∀ (tr : List (StoreTransition silentCodec sampleLibp2p newerFormat))
      (s : StoredDaemon silentCodec newerFormat),
      Trace (StoredDaemon.step .release) newerStart tr s →
        KeepsRooms (keptFile newerDisk.file tr) s.disk.file := by
  intro hall
  obtain ⟨⟨tr, s⟩, hrun, hfile⟩ := Option.map_eq_some_iff.mp olderDaemon_file
  obtain ⟨hkept, hload⟩ := Prod.mk.inj hfile
  have hsame := (hall tr s (execute_trace hrun)).undecodable hkept
  have hnone : s.disk.load = none := by rw [load_eq_readState, hsame, hkept]
  rw [hnone] at hload
  cases hload

theorem stored_rooms_kept_iff_olderDaemon :
    ∃ tr s, storeRun olderDaemon = some (tr, s) ∧
      (Along (fun pre x => KeepsRooms (keptFile newerDisk.file (pre ++ [x])) x.after.disk.file) tr ↔
        ∀ x ∈ tr, LoadsFile x) := by
  obtain ⟨⟨tr, s⟩, hrun, _⟩ := Option.map_eq_some_iff.mp olderDaemon_file
  exact ⟨tr, s, hrun, (stored_rooms_kept_iff (execute_trace hrun)).1⟩

end Voicers
