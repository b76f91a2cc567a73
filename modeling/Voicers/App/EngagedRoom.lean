import Voicers.App.RoomTable

/-! The room a daemon is in is written down twice: as the engaged room of the
table, which is saved, and as the room of the session, which is not. -/

namespace Voicers

open Lib

def EngagedIsSession (s : InviteState) : Prop :=
  ∀ room ∈ s.rooms, room.engaged = true ↔ s.roomName = some room.name

/-- If the step is a start, the file it reads has no engaged room. -/
def StartsOutside {lib : Libp2p} (x : RoomTransition lib) : Prop :=
  ∀ index displayName file, x.input = .restart index displayName → x.before.fileAt index = some file →
    ∀ room ∈ file.rooms, room.engaged = false

section

variable {json : InviteJson} {lib : Libp2p} {d t : RoomDaemon}

def roomMarks (rooms : List RoomSummary) : List (String × Bool) :=
  rooms.map fun room => (room.name, room.engaged)

theorem engagedIsSession_iff_marks {s : InviteState} :
    EngagedIsSession s ↔ ∀ mark ∈ roomMarks s.rooms, mark.2 = true ↔ s.roomName = some mark.1 := by
  simp [EngagedIsSession, roomMarks]

theorem roomMarks_edit {localPeerId : String} {rooms edited : List RoomSummary}
    (hedit : RoomEdit localPeerId rooms edited) : roomMarks edited = roomMarks rooms := by
  cases hedit with
  | invite roomName f hf =>
    refine map_updateFirst fun room _ => ?_
    rw [(hf.frame room).1, (hf.frame room).2.1]
  | sync displayName =>
    obtain ⟨f, hf, hframe⟩ := syncLocalRoomMemberships_eq_map rooms localPeerId displayName
    rw [hf, roomMarks, List.map_map]
    refine List.map_congr_left fun room _ => ?_
    simp [hframe room]

theorem roomMarks_edits {localPeerId : String} {rooms edited : List RoomSummary}
    (hedits : RoomEdits localPeerId rooms edited) : roomMarks edited = roomMarks rooms := by
  induction hedits with
  | refl => rfl
  | tail _ hedit ih => exact (roomMarks_edit hedit).trans ih

theorem EngagedAs.marks {roomName : String} {rooms : List RoomSummary}
    (h : EngagedAs roomName rooms) :
    ∀ mark ∈ roomMarks rooms, mark.2 = true ↔ some roomName = some mark.1 := by
  intro mark hmark
  obtain ⟨room, hroom, rfl⟩ := List.mem_map.mp hmark
  simp [h room hroom, eq_comm]

/-- Entering a room engages it alone; other steps leave name and flag. -/
theorem RoomsStep.engagedIsSession {e : RoomEvent lib} (hstep : RoomsStep json d e t)
    (h : EngagedIsSession d.status) : EngagedIsSession t.status := by
  rw [engagedIsSession_iff_marks, roomMarks_edits hstep.edits, hstep.roomName]
  cases enteredRoom json e with
  | none => exact engagedIsSession_iff_marks.mp h
  | some roomName => exact createOrUpdateRoom_engagedAs.marks

theorem engagedIsSession_load {file : StateFile} {displayName : String} :
    EngagedIsSession (.load file displayName) ↔ ∀ room ∈ file.rooms, room.engaged = false := by
  simp [EngagedIsSession, InviteState.load]

theorem RoomsStep.startsOutside {x : RoomTransition lib}
    (h : RoomsStep json x.before x.input x.after) : StartsOutside x := by
  intro index displayName _ hinput
  exact absurd hinput (h.lasting index displayName)

/-- Along a run from a first start, the engaged room is the room of the session
exactly when no start reads a file that was written inside a room. -/
theorem engaged_iff_session {displayName : String} {tr : List (RoomTransition lib)}
    (hrun : RoomRun json displayName tr d) :
    (∀ x ∈ tr, EngagedIsSession x.before.status ∧ EngagedIsSession x.after.status) ↔
      ∀ x ∈ tr, StartsOutside x := by
  refine hrun.invariant_iff (I := fun d => EngagedIsSession d.status) ?_ ?_
  · intro x hstep hbefore
    rcases step_rooms hstep with ⟨index, displayName, file, hinput, hfile, hafter⟩ | hrooms
    · rw [hafter]
      dsimp only
      rw [engagedIsSession_load]
      constructor
      · intro h index' displayName' file' hinput' hfile'
        cases hinput.symm.trans hinput'
        obtain rfl := Option.some.inj (hfile.symm.trans hfile')
        exact h
      · exact fun h => h index displayName file hinput hfile
    · exact ⟨fun _ => hrooms.startsOutside, fun _ => hrooms.engagedIsSession hbefore⟩
  · simp [EngagedIsSession, RoomDaemon.start, InviteState.load, StateFile.default]

/-- The daemon of a saved room is in no room after its next start. -/
theorem not_engaged_iff_session : ¬ ∀ (tr : List (RoomTransition hostLibp2p)) (d : RoomDaemon),
    RoomRun serdeJson "host" tr d → EngagedIsSession d.status := by
  intro h
  have hrun : ∃ (tr : List (RoomTransition hostLibp2p)) (d : RoomDaemon),
      RoomRun serdeJson "host" tr d ∧
      d.status.roomName = none ∧ d.status.rooms.any RoomSummary.engaged = true :=
    ⟨_, _, .cons (i := .assignLocalPeerId hostPeer) rfl
      (.cons (i := .createRoom "lab" "c0ffee00" 3600000) rfl
      (.cons (i := .saveFull StateFile.default.toPersistedState) rfl
      (.cons (i := .restart (some 0) "host") rfl (.nil _)))), rfl, by decide +kernel⟩
  obtain ⟨tr, d, hrun, hsession, hengaged⟩ := hrun
  obtain ⟨room, hroom, hengaged⟩ := List.any_eq_true.mp hengaged
  have hname := (h tr d hrun room hroom).mp hengaged
  rw [hsession] at hname
  cases hname

/-- In a run that only enters a room the two agree throughout. -/
theorem engaged_iff_session_created :
    ∃ tr : List (RoomTransition hostLibp2p), tr.length = 2 ∧
      ((∀ x ∈ tr, EngagedIsSession x.before.status ∧ EngagedIsSession x.after.status) ↔
        ∀ x ∈ tr, StartsOutside x) := by
  have hrun : ∃ (tr : List (RoomTransition hostLibp2p)) (d : RoomDaemon),
      RoomRun serdeJson "host" tr d ∧ tr.length = 2 :=
    ⟨_, _, .cons (i := .assignLocalPeerId hostPeer) rfl
      (.cons (i := .createRoom "lab" "c0ffee00" 3600000) rfl (.nil _)), rfl⟩
  obtain ⟨tr, d, hrun, hlength⟩ := hrun
  exact ⟨tr, hlength, engaged_iff_session hrun⟩

end

end Voicers
