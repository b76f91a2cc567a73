import Voicers.App.RoomStep
import Mathlib.Data.List.Sort
import Mathlib.Data.String.Basic

/-! The table of rooms: what every request, save and restart keeps of it. -/

namespace Voicers

open Lib

def adminRole : RoomRoleSummary where
  name := "admin"
  permissions := [.createRoomInvite, .createRole, .editRole, .assignRole]

/-- A room as the requests make it. -/
structure RoomFormed (room : RoomSummary) : Prop where
  trimmed : trim room.name = room.name
  named : room.name ≠ ""
  roles : room.roles = [adminRole]
  distinct : (room.members.map RoomMemberSummary.peerId).Nodup
  entered : room.members ≠ []
  identified : ∀ member ∈ room.members, member.peerId ≠ ""
  main : room.name = "main" → room.currentInvite = none

structure RoomTable (rooms : List RoomSummary) : Prop where
  ascending : (rooms.map RoomSummary.name).Pairwise (· < ·)
  engaged : rooms.countP RoomSummary.engaged ≤ 1
  formed : ∀ room ∈ rooms, RoomFormed room

section

variable {rooms : List RoomSummary} {roomName localPeerId displayName : String}

theorem RoomTable.nil : RoomTable [] := ⟨.nil, Nat.zero_le 1, by simp⟩

theorem trim_normalizeRoomName (roomName : String) :
    trim (normalizeRoomName roomName) = normalizeRoomName roomName := by
  unfold normalizeRoomName
  split_ifs
  · decide +kernel
  · exact trim_trim roomName

theorem normalizeRoomName_ne_empty (roomName : String) : normalizeRoomName roomName ≠ "" := by
  unfold normalizeRoomName
  split_ifs with hempty
  · decide
  · exact hempty

/-! ### One room -/

theorem ensureAdminRole_formed {room : RoomSummary} (h : RoomFormed room) :
    ensureAdminRole room = room := by
  simp [ensureAdminRole, h.roles, adminRole]

def localMember (localPeerId displayName : String) (seedAdmin : Bool) (member : RoomMemberSummary) :
    RoomMemberSummary where
  peerId := localPeerId
  displayName := displayName
  roles := if seedAdmin && !member.roles.contains "admin" then member.roles ++ ["admin"]
    else member.roles

/-- The member without an id is not looked for: there is none. -/
theorem ensureLocalMember_eq {room : RoomSummary}
    (hid : ∀ member ∈ room.members, member.peerId ≠ "") (seedAdmin : Bool) :
    ensureLocalMember room localPeerId displayName seedAdmin = { room with
      members := updateOrPush (fun member => member.peerId = localPeerId)
        (localMember localPeerId displayName seedAdmin)
        { peerId := localPeerId, displayName := displayName, roles := [] } room.members } := by
  have hsame : ∀ member ∈ room.members,
      (decide (member.peerId = localPeerId) || decide (member.peerId = "")) =
        decide (member.peerId = localPeerId) := by
    intro member hmember
    simp [hid member hmember]
  rw [← updateOrPush_congr hsame]
  rfl

theorem RoomFormed.ensureLocalMember {room : RoomSummary} (h : RoomFormed room)
    (hid : localPeerId ≠ "") (displayName : String) (seedAdmin : Bool) :
    RoomFormed (ensureLocalMember room localPeerId displayName seedAdmin) := by
  rw [ensureLocalMember_eq h.identified]
  refine { h with
    distinct := nodup_map_updateOrPush ?_ ?_ h.distinct
    entered := ?_
    identified := ?_ }
  · intro member hmember
    exact (of_decide_eq_true hmember).symm
  · intro member hmember
    exact decide_eq_true hmember
  · obtain ⟨member, hmember, _⟩ := exists_updateOrPush_of (P := fun _ => True)
      (p := fun member : RoomMemberSummary => decide (member.peerId = localPeerId))
      (f := localMember localPeerId displayName seedAdmin) (l := room.members)
      (fun _ _ => trivial) trivial
    exact List.ne_nil_of_mem hmember
  · intro member hmember
    rcases mem_updateOrPush hmember with hold | ⟨old, _, _, rfl⟩ | ⟨_, rfl⟩
    · exact h.identified member hold
    · exact hid
    · exact hid

theorem RoomFormed.engage {room : RoomSummary} (h : RoomFormed room) (engaged : Bool) :
    RoomFormed { room with engaged := engaged } := { h with }

theorem RoomFormed.enterRoom {room : RoomSummary} (h : RoomFormed room) (hid : localPeerId ≠ "")
    (displayName : String) : RoomFormed (enterRoom room localPeerId displayName) := by
  unfold Voicers.enterRoom
  rw [ensureAdminRole_formed (h.engage true)]
  exact (h.engage true).ensureLocalMember hid displayName true

theorem enterRoom_newRoom (roomName localPeerId displayName : String) :
    enterRoom (newRoom roomName) localPeerId displayName =
      { name := roomName
        engaged := true
        roles := [adminRole]
        members := [{ peerId := localPeerId, displayName := displayName, roles := ["admin"] }]
        currentInvite := none } := rfl

theorem roomFormed_newRoom (hid : localPeerId ≠ "") (htrim : trim roomName = roomName)
    (hne : roomName ≠ "") (displayName : String) :
    RoomFormed (enterRoom (newRoom roomName) localPeerId displayName) := by
  rw [enterRoom_newRoom]
  exact {
    trimmed := htrim
    named := hne
    roles := rfl
    distinct := List.nodup_singleton _
    entered := List.cons_ne_nil _ _
    identified := by simpa using hid
    main := fun _ => rfl }

/-! ### The table -/

theorem RoomTable.map (h : RoomTable rooms) {f : RoomSummary → RoomSummary}
    (hname : ∀ room, (f room).name = room.name)
    (hengaged : ∀ room, (f room).engaged = room.engaged)
    (hformed : ∀ room, RoomFormed room → RoomFormed (f room)) : RoomTable (rooms.map f) where
  ascending := by
    rw [List.map_map, show RoomSummary.name ∘ f = RoomSummary.name from funext hname]
    exact h.ascending
  engaged := by
    rw [List.countP_map, show RoomSummary.engaged ∘ f = RoomSummary.engaged from funext hengaged]
    exact h.engaged
  formed := by
    intro room hroom
    obtain ⟨old, hold, rfl⟩ := List.mem_map.mp hroom
    exact hformed old (h.formed old hold)

theorem RoomTable.updateFirst (h : RoomTable rooms) {p : RoomSummary → Bool}
    {f : RoomSummary → RoomSummary} (hname : ∀ room, (f room).name = room.name)
    (hengaged : ∀ room, (f room).engaged = room.engaged)
    (hformed : ∀ room, p room = true → RoomFormed room → RoomFormed (f room)) :
    RoomTable (updateFirst p f rooms) where
  ascending := by
    rw [map_updateFirst fun room _ => hname room]
    exact h.ascending
  engaged := by
    have hcount : ∀ l : List RoomSummary, l.countP RoomSummary.engaged =
        (l.map RoomSummary.engaged).countP id := fun l => by rw [List.countP_map]; rfl
    rw [hcount, map_updateFirst fun room _ => hengaged room, ← hcount]
    exact h.engaged
  formed := by
    intro room hroom
    rcases mem_updateFirst hroom with hold | ⟨old, hold, hp, rfl⟩
    · exact h.formed room hold
    · exact hformed old hp (h.formed old hold)

theorem RoomTable.syncLocalRoomMemberships_eq (h : RoomTable rooms) :
    syncLocalRoomMemberships rooms localPeerId displayName = rooms.map fun room =>
      if room.engaged || room.members.any (fun member => member.peerId = localPeerId) then
        ensureLocalMember room localPeerId displayName false
      else room := by
  refine List.map_congr_left fun room hroom => ?_
  have hformed := h.formed room hroom
  have hempty : room.members.isEmpty = false := by simpa using hformed.entered
  simp only [ensureAdminRole_formed hformed, hempty]
  split_ifs with hlocal
  · rfl
  · have hother : ∀ member ∈ room.members, ¬ member.peerId = localPeerId := by
      simp only [Bool.or_eq_true, List.any_eq_true, decide_eq_true_eq, not_or] at hlocal
      exact fun member hmember heq => hlocal.2 ⟨member, hmember, heq⟩
    have hsame : (room.members.map fun member =>
        if member.peerId = localPeerId then { member with displayName := displayName } else member) =
          room.members := by
      rw [List.map_congr_left fun member hmember => if_neg (hother member hmember), List.map_id']
    rw [hsame]

theorem RoomTable.sync (h : RoomTable rooms) (hid : localPeerId ≠ "") (displayName : String) :
    RoomTable (syncLocalRoomMemberships rooms localPeerId displayName) := by
  rw [h.syncLocalRoomMemberships_eq]
  refine h.map ?_ ?_ ?_
  · intro room
    split_ifs
    · rfl
    · rfl
  · intro room
    split_ifs
    · rfl
    · rfl
  · intro room hformed
    split_ifs
    · exact hformed.ensureLocalMember hid displayName false
    · exact hformed

theorem EngagedAs.countP_le (h : EngagedAs roomName rooms)
    (hnames : (rooms.map RoomSummary.name).Nodup) : rooms.countP RoomSummary.engaged ≤ 1 := by
  have hcount : rooms.countP RoomSummary.engaged =
      (rooms.map RoomSummary.name).count roomName := by
    rw [List.count, List.countP_map]
    refine List.countP_congr fun room hroom => ?_
    simp [h room hroom]
  rw [hcount]
  exact List.nodup_iff_count_le_one.mp hnames roomName

/-- A room is inserted in the place of its name. -/
theorem map_name_createOrUpdateRoom (rooms : List RoomSummary)
    (roomName localPeerId displayName : String) :
    (createOrUpdateRoom rooms roomName localPeerId displayName).map RoomSummary.name =
      if rooms.any (fun room => room.name = roomName) then rooms.map RoomSummary.name
      else (rooms.map RoomSummary.name ++ [roomName]).insertionSort (· ≤ ·) := by
  have hengage : (engageOnly rooms roomName).map RoomSummary.name = rooms.map RoomSummary.name := by
    rw [engageOnly, List.map_map]
    rfl
  unfold createOrUpdateRoom
  split_ifs
  · rw [map_updateFirst fun room _ => (enterRoom_frame room localPeerId displayName).1, hengage]
  · rw [List.map_insertionSort _ (· ≤ ·) _ _ fun _ _ _ _ => Iff.rfl, List.map_append, hengage]
    rfl

theorem RoomTable.createOrUpdateRoom (h : RoomTable rooms) (hid : localPeerId ≠ "")
    (roomName displayName : String) :
    RoomTable (createOrUpdateRoom rooms (normalizeRoomName roomName) localPeerId displayName) := by
  have hascending : ((Voicers.createOrUpdateRoom rooms (normalizeRoomName roomName) localPeerId
      displayName).map RoomSummary.name).Pairwise (· < ·) := by
    rw [map_name_createOrUpdateRoom]
    split_ifs with hany
    · exact h.ascending
    · have hnodup : (rooms.map RoomSummary.name ++ [normalizeRoomName roomName]).Nodup := by
        rw [← List.concat_eq_append]
        refine List.Nodup.concat ?_ (h.ascending.imp ne_of_lt)
        simpa using hany
      have hsorted := List.pairwise_insertionSort (· ≤ ·)
        (rooms.map RoomSummary.name ++ [normalizeRoomName roomName])
      have hdistinct := (List.perm_insertionSort (· ≤ ·)
        (rooms.map RoomSummary.name ++ [normalizeRoomName roomName])).nodup_iff.mpr hnodup
      exact hsorted.imp₂ (fun _ _ hle hne => lt_of_le_of_ne hle hne) hdistinct
  refine ⟨hascending, createOrUpdateRoom_engagedAs.countP_le (hascending.imp ne_of_lt), ?_⟩
  intro room hroom
  have hengage : ∀ room ∈ engageOnly rooms (normalizeRoomName roomName), RoomFormed room := by
    intro room hroom
    obtain ⟨old, hold, rfl⟩ := List.mem_map.mp hroom
    exact (h.formed old hold).engage _
  unfold Voicers.createOrUpdateRoom at hroom
  split_ifs at hroom
  · rcases mem_updateFirst hroom with hold | ⟨old, hold, _, rfl⟩
    · exact hengage room hold
    · exact (hengage old hold).enterRoom hid displayName
  · rcases List.mem_append.mp ((List.perm_insertionSort _ _).mem_iff.mp hroom) with hold | hnew
    · exact hengage room hold
    · obtain rfl := List.mem_singleton.mp hnew
      exact roomFormed_newRoom hid (trim_normalizeRoomName roomName)
        (normalizeRoomName_ne_empty roomName) displayName

theorem InviteEdit.formed {f : RoomSummary → RoomSummary} (hf : InviteEdit roomName f)
    {room : RoomSummary} (hname : room.name = roomName) (h : RoomFormed room) :
    RoomFormed (f room) := by
  have hmain : room.name = "main" → (f room).currentInvite = none := by
    intro hroom
    exact hf.main (hname ▸ hroom) room (h.main hroom)
  rw [hf.only room]
  exact { h with main := hmain }

theorem RoomTable.edit {edited : List RoomSummary} (h : RoomTable rooms) (hid : localPeerId ≠ "")
    (hedit : RoomEdit localPeerId rooms edited) : RoomTable edited := by
  cases hedit with
  | invite roomName f hf =>
    refine h.updateFirst (fun room => (hf.frame room).1) (fun room => (hf.frame room).2.1) ?_
    intro room hroom hformed
    exact hf.formed (of_decide_eq_true hroom) hformed
  | sync displayName => exact h.sync hid displayName

theorem RoomTable.edits {edited : List RoomSummary} (h : RoomTable rooms) (hid : localPeerId ≠ "")
    (hedits : RoomEdits localPeerId rooms edited) : RoomTable edited := by
  induction hedits with
  | refl => exact h
  | tail _ hedit ih => exact ih.edit hid hedit

end

/-- The tables of the daemon and of its files. -/
structure RoomsSound (d : RoomDaemon) : Prop where
  status : RoomTable d.status.rooms
  files : ∀ file ∈ .default :: d.files, RoomTable file.rooms
  identity : d.status.localPeerId ≠ ""

section

variable {json : InviteJson} {lib : Libp2p} {d t : RoomDaemon} {e : RoomEvent lib}

theorem RoomsSound.start (displayName : String) : RoomsSound (RoomDaemon.start displayName) where
  status := RoomTable.nil
  files file hfile := by
    obtain rfl := List.mem_singleton.mp hfile
    exact RoomTable.nil
  identity := by simp [RoomDaemon.start, InviteState.load]

theorem RoomsSound.entering (h : RoomsSound d) (json : InviteJson) (e : RoomEvent lib) :
    RoomTable (d.status.entering (enteredRoom json e)) := by
  have hcreate := fun roomName =>
    h.status.createOrUpdateRoom h.identity roomName d.status.displayName
  cases e with
  | createRoom roomName inviteCode expiresAtMs => exact hcreate roomName
  | joinPeer address nowMs =>
    cases hroom : (handleJoinPeer json address nowMs).adoptedRoom with
    | none =>
      simp only [enteredRoom, hroom]
      exact h.status
    | some roomName =>
      simp only [enteredRoom, hroom]
      exact hcreate roomName
  | _ => exact h.status

theorem RoomsSound.step {o : Option ControlResponse} (h : RoomsSound d)
    (hstep : d.step json e = some (o, t)) : RoomsSound t := by
  rcases step_rooms hstep with ⟨index, displayName, file, _, hfile, rfl⟩ | hrooms
  · exact {
      status := h.files file (mem_of_fileAt hfile)
      files := h.files
      identity := by simp [InviteState.load] }
  · have hid : t.status.localPeerId ≠ "" := by
      rcases hrooms.localPeerId with hsame | ⟨_, hnew⟩
      · rw [hsame]
        exact h.identity
      · exact hnew
    refine ⟨(h.entering json e).edits hid hrooms.edits, ?_, hid⟩
    intro file hfile
    rcases List.mem_cons.mp hfile with rfl | hfile
    · exact RoomTable.nil
    · rcases hrooms.files file hfile with hsame | ⟨old, hold, hsame⟩
      · rw [hsame]
        exact h.status
      · rw [hsame]
        exact h.files old hold

theorem RoomsSound.run {displayName : String} {tr : List (RoomTransition lib)}
    (hrun : RoomRun json displayName tr d) : RoomsSound d :=
  hrun.invariant (fun _ _ _ _ h hstep => h.step hstep) (.start displayName)

theorem RoomFormed.countP_admin {room : RoomSummary} (h : RoomFormed room) :
    room.roles.countP (fun role => role.name = "admin") = 1 := by
  rw [h.roles]
  rfl

/-- The rooms in every state of every run. -/
theorem room_table_invariant {displayName : String} {tr : List (RoomTransition lib)}
    (hrun : RoomRun json displayName tr d) :
    (d.status.rooms.map RoomSummary.name).Nodup ∧
      (d.status.rooms.map RoomSummary.name).Pairwise (· < ·) ∧
      (∀ room ∈ d.status.rooms, trim room.name = room.name ∧ room.name ≠ "") ∧
      d.status.rooms.countP RoomSummary.engaged ≤ 1 ∧
      (∀ room ∈ d.status.rooms, room.roles.countP (fun role => role.name = "admin") = 1) ∧
      (∀ room ∈ d.status.rooms, (room.members.map RoomMemberSummary.peerId).Nodup) ∧
      ∀ room ∈ d.status.rooms, room.name = "main" → room.currentInvite = none := by
  have htable := (RoomsSound.run hrun).status
  refine ⟨htable.ascending.imp ne_of_lt, htable.ascending, ?_, htable.engaged, ?_, ?_, ?_⟩
  · intro room hroom
    exact ⟨(htable.formed room hroom).trimmed, (htable.formed room hroom).named⟩
  · exact fun room hroom => (htable.formed room hroom).countP_admin
  · exact fun room hroom => (htable.formed room hroom).distinct
  · exact fun room hroom => (htable.formed room hroom).main

/-- A daemon that starts again with the room it has saved. -/
theorem room_table_restarted : ∃ (tr : List (RoomTransition hostLibp2p)) (d : RoomDaemon),
    tr.length = 4 ∧ (d.status.rooms.map RoomSummary.name).Nodup ∧
      (d.status.rooms.map RoomSummary.name).Pairwise (· < ·) ∧
      (∀ room ∈ d.status.rooms, trim room.name = room.name ∧ room.name ≠ "") ∧
      d.status.rooms.countP RoomSummary.engaged ≤ 1 ∧
      (∀ room ∈ d.status.rooms, room.roles.countP (fun role => role.name = "admin") = 1) ∧
      (∀ room ∈ d.status.rooms, (room.members.map RoomMemberSummary.peerId).Nodup) ∧
      ∀ room ∈ d.status.rooms, room.name = "main" → room.currentInvite = none := by
  have hrun : ∃ (tr : List (RoomTransition hostLibp2p)) (d : RoomDaemon),
      RoomRun serdeJson "host" tr d ∧ tr.length = 4 :=
    ⟨_, _, .cons (i := .assignLocalPeerId hostPeer) rfl
      (.cons (i := .createRoom "lab" "c0ffee00" 3600000) rfl
      (.cons (i := .saveFull StateFile.default.toPersistedState) rfl
      (.cons (i := .restart (some 0) "host") rfl (.nil _)))), rfl⟩
  obtain ⟨tr, d, hrun, hlength⟩ := hrun
  exact ⟨tr, d, hlength, room_table_invariant hrun⟩

end

end Voicers
