import Voicers.Core.Rooms
import Voicers.Lib.FirstMatch
import Voicers.Network.Dialing

/-! What the control task does to the rooms (`app/state.rs`). The room a
daemon is in is the first engaged one; rooms are otherwise found by name. -/

namespace Voicers

open Lib

def normalizeRoomName (roomName : String) : String :=
  if trim roomName = "" then "main" else trim roomName

/-- The code of an invite, from the hash of the peer id, the time and a
counter: the first eight of at least eight hexadecimal digits. -/
def freshInviteCode (hash : UInt64) : String :=
  String.ofList ((((Nat.toDigits 16 hash.toNat).leftpad 8 '0').take 8).map Char.toLower)

def ensureAdminRole (room : RoomSummary) : RoomSummary :=
  if room.roles.any (fun role => role.name = "admin") then room
  else { room with
    roles := room.roles ++
      [{ name := "admin", permissions := [.createRoomInvite, .createRole, .editRole, .assignRole] }] }

/-- A member without a peer id was recorded before the daemon had one. -/
def ensureLocalMember (room : RoomSummary) (localPeerId displayName : String) (seedAdmin : Bool) :
    RoomSummary :=
  { room with
    members := updateOrPush (fun member => member.peerId = localPeerId || member.peerId = "")
      (fun member =>
        { peerId := localPeerId
          displayName := displayName
          roles := if seedAdmin && !member.roles.contains "admin" then member.roles ++ ["admin"]
            else member.roles })
      { peerId := localPeerId, displayName := displayName, roles := [] } room.members }

def syncLocalRoomMemberships (rooms : List RoomSummary) (localPeerId displayName : String) :
    List RoomSummary :=
  rooms.map fun room =>
    let room := ensureAdminRole room
    if room.engaged || room.members.any (fun member => member.peerId = localPeerId) then
      ensureLocalMember room localPeerId displayName room.members.isEmpty
    else { room with
      members := room.members.map fun member =>
        if member.peerId = localPeerId then { member with displayName := displayName } else member }

def engageOnly (rooms : List RoomSummary) (roomName : String) : List RoomSummary :=
  rooms.map fun room => { room with engaged := decide (room.name = roomName) }

def enterRoom (room : RoomSummary) (localPeerId displayName : String) : RoomSummary :=
  ensureLocalMember (ensureAdminRole { room with engaged := true }) localPeerId displayName true

def newRoom (roomName : String) : RoomSummary where
  name := roomName
  engaged := true
  roles := []
  members := []
  currentInvite := none

def createOrUpdateRoom (rooms : List RoomSummary) (roomName localPeerId displayName : String) :
    List RoomSummary :=
  if rooms.any (fun room => room.name = roomName) then
    updateFirst (fun room => room.name = roomName)
      (fun room => enterRoom room localPeerId displayName) (engageOnly rooms roomName)
  else
    (engageOnly rooms roomName ++ [enterRoom (newRoom roomName) localPeerId displayName]).insertionSort
      fun left right => left.name ≤ right.name

def withInvite (invite : Option RoomInviteSummary) (room : RoomSummary) : RoomSummary :=
  { room with currentInvite := invite }

def setRoomInvite (rooms : List RoomSummary) (roomName localPeerId inviteCode : String)
    (expiresAtMs : Option Nat) : List RoomSummary :=
  updateFirst (fun room => room.name = roomName)
    (withInvite (some
      { inviteCode := inviteCode
        shareInvite := none
        expiresAtMs := expiresAtMs
        createdByPeerId := some localPeerId }))
    rooms

def clearRoomInvite (rooms : List RoomSummary) (roomName : String) : List RoomSummary :=
  updateFirst (fun room => room.name = roomName) (withInvite none) rooms

def roomHasPermission (rooms : List RoomSummary) (roomName peerId : String)
    (permission : RoomPermission) : Bool :=
  match rooms.find? (fun room => room.name = roomName) with
  | none => false
  | some room =>
    match room.members.find? (fun member => member.peerId = peerId) with
    | none => false
    | some member => member.roles.any fun roleName =>
        match room.roles.find? (fun role => role.name = roleName) with
        | none => false
        | some role => role.permissions.contains permission

def engagedRoom (rooms : List RoomSummary) : Option RoomSummary :=
  rooms.find? fun room => room.engaged

def roomNamed (rooms : List RoomSummary) (roomName : String) : Option RoomSummary :=
  rooms.find? fun room => room.name = roomName

/-- The engaged room is the first of its name, and so the one that is found
by name. -/
def Lead (rooms : List RoomSummary) : Prop :=
  ∀ room, engagedRoom rooms = some room → roomNamed rooms room.name = some room

section

theorem digitChar_of_mem_toDigitsCore {base fuel n : Nat} {digits : List Char} (hbase : 0 < base)
    (hdigits : ∀ c ∈ digits, ∃ k < base, c = Nat.digitChar k) :
    ∀ c ∈ Nat.toDigitsCore base fuel n digits, ∃ k < base, c = Nat.digitChar k := by
  induction fuel generalizing n digits with
  | zero => exact hdigits
  | succ fuel ih =>
    have hcons : ∀ c ∈ Nat.digitChar (n % base) :: digits, ∃ k < base, c = Nat.digitChar k := by
      intro c hc
      rcases List.mem_cons.mp hc with rfl | hc
      · exact ⟨_, Nat.mod_lt n hbase, rfl⟩
      · exact hdigits c hc
    rw [Nat.toDigitsCore]
    split_ifs
    · exact hcons
    · exact ih hcons

theorem isWhiteSpace_freshInviteCode (hash : UInt64) :
    ∀ c ∈ (freshInviteCode hash).toList, isWhiteSpace c = false := by
  intro c hc
  rw [freshInviteCode, String.toList_ofList] at hc
  obtain ⟨digit, hdigit, rfl⟩ := List.mem_map.mp hc
  rcases List.mem_append.mp (List.mem_of_mem_take hdigit) with hpad | hmem
  · obtain rfl := List.eq_of_mem_replicate hpad
    decide
  · have hdigits : ∀ k < 16, isWhiteSpace (Nat.digitChar k).toLower = false := by decide
    obtain ⟨k, hk, rfl⟩ := digitChar_of_mem_toDigitsCore (by decide) (by simp) digit hmem
    exact hdigits k hk

theorem length_freshInviteCode (hash : UInt64) : (freshInviteCode hash).toList.length = 8 := by
  rw [freshInviteCode, String.toList_ofList, List.length_map, List.length_take,
    List.length_leftpad]
  omega

variable {rooms : List RoomSummary} {roomName localPeerId displayName : String}

theorem withInvite_frame (invite : Option RoomInviteSummary) (room : RoomSummary) :
    (withInvite invite room).name = room.name ∧ (withInvite invite room).engaged = room.engaged :=
  ⟨rfl, rfl⟩

theorem ensureAdminRole_frame (room : RoomSummary) :
    (ensureAdminRole room).name = room.name ∧ (ensureAdminRole room).engaged = room.engaged ∧
      (ensureAdminRole room).currentInvite = room.currentInvite := by
  unfold ensureAdminRole
  split_ifs
  · exact ⟨rfl, rfl, rfl⟩
  · exact ⟨rfl, rfl, rfl⟩

theorem syncLocalRoomMemberships_eq_map (rooms : List RoomSummary) (localPeerId displayName : String) :
    ∃ f : RoomSummary → RoomSummary,
      syncLocalRoomMemberships rooms localPeerId displayName = rooms.map f ∧
      ∀ room, (f room).name = room.name ∧ (f room).engaged = room.engaged ∧
        (f room).currentInvite = room.currentInvite := by
  refine ⟨_, rfl, fun room => ?_⟩
  have hadmin := ensureAdminRole_frame room
  dsimp only
  split_ifs
  · exact hadmin
  · exact hadmin

theorem engagedRoom_map (f : RoomSummary → RoomSummary)
    (hf : ∀ room, (f room).engaged = room.engaged) :
    engagedRoom (rooms.map f) = (engagedRoom rooms).map f := by
  simp only [engagedRoom, List.find?_map, Function.comp_def, hf]

theorem roomNamed_map (rooms : List RoomSummary) (roomName : String) (f : RoomSummary → RoomSummary)
    (hf : ∀ room, (f room).name = room.name) :
    roomNamed (rooms.map f) roomName = (roomNamed rooms roomName).map f := by
  simp only [roomNamed, List.find?_map, Function.comp_def, hf]

theorem Lead.map (h : Lead rooms) {f : RoomSummary → RoomSummary}
    (hname : ∀ room, (f room).name = room.name)
    (hengaged : ∀ room, (f room).engaged = room.engaged) : Lead (rooms.map f) := by
  intro room hroom
  rw [engagedRoom_map f hengaged] at hroom
  obtain ⟨found, hfound, rfl⟩ := Option.map_eq_some_iff.mp hroom
  rw [roomNamed_map _ _ _ hname, hname, h found hfound]
  rfl

theorem name_of_roomNamed {room : RoomSummary} (h : roomNamed rooms roomName = some room) :
    room.name = roomName := by
  simpa using List.find?_some h

/-- The rooms after `roomName` has been entered: it alone is engaged. -/
def EngagedAs (roomName : String) (rooms : List RoomSummary) : Prop :=
  ∀ room ∈ rooms, room.engaged = decide (room.name = roomName)

theorem EngagedAs.engagedRoom_eq (h : EngagedAs roomName rooms) :
    engagedRoom rooms = roomNamed rooms roomName := by
  induction rooms with
  | nil => rfl
  | cons room rooms ih =>
    have hroom := h room List.mem_cons_self
    have hrest := ih fun other hother => h other (List.mem_cons_of_mem _ hother)
    simp only [engagedRoom, roomNamed, List.find?_cons, hroom] at hrest ⊢
    rw [hrest]

theorem EngagedAs.lead (h : EngagedAs roomName rooms) : Lead rooms := by
  intro room hroom
  rw [h.engagedRoom_eq] at hroom
  rw [name_of_roomNamed hroom]
  exact hroom

section

variable {f : RoomSummary → RoomSummary}

theorem roomNamed_updateFirst (hname : ∀ room, (f room).name = room.name) :
    roomNamed (updateFirst (fun room => room.name = roomName) f rooms) roomName =
      (roomNamed rooms roomName).map f := by
  apply find?_updateFirst
  intro room hroom
  rw [hname]
  exact hroom

theorem Lead.engagedRoom_updateFirst (h : Lead rooms) {room : RoomSummary}
    (hroom : engagedRoom rooms = some room)
    (hengaged : ∀ room, (f room).engaged = room.engaged) :
    engagedRoom (updateFirst (fun other => other.name = room.name) f rooms) = some (f room) := by
  have hsame : rooms.find? (fun other => decide (other.name = room.name)) =
      rooms.find? fun room => room.engaged := (h room hroom).trans hroom.symm
  have hfound := find?_updateFirst_same (fun other _ => hengaged other) hsame
  unfold engagedRoom at hroom ⊢
  rw [hfound, hroom]
  rfl

theorem engagedRoom_updateFirst_of_ne {room : RoomSummary} (hroom : engagedRoom rooms = some room)
    (hengaged : ∀ room, (f room).engaged = room.engaged) (hne : room.name ≠ roomName) :
    engagedRoom (updateFirst (fun other => other.name = roomName) f rooms) = some room := by
  have hsame := find?_updateFirst_of_not (p := fun other : RoomSummary => decide (other.name = roomName))
    (f := f) (l := rooms) (fun other _ => hengaged other) fun other hother => by
      rw [Option.some.inj (hother.symm.trans hroom)]
      simpa using hne
  exact hsame.trans hroom

theorem roomNamed_updateFirst_of_ne {other : String} (hname : ∀ room, (f room).name = room.name)
    (hne : other ≠ roomName) :
    roomNamed (updateFirst (fun room => room.name = roomName) f rooms) other =
      roomNamed rooms other := by
  apply find?_updateFirst_of_not
  · intro room _
    rw [hname]
  · intro room hroom
    have hnamed : room.name = other := name_of_roomNamed hroom
    simpa [hnamed] using hne

theorem Lead.updateFirst (h : Lead rooms) (hname : ∀ room, (f room).name = room.name)
    (hengaged : ∀ room, (f room).engaged = room.engaged) :
    Lead (updateFirst (fun room => room.name = roomName) f rooms) := by
  intro found hfound
  cases hroom : engagedRoom rooms with
  | none =>
    have hnone := find?_updateFirst_of_not (p := fun room : RoomSummary => decide (room.name = roomName))
      (f := f) (l := rooms) (fun other _ => hengaged other) fun other hother => by
        exact absurd (hother.symm.trans hroom) (by simp)
    exact absurd (hfound.symm.trans (hnone.trans hroom)) (by simp)
  | some room =>
    by_cases hne : room.name = roomName
    · subst hne
      have hnew := h.engagedRoom_updateFirst hroom hengaged
      obtain rfl := Option.some.inj (hnew.symm.trans hfound)
      rw [hname, roomNamed_updateFirst hname, h room hroom]
      rfl
    · have hold := engagedRoom_updateFirst_of_ne hroom hengaged hne
      obtain rfl := Option.some.inj (hold.symm.trans hfound)
      rw [roomNamed_updateFirst_of_ne hname hne]
      exact h room hroom

end

theorem EngagedAs.updateFirst (h : EngagedAs roomName rooms) {p : RoomSummary → Bool}
    {f : RoomSummary → RoomSummary} (hname : ∀ room, (f room).name = room.name)
    (hengaged : ∀ room, (f room).engaged = room.engaged) :
    EngagedAs roomName (updateFirst p f rooms) := by
  intro room hroom
  rcases mem_updateFirst hroom with hmem | ⟨old, hold, _, rfl⟩
  · exact h room hmem
  · rw [hname, hengaged]
    exact h old hold

theorem enterRoom_frame (room : RoomSummary) (localPeerId displayName : String) :
    (enterRoom room localPeerId displayName).name = room.name ∧
      (enterRoom room localPeerId displayName).engaged = true ∧
      (enterRoom room localPeerId displayName).currentInvite = room.currentInvite := by
  exact ensureAdminRole_frame { room with engaged := true }

theorem engageOnly_engagedAs : EngagedAs roomName (engageOnly rooms roomName) := by
  intro room hroom
  obtain ⟨old, _, rfl⟩ := List.mem_map.mp hroom
  rfl

theorem createOrUpdateRoom_engagedAs :
    EngagedAs roomName (createOrUpdateRoom rooms roomName localPeerId displayName) := by
  intro room hroom
  unfold createOrUpdateRoom at hroom
  split_ifs at hroom
  · rcases mem_updateFirst hroom with hmem | ⟨old, _, hold, rfl⟩
    · exact engageOnly_engagedAs room hmem
    · obtain ⟨hname, hengaged, _⟩ := enterRoom_frame old localPeerId displayName
      rw [hengaged, hname]
      exact hold.symm
  · rcases List.mem_append.mp ((List.perm_insertionSort _ _).mem_iff.mp hroom) with hmem | hmem
    · exact engageOnly_engagedAs room hmem
    · obtain rfl := List.mem_singleton.mp hmem
      obtain ⟨hname, hengaged, _⟩ := enterRoom_frame (newRoom roomName) localPeerId displayName
      rw [hengaged, hname]
      exact (decide_eq_true rfl).symm

theorem roomNamed_isSome_iff :
    (roomNamed rooms roomName).isSome = true ↔ ∃ room ∈ rooms, room.name = roomName := by
  simp [roomNamed, List.find?_isSome]

/-- Entering a room leaves its invite as it was; a new room has none. -/
theorem createOrUpdateRoom_named (rooms : List RoomSummary)
    (roomName localPeerId displayName : String) :
    ∃ room, roomNamed (createOrUpdateRoom rooms roomName localPeerId displayName) roomName =
      some room ∧ room.currentInvite = (roomNamed rooms roomName).bind RoomSummary.currentInvite := by
  unfold createOrUpdateRoom
  split_ifs with hany
  · have hsome := roomNamed_isSome_iff.mpr (by simpa using hany)
    obtain ⟨old, hold⟩ := Option.isSome_iff_exists.mp hsome
    have hfound : roomNamed (engageOnly rooms roomName) roomName =
        some { old with engaged := decide (old.name = roomName) } := by
      have hmark := roomNamed_map rooms roomName
        (fun room => { room with engaged := decide (room.name = roomName) }) fun _ => rfl
      rw [hold] at hmark
      exact hmark
    have hkeep : ∀ room : RoomSummary, decide (room.name = roomName) = true →
        decide ((enterRoom room localPeerId displayName).name = roomName) = true := by
      intro room hroom
      rw [(enterRoom_frame room localPeerId displayName).1]
      exact hroom
    refine ⟨enterRoom { old with engaged := decide (old.name = roomName) } localPeerId displayName,
      ?_, ?_⟩
    · rw [roomNamed, find?_updateFirst hkeep, ← roomNamed, hfound]
      rfl
    · rw [(enterRoom_frame _ _ _).2.2, hold]
      rfl
  · have hnone : roomNamed rooms roomName = none := by
      simpa [roomNamed, List.find?_eq_none] using hany
    have hperm := List.perm_insertionSort (fun left right : RoomSummary => left.name ≤ right.name)
      (engageOnly rooms roomName ++ [enterRoom (newRoom roomName) localPeerId displayName])
    have hsome := roomNamed_isSome_iff.mpr ⟨enterRoom (newRoom roomName) localPeerId displayName,
      hperm.mem_iff.mpr (List.mem_append_right _ (List.mem_singleton_self _)),
      (enterRoom_frame (newRoom roomName) localPeerId displayName).1⟩
    obtain ⟨room, hroom⟩ := Option.isSome_iff_exists.mp hsome
    have hname : room.name = roomName := name_of_roomNamed hroom
    refine ⟨room, hroom, ?_⟩
    rw [hnone]
    rcases List.mem_append.mp (hperm.mem_iff.mp (List.mem_of_find?_eq_some hroom)) with hold | hnew
    · obtain ⟨old, hmem, rfl⟩ := List.mem_map.mp hold
      exact absurd (by simpa using ⟨old, hmem, hname⟩) hany
    · obtain rfl := List.mem_singleton.mp hnew
      exact (enterRoom_frame (newRoom roomName) localPeerId displayName).2.2

theorem engaged_createOrUpdateRoom (rooms : List RoomSummary)
    (roomName localPeerId displayName : String) :
    ∃ room, engagedRoom (createOrUpdateRoom rooms roomName localPeerId displayName) = some room ∧
      room.name = roomName ∧
      room.currentInvite = (roomNamed rooms roomName).bind RoomSummary.currentInvite := by
  obtain ⟨room, hroom, hinvite⟩ := createOrUpdateRoom_named rooms roomName localPeerId displayName
  refine ⟨room, ?_, name_of_roomNamed hroom, hinvite⟩
  rw [createOrUpdateRoom_engagedAs.engagedRoom_eq]
  exact hroom

end

end Voicers
