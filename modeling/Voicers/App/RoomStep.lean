import Voicers.App.Requests
import Mathlib.Logic.Relation

/-! What a step of the daemon can do to the rooms: it may enter one, and then
changes invites and the entries of the local member only. -/

namespace Voicers

open Lib

/-- A change of the invite of the room `roomName`; `main` gets none. -/
structure InviteEdit (roomName : String) (f : RoomSummary → RoomSummary) : Prop where
  only : ∀ room, f room = withInvite (f room).currentInvite room
  main : roomName = "main" → ∀ room, room.currentInvite = none → (f room).currentInvite = none

inductive RoomEdit (localPeerId : String) (rooms : List RoomSummary) : List RoomSummary → Prop
  | invite (roomName : String) (f : RoomSummary → RoomSummary) (hf : InviteEdit roomName f) :
      RoomEdit localPeerId rooms (updateFirst (fun room => room.name = roomName) f rooms)
  | sync (displayName : String) :
      RoomEdit localPeerId rooms (syncLocalRoomMemberships rooms localPeerId displayName)

abbrev RoomEdits (localPeerId : String) := Relation.ReflTransGen (RoomEdit localPeerId)

/-- The room a step enters. -/
def enteredRoom (json : InviteJson) {lib : Libp2p} : RoomEvent lib → Option String
  | .createRoom roomName _ _ => some (normalizeRoomName roomName)
  | .joinPeer address nowMs => (handleJoinPeer json address nowMs).adoptedRoom.map normalizeRoomName
  | _ => none

def InviteState.entering (s : InviteState) : Option String → List RoomSummary
  | none => s.rooms
  | some roomName => createOrUpdateRoom s.rooms roomName s.localPeerId s.displayName

/-- A step other than a restart. -/
structure RoomsStep (json : InviteJson) {lib : Libp2p} (d : RoomDaemon) (e : RoomEvent lib)
    (t : RoomDaemon) : Prop where
  lasting : ∀ index displayName, e ≠ .restart index displayName
  edits : RoomEdits t.status.localPeerId (d.status.entering (enteredRoom json e)) t.status.rooms
  roomName : t.status.roomName = (enteredRoom json e).or d.status.roomName
  localPeerId : t.status.localPeerId = d.status.localPeerId ∨
    d.started = false ∧ t.status.localPeerId ≠ ""
  started : d.started = true → t.started = true
  serving : enteredRoom json e ≠ none → d.started = true
  files : ∀ file ∈ t.files, file.rooms = d.status.rooms ∨ ∃ old ∈ .default :: d.files,
    file.rooms = old.rooms

section

variable {json : InviteJson} {lib : Libp2p} {s : InviteState} {d t : RoomDaemon}

theorem InviteEdit.withInvite {roomName : String} {invite : Option RoomInviteSummary}
    (h : roomName = "main" → invite = none) : InviteEdit roomName (withInvite invite) where
  only _ := rfl
  main hmain _ _ := h hmain

theorem InviteEdit.setShareInvite (roomName : String) (shareInvite : Option String) :
    InviteEdit roomName (InviteState.setShareInvite shareInvite) where
  only _ := rfl
  main _ room hroom := by rw [InviteState.setShareInvite, hroom]; rfl

theorem InviteEdit.frame {roomName : String} {f : RoomSummary → RoomSummary}
    (h : InviteEdit roomName f) (room : RoomSummary) :
    (f room).name = room.name ∧ (f room).engaged = room.engaged ∧ (f room).roles = room.roles ∧
      (f room).members = room.members := by
  rw [h.only room]
  exact ⟨rfl, rfl, rfl, rfl⟩

theorem updateShareInvite_edits (json : InviteJson) (lib : Libp2p) (s : InviteState)
    (localPeerId : String) :
    RoomEdits localPeerId s.rooms (s.updateShareInvite lib json).rooms := by
  simp only [InviteState.updateShareInvite]
  cases s.shownRoomInvite with
  | none => exact .refl
  | some shown => exact .single (.invite shown.1 _ (.setShareInvite _ _))

theorem handleSwarm_edits (s : InviteState) (localPeerId : String) (event : InviteEvent lib) :
    RoomEdits localPeerId s.rooms (s.handleSwarm json event).rooms := by
  have hupdate := updateShareInvite_edits json lib (s.handleAddress event) localPeerId
  rw [(InviteState.handleAddress_frame event).2.1] at hupdate
  unfold InviteState.handleSwarm
  split
  · exact .refl
  · split_ifs
    · exact hupdate
    · exact .refl
  · exact hupdate

theorem createRoom_edits (s : InviteState) (localPeerId roomName inviteCode : String)
    (expiresAtMs : Nat) :
    RoomEdits localPeerId (s.entering (some (normalizeRoomName roomName)))
      (s.createRoom roomName inviteCode expiresAtMs).rooms := by
  simp only [InviteState.createRoom]
  split_ifs with hmain
  · exact .single (.invite _ _ (.withInvite fun hname => absurd hname hmain))
  · exact .single (.invite _ _ (.withInvite fun _ => rfl))

theorem handleCreateRoom_edits (s : InviteState) (localPeerId roomName inviteCode : String)
    (expiresAtMs : Nat) :
    RoomEdits localPeerId (s.entering (some (normalizeRoomName roomName)))
      (s.handleCreateRoom lib json roomName inviteCode expiresAtMs).2.rooms := by
  rw [InviteState.handleCreateRoom]
  have hshare := updateShareInvite_edits json lib
    (s.createRoom roomName inviteCode expiresAtMs) localPeerId
  exact (createRoom_edits s localPeerId roomName inviteCode expiresAtMs).trans hshare

theorem setDisplayName_edits (s : InviteState) (displayName : String) :
    RoomEdits s.localPeerId s.rooms (s.setDisplayName displayName).rooms := by
  unfold InviteState.setDisplayName
  split_ifs
  · exact .refl
  · exact .single (.sync _)

theorem ne_main_of_customRoom {roomName : String} (h : s.customRoom = some roomName) :
    s.roomName = some roomName ∧ roomName ≠ "main" := by
  obtain ⟨hroom, hcustom⟩ := Option.filter_eq_some_iff.mp h
  refine ⟨hroom, ?_⟩
  rintro rfl
  simp at hcustom

theorem rotateInviteCode_edits (s : InviteState) (localPeerId inviteCode : String)
    (expiresAtMs : Nat) :
    RoomEdits localPeerId s.rooms (s.rotateInviteCode lib json inviteCode expiresAtMs).rooms := by
  unfold InviteState.rotateInviteCode
  cases hcustom : s.customRoom with
  | none => exact .refl
  | some roomName =>
    dsimp only
    split_ifs
    · have hmain := (ne_main_of_customRoom hcustom).2
      have hset : RoomEdit localPeerId s.rooms
          (setRoomInvite s.rooms roomName s.localPeerId inviteCode (some expiresAtMs)) :=
        .invite roomName _ (.withInvite fun hname => absurd hname hmain)
      exact .head hset (updateShareInvite_edits json lib { s with
        rooms := setRoomInvite s.rooms roomName s.localPeerId inviteCode (some expiresAtMs) }
        localPeerId)
    · exact .refl

theorem handleSwarm_frame (json : InviteJson) (s : InviteState) (event : InviteEvent lib) :
    (s.handleSwarm json event).roomName = s.roomName ∧
      (s.handleSwarm json event).localPeerId = s.localPeerId := by
  have haddress : (s.handleAddress event).roomName = s.roomName := by
    cases event with
    | identifyReceived observedAddr =>
      simp only [InviteState.handleAddress]
      split_ifs
      · rfl
      · rfl
    | _ => rfl
  have hupdate : ((s.handleAddress event).updateShareInvite lib json).roomName = s.roomName ∧
      ((s.handleAddress event).updateShareInvite lib json).localPeerId = s.localPeerId :=
    ⟨haddress, (InviteState.handleAddress_frame event).1⟩
  unfold InviteState.handleSwarm
  split
  · exact ⟨rfl, rfl⟩
  · split_ifs
    · exact hupdate
    · exact ⟨rfl, rfl⟩
  · exact hupdate

theorem setDisplayName_frame (s : InviteState) (displayName : String) :
    (s.setDisplayName displayName).roomName = s.roomName ∧
      (s.setDisplayName displayName).localPeerId = s.localPeerId := by
  unfold InviteState.setDisplayName
  split_ifs
  · exact ⟨rfl, rfl⟩
  · exact ⟨rfl, rfl⟩

theorem rotateInviteCode_frame (json : InviteJson) (lib : Libp2p) (s : InviteState)
    (inviteCode : String) (expiresAtMs : Nat) :
    (s.rotateInviteCode lib json inviteCode expiresAtMs).roomName = s.roomName ∧
      (s.rotateInviteCode lib json inviteCode expiresAtMs).localPeerId = s.localPeerId := by
  unfold InviteState.rotateInviteCode
  split
  · exact ⟨rfl, rfl⟩
  · split_ifs
    · exact ⟨rfl, rfl⟩
    · exact ⟨rfl, rfl⟩

theorem serve_eq_some {response o : Option ControlResponse} {status : InviteState}
    (h : d.serve response status = some (o, t)) :
    d.started = true ∧ o = response ∧ t = { d with status := status } := by
  unfold RoomDaemon.serve at h
  split_ifs at h with hstarted
  obtain ⟨rfl, rfl⟩ := Prod.mk.inj (Option.some.inj h)
  exact ⟨hstarted, rfl, rfl⟩

theorem mem_of_fileAt {index : Option Nat} {file : StateFile} (h : d.fileAt index = some file) :
    file ∈ .default :: d.files := by
  cases index with
  | none =>
    obtain rfl := Option.some.inj h
    exact List.mem_cons_self
  | some index => exact List.mem_cons_of_mem _ (List.mem_of_getElem? h)

/-- A request or event that writes no file. -/
theorem RoomsStep.of_status {e : RoomEvent lib} {status : InviteState} {started : Bool}
    (he : ∀ index displayName, e ≠ .restart index displayName)
    (hedits : RoomEdits status.localPeerId (d.status.entering (enteredRoom json e)) status.rooms)
    (hroom : status.roomName = (enteredRoom json e).or d.status.roomName)
    (hid : status.localPeerId = d.status.localPeerId ∨
      d.started = false ∧ status.localPeerId ≠ "")
    (hstarted : d.started = true → started = true)
    (hserving : enteredRoom json e ≠ none → d.started = true) :
    RoomsStep json d e { d with status := status, started := started } where
  lasting := he
  edits := hedits
  roomName := hroom
  localPeerId := hid
  started := hstarted
  serving := hserving
  files file hfile := .inr ⟨file, List.mem_cons_of_mem _ hfile, rfl⟩

theorem RoomsStep.of_write {e : RoomEvent lib} {file : StateFile}
    (hlast : ∀ index displayName, e ≠ .restart index displayName) (he : enteredRoom json e = none)
    (hfile : file.rooms = d.status.rooms ∨ ∃ old ∈ .default :: d.files, file.rooms = old.rooms) :
    RoomsStep json d e (d.write file) where
  lasting := hlast
  edits := by rw [he]; exact .refl
  roomName := by rw [he]; rfl
  localPeerId := .inl rfl
  started := id
  serving hentered := absurd he hentered
  files other hother := by
    rcases List.mem_append.mp hother with hold | hnew
    · exact .inr ⟨other, List.mem_cons_of_mem _ hold, rfl⟩
    · obtain rfl := List.mem_singleton.mp hnew
      exact hfile

/-- A step restarts the daemon from a file, or is a `RoomsStep`. -/
theorem step_rooms {e : RoomEvent lib} {o : Option ControlResponse}
    (h : d.step json e = some (o, t)) :
    (∃ index displayName file, e = .restart index displayName ∧ d.fileAt index = some file ∧
      t = { d with status := .load file displayName, started := false }) ∨ RoomsStep json d e t := by
  cases e with
  | swarm event =>
    obtain ⟨rfl, rfl⟩ := Prod.mk.inj (Option.some.inj h)
    have hframe := handleSwarm_frame json d.status event
    exact .inr (.of_status nofun (handleSwarm_edits _ _ _) hframe.1 (.inl hframe.2) id (absurd rfl))
  | createRoom roomName inviteCode expiresAtMs =>
    obtain ⟨hserved, _, rfl⟩ := serve_eq_some h
    exact .inr (.of_status nofun (handleCreateRoom_edits _ _ _ _ _) rfl (.inl rfl) id fun _ => hserved)
  | joinPeer address nowMs =>
    obtain ⟨hserved, _, rfl⟩ := serve_eq_some h
    refine .inr ?_
    cases hroom : (handleJoinPeer json address nowMs).adoptedRoom with
    | none =>
      refine .of_status nofun ?_ ?_ (.inl ?_) id fun _ => hserved
      all_goals simp only [enteredRoom, InviteState.join, hroom]
      · exact .refl
      · rfl
    | some roomName =>
      refine .of_status nofun ?_ ?_ (.inl ?_) id fun _ => hserved
      all_goals simp only [enteredRoom, InviteState.join, hroom]
      · exact .refl
      · rfl
      · rfl
  | setDisplayName displayName =>
    obtain ⟨_, _, rfl⟩ := serve_eq_some h
    have hframe := setDisplayName_frame d.status displayName
    refine .inr (.of_status nofun ?_ hframe.1 (.inl hframe.2) id (absurd rfl))
    have hedits := setDisplayName_edits d.status displayName
    rw [← hframe.2] at hedits
    exact hedits
  | rotateInviteCode inviteCode expiresAtMs =>
    obtain ⟨_, _, rfl⟩ := serve_eq_some h
    have hframe := rotateInviteCode_frame json lib d.status inviteCode expiresAtMs
    exact .inr (.of_status nofun (rotateInviteCode_edits _ _ _ _) hframe.1 (.inl hframe.2) id (absurd rfl))
  | saveFull book =>
    simp only [RoomDaemon.step] at h
    split_ifs at h
    obtain ⟨rfl, rfl⟩ := Prod.mk.inj (Option.some.inj h)
    exact .inr (.of_write nofun rfl (.inl rfl))
  | saveNetwork network existing =>
    obtain ⟨file, hfile, heq⟩ := Option.map_eq_some_iff.mp h
    obtain ⟨rfl, rfl⟩ := Prod.mk.inj heq
    exact .inr (.of_write nofun rfl (.inr ⟨file, mem_of_fileAt hfile, rfl⟩))
  | restart index displayName =>
    obtain ⟨file, hfile, heq⟩ := Option.map_eq_some_iff.mp h
    obtain ⟨rfl, rfl⟩ := Prod.mk.inj heq
    exact .inl ⟨index, displayName, file, rfl, hfile, rfl⟩
  | assignLocalPeerId localPeerId =>
    simp only [RoomDaemon.step] at h
    split_ifs at h with hassign
    obtain ⟨rfl, rfl⟩ := Prod.mk.inj (Option.some.inj h)
    exact .inr (.of_status nofun (.single (.sync _)) rfl (.inr hassign) (fun _ => rfl) (absurd rfl))

end

end Voicers
