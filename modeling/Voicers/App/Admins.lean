import Voicers.App.RoomTable

/-! Who may invite to a room. Entering one, as its creator or with an invite,
makes the local member an admin; a start under another identity does not. -/

namespace Voicers

open Lib

def MemberIsAdmin (room : RoomSummary) (peerId : String) : Prop :=
  ∃ member ∈ room.members, member.peerId = peerId ∧ "admin" ∈ member.roles

def IsAdmin (rooms : List RoomSummary) (roomName peerId : String) : Prop :=
  ∃ room ∈ rooms, room.name = roomName ∧ MemberIsAdmin room peerId

section

variable {rooms : List RoomSummary} {roomName localPeerId displayName peerId : String}

theorem roomHasPermission_iff (h : RoomTable rooms) :
    roomHasPermission rooms roomName peerId .createRoomInvite = true ↔
      IsAdmin rooms roomName peerId := by
  have hnames : (rooms.map RoomSummary.name).Nodup := h.ascending.imp ne_of_lt
  have hroles : ∀ room ∈ rooms, ∀ roleName : String,
      room.roles.find? (fun role => role.name = roleName) =
        if roleName = "admin" then some adminRole else none := by
    intro room hroom roleName
    rw [(h.formed room hroom).roles]
    by_cases hadmin : roleName = "admin"
    · simp [adminRole, hadmin]
    · simp [adminRole, hadmin, Ne.symm hadmin]
  unfold roomHasPermission
  constructor
  · intro hperm
    cases hfind : rooms.find? (fun room => room.name = roomName) with
    | none => simp [hfind] at hperm
    | some room =>
      have hroom := List.mem_of_find?_eq_some hfind
      cases hmember : room.members.find? (fun member => member.peerId = peerId) with
      | none => simp [hfind, hmember] at hperm
      | some member =>
        simp only [hfind, hmember, List.any_eq_true] at hperm
        obtain ⟨roleName, hrole, hcreate⟩ := hperm
        rw [hroles room hroom] at hcreate
        split_ifs at hcreate with hname
        · subst hname
          exact ⟨room, hroom, by simpa using List.find?_some hfind, member,
            List.mem_of_find?_eq_some hmember, by simpa using List.find?_some hmember, hrole⟩
  · rintro ⟨room, hroom, rfl, member, hmember, rfl, hadmin⟩
    have hfind := find?_of_nodup hnames hroom
    have hfound := find?_of_nodup (h.formed room hroom).distinct hmember
    simp only [hfind, hfound, List.any_eq_true]
    refine ⟨"admin", hadmin, ?_⟩
    rw [hroles room hroom, if_pos rfl]
    decide

theorem memberIsAdmin_enterRoom {room : RoomSummary} (h : RoomFormed room) :
    MemberIsAdmin (enterRoom room localPeerId displayName) peerId ↔
      MemberIsAdmin room peerId ∨ peerId = localPeerId := by
  unfold enterRoom MemberIsAdmin
  rw [ensureAdminRole_formed (h.engage true), ensureLocalMember_eq (h.engage true).identified]
  have hadmin : ∀ member, "admin" ∈ (localMember localPeerId displayName true member).roles := by
    intro member
    simp only [localMember, Bool.true_and]
    split_ifs with hmissing
    · exact List.mem_append_right _ (List.mem_singleton_self _)
    · simpa using hmissing
  constructor
  · rintro ⟨member, hmember, rfl, hrole⟩
    rcases mem_updateOrPush hmember with hold | ⟨old, _, _, rfl⟩ | ⟨_, rfl⟩
    · exact .inl ⟨member, hold, rfl, hrole⟩
    · exact .inr rfl
    · exact .inr rfl
  · rintro (hold | rfl)
    · refine exists_updateOrPush_mono ?_ hold
      rintro member _ hlocal ⟨rfl, _⟩
      exact ⟨(of_decide_eq_true hlocal).symm, hadmin member⟩
    · exact exists_updateOrPush_of (fun member _ => ⟨rfl, hadmin member⟩) ⟨rfl, hadmin _⟩

theorem memberIsAdmin_ensureLocalMember {room : RoomSummary} (h : RoomFormed room) :
    MemberIsAdmin (ensureLocalMember room localPeerId displayName false) peerId ↔
      MemberIsAdmin room peerId := by
  unfold MemberIsAdmin
  rw [ensureLocalMember_eq h.identified]
  apply exists_updateOrPush
  · intro member hlocal
    simp [localMember, of_decide_eq_true hlocal]
  · simp [localMember]

theorem IsAdmin.map_iff {f : RoomSummary → RoomSummary}
    (hf : ∀ room ∈ rooms, (f room).name = room.name ∧
      (MemberIsAdmin (f room) peerId ↔ MemberIsAdmin room peerId)) :
    IsAdmin (rooms.map f) roomName peerId ↔ IsAdmin rooms roomName peerId := by
  constructor
  · rintro ⟨room, hroom, hname, hadmin⟩
    obtain ⟨old, hold, rfl⟩ := List.mem_map.mp hroom
    rw [(hf old hold).1] at hname
    exact ⟨old, hold, hname, (hf old hold).2.mp hadmin⟩
  · rintro ⟨room, hroom, rfl, hadmin⟩
    exact ⟨f room, List.mem_map_of_mem hroom, (hf room hroom).1, (hf room hroom).2.mpr hadmin⟩

theorem isAdmin_edit {edited : List RoomSummary} (h : RoomTable rooms)
    (hedit : RoomEdit localPeerId rooms edited) :
    IsAdmin edited roomName peerId ↔ IsAdmin rooms roomName peerId := by
  cases hedit with
  | invite other f hf =>
    refine exists_updateFirst fun room _ => ?_
    rw [MemberIsAdmin, (hf.frame room).1, (hf.frame room).2.2.2]
    rfl
  | sync displayName =>
    rw [h.syncLocalRoomMemberships_eq]
    refine IsAdmin.map_iff fun room hroom => ?_
    split_ifs
    · exact ⟨rfl, memberIsAdmin_ensureLocalMember (h.formed room hroom)⟩
    · exact ⟨rfl, Iff.rfl⟩

theorem isAdmin_edits {edited : List RoomSummary} (h : RoomTable rooms) (hid : localPeerId ≠ "")
    (hedits : RoomEdits localPeerId rooms edited) :
    IsAdmin edited roomName peerId ↔ IsAdmin rooms roomName peerId := by
  induction hedits with
  | refl => rfl
  | tail hpath hedit ih => exact (isAdmin_edit (h.edits hid hpath) hedit).trans ih

/-- Entering a room adds the local member to its admins, and no other. -/
theorem isAdmin_createOrUpdateRoom (h : RoomTable rooms) {entered : String} :
    IsAdmin (createOrUpdateRoom rooms entered localPeerId displayName) roomName peerId ↔
      IsAdmin rooms roomName peerId ∨ (entered = roomName ∧ peerId = localPeerId) := by
  have hengage : IsAdmin (engageOnly rooms entered) roomName peerId ↔
      IsAdmin rooms roomName peerId := IsAdmin.map_iff fun _ _ => ⟨rfl, Iff.rfl⟩
  have hformed : ∀ room ∈ engageOnly rooms entered, RoomFormed room := by
    intro room hroom
    obtain ⟨old, hold, rfl⟩ := List.mem_map.mp hroom
    exact (h.formed old hold).engage _
  rw [← hengage]
  unfold createOrUpdateRoom
  split_ifs with hany
  · constructor
    · rintro ⟨room, hroom, rfl, hadmin⟩
      rcases mem_updateFirst hroom with hold | ⟨old, hold, hname, rfl⟩
      · exact .inl ⟨room, hold, rfl, hadmin⟩
      · rw [(enterRoom_frame old localPeerId displayName).1]
        rcases (memberIsAdmin_enterRoom (hformed old hold)).mp hadmin with hadmin | hlocal
        · exact .inl ⟨old, hold, rfl, hadmin⟩
        · exact .inr ⟨(of_decide_eq_true hname).symm, hlocal⟩
    · rintro (hold | ⟨rfl, rfl⟩)
      · refine exists_updateFirst_mono ?_ hold
        rintro room hroom _ ⟨rfl, hadmin⟩
        exact ⟨(enterRoom_frame room localPeerId displayName).1,
          (memberIsAdmin_enterRoom (hformed room hroom)).mpr (.inl hadmin)⟩
      · have hfound : (engageOnly rooms entered).any (fun room => room.name = entered) = true := by
          rw [engageOnly, List.any_map]
          exact hany
        refine exists_updateFirst_of ?_ hfound
        intro room hroom hname
        exact ⟨(enterRoom_frame room peerId displayName).1.trans (of_decide_eq_true hname),
          (memberIsAdmin_enterRoom (hformed room hroom)).mpr (.inr rfl)⟩
  · have hnew : MemberIsAdmin (enterRoom (newRoom entered) localPeerId displayName) peerId ↔
        peerId = localPeerId := by
      simp [enterRoom_newRoom, MemberIsAdmin, eq_comm]
    constructor
    · rintro ⟨room, hroom, rfl, hadmin⟩
      rcases List.mem_append.mp ((List.perm_insertionSort _ _).mem_iff.mp hroom) with hold | hadded
      · exact .inl ⟨room, hold, rfl, hadmin⟩
      · obtain rfl := List.mem_singleton.mp hadded
        exact .inr ⟨rfl, hnew.mp hadmin⟩
    · rintro (⟨room, hold, rfl, hadmin⟩ | ⟨rfl, hlocal⟩)
      · exact ⟨room, (List.perm_insertionSort _ _).mem_iff.mpr (List.mem_append_left _ hold), rfl,
          hadmin⟩
      · exact ⟨_, (List.perm_insertionSort _ _).mem_iff.mpr
          (List.mem_append_right _ (List.mem_singleton_self _)), rfl, hnew.mpr hlocal⟩

end

/-- The step of the run takes `roomName` from an invite. -/
def AcceptsInvite (json : InviteJson) {lib : Libp2p} (roomName : String) (x : RoomTransition lib) : Prop :=
  ∃ address nowMs, x.input = .joinPeer address nowMs ∧
    (handleJoinPeer json address nowMs).adoptedRoom.map normalizeRoomName = some roomName

def Creates {lib : Libp2p} (roomName : String) (x : RoomTransition lib) : Prop :=
  ∃ requested inviteCode expiresAtMs, x.input = .createRoom requested inviteCode expiresAtMs ∧
    normalizeRoomName requested = roomName

def AcceptedAs (json : InviteJson) {lib : Libp2p} (roomName peerId : String)
    (tr : List (RoomTransition lib)) : Prop :=
  ∃ x ∈ tr, AcceptsInvite json roomName x ∧ x.before.status.localPeerId = peerId

/-- The room has been taken from an invite, and no start has followed. -/
def AcceptedSinceStart (json : InviteJson) {lib : Libp2p} (roomName : String)
    (tr : List (RoomTransition lib)) : Prop :=
  Since (AcceptsInvite json roomName) (fun y => ∃ index displayName, y.input = .restart index displayName)
    tr

/-- The daemon can neither invite to the room nor replace its invite. -/
def MayNotInvite (json : InviteJson) (lib : Libp2p) (s : InviteState) (roomName : String) : Prop :=
  roomHasPermission s.rooms roomName s.localPeerId .createRoomInvite = false ∧
    ∀ inviteCode expiresAtMs, s.roomName = some roomName →
      (∃ message, (s.handleRotateInviteCode lib json inviteCode expiresAtMs).1 = .error message) ∧
        (s.handleRotateInviteCode lib json inviteCode expiresAtMs).2 = s

section

variable {json : InviteJson} {lib : Libp2p} {d t : RoomDaemon} {e : RoomEvent lib}
  {roomName peerId : String}

theorem mayNotInvite_iff {s : InviteState} :
    MayNotInvite json lib s roomName ↔
      roomHasPermission s.rooms roomName s.localPeerId .createRoomInvite = false := by
  refine ⟨And.left, fun hperm => ⟨hperm, fun inviteCode expiresAtMs hroom => ?_⟩⟩
  unfold InviteState.handleRotateInviteCode InviteState.rotateResponse InviteState.rotateInviteCode
  cases hcustom : s.customRoom with
  | none => exact ⟨⟨_, rfl⟩, rfl⟩
  | some current =>
    obtain rfl := Option.some.inj ((ne_main_of_customRoom hcustom).1.symm.trans hroom)
    simp [hperm]

theorem RoomsSound.mayNotInvite_iff {json : InviteJson} (h : RoomsSound d) :
    MayNotInvite json lib d.status roomName ↔
      ¬ IsAdmin d.status.rooms roomName d.status.localPeerId := by
  rw [Voicers.mayNotInvite_iff, ← roomHasPermission_iff h.status, Bool.not_eq_true]

theorem RoomsSound.isAdmin_step (h : RoomsSound d) (ht : RoomsSound t)
    (hstep : RoomsStep json d e t) (roomName peerId : String) :
    IsAdmin t.status.rooms roomName peerId ↔ IsAdmin d.status.rooms roomName peerId ∨
      (enteredRoom json e = some roomName ∧ peerId = d.status.localPeerId) := by
  rw [isAdmin_edits (h.entering json e) ht.identity hstep.edits]
  cases enteredRoom json e with
  | none => simp [InviteState.entering]
  | some entered =>
    rw [Option.some.injEq]
    exact isAdmin_createOrUpdateRoom h.status

theorem accepts_of_entered {x : RoomTransition lib}
    (h : enteredRoom json x.input = some roomName) (hnever : ¬ Creates roomName x) :
    AcceptsInvite json roomName x := by
  cases hinput : x.input with
  | createRoom requested inviteCode expiresAtMs =>
    rw [hinput] at h
    exact absurd ⟨requested, inviteCode, expiresAtMs, hinput, Option.some.inj h⟩ hnever
  | joinPeer address nowMs =>
    rw [hinput] at h
    exact ⟨address, nowMs, hinput, h⟩
  | _ =>
    rw [hinput] at h
    cases h

theorem entered_of_accepts {x : RoomTransition lib} (h : AcceptsInvite json roomName x) :
    enteredRoom json x.input = some roomName := by
  obtain ⟨address, nowMs, hinput, hroom⟩ := h
  rw [hinput]
  exact hroom

theorem AcceptedAs.snoc {tr : List (RoomTransition lib)} (h : AcceptedAs json roomName peerId tr)
    (x : RoomTransition lib) : AcceptedAs json roomName peerId (tr ++ [x]) := by
  obtain ⟨y, hy, haccepts, hid⟩ := h
  exact ⟨y, List.mem_append_left _ hy, haccepts, hid⟩

/-- The admins of a room the daemon has not created, in its table and in its
files, are the identities under which it took the room from an invite. -/
theorem acceptedAs_of_isAdmin {displayName : String} {tr : List (RoomTransition lib)}
    (hrun : RoomRun json displayName tr d) (hnever : ∀ x ∈ tr, ¬ Creates roomName x) :
    (∀ peerId, IsAdmin d.status.rooms roomName peerId → AcceptedAs json roomName peerId tr) ∧
      ∀ file ∈ .default :: d.files, ∀ peerId, IsAdmin file.rooms roomName peerId →
        AcceptedAs json roomName peerId tr := by
  revert hnever
  refine Trace.snoc_induction (P := fun tr d => (∀ x ∈ tr, ¬ Creates roomName x) →
    (∀ peerId, IsAdmin d.status.rooms roomName peerId → AcceptedAs json roomName peerId tr) ∧
      ∀ file ∈ .default :: d.files, ∀ peerId, IsAdmin file.rooms roomName peerId →
        AcceptedAs json roomName peerId tr) ?_ ?_ hrun
  · simp [IsAdmin, RoomDaemon.start, InviteState.load, StateFile.default]
  · intro tr x htr hstep ih hnever
    obtain ⟨hstatus, hfiles⟩ := ih fun y hy => hnever y (List.mem_append_left _ hy)
    have hbefore := RoomsSound.run htr
    rcases step_rooms hstep with ⟨index, displayName, file, _, hfile, hafter⟩ | hrooms
    · rw [hafter]
      exact ⟨fun peerId h => (hfiles file (mem_of_fileAt hfile) peerId h).snoc x,
        fun file hmem peerId h => (hfiles file hmem peerId h).snoc x⟩
    · refine ⟨?_, ?_⟩
      · intro peerId h
        have hadmins := hbefore.isAdmin_step (hbefore.step hstep) hrooms roomName peerId
        rcases hadmins.mp h with hold | ⟨hentered, rfl⟩
        · exact (hstatus peerId hold).snoc x
        · have hx : x ∈ tr ++ [x] := List.mem_append_right _ (List.mem_singleton_self x)
          exact ⟨x, hx, accepts_of_entered hentered (hnever x hx), rfl⟩
      · intro file hfile peerId h
        rcases List.mem_cons.mp hfile with rfl | hfile
        · exact (hfiles _ List.mem_cons_self peerId h).snoc x
        · rcases hrooms.files file hfile with hsame | ⟨old, hold, hsame⟩
          · rw [hsame] at h
            exact (hstatus peerId h).snoc x
          · rw [hsame] at h
            exact (hfiles old hold peerId h).snoc x

/-- The local member of a room taken from an invite is an admin until a start:
the identity stays. -/
theorem isAdmin_of_acceptedSinceStart {displayName : String} {tr : List (RoomTransition lib)}
    (hrun : RoomRun json displayName tr d) (h : AcceptedSinceStart json roomName tr) :
    d.started = true ∧ IsAdmin d.status.rooms roomName d.status.localPeerId := by
  revert h
  refine Trace.snoc_induction (P := fun tr d => AcceptedSinceStart json roomName tr →
    d.started = true ∧ IsAdmin d.status.rooms roomName d.status.localPeerId) ?_ ?_ hrun
  · exact fun hsince => absurd hsince (not_since_nil _ _)
  · intro tr x htr hstep ih h
    have hbefore := RoomsSound.run htr
    rcases step_rooms hstep with ⟨index, displayName, file, hinput, _, _⟩ | hrooms
    · rcases since_snoc.mp h with ⟨address, nowMs, hjoin, _⟩ | ⟨_, hlast⟩
      · cases hinput.symm.trans hjoin
      · exact absurd ⟨index, displayName, hinput⟩ hlast
    · have hadmins := fun peerId =>
        hbefore.isAdmin_step (hbefore.step hstep) hrooms roomName peerId
      have hkept : x.before.started = true →
          x.after.status.localPeerId = x.before.status.localPeerId := by
        intro hstarted
        rcases hrooms.localPeerId with hsame | ⟨hfresh, _⟩
        · exact hsame
        · rw [hstarted] at hfresh
          cases hfresh
      rcases since_snoc.mp h with haccepts | ⟨hold, _⟩
      · have hentered := entered_of_accepts haccepts
        have hstarted := hrooms.serving (by simp [hentered])
        rw [hkept hstarted]
        exact ⟨hrooms.started hstarted, (hadmins _).mpr (.inr ⟨hentered, rfl⟩)⟩
      · obtain ⟨hstarted, hadmin⟩ := ih hold
        rw [hkept hstarted]
        exact ⟨hrooms.started hstarted, (hadmins _).mpr (.inl hadmin)⟩

/-- A daemon that has not created a room may not invite to it, as long as it
has not taken the room from an invite under the identity it has now; once it
has, it may until its next start. -/
theorem mayNotInvite_of_joined {displayName : String} {tr : List (RoomTransition lib)}
    (hrun : RoomRun json displayName tr d) (hnever : ∀ x ∈ tr, ¬ Creates roomName x) :
    (¬ AcceptedAs json roomName d.status.localPeerId tr →
        MayNotInvite json lib d.status roomName) ∧
      (AcceptedSinceStart json roomName tr → ¬ MayNotInvite json lib d.status roomName) := by
  have hsound := RoomsSound.run hrun
  refine ⟨fun hnot => ?_, fun haccepted => ?_⟩
  · rw [hsound.mayNotInvite_iff]
    exact fun hadmin => hnot ((acceptedAs_of_isAdmin hrun hnever).1 _ hadmin)
  · rw [hsound.mayNotInvite_iff, not_not]
    exact (isAdmin_of_acceptedSinceStart hrun haccepted).2

def labInvite : CompactInviteV1 where
  v := 1
  kind := .room
  peerId := hostPeer
  addrs := [hostAddr]
  inviteCode := some "c0ffee00"
  roomName := some "lab"
  expiresAtMs := some 3600000

theorem adoptedRoom_lab (json : InviteJson) :
    (handleJoinPeer json (encodeInvite json labInvite) 0).adoptedRoom.map normalizeRoomName =
      some "lab" := by
  simp only [handleJoinPeer, parseJoinTarget_encodeInvite]
  decide +kernel

/-- A new daemon that is invited to a room. -/
theorem joined_lab : ∃ (tr : List (RoomTransition hostLibp2p)) (d : RoomDaemon),
    RoomRun serdeJson "guest" tr d ∧ (∀ x ∈ tr, ¬ Creates "lab" x) ∧
      AcceptedSinceStart serdeJson "lab" tr := by
  refine ⟨_, _, .cons (i := .assignLocalPeerId foreignPeer) rfl
    (.cons (i := .joinPeer (encodeInvite serdeJson labInvite) 0) rfl (.nil _)), ?_, ?_⟩
  · simp [Creates]
  · exact ⟨[_], _, [], rfl, ⟨_, _, rfl, adoptedRoom_lab serdeJson⟩, by simp⟩

/-- The guest of a room is one of its admins. -/
theorem joined_mayInvite : ¬ ∀ (tr : List (RoomTransition hostLibp2p)) (d : RoomDaemon),
    RoomRun serdeJson "guest" tr d → (∀ x ∈ tr, ¬ Creates "lab" x) →
      (∃ x ∈ tr, AcceptsInvite serdeJson "lab" x) →
        MayNotInvite serdeJson hostLibp2p d.status "lab" := by
  intro h
  obtain ⟨tr, d, hrun, hnever, haccepted⟩ := joined_lab
  have hadmin := (isAdmin_of_acceptedSinceStart hrun haccepted).2
  obtain ⟨pre, x, post, rfl, haccepts, _⟩ := haccepted
  have hmay := h _ d hrun hnever ⟨x, by simp, haccepts⟩
  exact (RoomsSound.run hrun).mayNotInvite_iff.mp hmay hadmin

theorem mayNotInvite_of_joined_lab : ∃ (tr : List (RoomTransition hostLibp2p)) (d : RoomDaemon),
    RoomRun serdeJson "guest" tr d ∧ AcceptedSinceStart serdeJson "lab" tr ∧
      (¬ AcceptedAs serdeJson "lab" d.status.localPeerId tr →
        MayNotInvite serdeJson hostLibp2p d.status "lab") ∧
      ¬ MayNotInvite serdeJson hostLibp2p d.status "lab" := by
  obtain ⟨tr, d, hrun, hnever, haccepted⟩ := joined_lab
  obtain ⟨hmayNot, hmay⟩ := mayNotInvite_of_joined hrun hnever
  exact ⟨tr, d, hrun, haccepted, hmayNot, hmay haccepted⟩

end

end Voicers
