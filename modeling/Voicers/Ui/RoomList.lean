import Voicers.Lib.Ranked
import Voicers.Ui.MainScreen
import Mathlib.Data.Prod.Lex

/-! The room list of the terminal interface (`ui/model.rs` of the client): the
stored rooms, and the rooms of the active peers and of the pending approvals. -/

namespace Voicers

open Lib

@[ext]
structure KnownRoomPreview where
  name : String
  engagedUsers : Nat
  pendingApprovals : Nat
  isCurrent : Bool
deriving DecidableEq

def seededRoomPreview (room : RoomSummary) (currentRoom : String) : KnownRoomPreview where
  name := room.name
  engagedUsers := 0
  pendingApprovals := 0
  isCurrent := room.engaged || room.name = currentRoom

def roomSeedList (s : FullStatus) (currentRoom : String) : List KnownRoomPreview :=
  if s.rooms.isEmpty then
    [{ name := currentRoom, engagedUsers := 0, pendingApprovals := 0, isCurrent := true }]
  else s.rooms.map (seededRoomPreview · currentRoom)

def upsertRoom (rooms : List KnownRoomPreview) (roomName : String)
    (isCurrent engagedUser pendingApproval : Bool) : List KnownRoomPreview :=
  if rooms.any (·.name = roomName) then
    updateFirst (·.name = roomName) (fun room =>
      { room with
        isCurrent := room.isCurrent || isCurrent
        engagedUsers := room.engagedUsers + engagedUser.toNat
        pendingApprovals := room.pendingApprovals + pendingApproval.toNat }) rooms
  else
    rooms ++ [{
      name := roomName
      engagedUsers := engagedUser.toNat
      pendingApprovals := pendingApproval.toNat
      isCurrent := isCurrent }]

/-- The room of a pending approval. -/
def pendingRoom (pending : PendingPeerApprovalSummary) : String := pending.roomName.getD "main"

/-- The order of the list. -/
def previewBefore (left right : KnownRoomPreview) : Prop :=
  right.isCurrent < left.isCurrent ∨ (right.isCurrent = left.isCurrent ∧
    (right.engagedUsers < left.engagedUsers ∨ (right.engagedUsers = left.engagedUsers ∧
      (right.pendingApprovals < left.pendingApprovals ∨
        (right.pendingApprovals = left.pendingApprovals ∧ left.name ≤ right.name)))))

instance : DecidableRel previewBefore := fun _ _ => inferInstanceAs (Decidable (_ ∨ _))

def countPeer (currentRoom : String) (rooms : List KnownRoomPreview) (peer : PeerSummary) :
    List KnownRoomPreview :=
  match peerRoom peer with
  | some roomName => upsertRoom rooms roomName (roomName = currentRoom) true false
  | none => rooms

def countPending (currentRoom : String) (rooms : List KnownRoomPreview)
    (pending : PendingPeerApprovalSummary) : List KnownRoomPreview :=
  upsertRoom rooms (pendingRoom pending) (pendingRoom pending = currentRoom) false true

/-- The rooms of `known_rooms` before they are sorted. -/
def countedRooms (s : FullStatus) : List KnownRoomPreview :=
  let rooms := (visibleVoicePeers s.toDaemonStatus).foldl (countPeer s.currentRoom)
    (roomSeedList s s.currentRoom)
  s.pendingPeerApprovals.foldl (countPending s.currentRoom) rooms

def knownRooms (s : FullStatus) : List KnownRoomPreview :=
  (countedRooms s).insertionSort previewBefore

/-- Each user and each approval is counted in its room, and no room is missing
or listed twice. -/
structure RoomsAccount (s : FullStatus) (rooms : List KnownRoomPreview) : Prop where
  distinct : (rooms.map KnownRoomPreview.name).Nodup
  stored : ∀ room ∈ s.rooms, room.name ∈ rooms.map KnownRoomPreview.name
  current : s.rooms = [] → s.currentRoom ∈ rooms.map KnownRoomPreview.name
  marked : ∀ room ∈ rooms, room.isCurrent = true ↔
    room.name = s.currentRoom ∨ ∃ stored ∈ s.rooms, stored.engaged = true ∧ stored.name = room.name
  engaged : ∀ room ∈ rooms,
    room.engagedUsers = s.peers.countP fun peer => peerRoom peer = some room.name
  pending : ∀ room ∈ rooms, room.pendingApprovals =
    s.pendingPeerApprovals.countP fun pending => pendingRoom pending = room.name
  engagedTotal : (rooms.map KnownRoomPreview.engagedUsers).sum = s.peers.countP sessionActive
  pendingTotal : (rooms.map KnownRoomPreview.pendingApprovals).sum = s.pendingPeerApprovals.length
  sorted : rooms.Pairwise previewBefore

/-- The rooms in which someone is, or wants to be, each with whether it is the
former. -/
def roomMentions (s : FullStatus) : List (String × Bool) :=
  (s.peers.filterMap peerRoom).map (·, true) ++
    s.pendingPeerApprovals.map fun pending => (pendingRoom pending, false)

def noteRoom (currentRoom : String) (rooms : List KnownRoomPreview) (mention : String × Bool) :
    List KnownRoomPreview :=
  upsertRoom rooms mention.1 (mention.1 = currentRoom) mention.2 !mention.2

def KnownRoomPreview.empty (name : String) : KnownRoomPreview where
  name := name
  engagedUsers := 0
  pendingApprovals := 0
  isCurrent := false

/-- The room with more mentions. -/
def KnownRoomPreview.add (room : KnownRoomPreview) (isCurrent : Bool) (engaged pending : Nat) :
    KnownRoomPreview :=
  { room with
    isCurrent := room.isCurrent || isCurrent
    engagedUsers := room.engagedUsers + engaged
    pendingApprovals := room.pendingApprovals + pending }

section

variable {s : FullStatus} {rooms : List KnownRoomPreview} {currentRoom roomName : String}
  {mention : String × Bool} {mentions : List (String × Bool)}

theorem noteRoom_eq : noteRoom currentRoom rooms mention =
    updateOrPush (·.name = mention.1)
      (·.add (mention.1 = currentRoom) mention.2.toNat (!mention.2).toNat) (.empty mention.1) rooms := by
  unfold noteRoom upsertRoom updateOrPush
  simp [KnownRoomPreview.add, KnownRoomPreview.empty]

/-- One mention changes the room it is of, which is there from then on. -/
theorem find?_noteRoom : (fun name => (noteRoom currentRoom rooms mention).find? (·.name = name)) =
    Function.update (fun name => rooms.find? (·.name = name)) mention.1
      (some (((rooms.find? (·.name = mention.1)).getD (.empty mention.1)).add
        (mention.1 = currentRoom) mention.2.toNat (!mention.2).toNat)) := by
  rw [noteRoom_eq]
  exact find?_key_updateOrPush (fun _ => rfl) rfl

theorem nodup_noteRoom (h : (rooms.map KnownRoomPreview.name).Nodup) :
    ((noteRoom currentRoom rooms mention).map KnownRoomPreview.name).Nodup := by
  rw [noteRoom_eq]
  refine nodup_map_updateOrPush (fun _ _ => rfl) (fun room hname => ?_) h
  exact decide_eq_true hname

theorem sum_noteRoom :
    ((noteRoom currentRoom rooms mention).map KnownRoomPreview.engagedUsers).sum =
        (rooms.map KnownRoomPreview.engagedUsers).sum + mention.2.toNat ∧
      ((noteRoom currentRoom rooms mention).map KnownRoomPreview.pendingApprovals).sum =
        (rooms.map KnownRoomPreview.pendingApprovals).sum + (!mention.2).toNat := by
  rw [noteRoom_eq]
  exact ⟨sum_map_updateOrPush (fun _ _ => rfl) (Nat.zero_add _),
    sum_map_updateOrPush (fun _ _ => rfl) (Nat.zero_add _)⟩

theorem nodup_foldl_noteRoom (h : (rooms.map KnownRoomPreview.name).Nodup) :
    ((mentions.foldl (noteRoom currentRoom) rooms).map KnownRoomPreview.name).Nodup := by
  induction mentions generalizing rooms with
  | nil => exact h
  | cons mention rest ih => exact ih (nodup_noteRoom h)

theorem sum_foldl_noteRoom :
    ((mentions.foldl (noteRoom currentRoom) rooms).map KnownRoomPreview.engagedUsers).sum =
        (rooms.map KnownRoomPreview.engagedUsers).sum + mentions.countP Prod.snd ∧
      ((mentions.foldl (noteRoom currentRoom) rooms).map KnownRoomPreview.pendingApprovals).sum =
        (rooms.map KnownRoomPreview.pendingApprovals).sum + mentions.countP fun m => !m.2 := by
  induction mentions generalizing rooms with
  | nil => exact ⟨rfl, rfl⟩
  | cons mention rest ih =>
    rw [List.foldl_cons, ih.1, ih.2, sum_noteRoom.1, sum_noteRoom.2, List.countP_cons,
      List.countP_cons]
    cases mention.2 <;> simp [Nat.add_assoc, Nat.add_comm 1]

theorem KnownRoomPreview.add_add (room : KnownRoomPreview) (isCurrent : Bool) (a b c d : Nat) :
    (room.add isCurrent a b).add isCurrent c d = room.add isCurrent (a + c) (b + d) := by
  simp [add, Nat.add_assoc]

/-- A room that is mentioned is there with its mentions; another is as it was. -/
theorem find?_foldl_noteRoom :
    (mentions.foldl (noteRoom currentRoom) rooms).find? (·.name = roomName) =
      if roomName ∈ mentions.map Prod.fst then
        some (((rooms.find? (·.name = roomName)).getD (.empty roomName)).add
          (roomName = currentRoom) (mentions.count (roomName, true)) (mentions.count (roomName, false)))
      else rooms.find? (·.name = roomName) := by
  induction mentions generalizing rooms with
  | nil => rfl
  | cons mention rest ih =>
    obtain ⟨name, engaged⟩ := mention
    have hfirst : (noteRoom currentRoom rooms (name, engaged)).find? (·.name = roomName) = _ :=
      congrFun find?_noteRoom roomName
    rw [List.foldl_cons, ih, hfirst]
    by_cases hname : name = roomName
    · subst hname
      have hthere : name ∈ ((name, engaged) :: rest).map Prod.fst := List.mem_cons_self
      rw [Function.update_self, if_pos hthere, Option.getD_some]
      by_cases hrest : name ∈ rest.map Prod.fst
      · rw [if_pos hrest, KnownRoomPreview.add_add]
        cases engaged <;> simp [Nat.add_comm]
      · have hnone : ∀ flag, rest.count (name, flag) = 0 := fun flag =>
          List.count_eq_zero.mpr fun hmem => hrest (List.mem_map_of_mem hmem)
        rw [if_neg hrest]
        cases engaged <;> simp [hnone]
    · rw [Function.update_of_ne (Ne.symm hname)]
      have hother : ∀ flag, ((name, engaged) :: rest).count (roomName, flag) =
          rest.count (roomName, flag) := fun flag =>
        List.count_cons_of_ne fun heq => hname (Prod.mk.inj heq).1
      have hmem : roomName ∈ ((name, engaged) :: rest).map Prod.fst ↔ roomName ∈ rest.map Prod.fst :=
        List.mem_cons.trans (or_iff_right (Ne.symm hname))
      simp only [hother, hmem]

theorem countedRooms_eq :
    countedRooms s = (roomMentions s).foldl (noteRoom s.currentRoom) (roomSeedList s s.currentRoom) := by
  have hpeers : ∀ (peers : List PeerSummary) (rooms : List KnownRoomPreview),
      (peers.filter sessionActive).foldl (countPeer s.currentRoom) rooms =
        ((peers.filterMap peerRoom).map (·, true)).foldl (noteRoom s.currentRoom) rooms := by
    intro peers
    induction peers with
    | nil => exact fun _ => rfl
    | cons peer peers ih =>
      intro rooms
      cases hroom : peerRoom peer with
      | none =>
        have hinactive : ¬ sessionActive peer = true := fun hactive => by
          obtain ⟨_, hsome⟩ := peerRoom_of_sessionActive hactive
          cases hroom.symm.trans hsome
        rw [List.filter_cons_of_neg hinactive, List.filterMap_cons_none hroom, ih]
      | some roomName =>
        rw [List.filter_cons_of_pos (sessionActive_of_peerRoom hroom),
          List.filterMap_cons_some hroom, List.map_cons, List.foldl_cons, List.foldl_cons, ih]
        rw [countPeer, hroom]
        rfl
  rw [roomMentions, List.foldl_append, List.foldl_map, countedRooms, visibleVoicePeers, hpeers]
  rfl

theorem count_roomMentions_engaged : (roomMentions s).count (roomName, true) =
    s.peers.countP fun peer => peerRoom peer = some roomName := by
  have hnone : (s.pendingPeerApprovals.map fun pending => (pendingRoom pending, false)).count
      (roomName, true) = 0 := by
    refine List.count_eq_zero.mpr fun hmem => ?_
    obtain ⟨_, _, heq⟩ := List.mem_map.mp hmem
    cases (Prod.mk.inj heq).2
  rw [roomMentions, List.count_append, hnone, Nat.add_zero,
    List.count_map_of_injective _ _ (Prod.mk_left_injective true), List.count_filterMap]
  exact List.countP_congr fun peer _ => by simp

theorem count_roomMentions_pending : (roomMentions s).count (roomName, false) =
    s.pendingPeerApprovals.countP fun pending => pendingRoom pending = roomName := by
  have hnone : ((s.peers.filterMap peerRoom).map (·, true)).count (roomName, false) = 0 := by
    refine List.count_eq_zero.mpr fun hmem => ?_
    obtain ⟨_, _, heq⟩ := List.mem_map.mp hmem
    cases (Prod.mk.inj heq).2
  rw [roomMentions, List.count_append, hnone, Nat.zero_add, List.count, List.countP_map]
  refine List.countP_congr fun pending _ => ?_
  simp

theorem countP_roomMentions : (roomMentions s).countP Prod.snd = s.peers.countP sessionActive ∧
    ((roomMentions s).countP fun m => !m.2) = s.pendingPeerApprovals.length := by
  have hactive : (s.peers.filterMap peerRoom).length = s.peers.countP sessionActive := by
    rw [List.length_filterMap_eq_countP]
    refine List.countP_congr fun peer _ => ?_
    rw [Option.isSome_iff_exists]
    exact ⟨fun ⟨_, h⟩ => sessionActive_of_peerRoom h, peerRoom_of_sessionActive⟩
  constructor
  · rw [roomMentions, List.countP_append, List.countP_map, List.countP_map, ← hactive]
    simp [Function.comp_def]
  · rw [roomMentions, List.countP_append, List.countP_map, List.countP_map]
    simp [Function.comp_def]

/-- What the list should say about a room. -/
def roomPreview (s : FullStatus) (roomName : String) : KnownRoomPreview where
  name := roomName
  engagedUsers := s.peers.countP fun peer => peerRoom peer = some roomName
  pendingApprovals := s.pendingPeerApprovals.countP fun pending => pendingRoom pending = roomName
  isCurrent := roomName = s.currentRoom || s.rooms.any fun room => room.engaged && room.name = roomName

theorem nodup_roomSeedList (h : (s.rooms.map RoomSummary.name).Nodup) :
    ((roomSeedList s s.currentRoom).map KnownRoomPreview.name).Nodup := by
  unfold roomSeedList
  split_ifs
  · exact List.nodup_singleton _
  · rw [List.map_map]
    exact h

/-- A seed says of its room what the list should say, but for the counts. -/
theorem roomSeedList_spec {seed : KnownRoomPreview} (h : (s.rooms.map RoomSummary.name).Nodup)
    (hseed : seed ∈ roomSeedList s s.currentRoom) : seed.engagedUsers = 0 ∧
      seed.pendingApprovals = 0 ∧ seed.isCurrent = (roomPreview s seed.name).isCurrent := by
  unfold roomSeedList at hseed
  split_ifs at hseed with hempty
  · obtain rfl := List.mem_singleton.mp hseed
    exact ⟨rfl, rfl, by simp [roomPreview]⟩
  · obtain ⟨room, hroom, rfl⟩ := List.mem_map.mp hseed
    have hmark : (s.rooms.any fun other => other.engaged && other.name = room.name) = room.engaged := by
      rw [Bool.eq_iff_iff, List.any_eq_true]
      constructor
      · rintro ⟨other, hother, hboth⟩
        obtain ⟨hengaged, hname⟩ := Bool.and_eq_true_iff.mp hboth
        rwa [← List.inj_on_of_nodup_map h hother hroom (of_decide_eq_true hname)]
      · exact fun hengaged => ⟨room, hroom, by simp [hengaged]⟩
    exact ⟨rfl, rfl, (Bool.or_comm _ _).trans (congrArg (_ || ·) hmark.symm)⟩

/-- Every stored room has a seed. -/
theorem name_mem_roomSeedList {room : RoomSummary} (hroom : room ∈ s.rooms) :
    room.name ∈ (roomSeedList s s.currentRoom).map KnownRoomPreview.name := by
  have hfull : ¬ s.rooms.isEmpty = true := fun hempty =>
    List.ne_nil_of_mem hroom (List.isEmpty_iff.mp hempty)
  rw [roomSeedList, if_neg hfull, List.map_map]
  exact List.mem_map_of_mem hroom

theorem seed_add (h : (s.rooms.map RoomSummary.name).Nodup) (engaged pending : Nat) :
    (((roomSeedList s s.currentRoom).find? (·.name = roomName)).getD (.empty roomName)).add
        (roomName = s.currentRoom) engaged pending =
      { roomPreview s roomName with engagedUsers := engaged, pendingApprovals := pending } := by
  cases hseed : (roomSeedList s s.currentRoom).find? (·.name = roomName) with
  | none =>
    have hunstored : (s.rooms.any fun room => room.engaged && room.name = roomName) = false := by
      refine List.any_eq_false.mpr fun room hroom hboth => ?_
      obtain ⟨seed, hin, hname⟩ := List.mem_map.mp (name_mem_roomSeedList hroom)
      rw [of_decide_eq_true (Bool.and_eq_true_iff.mp hboth).2] at hname
      exact List.find?_eq_none.mp hseed seed hin (decide_eq_true hname)
    simp [KnownRoomPreview.add, KnownRoomPreview.empty, roomPreview, hunstored]
  | some seed =>
    have hname := List.find?_some hseed
    obtain rfl := of_decide_eq_true hname
    obtain ⟨hengaged, hpending, hmark⟩ := roomSeedList_spec h (List.mem_of_find?_eq_some hseed)
    rw [Option.getD_some, KnownRoomPreview.add, hengaged, hpending, hmark, Nat.zero_add, Nat.zero_add]
    refine congrArg (KnownRoomPreview.mk seed.name engaged pending) ?_
    exact (Bool.or_comm _ _).trans (Bool.or_self_left _ _)

theorem nodup_countedRooms (h : (s.rooms.map RoomSummary.name).Nodup) :
    ((countedRooms s).map KnownRoomPreview.name).Nodup := by
  rw [countedRooms_eq]
  exact nodup_foldl_noteRoom (nodup_roomSeedList h)

/-- The unsorted list has the rooms of the seeds and of the mentions, and says
of each what it should. -/
theorem find?_countedRooms (h : (s.rooms.map RoomSummary.name).Nodup) :
    (countedRooms s).find? (·.name = roomName) =
      if roomName ∈ (roomSeedList s s.currentRoom).map KnownRoomPreview.name ∨
        roomName ∈ (roomMentions s).map Prod.fst then some (roomPreview s roomName) else none := by
  rw [countedRooms_eq, find?_foldl_noteRoom, seed_add h, count_roomMentions_engaged,
    count_roomMentions_pending]
  by_cases hmention : roomName ∈ (roomMentions s).map Prod.fst
  · rw [if_pos hmention, if_pos (.inr hmention)]
    rfl
  · have hcount : ∀ flag, (roomMentions s).count (roomName, flag) = 0 := fun flag =>
      List.count_eq_zero.mpr fun hmem => hmention (List.mem_map_of_mem hmem)
    rw [if_neg hmention]
    cases hseed : (roomSeedList s s.currentRoom).find? (·.name = roomName) with
    | none =>
      rw [if_neg]
      rintro (hin | hin)
      · obtain ⟨seed, hmem, hname⟩ := List.mem_map.mp hin
        exact List.find?_eq_none.mp hseed seed hmem (decide_eq_true hname)
      · exact hmention hin
    | some seed =>
      have hmem := List.mem_of_find?_eq_some hseed
      have hname := List.find?_some hseed
      obtain rfl := of_decide_eq_true hname
      obtain ⟨hengaged, hpending, hmark⟩ := roomSeedList_spec h hmem
      rw [if_pos (.inl (List.mem_map_of_mem hmem))]
      refine congrArg some (KnownRoomPreview.ext rfl ?_ ?_ hmark)
      · exact hengaged.trans ((hcount true).symm.trans count_roomMentions_engaged)
      · exact hpending.trans ((hcount false).symm.trans count_roomMentions_pending)

theorem previewBefore_iff (a b : KnownRoomPreview) : previewBefore a b ↔
    toLex (OrderDual.toDual a.isCurrent, toLex (OrderDual.toDual a.engagedUsers,
      toLex (OrderDual.toDual a.pendingApprovals, a.name))) ≤
    toLex (OrderDual.toDual b.isCurrent, toLex (OrderDual.toDual b.engagedUsers,
      toLex (OrderDual.toDual b.pendingApprovals, b.name))) := by
  simp only [previewBefore, Prod.Lex.toLex_le_toLex, OrderDual.toDual_lt_toDual,
    OrderDual.toDual_inj, eq_comm (b := a.isCurrent), eq_comm (b := a.engagedUsers),
    eq_comm (b := a.pendingApprovals)]

instance : Std.Total previewBefore where
  total a b := by
    rw [previewBefore_iff, previewBefore_iff]
    exact le_total _ _

instance : IsTrans KnownRoomPreview previewBefore where
  trans a b c hab hbc := by
    rw [previewBefore_iff] at hab hbc ⊢
    exact hab.trans hbc

instance : Std.Antisymm previewBefore where
  antisymm a b hab hba := by
    rw [previewBefore_iff] at hab hba
    have heq := le_antisymm hab hba
    simp only [EmbeddingLike.apply_eq_iff_eq, Prod.mk.injEq] at heq
    obtain ⟨hcurrent, hengaged, hpending, hname⟩ := heq
    exact KnownRoomPreview.ext hname hengaged hpending hcurrent

theorem mem_knownRooms {room : KnownRoomPreview} (h : (s.rooms.map RoomSummary.name).Nodup) :
    room ∈ knownRooms s ↔ room = roomPreview s room.name ∧
      (room.name ∈ (roomSeedList s s.currentRoom).map KnownRoomPreview.name ∨
        room.name ∈ (roomMentions s).map Prod.fst) := by
  rw [knownRooms, List.mem_insertionSort]
  have hfind : (countedRooms s).find? (·.name = room.name) = _ := find?_countedRooms h
  constructor
  · intro hroom
    rw [find?_of_nodup (nodup_countedRooms h) hroom] at hfind
    obtain ⟨hlisted, heq⟩ := Option.ite_none_right_eq_some.mp hfind.symm
    exact ⟨(Option.some.inj heq).symm, hlisted⟩
  · rintro ⟨heq, hlisted⟩
    rw [if_pos hlisted, ← heq] at hfind
    exact List.mem_of_find?_eq_some hfind

theorem knownRooms_perm (s : FullStatus) : (knownRooms s).Perm (countedRooms s) :=
  List.perm_insertionSort previewBefore _

/-- Only the counts depend on the peers and on the approvals. -/
theorem knownRooms_congr {t : FullStatus} (h : (s.rooms.map RoomSummary.name).Nodup)
    (hrooms : t.rooms = s.rooms) (hsession : t.session = s.session)
    (hpeers : t.peers.Perm s.peers)
    (hpending : t.pendingPeerApprovals.Perm s.pendingPeerApprovals) :
    knownRooms t = knownRooms s := by
  have hcurrent : t.currentRoom = s.currentRoom := by
    rw [FullStatus.currentRoom, hsession, FullStatus.currentRoom]
  have hseeds : roomSeedList t t.currentRoom = roomSeedList s s.currentRoom := by
    rw [roomSeedList, hrooms, hcurrent, roomSeedList]
  have hmentions : (roomMentions t).Perm (roomMentions s) :=
    ((hpeers.filterMap peerRoom).map _).append (hpending.map _)
  have ht : (t.rooms.map RoomSummary.name).Nodup := hrooms ▸ h
  apply insertionSort_eq_of_perm
  refine perm_of_find?_key (nodup_countedRooms ht) (nodup_countedRooms h) fun roomName => ?_
  have hpreview : roomPreview t roomName = roomPreview s roomName := by
    rw [roomPreview, hpeers.countP_eq, hpending.countP_eq, hcurrent, hrooms, roomPreview]
  rw [find?_countedRooms ht, find?_countedRooms h, hseeds, hpreview]
  simp only [(hmentions.map Prod.fst).mem_iff]

theorem knownRooms_name {roomName : String} (h : (s.rooms.map RoomSummary.name).Nodup)
    (hseed : roomName ∈ (roomSeedList s s.currentRoom).map KnownRoomPreview.name) :
    roomName ∈ (knownRooms s).map KnownRoomPreview.name :=
  List.mem_map.mpr ⟨roomPreview s roomName, (mem_knownRooms h).mpr ⟨rfl, .inl hseed⟩, rfl⟩

theorem knownRooms_totals :
    ((knownRooms s).map KnownRoomPreview.engagedUsers).sum = s.peers.countP sessionActive ∧
      ((knownRooms s).map KnownRoomPreview.pendingApprovals).sum = s.pendingPeerApprovals.length := by
  have hseeds : ((roomSeedList s s.currentRoom).map KnownRoomPreview.engagedUsers).sum = 0 ∧
      ((roomSeedList s s.currentRoom).map KnownRoomPreview.pendingApprovals).sum = 0 := by
    unfold roomSeedList
    split_ifs
    · exact ⟨rfl, rfl⟩
    · rw [List.map_map, List.map_map]
      have hzero : (s.rooms.map fun _ => 0).sum = 0 := by simp
      exact ⟨hzero, hzero⟩
  rw [((knownRooms_perm s).map _).sum_nat, ((knownRooms_perm s).map _).sum_nat, countedRooms_eq,
    sum_foldl_noteRoom.1, sum_foldl_noteRoom.2, hseeds.1, hseeds.2, countP_roomMentions.1,
    countP_roomMentions.2]
  exact ⟨Nat.zero_add _, Nat.zero_add _⟩

/-- The room list accounts for everyone, in whatever order they are listed. -/
theorem known_rooms_account (h : (s.rooms.map RoomSummary.name).Nodup) :
    RoomsAccount s (knownRooms s) ∧
      ∀ t : FullStatus, t.rooms = s.rooms → t.session = s.session → t.peers.Perm s.peers →
        t.pendingPeerApprovals.Perm s.pendingPeerApprovals → knownRooms t = knownRooms s := by
  refine ⟨?_, fun t => knownRooms_congr h⟩
  have hpreview : ∀ room ∈ knownRooms s, room = roomPreview s room.name :=
    fun room hroom => ((mem_knownRooms h).mp hroom).1
  constructor
  case distinct => exact ((knownRooms_perm s).map _).nodup_iff.mpr (nodup_countedRooms h)
  case stored => exact fun room hroom => knownRooms_name h (name_mem_roomSeedList hroom)
  case current =>
    intro hnone
    refine knownRooms_name h ?_
    simp [roomSeedList, hnone]
  case marked =>
    intro room hroom
    rw [hpreview room hroom]
    simp [roomPreview]
  case engaged => exact fun room hroom => congrArg KnownRoomPreview.engagedUsers (hpreview room hroom)
  case pending =>
    exact fun room hroom => congrArg KnownRoomPreview.pendingApprovals (hpreview room hroom)
  case engagedTotal => exact knownRooms_totals.1
  case pendingTotal => exact knownRooms_totals.2
  case sorted => exact List.pairwise_insertionSort previewBefore _

end

/-- A status with two rooms, a peer in the one that is not entered, and an
approval for a third. -/
def threeRooms : FullStatus where
  toDaemonStatus := { bootstrap emptyState "local-user" localPeer with
    session := { roomName := some "alpha", displayName := "local-user", selfMuted := false }
    peers := [{ newPeer 1 remotePeer "" with session := .active (some "beta") "remote" }]
    pendingPeerApprovals :=
      [{ peerId := relayPeer, displayName := "relay", address := "", roomName := none, known := false }] }
  rooms := [newRoom "alpha", { newRoom "beta" with engaged := false }]

example : (knownRooms threeRooms).map (fun room =>
    (room.name, room.engagedUsers, room.pendingApprovals, room.isCurrent)) =
      [("alpha", 0, 0, true), ("beta", 1, 0, false), ("main", 0, 1, false)] := by
  decide +kernel

theorem known_rooms_account_threeRooms :
    RoomsAccount threeRooms (knownRooms threeRooms) ∧ threeRooms.rooms.length = 2 :=
  ⟨(known_rooms_account (by decide)).1, rfl⟩

end Voicers
