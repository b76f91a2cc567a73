import Voicers.App.JoinInvite
import Voicers.Network.JoinTarget

/-! The records a host publishes and the lookups of other daemons
(`network/invite.rs`, `dial_peer`): they name the records by the same keys. -/

namespace Voicers

open Lib

/-- A peer id is base58 text. -/
def Base58Ids (lib : Libp2p) : Prop :=
  ∀ text, lib.isPeerId text = true → text ≠ "" ∧ ∀ c ∈ text.toList, c.isAlphanum = true

/-- The text is dialed through the DHT. -/
def Daemon.LooksUp {κ : Codec} (lib : Libp2p) (d : Daemon κ) (text : String) : Prop :=
  lib.parseMultiaddr (resolveRankedDialTarget lib d.status.network text).primary = none

/-- No peer is known or named by the text: the room branch of `dial_peer`. -/
def Daemon.LooksUpRoom {κ : Codec} (lib : Libp2p) (d : Daemon κ) (text : String) : Prop :=
  d.LooksUp lib text ∧ (resolveRankedDialTarget lib d.status.network text).peerId = none

def RoomSummary.inviteCode? (room : RoomSummary) : Option String :=
  room.currentInvite.map RoomInviteSummary.inviteCode

def roomCodes (rooms : List RoomSummary) : List String := rooms.filterMap RoomSummary.inviteCode?

/-- The code an event has drawn for an invite. -/
def drawnCode {lib : Libp2p} : RoomEvent lib → Option String
  | .createRoom _ inviteCode _ | .rotateInviteCode inviteCode _ => some inviteCode
  | _ => none

def DrawsFresh {lib : Libp2p} (x : RoomTransition lib) : Prop :=
  ∀ inviteCode, drawnCode x.input = some inviteCode → ∃ hash, inviteCode = freshInviteCode hash

/-! ### The codes of the rooms -/

section

variable {json : InviteJson} {lib : Libp2p} {s : InviteState} {d t : RoomDaemon}
  {rooms : List RoomSummary}

theorem mem_roomCodes {inviteCode : String} :
    inviteCode ∈ roomCodes rooms ↔ ∃ room ∈ rooms, room.inviteCode? = some inviteCode :=
  List.mem_filterMap

theorem roomCodes_updateFirst {p : RoomSummary → Bool} {f : RoomSummary → RoomSummary}
    {codes : List String} (hrooms : roomCodes rooms ⊆ codes)
    (hf : ∀ room ∈ rooms, ∀ inviteCode, (f room).inviteCode? = some inviteCode →
      inviteCode ∈ codes) :
    roomCodes (updateFirst p f rooms) ⊆ codes := by
  intro inviteCode hcode
  obtain ⟨room, hroom, hinvite⟩ := mem_roomCodes.mp hcode
  rcases mem_updateFirst hroom with hold | ⟨old, hold, _, rfl⟩
  · exact hrooms (mem_roomCodes.mpr ⟨room, hold, hinvite⟩)
  · exact hf old hold inviteCode hinvite

theorem roomCodes_updateFirst_same {p : RoomSummary → Bool} {f : RoomSummary → RoomSummary}
    (hf : ∀ room, (f room).inviteCode? = room.inviteCode?) :
    roomCodes (updateFirst p f rooms) ⊆ roomCodes rooms := by
  refine roomCodes_updateFirst (List.Subset.refl _) fun room hroom inviteCode hcode => ?_
  rw [hf] at hcode
  exact mem_roomCodes.mpr ⟨room, hroom, hcode⟩

theorem roomCodes_map {f : RoomSummary → RoomSummary}
    (hf : ∀ room, (f room).inviteCode? = room.inviteCode?) :
    roomCodes (rooms.map f) = roomCodes rooms := by
  simp only [roomCodes, List.filterMap_map, Function.comp_def, hf]

theorem roomCodes_sync (rooms : List RoomSummary) (localPeerId displayName : String) :
    roomCodes (syncLocalRoomMemberships rooms localPeerId displayName) ⊆ roomCodes rooms := by
  obtain ⟨f, hf, hframe⟩ := syncLocalRoomMemberships_eq_map rooms localPeerId displayName
  have hsame : ∀ room, (f room).inviteCode? = room.inviteCode? := by
    intro room
    rw [RoomSummary.inviteCode?, (hframe room).2.2]
    rfl
  rw [hf, roomCodes_map hsame]
  exact List.Subset.refl _

theorem inviteCode?_enterRoom (room : RoomSummary) (localPeerId displayName : String) :
    (enterRoom room localPeerId displayName).inviteCode? = room.inviteCode? := by
  rw [RoomSummary.inviteCode?, (enterRoom_frame room localPeerId displayName).2.2]
  rfl

theorem roomCodes_createOrUpdateRoom (rooms : List RoomSummary)
    (roomName localPeerId displayName : String) :
    roomCodes (createOrUpdateRoom rooms roomName localPeerId displayName) ⊆ roomCodes rooms := by
  have hengage : roomCodes (engageOnly rooms roomName) = roomCodes rooms := roomCodes_map fun _ => rfl
  unfold createOrUpdateRoom
  split_ifs
  · have hupdate := @roomCodes_updateFirst_same (engageOnly rooms roomName)
      (fun room => decide (room.name = roomName)) _
      fun room => inviteCode?_enterRoom room localPeerId displayName
    rwa [hengage] at hupdate
  · intro inviteCode hcode
    obtain ⟨room, hroom, hinvite⟩ := mem_roomCodes.mp hcode
    rcases List.mem_append.mp ((List.perm_insertionSort _ _).mem_iff.mp hroom) with hold | hnew
    · rw [← hengage]
      exact mem_roomCodes.mpr ⟨room, hold, hinvite⟩
    · obtain rfl := List.mem_singleton.mp hnew
      rw [inviteCode?_enterRoom] at hinvite
      cases hinvite

theorem roomCodes_setRoomInvite (rooms : List RoomSummary)
    (roomName localPeerId inviteCode : String) (expiresAtMs : Option Nat) :
    roomCodes (setRoomInvite rooms roomName localPeerId inviteCode expiresAtMs) ⊆
      inviteCode :: roomCodes rooms := by
  refine roomCodes_updateFirst (List.subset_cons_self _ _) fun room _ code hcode => ?_
  obtain rfl := Option.some.inj hcode
  exact List.mem_cons_self

theorem roomCodes_clearRoomInvite (rooms : List RoomSummary) (roomName : String) :
    roomCodes (clearRoomInvite rooms roomName) ⊆ roomCodes rooms := by
  refine roomCodes_updateFirst (List.Subset.refl _) fun room _ code hcode => ?_
  cases hcode

theorem roomCodes_update (json : InviteJson) (lib : Libp2p) (s : InviteState) :
    roomCodes (s.updateShareInvite lib json).rooms ⊆ roomCodes s.rooms := by
  simp only [InviteState.updateShareInvite]
  cases s.shownRoomInvite with
  | none => exact List.Subset.refl _
  | some shown =>
    refine roomCodes_updateFirst_same fun room => ?_
    simp only [RoomSummary.inviteCode?, InviteState.setShareInvite, Option.map_map]
    rfl

theorem roomCodes_create (s : InviteState) (roomName inviteCode : String) (expiresAtMs : Nat) :
    roomCodes (s.createRoom roomName inviteCode expiresAtMs).rooms ⊆
      inviteCode :: roomCodes s.rooms := by
  have henter := roomCodes_createOrUpdateRoom s.rooms (normalizeRoomName roomName) s.localPeerId
    s.displayName
  simp only [InviteState.createRoom]
  split_ifs
  · exact List.Subset.trans (roomCodes_setRoomInvite _ _ _ _ _) (List.cons_subset_cons _ henter)
  · exact List.subset_cons_of_subset _ (List.Subset.trans (roomCodes_clearRoomInvite _ _) henter)

theorem roomCodes_rotate (json : InviteJson) (lib : Libp2p) (s : InviteState) (inviteCode : String)
    (expiresAtMs : Nat) :
    roomCodes (s.rotateInviteCode lib json inviteCode expiresAtMs).rooms ⊆
      inviteCode :: roomCodes s.rooms := by
  unfold InviteState.rotateInviteCode
  split
  · exact List.subset_cons_self _ _
  · split_ifs
    · exact List.Subset.trans (roomCodes_update json lib _) (roomCodes_setRoomInvite _ _ _ _ _)
    · exact List.subset_cons_self _ _

theorem roomCodes_handleSwarm (json : InviteJson) (s : InviteState) (event : InviteEvent lib) :
    roomCodes (s.handleSwarm json event).rooms ⊆ roomCodes s.rooms := by
  have hupdate := roomCodes_update json lib (s.handleAddress event)
  rw [(InviteState.handleAddress_frame event).2.1] at hupdate
  unfold InviteState.handleSwarm
  split
  · exact List.Subset.refl _
  · split_ifs
    · exact hupdate
    · exact List.Subset.refl _
  · exact hupdate

/-- Codes come from the rooms before the step or from the event, unless the
step is a start. -/
theorem roomCodes_step {e : RoomEvent lib} {o : Option ControlResponse}
    (h : d.step json e = some (o, t)) (he : ∀ index displayName, e ≠ .restart index displayName) :
    roomCodes t.status.rooms ⊆ (drawnCode e).toList ++ roomCodes d.status.rooms := by
  cases e with
  | swarm event =>
    obtain ⟨rfl, rfl⟩ := Prod.mk.inj (Option.some.inj h)
    exact roomCodes_handleSwarm json d.status event
  | createRoom roomName inviteCode expiresAtMs =>
    obtain ⟨_, _, rfl⟩ := serve_eq_some h
    have hcreate := roomCodes_create d.status roomName inviteCode expiresAtMs
    simp only [InviteState.handleCreateRoom]
    exact List.Subset.trans (roomCodes_update json lib _) hcreate
  | joinPeer address nowMs =>
    obtain ⟨_, _, rfl⟩ := serve_eq_some h
    unfold InviteState.join
    split
    · exact List.Subset.refl _
    · exact roomCodes_createOrUpdateRoom _ _ _ _
  | setDisplayName displayName =>
    obtain ⟨_, _, rfl⟩ := serve_eq_some h
    simp only [InviteState.handleSetDisplayName, InviteState.setDisplayName]
    split_ifs
    · exact List.Subset.refl _
    · exact roomCodes_sync _ _ _
  | rotateInviteCode inviteCode expiresAtMs =>
    obtain ⟨_, _, rfl⟩ := serve_eq_some h
    exact roomCodes_rotate json lib _ _ _
  | saveFull book =>
    simp only [RoomDaemon.step] at h
    split_ifs at h
    obtain ⟨rfl, rfl⟩ := Prod.mk.inj (Option.some.inj h)
    exact List.Subset.refl _
  | saveNetwork network existing =>
    obtain ⟨file, _, heq⟩ := Option.map_eq_some_iff.mp h
    obtain ⟨rfl, rfl⟩ := Prod.mk.inj heq
    exact List.Subset.refl _
  | restart index displayName => exact absurd rfl (he index displayName)
  | assignLocalPeerId localPeerId =>
    simp only [RoomDaemon.step] at h
    split_ifs at h
    obtain ⟨rfl, rfl⟩ := Prod.mk.inj (Option.some.inj h)
    exact roomCodes_sync _ _ _

/-- All codes of the status and of its files have been drawn by the daemon. -/
structure CodesFresh (d : RoomDaemon) : Prop where
  status : ∀ inviteCode ∈ roomCodes d.status.rooms, ∃ hash, inviteCode = freshInviteCode hash
  files : ∀ file ∈ .default :: d.files, ∀ inviteCode ∈ roomCodes file.rooms,
    ∃ hash, inviteCode = freshInviteCode hash

theorem CodesFresh.step {x : RoomTransition lib} (hdraws : DrawsFresh x) (h : CodesFresh x.before)
    (hstep : x.before.step json x.input = some (x.output, x.after)) : CodesFresh x.after := by
  rcases step_rooms hstep with ⟨index, displayName, file, _, hfile, hafter⟩ | hrooms
  · rw [hafter]
    exact ⟨h.files file (mem_of_fileAt hfile), h.files⟩
  · constructor
    · intro inviteCode hcode
      rcases List.mem_append.mp (roomCodes_step hstep hrooms.lasting hcode) with hdrawn | hold
      · exact hdraws inviteCode (Option.mem_toList.mp hdrawn)
      · exact h.status inviteCode hold
    · intro file hfile
      rcases List.mem_cons.mp hfile with rfl | hfile
      · exact h.files _ List.mem_cons_self
      · rcases hrooms.files file hfile with hsame | ⟨old, hold, hsame⟩
        · rw [hsame]
          exact h.status
        · rw [hsame]
          exact h.files old hold

theorem CodesFresh.run {displayName : String} {tr : List (RoomTransition lib)}
    (hrun : RoomRun json displayName tr d) (hdraws : ∀ x ∈ tr, DrawsFresh x) : CodesFresh d := by
  refine hrun.invariant_on (fun x hx h hstep => h.step hx hstep) hdraws ⟨?_, ?_⟩
  · simp [RoomDaemon.start, InviteState.load, StateFile.default, roomCodes]
  · simp [RoomDaemon.start, StateFile.default, roomCodes]

end

/-- A room invite that is published under its code and its room name. -/
structure Announced (shown : String × RoomInviteSummary) : Prop where
  name : trim shown.1 = shown.1
  named : shown.1 ≠ ""
  ne_main : shown.1 ≠ "main"
  code : trim shown.2.inviteCode = shown.2.inviteCode
  coded : shown.2.inviteCode ≠ ""

/-- The record of the room on show, with the addresses of the direct call. -/
def InviteState.roomRecord (s : InviteState) (addrs : List String)
    (shown : String × RoomInviteSummary) : CompactInviteV1 where
  v := 1
  kind := .room
  peerId := s.localPeerId
  addrs := addrs
  inviteCode := some shown.2.inviteCode
  roomName := some shown.1
  expiresAtMs := shown.2.expiresAtMs

section

variable {json : InviteJson} {lib : Libp2p} {s : InviteState} {host : RoomDaemon}
  {text : String} {shown : String × RoomInviteSummary} {direct : CompactInviteV1}

/-! ### Peer ids as texts -/

theorem isWhiteSpace_of_isAlphanum {c : Char} (h : c.isAlphanum = true) :
    isWhiteSpace c = false := by
  change (decide (c.val ≥ 65 ∧ c.val ≤ 90) || (decide (c.val ≥ 97) && decide (c.val ≤ 122)) ||
    (decide (c.val ≥ 48) && decide (c.val ≤ 57))) = true at h
  simp only [isWhiteSpace, Bool.or_eq_true, Bool.and_eq_true, decide_eq_true_eq,
    UInt32.le_iff_toNat_le, ge_iff_le, ← UInt32.toNat_inj, Bool.or_eq_false_iff,
    Bool.and_eq_false_iff, decide_eq_false_iff_not] at h ⊢
  simp only [UInt32.reduceToNat] at h ⊢
  omega

theorem Base58Ids.trim_eq (hids : Base58Ids lib) (hid : lib.isPeerId text = true) :
    trim text = text :=
  trim_eq_self fun c hc => isWhiteSpace_of_isAlphanum ((hids text hid).2 c hc)

theorem Base58Ids.slash_not_mem (hids : Base58Ids lib) (hid : lib.isPeerId text = true) :
    '/' ∉ text.toList := by
  intro hslash
  exact absurd ((hids text hid).2 '/' hslash) (by decide)

theorem Base58Ids.parseMultiaddr (hids : Base58Ids lib) (hlib : SlashLed lib)
    (hid : lib.isPeerId text = true) : lib.parseMultiaddr text = none := by
  cases hparse : lib.parseMultiaddr text with
  | none => rfl
  | some components =>
    rcases hlib text components hparse with hempty | ⟨rest, hrest⟩
    · exact absurd hempty (hids text hid).1
    · exact absurd (by rw [hrest]; exact List.mem_cons_self) (hids.slash_not_mem hid)

theorem resolveRankedDialTarget_isPeerId (hids : Base58Ids lib) (hlib : SlashLed lib)
    (network : NetworkSummary) (hid : lib.isPeerId (trim text) = true) :
    (resolveRankedDialTarget lib network text).peerId = some (trim text) := by
  cases hknown : network.knownPeers.find? (fun p => p.peerId = trim text) with
  | some knownPeer =>
    rw [resolveRankedDialTarget_known lib hknown]
    rfl
  | none =>
    have hparse := hids.parseMultiaddr hlib hid
    simp [resolveRankedDialTarget, hknown, hparse, hid]

/-! ### The lookups of a dial -/

theorem Daemon.dialPeer_lookup {κ : Codec} {d : Daemon κ} (h : d.LooksUp lib text) (query : Nat)
    (dialed : Bool) :
    (d.dialPeer lib text query dialed).2 =
      [.getRecord (((resolveRankedDialTarget lib d.status.network text).peerId.map
        rendezvousRecordKey).getD (roomRendezvousRecordKey (trim text)))] := by
  unfold LooksUp at h
  simp only [dialPeer, h]
  cases (resolveRankedDialTarget lib d.status.network text).peerId with
  | none => rfl
  | some peerId => rfl

theorem trim_eq_of_roomRendezvousRecordKey {roomName other : String}
    (h : Daemon.roomRendezvousRecordKey roomName = Daemon.roomRendezvousRecordKey other) :
    trim roomName = trim other := by
  have hlist := congrArg String.toList h
  simp only [Daemon.roomRendezvousRecordKey, String.toList_append] at hlist
  exact String.toList_inj.mp (List.append_cancel_left hlist)

/-- The key of a peer id has no further slash. -/
theorem rendezvousRecordKey_ne_room (hslash : '/' ∉ text.toList) (roomName : String) :
    Daemon.rendezvousRecordKey text ≠ Daemon.roomRendezvousRecordKey roomName := by
  intro h
  have hlist := congrArg String.toList h
  simp only [Daemon.rendezvousRecordKey, Daemon.roomRendezvousRecordKey, String.toList_append,
    List.append_assoc] at hlist
  apply hslash
  rw [List.append_cancel_left hlist]
  exact List.mem_append_left _ (by decide)

/-! ### The records -/

theorem decodeRendezvousRecord_toVec {record : CompactInviteV1} (hversion : record.v = 1)
    (hpeer : trim record.peerId ≠ "") :
    decodeRendezvousRecord json (json.toVec record) = some record.trimmed := by
  have hvalid : ¬ (record.v ≠ 1 ∨ trim record.peerId = "") := by simp [hversion, hpeer]
  rw [decodeRendezvousRecord, json.fromSlice_toVec]
  exact if_neg hvalid

namespace InviteState

theorem exists_currentDirectCallInvite
    (h : ∃ a ∈ s.listedAddrs, (shareableAddress lib a s.localPeerId).isSome = true) :
    ∃ addrs, trimAddrs addrs ≠ [] ∧ s.currentDirectCallInvite lib = some
      { v := 1
        kind := .directCall
        peerId := s.localPeerId
        addrs := addrs
        inviteCode := none
        roomName := none
        expiresAtMs := none } := by
  obtain ⟨a, ha, hsome⟩ := h
  obtain ⟨shareable, hshare⟩ := Option.isSome_iff_exists.mp hsome
  have hset : ¬ (s.localPeerId = "<starting>" ∨ s.localPeerId = "") := by
    intro hunset
    rw [shareableAddress, if_pos hunset] at hshare
    cases hshare
  obtain ⟨addrs, haddrs⟩ : ∃ addrs, addrs = (s.listedAddrs.filterMap fun address =>
    shareableAddress lib address s.localPeerId).foldl pushUnique [] := ⟨_, rfl⟩
  have hmem : shareable ∈ addrs := by
    rw [haddrs, mem_foldl_pushUnique, List.mem_filterMap]
    exact .inr ⟨a, ha, hshare⟩
  refine ⟨addrs, ?_, ?_⟩
  · refine List.ne_nil_of_mem (a := trim shareable) ?_
    rw [trimAddrs, List.mem_filter]
    exact ⟨List.mem_map_of_mem hmem, by simpa using trim_ne_empty_of_shareable hshare⟩
  · have hne := List.ne_nil_of_mem hmem
    rw [haddrs] at hne ⊢
    rw [currentDirectCallInvite, if_neg hset]
    exact if_neg hne

theorem currentRendezvousRecords_eq (hdirect : s.currentDirectCallInvite lib = some direct)
    (hrooms : ∀ shown, s.shownRoomInvite = some shown → Announced shown) :
    s.currentRendezvousRecords lib =
      (Daemon.rendezvousRecordKey direct.peerId, direct) ::
        match s.shownRoomInvite with
        | none => []
        | some shown =>
          [(Daemon.roomRendezvousRecordKey shown.2.inviteCode, s.roomRecord direct.addrs shown),
            (Daemon.roomRendezvousRecordKey shown.1, s.roomRecord direct.addrs shown)] := by
  unfold currentRendezvousRecords
  rw [hdirect]
  cases hshown : s.shownRoomInvite with
  | none => rfl
  | some shown =>
    have hannounced := hrooms shown hshown
    simp [hannounced.name, hannounced.named, hannounced.ne_main, hannounced.code,
      hannounced.coded, roomRecord]

end InviteState

theorem announced {displayName : String} {tr : List (RoomTransition lib)}
    (hrun : RoomRun json displayName tr host) (hdraws : ∀ x ∈ tr, DrawsFresh x)
    (hshown : host.status.shownRoomInvite = some shown) : Announced shown := by
  obtain ⟨room, hengaged, hname, hinvite⟩ := InviteState.engaged_of_shownRoomInvite hshown
  have hroom := List.mem_of_find?_eq_some hengaged
  have hformed := (RoomsSound.run hrun).status.formed room hroom
  have hcode : room.inviteCode? = some shown.2.inviteCode := by
    rw [RoomSummary.inviteCode?, hinvite]
    rfl
  obtain ⟨hash, hhash⟩ := (CodesFresh.run hrun hdraws).status shown.2.inviteCode
    (mem_roomCodes.mpr ⟨room, hroom, hcode⟩)
  refine ⟨?_, ?_, ?_, ?_, ?_⟩
  · rw [← hname]
    exact hformed.trimmed
  · rw [← hname]
    exact hformed.named
  · intro hmain
    have hnone := hformed.main (hname.trans hmain)
    rw [hinvite] at hnone
    cases hnone
  · rw [hhash]
    exact trim_eq_self (isWhiteSpace_freshInviteCode hash)
  · intro hempty
    have hlength := length_freshInviteCode hash
    rw [← hhash, hempty] at hlength
    cases hlength

/-- What a host publishes is accepted where it is found, and found where
other daemons look for it. -/
theorem published_records_found (hids : Base58Ids lib) (hlib : SlashLed lib)
    {displayName : String} {tr : List (RoomTransition lib)}
    (hrun : RoomRun json displayName tr host) (hdraws : ∀ x ∈ tr, DrawsFresh x)
    (hid : lib.isPeerId host.status.localPeerId = true)
    (haddr : ∃ a ∈ host.status.listedAddrs,
      (shareableAddress lib a host.status.localPeerId).isSome = true) :
    (∀ key record, (key, record) ∈ host.status.currentRendezvousRecords lib →
      decodeRendezvousRecord json (json.toVec record) = some record.trimmed ∧
        record.trimmed.addrs ≠ []) ∧
      ((∀ roomName invite, host.status.shownRoomInvite = some (roomName, invite) →
        roomName ≠ invite.inviteCode) →
          ((host.status.currentRendezvousRecords lib).map Prod.fst).Nodup) ∧
      (∀ {κ : Codec} (d : Daemon κ) (text : String) (query : Nat) (dialed : Bool),
        trim text = host.status.localPeerId → d.LooksUp lib text →
          ∃ key record, (key, record) ∈ host.status.currentRendezvousRecords lib ∧
            record.kind = .directCall ∧ record.peerId = host.status.localPeerId ∧
            (d.dialPeer lib text query dialed).2 = [.getRecord key]) ∧
      ∀ roomName invite, host.status.shownRoomInvite = some (roomName, invite) →
        ∀ {κ : Codec} (d : Daemon κ) (text : String) (query : Nat) (dialed : Bool),
          trim text = invite.inviteCode ∨ trim text = roomName ∧ roomName ≠ "main" →
            d.LooksUpRoom lib text →
              ∃ key record, (key, record) ∈ host.status.currentRendezvousRecords lib ∧
                record.kind = .room ∧ record.peerId = host.status.localPeerId ∧
                record.roomName = some roomName ∧ record.inviteCode = some invite.inviteCode ∧
                record.expiresAtMs = invite.expiresAtMs ∧
                (d.dialPeer lib text query dialed).2 = [.getRecord key] := by
  obtain ⟨addrs, hlisted, hdirect⟩ := InviteState.exists_currentDirectCallInvite haddr
  have hannounced : ∀ shown, host.status.shownRoomInvite = some shown → Announced shown :=
    fun shown hshown => announced hrun hdraws hshown
  have hrecords := InviteState.currentRendezvousRecords_eq hdirect hannounced
  have hpeer : trim host.status.localPeerId ≠ "" := by
    rw [hids.trim_eq hid]
    exact (hids _ hid).1
  rw [hrecords]
  refine ⟨?_, ?_, ?_, ?_⟩
  · intro key record hrecord
    rcases List.mem_cons.mp hrecord with heq | hroom
    · obtain ⟨rfl, rfl⟩ := Prod.mk.inj heq
      exact ⟨decodeRendezvousRecord_toVec rfl hpeer, hlisted⟩
    · cases hshown : host.status.shownRoomInvite with
      | none =>
        rw [hshown] at hroom
        cases hroom
      | some shown =>
        have hmade : record = host.status.roomRecord addrs shown := by
          simp only [hshown, List.mem_cons, Prod.mk.injEq, List.not_mem_nil, or_false] at hroom
          exact hroom.elim And.right And.right
        rw [hmade]
        exact ⟨decodeRendezvousRecord_toVec rfl hpeer, hlisted⟩
  · intro hdistinct
    cases hshown : host.status.shownRoomInvite with
    | none => exact List.nodup_singleton _
    | some shown =>
      have hroom := hannounced shown hshown
      have hslash := hids.slash_not_mem hid
      have hkeys : Daemon.roomRendezvousRecordKey shown.2.inviteCode ≠
          Daemon.roomRendezvousRecordKey shown.1 := by
        intro hsame
        have htrim := trim_eq_of_roomRendezvousRecordKey hsame
        rw [hroom.code, hroom.name] at htrim
        exact hdistinct shown.1 shown.2 hshown htrim.symm
      simp [rendezvousRecordKey_ne_room hslash, hkeys]
  · intro κ d text query dialed htext hlookup
    rw [← htext] at hid
    refine ⟨_, _, List.mem_cons_self, rfl, rfl, ?_⟩
    rw [Daemon.dialPeer_lookup hlookup, resolveRankedDialTarget_isPeerId hids hlib _ hid, htext]
    rfl
  · intro roomName invite hshown κ d text query dialed htext hlookup
    have hroom := hannounced (roomName, invite) hshown
    have hdial := Daemon.dialPeer_lookup hlookup.1 query dialed
    rw [hlookup.2, Option.map_none, Option.getD_none] at hdial
    rw [hshown, hdial]
    rcases htext with hcode | ⟨hname, _⟩
    · refine ⟨_, _, List.mem_cons_of_mem _ List.mem_cons_self, rfl, rfl, rfl, rfl, rfl, ?_⟩
      rw [hcode]
    · refine ⟨_, _, List.mem_cons_of_mem _ (List.mem_cons_of_mem _ List.mem_cons_self), rfl, rfl,
        rfl, rfl, rfl, ?_⟩
      rw [hname]

end

/-- One peer id and one address. -/
def rendezvousLibp2p : Libp2p where
  isPeerId text := text = hostPeerId.text
  parseMultiaddr text := if text = hostAddr then some [.ip4 false false, .tcp] else none
  allowLoopback := false

def rendezvousHost : List (RoomEvent rendezvousLibp2p) :=
  [.assignLocalPeerId hostPeerId.text,
    .swarm (.newListenAddr ⟨hostAddr, [.ip4 false false, .tcp], rfl⟩),
    .createRoom " lab" (freshInviteCode 0xc0ffee00deadbeef) 3600000]

def newcomer : Daemon silentCodec := .start (DaemonStatus.fresh foreignPeer)

/-- A newcomer looks for the room by the code it was told. -/
theorem published_records_found_newcomer :
    ∃ (host : RoomDaemon) (record : CompactInviteV1) (key : String),
      (key, record) ∈ host.status.currentRendezvousRecords rendezvousLibp2p ∧
      record.peerId = hostPeerId.text ∧ record.roomName = some "lab" ∧
      record.inviteCode = some "c0ffee00" ∧
      (newcomer.dialPeer rendezvousLibp2p " c0ffee00\n" 0 true).2 = [.getRecord key] ∧
      decodeRendezvousRecord serdeJson (serdeJson.toVec record) = some record.trimmed := by
  have hids : Base58Ids rendezvousLibp2p := by
    intro text hid
    obtain rfl := of_decide_eq_true hid
    exact ⟨hostPeerId.ne_empty, List.all_eq_true.mp (by decide +kernel)⟩
  have hlib : SlashLed rendezvousLibp2p := by
    intro text components hparse
    obtain ⟨rfl, _⟩ := Option.ite_none_right_eq_some.mp hparse
    exact .inr ⟨_, rfl⟩
  have h : (execute (RoomDaemon.step serdeJson) (RoomDaemon.start "host") rendezvousHost).map
      (fun r => (r.2.status.localPeerId, r.2.status.listedAddrs, r.2.status.shownRoomInvite.map
        fun shown => (shown.1, shown.2.inviteCode))) =
      some (hostPeerId.text, [hostAddr], some ("lab", "c0ffee00")) := by
    decide +kernel
  obtain ⟨⟨tr, host⟩, hrun, hhost⟩ := Option.map_eq_some_iff.mp h
  simp only [Prod.mk.injEq] at hhost
  obtain ⟨hid, haddrs, hshown⟩ := hhost
  obtain ⟨⟨roomName, invite⟩, hinvite, heq⟩ := Option.map_eq_some_iff.mp hshown
  obtain ⟨rfl, hcode⟩ := Prod.mk.inj heq
  have hdraws : ∀ x ∈ tr, DrawsFresh x := by
    intro x hx inviteCode hdrawn
    have hinput : x.input ∈ rendezvousHost := by
      rw [← execute_inputs hrun]
      exact List.mem_map_of_mem hx
    simp only [rendezvousHost, List.mem_cons, List.not_mem_nil, or_false] at hinput
    rcases hinput with hinput | hinput | hinput
    all_goals rw [hinput] at hdrawn
    · cases hdrawn
    · cases hdrawn
    · exact ⟨_, (Option.some.inj hdrawn).symm⟩
  obtain ⟨haccepted, _, _, hroom⟩ := published_records_found hids hlib (execute_trace hrun) hdraws
    (by rw [hid]; exact decide_eq_true (rfl : hostPeerId.text = hostPeerId.text))
    ⟨hostAddr, by rw [haddrs]; exact List.mem_singleton_self _, by rw [hid]; decide +kernel⟩
  have hlookup : newcomer.LooksUpRoom rendezvousLibp2p " c0ffee00\n" := by
    unfold Daemon.LooksUpRoom Daemon.LooksUp
    decide +kernel
  obtain ⟨key, record, hmem, _, hpeer, hname, hrecord, _, hdial⟩ := hroom "lab" invite hinvite newcomer
    " c0ffee00\n" 0 true (.inl (by rw [hcode]; decide +kernel)) hlookup
  refine ⟨host, record, key, hmem, ?_, hname, ?_, hdial, (haccepted key record hmem).1⟩
  · rw [hpeer, hid]
  · rw [hrecord, hcode]

end Voicers
