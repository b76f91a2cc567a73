import Voicers.Network.InviteCurrent

/-! Whether all addresses in the invites on show and in the published records
end with the daemon's own peer id. The address a remote peer has observed is
listed as it was sent, and an address that names some peer anywhere is shared
unchanged. -/

namespace Voicers

open Lib

variable {json : InviteJson} {lib : Libp2p} {self : LocalPeerId} {s t : InviteState}

/-- The addresses a guest finds in the text of an invite. -/
def advertised (json : InviteJson) (lib : Libp2p) (invite : String) : List String :=
  match parseJoinTarget json invite with
  | .invite invite => invite.addrs
  | .raw target => if (lib.parseMultiaddr target).isSome then [target] else []

def OwnAddress (self : LocalPeerId) (address : String) : Prop :=
  ("/p2p/" ++ self.text).toList <:+ address.toList

/-- What the daemon would share for the address is its own. -/
def SafeAddr (lib : Libp2p) (self : LocalPeerId) (address : String) : Prop :=
  (∃ components, lib.parseMultiaddr address = some components ∧
    isShareableMultiaddr lib components = true) →
  textContains address "/p2p/" = true → OwnAddress self address

theorem safeAddr_iff {address : String} :
    SafeAddr lib self address ↔ ∀ shareable, shareableAddress lib address self.text = some shareable →
      OwnAddress self shareable := by
  have hset : ¬ (self.text = "<starting>" ∨ self.text = "") :=
    not_or.mpr ⟨self.ne_starting, self.ne_empty⟩
  simp only [shareableAddress, hset, if_false]
  constructor
  · intro hsafe shareable hshare
    cases hparse : lib.parseMultiaddr address with
    | none => simp [hparse] at hshare
    | some components =>
      simp only [hparse] at hshare
      split_ifs at hshare with hno hp2p
      · obtain rfl := Option.some.inj hshare
        exact hsafe ⟨components, hparse, by simpa using hno⟩ hp2p
      · obtain rfl := Option.some.inj hshare
        simp only [OwnAddress, String.toList_append, List.append_assoc]
        exact List.suffix_append _ _
  · rintro hall ⟨components, hparse, hshare⟩ hp2p
    exact hall address (by simp [hparse, hshare, hp2p])

theorem OwnAddress.trim {address : String} (h : OwnAddress self address) :
    OwnAddress self (trim address) := by
  obtain ⟨front, hfront⟩ := h
  have hself : self.text.toList ≠ [] := by
    intro hnil
    exact self.ne_empty (String.toList_inj.mp hnil)
  have hback : ("/p2p/" ++ self.text).toList = '/' :: ("p2p/".toList ++ self.text.toList) := by
    rw [String.toList_append]
    rfl
  unfold OwnAddress
  rw [toList_trim, ← hfront]
  apply suffix_rdropWhile_dropWhile
  · rw [hback]
    exact List.cons_ne_nil _ _
  · rw [hback]
    intro c hc
    obtain rfl := Option.some.inj hc
    decide
  · rw [String.toList_append, List.getLast?_append_of_ne_nil _ hself]
    exact last_of_trimmed self.trimmed

theorem mem_trimAddrs {addrs : List String} {a : String} (h : a ∈ trimAddrs addrs) :
    ∃ b ∈ addrs, a = Voicers.trim b := by
  obtain ⟨b, hb, rfl⟩ := List.mem_map.mp (List.mem_filter.mp h).1
  exact ⟨b, hb, rfl⟩

theorem advertised_encodeInvite {payload : CompactInviteV1} {a : String}
    (h : a ∈ advertised json lib (encodeInvite json payload)) :
    ∃ b ∈ payload.addrs, a = Voicers.trim b := by
  simp only [advertised, parseJoinTarget_encodeInvite] at h
  exact mem_trimAddrs h

namespace InviteState

structure ShownOwn (json : InviteJson) (lib : Libp2p) (localId : LocalPeerId) (s : InviteState) :
    Prop where
  direct : ∀ invite, s.directCallInvite = some invite →
    ∀ a ∈ advertised json lib invite, OwnAddress localId a
  room : ∀ shown, s.shownRoomInvite = some shown → ∀ share, shown.2.shareInvite = some share →
    ∀ a ∈ advertised json lib share, OwnAddress localId a

structure OwnInvites (json : InviteJson) (lib : Libp2p) (localId : LocalPeerId) (s : InviteState) :
    Prop extends ShownOwn json lib localId s where
  records : ∀ record ∈ s.currentRendezvousRecords lib, ∀ a ∈ record.2.addrs, OwnAddress localId a

/-- A step may list an address that is not the daemon's own only while the
identity is unknown; it must be gone when the identity is assigned. -/
def keepsOwn (json : InviteJson) (lib : Libp2p) (self : LocalPeerId) (s : InviteState) :
    InviteEvent lib → Prop
  | .assignLocalPeerId => ∀ a ∈ s.listedAddrs, SafeAddr lib self a
  | .adoptRoomInvite roomName =>
    ∀ room, roomNamed s.rooms (normalizeRoomName roomName) = some room →
      ∀ invite, room.currentInvite = some invite → ∀ share, invite.shareInvite = some share →
        ∀ a ∈ advertised json lib share, OwnAddress self a
  | event => s.localPeerId = "<starting>" ∨ ∀ a, addedAddr event = some a → SafeAddr lib self a

theorem eq_of_mem_ite {α : Type} {p : Prop} [Decidable p] {a b : α}
    (h : a ∈ if p then [b] else []) : a = b := by
  split_ifs at h
  · exact List.mem_singleton.mp h
  · cases h

theorem mem_currentRendezvousRecords {record : String × CompactInviteV1}
    (h : record ∈ s.currentRendezvousRecords lib) :
    ∃ direct, s.currentDirectCallInvite lib = some direct ∧ record.2.addrs = direct.addrs := by
  unfold currentRendezvousRecords at h
  cases hdirect : s.currentDirectCallInvite lib with
  | none => simp [hdirect] at h
  | some direct =>
    refine ⟨direct, rfl, ?_⟩
    rw [hdirect] at h
    cases hshown : s.shownRoomInvite with
    | none =>
      simp only [hshown, List.mem_singleton] at h
      rw [h]
    | some shown =>
      simp only [hshown, List.mem_append, List.mem_singleton] at h
      rcases h with (h | h) | h
      · rw [h]
      · rw [eq_of_mem_ite h]
      · rw [eq_of_mem_ite h]

theorem direct_mem_currentRendezvousRecords {direct : CompactInviteV1}
    (h : s.currentDirectCallInvite lib = some direct) :
    (Daemon.rendezvousRecordKey direct.peerId, direct) ∈ s.currentRendezvousRecords lib := by
  unfold currentRendezvousRecords
  rw [h]
  cases s.shownRoomInvite with
  | none => exact List.mem_singleton_self _
  | some shown => simp

/-- All shareable addresses are published, so the records are the daemon's
own exactly when every listed address is safe. -/
theorem records_own_iff (hid : s.localPeerId = self.text) :
    (∀ record ∈ s.currentRendezvousRecords lib, ∀ a ∈ record.2.addrs, OwnAddress self a) ↔
      ∀ a ∈ s.listedAddrs, SafeAddr lib self a := by
  have hset : ¬ (self.text = "<starting>" ∨ self.text = "") :=
    not_or.mpr ⟨self.ne_starting, self.ne_empty⟩
  have hdirect : ∀ direct, s.currentDirectCallInvite lib = some direct → ∀ a, a ∈ direct.addrs ↔
      ∃ b ∈ s.listedAddrs, shareableAddress lib b self.text = some a := by
    intro direct h a
    simp only [currentDirectCallInvite, hid, hset, if_false] at h
    split_ifs at h
    obtain rfl := Option.some.inj h
    simp [mem_foldl_pushUnique, List.mem_filterMap]
  constructor
  · intro hrecords b hb
    rw [safeAddr_iff]
    intro shareable hshare
    cases h : s.currentDirectCallInvite lib with
    | none =>
      have hmem : shareable ∈ (s.listedAddrs.filterMap fun address =>
          shareableAddress lib address self.text).foldl pushUnique [] := by
        rw [mem_foldl_pushUnique, List.mem_filterMap]
        exact .inr ⟨b, hb, hshare⟩
      simp only [currentDirectCallInvite, hid, hset, if_false] at h
      split_ifs at h with hnil
      rw [hnil] at hmem
      cases hmem
    | some direct =>
      exact hrecords _ (direct_mem_currentRendezvousRecords h) shareable
        ((hdirect direct h shareable).mpr ⟨b, hb, hshare⟩)
  · intro hsafe record hrecord a ha
    obtain ⟨direct, h, haddrs⟩ := mem_currentRendezvousRecords hrecord
    rw [haddrs] at ha
    obtain ⟨b, hb, hshare⟩ := (hdirect direct h a).mp ha
    exact safeAddr_iff.mp (hsafe b hb) a hshare

theorem currentRendezvousRecords_starting (h : s.localPeerId = "<starting>") :
    s.currentRendezvousRecords lib = [] := by
  have hnone : s.currentDirectCallInvite lib = none := if_pos (.inl h)
  simp only [currentRendezvousRecords, hnone]

theorem advertised_best {invite : String} {a : String}
    (h : s.bestDirectCallInvite lib json = some invite ∨
      ∃ roomName roomInvite, s.bestRoomInvite lib json roomName roomInvite = some invite)
    (ha : a ∈ advertised json lib invite) :
    ∃ b ∈ s.listedAddrs, ∃ shareable, shareableAddress lib b s.localPeerId = some shareable ∧
      a = Voicers.trim (Voicers.trim shareable) := by
  have hencoded : ∃ payload, invite = encodeInvite json payload ∧
      payload.addrs = trimAddrs (s.inviteAddrs lib) := by
    rcases h with h | ⟨roomName, roomInvite, h⟩
    · simp only [bestDirectCallInvite] at h
      split_ifs at h
      obtain rfl := Option.some.inj h
      exact ⟨_, rfl, rfl⟩
    · simp only [bestRoomInvite] at h
      split_ifs at h
      obtain rfl := Option.some.inj h
      exact ⟨_, rfl, rfl⟩
  obtain ⟨payload, rfl, haddrs⟩ := hencoded
  obtain ⟨c, hc, rfl⟩ := advertised_encodeInvite ha
  rw [haddrs] at hc
  obtain ⟨shareable, hshareable, rfl⟩ := mem_trimAddrs hc
  obtain ⟨b, hb, hshare⟩ := mem_inviteAddrs hshareable
  exact ⟨b, hb, shareable, hshare, rfl⟩

/-- The peer id is unknown or the daemon's own. -/
def Identified (self : LocalPeerId) (s : InviteState) : Prop :=
  s.localPeerId = "<starting>" ∨ s.localPeerId = self.text

def SafeAddrs (lib : Libp2p) (self : LocalPeerId) (s : InviteState) : Prop :=
  s.localPeerId = "<starting>" ∨ ∀ a ∈ s.listedAddrs, SafeAddr lib self a

theorem best_own (hid : s.Identified self) (hsafe : s.SafeAddrs lib self) {invite : String}
    (h : s.bestDirectCallInvite lib json = some invite ∨
      ∃ roomName roomInvite, s.bestRoomInvite lib json roomName roomInvite = some invite) :
    ∀ a ∈ advertised json lib invite, OwnAddress self a := by
  intro a ha
  obtain ⟨b, hb, shareable, hshare, rfl⟩ := advertised_best h ha
  have hset : s.localPeerId ≠ "<starting>" := by
    intro hstart
    rw [hstart, shareableAddress_starting] at hshare
    cases hshare
  rw [hid.resolve_left hset] at hshare
  exact (safeAddr_iff.mp (hsafe.resolve_left hset b hb) shareable hshare).trim.trim

theorem shownRoomInvite_update_or {shown : String × RoomInviteSummary}
    (h : (s.updateShareInvite lib json).shownRoomInvite = some shown) :
    s.shownRoomInvite = some shown ∨
      ∃ roomName invite, shown.2.shareInvite = s.bestRoomInvite lib json roomName invite := by
  cases hshown : s.shownRoomInvite with
  | none =>
    have hsame : (s.updateShareInvite lib json).rooms = s.rooms := by
      simp only [updateShareInvite, hshown]
    rw [shownRoomInvite, hsame, ← shownRoomInvite, hshown] at h
    cases h
  | some old =>
    have hrooms : (s.updateShareInvite lib json).rooms = updateFirst (fun room => room.name = old.1)
        (setShareInvite (s.bestRoomInvite lib json old.1 old.2)) s.rooms := by
      simp only [updateShareInvite, hshown]
    rw [shownRoomInvite, hrooms] at h
    rcases find?_updateFirst_or (p := fun room : RoomSummary => decide (room.name = old.1))
        (f := setShareInvite (s.bestRoomInvite lib json old.1 old.2)) (l := s.rooms)
        (fun room _ => (setShareInvite_frame _ room).2) with hsame | ⟨room, _, _, hnew⟩
    · have hengaged : engagedRoom (updateFirst (fun room => room.name = old.1)
          (setShareInvite (s.bestRoomInvite lib json old.1 old.2)) s.rooms) = engagedRoom s.rooms :=
        hsame
      rw [hengaged, ← shownRoomInvite, hshown] at h
      exact .inl h
    · have hengaged : engagedRoom (updateFirst (fun room => room.name = old.1)
          (setShareInvite (s.bestRoomInvite lib json old.1 old.2)) s.rooms) =
          some (setShareInvite (s.bestRoomInvite lib json old.1 old.2) room) := hnew
      rw [hengaged, Option.bind_some, setShareInvite, Option.map_map, Option.map_eq_some_iff] at h
      obtain ⟨invite, _, rfl⟩ := h
      exact .inr ⟨old.1, old.2, rfl⟩

theorem ShownOwn.update (h : s.ShownOwn json lib self) (hid : s.Identified self)
    (hsafe : s.SafeAddrs lib self) : (s.updateShareInvite lib json).ShownOwn json lib self where
  direct invite hinvite := by
    rcases Option.or_eq_some_iff.mp hinvite with hbest | ⟨_, hold⟩
    · exact best_own hid hsafe (.inl hbest)
    · exact h.direct invite (Option.filter_eq_some_iff.mp hold).1
  room shown hshown share hshare := by
    rcases shownRoomInvite_update_or hshown with hold | ⟨roomName, invite, hnew⟩
    · exact h.room shown hold share hshare
    · exact best_own hid hsafe (.inr ⟨roomName, invite, hnew.symm.trans hshare⟩)

/-- Nothing is published before the identity is known, and everything that
is shareable afterwards. -/
theorem ownInvites_iff (hid : s.Identified self) :
    s.OwnInvites json lib self ↔ s.ShownOwn json lib self ∧ s.SafeAddrs lib self := by
  by_cases hset : s.localPeerId = "<starting>"
  · have hrecords : s.currentRendezvousRecords lib = [] := currentRendezvousRecords_starting hset
    constructor
    · exact fun h => ⟨h.toShownOwn, .inl hset⟩
    · rintro ⟨hshown, _⟩
      exact ⟨hshown, by simp [hrecords]⟩
  · have hrecords : (∀ record ∈ s.currentRendezvousRecords lib, ∀ a ∈ record.2.addrs,
        OwnAddress self a) ↔ ∀ a ∈ s.listedAddrs, SafeAddr lib self a :=
      records_own_iff (hid.resolve_left hset)
    constructor
    · exact fun h => ⟨h.toShownOwn, .inr (hrecords.mp h.records)⟩
    · rintro ⟨hshown, hsafe⟩
      exact ⟨hshown, hrecords.mpr (hsafe.resolve_left hset)⟩

theorem safeAddrs_handleAddress {e : InviteEvent lib} (h : s.SafeAddrs lib self) :
    (s.handleAddress e).SafeAddrs lib self ↔
      (s.localPeerId = "<starting>" ∨ ∀ a, addedAddr e = some a → SafeAddr lib self a) := by
  have hid := (s.handleAddress_frame e).1
  unfold SafeAddrs
  rw [hid]
  constructor
  · rintro (hstart | hall)
    · exact .inl hstart
    · exact .inr fun a ha => hall a (added_mem_handleAddress ha)
  · rintro (hstart | hall)
    · exact .inl hstart
    · rcases h with hstart | hold
      · exact .inl hstart
      · refine .inr fun a ha => ?_
        rcases mem_handleAddress ha with hmem | hadded
        · exact hold a hmem
        · exact hall a hadded

theorem keepsOwn_iff {e : InviteEvent lib}
    (he : e ≠ .assignLocalPeerId ∧ ∀ roomName, e ≠ .adoptRoomInvite roomName) :
    s.keepsOwn json lib self e ↔
      (s.localPeerId = "<starting>" ∨ ∀ a, addedAddr e = some a → SafeAddr lib self a) := by
  cases e with
  | assignLocalPeerId => exact absurd rfl he.1
  | adoptRoomInvite roomName => exact absurd rfl (he.2 roomName)
  | _ => exact Iff.rfl

theorem ShownOwn.congr (h : s.ShownOwn json lib self)
    (hdirect : t.directCallInvite = s.directCallInvite)
    (hshown : t.shownRoomInvite = s.shownRoomInvite) : t.ShownOwn json lib self where
  direct invite hinvite := h.direct invite (hdirect.symm.trans hinvite)
  room shown hs := h.room shown (hshown.symm.trans hs)

theorem updateShareInvite_frame (lib : Libp2p) (json : InviteJson) (s : InviteState) :
    (s.updateShareInvite lib json).localPeerId = s.localPeerId ∧
      (s.updateShareInvite lib json).listedAddrs = s.listedAddrs := ⟨rfl, rfl⟩

theorem SafeAddrs.congr (h : s.SafeAddrs lib self) (hid : t.localPeerId = s.localPeerId)
    (hlisted : t.listedAddrs = s.listedAddrs) : t.SafeAddrs lib self := by
  unfold SafeAddrs
  rw [hid, hlisted]
  exact h

theorem Identified.congr (h : s.Identified self) (hid : t.localPeerId = s.localPeerId) :
    t.Identified self := by
  unfold Identified
  rw [hid]
  exact h

theorem SafeAddrs.update (h : s.SafeAddrs lib self) :
    (s.updateShareInvite lib json).SafeAddrs lib self := by
  obtain ⟨hid, hlisted⟩ := updateShareInvite_frame lib json s
  exact h.congr hid hlisted

theorem ShownOwn.create (h : s.ShownOwn json lib self) (roomName inviteCode : String)
    (expiresAtMs : Nat) : (s.createRoom roomName inviteCode expiresAtMs).ShownOwn json lib self where
  direct := h.direct
  room shown hshown share hshare := by
    rw [shareInvite_create hshown] at hshare
    cases hshare

theorem ShownOwn.setInvite (h : s.ShownOwn json lib self) (roomName inviteCode : String)
    (expiresAtMs : Nat) :
    ShownOwn json lib self { s with
      rooms := setRoomInvite s.rooms roomName s.localPeerId inviteCode (some expiresAtMs) } where
  direct := h.direct
  room shown hshown share hshare := by
    obtain ⟨room, hroom, hname, hinvite⟩ := engaged_of_shownRoomInvite hshown
    rcases find?_updateFirst_or (p := fun room : RoomSummary => decide (room.name = roomName))
        (l := s.rooms) (q := fun room => room.engaged)
        (fun room _ => (withInvite_frame _ room).2) with hsame | ⟨old, _, _, hnew⟩
    · have hshown' := shownRoomInvite_of_engaged (s := s) (hsame.symm.trans hroom)
      rw [hinvite, Option.map_some] at hshown'
      exact h.room _ hshown' share hshare
    · obtain rfl := Option.some.inj (hroom.symm.trans hnew)
      rw [← Option.some.inj hinvite] at hshare
      cases hshare

theorem ShownOwn.adopt_iff (h : s.ShownOwn json lib self) (roomName : String) :
    (s.adoptRoomInvite roomName).ShownOwn json lib self ↔
      s.keepsOwn json lib self (.adoptRoomInvite roomName) := by
  have hshown := s.shownRoomInvite_adopt roomName
  constructor
  · intro hadopt room hroom invite hinvite
    rw [hroom, Option.bind_some, hinvite, Option.map_some] at hshown
    exact hadopt.room _ hshown
  · intro hkeep
    refine ⟨h.direct, fun shown hs => ?_⟩
    rw [hshown] at hs
    obtain ⟨invite, hinvite, rfl⟩ := Option.map_eq_some_iff.mp hs
    obtain ⟨room, hroom, hfound⟩ := Option.bind_eq_some_iff.mp hinvite
    exact hkeep room hroom invite hfound

theorem Identified.move {e : InviteEvent lib} (h : s.Identified self)
    (hm : InviteMove json lib self s e t) : t.Identified self := by
  cases hm with
  | expired address => exact h
  | unshareable address hshare => exact h
  | address e he =>
    exact h.congr (s.handleAddress_frame e).1
  | assign hstart => exact .inr rfl
  | create roomName inviteCode expiresAtMs hset => exact h.congr rfl
  | adopt roomName hset => exact h.congr rfl
  | rename displayName hset =>
    exact h.congr (s.setDisplayName_frame displayName).1
  | rotate inviteCode expiresAtMs hset =>
    rcases rotateInviteCode_cases lib json s inviteCode expiresAtMs with hsame | ⟨roomName, hupdate⟩
    · rw [hsame]
      exact h
    · rw [hupdate]
      exact h.congr rfl

theorem OwnInvites.move {e : InviteEvent lib} (hid : s.Identified self)
    (h : s.OwnInvites json lib self) (hm : InviteMove json lib self s e t) :
    t.OwnInvites json lib self ↔ s.keepsOwn json lib self e := by
  have hid' := hid.move hm
  obtain ⟨hshown, hsafe⟩ := (ownInvites_iff hid).mp h
  rw [ownInvites_iff hid']
  have hall : t.ShownOwn json lib self → t.SafeAddrs lib self → s.keepsOwn json lib self e →
      (t.ShownOwn json lib self ∧ t.SafeAddrs lib self ↔ s.keepsOwn json lib self e) :=
    fun ha hb hkeep => ⟨fun _ => hkeep, fun _ => ⟨ha, hb⟩⟩
  have hnone : e ≠ .assignLocalPeerId ∧ (∀ roomName, e ≠ .adoptRoomInvite roomName) →
      addedAddr e = none → s.keepsOwn json lib self e := by
    intro he hadded
    rw [keepsOwn_iff he, hadded]
    exact .inr fun a ha => by cases ha
  cases hm with
  | expired address => exact hall hshown hsafe (hnone (by simp) rfl)
  | unshareable address hshare =>
    refine hall hshown hsafe ((keepsOwn_iff (by simp)).mpr (.inr fun a ha => ?_))
    obtain rfl := Option.some.inj ha
    rintro ⟨components, hparse, hyes⟩
    obtain rfl := Option.some.inj (hparse.symm.trans address.parsed)
    exact absurd hyes (by simp [hshare])
  | address e he =>
    obtain ⟨_, hrooms, hdirect⟩ := s.handleAddress_frame e
    have hkept : (s.handleAddress e).ShownOwn json lib self :=
      hshown.congr hdirect (by rw [shownRoomInvite, hrooms, ← shownRoomInvite])
    rw [keepsOwn_iff he, ← safeAddrs_handleAddress hsafe]
    constructor
    · rintro ⟨_, hnew⟩
      exact hnew.congr rfl rfl
    · intro hnew
      exact ⟨hkept.update (hid.congr (s.handleAddress_frame e).1) hnew, hnew.update⟩
  | assign hstart =>
    have hkept : (s.assignLocalPeerId self.text).ShownOwn json lib self :=
      hshown.congr rfl (shownRoomInvite_sync rfl)
    constructor
    · rintro ⟨_, hnew⟩
      exact hnew.resolve_left self.ne_starting
    · exact fun hkeep => ⟨hkept, .inr hkeep⟩
  | create roomName inviteCode expiresAtMs hset =>
    have hcreated := hshown.create roomName inviteCode expiresAtMs
    have hsafe' : (s.createRoom roomName inviteCode expiresAtMs).SafeAddrs lib self :=
      hsafe.congr rfl rfl
    exact hall (hcreated.update (hid.congr rfl) hsafe') hsafe'.update (hnone (by simp) rfl)
  | adopt roomName hset =>
    have hsafe' : (s.adoptRoomInvite roomName).SafeAddrs lib self := hsafe.congr rfl rfl
    have hadopt := hshown.adopt_iff roomName
    constructor
    · rintro ⟨hown, _⟩
      exact hadopt.mp hown
    · intro hkeep
      exact ⟨hadopt.mpr hkeep, hsafe'⟩
  | rename displayName hset =>
    have hframe := s.setDisplayName_frame displayName
    exact hall (hshown.congr hframe.2.2.1 hframe.2.2.2) (hsafe.congr hframe.1 hframe.2.1) (hnone (by simp) rfl)
  | rotate inviteCode expiresAtMs hset =>
    rcases rotateInviteCode_cases lib json s inviteCode expiresAtMs with hsame | ⟨roomName, hupdate⟩
    · rw [hsame] at hall ⊢
      exact hall hshown hsafe (hnone (by simp) rfl)
    · rw [hupdate] at hall ⊢
      have hset' := hshown.setInvite roomName inviteCode expiresAtMs
      have hsafe' : SafeAddrs lib self { s with
          rooms := setRoomInvite s.rooms roomName s.localPeerId inviteCode (some expiresAtMs) } :=
        hsafe.congr rfl rfl
      exact hall (hset'.update (hid.congr rfl) hsafe') hsafe'.update (hnone (by simp) rfl)

end InviteState

/-- All invites and records of a run advertise only the daemon itself exactly
when the state file showed nothing else, every address that is listed under
the daemon's identity names no other peer, and every room that is entered has
an invite of the daemon's own. -/
theorem own_invites_iff {file : StateFile} {displayName : String}
    {events : List (InviteEvent lib)} {tr : List (InviteTransition lib)}
    (h : inviteRun json lib self file displayName events = some (tr, s)) :
    ((InviteState.load file displayName).OwnInvites json lib self ∧
      ∀ x ∈ tr, x.before.OwnInvites json lib self ∧ x.after.OwnInvites json lib self) ↔
    ((InviteState.load file displayName).ShownOwn json lib self ∧
      ∀ x ∈ tr, x.before.keepsOwn json lib self x.input) := by
  have hid : (InviteState.load file displayName).Identified self := .inl rfl
  have hrun := fun hown : (InviteState.load file displayName).OwnInvites json lib self =>
    (execute_trace h).invariant_iff (I := fun s => s.Identified self ∧ s.OwnInvites json lib self)
      (C := fun x => x.before.keepsOwn json lib self x.input)
      (fun x hstep hx => by
        have hm := InviteMove.of_step hstep
        have hiff := hx.2.move hx.1 hm
        exact ⟨fun ha => hiff.mp ha.2, fun hc => ⟨hx.1.move hm, hiff.mpr hc⟩⟩)
      ⟨hid, hown⟩
  have hidentified : ∀ x ∈ tr, x.before.Identified self ∧ x.after.Identified self := by
    intro x hx
    obtain ⟨hbefore, hstep⟩ := (execute_trace h).of_mem (I := InviteState.Identified self)
      (fun _ _ _ _ hs hstep => hs.move (InviteMove.of_step hstep)) hid hx
    exact ⟨hbefore, hbefore.move (InviteMove.of_step hstep)⟩
  constructor
  · rintro ⟨hown, hall⟩
    refine ⟨hown.toShownOwn, (hrun hown).mp fun x hx => ?_⟩
    exact ⟨⟨(hidentified x hx).1, (hall x hx).1⟩, (hidentified x hx).2, (hall x hx).2⟩
  · rintro ⟨hshown, hkeep⟩
    have hown : (InviteState.load file displayName).OwnInvites json lib self :=
      (InviteState.ownInvites_iff hid).mpr ⟨hshown, .inl rfl⟩
    exact ⟨hown, fun x hx => ⟨((hrun hown).mpr hkeep x hx).1.2, ((hrun hown).mpr hkeep x hx).2.2⟩⟩

/-- A remote peer reports an address of its own as the one it observed. -/
def foreignIdentify : List (InviteEvent hostLibp2p) :=
  [.assignLocalPeerId, .identifyReceived foreignMultiaddr]

theorem foreignIdentify_published :
    ∃ tr s, inviteRun serdeJson hostLibp2p hostPeerId .default "" foreignIdentify = some (tr, s) ∧
      ¬ s.OwnInvites serdeJson hostLibp2p hostPeerId := by
  have h : (inviteRun serdeJson hostLibp2p hostPeerId .default "" foreignIdentify).map (fun r =>
      (r.2.currentRendezvousRecords hostLibp2p).map fun record => record.2.addrs) =
      some [[foreignAddr]] := by decide +kernel
  obtain ⟨⟨tr, s⟩, hrun, hs⟩ := Option.map_eq_some_iff.mp h
  refine ⟨tr, s, hrun, fun hown => ?_⟩
  have hmem : [foreignAddr] ∈ (s.currentRendezvousRecords hostLibp2p).map fun record =>
      record.2.addrs := by
    rw [hs]
    exact List.mem_singleton_self _
  obtain ⟨record, hrecord, haddrs⟩ := List.mem_map.mp hmem
  have hforeign := hown.records record hrecord foreignAddr (by simp [haddrs])
  have hno : ¬ ("/p2p/" ++ hostPeerId.text).toList <:+ foreignAddr.toList := by decide +kernel
  exact hno hforeign

theorem own_invites_iff_ownIdentify :
    ∃ tr s, inviteRun serdeJson hostLibp2p hostPeerId .default ""
      [.newListenAddr hostMultiaddr, .assignLocalPeerId, .identifyReceived hostMultiaddr] =
        some (tr, s) ∧
      (((InviteState.load .default "").OwnInvites serdeJson hostLibp2p hostPeerId ∧ ∀ x ∈ tr,
          x.before.OwnInvites serdeJson hostLibp2p hostPeerId ∧
          x.after.OwnInvites serdeJson hostLibp2p hostPeerId) ↔
        ((InviteState.load .default "").ShownOwn serdeJson hostLibp2p hostPeerId ∧
          ∀ x ∈ tr, x.before.keepsOwn serdeJson hostLibp2p hostPeerId x.input)) := by
  have h : (inviteRun serdeJson hostLibp2p hostPeerId .default ""
      [.newListenAddr hostMultiaddr, .assignLocalPeerId, .identifyReceived hostMultiaddr]).isSome =
        true := by decide +kernel
  obtain ⟨⟨tr, s⟩, hrun⟩ := Option.isSome_iff_exists.mp h
  exact ⟨tr, s, hrun, own_invites_iff hrun⟩

end Voicers
