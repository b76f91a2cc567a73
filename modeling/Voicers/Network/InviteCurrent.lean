import Voicers.Network.Invite

/-! Whether the invites on show are those the daemon would make now. They are
refreshed by every address event, but neither by the assignment of the peer
id nor by entering a room through an invite. -/

namespace Voicers

open Lib

variable {json : InviteJson} {lib : Libp2p} {self : LocalPeerId} {s t : InviteState}

/-- The text of a multiaddr begins with a slash, unless it has no component. -/
def SlashLed (lib : Libp2p) : Prop :=
  ∀ text components, lib.parseMultiaddr text = some components →
    text = "" ∨ ∃ rest, text.toList = '/' :: rest

namespace InviteState

structure Fresh (json : InviteJson) (lib : Libp2p) (s : InviteState) : Prop where
  direct : s.directCallInvite = s.bestDirectCallInvite lib json
  room : ∀ shown, s.shownRoomInvite = some shown →
    shown.2.shareInvite = s.bestRoomInvite lib json shown.1 shown.2

def Current (json : InviteJson) (lib : Libp2p) (s : InviteState) : Prop :=
  s.localPeerId ≠ "<starting>" → s.Fresh json lib

/-- The steps that refresh no invite need one that is right as it stands. -/
def keepsCurrent (json : InviteJson) (lib : Libp2p) (self : LocalPeerId) (s : InviteState) :
    InviteEvent lib → Prop
  | .assignLocalPeerId =>
    (∀ a ∈ s.listedAddrs, shareableAddress lib a self.text = none) ∧ s.directCallInvite = none ∧
      ∀ shown, s.shownRoomInvite = some shown → shown.2.shareInvite = none
  | .adoptRoomInvite roomName =>
    ∀ room, roomNamed s.rooms (normalizeRoomName roomName) = some room →
      ∀ invite, room.currentInvite = some invite →
        invite.shareInvite = s.bestRoomInvite lib json room.name invite
  | _ => True

/-- What is true in every run: nothing is on show before the identity is
known once an address has been listed. -/
structure Settled (s : InviteState) : Prop where
  lead : Lead s.rooms
  starting : s.localPeerId = "<starting>" → s.listedAddrs = [] ∨
    (s.directCallInvite = none ∧ ∀ shown, s.shownRoomInvite = some shown →
      shown.2.shareInvite = none)

theorem bestDirectCallInvite_eq_none :
    s.bestDirectCallInvite lib json = none ↔ s.inviteAddrs lib = [] := by
  simp [bestDirectCallInvite]

theorem bestRoomInvite_of_nil {roomName : String} {invite : RoomInviteSummary}
    (h : s.inviteAddrs lib = []) : s.bestRoomInvite lib json roomName invite = none := by
  simp [bestRoomInvite, h]

theorem shareableAddress_encodeInvite (hlib : SlashLed lib) (payload : CompactInviteV1)
    (localPeerId : String) : shareableAddress lib (encodeInvite json payload) localPeerId = none := by
  have hstart : ∃ rest, (encodeInvite json payload).toList = 'v' :: rest :=
    ⟨_, by rw [encodeInvite, String.toList_append]; rfl⟩
  obtain ⟨rest, hrest⟩ := hstart
  have hparse : lib.parseMultiaddr (encodeInvite json payload) = none := by
    cases h : lib.parseMultiaddr (encodeInvite json payload) with
    | none => rfl
    | some components =>
      rcases hlib _ _ h with hempty | ⟨tail, htail⟩
      · rw [hempty] at hrest
        cases hrest
      · rw [hrest] at htail
        cases htail
  simp [shareableAddress, hparse]

/-- The invite kept for want of a better one is never one of the daemon's. -/
theorem updateShareInvite_direct (hlib : SlashLed lib)
    (h : s.localPeerId = "<starting>" ∨ s.directCallInvite = none ∨
      ∃ payload, s.directCallInvite = some (encodeInvite json payload)) :
    (s.updateShareInvite lib json).directCallInvite = s.bestDirectCallInvite lib json := by
  have hdrop : (s.directCallInvite.filter fun invite =>
      invite ≠ "" && (shareableAddress lib invite s.localPeerId).isSome) = none := by
    rcases h with h | h | ⟨payload, h⟩
    · rw [h]
      simp [shareableAddress_starting]
    · rw [h]
      rfl
    · rw [h, Option.filter_some, shareableAddress_encodeInvite hlib]
      simp
  simp only [updateShareInvite]
  rw [hdrop, Option.or_none]

theorem updateShareInvite_fresh (hlib : SlashLed lib) (hlead : Lead s.rooms)
    (h : s.localPeerId = "<starting>" ∨ s.directCallInvite = none ∨
      ∃ payload, s.directCallInvite = some (encodeInvite json payload)) :
    (s.updateShareInvite lib json).Fresh json lib where
  direct := updateShareInvite_direct hlib h
  room shown hshown := by
    rw [shownRoomInvite_update hlead] at hshown
    obtain ⟨old, _, rfl⟩ := Option.map_eq_some_iff.mp hshown
    rfl

theorem Fresh.encoded (h : s.Fresh json lib) :
    s.directCallInvite = none ∨ ∃ payload, s.directCallInvite = some (encodeInvite json payload) := by
  rw [h.direct, bestDirectCallInvite]
  split_ifs
  · exact .inl rfl
  · exact .inr ⟨_, rfl⟩

theorem Current.encoded (h : s.Current json lib) :
    s.localPeerId = "<starting>" ∨ s.directCallInvite = none ∨
      ∃ payload, s.directCallInvite = some (encodeInvite json payload) := by
  by_cases hset : s.localPeerId = "<starting>"
  · exact .inl hset
  · exact .inr (h hset).encoded

theorem Settled.assign_current (h : s.Settled) (hstart : s.localPeerId = "<starting>") :
    (s.assignLocalPeerId self.text).Current json lib ↔
      s.keepsCurrent json lib self .assignLocalPeerId := by
  have hshown : (s.assignLocalPeerId self.text).shownRoomInvite = s.shownRoomInvite :=
    shownRoomInvite_sync rfl
  have hnil : (s.assignLocalPeerId self.text).inviteAddrs lib = [] ↔
      ∀ a ∈ s.listedAddrs, shareableAddress lib a self.text = none := inviteAddrs_eq_nil
  constructor
  · intro hcurrent
    obtain ⟨hdirect, hroom⟩ := hcurrent self.ne_starting
    rcases h.starting hstart with hlisted | ⟨hnone, hshare⟩
    · have haddrs := hnil.mpr (by simp [hlisted])
      refine ⟨hnil.mp haddrs, ?_, fun shown hs => ?_⟩
      · exact hdirect.trans (bestDirectCallInvite_eq_none.mpr haddrs)
      · exact (hroom shown (hshown.trans hs)).trans (bestRoomInvite_of_nil haddrs)
    · have haddrs := bestDirectCallInvite_eq_none.mp (hdirect.symm.trans hnone)
      exact ⟨hnil.mp haddrs, hnone, hshare⟩
  · rintro ⟨haddrs, hnone, hshare⟩ _
    refine ⟨?_, fun shown hs => ?_⟩
    · exact hnone.trans (bestDirectCallInvite_eq_none.mpr (hnil.mpr haddrs)).symm
    · exact (hshare shown (hshown.symm.trans hs)).trans (bestRoomInvite_of_nil (hnil.mpr haddrs)).symm

theorem best_congr (json : InviteJson) (hid : t.localPeerId = s.localPeerId)
    (haddrs : t.inviteAddrs lib = s.inviteAddrs lib) :
    t.bestDirectCallInvite lib json = s.bestDirectCallInvite lib json ∧
      ∀ roomName invite, t.bestRoomInvite lib json roomName invite =
        s.bestRoomInvite lib json roomName invite := by
  simp only [bestDirectCallInvite, bestRoomInvite, hid, haddrs, true_and, implies_true]

theorem Fresh.adopt_fresh (h : s.Fresh json lib) (self : LocalPeerId) (roomName : String) :
    (s.adoptRoomInvite roomName).Fresh json lib ↔
      s.keepsCurrent json lib self (.adoptRoomInvite roomName) := by
  have hshown := s.shownRoomInvite_adopt roomName
  have hbest : (s.adoptRoomInvite roomName).bestDirectCallInvite lib json =
      s.bestDirectCallInvite lib json ∧ ∀ name invite,
      (s.adoptRoomInvite roomName).bestRoomInvite lib json name invite =
        s.bestRoomInvite lib json name invite := best_congr json rfl rfl
  constructor
  · intro hfresh room hroom invite hinvite
    rw [hroom, Option.bind_some, hinvite, Option.map_some] at hshown
    have hshare := hfresh.room _ hshown
    simp only [hbest.2] at hshare
    rw [name_of_roomNamed hroom]
    exact hshare
  · intro hkeep
    refine ⟨h.direct.trans hbest.1.symm, fun shown hs => ?_⟩
    rw [hshown] at hs
    obtain ⟨invite, hinvite, rfl⟩ := Option.map_eq_some_iff.mp hs
    obtain ⟨room, hroom, hfound⟩ := Option.bind_eq_some_iff.mp hinvite
    have hshare := hkeep room hroom invite hfound
    rw [name_of_roomNamed hroom] at hshare
    simp only [hbest.2]
    exact hshare

theorem assign_lead (h : Lead s.rooms) (localPeerId : String) :
    Lead (s.assignLocalPeerId localPeerId).rooms := by
  obtain ⟨f, hf, hframe⟩ := syncLocalRoomMemberships_eq_map s.rooms localPeerId s.displayName
  simp only [assignLocalPeerId, hf]
  exact h.map (fun room => (hframe room).1) fun room => (hframe room).2.1

theorem setDisplayName_rooms (s : InviteState) (displayName : String) :
    s.setDisplayName displayName = s ∨
      (s.setDisplayName displayName).rooms =
        syncLocalRoomMemberships s.rooms s.localPeerId (trim displayName) := by
  unfold setDisplayName
  split_ifs
  · exact .inl rfl
  · exact .inr rfl

theorem setDisplayName_frame (s : InviteState) (displayName : String) :
    (s.setDisplayName displayName).localPeerId = s.localPeerId ∧
      (s.setDisplayName displayName).listedAddrs = s.listedAddrs ∧
      (s.setDisplayName displayName).directCallInvite = s.directCallInvite ∧
      (s.setDisplayName displayName).shownRoomInvite = s.shownRoomInvite := by
  unfold setDisplayName
  split_ifs
  · exact ⟨rfl, rfl, rfl, rfl⟩
  · exact ⟨rfl, rfl, rfl, shownRoomInvite_sync rfl⟩

theorem setDisplayName_inviteAddrs (lib : Libp2p) (s : InviteState) (displayName : String) :
    (s.setDisplayName displayName).inviteAddrs lib = s.inviteAddrs lib := by
  unfold setDisplayName
  split_ifs
  · rfl
  · rfl

theorem Fresh.setDisplayName (h : s.Fresh json lib) (displayName : String) :
    (s.setDisplayName displayName).Fresh json lib := by
  obtain ⟨hid, _, hdirect, hshown⟩ := s.setDisplayName_frame displayName
  have hbest := best_congr json hid (s.setDisplayName_inviteAddrs lib displayName)
  refine ⟨?_, fun shown hs => ?_⟩
  · rw [hdirect, hbest.1]
    exact h.direct
  · rw [hbest.2]
    exact h.room shown (hshown.symm.trans hs)

theorem rotateInviteCode_cases (lib : Libp2p) (json : InviteJson) (s : InviteState)
    (inviteCode : String) (expiresAtMs : Nat) :
    s.rotateInviteCode lib json inviteCode expiresAtMs = s ∨
      ∃ roomName, s.rotateInviteCode lib json inviteCode expiresAtMs =
        updateShareInvite lib json { s with
          rooms := setRoomInvite s.rooms roomName s.localPeerId inviteCode (some expiresAtMs) } := by
  unfold rotateInviteCode
  cases s.customRoom with
  | none => exact .inl rfl
  | some roomName =>
    dsimp only
    split_ifs
    · exact .inr ⟨roomName, rfl⟩
    · exact .inl rfl

theorem setRoomInvite_lead {rooms : List RoomSummary} (h : Lead rooms)
    (roomName localPeerId inviteCode : String) (expiresAtMs : Option Nat) :
    Lead (setRoomInvite rooms roomName localPeerId inviteCode expiresAtMs) :=
  h.updateFirst (fun room => (withInvite_frame _ room).1) fun room => (withInvite_frame _ room).2

theorem Settled.load {file : StateFile} (h : Lead file.rooms) (displayName : String) :
    (InviteState.load file displayName).Settled where
  lead := h
  starting _ := .inl rfl

theorem Settled.move {e : InviteEvent lib} (h : s.Settled) (hm : InviteMove json lib self s e t) :
    t.Settled := by
  cases hm with
  | expired address => exact h
  | unshareable address hshare => exact h
  | address e he =>
    obtain ⟨hid, hrooms, _⟩ := s.handleAddress_frame e
    have hlead : Lead (s.handleAddress e).rooms := hrooms ▸ h.lead
    refine ⟨Lead.update hlead, fun hstart => .inr ⟨?_, fun shown hshown => ?_⟩⟩
    · have hnil : (s.handleAddress e).inviteAddrs lib = [] := inviteAddrs_starting hstart
      simp only [updateShareInvite, bestDirectCallInvite_eq_none.mpr hnil, Option.none_or]
      rw [Option.filter_eq_none_iff]
      intro invite _
      have hid' : (s.handleAddress e).localPeerId = "<starting>" := hstart
      simp [hid', shareableAddress_starting]
    · rw [shownRoomInvite_update hlead] at hshown
      obtain ⟨old, _, rfl⟩ := Option.map_eq_some_iff.mp hshown
      exact bestRoomInvite_of_nil (inviteAddrs_starting hstart)
  | assign hstart => exact ⟨assign_lead h.lead self.text, fun hset => absurd hset self.ne_starting⟩
  | create roomName inviteCode expiresAtMs hset =>
    exact ⟨Lead.update (s.createRoom_engagedAs roomName inviteCode expiresAtMs).lead,
      fun hstart => absurd hstart hset⟩
  | adopt roomName hset =>
    exact ⟨createOrUpdateRoom_engagedAs.lead, fun hstart => absurd hstart hset⟩
  | rename displayName hset =>
    have hid := (s.setDisplayName_frame displayName).1
    refine ⟨?_, fun hstart => absurd (hid.symm.trans hstart) hset⟩
    rcases s.setDisplayName_rooms displayName with hsame | hsync
    · rw [hsame]
      exact h.lead
    · obtain ⟨f, hf, hframe⟩ := syncLocalRoomMemberships_eq_map s.rooms s.localPeerId
        (trim displayName)
      rw [hsync, hf]
      exact h.lead.map (fun room => (hframe room).1) fun room => (hframe room).2.1
  | rotate inviteCode expiresAtMs hset =>
    rcases rotateInviteCode_cases lib json s inviteCode expiresAtMs with
      hsame | ⟨roomName, hupdate⟩
    · rw [hsame]
      exact h
    · rw [hupdate]
      exact ⟨Lead.update (setRoomInvite_lead h.lead _ _ _ _), fun hstart => absurd hstart hset⟩

theorem keepsCurrent_of {e : InviteEvent lib}
    (he : e ≠ .assignLocalPeerId ∧ ∀ roomName, e ≠ .adoptRoomInvite roomName) :
    s.keepsCurrent json lib self e := by
  cases e with
  | assignLocalPeerId => exact absurd rfl he.1
  | adoptRoomInvite roomName => exact absurd rfl (he.2 roomName)
  | _ => trivial

theorem Current.move {e : InviteEvent lib} (hlib : SlashLed lib) (hs : s.Settled)
    (h : s.Current json lib) (hm : InviteMove json lib self s e t) :
    t.Current json lib ↔ s.keepsCurrent json lib self e := by
  have hall : t.Current json lib → s.keepsCurrent json lib self e →
      (t.Current json lib ↔ s.keepsCurrent json lib self e) :=
    fun hcurrent hkeep => ⟨fun _ => hkeep, fun _ => hcurrent⟩
  cases hm with
  | expired address => exact hall h trivial
  | unshareable address hshare => exact hall h trivial
  | address e he =>
    obtain ⟨hid, hrooms, hdirect⟩ := s.handleAddress_frame e
    have hlead : Lead (s.handleAddress e).rooms := hrooms ▸ hs.lead
    refine hall (fun _ => updateShareInvite_fresh hlib hlead ?_) (keepsCurrent_of he)
    rw [hid, hdirect]
    exact h.encoded
  | assign hstart => exact hs.assign_current hstart
  | create roomName inviteCode expiresAtMs hset =>
    refine hall (fun _ => updateShareInvite_fresh hlib ?_ h.encoded) trivial
    exact (s.createRoom_engagedAs roomName inviteCode expiresAtMs).lead
  | adopt roomName hset =>
    have hadopt := (h hset).adopt_fresh self roomName
    exact ⟨fun hcurrent => hadopt.mp (hcurrent hset), fun hkeep _ => hadopt.mpr hkeep⟩
  | rename displayName hset =>
    exact hall (fun _ => (h hset).setDisplayName displayName) trivial
  | rotate inviteCode expiresAtMs hset =>
    refine hall (fun _ => ?_) trivial
    rcases rotateInviteCode_cases lib json s inviteCode expiresAtMs with
      hsame | ⟨roomName, hupdate⟩
    · rw [hsame]
      exact h hset
    · rw [hupdate]
      exact updateShareInvite_fresh hlib (setRoomInvite_lead hs.lead _ _ _ _) h.encoded

end InviteState

/-- In a run in which the state file has no other room of the engaged room's
name before it, the invites on show are current in every state exactly when
the peer id is assigned while there is nothing to show, and only rooms are
entered whose invite is current. -/
theorem invites_current_iff (hlib : SlashLed lib) {file : StateFile} (hlead : Lead file.rooms)
    {displayName : String} {events : List (InviteEvent lib)} {tr : List (InviteTransition lib)}
    (h : inviteRun json lib self file displayName events = some (tr, s)) :
    (∀ x ∈ tr, x.before.Current json lib ∧ x.after.Current json lib) ↔
      ∀ x ∈ tr, x.before.keepsCurrent json lib self x.input := by
  have htrace := execute_trace h
  have hsettled : ∀ x ∈ tr, x.before.Settled ∧ x.after.Settled := by
    intro x hx
    obtain ⟨hbefore, hstep⟩ := htrace.of_mem (I := InviteState.Settled)
      (fun _ _ _ _ hs hstep => hs.move (InviteMove.of_step hstep))
      (InviteState.Settled.load hlead displayName) hx
    exact ⟨hbefore, hbefore.move (InviteMove.of_step hstep)⟩
  have hrun := htrace.invariant_iff (I := fun s => s.Settled ∧ s.Current json lib)
    (C := fun x => x.before.keepsCurrent json lib self x.input)
    (fun x hstep hx => by
      have hm := InviteMove.of_step hstep
      have hiff := hx.2.move hlib hx.1 hm
      exact ⟨fun ha => hiff.mp ha.2, fun hc => ⟨hx.1.move hm, hiff.mpr hc⟩⟩)
    ⟨InviteState.Settled.load hlead displayName, fun hset => absurd rfl hset⟩
  rw [← hrun]
  constructor
  · intro hall x hx
    exact ⟨⟨(hsettled x hx).1, (hall x hx).1⟩, (hsettled x hx).2, (hall x hx).2⟩
  · intro hall x hx
    exact ⟨(hall x hx).1.2, (hall x hx).2.2⟩

/-- The swarm listens before the start has written the peer id. -/
theorem earlyListenAddr_not_shown :
    ∃ tr s, inviteRun serdeJson hostLibp2p hostPeerId .default ""
      [.newListenAddr hostMultiaddr, .assignLocalPeerId] = some (tr, s) ∧
      ¬ s.Current serdeJson hostLibp2p := by
  have h : (inviteRun serdeJson hostLibp2p hostPeerId .default ""
      [.newListenAddr hostMultiaddr, .assignLocalPeerId]).map (fun r =>
        (decide (r.2.localPeerId = "<starting>"), r.2.directCallInvite,
          (r.2.inviteAddrs hostLibp2p).isEmpty)) = some (false, none, false) := by decide +kernel
  obtain ⟨⟨tr, s⟩, hrun, hs⟩ := Option.map_eq_some_iff.mp h
  obtain ⟨hset, hs⟩ := Prod.mk.inj hs
  obtain ⟨hnone, haddrs⟩ := Prod.mk.inj hs
  refine ⟨tr, s, hrun, fun hcurrent => ?_⟩
  have hdirect := (hcurrent (of_decide_eq_false hset)).direct
  have hnil := InviteState.bestDirectCallInvite_eq_none.mp (hdirect.symm.trans hnone)
  simp only [hnil] at haddrs
  cases haddrs

theorem slashLed_hostLibp2p : SlashLed hostLibp2p := by
  intro text components h
  simp only [hostLibp2p] at h
  split_ifs at h with hhost hforeign
  · exact .inr ⟨_, by rw [hhost]; rfl⟩
  · exact .inr ⟨_, by rw [hforeign]; rfl⟩

theorem invites_current_iff_createdRoom :
    ∃ tr s, inviteRun serdeJson hostLibp2p hostPeerId .default ""
      [.assignLocalPeerId, .newListenAddr hostMultiaddr, .createRoom "room" "1a2b3c4d" 5] =
        some (tr, s) ∧
      ((∀ x ∈ tr, x.before.Current serdeJson hostLibp2p ∧ x.after.Current serdeJson hostLibp2p) ↔
        ∀ x ∈ tr, x.before.keepsCurrent serdeJson hostLibp2p hostPeerId x.input) := by
  have h : (inviteRun serdeJson hostLibp2p hostPeerId .default ""
      [.assignLocalPeerId, .newListenAddr hostMultiaddr,
        .createRoom "room" "1a2b3c4d" 5]).isSome = true := by decide +kernel
  obtain ⟨⟨tr, s⟩, hrun⟩ := Option.isSome_iff_exists.mp h
  have hlead : Lead StateFile.default.rooms := by
    simp [Lead, engagedRoom, StateFile.default]
  exact ⟨tr, s, hrun, invites_current_iff slashLed_hostLibp2p hlead hrun⟩

end Voicers
