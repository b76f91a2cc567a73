import Voicers.Ui.ClientMove

/-! What is selected and what is expanded on the screens of the client stays
within what its status lists, over whole runs. -/

namespace Voicers

open Lib

/-- With a status each screen has an entry of its list selected, the first
index of an empty one; an expanded room is one of the status. -/
structure UiApp.InRange (app : UiApp) : Prop where
  selected : app.status ≠ none → ∀ screen, app.selected screen ≤ app.listLength screen - 1
  expanded : ∀ status, app.status = some status →
    ∀ roomName ∈ app.expandedMainRooms, roomName ∈ status.rooms.map RoomSummary.name

/-- The entry that a key of a screen is about. -/
structure UiApp.ShowsSelection (app : UiApp) : Prop where
  entry : app.status ≠ none → ∀ screen, app.listLength screen ≠ 0 →
    app.selected screen < app.listLength screen
  first : app.status ≠ none → ∀ screen, app.listLength screen = 0 → app.selected screen = 0
  expanded : ∀ status, app.status = some status →
    ∀ roomName ∈ app.expandedMainRooms, roomName ∈ status.rooms.map RoomSummary.name
  leavesHelp : app.previousScreen ≠ .help

/-- What the user has typed and where, which fetching a status leaves alone. -/
structure Desk where
  controlAddr : String
  daemonBin : String
  inputMode : InputMode
  dialInput : String
  roomInput : String
  renameInput : String
  screen : Screen
  previousScreen : Screen

namespace UiApp

def desk (app : UiApp) : Desk where
  controlAddr := app.controlAddr
  daemonBin := app.daemonBin
  inputMode := app.inputMode
  dialInput := app.dialInput
  roomInput := app.roomInput
  renameInput := app.renameInput
  screen := app.screen
  previousScreen := app.previousScreen

variable {app app' : UiApp} {screen other : Screen} {status : ClientStatus}

theorem SameView.listLength (h : app.SameView app') (screen : Screen) :
    app'.listLength screen = app.listLength screen := by
  cases screen <;>
    simp only [UiApp.listLength, mainItems, voicePeers, rooms, callPeers, configItems, friends, seenUsers,
      discoveredPeers, listed, h.status, h.expandedRooms, h.expandedCalls]

@[simp]
theorem listLength_clampForScreen :
    (app.clampForScreen screen).listLength other = app.listLength other := listLength_setSelected

theorem unselected_clampForScreen : (app.clampForScreen screen).unselected = app.unselected :=
  unselected_setSelected

theorem status_of_unselected (h : app'.unselected = app.unselected) : app'.status = app.status :=
  show app'.unselected.status = app.unselected.status from congrArg _ h

theorem expanded_of_unselected (h : app'.unselected = app.unselected) :
    app'.expandedMainRooms = app.expandedMainRooms :=
  show app'.unselected.expandedMainRooms = app.unselected.expandedMainRooms from congrArg _ h

/-- Clamping one screen brings it into range and takes no other out of it. -/
theorem selected_clampForScreen_le (screen : Screen)
    (h : other = screen ∨ app.selected other ≤ app.listLength other - 1) :
    (app.clampForScreen screen).selected other ≤ app.listLength other - 1 := by
  by_cases hhelp : screen = .help
  · subst hhelp
    rcases h with rfl | h
    · exact Nat.zero_le _
    · exact h
  · rw [clampForScreen, selected_setSelected hhelp]
    split_ifs with hother
    · rw [hother]
      exact clampIndex_le _ _
    · exact h.resolve_left hother

/-- The screens in the order in which a new status clamps them. -/
def clampedScreens : List Screen :=
  [.peers, .config, .main, .rooms, .calls, .knownPeers, .seenUsers, .discoveredPeers]

theorem mem_clampedScreens (h : screen ≠ .help) : screen ∈ clampedScreens := by
  cases screen with
  | help => exact absurd rfl h
  | _ => decide

theorem unselected_foldl_clamp (screens : List Screen) :
    (screens.foldl clampForScreen app).unselected = app.unselected := by
  induction screens generalizing app with
  | nil => rfl
  | cons screen screens ih => rw [List.foldl_cons, ih, unselected_clampForScreen]

theorem selected_foldl_clamp_le (screens : List Screen)
    (h : other ∈ screens ∨ app.selected other ≤ app.listLength other - 1) :
    (screens.foldl clampForScreen app).selected other ≤ app.listLength other - 1 := by
  induction screens generalizing app with
  | nil => exact h.resolve_left List.not_mem_nil
  | cons screen screens ih =>
    have hlength : (app.clampForScreen screen).listLength other = app.listLength other :=
      listLength_clampForScreen
    rw [List.foldl_cons, ← hlength]
    refine ih ?_
    rw [List.mem_cons] at h
    by_cases hlater : other ∈ screens
    · exact .inl hlater
    · rw [listLength_clampForScreen]
      exact .inr (selected_clampForScreen_le screen (h.imp_left fun h => h.resolve_right hlater))

theorem selected_clampedScreens_le (app : UiApp) (screen : Screen) :
    (clampedScreens.foldl clampForScreen app).selected screen ≤
      (clampedScreens.foldl clampForScreen app).listLength screen - 1 := by
  have hlength : (clampedScreens.foldl clampForScreen app).listLength screen =
      app.listLength screen := by
    rw [← listLength_unselected, unselected_foldl_clamp, listLength_unselected]
  by_cases hhelp : screen = .help
  · rw [hhelp]
    exact Nat.zero_le _
  · rw [hlength]
    exact selected_foldl_clamp_le _ (.inl (mem_clampedScreens hhelp))

theorem syncMainExpansions_status : app.syncMainExpansions.status = app.status := by
  unfold syncMainExpansions
  split
  · rfl
  · split_ifs <;> rfl

theorem mem_syncMainExpansions {roomName : String} (hstatus : app.status = some status)
    (h : roomName ∈ app.syncMainExpansions.expandedMainRooms) :
    roomName ∈ status.rooms.map RoomSummary.name := by
  unfold syncMainExpansions at h
  rw [hstatus] at h
  dsimp only at h
  split_ifs at h with hnone
  · obtain ⟨room, hroom, _, hname⟩ := mem_engagedRooms.mp (List.mem_toFinset.mp h)
    exact List.mem_map.mpr ⟨room, hroom, hname⟩
  · exact (Finset.mem_filter.mp h).2

/-- A status that has come is shown with all screens clamped. -/
theorem acceptStatus_clamped (app : UiApp) (status : ClientStatus) :
    ∃ received : UiApp, received.status = some status ∧
      app.acceptStatus status = clampedScreens.foldl clampForScreen received.syncMainExpansions :=
  ⟨{ app with status := some status }, rfl, rfl⟩

theorem InRange.accept (app : UiApp) (status : ClientStatus) :
    (app.acceptStatus status).InRange := by
  obtain ⟨received, hreceived, heq⟩ := acceptStatus_clamped app status
  rw [heq]
  have hrest : (clampedScreens.foldl clampForScreen received.syncMainExpansions).unselected =
      received.syncMainExpansions.unselected := unselected_foldl_clamp clampedScreens
  constructor
  · exact fun _ screen => selected_clampedScreens_le _ screen
  · intro other hstatus roomName hroom
    rw [status_of_unselected hrest, syncMainExpansions_status, hreceived] at hstatus
    cases hstatus
    exact mem_syncMainExpansions hreceived (expanded_of_unselected hrest ▸ hroom)

theorem InRange.shift (h : app.InRange) (hshift : app.Shift app') : app'.InRange := by
  cases hshift with
  | view hview =>
    constructor
    · intro hstatus screen
      rw [hview.status] at hstatus
      rw [hview.listLength, hview.selected]
      exact h.selected hstatus screen
    · intro status hstatus
      rw [hview.expandedRooms]
      exact h.expanded status (hview.status ▸ hstatus)
  | @select screen index hindex =>
    have hrest : (app.setSelected index screen).unselected = app.unselected :=
      unselected_setSelected
    constructor
    · intro hstatus other
      have hold := h.selected (status_of_unselected hrest ▸ hstatus) other
      rw [listLength_setSelected]
      exact (selected_setSelected_le hindex).trans (max_le le_rfl hold)
    · intro status hstatus roomName hroom
      exact h.expanded status (status_of_unselected hrest ▸ hstatus) roomName
        (expanded_of_unselected hrest ▸ hroom)
  | expand rooms calls hrooms =>
    constructor
    · intro hstatus other
      rw [clampMainSelection, listLength_clampForScreen]
      refine selected_clampForScreen_le .main ?_
      by_cases hmain : other = .main
      · exact .inl hmain
      · have hold := h.selected hstatus other
        refine .inr ?_
        cases other with
        | main => exact absurd rfl hmain
        | _ => exact hold
    · intro status hstatus roomName hroom
      rcases hrooms roomName hroom with hold | hlisted
      · exact h.expanded status hstatus roomName hold
      · have hsame : app.status = some status := hstatus
        simpa [listed, hsame] using hlisted

theorem InRange.renewal (h : app.InRange) (hrenewal : app.Renewal app') : app'.InRange := by
  cases hrenewal with
  | flash => exact ⟨h.selected, h.expanded⟩
  | accept status => exact .accept app status
  | lose => exact ⟨fun hstatus => absurd rfl hstatus, nofun⟩
  | attempted => exact ⟨h.selected, h.expanded⟩
  | initialized => exact ⟨h.selected, h.expanded⟩

theorem inRange_kept : Kept InRange where
  renewal _ _ hrenewal h := h.renewal hrenewal
  shift _ _ hshift h := h.shift hshift
  launch _ _ h := ⟨h.selected, h.expanded⟩
  readdress _ _ h := ⟨h.selected, h.expanded⟩

theorem desk_of_unselected (h : app'.unselected = app.unselected) : app'.desk = app.desk :=
  show app'.unselected.desk = app.unselected.desk from congrArg _ h

theorem desk_syncMainExpansions : app.syncMainExpansions.desk = app.desk := by
  unfold syncMainExpansions
  split
  · rfl
  · split_ifs <;> rfl

theorem unselected_acceptStatus (app : UiApp) (status : ClientStatus) :
    (app.acceptStatus status).unselected =
      { app with status := some status }.syncMainExpansions.unselected :=
  unselected_foldl_clamp clampedScreens

theorem desk_acceptStatus (app : UiApp) (status : ClientStatus) :
    (app.acceptStatus status).desk = app.desk :=
  (desk_of_unselected (unselected_acceptStatus app status)).trans desk_syncMainExpansions

theorem Renewal.desk (h : app.Renewal app') : app'.desk = app.desk := by
  cases h with
  | accept status => exact desk_acceptStatus app status
  | _ => rfl

theorem leavesHelp_kept : Kept fun app => app.previousScreen ≠ .help where
  renewal app app' hrenewal h := by
    have hprevious : app'.previousScreen = app.previousScreen :=
      congrArg Desk.previousScreen hrenewal.desk
    exact hprevious ▸ h
  shift app app' hshift h := by
    cases hshift with
    | view hview => exact hview.previous h
    | @select screen index =>
      have hprevious : (app.setSelected index screen).previousScreen = app.previousScreen :=
        congrArg Desk.previousScreen (desk_of_unselected unselected_setSelected)
      exact hprevious ▸ h
    | expand => exact h
  launch _ _ h := h
  readdress _ _ h := h

end UiApp

section

variable {w : World} {t t' : Turn} {config : UiConfig} {now : Nat} {tr : List TuiTransition} {tui : Tui}

theorem Deeds.desk (h : Deeds w false t t') : t'.app.desk = t.app.desk := by
  induction h with
  | refl => rfl
  | tail _ hdeed ih =>
    cases hdeed with
    | renew hrenewal => exact hrenewal.desk.trans ih
    | shift huser => cases huser
    | readdress _ huser => cases huser
    | fetch => exact ih
    | found => exact ih
    | launch => exact ih
    | pipe => exact ih

/-- On every screen the keys are about an entry of the list it shows, and the
help leads back to another screen. -/
theorem shows_selection (h : TuiRun config now tr tui) : tui.app.ShowsSelection := by
  have hrange : tui.app.InRange :=
    UiApp.inRange_kept.run h ⟨fun hstatus => absurd rfl hstatus, nofun⟩
  constructor
  · intro hstatus screen hlength
    have hle := hrange.selected hstatus screen
    omega
  · intro hstatus screen hlength
    have hle := hrange.selected hstatus screen
    omega
  · exact hrange.expanded
  · exact UiApp.leavesHelp_kept.run h nofun

end

/-- A friend of whom nothing but the id is known. -/
def plainFriend (peerId : String) : KnownPeerSummary where
  peerId := peerId
  displayName := peerId
  addresses := []
  lastDialAddr := none
  connected := false
  pinned := true
  seen := true
  whitelisted := false
  trustedContact := false

/-- The status of a daemon with some friends and an engaged room. -/
def friendsStatus (friends : List String) : ClientStatus where
  localPeerId := "me"
  session := { roomName := some "main", displayName := "me", selfMuted := false }
  network :=
    { observedAddrs := [], pathScores := [], savedPeerAddrs := []
      knownPeers := friends.map plainFriend, friends := friends.map plainFriend
      seenUsers := [], discoveredPeers := [], ignoredPeerIds := [] }
  peers := []
  pendingPeerApprovals := []
  rooms := [{ name := "main", engaged := true, roles := [], members := [], currentInvite := none }]
  availableCaptureDevices := []
  inputGainPercent := 100
  directCallInvite := none

/-- A daemon that always answers with one status, and starts when launched. -/
def steadyWorld (status : ClientStatus) : World where
  reply _ _ request :=
    (match request with
      | .getStatus => .ok (.status status)
      | _ => .ok (.answered (.ack "done")), 0)
  spawn _ _ _ := (none, 0)
  pipe _ _ _ _ := (none, 0)

def plainConfig : UiConfig where
  controlAddr := "127.0.0.1:7767"
  daemonBin := "voicersd"

def press (status : ClientStatus) (key : KeyCode) : TuiInput :=
  .event (steadyWorld status) 0 (.key true key)

/-- With the second of two friends selected, one of them is removed. -/
def friendRemoved : List TuiInput :=
  let both := friendsStatus ["ann", "bob"]
  let one := friendsStatus ["ann"]
  [.start (steadyWorld both), .poll (steadyWorld both) 0, press both (.char 'F'),
    press both (.char 'j'), press both (.char '?'), .poll (steadyWorld one) nanosPerSecond]

theorem shows_selection_friendRemoved : ∃ tui : Tui, tui.app.screen = .help ∧
    tui.app.listLength .knownPeers = 1 ∧ tui.app.ShowsSelection := by
  have hrun : (execute Tui.step (Tui.new plainConfig 0) friendRemoved).map
      (fun r => (r.2.app.screen, r.2.app.listLength .knownPeers)) = some (.help, 1) := by
    decide +kernel
  obtain ⟨r, hr, hseen⟩ := Option.map_eq_some_iff.mp hrun
  obtain ⟨hscreen, hlength⟩ := Prod.mk.inj hseen
  exact ⟨r.2, hscreen, hlength, shows_selection (execute_trace hr)⟩

end Voicers
