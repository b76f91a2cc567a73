import Mathlib.Logic.Relation
import Voicers.Ui.Keys

/-! What a turn of the client consists of. Every turn is a few deeds after at
most one request of the user, and what each deed keeps is kept by the run. -/

namespace Voicers

open Lib Relation

/-- The daemon, the entries that are shown and selected, the launches and the
first room are as before, and so is that the help can be left. -/
structure UiApp.SameView (app app' : UiApp) : Prop where
  controlAddr : app'.controlAddr = app.controlAddr
  status : app'.status = app.status
  selected : app'.selected = app.selected
  expandedRooms : app'.expandedMainRooms = app.expandedMainRooms
  expandedCalls : app'.expandedMainCalls = app.expandedMainCalls
  launch : app'.daemonLaunch = app.daemonLaunch
  initialized : app'.defaultRoomInitialized = app.defaultRoomInitialized
  previous : app.previousScreen ≠ .help → app'.previousScreen ≠ .help

/-- What the user changes of the client with a key. -/
inductive UiApp.Shift : UiApp → UiApp → Prop
  | view {app app' : UiApp} : app.SameView app' → Shift app app'
  | select {app : UiApp} {screen : Screen} {index : Nat} :
      index ≤ max (app.listLength screen - 1) (app.selected screen) →
      Shift app (app.setSelected index screen)
  | expand {app : UiApp} (rooms : Finset String) (calls : Bool) :
      (∀ roomName ∈ rooms, roomName ∈ app.expandedMainRooms ∨
        roomName ∈ (app.listed fun status => status.rooms).map RoomSummary.name) →
      Shift app
        { app with expandedMainRooms := rooms, expandedMainCalls := calls }.clampMainSelection

/-- What fetching the status changes of the client. -/
inductive UiApp.Renewal : UiApp → UiApp → Prop
  | flash (app : UiApp) (flash : String) (flashUntil : Option Nat) :
      Renewal app { app with flash := flash, flashUntil := flashUntil }
  | accept (app : UiApp) (status : ClientStatus) : Renewal app (app.acceptStatus status)
  | lose (app : UiApp) : Renewal app app.withoutStatus
  | attempted (app : UiApp) : Renewal app app.launchAttempted
  | initialized (app : UiApp) : Renewal app app.roomInitialized

/-- A deed of a turn; some only the user brings about. -/
inductive Deed (w : World) (user : Bool) : Turn → Turn → Prop
  | renew {t : Turn} {f : UiApp → UiApp} : t.app.Renewal (f t.app) → Deed w user t (t.edit f)
  | fetch (t : Turn) : Deed w user t (t.sendRequestTo w .getStatus).2
  | found {t : Turn} : t.app.defaultRoomInitialized = false →
      Deed w user t
        ((t.edit UiApp.roomInitialized).sendRequestTo w (.createRoom defaultRoomName)).2
  | launch {t : Turn} : t.launchRefused true = false → Deed w user t (t.attemptLaunch w true).2
  | shift {t : Turn} {f : UiApp → UiApp} : user = true → t.app.Shift (f t.app) →
      Deed w user t (t.edit f)
  | readdress {t : Turn} (controlAddr : String) : user = true → t.asked = [] →
      Deed w user t (t.edit fun app => { app with controlAddr := controlAddr })
  | pipe {t : Turn} (program : String) (args : List String) (value : String) : user = true →
      Deed w user t (t.writeToCommandStdin w program args value).2

abbrev Deeds (w : World) (user : Bool) : Turn → Turn → Prop := ReflTransGen (Deed w user)

/-- With what a turn of the user begins. -/
inductive UserAct
  | none
  | ask (request : ClientRequest)
  | launch

def Turn.act (w : World) (t : Turn) : UserAct → Turn
  | .none => t
  | .ask request => (t.sendRequestTo w request).2
  | .launch => (t.launchDaemon w false).2

namespace UiApp

variable (app : UiApp)

/-- The screen that the keys go to: no dialog is open over it. -/
def Shows (screen : Screen) : Prop := app.inputMode = .normal ∧ app.screen = screen

/-- The peer is the selected entry of the screen, as are the others below. -/
def SelectsPeer (peerId : String) : Prop :=
  (app.Shows .peers ∧ app.selectedPeerId = some peerId) ∨
    app.Shows .calls ∧ app.selectedCallPeer.map PeerSummary.peerId = some peerId

def SelectsFriend (peer : KnownPeerSummary) : Prop :=
  app.Shows .knownPeers ∧ app.selectedKnownPeer? = some peer

def SelectsSeenUser (peer : KnownPeerSummary) : Prop :=
  app.Shows .seenUsers ∧ app.selectedSeenUser? = some peer

def SelectsDiscoveredPeer (peer : KnownPeerSummary) : Prop :=
  app.Shows .discoveredPeers ∧ app.selectedDiscoveredPeer? = some peer

def SelectsSetting (item : ConfigItem) : Prop :=
  app.Shows .config ∧ app.configItems[app.selectedConfigItem]? = some item

/-- A request about peers is about the one selected, or the first that waits. -/
def OffersPeer : ControlRequest → Prop
  | .toggleMutePeer peerId => app.SelectsPeer peerId
  | .setDisplayName displayName =>
    app.inputMode = .renameSelf ∧ displayName = trim app.renameInput
  | .setPeerVolumePercent peerId percent =>
    app.SelectsSetting (.peerVolume peerId) ∧ percent.toNat ≤ 200
  | .saveKnownPeer peerId =>
    app.SelectsPeer peerId ∨ ∃ peer, app.SelectsSeenUser peer ∧ peer.peerId = peerId
  | .renameKnownPeer peerId displayName =>
    app.inputMode = .renameKnownPeer ∧ displayName = trim app.renameInput ∧
      app.selectedKnownPeer?.map KnownPeerSummary.peerId = some peerId
  | .forgetKnownPeer peerId => ∃ peer, app.SelectsFriend peer ∧ peer.peerId = peerId
  | .approvePendingPeer peerId _ | .rejectPendingPeer peerId =>
    app.Shows .rooms ∧ app.firstPending.map PendingPeerApprovalSummary.peerId = some peerId
  | .rotateInviteCode => app.Shows .rooms
  | .markTrustedContact peerId =>
    ∃ peer, app.SelectsFriend peer ∧ peer.peerId = peerId ∧ peer.trustedContact = false
  | .unmarkTrustedContact peerId =>
    ∃ peer, app.SelectsFriend peer ∧ peer.peerId = peerId ∧ peer.trustedContact = true

/-- What the user may ask in a state: what the selected entry of the screen
shown is for, or what has been typed. -/
def Offers : ClientRequest → Prop
  | .getStatus => False
  | .toggleMuteSelf => app.Shows .rooms
  | .createRoom roomName =>
    (app.inputMode = .room ∧ roomName = trim app.roomInput) ∨
      app.Shows .rooms ∧ app.rooms[app.selectedRoom]?.map KnownRoomPreview.name = some roomName
  | .joinPeer address =>
    (app.inputMode = .dial ∧ address = trim app.dialInput) ∨
      ∃ peer, (app.SelectsFriend peer ∨ app.SelectsSeenUser peer ∨ app.SelectsDiscoveredPeer peer) ∧
        peer.peerId = address ∧ (bestKnownPeerAddress peer).isSome
  | .setInputGainPercent percent => app.SelectsSetting .inputGain ∧ percent.toNat ≤ 200
  | .selectCaptureDevice deviceName => app.SelectsSetting (.captureDevice deviceName)
  | .peers request => app.OffersPeer request

/-- Whether Enter asks for a room. -/
def entersRoom : Bool :=
  app.inputMode = .room ||
    (app.inputMode = .normal && app.screen = .rooms && app.rooms[app.selectedRoom]?.isSome)

end UiApp

def ClientRequest.creates : ClientRequest → Bool
  | .createRoom _ => true
  | _ => false

def UserAct.Offered (app : UiApp) (key : KeyCode) : UserAct → Prop
  | .none => True
  | .ask request => app.Offers request ∧ (request.creates = true → key = .enter)
  | .launch => key = .char 's' ∧ app.inputMode = .normal

/-- A turn of the user: one act, and some deeds. -/
def UserTurn (w : World) (key : KeyCode) (t t' : Turn) : Prop :=
  ∃ act : UserAct, act.Offered t.app key ∧ Deeds w true (t.act w act) t'

namespace UiApp

/-- The client but for what is selected. -/
def unselected (app : UiApp) : UiApp :=
  { app with
    selectedPeer := 0
    selectedMainItem := 0
    selectedConfigItem := 0
    selectedKnownPeer := 0
    selectedSeenUser := 0
    selectedDiscoveredPeer := 0
    selectedRoom := 0
    selectedCall := 0 }

variable {app app' : UiApp} {index : Nat} {screen other : Screen}

theorem unselected_setSelected : (app.setSelected index screen).unselected = app.unselected := by
  cases screen <;> rfl

theorem listLength_unselected : app.unselected.listLength screen = app.listLength screen := by
  cases screen <;> rfl

@[simp]
theorem listLength_setSelected :
    (app.setSelected index screen).listLength other = app.listLength other := by
  rw [← listLength_unselected, unselected_setSelected, listLength_unselected]

theorem selected_setSelected (hhelp : screen ≠ .help) :
    (app.setSelected index screen).selected other =
      if other = screen then index else app.selected other := by
  cases screen with
  | help => exact absurd rfl hhelp
  | _ => cases other <;> rfl

theorem selected_setSelected_le (h : index ≤ max (app.listLength screen - 1) (app.selected screen)) :
    (app.setSelected index screen).selected other ≤
      max (app.listLength other - 1) (app.selected other) := by
  by_cases hhelp : screen = .help
  · rw [hhelp]
    exact le_max_right _ _
  · rw [selected_setSelected hhelp]
    split_ifs with hother
    · rw [hother]
      exact h
    · exact le_max_right _ _

theorem clampIndex_le (len index : Nat) : clampIndex len index ≤ len - 1 := by
  unfold clampIndex
  split_ifs <;> omega

theorem Shift.clamp (app : UiApp) (screen : Screen) : app.Shift (app.clampForScreen screen) :=
  .select ((clampIndex_le _ _).trans (le_max_left _ _))

theorem Shift.next (app : UiApp) (screen : Screen) :
    ReflTransGen Shift app (app.selectNext screen) := by
  unfold selectNext
  split_ifs with hlist
  · exact .single (.select ((Nat.min_le_right _ _).trans (le_max_left _ _)))
  · exact .refl

theorem Shift.previous (app : UiApp) (screen : Screen) :
    ReflTransGen Shift app (app.selectPrevious screen) := by
  unfold selectPrevious
  split_ifs with hfirst
  · exact .single (.select ((Nat.sub_le _ _).trans (le_max_right _ _)))
  · exact .refl

theorem SameView.setFlash (h : app.SameView app') (now : Nat) (message : String) :
    app.SameView (app'.setFlash now message) :=
  ⟨h.controlAddr, h.status, h.selected, h.expandedRooms, h.expandedCalls, h.launch, h.initialized,
    h.previous⟩

/-- What only concerns the texts, the dialogs and the screen. -/
theorem SameView.refl (app : UiApp) : app.SameView app := ⟨rfl, rfl, rfl, rfl, rfl, rfl, rfl, id⟩

theorem SameView.goes (h : app.SameView app') (screen : Screen) (now : Nat) (message : String) :
    ReflTransGen Shift app ((app'.clampForScreen screen).setFlash now message) :=
  (ReflTransGen.single (.view h)).tail (.clamp app' screen) |>.tail
    (.view ((SameView.refl _).setFlash now message))

theorem openScreen_shifts (now : Nat) : ReflTransGen Shift app (app.openScreen now screen) :=
  (⟨rfl, rfl, rfl, rfl, rfl, rfl, rfl, id⟩ :
    app.SameView { app with screen := screen }).goes screen now _

theorem navigateToScreen_shifts (now : Nat) (hscreen : screen ≠ .help) :
    ReflTransGen Shift app (app.navigateToScreen now screen) := by
  unfold navigateToScreen
  by_cases hsame : app.screen = screen
  · rw [if_pos hsame]
    exact .single (.view ((SameView.refl app).setFlash _ _))
  · rw [if_neg hsame]
    have hprevious : (if app.screen = .help then screen else app.screen) ≠ .help := by
      split_ifs with hhelp
      · exact hscreen
      · exact hhelp
    have hgo : app.SameView
        { app with
          previousScreen := if app.screen = .help then screen else app.screen
          screen := screen } := ⟨rfl, rfl, rfl, rfl, rfl, rfl, rfl, fun _ => hprevious⟩
    exact hgo.goes screen now _

theorem tabScreens_getD_ne_help (index : Nat) : tabScreens.getD index .main ≠ .help := by
  intro h
  rw [List.getD_eq_getElem?_getD] at h
  cases hscreen : tabScreens[index]? with
  | none => simp [hscreen] at h
  | some screen =>
    rw [hscreen, Option.getD_some] at h
    exact absurd (h ▸ List.mem_of_getElem? hscreen) (by decide)

theorem cycleTab_shifts (now : Nat) (forward : Bool) :
    ReflTransGen Shift app (app.cycleTab now forward) :=
  navigateToScreen_shifts now (tabScreens_getD_ne_help _)

theorem roomGroup_mem {status : FullStatus} {rooms : Finset String} {calls : Bool}
    {roomName : String} {engagedUsers : Nat}
    (h : .roomGroup roomName engagedUsers ∈ mainActivityItems status rooms calls) :
    roomName ∈ status.rooms.map RoomSummary.name := by
  have hengaged : roomName ∈ engagedRooms status := by
    simp only [mainActivityItems, List.mem_append, List.mem_flatMap, List.mem_cons,
      MainActivityItem.roomGroup.injEq, reduceCtorEq, false_or] at h
    rcases h with ⟨engaged, hmem, ⟨rfl, _⟩ | hpeer⟩ | hcall
    · exact hmem
    · split_ifs at hpeer
      · simp at hpeer
      · cases hpeer
    · split_ifs at hcall
      · simp at hcall
      · cases hcall
  obtain ⟨room, hroom, _, hname⟩ := mem_engagedRooms.mp hengaged
  exact List.mem_map.mpr ⟨room, hroom, hname⟩

theorem toggleRoom_shift {roomName : String}
    (hroom : roomName ∈ (app.listed fun status => status.rooms).map RoomSummary.name) :
    app.Shift (app.toggleRoom roomName) := by
  refine .expand _ app.expandedMainCalls fun other hother => ?_
  split_ifs at hother with hopen
  · exact .inl (Finset.mem_of_mem_erase hother)
  · rcases Finset.mem_insert.mp hother with rfl | hold
    · exact .inr hroom
    · exact .inl hold

theorem showPeer_shifts {listing : List PeerSummary} {peer : PeerSummary} (now : Nat)
    (hlength : listing.length = app.listLength screen) :
    ReflTransGen Shift app (app.showPeer now screen listing peer) := by
  have hopen : app.Shift { app with screen := screen } :=
    .view ⟨rfl, rfl, rfl, rfl, rfl, rfl, rfl, id⟩
  have hflash (shown : UiApp) (message : String) : shown.Shift (shown.setFlash now message) :=
    .view ((SameView.refl shown).setFlash _ _)
  unfold showPeer
  cases hindex : listing.findIdx? (·.peerId = peer.peerId) with
  | none => exact (ReflTransGen.single hopen).tail (hflash _ _)
  | some index =>
    have hlt : index < listing.length := (List.findIdx?_eq_some_iff_getElem.mp hindex).1
    have hlist : UiApp.listLength { app with screen := screen } screen = listing.length := by
      rw [hlength]
      cases screen <;> rfl
    have hselect : UiApp.Shift { app with screen := screen }
        (UiApp.setSelected { app with screen := screen } index screen) :=
      .select ((Nat.le_sub_one_of_lt (hlist ▸ hlt)).trans (le_max_left _ _))
    exact ((ReflTransGen.single hopen).tail hselect).tail (hflash _ _)

theorem activateSelectedMainItem_shifts (now : Nat) :
    ReflTransGen Shift app (app.activateSelectedMainItem now) := by
  unfold activateSelectedMainItem
  cases hitem : app.mainItems[app.selectedMainItem]? with
  | none => exact .refl
  | some item =>
    have hmem := List.mem_of_getElem? hitem
    cases item with
    | roomGroup roomName engagedUsers =>
      refine .single (toggleRoom_shift ?_)
      unfold mainItems listed at hmem
      unfold listed
      cases hstatus : app.status with
      | none => simp [hstatus] at hmem
      | some status =>
        rw [hstatus] at hmem
        exact roomGroup_mem hmem
    | callsGroup activeCalls =>
      exact .single (.expand app.expandedMainRooms _ fun _ hroom => .inl hroom)
    | roomPeer roomName peer => exact showPeer_shifts now rfl
    | callPeer peer => exact showPeer_shifts now rfl

end UiApp

section

variable {w : World} {user : Bool} {t : Turn} {f : UiApp → UiApp}

theorem Deeds.of_shifts (h : ReflTransGen UiApp.Shift t.app (f t.app)) :
    Deeds w true t (t.edit f) :=
  h.lift (fun app => { t with app := app }) fun _ app' hshift =>
    .shift (f := fun _ => app') rfl hshift

theorem Deeds.of_view (h : t.app.SameView (f t.app)) : Deeds w true t (t.edit f) :=
  .single (.shift rfl (.view h))

/-- Typing may change the address of the daemon, before anything is asked. -/
theorem append_deeds (mode : InputMode) (value : String) (hasked : t.asked = []) :
    Deeds w true t (t.edit fun app => app.appendInputValue mode value) := by
  cases mode with
  | controlAddr => exact .single (.readdress _ rfl hasked)
  | _ => exact .of_view ⟨rfl, rfl, rfl, rfl, rfl, rfl, rfl, id⟩

theorem pop_deeds (mode : InputMode) (hasked : t.asked = []) :
    Deeds w true t (t.edit fun app => app.popInputValue mode) := by
  cases mode with
  | controlAddr => exact .single (.readdress _ rfl hasked)
  | _ => exact .of_view ⟨rfl, rfl, rfl, rfl, rfl, rfl, rfl, id⟩

theorem Deed.setFlash (w : World) (user : Bool) (t : Turn) (message : String) :
    Deed w user t (t.setFlash message) := .renew (.flash _ _ _)

theorem Deed.setFlashPersistent (w : World) (user : Bool) (t : Turn) (message : String) :
    Deed w user t (t.setFlashPersistent message) := .renew (.flash _ _ _)

theorem Deed.accept (w : World) (user : Bool) (t : Turn) (status : ClientStatus) :
    Deed w user t (t.edit fun app => app.acceptStatus status) := .renew (.accept _ _)

theorem launchDaemon_deeds : Deeds w user t (t.launchDaemon w true).2 := by
  unfold Turn.launchDaemon
  cases hrefused : t.launchRefused true with
  | true => exact .refl
  | false =>
    have hlaunch : Deed w user t (t.attemptLaunch w true).2 := .launch hrefused
    simp only [Bool.false_eq_true, if_false]
    cases (t.attemptLaunch w true).1 with
    | some error => exact (ReflTransGen.single hlaunch).tail (.setFlashPersistent _ _ _ _)
    | none => exact .single hlaunch

/-- A launch of the user, when it is not refused, and the message about it. -/
theorem launchDaemon_user (w : World) (t : Turn) :
    (t.launchDaemon w false).2 = t ∨ t.launchRefused false = false ∧
      Deed w false (t.attemptLaunch w false).2 (t.launchDaemon w false).2 := by
  unfold Turn.launchDaemon
  cases t.launchRefused false with
  | true => exact .inl rfl
  | false =>
    refine .inr ⟨rfl, ?_⟩
    simp only [Bool.false_eq_true, if_false]
    cases (t.attemptLaunch w false).1 with
    | some error => exact .setFlashPersistent _ _ _ _
    | none => exact .setFlash _ _ _ _

theorem ensureDefaultRoom_deeds : Deeds w user t (t.ensureDefaultRoom w) := by
  unfold Turn.ensureDefaultRoom
  dsimp only
  cases t.app.status.any fun status => status.session.roomName.isNone with
  | false =>
    rw [Bool.not_false, if_pos rfl]
    exact .single (.renew (.initialized _))
  | true =>
    cases hinitialized : t.app.defaultRoomInitialized with
    | true => exact .refl
    | false =>
      simp only [Bool.not_true, Bool.false_eq_true, if_false]
      have hfound : Deeds w user t _ := .single (.found hinitialized)
      split
      · have hfetched := hfound.tail (.fetch _)
        split
        · exact hfetched.tail (.accept _ _ _ _)
        · exact hfetched
      · exact hfound

theorem refreshStatus_deeds : Deeds w user t (t.refreshStatus w) := by
  have hfetch : Deeds w user t _ := .single (.fetch t)
  unfold Turn.refreshStatus
  dsimp only
  split
  · refine ReflTransGen.trans ?_ ensureDefaultRoom_deeds
    exact (hfetch.tail (.accept _ _ _ _)).tail (.renew (f := UiApp.launchAttempted) (.attempted _))
  · exact hfetch.tail (.setFlash _ _ _ _)
  · have hlaunch := hfetch.tail (.renew (f := UiApp.withoutStatus) (.lose _)) |>.trans
      launchDaemon_deeds
    split
    · exact hlaunch.tail (.setFlashPersistent _ _ _ _)
    · exact hlaunch.tail (.setFlashPersistent _ _ _ _)

theorem perform_deeds (request : ClientRequest) :
    Deeds w user (t.act w (.ask request)) (t.perform w request) :=
  .trans (.single (.setFlash _ _ _ _)) refreshStatus_deeds

theorem submit_deeds (request : ClientRequest) :
    Deeds w true (t.act w (.ask request)) (t.submit w request) :=
  .trans (.tail (.single (.setFlash _ _ _ _))
    (.shift rfl (.view ⟨rfl, rfl, rfl, rfl, rfl, rfl, rfl, id⟩)))
    refreshStatus_deeds

theorem copyToClipboard_deeds (value : String) (commands : List (String × List String))
    (lastError : Option String) (t : Turn) :
    Deeds w true t (Turn.copyToClipboard w value commands lastError t).2 := by
  induction commands generalizing lastError t with
  | nil => exact .refl
  | cons command rest ih =>
    have hpipe : Deeds w true t (t.writeToCommandStdin w command.1 command.2 value).2 :=
      .single (.pipe _ _ _ rfl)
    unfold Turn.copyToClipboard
    dsimp only
    split
    · exact hpipe
    · exact hpipe.trans (ih _ _)

theorem copyInvite_deeds (invite copied : String) : Deeds w true t (t.copyInvite w invite copied) := by
  have hcopy := copyToClipboard_deeds (w := w) invite clipboardCommands none t
  unfold Turn.copyInvite
  dsimp only
  split
  · exact hcopy.tail (.setFlash _ _ _ _)
  · exact hcopy.tail (.setFlash _ _ _ _)

theorem adjustPercent_le (current : Nat) (delta : Int) :
    (UInt8.ofNat (adjustPercent current delta)).toNat ≤ 200 := by
  have hle : adjustPercent current delta ≤ 200 := by
    unfold adjustPercent
    omega
  rw [UInt8.toNat_ofNat']
  omega

theorem adjustedConfig_offers {app : UiApp} (hshows : app.Shows .config) {delta : Int}
    {request : ClientRequest} (h : app.adjustedConfig delta = some request) :
    app.Offers request ∧ request.creates = false := by
  unfold UiApp.adjustedConfig at h
  split at h
  · rename_i hitem
    cases h
    exact ⟨⟨⟨hshows, hitem⟩, adjustPercent_le _ _⟩, rfl⟩
  · rename_i peerId hitem
    cases h
    exact ⟨⟨⟨hshows, hitem⟩, adjustPercent_le _ _⟩, rfl⟩
  · cases h

theorem activatedConfig_offers {app : UiApp} (hshows : app.Shows .config) {request : ClientRequest}
    (h : app.activatedConfig = some request) : app.Offers request ∧ request.creates = false := by
  unfold UiApp.activatedConfig at h
  split at h
  · rename_i deviceName hitem
    cases h
    exact ⟨⟨hshows, hitem⟩, rfl⟩
  · cases h

theorem entersRoom_of_offers {app : UiApp} {roomName : String}
    (h : app.Offers (.createRoom roomName)) : app.entersRoom = true := by
  rcases h with ⟨hmode, -⟩ | ⟨⟨hmode, hscreen⟩, hroom⟩
  · simp [UiApp.entersRoom, hmode]
  · obtain ⟨room, hroom, -⟩ := Option.map_eq_some_iff.mp hroom
    simp [UiApp.entersRoom, hmode, hscreen, hroom]

end

namespace UserTurn

variable {w : World} {key : KeyCode} {t t' : Turn} {request : ClientRequest} {missing : String}

theorem of_deeds (h : Deeds w true t t') : UserTurn w key t t' := ⟨.none, trivial, h⟩

theorem of_view {f : UiApp → UiApp} (h : t.app.SameView (f t.app)) : UserTurn w key t (t.edit f) :=
  .of_deeds (.of_view h)

theorem trans_deeds {t'' : Turn} (h : UserTurn w key t t') (h' : Deeds w true t' t'') :
    UserTurn w key t t'' := by
  obtain ⟨act, hoffered, hdeeds⟩ := h
  exact ⟨act, hoffered, hdeeds.trans h'⟩

theorem perform (hoffers : t.app.Offers request) (hcreates : request.creates = true → key = .enter) :
    UserTurn w key t (t.perform w request) :=
  ⟨.ask request, ⟨hoffers, hcreates⟩, perform_deeds request⟩

theorem submit (hoffers : t.app.Offers request) (hcreates : request.creates = true → key = .enter) :
    UserTurn w key t (t.submit w request) :=
  ⟨.ask request, ⟨hoffers, hcreates⟩, submit_deeds request⟩

theorem performOn {request : Option ClientRequest}
    (h : ∀ r, request = some r → t.app.Offers r ∧ (r.creates = true → key = .enter)) :
    UserTurn w key t (t.performOn w missing request) := by
  cases request with
  | none => exact .of_deeds (.single (.setFlash _ _ _ _))
  | some r => exact .perform (h r rfl).1 (h r rfl).2

/-- A request about an entry that is selected. -/
theorem performOn_map {α : Type} {selected : Option α} {f : α → ClientRequest}
    (hoffers : ∀ a, selected = some a → t.app.Offers (f a))
    (hcreates : ∀ a, (f a).creates = false) :
    UserTurn w key t (t.performOn w missing (selected.map f)) := by
  refine .performOn fun r hr => ?_
  obtain ⟨a, ha, rfl⟩ := Option.map_eq_some_iff.mp hr
  exact ⟨hoffers a ha, fun h => absurd ((hcreates a).symm.trans h) (by decide)⟩

theorem performIfAny {request : Option ClientRequest}
    (h : ∀ r, request = some r → t.app.Offers r ∧ r.creates = false) :
    UserTurn w key t (t.performIfAny w request) := by
  cases request with
  | none => exact .of_deeds .refl
  | some r =>
    exact .perform (h r rfl).1 fun hcreates => absurd ((h r rfl).2.symm.trans hcreates) (by decide)

theorem reconnect {peer : Option KnownPeerSummary}
    (h : ∀ p, peer = some p →
      t.app.SelectsFriend p ∨ t.app.SelectsSeenUser p ∨ t.app.SelectsDiscoveredPeer p) :
    UserTurn w key t (t.reconnect w missing peer) := by
  cases peer with
  | none => exact .of_deeds (.single (.setFlash _ _ _ _))
  | some p =>
    unfold Turn.reconnect
    dsimp only
    split_ifs with haddress
    · exact .of_deeds (.single (.setFlash _ _ _ _))
    · refine .perform (.inr ⟨p, h p rfl, rfl, ?_⟩) nofun
      cases hbest : bestKnownPeerAddress p with
      | none => simp [hbest] at haddress
      | some address => rfl

theorem launch (hmode : t.app.inputMode = .normal) : UserTurn w (.char 's') t (t.launch w) :=
  ⟨.launch, ⟨rfl, hmode⟩, refreshStatus_deeds⟩

theorem openRenameSelf : UserTurn w key t (t.edit UiApp.openRenameSelf) :=
  .of_view ⟨rfl, rfl, rfl, rfl, rfl, rfl, rfl, id⟩

theorem handleMainKey (key : KeyCode) : UserTurn w key t (t.handleMainKey key) := by
  unfold Turn.handleMainKey
  split
  · exact .of_deeds (.of_shifts (UiApp.activateSelectedMainItem_shifts t.clock))
  · exact .of_deeds .refl

theorem handlePeersKey (hshows : t.app.Shows .peers) (key : KeyCode) :
    UserTurn w key t (t.handlePeersKey w key) := by
  unfold Turn.handlePeersKey
  split
  · exact .performOn_map (fun _ h => .inl ⟨hshows, h⟩) fun _ => rfl
  · exact .performOn_map (fun _ h => .inl (.inl ⟨hshows, h⟩)) fun _ => rfl
  · exact .of_deeds .refl

theorem approveFirstPendingPeer (hshows : t.app.Shows .rooms) (whitelist : Bool) :
    UserTurn w key t (t.approveFirstPendingPeer w whitelist) :=
  .performOn_map (fun _ h => ⟨hshows, congrArg (Option.map PendingPeerApprovalSummary.peerId) h⟩)
    fun _ => rfl

theorem rejectFirstPendingPeer (hshows : t.app.Shows .rooms) :
    UserTurn w key t (t.rejectFirstPendingPeer w) :=
  .performOn_map (fun _ h => ⟨hshows, congrArg (Option.map PendingPeerApprovalSummary.peerId) h⟩)
    fun _ => rfl

theorem handleRoomsKey (hshows : t.app.Shows .rooms) (key : KeyCode) :
    UserTurn w key t (t.handleRoomsKey w key) := by
  unfold Turn.handleRoomsKey
  split
  · exact .of_deeds (copyInvite_deeds _ _)
  · exact .of_view ⟨rfl, rfl, rfl, rfl, rfl, rfl, rfl, id⟩
  · exact .perform hshows nofun
  · exact .openRenameSelf
  · exact .perform hshows nofun
  · exact .approveFirstPendingPeer hshows false
  · exact .approveFirstPendingPeer hshows true
  · exact .rejectFirstPendingPeer hshows
  · refine .performOn fun r hr => ⟨?_, fun _ => rfl⟩
    obtain ⟨room, hroom, rfl⟩ := Option.map_eq_some_iff.mp hr
    exact .inr ⟨hshows, congrArg (Option.map KnownRoomPreview.name) hroom⟩
  · exact .of_deeds .refl

theorem handleCallsKey (hshows : t.app.Shows .calls) (key : KeyCode) :
    UserTurn w key t (t.handleCallsKey w key) := by
  have hselects (peer : PeerSummary) (h : t.app.selectedCallPeer = some peer) :
      t.app.SelectsPeer peer.peerId :=
    .inr ⟨hshows, congrArg (Option.map PeerSummary.peerId) h⟩
  unfold Turn.handleCallsKey
  split
  · exact .performOn_map hselects fun _ => rfl
  · exact .performOn_map (fun peer h => .inl (hselects peer h)) fun _ => rfl
  · exact .of_deeds (copyInvite_deeds _ _)
  · exact .of_deeds .refl

theorem handleConfigKey (hshows : t.app.Shows .config) (key : KeyCode) :
    UserTurn w key t (t.handleConfigKey w key) := by
  unfold Turn.handleConfigKey
  split
  · exact .launch hshows.1
  · exact .of_view ⟨rfl, rfl, rfl, rfl, rfl, rfl, rfl, id⟩
  · exact .performIfAny fun _ h => adjustedConfig_offers hshows h
  · exact .performIfAny fun _ h => adjustedConfig_offers hshows h
  · exact .performIfAny fun _ h => adjustedConfig_offers hshows h
  · exact .performIfAny fun _ h => adjustedConfig_offers hshows h
  · exact .performIfAny fun _ h => activatedConfig_offers hshows h
  · exact .of_deeds .refl

theorem toggledTrust_offers {app : UiApp} {peer : KnownPeerSummary} (h : app.SelectsFriend peer) :
    app.Offers (UiApp.toggledTrust peer) := by
  unfold UiApp.toggledTrust
  split_ifs with htrusted
  · exact ⟨peer, h, rfl, htrusted⟩
  · exact ⟨peer, h, rfl, Bool.eq_false_iff.mpr htrusted⟩

theorem handleKnownPeersKey (hshows : t.app.Shows .knownPeers) (key : KeyCode) :
    UserTurn w key t (t.handleKnownPeersKey w key) := by
  unfold Turn.handleKnownPeersKey
  split
  · exact .openRenameSelf
  · exact .launch hshows.1
  · exact .reconnect fun _ h => .inl ⟨hshows, h⟩
  · exact .reconnect fun _ h => .inl ⟨hshows, h⟩
  · exact .performOn_map (fun peer h => ⟨peer, ⟨hshows, h⟩, rfl⟩) fun _ => rfl
  · exact .performOn_map (fun _ h => toggledTrust_offers ⟨hshows, h⟩) fun _ => rfl
  · split
    · exact .of_view ⟨rfl, rfl, rfl, rfl, rfl, rfl, rfl, id⟩
    · exact .of_deeds (.single (.setFlash _ _ _ _))
  · exact .of_deeds .refl

theorem handleSeenUsersKey (hshows : t.app.Shows .seenUsers) (key : KeyCode) :
    UserTurn w key t (t.handleSeenUsersKey w key) := by
  unfold Turn.handleSeenUsersKey
  split
  · exact .reconnect fun _ h => .inr (.inl ⟨hshows, h⟩)
  · exact .reconnect fun _ h => .inr (.inl ⟨hshows, h⟩)
  · exact .performOn_map (fun peer h => .inr ⟨peer, ⟨hshows, h⟩, rfl⟩) fun _ => rfl
  · exact .of_deeds .refl

theorem handleDiscoveredPeersKey (hshows : t.app.Shows .discoveredPeers) (key : KeyCode) :
    UserTurn w key t (t.handleDiscoveredPeersKey w key) := by
  unfold Turn.handleDiscoveredPeersKey
  split
  · exact .reconnect fun _ h => .inr (.inr ⟨hshows, h⟩)
  · exact .reconnect fun _ h => .inr (.inr ⟨hshows, h⟩)
  · exact .of_deeds .refl

theorem openScreen (screen : Screen) :
    UserTurn w key t (t.edit fun app => app.openScreen t.clock screen) :=
  .of_deeds (.of_shifts (UiApp.openScreen_shifts t.clock))

/-- The common keys only change the view, or fetch the status. -/
theorem screenKeys {own : Turn → KeyCode → Turn} (keys : ScreenKeys) (hscreen : keys.screen ≠ .help)
    (hown : ∀ key, UserTurn w key t (own t key)) (key : KeyCode) :
    UserTurn w key t (keys.handle w own key t).2 := by
  unfold ScreenKeys.handle
  by_cases hquit : key = .char 'q'
  · rw [if_pos hquit]
    exact .of_deeds .refl
  rw [if_neg hquit]
  by_cases hhelp : key = .char '?'
  · rw [if_pos hhelp]
    have hopen : t.app.SameView (t.app.openHelp t.clock keys.screen) :=
      ⟨rfl, rfl, rfl, rfl, rfl, rfl, rfl, fun _ => hscreen⟩
    exact .of_view (f := fun app => app.openHelp t.clock keys.screen) hopen
  rw [if_neg hhelp]
  by_cases hback : keys.goesBack key = true
  · rw [if_pos hback]
    exact .openScreen .main
  rw [if_neg hback]
  by_cases hjoin : key ∈ keys.join.map KeyCode.char
  · rw [if_pos hjoin]
    exact .of_view (f := UiApp.openJoinDialog) ⟨rfl, rfl, rfl, rfl, rfl, rfl, rfl, id⟩
  rw [if_neg hjoin]
  cases keys.link? key with
  | some screen => exact .openScreen screen
  | none =>
    dsimp only
    split_ifs with hnext hprevious hrefresh
    · exact .of_deeds (.of_shifts (UiApp.Shift.next _ _))
    · exact .of_deeds (.of_shifts (UiApp.Shift.previous _ _))
    · refine .of_deeds ((refreshStatus_deeds.trans ?_).tail (.setFlash _ _ _ _))
      exact Deeds.of_shifts (.single (UiApp.Shift.clamp _ _))
    · exact hown key

theorem handleHelpScreen (key : KeyCode) (t : Turn) :
    UserTurn w key t (t.handleHelpScreen w key).2 := by
  have hleave : UserTurn w key t (t.edit fun app => app.closeHelp t.clock) :=
    .of_view ⟨rfl, rfl, rfl, rfl, rfl, rfl, rfl, id⟩
  unfold Turn.handleHelpScreen
  split
  · exact .of_deeds .refl
  · exact hleave
  · exact hleave
  · exact .of_deeds (refreshStatus_deeds.tail (.setFlash _ _ _ _))
  · exact .of_deeds .refl

theorem globalScreenHotkey_ne_help {screen : Screen} (h : globalScreenHotkey key = some screen) :
    screen ≠ .help := by
  unfold globalScreenHotkey at h
  split at h <;> cases h <;> decide

theorem handleKey (hmode : t.app.inputMode = .normal) (key : KeyCode) :
    UserTurn w key t (t.handleKey w key).2 := by
  unfold Turn.handleKey
  split
  · rename_i screen hscreen
    have hgo : ReflTransGen UiApp.Shift t.app (t.app.navigateToScreen t.clock screen) :=
      UiApp.navigateToScreen_shifts t.clock (globalScreenHotkey_ne_help hscreen)
    dsimp only
    exact .of_deeds (.of_shifts hgo)
  · split
    · dsimp only
      exact .of_deeds (.of_shifts (UiApp.cycleTab_shifts t.clock true))
    · dsimp only
      exact .of_deeds (.of_shifts (UiApp.cycleTab_shifts t.clock false))
    · cases hscreen : t.app.screen with
      | main => exact screenKeys _ (by decide) handleMainKey _
      | peers => exact screenKeys _ (by decide) (handlePeersKey ⟨hmode, hscreen⟩) _
      | rooms => exact screenKeys _ (by decide) (handleRoomsKey ⟨hmode, hscreen⟩) _
      | calls => exact screenKeys _ (by decide) (handleCallsKey ⟨hmode, hscreen⟩) _
      | config => exact screenKeys _ (by decide) (handleConfigKey ⟨hmode, hscreen⟩) _
      | knownPeers => exact screenKeys _ (by decide) (handleKnownPeersKey ⟨hmode, hscreen⟩) _
      | seenUsers => exact screenKeys _ (by decide) (handleSeenUsersKey ⟨hmode, hscreen⟩) _
      | discoveredPeers =>
        exact screenKeys _ (by decide) (handleDiscoveredPeersKey ⟨hmode, hscreen⟩) _
      | help => exact handleHelpScreen _ t

theorem submitInput (hmode : t.app.inputMode ≠ .normal) (hasked : t.asked = []) :
    UserTurn w .enter t (t.submitInput w t.app.inputMode) := by
  unfold Turn.submitInput
  cases hinput : t.app.inputMode with
  | normal => exact absurd hinput hmode
  | dial => exact .submit (.inl ⟨hinput, rfl⟩) nofun
  | room => exact .submit (.inl ⟨hinput, rfl⟩) fun _ => rfl
  | controlAddr =>
    have haddress : Deed w true t
        (t.edit fun app => { app with controlAddr := trim app.controlAddr }) :=
      .readdress _ rfl hasked
    refine .of_deeds (ReflTransGen.trans ?_ refreshStatus_deeds)
    exact .head haddress (Deeds.of_view ⟨rfl, rfl, rfl, rfl, rfl, rfl, rfl, id⟩)
  | renameSelf => exact .submit ⟨hinput, rfl⟩ nofun
  | renameKnownPeer =>
    dsimp only
    split
    · exact .trans_deeds (.of_deeds (.single (.setFlash _ _ _ _)))
        (.of_view ⟨rfl, rfl, rfl, rfl, rfl, rfl, rfl, id⟩)
    · rename_i peer hpeer
      exact .submit ⟨hinput, rfl, congrArg (Option.map KnownPeerSummary.peerId) hpeer⟩ nofun

theorem handleTextInput (key : KeyCode) (hmode : t.app.inputMode ≠ .normal) (hasked : t.asked = []) :
    UserTurn w key t (t.handleTextInput w key t.app.inputMode) := by
  unfold Turn.handleTextInput
  split
  · refine .trans_deeds (.of_view ?_) (.single (.setFlash _ _ _ _))
    exact ⟨rfl, rfl, rfl, rfl, rfl, rfl, rfl, id⟩
  · exact .submitInput hmode hasked
  · exact .of_deeds (pop_deeds _ hasked)
  · exact .of_deeds (append_deeds _ _ hasked)
  · exact .of_deeds .refl

end UserTurn

namespace Tui

variable {w : World} {tui : Tui} {elapsed : Nat}

/-- The key of an event, for those that are no key one that does nothing. -/
def pressed : TerminalEvent → KeyCode
  | .key true code => code
  | _ => .other

theorem startTurn_deeds : Deeds w false (tui.turn 0) (tui.startTurn w) := by
  unfold startTurn
  dsimp only
  split_ifs
  · exact launchDaemon_deeds.tail (.setFlashPersistent _ _ _ _)
  · exact launchDaemon_deeds

theorem pollTurn_deeds : Deeds w false (tui.turn elapsed) (tui.pollTurn w elapsed).2 := by
  have hrestore : Deed w false (tui.turn elapsed)
      ((tui.turn elapsed).edit fun app => app.restoreFlashIfExpired (tui.clock + elapsed)) := by
    refine .renew ?_
    unfold UiApp.restoreFlashIfExpired
    split_ifs
    · exact .flash _ _ _
    · exact .flash _ _ _
  unfold pollTurn
  dsimp only
  split_ifs
  · exact (ReflTransGen.single hrestore).trans refreshStatus_deeds
  · exact .single hrestore

theorem eventTurn_userTurn (event : TerminalEvent) :
    UserTurn w (pressed event) (tui.turn elapsed) (tui.eventTurn w elapsed event).2 := by
  unfold eventTurn
  dsimp only
  split
  · exact .of_deeds .refl
  · exact .of_deeds .refl
  · split
    · rename_i hmode
      exact UserTurn.handleKey (t := tui.turn elapsed) hmode _
    · rename_i hmode
      exact UserTurn.handleTextInput (t := tui.turn elapsed) _ hmode rfl
  · rename_i text
    have hpaste : Deeds w true (tui.turn elapsed)
        ((tui.turn elapsed).edit fun app => app.handlePasteInput text) := by
      by_cases hmode : tui.app.inputMode = .normal
      · have hsame : (tui.turn elapsed).edit (fun app => app.handlePasteInput text) =
            tui.turn elapsed := by
          simp [Turn.edit, Tui.turn, UiApp.handlePasteInput, hmode]
        rw [hsame]
      · have htyped : (tui.turn elapsed).edit (fun app => app.handlePasteInput text) =
            (tui.turn elapsed).edit fun app => app.appendInputValue tui.app.inputMode text := by
          simp [Turn.edit, Tui.turn, UiApp.handlePasteInput, hmode]
        rw [htyped]
        exact append_deeds _ _ rfl
    exact .of_deeds hpaste

/-- Where Enter asks for a room it does so before anything else. -/
theorem eventTurn_entersRoom (w : World) (elapsed : Nat) (h : tui.app.entersRoom = true) :
    ∃ roomName, Deeds w true ((tui.turn elapsed).act w (.ask (.createRoom roomName)))
      (tui.eventTurn w elapsed (.key true .enter)).2 := by
  have hcases : tui.app.inputMode = .room ∨ tui.app.inputMode = .normal ∧
      tui.app.screen = .rooms ∧ ∃ room, tui.app.rooms[tui.app.selectedRoom]? = some room := by
    simpa [UiApp.entersRoom, and_assoc, Option.isSome_iff_exists] using h
  rcases hcases with hmode | ⟨hmode, hscreen, room, hroom⟩
  · refine ⟨trim tui.app.roomInput, ?_⟩
    have hturn : (tui.eventTurn w elapsed (.key true .enter)).2 =
        (tui.turn elapsed).submit w (.createRoom (trim tui.app.roomInput)) := by
      simp only [eventTurn, hmode]
      rfl
    rw [hturn]
    exact submit_deeds _
  · refine ⟨room.name, ?_⟩
    have hrequest : (tui.turn elapsed).app.rooms[(tui.turn elapsed).app.selectedRoom]?.map
        (fun room => ClientRequest.createRoom room.name) = some (.createRoom room.name) :=
      congrArg (Option.map _) hroom
    have hhandled : (tui.eventTurn w elapsed (.key true .enter)).2 =
        ((tui.turn elapsed).handleRoomsScreen w .enter).2 := by
      have hshown : (tui.turn elapsed).app.screen = .rooms := hscreen
      simp only [eventTurn, hmode, Turn.handleKey, globalScreenHotkey, hshown]
    have hturn : ((tui.turn elapsed).handleRoomsScreen w .enter).2 =
        (tui.turn elapsed).performOn w "no room selected"
          ((tui.turn elapsed).app.rooms[(tui.turn elapsed).app.selectedRoom]?.map
            fun room => .createRoom room.name) := rfl
    rw [hhandled, hturn, hrequest]
    exact perform_deeds _

end Tui

def TuiInput.elapsed : TuiInput → Nat
  | .start _ => 0
  | .poll _ elapsed => elapsed
  | .event _ elapsed _ => elapsed

/-- What the turn of an input consists of. -/
def TuiInput.Turns (t t' : Turn) : TuiInput → Prop
  | .start w => Deeds w false t t'
  | .poll w _ => Deeds w false t t'
  | .event w _ e => UserTurn w (Tui.pressed e) t t'

/-- A step is a turn, in which nothing else was asked. -/
theorem Tui.step_turns {tui tui' : Tui} {i : TuiInput} {asked : List (Nat × Exchange)}
    (h : tui.step i = some (asked, tui')) :
    i.Turns (tui.turn i.elapsed) { app := tui'.app, clock := tui'.clock, asked := asked } := by
  cases i with
  | start w =>
    simp only [step] at h
    split_ifs at h
    cases h
    exact startTurn_deeds
  | poll w elapsed =>
    simp only [step] at h
    split_ifs at h with hrunning hrefreshed
    · cases h
      exact pollTurn_deeds
    · cases h
      exact pollTurn_deeds
  | event w elapsed event =>
    simp only [step] at h
    split_ifs at h with hrunning hquit
    · cases h
      exact eventTurn_userTurn event
    · cases h
      exact eventTurn_userTurn event

/-- A property of the client that its changes keep, whatever a launch notes. -/
structure UiApp.Kept (I : UiApp → Prop) : Prop where
  renewal : ∀ app app' : UiApp, app.Renewal app' → I app → I app'
  shift : ∀ app app' : UiApp, app.Shift app' → I app → I app'
  launch : ∀ (app : UiApp) (launch : DaemonLaunchState), I app → I { app with daemonLaunch := launch }
  readdress : ∀ (app : UiApp) (controlAddr : String), I app → I { app with controlAddr := controlAddr }

namespace UiApp.Kept

variable {I : UiApp → Prop} {w : World} {user : Bool} {t t' : Turn}

theorem deed (h : Kept I) (hdeed : Deed w user t t') (hi : I t.app) : I t'.app := by
  cases hdeed with
  | renew hrenewal => exact h.renewal _ _ hrenewal hi
  | fetch => exact hi
  | found => exact h.renewal _ _ (.initialized t.app) hi
  | launch => exact h.launch _ _ hi
  | shift _ hshift => exact h.shift _ _ hshift hi
  | readdress => exact h.readdress _ _ hi
  | pipe => exact hi

theorem deeds (h : Kept I) (hdeeds : Deeds w user t t') (hi : I t.app) : I t'.app := by
  induction hdeeds with
  | refl => exact hi
  | tail _ hdeed ih => exact h.deed hdeed ih

theorem act (h : Kept I) (act : UserAct) (hi : I t.app) : I (t.act w act).app := by
  cases act with
  | none => exact hi
  | ask request => exact hi
  | launch =>
    rcases launchDaemon_user w t with hrefused | ⟨_, hdeed⟩
    · rw [Turn.act, hrefused]
      exact hi
    · exact h.deed hdeed (h.launch _ _ hi)

theorem turns (h : Kept I) {i : TuiInput} (hturns : i.Turns t t') (hi : I t.app) : I t'.app := by
  cases i with
  | start w => exact h.deeds hturns hi
  | poll w elapsed => exact h.deeds hturns hi
  | event w elapsed event =>
    obtain ⟨act, _, hdeeds⟩ := hturns
    exact h.deeds hdeeds (h.act act hi)

theorem run (h : Kept I) {config : UiConfig} {now : Nat} {tr : List TuiTransition} {tui : Tui}
    (hrun : TuiRun config now tr tui) (hnew : I (UiApp.new config)) : I tui.app :=
  hrun.invariant (I := fun tui => I tui.app)
    (fun tui _ _ _ hi hstep => h.turns (t := tui.turn _) (Tui.step_turns hstep) hi) hnew

end UiApp.Kept

end Voicers
