import Voicers.App.Cli
import Voicers.Ui.Selections

/-! What the client asks of the outside over whole runs: which requests it
sends, how often it founds a room by itself and how often it starts a daemon. -/

namespace Voicers

open Lib Relation

def requestOf : Nat × Exchange → Option ClientRequest
  | (_, .request _ request _) => some request
  | _ => none

def launchTime : Nat × Exchange → Option Nat
  | (time, .launch _ _ _) => some time
  | _ => none

def requestsIn (asked : List (Nat × Exchange)) : List ClientRequest := asked.filterMap requestOf

def launchTimes (asked : List (Nat × Exchange)) : List Nat := asked.filterMap launchTime

/-- All that was asked in a run. -/
def runAsked (tr : List TuiTransition) : List (Nat × Exchange) := tr.flatMap Transition.output

/-- The request the client sends by itself, and that for the first room. -/
def ClientRequest.Automatic (request : ClientRequest) : Prop :=
  request = .getStatus ∨ request = .createRoom defaultRoomName

/-- At most one request of the user, about what is shown, and before the others. -/
def RequestsOffered (app : UiApp) (asked : List (Nat × Exchange)) : Prop :=
  ∃ own automatic : List ClientRequest, requestsIn asked = own ++ automatic ∧ own.length ≤ 1 ∧
    (∀ request ∈ own, app.Offers request) ∧ ∀ request ∈ automatic, request.Automatic

/-- What is asked of the daemon at an address; one that is launched will listen
there, whatever it would do without arguments. -/
def Exchange.AddressedTo (controlAddr : String) : Exchange → Prop
  | .request addr _ _ => addr = controlAddr
  | .launch _ args _ => ∀ config, parseArgs config args = { config with controlAddr := controlAddr }
  | .pipe .. => True

/-- All that was asked in a turn was asked at the client's address. -/
def Turn.Addressed (t : Turn) : Prop :=
  ∀ exchange ∈ t.asked, exchange.2.AddressedTo t.app.controlAddr

def roomsCreated (asked : List (Nat × Exchange)) : Nat :=
  (requestsIn asked).countP ClientRequest.creates

/-- A press of a key, outside the dialogs if `normal`. -/
def presses (key : KeyCode) (x : TuiTransition) : Bool :=
  match x.input with
  | .event _ _ (.key true code) => code = key
  | _ => false

/-- The launches an act can lead to: its own, and the client's next. -/
def UserAct.launches : UserAct → Nat
  | .launch => 2
  | _ => 0

def UserAct.creates : UserAct → Bool
  | .ask request => request.creates
  | _ => false

/-- A press of Enter with which the user asks for a room. -/
def roomPress (x : TuiTransition) : Bool := presses .enter x && x.before.app.entersRoom

def launchPress (x : TuiTransition) : Bool :=
  presses (.char 's') x && x.before.app.inputMode = .normal

/-- Whether the client may still found a room, or start a daemon, by itself. -/
def UiApp.mayFound (app : UiApp) : Nat := if app.defaultRoomInitialized then 0 else 1

def UiApp.mayLaunch (app : UiApp) : Nat := if app.daemonLaunch.attemptedAutoStart then 0 else 1

/-- The launches so far lie two seconds apart, and the last of them is noted. -/
structure LaunchesSpaced (prior : List (Nat × Exchange)) (t : Turn) : Prop where
  apart : (launchTimes (prior ++ t.asked)).Pairwise fun a b => a + 2 * nanosPerSecond ≤ b
  noted : ∀ time ∈ launchTimes (prior ++ t.asked),
    ∃ last, t.app.daemonLaunch.lastLaunchAt = some last ∧ time ≤ last
  past : ∀ last, t.app.daemonLaunch.lastLaunchAt = some last → last ≤ t.clock

section

variable {w : World} {user : Bool} {t t' : Turn} {prior : List (Nat × Exchange)} {app app' : UiApp}

theorem requestsIn_append (a b : List (Nat × Exchange)) :
    requestsIn (a ++ b) = requestsIn a ++ requestsIn b := List.filterMap_append

theorem launchTimes_append (a b : List (Nat × Exchange)) :
    launchTimes (a ++ b) = launchTimes a ++ launchTimes b := List.filterMap_append

theorem roomsCreated_append (a b : List (Nat × Exchange)) :
    roomsCreated (a ++ b) = roomsCreated a + roomsCreated b := by
  rw [roomsCreated, requestsIn_append, List.countP_append]
  rfl

theorem initialized_of_unselected (h : app'.unselected = app.unselected) :
    app'.defaultRoomInitialized = app.defaultRoomInitialized :=
  show app'.unselected.defaultRoomInitialized = app.unselected.defaultRoomInitialized from
    congrArg _ h

theorem launch_of_unselected (h : app'.unselected = app.unselected) :
    app'.daemonLaunch = app.daemonLaunch :=
  show app'.unselected.daemonLaunch = app.unselected.daemonLaunch from congrArg _ h

theorem syncMainExpansions_rest (app : UiApp) :
    app.syncMainExpansions.defaultRoomInitialized = app.defaultRoomInitialized ∧
      app.syncMainExpansions.daemonLaunch = app.daemonLaunch := by
  unfold UiApp.syncMainExpansions
  split
  · exact ⟨rfl, rfl⟩
  · split_ifs <;> exact ⟨rfl, rfl⟩

theorem acceptStatus_rest (app : UiApp) (status : ClientStatus) :
    (app.acceptStatus status).defaultRoomInitialized = app.defaultRoomInitialized ∧
      (app.acceptStatus status).daemonLaunch = app.daemonLaunch := by
  have hclamp := UiApp.unselected_acceptStatus app status
  obtain ⟨hinitialized, hlaunch⟩ := syncMainExpansions_rest { app with status := some status }
  exact ⟨(initialized_of_unselected hclamp).trans hinitialized,
    (launch_of_unselected hclamp).trans hlaunch⟩

theorem UiApp.Shift.rest (h : app.Shift app') :
    app'.defaultRoomInitialized = app.defaultRoomInitialized ∧ app'.daemonLaunch = app.daemonLaunch := by
  cases h with
  | view hview => exact ⟨hview.initialized, hview.launch⟩
  | select =>
    exact ⟨initialized_of_unselected UiApp.unselected_setSelected,
      launch_of_unselected UiApp.unselected_setSelected⟩
  | expand => exact ⟨rfl, rfl⟩

theorem UiApp.Shift.mayFound_eq (h : app.Shift app') : app'.mayFound = app.mayFound := by
  rw [UiApp.mayFound, h.rest.1]
  rfl

theorem UiApp.Shift.mayLaunch_eq (h : app.Shift app') : app'.mayLaunch = app.mayLaunch := by
  rw [UiApp.mayLaunch, h.rest.2]
  rfl

theorem UiApp.Renewal.lastLaunchAt (h : app.Renewal app') :
    app'.daemonLaunch.lastLaunchAt = app.daemonLaunch.lastLaunchAt := by
  cases h with
  | accept status => exact congrArg DaemonLaunchState.lastLaunchAt (acceptStatus_rest app status).2
  | _ => rfl

theorem UiApp.Renewal.mayFound_le (h : app.Renewal app') : app'.mayFound ≤ app.mayFound := by
  cases h with
  | accept status => rw [UiApp.mayFound, (acceptStatus_rest app status).1]; rfl
  | initialized => exact Nat.zero_le _
  | _ => exact le_rfl

theorem UiApp.Renewal.mayLaunch_le (h : app.Renewal app') : app'.mayLaunch ≤ app.mayLaunch := by
  cases h with
  | accept status => rw [UiApp.mayLaunch, (acceptStatus_rest app status).2]; rfl
  | attempted => exact Nat.zero_le _
  | _ => exact le_rfl

/-- What a deed asks is a request of the client's own. -/
theorem Deeds.automatic (h : Deeds w user t t') :
    ∃ automatic : List ClientRequest, requestsIn t'.asked = requestsIn t.asked ++ automatic ∧
      ∀ request ∈ automatic, request.Automatic := by
  induction h with
  | refl => exact ⟨[], (List.append_nil _).symm, nofun⟩
  | @tail m t' _ hdeed ih =>
    obtain ⟨automatic, hrequests, hall⟩ := ih
    have hmore (request : ClientRequest) (hnew : request.Automatic)
        (hsame : requestsIn t'.asked = requestsIn m.asked ++ [request]) :
        ∃ automatic : List ClientRequest, requestsIn t'.asked = requestsIn t.asked ++ automatic ∧
          ∀ request ∈ automatic, request.Automatic := by
      refine ⟨automatic ++ [request], by rw [hsame, hrequests, List.append_assoc], fun r hr => ?_⟩
      rcases List.mem_append.mp hr with hr | hr
      · exact hall r hr
      · exact List.mem_singleton.mp hr ▸ hnew
    have hquiet (exchange : Nat × Exchange) (hnone : requestOf exchange = none)
        (hsame : t'.asked = m.asked ++ [exchange]) :
        requestsIn t'.asked = requestsIn t.asked ++ automatic := by
      have hempty : requestsIn [exchange] = [] := by simp [requestsIn, hnone]
      rw [hsame, requestsIn_append, hempty, List.append_nil, hrequests]
    cases hdeed with
    | renew => exact ⟨automatic, hrequests, hall⟩
    | shift => exact ⟨automatic, hrequests, hall⟩
    | readdress => exact ⟨automatic, hrequests, hall⟩
    | fetch => exact hmore .getStatus (.inl rfl) (requestsIn_append _ _)
    | found => exact hmore (.createRoom defaultRoomName) (.inr rfl) (requestsIn_append _ _)
    | launch => exact ⟨automatic, hquiet _ rfl rfl, hall⟩
    | pipe => exact ⟨automatic, hquiet _ rfl rfl, hall⟩

theorem UiApp.Shift.controlAddr (h : app.Shift app') : app'.controlAddr = app.controlAddr := by
  cases h with
  | view hview => exact hview.controlAddr
  | @select screen index =>
    have hdesk : (app.setSelected index screen).desk = app.desk :=
      UiApp.desk_of_unselected UiApp.unselected_setSelected
    exact congrArg Desk.controlAddr hdesk
  | expand => rfl

namespace Turn.Addressed

theorem edit (h : t.Addressed) {f : UiApp → UiApp}
    (haddr : (f t.app).controlAddr = t.app.controlAddr) : (t.edit f).Addressed := by
  intro exchange hexchange
  have hsame : (t.edit f).app.controlAddr = t.app.controlAddr := haddr
  exact hsame ▸ h exchange hexchange

theorem note (h : t.Addressed) (exchange : Exchange)
    (hnew : exchange.AddressedTo t.app.controlAddr) (delay : Nat) :
    (t.note exchange delay).Addressed := by
  intro other hother
  rcases List.mem_append.mp hother with hold | hlast
  · exact h other hold
  · exact List.mem_singleton.mp hlast ▸ hnew

theorem attemptLaunch (h : t.Addressed) (w : World) (auto : Bool) :
    (t.attemptLaunch w auto).2.Addressed := by
  have hflag : cliFlag "--control-addr" =
      .value fun value config => { config with controlAddr := value } := rfl
  have hargs (config : AppConfig) : parseArgs config (launchArgs t.app.controlAddr) =
      { config with controlAddr := t.app.controlAddr } :=
    parseArgs_value hflag
  exact (h.note (.launch _ _ _) hargs _).edit rfl

theorem deed (h : t.Addressed) (hdeed : Deed w user t t') : t'.Addressed := by
  cases hdeed with
  | renew hrenewal => exact h.edit (congrArg Desk.controlAddr hrenewal.desk)
  | shift _ hshift => exact h.edit hshift.controlAddr
  | readdress addr _ hnone =>
    intro exchange hexchange
    have hnil : exchange ∈ t.asked := hexchange
    rw [hnone] at hnil
    exact absurd hnil List.not_mem_nil
  | fetch => exact h.note (.request _ _ _) rfl _
  | found => exact (h.edit (f := UiApp.roomInitialized) rfl).note (.request _ _ _) rfl _
  | launch => exact h.attemptLaunch w true
  | pipe => exact h.note (.pipe _ _ _ _) trivial _

theorem deeds (h : t.Addressed) (hdeeds : Deeds w user t t') : t'.Addressed := by
  induction hdeeds with
  | refl => exact h
  | tail _ hdeed ih => exact ih.deed hdeed

theorem act (h : t.Addressed) (act : UserAct) : (t.act w act).Addressed := by
  cases act with
  | none => exact h
  | ask request => exact h.note (.request _ _ _) rfl _
  | launch =>
    rcases launchDaemon_user w t with hrefused | ⟨_, hdeed⟩
    · rw [Turn.act, hrefused]
      exact h
    · exact (h.attemptLaunch w false).deed hdeed

theorem turns (h : t.Addressed) {i : TuiInput} (hturns : i.Turns t t') : t'.Addressed := by
  cases i with
  | start w => exact h.deeds hturns
  | poll w elapsed => exact h.deeds hturns
  | event w elapsed e =>
    obtain ⟨act, _, hdeeds⟩ := hturns
    exact (h.act act).deeds hdeeds

end Turn.Addressed

theorem Deed.roomsCreated_le (h : Deed w user t t') :
    roomsCreated t'.asked + t'.app.mayFound ≤ roomsCreated t.asked + t.app.mayFound := by
  cases h with
  | renew hrenewal => exact Nat.add_le_add_left hrenewal.mayFound_le _
  | shift _ hshift => exact Nat.add_le_add_left hshift.mayFound_eq.le _
  | readdress => exact le_rfl
  | fetch =>
    rw [Turn.sendRequestTo, Turn.note, roomsCreated_append]
    exact le_rfl
  | found hinitialized =>
    have hmay : t.app.mayFound = 1 := by rw [UiApp.mayFound, hinitialized]; rfl
    rw [Turn.sendRequestTo, Turn.note, roomsCreated_append, hmay]
    exact le_rfl
  | launch =>
    rw [Turn.attemptLaunch, Turn.spawnDaemon, Turn.edit, Turn.note, roomsCreated_append]
    exact le_rfl
  | pipe =>
    rw [Turn.writeToCommandStdin, Turn.note, roomsCreated_append]
    exact le_rfl

theorem Deed.launches_le (h : Deed w user t t') :
    (launchTimes t'.asked).length + t'.app.mayLaunch ≤
      (launchTimes t.asked).length + t.app.mayLaunch := by
  cases h with
  | renew hrenewal => exact Nat.add_le_add_left hrenewal.mayLaunch_le _
  | shift _ hshift => exact Nat.add_le_add_left hshift.mayLaunch_eq.le _
  | readdress => exact le_rfl
  | fetch =>
    rw [Turn.sendRequestTo, Turn.note, launchTimes_append, List.length_append]
    exact le_rfl
  | found =>
    rw [Turn.sendRequestTo, Turn.note, launchTimes_append, List.length_append]
    exact le_rfl
  | launch hrefused =>
    have hmay : t.app.mayLaunch = 1 := by
      rw [Turn.launchRefused, Bool.or_eq_false_iff, Bool.true_and] at hrefused
      rw [UiApp.mayLaunch, hrefused.1]
      rfl
    have hdone : (t.attemptLaunch w true).2.app.mayLaunch = 0 := by
      rw [Turn.attemptLaunch]
      simp [UiApp.mayLaunch, Turn.edit, Turn.noteLaunch]
    rw [hdone, hmay, Turn.attemptLaunch, Turn.spawnDaemon, Turn.edit, Turn.note, launchTimes_append,
      List.length_append]
    exact le_rfl
  | pipe =>
    rw [Turn.writeToCommandStdin, Turn.note, launchTimes_append, List.length_append]
    exact le_rfl

theorem Deeds.roomsCreated_le (h : Deeds w user t t') :
    roomsCreated t'.asked + t'.app.mayFound ≤ roomsCreated t.asked + t.app.mayFound := by
  induction h with
  | refl => exact le_rfl
  | tail _ hdeed ih => exact hdeed.roomsCreated_le.trans ih

theorem Deeds.launches_le (h : Deeds w user t t') :
    (launchTimes t'.asked).length + t'.app.mayLaunch ≤
      (launchTimes t.asked).length + t.app.mayLaunch := by
  induction h with
  | refl => exact le_rfl
  | tail _ hdeed ih => exact hdeed.launches_le.trans ih

theorem mayLaunch_le (app : UiApp) : app.mayLaunch ≤ 1 := by
  unfold UiApp.mayLaunch
  split_ifs <;> decide

namespace LaunchesSpaced

theorem of_quiet (h : LaunchesSpaced prior t) {app : UiApp} {clock : Nat} (exchange : Exchange)
    (hquiet : launchTime (t.clock, exchange) = none) (hclock : t.clock ≤ clock)
    (hlast : app.daemonLaunch.lastLaunchAt = t.app.daemonLaunch.lastLaunchAt) :
    LaunchesSpaced prior
      { app := app, clock := clock, asked := t.asked ++ [(t.clock, exchange)] } := by
  have htimes : launchTimes (prior ++ (t.asked ++ [(t.clock, exchange)])) =
      launchTimes (prior ++ t.asked) := by
    have hempty : launchTimes [(t.clock, exchange)] = [] := by simp [launchTimes, hquiet]
    rw [← List.append_assoc, launchTimes_append, hempty, List.append_nil]
  constructor
  · rw [htimes]
    exact h.apart
  · intro time htime
    rw [htimes] at htime
    rw [hlast]
    exact h.noted time htime
  · intro last hsome
    exact (h.past last (hlast ▸ hsome)).trans hclock

theorem edit (h : LaunchesSpaced prior t) {f : UiApp → UiApp}
    (hlast : (f t.app).daemonLaunch.lastLaunchAt = t.app.daemonLaunch.lastLaunchAt) :
    LaunchesSpaced prior (t.edit f) := by
  constructor
  · exact h.apart
  · intro time htime
    obtain ⟨last, hsome, hle⟩ := h.noted time htime
    exact ⟨last, hlast.trans hsome, hle⟩
  · exact fun last hsome => h.past last (hlast.symm.trans hsome)

/-- A launch that is not refused comes two seconds after the last. -/
theorem attempt (h : LaunchesSpaced prior t) (w : World) {auto : Bool}
    (hrefused : t.launchRefused auto = false) :
    LaunchesSpaced prior (t.attemptLaunch w auto).2 := by
  let error := (t.spawnDaemon w).1
  have hasked : (t.attemptLaunch w auto).2.asked =
      t.asked ++ [(t.clock, .launch t.app.daemonBin (launchArgs t.app.controlAddr) error)] := rfl
  have hnoted : (t.attemptLaunch w auto).2.app.daemonLaunch.lastLaunchAt =
      some (t.attemptLaunch w auto).2.clock := rfl
  have hclock : t.clock ≤ (t.attemptLaunch w auto).2.clock := Nat.le_add_right _ _
  have htimes : launchTimes (prior ++ (t.attemptLaunch w auto).2.asked) =
      launchTimes (prior ++ t.asked) ++ [t.clock] := by
    rw [hasked, ← List.append_assoc, launchTimes_append]
    rfl
  have hearlier : ∀ time ∈ launchTimes (prior ++ t.asked),
      time + 2 * nanosPerSecond ≤ t.clock := by
    intro time htime
    obtain ⟨last, hsome, hle⟩ := h.noted time htime
    rw [Turn.launchRefused, Bool.or_eq_false_iff, hsome, Option.any_some,
      decide_eq_false_iff_not] at hrefused
    have hlast := h.past last hsome
    omega
  constructor
  · rw [htimes]
    refine List.pairwise_append.mpr
      ⟨h.apart, List.pairwise_singleton _ _, fun time htime new hnew => ?_⟩
    exact List.mem_singleton.mp hnew ▸ hearlier time htime
  · intro time htime
    rw [htimes] at htime
    refine ⟨_, hnoted, ?_⟩
    rcases List.mem_append.mp htime with hold | hnew
    · exact (Nat.le_add_right _ _).trans ((hearlier time hold).trans hclock)
    · exact List.mem_singleton.mp hnew ▸ hclock
  · intro last hsome
    exact (Option.some.inj (hnoted.symm.trans hsome)).ge

theorem deed (h : LaunchesSpaced prior t) (hdeed : Deed w user t t') : LaunchesSpaced prior t' := by
  cases hdeed with
  | renew hrenewal => exact h.edit hrenewal.lastLaunchAt
  | shift _ hshift => exact h.edit (congrArg _ hshift.rest.2)
  | readdress => exact h.edit rfl
  | fetch => exact h.of_quiet _ rfl (Nat.le_add_right _ _) rfl
  | found => exact (h.edit (f := UiApp.roomInitialized) rfl).of_quiet _ rfl (Nat.le_add_right _ _) rfl
  | launch hrefused => exact h.attempt w hrefused
  | pipe => exact h.of_quiet _ rfl (Nat.le_add_right _ _) rfl

theorem deeds (h : LaunchesSpaced prior t) (hdeeds : Deeds w user t t') :
    LaunchesSpaced prior t' := by
  induction hdeeds with
  | refl => exact h
  | tail _ hdeed ih => exact ih.deed hdeed

theorem act (h : LaunchesSpaced prior t) (act : UserAct) : LaunchesSpaced prior (t.act w act) := by
  cases act with
  | none => exact h
  | ask request => exact h.of_quiet _ rfl (Nat.le_add_right _ _) rfl
  | launch =>
    rcases launchDaemon_user w t with hrefused | ⟨hrefused, hdeed⟩
    · rw [Turn.act, hrefused]
      exact h
    · exact (h.attempt w hrefused).deed hdeed

theorem turns (h : LaunchesSpaced prior t) {i : TuiInput} (hturns : i.Turns t t') :
    LaunchesSpaced prior t' := by
  cases i with
  | start w => exact h.deeds hturns
  | poll w elapsed => exact h.deeds hturns
  | event w elapsed e =>
    obtain ⟨act, _, hdeeds⟩ := hturns
    exact (h.act act).deeds hdeeds

end LaunchesSpaced

end

section

variable {config : UiConfig} {now : Nat} {tr : List TuiTransition} {tui : Tui} {t' : Turn}

theorem runAsked_snoc (tr : List TuiTransition) (x : TuiTransition) :
    runAsked (tr ++ [x]) = runAsked tr ++ x.output := by
  simp [runAsked]

theorem presses_of_pressed {x : TuiTransition} {w : World} {elapsed : Nat} {e : TerminalEvent}
    {key : KeyCode} (hinput : x.input = .event w elapsed e) (hkey : Tui.pressed e = key)
    (hother : key ≠ .other) : presses key x = true := by
  unfold presses
  rw [hinput]
  cases e with
  | key press code =>
    cases press with
    | true => exact decide_eq_true hkey
    | false => exact absurd hkey.symm hother
  | paste text => exact absurd hkey.symm hother
  | other => exact absurd hkey.symm hother

theorem act_launches_le (w : World) (t : Turn) (act : UserAct) :
    (launchTimes (t.act w act).asked).length + (t.act w act).app.mayLaunch ≤
      (launchTimes t.asked).length + t.app.mayLaunch + act.launches := by
  cases act with
  | none => exact le_rfl
  | ask request =>
    rw [Turn.act, Turn.sendRequestTo, Turn.note, launchTimes_append, List.length_append]
    exact le_rfl
  | launch =>
    rcases launchDaemon_user w t with hrefused | ⟨_, hdeed⟩
    · rw [Turn.act, hrefused]
      exact Nat.le_add_right _ _
    · have hone : (launchTimes (t.attemptLaunch w false).2.asked).length =
          (launchTimes t.asked).length + 1 := by
        rw [Turn.attemptLaunch, Turn.spawnDaemon, Turn.edit, Turn.note, launchTimes_append,
          List.length_append]
        rfl
      have hfreed := mayLaunch_le (t.attemptLaunch w false).2.app
      have hle := hdeed.launches_le
      rw [Turn.act, UserAct.launches]
      omega

theorem act_roomsCreated_le (w : World) (t : Turn) (act : UserAct) :
    roomsCreated (t.act w act).asked + (t.act w act).app.mayFound ≤
      roomsCreated t.asked + t.app.mayFound + act.creates.toNat := by
  cases act with
  | none => exact le_rfl
  | ask request =>
    have hone : roomsCreated (t.sendRequestTo w request).2.asked =
        roomsCreated t.asked + request.creates.toNat := by
      rw [Turn.sendRequestTo, Turn.note, roomsCreated_append]
      cases hcreates : request.creates with
      | true => simp [roomsCreated, requestsIn, requestOf, hcreates]
      | false => simp [roomsCreated, requestsIn, requestOf, hcreates]
    have hsame : (t.sendRequestTo w request).2.app = t.app := rfl
    rw [Turn.act, hone, hsame, UserAct.creates]
    omega
  | launch =>
    rcases launchDaemon_user w t with hrefused | ⟨_, hdeed⟩
    · rw [Turn.act, hrefused]
      exact Nat.le_add_right _ _
    · refine hdeed.roomsCreated_le.trans ?_
      rw [Turn.attemptLaunch, Turn.spawnDaemon, Turn.edit, Turn.note, roomsCreated_append]
      exact le_rfl

variable {x : TuiTransition}

theorem launches_of_offered {w : World} {elapsed : Nat} {e : TerminalEvent} {act : UserAct}
    (hinput : x.input = .event w elapsed e) (h : act.Offered x.before.app (Tui.pressed e)) :
    act.launches ≤ 2 * (launchPress x).toNat := by
  cases act with
  | launch =>
    have hpress : launchPress x = true := by
      rw [launchPress, presses_of_pressed hinput h.1 nofun, Bool.true_and]
      exact decide_eq_true h.2
    rw [hpress]
    exact le_rfl
  | none => exact Nat.zero_le _
  | ask request => exact Nat.zero_le _

theorem creates_of_offered {w : World} {elapsed : Nat} {e : TerminalEvent} {act : UserAct}
    (hinput : x.input = .event w elapsed e) (h : act.Offered x.before.app (Tui.pressed e)) :
    act.creates.toNat ≤ (roomPress x).toNat := by
  cases act with
  | ask request =>
    cases request with
    | createRoom roomName =>
      have hpress : roomPress x = true := by
        rw [roomPress, presses_of_pressed hinput (h.2 rfl) nofun, entersRoom_of_offers h.1]
        rfl
      rw [hpress]
      exact Bool.toNat_le _
    | _ => exact Nat.zero_le _
  | none => exact Nat.zero_le _
  | launch => exact Nat.zero_le _

/-- What no deed makes more of grows in a step by what the user's act adds. -/
theorem step_le (measure : Turn → Nat) {added : UserAct → Nat} {bound : Nat}
    (hdeeds : ∀ (w : World) (user : Bool) (t t' : Turn), Deeds w user t t' → measure t' ≤ measure t)
    (hact : ∀ (w : World) (t : Turn) (act : UserAct),
      measure (t.act w act) ≤ measure t + added act)
    (hoffered : ∀ (w : World) (elapsed : Nat) (e : TerminalEvent) (act : UserAct),
      x.input = .event w elapsed e → act.Offered x.before.app (Tui.pressed e) → added act ≤ bound)
    (hstep : x.before.step x.input = some (x.output, x.after)) :
    measure { app := x.after.app, clock := x.after.clock, asked := x.output } ≤
      measure (x.before.turn x.input.elapsed) + bound := by
  have hturns := Tui.step_turns hstep
  cases hinput : x.input with
  | start w =>
    rw [hinput] at hturns
    exact (hdeeds w false _ _ hturns).trans (Nat.le_add_right _ _)
  | poll w elapsed =>
    rw [hinput] at hturns
    exact (hdeeds w false _ _ hturns).trans (Nat.le_add_right _ _)
  | event w elapsed e =>
    rw [hinput] at hturns
    obtain ⟨act, hoffers, hdone⟩ := hturns
    have hadded := hoffered w elapsed e act hinput hoffers
    exact (hdeeds w true _ _ hdone).trans ((hact w _ act).trans (Nat.add_le_add_left hadded _))

/-- A step launches at most what the client still may, and twice for a press of
the user. -/
theorem step_launches_le (hstep : x.before.step x.input = some (x.output, x.after)) :
    (launchTimes x.output).length + x.after.app.mayLaunch ≤
      x.before.app.mayLaunch + 2 * (launchPress x).toNat := by
  have hle := step_le (fun t => (launchTimes t.asked).length + t.app.mayLaunch)
    (fun _ _ _ _ hdeeds => hdeeds.launches_le) act_launches_le
    (fun _ _ _ _ => launches_of_offered) hstep
  simpa [Tui.turn, launchTimes] using hle

theorem step_roomsCreated_le (hstep : x.before.step x.input = some (x.output, x.after)) :
    roomsCreated x.output + x.after.app.mayFound ≤
      x.before.app.mayFound + (roomPress x).toNat := by
  have hle := step_le (fun t => roomsCreated t.asked + t.app.mayFound)
    (fun _ _ _ _ hdeeds => hdeeds.roomsCreated_le) act_roomsCreated_le
    (fun _ _ _ _ => creates_of_offered) hstep
  simpa [Tui.turn, roomsCreated, requestsIn] using hle

/-- A press of Enter that is for a room has one asked for. -/
theorem roomPress_le (hstep : x.before.step x.input = some (x.output, x.after)) :
    (roomPress x).toNat ≤ roomsCreated x.output := by
  cases hpress : roomPress x with
  | false => exact Nat.zero_le _
  | true =>
    obtain ⟨henter, hroom⟩ := Bool.and_eq_true_iff.mp hpress
    cases hinput : x.input with
    | start w => simp [presses, hinput] at henter
    | poll w elapsed => simp [presses, hinput] at henter
    | event w elapsed e =>
      have hkey : e = .key true .enter := by
        unfold presses at henter
        rw [hinput] at henter
        cases e with
        | key press code =>
          cases press with
          | true => exact congrArg _ (of_decide_eq_true henter)
          | false => cases henter
        | paste text => cases henter
        | other => cases henter
      have houtput : x.output = (x.before.eventTurn w elapsed e).2.asked := by
        rw [hinput, Tui.step] at hstep
        split_ifs at hstep
        exact (congrArg Prod.fst (Option.some.inj hstep)).symm
      obtain ⟨roomName, hdeeds⟩ := Tui.eventTurn_entersRoom w elapsed hroom
      obtain ⟨automatic, hrequests, -⟩ := Deeds.automatic hdeeds
      rw [roomsCreated, houtput, hkey, hrequests, List.countP_append]
      exact Nat.le_add_right 1 _

/-- The client starts daemons two seconds apart, one by itself and two for each
time the user asks. -/
theorem launches_bounded (h : TuiRun config now tr tui) :
    (launchTimes (runAsked tr)).Pairwise (fun a b => a + 2 * nanosPerSecond ≤ b) ∧
      (launchTimes (runAsked tr)).length ≤ 1 + 2 * tr.countP launchPress := by
  have hspaced : LaunchesSpaced (runAsked tr) (tui.turn 0) := by
    refine Trace.snoc_induction (P := fun tr tui => LaunchesSpaced (runAsked tr) (tui.turn 0)) ?_ ?_ h
    · exact ⟨.nil, nofun, nofun⟩
    · intro tr x _ hstep ih
      have hbefore : LaunchesSpaced (runAsked tr) (x.before.turn x.input.elapsed) :=
        ⟨ih.apart, ih.noted, fun last hlast => (ih.past last hlast).trans (Nat.le_add_right _ _)⟩
      have hafter := hbefore.turns (Tui.step_turns hstep)
      rw [runAsked_snoc]
      exact ⟨by simpa [Tui.turn] using hafter.apart, by simpa [Tui.turn] using hafter.noted,
        hafter.past⟩
  have hcount : (launchTimes (runAsked tr)).length + tui.app.mayLaunch ≤
      1 + 2 * tr.countP launchPress := by
    refine Trace.snoc_induction (P := fun tr tui => (launchTimes (runAsked tr)).length +
      tui.app.mayLaunch ≤ 1 + 2 * tr.countP launchPress) le_rfl ?_ h
    intro tr x _ hstep ih
    have hle := step_launches_le hstep
    rw [runAsked_snoc, launchTimes_append, List.length_append, List.countP_append,
      List.countP_singleton]
    cases hpress : launchPress x <;> rw [hpress] at hle <;> simp at hle ⊢ <;> omega
  have hapart := hspaced.apart
  simp only [Tui.turn, List.append_nil] at hapart
  exact ⟨hapart, by omega⟩

theorem requestsIn_launchDaemon (w : World) (t : Turn) (auto : Bool) :
    requestsIn (t.launchDaemon w auto).2.asked = requestsIn t.asked := by
  have hattempt : requestsIn (t.attemptLaunch w auto).2.asked = requestsIn t.asked := by
    rw [Turn.attemptLaunch, Turn.spawnDaemon, Turn.edit, Turn.note, requestsIn_append]
    exact List.append_nil _
  unfold Turn.launchDaemon
  dsimp only
  split
  · rfl
  · split
    · split
      · exact hattempt
      · exact hattempt
    · exact hattempt

/-- What the user asks in a turn. -/
theorem act_requests (w : World) (t : Turn) {act : UserAct} {key : KeyCode} {app : UiApp}
    (h : act.Offered app key) :
    ∃ own : List ClientRequest, requestsIn (t.act w act).asked = requestsIn t.asked ++ own ∧
      own.length ≤ 1 ∧ ∀ request ∈ own, app.Offers request := by
  have hquiet (t' : Turn) (hsame : requestsIn t'.asked = requestsIn t.asked) :
      ∃ own : List ClientRequest, requestsIn t'.asked = requestsIn t.asked ++ own ∧
        own.length ≤ 1 ∧ ∀ request ∈ own, app.Offers request :=
    ⟨[], by rw [hsame, List.append_nil], Nat.zero_le _, nofun⟩
  cases act with
  | none => exact hquiet t rfl
  | ask request =>
    exact ⟨[request], requestsIn_append _ _, le_rfl, fun _ hr => List.mem_singleton.mp hr ▸ h.1⟩
  | launch => exact hquiet _ (requestsIn_launchDaemon w t false)

theorem requests_offered (h : TuiRun config now tr tui) :
    ∀ x ∈ tr, RequestsOffered x.before.app x.output := by
  intro x hx
  obtain ⟨_, hstep⟩ := h.of_mem (I := fun _ => True) (fun _ _ _ _ _ _ => trivial) trivial hx
  have hturns := Tui.step_turns hstep
  cases hinput : x.input with
  | start w =>
    rw [hinput] at hturns
    obtain ⟨automatic, hrequests, hall⟩ := Deeds.automatic hturns
    exact ⟨[], automatic, hrequests, Nat.zero_le _, nofun, hall⟩
  | poll w elapsed =>
    rw [hinput] at hturns
    obtain ⟨automatic, hrequests, hall⟩ := Deeds.automatic hturns
    exact ⟨[], automatic, hrequests, Nat.zero_le _, nofun, hall⟩
  | event w elapsed e =>
    rw [hinput] at hturns
    obtain ⟨act, hoffered, hdeeds⟩ := hturns
    obtain ⟨automatic, hrequests, hall⟩ := Deeds.automatic hdeeds
    obtain ⟨own, hown, hone, hoffers⟩ := act_requests w _ hoffered
    rw [hown] at hrequests
    exact ⟨own, automatic, hrequests, hone, hoffers, hall⟩

/-- The client talks to one daemon at a time, also when it starts one. -/
theorem exchanges_addressed (h : TuiRun config now tr tui) :
    ∀ x ∈ tr, ∀ exchange ∈ x.output, exchange.2.AddressedTo x.after.app.controlAddr := by
  intro x hx
  obtain ⟨_, hstep⟩ := h.of_mem (I := fun _ => True) (fun _ _ _ _ _ _ => trivial) trivial hx
  have hnone : (x.before.turn x.input.elapsed).Addressed := nofun
  exact hnone.turns (Tui.step_turns hstep)

/-- With every press of Enter that is for a room one is asked for; beside these
the client founds a room by itself at most once. -/
theorem rooms_founded (h : TuiRun config now tr tui) :
    roomsCreated (runAsked tr) ≤ 1 + tr.countP (presses .enter) ∧
      ∃ founded ≤ 1, roomsCreated (runAsked tr) = tr.countP roomPress + founded := by
  have hcount : tr.countP roomPress ≤ roomsCreated (runAsked tr) ∧
      roomsCreated (runAsked tr) + tui.app.mayFound ≤ 1 + tr.countP roomPress := by
    refine Trace.snoc_induction (P := fun tr tui => tr.countP roomPress ≤ roomsCreated (runAsked tr) ∧
      roomsCreated (runAsked tr) + tui.app.mayFound ≤ 1 + tr.countP roomPress)
      ⟨le_rfl, le_rfl⟩ ?_ h
    intro tr x _ hstep ih
    have hle := step_roomsCreated_le hstep
    have hge := roomPress_le hstep
    have hone : [x].countP roomPress = (roomPress x).toNat := by
      cases hpress : roomPress x <;> simp [hpress]
    rw [runAsked_snoc, roomsCreated_append, List.countP_append, hone]
    omega
  have hpresses : tr.countP roomPress ≤ tr.countP (presses .enter) :=
    List.countP_mono_left fun x _ hpress => (Bool.and_eq_true_iff.mp hpress).1
  exact ⟨by omega, roomsCreated (runAsked tr) - tr.countP roomPress, by omega, by omega⟩

end

/-- A daemon that does not answer, although it starts when launched. -/
def silentWorld : World where
  reply _ _ _ := (.error "connection refused", 0)
  spawn _ _ _ := (none, 0)
  pipe _ _ _ _ := (none, 0)

def pressSilent (key : Char) (elapsed : Nat) : TuiInput :=
  .event silentWorld elapsed (.key true (.char key))

/-- The client launches a daemon, and the user then asks twice, too early once. -/
def launchedTwice : List TuiInput :=
  [.start silentWorld, .poll silentWorld 0, pressSilent 'I' nanosPerSecond,
    pressSilent 's' nanosPerSecond, pressSilent 's' nanosPerSecond]

theorem launches_bounded_twice : ∃ (tr : List TuiTransition) (tui : Tui),
    TuiRun plainConfig 0 tr tui ∧
      launchTimes (runAsked tr) = [2 * nanosPerSecond, 4 * nanosPerSecond] ∧
      (launchTimes (runAsked tr)).Pairwise (fun a b => a + 2 * nanosPerSecond ≤ b) ∧
      (launchTimes (runAsked tr)).length ≤ 1 + 2 * tr.countP launchPress := by
  have hrun : (execute Tui.step (Tui.new plainConfig 0) launchedTwice).map
      (fun r => launchTimes (runAsked r.1)) = some [2 * nanosPerSecond, 4 * nanosPerSecond] := by
    decide +kernel
  obtain ⟨r, hr, htimes⟩ := Option.map_eq_some_iff.mp hrun
  exact ⟨r.1, r.2, execute_trace hr, htimes, launches_bounded (execute_trace hr)⟩

/-- A status of a session without a room, which founding one does not change. -/
def roomlessWorld : World :=
  steadyWorld
    { friendsStatus ["ann"] with
      session := { roomName := none, displayName := "me", selfMuted := false } }

/-- The client founds a room, and the user then asks for two: one is typed, the
other is selected. -/
def roomsAsked : List TuiInput :=
  let press (key : KeyCode) : TuiInput := .event roomlessWorld 0 (.key true key)
  [.start roomlessWorld, .poll roomlessWorld nanosPerSecond, press (.char 'O'), press (.char 'R'),
    press (.char '2'), press .enter, press .enter]

theorem rooms_founded_roomless : ∃ (tr : List TuiTransition) (tui : Tui),
    TuiRun plainConfig 0 tr tui ∧ roomsCreated (runAsked tr) = 3 ∧ tr.countP roomPress = 2 ∧
      roomsCreated (runAsked tr) ≤ 1 + tr.countP (presses .enter) := by
  have hrun : (execute Tui.step (Tui.new plainConfig 0) roomsAsked).map
      (fun r => (roomsCreated (runAsked r.1), r.1.countP roomPress)) = some (3, 2) := by
    decide +kernel
  obtain ⟨r, hr, hseen⟩ := Option.map_eq_some_iff.mp hrun
  obtain ⟨hrooms, hpresses⟩ := Prod.mk.inj hseen
  exact ⟨r.1, r.2, execute_trace hr, hrooms, hpresses, (rooms_founded (execute_trace hr)).1⟩

/-- The first friend is removed, after which the status is fetched. -/
def friendRemovedByKey : List TuiInput :=
  let both := friendsStatus ["ann", "bob"]
  [.start (steadyWorld both), .poll (steadyWorld both) 0, press both (.char 'F'),
    press both (.char 'D')]

theorem requests_offered_forget : ∃ (tr : List TuiTransition) (tui : Tui),
    TuiRun plainConfig 0 tr tui ∧
      requestsIn (runAsked tr) = [.getStatus, .peers (.forgetKnownPeer "ann"), .getStatus] ∧
      ∀ x ∈ tr, RequestsOffered x.before.app x.output := by
  have hrun : (execute Tui.step (Tui.new plainConfig 0) friendRemovedByKey).map
      (fun r => requestsIn (runAsked r.1)) =
        some [.getStatus, .peers (.forgetKnownPeer "ann"), .getStatus] := by
    decide +kernel
  obtain ⟨r, hr, hrequests⟩ := Option.map_eq_some_iff.mp hrun
  exact ⟨r.1, r.2, execute_trace hr, hrequests, requests_offered (execute_trace hr)⟩

/-- A digit is typed after the address, which takes the client to another daemon. -/
def readdressed : List TuiInput :=
  let status := friendsStatus []
  [.start silentWorld, press status (.char 'I'), press status (.char 'e'), press status (.char '0'),
    press status .enter]

theorem exchanges_addressed_typed : ∃ (tr : List TuiTransition) (tui : Tui),
    TuiRun plainConfig 0 tr tui ∧ tui.app.controlAddr = "127.0.0.1:77670" ∧
      requestsIn (runAsked tr) = [.getStatus] ∧
      ∀ x ∈ tr, ∀ exchange ∈ x.output, exchange.2.AddressedTo x.after.app.controlAddr := by
  have hrun : (execute Tui.step (Tui.new plainConfig 0) readdressed).map
      (fun r => (r.2.app.controlAddr, requestsIn (runAsked r.1))) =
        some ("127.0.0.1:77670", [.getStatus]) := by
    decide +kernel
  obtain ⟨r, hr, hseen⟩ := Option.map_eq_some_iff.mp hrun
  obtain ⟨haddr, hrequests⟩ := Prod.mk.inj hseen
  exact ⟨r.1, r.2, execute_trace hr, haddr, hrequests, exchanges_addressed (execute_trace hr)⟩

end Voicers
