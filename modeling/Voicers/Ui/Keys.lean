import Voicers.Lib.Trace
import Voicers.Ui.Client

/-! What the keys do (`main.rs` of the client), and the loop that reads them.
Between two events the loop fetches the status, when half a second has gone by
since it last did. -/

namespace Voicers

open Lib

def globalScreenHotkey : KeyCode → Option Screen
  | .char 'M' => some .main
  | .char 'O' => some .rooms
  | .char 'A' => some .calls
  | .char 'F' => some .knownPeers
  | .char 'P' => some .peers
  | .char 'I' => some .config
  | .char 'S' => some .seenUsers
  | .char 'N' => some .discoveredPeers
  | _ => none

def tabScreens : List Screen :=
  [.main, .rooms, .calls, .knownPeers, .peers, .config, .seenUsers, .discoveredPeers]

/-- `String::pop`. -/
def popChar (text : String) : String := String.ofList text.toList.dropLast

namespace UiApp

variable (app : UiApp)

def activeTabScreen : Screen :=
  match app.screen with
  | .help => app.previousScreen
  | screen => screen

def navigateToScreen (now : Nat) (screen : Screen) : UiApp :=
  if app.screen = screen then app.setFlash now (defaultFlash screen)
  else
    ({ app with
      previousScreen := if app.screen = Screen.help then screen else app.screen
      screen := screen }.clampForScreen screen).setFlash now (defaultFlash screen)

def cycleTab (now : Nat) (forward : Bool) : UiApp :=
  let index := (tabScreens.findIdx? (· = app.activeTabScreen)).getD 0
  let nextIndex :=
    if forward then (index + 1) % tabScreens.length
    else if index = 0 then tabScreens.length - 1
    else index - 1
  app.navigateToScreen now (tabScreens.getD nextIndex .main)

/-- The letter of a screen, on the screens that have one for it. -/
def openScreen (now : Nat) (screen : Screen) : UiApp :=
  ({ app with screen := screen }.clampForScreen screen).setFlash now (defaultFlash screen)

def openHelp (now : Nat) (screen : Screen) : UiApp :=
  { app with previousScreen := screen, screen := .help }.setFlash now (defaultFlash .help)

def closeHelp (now : Nat) : UiApp :=
  { app with screen := app.previousScreen }.setFlash now (defaultFlash app.previousScreen)

def openJoinDialog : UiApp :=
  { app with dialInput := "", inputMode := .dial }.setFlashPersistent
    "paste an invite code and press Enter"

def openRenameSelf : UiApp :=
  let name := (app.status.map fun status => status.session.displayName).getD ""
  { app with renameInput := name, inputMode := .renameSelf }.setFlashPersistent
    "rename yourself and press Enter"

def toggleRoom (roomName : String) : UiApp :=
  { app with
    expandedMainRooms :=
      if roomName ∈ app.expandedMainRooms then app.expandedMainRooms.erase roomName
      else insert roomName app.expandedMainRooms }.clampMainSelection

def toggleCalls : UiApp := { app with expandedMainCalls := !app.expandedMainCalls }.clampMainSelection

/-- A peer of the main screen, selected on the screen that lists it. -/
def showPeer (now : Nat) (screen : Screen) (listing : List PeerSummary) (peer : PeerSummary) :
    UiApp :=
  let shown := { app with screen := screen }
  let selected :=
    match listing.findIdx? (·.peerId = peer.peerId) with
    | some index => shown.setSelected index screen
    | none => shown
  selected.setFlash now (defaultFlash screen)

def activateSelectedMainItem (now : Nat) : UiApp :=
  match app.mainItems[app.selectedMainItem]? with
  | none => app
  | some (.roomGroup roomName _) => app.toggleRoom roomName
  | some (.callsGroup _) => app.toggleCalls
  | some (.roomPeer _ peer) => app.showPeer now .peers app.voicePeers peer
  | some (.callPeer peer) => app.showPeer now .calls app.callPeers peer

def appendInputValue (mode : InputMode) (value : String) : UiApp :=
  match mode with
  | .dial => { app with dialInput := app.dialInput ++ value }
  | .room => { app with roomInput := app.roomInput ++ value }
  | .controlAddr => { app with controlAddr := app.controlAddr ++ value }
  | .renameSelf | .renameKnownPeer => { app with renameInput := app.renameInput ++ value }
  | .normal => app

def popInputValue : InputMode → UiApp
  | .dial => { app with dialInput := popChar app.dialInput }
  | .room => { app with roomInput := popChar app.roomInput }
  | .controlAddr => { app with controlAddr := popChar app.controlAddr }
  | .renameSelf | .renameKnownPeer => { app with renameInput := popChar app.renameInput }
  | .normal => app

def handlePasteInput (text : String) : UiApp :=
  if app.inputMode = .normal then app else app.appendInputValue app.inputMode text

/-- The change of the selected setting that is asked for. -/
def adjustedConfig (deltaPercent : Int) : Option ClientRequest :=
  match app.configItems[app.selectedConfigItem]? with
  | some .inputGain =>
    let current := (app.status.map ClientStatus.inputGainPercent).getD 100
    some (.setInputGainPercent (UInt8.ofNat (adjustPercent current deltaPercent)))
  | some (.peerVolume peerId) =>
    let peers := app.listed fun status => status.peers
    let current := ((peers.find? (·.peerId = peerId)).map PeerSummary.outputVolumePercent).getD 100
    some (.peers (.setPeerVolumePercent peerId (UInt8.ofNat (adjustPercent current deltaPercent))))
  | _ => none

def activatedConfig : Option ClientRequest :=
  match app.configItems[app.selectedConfigItem]? with
  | some (.captureDevice deviceName) => some (.selectCaptureDevice deviceName)
  | _ => none

def firstPending : Option PendingPeerApprovalSummary :=
  (app.listed fun status => status.pendingPeerApprovals).head?

def toggledTrust (peer : KnownPeerSummary) : ClientRequest :=
  .peers (if peer.trustedContact then .unmarkTrustedContact peer.peerId
    else .markTrustedContact peer.peerId)

end UiApp

namespace Turn

variable (w : World) (t : Turn)

def performIfAny : Option ClientRequest → Turn
  | none => t
  | some request => t.perform w request

def approveFirstPendingPeer (whitelist : Bool) : Turn :=
  t.performOn w "no pending peer approvals"
    (t.app.firstPending.map fun pending => .peers (.approvePendingPeer pending.peerId whitelist))

def rejectFirstPendingPeer : Turn :=
  t.performOn w "no pending peer approvals"
    (t.app.firstPending.map fun pending => .peers (.rejectPendingPeer pending.peerId))

/-- A launch of the user, after which the status is fetched. -/
def launch : Turn := (t.launchDaemon w false).2.refreshStatus w

def handleMainKey : KeyCode → Turn
  | .enter => t.edit fun app => app.activateSelectedMainItem t.clock
  | _ => t

def handlePeersKey : KeyCode → Turn
  | .char 'x' =>
    t.performOn w "no peer selected" (t.app.selectedPeerId.map fun id => .peers (.toggleMutePeer id))
  | .char 'a' =>
    t.performOn w "no live peer selected"
      (t.app.selectedPeerId.map fun id => .peers (.saveKnownPeer id))
  | _ => t

def handleRoomsKey : KeyCode → Turn
  | .char 'i' =>
    t.copyInvite w
      ((t.app.status.bind preferredClipboardInvite).getD "no room invite available yet")
      "room invite copied to clipboard"
  | .char 'R' =>
    t.edit fun app => { app with inputMode := .room }.setFlashPersistent
      "enter room name and press Enter"
  | .char 'm' => t.perform w .toggleMuteSelf
  | .char 'u' => t.edit UiApp.openRenameSelf
  | .char 'C' => t.perform w (.peers .rotateInviteCode)
  | .char 'y' => t.approveFirstPendingPeer w false
  | .char 'w' => t.approveFirstPendingPeer w true
  | .char 'n' => t.rejectFirstPendingPeer w
  | .enter =>
    t.performOn w "no room selected"
      (t.app.rooms[t.app.selectedRoom]?.map fun room => .createRoom room.name)
  | _ => t

def handleCallsKey : KeyCode → Turn
  | .char 'x' =>
    t.performOn w "no call selected"
      (t.app.selectedCallPeer.map fun peer => .peers (.toggleMutePeer peer.peerId))
  | .char 'a' =>
    t.performOn w "no call selected"
      (t.app.selectedCallPeer.map fun peer => .peers (.saveKnownPeer peer.peerId))
  | .char 'i' =>
    t.copyInvite w
      ((t.app.status.bind preferredCallInvite).getD "no direct-call invite available yet")
      "direct-call invite copied to clipboard"
  | _ => t

def handleConfigKey : KeyCode → Turn
  | .char 's' => t.launch w
  | .char 'e' =>
    t.edit fun app => { app with inputMode := .controlAddr }.setFlashPersistent
      "edit control addr and press Enter"
  | .char 'h' | .left => t.performIfAny w (t.app.adjustedConfig (-5))
  | .char 'l' | .right => t.performIfAny w (t.app.adjustedConfig 5)
  | .enter => t.performIfAny w t.app.activatedConfig
  | _ => t

def handleKnownPeersKey : KeyCode → Turn
  | .char 'u' => t.edit UiApp.openRenameSelf
  | .char 's' => t.launch w
  | .enter | .char 'd' => t.reconnect w "no friend selected" t.app.selectedKnownPeer?
  | .char 'D' =>
    t.performOn w "no friend selected"
      (t.app.selectedKnownPeer?.map fun peer => .peers (.forgetKnownPeer peer.peerId))
  | .char 't' => t.performOn w "no friend selected" (t.app.selectedKnownPeer?.map UiApp.toggledTrust)
  | .char 'r' =>
    match t.app.selectedKnownPeer? with
    | some peer =>
      t.edit fun app =>
        { app with renameInput := peer.displayName, inputMode := .renameKnownPeer
        }.setFlashPersistent "rename friend and press Enter"
    | none => t.setFlash "no friend selected"
  | _ => t

def handleSeenUsersKey : KeyCode → Turn
  | .enter | .char 'd' => t.reconnect w "no seen user selected" t.app.selectedSeenUser?
  | .char 'a' =>
    t.performOn w "no seen user selected"
      (t.app.selectedSeenUser?.map fun peer => .peers (.saveKnownPeer peer.peerId))
  | _ => t

def handleDiscoveredPeersKey : KeyCode → Turn
  | .enter | .char 'd' => t.reconnect w "no network peer selected" t.app.selectedDiscoveredPeer?
  | _ => t

end Turn

/-- The keys the screens have in common: the letter that goes back to the main
screen (as does Esc where there is one), those of the other screens and those
of the join dialog. -/
structure ScreenKeys where
  screen : Screen
  back : Option Char
  links : List (Char × Screen)
  join : List Char

namespace ScreenKeys

def main : ScreenKeys where
  screen := .main
  back := none
  links := [('r', .rooms), ('l', .calls), ('p', .peers), ('o', .knownPeers), ('v', .seenUsers),
    ('t', .discoveredPeers), ('c', .config)]
  join := ['J', 'd']

def peers : ScreenKeys where
  screen := .peers
  back := some 'p'
  links := [('o', .knownPeers), ('r', .rooms), ('l', .calls), ('v', .seenUsers),
    ('t', .discoveredPeers), ('c', .config)]
  join := ['J']

def rooms : ScreenKeys where
  screen := .rooms
  back := some 'r'
  links := [('p', .peers), ('l', .calls), ('o', .knownPeers), ('v', .seenUsers),
    ('t', .discoveredPeers)]
  join := ['d', 'J']

def calls : ScreenKeys where
  screen := .calls
  back := some 'l'
  links := [('p', .peers), ('r', .rooms), ('o', .knownPeers), ('v', .seenUsers),
    ('t', .discoveredPeers)]
  join := ['J']

def config : ScreenKeys where
  screen := .config
  back := some 'c'
  links := [('p', .peers), ('o', .knownPeers), ('v', .seenUsers), ('t', .discoveredPeers)]
  join := ['J']

def knownPeers : ScreenKeys where
  screen := .knownPeers
  back := some 'o'
  links := [('p', .peers), ('v', .seenUsers), ('c', .config)]
  join := ['J']

def seenUsers : ScreenKeys where
  screen := .seenUsers
  back := some 'v'
  links := [('o', .knownPeers), ('p', .peers), ('c', .config), ('t', .discoveredPeers)]
  join := ['J']

def discoveredPeers : ScreenKeys where
  screen := .discoveredPeers
  back := some 't'
  links := [('p', .peers), ('o', .knownPeers), ('v', .seenUsers), ('c', .config)]
  join := ['J']

variable (keys : ScreenKeys)

def goesBack (key : KeyCode) : Bool :=
  keys.back.any fun letter => key = .esc ∨ key = .char letter

def link? (key : KeyCode) : Option Screen :=
  (keys.links.find? fun link => key = .char link.1).map Prod.snd

/-- Whether the key quits, and the client after it. -/
def handle (w : World) (own : Turn → KeyCode → Turn) (key : KeyCode) (t : Turn) : Bool × Turn :=
  if key = .char 'q' then (true, t)
  else if key = .char '?' then (false, t.edit fun app => app.openHelp t.clock keys.screen)
  else if keys.goesBack key then (false, t.edit fun app => app.openScreen t.clock .main)
  else if key ∈ keys.join.map KeyCode.char then (false, t.edit UiApp.openJoinDialog)
  else match keys.link? key with
  | some screen => (false, t.edit fun app => app.openScreen t.clock screen)
  | none =>
    if key = .char 'j' ∨ key = .down then (false, t.edit fun app => app.selectNext keys.screen)
    else if key = .char 'k' ∨ key = .up then
      (false, t.edit fun app => app.selectPrevious keys.screen)
    else if key = .char 'g' then
      (false, ((t.refreshStatus w).edit fun app => app.clampForScreen keys.screen).setFlash
        "status refreshed")
    else (false, own t key)

end ScreenKeys

namespace Turn

variable (w : World) (key : KeyCode) (t : Turn)

def handleMainScreen : Bool × Turn := ScreenKeys.main.handle w handleMainKey key t

def handlePeersScreen : Bool × Turn := ScreenKeys.peers.handle w (handlePeersKey w) key t

def handleRoomsScreen : Bool × Turn := ScreenKeys.rooms.handle w (handleRoomsKey w) key t

def handleCallsScreen : Bool × Turn := ScreenKeys.calls.handle w (handleCallsKey w) key t

def handleConfigScreen : Bool × Turn := ScreenKeys.config.handle w (handleConfigKey w) key t

def handleKnownPeersScreen : Bool × Turn :=
  ScreenKeys.knownPeers.handle w (handleKnownPeersKey w) key t

def handleSeenUsersScreen : Bool × Turn :=
  ScreenKeys.seenUsers.handle w (handleSeenUsersKey w) key t

def handleDiscoveredPeersScreen : Bool × Turn :=
  ScreenKeys.discoveredPeers.handle w (handleDiscoveredPeersKey w) key t

def handleHelpScreen : Bool × Turn :=
  match key with
  | .char 'q' => (true, t)
  | .char '?' | .esc =>
    (false, t.edit fun app => app.closeHelp t.clock)
  | .char 'g' => (false, (t.refreshStatus w).setFlash "status refreshed")
  | _ => (false, t)

def handleKey : Bool × Turn :=
  match globalScreenHotkey key with
  | some screen => (false, t.edit fun app => app.navigateToScreen t.clock screen)
  | none =>
    match key with
    | .tab => (false, t.edit fun app => app.cycleTab t.clock true)
    | .backTab => (false, t.edit fun app => app.cycleTab t.clock false)
    | key =>
      match t.app.screen with
      | .main => t.handleMainScreen w key
      | .peers => t.handlePeersScreen w key
      | .rooms => t.handleRoomsScreen w key
      | .calls => t.handleCallsScreen w key
      | .config => t.handleConfigScreen w key
      | .knownPeers => t.handleKnownPeersScreen w key
      | .seenUsers => t.handleSeenUsersScreen w key
      | .discoveredPeers => t.handleDiscoveredPeersScreen w key
      | .help => t.handleHelpScreen w key

/-- A request whose text was typed: the dialog closes before the status is
fetched. -/
def submit (request : ClientRequest) : Turn :=
  let asked := t.sendRequestTo w request
  ((asked.2.setFlash (renderMessage asked.1)).edit fun app =>
    { app with inputMode := .normal }).refreshStatus w

def submitInput : InputMode → Turn
  | .dial => t.submit w (.joinPeer (trim t.app.dialInput))
  | .room => t.submit w (.createRoom (trim t.app.roomInput))
  | .controlAddr =>
    ((t.edit fun app => { app with controlAddr := trim app.controlAddr }).edit fun app =>
      { app.setFlash t.clock ("control addr set to " ++ app.controlAddr) with inputMode := .normal }
    ).refreshStatus w
  | .renameSelf => t.submit w (.peers (.setDisplayName (trim t.app.renameInput)))
  | .renameKnownPeer =>
    match t.app.selectedKnownPeer? with
    | none =>
      (t.setFlash "no friend selected").edit fun app => { app with inputMode := .normal }
    | some peer => t.submit w (.peers (.renameKnownPeer peer.peerId (trim t.app.renameInput)))
  | .normal => t

def handleTextInput (mode : InputMode) : Turn :=
  match key with
  | .esc => (t.edit fun app => { app with inputMode := .normal }).setFlash "input cancelled"
  | .enter => t.submitInput w mode
  | .backspace => t.edit fun app => app.popInputValue mode
  | .char ch => t.edit fun app => app.appendInputValue mode (String.singleton ch)
  | _ => t

end Turn

/-- What the terminal reports; of a key also whether it is pressed. -/
inductive TerminalEvent
  | key (press : Bool) (code : KeyCode)
  | paste (text : String)
  | other
deriving DecidableEq

inductive TuiStage
  | starting
  | running
  | stopped
deriving DecidableEq

structure Tui where
  app : UiApp
  clock : Nat
  lastRefresh : Nat
  stage : TuiStage

/-- The start of the loop, its head, and an event it reads; some time has
passed since the last of these. -/
inductive TuiInput
  | start (w : World)
  | poll (w : World) (elapsed : Nat)
  | event (w : World) (elapsed : Nat) (event : TerminalEvent)

namespace Tui

/-- The first refresh is due at once. -/
def new (config : UiConfig) (now : Nat) : Tui where
  app := .new config
  clock := now + 2 * nanosPerSecond
  lastRefresh := now
  stage := .starting

def refreshInterval : Nat := nanosPerSecond / 2

variable (tui : Tui)

def turn (elapsed : Nat) : Turn where
  app := tui.app
  clock := tui.clock + elapsed
  asked := []

/-- The client after a turn, and what was asked in it. -/
def finish (t : Turn) : List (Nat × Exchange) × Tui :=
  (t.asked, { tui with app := t.app, clock := t.clock })

def startTurn (w : World) : Turn :=
  let launched := (tui.turn 0).launchDaemon w true
  if launched.1 then launched.2.setFlashPersistent "starting voicers and preparing your invite"
  else launched.2

def pollTurn (w : World) (elapsed : Nat) : Bool × Turn :=
  let t := (tui.turn elapsed).edit fun app => app.restoreFlashIfExpired (tui.clock + elapsed)
  if refreshInterval ≤ t.clock - tui.lastRefresh then (true, t.refreshStatus w) else (false, t)

def eventTurn (w : World) (elapsed : Nat) (event : TerminalEvent) : Bool × Turn :=
  let t := tui.turn elapsed
  match event with
  | .key false _ | .other => (false, t)
  | .key true code =>
    match tui.app.inputMode with
    | .normal => t.handleKey w code
    | mode => (false, t.handleTextInput w code mode)
  | .paste text => (false, t.edit fun app => app.handlePasteInput text)

def step (tui : Tui) : TuiInput → Option (List (Nat × Exchange) × Tui)
  | .start w =>
    if tui.stage = .starting then
      let done := tui.finish (tui.startTurn w)
      some (done.1, { done.2 with stage := .running })
    else none
  | .poll w elapsed =>
    if tui.stage = .running then
      let outcome := tui.pollTurn w elapsed
      let done := tui.finish outcome.2
      some (done.1, if outcome.1 then { done.2 with lastRefresh := done.2.clock } else done.2)
    else none
  | .event w elapsed event =>
    if tui.stage = .running then
      let outcome := tui.eventTurn w elapsed event
      let done := tui.finish outcome.2
      some (done.1, if outcome.1 then { done.2 with stage := .stopped } else done.2)
    else none

end Tui

abbrev TuiTransition := Transition Tui TuiInput (List (Nat × Exchange))

/-- A run of the client; the events and the head of its loop come in any order. -/
abbrev TuiRun (config : UiConfig) (now : Nat) (tr : List TuiTransition) (tui : Tui) : Prop :=
  Trace Tui.step (Tui.new config now) tr tui

end Voicers
