import Voicers.App.PeerRequests
import Voicers.Ui.RoomList

/-! The state of the terminal interface (`UiApp` in `ui/model.rs` of the
client), and what it asks of the outside: the daemon, a program to start, the
clipboard. Answers take time, and no time passes otherwise while a key is
handled. Instants are in nanoseconds; paths are texts. -/

namespace Voicers

/-- What the client keeps of a status, with the audio settings it shows. -/
structure ClientStatus extends FullStatus where
  availableCaptureDevices : List String
  inputGainPercent : Nat
  directCallInvite : Option String

/-- The control requests the client sends. -/
inductive ClientRequest
  | getStatus
  | createRoom (roomName : String)
  | joinPeer (address : String)
  | toggleMuteSelf
  | setInputGainPercent (percent : UInt8)
  | selectCaptureDevice (deviceName : String)
  | peers (request : ControlRequest)
deriving DecidableEq

inductive ClientResponse
  | answered (response : ControlResponse)
  | status (status : ClientStatus)

inductive Screen
  | main
  | peers
  | rooms
  | calls
  | config
  | knownPeers
  | seenUsers
  | discoveredPeers
  | help
deriving DecidableEq

inductive InputMode
  | normal
  | dial
  | room
  | controlAddr
  | renameSelf
  | renameKnownPeer
deriving DecidableEq

inductive KeyCode
  | char (c : Char)
  | tab
  | backTab
  | enter
  | esc
  | backspace
  | up
  | down
  | left
  | right
  | other
deriving DecidableEq

inductive ConfigItem
  | inputGain
  | captureDevice (deviceName : String)
  | peerVolume (peerId : String)
deriving DecidableEq

structure DaemonLaunchState where
  attemptedAutoStart : Bool
  lastLaunchAt : Option Nat

structure UiConfig where
  controlAddr : String
  daemonBin : String

structure UiApp where
  controlAddr : String
  daemonBin : String
  status : Option ClientStatus
  flash : String
  flashUntil : Option Nat
  inputMode : InputMode
  dialInput : String
  roomInput : String
  renameInput : String
  screen : Screen
  previousScreen : Screen
  selectedPeer : Nat
  selectedMainItem : Nat
  selectedConfigItem : Nat
  selectedKnownPeer : Nat
  selectedSeenUser : Nat
  selectedDiscoveredPeer : Nat
  selectedRoom : Nat
  selectedCall : Nat
  expandedMainRooms : Finset String
  expandedMainCalls : Bool
  daemonLaunch : DaemonLaunchState
  defaultRoomInitialized : Bool

def nanosPerSecond : Nat := 1000000000

/-- `FLASH_DURATION`. -/
def flashDuration : Nat := 3 * nanosPerSecond

def defaultFlash : Screen → String
  | .main => "main | Tab/Shift+Tab cycle tabs | M/O/A/F/P/I/S/N jump tabs | Enter toggle/open"
  | .peers => "engaged users | Tab/Shift+Tab cycle tabs | x mute | a add friend"
  | .rooms => "rooms | Tab/Shift+Tab cycle tabs | J join invite | Enter enter room"
  | .calls => "calls | Tab/Shift+Tab cycle tabs | x mute | a add friend"
  | .config => "configuration | Tab/Shift+Tab cycle tabs | h/l adjust | e edit control addr"
  | .knownPeers => "friends | Tab/Shift+Tab cycle tabs | Enter reconnect | D remove | t trust toggle"
  | .seenUsers => "seen users | Tab/Shift+Tab cycle tabs | Enter reconnect | a add friend"
  | .discoveredPeers => "network peers | Tab/Shift+Tab cycle tabs | Enter inspect route candidate"
  | .help => "? or Esc closes help | Tab/Shift+Tab cycles tabs"

def adjustPercent (current : Nat) (delta : Int) : Nat := (min (max (current + delta) 0) 200).toNat

def bestKnownPeerAddress (peer : KnownPeerSummary) : Option String :=
  peer.lastDialAddr.or peer.addresses.head?

def preferredClipboardInvite (status : ClientStatus) : Option String :=
  ((status.rooms.find? RoomSummary.engaged).bind RoomSummary.currentInvite).bind
    RoomInviteSummary.shareInvite

def preferredCallInvite (status : ClientStatus) : Option String := status.directCallInvite

def renderMessage : Except String ClientResponse → String
  | .ok (.answered (.ack message)) => message
  | .ok (.answered (.error message)) => message
  | .ok (.status _) => "status updated"
  | .error error => error

/-- `clamp_selection` and its like, for a list of `len` entries. -/
def clampIndex (len index : Nat) : Nat :=
  if len = 0 then 0 else if len ≤ index then len - 1 else index

namespace UiApp

def new (config : UiConfig) : UiApp where
  controlAddr := config.controlAddr
  daemonBin := config.daemonBin
  status := none
  flash := defaultFlash .main
  flashUntil := none
  inputMode := .normal
  dialInput := "/ip4/127.0.0.1/tcp/"
  roomInput := "dev-room"
  renameInput := ""
  screen := .main
  previousScreen := .main
  selectedPeer := 0
  selectedMainItem := 0
  selectedConfigItem := 0
  selectedKnownPeer := 0
  selectedSeenUser := 0
  selectedDiscoveredPeer := 0
  selectedRoom := 0
  selectedCall := 0
  expandedMainRooms := ∅
  expandedMainCalls := true
  daemonLaunch := { attemptedAutoStart := false, lastLaunchAt := none }
  defaultRoomInitialized := false

variable (app : UiApp)

/-- What a status says, or nothing without one. -/
def listed {α : Type} (entries : ClientStatus → List α) : List α :=
  (app.status.map entries).getD []

def voicePeers : List PeerSummary := app.listed fun status => visibleVoicePeers status.toDaemonStatus

def callPeers : List PeerSummary := app.listed fun status => activeCallPeers status.toFullStatus

def rooms : List KnownRoomPreview := app.listed fun status => knownRooms status.toFullStatus

def mainItems : List MainActivityItem :=
  app.listed fun status =>
    mainActivityItems status.toFullStatus app.expandedMainRooms app.expandedMainCalls

def friends : List KnownPeerSummary := app.listed fun status => status.network.friends

def seenUsers : List KnownPeerSummary := app.listed fun status => status.network.seenUsers

def discoveredPeers : List KnownPeerSummary := app.listed fun status => status.network.discoveredPeers

def configItems : List ConfigItem :=
  .inputGain :: (app.listed (fun status => status.availableCaptureDevices)).map .captureDevice ++
    app.voicePeers.map fun peer => .peerVolume peer.peerId

/-- The length of the list a screen shows. -/
def listLength : Screen → Nat
  | .main => app.mainItems.length
  | .peers => app.voicePeers.length
  | .rooms => app.rooms.length
  | .calls => app.callPeers.length
  | .config => app.configItems.length
  | .knownPeers => app.friends.length
  | .seenUsers => app.seenUsers.length
  | .discoveredPeers => app.discoveredPeers.length
  | .help => 0

/-- The selected entry of the list a screen shows. -/
def selected : Screen → Nat
  | .main => app.selectedMainItem
  | .peers => app.selectedPeer
  | .rooms => app.selectedRoom
  | .calls => app.selectedCall
  | .config => app.selectedConfigItem
  | .knownPeers => app.selectedKnownPeer
  | .seenUsers => app.selectedSeenUser
  | .discoveredPeers => app.selectedDiscoveredPeer
  | .help => 0

def setSelected (index : Nat) : Screen → UiApp
  | .main => { app with selectedMainItem := index }
  | .peers => { app with selectedPeer := index }
  | .rooms => { app with selectedRoom := index }
  | .calls => { app with selectedCall := index }
  | .config => { app with selectedConfigItem := index }
  | .knownPeers => { app with selectedKnownPeer := index }
  | .seenUsers => { app with selectedSeenUser := index }
  | .discoveredPeers => { app with selectedDiscoveredPeer := index }
  | .help => app

def clampForScreen (screen : Screen) : UiApp :=
  app.setSelected (clampIndex (app.listLength screen) (app.selected screen)) screen

def clampSelection : UiApp := app.clampForScreen .peers
def clampConfigSelection : UiApp := app.clampForScreen .config
def clampMainSelection : UiApp := app.clampForScreen .main
def clampRoomSelection : UiApp := app.clampForScreen .rooms
def clampCallSelection : UiApp := app.clampForScreen .calls
def clampKnownPeerSelection : UiApp := app.clampForScreen .knownPeers
def clampSeenUserSelection : UiApp := app.clampForScreen .seenUsers
def clampDiscoveredPeerSelection : UiApp := app.clampForScreen .discoveredPeers

def selectedPeerId : Option String := (app.voicePeers[app.selectedPeer]?).map PeerSummary.peerId

def selectedCallPeer : Option PeerSummary := app.callPeers[app.selectedCall]?

def selectedKnownPeer? : Option KnownPeerSummary := app.friends[app.selectedKnownPeer]?

def selectedSeenUser? : Option KnownPeerSummary := app.seenUsers[app.selectedSeenUser]?

def selectedDiscoveredPeer? : Option KnownPeerSummary := app.discoveredPeers[app.selectedDiscoveredPeer]?

/-- The keys `j` and `k` of a screen. -/
def selectNext (screen : Screen) : UiApp :=
  if 0 < app.listLength screen then
    app.setSelected (min (app.selected screen + 1) (app.listLength screen - 1)) screen
  else app

def selectPrevious (screen : Screen) : UiApp :=
  if 0 < app.selected screen then app.setSelected (app.selected screen - 1) screen else app

def setFlashPersistent (message : String) : UiApp := { app with flash := message, flashUntil := none }

def setFlash (now : Nat) (message : String) : UiApp :=
  { app with flash := message, flashUntil := some (now + flashDuration) }

def restoreFlashIfExpired (now : Nat) : UiApp :=
  if app.flashUntil.any (· ≤ now) then { app with flash := defaultFlash app.screen, flashUntil := none }
  else app

/-- With none expanded the engaged rooms are; else those that are gone are
forgotten. -/
def syncMainExpansions : UiApp :=
  match app.status with
  | none => app
  | some status =>
    if app.expandedMainRooms = ∅ then
      { app with expandedMainRooms := (engagedRooms status.toFullStatus).toFinset }
    else
      { app with
        expandedMainRooms := app.expandedMainRooms.filter fun roomName =>
          roomName ∈ status.rooms.map RoomSummary.name }

/-- A status that has come. -/
def acceptStatus (status : ClientStatus) : UiApp :=
  { app with status := some status }.syncMainExpansions.clampSelection.clampConfigSelection
    |>.clampMainSelection.clampRoomSelection.clampCallSelection.clampKnownPeerSelection
    |>.clampSeenUserSelection.clampDiscoveredPeerSelection

def withoutStatus : UiApp := { app with status := none }

def launchAttempted : UiApp :=
  { app with daemonLaunch := { app.daemonLaunch with attemptedAutoStart := true } }

def roomInitialized : UiApp := { app with defaultRoomInitialized := true }

end UiApp

/-- A question the client has put to the outside, with its answer: a request,
the start of a daemon, a program fed with a text. -/
inductive Exchange
  | request (controlAddr : String) (request : ClientRequest) (reply : Except String ClientResponse)
  | launch (daemonBin : String) (args : List String) (error : Option String)
  | pipe (program : String) (args : List String) (value : String) (error : Option String)

/-- What the outside answers and how long that takes, after what was asked
before at the given times. -/
structure World where
  reply : List (Nat × Exchange) → String → ClientRequest → Except String ClientResponse × Nat
  spawn : List (Nat × Exchange) → String → List String → Option String × Nat
  pipe : List (Nat × Exchange) → String → List String → String → Option String × Nat

/-- The client while it handles something, with what it has asked so far. -/
structure Turn where
  app : UiApp
  clock : Nat
  asked : List (Nat × Exchange)

def defaultRoomName : String := "main"

/-- What `parse_args` of the daemon is given. -/
def launchArgs (controlAddr : String) : List String := ["--control-addr", controlAddr]

def clipboardCommands : List (String × List String) :=
  [("wl-copy", []), ("xclip", ["-selection", "clipboard"]), ("xsel", ["--clipboard", "--input"]),
    ("pbcopy", []), ("clip.exe", [])]

namespace Turn

variable (w : World) (t : Turn)

def edit (f : UiApp → UiApp) : Turn := { t with app := f t.app }

def setFlash (message : String) : Turn := t.edit fun app => app.setFlash t.clock message

def setFlashPersistent (message : String) : Turn := t.edit fun app => app.setFlashPersistent message

/-- A question with its answer, which took some time. -/
def note (exchange : Exchange) (delay : Nat) : Turn :=
  { t with clock := t.clock + delay, asked := t.asked ++ [(t.clock, exchange)] }

def sendRequestTo (request : ClientRequest) : Except String ClientResponse × Turn :=
  let reply := w.reply t.asked t.app.controlAddr request
  (reply.1, t.note (.request t.app.controlAddr request reply.1) reply.2)

def spawnDaemon : Option String × Turn :=
  let args := launchArgs t.app.controlAddr
  let outcome := w.spawn t.asked t.app.daemonBin args
  (outcome.1, t.note (.launch t.app.daemonBin args outcome.1) outcome.2)

def writeToCommandStdin (program : String) (args : List String) (value : String) :
    Option String × Turn :=
  let outcome := w.pipe t.asked program args value
  (outcome.1, t.note (.pipe program args value outcome.1) outcome.2)

/-- The commands are tried in turn; the error is that of the last. -/
def copyToClipboard (value : String) :
    List (String × List String) → Option String → Turn → Option String × Turn
  | [], lastError, t => (some (lastError.getD "no clipboard command available"), t)
  | (program, args) :: rest, _, t =>
    let outcome := t.writeToCommandStdin w program args value
    match outcome.1 with
    | none => (none, outcome.2)
    | some error => copyToClipboard value rest (some (program ++ ": " ++ error)) outcome.2

/-- An invite copied, or shown when that fails. -/
def copyInvite (invite copied : String) : Turn :=
  let outcome := copyToClipboard w invite clipboardCommands none t
  match outcome.1 with
  | none => outcome.2.setFlash copied
  | some error =>
    outcome.2.setFlash ("clipboard copy failed: " ++ error ++ "; invite: " ++ invite)

/-- The daemon is not launched again within two seconds, nor on its own after
an attempt. -/
def launchRefused (auto : Bool) : Bool :=
  (auto && t.app.daemonLaunch.attemptedAutoStart) ||
    t.app.daemonLaunch.lastLaunchAt.any fun launched => t.clock - launched < 2 * nanosPerSecond

/-- An attempt and its time are noted; a failed one of the user frees the next
of the client. -/
def noteLaunch (auto : Bool) (error : Option String) (now : Nat) (launch : DaemonLaunchState) :
    DaemonLaunchState where
  attemptedAutoStart := if error.isNone then launch.attemptedAutoStart || auto else auto
  lastLaunchAt := some now

def attemptLaunch (auto : Bool) : Option String × Turn :=
  let outcome := t.spawnDaemon w
  (outcome.1, outcome.2.edit fun app =>
    { app with daemonLaunch := noteLaunch auto outcome.1 outcome.2.clock app.daemonLaunch })

def launchDaemon (auto : Bool) : Bool × Turn :=
  if t.launchRefused auto then (false, t)
  else
    let outcome := t.attemptLaunch w auto
    match outcome.1 with
    | none =>
      (true, if auto then outcome.2
        else outcome.2.setFlash ("launched daemon via " ++ outcome.2.app.daemonBin))
    | some error =>
      (false, outcome.2.setFlashPersistent
        ("failed to launch daemon via " ++ outcome.2.app.daemonBin ++ ": " ++ error))

/-- A room for a session without one, once. -/
def ensureDefaultRoom : Turn :=
  let needsRoom := t.app.status.any fun status => status.session.roomName.isNone
  let initialized := t.edit UiApp.roomInitialized
  if !needsRoom then initialized
  else if t.app.defaultRoomInitialized then t
  else
    let created := initialized.sendRequestTo w (.createRoom defaultRoomName)
    match created.1 with
    | .ok (.answered (.ack _)) =>
      let refreshed := created.2.sendRequestTo w .getStatus
      match refreshed.1 with
      | .ok (.status status) => refreshed.2.edit fun app => app.acceptStatus status
      | _ => refreshed.2
    | _ => created.2

def refreshStatus : Turn :=
  let asked := t.sendRequestTo w .getStatus
  match asked.1 with
  | .ok (.status status) =>
    ((asked.2.edit fun app => app.acceptStatus status).edit UiApp.launchAttempted).ensureDefaultRoom w
  | .ok other => asked.2.setFlash (renderMessage (.ok other))
  | .error error =>
    let launch := (asked.2.edit UiApp.withoutStatus).launchDaemon w true
    let app := launch.2.app
    if launch.1 then
      launch.2.setFlashPersistent
        ("starting daemon at " ++ app.controlAddr ++ " via " ++ app.daemonBin)
    else
      launch.2.setFlashPersistent
        ("daemon unavailable at " ++ app.controlAddr ++ ": " ++ error ++ " | press s to launch")

/-- A request of the user: its answer is shown and the status fetched. -/
def perform (request : ClientRequest) : Turn :=
  let asked := t.sendRequestTo w request
  (asked.2.setFlash (renderMessage asked.1)).refreshStatus w

/-- A request about something selected. -/
def performOn (missing : String) : Option ClientRequest → Turn
  | none => t.setFlash missing
  | some request => t.perform w request

/-- A contact is dialed by its id when an address of it is known. -/
def reconnect (missing : String) : Option KnownPeerSummary → Turn
  | none => t.setFlash missing
  | some peer =>
    if (bestKnownPeerAddress peer).isNone then
      t.setFlash (peer.displayName ++ " has no saved dial address")
    else t.perform w (.joinPeer peer.peerId)

end Turn

end Voicers
