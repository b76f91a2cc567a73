import Voicers.Network.Invite

/-! The control requests that enter, rename or invite (`app.rs`), and a daemon
that serves them over its restarts. A request and the save that follows it are
two steps, and others may come between them. -/

namespace Voicers

open Lib

inductive ControlResponse
  | ack (message : String)
  | error (message : String)
deriving DecidableEq

/-- What `JoinPeer` does with its argument: the invite whose addresses are
noted, the room that is entered and what is dialed. -/
structure JoinPlan where
  hints : Option CompactInviteV1
  adoptedRoom : Option String
  dialTarget : String

/-- A room invite without addresses is dialed by its code, or by its room once
the code has expired. -/
def codeTarget (invite : CompactInviteV1) (nowMs : Nat) : Option String :=
  match invite.kind with
  | .directCall => none
  | .room =>
    if invite.addrs = [] then
      (invite.inviteCode.filter fun _ =>
        decide (nowMs < invite.expiresAtMs.getD (2 ^ 64 - 1))).or invite.roomName
    else none

def handleJoinPeer (json : InviteJson) (address : String) (nowMs : Nat) : JoinPlan :=
  match parseJoinTarget json address with
  | .raw target => { hints := none, adoptedRoom := none, dialTarget := target }
  | .invite invite =>
    { hints := some invite
      adoptedRoom := if invite.kind = .room then invite.roomName else none
      dialTarget := (codeTarget invite nowMs).getD invite.peerId }

namespace InviteState

def handleCreateRoom (lib : Libp2p) (json : InviteJson) (s : InviteState)
    (roomName inviteCode : String) (expiresAtMs : Nat) : ControlResponse × InviteState :=
  (.ack ("room set to " ++ normalizeRoomName roomName),
    (s.createRoom roomName inviteCode expiresAtMs).updateShareInvite lib json)

/-- The rooms after `JoinPeer`, before the dial. -/
def join (s : InviteState) (plan : JoinPlan) : InviteState :=
  match plan.adoptedRoom with
  | none => s
  | some roomName => s.adoptRoomInvite roomName

def handleSetDisplayName (s : InviteState) (displayName : String) :
    ControlResponse × InviteState :=
  (if trim displayName = "" then .error "display name cannot be empty"
    else .ack ("nickname set to " ++ trim displayName),
    s.setDisplayName displayName)

def rotateResponse (s : InviteState) (inviteCode : String) : ControlResponse :=
  match s.customRoom with
  | none => .error "room invite rotation requires a custom room name"
  | some roomName =>
    if roomHasPermission s.rooms roomName s.localPeerId .createRoomInvite then
      .ack ("room invite rotated to " ++ inviteCode)
    else .error "only room admins can create room invites"

def handleRotateInviteCode (lib : Libp2p) (json : InviteJson) (s : InviteState)
    (inviteCode : String) (expiresAtMs : Nat) : ControlResponse × InviteState :=
  (s.rotateResponse inviteCode, s.rotateInviteCode lib json inviteCode expiresAtMs)

/-- The status after an event of the network task that concerns addresses. -/
def handleSwarm {lib : Libp2p} (json : InviteJson) (s : InviteState) (event : InviteEvent lib) :
    InviteState :=
  match event with
  | .expiredListenAddr _ => s
  | .newExternalAddrCandidate address =>
    if isShareableMultiaddr lib address.components then
      updateShareInvite lib json (s.handleAddress event)
    else s
  | _ => updateShareInvite lib json (s.handleAddress event)

end InviteState

/-- The state file of a status; the peer book is given. -/
def persistedStateFromStatus (s : InviteState) (book : PersistedState) : StateFile :=
  { book with
    localDisplayName := some s.displayName
    rooms := s.rooms
    lastShareInvite := s.directCallInvite }

/-- A daemon over its lives: `started` once it has its identity, with all the
state files written so far. -/
structure RoomDaemon where
  status : InviteState
  started : Bool
  files : List StateFile

/-- A `saveNetwork` takes the rooms of the file it replaces. A start reads some
file written before, or none. -/
inductive RoomEvent (lib : Libp2p)
  | swarm (event : InviteEvent lib)
  | createRoom (roomName inviteCode : String) (expiresAtMs : Nat)
  | joinPeer (address : String) (nowMs : Nat)
  | setDisplayName (displayName : String)
  | rotateInviteCode (inviteCode : String) (expiresAtMs : Nat)
  | saveFull (book : PersistedState)
  | saveNetwork (network : NetworkSummary) (existing : Option Nat)
  | restart (file : Option Nat) (displayName : String)
  | assignLocalPeerId (localPeerId : String)

namespace RoomDaemon

def start (displayName : String) : RoomDaemon where
  status := .load .default displayName
  started := false
  files := []

def fileAt (d : RoomDaemon) : Option Nat → Option StateFile
  | none => some .default
  | some index => d.files[index]?

def serve (d : RoomDaemon) (response : Option ControlResponse) (status : InviteState) :
    Option (Option ControlResponse × RoomDaemon) :=
  if d.started then some (response, { d with status := status }) else none

def write (d : RoomDaemon) (file : StateFile) : RoomDaemon := { d with files := d.files ++ [file] }

/-- The answer to `JoinPeer` is that of the dial, which the network task gives. -/
def step (json : InviteJson) {lib : Libp2p} (d : RoomDaemon) :
    RoomEvent lib → Option (Option ControlResponse × RoomDaemon)
  | .swarm event => some (none, { d with status := d.status.handleSwarm json event })
  | .createRoom roomName inviteCode expiresAtMs =>
    let served := d.status.handleCreateRoom lib json roomName inviteCode expiresAtMs
    d.serve (some served.1) served.2
  | .joinPeer address nowMs => d.serve none (d.status.join (handleJoinPeer json address nowMs))
  | .setDisplayName displayName =>
    let served := d.status.handleSetDisplayName displayName
    d.serve (some served.1) served.2
  | .rotateInviteCode inviteCode expiresAtMs =>
    let served := d.status.handleRotateInviteCode lib json inviteCode expiresAtMs
    d.serve (some served.1) served.2
  | .saveFull book =>
    if d.started then some (none, d.write (persistedStateFromStatus d.status book)) else none
  | .saveNetwork network existing =>
    (d.fileAt existing).map fun file =>
      (none, d.write (networkState file network d.status.directCallInvite))
  | .restart index displayName =>
    (d.fileAt index).map fun file =>
      (none, { d with status := .load file displayName, started := false })
  | .assignLocalPeerId localPeerId =>
    if d.started = false ∧ localPeerId ≠ "" then
      some (none, { d with status := d.status.assignLocalPeerId localPeerId, started := true })
    else none

end RoomDaemon

abbrev RoomTransition (lib : Libp2p) :=
  Transition RoomDaemon (RoomEvent lib) (Option ControlResponse)

abbrev RoomRun (json : InviteJson) {lib : Libp2p} (displayName : String)
    (tr : List (RoomTransition lib)) (d : RoomDaemon) : Prop :=
  Trace (RoomDaemon.step json) (RoomDaemon.start displayName) tr d

end Voicers
