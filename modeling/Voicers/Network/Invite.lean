import Voicers.App.Rooms
import Voicers.Lib.Trace
import Voicers.Network.CompactInvite
import Voicers.Persist.Saves

/-! The invites a daemon shows and publishes (`network/invite.rs`) and all
that changes them: the address events of the swarm
(`network/swarm_events.rs`), the steps of the start (`App::bootstrap`) and
the control requests (`app.rs`), in any order. -/

namespace Voicers

open Lib

structure Multiaddr (lib : Libp2p) where
  text : String
  components : List Protocol
  parsed : lib.parseMultiaddr text = some components

/-- The text of the identity the swarm is built with. -/
structure LocalPeerId where
  text : String
  trimmed : trim text = text
  ne_starting : text ≠ "<starting>"
  ne_empty : text ≠ ""

/-- What the invites in the status depend on, and the invites. -/
structure InviteState where
  localPeerId : String
  roomName : Option String
  displayName : String
  rooms : List RoomSummary
  externalAddrs : List String
  observedAddrs : List String
  listenAddrs : List String
  directCallInvite : Option String
deriving DecidableEq

/-- The status as the start reads it from the state file. -/
def InviteState.load (file : StateFile) (displayName : String) : InviteState where
  localPeerId := "<starting>"
  roomName := none
  displayName := file.localDisplayName.getD displayName
  rooms := file.rooms
  externalAddrs := []
  observedAddrs := []
  listenAddrs := []
  directCallInvite := file.lastShareInvite

def maxShareInviteAddrs : Nat := 4

def collectShareableInviteAddrs (lib : Libp2p) (localPeerId : String) (dest : List String) :
    List String → List String
  | [] => dest
  | address :: rest =>
    if dest.length ≥ maxShareInviteAddrs then dest
    else match shareableAddress lib address localPeerId with
      | none => collectShareableInviteAddrs lib localPeerId dest rest
      | some shareable =>
        collectShareableInviteAddrs lib localPeerId (pushUnique dest shareable) rest

namespace InviteState

def listedAddrs (s : InviteState) : List String :=
  s.externalAddrs ++ s.observedAddrs ++ s.listenAddrs

/-- The addresses of an invite, in the order external, observed, listen. -/
def inviteAddrs (lib : Libp2p) (s : InviteState) : List String :=
  let addrs := collectShareableInviteAddrs lib s.localPeerId [] s.externalAddrs
  let addrs := collectShareableInviteAddrs lib s.localPeerId addrs s.observedAddrs
  collectShareableInviteAddrs lib s.localPeerId addrs s.listenAddrs

def bestDirectCallInvite (lib : Libp2p) (json : InviteJson) (s : InviteState) : Option String :=
  let addrs := s.inviteAddrs lib
  if addrs = [] then none else some (encodePeerCompactInvite json s.localPeerId addrs none none)

def bestRoomInvite (lib : Libp2p) (json : InviteJson) (s : InviteState) (roomName : String)
    (roomInvite : RoomInviteSummary) : Option String :=
  let addrs := s.inviteAddrs lib
  if addrs = [] ∨ trim roomInvite.inviteCode = "" then none
  else some (encodeRoomCompactInvite json s.localPeerId roomName addrs roomInvite.inviteCode
    roomInvite.expiresAtMs)

/-- The room invite on show: that of the engaged room, with its name. -/
def shownRoomInvite (s : InviteState) : Option (String × RoomInviteSummary) :=
  (engagedRoom s.rooms).bind fun room => room.currentInvite.map fun invite => (room.name, invite)

def setShareInvite (shareInvite : Option String) (room : RoomSummary) : RoomSummary :=
  { room with
    currentInvite := room.currentInvite.map fun invite =>
      { invite with shareInvite := shareInvite } }

/-- The room is looked up a second time by its name. -/
def updateShareInvite (lib : Libp2p) (json : InviteJson) (s : InviteState) : InviteState :=
  { s with
    directCallInvite := (s.bestDirectCallInvite lib json).or
      (s.directCallInvite.filter fun invite =>
        invite ≠ "" && (shareableAddress lib invite s.localPeerId).isSome)
    rooms := match s.shownRoomInvite with
      | none => s.rooms
      | some (roomName, invite) =>
        updateFirst (fun room => room.name = roomName)
          (setShareInvite (s.bestRoomInvite lib json roomName invite)) s.rooms }

def currentDirectCallInvite (lib : Libp2p) (s : InviteState) : Option CompactInviteV1 :=
  if s.localPeerId = "<starting>" ∨ s.localPeerId = "" then none
  else
    let addrs := (s.listedAddrs.filterMap fun address =>
      shareableAddress lib address s.localPeerId).foldl pushUnique []
    if addrs = [] then none
    else some
      { v := 1, kind := .directCall, peerId := s.localPeerId, addrs := addrs
        inviteCode := none, roomName := none, expiresAtMs := none }

/-- The records the daemon publishes while a peer of the DHT is connected. -/
def currentRendezvousRecords (lib : Libp2p) (s : InviteState) : List (String × CompactInviteV1) :=
  match s.currentDirectCallInvite lib with
  | none => []
  | some directCallInvite =>
    let direct := [(Daemon.rendezvousRecordKey directCallInvite.peerId, directCallInvite)]
    match s.shownRoomInvite with
    | none => direct
    | some (roomName, roomInvite) =>
      let roomName := trim roomName
      let inviteCode := trim roomInvite.inviteCode
      let invite : CompactInviteV1 :=
        { v := 1, kind := .room, peerId := s.localPeerId, addrs := directCallInvite.addrs
          inviteCode := if inviteCode ≠ "" then some inviteCode else none
          roomName := if roomName ≠ "" then some roomName else none
          expiresAtMs := roomInvite.expiresAtMs }
      direct ++
        (if inviteCode ≠ "" then [(Daemon.roomRendezvousRecordKey inviteCode, invite)] else []) ++
        (if roomName ≠ "" ∧ roomName ≠ "main" then
          [(Daemon.roomRendezvousRecordKey roomName, invite)]
        else [])

/-- `room_name` of the session names a room of the daemon's own. -/
def customRoom (s : InviteState) : Option String :=
  s.roomName.filter fun roomName => roomName ≠ "main" && roomName ≠ ""

def createRoom (s : InviteState) (roomName inviteCode : String) (expiresAtMs : Nat) :
    InviteState :=
  let roomName := normalizeRoomName roomName
  let rooms := createOrUpdateRoom s.rooms roomName s.localPeerId s.displayName
  { s with
    roomName := some roomName
    rooms := if roomName ≠ "main" then
        setRoomInvite rooms roomName s.localPeerId inviteCode (some expiresAtMs)
      else clearRoomInvite rooms roomName }

def adoptRoomInvite (s : InviteState) (roomName : String) : InviteState :=
  let roomName := normalizeRoomName roomName
  { s with
    roomName := some roomName
    rooms := createOrUpdateRoom s.rooms roomName s.localPeerId s.displayName }

def setDisplayName (s : InviteState) (displayName : String) : InviteState :=
  if trim displayName = "" then s
  else { s with
    displayName := trim displayName
    rooms := syncLocalRoomMemberships s.rooms s.localPeerId (trim displayName) }

def rotateInviteCode (lib : Libp2p) (json : InviteJson) (s : InviteState) (inviteCode : String)
    (expiresAtMs : Nat) : InviteState :=
  match s.customRoom with
  | none => s
  | some roomName =>
    if roomHasPermission s.rooms roomName s.localPeerId .createRoomInvite then
      updateShareInvite lib json { s with
        rooms := setRoomInvite s.rooms roomName s.localPeerId inviteCode (some expiresAtMs) }
    else s

def assignLocalPeerId (s : InviteState) (localPeerId : String) : InviteState :=
  { s with
    localPeerId := localPeerId
    rooms := syncLocalRoomMemberships s.rooms localPeerId s.displayName }

end InviteState

/-- Address events come from the network task; `expiredListenAddr` is one it
does not handle. The codes of room invites are drawn by the daemon. -/
inductive InviteEvent (lib : Libp2p)
  | newListenAddr (address : Multiaddr lib)
  | expiredListenAddr (address : Multiaddr lib)
  | newExternalAddrCandidate (address : Multiaddr lib)
  | externalAddrConfirmed (address : Multiaddr lib)
  | externalAddrExpired (address : Multiaddr lib)
  | identifyReceived (observedAddr : Multiaddr lib)
  | upnpNewExternalAddr (address : Multiaddr lib)
  | upnpExpiredExternalAddr (address : Multiaddr lib)
  | assignLocalPeerId
  | createRoom (roomName inviteCode : String) (expiresAtMs : Nat)
  | adoptRoomInvite (roomName : String)
  | setDisplayName (displayName : String)
  | rotateInviteCode (inviteCode : String) (expiresAtMs : Nat)

namespace InviteState

def removeAddr (addresses : List String) (address : String) : List String :=
  addresses.filter (· ≠ address)

/-- The address lists after an event of the network task. -/
def handleAddress {lib : Libp2p} (s : InviteState) : InviteEvent lib → InviteState
  | .newListenAddr address => { s with listenAddrs := pushUnique s.listenAddrs address.text }
  | .newExternalAddrCandidate address =>
    { s with observedAddrs := pushUnique s.observedAddrs address.text }
  | .externalAddrConfirmed address | .upnpNewExternalAddr address =>
    { s with externalAddrs := pushUnique s.externalAddrs address.text }
  | .externalAddrExpired address =>
    { s with
      externalAddrs := removeAddr s.externalAddrs address.text
      observedAddrs := removeAddr s.observedAddrs address.text }
  | .identifyReceived observedAddr =>
    if observedAddr.text = "" then s
    else { s with observedAddrs := pushUnique s.observedAddrs observedAddr.text }
  | .upnpExpiredExternalAddr address =>
    { s with externalAddrs := removeAddr s.externalAddrs address.text }
  | _ => s

/-- Control requests are served once the start is over. -/
def control (s : InviteState) (next : InviteState) : Option (Unit × InviteState) :=
  if s.localPeerId = "<starting>" then none else some ((), next)

def step (json : InviteJson) (lib : Libp2p) (self : LocalPeerId) (s : InviteState) :
    InviteEvent lib → Option (Unit × InviteState)
  | .expiredListenAddr _ => some ((), s)
  | .newExternalAddrCandidate address =>
    if isShareableMultiaddr lib address.components then
      some ((), updateShareInvite lib json (s.handleAddress (.newExternalAddrCandidate address)))
    else some ((), s)
  | .assignLocalPeerId =>
    if s.localPeerId = "<starting>" then some ((), s.assignLocalPeerId self.text) else none
  | .createRoom roomName inviteCode expiresAtMs =>
    s.control (updateShareInvite lib json (s.createRoom roomName inviteCode expiresAtMs))
  | .adoptRoomInvite roomName => s.control (s.adoptRoomInvite roomName)
  | .setDisplayName displayName => s.control (s.setDisplayName displayName)
  | .rotateInviteCode inviteCode expiresAtMs =>
    s.control (s.rotateInviteCode lib json inviteCode expiresAtMs)
  | event => some ((), updateShareInvite lib json (s.handleAddress event))

end InviteState

abbrev InviteTransition (lib : Libp2p) := Transition InviteState (InviteEvent lib) Unit

/-- A run from the start of a daemon with the given identity and state file. -/
def inviteRun (json : InviteJson) (lib : Libp2p) (self : LocalPeerId) (file : StateFile)
    (displayName : String) (events : List (InviteEvent lib)) :
    Option (List (InviteTransition lib) × InviteState) :=
  execute (InviteState.step json lib self) (InviteState.load file displayName) events

section

variable {json : InviteJson} {lib : Libp2p} {self : LocalPeerId} {s t : InviteState}

theorem mem_collectShareableInviteAddrs {localPeerId a : String} {dest addresses : List String}
    (h : a ∈ collectShareableInviteAddrs lib localPeerId dest addresses) :
    a ∈ dest ∨ ∃ b ∈ addresses, shareableAddress lib b localPeerId = some a := by
  induction addresses generalizing dest with
  | nil => exact .inl h
  | cons address rest ih =>
    unfold collectShareableInviteAddrs at h
    split_ifs at h
    · exact .inl h
    · cases hshare : shareableAddress lib address localPeerId with
      | none =>
        rw [hshare] at h
        rcases ih h with hdest | ⟨b, hb, hba⟩
        · exact .inl hdest
        · exact .inr ⟨b, List.mem_cons_of_mem _ hb, hba⟩
      | some shareable =>
        rw [hshare] at h
        rcases ih h with hdest | ⟨b, hb, hba⟩
        · rcases mem_pushUnique.mp hdest with hdest | rfl
          · exact .inl hdest
          · exact .inr ⟨address, List.mem_cons_self, hshare⟩
        · exact .inr ⟨b, List.mem_cons_of_mem _ hb, hba⟩

theorem collectShareableInviteAddrs_eq_nil {localPeerId : String} {dest addresses : List String} :
    collectShareableInviteAddrs lib localPeerId dest addresses = [] ↔
      dest = [] ∧ ∀ a ∈ addresses, shareableAddress lib a localPeerId = none := by
  induction addresses generalizing dest with
  | nil => simp [collectShareableInviteAddrs]
  | cons address rest ih =>
    unfold collectShareableInviteAddrs
    split_ifs with hfull
    · constructor
      · rintro rfl
        simp [maxShareInviteAddrs] at hfull
      · exact And.left
    · cases hshare : shareableAddress lib address localPeerId with
      | none => simp [ih, hshare]
      | some shareable => simp [ih, hshare, pushUnique_ne_nil]

namespace InviteState

theorem mem_inviteAddrs {a : String} (h : a ∈ s.inviteAddrs lib) :
    ∃ b ∈ s.listedAddrs, shareableAddress lib b s.localPeerId = some a := by
  simp only [listedAddrs, List.mem_append]
  rcases mem_collectShareableInviteAddrs h with h | ⟨b, hb, hba⟩
  · rcases mem_collectShareableInviteAddrs h with h | ⟨b, hb, hba⟩
    · rcases mem_collectShareableInviteAddrs h with h | ⟨b, hb, hba⟩
      · simp at h
      · exact ⟨b, .inl (.inl hb), hba⟩
    · exact ⟨b, .inl (.inr hb), hba⟩
  · exact ⟨b, .inr hb, hba⟩

theorem inviteAddrs_eq_nil :
    s.inviteAddrs lib = [] ↔ ∀ a ∈ s.listedAddrs, shareableAddress lib a s.localPeerId = none := by
  simp only [inviteAddrs, collectShareableInviteAddrs_eq_nil, listedAddrs, List.mem_append,
    or_imp, forall_and, true_and]

theorem shareableAddress_starting (address : String) :
    shareableAddress lib address "<starting>" = none := by
  simp [shareableAddress]

theorem inviteAddrs_starting (h : s.localPeerId = "<starting>") : s.inviteAddrs lib = [] := by
  rw [inviteAddrs_eq_nil, h]
  exact fun a _ => shareableAddress_starting a

/-- The address an event may add to the lists. -/
def addedAddr : InviteEvent lib → Option String
  | .newListenAddr address | .newExternalAddrCandidate address | .externalAddrConfirmed address
  | .upnpNewExternalAddr address => some address.text
  | .identifyReceived observedAddr =>
    if observedAddr.text = "" then none else some observedAddr.text
  | _ => none

theorem mem_handleAddress {e : InviteEvent lib} {a : String}
    (h : a ∈ (s.handleAddress e).listedAddrs) : a ∈ s.listedAddrs ∨ addedAddr e = some a := by
  cases e with
  | identifyReceived observedAddr =>
    simp only [handleAddress] at h
    split_ifs at h with hempty
    · exact .inl h
    · simp only [listedAddrs, List.mem_append, mem_pushUnique] at h
      simp only [listedAddrs, List.mem_append, addedAddr, hempty, if_false, Option.some.injEq]
      tauto
  | newListenAddr address | newExternalAddrCandidate address | externalAddrConfirmed address
  | upnpNewExternalAddr address =>
    simp only [handleAddress, listedAddrs, List.mem_append, mem_pushUnique] at h
    simp only [listedAddrs, List.mem_append, addedAddr, Option.some.injEq]
    tauto
  | externalAddrExpired address | upnpExpiredExternalAddr address =>
    simp only [handleAddress, listedAddrs, List.mem_append, removeAddr, List.mem_filter] at h
    simp only [listedAddrs, List.mem_append]
    tauto
  | _ => exact .inl h

theorem added_mem_handleAddress {e : InviteEvent lib} {a : String} (h : addedAddr e = some a) :
    a ∈ (s.handleAddress e).listedAddrs := by
  cases e with
  | identifyReceived observedAddr =>
    simp only [addedAddr] at h
    split_ifs at h with hempty
    simp only [handleAddress, hempty, if_false, listedAddrs, List.mem_append, mem_pushUnique]
    exact .inl (.inr (.inr (Option.some.inj h).symm))
  | newListenAddr address =>
    simp only [handleAddress, listedAddrs, List.mem_append, mem_pushUnique]
    exact .inr (.inr (Option.some.inj h).symm)
  | newExternalAddrCandidate address =>
    simp only [handleAddress, listedAddrs, List.mem_append, mem_pushUnique]
    exact .inl (.inr (.inr (Option.some.inj h).symm))
  | externalAddrConfirmed address | upnpNewExternalAddr address =>
    simp only [handleAddress, listedAddrs, List.mem_append, mem_pushUnique]
    exact .inl (.inl (.inr (Option.some.inj h).symm))
  | _ => cases h

theorem handleAddress_frame (e : InviteEvent lib) :
    (s.handleAddress e).localPeerId = s.localPeerId ∧ (s.handleAddress e).rooms = s.rooms ∧
      (s.handleAddress e).directCallInvite = s.directCallInvite := by
  cases e with
  | identifyReceived observedAddr =>
    simp only [handleAddress]
    split_ifs
    · exact ⟨rfl, rfl, rfl⟩
    · exact ⟨rfl, rfl, rfl⟩
  | _ => exact ⟨rfl, rfl, rfl⟩

theorem shownRoomInvite_of_engaged {room : RoomSummary} (h : engagedRoom s.rooms = some room) :
    s.shownRoomInvite = room.currentInvite.map fun invite => (room.name, invite) := by
  rw [shownRoomInvite, h]
  rfl

theorem engaged_of_shownRoomInvite {roomName : String} {invite : RoomInviteSummary}
    (h : s.shownRoomInvite = some (roomName, invite)) :
    ∃ room, engagedRoom s.rooms = some room ∧ room.name = roomName ∧
      room.currentInvite = some invite := by
  obtain ⟨room, hroom, hinvite⟩ := Option.bind_eq_some_iff.mp h
  obtain ⟨found, hfound, heq⟩ := Option.map_eq_some_iff.mp hinvite
  obtain ⟨rfl, rfl⟩ := Prod.mk.inj heq
  exact ⟨room, hroom, rfl, hfound⟩

theorem shownRoomInvite_sync {localPeerId displayName : String}
    (h : t.rooms = syncLocalRoomMemberships s.rooms localPeerId displayName) :
    t.shownRoomInvite = s.shownRoomInvite := by
  obtain ⟨f, hf, hframe⟩ := syncLocalRoomMemberships_eq_map s.rooms localPeerId displayName
  rw [shownRoomInvite, h, hf, engagedRoom_map f fun room => (hframe room).2.1, shownRoomInvite]
  cases engagedRoom s.rooms with
  | none => rfl
  | some room => simp [hframe room]

theorem shownRoomInvite_adopt (s : InviteState) (roomName : String) :
    (s.adoptRoomInvite roomName).shownRoomInvite =
      ((roomNamed s.rooms (normalizeRoomName roomName)).bind RoomSummary.currentInvite).map
        fun invite => (normalizeRoomName roomName, invite) := by
  obtain ⟨room, hroom, hname, hinvite⟩ := engaged_createOrUpdateRoom s.rooms
    (normalizeRoomName roomName) s.localPeerId s.displayName
  rw [shownRoomInvite_of_engaged hroom, hname, hinvite]

theorem createRoom_engagedAs (s : InviteState) (roomName inviteCode : String) (expiresAtMs : Nat) :
    EngagedAs (normalizeRoomName roomName) (s.createRoom roomName inviteCode expiresAtMs).rooms := by
  have hupdate : ∀ invite, EngagedAs (normalizeRoomName roomName)
      (updateFirst (fun room => room.name = normalizeRoomName roomName) (withInvite invite)
        (createOrUpdateRoom s.rooms (normalizeRoomName roomName) s.localPeerId s.displayName)) :=
    fun invite => createOrUpdateRoom_engagedAs.updateFirst
      (fun room => (withInvite_frame invite room).1) fun room => (withInvite_frame invite room).2
  simp only [createRoom]
  split_ifs
  · exact hupdate _
  · exact hupdate none

/-- A room that is created starts with a new invite, not shared yet. -/
theorem shareInvite_create {roomName inviteCode : String} {expiresAtMs : Nat}
    {shown : String × RoomInviteSummary}
    (h : (s.createRoom roomName inviteCode expiresAtMs).shownRoomInvite = some shown) :
    shown.2.shareInvite = none := by
  obtain ⟨room, hroom, hname, hinvite⟩ := engaged_of_shownRoomInvite h
  have hnamed : ∀ {invite rooms}, roomNamed (updateFirst
      (fun room => room.name = normalizeRoomName roomName) (withInvite invite) rooms)
        (normalizeRoomName roomName) = some room → room.currentInvite = invite := by
    intro invite rooms hfound
    rw [roomNamed_updateFirst fun room => (withInvite_frame invite room).1] at hfound
    obtain ⟨old, _, rfl⟩ := Option.map_eq_some_iff.mp hfound
    rfl
  rw [(s.createRoom_engagedAs roomName inviteCode expiresAtMs).engagedRoom_eq] at hroom
  simp only [createRoom] at hroom
  split_ifs at hroom
  · rw [Option.some.inj (hinvite.symm.trans (hnamed hroom))]
  · cases hinvite.symm.trans (hnamed hroom)

theorem setShareInvite_frame (shareInvite : Option String) (room : RoomSummary) :
    (setShareInvite shareInvite room).name = room.name ∧
      (setShareInvite shareInvite room).engaged = room.engaged := ⟨rfl, rfl⟩

theorem shownRoomInvite_update (hlead : Lead s.rooms) :
    (s.updateShareInvite lib json).shownRoomInvite = s.shownRoomInvite.map fun shown =>
      (shown.1, { shown.2 with shareInvite := s.bestRoomInvite lib json shown.1 shown.2 }) := by
  cases hshown : s.shownRoomInvite with
  | none =>
    have hsame : (s.updateShareInvite lib json).rooms = s.rooms := by
      simp only [updateShareInvite, hshown]
    rw [shownRoomInvite, hsame, ← shownRoomInvite, hshown]
    rfl
  | some shown =>
    obtain ⟨roomName, invite⟩ := shown
    obtain ⟨room, hroom, rfl, hinvite⟩ := engaged_of_shownRoomInvite hshown
    have hnew : engagedRoom (s.updateShareInvite lib json).rooms =
        some (setShareInvite (s.bestRoomInvite lib json room.name invite) room) := by
      simp only [updateShareInvite, hshown]
      exact hlead.engagedRoom_updateFirst hroom fun _ => rfl
    rw [shownRoomInvite_of_engaged hnew, setShareInvite, hinvite]
    rfl

theorem Lead.update (hlead : Lead s.rooms) : Lead (s.updateShareInvite lib json).rooms := by
  cases hshown : s.shownRoomInvite with
  | none =>
    simp only [updateShareInvite, hshown]
    exact hlead
  | some shown =>
    simp only [updateShareInvite, hshown]
    exact hlead.updateFirst (fun _ => rfl) fun _ => rfl

end InviteState

/-- What an event can do. -/
inductive InviteMove (json : InviteJson) (lib : Libp2p) (self : LocalPeerId) (s : InviteState) :
    InviteEvent lib → InviteState → Prop
  | expired (address : Multiaddr lib) : InviteMove json lib self s (.expiredListenAddr address) s
  | unshareable (address : Multiaddr lib)
      (h : isShareableMultiaddr lib address.components = false) :
      InviteMove json lib self s (.newExternalAddrCandidate address) s
  | address (e : InviteEvent lib)
      (he : e ≠ .assignLocalPeerId ∧ ∀ roomName, e ≠ .adoptRoomInvite roomName) :
      InviteMove json lib self s e ((s.handleAddress e).updateShareInvite lib json)
  | assign (h : s.localPeerId = "<starting>") :
      InviteMove json lib self s .assignLocalPeerId (s.assignLocalPeerId self.text)
  | create (roomName inviteCode : String) (expiresAtMs : Nat) (h : s.localPeerId ≠ "<starting>") :
      InviteMove json lib self s (.createRoom roomName inviteCode expiresAtMs)
        ((s.createRoom roomName inviteCode expiresAtMs).updateShareInvite lib json)
  | adopt (roomName : String) (h : s.localPeerId ≠ "<starting>") :
      InviteMove json lib self s (.adoptRoomInvite roomName) (s.adoptRoomInvite roomName)
  | rename (displayName : String) (h : s.localPeerId ≠ "<starting>") :
      InviteMove json lib self s (.setDisplayName displayName) (s.setDisplayName displayName)
  | rotate (inviteCode : String) (expiresAtMs : Nat) (h : s.localPeerId ≠ "<starting>") :
      InviteMove json lib self s (.rotateInviteCode inviteCode expiresAtMs)
        (s.rotateInviteCode lib json inviteCode expiresAtMs)

theorem control_eq_some {next : InviteState} (h : s.control next = some ((), t)) :
    s.localPeerId ≠ "<starting>" ∧ t = next := by
  unfold InviteState.control at h
  split_ifs at h with hstart
  exact ⟨hstart, (Prod.mk.inj (Option.some.inj h)).2.symm⟩

theorem InviteMove.of_step {e : InviteEvent lib} {o : Unit}
    (h : InviteState.step json lib self s e = some (o, t)) : InviteMove json lib self s e t := by
  cases e with
  | expiredListenAddr address =>
    obtain rfl := (Prod.mk.inj (Option.some.inj h)).2
    exact .expired address
  | newExternalAddrCandidate address =>
    simp only [InviteState.step] at h
    split_ifs at h with hshare
    · obtain rfl := (Prod.mk.inj (Option.some.inj h)).2
      exact .address _ ⟨by simp, by simp⟩
    · obtain rfl := (Prod.mk.inj (Option.some.inj h)).2
      exact .unshareable address (by simpa using hshare)
  | assignLocalPeerId =>
    simp only [InviteState.step] at h
    split_ifs at h with hstart
    obtain rfl := (Prod.mk.inj (Option.some.inj h)).2
    exact .assign hstart
  | createRoom roomName inviteCode expiresAtMs =>
    obtain ⟨hset, rfl⟩ := control_eq_some h
    exact .create roomName inviteCode expiresAtMs hset
  | adoptRoomInvite roomName =>
    obtain ⟨hset, rfl⟩ := control_eq_some h
    exact .adopt roomName hset
  | setDisplayName displayName =>
    obtain ⟨hset, rfl⟩ := control_eq_some h
    exact .rename displayName hset
  | rotateInviteCode inviteCode expiresAtMs =>
    obtain ⟨hset, rfl⟩ := control_eq_some h
    exact .rotate inviteCode expiresAtMs hset
  | newListenAddr address | externalAddrConfirmed address | externalAddrExpired address
  | identifyReceived address | upnpNewExternalAddr address | upnpExpiredExternalAddr address =>
    obtain rfl := (Prod.mk.inj (Option.some.inj h)).2
    exact .address _ ⟨by simp, by simp⟩

end

def hostAddr : String := "/ip4/192.0.2.1/tcp/4001"

def hostPeer : String := "12D3KooWG2UHFKDhDod45sV4iKntd6gHkv6nKK6Z2VCnYMCyUZey"

def foreignPeer : String := "12D3KooWQcRSYjxa4pd38TiW24o1teTp36a2hWQxZpe81sb52CWf"

def foreignAddr : String := "/ip4/192.0.2.7/tcp/4001/p2p/" ++ foreignPeer

def hostLibp2p : Libp2p where
  isPeerId _ := true
  parseMultiaddr text :=
    if text = hostAddr then some [.ip4 false false, .tcp]
    else if text = foreignAddr then some [.ip4 false false, .tcp, .p2p foreignPeer]
    else none
  allowLoopback := false

def hostMultiaddr : Multiaddr hostLibp2p where
  text := hostAddr
  components := [.ip4 false false, .tcp]
  parsed := rfl

def foreignMultiaddr : Multiaddr hostLibp2p where
  text := foreignAddr
  components := [.ip4 false false, .tcp, .p2p foreignPeer]
  parsed := rfl

def hostPeerId : LocalPeerId where
  text := hostPeer
  trimmed := by decide +kernel
  ne_starting := by decide
  ne_empty := by decide

/-- The direct call invite of a host that listens on its one address. -/
def lanInvite : CompactInviteV1 where
  v := 1
  kind := .directCall
  peerId := hostPeerId.text
  addrs := [hostAddr ++ "/p2p/" ++ hostPeerId.text]
  inviteCode := none
  roomName := none
  expiresAtMs := none

end Voicers
