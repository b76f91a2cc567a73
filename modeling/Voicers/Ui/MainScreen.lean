import Voicers.App.EngagedRoom
import Voicers.Network.RelayOffers
import Voicers.Ui.VoicePeers

/-! The main screen of the terminal interface (`ui/model.rs` of the client):
the engaged rooms with their peers, then the calls, which are the peers of all
rooms but that of the session. The daemon is taken with its peers and rooms. -/

namespace Voicers

open Lib

variable {κ : Codec} {lib : Libp2p}

/-- A status with its rooms. -/
structure FullStatus extends DaemonStatus where
  rooms : List RoomSummary

def FullStatus.currentRoom (s : FullStatus) : String := s.session.roomName.getD "main"

/-- The room of a peer whose session is active. -/
def peerRoom (peer : PeerSummary) : Option String :=
  match peer.session with
  | .active roomName _ => some (roomName.getD "main")
  | _ => none

inductive MainActivityItem
  | roomGroup (roomName : String) (engagedUsers : Nat)
  | roomPeer (roomName : String) (peer : PeerSummary)
  | callsGroup (activeCalls : Nat)
  | callPeer (peer : PeerSummary)

def activeCallPeers (s : FullStatus) : List PeerSummary :=
  s.peers.filter fun peer => (peerRoom peer).any (· ≠ s.currentRoom)

def roomPeers (s : FullStatus) (roomName : String) : List PeerSummary :=
  (visibleVoicePeers s.toDaemonStatus).filter fun peer => peerRoom peer = some roomName

def engagedRooms (s : FullStatus) : List String :=
  (s.rooms.filter RoomSummary.engaged).map RoomSummary.name

def mainActivityItems (s : FullStatus) (expandedRooms : Finset String) (expandedCalls : Bool) :
    List MainActivityItem :=
  let calls := activeCallPeers s
  (engagedRooms s).flatMap (fun roomName =>
    .roomGroup roomName (roomPeers s roomName).length ::
      if roomName ∈ expandedRooms then (roomPeers s roomName).map (.roomPeer roomName) else []) ++
  .callsGroup calls.length :: if expandedCalls then calls.map .callPeer else []

namespace MainActivityItem

def peer? : MainActivityItem → Option PeerSummary
  | .roomPeer _ peer | .callPeer peer => some peer
  | _ => none

def isRoomPeer (roomName : String) : MainActivityItem → Bool
  | .roomPeer listed _ => listed = roomName
  | _ => false

def isCallPeer : MainActivityItem → Bool
  | .callPeer _ => true
  | _ => false

end MainActivityItem

/-- Each active peer is listed once, under an engaged room or as a call, and
the groups count the peers listed under them. -/
structure ShowsEveryone (s : FullStatus) (items : List MainActivityItem) : Prop where
  once : ∀ peer ∈ s.peers, sessionActive peer = true →
    items.countP (fun item => item.peer?.any (·.peerId = peer.peerId)) = 1
  listed : ∀ item ∈ items, ∀ peer, item.peer? = some peer →
    peer ∈ s.peers ∧ sessionActive peer = true
  engaged : ∀ roomName peer, .roomPeer roomName peer ∈ items →
    ∃ room ∈ s.rooms, room.engaged = true ∧ room.name = roomName
  rooms : ∀ roomName engagedUsers, .roomGroup roomName engagedUsers ∈ items →
    engagedUsers = items.countP (MainActivityItem.isRoomPeer roomName)
  calls : ∀ activeCalls, .callsGroup activeCalls ∈ items →
    activeCalls = items.countP MainActivityItem.isCallPeer

/-- With all its groups expanded the screen shows everyone. -/
def MainShowsEveryone (s : FullStatus) : Prop :=
  ∀ expandedRooms, (∀ room ∈ s.rooms, room.name ∈ expandedRooms) →
    ShowsEveryone s (mainActivityItems s expandedRooms true)

/-- The room is an engaged one exactly when it is that of the session. -/
def RoomAgrees (s : FullStatus) (roomName : String) : Prop :=
  (∃ room ∈ s.rooms, room.engaged = true ∧ room.name = roomName) ↔ roomName = s.currentRoom

section

variable {s : FullStatus} {peer : PeerSummary} {roomName : String}

theorem sessionActive_of_peerRoom (h : peerRoom peer = some roomName) : sessionActive peer = true := by
  unfold peerRoom at h
  split at h
  · simp [sessionActive, *]
  · cases h

theorem peerRoom_of_sessionActive (h : sessionActive peer = true) :
    ∃ roomName, peerRoom peer = some roomName := by
  obtain ⟨roomName, displayName, hsession⟩ := sessionActive_iff.mp h
  exact ⟨_, by simp [peerRoom, hsession]; rfl⟩

theorem mem_roomPeers : peer ∈ roomPeers s roomName ↔ peer ∈ s.peers ∧ peerRoom peer = some roomName := by
  simp only [roomPeers, visibleVoicePeers, List.mem_filter, decide_eq_true_eq]
  exact ⟨fun h => ⟨h.1.1, h.2⟩, fun h => ⟨⟨h.1, sessionActive_of_peerRoom h.2⟩, h.2⟩⟩

theorem mem_activeCallPeers : peer ∈ activeCallPeers s ↔
    peer ∈ s.peers ∧ ∃ roomName, peerRoom peer = some roomName ∧ roomName ≠ s.currentRoom := by
  simp [activeCallPeers, Option.any_eq_true]

theorem mem_engagedRooms : roomName ∈ engagedRooms s ↔
    ∃ room ∈ s.rooms, room.engaged = true ∧ room.name = roomName := by
  simp [engagedRooms, List.mem_map, List.mem_filter, and_assoc]

/-- The items when at most one room is engaged and all groups are expanded. -/
theorem mainActivityItems_cases {expandedRooms : Finset String}
    (hone : s.rooms.countP RoomSummary.engaged ≤ 1)
    (hexpanded : ∀ room ∈ s.rooms, room.name ∈ expandedRooms) :
    (engagedRooms s = [] ∧ mainActivityItems s expandedRooms true =
        .callsGroup (activeCallPeers s).length :: (activeCallPeers s).map .callPeer) ∨
      ∃ roomName, engagedRooms s = [roomName] ∧ mainActivityItems s expandedRooms true =
        .roomGroup roomName (roomPeers s roomName).length ::
          ((roomPeers s roomName).map (.roomPeer roomName) ++
            .callsGroup (activeCallPeers s).length :: (activeCallPeers s).map .callPeer) := by
  have hlength : (engagedRooms s).length ≤ 1 := by
    rw [engagedRooms, List.length_map, ← List.countP_eq_length_filter]
    exact hone
  cases hrooms : engagedRooms s with
  | nil => exact .inl ⟨rfl, by simp [mainActivityItems, hrooms]⟩
  | cons roomName rest =>
    rw [hrooms, List.length_cons] at hlength
    obtain rfl := List.eq_nil_of_length_eq_zero (Nat.le_zero.mp (Nat.le_of_succ_le_succ hlength))
    obtain ⟨room, hroom, _, hname⟩ := mem_engagedRooms.mp (hrooms ▸ List.mem_singleton_self roomName)
    have hopen : roomName ∈ expandedRooms := hname ▸ hexpanded room hroom
    exact .inr ⟨roomName, rfl, by simp [mainActivityItems, hrooms, hopen]⟩

theorem countP_roomPeers (hids : (s.peers.map PeerSummary.peerId).Nodup) (hpeer : peer ∈ s.peers)
    (listed : String) : (roomPeers s listed).countP (fun other => other.peerId = peer.peerId) =
      if peerRoom peer = some listed then 1 else 0 := by
  have hfilter : roomPeers s listed = s.peers.filter fun other => peerRoom other = some listed := by
    rw [roomPeers, visibleVoicePeers, List.filter_filter]
    refine List.filter_congr fun other _ => ?_
    by_cases hroom : peerRoom other = some listed
    · simp [hroom, sessionActive_of_peerRoom hroom]
    · simp [hroom]
  rw [hfilter]
  simpa using countP_key_filter hids hpeer fun other => decide (peerRoom other = some listed)

theorem countP_activeCallPeers (hids : (s.peers.map PeerSummary.peerId).Nodup)
    (hpeer : peer ∈ s.peers) (hroom : peerRoom peer = some roomName) :
    (activeCallPeers s).countP (fun other => other.peerId = peer.peerId) =
      if roomName = s.currentRoom then 0 else 1 := by
  have hcount := countP_key_filter hids hpeer fun other => (peerRoom other).any (· ≠ s.currentRoom)
  refine hcount.trans ?_
  by_cases hcurrent : roomName = s.currentRoom
  · simp [hroom, hcurrent]
  · simp [hroom, hcurrent]

/-- The items that show a peer: in the engaged room, and among the calls. -/
theorem countP_shown {expandedRooms : Finset String}
    (hone : s.rooms.countP RoomSummary.engaged ≤ 1)
    (hexpanded : ∀ room ∈ s.rooms, room.name ∈ expandedRooms)
    (hids : (s.peers.map PeerSummary.peerId).Nodup) (hpeer : peer ∈ s.peers)
    (hroom : peerRoom peer = some roomName) :
    (mainActivityItems s expandedRooms true).countP
        (fun item => item.peer?.any (·.peerId = peer.peerId)) =
      (if roomName ∈ engagedRooms s then 1 else 0) + if roomName = s.currentRoom then 0 else 1 := by
  have hrooms := countP_roomPeers hids hpeer
  have hcalls := countP_activeCallPeers hids hpeer hroom
  rcases mainActivityItems_cases hone hexpanded with ⟨hnone, hitems⟩ | ⟨listed, hlisted, hitems⟩
  · rw [hitems, hnone, List.countP_cons, List.countP_map]
    simp only [List.not_mem_nil, if_false, Nat.zero_add]
    exact hcalls
  · rw [hitems, hlisted, List.countP_cons, List.countP_append, List.countP_map, List.countP_cons,
      List.countP_map]
    have hleft := hrooms listed
    simp only [hroom, Option.some.injEq] at hleft
    simp only [List.mem_singleton]
    refine Eq.trans ?_ (congrArg₂ (· + ·) hleft hcalls)
    rfl

theorem listed_items {expandedRooms : Finset String} {item : MainActivityItem}
    (hone : s.rooms.countP RoomSummary.engaged ≤ 1)
    (hexpanded : ∀ room ∈ s.rooms, room.name ∈ expandedRooms)
    (hitem : item ∈ mainActivityItems s expandedRooms true) :
    (∃ listed ∈ engagedRooms s, item = .roomGroup listed (roomPeers s listed).length ∨
        ∃ other ∈ roomPeers s listed, item = .roomPeer listed other) ∨
      item = .callsGroup (activeCallPeers s).length ∨
      ∃ other ∈ activeCallPeers s, item = .callPeer other := by
  rcases mainActivityItems_cases hone hexpanded with ⟨_, hitems⟩ | ⟨listed, hlisted, hitems⟩
  · rw [hitems] at hitem
    rcases List.mem_cons.mp hitem with rfl | hcall
    · exact .inr (.inl rfl)
    · obtain ⟨other, hother, rfl⟩ := List.mem_map.mp hcall
      exact .inr (.inr ⟨other, hother, rfl⟩)
  · have hin : listed ∈ engagedRooms s := hlisted ▸ List.mem_singleton_self listed
    rw [hitems] at hitem
    rcases List.mem_cons.mp hitem with rfl | hrest
    · exact .inl ⟨listed, hin, .inl rfl⟩
    · rcases List.mem_append.mp hrest with hpeer | hcalls
      · obtain ⟨other, hother, rfl⟩ := List.mem_map.mp hpeer
        exact .inl ⟨listed, hin, .inr ⟨other, hother, rfl⟩⟩
      · rcases List.mem_cons.mp hcalls with rfl | hcall
        · exact .inr (.inl rfl)
        · obtain ⟨other, hother, rfl⟩ := List.mem_map.mp hcall
          exact .inr (.inr ⟨other, hother, rfl⟩)

theorem countP_roomPeer {expandedRooms : Finset String} {listed : String}
    (hone : s.rooms.countP RoomSummary.engaged ≤ 1)
    (hexpanded : ∀ room ∈ s.rooms, room.name ∈ expandedRooms) (hin : listed ∈ engagedRooms s) :
    (mainActivityItems s expandedRooms true).countP (MainActivityItem.isRoomPeer listed) =
      (roomPeers s listed).length := by
  rcases mainActivityItems_cases hone hexpanded with ⟨hnone, _⟩ | ⟨other, hlisted, hitems⟩
  · rw [hnone] at hin
    cases hin
  · rw [hlisted, List.mem_singleton] at hin
    subst hin
    have hcalls : ((activeCallPeers s).map MainActivityItem.callPeer).countP
        (MainActivityItem.isRoomPeer listed) = 0 := by
      rw [List.countP_map]
      exact List.countP_eq_zero.mpr fun _ _ => Bool.false_ne_true
    have hpeers : ((roomPeers s listed).map (MainActivityItem.roomPeer listed)).countP
        (MainActivityItem.isRoomPeer listed) = (roomPeers s listed).length := by
      rw [List.countP_map]
      exact List.countP_eq_length.mpr fun _ _ => decide_eq_true rfl
    rw [hitems, List.countP_cons, List.countP_append, List.countP_cons, hcalls, hpeers]
    rfl

theorem countP_callPeer {expandedRooms : Finset String}
    (hone : s.rooms.countP RoomSummary.engaged ≤ 1)
    (hexpanded : ∀ room ∈ s.rooms, room.name ∈ expandedRooms) :
    (mainActivityItems s expandedRooms true).countP MainActivityItem.isCallPeer =
      (activeCallPeers s).length := by
  have hcalls : ((activeCallPeers s).map MainActivityItem.callPeer).countP
      MainActivityItem.isCallPeer = (activeCallPeers s).length := by
    rw [List.countP_map]
    exact List.countP_eq_length.mpr fun _ _ => rfl
  rcases mainActivityItems_cases hone hexpanded with ⟨_, hitems⟩ | ⟨listed, _, hitems⟩
  · rw [hitems, List.countP_cons, hcalls]
    rfl
  · have hpeers : ((roomPeers s listed).map (MainActivityItem.roomPeer listed)).countP
        MainActivityItem.isCallPeer = 0 := by
      rw [List.countP_map]
      exact List.countP_eq_zero.mpr fun _ _ => Bool.false_ne_true
    rw [hitems, List.countP_cons, List.countP_append, List.countP_cons, hcalls, hpeers,
      Nat.zero_add]
    rfl

theorem shown_once_iff {expandedRooms : Finset String}
    (hone : s.rooms.countP RoomSummary.engaged ≤ 1)
    (hexpanded : ∀ room ∈ s.rooms, room.name ∈ expandedRooms)
    (hids : (s.peers.map PeerSummary.peerId).Nodup) (hpeer : peer ∈ s.peers)
    (hroom : peerRoom peer = some roomName) :
    (mainActivityItems s expandedRooms true).countP
        (fun item => item.peer?.any (·.peerId = peer.peerId)) = 1 ↔ RoomAgrees s roomName := by
  rw [countP_shown hone hexpanded hids hpeer hroom, RoomAgrees, ← mem_engagedRooms]
  by_cases hcurrent : roomName = s.currentRoom
  · simp [hcurrent]
  · by_cases hin : roomName ∈ engagedRooms s
    · simp [hin, hcurrent]
    · simp [hin, hcurrent]

/-- A peer is only listed where it is. -/
theorem listed_peer {expandedRooms : Finset String} {item : MainActivityItem}
    (hone : s.rooms.countP RoomSummary.engaged ≤ 1)
    (hexpanded : ∀ room ∈ s.rooms, room.name ∈ expandedRooms)
    (hitem : item ∈ mainActivityItems s expandedRooms true) (hshown : item.peer? = some peer) :
    peer ∈ s.peers ∧ sessionActive peer = true := by
  rcases listed_items hone hexpanded hitem with
    ⟨listed, _, rfl | ⟨other, hother, rfl⟩⟩ | rfl | ⟨other, hother, rfl⟩
  · cases hshown
  · obtain rfl := Option.some.inj hshown
    obtain ⟨hpeer, hroom⟩ := mem_roomPeers.mp hother
    exact ⟨hpeer, sessionActive_of_peerRoom hroom⟩
  · cases hshown
  · obtain rfl := Option.some.inj hshown
    obtain ⟨hpeer, _, hroom, _⟩ := mem_activeCallPeers.mp hother
    exact ⟨hpeer, sessionActive_of_peerRoom hroom⟩

/-- When at most one room is engaged, the groups count right in any case. -/
theorem mainShowsEveryone_iff (hone : s.rooms.countP RoomSummary.engaged ≤ 1)
    (hids : (s.peers.map PeerSummary.peerId).Nodup) : MainShowsEveryone s ↔
      ∀ peer ∈ s.peers, ∀ roomName, peerRoom peer = some roomName → RoomAgrees s roomName := by
  constructor
  · intro hshows peer hpeer roomName hroom
    have hexpanded : ∀ room ∈ s.rooms, room.name ∈ (s.rooms.map RoomSummary.name).toFinset :=
      fun room hin => List.mem_toFinset.mpr (List.mem_map_of_mem hin)
    have honce := (hshows _ hexpanded).once peer hpeer (sessionActive_of_peerRoom hroom)
    exact (shown_once_iff hone hexpanded hids hpeer hroom).mp honce
  · intro hagrees expandedRooms hexpanded
    constructor
    case once =>
      intro peer hpeer hactive
      obtain ⟨roomName, hroom⟩ := peerRoom_of_sessionActive hactive
      exact (shown_once_iff hone hexpanded hids hpeer hroom).mpr (hagrees peer hpeer roomName hroom)
    case listed => exact fun item hitem shown hshown => listed_peer hone hexpanded hitem hshown
    case engaged =>
      intro roomName peer hitem
      rcases listed_items hone hexpanded hitem with
        ⟨listed, hin, heq | ⟨other, _, heq⟩⟩ | heq | ⟨other, _, heq⟩
      · cases heq
      · obtain ⟨rfl, _⟩ := MainActivityItem.roomPeer.inj heq
        exact mem_engagedRooms.mp hin
      · cases heq
      · cases heq
    case rooms =>
      intro roomName engagedUsers hitem
      rcases listed_items hone hexpanded hitem with
        ⟨listed, hin, heq | ⟨other, _, heq⟩⟩ | heq | ⟨other, _, heq⟩
      · obtain ⟨rfl, rfl⟩ := MainActivityItem.roomGroup.inj heq
        exact (countP_roomPeer hone hexpanded hin).symm
      · cases heq
      · cases heq
      · cases heq
    case calls =>
      intro activeCalls hitem
      rcases listed_items hone hexpanded hitem with
        ⟨listed, _, heq | ⟨other, _, heq⟩⟩ | heq | ⟨other, _, heq⟩
      · cases heq
      · cases heq
      · obtain rfl := MainActivityItem.callsGroup.inj heq
        exact (countP_callPeer hone hexpanded).symm
      · cases heq

end

/-- A daemon with its peers and its rooms. -/
structure WholeDaemon (κ : Codec) where
  host : Host κ
  rooms : RoomDaemon

/-- A start restarts both parts, each from a file of its own, so that all runs
in which it is one file are among these. -/
inductive WholeEvent (κ : Codec) (lib : Libp2p)
  | host (event : HostEvent κ lib)
  | rooms (event : RoomEvent lib)
  | restart (book rooms : Option Nat) (displayName localPeerId : String)

namespace WholeDaemon

def start (displayName localPeerId : String) : WholeDaemon κ where
  host := .start displayName localPeerId
  rooms := .start displayName

/-- The session is in the room that was entered last. -/
def status (w : WholeDaemon κ) : FullStatus where
  toDaemonStatus := { w.host.status with
    session := { w.host.status.session with
      roomName := w.rooms.status.roomName
      displayName := w.rooms.status.displayName } }
  rooms := w.rooms.status.rooms

def step (π : Profile) (json : InviteJson) (w : WholeDaemon κ) :
    WholeEvent κ lib → Option (Unit × WholeDaemon κ)
  | .host (.restart _ _ _) | .rooms (.restart _ _) => none
  | .host event => (w.host.step π event).map fun r => ((), { w with host := r.2 })
  | .rooms event => (w.rooms.step json event).map fun r => ((), { w with rooms := r.2 })
  | .restart book rooms displayName localPeerId =>
    (w.host.step π (.restart book displayName localPeerId : HostEvent κ lib)).bind fun r =>
      (w.rooms.step json (.restart rooms displayName : RoomEvent lib)).map fun q => ((), ⟨r.2, q.2⟩)

end WholeDaemon

abbrev WholeTransition (κ : Codec) (lib : Libp2p) :=
  Transition (WholeDaemon κ) (WholeEvent κ lib) Unit

abbrev WholeRun (π : Profile) (json : InviteJson) (displayName localPeerId : String)
    (tr : List (WholeTransition κ lib)) (w : WholeDaemon κ) : Prop :=
  Trace (WholeDaemon.step π json) (WholeDaemon.start displayName localPeerId) tr w

/-- If the step applies a hello, the room in it is an engaged one exactly when
it is that of the session. -/
def KeepsShown (x : WholeTransition κ lib) : Prop :=
  ∀ e, x.input = .host (.event e) →
    ∀ peerId hello, x.before.host.daemon.appliedHello e peerId = some hello →
      RoomAgrees x.before.status (hello.roomName.getD "main")

/-- The rooms of all active peers agree. -/
def PeersAgree (w : WholeDaemon κ) : Prop :=
  ∀ peer ∈ w.host.status.peers, ∀ roomName, peerRoom peer = some roomName →
    RoomAgrees w.status roomName

section

variable {d : Daemon κ} {e : Event κ lib} {state : DaemonStatus} {peerId roomName : String}

theorem peerRoom_congr {peer other : PeerSummary} (h : other.session = peer.session) :
    peerRoom other = peerRoom peer := by
  rw [peerRoom, h, peerRoom]

theorem greetedPeers_rooms {hello : SessionHello} {peer : PeerSummary}
    (hpeer : peer ∈ greetedPeers state peerId hello) :
    peer ∈ state.peers ∨ peerRoom peer = some (hello.roomName.getD "main") := by
  rcases mem_updateOrPush hpeer with hold | ⟨old, _, _, rfl⟩ | ⟨_, rfl⟩
  · exact .inl hold
  · exact .inr rfl
  · exact .inr rfl

/-- An active peer is in the room it was in, or in that of the applied hello. -/
theorem peersAfter_rooms (hbooked : Booked d.status) {peer : PeerSummary}
    (hpeer : peer ∈ d.peersAfter e) (hroom : peerRoom peer = some roomName) :
    (∃ old ∈ d.status.peers, peerRoom old = some roomName) ∨
      ∃ peerId hello, d.appliedHello e peerId = some hello ∧ hello.roomName.getD "main" = roomName := by
  have hupdate : ∀ {test : PeerSummary → Bool} {f : PeerSummary → PeerSummary},
      peer ∈ updateFirst test f d.status.peers → (∀ old, (f old).session = old.session) →
        ∃ old ∈ d.status.peers, peerRoom old = some roomName := by
    intro test f hmem hf
    rcases mem_updateFirst hmem with hold | ⟨old, hold, _, rfl⟩
    · exact ⟨peer, hold, hroom⟩
    · exact ⟨old, hold, (peerRoom_congr (hf old)).symm.trans hroom⟩
  have hgreet : ∀ {greeter : String} {hello : SessionHello},
      peer ∈ greetedPeers d.status greeter hello → d.appliedHello e greeter = some hello →
        (∃ old ∈ d.status.peers, peerRoom old = some roomName) ∨ ∃ peerId hello,
          d.appliedHello e peerId = some hello ∧ hello.roomName.getD "main" = roomName := by
    intro greeter hello hmem happlied
    rcases greetedPeers_rooms hmem with hold | hnew
    · exact .inl ⟨peer, hold, hroom⟩
    · exact .inr ⟨greeter, hello, happlied, Option.some.inj (hnew.symm.trans hroom)⟩
  cases e with
  | connectionEstablished remote endpoint =>
    simp only [Daemon.peersAfter] at hpeer
    split_ifs at hpeer
    · rcases mem_updateOrPush hpeer with hold | ⟨old, hold, _, rfl⟩ | ⟨_, rfl⟩
      · exact .inl ⟨peer, hold, hroom⟩
      · refine .inl ⟨old, hold, ?_⟩
        by_cases hnone : old.session = .none
        · simp [peerRoom, hnone] at hroom
        · simpa [peerRoom, hnone] using hroom
      · simp [peerRoom, newPeer] at hroom
    · exact .inl ⟨peer, hpeer, hroom⟩
  | connectionClosed remote n =>
    simp only [Daemon.peersAfter] at hpeer
    rw [closeStatus_listed hbooked] at hpeer
    exact .inl (hupdate hpeer fun _ => rfl)
  | identifyReceived remote info =>
    simp only [Daemon.peersAfter] at hpeer
    split_ifs at hpeer
    · rcases mem_updateOrPush hpeer with hold | ⟨old, hold, _, rfl⟩ | ⟨_, rfl⟩
      · exact .inl ⟨peer, hold, hroom⟩
      · exact .inl ⟨old, hold, (peerRoom_congr rfl).symm.trans hroom⟩
      · simp [peerRoom, newPeer] at hroom
    · exact .inl ⟨peer, hpeer, hroom⟩
  | sessionHello remote hello channel =>
    simp only [Daemon.peersAfter] at hpeer
    split_ifs at hpeer with hgate
    · exact hgreet hpeer (if_pos ⟨rfl, hgate⟩)
    · exact .inl ⟨peer, hpeer, hroom⟩
  | sessionHelloAck remote hello =>
    simp only [Daemon.peersAfter] at hpeer
    split_ifs at hpeer with hzero
    · exact .inl ⟨peer, hpeer, hroom⟩
    · exact hgreet hpeer (if_pos ⟨rfl, hzero⟩)
  | approvePendingPeer approved whitelist =>
    cases hheld : d.pendingInboundApprovals approved with
    | none =>
      simp only [Daemon.peersAfter, hheld] at hpeer
      exact .inl ⟨peer, hpeer, hroom⟩
    | some pending =>
      simp only [Daemon.peersAfter, hheld] at hpeer
      exact hgreet hpeer (by simp [Daemon.appliedHello, hheld])
  | ping remote => exact .inl (hupdate hpeer fun _ => rfl)
  | renameKnownPeer renamed displayName => exact .inl (hupdate hpeer fun _ => rfl)
  | toggleMutePeer muted => exact .inl (hupdate hpeer fun _ => rfl)
  | setPeerVolumePercent set percent => exact .inl (hupdate hpeer fun _ => rfl)
  | _ => exact .inl ⟨peer, hpeer, hroom⟩

/-- Who sends a hello that is applied is active in its room. -/
theorem exists_peersAfter {hello : SessionHello} (h : d.appliedHello e peerId = some hello) :
    ∃ peer ∈ d.peersAfter e, peerRoom peer = some (hello.roomName.getD "main") := by
  have hgreeted : ∀ greeter, ∃ peer ∈ greetedPeers d.status greeter hello,
      peerRoom peer = some (hello.roomName.getD "main") := by
    intro greeter
    exact exists_updateOrPush_of (fun _ _ => rfl) rfl
  cases e with
  | sessionHello remote given channel =>
    obtain ⟨⟨_, hgate⟩, heq⟩ := Option.ite_none_right_eq_some.mp h
    obtain rfl := Option.some.inj heq
    simp only [Daemon.peersAfter, if_pos hgate]
    exact hgreeted remote.text
  | sessionHelloAck remote given =>
    obtain ⟨⟨_, hzero⟩, heq⟩ := Option.ite_none_right_eq_some.mp h
    obtain rfl := Option.some.inj heq
    simp only [Daemon.peersAfter, if_neg hzero]
    exact hgreeted remote.text
  | approvePendingPeer approved whitelist =>
    obtain ⟨_, hmap⟩ := Option.ite_none_right_eq_some.mp h
    obtain ⟨pending, hheld, rfl⟩ := Option.map_eq_some_iff.mp hmap
    simp only [Daemon.peersAfter, hheld]
    exact hgreeted approved
  | _ => cases h

end

/-- What a step can do. -/
inductive WholeMove (π : Profile) (json : InviteJson) (w : WholeDaemon κ) :
    WholeEvent κ lib → WholeDaemon κ → Prop
  | host (event : HostEvent κ lib) (output : List (Effect κ)) (host : Host κ)
      (hlasting : ∀ index displayName localPeerId, event ≠ .restart index displayName localPeerId)
      (hstep : w.host.step π event = some (output, host)) :
      WholeMove π json w (.host event) { w with host := host }
  | rooms (event : RoomEvent lib) (output : Option ControlResponse) (rooms : RoomDaemon)
      (hlasting : ∀ index displayName, event ≠ .restart index displayName)
      (hstep : w.rooms.step json event = some (output, rooms)) :
      WholeMove π json w (.rooms event) { w with rooms := rooms }
  | restart (book index : Option Nat) (displayName localPeerId : String)
      (output : List (Effect κ)) (output' : Option ControlResponse) (host : Host κ)
      (rooms : RoomDaemon)
      (hhost : w.host.step π (.restart book displayName localPeerId : HostEvent κ lib) =
        some (output, host))
      (hrooms : w.rooms.step json (.restart index displayName : RoomEvent lib) =
        some (output', rooms)) :
      WholeMove π json w (.restart book index displayName localPeerId) ⟨host, rooms⟩

/-- The list and the table are sound. -/
structure WholeSound (w : WholeDaemon κ) : Prop where
  host : Rostered w.host
  rooms : RoomsSound w.rooms

section

variable {π : Profile} {json : InviteJson} {w t : WholeDaemon κ} {x : WholeTransition κ lib}
  {roomName : String}

theorem WholeMove.of_step {e : WholeEvent κ lib} {o : Unit} (h : w.step π json e = some (o, t)) :
    WholeMove π json w e t := by
  have hhost : ∀ {event : HostEvent κ lib},
      (w.host.step π event).map (fun r => ((), { w with host := r.2 })) = some (o, t) →
      (∀ index displayName localPeerId, event ≠ .restart index displayName localPeerId) →
        WholeMove π json w (.host event) t := by
    intro event hmap hlasting
    obtain ⟨⟨output, host⟩, hstep, heq⟩ := Option.map_eq_some_iff.mp hmap
    obtain ⟨_, rfl⟩ := Prod.mk.inj heq
    exact .host event output host hlasting hstep
  have hrooms : ∀ {event : RoomEvent lib},
      (w.rooms.step json event).map (fun r => ((), { w with rooms := r.2 })) = some (o, t) →
      (∀ index displayName, event ≠ .restart index displayName) →
        WholeMove π json w (.rooms event) t := by
    intro event hmap hlasting
    obtain ⟨⟨output, rooms⟩, hstep, heq⟩ := Option.map_eq_some_iff.mp hmap
    obtain ⟨_, rfl⟩ := Prod.mk.inj heq
    exact .rooms event output rooms hlasting hstep
  cases e with
  | host event =>
    cases event with
    | restart index displayName localPeerId => cases h
    | _ => exact hhost h nofun
  | rooms event =>
    cases event with
    | restart index displayName => cases h
    | _ => exact hrooms h nofun
  | restart book index displayName localPeerId =>
    obtain ⟨⟨output, host⟩, hbook, hrest⟩ := Option.bind_eq_some_iff.mp h
    obtain ⟨⟨output', rooms⟩, htable, heq⟩ := Option.map_eq_some_iff.mp hrest
    obtain ⟨_, rfl⟩ := Prod.mk.inj heq
    exact .restart book index displayName localPeerId output output' host rooms hbook htable

theorem WholeSound.start (displayName localPeerId : String) :
    WholeSound (WholeDaemon.start (κ := κ) displayName localPeerId) :=
  ⟨rostered_start displayName localPeerId, .start displayName⟩

theorem WholeMove.sound {e : WholeEvent κ lib} (hmove : WholeMove π json w e t)
    (hsound : WholeSound w) : WholeSound t := by
  cases hmove with
  | host event output host hlasting hstep => exact ⟨hsound.host.step hstep, hsound.rooms⟩
  | rooms event output rooms hlasting hstep => exact ⟨hsound.host, hsound.rooms.step hstep⟩
  | restart book index displayName localPeerId output output' host rooms hhost hrooms =>
    exact ⟨hsound.host.step hhost, hsound.rooms.step hrooms⟩

theorem roomAgrees_iff_marks {host : Host κ} {d : RoomDaemon} :
    RoomAgrees (WholeDaemon.status ⟨host, d⟩) roomName ↔
      ((roomName, true) ∈ roomMarks d.status.rooms ↔ roomName = d.status.roomName.getD "main") := by
  have hmarks : (roomName, true) ∈ roomMarks d.status.rooms ↔
      ∃ room ∈ d.status.rooms, room.engaged = true ∧ room.name = roomName := by
    simp only [roomMarks, List.mem_map, Prod.mk.injEq]
    exact exists_congr fun room => and_congr_right fun _ => and_comm
  rw [hmarks]
  rfl

/-- Entering a room makes all rooms agree, and other requests keep what does. -/
theorem RoomsStep.agrees {host : Host κ} {d d' : RoomDaemon} {e : RoomEvent lib}
    (hstep : RoomsStep json d e d') (hagrees : RoomAgrees (WholeDaemon.status ⟨host, d⟩) roomName) :
    RoomAgrees (WholeDaemon.status ⟨host, d'⟩) roomName := by
  rw [roomAgrees_iff_marks, roomMarks_edits hstep.edits, hstep.roomName]
  cases enteredRoom json e with
  | none => exact roomAgrees_iff_marks.mp hagrees
  | some entered =>
    simp only [InviteState.entering, Option.some_or, Option.getD_some]
    constructor
    · intro hmark
      exact (Option.some.inj ((createOrUpdateRoom_engagedAs.marks _ hmark).mp rfl)).symm
    · rintro rfl
      obtain ⟨room, hroom, hname, _⟩ := engaged_createOrUpdateRoom d.status.rooms roomName
        d.status.localPeerId d.status.displayName
      refine List.mem_map.mpr ⟨room, List.mem_of_find?_eq_some hroom, ?_⟩
      rw [hname, List.find?_some hroom]

theorem DaemonStatus.SameRows.rooms {s s' : DaemonStatus} (h : s.SameRows s') :
    (∃ peer ∈ s'.peers, peerRoom peer = some roomName) ↔
      ∃ peer ∈ s.peers, peerRoom peer = some roomName := by
  have hrooms : s'.peers.map peerRoom = s.peers.map peerRoom := by
    have hsame := congrArg (List.map fun p : String × PeerSessionState => match p.2 with
      | .active roomName _ => some (roomName.getD "main")
      | _ => none) h.contacts.sessions
    rw [List.map_map, List.map_map] at hsame
    exact hsame
  rw [← List.mem_map, ← List.mem_map, hrooms]

theorem peersAgree_iff_rooms : PeersAgree w ↔
    ∀ roomName, (∃ peer ∈ w.host.status.peers, peerRoom peer = some roomName) →
      RoomAgrees w.status roomName :=
  ⟨fun h roomName ⟨peer, hpeer, hroom⟩ => h peer hpeer roomName hroom,
    fun h peer hpeer roomName hroom => h roomName ⟨peer, hpeer, hroom⟩⟩

/-- An event of the network leaves the rooms, so that it only matters which
room a new active peer is in. -/
theorem event_agrees {e : Event κ lib} {o : List (Effect κ)} {host : Host κ}
    (hstep : w.host.step π (.event e) = some (o, host)) (hbooked : Booked w.host.status)
    (hagrees : PeersAgree w) : PeersAgree { w with host := host } ↔
      ∀ peerId hello, w.host.daemon.appliedHello e peerId = some hello →
        RoomAgrees w.status (hello.roomName.getD "main") := by
  have hrooms : ∀ roomName, (∃ peer ∈ host.status.peers, peerRoom peer = some roomName) ↔
      ∃ peer ∈ w.host.daemon.peersAfter e, peerRoom peer = some roomName := by
    intro roomName
    rw [(Host.step_rows hstep).rooms, Daemon.rowsAfter_peers]
  have hsame : ∀ roomName, RoomAgrees (WholeDaemon.status { w with host := host }) roomName ↔
      RoomAgrees w.status roomName := fun _ => roomAgrees_iff_marks.trans roomAgrees_iff_marks.symm
  rw [peersAgree_iff_rooms]
  constructor
  · intro hafter peerId hello happlied
    exact (hsame _).mp (hafter _ ((hrooms _).mpr (exists_peersAfter happlied)))
  · intro hkeeps roomName hpeer
    obtain ⟨peer, hin, hroom⟩ := (hrooms roomName).mp hpeer
    refine (hsame roomName).mpr ?_
    rcases peersAfter_rooms hbooked hin hroom with
      ⟨old, hold, hroom⟩ | ⟨peerId, hello, happlied, rfl⟩
    · exact hagrees old hold roomName hroom
    · exact hkeeps peerId hello happlied

theorem WholeMove.agrees (hmove : WholeMove π json x.before x.input x.after)
    (hsound : WholeSound x.before) (hagrees : PeersAgree x.before) :
    PeersAgree x.after ↔ KeepsShown x := by
  obtain ⟨before, input, output, after⟩ := x
  dsimp only at hmove hsound hagrees ⊢
  cases hmove with
  | host event output host hlasting hstep =>
    have hidle : (∀ e, event ≠ .event e) → (PeersAgree { before with host := host } ↔
        KeepsShown (⟨before, .host event, (), { before with host := host }⟩ :
          WholeTransition κ lib)) := by
      intro hno
      refine iff_of_true ?_ fun e hinput => absurd (WholeEvent.host.inj hinput) (hno e)
      intro peer hpeer roomName hroom
      rcases (HostMove.of_step hstep).idle hno with ⟨hpeers, _⟩ | hnone
      · have hbefore := hagrees peer (hpeers ▸ hpeer) roomName hroom
        exact roomAgrees_iff_marks.mpr (roomAgrees_iff_marks.mp hbefore)
      · rw [hnone] at hpeer
        cases hpeer
    cases event with
    | event e =>
      rw [event_agrees hstep hsound.host.booked hagrees]
      constructor
      · intro hkeeps e' hinput
        obtain rfl := HostEvent.event.inj (WholeEvent.host.inj hinput)
        exact hkeeps
      · exact fun hkeeps => hkeeps e rfl
    | _ => exact hidle fun _ h => by cases h
  | rooms event output rooms hlasting hstep =>
    refine iff_of_true ?_ fun _ hinput => by cases hinput
    intro peer hpeer roomName hroom
    rcases step_rooms hstep with ⟨index, displayName, _, rfl, _⟩ | hrooms
    · exact absurd rfl (hlasting index displayName)
    · exact hrooms.agrees (hagrees peer hpeer roomName hroom)
  | restart book index displayName localPeerId output output' host rooms hhost hrooms =>
    -- a daemon that starts has no peers
    refine iff_of_true ?_ fun _ hinput => by cases hinput
    obtain ⟨_, _, heq⟩ := Option.map_eq_some_iff.mp hhost
    obtain ⟨_, rfl⟩ := Prod.mk.inj heq
    exact fun peer hpeer => absurd hpeer List.not_mem_nil

/-- Along a run from a first start the screen shows everyone exactly when each
applied hello is for a room that agrees. -/
theorem main_shows_everyone_iff {displayName localPeerId : String}
    {tr : List (WholeTransition κ lib)} (hrun : WholeRun π json displayName localPeerId tr w) :
    (∀ x ∈ tr, MainShowsEveryone x.before.status ∧ MainShowsEveryone x.after.status) ↔
      ∀ x ∈ tr, KeepsShown x := by
  have hshows : ∀ {w : WholeDaemon κ}, WholeSound w →
      (MainShowsEveryone w.status ↔ PeersAgree w) := fun hsound =>
    mainShowsEveryone_iff hsound.rooms.status.engaged hsound.host.unique.status.peers
  have hsound : ∀ (s : WholeDaemon κ) (i : WholeEvent κ lib) (o : Unit) (t : WholeDaemon κ),
      WholeSound s → s.step π json i = some (o, t) → WholeSound t :=
    fun _ _ _ _ hsound hstep => (WholeMove.of_step hstep).sound hsound
  refine hrun.invariant_iff_under (J := WholeSound) (I := fun w => MainShowsEveryone w.status)
    hsound ?_ (.start displayName localPeerId) ?_
  · intro x hstep hbefore hshown
    rw [hshows (hsound _ _ _ _ hbefore hstep)]
    exact (WholeMove.of_step hstep).agrees hbefore ((hshows hbefore).mp hshown)
  · refine (hshows (.start displayName localPeerId)).mpr ?_
    exact fun peer hpeer => absurd hpeer List.not_mem_nil

end

/-- A peer that asks for no room and is approved before a room is made. -/
def roomlessGuest : List (WholeEvent silentCodec sampleLibp2p) :=
  [.rooms (.assignLocalPeerId localPeer), .host (.event (.connectionEstablished remote incoming)),
    .host (.event (.sessionHello remote { sampleHello with roomName := none } 0)),
    .host (.event (.approvePendingPeer remotePeer false))]

/-- The peer is in the room of the session, which is not in the table. -/
theorem roomlessGuest_run : ∃ (tr : List (WholeTransition silentCodec sampleLibp2p))
    (w : WholeDaemon silentCodec), tr.map Transition.input = roomlessGuest ∧
    WholeRun .release serdeJson "local-user" localPeer tr w ∧
      ∃ x ∈ tr, x.after.status.rooms = [] ∧ x.after.status.peers.map peerRoom = [some "main"] ∧
        x.after.status.currentRoom = "main" := by
  have hrooms : (execute (WholeDaemon.step .release serdeJson)
      (WholeDaemon.start (κ := silentCodec) "local-user" localPeer) roomlessGuest).map (fun r =>
        r.1.map fun x => (x.after.status.rooms.length, x.after.status.peers.map peerRoom,
          x.after.status.currentRoom)) =
      some [(0, [], "main"), (0, [], "main"), (0, [], "main"), (0, [some "main"], "main")] := by
    decide +kernel
  obtain ⟨⟨tr, w⟩, hrun, htr⟩ := Option.map_eq_some_iff.mp hrooms
  have hlast : (0, [some "main"], "main") ∈ tr.map fun x => (x.after.status.rooms.length,
      x.after.status.peers.map peerRoom, x.after.status.currentRoom) := by
    rw [htr]
    simp
  obtain ⟨x, hx, hseen⟩ := List.mem_map.mp hlast
  simp only [Prod.mk.injEq] at hseen
  obtain ⟨hempty, hpeers, hcurrent⟩ := hseen
  exact ⟨tr, w, execute_inputs hrun, execute_trace hrun, x, hx,
    List.eq_nil_of_length_eq_zero hempty, hpeers, hcurrent⟩

theorem roomlessGuest_hidden : ¬ ∀ (tr : List (WholeTransition silentCodec sampleLibp2p))
    (w : WholeDaemon silentCodec), WholeRun .release serdeJson "local-user" localPeer tr w →
      ∀ x ∈ tr, MainShowsEveryone x.before.status ∧ MainShowsEveryone x.after.status := by
  intro hall
  obtain ⟨tr, w, _, hrun, x, hx, hempty, hpeers, hcurrent⟩ := roomlessGuest_run
  have hshows := (hall tr w hrun x hx).2
  obtain ⟨peer, hpeer, hroom⟩ : ∃ peer ∈ x.after.status.peers, peerRoom peer = some "main" := by
    rw [← List.mem_map, hpeers]
    exact List.mem_singleton_self _
  have hcalls : activeCallPeers x.after.status = [] := by
    refine List.eq_nil_iff_forall_not_mem.mpr fun other hother => ?_
    obtain ⟨hin, roomName, hactive, hne⟩ := mem_activeCallPeers.mp hother
    have hmem : some roomName ∈ x.after.status.peers.map peerRoom :=
      hactive ▸ List.mem_map_of_mem hin
    rw [hpeers, List.mem_singleton, Option.some.injEq] at hmem
    exact hne (hmem.trans hcurrent.symm)
  have honce := (hshows ∅ (by simp [hempty])).once peer hpeer (sessionActive_of_peerRoom hroom)
  simp [mainActivityItems, engagedRooms, hempty, hcalls, MainActivityItem.peer?] at honce

theorem main_shows_everyone_iff_roomlessGuest :
    ∃ (tr : List (WholeTransition silentCodec sampleLibp2p)) (w : WholeDaemon silentCodec),
      tr.map Transition.input = roomlessGuest ∧
      WholeRun .release serdeJson "local-user" localPeer tr w ∧
      ((∀ x ∈ tr, MainShowsEveryone x.before.status ∧ MainShowsEveryone x.after.status) ↔
        ∀ x ∈ tr, KeepsShown x) := by
  obtain ⟨tr, w, hinputs, hrun, _⟩ := roomlessGuest_run
  exact ⟨tr, w, hinputs, hrun, main_shows_everyone_iff hrun⟩

end Voicers
