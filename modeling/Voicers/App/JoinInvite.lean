import Voicers.App.RoomTable
import Voicers.Media.Receive
import Voicers.Network.BookEdits
import Voicers.Network.InviteOwn

/-! An invite from the host that makes it to the guest that joins with it. -/

namespace Voicers

open Lib

/-- The invites `update_share_invite` makes for a state, each with the room it
leads to. -/
inductive InviteState.Offers (json : InviteJson) (lib : Libp2p) (host : InviteState) :
    String → Option String → Prop
  | direct {invite : String} (hinvite : host.bestDirectCallInvite lib json = some invite) :
      host.Offers json lib invite none
  | room {invite roomName : String} {roomInvite : RoomInviteSummary}
      (hshown : host.shownRoomInvite = some (roomName, roomInvite))
      (hinvite : host.bestRoomInvite lib json roomName roomInvite = some invite) :
      host.Offers json lib invite (some roomName)

/-- The daemon that joins: its network task and its rooms. -/
structure Guest (κ : Codec) where
  daemon : Daemon κ
  rooms : InviteState

namespace Guest

variable {κ : Codec}

def setRoom (g : Guest κ) : Guest κ :=
  { g with daemon := g.daemon.withStatus fun status =>
      { status with session := { status.session with roomName := g.rooms.roomName } } }

/-- `JoinPeer` up to the dial. -/
def joinPeer (json : InviteJson) (g : Guest κ) (address : String) (nowMs : Nat) : Guest κ :=
  let plan := handleJoinPeer json address nowMs
  let hinted : Guest κ := match plan.hints with
    | none => g
    | some invite => { g with daemon := g.daemon.withStatus fun status => seedInviteHints status invite }
  if plan.adoptedRoom.isSome then setRoom { hinted with rooms := g.rooms.join plan } else hinted

end Guest

section

theorem isWhiteSpace_of_trim_eq_empty {text : String} (h : trim text = "") :
    ∀ c ∈ text.toList, isWhiteSpace c = true := by
  have hnil : (text.toList.dropWhile isWhiteSpace).rdropWhile isWhiteSpace = [] := by
    rw [← toList_trim, h]
    rfl
  have hall := List.rdropWhile_eq_nil_iff.mp hnil
  apply List.dropWhile_eq_nil_iff.mp
  by_contra hne
  have hhead := List.head?_dropWhile_not isWhiteSpace text.toList
  rw [List.head?_eq_some_head hne] at hhead
  have hwhite := hall _ (List.head_mem hne)
  simp [hwhite] at hhead

theorem slash_mem_of_textContains {text : String} (h : textContains text "/p2p/" = true) :
    '/' ∈ text.toList := by
  obtain ⟨rest, hrest, hprefix⟩ := List.any_eq_true.mp h
  have hsuffix := (List.mem_tails _ _).mp hrest
  have hslash : '/' ∈ "/p2p/".toList := by decide
  exact hsuffix.subset ((List.isPrefixOf_iff_prefix.mp hprefix).subset hslash)

/-- An address that is shared has a slash in it. -/
theorem trim_ne_empty_of_shareable {lib : Libp2p} {address localPeerId shareable : String}
    (h : shareableAddress lib address localPeerId = some shareable) : trim shareable ≠ "" := by
  have hslash : '/' ∈ shareable.toList := by
    obtain ⟨_, h⟩ := Option.ite_none_left_eq_some.mp h
    cases hparse : lib.parseMultiaddr address with
    | none => simp [hparse] at h
    | some multiaddr =>
      simp only [hparse] at h
      split_ifs at h with hshare hp2p
      · obtain rfl := Option.some.inj h
        exact slash_mem_of_textContains hp2p
      · obtain rfl := Option.some.inj h
        simp
  intro hempty
  have hwhite := isWhiteSpace_of_trim_eq_empty hempty '/' hslash
  exact absurd hwhite (by decide)

theorem InviteState.trimAddrs_inviteAddrs (lib : Libp2p) (host : InviteState) :
    trimAddrs (host.inviteAddrs lib) = (host.inviteAddrs lib).map trim := by
  refine List.filter_eq_self.mpr fun a ha => ?_
  obtain ⟨b, hb, rfl⟩ := List.mem_map.mp ha
  obtain ⟨_, _, hshare⟩ := InviteState.mem_inviteAddrs hb
  simpa using trim_ne_empty_of_shareable hshare

end

section

variable {json : InviteJson} {lib : Libp2p} {self : LocalPeerId} {host : RoomDaemon}
  {invite : String} {room : Option String}

theorem handleJoinPeer_encodeInvite (payload : CompactInviteV1) (nowMs : Nat) :
    handleJoinPeer json (encodeInvite json payload) nowMs =
      { hints := some payload.trimmed
        adoptedRoom := if payload.kind = .room then trimOption payload.roomName else none
        dialTarget := (codeTarget payload.trimmed nowMs).getD (trim payload.peerId) } := by
  rw [handleJoinPeer, parseJoinTarget_encodeInvite]
  rfl

/-- What an invite says to the guest that decodes it. -/
structure Conveys (json : InviteJson) (invite peerId : String) (addrs : List String)
    (room : Option String) (hints : CompactInviteV1) : Prop where
  parsed : parseJoinTarget json invite = .invite hints
  names : hints.peerId = peerId
  lists : hints.addrs = addrs
  usable : trimAddrs addrs = addrs
  nonempty : addrs ≠ []
  normal : room.map normalizeRoomName = room
  leads : ∀ nowMs, handleJoinPeer json invite nowMs =
    { hints := some hints, adoptedRoom := room, dialTarget := peerId }

theorem trimAddrs_map_trim (lib : Libp2p) (s : InviteState) :
    trimAddrs ((s.inviteAddrs lib).map trim) = (s.inviteAddrs lib).map trim := by
  rw [← InviteState.trimAddrs_inviteAddrs, trimAddrs_trimAddrs]

theorem conveys_direct {s : InviteState} (hid : s.localPeerId = self.text)
    (hinvite : s.bestDirectCallInvite lib json = some invite) :
    ∃ hints, Conveys json invite self.text ((s.inviteAddrs lib).map trim) none hints := by
  obtain ⟨haddrs, hmade⟩ := Option.ite_none_left_eq_some.mp hinvite
  obtain rfl := Option.some.inj hmade
  refine ⟨_, {
    parsed := parseJoinTarget_encodeInvite _ _
    names := ?_
    lists := (trimAddrs_trimAddrs _).trans (InviteState.trimAddrs_inviteAddrs lib s)
    usable := trimAddrs_map_trim lib s
    nonempty := by simpa using haddrs
    normal := rfl
    leads := fun nowMs => ?_ }⟩
  · simp only [CompactInviteV1.trimmed, hid, self.trimmed]
  · rw [encodePeerCompactInvite, handleJoinPeer_encodeInvite]
    simp [CompactInviteV1.trimmed, codeTarget, hid, self.trimmed]

/-- The addresses of a room invite are never left out, so its code is not dialed. -/
theorem conveys_room {s : InviteState} {roomName : String} {roomInvite : RoomInviteSummary}
    (hid : s.localPeerId = self.text) (htrim : trim roomName = roomName) (hne : roomName ≠ "")
    (hinvite : s.bestRoomInvite lib json roomName roomInvite = some invite) :
    ∃ hints, Conveys json invite self.text ((s.inviteAddrs lib).map trim) (some roomName) hints := by
  obtain ⟨hsome, hmade⟩ := Option.ite_none_left_eq_some.mp hinvite
  obtain rfl := Option.some.inj hmade
  have haddrs : (s.inviteAddrs lib).map trim ≠ [] := by
    simpa using (not_or.mp hsome).1
  have hlisted : trimAddrs (trimAddrs (s.inviteAddrs lib)) ≠ [] := by
    rwa [trimAddrs_trimAddrs, InviteState.trimAddrs_inviteAddrs]
  refine ⟨_, {
    parsed := parseJoinTarget_encodeInvite _ _
    names := ?_
    lists := (trimAddrs_trimAddrs _).trans (InviteState.trimAddrs_inviteAddrs lib s)
    usable := trimAddrs_map_trim lib s
    nonempty := haddrs
    normal := by simp [normalizeRoomName, htrim, hne]
    leads := fun nowMs => ?_ }⟩
  · simp only [CompactInviteV1.trimmed, hid, self.trimmed]
  · rw [encodeRoomCompactInvite, handleJoinPeer_encodeInvite]
    simp [CompactInviteV1.trimmed, codeTarget, hlisted, trimOption, htrim, hne, hid, self.trimmed]

/-- In every state a daemon can reach its room is known by its trimmed name. -/
theorem InviteState.Offers.conveys {displayName : String} {tr : List (RoomTransition lib)}
    (hrun : RoomRun json displayName tr host) (hid : host.status.localPeerId = self.text)
    (h : host.status.Offers json lib invite room) :
    ∃ hints, Conveys json invite self.text ((host.status.inviteAddrs lib).map trim) room hints := by
  cases h with
  | direct hinvite => exact conveys_direct hid hinvite
  | room hshown hinvite =>
    obtain ⟨entered, hengaged, rfl, _⟩ := engaged_of_shownRoomInvite hshown
    have hformed := (RoomsSound.run hrun).status.formed entered (List.mem_of_find?_eq_some hengaged)
    exact conveys_room hid hformed.trimmed hformed.named hinvite

end

namespace Guest

section

variable {κ : Codec} {json : InviteJson} {lib : Libp2p} {g : Guest κ} {invite peerId : String}
  {addrs : List String} {room : Option String} {hints : CompactInviteV1}

/-- The book and the room of a guest that has joined. -/
theorem joinPeer_conveyed (h : Conveys json invite peerId addrs room hints) (nowMs : Nat) :
    (g.joinPeer json invite nowMs).daemon.status.network =
        (seedInviteHints g.daemon.status hints).network ∧
      (g.joinPeer json invite nowMs).daemon.status.session.roomName =
        room.or g.daemon.status.session.roomName := by
  rw [← h.normal]
  unfold joinPeer
  rw [h.leads nowMs]
  cases room with
  | none => exact ⟨rfl, rfl⟩
  | some roomName => exact ⟨rfl, rfl⟩

/-- The entry of the host in the book of the guest. -/
theorem joinPeer_entry (h : Conveys json invite peerId addrs room hints) (nowMs : Nat) :
    ∃ entry, (g.joinPeer json invite nowMs).daemon.status.knownPeer? peerId = some entry ∧
      ∀ a ∈ addrs, a ∈ entry.addresses := by
  obtain ⟨hnetwork, _⟩ := joinPeer_conveyed (g := g) h nowMs
  have hentry := knownPeer?_seedInviteHints g.daemon.status hints
  rw [h.names, h.lists] at hentry
  unfold DaemonStatus.knownPeer? at hentry ⊢
  rw [hnetwork]
  refine ⟨_, hentry, fun a ha => ?_⟩
  rw [← h.usable] at ha
  rw [hintedEntry_eq]
  exact mem_foldl_pushUnique.mpr (.inr ha)

theorem joinPeer_unignored (h : Conveys json invite peerId addrs room hints) (nowMs : Nat) :
    peerId ∉ (g.joinPeer json invite nowMs).daemon.status.network.ignoredPeerIds := by
  obtain ⟨hnetwork, _⟩ := joinPeer_conveyed (g := g) h nowMs
  rw [hnetwork, seedInviteHints_eq, ← h.names]
  simp [NetworkSummary.refreshUserViews]

end

end Guest

/-- A dial looks for a record exactly when what it would dial is no address. -/
theorem Daemon.dialPeer_looksUp {κ : Codec} {lib : Libp2p} (d : Daemon κ) (address : String)
    (query : Nat) (dialed : Bool) :
    (∃ key, Effect.getRecord key ∈ (d.dialPeer lib address query dialed).2) ↔
      lib.parseMultiaddr (resolveRankedDialTarget lib d.status.network address).primary = none := by
  simp only [dialPeer]
  cases hparse : lib.parseMultiaddr
      (resolveRankedDialTarget lib d.status.network address).primary with
  | some multiaddr =>
    refine iff_of_false ?_ (Option.some_ne_none _)
    rintro ⟨key, hkey⟩
    simp only [dialRankedTarget] at hkey
    split_ifs at hkey
    · cases hpeer : (resolveRankedDialTarget lib d.status.network address).peerId with
      | none => simp [hpeer] at hkey
      | some peerId => simp [hpeer] at hkey
    · cases hkey
  | none =>
    refine iff_of_true ?_ rfl
    cases (resolveRankedDialTarget lib d.status.network address).peerId with
    | none => exact ⟨_, List.mem_singleton_self _⟩
    | some peerId => exact ⟨_, List.mem_singleton_self _⟩

/-- What a guest that has joined can do to reach the host. -/
structure Guest.Reaches {κ : Codec} (lib : Libp2p) (joined : Guest κ) (hostId : String)
    (addrs : List String) : Prop where
  known : ∃ entry, joined.daemon.status.knownPeer? hostId = some entry ∧
    ∀ a ∈ addrs, a ∈ entry.addresses
  unignored : hostId ∉ joined.daemon.status.network.ignoredPeerIds
  peerId : (resolveRankedDialTarget lib joined.daemon.status.network hostId).peerId = some hostId
  listed : ∀ a ∈ addrs,
    a ∈ (resolveRankedDialTarget lib joined.daemon.status.network hostId).primary ::
      (resolveRankedDialTarget lib joined.daemon.status.network hostId).fallbacks
  distinct : ((resolveRankedDialTarget lib joined.daemon.status.network hostId).primary ::
    (resolveRankedDialTarget lib joined.daemon.status.network hostId).fallbacks).Nodup
  looksUp : ∀ query dialed,
    (∃ key, Effect.getRecord key ∈ (joined.daemon.dialPeer lib hostId query dialed).2) ↔
      lib.parseMultiaddr
        (resolveRankedDialTarget lib joined.daemon.status.network hostId).primary = none

section

variable {κ : Codec} {json : InviteJson} {lib : Libp2p} {self : LocalPeerId} {host : RoomDaemon}
  {displayName invite : String} {tr : List (RoomTransition lib)} {room : Option String}

theorem Guest.reaches {joined : Guest κ} {addrs : List String} (hne : addrs ≠ [])
    (hknown : ∃ entry, joined.daemon.status.knownPeer? self.text = some entry ∧
      ∀ a ∈ addrs, a ∈ entry.addresses)
    (hunignored : self.text ∉ joined.daemon.status.network.ignoredPeerIds) :
    joined.Reaches lib self.text addrs := by
  obtain ⟨entry, hentry, haddrs⟩ := hknown
  have hresolve : resolveRankedDialTarget lib joined.daemon.status.network self.text =
      rankedTarget self.text self.text
        (rankKnownPeerAddresses lib joined.daemon.status.network entry none) := by
    have hknown : joined.daemon.status.network.knownPeers.find?
        (fun p => p.peerId = trim self.text) = some entry := by
      rw [self.trimmed]
      exact hentry
    have hfound := resolveRankedDialTarget_known lib hknown
    rwa [self.trimmed] at hfound
  have hranked : ∀ a ∈ addrs,
      a ∈ rankKnownPeerAddresses lib joined.daemon.status.network entry none :=
    fun a ha => mem_rankKnownPeerAddresses.mpr (.inr (.inr (haddrs a ha)))
  obtain ⟨first, hfirst⟩ := List.exists_mem_of_ne_nil addrs hne
  have htarget := rankedTarget_addresses self.text self.text
    (List.ne_nil_of_mem (hranked first hfirst))
  refine ⟨⟨entry, hentry, haddrs⟩, hunignored, ?_, ?_, ?_, fun query dialed =>
    joined.daemon.dialPeer_looksUp self.text query dialed⟩
  · rw [hresolve]
    rfl
  · rw [hresolve, htarget]
    exact hranked
  · rw [hresolve, htarget]
    exact nodup_rankKnownPeerAddresses

/-- A guest that joins with an invite of a host knows the addresses in it and
dials the host by them. It looks for a record of the host when the address it
ranks first, which it may have from elsewhere, is none. -/
theorem invite_reaches_host (hrun : RoomRun json displayName tr host)
    (hid : host.status.localPeerId = self.text) (hoffers : host.status.Offers json lib invite room)
    (guest : Guest κ) (nowMs : Nat) :
    advertised json lib invite = (host.status.inviteAddrs lib).map trim ∧
      (handleJoinPeer json invite nowMs).dialTarget = self.text ∧
      (guest.joinPeer json invite nowMs).Reaches lib self.text (advertised json lib invite) ∧
      (guest.joinPeer json invite nowMs).daemon.status.session.roomName =
        room.or guest.daemon.status.session.roomName := by
  obtain ⟨hints, hconveys⟩ := hoffers.conveys hrun hid
  have hadvertised : advertised json lib invite = (host.status.inviteAddrs lib).map trim := by
    rw [advertised, hconveys.parsed]
    exact hconveys.lists
  refine ⟨hadvertised, by rw [hconveys.leads nowMs], ?_, (Guest.joinPeer_conveyed hconveys nowMs).2⟩
  rw [hadvertised]
  exact Guest.reaches hconveys.nonempty (Guest.joinPeer_entry hconveys nowMs)
    (Guest.joinPeer_unignored hconveys nowMs)

end

/-- A guest that was given a host name for an address before. -/
def misledGuest : Guest silentCodec where
  daemon := .start (seedInviteHints (DaemonStatus.fresh foreignPeer)
    { lanInvite with addrs := ["host.example"] })
  rooms := .load .default "guest"

def lanHost : List (RoomEvent hostLibp2p) :=
  [.assignLocalPeerId hostPeerId.text, .swarm (.newListenAddr hostMultiaddr)]

def roomRun (json : InviteJson) (events : List (RoomEvent hostLibp2p)) :
    Option (List (RoomTransition hostLibp2p) × RoomDaemon) :=
  execute (RoomDaemon.step json) (RoomDaemon.start "host") events

def formerPeer : String := "12D3KooWBayjuH3M3R4hv1RJ5sMhtC28SwkcVPkBuotrQ7t4Kw1w"

/-- An invite of a host in its former life, under the identity it then had. -/
def formerInvite : CompactInviteV1 where
  v := 1
  kind := .room
  peerId := formerPeer
  addrs := [hostAddr ++ "/p2p/" ++ formerPeer]
  inviteCode := some "c0ffee00"
  roomName := some "lab"
  expiresAtMs := some 5

/-- The host's life up to the join: it has saved a room, whose invite its new
life does not refresh. -/
def reenteredRoom : List (RoomEvent hostLibp2p) :=
  [.assignLocalPeerId formerPeer, .swarm (.newListenAddr hostMultiaddr),
    .createRoom "lab" "c0ffee00" 5, .createRoom "den" "0ddba115" 5,
    .saveFull StateFile.default.toPersistedState, .restart (some 0) "host",
    .assignLocalPeerId hostPeerId.text, .swarm (.newListenAddr hostMultiaddr)]

theorem step_joinPeer_formerInvite (d : RoomDaemon) (nowMs : Nat) :
    d.step serdeJson (.joinPeer (encodeInvite serdeJson formerInvite) nowMs : RoomEvent hostLibp2p) =
      d.serve none (d.status.adoptRoomInvite "lab") := by
  simp only [RoomDaemon.step, handleJoinPeer_encodeInvite]
  congr 1

set_option maxRecDepth 8000 in
theorem reenteredRoom_rejoins :
    (roomRun serdeJson reenteredRoom).map (fun r =>
      (r.2.started, (r.2.status.adoptRoomInvite "lab").localPeerId,
        ((r.2.status.adoptRoomInvite "lab").inviteAddrs hostLibp2p).isEmpty,
        (r.2.status.adoptRoomInvite "lab").shownRoomInvite.bind fun shown => shown.2.shareInvite)) =
      some (true, hostPeerId.text, false, some (encodeInvite serdeJson formerInvite)) := by
  rfl

theorem formerInvite_target (json : InviteJson) :
    (handleJoinPeer json (encodeInvite json formerInvite) 0).dialTarget ≠ hostPeerId.text := by
  rw [handleJoinPeer_encodeInvite]
  decide +kernel

theorem reenteredRoom_names_former :
    ∃ (tr : List (RoomTransition hostLibp2p)) (host : RoomDaemon) (shown : String × RoomInviteSummary)
      (invite : String), RoomRun serdeJson "host" tr host ∧
      host.status.localPeerId = hostPeerId.text ∧ host.status.inviteAddrs hostLibp2p ≠ [] ∧
      host.status.shownRoomInvite = some shown ∧ shown.2.shareInvite = some invite ∧
      (handleJoinPeer serdeJson invite 0).dialTarget ≠ hostPeerId.text := by
  obtain ⟨⟨tr, saved⟩, hrun, hhost⟩ := Option.map_eq_some_iff.mp reenteredRoom_rejoins
  simp only [Prod.mk.injEq] at hhost
  obtain ⟨hstarted, hid, haddrs, hshare⟩ := hhost
  obtain ⟨shown, hshown, hinvite⟩ := Option.bind_eq_some_iff.mp hshare
  have hjoin := step_joinPeer_formerInvite saved 0
  rw [RoomDaemon.serve, if_pos hstarted] at hjoin
  exact ⟨_, _, shown, _, Trace.append_iff.mpr ⟨saved, execute_trace hrun, .cons hjoin (.nil _)⟩, hid,
    by simpa using haddrs, hshown, hinvite, formerInvite_target serdeJson⟩

set_option maxRecDepth 8000 in
theorem lanHost_invites :
    (roomRun serdeJson lanHost).map (fun r =>
      (r.2.status.localPeerId, r.2.status.directCallInvite,
        r.2.status.bestDirectCallInvite hostLibp2p serdeJson)) =
      some (hostPeerId.text, some (encodeInvite serdeJson lanInvite),
        some (encodeInvite serdeJson lanInvite)) := by
  rfl

theorem lanHost_offers :
    ∃ (tr : List (RoomTransition hostLibp2p)) (host : RoomDaemon),
      RoomRun serdeJson "host" tr host ∧
      host.status.localPeerId = hostPeerId.text ∧
      host.status.directCallInvite = some (encodeInvite serdeJson lanInvite) ∧
      host.status.Offers serdeJson hostLibp2p
        (encodeInvite serdeJson lanInvite) none := by
  obtain ⟨⟨tr, host⟩, hrun, hhost⟩ := Option.map_eq_some_iff.mp lanHost_invites
  simp only [Prod.mk.injEq] at hhost
  obtain ⟨hid, hshown, hinvite⟩ := hhost
  exact ⟨tr, host, execute_trace hrun, hid, hshown, .direct hinvite⟩

theorem misledGuest_looksUp :
    ∃ key, Effect.getRecord key ∈ ((misledGuest.joinPeer serdeJson
      (encodeInvite serdeJson lanInvite) 0).daemon.dialPeer hostLibp2p
        hostPeerId.text 0 true).2 := by
  refine (Daemon.dialPeer_looksUp _ _ _ _).mpr ?_
  rw [Guest.joinPeer, handleJoinPeer_encodeInvite]
  decide +kernel

/-- The invite on show may be that of a former identity, and a guest may rank
first what is no address. -/
theorem shownInvite_not_enough :
    (∃ (tr : List (RoomTransition hostLibp2p)) (host : RoomDaemon)
      (shown : String × RoomInviteSummary) (invite : String),
      RoomRun serdeJson "host" tr host ∧
      host.status.localPeerId = hostPeerId.text ∧ host.status.inviteAddrs hostLibp2p ≠ [] ∧
      host.status.shownRoomInvite = some shown ∧ shown.2.shareInvite = some invite ∧
      (handleJoinPeer serdeJson invite 0).dialTarget ≠ hostPeerId.text) ∧
    ∃ (tr : List (RoomTransition hostLibp2p)) (host : RoomDaemon) (invite : String),
      RoomRun serdeJson "host" tr host ∧
      host.status.localPeerId = hostPeerId.text ∧ host.status.directCallInvite = some invite ∧
      host.status.Offers serdeJson hostLibp2p invite none ∧
      ∃ key, Effect.getRecord key ∈ ((misledGuest.joinPeer serdeJson invite 0).daemon
        |>.dialPeer hostLibp2p hostPeerId.text 0 true).2 := by
  refine ⟨reenteredRoom_names_former, ?_⟩
  obtain ⟨tr, host, hrun, hid, hshown, hoffers⟩ := lanHost_offers
  exact ⟨tr, host, _, hrun, hid, hshown, hoffers, misledGuest_looksUp⟩

theorem invite_reaches_host_lanHost :
    ∃ invite, advertised serdeJson hostLibp2p invite = lanInvite.addrs ∧
      (handleJoinPeer serdeJson invite 0).dialTarget = hostPeerId.text ∧
      (misledGuest.joinPeer serdeJson invite 0).Reaches hostLibp2p hostPeerId.text
        (advertised serdeJson hostLibp2p invite) ∧
      (misledGuest.joinPeer serdeJson invite 0).daemon.status.session.roomName =
        none := by
  obtain ⟨tr, host, hrun, hid, _, hoffers⟩ := lanHost_offers
  obtain ⟨_, htarget, hreaches, hroom⟩ := invite_reaches_host hrun hid hoffers misledGuest 0
  refine ⟨_, ?_, htarget, hreaches, hroom⟩
  rw [advertised, parseJoinTarget_encodeInvite]
  decide +kernel

end Voicers
