import Voicers.Network.Dialing

/-! The edits of the peer book one by one: what each function that writes it
makes of the entry of its peer. -/

namespace Voicers

open Lib

variable {lib : Libp2p}

/-- The entry of a peer after `update_known_peer`. -/
def touchedEntry (lib : Libp2p) (peerId : String) (address displayName : Option String)
    (connected seen : Bool) (entry : KnownPeerSummary) : KnownPeerSummary :=
  let normalizedAddr := address.bind fun addr => shareableAddress lib addr peerId
  { entry with
    displayName := displayName.getD entry.displayName
    addresses := match normalizedAddr with
      | some addr => pushUnique entry.addresses addr
      | none => entry.addresses
    lastDialAddr := normalizedAddr.or entry.lastDialAddr
    connected := connected
    seen := entry.seen || seen }

/-- An entry before its first update. -/
def blankEntry (peerId displayName : String) (connected seen : Bool) : KnownPeerSummary where
  peerId := peerId
  displayName := displayName
  addresses := []
  lastDialAddr := none
  connected := connected
  pinned := false
  seen := seen
  whitelisted := false
  trustedContact := false

def unignore (state : DaemonStatus) (peerId : String) : DaemonStatus :=
  { state with network := { state.network with
    ignoredPeerIds := state.network.ignoredPeerIds.filter (· ≠ peerId) } }

def notedEntry (address : String) (entry : KnownPeerSummary) : KnownPeerSummary :=
  { entry with
    addresses := pushUnique entry.addresses address
    lastDialAddr := some address }

/-- An address of a record that is found for the peer. -/
def noteAddress (lib : Libp2p) (peerId : String) (state : DaemonStatus) (address : String) :
    DaemonStatus :=
  let normalized := (shareableAddress lib address peerId).getD (trim address)
  if normalized = "" then state
  else { state with network := { state.network with
    savedPeerAddrs := pushUnique state.network.savedPeerAddrs normalized
    knownPeers := updateFirst (fun entry => entry.peerId = peerId) (notedEntry normalized)
      state.network.knownPeers } }

/-- The addresses of a record as they enter the book. -/
def usableAddrs (lib : Libp2p) (invite : CompactInviteV1) : List String :=
  (invite.addrs.map fun address =>
    (shareableAddress lib address invite.peerId).getD (trim address)).filter (· ≠ "")

/-- The entry of a peer with the addresses of an invite. -/
def hintedEntry (addrs : List String) (entry : KnownPeerSummary) : KnownPeerSummary :=
  addrs.foldl (fun entry address => { entry with
    addresses := pushUnique entry.addresses address
    lastDialAddr := entry.lastDialAddr.or (some address) }) entry

def sessionActive (peer : PeerSummary) : Bool :=
  match peer.session with
  | .active _ _ => true
  | _ => false

/-- The entry of a peer that is saved, with the data of the listed one. -/
def savedEntry (live : Option PeerSummary) (entry : KnownPeerSummary) : KnownPeerSummary :=
  match live with
  | none => { entry with pinned := true }
  | some live =>
    { entry with
      displayName := live.displayName
      seen := entry.seen || sessionActive live
      connected := live.transport = .connected
      pinned := true
      addresses := if live.address ≠ "" ∧ live.address ≠ "<unknown>" then
          pushUnique entry.addresses live.address else entry.addresses
      lastDialAddr := if live.address ≠ "" ∧ live.address ≠ "<unknown>" then
          some live.address else entry.lastDialAddr }

/-- The entry of a saved peer that was not known. -/
def liveEntry (live : PeerSummary) : KnownPeerSummary where
  peerId := live.peerId
  displayName := live.displayName
  addresses := if live.address ≠ "<unknown>" then [live.address] else []
  lastDialAddr := if live.address ≠ "<unknown>" then some live.address else none
  connected := live.transport = .connected
  pinned := true
  seen := sessionActive live
  whitelisted := false
  trustedContact := false

def withKnown (state : DaemonStatus) (known : List KnownPeerSummary) : DaemonStatus :=
  { state with network :=
      NetworkSummary.refreshUserViews { state.network with knownPeers := known } }

/-- The listed peers after a connection. -/
def connectedPeers (state : DaemonStatus) (peerId address : String) : List PeerSummary :=
  updateOrPush (fun peer => peer.peerId = peerId)
    (fun peer => { peer with
      address := address
      transport := .connected
      session := if peer.session = .none then .handshaking else peer.session })
    (newPeer (state.peers.length + 1) peerId address) state.peers

/-- The listed peers after an applied hello. -/
def greetedPeers (state : DaemonStatus) (peerId : String) (hello : SessionHello) :
    List PeerSummary :=
  updateOrPush (fun peer => peer.peerId = peerId)
    (fun peer => { peer with
      displayName := hello.displayName
      session := .active hello.roomName hello.displayName
      transport := .connected })
    (newPeer (state.peers.length + 1) peerId "<unknown>") state.peers

/-- The name of a peer in the list, or that it is listed under. -/
def DaemonStatus.listedName (state : DaemonStatus) (peerId : String) : String :=
  match state.peer? peerId with
  | some peer => peer.displayName
  | none => "peer " ++ toString (state.peers.length + 1)

/-- The address under which a peer is listed. -/
def DaemonStatus.listedAddress (state : DaemonStatus) (peerId : String) : String :=
  match state.peer? peerId with
  | some peer => peer.address
  | none => "<unknown>"

section

variable (lib) (state : DaemonStatus) (peerId : String)

theorem isSome_knownPeer? : (state.knownPeer? peerId).isSome =
    state.network.knownPeers.any fun entry => entry.peerId = peerId := by
  rw [Bool.eq_iff_iff]
  exact List.find?_isSome.trans List.any_eq_true.symm

theorem saveKnownPeer_known (h : (state.knownPeer? peerId).isSome = true) :
    (saveKnownPeer state peerId).2 = withKnown (unignore state peerId)
      (updateFirst (fun entry => entry.peerId = peerId) (savedEntry (state.peer? peerId))
        state.network.knownPeers) := by
  obtain ⟨entry, hentry⟩ := Option.isSome_iff_exists.mp h
  have hsame : (unignore state peerId).knownPeer? peerId = some entry := hentry
  unfold saveKnownPeer
  simp only [unignore] at hsame
  simp only [hsame]
  cases state.peer? peerId with
  | none => rfl
  | some live => rfl

theorem saveKnownPeer_live {live : PeerSummary} (h : state.knownPeer? peerId = none)
    (hlive : state.peer? peerId = some live) :
    (saveKnownPeer state peerId).2 = withKnown (unignore state peerId)
      (state.network.knownPeers ++ [liveEntry live]) := by
  have hsame : (unignore state peerId).knownPeer? peerId = none := h
  unfold saveKnownPeer
  simp only [unignore] at hsame
  simp only [hsame, hlive]
  rfl

theorem saveKnownPeer_none (h : state.knownPeer? peerId = none)
    (hlive : state.peer? peerId = none) :
    (saveKnownPeer state peerId).2 = unignore state peerId := by
  have hsame : (unignore state peerId).knownPeer? peerId = none := h
  unfold saveKnownPeer
  simp only [unignore] at hsame
  simp only [hsame, hlive]
  rfl

theorem seedRendezvousInvite_eq (invite : CompactInviteV1) :
    seedRendezvousInvite lib state invite = invite.addrs.foldl (noteAddress lib invite.peerId)
      (updateKnownPeer lib (unignore state invite.peerId) invite.peerId none none false false) := rfl

theorem foldl_notedEntry (addrs : List String) (entry : KnownPeerSummary) :
    addrs.foldl (fun entry address => notedEntry address entry) entry =
      { entry with
        addresses := addrs.foldl pushUnique entry.addresses
        lastDialAddr := addrs.getLast?.or entry.lastDialAddr } := by
  induction addrs generalizing entry with
  | nil => rfl
  | cons address addrs ih =>
    rw [List.foldl_cons, ih]
    cases addrs with
    | nil => rfl
    | cons next addrs => simp [notedEntry, List.getLast?_cons]

theorem foldl_noteAddress (addrs : List String) (state : DaemonStatus) :
    addrs.foldl (noteAddress lib peerId) state =
      let usable := (addrs.map fun address =>
        (shareableAddress lib address peerId).getD (trim address)).filter (· ≠ "")
      { state with network := { state.network with
        savedPeerAddrs := usable.foldl pushUnique state.network.savedPeerAddrs
        knownPeers := updateFirst (fun entry => entry.peerId = peerId)
          (usable.foldl fun entry address => notedEntry address entry)
          state.network.knownPeers } } := by
  induction addrs generalizing state with
  | nil =>
    have hsame : updateFirst (fun entry => entry.peerId = peerId) (fun entry => entry)
        state.network.knownPeers = state.network.knownPeers := updateFirst_eq_self fun _ _ => rfl
    simp [hsame]
  | cons address addrs ih =>
    rw [List.foldl_cons, ih]
    by_cases hempty : (shareableAddress lib address peerId).getD (trim address) = ""
    · simp [noteAddress, hempty]
    · simp [noteAddress, hempty]
      exact updateFirst_updateFirst fun _ h => h

/-- The entry of the peer of a record is touched and gets the usable addresses. -/
theorem seedRendezvousInvite_noted (invite : CompactInviteV1) :
    seedRendezvousInvite lib state invite =
      let touched :=
        updateKnownPeer lib (unignore state invite.peerId) invite.peerId none none false false
      { touched with network := { touched.network with
        savedPeerAddrs := (usableAddrs lib invite).foldl pushUnique touched.network.savedPeerAddrs
        knownPeers := updateFirst (fun entry => entry.peerId = invite.peerId)
          ((usableAddrs lib invite).foldl fun entry address => notedEntry address entry)
          touched.network.knownPeers } } := by
  rw [seedRendezvousInvite_eq, foldl_noteAddress]
  rfl

theorem seedInviteHints_eq (invite : CompactInviteV1) :
    seedInviteHints state invite =
      { state with network := NetworkSummary.refreshUserViews { state.network with
        ignoredPeerIds := state.network.ignoredPeerIds.filter (· ≠ invite.peerId)
        knownPeers := updateOrPush (fun entry => entry.peerId = invite.peerId)
          (hintedEntry ((invite.addrs.map trim).filter (· ≠ "")))
          (blankEntry invite.peerId ("peer " ++ shortPeerId invite.peerId) false false)
          state.network.knownPeers
        savedPeerAddrs := ((invite.addrs.map trim).filter (· ≠ "")).foldl pushUnique
          state.network.savedPeerAddrs } } := rfl

theorem hintedEntry_eq (addrs : List String) (entry : KnownPeerSummary) :
    hintedEntry addrs entry = { entry with
      addresses := addrs.foldl pushUnique entry.addresses
      lastDialAddr := entry.lastDialAddr.or addrs.head? } := by
  induction addrs generalizing entry with
  | nil => simp [hintedEntry]
  | cons address addrs ih =>
    have hrest := ih { entry with
      addresses := pushUnique entry.addresses address
      lastDialAddr := entry.lastDialAddr.or (some address) }
    simp only [hintedEntry, List.foldl_cons] at hrest ⊢
    rw [hrest]
    cases entry.lastDialAddr with
    | none => rfl
    | some known => rfl

theorem knownPeer?_seedInviteHints (invite : CompactInviteV1) :
    (seedInviteHints state invite).knownPeer? invite.peerId =
      some (hintedEntry ((invite.addrs.map trim).filter (· ≠ ""))
        ((state.knownPeer? invite.peerId).getD
          (blankEntry invite.peerId ("peer " ++ shortPeerId invite.peerId) false false))) := by
  rw [seedInviteHints_eq]
  refine find?_updateOrPush ?_ ?_
  · intro entry hentry
    rwa [hintedEntry_eq]
  · rw [hintedEntry_eq]
    exact decide_eq_true rfl

theorem updateKnownPeer_eq (address displayName : Option String) (connected seen : Bool) :
    updateKnownPeer lib state peerId address displayName connected seen =
      if peerId ∈ state.network.ignoredPeerIds then state
      else { state with network := NetworkSummary.refreshUserViews { state.network with
        knownPeers := updateOrPush (fun entry => entry.peerId = peerId)
          (touchedEntry lib peerId address displayName connected seen)
          (blankEntry peerId (displayName.getD ("peer " ++ shortPeerId peerId)) connected seen)
          state.network.knownPeers } } := rfl

theorem peer?_updateOrPush {f : PeerSummary → PeerSummary} {n : PeerSummary}
    (hid : ∀ peer, (f peer).peerId = peer.peerId) (hnew : n.peerId = peerId) :
    DaemonStatus.peer? { state with
      peers := updateOrPush (fun peer => peer.peerId = peerId) f n state.peers } peerId =
        some (f ((state.peer? peerId).getD n)) := by
  have hkeep : ∀ peer : PeerSummary, decide (peer.peerId = peerId) = true →
      decide ((f peer).peerId = peerId) = true := by
    intro peer heq
    rwa [hid]
  have hfresh : decide ((f n).peerId = peerId) = true := by
    rw [hid]
    exact decide_eq_true hnew
  exact find?_updateOrPush hkeep hfresh

/-- A connection enters the book as one touch of the entry of its peer, and its
address the list of all. -/
theorem upsertPeer_named (address : String) :
    upsertPeer lib state peerId address =
      updateKnownPeer lib
        { state with
          peers := connectedPeers state peerId address
          network := { state.network with
            savedPeerAddrs := if address = "<unknown>" then state.network.savedPeerAddrs
              else pushUnique state.network.savedPeerAddrs address } }
        peerId (some address) (some (state.listedName peerId)) true false := by
  have hpeer := peer?_updateOrPush state peerId
    (f := fun peer => { peer with
      address := address
      transport := .connected
      session := if peer.session = .none then .handshaking else peer.session })
    (n := newPeer (state.peers.length + 1) peerId address) (fun _ => rfl) rfl
  simp only [upsertPeer, getOrInsertPeer]
  rw [hpeer]
  dsimp only
  have hname : ((state.peer? peerId).getD
      (newPeer (state.peers.length + 1) peerId address)).displayName = state.listedName peerId := by
    unfold DaemonStatus.listedName
    cases state.peer? peerId with
    | none => rfl
    | some peer => rfl
  rw [← hname]
  by_cases hunknown : address = "<unknown>"
  · rw [if_pos hunknown, if_neg (not_not.mpr hunknown)]
    rfl
  · rw [if_neg hunknown, if_pos hunknown]
    rfl

theorem upsertPeer_eq (address : String) :
    ∃ displayName, upsertPeer lib state peerId address =
      updateKnownPeer lib
        { state with
          peers := connectedPeers state peerId address
          network := { state.network with
            savedPeerAddrs := if address = "<unknown>" then state.network.savedPeerAddrs
              else pushUnique state.network.savedPeerAddrs address } }
        peerId (some address) (some displayName) true false :=
  ⟨_, upsertPeer_named lib state peerId address⟩

theorem upsertPeer_touched (address : String) :
    ∃ savedPeerAddrs displayName, upsertPeer lib state peerId address =
      updateKnownPeer lib
        { state with
          peers := connectedPeers state peerId address
          network := { state.network with savedPeerAddrs := savedPeerAddrs } }
        peerId (some address) (some displayName) true false := by
  obtain ⟨displayName, htouched⟩ := upsertPeer_eq lib state peerId address
  exact ⟨_, displayName, htouched⟩

/-- The peer that greets is active and connected. -/
theorem peer?_greetedPeers (hello : SessionHello) :
    DaemonStatus.peer? { state with peers := greetedPeers state peerId hello } peerId =
      some { (state.peer? peerId).getD (newPeer (state.peers.length + 1) peerId "<unknown>") with
        displayName := hello.displayName
        session := .active hello.roomName hello.displayName
        transport := .connected } :=
  peer?_updateOrPush state peerId (fun _ => rfl) rfl

theorem applySessionHello_eq (hello : SessionHello) :
    applySessionHello lib state peerId hello =
      updateKnownPeer lib { state with peers := greetedPeers state peerId hello } peerId
        (some (state.listedAddress peerId)) (some hello.displayName) true true := by
  have hpeer := peer?_greetedPeers state peerId hello
  unfold greetedPeers at hpeer
  have haddress : ((state.peer? peerId).getD
      (newPeer (state.peers.length + 1) peerId "<unknown>")).address =
        state.listedAddress peerId := by
    unfold DaemonStatus.listedAddress
    cases state.peer? peerId with
    | none => rfl
    | some peer => rfl
  simp only [applySessionHello]
  rw [hpeer]
  dsimp only
  rw [haddress]
  rfl

theorem applySessionHello_touched (hello : SessionHello) :
    ∃ address, applySessionHello lib state peerId hello =
      updateKnownPeer lib { state with peers := greetedPeers state peerId hello } peerId
        (some address) (some hello.displayName) true true :=
  ⟨_, applySessionHello_eq lib state peerId hello⟩

theorem updateKnownPeer_peers (address displayName : Option String) (connected seen : Bool) :
    (updateKnownPeer lib state peerId address displayName connected seen).peers = state.peers := by
  rw [updateKnownPeer_eq]
  split_ifs
  · rfl
  · rfl

theorem upsertPeer_peers (address : String) :
    (upsertPeer lib state peerId address).peers = connectedPeers state peerId address := by
  obtain ⟨savedPeerAddrs, displayName, htouched⟩ := upsertPeer_touched lib state peerId address
  rw [htouched, updateKnownPeer_peers]

theorem applySessionHello_peers (hello : SessionHello) :
    (applySessionHello lib state peerId hello).peers = greetedPeers state peerId hello := by
  obtain ⟨address, htouched⟩ := applySessionHello_touched lib state peerId hello
  rw [htouched, updateKnownPeer_peers]

end

end Voicers
