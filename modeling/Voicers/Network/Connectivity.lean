import Voicers.Network.PeerBook

/-! Which peers the book calls connected. One equation tells the flags after
each event; with the connections the swarm has, it tells when they are true. -/

namespace Voicers

open Lib

variable {κ : Codec} {lib : Libp2p}

def flagOf (known : List KnownPeerSummary) (peerId : String) : Bool :=
  (known.find? fun entry => entry.peerId = peerId).any KnownPeerSummary.connected

def DaemonStatus.connectedFlag (state : DaemonStatus) : String → Bool :=
  flagOf state.network.knownPeers

section

variable {known : List KnownPeerSummary} {peerId : String} {connected : Bool}
  {f : KnownPeerSummary → KnownPeerSummary}

theorem flagOf_updateFirst_same {p : KnownPeerSummary → Bool}
    (hid : ∀ entry, (f entry).peerId = entry.peerId)
    (hflag : ∀ entry, (f entry).connected = entry.connected) :
    flagOf (updateFirst p f known) = flagOf known := by
  funext q
  have hq : ∀ entry, p entry = true →
      decide ((f entry).peerId = q) = decide (entry.peerId = q) := fun entry _ => by rw [hid]
  rcases find?_updateFirst_or (l := known) (q := fun entry => decide (entry.peerId = q)) hq with
    hsame | ⟨entry, hentry, _, hnew⟩
  · simp only [flagOf, hsame]
  · simp only [flagOf, hentry, hnew, Option.any_some, hflag]

theorem flagOf_updateOrPush {new : KnownPeerSummary}
    (hid : ∀ entry, (f entry).peerId = entry.peerId)
    (hflag : ∀ entry, (f entry).connected = connected) (hnew : new.peerId = peerId) :
    flagOf (updateOrPush (fun entry => entry.peerId = peerId) f new known) =
      Function.update (flagOf known) peerId connected := by
  have hfind : (fun q => (updateOrPush (fun entry => entry.peerId = peerId) f new known).find?
      fun entry => entry.peerId = q) = _ := find?_key_updateOrPush hid hnew
  have hflags := congrArg (Option.any KnownPeerSummary.connected ∘ ·) hfind
  rw [Function.comp_update] at hflags
  refine hflags.trans (congrArg (Function.update (flagOf known) peerId) ?_)
  rw [Option.any_some, hflag]

theorem flagOf_updateFirst (hid : ∀ entry, (f entry).peerId = entry.peerId)
    (hflag : ∀ entry, (f entry).connected = connected)
    (hknown : known.any (fun entry => entry.peerId = peerId) = true) :
    flagOf (updateFirst (fun entry => entry.peerId = peerId) f known) =
      Function.update (flagOf known) peerId connected := by
  have hpush : flagOf (updateOrPush (fun entry => entry.peerId = peerId) f
      (blankEntry peerId "" false false) known) = Function.update (flagOf known) peerId connected :=
    flagOf_updateOrPush hid hflag rfl
  rwa [updateOrPush, if_pos hknown] at hpush

/-- A new entry that is not connected, and entries that keep their flag. -/
theorem flagOf_updateOrPush_same {new : KnownPeerSummary}
    (hid : ∀ entry, (f entry).peerId = entry.peerId)
    (hflag : ∀ entry, (f entry).connected = entry.connected) (hclear : new.connected = false) :
    flagOf (updateOrPush (fun entry => entry.peerId = peerId) f new known) = flagOf known := by
  unfold updateOrPush
  split_ifs with hany
  · exact flagOf_updateFirst_same hid hflag
  · funext q
    have hlast : ([f new].find? fun entry => entry.peerId = q).any KnownPeerSummary.connected =
        false := by
      by_cases hq : (f new).peerId = q
      · simp [hq, hflag, hclear]
      · simp [hq]
    simp only [flagOf, List.find?_append]
    cases known.find? (fun entry => entry.peerId = q) with
    | none => exact hlast
    | some entry => rfl

theorem flagOf_append {new : KnownPeerSummary} (hnew : new.peerId = peerId)
    (h : known.find? (fun entry => entry.peerId = peerId) = none) :
    flagOf (known ++ [new]) = Function.update (flagOf known) peerId new.connected := by
  have hnone : known.any (fun entry => entry.peerId = peerId) = false := by simpa using h
  have hpush : flagOf (updateOrPush (fun entry => entry.peerId = peerId)
      (fun entry => { entry with connected := new.connected }) new known) =
      Function.update (flagOf known) peerId new.connected :=
    flagOf_updateOrPush (fun _ => rfl) (fun _ => rfl) hnew
  simpa [updateOrPush, hnone] using hpush

end

section

variable (lib) (state : DaemonStatus) (peerId : String)

/-- The flags after a write for one peer; an ignored one is left alone. -/
def DaemonStatus.touch (connected : Bool) : String → Bool :=
  if peerId ∈ state.network.ignoredPeerIds then state.connectedFlag
  else Function.update state.connectedFlag peerId connected

theorem updateKnownPeer_flag (address displayName : Option String) (connected seen : Bool) :
    (updateKnownPeer lib state peerId address displayName connected seen).connectedFlag =
      state.touch peerId connected := by
  rw [updateKnownPeer_eq, DaemonStatus.touch]
  split_ifs
  · rfl
  · exact flagOf_updateOrPush (fun _ => rfl) (fun _ => rfl) rfl

theorem upsertPeer_flag (address : String) :
    (upsertPeer lib state peerId address).connectedFlag = state.touch peerId true := by
  obtain ⟨savedPeerAddrs, displayName, htouched⟩ := upsertPeer_touched lib state peerId address
  rw [htouched, updateKnownPeer_flag]
  rfl

theorem applySessionHello_flag (hello : SessionHello) :
    (applySessionHello lib state peerId hello).connectedFlag = state.touch peerId true := by
  obtain ⟨address, htouched⟩ := applySessionHello_touched lib state peerId hello
  rw [htouched, updateKnownPeer_flag]
  rfl

theorem queuePendingPeerApproval_flag (hello : SessionHello) :
    (queuePendingPeerApproval state peerId hello).connectedFlag = state.connectedFlag := by
  simp only [queuePendingPeerApproval]
  split_ifs
  · rfl
  · rfl

theorem closeStatus_flag (n : Nat) : (Daemon.closeStatus state peerId n).connectedFlag =
    if (state.knownPeer? peerId).isSome then
      Function.update state.connectedFlag peerId (decide (0 < n))
    else state.connectedFlag := by
  rw [isSome_knownPeer?]
  split_ifs with hany
  · exact flagOf_updateFirst (fun _ => rfl) (fun _ => rfl) hany
  · refine congrArg flagOf (updateFirst_eq_self fun entry hentry => ?_)
    exact absurd (List.any_eq_true.mpr
      ⟨entry, List.mem_of_find?_eq_some hentry, List.find?_some hentry⟩) hany

theorem identifiedStatus_flag (info : IdentifyInfo) :
    (Daemon.identifiedStatus lib state peerId info).connectedFlag =
      if shouldSurfaceApprovedPeer state peerId then state.touch peerId true
      else state.connectedFlag := by
  have hobserved : ∀ s : DaemonStatus,
      (Daemon.noteObserved s info.observedAddr).connectedFlag = s.connectedFlag := by
    intro s
    obtain ⟨observedAddrs, htouched⟩ := Daemon.noteObserved_touched s info.observedAddr
    rw [htouched]
    rfl
  unfold Daemon.identifiedStatus
  dsimp only
  rw [hobserved]
  by_cases hs : shouldSurfaceApprovedPeer state peerId = true
  · rw [if_pos hs, if_pos hs, updateKnownPeer_flag]
    rfl
  · rw [if_neg hs, if_neg hs]

theorem seedRendezvousInvite_flag (invite : CompactInviteV1) :
    (seedRendezvousInvite lib state invite).connectedFlag =
      Function.update state.connectedFlag invite.peerId false := by
  have hallowed : invite.peerId ∉ (unignore state invite.peerId).network.ignoredPeerIds := by
    simp [unignore]
  have htouched : (updateKnownPeer lib (unignore state invite.peerId) invite.peerId none none
      false false).connectedFlag = Function.update state.connectedFlag invite.peerId false := by
    rw [updateKnownPeer_flag, DaemonStatus.touch, if_neg hallowed]
    rfl
  rw [seedRendezvousInvite_noted, ← htouched]
  refine flagOf_updateFirst_same (fun entry => ?_) fun entry => ?_
  · rw [foldl_notedEntry]
  · rw [foldl_notedEntry]

theorem hintedEntry_flag (addrs : List String) (entry : KnownPeerSummary) :
    (hintedEntry addrs entry).connected = entry.connected := by
  rw [hintedEntry_eq]

theorem seedInviteHints_flag (invite : CompactInviteV1) :
    (seedInviteHints state invite).connectedFlag = state.connectedFlag := by
  rw [seedInviteHints_eq]
  exact flagOf_updateOrPush_same (fun entry => (hintedEntry_keeps _ entry).1) (hintedEntry_flag _) rfl

theorem runFollowUp_flag (followUp : FollowUp) :
    (Daemon.runFollowUp state followUp).connectedFlag = state.connectedFlag := by
  cases followUp with
  | approved approved whitelist =>
    simp only [Daemon.runFollowUp]
    split_ifs
    · exact flagOf_updateFirst_same (fun _ => rfl) fun _ => rfl
    · rfl
  | rejected rejected => rfl

theorem saveKnownPeer_flag : (saveKnownPeer state peerId).2.connectedFlag =
    (state.peer? peerId).elim state.connectedFlag fun live =>
      Function.update state.connectedFlag peerId (decide (live.transport = .connected)) := by
  cases hknown : state.knownPeer? peerId with
  | some entry =>
    rw [saveKnownPeer_known state peerId (by simp [hknown])]
    cases state.peer? peerId with
    | none => exact flagOf_updateFirst_same (fun _ => rfl) fun _ => rfl
    | some live =>
      refine flagOf_updateFirst (fun _ => rfl) (fun _ => rfl) ?_
      rw [← isSome_knownPeer?, hknown]
      rfl
  | none =>
    cases hlive : state.peer? peerId with
    | none =>
      rw [saveKnownPeer_none state peerId hknown hlive]
      rfl
    | some live =>
      rw [saveKnownPeer_live state peerId hknown hlive]
      have hid := DaemonStatus.peerId_of_peer? hlive
      have happend : flagOf (state.network.knownPeers ++ [liveEntry live]) =
          Function.update state.connectedFlag peerId (decide (live.transport = .connected)) :=
        flagOf_append hid hknown
      exact happend

theorem renameKnownPeer_flag (displayName : String) :
    (renameKnownPeer state peerId displayName).2.connectedFlag = state.connectedFlag := by
  simp only [renameKnownPeer]
  split_ifs
  · exact flagOf_updateFirst_same (fun _ => rfl) fun _ => rfl
  · rfl

theorem forgetKnownPeer_flag :
    (forgetKnownPeer state peerId).2.connectedFlag = state.connectedFlag := by
  simp only [forgetKnownPeer]
  split_ifs
  · exact flagOf_updateFirst_same (fun _ => rfl) fun _ => rfl
  · rfl

theorem setTrustedContact_flag (trusted : Bool) :
    (setTrustedContact state peerId trusted).2.connectedFlag = state.connectedFlag := by
  simp only [setTrustedContact]
  split_ifs
  · exact flagOf_updateFirst_same (fun _ => rfl) fun _ => rfl
  · rfl

end

/-- The peer whose flag the event writes, and the value. -/
def Daemon.flagWrite (d : Daemon κ) : Event κ lib → Option (String × Bool)
  | .connectionEstablished peer _ =>
    if shouldSurfaceConnectedPeer d.status peer.text (d.pendingDials peer.text).isSome ∧
        peer.text ∉ d.status.network.ignoredPeerIds then some (peer.text, true) else none
  | .connectionClosed peer n =>
    if (d.status.knownPeer? peer.text).isSome then some (peer.text, decide (0 < n)) else none
  | .identifyReceived peer _ =>
    if shouldSurfaceApprovedPeer d.status peer.text ∧
        peer.text ∉ d.status.network.ignoredPeerIds then some (peer.text, true) else none
  | .foundRecord query invite _ =>
    if d.adopts query invite then some (invite.peerId, false) else none
  | .sessionHello peer _ _ =>
    if d.passesGate peer.text ∧ peer.text ∉ d.status.network.ignoredPeerIds then
      some (peer.text, true) else none
  | .sessionHelloAck peer _ =>
    if d.helloRequests peer.text ≠ 0 ∧ peer.text ∉ d.status.network.ignoredPeerIds then
      some (peer.text, true) else none
  | .approvePendingPeer peerId _ =>
    if (d.pendingInboundApprovals peerId).isSome ∧ peerId ∉ d.status.network.ignoredPeerIds then
      some (peerId, true) else none
  | .saveKnownPeer peerId =>
    (d.status.peer? peerId).map fun live => (peerId, decide (live.transport = .connected))
  | _ => none

def writeFlag (flags : String → Bool) : Option (String × Bool) → String → Bool
  | none => flags
  | some (peerId, connected) => Function.update flags peerId connected

theorem touch_eq_writeFlag (state : DaemonStatus) (peerId : String) (connected : Bool) :
    state.touch peerId connected = writeFlag state.connectedFlag
      (if peerId ∉ state.network.ignoredPeerIds then some (peerId, connected) else none) := by
  unfold DaemonStatus.touch
  by_cases hp : peerId ∈ state.network.ignoredPeerIds
  · rw [if_pos hp, if_neg (not_not.mpr hp), writeFlag]
  · rw [if_neg hp, if_pos hp, writeFlag]

theorem statusAfter_flag (d : Daemon κ) (e : Event κ lib) :
    (d.statusAfter e).connectedFlag = writeFlag d.status.connectedFlag (d.flagWrite e) := by
  have hguard : ∀ (c : Prop) [Decidable c] (peerId : String),
      (if c then d.status.touch peerId true else d.status.connectedFlag) =
        writeFlag d.status.connectedFlag
          (if c ∧ peerId ∉ d.status.network.ignoredPeerIds then some (peerId, true) else none) := by
    intro c _ peerId
    by_cases hc : c
    · simp only [hc, if_true, true_and, touch_eq_writeFlag]
    · simp only [hc, if_false, false_and, writeFlag]
  have happroved : ∀ peerId hello,
      (d.approvedStatus lib peerId hello).connectedFlag = d.status.touch peerId true := by
    intro peerId hello
    unfold Daemon.approvedStatus
    dsimp only
    split_ifs
    · exact applySessionHello_flag lib d.status peerId hello
    · exact applySessionHello_flag lib d.status peerId hello
  cases e with
  | connectionEstablished peer endpoint =>
    refine Eq.trans ?_ (hguard _ peer.text)
    simp only [Daemon.statusAfter, Daemon.establishedStatus]
    by_cases hs : shouldSurfaceConnectedPeer d.status peer.text
        (d.pendingDials peer.text).isSome = true
    · rw [if_pos hs, if_pos hs, upsertPeer_flag]
      rfl
    · rw [if_neg hs, if_neg hs]
      rfl
  | connectionClosed peer n =>
    simp only [Daemon.statusAfter, closeStatus_flag, Daemon.flagWrite]
    split_ifs
    · rfl
    · rfl
  | identifyReceived peer info =>
    refine Eq.trans ?_ (hguard _ peer.text)
    exact identifiedStatus_flag lib d.status peer.text info
  | foundRecord query invite dialed =>
    simp only [Daemon.statusAfter, Daemon.flagWrite]
    split_ifs
    · exact seedRendezvousInvite_flag lib d.status invite
    · rfl
  | sessionHello peer hello channel =>
    refine Eq.trans ?_ (hguard _ peer.text)
    simp only [Daemon.statusAfter]
    split_ifs
    · exact happroved peer.text hello
    · exact queuePendingPeerApproval_flag d.status peer.text hello
  | sessionHelloAck peer hello =>
    refine Eq.trans ?_ (hguard _ peer.text)
    simp only [Daemon.statusAfter, ne_eq, ite_not]
    split_ifs
    · rfl
    · exact applySessionHello_flag lib d.status peer.text hello
  | approvePendingPeer peerId whitelist =>
    refine Eq.trans ?_ (hguard _ peerId)
    cases hheld : d.pendingInboundApprovals peerId with
    | none => simp [Daemon.statusAfter, hheld]
    | some pending =>
      simp only [Daemon.statusAfter, hheld, Option.isSome_some, if_true]
      exact happroved peerId pending.hello
  | rejectPendingPeer peerId =>
    simp only [Daemon.statusAfter]
    split_ifs
    · rfl
    · rfl
  | followUp index =>
    simp only [Daemon.statusAfter]
    split
    · rfl
    · exact runFollowUp_flag d.status _
  | seedInviteHints invite => exact seedInviteHints_flag d.status invite
  | saveKnownPeer peerId =>
    simp only [Daemon.statusAfter, saveKnownPeer_flag, Daemon.flagWrite]
    cases d.status.peer? peerId with
    | none => rfl
    | some live => rfl
  | renameKnownPeer peerId displayName => exact renameKnownPeer_flag d.status peerId displayName
  | forgetKnownPeer peerId => exact forgetKnownPeer_flag d.status peerId
  | setTrustedContact peerId trusted => exact setTrustedContact_flag d.status peerId trusted
  | _ => rfl

/-- Whoever the book calls connected has a connection. -/
def Truthful (h : Host κ) : Prop :=
  ∀ entry ∈ h.status.network.knownPeers, entry.connected = true → 0 < h.established entry.peerId

/-- The event enters the peer as connected, though it is not a connection. -/
def Daemon.Vouches (d : Daemon κ) (peerId : String) : Event κ lib → Prop
  | .identifyReceived peer _ => peer.text = peerId ∧
      shouldSurfaceApprovedPeer d.status peerId = true ∧
      peerId ∉ d.status.network.ignoredPeerIds
  | .sessionHello peer _ _ => peer.text = peerId ∧ d.passesGate peerId = true ∧
      peerId ∉ d.status.network.ignoredPeerIds
  | .sessionHelloAck peer _ => peer.text = peerId ∧ d.helloRequests peerId ≠ 0 ∧
      peerId ∉ d.status.network.ignoredPeerIds
  | .approvePendingPeer approved _ => approved = peerId ∧
      (d.pendingInboundApprovals peerId).isSome = true ∧
      peerId ∉ d.status.network.ignoredPeerIds
  | .saveKnownPeer saved => saved = peerId ∧
      ∃ live, d.status.peer? peerId = some live ∧ live.transport = .connected
  | _ => False

/-- Nobody is entered as connected without a connection, and a start reads a
file in which nobody is. -/
def KeepsTruth (x : HostTransition κ lib) : Prop :=
  match x.input with
  | .event e => ∀ peerId, x.before.daemon.Vouches peerId e → 0 < x.before.established peerId
  | .restart index _ _ => ∀ file, x.before.fileAt index = some file →
      ∀ entry ∈ file.knownPeers, entry.connected = false
  | _ => True

/-- A route to the target goes over a connection. -/
def OverConnection (established : String → Nat) (target : String) : Route → Prop
  | .direct => 0 < established target
  | .relayed via _ => 0 < established via
  | .unreachable => True

section

variable {h : Host κ} {flags : String → Bool} {established : String → Nat}

theorem flagOf_iff {known : List KnownPeerSummary} (hunique : KnownUnique known) {peerId : String} :
    flagOf known peerId = true ↔
      ∃ entry ∈ known, entry.peerId = peerId ∧ entry.connected = true := by
  constructor
  · intro hflag
    obtain ⟨entry, hentry, hconnected⟩ := (Option.any_eq_true _ _).mp hflag
    exact ⟨entry, List.mem_of_find?_eq_some hentry, by simpa using List.find?_some hentry, hconnected⟩
  · rintro ⟨entry, hentry, rfl, hconnected⟩
    rw [flagOf, find?_of_nodup hunique.ids hentry]
    exact hconnected

theorem truthful_iff (hunique : BookUnique h.status) :
    Truthful h ↔ ∀ peerId, h.status.connectedFlag peerId = true → 0 < h.established peerId := by
  constructor
  · intro htruth peerId hflag
    obtain ⟨entry, hentry, rfl, hconnected⟩ := (flagOf_iff hunique.known).mp hflag
    exact htruth entry hentry hconnected
  · intro hflags entry hentry hconnected
    exact hflags entry.peerId ((flagOf_iff hunique.known).mpr ⟨entry, hentry, rfl, hconnected⟩)

theorem Daemon.Vouches.flagWrite {d : Daemon κ} {e : Event κ lib} {peerId : String}
    (hvouches : d.Vouches peerId e) : d.flagWrite e = some (peerId, true) := by
  cases e with
  | identifyReceived peer info =>
    obtain ⟨rfl, hsurfaced, hallowed⟩ := hvouches
    exact if_pos ⟨hsurfaced, hallowed⟩
  | sessionHello peer hello channel =>
    obtain ⟨rfl, hgate, hallowed⟩ := hvouches
    exact if_pos ⟨hgate, hallowed⟩
  | sessionHelloAck peer hello =>
    obtain ⟨rfl, hsent, hallowed⟩ := hvouches
    exact if_pos ⟨hsent, hallowed⟩
  | approvePendingPeer approved whitelist =>
    obtain ⟨rfl, hheld, hallowed⟩ := hvouches
    exact if_pos ⟨hheld, hallowed⟩
  | saveKnownPeer saved =>
    obtain ⟨rfl, live, hlive, hconnected⟩ := hvouches
    simp [Daemon.flagWrite, hlive, hconnected]
  | _ => exact hvouches.elim

/-- A flag that is set belongs to a peer with a connection, or is vouched for. -/
theorem flagWrite_cases {d : Daemon κ} {e : Event κ lib} {peerId : String}
    (hestablished : establishedAfter h.established e = some established)
    (hwrite : d.flagWrite e = some (peerId, true)) :
    0 < established peerId ∨ d.Vouches peerId e := by
  have hguard : ∀ {c : Prop} [Decidable c] {written : String},
      (if c then some (written, true) else none) = some (peerId, true) → written = peerId ∧ c := by
    intro c _ written heq
    obtain ⟨hc, heq⟩ := Option.ite_none_right_eq_some.mp heq
    exact ⟨(Prod.mk.inj (Option.some.inj heq)).1, hc⟩
  cases e with
  | connectionEstablished peer endpoint =>
    obtain ⟨rfl, _⟩ := hguard hwrite
    obtain rfl := Option.some.inj hestablished
    exact .inl (by simp)
  | connectionClosed peer n =>
    obtain ⟨_, hwritten⟩ := Option.ite_none_right_eq_some.mp hwrite
    obtain ⟨rfl, hn⟩ := Prod.mk.inj (Option.some.inj hwritten)
    obtain ⟨_, heq⟩ := Option.ite_none_right_eq_some.mp hestablished
    obtain rfl := Option.some.inj heq
    exact .inl (by simpa using hn)
  | identifyReceived peer info =>
    obtain ⟨rfl, hsurfaced⟩ := hguard hwrite
    exact .inr ⟨rfl, hsurfaced⟩
  | sessionHello peer hello channel =>
    obtain ⟨rfl, hgate⟩ := hguard hwrite
    exact .inr ⟨rfl, hgate⟩
  | sessionHelloAck peer hello =>
    obtain ⟨rfl, hsent⟩ := hguard hwrite
    exact .inr ⟨rfl, hsent⟩
  | approvePendingPeer approved whitelist =>
    obtain ⟨rfl, hheld⟩ := hguard hwrite
    exact .inr ⟨rfl, hheld⟩
  | saveKnownPeer saved =>
    obtain ⟨live, hlive, heq⟩ := Option.map_eq_some_iff.mp hwrite
    obtain ⟨rfl, hconnected⟩ := Prod.mk.inj heq
    exact .inr ⟨rfl, live, hlive, of_decide_eq_true hconnected⟩
  | foundRecord query invite dialed =>
    obtain ⟨_, hwritten⟩ := Option.ite_none_right_eq_some.mp hwrite
    exact absurd (Prod.mk.inj (Option.some.inj hwritten)).2 Bool.false_ne_true
  | _ => exact absurd hwrite (Option.some_ne_none _).symm

theorem Daemon.Vouches.sameConnections {d : Daemon κ} {e : Event κ lib} {peerId : String}
    (hvouches : d.Vouches peerId e)
    (hestablished : establishedAfter h.established e = some established) :
    established = h.established := by
  cases e with
  | connectionEstablished peer endpoint => exact hvouches.elim
  | connectionClosed peer n => exact hvouches.elim
  | _ => exact (Option.some.inj hestablished).symm

/-- Connections of a peer whose flag is not written are not closed. -/
theorem le_established {d : Daemon κ} {e : Event κ lib} {peerId : String}
    (hestablished : establishedAfter h.established e = some established)
    (hflag : d.status.connectedFlag peerId = true)
    (hwrite : ∀ connected, d.flagWrite e ≠ some (peerId, connected)) :
    h.established peerId ≤ established peerId := by
  cases e with
  | connectionEstablished peer endpoint =>
    obtain rfl := Option.some.inj hestablished
    by_cases hp : peerId = peer.text
    · subst hp
      simp
    · rw [Function.update_of_ne hp]
  | connectionClosed peer n =>
    obtain ⟨_, heq⟩ := Option.ite_none_right_eq_some.mp hestablished
    obtain rfl := Option.some.inj heq
    have hp : peerId ≠ peer.text := by
      rintro rfl
      obtain ⟨entry, hentry, _⟩ := (Option.any_eq_true _ _).mp hflag
      have hknown : (d.status.knownPeer? peer.text).isSome = true :=
        Option.isSome_iff_exists.mpr ⟨entry, hentry⟩
      exact hwrite _ (if_pos hknown)
    rw [Function.update_of_ne hp]
  | _ => exact (congrFun (Option.some.inj hestablished) peerId).le

/-- An event keeps the flags true exactly when it vouches for connected peers alone. -/
theorem statusAfter_truthful_iff {d : Daemon κ} {e : Event κ lib}
    (hestablished : establishedAfter h.established e = some established)
    (htruth : ∀ peerId, d.status.connectedFlag peerId = true → 0 < h.established peerId) :
    (∀ peerId, (d.statusAfter e).connectedFlag peerId = true → 0 < established peerId) ↔
      ∀ peerId, d.Vouches peerId e → 0 < h.established peerId := by
  rw [statusAfter_flag]
  constructor
  · intro hafter peerId hvouches
    rw [← hvouches.sameConnections hestablished]
    exact hafter peerId (by simp [hvouches.flagWrite, writeFlag])
  · intro hvouched peerId hflag
    cases hwrite : d.flagWrite e with
    | none =>
      simp only [hwrite, writeFlag] at hflag
      have hle := le_established hestablished hflag fun connected heq => by
        rw [hwrite] at heq
        cases heq
      exact (htruth peerId hflag).trans_le hle
    | some written =>
      obtain ⟨q, connected⟩ := written
      by_cases hq : peerId = q
      · subst hq
        simp only [hwrite, writeFlag, Function.update_self] at hflag
        subst hflag
        rcases flagWrite_cases hestablished hwrite with hconnected | hvouches
        · exact hconnected
        · rw [hvouches.sameConnections hestablished]
          exact hvouched peerId hvouches
      · simp only [hwrite, writeFlag, Function.update_of_ne hq] at hflag
        have hle := le_established hestablished hflag fun connected heq => by
          rw [hwrite] at heq
          exact hq (Prod.mk.inj (Option.some.inj heq)).1.symm
        exact (htruth peerId hflag).trans_le hle

end

section

variable {π : Profile} {h : Host κ}

theorem HostMove.keepsTruth_iff {x : HostTransition κ lib}
    (hmove : HostMove lib x.before x.input x.after) (hunique : HostUnique x.before)
    (htruth : Truthful x.before) : Truthful x.after ↔ KeepsTruth x := by
  have hafter := truthful_iff (hmove.unique hunique).status
  obtain ⟨before, input, output, after⟩ := x
  dsimp only at hmove hunique htruth hafter
  cases hmove with
  | event e _ _ hestablished hsame _ =>
    have hflags : after.status.connectedFlag = (before.daemon.statusAfter e).connectedFlag := by
      rw [DaemonStatus.connectedFlag, DaemonStatus.connectedFlag, hsame.network]
    refine hafter.trans ?_
    rw [hflags]
    exact statusAfter_truthful_iff hestablished ((truthful_iff hunique.status).mp htruth)
  | pathOutcome path peerId success => exact iff_of_true htruth trivial
  | save localDisplayName => exact iff_of_true htruth trivial
  | restart index displayName localPeerId file hfile =>
    constructor
    · intro hcleared file' hfile' entry hentry
      obtain rfl := Option.some.inj (hfile.symm.trans hfile')
      cases hconnected : entry.connected with
      | false => rfl
      | true => exact absurd (hcleared entry hentry hconnected) (lt_irrefl 0)
    · intro hkeeps entry hentry hconnected
      have hcleared := hkeeps file hfile entry hentry
      rw [hconnected] at hcleared
      cases hcleared

theorem Truthful.overConnection (htruth : Truthful h) (offers : String → Option (List String))
    (target : String) :
    OverConnection h.established target (resolveRoute lib h.status offers target) := by
  have hrelay : OverConnection h.established target
      (relayRoute lib (relayCandidates h.status offers target) target) := by
    unfold relayRoute
    split
    · trivial
    · next best rest hsorted =>
      split_ifs
      · have hbest : best ∈ relayCandidates h.status offers target := by
          rw [← (List.perm_insertionSort relayBefore _).mem_iff, hsorted]
          exact List.mem_cons_self
        obtain ⟨entry, hentry, rfl⟩ := List.mem_map.mp hbest
        obtain ⟨hknown, hoffers⟩ := List.mem_filter.mp hentry
        simp only [Bool.and_eq_true] at hoffers
        exact htruth entry hknown hoffers.1.2
      · trivial
  unfold resolveRoute
  split
  · next entry hentry =>
    split_ifs with hdirect
    · obtain ⟨hconnected, _⟩ := Bool.and_eq_true_iff.mp hdirect
      have hid : entry.peerId = target := by simpa using List.find?_some hentry
      rw [← hid]
      exact htruth entry (List.mem_of_find?_eq_some hentry) hconnected
    · exact hrelay
  · exact hrelay

/-- The flags are true all along a run exactly when each step keeps them so;
then media goes over connections only. -/
theorem connected_truthful_iff {displayName localPeerId : String} {tr : List (HostTransition κ lib)}
    (hrun : HostRun π displayName localPeerId tr h) :
    ((∀ x ∈ tr, Truthful x.before ∧ Truthful x.after) ↔ ∀ x ∈ tr, KeepsTruth x) ∧
      ((∀ x ∈ tr, KeepsTruth x) → Truthful h ∧ ∀ offers target,
        OverConnection h.established target (resolveRoute lib h.status offers target)) := by
  have hstart : Truthful (Host.start (κ := κ) displayName localPeerId) := by
    intro entry hentry
    exact absurd hentry List.not_mem_nil
  have hunique := hostUnique_start (κ := κ) displayName localPeerId
  have hkeep : ∀ (s : Host κ) (e : HostEvent κ lib) (o : List (Effect κ)) (t : Host κ),
      HostUnique s → s.step π e = some (o, t) → HostUnique t :=
    fun _ _ _ _ hs hstep => (HostMove.of_step hstep).unique hs
  constructor
  · refine hrun.invariant_iff_under hkeep ?_ hunique hstart
    exact fun x hstep hs htruth => (HostMove.of_step hstep).keepsTruth_iff hs htruth
  · intro hkeeps
    have htruth : HostUnique h ∧ Truthful h := by
      refine hrun.invariant_on (I := fun h => HostUnique h ∧ Truthful h) ?_ hkeeps ⟨hunique, hstart⟩
      rintro x hx ⟨hs, htruth⟩ hstep
      exact ⟨hkeep _ _ _ _ hs hstep, ((HostMove.of_step hstep).keepsTruth_iff hs htruth).mpr hx⟩
    exact ⟨htruth.2, htruth.2.overConnection⟩

end

/-- The user approves a caller who has hung up. -/
def lateApproval : List (HostEvent silentCodec sampleLibp2p) :=
  [.event (.connectionEstablished remote incoming), .event (.sessionHello remote sampleHello 0),
    .event (.connectionClosed remote 0), .event (.approvePendingPeer remotePeer false)]

theorem lateApproval_flags :
    (hostRun .release "local-user" localPeer lateApproval).map (fun r =>
      (r.1.length, r.2.status.network.knownPeers.map fun entry =>
        (entry.peerId, entry.connected, r.2.established entry.peerId))) =
      some (4, [(remotePeer, true, 0)]) := by
  decide +kernel

theorem lateApproval_not_truthful :
    ¬ ∀ (tr : List (HostTransition silentCodec sampleLibp2p)) (h : Host silentCodec),
      HostRun .release "local-user" localPeer tr h → Truthful h := by
  intro hall
  obtain ⟨⟨tr, h⟩, hrun, hflags⟩ := Option.map_eq_some_iff.mp lateApproval_flags
  obtain ⟨_, hbook⟩ := Prod.mk.inj hflags
  have hlisted := hbook ▸ List.mem_singleton_self (remotePeer, true, 0)
  obtain ⟨entry, hentry, heq⟩ := List.mem_map.mp hlisted
  obtain ⟨_, hcounts⟩ := Prod.mk.inj heq
  obtain ⟨hconnected, hnone⟩ := Prod.mk.inj hcounts
  have hsome := hall tr h (hostRun_trace hrun) entry hentry hconnected
  exact absurd hnone hsome.ne'

theorem connected_truthful_iff_lateApproval :
    ∃ (tr : List (HostTransition silentCodec sampleLibp2p)) (h : Host silentCodec), tr.length = 4 ∧
      ((∀ x ∈ tr, Truthful x.before ∧ Truthful x.after) ↔ ∀ x ∈ tr, KeepsTruth x) ∧
      ((∀ x ∈ tr, KeepsTruth x) → Truthful h ∧ ∀ offers target,
        OverConnection h.established target (resolveRoute sampleLibp2p h.status offers target)) := by
  obtain ⟨⟨tr, h⟩, hrun, hflags⟩ := Option.map_eq_some_iff.mp lateApproval_flags
  exact ⟨tr, h, (Prod.mk.inj hflags).1, connected_truthful_iff (hostRun_trace hrun)⟩

end Voicers
