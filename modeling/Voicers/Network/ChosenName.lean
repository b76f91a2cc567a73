import Voicers.Network.AddressBook

/-! The name of a peer in the book. The user can choose it, but hellos,
identify messages, connections and saves enter the one the peer goes by. -/

namespace Voicers

open Lib

variable {κ : Codec} {lib : Libp2p}

def nameOf (known : List KnownPeerSummary) (peerId : String) : Option String :=
  (known.find? fun entry => entry.peerId = peerId).map KnownPeerSummary.displayName

def DaemonStatus.knownName (state : DaemonStatus) : String → Option String :=
  nameOf state.network.knownPeers

/-- The name of a peer that enters the book without one. -/
def DaemonStatus.nameOrDefault (state : DaemonStatus) (peerId : String) : String :=
  (state.knownName peerId).getD ("peer " ++ shortPeerId peerId)

/-- The name an identify message tells. -/
def identifiedName (peerId : String) (info : IdentifyInfo) : String :=
  if info.agentVersion = "" then "peer " ++ shortPeerId peerId else info.agentVersion

def writeName (names : String → Option String) : Option (String × String) → String → Option String
  | none => names
  | some (peerId, name) => Function.update names peerId (some name)

/-- The name that is written for a peer, unless it is ignored. -/
def nameTouch (state : DaemonStatus) (peerId name : String) : Option (String × String) :=
  if peerId ∈ state.network.ignoredPeerIds then none else some (peerId, name)

/-- The peer whose name the event writes, and the name. -/
def Daemon.nameWrite (d : Daemon κ) : Event κ lib → Option (String × String)
  | .connectionEstablished peer _ =>
    if d.surfaces peer.text then nameTouch d.status peer.text (d.status.listedName peer.text)
    else none
  | .identifyReceived peer info =>
    if shouldSurfaceApprovedPeer d.status peer.text then
      nameTouch d.status peer.text (identifiedName peer.text info)
    else none
  | .foundRecord query invite _ =>
    if d.adopts query invite then some (invite.peerId, d.status.nameOrDefault invite.peerId)
    else none
  | .sessionHello peer hello _ =>
    if d.passesGate peer.text then nameTouch d.status peer.text hello.displayName else none
  | .sessionHelloAck peer hello =>
    if d.helloRequests peer.text = 0 then none
    else nameTouch d.status peer.text hello.displayName
  | .approvePendingPeer peerId _ => match d.pendingInboundApprovals peerId with
    | none => none
    | some pending => nameTouch d.status peerId pending.hello.displayName
  | .seedInviteHints invite => some (invite.peerId, d.status.nameOrDefault invite.peerId)
  | .saveKnownPeer peerId => (d.status.peer? peerId).map fun live => (peerId, live.displayName)
  | .renameKnownPeer peerId name =>
    if (d.status.knownPeer? peerId).isSome then some (peerId, name) else none
  | _ => none

section

variable {known : List KnownPeerSummary} {peerId : String} {f : KnownPeerSummary → KnownPeerSummary}

theorem nameOf_updateFirst (hid : ∀ entry, (f entry).peerId = entry.peerId) {g : String → String}
    (hname : ∀ entry, (f entry).displayName = g entry.displayName) :
    nameOf (updateFirst (fun entry => entry.peerId = peerId) f known) =
      Function.update (nameOf known) peerId ((nameOf known peerId).map g) := by
  have hfind : (fun q => (updateFirst (fun entry => entry.peerId = peerId) f known).find?
      fun entry => entry.peerId = q) = _ := find?_key_updateFirst hid
  have hnames := congrArg (Option.map KnownPeerSummary.displayName ∘ ·) hfind
  rw [Function.comp_update] at hnames
  refine hnames.trans (congrArg (Function.update (nameOf known) peerId) ?_)
  rw [nameOf, Option.map_map, Option.map_map]
  exact congrArg (Option.map · _) (funext hname)

theorem nameOf_updateFirst_same (hid : ∀ entry, (f entry).peerId = entry.peerId)
    (hname : ∀ entry, (f entry).displayName = entry.displayName) :
    nameOf (updateFirst (fun entry => entry.peerId = peerId) f known) = nameOf known := by
  rw [nameOf_updateFirst (g := id) hid hname, Option.map_id, id, Function.update_eq_self]

theorem nameOf_updateOrPush {new : KnownPeerSummary} (hid : ∀ entry, (f entry).peerId = entry.peerId)
    {g : String → String} (hname : ∀ entry, (f entry).displayName = g entry.displayName)
    (hnew : new.peerId = peerId) :
    nameOf (updateOrPush (fun entry => entry.peerId = peerId) f new known) =
      Function.update (nameOf known) peerId
        (some (g ((nameOf known peerId).getD new.displayName))) := by
  have hfind : (fun q => (updateOrPush (fun entry => entry.peerId = peerId) f new known).find?
      fun entry => entry.peerId = q) = _ := find?_key_updateOrPush hid hnew
  have hnames := congrArg (Option.map KnownPeerSummary.displayName ∘ ·) hfind
  rw [Function.comp_update] at hnames
  refine hnames.trans (congrArg (Function.update (nameOf known) peerId) ?_)
  rw [Option.map_some, hname, nameOf, Option.getD_map]

end

section

variable (lib) (state : DaemonStatus) (peerId : String)

theorem updateKnownPeer_name (address displayName : Option String) (connected seen : Bool) :
    (updateKnownPeer lib state peerId address displayName connected seen).knownName =
      writeName state.knownName
        (nameTouch state peerId (displayName.getD (state.nameOrDefault peerId))) := by
  rw [updateKnownPeer_eq, nameTouch]
  split_ifs
  · rfl
  · refine Eq.trans (nameOf_updateOrPush (g := displayName.getD) (fun _ => ?_) (fun _ => ?_) ?_) ?_
    · rfl
    · rfl
    · rfl
    · cases displayName with
      | none => rfl
      | some name => rfl

theorem upsertPeer_name (address : String) :
    (upsertPeer lib state peerId address).knownName =
      writeName state.knownName (nameTouch state peerId (state.listedName peerId)) := by
  rw [upsertPeer_named, updateKnownPeer_name]
  rfl

theorem applySessionHello_name (hello : SessionHello) :
    (applySessionHello lib state peerId hello).knownName =
      writeName state.knownName (nameTouch state peerId hello.displayName) := by
  rw [applySessionHello_eq, updateKnownPeer_name]
  rfl

theorem identifiedStatus_name (info : IdentifyInfo) :
    (Daemon.identifiedStatus lib state peerId info).knownName = writeName state.knownName
      (if shouldSurfaceApprovedPeer state peerId then
        nameTouch state peerId (identifiedName peerId info) else none) := by
  obtain ⟨observedAddrs, htouched⟩ := Daemon.noteObserved_touched
    (if shouldSurfaceApprovedPeer state peerId then
      updateKnownPeer lib
        (getOrInsertPeer state peerId (info.listenAddrs.headD "<unknown>") fun peer =>
          { peer with displayName := identifiedName peerId info, transport := .connected })
        peerId none (some (identifiedName peerId info)) true false
    else state) info.observedAddr
  have hnoted : Daemon.identifiedStatus lib state peerId info = _ := htouched
  rw [hnoted]
  split_ifs
  · exact updateKnownPeer_name lib _ peerId none _ true false
  · rfl

theorem seedRendezvousInvite_name (invite : CompactInviteV1) :
    (seedRendezvousInvite lib state invite).knownName =
      writeName state.knownName (some (invite.peerId, state.nameOrDefault invite.peerId)) := by
  have hallowed : invite.peerId ∉ (unignore state invite.peerId).network.ignoredPeerIds := by
    simp [unignore]
  have htouched := updateKnownPeer_name lib (unignore state invite.peerId) invite.peerId none none
    false false
  rw [nameTouch, if_neg hallowed] at htouched
  rw [seedRendezvousInvite_noted]
  refine (nameOf_updateFirst_same (fun entry => ?_) fun entry => ?_).trans htouched
  · rw [foldl_notedEntry]
  · rw [foldl_notedEntry]

theorem seedInviteHints_name (invite : CompactInviteV1) :
    (seedInviteHints state invite).knownName =
      writeName state.knownName (some (invite.peerId, state.nameOrDefault invite.peerId)) := by
  rw [seedInviteHints_eq]
  refine nameOf_updateOrPush (g := id) (fun entry => ?_) (fun entry => ?_) rfl
  · rw [hintedEntry_eq]
  · rw [hintedEntry_eq]
    rfl

theorem saveKnownPeer_name : (saveKnownPeer state peerId).2.knownName =
    writeName state.knownName
      ((state.peer? peerId).map fun live => (peerId, live.displayName)) := by
  cases hknown : state.knownPeer? peerId with
  | some entry =>
    rw [saveKnownPeer_known state peerId (by simp [hknown])]
    cases state.peer? peerId with
    | none => exact nameOf_updateFirst_same (fun _ => rfl) fun _ => rfl
    | some live =>
      have hname : nameOf state.network.knownPeers peerId = some entry.displayName :=
        congrArg (Option.map KnownPeerSummary.displayName) hknown
      have hedit : nameOf (updateFirst _ _ state.network.knownPeers) =
          Function.update (nameOf state.network.knownPeers) peerId _ :=
        nameOf_updateFirst (f := savedEntry (some live)) (g := fun _ => live.displayName)
          (fun _ => rfl) fun _ => rfl
      rw [hname] at hedit
      exact hedit
  | none =>
    cases hlive : state.peer? peerId with
    | none =>
      rw [saveKnownPeer_none state peerId hknown hlive]
      rfl
    | some live =>
      rw [saveKnownPeer_live state peerId hknown hlive]
      have hnone : state.network.knownPeers.any (fun entry => entry.peerId = peerId) = false := by
        rw [← isSome_knownPeer?, hknown]
        rfl
      have hid : (liveEntry live).peerId = peerId := DaemonStatus.peerId_of_peer? hlive
      have hpush : nameOf (updateOrPush _ _ _ state.network.knownPeers) = _ :=
        nameOf_updateOrPush (f := id) (g := id) (fun _ => rfl) (fun _ => rfl) hid
      have hname : nameOf state.network.knownPeers peerId = none :=
        congrArg (Option.map KnownPeerSummary.displayName) hknown
      rw [updateOrPush, hnone, hname] at hpush
      exact hpush

theorem renameKnownPeer_name (displayName : String) :
    (renameKnownPeer state peerId displayName).2.knownName = writeName state.knownName
      (if (state.knownPeer? peerId).isSome then some (peerId, displayName) else none) := by
  have hedit : nameOf (updateFirst _ _ state.network.knownPeers) =
      Function.update (nameOf state.network.knownPeers) peerId _ :=
    nameOf_updateFirst
      (f := fun entry => { entry with displayName := displayName, pinned := true })
      (g := fun _ => displayName) (fun _ => rfl) fun _ => rfl
  have hname : nameOf state.network.knownPeers peerId =
    (state.knownPeer? peerId).map KnownPeerSummary.displayName := rfl
  simp only [renameKnownPeer]
  cases hknown : state.knownPeer? peerId with
  | some entry =>
    have hany := isSome_knownPeer? state peerId
    rw [hknown, Option.isSome_some] at hany
    rw [← hany, Bool.true_or, if_pos rfl]
    rw [hname, hknown] at hedit
    exact hedit
  | none =>
    rw [hname, hknown, Option.map_none, Option.map_none] at hedit
    have hsame : Function.update (nameOf state.network.knownPeers) peerId none =
        nameOf state.network.knownPeers := by
      rw [Function.update_eq_self_iff, hname, hknown]
      rfl
    simp only [Option.isSome_none, Bool.false_eq_true, if_false]
    split_ifs
    · exact hedit.trans hsame
    · rfl

end

theorem statusAfter_name (d : Daemon κ) (e : Event κ lib) :
    (d.statusAfter e).knownName = writeName d.status.knownName (d.nameWrite e) := by
  have happroved : ∀ peerId hello, (d.approvedStatus lib peerId hello).knownName =
      writeName d.status.knownName (nameTouch d.status peerId hello.displayName) := by
    intro peerId hello
    unfold Daemon.approvedStatus
    dsimp only
    split_ifs
    · exact applySessionHello_name lib d.status peerId hello
    · exact applySessionHello_name lib d.status peerId hello
  cases e with
  | connectionEstablished peer endpoint =>
    simp only [Daemon.statusAfter, Daemon.establishedStatus, Daemon.nameWrite]
    by_cases hs : d.surfaces peer.text = true
    · rw [if_pos hs, if_pos (show shouldSurfaceConnectedPeer _ _ _ = true from hs)]
      exact upsertPeer_name lib _ peer.text _
    · rw [if_neg hs, if_neg (show ¬ shouldSurfaceConnectedPeer _ _ _ = true from hs)]
      rfl
  | connectionClosed peer n => exact nameOf_updateFirst_same (fun _ => rfl) fun _ => rfl
  | identifyReceived peer info => exact identifiedStatus_name lib d.status peer.text info
  | foundRecord query invite dialed =>
    simp only [Daemon.statusAfter, Daemon.nameWrite]
    split_ifs
    · exact seedRendezvousInvite_name lib d.status invite
    · rfl
  | sessionHello peer hello channel =>
    simp only [Daemon.statusAfter, Daemon.nameWrite, queuePendingPeerApproval]
    split_ifs
    · exact happroved peer.text hello
    · rfl
    · rfl
  | sessionHelloAck peer hello =>
    simp only [Daemon.statusAfter, Daemon.nameWrite]
    split_ifs
    · rfl
    · exact applySessionHello_name lib d.status peer.text hello
  | approvePendingPeer peerId whitelist =>
    simp only [Daemon.statusAfter, Daemon.nameWrite]
    cases d.pendingInboundApprovals peerId with
    | none => rfl
    | some pending => exact happroved peerId pending.hello
  | rejectPendingPeer peerId =>
    simp only [Daemon.statusAfter]
    split_ifs
    · rfl
    · rfl
  | followUp index =>
    simp only [Daemon.statusAfter]
    cases d.followUps[index]? with
    | none => rfl
    | some followUp =>
      cases followUp with
      | approved peerId whitelist =>
        simp only [Daemon.runFollowUp]
        split_ifs
        · exact nameOf_updateFirst_same (fun _ => rfl) fun _ => rfl
        · rfl
      | rejected peerId => rfl
  | seedInviteHints invite => exact seedInviteHints_name d.status invite
  | saveKnownPeer peerId => exact saveKnownPeer_name d.status peerId
  | renameKnownPeer peerId name => exact renameKnownPeer_name d.status peerId name
  | forgetKnownPeer peerId =>
    simp only [Daemon.statusAfter, forgetKnownPeer]
    split_ifs
    · exact nameOf_updateFirst_same (fun _ => rfl) fun _ => rfl
    · rfl
  | setTrustedContact peerId trusted =>
    simp only [Daemon.statusAfter, setTrustedContact]
    split_ifs
    · exact nameOf_updateFirst_same (fun _ => rfl) fun _ => rfl
    · rfl
  | _ => rfl

/-- The event enters another name for the peer than the given one. -/
def Daemon.Overwrites (d : Daemon κ) (peerId name : String) : Event κ lib → Prop
  | .connectionEstablished peer _ => peer.text = peerId ∧ d.surfaces peerId = true ∧
      peerId ∉ d.status.network.ignoredPeerIds ∧ d.status.listedName peerId ≠ name
  | .identifyReceived peer info => peer.text = peerId ∧
      shouldSurfaceApprovedPeer d.status peerId = true ∧
      peerId ∉ d.status.network.ignoredPeerIds ∧ identifiedName peerId info ≠ name
  | .sessionHello peer hello _ => peer.text = peerId ∧ d.passesGate peerId = true ∧
      peerId ∉ d.status.network.ignoredPeerIds ∧ hello.displayName ≠ name
  | .sessionHelloAck peer hello => peer.text = peerId ∧ d.helloRequests peerId ≠ 0 ∧
      peerId ∉ d.status.network.ignoredPeerIds ∧ hello.displayName ≠ name
  | .approvePendingPeer approved _ => approved = peerId ∧
      peerId ∉ d.status.network.ignoredPeerIds ∧
      ∃ pending, d.pendingInboundApprovals peerId = some pending ∧ pending.hello.displayName ≠ name
  | .saveKnownPeer saved => saved = peerId ∧
      ∃ live, d.status.peer? peerId = some live ∧ live.displayName ≠ name
  | _ => False

def Named (peerId name : String) (h : Host κ) : Prop := h.status.knownName peerId = some name

/-- A request of the user to give the peer a name. -/
def IsRename (peerId : String) (x : HostTransition κ lib) : Prop :=
  ∃ name, x.input = .event (.renameKnownPeer peerId name)

/-- The request names a peer of the book and is not refused. -/
def RenamesTo (peerId displayName : String) (x : HostTransition κ lib) : Prop :=
  x.input = .event (.renameKnownPeer peerId (trim displayName)) ∧ trim displayName ≠ "" ∧
    (x.before.status.knownPeer? peerId).isSome = true

/-- No other name is entered for the peer, and a start reads a file in which it
has this one. -/
def KeepsName (peerId name : String) (x : HostTransition κ lib) : Prop :=
  match x.input with
  | .event e => ¬ x.before.daemon.Overwrites peerId name e
  | .restart index _ _ => ∀ file, x.before.fileAt index = some file →
      nameOf file.knownPeers peerId = some name
  | _ => True

section

variable {d : Daemon κ} {e : Event κ lib} {peerId name : String} {names : String → Option String}

theorem writeName_iff {write : Option (String × String)} (h : names peerId = some name) :
    writeName names write peerId = some name ↔ ∀ other, write = some (peerId, other) → other = name := by
  cases write with
  | none => exact iff_of_true h fun _ hnone => by cases hnone
  | some w =>
    obtain ⟨written, other⟩ := w
    by_cases hp : peerId = written
    · subst hp
      simp [writeName]
    · rw [writeName, Function.update_of_ne hp]
      refine iff_of_true h fun _ hsome => absurd ?_ hp
      exact (Prod.mk.inj (Option.some.inj hsome)).1.symm

theorem nameTouch_eq_some {state : DaemonStatus} {touched other given : String} :
    nameTouch state touched given = some (peerId, other) ↔
      touched = peerId ∧ peerId ∉ state.network.ignoredPeerIds ∧ given = other := by
  unfold nameTouch
  split_ifs with hignored
  · refine iff_of_false (by simp) ?_
    rintro ⟨rfl, hallowed, _⟩
    exact hallowed hignored
  · simp only [Option.some.injEq, Prod.mk.injEq]
    constructor
    · rintro ⟨rfl, rfl⟩
      exact ⟨rfl, hignored, rfl⟩
    · rintro ⟨rfl, _, rfl⟩
      exact ⟨rfl, rfl⟩

theorem guarded_touch_iff {state : DaemonStatus} {touched given : String} {c : Prop} [Decidable c] :
    (∀ other, (if c then nameTouch state touched given else none) = some (peerId, other) →
        other = name) ↔
      ¬ (touched = peerId ∧ c ∧ peerId ∉ state.network.ignoredPeerIds ∧ given ≠ name) := by
  constructor
  · rintro hall ⟨rfl, hc, hallowed, hne⟩
    refine hne (hall given ?_)
    rw [if_pos hc]
    exact nameTouch_eq_some.mpr ⟨rfl, hallowed, rfl⟩
  · intro hnot other hwrite
    obtain ⟨hc, htouch⟩ := Option.ite_none_right_eq_some.mp hwrite
    obtain ⟨rfl, hallowed, rfl⟩ := nameTouch_eq_some.mp htouch
    by_contra hne
    exact hnot ⟨rfl, hc, hallowed, hne⟩

/-- A known peer keeps its name unless the event overwrites or renames it. -/
theorem nameWrite_iff (hknown : d.status.knownName peerId = some name)
    (hrename : ∀ other, e ≠ .renameKnownPeer peerId other) :
    (∀ other, d.nameWrite e = some (peerId, other) → other = name) ↔
      ¬ d.Overwrites peerId name e := by
  have hdefault : ∀ {id other : String}, some (id, d.status.nameOrDefault id) = some (peerId, other) →
      other = name := by
    intro id other hwrite
    obtain ⟨rfl, rfl⟩ := Prod.mk.inj (Option.some.inj hwrite)
    rw [DaemonStatus.nameOrDefault, hknown, Option.getD_some]
  cases e with
  | connectionEstablished peer endpoint =>
    refine guarded_touch_iff.trans (not_congr (and_congr_right fun hid => ?_))
    subst hid
    exact Iff.rfl
  | identifyReceived peer info =>
    refine guarded_touch_iff.trans (not_congr (and_congr_right fun hid => ?_))
    subst hid
    exact Iff.rfl
  | foundRecord query invite dialed =>
    refine iff_of_true (fun other hwrite => ?_) id
    exact hdefault (Option.ite_none_right_eq_some.mp hwrite).2
  | sessionHello peer hello channel =>
    refine guarded_touch_iff.trans (not_congr (and_congr_right fun hid => ?_))
    subst hid
    exact Iff.rfl
  | sessionHelloAck peer hello =>
    simp only [Daemon.nameWrite, ← ite_not (d.helloRequests peer.text = 0)]
    refine guarded_touch_iff.trans (not_congr (and_congr_right fun hid => ?_))
    subst hid
    exact Iff.rfl
  | approvePendingPeer approved whitelist =>
    cases hheld : d.pendingInboundApprovals approved with
    | none =>
      simp only [Daemon.nameWrite, hheld]
      refine iff_of_true (fun _ hnone => by cases hnone) ?_
      rintro ⟨rfl, _, pending, hpending, _⟩
      cases hheld.symm.trans hpending
    | some pending =>
      simp only [Daemon.nameWrite, hheld]
      constructor
      · rintro hall ⟨rfl, hallowed, waiting, hwaiting, hne⟩
        obtain rfl := Option.some.inj (hheld.symm.trans hwaiting)
        exact hne (hall _ (nameTouch_eq_some.mpr ⟨rfl, hallowed, rfl⟩))
      · intro hnot other hwrite
        obtain ⟨rfl, hallowed, rfl⟩ := nameTouch_eq_some.mp hwrite
        by_contra hne
        exact hnot ⟨rfl, hallowed, pending, hheld, hne⟩
  | seedInviteHints invite => exact iff_of_true (fun other => hdefault) id
  | saveKnownPeer saved =>
    simp only [Daemon.nameWrite, Daemon.Overwrites, Option.map_eq_some_iff, Prod.mk.injEq]
    constructor
    · rintro hall ⟨rfl, live, hlive, hne⟩
      exact hne (hall _ ⟨live, hlive, rfl, rfl⟩)
    · rintro hnot other ⟨live, hlive, rfl, rfl⟩
      by_contra hne
      exact hnot ⟨rfl, live, hlive, hne⟩
  | renameKnownPeer renamed other =>
    refine iff_of_true (fun given hwrite => ?_) id
    obtain ⟨_, hsome⟩ := Option.ite_none_right_eq_some.mp hwrite
    obtain ⟨rfl, _⟩ := Prod.mk.inj (Option.some.inj hsome)
    exact absurd rfl (hrename other)
  | _ => exact iff_of_true (fun _ hnone => by cases hnone) id

end

section

variable {π : Profile} {h : Host κ} {x : HostTransition κ lib} {peerId name : String}

theorem HostMove.named_iff (hmove : HostMove lib x.before x.input x.after)
    (hnamed : Named peerId name x.before) (hrename : ¬ IsRename peerId x) :
    Named peerId name x.after ↔ KeepsName peerId name x := by
  obtain ⟨before, input, output, after⟩ := x
  dsimp only at hmove hnamed
  cases hmove with
  | event e _ _ _ hsame _ =>
    have hother : ∀ other, e ≠ .renameKnownPeer peerId other := by
      rintro other rfl
      exact hrename ⟨other, rfl⟩
    have hnames : after.status.knownName = writeName before.status.knownName
        (before.daemon.nameWrite e) := by
      rw [DaemonStatus.knownName, hsame.network]
      exact statusAfter_name before.daemon e
    rw [Named, hnames, writeName_iff hnamed]
    exact nameWrite_iff hnamed hother
  | pathOutcome path scored success => exact iff_of_true hnamed trivial
  | save localDisplayName => exact iff_of_true hnamed trivial
  | restart index displayName localPeerId file hfile =>
    constructor
    · intro hafter other hother
      obtain rfl := Option.some.inj (hfile.symm.trans hother)
      exact hafter
    · exact fun hkeeps => hkeeps file hfile

theorem named_of_rename {displayName : String} (hmove : HostMove lib x.before x.input x.after)
    (hx : RenamesTo peerId displayName x) : Named peerId (trim displayName) x.after := by
  obtain ⟨before, input, output, after⟩ := x
  obtain ⟨rfl, _, hknown⟩ := hx
  dsimp only at hmove hknown
  cases hmove with
  | event e _ _ _ hsame _ =>
    have hwrite : before.daemon.nameWrite (.renameKnownPeer peerId (trim displayName) : Event κ lib) =
        some (peerId, trim displayName) := if_pos hknown
    rw [Named, DaemonStatus.knownName, hsame.network]
    refine (congrFun (statusAfter_name before.daemon _) peerId).trans ?_
    rw [hwrite, writeName, Function.update_self]

/-- After a peer has been renamed, and until it is renamed again, it has its
name all along exactly when each step keeps it. -/
theorem chosen_name_sticks_iff {displayName localPeerId chosen : String}
    {pre post : List (HostTransition κ lib)}
    (hrun : HostRun π displayName localPeerId (pre ++ x :: post) h) (hx : RenamesTo peerId chosen x)
    (hpost : ∀ y ∈ post, ¬ IsRename peerId y) :
    (∀ y ∈ x :: post, Named peerId (trim chosen) y.after) ↔
      ∀ y ∈ post, KeepsName peerId (trim chosen) y := by
  obtain ⟨_, hstep, htail⟩ := hrun.split
  have hnow := named_of_rename (HostMove.of_step hstep) hx
  have hiff := htail.along_iff (J := fun _ _ => True) (I := fun _ h => Named peerId (trim chosen) h)
    (C := fun _ y => (IsRename peerId y → Named peerId (trim chosen) y.after) ∧
      (¬ IsRename peerId y → KeepsName peerId (trim chosen) y))
    trivial hnow (fun _ _ _ _ => trivial) ?_
  · rw [along_iff_mem, along_iff_mem] at hiff
    rw [List.forall_mem_cons, and_iff_right hnow, hiff]
    refine forall_congr' fun y => forall_congr' fun hy => ?_
    have hno := hpost y hy
    exact ⟨fun hmeets => hmeets.2 hno, fun hkeeps => ⟨fun hyes => absurd hyes hno, fun _ => hkeeps⟩⟩
  · intro _ y hy _ hnamed
    by_cases hrename : IsRename peerId y
    · exact ⟨fun hafter => ⟨fun _ => hafter, fun hno => absurd hrename hno⟩,
        fun hmeets => hmeets.1 hrename⟩
    · have hkeeps := (HostMove.of_step hy).named_iff hnamed hrename
      exact ⟨fun hafter => ⟨fun hyes => absurd hyes hrename, fun _ => hkeeps.mp hafter⟩,
        fun hmeets => hkeeps.mpr (hmeets.2 hrename)⟩

end

/-- A friend who is renamed and then calls. -/
def renamedCall : List (HostEvent silentCodec sampleLibp2p) :=
  [.event (.seedInviteHints callInvite), .event (.renameKnownPeer remotePeer "carol"),
    .event (.connectionEstablished remote incoming)]

/-- The connection of the call lists the friend anew, under a number. -/
theorem renamedCall_run : ∃ (first renames calls : HostTransition silentCodec sampleLibp2p)
    (h : Host silentCodec), [first, renames, calls].map Transition.input = renamedCall ∧
    HostRun .release "local-user" localPeer ([first] ++ renames :: [calls]) h ∧
      RenamesTo remotePeer "carol" renames ∧ ¬ IsRename remotePeer calls ∧
      calls.after.status.knownName remotePeer = some "peer 1" := by
  have hnames : (hostRun .release "local-user" localPeer renamedCall).map (fun r =>
      r.1.map fun x => ((x.before.status.knownPeer? remotePeer).isSome,
        x.after.status.knownName remotePeer)) =
      some [(false, some ("peer " ++ shortPeerId remotePeer)), (true, some "carol"),
        (true, some "peer 1")] := by
    decide +kernel
  obtain ⟨⟨tr, h⟩, hrun, htr⟩ := Option.map_eq_some_iff.mp hnames
  simp only [List.map_eq_cons_iff, List.map_eq_nil_iff, Prod.mk.injEq] at htr
  obtain ⟨first, _, rfl, _, renames, _, rfl, ⟨hknown, _⟩, calls, _, rfl, ⟨_, hcalled⟩, rfl⟩ := htr
  have hinputs := execute_inputs hrun
  obtain ⟨_, hrenames, hcalls⟩ : _ ∧ renames.input = _ ∧ calls.input = _ := by
    simpa only [List.map_cons, List.map_nil, renamedCall, List.cons.injEq, and_true] using hinputs
  have htrim : trim "carol" = "carol" := by decide
  refine ⟨first, renames, calls, h, hinputs, hostRun_trace hrun, ⟨?_, ?_, hknown⟩, ?_, hcalled⟩
  · rw [hrenames, htrim]
  · rw [htrim]
    decide
  · rintro ⟨name, hname⟩
    cases hcalls.symm.trans hname

theorem renamedCall_forgets : ¬ ∀ (pre post : List (HostTransition silentCodec sampleLibp2p))
    (x : HostTransition silentCodec sampleLibp2p) (h : Host silentCodec),
    HostRun .release "local-user" localPeer (pre ++ x :: post) h → RenamesTo remotePeer "carol" x →
      (∀ y ∈ post, ¬ IsRename remotePeer y) →
        ∀ y ∈ x :: post, Named remotePeer (trim "carol") y.after := by
  intro hall
  obtain ⟨first, renames, calls, h, _, hrun, hrenames, hno, hcalled⟩ := renamedCall_run
  have hnamed := hall _ _ _ h hrun hrenames (by simpa using hno) calls (by simp)
  rw [Named, hcalled] at hnamed
  exact absurd hnamed (by decide)

theorem chosen_name_sticks_iff_renamedCall :
    ∃ (first renames calls : HostTransition silentCodec sampleLibp2p) (h : Host silentCodec),
      [first, renames, calls].map Transition.input = renamedCall ∧
      HostRun .release "local-user" localPeer [first, renames, calls] h ∧
      ((∀ y ∈ [renames, calls], Named remotePeer (trim "carol") y.after) ↔
        ∀ y ∈ [calls], KeepsName remotePeer (trim "carol") y) := by
  obtain ⟨first, renames, calls, h, hinputs, hrun, hrenames, hno, _⟩ := renamedCall_run
  exact ⟨first, renames, calls, h, hinputs, hrun,
    chosen_name_sticks_iff hrun hrenames (by simpa using hno)⟩

end Voicers
