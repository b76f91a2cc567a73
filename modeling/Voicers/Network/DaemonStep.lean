import Voicers.Network.Daemon
import Voicers.Media.EngineStep
import Voicers.Lib.Trace

/-! Steps of a daemon, and what its parts change: the media engine only its
own runtimes and the records of the listed peers, the peer book neither the
list nor the flows. -/

namespace Voicers

open Lib

variable {κ : Codec} {lib : Libp2p}

def daemonStep (π : Profile) (lib : Libp2p) (d : Daemon κ) (e : Event κ lib) :
    Option (List (Effect κ) × Daemon κ) :=
  some ((d.handle π lib e).2, (d.handle π lib e).1)

abbrev DaemonTransition (κ : Codec) (lib : Libp2p) :=
  Transition (Daemon κ) (Event κ lib) (List (Effect κ))

def daemonRun (π : Profile) (lib : Libp2p) (status : DaemonStatus) (events : List (Event κ lib)) :
    Option (List (DaemonTransition κ lib) × Daemon κ) :=
  execute (daemonStep π lib) (Daemon.start status) events

theorem daemonRun_trace {π : Profile} {status : DaemonStatus} {events : List (Event κ lib)}
    {tr : List (DaemonTransition κ lib)} {d : Daemon κ}
    (h : daemonRun π lib status events = some (tr, d)) :
    Trace (daemonStep π lib) (Daemon.start status) tr d :=
  execute_trace h

theorem daemonStep_eq {π : Profile} {x : DaemonTransition κ lib}
    (h : daemonStep π lib x.before x.input = some (x.output, x.after)) :
    x.output = (x.before.handle π lib x.input).2 ∧
      x.after = (x.before.handle π lib x.input).1 := by
  obtain ⟨ho, ha⟩ := Prod.mk.inj (Option.some.inj h)
  exact ⟨ho.symm, ha.symm⟩

namespace Daemon

def Admits (d : Daemon κ) (e : Event κ lib) (peerId : String) : Prop :=
  match e with
  | .sessionHello peer _ _ => peer.text = peerId ∧
      (alreadyConnected d.status peerId || !shouldGatePeerApproval d.status peerId) = true
  | .sessionHelloAck peer _ => peer.text = peerId ∧ d.helloRequests peerId ≠ 0
  | .approvePendingPeer approved _ => approved = peerId ∧
      (d.pendingInboundApprovals peerId).isSome = true
  | _ => False

/-- The event is a connection of `peerId` that is more than transport. -/
def Surfaces (d : Daemon κ) (e : Event κ lib) (peerId : String) : Prop :=
  match e with
  | .connectionEstablished peer _ => peer.text = peerId ∧
      shouldSurfaceConnectedPeer d.status peerId (d.pendingDials peerId).isSome = true
  | _ => False

def Identifies (d : Daemon κ) (e : Event κ lib) (peerId : String) : Prop :=
  match e with
  | .identifyReceived peer _ => peer.text = peerId ∧
      shouldSurfaceApprovedPeer d.status peerId = true
  | _ => False

def Delivers (d : Daemon κ) (e : Event κ lib) (peerId : String) : Prop :=
  match e with
  | .mediaRequest peer (.frame _) => peer.text = peerId
  | .mediaRequest peer (.relayedFrame destination _) => peer.text = peerId ∧
      destination = d.status.localPeerId
  | _ => False

/-- A step of the media engine: nothing else changes but the records of the
listed peers. -/
def MediaOnly (d d' : Daemon κ) : Prop :=
  ∃ status media queue, d' = { d with status := status, media := media, mediaQueue := queue } ∧
    d.status.PeersOnly status

theorem MediaOnly.refl (d : Daemon κ) : d.MediaOnly d :=
  ⟨d.status, d.media, d.mediaQueue, rfl, .refl _⟩

theorem MediaOnly.trans {d d' d'' : Daemon κ} (h : d.MediaOnly d') (h' : d'.MediaOnly d'') :
    d.MediaOnly d'' := by
  obtain ⟨s, m, q, rfl, hs⟩ := h
  obtain ⟨s', m', q', rfl, hs'⟩ := h'
  exact ⟨s', m', q', rfl, hs.trans hs'⟩

theorem queueMedia_status (d : Daemon κ) (command : MediaCommand) :
    (d.queueMedia command).status = d.status := by
  unfold queueMedia
  split
  · rfl
  · rfl

theorem queueMedia_mediaOnly (d : Daemon κ) (command : MediaCommand) :
    d.MediaOnly (d.queueMedia command) := by
  unfold queueMedia
  split
  · exact ⟨_, _, _, rfl, .refl _⟩
  · exact .refl d

theorem runNextMediaCommand_mediaOnly (d : Daemon κ) : d.MediaOnly d.runNextMediaCommand := by
  unfold runNextMediaCommand
  split
  · exact ⟨_, _, _, rfl, (runMediaCommand_spec _ _ _).1⟩
  · exact .refl d

theorem flushMedia_induction {R : Daemon κ → Daemon κ → Prop} (hrefl : ∀ d, R d d)
    (htrans : ∀ d d' d'', R d d' → R d' d'' → R d d'')
    (hstep : ∀ d : Daemon κ, R d d.runNextMediaCommand) (d : Daemon κ) : R d d.flushMedia := by
  have hiter : ∀ n, R d (runNextMediaCommand^[n] d) := by
    intro n
    induction n with
    | zero => exact hrefl d
    | succ n ih =>
      rw [Function.iterate_succ_apply']
      exact htrans _ _ _ ih (hstep _)
  exact hiter _

theorem flushMedia_mediaOnly (d : Daemon κ) : d.MediaOnly d.flushMedia :=
  flushMedia_induction MediaOnly.refl (fun _ _ _ => MediaOnly.trans)
    runNextMediaCommand_mediaOnly d

theorem callMedia_mediaOnly {α : Type} (d : Daemon κ)
    {call : DaemonStatus → MediaPeers κ → Option (Option α × DaemonStatus × MediaPeers κ)}
    (hcall : ∀ s ps a s' ps', call s ps = some (a, s', ps') → s.PeersOnly s') :
    d.MediaOnly (d.callMedia call).2 := by
  have hflush := d.flushMedia_mediaOnly
  simp only [callMedia]
  split
  · exact hflush
  · split
    · exact hflush.trans ⟨_, _, _, rfl, .refl _⟩
    · next heq => exact hflush.trans ⟨_, _, _, rfl, hcall _ _ _ _ _ heq⟩

theorem onPlayout_mediaOnly (π : Profile) (d : Daemon κ) (now : Nat) (peerIds : List String) :
    d.MediaOnly (d.onPlayout π now peerIds).1 := by
  simp only [onPlayout]
  split
  · exact .refl d
  · split
    · exact ⟨_, _, _, rfl, .refl _⟩
    · next heq => exact ⟨_, _, _, rfl, (drivePlayout_spec heq).1⟩

def runtime (d : Daemon κ) (peerId : String) : Option (MediaPeerRuntime κ) :=
  d.media.bind fun peers => peers peerId

/-- `peerId` has a runtime, or will have one when the engine reads its queue. -/
def Registered (d : Daemon κ) (peerId : String) : Prop :=
  (d.runtime peerId).isSome ∨ .registerPeer peerId ∈ d.mediaQueue

def Silent (d : Daemon κ) (peerId : String) : Prop :=
  ∀ runtime, d.runtime peerId = some runtime → runtime.jitter = .new

/-- A step that gives `peerId` neither a runtime nor anything to play. -/
structure Spares (peerId : String) (d d' : Daemon κ) : Prop where
  registered : d'.Registered peerId → d.Registered peerId
  silent : d.Silent peerId → d'.Silent peerId

theorem Spares.refl (p : String) (d : Daemon κ) : d.Spares p d := ⟨id, id⟩

theorem Spares.trans {p : String} {d d' d'' : Daemon κ} (h : Spares p d d')
    (h' : Spares p d' d'') : Spares p d d'' :=
  ⟨fun hr => h.registered (h'.registered hr), fun hs => h'.silent (h.silent hs)⟩

theorem Spares.of_engine {p : String} {d d' : Daemon κ} (hm : d'.media = d.media)
    (hq : d'.mediaQueue = d.mediaQueue) : Spares p d d' := by
  constructor
  · unfold Registered runtime
    rw [hm, hq]
    exact id
  · unfold Silent runtime
    rw [hm]
    exact id

theorem queueMedia_spares {p : String} {command : MediaCommand}
    (hc : command ≠ .registerPeer p) (d : Daemon κ) : Spares p d (d.queueMedia command) := by
  unfold queueMedia
  split
  · refine ⟨fun h => ?_, id⟩
    rcases h with h | h
    · exact .inl h
    · rcases List.mem_append.mp h with h | h
      · exact .inr h
      · exact absurd (List.mem_singleton.mp h).symm hc
  · exact .refl p d

theorem runNextMediaCommand_spares (p : String) (d : Daemon κ) :
    Spares p d d.runNextMediaCommand := by
  cases hm : d.media with
  | none =>
    simp only [runNextMediaCommand, hm]
    exact .refl p d
  | some peers =>
    cases hq : d.mediaQueue with
    | nil =>
      simp only [runNextMediaCommand, hm, hq]
      exact .refl p d
    | cons command queue =>
      simp only [runNextMediaCommand, hm, hq]
      obtain ⟨_, hsome, hsilent⟩ := runMediaCommand_spec d.status peers command
      refine ⟨fun h => ?_, fun h => ?_⟩
      · rcases h with h | h
        · rcases hsome p h with h | rfl
          · exact .inl (by simpa [runtime, hm] using h)
          · exact .inr (by simp [hq])
        · exact .inr (by simp [hq, h])
      · exact hsilent p fun rt hrt => h rt (by simpa [runtime, hm] using hrt)

theorem flushMedia_spares (p : String) (d : Daemon κ) : Spares p d d.flushMedia :=
  flushMedia_induction (Spares.refl p) (fun _ _ _ => Spares.trans) (runNextMediaCommand_spares p) d

section

variable {α : Type} {p : String}
  {call : DaemonStatus → MediaPeers κ → Option (Option α × DaemonStatus × MediaPeers κ)}

theorem callMedia_silent {d : Daemon κ} (h : d.Silent p)
    (hcall : ∀ s ps a s' ps', call s ps = some (a, s', ps') → SilentAt ps p → SilentAt ps' p) :
    (d.callMedia call).2.Silent p := by
  have hflush := (d.flushMedia_spares p).silent h
  simp only [callMedia]
  split
  · exact hflush
  · next peers hm =>
    split
    · exact fun rt hrt => by simp [runtime] at hrt
    · next heq =>
      exact hcall _ _ _ _ _ heq fun rt hrt => hflush rt (by simpa [runtime, hm] using hrt)

theorem callMedia_spares (d : Daemon κ)
    (hcall : ∀ s ps a s' ps', call s ps = some (a, s', ps') → ps' p = ps p) :
    Spares p d (d.callMedia call).2 := by
  have hflush := d.flushMedia_spares p
  refine ⟨fun h => hflush.registered ?_, fun h => callMedia_silent h ?_⟩
  · simp only [callMedia] at h
    split at h
    · exact h
    · next peers hm =>
      split at h
      · simp [Registered, runtime] at h
      · next heq =>
        rcases h with h | h
        · simp only [runtime, Option.bind_some, hcall _ _ _ _ _ heq] at h
          exact .inl (by simpa [runtime, hm] using h)
        · exact .inr h
  · intro s ps a s' ps' heq hs rt hrt
    exact hs rt (hcall _ _ _ _ _ heq ▸ hrt)

end

theorem onPlayout_spares (π : Profile) (p : String) (d : Daemon κ) (now : Nat)
    (peerIds : List String) : Spares p d (d.onPlayout π now peerIds).1 := by
  cases hm : d.media with
  | none =>
    simp only [onPlayout, hm]
    exact .refl p d
  | some peers =>
    simp only [onPlayout, hm]
    split
    · exact ⟨fun h => by simp [Registered, runtime] at h, fun _ rt hrt => by simp [runtime] at hrt⟩
    · next heq =>
      obtain ⟨_, hsome, hsilent⟩ := drivePlayout_spec heq
      refine ⟨fun h => ?_, fun h => ?_⟩
      · rcases h with h | h
        · exact .inl (by simpa [runtime, hm] using hsome p h)
        · exact .inr h
      · exact (hsilent p fun rt hrt => h rt (by simpa [runtime, hm] using hrt)).1

theorem Silent.not_pushed {π : Profile} {p : String} {d : Daemon κ} (h : d.Silent p) {now : Nat}
    {peerIds : List String} {samples : κ.Pcm} :
    .pushPeerPcm p samples ∉ (d.onPlayout π now peerIds).2 := by
  cases hm : d.media with
  | none => simp [onPlayout, hm]
  | some peers =>
    simp only [onPlayout, hm]
    split
    · simp
    · next heq =>
      have hno := ((drivePlayout_spec heq).2.2 p fun rt hrt =>
        h rt (by simpa [runtime, hm] using hrt)).2
      simp only [List.mem_map, Effect.pushPeerPcm.injEq, Prod.exists, not_exists, not_and]
      rintro q s hqs rfl rfl
      exact hno _ hqs

/-- A step of the peer book: it may dial and look up, but the listed peers,
the flows and the engine stay as they are. -/
def BookOnly (d d' : Daemon κ) : Prop :=
  ∃ network dials lookups, d' = { d with
    status := { d.status with network := network }
    pendingDials := dials
    pendingRendezvousLookups := lookups }

theorem BookOnly.trans {d d' d'' : Daemon κ} (h : d.BookOnly d') (h' : d'.BookOnly d'') :
    d.BookOnly d'' := by
  obtain ⟨n, ds, ls, rfl⟩ := h
  obtain ⟨n', ds', ls', rfl⟩ := h'
  exact ⟨n', ds', ls', rfl⟩

def Searches (effects : List (Effect κ)) : Prop :=
  ∀ x ∈ effects, (∃ address, x = .dial address) ∨ ∃ key, x = .getRecord key

theorem dialRankedTarget_bookOnly (d : Daemon κ) (ranked : RankedDialTarget) (dialed : Bool) :
    d.BookOnly (d.dialRankedTarget ranked dialed).1 ∧
      Searches (d.dialRankedTarget ranked dialed).2 := by
  unfold dialRankedTarget
  split
  · split
    · exact ⟨⟨_, _, _, rfl⟩, by simp [Searches]⟩
    · exact ⟨⟨_, _, _, rfl⟩, by simp [Searches]⟩
  · exact ⟨⟨_, _, _, rfl⟩, by simp [Searches]⟩

theorem dialPeer_bookOnly (d : Daemon κ) (address : String) (query : Nat) (dialed : Bool) :
    d.BookOnly (d.dialPeer lib address query dialed).1 ∧
      Searches (d.dialPeer lib address query dialed).2 := by
  simp only [dialPeer]
  split
  · exact dialRankedTarget_bookOnly d _ dialed
  · exact ⟨⟨_, _, _, rfl⟩, by simp [Searches]⟩
  · exact ⟨⟨_, _, _, rfl⟩, by simp [Searches]⟩

theorem updateKnownPeer_network (lib : Libp2p) (state : DaemonStatus) (peerId : String)
    (address displayName : Option String) (connected seen : Bool) :
    ∃ network, updateKnownPeer lib state peerId address displayName connected seen =
      { state with network := network } := by
  unfold updateKnownPeer
  split
  · exact ⟨_, rfl⟩
  · exact ⟨_, rfl⟩

theorem seedRendezvousInvite_network (lib : Libp2p) (state : DaemonStatus)
    (invite : CompactInviteV1) :
    ∃ network, seedRendezvousInvite lib state invite = { state with network := network } := by
  obtain ⟨network, hbase⟩ := updateKnownPeer_network lib { state with network := { state.network with
    ignoredPeerIds := state.network.ignoredPeerIds.filter (· ≠ invite.peerId) } }
    invite.peerId none none false false
  simp only [seedRendezvousInvite, hbase]
  clear hbase
  induction invite.addrs generalizing network with
  | nil => exact ⟨network, rfl⟩
  | cons address addrs ih =>
    rw [List.foldl_cons]
    split
    · exact ih network
    · exact ih _

theorem dialFoundPeer_bookOnly (lib : Libp2p) (d : Daemon κ) (invite : CompactInviteV1) (dialed : Bool) :
    d.BookOnly (d.dialFoundPeer lib invite dialed).1 ∧
      Searches (d.dialFoundPeer lib invite dialed).2 := by
  obtain ⟨network, hseed⟩ := seedRendezvousInvite_network lib d.status invite
  have hbook : d.BookOnly (d.withStatus fun status => seedRendezvousInvite lib status invite) :=
    ⟨network, _, _, by simp only [withStatus, hseed]; rfl⟩
  simp only [dialFoundPeer]
  split
  · have hdial := dialRankedTarget_bookOnly
      (d.withStatus fun status => seedRendezvousInvite lib status invite)
      (resolveRankedDialTarget lib (seedRendezvousInvite lib d.status invite).network invite.peerId)
      dialed
    exact ⟨hbook.trans hdial.1, hdial.2⟩
  · exact ⟨hbook, by simp [Searches]⟩

theorem onFoundRecord_bookOnly (d : Daemon κ) (query : Nat) (invite : CompactInviteV1)
    (dialed : Bool) :
    d.BookOnly (d.onFoundRecord lib query invite dialed).1 ∧
      Searches (d.onFoundRecord lib query invite dialed).2 := by
  have hnone : d.BookOnly d ∧ Searches ([] : List (Effect κ)) := ⟨⟨_, _, _, rfl⟩, by simp [Searches]⟩
  have hfound : ∀ lookup,
      d.BookOnly (dialFoundPeer lib (d.setLookup query lookup) invite dialed).1 ∧
        Searches (dialFoundPeer lib (d.setLookup query lookup) invite dialed).2 := by
    intro lookup
    have h := dialFoundPeer_bookOnly lib (d.setLookup query lookup) invite dialed
    exact ⟨BookOnly.trans ⟨_, _, _, rfl⟩ h.1, h.2⟩
  unfold onFoundRecord
  split
  · exact hnone
  · split
    · exact hfound _
    · exact hnone
  · split
    · exact hfound _
    · exact hnone

theorem onOutgoingConnectionError_bookOnly (d : Daemon κ) (peerId : Option String)
    (dialed : Bool) :
    d.BookOnly (d.onOutgoingConnectionError lib peerId dialed).1 ∧
      Searches (d.onOutgoingConnectionError lib peerId dialed).2 := by
  simp only [onOutgoingConnectionError]
  split
  · split
    · exact ⟨⟨_, _, _, rfl⟩, by simp [Searches]⟩
    · split
      · exact ⟨⟨_, _, _, rfl⟩, by simp [Searches]⟩
      · exact ⟨⟨_, _, _, rfl⟩, by simp [Searches]⟩
  · exact ⟨⟨_, _, _, rfl⟩, by simp [Searches]⟩

end Daemon

def remotePeer : String := "QmNnooDu7bfjPFoTZYxMNLWUQJyrVwtbZg5gBMjTezGAJN"
def relayPeer : String := "QmQCU2EcMqAqQPR2i9bChDtGNJchTbq5TbXJJ16u19uLTa"
def localPeer : String := "QmaCpDMGvV2BGHeYERUEnRQAwe3N8SzbUtfsmvsqQLuvuJ"

/-- The library on the texts of fixed runs: three peer ids, and the empty
address of a connection that came in. -/
def sampleLibp2p : Libp2p where
  isPeerId text := text = remotePeer || text = relayPeer || text = localPeer
  parseMultiaddr text := if text = "" then some [] else none
  allowLoopback := false

def remote : PeerId sampleLibp2p := ⟨remotePeer, by decide⟩
def relay : PeerId sampleLibp2p := ⟨relayPeer, by decide⟩

def emptyBook : PersistedState where
  localDisplayName := none
  knownPeerAddrs := []
  knownPeers := []
  ignoredPeerIds := []
  pathScores := []

def friendBook : PersistedState :=
  { emptyBook with
    knownPeers := [
      { peerId := remotePeer, displayName := "friend", addresses := [], lastDialAddr := none,
        connected := false, pinned := true, seen := true, whitelisted := true,
        trustedContact := false }] }

def sampleStatus (book : PersistedState) : DaemonStatus := bootstrap book "local-user" localPeer

def incoming : Endpoint where
  dialer := false
  remoteAddress := ""
  isRelayed := false

def sampleHello : SessionHello where
  roomName := some "room"
  displayName := "remote"
  trustedContacts := []

end Voicers
