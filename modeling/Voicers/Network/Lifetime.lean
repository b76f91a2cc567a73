import Voicers.Network.Contacts
import Voicers.Persist.Saves
import Voicers.Media.Receive

/-! A daemon over its lives: the connections its swarm has, the state files
it has written and the starts that read them. -/

namespace Voicers

open Lib

variable {κ : Codec} {lib : Libp2p}

structure Host (κ : Codec) where
  daemon : Daemon κ
  established : String → Nat
  files : List PersistedState

/-- `pathOutcome` stands for the events that only score a path: relay
reservations, hole punches, the states of a WebRTC channel. A start reads some
file written before, or none. -/
inductive HostEvent (κ : Codec) (lib : Libp2p)
  | event (event : Event κ lib)
  | pathOutcome (path : String) (peerId : Option String) (success : Bool)
  | save (localDisplayName : Option String)
  | restart (file : Option Nat) (displayName localPeerId : String)

def persistedState (status : DaemonStatus) (localDisplayName : Option String) : PersistedState where
  localDisplayName := localDisplayName
  knownPeerAddrs := status.network.savedPeerAddrs
  knownPeers := status.network.knownPeers
  ignoredPeerIds := status.network.ignoredPeerIds
  pathScores := status.network.pathScores

def emptyState : PersistedState := StateFile.default.toPersistedState

/-- The connections the swarm has to each peer. It tells a closed connection
with the number of those that are left. -/
def establishedAfter (established : String → Nat) : Event κ lib → Option (String → Nat)
  | .connectionEstablished peer _ =>
    some (Function.update established peer.text (established peer.text + 1))
  | .connectionClosed peer numEstablished =>
    if established peer.text = numEstablished + 1 then
      some (Function.update established peer.text numEstablished)
    else none
  | _ => some established

namespace Host

def status (h : Host κ) : DaemonStatus := h.daemon.status

def start (displayName localPeerId : String) : Host κ where
  daemon := .start (bootstrap emptyState displayName localPeerId)
  established := fun _ => 0
  files := []

def fileAt (h : Host κ) : Option Nat → Option PersistedState
  | none => some emptyState
  | some index => h.files[index]?

def step (π : Profile) (h : Host κ) : HostEvent κ lib → Option (List (Effect κ) × Host κ)
  | .event e =>
    (establishedAfter h.established e).map fun established =>
      ((h.daemon.handle π lib e).2,
        { h with daemon := (h.daemon.handle π lib e).1, established := established })
  | .pathOutcome path peerId success =>
    some ([], { h with
      daemon := h.daemon.withStatus fun status => recordPathScore status path peerId success })
  | .save localDisplayName =>
    some ([], { h with files := h.files ++ [persistedState h.status localDisplayName] })
  | .restart index displayName localPeerId =>
    (h.fileAt index).map fun file =>
      ([], { h with
        daemon := .start (bootstrap file displayName localPeerId)
        established := fun _ => 0 })

end Host

abbrev HostTransition (κ : Codec) (lib : Libp2p) :=
  Transition (Host κ) (HostEvent κ lib) (List (Effect κ))

/-- A run from a first start, without a state file. -/
abbrev HostRun (π : Profile) (displayName localPeerId : String) (tr : List (HostTransition κ lib))
    (h : Host κ) : Prop :=
  Trace (Host.step π) (Host.start displayName localPeerId) tr h

def hostRun (π : Profile) (displayName localPeerId : String) (events : List (HostEvent κ lib)) :
    Option (List (HostTransition κ lib) × Host κ) :=
  execute (Host.step π) (Host.start displayName localPeerId) events

theorem hostRun_trace {π : Profile} {displayName localPeerId : String}
    {events : List (HostEvent κ lib)} {tr : List (HostTransition κ lib)} {h : Host κ}
    (hrun : hostRun π displayName localPeerId events = some (tr, h)) :
    HostRun π displayName localPeerId tr h :=
  execute_trace hrun

/-- What a step can do. -/
inductive HostMove (lib : Libp2p) (h : Host κ) : HostEvent κ lib → Host κ → Prop
  | event (e : Event κ lib) (t : Host κ) (hfiles : t.files = h.files)
      (hestablished : establishedAfter h.established e = some t.established)
      (hstatus : (h.daemon.statusAfter e).SameContacts t.status)
      (hledger : t.daemon.ledger = h.daemon.ledgerAfter e) : HostMove lib h (.event e) t
  | pathOutcome (path : String) (peerId : Option String) (success : Bool) :
      HostMove lib h (.pathOutcome path peerId success)
        { h with
          daemon := h.daemon.withStatus fun status => recordPathScore status path peerId success }
  | save (localDisplayName : Option String) :
      HostMove lib h (.save localDisplayName)
        { h with files := h.files ++ [persistedState h.status localDisplayName] }
  | restart (index : Option Nat) (displayName localPeerId : String) (file : PersistedState)
      (hfile : h.fileAt index = some file) :
      HostMove lib h (.restart index displayName localPeerId)
        { h with
          daemon := .start (bootstrap file displayName localPeerId)
          established := fun _ => 0 }

section

variable {π : Profile} {h t : Host κ}

theorem HostMove.of_step {e : HostEvent κ lib} {o : List (Effect κ)}
    (hstep : h.step π e = some (o, t)) : HostMove lib h e t := by
  cases e with
  | event e =>
    obtain ⟨established, hestablished, heq⟩ := Option.map_eq_some_iff.mp hstep
    obtain ⟨_, rfl⟩ := Prod.mk.inj heq
    exact .event e _ rfl hestablished (Daemon.handle_contacts π h.daemon e)
      (Daemon.handle_ledger π h.daemon e)
  | pathOutcome path peerId success =>
    obtain ⟨_, rfl⟩ := Prod.mk.inj (Option.some.inj hstep)
    exact .pathOutcome path peerId success
  | save localDisplayName =>
    obtain ⟨_, rfl⟩ := Prod.mk.inj (Option.some.inj hstep)
    exact .save localDisplayName
  | restart index displayName localPeerId =>
    obtain ⟨file, hfile, heq⟩ := Option.map_eq_some_iff.mp hstep
    obtain ⟨_, rfl⟩ := Prod.mk.inj heq
    exact .restart index displayName localPeerId file hfile

/-- Only events of the network change the peers and the connections, but for a
start, which has none. -/
theorem HostMove.idle {e : HostEvent κ lib} (hmove : HostMove lib h e t)
    (hno : ∀ event, e ≠ .event event) :
    (t.status.peers = h.status.peers ∧ t.established = h.established) ∨ t.status.peers = [] := by
  cases hmove with
  | event event => exact absurd rfl (hno event)
  | pathOutcome path peerId success => exact .inl ⟨rfl, rfl⟩
  | save localDisplayName => exact .inl ⟨rfl, rfl⟩
  | restart index displayName localPeerId file hfile => exact .inr rfl

theorem Host.mem_of_fileAt {index : Option Nat} {file : PersistedState}
    (hfile : h.fileAt index = some file) : file ∈ emptyState :: h.files := by
  cases index with
  | none =>
    obtain rfl := Option.some.inj hfile
    exact List.mem_cons_self
  | some index => exact List.mem_cons_of_mem _ (List.mem_of_getElem? hfile)

end

/-- An invite to call a peer that nothing was known about. -/
def callInvite : CompactInviteV1 where
  v := 1
  kind := .directCall
  peerId := remotePeer
  addrs := ["/ip4/203.0.113.4/tcp/4001"]
  inviteCode := none
  roomName := none
  expiresAtMs := none

end Voicers
