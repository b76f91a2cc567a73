import Voicers.App.Requests
import Voicers.Network.PeerBook

/-! The control requests about peers, names and invites (`app.rs`) with their
answers. A request is what its handler does to the status; the broadcast, the
save and the rest of an approval that follow are steps of their own. -/

namespace Voicers

open Lib

inductive ControlRequest
  | toggleMutePeer (peerId : String)
  | setDisplayName (displayName : String)
  | setPeerVolumePercent (peerId : String) (percent : UInt8)
  | saveKnownPeer (peerId : String)
  | renameKnownPeer (peerId displayName : String)
  | forgetKnownPeer (peerId : String)
  | approvePendingPeer (peerId : String) (whitelist : Bool)
  | rejectPendingPeer (peerId : String)
  | rotateInviteCode
  | markTrustedContact (peerId : String)
  | unmarkTrustedContact (peerId : String)
deriving DecidableEq

/-- The status in its two parts, that of the peers and that of the rooms and
invites, and whether the network task still takes commands. -/
structure App (κ : Codec) where
  daemon : Daemon κ
  invite : InviteState
  networkUp : Bool

def answer {α : Type} (outcome : Except String α) (message : α → String) : ControlResponse :=
  match outcome with
  | .ok a => .ack (message a)
  | .error error => .error error

namespace App

variable {κ : Codec}

def act (π : Profile) (lib : Libp2p) (app : App κ) (e : Event κ lib) : App κ :=
  { app with daemon := (app.daemon.handle π lib e).1 }

section

variable (π : Profile) (lib : Libp2p) (app : App κ) (peerId : String)

/-- A request about a listed peer. -/
def servePeer (message : PeerSummary → String) (request : Event κ lib) : ControlResponse × App κ :=
  match app.daemon.status.peer? peerId with
  | some peer => (.ack (message peer), app.act π lib request)
  | none => (.error "peer not found", app)

def handleToggleMutePeer : ControlResponse × App κ :=
  app.servePeer π lib peerId
    (fun peer => peer.displayName ++ " " ++ if peer.muted then "unmuted" else "muted")
    (.toggleMutePeer peerId)

def handleSetPeerVolumePercent (percent : UInt8) : ControlResponse × App κ :=
  app.servePeer π lib peerId
    (fun peer => peer.displayName ++ " volume set to " ++ toString (min percent.toNat 200) ++ "%")
    (.setPeerVolumePercent peerId percent.toNat)

/-- The name is part of the session and of the daemon's own room memberships. -/
def handleSetDisplayName (displayName : String) : ControlResponse × App κ :=
  let served := app.invite.handleSetDisplayName displayName
  if trim displayName = "" then (served.1, app)
  else
    let session := { app.daemon.status.session with displayName := trim displayName }
    (served.1, { app.act π lib (.setSession session) with invite := served.2 })

def handleSaveKnownPeer : ControlResponse × App κ :=
  (answer (saveKnownPeer app.daemon.status peerId).1 fun name => name ++ " added to friends",
    app.act π lib (.saveKnownPeer peerId))

def handleRenameKnownPeer (displayName : String) : ControlResponse × App κ :=
  if trim displayName = "" then (.error "display name cannot be empty", app)
  else
    (answer (renameKnownPeer app.daemon.status peerId (trim displayName)).1 fun _ =>
        "friend renamed to " ++ trim displayName,
      app.act π lib (.renameKnownPeer peerId (trim displayName)))

def handleForgetKnownPeer : ControlResponse × App κ :=
  (answer (forgetKnownPeer app.daemon.status peerId).1 fun _ => "friend removed",
    app.act π lib (.forgetKnownPeer peerId))

def handleSetTrustedContact (trustedContact : Bool) : ControlResponse × App κ :=
  (answer (setTrustedContact app.daemon.status peerId trustedContact).1 fun _ =>
      peerId ++ " " ++ if trustedContact then "marked as trusted contact"
        else "unmarked as trusted contact",
    app.act π lib (.setTrustedContact peerId trustedContact))

/-- A command for the network task about a peer that waits for approval. -/
def decidePendingPeer (command : Event κ lib) (unsent decided : String) : ControlResponse × App κ :=
  if app.networkUp then
    (match app.daemon.pendingInboundApprovals peerId with
      | some _ => .ack decided
      | none => .error "pending peer not found",
      app.act π lib command)
  else (.error unsent, app)

def handleApprovePendingPeer (whitelist : Bool) : ControlResponse × App κ :=
  app.decidePendingPeer π lib peerId (.approvePendingPeer peerId whitelist)
    "failed to send approve-peer command to network task"
    ("approved " ++ peerId ++ if whitelist then "; peer whitelisted" else "")

def handleRejectPendingPeer : ControlResponse × App κ :=
  app.decidePendingPeer π lib peerId (.rejectPendingPeer peerId)
    "failed to send reject-peer command to network task" ("rejected " ++ peerId)

/-- The new code and its expiry are given. -/
def handleRotateInviteCode (json : InviteJson) (inviteCode : String) (expiresAtMs : Nat) :
    ControlResponse × App κ :=
  let served := app.invite.handleRotateInviteCode lib json inviteCode expiresAtMs
  (served.1, { app with invite := served.2 })

end

def handleRequest (π : Profile) (lib : Libp2p) (json : InviteJson) (inviteCode : String)
    (expiresAtMs : Nat) (app : App κ) : ControlRequest → ControlResponse × App κ
  | .toggleMutePeer peerId => app.handleToggleMutePeer π lib peerId
  | .setDisplayName displayName => app.handleSetDisplayName π lib displayName
  | .setPeerVolumePercent peerId percent => app.handleSetPeerVolumePercent π lib peerId percent
  | .saveKnownPeer peerId => app.handleSaveKnownPeer π lib peerId
  | .renameKnownPeer peerId displayName => app.handleRenameKnownPeer π lib peerId displayName
  | .forgetKnownPeer peerId => app.handleForgetKnownPeer π lib peerId
  | .approvePendingPeer peerId whitelist => app.handleApprovePendingPeer π lib peerId whitelist
  | .rejectPendingPeer peerId => app.handleRejectPendingPeer π lib peerId
  | .rotateInviteCode => app.handleRotateInviteCode lib json inviteCode expiresAtMs
  | .markTrustedContact peerId => app.handleSetTrustedContact π lib peerId true
  | .unmarkTrustedContact peerId => app.handleSetTrustedContact π lib peerId false

end App

section

variable {α : Type} {outcome : Except String α} {message : α → String} {error : String}

theorem answer_error (h : answer outcome message = .error error) : outcome = .error error := by
  cases outcome with
  | ok a => cases h
  | error e =>
    obtain rfl := ControlResponse.error.inj h
    rfl

variable {state : DaemonStatus} {peerId : String}

/-- A save that fails has first taken the peer off the ignored ones, where it
was not: who is ignored is known. -/
theorem saveKnownPeer_error (hunique : BookUnique state)
    (h : (saveKnownPeer state peerId).1 = .error error) : (saveKnownPeer state peerId).2 = state := by
  cases hknown : state.knownPeer? peerId with
  | some entry =>
    have hsame : (unignore state peerId).knownPeer? peerId = some entry := hknown
    unfold saveKnownPeer at h
    simp only [unignore] at hsame
    simp only [hsame] at h
    cases h
  | none =>
    cases hlive : state.peer? peerId with
    | some live =>
      have hsame : (unignore state peerId).knownPeer? peerId = none := hknown
      unfold saveKnownPeer at h
      simp only [unignore] at hsame
      simp only [hsame, hlive] at h
      cases h
    | none =>
      have hunknown := (knownPeer?_eq_none_iff state peerId).mp hknown
      have hkept : state.network.ignoredPeerIds.filter (· ≠ peerId) =
          state.network.ignoredPeerIds := by
        refine List.filter_eq_self.mpr fun id hid => ?_
        refine decide_eq_true ?_
        rintro rfl
        exact hunknown (hunique.ignoredKnown id hid)
      rw [saveKnownPeer_none state peerId hknown hlive, unignore, hkept]

theorem renameKnownPeer_error {displayName : String}
    (h : (renameKnownPeer state peerId displayName).1 = .error error) :
    (renameKnownPeer state peerId displayName).2 = state := by
  unfold renameKnownPeer at h ⊢
  dsimp only at h ⊢
  split_ifs at h ⊢
  rfl

theorem forgetKnownPeer_error (h : (forgetKnownPeer state peerId).1 = .error error) :
    (forgetKnownPeer state peerId).2 = state := by
  unfold forgetKnownPeer at h ⊢
  split_ifs at h ⊢
  rfl

theorem setTrustedContact_error {trusted : Bool}
    (h : (setTrustedContact state peerId trusted).1 = .error error) :
    (setTrustedContact state peerId trusted).2 = state := by
  unfold setTrustedContact at h ⊢
  split_ifs at h ⊢
  rfl

end

section

variable {κ : Codec} {lib : Libp2p} {π : Profile} {app : App κ} {peerId message : String}

theorem App.act_of_status {e : Event κ lib} {status : DaemonStatus}
    (hevent : (app.daemon.handle π lib e).1 = { app.daemon with status := status })
    (hstatus : status = app.daemon.status) : app.act π lib e = app := by
  unfold App.act
  rw [hevent, hstatus]

theorem servePeer_error {text : PeerSummary → String} {request : Event κ lib}
    (h : (app.servePeer π lib peerId text request).1 = .error message) :
    (app.servePeer π lib peerId text request).2 = app := by
  unfold App.servePeer at h ⊢
  cases hpeer : app.daemon.status.peer? peerId with
  | some peer =>
    simp only [hpeer] at h
    cases h
  | none => rfl

/-- Without a waiting hello the network task does nothing. -/
theorem decidePendingPeer_error {command : Event κ lib} {unsent decided : String}
    (hidle : app.daemon.pendingInboundApprovals peerId = none →
      (app.daemon.handle π lib command).1 = app.daemon)
    (h : (app.decidePendingPeer π lib peerId command unsent decided).1 = .error message) :
    (app.decidePendingPeer π lib peerId command unsent decided).2 = app := by
  unfold App.decidePendingPeer at h ⊢
  by_cases hup : app.networkUp = true
  · rw [if_pos hup] at h ⊢
    cases hheld : app.daemon.pendingInboundApprovals peerId with
    | some pending =>
      simp only [hheld] at h
      cases h
    | none =>
      unfold App.act
      rw [hidle hheld]
  · rw [if_neg hup]

theorem handleSetDisplayName_error {displayName : String}
    (h : (app.handleSetDisplayName π lib displayName).1 = .error message) :
    (app.handleSetDisplayName π lib displayName).2 = app := by
  unfold App.handleSetDisplayName InviteState.handleSetDisplayName at h ⊢
  by_cases hempty : trim displayName = ""
  · rw [if_pos hempty]
  · simp only [if_neg hempty] at h
    cases h

theorem handleRotateInviteCode_error {json : InviteJson} {inviteCode : String} {expiresAtMs : Nat}
    (h : (app.handleRotateInviteCode lib json inviteCode expiresAtMs).1 = .error message) :
    (app.handleRotateInviteCode lib json inviteCode expiresAtMs).2 = app := by
  have hkept : app.invite.rotateInviteCode lib json inviteCode expiresAtMs = app.invite := by
    unfold App.handleRotateInviteCode InviteState.handleRotateInviteCode
      InviteState.rotateResponse at h
    unfold InviteState.rotateInviteCode
    cases hroom : app.invite.customRoom with
    | none => rfl
    | some roomName =>
      simp only [hroom] at h
      by_cases hadmin : roomHasPermission app.invite.rooms roomName app.invite.localPeerId
          .createRoomInvite = true
      · rw [if_pos hadmin] at h
        cases h
      · simp only [if_neg hadmin]
  unfold App.handleRotateInviteCode InviteState.handleRotateInviteCode
  rw [hkept]

/-- A request that is answered with an error leaves the status as it is, when
its book is as a run leaves it. -/
theorem App.handleRequest_error {json : InviteJson} {inviteCode : String} {expiresAtMs : Nat}
    {request : ControlRequest} (hunique : BookUnique app.daemon.status)
    (h : (app.handleRequest π lib json inviteCode expiresAtMs request).1 = .error message) :
    (app.handleRequest π lib json inviteCode expiresAtMs request).2 = app := by
  cases request with
  | toggleMutePeer q => exact servePeer_error h
  | setPeerVolumePercent q percent => exact servePeer_error h
  | setDisplayName displayName => exact handleSetDisplayName_error h
  | saveKnownPeer q => exact App.act_of_status rfl (saveKnownPeer_error hunique (answer_error h))
  | renameKnownPeer q displayName =>
    simp only [App.handleRequest, App.handleRenameKnownPeer] at h ⊢
    by_cases hempty : trim displayName = ""
    · rw [if_pos hempty]
    · rw [if_neg hempty] at h ⊢
      exact App.act_of_status rfl (renameKnownPeer_error (answer_error h))
  | forgetKnownPeer q => exact App.act_of_status rfl (forgetKnownPeer_error (answer_error h))
  | approvePendingPeer q whitelist =>
    refine decidePendingPeer_error (fun hheld => ?_) h
    simp only [Daemon.handle, Daemon.approvePendingPeer, hheld]
  | rejectPendingPeer q =>
    refine decidePendingPeer_error (fun hheld => ?_) h
    simp only [Daemon.handle, Daemon.rejectPendingPeer, hheld]
  | rotateInviteCode => exact handleRotateInviteCode_error h
  | markTrustedContact q => exact App.act_of_status rfl (setTrustedContact_error (answer_error h))
  | unmarkTrustedContact q => exact App.act_of_status rfl (setTrustedContact_error (answer_error h))

/-- In every state of a run, a request that fails changes nothing. -/
theorem failed_request_unchanged {displayName localPeerId : String}
    {tr : List (HostTransition κ lib)} {h : Host κ} (hrun : HostRun π displayName localPeerId tr h)
    (json : InviteJson) (inviteCode : String) (expiresAtMs : Nat) (invite : InviteState)
    (networkUp : Bool) (request : ControlRequest)
    (hfailed : ((App.mk h.daemon invite networkUp).handleRequest π lib json inviteCode expiresAtMs
      request).1 = .error message) :
    ((App.mk h.daemon invite networkUp).handleRequest π lib json inviteCode expiresAtMs
      request).2 = ⟨h.daemon, invite, networkUp⟩ :=
  App.handleRequest_error hrun.unique.status hfailed

end

/-- A friend is forgotten and stays in the book, to be ignored. -/
def forgottenFriend : List (HostEvent silentCodec sampleLibp2p) :=
  [.event (.seedInviteHints callInvite), .event (.forgetKnownPeer remotePeer)]

/-- A save of a peer that nobody knows, while another is ignored. -/
theorem failed_request_unchanged_unknown :
    ∃ (tr : List (HostTransition silentCodec sampleLibp2p)) (h : Host silentCodec)
      (app : App silentCodec), HostRun .release "local-user" localPeer tr h ∧ app.daemon = h.daemon ∧
        app.daemon.status.network.ignoredPeerIds = [remotePeer] ∧
        app.daemon.status.network.knownIds = [remotePeer] ∧
        (app.handleRequest .release sampleLibp2p serdeJson "code" 0 (.saveKnownPeer relayPeer)).1 =
          .error "peer not found" ∧
        (app.handleRequest .release sampleLibp2p serdeJson "code" 0
          (.saveKnownPeer relayPeer)).2 = app := by
  have hseen : (hostRun .release "local-user" localPeer forgottenFriend).map (fun r =>
      (r.2.status.network.ignoredPeerIds, r.2.status.network.knownIds,
        ((App.mk r.2.daemon (.load .default "local-user") true).handleRequest .release sampleLibp2p
          serdeJson "code" 0 (.saveKnownPeer relayPeer)).1)) =
      some ([remotePeer], [remotePeer], .error "peer not found") := by
    decide +kernel
  obtain ⟨⟨tr, h⟩, hrun, hseen⟩ := Option.map_eq_some_iff.mp hseen
  obtain ⟨hignored, hrest⟩ := Prod.mk.inj hseen
  obtain ⟨hknown, hfailed⟩ := Prod.mk.inj hrest
  exact ⟨tr, h, ⟨h.daemon, .load .default "local-user", true⟩, hostRun_trace hrun, rfl, hignored,
    hknown, hfailed, failed_request_unchanged (hostRun_trace hrun) serdeJson "code" 0
      (.load .default "local-user") true (.saveKnownPeer relayPeer) hfailed⟩

end Voicers
