import Voicers.App.JoinInvite

/-! What the expiry of an invite changes for the daemon that joins with it:
after it the code of a room is no longer dialed. -/

namespace Voicers

open Lib

/-- The expiry has come. -/
def CompactInviteV1.expired (invite : CompactInviteV1) (nowMs : Nat) : Bool :=
  invite.expiresAtMs.any (· ≤ nowMs)

/-- The expiry is a `u64`. -/
def CompactInviteV1.Timed (invite : CompactInviteV1) : Prop :=
  ∀ expiresAtMs ∈ invite.expiresAtMs, expiresAtMs ≤ u64Max

namespace Guest

variable {κ : Codec}

/-- The daemon after `JoinPeer`, up to the dial, and what it dials then. -/
def joinAndDial (json : InviteJson) (g : Guest κ) (address : String) (nowMs : Nat) :
    Guest κ × String :=
  (g.joinPeer json address nowMs, (handleJoinPeer json address nowMs).dialTarget)

/-- The rooms are as before and nothing of the invite is dialed. -/
structure Inert (json : InviteJson) (g : Guest κ) (address : String) (invite : CompactInviteV1)
    (nowMs : Nat) : Prop where
  rooms : (g.joinAndDial json address nowMs).1.rooms = g.rooms
  session : (g.joinAndDial json address nowMs).1.daemon.status.session.roomName =
    g.daemon.status.session.roomName
  peerId : (g.joinAndDial json address nowMs).2 ≠ invite.peerId
  inviteCode : some (g.joinAndDial json address nowMs).2 ≠ invite.inviteCode
  roomName : some (g.joinAndDial json address nowMs).2 ≠ invite.roomName

/-- A room invite that has expired is a room invite without a code. -/
structure ExpiryEndsCode (json : InviteJson) (g : Guest κ) (address : String)
    (invite : CompactInviteV1) (nowMs : Nat) : Prop where
  codeless : invite.kind = .room → invite.expired nowMs = true → ∀ other,
    parseJoinTarget json other = .invite { invite with inviteCode := none } →
    g.joinAndDial json address nowMs = g.joinAndDial json other nowMs
  dials : invite.kind = .room → invite.expired nowMs = true →
    (g.joinAndDial json address nowMs).2 =
      (if invite.addrs = [] then invite.roomName else none).getD invite.peerId
  hints : (g.joinAndDial json address nowMs).1.daemon.status.network =
    (seedInviteHints g.daemon.status invite).network
  stays : invite.kind = .room → invite.roomName = none →
    (g.joinAndDial json address nowMs).1.rooms = g.rooms ∧
      (g.joinAndDial json address nowMs).1.daemon.status.session.roomName =
        g.daemon.status.session.roomName
  enters : invite.kind = .room → ∀ roomName, invite.roomName = some roomName →
    (g.joinAndDial json address nowMs).1.rooms = g.rooms.adoptRoomInvite roomName ∧
      EngagedAs (normalizeRoomName roomName) (g.joinAndDial json address nowMs).1.rooms.rooms ∧
      (g.joinAndDial json address nowMs).1.daemon.status.session.roomName =
        some (normalizeRoomName roomName)
  unexpired : invite.expired nowMs = false → invite.Timed → ∀ other expiresAtMs,
    parseJoinTarget json other = .invite { invite with expiresAtMs := expiresAtMs } →
    CompactInviteV1.expired { invite with expiresAtMs := expiresAtMs } nowMs = false →
    CompactInviteV1.Timed { invite with expiresAtMs := expiresAtMs } →
    g.joinAndDial json address nowMs = g.joinAndDial json other nowMs

end Guest

section

variable {json : InviteJson} {invite : CompactInviteV1} {address : String} {nowMs : Nat}

theorem handleJoinPeer_invite (h : parseJoinTarget json address = .invite invite) :
    handleJoinPeer json address nowMs =
      { hints := some invite
        adoptedRoom := if invite.kind = .room then invite.roomName else none
        dialTarget := (codeTarget invite nowMs).getD invite.peerId } := by
  rw [handleJoinPeer, h]

theorem codeTarget_expired (hroom : invite.kind = .room) (h : invite.expired nowMs = true) :
    codeTarget invite nowMs = if invite.addrs = [] then invite.roomName else none := by
  obtain ⟨expiresAtMs, hexpires, hle⟩ := Option.any_eq_true _ _ |>.mp h
  have hpast : ¬ nowMs < expiresAtMs := Nat.not_lt.mpr (of_decide_eq_true hle)
  simp only [codeTarget, hroom, hexpires, Option.getD_some, hpast, decide_false]
  simp

theorem codeTarget_codeless (hroom : invite.kind = .room) :
    codeTarget { invite with inviteCode := none } nowMs =
      if invite.addrs = [] then invite.roomName else none := by
  simp [codeTarget, hroom]

/-- While neither expiry has come it does not matter which of them is set. -/
theorem codeTarget_unexpired {expiresAtMs : Option Nat} (hexpired : invite.expired nowMs = false)
    (htimed : invite.Timed)
    (hexpired' : CompactInviteV1.expired { invite with expiresAtMs := expiresAtMs } nowMs = false)
    (htimed' : CompactInviteV1.Timed { invite with expiresAtMs := expiresAtMs }) :
    codeTarget { invite with expiresAtMs := expiresAtMs } nowMs = codeTarget invite nowMs := by
  have hfuture : ∀ {e : Option Nat} {t : Nat}, (e.any (· ≤ nowMs)) = false → t ∈ e → nowMs < t := by
    intro e t hany ht
    obtain rfl := Option.mem_def.mp ht
    simpa using hany
  have hsame : decide (nowMs < expiresAtMs.getD (2 ^ 64 - 1)) =
      decide (nowMs < invite.expiresAtMs.getD (2 ^ 64 - 1)) := by
    rw [decide_eq_decide]
    cases hmine : invite.expiresAtMs with
    | none =>
      cases expiresAtMs with
      | none => rfl
      | some other =>
        have hother := hfuture hexpired' rfl
        have hmax : other ≤ 2 ^ 64 - 1 := htimed' other rfl
        exact iff_of_true hother (Nat.lt_of_lt_of_le hother hmax)
    | some mine =>
      have hlater := hfuture hexpired hmine
      have hmax : mine ≤ 2 ^ 64 - 1 := htimed mine hmine
      cases expiresAtMs with
      | none => exact iff_of_true (Nat.lt_of_lt_of_le hlater hmax) hlater
      | some other => exact iff_of_true (hfuture hexpired' rfl) hlater
  unfold codeTarget
  simp only [hsame]

namespace Guest

variable {κ : Codec} {g : Guest κ}

/-- Beside what is dialed, the code and the expiry of an invite are not read. -/
theorem joinAndDial_congr {other : String} {otherInvite : CompactInviteV1}
    (h : parseJoinTarget json address = .invite invite)
    (hother : parseJoinTarget json other = .invite otherInvite)
    (hkind : otherInvite.kind = invite.kind) (hpeer : otherInvite.peerId = invite.peerId)
    (haddrs : otherInvite.addrs = invite.addrs) (hroom : otherInvite.roomName = invite.roomName)
    (hcode : codeTarget otherInvite nowMs = codeTarget invite nowMs) :
    g.joinAndDial json address nowMs = g.joinAndDial json other nowMs := by
  have hhints : ∀ state, seedInviteHints state otherInvite = seedInviteHints state invite := by
    intro state
    simp only [seedInviteHints, hpeer, haddrs]
  simp only [joinAndDial, joinPeer, handleJoinPeer_invite h, handleJoinPeer_invite hother, hcode,
    hkind, hpeer, hroom, hhints, InviteState.join]

theorem joinAndDial_network (h : parseJoinTarget json address = .invite invite) :
    (g.joinAndDial json address nowMs).1.daemon.status.network =
      (seedInviteHints g.daemon.status invite).network := by
  simp only [joinAndDial, joinPeer, handleJoinPeer_invite h]
  split_ifs <;> rfl

theorem joinAndDial_stays (h : parseJoinTarget json address = .invite invite)
    (hnone : invite.roomName = none) :
    (g.joinAndDial json address nowMs).1.rooms = g.rooms ∧
      (g.joinAndDial json address nowMs).1.daemon.status.session.roomName =
        g.daemon.status.session.roomName := by
  simp only [joinAndDial, joinPeer, handleJoinPeer_invite h, hnone, ite_self]
  exact ⟨rfl, rfl⟩

theorem joinAndDial_enters {roomName : String} (h : parseJoinTarget json address = .invite invite)
    (hroom : invite.kind = .room) (hsome : invite.roomName = some roomName) :
    (g.joinAndDial json address nowMs).1.rooms = g.rooms.adoptRoomInvite roomName ∧
      EngagedAs (normalizeRoomName roomName) (g.joinAndDial json address nowMs).1.rooms.rooms ∧
      (g.joinAndDial json address nowMs).1.daemon.status.session.roomName =
        some (normalizeRoomName roomName) := by
  have hrooms : (g.joinAndDial json address nowMs).1.rooms = g.rooms.adoptRoomInvite roomName := by
    simp only [joinAndDial, joinPeer, handleJoinPeer_invite h, hroom, hsome, if_true, Option.isSome_some]
    rfl
  refine ⟨hrooms, ?_, ?_⟩
  · rw [hrooms]
    exact createOrUpdateRoom_engagedAs
  · simp only [joinAndDial, joinPeer, handleJoinPeer_invite h, hroom, hsome, if_true, Option.isSome_some]
    rfl

/-- The expiry of an invite is that of its code. -/
theorem expiry_ends_code (json : InviteJson) (g : Guest κ) {address : String}
    {invite : CompactInviteV1} (h : parseJoinTarget json address = .invite invite) (nowMs : Nat) :
    ExpiryEndsCode json g address invite nowMs where
  codeless hroom hexpired _ hother :=
    joinAndDial_congr h hother rfl rfl rfl rfl
      ((codeTarget_codeless hroom).trans (codeTarget_expired hroom hexpired).symm)
  dials hroom hexpired := by
    rw [joinAndDial, handleJoinPeer_invite h, codeTarget_expired hroom hexpired]
  hints := joinAndDial_network h
  stays _ hnone := joinAndDial_stays h hnone
  enters hroom _ hsome := joinAndDial_enters h hroom hsome
  unexpired hexpired htimed _ _ hother hexpired' htimed' :=
    joinAndDial_congr h hother rfl rfl rfl rfl
      (codeTarget_unexpired hexpired htimed hexpired' htimed')

end Guest

/-- An invite to a room whose code has expired, with no address in it. -/
def bareInvite : CompactInviteV1 where
  v := 1
  kind := .room
  peerId := formerPeer
  addrs := []
  inviteCode := some "c0ffee00"
  roomName := some "lab"
  expiresAtMs := some 5

theorem bareInvite_parsed (json : InviteJson) :
    parseJoinTarget json (encodeInvite json bareInvite) = .invite bareInvite := by
  rw [parseJoinTarget_encodeInvite]
  decide +kernel

theorem expiry_ends_code_bareInvite :
    (misledGuest.joinAndDial serdeJson (encodeInvite serdeJson bareInvite) 5).2 = "lab" ∧
      (misledGuest.joinAndDial serdeJson (encodeInvite serdeJson bareInvite) 4).2 = "c0ffee00" ∧
      (misledGuest.joinAndDial serdeJson (encodeInvite serdeJson bareInvite) 5).1.rooms =
        misledGuest.rooms.adoptRoomInvite "lab" := by
  have hends := Guest.expiry_ends_code serdeJson misledGuest (bareInvite_parsed serdeJson) 5
  refine ⟨hends.dials rfl rfl, ?_, (hends.enters rfl "lab" rfl).1⟩
  rw [Guest.joinAndDial, handleJoinPeer_invite (bareInvite_parsed serdeJson)]
  decide

/-- A room whose invite has expired is entered and dialed by its name. -/
theorem expired_not_inert : ¬ ∀ (json : InviteJson) (g : Guest silentCodec) (address : String)
    (invite : CompactInviteV1) (nowMs : Nat), parseJoinTarget json address = .invite invite →
      invite.kind = .room → invite.expired nowMs = true → g.Inert json address invite nowMs := by
  intro h
  have hinert := h serdeJson misledGuest _ bareInvite 5 (bareInvite_parsed serdeJson) rfl rfl
  have hsession := hinert.session
  rw [(Guest.joinAndDial_enters (bareInvite_parsed serdeJson) rfl rfl).2.2] at hsession
  have hnone : misledGuest.daemon.status.session.roomName = none := rfl
  rw [hnone] at hsession
  cases hsession

end

end Voicers
