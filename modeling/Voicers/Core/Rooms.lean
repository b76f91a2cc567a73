import Voicers.Core.Status

/-! Rooms as the status and the state file record them (`voicers-core`). -/

namespace Voicers

structure RoomInviteSummary where
  inviteCode : String
  shareInvite : Option String
  expiresAtMs : Option Nat
  createdByPeerId : Option String
deriving DecidableEq

inductive RoomPermission
  | createRoomInvite
  | createRole
  | editRole
  | assignRole
deriving DecidableEq

structure RoomRoleSummary where
  name : String
  permissions : List RoomPermission
deriving DecidableEq

structure RoomMemberSummary where
  peerId : String
  displayName : String
  roles : List String
deriving DecidableEq

structure RoomSummary where
  name : String
  engaged : Bool
  roles : List RoomRoleSummary
  members : List RoomMemberSummary
  currentInvite : Option RoomInviteSummary
deriving DecidableEq

end Voicers
