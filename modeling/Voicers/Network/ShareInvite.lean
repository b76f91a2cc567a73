import Voicers.App.JoinInvite
import Voicers.Network.JoinTarget

/-! The invites to share against the one that is published: the first of the
same addresses. -/

namespace Voicers

open Lib

/-- What an invite text reads as, and its addresses. -/
def Carries (json : InviteJson) (kind : CompactInviteKind) (addrs : List String) (text : String) :
    Prop :=
  ∃ shared, parseJoinTarget json text = .invite shared ∧ shared.kind = kind ∧ shared.addrs = addrs

/-- The invites to share are there when the published one is, the room's given
that it has a code, and carry the front of its addresses. -/
structure SharesFront (json : InviteJson) (lib : Libp2p) (s : InviteState) : Prop where
  listed : ∀ current, s.currentDirectCallInvite lib = some current → current.addrs.Nodup ∧
    current.addrs = (s.listedAddrs.filterMap fun address =>
      shareableAddress lib address s.localPeerId).eraseDups
  direct_none : s.bestDirectCallInvite lib json = none ↔ s.currentDirectCallInvite lib = none
  direct : ∀ current text, s.currentDirectCallInvite lib = some current →
    s.bestDirectCallInvite lib json = some text →
    Carries json .directCall ((current.addrs.take maxShareInviteAddrs).map trim) text
  room_none : ∀ roomName roomInvite, s.bestRoomInvite lib json roomName roomInvite = none ↔
    s.currentDirectCallInvite lib = none ∨ trim roomInvite.inviteCode = ""
  room : ∀ roomName roomInvite current text, s.currentDirectCallInvite lib = some current →
    s.bestRoomInvite lib json roomName roomInvite = some text →
    Carries json .room ((current.addrs.take maxShareInviteAddrs).map trim) text

section

variable {lib : Libp2p} {localPeerId : String}

theorem collectShareableInviteAddrs_full {dest : List String} (h : maxShareInviteAddrs ≤ dest.length)
    (addresses : List String) : collectShareableInviteAddrs lib localPeerId dest addresses = dest := by
  cases addresses with
  | nil => rfl
  | cons => rw [collectShareableInviteAddrs, if_pos h]

theorem collectShareableInviteAddrs_append (dest a b : List String) :
    collectShareableInviteAddrs lib localPeerId dest (a ++ b) =
      collectShareableInviteAddrs lib localPeerId
        (collectShareableInviteAddrs lib localPeerId dest a) b := by
  induction a generalizing dest with
  | nil => rfl
  | cons address a ih =>
    by_cases hfull : maxShareInviteAddrs ≤ dest.length
    · simp only [collectShareableInviteAddrs_full hfull]
    · rw [List.cons_append, collectShareableInviteAddrs, collectShareableInviteAddrs,
        if_neg hfull, if_neg hfull]
      cases shareableAddress lib address localPeerId with
      | none => exact ih dest
      | some shareable => exact ih (pushUnique dest shareable)

/-- Stopping at the cap is cutting at the cap. -/
theorem collectShareableInviteAddrs_eq {dest : List String} (h : dest.length ≤ maxShareInviteAddrs)
    (addresses : List String) : collectShareableInviteAddrs lib localPeerId dest addresses =
      ((addresses.filterMap fun address => shareableAddress lib address localPeerId).foldl
        pushUnique dest).take maxShareInviteAddrs := by
  induction addresses generalizing dest with
  | nil => exact (List.take_of_length_le h).symm
  | cons address addresses ih =>
    by_cases hfull : maxShareInviteAddrs ≤ dest.length
    · have hlen : dest.length = maxShareInviteAddrs := Nat.le_antisymm h hfull
      rw [collectShareableInviteAddrs_full hfull, ← hlen]
      exact List.prefix_iff_eq_take.mp (prefix_foldl_pushUnique _ _)
    · rw [collectShareableInviteAddrs, if_neg hfull]
      cases hshare : shareableAddress lib address localPeerId with
      | none =>
        simp only [List.filterMap_cons, hshare]
        exact ih h
      | some shareable =>
        simp only [List.filterMap_cons, hshare, List.foldl_cons]
        refine ih ?_
        unfold pushUnique
        split_ifs
        · exact h
        · rw [List.length_append, List.length_singleton]
          omega

end

namespace InviteState

variable {json : InviteJson} {lib : Libp2p} {s : InviteState}

/-- All the addresses to share, each once. -/
def shareableAddrs (lib : Libp2p) (s : InviteState) : List String :=
  (s.listedAddrs.filterMap fun address => shareableAddress lib address s.localPeerId).foldl
    pushUnique []

theorem inviteAddrs_eq (lib : Libp2p) (s : InviteState) :
    s.inviteAddrs lib = (s.shareableAddrs lib).take maxShareInviteAddrs := by
  have happend : s.inviteAddrs lib =
      collectShareableInviteAddrs lib s.localPeerId [] s.listedAddrs := by
    simp only [inviteAddrs, listedAddrs, collectShareableInviteAddrs_append]
  rw [happend, collectShareableInviteAddrs_eq (Nat.zero_le _), shareableAddrs]

theorem shareableAddrs_of_unset (h : s.localPeerId = "<starting>" ∨ s.localPeerId = "") :
    s.shareableAddrs lib = [] := by
  have hnone : (s.listedAddrs.filterMap fun address =>
      shareableAddress lib address s.localPeerId) = [] := by
    rw [List.filterMap_eq_nil_iff]
    intro address _
    exact if_pos h
  rw [shareableAddrs, hnone]
  rfl

theorem inviteAddrs_eq_nil_iff : s.inviteAddrs lib = [] ↔ s.shareableAddrs lib = [] := by
  rw [inviteAddrs_eq, List.take_eq_nil_iff]
  simp [maxShareInviteAddrs]

theorem currentDirectCallInvite_eq_none :
    s.currentDirectCallInvite lib = none ↔ s.shareableAddrs lib = [] := by
  unfold currentDirectCallInvite
  split_ifs with hunset
  · simp only [shareableAddrs_of_unset hunset]
  · rw [← shareableAddrs]
    dsimp only
    split_ifs with hnil
    · simp only [hnil]
    · simp only [hnil]

theorem addrs_of_currentDirectCallInvite {current : CompactInviteV1}
    (h : s.currentDirectCallInvite lib = some current) : current.addrs = s.shareableAddrs lib := by
  obtain ⟨_, h⟩ := Option.ite_none_left_eq_some.mp h
  obtain ⟨_, h⟩ := Option.ite_none_left_eq_some.mp h
  rw [← Option.some.inj h, shareableAddrs]

theorem shared_addrs {current : CompactInviteV1} (h : s.currentDirectCallInvite lib = some current) :
    trimAddrs (s.inviteAddrs lib) = (current.addrs.take maxShareInviteAddrs).map trim := by
  rw [trimAddrs_inviteAddrs, inviteAddrs_eq, addrs_of_currentDirectCallInvite h]

end InviteState

theorem share_invites_front (json : InviteJson) (lib : Libp2p) (s : InviteState) :
    SharesFront json lib s where
  listed current h := by
    rw [InviteState.addrs_of_currentDirectCallInvite h]
    exact ⟨nodup_foldl_pushUnique _ List.nodup_nil, foldl_pushUnique_nil _⟩
  direct_none := by
    rw [InviteState.currentDirectCallInvite_eq_none, ← InviteState.inviteAddrs_eq_nil_iff]
    simp [InviteState.bestDirectCallInvite]
  direct current text hcurrent htext := by
    obtain ⟨_, hmade⟩ := Option.ite_none_left_eq_some.mp htext
    obtain rfl := Option.some.inj hmade
    exact ⟨_, parse_encodePeerCompactInvite _ _ _ _, rfl, InviteState.shared_addrs hcurrent⟩
  room_none roomName roomInvite := by
    rw [InviteState.currentDirectCallInvite_eq_none, ← InviteState.inviteAddrs_eq_nil_iff]
    simp [InviteState.bestRoomInvite, or_iff_not_imp_left]
  room roomName roomInvite current text hcurrent htext := by
    obtain ⟨_, hmade⟩ := Option.ite_none_left_eq_some.mp htext
    obtain rfl := Option.some.inj hmade
    exact ⟨_, parse_encodeRoomCompactInvite _ _ _ _ _, rfl, InviteState.shared_addrs hcurrent⟩

end Voicers
