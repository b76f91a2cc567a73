import Voicers.Lib.Base64
import Voicers.Lib.Json
import Voicers.Network.Dialing
import Mathlib.Data.List.DropRight
import Mathlib.Logic.Equiv.List

/-! Invites as text (`voicers-core`): a prefix and the base64 form of a JSON
record. The JSON reader and writer are a parameter. -/

namespace Voicers

open Lib

structure InviteJson where
  toVec : CompactInviteV1 → List UInt8
  fromSlice : List UInt8 → Option CompactInviteV1
  fromSlice_toVec : ∀ invite, fromSlice (toVec invite) = some invite

def compactInvitePrefix : String := "voicers://join/"

def trimAddrs (addrs : List String) : List String := (addrs.map trim).filter (· ≠ "")

def trimOption (text : Option String) : Option String := (text.map trim).filter (· ≠ "")

def encodeInvite (json : InviteJson) (payload : CompactInviteV1) : String :=
  compactInvitePrefix ++ String.ofList (Base64.encode (json.toVec payload))

def encodePeerCompactInvite (json : InviteJson) (peerId : String) (addrs : List String)
    (inviteCode : Option String) (expiresAtMs : Option Nat) : String :=
  encodeInvite json
    { v := 1
      kind := .directCall
      peerId := trim peerId
      addrs := trimAddrs addrs
      inviteCode := trimOption inviteCode
      roomName := none
      expiresAtMs := expiresAtMs }

def encodeRoomCompactInvite (json : InviteJson) (peerId roomName : String) (addrs : List String)
    (inviteCode : String) (expiresAtMs : Option Nat) : String :=
  encodeInvite json
    { v := 1
      kind := .room
      peerId := trim peerId
      addrs := trimAddrs addrs
      inviteCode := some (trim inviteCode)
      roomName := some (trim roomName)
      expiresAtMs := expiresAtMs }

inductive JoinTarget
  | raw (target : String)
  | invite (invite : CompactInviteV1)
deriving DecidableEq

/-- The invite with its texts trimmed, empty ones dropped. -/
def CompactInviteV1.trimmed (invite : CompactInviteV1) : CompactInviteV1 :=
  { invite with
    peerId := trim invite.peerId
    addrs := trimAddrs invite.addrs
    inviteCode := trimOption invite.inviteCode
    roomName := trimOption invite.roomName }

/-- `str::strip_prefix`. -/
def stripPrefix (text start : String) : Option String :=
  if start.toList.isPrefixOf text.toList then
    some (String.ofList (text.toList.drop start.toList.length))
  else none

def parseJoinTarget (json : InviteJson) (value : String) : JoinTarget :=
  match stripPrefix (trim value) compactInvitePrefix with
  | none => .raw (trim value)
  | some payload =>
    match Base64.decode payload.toList with
    | none => .raw (trim payload)
    | some decoded =>
      match json.fromSlice decoded with
      | some invite => .invite invite.trimmed
      | none =>
        match String.fromUTF8? ⟨decoded.toArray⟩ with
        | some text => .raw (trim text)
        | none => .raw (trim payload)

section

theorem toList_trim (text : String) :
    (trim text).toList = (text.toList.dropWhile isWhiteSpace).rdropWhile isWhiteSpace := by
  simp [trim, List.rdropWhile]

theorem dropWhile_of_head {p : Char → Bool} {l : List Char} (h : ∀ c ∈ l.head?, p c = false) :
    l.dropWhile p = l := by
  cases l with
  | nil => rfl
  | cons c l => exact List.dropWhile_cons_of_neg (by simpa using h c)

theorem rdropWhile_of_last {p : Char → Bool} {l : List Char} (h : ∀ c ∈ l.getLast?, p c = false) :
    l.rdropWhile p = l := by
  rw [List.rdropWhile_eq_self_iff]
  intro hne
  have hlast := h (l.getLast hne) (List.getLast?_eq_some_getLast hne)
  simp [hlast]

/-- Trimming stops at text that neither begins nor ends with white space. -/
theorem suffix_rdropWhile_dropWhile {p : Char → Bool} {front back : List Char} (hne : back ≠ [])
    (hfirst : ∀ c ∈ back.head?, p c = false) (hlast : ∀ c ∈ back.getLast?, p c = false) :
    back <:+ ((front ++ back).dropWhile p).rdropWhile p := by
  have hkeep : ∃ rest, (front ++ back).dropWhile p = rest ++ back := by
    rw [List.dropWhile_append]
    split_ifs
    · exact ⟨[], dropWhile_of_head hfirst⟩
    · exact ⟨_, rfl⟩
  obtain ⟨rest, hrest⟩ := hkeep
  have hend : ∀ c ∈ (rest ++ back).getLast?, p c = false := by
    rw [List.getLast?_append_of_ne_nil rest hne]
    exact hlast
  rw [hrest, rdropWhile_of_last hend]
  exact List.suffix_append rest back

theorem trim_eq_self {text : String} (h : ∀ c ∈ text.toList, isWhiteSpace c = false) :
    trim text = text := by
  apply String.toList_inj.mp
  rw [toList_trim, dropWhile_of_head fun c hc => h c (List.mem_of_mem_head? hc),
    rdropWhile_of_last fun c hc => h c (List.mem_of_mem_getLast? hc)]

theorem trim_trim (text : String) : trim (trim text) = trim text := by
  apply String.toList_inj.mp
  rw [toList_trim, toList_trim]
  have hhead : ∀ c ∈ ((text.toList.dropWhile isWhiteSpace).rdropWhile isWhiteSpace).head?,
      isWhiteSpace c = false := by
    intro c hc
    have hfirst := List.head?_dropWhile_not isWhiteSpace text.toList
    obtain ⟨rest, hrest⟩ := List.rdropWhile_prefix isWhiteSpace (text.toList.dropWhile isWhiteSpace)
    rw [← hrest, List.head?_append, Option.mem_def.mp hc] at hfirst
    simpa using hfirst
  rw [dropWhile_of_head hhead, List.rdropWhile_idempotent]

theorem last_of_trimmed {text : String} (h : trim text = text) :
    ∀ c ∈ text.toList.getLast?, isWhiteSpace c = false := by
  intro c hc
  have htrim := toList_trim text
  rw [h] at htrim
  rw [htrim] at hc
  have hne : (text.toList.dropWhile isWhiteSpace).rdropWhile isWhiteSpace ≠ [] :=
    List.ne_nil_of_mem (List.mem_of_mem_getLast? hc)
  have hlast := List.rdropWhile_last_not isWhiteSpace _ hne
  rw [List.getLast?_eq_some_getLast hne] at hc
  obtain rfl := Option.some.inj hc
  simpa using hlast

theorem stripPrefix_append (start rest : String) : stripPrefix (start ++ rest) start = some rest := by
  unfold stripPrefix
  simp

theorem isWhiteSpace_alphabet {c : Char} (h : c ∈ Base64.alphabet) : isWhiteSpace c = false := by
  have hall : Base64.alphabet.all (fun c => !isWhiteSpace c) = true := by decide +kernel
  simpa using List.all_eq_true.mp hall c h

theorem trim_prefixed {payload : String} (h : ∀ c ∈ payload.toList, isWhiteSpace c = false) :
    trim (compactInvitePrefix ++ payload) = compactInvitePrefix ++ payload := by
  apply trim_eq_self
  intro c hc
  rw [String.toList_append, List.mem_append] at hc
  rcases hc with hc | hc
  · have hstart : compactInvitePrefix.toList.all (fun c => !isWhiteSpace c) = true := by
      decide +kernel
    simpa using List.all_eq_true.mp hstart c hc
  · exact h c hc

theorem isWhiteSpace_encoded (bytes : List UInt8) :
    ∀ c ∈ (String.ofList (Base64.encode bytes)).toList, isWhiteSpace c = false := by
  intro c hc
  rw [String.toList_ofList] at hc
  exact isWhiteSpace_alphabet (Base64.encode_mem hc)

theorem trim_encodeInvite (json : InviteJson) (payload : CompactInviteV1) :
    trim (encodeInvite json payload) = encodeInvite json payload :=
  trim_prefixed (isWhiteSpace_encoded _)

theorem parseJoinTarget_encodeInvite (json : InviteJson) (payload : CompactInviteV1) :
    parseJoinTarget json (encodeInvite json payload) = .invite payload.trimmed := by
  have hstrip : stripPrefix (trim (encodeInvite json payload)) compactInvitePrefix =
      some (String.ofList (Base64.encode (json.toVec payload))) := by
    rw [trim_encodeInvite]
    exact stripPrefix_append _ _
  simp only [parseJoinTarget, hstrip, String.toList_ofList, Base64.decode_encode,
    json.fromSlice_toVec]

theorem trimAddrs_trimAddrs (addrs : List String) : trimAddrs (trimAddrs addrs) = trimAddrs addrs := by
  unfold trimAddrs
  have hsame : ((addrs.map trim).filter (· ≠ "")).map trim = (addrs.map trim).filter (· ≠ "") := by
    refine (List.map_congr_left fun a ha => ?_).trans (List.map_id _)
    obtain ⟨b, _, rfl⟩ := List.mem_map.mp (List.mem_filter.mp ha).1
    exact trim_trim b
  rw [hsame, List.filter_filter]
  simp

end

def utf8Bytes (text : String) : List UInt8 := text.toUTF8.data.toList

theorem fromUTF8?_eq_some {bytes : List UInt8} {text : String} :
    String.fromUTF8? ⟨bytes.toArray⟩ = some text ↔ utf8Bytes text = bytes := by
  unfold String.fromUTF8? utf8Bytes
  constructor
  · intro h
    split at h
    · obtain rfl := Option.some.inj h
      rfl
    · cases h
  · rintro rfl
    have hbytes : (⟨text.toUTF8.data.toList.toArray⟩ : ByteArray) = text.toByteArray := rfl
    rw [hbytes, dif_pos text.isValidUTF8]
    rfl

def CompactInviteKind.variant : CompactInviteKind → String
  | .directCall => "DirectCall"
  | .room => "Room"

def CompactInviteKind.ofVariant (variant : String) : Option CompactInviteKind :=
  if variant = "DirectCall" then some .directCall
  else if variant = "Room" then some .room
  else none

theorem CompactInviteKind.ofVariant_variant (kind : CompactInviteKind) :
    ofVariant kind.variant = some kind := by
  cases kind with
  | directCall => rfl
  | room => rfl

abbrev InviteFields : Type :=
  Nat × String × String × List String × Option String × Option String × Option Nat × Unit

def CompactInviteV1.fields (invite : CompactInviteV1) : InviteFields :=
  (invite.v.toNat, invite.kind.variant, invite.peerId, invite.addrs, invite.inviteCode,
    invite.roomName, invite.expiresAtMs, ())

def CompactInviteV1.ofFields : InviteFields → Option CompactInviteV1
  | (v, kind, peerId, addrs, inviteCode, roomName, expiresAtMs, _) =>
    if v < 256 then
      (CompactInviteKind.ofVariant kind).map fun kind =>
        { v := UInt8.ofNat v
          kind := kind
          peerId := peerId
          addrs := addrs
          inviteCode := inviteCode
          roomName := roomName
          expiresAtMs := expiresAtMs }
    else none

theorem CompactInviteV1.ofFields_fields (invite : CompactInviteV1) :
    ofFields invite.fields = some invite := by
  have hv : invite.v.toNat < 256 := invite.v.toNat_lt
  simp only [ofFields, fields, hv, if_true, CompactInviteKind.ofVariant_variant, Option.map_some,
    UInt8.ofNat_toNat]

def textFormat : Json.Format String :=
  Json.string.refine utf8Bytes (fun bytes => String.fromUTF8? ⟨bytes.toArray⟩)
    fun _ => fromUTF8?_eq_some.mpr rfl

/-- The members of an invite, in the order of its fields. -/
def inviteMembers : Json.Members InviteFields :=
  .member 123 rfl (utf8Bytes "v") Json.number <|
  .member 44 rfl (utf8Bytes "kind") textFormat <|
  .member 44 rfl (utf8Bytes "peer_id") textFormat <|
  .member 44 rfl (utf8Bytes "addrs")
    (Json.array textFormat fun text => Json.string_open (utf8Bytes text)) <|
  .member 44 rfl (utf8Bytes "invite_code")
    (Json.optional textFormat fun text => Json.string_not_null (utf8Bytes text)) <|
  .member 44 rfl (utf8Bytes "room_name")
    (Json.optional textFormat fun text => Json.string_not_null (utf8Bytes text)) <|
  .member 44 rfl (utf8Bytes "expires_at_ms")
    (Json.optional Json.number Json.number_not_null) .close

def inviteFormat : Json.Format CompactInviteV1 :=
  inviteMembers.object.refine CompactInviteV1.fields CompactInviteV1.ofFields
    CompactInviteV1.ofFields_fields

/-- JSON as the daemon writes it. The reader takes no other text, so no white
space, and no members left out or in another order. -/
def serdeJson : InviteJson where
  toVec := inviteFormat.write
  fromSlice := inviteFormat.readAll
  fromSlice_toVec := inviteFormat.readAll_write

example : serdeJson.toVec
    { v := 1
      kind := .room
      peerId := "peer"
      addrs := ["a", "b"]
      inviteCode := none
      roomName := some "lab"
      expiresAtMs := some 50 } =
    utf8Bytes ("\x7b\"v\":1,\"kind\":\"Room\",\"peer_id\":\"peer\",\"addrs\":[\"a\",\"b\"]," ++
      "\"invite_code\":null,\"room_name\":\"lab\",\"expires_at_ms\":50\x7d") := by
  decide +kernel

end Voicers
