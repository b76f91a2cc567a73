import Voicers.Network.CompactInvite

/-! What a user pastes to join (`voicers-core`): the texts the encoders make,
what the decoders read in them, and the same payload as a record of the DHT. -/

namespace Voicers

open Lib

/-- The text of bytes after the prefix of an invite. -/
def inviteText (bytes : List UInt8) : String :=
  compactInvitePrefix ++ String.ofList (Base64.encode bytes)

def encodeCompactInvite (target : String) : String := inviteText (utf8Bytes (trim target))

def encodeJoinNamespaceInvite (joinNamespace : String) : String :=
  compactInvitePrefix ++ trim joinNamespace

def decodeCompactInvite (invite : String) : Option String :=
  (stripPrefix (trim invite) compactInvitePrefix).bind fun payload =>
    (Base64.decode payload.toList).bind fun decoded =>
      (String.fromUTF8? ⟨decoded.toArray⟩).map trim

def normalizeJoinTarget (json : InviteJson) (value : String) : String :=
  match parseJoinTarget json value with
  | .raw target => target
  | .invite invite => match invite.kind with
    | .directCall => invite.peerId
    | .room => (invite.inviteCode.or invite.roomName).getD invite.peerId

/-- What the network task takes from a record that a lookup has found. -/
def decodeRendezvousRecord (json : InviteJson) (payload : List UInt8) : Option CompactInviteV1 :=
  match json.fromSlice payload with
  | none => none
  | some invite =>
    if invite.v ≠ 1 ∨ trim invite.peerId = "" then none else some invite.trimmed

/-- The text is not the base64 form of other text or of an invite. -/
def ReadsPlain (json : InviteJson) (text : String) : Prop :=
  ∀ bytes, text.toList = Base64.encode bytes →
    json.fromSlice bytes = none ∧ ∀ other, utf8Bytes other ≠ bytes

section

theorem utf8Bytes_eq (text : String) :
    utf8Bytes text = text.toList.flatMap String.utf8EncodeChar := by
  have htext : text.toByteArray = text.toList.utf8Encode := by
    rw [← String.toByteArray_ofList, String.ofList_toList]
  rw [utf8Bytes, String.toUTF8_eq_toByteArray, htext, List.utf8Encode, List.data_toByteArray]

theorem length_le_utf8Bytes (text : String) : text.toList.length ≤ (utf8Bytes text).length := by
  rw [utf8Bytes_eq]
  induction text.toList with
  | nil => exact Nat.le_refl 0
  | cons c l ih =>
    have hc : 0 < (String.utf8EncodeChar c).length := by
      rw [String.length_utf8EncodeChar]
      exact c.utf8Size_pos
    rw [List.flatMap_cons, List.length_append, List.length_cons]
    omega

theorem length_trim_le (text : String) : (trim text).toList.length ≤ text.toList.length := by
  rw [toList_trim]
  exact (List.rdropWhile_prefix _ _).length_le.trans (List.dropWhile_suffix _).length_le

theorem rdropWhile_append_of_pos {p : Char → Bool} {l back : List Char} (h : ∀ c ∈ back, p c = true) :
    (l ++ back).rdropWhile p = l.rdropWhile p := by
  rw [List.rdropWhile, List.reverse_append,
    List.dropWhile_append_of_pos fun c hc => h c (List.mem_reverse.mp hc)]
  rfl

/-- White space around trimmed text is trimmed away. -/
theorem trim_padded {front text back : String} (hfront : ∀ c ∈ front.toList, isWhiteSpace c = true)
    (hback : ∀ c ∈ back.toList, isWhiteSpace c = true) (htrim : trim text = text) :
    trim (front ++ text ++ back) = text := by
  apply String.toList_inj.mp
  have hmid := toList_trim text
  rw [htrim] at hmid
  rw [toList_trim, String.toList_append, String.toList_append, List.append_assoc,
    List.dropWhile_append_of_pos hfront]
  by_cases hall : text.toList.dropWhile isWhiteSpace = []
  · rw [hall] at hmid
    rw [hmid, List.rdropWhile_nil, List.nil_append, List.rdropWhile_eq_nil_iff]
    exact fun c hc => hback c ((List.dropWhile_suffix _).subset hc)
  · rw [List.dropWhile_append]
    have hkept : (text.toList.dropWhile isWhiteSpace).isEmpty = false := by simpa using hall
    rw [hkept]
    simp only [Bool.false_eq_true, if_false]
    rw [rdropWhile_append_of_pos hback, ← hmid]

variable {json : InviteJson} {value other : String}

theorem parseJoinTarget_congr (h : trim value = trim other) :
    parseJoinTarget json value = parseJoinTarget json other := by
  rw [parseJoinTarget, h, ← parseJoinTarget]

theorem normalizeJoinTarget_congr (h : trim value = trim other) :
    normalizeJoinTarget json value = normalizeJoinTarget json other := by
  rw [normalizeJoinTarget, parseJoinTarget_congr h, ← normalizeJoinTarget]

theorem trim_inviteText (bytes : List UInt8) : trim (inviteText bytes) = inviteText bytes :=
  trim_prefixed (isWhiteSpace_encoded bytes)

theorem stripPrefix_inviteText (bytes : List UInt8) :
    stripPrefix (trim (inviteText bytes)) compactInvitePrefix =
      some (String.ofList (Base64.encode bytes)) := by
  rw [trim_inviteText]
  exact stripPrefix_append _ _

theorem parseJoinTarget_inviteText (bytes : List UInt8) :
    parseJoinTarget json (inviteText bytes) = match json.fromSlice bytes with
      | some invite => .invite invite.trimmed
      | none => match String.fromUTF8? ⟨bytes.toArray⟩ with
        | some text => .raw (trim text)
        | none => .raw (trim (String.ofList (Base64.encode bytes))) := by
  have hdecode : Base64.decode (String.ofList (Base64.encode bytes)).toList = some bytes := by
    rw [String.toList_ofList, Base64.decode_encode]
  rw [parseJoinTarget, stripPrefix_inviteText]
  cases hslice : json.fromSlice bytes with
  | some invite => simp only [hdecode, hslice]
  | none => cases htext : String.fromUTF8? ⟨bytes.toArray⟩ with
    | some text => simp only [hdecode, hslice, htext]
    | none => simp only [hdecode, hslice, htext]

theorem trimOption_trimOption (text : Option String) :
    trimOption (trimOption text) = trimOption text := by
  cases text with
  | none => rfl
  | some text =>
    by_cases hblank : trim text = ""
    · have hnone : trimOption (some text) = none := by
        rw [trimOption, Option.map_some, hblank]
        rfl
      rw [hnone]
      rfl
    · simp [trimOption, Option.filter_some, hblank, trim_trim]

theorem parse_encodePeerCompactInvite (peerId : String) (addrs : List String)
    (inviteCode : Option String) (expiresAtMs : Option Nat) :
    parseJoinTarget json (encodePeerCompactInvite json peerId addrs inviteCode expiresAtMs) =
      .invite
        { v := 1
          kind := .directCall
          peerId := trim peerId
          addrs := trimAddrs addrs
          inviteCode := trimOption inviteCode
          roomName := none
          expiresAtMs := expiresAtMs } := by
  rw [encodePeerCompactInvite, parseJoinTarget_encodeInvite]
  simp only [CompactInviteV1.trimmed, trim_trim, trimAddrs_trimAddrs, trimOption_trimOption]
  rfl

theorem parse_encodeRoomCompactInvite (peerId roomName : String) (addrs : List String)
    (inviteCode : String) (expiresAtMs : Option Nat) :
    parseJoinTarget json (encodeRoomCompactInvite json peerId roomName addrs inviteCode expiresAtMs) =
      .invite
        { v := 1
          kind := .room
          peerId := trim peerId
          addrs := trimAddrs addrs
          inviteCode := trimOption (some inviteCode)
          roomName := trimOption (some roomName)
          expiresAtMs := expiresAtMs } := by
  rw [encodeRoomCompactInvite, parseJoinTarget_encodeInvite]
  simp only [CompactInviteV1.trimmed, trim_trim, trimAddrs_trimAddrs, trimOption, Option.map_some]

theorem decodeCompactInvite_inviteText {bytes : List UInt8} {text : String}
    (htext : utf8Bytes text = bytes) (h : trim value = inviteText bytes) :
    decodeCompactInvite value = some (trim text) := by
  have hstrip := stripPrefix_inviteText bytes
  rw [trim_inviteText, ← h] at hstrip
  simp only [decodeCompactInvite, hstrip, Option.bind_some, String.toList_ofList,
    Base64.decode_encode, fromUTF8?_eq_some.mpr htext, Option.map_some]

theorem parse_encodeCompactInvite {target : String}
    (hplain : json.fromSlice (utf8Bytes (trim target)) = none) :
    parseJoinTarget json (encodeCompactInvite target) = .raw (trim target) := by
  rw [encodeCompactInvite, parseJoinTarget_inviteText, hplain,
    fromUTF8?_eq_some.mpr (rfl : utf8Bytes (trim target) = utf8Bytes (trim target))]
  simp only [trim_trim]

/-- What is encoded is read back trimmed, whatever white space is pasted with it. -/
theorem compact_invites_round_trip (json : InviteJson) {front back : String}
    (hfront : ∀ c ∈ front.toList, isWhiteSpace c = true)
    (hback : ∀ c ∈ back.toList, isWhiteSpace c = true) :
    (∀ peerId addrs inviteCode expiresAtMs,
      parseJoinTarget json (front ++
          encodePeerCompactInvite json peerId addrs inviteCode expiresAtMs ++ back) =
        .invite
          { v := 1
            kind := .directCall
            peerId := trim peerId
            addrs := (addrs.map trim).filter (· ≠ "")
            inviteCode := (inviteCode.map trim).filter (· ≠ "")
            roomName := none
            expiresAtMs := expiresAtMs }) ∧
      (∀ peerId roomName addrs inviteCode expiresAtMs,
        parseJoinTarget json (front ++
            encodeRoomCompactInvite json peerId roomName addrs inviteCode expiresAtMs ++ back) =
          .invite
            { v := 1
              kind := .room
              peerId := trim peerId
              addrs := (addrs.map trim).filter (· ≠ "")
              inviteCode := if trim inviteCode = "" then none else some (trim inviteCode)
              roomName := if trim roomName = "" then none else some (trim roomName)
              expiresAtMs := expiresAtMs }) ∧
      ∀ target, json.fromSlice (utf8Bytes (trim target)) = none →
        decodeCompactInvite (front ++ encodeCompactInvite target ++ back) = some (trim target) ∧
          normalizeJoinTarget json (front ++ encodeCompactInvite target ++ back) = trim target := by
  have hpad : ∀ {text : String}, trim text = text → trim (front ++ text ++ back) = trim text :=
    fun htrim => (trim_padded hfront hback htrim).trans htrim.symm
  have hblank : ∀ text : String, trimOption (some text) =
      if trim text = "" then none else some (trim text) := by
    intro text
    simp only [trimOption, Option.map_some, Option.filter_some, ne_eq, decide_not,
      Bool.not_eq_true', decide_eq_false_iff_not, ite_not]
  refine ⟨?_, ?_, ?_⟩
  · intro peerId addrs inviteCode expiresAtMs
    have htrim : trim (encodePeerCompactInvite json peerId addrs inviteCode expiresAtMs) =
      encodePeerCompactInvite json peerId addrs inviteCode expiresAtMs := trim_encodeInvite json _
    rw [parseJoinTarget_congr (hpad htrim), parse_encodePeerCompactInvite]
    rfl
  · intro peerId roomName addrs inviteCode expiresAtMs
    have htrim : trim (encodeRoomCompactInvite json peerId roomName addrs inviteCode expiresAtMs) =
      encodeRoomCompactInvite json peerId roomName addrs inviteCode expiresAtMs :=
        trim_encodeInvite json _
    rw [parseJoinTarget_congr (hpad htrim), parse_encodeRoomCompactInvite, hblank, hblank]
    rfl
  · intro target hplain
    have htrim : trim (encodeCompactInvite target) = encodeCompactInvite target := trim_inviteText _
    have hsame := hpad htrim
    rw [normalizeJoinTarget_congr hsame, decodeCompactInvite_inviteText rfl (hsame.trans htrim),
      trim_trim]
    refine ⟨rfl, ?_⟩
    rw [normalizeJoinTarget, parse_encodeCompactInvite hplain]

end

theorem compact_invites_round_trip_pasted :
    parseJoinTarget serdeJson
        (" " ++ encodeRoomCompactInvite serdeJson
          "12D3KooWG2UHFKDhDod45sV4iKntd6gHkv6nKK6Z2VCnYMCyUZey" "alpha-room"
          [" /dns4/example.net/tcp/4001", " "] " " (some 123456789) ++ "\n") =
      .invite
        { v := 1
          kind := .room
          peerId := "12D3KooWG2UHFKDhDod45sV4iKntd6gHkv6nKK6Z2VCnYMCyUZey"
          addrs := ["/dns4/example.net/tcp/4001"]
          inviteCode := none
          roomName := some "alpha-room"
          expiresAtMs := some 123456789 } ∧
      decodeCompactInvite (" " ++ encodeCompactInvite " lab" ++ "\n") = some "lab" := by
  have hblank : ∀ text : String, text.toList.all isWhiteSpace = true →
      ∀ c ∈ text.toList, isWhiteSpace c = true := fun text hall => List.all_eq_true.mp hall
  obtain ⟨_, hroom, hraw⟩ := compact_invites_round_trip serdeJson (hblank " " (by decide))
    (hblank "\n" (by decide))
  constructor
  · rw [hroom]
    decide +kernel
  · rw [(hraw " lab" (by decide +kernel)).1]
    decide +kernel

section

variable {json : InviteJson} {n : String}

theorem parse_encodeJoinNamespaceInvite (hplain : ∀ c ∈ n.toList, isWhiteSpace c = false) :
    parseJoinTarget json (encodeJoinNamespaceInvite n) =
      match Base64.decode n.toList with
      | none => .raw n
      | some decoded => match json.fromSlice decoded with
        | some invite => .invite invite.trimmed
        | none => match String.fromUTF8? ⟨decoded.toArray⟩ with
          | some text => .raw (trim text)
          | none => .raw n := by
  have htrim := trim_eq_self hplain
  have hstrip : stripPrefix (trim (encodeJoinNamespaceInvite n)) compactInvitePrefix = some n := by
    rw [encodeJoinNamespaceInvite, htrim, trim_prefixed hplain]
    exact stripPrefix_append _ _
  rw [parseJoinTarget, hstrip]
  cases hdecode : Base64.decode n.toList with
  | none => simp only [hdecode, htrim]
  | some decoded => cases hslice : json.fromSlice decoded with
    | some invite => simp only [hdecode, hslice]
    | none => cases htext : String.fromUTF8? ⟨decoded.toArray⟩ with
      | some text => simp only [hdecode, hslice, htext]
      | none => simp only [hdecode, hslice, htext, htrim]

/-- The base64 form of a text is longer than the text. -/
theorem trim_ne_of_encoded {text : String} (hne : n ≠ "")
    (h : n.toList = Base64.encode (utf8Bytes text)) : trim text ≠ n := by
  rintro rfl
  have hbytes : utf8Bytes text ≠ [] := by
    intro hnil
    rw [hnil] at h
    exact hne (String.toList_inj.mp h)
  have hlonger := Base64.length_lt_encode hbytes
  have hshorter := (length_trim_le text).trans (length_le_utf8Bytes text)
  rw [← h] at hlonger
  omega

/-- A name is read back from its invite exactly when it is not itself the
base64 form of something. -/
theorem namespace_round_trips_iff (json : InviteJson) {n : String} (hne : n ≠ "")
    (hplain : ∀ c ∈ n.toList, isWhiteSpace c = false) :
    parseJoinTarget json (encodeJoinNamespaceInvite n) = .raw n ∧
        normalizeJoinTarget json (encodeJoinNamespaceInvite n) = n ↔ ReadsPlain json n := by
  have hparse := @parse_encodeJoinNamespaceInvite json n hplain
  constructor
  · rintro ⟨hraw, _⟩ bytes hbytes
    rw [hparse, Base64.decode_eq_some_iff.mpr hbytes] at hraw
    cases hslice : json.fromSlice bytes with
    | some invite =>
      simp only [hslice] at hraw
      cases hraw
    | none =>
      refine ⟨rfl, ?_⟩
      rintro text rfl
      simp only [hslice, fromUTF8?_eq_some.mpr (rfl : utf8Bytes text = utf8Bytes text)] at hraw
      exact trim_ne_of_encoded hne hbytes (JoinTarget.raw.inj hraw)
  · intro hreads
    have hraw : parseJoinTarget json (encodeJoinNamespaceInvite n) = .raw n := by
      rw [hparse]
      cases hdecode : Base64.decode n.toList with
      | none => rfl
      | some decoded =>
        obtain ⟨hslice, htext⟩ := hreads decoded (Base64.decode_eq_some_iff.mp hdecode)
        simp only [hslice]
        cases hutf8 : String.fromUTF8? ⟨decoded.toArray⟩ with
        | none => rfl
        | some text => exact absurd (fromUTF8?_eq_some.mp hutf8) (htext text)
    refine ⟨hraw, ?_⟩
    rw [normalizeJoinTarget, hraw]

/-- A code of eight hexadecimal digits that is also the base64 form of `kG4kG4`. -/
theorem inviteCode_misread :
    ¬ ∀ (json : InviteJson) (n : String), n ≠ "" → (∀ c ∈ n.toList, isWhiteSpace c = false) →
      parseJoinTarget json (encodeJoinNamespaceInvite n) = .raw n ∧
        normalizeJoinTarget json (encodeJoinNamespaceInvite n) = n := by
  intro hall
  have hblank : ("a0c0a0c0".toList.all fun c => !isWhiteSpace c) = true := by decide
  have hplain : ∀ c ∈ "a0c0a0c0".toList, isWhiteSpace c = false := by
    simpa using List.all_eq_true.mp hblank
  have hread : normalizeJoinTarget serdeJson (encodeJoinNamespaceInvite "a0c0a0c0") = "kG4kG4" := by
    decide +kernel
  have hkept := (hall serdeJson "a0c0a0c0" (by decide) hplain).2
  rw [hread] at hkept
  exact absurd hkept (by decide)

theorem namespace_round_trips_iff_shortCode :
    parseJoinTarget serdeJson (encodeJoinNamespaceInvite "abc123") = .raw "abc123" ∧
        normalizeJoinTarget serdeJson (encodeJoinNamespaceInvite "abc123") = "abc123" ↔
      ReadsPlain serdeJson "abc123" := by
  have hblank : ("abc123".toList.all fun c => !isWhiteSpace c) = true := by decide
  exact namespace_round_trips_iff serdeJson (by decide) (by simpa using List.all_eq_true.mp hblank)

/-- The two decoders agree on a payload exactly when it is no invite or one
that the network task accepts. -/
theorem invite_decoders_agree_iff (json : InviteJson) (payload : List UInt8) :
    (∀ invite, parseJoinTarget json (inviteText payload) = .invite invite ↔
        decodeRendezvousRecord json payload = some invite) ↔
      ∀ invite, json.fromSlice payload = some invite → invite.v = 1 ∧ trim invite.peerId ≠ "" := by
  rw [parseJoinTarget_inviteText]
  unfold decodeRendezvousRecord
  cases hslice : json.fromSlice payload with
  | none =>
    refine iff_of_true (fun invite => iff_of_false ?_ ?_) fun invite hsome => ?_
    · dsimp only
      split
      · exact nofun
      · exact nofun
    · exact nofun
    · cases hsome
  | some invite =>
    dsimp only
    constructor
    · intro hagree other hother
      obtain rfl := Option.some.inj hother
      have haccepted := (hagree invite.trimmed).mp rfl
      obtain ⟨hvalid, _⟩ := Option.ite_none_left_eq_some.mp haccepted
      simpa using hvalid
    · intro hvalid other
      obtain ⟨hversion, hpeer⟩ := hvalid invite rfl
      have hnot : ¬ (invite.v ≠ 1 ∨ trim invite.peerId = "") := by simp [hversion, hpeer]
      rw [if_neg hnot, JoinTarget.invite.injEq, Option.some.injEq]

end

/-- An invite of a version that is not known yet. -/
def laterInvite : CompactInviteV1 where
  v := 2
  kind := .directCall
  peerId := "12D3KooWG2UHFKDhDod45sV4iKntd6gHkv6nKK6Z2VCnYMCyUZey"
  addrs := []
  inviteCode := none
  roomName := none
  expiresAtMs := none

theorem laterInvite_accepted_once :
    ¬ ∀ (json : InviteJson) (payload : List UInt8) (invite : CompactInviteV1),
      parseJoinTarget json (inviteText payload) = .invite invite ↔
        decodeRendezvousRecord json payload = some invite := by
  intro hall
  have hrefused : decodeRendezvousRecord serdeJson (serdeJson.toVec laterInvite) = none := by
    rw [decodeRendezvousRecord, serdeJson.fromSlice_toVec]
    exact if_pos (Or.inl (by decide))
  have hpasted := hall serdeJson (serdeJson.toVec laterInvite) laterInvite.trimmed
  rw [hrefused, parseJoinTarget_inviteText, serdeJson.fromSlice_toVec] at hpasted
  cases hpasted.mp rfl

end Voicers
