import Voicers.Network.StunResponse

/-! Which bytes of an answer the parser reads. Every index it uses is inside the
answer, whatever lengths the answer claims. -/

namespace Voicers

open Lib

/-- The type that the header names. -/
def stunMessageType (response : List UInt8) : UInt16 :=
  u16FromBe (response[0]?.getD 0) (response[1]?.getD 0)

/-- The length the header claims for the attributes. -/
def stunMessageLength (response : List UInt8) : Nat :=
  (u16FromBe (response[2]?.getD 0) (response[3]?.getD 0)).toNat

/-- Where the value of the first masked address ends, if the loop comes to it. -/
def xorMappedEnd : List UInt8 → Option Nat
  | t :: u :: l :: m :: rest =>
    let attrLen := (u16FromBe l m).toNat
    if rest.length < attrLen then none
    else if u16FromBe t u = stunAttrXorMappedAddress then some (4 + attrLen)
    else (xorMappedEnd (rest.drop (paddedStunAttrLen attrLen))).map
      (4 + paddedStunAttrLen attrLen + ·)
  | _ => none
termination_by attrs => attrs.length
decreasing_by simp only [List.length_drop, List.length_cons]; omega

/-- The same place in the whole answer. -/
def stunXorMappedEnd (response : List UInt8) : Option Nat :=
  (xorMappedEnd ((response.drop 20).take (stunMessageLength response))).map (20 + ·)

section

variable {transactionId : Bytes 12} {response other : List UInt8}

theorem exists_stunHeader (h : 20 ≤ response.length) :
    ∃ messageType messageLength magicCookie id rest,
      response = stunHeader messageType messageLength magicCookie id ++ rest := by
  obtain ⟨b0, b1, b2, b3, response, rfl⟩ := exists_four_of_length (by omega : 4 ≤ response.length)
  simp only [List.length_cons] at h
  obtain ⟨b4, b5, b6, b7, response, rfl⟩ := exists_four_of_length (by omega : 4 ≤ response.length)
  simp only [List.length_cons] at h
  have hid : (response.take 12).length = 12 := by
    rw [List.length_take]
    omega
  refine ⟨u16FromBe b0 b1, u16FromBe b2 b3, u32FromBe b4 b5 b6 b7, ⟨response.take 12, hid⟩,
    response.drop 12, ?_⟩
  simp only [stunHeader, u16ToBe_u16FromBe, u32ToBe_u32FromBe, List.cons_append, List.nil_append,
    List.take_append_drop]

theorem stunMessageType_header (messageType messageLength : UInt16) (magicCookie : UInt32)
    (id : Bytes 12) (rest : List UInt8) :
    stunMessageType (stunHeader messageType messageLength magicCookie id ++ rest) =
      messageType := by
  obtain ⟨b0, b1, b2, b3, b4, b5, b6, b7, hbytes, hmessageType, _⟩ :=
    exists_stunHeader_bytes messageType messageLength magicCookie id rest
  rw [stunMessageType, hbytes, ← hmessageType]
  rfl

theorem stunMessageLength_header (messageType messageLength : UInt16) (magicCookie : UInt32)
    (id : Bytes 12) (rest : List UInt8) :
    stunMessageLength (stunHeader messageType messageLength magicCookie id ++ rest) =
      messageLength.toNat := by
  obtain ⟨b0, b1, b2, b3, b4, b5, b6, b7, hbytes, _, hmessageLength, _⟩ :=
    exists_stunHeader_bytes messageType messageLength magicCookie id rest
  rw [stunMessageLength, hbytes, ← hmessageLength]
  rfl

theorem xorMappedEnd_attribute (a : StunAttribute) (rest : List UInt8)
    (h : a.value.length < 65536) :
    xorMappedEnd (a.bytes ++ rest) =
      if a.attrType = stunAttrXorMappedAddress then some (4 + a.value.length)
      else (xorMappedEnd rest).map (a.bytes.length + ·) := by
  obtain ⟨t, u, l, m, hbytes, hattrType, hlength⟩ := exists_attribute_bytes h rest
  have hsize : a.bytes.length = 4 + paddedStunAttrLen a.value.length := by
    rw [StunAttribute.bytes, List.length_append, List.length_append, length_u16ToBe,
      length_u16ToBe, paddedStunAttrLen_attribute]
  rw [hbytes, xorMappedEnd]
  simp only [hlength, if_neg (not_length_attribute_lt a rest), drop_attribute, hattrType, hsize]

theorem xorMappedEnd_before {attributes : List StunAttribute}
    (hlength : ∀ a ∈ attributes, a.value.length < 65536)
    (hxor : ∀ a ∈ attributes, a.attrType ≠ stunAttrXorMappedAddress) (rest : List UInt8) :
    xorMappedEnd (stunAttributeBytes attributes ++ rest) =
      (xorMappedEnd rest).map ((stunAttributeBytes attributes).length + ·) := by
  induction attributes with
  | nil => simp [stunAttributeBytes]
  | cons a attributes ih =>
    have hrest := ih (fun b hb => hlength b (List.mem_cons_of_mem a hb))
      (fun b hb => hxor b (List.mem_cons_of_mem a hb))
    have hcons : stunAttributeBytes (a :: attributes) =
        a.bytes ++ stunAttributeBytes attributes := rfl
    rw [hcons, List.append_assoc, xorMappedEnd_attribute a _ (hlength a List.mem_cons_self),
      if_neg (hxor a List.mem_cons_self), hrest, Option.map_map, List.length_append]
    congr 1
    funext n
    exact (Nat.add_assoc _ _ n).symm

/-- In an answer a server lays out, the place is the end of that value. -/
theorem stunXorMappedEnd_success {before after : List StunAttribute} {xorMapped : StunAttribute}
    (hlength : (stunAttributeBytes (before ++ xorMapped :: after)).length < 65536)
    (hxor : ∀ a ∈ before, a.attrType ≠ stunAttrXorMappedAddress)
    (htype : xorMapped.attrType = stunAttrXorMappedAddress) (transactionId : Bytes 12)
    (trailing : List UInt8) :
    stunXorMappedEnd
        (stunBindingSuccess transactionId (before ++ xorMapped :: after) trailing) =
      some (20 + ((stunAttributeBytes before).length + (4 + xorMapped.value.length))) := by
  have hlengths := length_value_lt hlength
  have hbefore : ∀ a ∈ before, a.value.length < 65536 := fun a ha =>
    hlengths a (List.mem_append_left _ ha)
  have hmessage : (UInt16.ofNat (stunAttributeBytes (before ++ xorMapped :: after)).length).toNat =
      (stunAttributeBytes (before ++ xorMapped :: after)).length := by
    rw [UInt16.toNat_ofNat', Nat.mod_eq_of_lt hlength]
  have hbytes : stunAttributeBytes (before ++ xorMapped :: after) =
      stunAttributeBytes before ++ (xorMapped.bytes ++ stunAttributeBytes after) := by
    simp only [stunAttributeBytes, List.flatMap_append, List.flatMap_cons]
  rw [stunXorMappedEnd, stunBindingSuccess, stunMessageLength_header,
    List.drop_left' (length_stunHeader _ _ _ _), hmessage, List.take_left' rfl, hbytes,
    xorMappedEnd_before hbefore hxor,
    xorMappedEnd_attribute xorMapped _
      (hlengths xorMapped (List.mem_append_right _ List.mem_cons_self)), if_pos htype]
  rfl

/-- The loop ends with the value of the first masked address. -/
theorem readAttributes_of_xorMappedEnd {attrs : List UInt8} {stop : Nat}
    (h : xorMappedEnd attrs = some stop) (hsame : other.take stop = attrs.take stop)
    (mappedAddr : Option SocketAddr) :
    readAttributes transactionId mappedAddr other =
      readAttributes transactionId mappedAddr attrs := by
  fun_induction xorMappedEnd attrs generalizing other stop mappedAddr
  case case1 t u l m rest attrLen hcut => simp at h
  case case2 t u l m rest attrLen hcut hxor =>
    obtain rfl := Option.some_inj.mp h
    obtain ⟨rest', rfl, hvalue⟩ := exists_append_of_take_eq
      (show other.take ([t, u, l, m].length + attrLen) = ([t, u, l, m] ++ rest).take _ from hsame)
    have hlong := le_length_of_take_eq hvalue (Nat.not_lt.mp hcut)
    rw [List.cons_append, List.cons_append, List.cons_append, List.cons_append, List.nil_append,
      readAttributes, readAttributes]
    simp only [if_pos hxor]
    rw [if_neg hcut, if_neg (Nat.not_lt.mpr hlong), hvalue]
  case case3 t u l m rest attrLen hcut hxor ih =>
    obtain ⟨left, hleft, rfl⟩ := Option.map_eq_some_iff.mp h
    rw [Nat.add_assoc] at hsame
    obtain ⟨rest', rfl, hrest⟩ := exists_append_of_take_eq
      (show other.take ([t, u, l, m].length + (paddedStunAttrLen attrLen + left)) =
        ([t, u, l, m] ++ rest).take _ from hsame)
    have hpadded : attrLen ≤ paddedStunAttrLen attrLen := by
      rw [paddedStunAttrLen]
      omega
    have hvalue : rest'.take attrLen = rest.take attrLen := take_eq_of_take_eq hrest (by omega)
    have hlong := le_length_of_take_eq hvalue (Nat.not_lt.mp hcut)
    have hnext : (rest'.drop (paddedStunAttrLen attrLen)).take left =
        (rest.drop (paddedStunAttrLen attrLen)).take left := by
      rw [List.take_drop, List.take_drop, hrest]
    rw [List.cons_append, List.cons_append, List.cons_append, List.cons_append, List.nil_append,
      readAttributes, readAttributes]
    simp only [if_neg hxor]
    rw [if_neg hcut, if_neg (Nat.not_lt.mpr hlong), hvalue, ih hleft hnext]
    by_cases hmapped : u16FromBe t u = stunAttrMappedAddress
    · rw [if_pos hmapped, if_pos hmapped]
      cases readAddress (rest.take attrLen) false transactionId with
      | error error => rfl
      | ok address => exact ih hleft hnext (some address)
    · rw [if_neg hmapped, if_neg hmapped]
  case case4 attrs hshort => simp at h

/-- The parser ends, and reads no byte that is not there. -/
theorem parseStunBindingResponse_isSome (response : List UInt8) (transactionId : Bytes 12) :
    ∃ result, parseStunBindingResponse response transactionId = some result := by
  by_cases hshort : response.length < 20
  · exact ⟨_, if_pos hshort⟩
  · obtain ⟨messageType, messageLength, magicCookie, id, rest, rfl⟩ :=
      exists_stunHeader (Nat.not_lt.mp hshort)
    exact ⟨_, parseStunBindingResponse_header messageType messageLength magicCookie id
      transactionId rest⟩

theorem parseStunBindingResponse_of_take_eq
    (h : other.take (20 + stunMessageLength response) =
      response.take (20 + stunMessageLength response)) (transactionId : Bytes 12) :
    parseStunBindingResponse other transactionId =
      parseStunBindingResponse response transactionId := by
  by_cases hshort : response.length < 20
  · rw [List.take_of_length_le (show response.length ≤ _ by omega)] at h
    have hlength := congrArg List.length h
    rw [List.length_take] at hlength
    rw [List.take_of_length_le (by omega)] at h
    rw [h]
  · obtain ⟨messageType, messageLength, magicCookie, id, rest, rfl⟩ :=
      exists_stunHeader (Nat.not_lt.mp hshort)
    rw [stunMessageLength_header,
      ← length_stunHeader messageType messageLength magicCookie id] at h
    obtain ⟨rest', rfl, hrest⟩ := exists_append_of_take_eq h
    have hlength := congrArg List.length hrest
    rw [List.length_take, List.length_take] at hlength
    have hcut : rest'.length < messageLength.toNat ↔ rest.length < messageLength.toNat := by omega
    rw [parseStunBindingResponse_header, parseStunBindingResponse_header, hrest]
    simp only [hcut]

/-- An answer that is shorter than its header says is refused. -/
theorem parseStunBindingResponse_truncated (h : response.length < 20 + stunMessageLength response)
    (transactionId : Bytes 12) :
    parseStunBindingResponse response transactionId = some (.error
      (if response.length < 20 then "STUN response is shorter than the header"
      else if stunMessageType response ≠ stunBindingSuccessResponse then
        "unexpected STUN response type 0x" ++ lowerHex 4 (stunMessageType response).toNat
      else "truncated STUN response")) := by
  by_cases hshort : response.length < 20
  · rw [if_pos hshort]
    exact if_pos hshort
  rw [if_neg hshort]
  obtain ⟨messageType, messageLength, magicCookie, id, rest, rfl⟩ :=
    exists_stunHeader (Nat.not_lt.mp hshort)
  rw [stunMessageLength_header, List.length_append, length_stunHeader] at h
  have hcut : rest.length < messageLength.toNat := by omega
  rw [parseStunBindingResponse_header, stunMessageType_header, if_pos hcut]
  split_ifs <;> rfl

/-- An answer in which the loop comes to a masked address has a header. -/
theorem length_of_xorMappedEnd {stop : Nat} (hend : stunXorMappedEnd response = some stop) :
    20 ≤ response.length := by
  by_contra hshort
  rw [stunXorMappedEnd, List.drop_eq_nil_of_le (by omega), List.take_nil, xorMappedEnd] at hend
  · cases hend
  · nofun

theorem parseStunBindingResponse_of_xorMappedEnd {stop : Nat}
    (hend : stunXorMappedEnd response = some stop)
    (hwhole : 20 + stunMessageLength response ≤ response.length ↔
      20 + stunMessageLength response ≤ other.length)
    (h : other.take stop = response.take stop) (transactionId : Bytes 12) :
    parseStunBindingResponse other transactionId =
      parseStunBindingResponse response transactionId := by
  obtain ⟨messageType, messageLength, magicCookie, id, rest, rfl⟩ :=
    exists_stunHeader (length_of_xorMappedEnd hend)
  have hheader := length_stunHeader messageType messageLength magicCookie id
  obtain ⟨stop, hstop, rfl⟩ := Option.map_eq_some_iff.mp hend
  rw [stunMessageLength_header] at hstop hwhole
  rw [List.drop_left' hheader] at hstop
  rw [← hheader] at h
  obtain ⟨rest', rfl, hrest⟩ := exists_append_of_take_eq h
  rw [List.length_append, List.length_append, hheader, Nat.add_le_add_iff_left,
    Nat.add_le_add_iff_left] at hwhole
  have hattrs : (rest'.take messageLength.toNat).take stop =
      (rest.take messageLength.toNat).take stop := by
    rw [List.take_take, List.take_take]
    exact take_eq_of_take_eq hrest (Nat.min_le_left _ _)
  have hcut : rest'.length < messageLength.toNat ↔ rest.length < messageLength.toNat := by omega
  rw [parseStunBindingResponse_header, parseStunBindingResponse_header,
    readAttributes_of_xorMappedEnd hstop hattrs]
  simp only [hcut]

/-- No bytes make the parser fail, and those after the attributes, or after the
first masked address of an answer that is not cut off, make no difference. -/
theorem stun_parser_robust (response : List UInt8) (transactionId : Bytes 12) :
    (∃ result, parseStunBindingResponse response transactionId = some result) ∧
    (∀ other, other.take (20 + stunMessageLength response) =
        response.take (20 + stunMessageLength response) →
      parseStunBindingResponse other transactionId =
        parseStunBindingResponse response transactionId) ∧
    (∀ stop other, stunXorMappedEnd response = some stop →
      (20 + stunMessageLength response ≤ response.length ↔
        20 + stunMessageLength response ≤ other.length) →
      other.take stop = response.take stop →
      parseStunBindingResponse other transactionId =
        parseStunBindingResponse response transactionId) ∧
    (response.length < 20 + stunMessageLength response →
      parseStunBindingResponse response transactionId = some (.error
        (if response.length < 20 then "STUN response is shorter than the header"
        else if stunMessageType response ≠ stunBindingSuccessResponse then
          "unexpected STUN response type 0x" ++ lowerHex 4 (stunMessageType response).toNat
        else "truncated STUN response"))) := by
  refine ⟨parseStunBindingResponse_isSome response transactionId, ?_, ?_, ?_⟩
  · intro other hsame
    exact parseStunBindingResponse_of_take_eq hsame transactionId
  · intro stop other hend hwhole hsame
    exact parseStunBindingResponse_of_xorMappedEnd hend hwhole hsame transactionId
  · intro htruncated
    exact parseStunBindingResponse_truncated htruncated transactionId

end

/-- A server's answer, one whose attribute after the masked address is cut off,
and one that ends with that address. -/
def sampleAnswer : List UInt8 :=
  stunBindingSuccess sampleTransaction ([sampleSoftware] ++ sampleXorMapped :: [sampleMapped]) []

def sampleCutAnswer : List UInt8 := sampleAnswer.take 44 ++ List.replicate 12 255

theorem stun_parser_robust_sample :
    parseStunBindingResponse sampleCutAnswer sampleTransaction =
        parseStunBindingResponse sampleAnswer sampleTransaction ∧
      parseStunBindingResponse (sampleAnswer.take 44) sampleTransaction =
        some (.error "truncated STUN response") := by
  have hend : stunXorMappedEnd sampleAnswer = some 44 :=
    stunXorMappedEnd_success (by decide) (by decide) rfl sampleTransaction []
  obtain ⟨_, _, hmasked, _⟩ := stun_parser_robust sampleAnswer sampleTransaction
  obtain ⟨_, _, _, htruncated⟩ := stun_parser_robust (sampleAnswer.take 44) sampleTransaction
  exact ⟨hmasked 44 sampleCutAnswer hend (by decide) (by decide), htruncated (by decide)⟩

end Voicers
