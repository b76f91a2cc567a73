import Mathlib.Data.List.Forall2
import Voicers.Network.Stun

/-! What the parser of STUN answers makes of the answers a server lays out:
the header, the attributes filled up to four bytes, and whatever follows. -/

namespace Voicers

open Lib

def stunHeader (messageType messageLength : UInt16) (magicCookie : UInt32)
    (transactionId : Bytes 12) : List UInt8 :=
  u16ToBe messageType ++ u16ToBe messageLength ++ u32ToBe magicCookie ++ transactionId.toList

/-- An attribute, with the bytes that fill it up to a multiple of four. -/
structure StunAttribute where
  attrType : UInt16
  value : List UInt8
  padding : List UInt8
  padded : padding.length = (4 - value.length % 4) % 4

def StunAttribute.bytes (a : StunAttribute) : List UInt8 :=
  u16ToBe a.attrType ++ u16ToBe (UInt16.ofNat a.value.length) ++ (a.value ++ a.padding)

def stunAttributeBytes (attributes : List StunAttribute) : List UInt8 :=
  attributes.flatMap StunAttribute.bytes

def stunBindingSuccess (transactionId : Bytes 12) (attributes : List StunAttribute)
    (trailing : List UInt8) : List UInt8 :=
  stunHeader stunBindingSuccessResponse (UInt16.ofNat (stunAttributeBytes attributes).length)
    stunMagicCookie transactionId ++ (stunAttributeBytes attributes ++ trailing)

def mappedAddressBytes (address : SocketAddr) : List UInt8 :=
  match address.ip with
  | .v4 octets => 0 :: 1 :: (u16ToBe address.port ++ octets.toList)
  | .v6 octets => 0 :: 2 :: (u16ToBe address.port ++ octets.toList)

def xorMappedAddressBytes (transactionId : Bytes 12) (address : SocketAddr) : List UInt8 :=
  let port := u16ToBe (address.port ^^^ 0x2112)
  match address.ip with
  | .v4 octets => 0 :: 1 :: (port ++ xorInto octets.toList (u32ToBe stunMagicCookie))
  | .v6 octets =>
    0 :: 2 :: (port ++ xorInto octets.toList (u32ToBe stunMagicCookie ++ transactionId.toList))

/-- The attribute says the address as it is. -/
def StunAttribute.Maps (a : StunAttribute) (address : SocketAddr) : Prop :=
  mappedAddressBytes address <+: a.value

/-- The attribute says the address under the mask of the request. -/
def StunAttribute.XorMaps (transactionId : Bytes 12) (a : StunAttribute) (address : SocketAddr) :
    Prop :=
  xorMappedAddressBytes transactionId address <+: a.value

def mappedAttributes (attributes : List StunAttribute) : List StunAttribute :=
  attributes.filter fun a => a.attrType = stunAttrMappedAddress

section

variable {transactionId : Bytes 12} {address : SocketAddr} {value : List UInt8}

theorem readAddress_of_maps (h : mappedAddressBytes address <+: value) :
    readAddress value false transactionId = .ok address := by
  obtain ⟨rest, rfl⟩ := h
  obtain ⟨ip, port⟩ := address
  obtain ⟨b, c, hbytes, hport⟩ := exists_u16ToBe port
  cases ip with
  | v4 octets =>
    have hread := parseStunAddress_v4 b c octets rest false transactionId
    simp only [mappedAddressBytes, hbytes, List.cons_append, List.nil_append, readAddress, hread,
      Option.getD_some, Bool.false_eq_true, if_false, hport]
  | v6 octets =>
    have hread := parseStunAddress_v6 b c octets rest false transactionId
    simp only [mappedAddressBytes, hbytes, List.cons_append, List.nil_append, readAddress, hread,
      Option.getD_some, Bool.false_eq_true, if_false, hport]

theorem xorPort_xorPort (port : UInt16) :
    (port ^^^ (0x2112 : UInt16)) ^^^ (stunMagicCookie >>> 16).toUInt16 = port := by
  rw [show (stunMagicCookie >>> 16).toUInt16 = 0x2112 by decide, UInt16.xor_assoc, UInt16.xor_self,
    UInt16.xor_zero]

theorem xorFrom_xorInto {n : Nat} (octets : Bytes n) (mask : List UInt8)
    (h : (xorInto octets.toList mask).length = n) :
    (⟨xorInto octets.toList mask, h⟩ : Bytes n).xorFrom 0 mask = octets := by
  obtain ⟨octets, hlength⟩ := octets
  simp only [Bytes.xorFrom, List.take_zero, List.drop_zero, List.nil_append, xorInto_xorInto]

theorem xorFrom_xorFrom_xorInto (octets : Bytes 16) (transactionId : Bytes 12)
    (h : (xorInto octets.toList (u32ToBe stunMagicCookie ++ transactionId.toList)).length = 16) :
    ((⟨xorInto octets.toList (u32ToBe stunMagicCookie ++ transactionId.toList), h⟩ :
      Bytes 16).xorFrom 0 (u32ToBe stunMagicCookie)).xorFrom 4 transactionId.toList = octets := by
  obtain ⟨octets, hlength⟩ := octets
  let masked := xorInto octets (u32ToBe stunMagicCookie ++ transactionId.toList)
  have hboth : xorInto masked (u32ToBe stunMagicCookie ++ transactionId.toList) =
      (xorInto masked (u32ToBe stunMagicCookie)).take 4 ++
        xorInto (masked.drop 4) transactionId.toList :=
    xorInto_append (by rw [h, length_u32ToBe]; decide) transactionId.toList
  have hdrop : (xorInto masked (u32ToBe stunMagicCookie)).drop 4 = masked.drop 4 :=
    drop_xorInto masked (u32ToBe stunMagicCookie)
  rw [xorInto_xorInto, ← hdrop] at hboth
  simp only [Bytes.xorFrom, List.take_zero, List.drop_zero, List.nil_append]
  congr 1
  exact hboth.symm

theorem readAddress_of_xorMaps (h : xorMappedAddressBytes transactionId address <+: value) :
    readAddress value true transactionId = .ok address := by
  obtain ⟨rest, rfl⟩ := h
  obtain ⟨ip, port⟩ := address
  obtain ⟨b, c, hbytes, hport⟩ := exists_u16ToBe (port ^^^ 0x2112)
  cases ip with
  | v4 octets =>
    have hlength : (xorInto octets.toList (u32ToBe stunMagicCookie)).length = 4 := by
      rw [length_xorInto, octets.length_eq]
    have hread := parseStunAddress_v4 b c ⟨_, hlength⟩ rest true transactionId
    simp only [xorMappedAddressBytes, hbytes, List.cons_append, List.nil_append, readAddress, hread,
      Option.getD_some, if_true, hport, xorPort_xorPort, xorFrom_xorInto]
  | v6 octets =>
    have hlength : (xorInto octets.toList
        (u32ToBe stunMagicCookie ++ transactionId.toList)).length = 16 := by
      rw [length_xorInto, octets.length_eq]
    have hread := parseStunAddress_v6 b c ⟨_, hlength⟩ rest true transactionId
    simp only [xorMappedAddressBytes, hbytes, List.cons_append, List.nil_append, readAddress, hread,
      Option.getD_some, if_true, hport, xorPort_xorPort, xorFrom_xorFrom_xorInto]

/-- The bytes of an attribute as a reader splits them. -/
theorem exists_attribute_bytes {a : StunAttribute} (h : a.value.length < 65536)
    (rest : List UInt8) :
    ∃ t u l m, a.bytes ++ rest = t :: u :: l :: m :: (a.value ++ (a.padding ++ rest)) ∧
      u16FromBe t u = a.attrType ∧ (u16FromBe l m).toNat = a.value.length := by
  obtain ⟨t, u, htype, hattrType⟩ := exists_u16ToBe a.attrType
  obtain ⟨l, m, hlength, hvalueLength⟩ := exists_u16ToBe (UInt16.ofNat a.value.length)
  refine ⟨t, u, l, m, ?_, hattrType, ?_⟩
  · simp only [StunAttribute.bytes, htype, hlength, List.cons_append, List.nil_append,
      List.append_assoc]
  · rw [hvalueLength, UInt16.toNat_ofNat', Nat.mod_eq_of_lt h]

theorem paddedStunAttrLen_attribute (a : StunAttribute) :
    paddedStunAttrLen a.value.length = (a.value ++ a.padding).length := by
  rw [List.length_append, a.padded, paddedStunAttrLen]
  omega

theorem drop_attribute (a : StunAttribute) (rest : List UInt8) :
    (a.value ++ (a.padding ++ rest)).drop (paddedStunAttrLen a.value.length) = rest := by
  rw [paddedStunAttrLen_attribute, ← List.append_assoc, List.drop_left' rfl]

theorem not_length_attribute_lt (a : StunAttribute) (rest : List UInt8) :
    ¬ (a.value ++ (a.padding ++ rest)).length < a.value.length := by
  rw [List.length_append]
  omega

theorem readAttributes_attribute (a : StunAttribute) (mappedAddr : Option SocketAddr)
    (rest : List UInt8) (h : a.value.length < 65536) :
    readAttributes transactionId mappedAddr (a.bytes ++ rest) =
      if a.attrType = stunAttrXorMappedAddress then readAddress a.value true transactionId
      else if a.attrType = stunAttrMappedAddress then
        (readAddress a.value false transactionId).bind fun address =>
          readAttributes transactionId (some address) rest
      else readAttributes transactionId mappedAddr rest := by
  obtain ⟨t, u, l, m, hbytes, hattrType, hlength⟩ := exists_attribute_bytes h rest
  have htake : (a.value ++ (a.padding ++ rest)).take a.value.length = a.value :=
    List.take_left' rfl
  rw [hbytes, readAttributes]
  simp only [hlength, if_neg (not_length_attribute_lt a rest), htake, drop_attribute, hattrType]

/-- Attributes without a masked address leave the last plain one. -/
theorem readAttributes_mapped {attributes : List StunAttribute} {addresses : List SocketAddr}
    (hlength : ∀ a ∈ attributes, a.value.length < 65536)
    (hxor : ∀ a ∈ attributes, a.attrType ≠ stunAttrXorMappedAddress)
    (hmaps : List.Forall₂ StunAttribute.Maps (mappedAttributes attributes) addresses)
    (mappedAddr : Option SocketAddr) (rest : List UInt8) :
    readAttributes transactionId mappedAddr (stunAttributeBytes attributes ++ rest) =
      readAttributes transactionId (addresses.getLast?.or mappedAddr) rest := by
  induction attributes generalizing addresses mappedAddr with
  | nil =>
    cases hmaps
    rfl
  | cons a attributes ih =>
    have hlengths : ∀ b ∈ attributes, b.value.length < 65536 := fun b hb =>
      hlength b (List.mem_cons_of_mem a hb)
    have hxors : ∀ b ∈ attributes, b.attrType ≠ stunAttrXorMappedAddress := fun b hb =>
      hxor b (List.mem_cons_of_mem a hb)
    have hbytes : stunAttributeBytes (a :: attributes) ++ rest =
        a.bytes ++ (stunAttributeBytes attributes ++ rest) := by
      rw [stunAttributeBytes, List.flatMap_cons, List.append_assoc]
      rfl
    rw [hbytes, readAttributes_attribute a _ _ (hlength a List.mem_cons_self),
      if_neg (hxor a List.mem_cons_self)]
    by_cases hmapped : a.attrType = stunAttrMappedAddress
    · rw [mappedAttributes, List.filter_cons_of_pos (by simpa using hmapped)] at hmaps
      obtain ⟨address, addresses, ha, hrest, rfl⟩ := List.forall₂_cons_left_iff.mp hmaps
      rw [if_pos hmapped, readAddress_of_maps ha, Except.bind, ih hlengths hxors hrest, List.getLast?_cons]
      cases addresses.getLast? with
      | none => rfl
      | some last => rfl
    · rw [mappedAttributes, List.filter_cons_of_neg (by simpa using hmapped)] at hmaps
      rw [if_neg hmapped, ih hlengths hxors hmaps]

theorem length_value_lt {attributes : List StunAttribute}
    (h : (stunAttributeBytes attributes).length < 65536) :
    ∀ a ∈ attributes, a.value.length < 65536 := by
  intro a ha
  obtain ⟨before, after, rfl⟩ := List.append_of_mem ha
  simp only [stunAttributeBytes, List.flatMap_append, List.flatMap_cons, List.length_append,
    StunAttribute.bytes] at h
  omega

theorem length_stunHeader (messageType messageLength : UInt16) (magicCookie : UInt32)
    (transactionId : Bytes 12) :
    (stunHeader messageType messageLength magicCookie transactionId).length = 20 := by
  simp only [stunHeader, List.length_append, length_u16ToBe, length_u32ToBe,
    transactionId.length_eq]

/-- The bytes of the header as the parser reads them. -/
theorem exists_stunHeader_bytes (messageType messageLength : UInt16) (magicCookie : UInt32)
    (id : Bytes 12) (rest : List UInt8) :
    ∃ b0 b1 b2 b3 b4 b5 b6 b7,
      stunHeader messageType messageLength magicCookie id ++ rest =
        [b0, b1, b2, b3, b4, b5, b6, b7] ++ (id.toList ++ rest) ∧
      u16FromBe b0 b1 = messageType ∧ u16FromBe b2 b3 = messageLength ∧
      u32FromBe b4 b5 b6 b7 = magicCookie := by
  obtain ⟨b0, b1, htype, hmessageType⟩ := exists_u16ToBe messageType
  obtain ⟨b2, b3, hlength, hmessageLength⟩ := exists_u16ToBe messageLength
  obtain ⟨b4, b5, b6, b7, hcookie, hmagicCookie⟩ := exists_u32ToBe magicCookie
  refine ⟨b0, b1, b2, b3, b4, b5, b6, b7, ?_, hmessageType, hmessageLength, hmagicCookie⟩
  simp only [stunHeader, htype, hlength, hcookie, List.cons_append, List.nil_append]

theorem parseStunBindingResponse_header (messageType messageLength : UInt16) (magicCookie : UInt32)
    (id transactionId : Bytes 12) (rest : List UInt8) :
    parseStunBindingResponse (stunHeader messageType messageLength magicCookie id ++ rest)
      transactionId = some (
        if messageType ≠ stunBindingSuccessResponse then
          .error ("unexpected STUN response type 0x" ++ lowerHex 4 messageType.toNat)
        else if rest.length < messageLength.toNat then .error "truncated STUN response"
        else if magicCookie ≠ stunMagicCookie then .error "unexpected STUN magic cookie"
        else if id ≠ transactionId then .error "STUN transaction id mismatch"
        else readAttributes transactionId none (rest.take messageLength.toNat)) := by
  obtain ⟨b0, b1, b2, b3, b4, b5, b6, b7, hbytes, hmessageType, hmessageLength, hmagicCookie⟩ :=
    exists_stunHeader_bytes messageType messageLength magicCookie id rest
  have hsize : (stunHeader messageType messageLength magicCookie id ++ rest).length =
      20 + rest.length := by
    rw [List.length_append, length_stunHeader]
  generalize stunHeader messageType messageLength magicCookie id ++ rest = response at hbytes hsize ⊢
  have hdrop : response.drop 8 = id.toList ++ rest := by
    rw [hbytes]
    exact List.drop_left' rfl
  have hid : slice? response 8 20 = some id.toList := by
    rw [slice?_of_le (by decide) (by omega), hdrop]
    exact congrArg some (List.take_left' id.length_eq)
  have hattrs (h : ¬ rest.length < messageLength.toNat) :
      slice? response 20 (20 + messageLength.toNat) = some (rest.take messageLength.toNat) := by
    rw [slice?_of_le (by omega) (by omega), Nat.add_sub_cancel_left,
      show response.drop 20 = (response.drop 8).drop 12 by rw [List.drop_drop], hdrop,
      List.drop_left' id.length_eq]
  have hlong : ¬ response.length < 20 := by omega
  have hcut : response.length < 20 + messageLength.toNat ↔ rest.length < messageLength.toNat := by
    omega
  have hsame : id.toList = transactionId.toList ↔ id = transactionId := Bytes.ext_iff.symm
  have hfront : ∀ i < 8, response[i]? = [b0, b1, b2, b3, b4, b5, b6, b7][i]? := by
    intro i hi
    rw [hbytes, List.getElem?_append_left hi]
  rw [parseStunBindingResponse, if_neg hlong, hfront 0 (by decide), hfront 1 (by decide),
    hfront 2 (by decide), hfront 3 (by decide), hfront 4 (by decide), hfront 5 (by decide),
    hfront 6 (by decide), hfront 7 (by decide)]
  simp -implicitDefEqProofs only [List.getElem?_cons_zero, List.getElem?_cons_succ,
    Option.bind_eq_bind, Option.bind_some, Option.pure_def, hmessageType, hmessageLength,
    hmagicCookie]
  by_cases hsuccess : messageType ≠ stunBindingSuccessResponse
  · rw [if_pos hsuccess, if_pos hsuccess]
  rw [if_neg hsuccess, if_neg hsuccess]
  by_cases hshort : rest.length < messageLength.toNat
  · rw [if_pos hshort, if_pos (hcut.mpr hshort)]
  rw [if_neg hshort, if_neg (mt hcut.mp hshort)]
  by_cases hmagic : magicCookie ≠ stunMagicCookie
  · rw [if_pos hmagic, if_pos hmagic]
  rw [if_neg hmagic, if_neg hmagic, hid, hattrs hshort]
  simp only [Option.bind_some, ne_eq, hsame]
  by_cases hother : ¬ id = transactionId
  · rw [if_pos hother, if_pos hother]
  · rw [if_neg hother, if_neg hother, parseStunAttributes_eq, List.drop_zero]

theorem parseStunBindingResponse_success {attributes : List StunAttribute}
    (h : (stunAttributeBytes attributes).length < 65536) (transactionId : Bytes 12)
    (trailing : List UInt8) :
    parseStunBindingResponse (stunBindingSuccess transactionId attributes trailing) transactionId =
      some (readAttributes transactionId none (stunAttributeBytes attributes)) := by
  have hlength : (UInt16.ofNat (stunAttributeBytes attributes).length).toNat =
      (stunAttributeBytes attributes).length := by
    rw [UInt16.toNat_ofNat', Nat.mod_eq_of_lt h]
  have hlong : ¬ (stunAttributeBytes attributes ++ trailing).length <
      (stunAttributeBytes attributes).length := by
    rw [List.length_append]
    omega
  rw [stunBindingSuccess, parseStunBindingResponse_header, if_neg (not_not_intro rfl), hlength,
    if_neg hlong, if_neg (not_not_intro rfl), if_neg (not_not_intro rfl), List.take_left' rfl]

theorem parseStunBindingResponse_xorMapped {before after : List StunAttribute}
    {xorMapped : StunAttribute} {addresses : List SocketAddr}
    (hlength : (stunAttributeBytes (before ++ xorMapped :: after)).length < 65536)
    (hxor : ∀ a ∈ before, a.attrType ≠ stunAttrXorMappedAddress)
    (hmaps : List.Forall₂ StunAttribute.Maps (mappedAttributes before) addresses)
    (htype : xorMapped.attrType = stunAttrXorMappedAddress)
    (haddress : xorMapped.XorMaps transactionId address) (trailing : List UInt8) :
    parseStunBindingResponse
      (stunBindingSuccess transactionId (before ++ xorMapped :: after) trailing) transactionId =
        some (.ok address) := by
  have hlengths := length_value_lt hlength
  have hbytes : stunAttributeBytes (before ++ xorMapped :: after) =
      stunAttributeBytes before ++ (xorMapped.bytes ++ stunAttributeBytes after) := by
    simp only [stunAttributeBytes, List.flatMap_append, List.flatMap_cons]
  have hbefore : ∀ a ∈ before, a.value.length < 65536 := fun a ha =>
    hlengths a (List.mem_append_left _ ha)
  have hone : xorMapped.value.length < 65536 :=
    hlengths xorMapped (List.mem_append_right _ List.mem_cons_self)
  rw [parseStunBindingResponse_success hlength, hbytes, readAttributes_mapped hbefore hxor hmaps,
    readAttributes_attribute xorMapped _ _ hone, if_pos htype, readAddress_of_xorMaps haddress]

theorem parseStunBindingResponse_mapped {attributes : List StunAttribute}
    {addresses : List SocketAddr} (hlength : (stunAttributeBytes attributes).length < 65536)
    (hxor : ∀ a ∈ attributes, a.attrType ≠ stunAttrXorMappedAddress)
    (hmaps : List.Forall₂ StunAttribute.Maps (mappedAttributes attributes) addresses)
    (transactionId : Bytes 12) (trailing : List UInt8) :
    parseStunBindingResponse (stunBindingSuccess transactionId attributes trailing)
      transactionId = some (mappedResult addresses.getLast?) := by
  have hread := @readAttributes_mapped transactionId _ _ (length_value_lt hlength) hxor hmaps
    none []
  rw [List.append_nil, Option.or_none] at hread
  have hend : ([] : List UInt8).length < 4 := by decide
  rw [parseStunBindingResponse_success hlength, hread, readAttributes_of_short hend]

theorem parseStunBindingResponse_other {messageType messageLength : UInt16} {magicCookie : UInt32}
    {id transactionId : Bytes 12}
    (h : messageType ≠ stunBindingSuccessResponse ∨ magicCookie ≠ stunMagicCookie ∨
      id ≠ transactionId) (rest : List UInt8) :
    ∃ error, parseStunBindingResponse
      (stunHeader messageType messageLength magicCookie id ++ rest) transactionId =
        some (.error error) := by
  rw [parseStunBindingResponse_header]
  by_cases htype : messageType = stunBindingSuccessResponse
  · rw [if_neg (not_not_intro htype)]
    by_cases hshort : rest.length < messageLength.toNat
    · exact ⟨_, by rw [if_pos hshort]⟩
    rw [if_neg hshort]
    by_cases hcookie : magicCookie = stunMagicCookie
    · have hid : id ≠ transactionId := by
        rcases h with h | h | h
        · exact absurd htype h
        · exact absurd hcookie h
        · exact h
      exact ⟨_, by rw [if_neg (not_not_intro hcookie), if_pos hid]⟩
    · exact ⟨_, by rw [if_pos hcookie]⟩
  · exact ⟨_, by rw [if_pos htype]⟩

theorem stun_response_decoded (transactionId : Bytes 12) :
    (∀ before xorMapped after trailing address addresses,
      (stunAttributeBytes (before ++ xorMapped :: after)).length < 65536 →
      (∀ a ∈ before, a.attrType ≠ stunAttrXorMappedAddress) →
      List.Forall₂ StunAttribute.Maps (mappedAttributes before) addresses →
      xorMapped.attrType = stunAttrXorMappedAddress → xorMapped.XorMaps transactionId address →
      parseStunBindingResponse
        (stunBindingSuccess transactionId (before ++ xorMapped :: after) trailing) transactionId =
          some (.ok address)) ∧
    (∀ attributes trailing addresses, (stunAttributeBytes attributes).length < 65536 →
      (∀ a ∈ attributes, a.attrType ≠ stunAttrXorMappedAddress) →
      List.Forall₂ StunAttribute.Maps (mappedAttributes attributes) addresses →
      parseStunBindingResponse (stunBindingSuccess transactionId attributes trailing)
        transactionId = some (mappedResult addresses.getLast?)) ∧
    ∀ messageType messageLength magicCookie id rest,
      messageType ≠ stunBindingSuccessResponse ∨ magicCookie ≠ stunMagicCookie ∨
        id ≠ transactionId →
      ∃ error, parseStunBindingResponse
        (stunHeader messageType messageLength magicCookie id ++ rest) transactionId =
          some (.error error) := by
  refine ⟨?_, ?_, ?_⟩
  · intro before xorMapped after trailing address addresses hlength hxor hmaps htype haddress
    exact parseStunBindingResponse_xorMapped hlength hxor hmaps htype haddress trailing
  · intro attributes trailing addresses hlength hxor hmaps
    exact parseStunBindingResponse_mapped hlength hxor hmaps transactionId trailing
  · intro messageType messageLength magicCookie id rest hdiffers
    exact parseStunBindingResponse_other hdiffers rest

end

/-- The request the source's test answers, and an answer with an attribute of each kind. -/
def sampleTransaction : Bytes 12 := ⟨[1, 2, 3, 4, 5, 6, 7, 8, 9, 10, 11, 12], rfl⟩

def samplePublicAddress : SocketAddr := { ip := .v4 ⟨[203, 0, 113, 45], rfl⟩, port := 54321 }

def sampleMapped : StunAttribute where
  attrType := stunAttrMappedAddress
  value := mappedAddressBytes { ip := .v4 ⟨[10, 0, 0, 7], rfl⟩, port := 4001 }
  padding := []
  padded := by decide

def sampleXorMapped : StunAttribute where
  attrType := stunAttrXorMappedAddress
  value := xorMappedAddressBytes sampleTransaction samplePublicAddress
  padding := []
  padded := by decide

def sampleSoftware : StunAttribute where
  attrType := 0x8022
  value := [115, 116, 117, 110, 49]
  padding := [0, 0, 0]
  padded := by decide

theorem stun_response_decoded_sample :
    parseStunBindingResponse (stunBindingSuccess sampleTransaction
        ([sampleSoftware, sampleMapped] ++ sampleXorMapped :: [sampleMapped]) [9])
      sampleTransaction = some (.ok samplePublicAddress) ∧
    parseStunBindingResponse (stunBindingSuccess sampleTransaction [sampleMapped, sampleSoftware] [])
      sampleTransaction = some (.ok { ip := .v4 ⟨[10, 0, 0, 7], rfl⟩, port := 4001 }) := by
  obtain ⟨hxor, hmapped, _⟩ := stun_response_decoded sampleTransaction
  refine ⟨hxor _ _ _ _ _ [{ ip := .v4 ⟨[10, 0, 0, 7], rfl⟩, port := 4001 }] (by decide) (by decide)
    (.cons ⟨[], rfl⟩ .nil) rfl ⟨[], rfl⟩, hmapped _ _ [_] (by decide) (by decide)
    (.cons ⟨[], rfl⟩ .nil)⟩

end Voicers
