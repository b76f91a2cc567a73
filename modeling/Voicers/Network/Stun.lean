import Voicers.Lib.Bytes

/-! The answer of a STUN server (`network/stun.rs`). A read of a byte that is
not there would end the task: it is `none`. -/

namespace Voicers

open Lib

inductive IpAddr
  | v4 (octets : Bytes 4)
  | v6 (octets : Bytes 16)
deriving DecidableEq

structure SocketAddr where
  ip : IpAddr
  port : UInt16
deriving DecidableEq

def stunBindingSuccessResponse : UInt16 := 0x0101
def stunAttrMappedAddress : UInt16 := 0x0001
def stunAttrXorMappedAddress : UInt16 := 0x0020
def stunMagicCookie : UInt32 := 0x2112A442

/-- `{:0width$x}`. -/
def lowerHex (width n : Nat) : String := String.ofList ((Nat.toDigits 16 n).leftpad width '0')

/-- The length with its two low bits cleared after rounding up. -/
def paddedStunAttrLen (len : Nat) : Nat := (len + 3) / 4 * 4

def parseStunAddress (value : List UInt8) (xor : Bool) (transactionId : Bytes 12) :
    Option (Except String SocketAddr) :=
  if value.length < 4 then some (.error "invalid STUN address attribute")
  else do
    if (← value[0]?) ≠ 0 then
      return .error "invalid STUN address attribute"
    let family ← value[1]?
    let port := u16FromBe (← value[2]?) (← value[3]?)
    let port := if xor then port ^^^ (stunMagicCookie >>> 16).toUInt16 else port
    if family = 0x01 then
      if value.length < 8 then
        return .error "truncated STUN IPv4 address"
      let octets : Bytes 4 := ⟨[← value[4]?, ← value[5]?, ← value[6]?, ← value[7]?], rfl⟩
      let octets := if xor then octets.xorFrom 0 (u32ToBe stunMagicCookie) else octets
      return .ok { ip := .v4 octets, port := port }
    else if family = 0x02 then
      if value.length < 20 then
        return .error "truncated STUN IPv6 address"
      let octets : Bytes 16 ← (slice? value 4 20).bind Bytes.ofList?
      let octets := if xor then
          (octets.xorFrom 0 (u32ToBe stunMagicCookie)).xorFrom 4 transactionId.toList
        else octets
      return .ok { ip := .v6 octets, port := port }
    else
      return .error ("unsupported STUN address family 0x" ++ lowerHex 2 family.toNat)

/-- What the loop ends with when no masked address came. -/
def mappedResult : Option SocketAddr → Except String SocketAddr
  | some address => .ok address
  | none => .error "STUN response did not include a mapped address"

/-- The loop over the attributes. -/
def parseStunAttributes (attrs : List UInt8) (transactionId : Bytes 12) (offset : Nat)
    (mappedAddr : Option SocketAddr) : Option (Except String SocketAddr) :=
  if offset + 4 ≤ attrs.length then do
    let attrType := u16FromBe (← attrs[offset]?) (← attrs[offset + 1]?)
    let attrLen := (u16FromBe (← attrs[offset + 2]?) (← attrs[offset + 3]?)).toNat
    let valueStart := offset + 4
    let valueEnd := valueStart + attrLen
    if attrs.length < valueEnd then some (.error "truncated STUN attribute")
    else
      let value ← slice? attrs valueStart valueEnd
      let next := valueStart + paddedStunAttrLen attrLen
      if attrType = stunAttrXorMappedAddress then parseStunAddress value true transactionId
      else if attrType = stunAttrMappedAddress then
        match ← parseStunAddress value false transactionId with
        | .error error => some (.error error)
        | .ok address => parseStunAttributes attrs transactionId next (some address)
      else parseStunAttributes attrs transactionId next mappedAddr
  else some (mappedResult mappedAddr)
termination_by attrs.length - offset

def parseStunBindingResponse (response : List UInt8) (transactionId : Bytes 12) :
    Option (Except String SocketAddr) :=
  if response.length < 20 then some (.error "STUN response is shorter than the header")
  else do
    let messageType := u16FromBe (← response[0]?) (← response[1]?)
    if messageType ≠ stunBindingSuccessResponse then
      return .error ("unexpected STUN response type 0x" ++ lowerHex 4 messageType.toNat)
    let messageLength := (u16FromBe (← response[2]?) (← response[3]?)).toNat
    if response.length < 20 + messageLength then
      return .error "truncated STUN response"
    let magicCookie := u32FromBe (← response[4]?) (← response[5]?) (← response[6]?) (← response[7]?)
    if magicCookie ≠ stunMagicCookie then
      return .error "unexpected STUN magic cookie"
    if (← slice? response 8 20) ≠ transactionId.toList then
      return .error "STUN transaction id mismatch"
    parseStunAttributes (← slice? response 20 (20 + messageLength)) transactionId 0 none

/-- What the value of an address attribute says. -/
def readAddress (value : List UInt8) (xor : Bool) (transactionId : Bytes 12) :
    Except String SocketAddr :=
  (parseStunAddress value xor transactionId).getD (.error "")

/-- The loop on the attributes that are left, none of which it reads beyond its end. -/
def readAttributes (transactionId : Bytes 12) (mappedAddr : Option SocketAddr) :
    List UInt8 → Except String SocketAddr
  | t :: u :: l :: m :: rest =>
    let attrLen := (u16FromBe l m).toNat
    if rest.length < attrLen then .error "truncated STUN attribute"
    else if u16FromBe t u = stunAttrXorMappedAddress then
      readAddress (rest.take attrLen) true transactionId
    else if u16FromBe t u = stunAttrMappedAddress then
      (readAddress (rest.take attrLen) false transactionId).bind fun address =>
        readAttributes transactionId (some address) (rest.drop (paddedStunAttrLen attrLen))
    else readAttributes transactionId mappedAddr (rest.drop (paddedStunAttrLen attrLen))
  | _ => mappedResult mappedAddr
termination_by attrs => attrs.length
decreasing_by all_goals simp only [List.length_drop, List.length_cons]; omega

section

variable {transactionId : Bytes 12} {mappedAddr : Option SocketAddr}

theorem exists_four_of_length {bytes : List UInt8} (h : 4 ≤ bytes.length) :
    ∃ b c d e rest, bytes = b :: c :: d :: e :: rest := by
  rcases bytes with _ | ⟨b, _ | ⟨c, _ | ⟨d, _ | ⟨e, rest⟩⟩⟩⟩
  · simp at h
  · simp at h
  · simp at h
  · simp at h
  · exact ⟨b, c, d, e, rest, rfl⟩

theorem parseStunAddress_v4 (b c : UInt8) (octets : Bytes 4) (rest : List UInt8) (xor : Bool)
    (transactionId : Bytes 12) :
    parseStunAddress (0 :: 1 :: b :: c :: (octets.toList ++ rest)) xor transactionId =
      some (.ok
        { ip := .v4 (if xor then octets.xorFrom 0 (u32ToBe stunMagicCookie) else octets)
          port := if xor then u16FromBe b c ^^^ (stunMagicCookie >>> 16).toUInt16
            else u16FromBe b c }) := by
  obtain ⟨octets, hoctets⟩ := octets
  obtain ⟨d, e, f, g, more, rfl⟩ := exists_four_of_length (Nat.le_of_eq hoctets.symm)
  obtain rfl : more = [] := List.eq_nil_of_length_eq_zero (by simpa using hoctets)
  have hlong : ¬ (0 :: 1 :: b :: c :: d :: e :: f :: g :: rest).length < 8 := by
    simp only [List.length_cons]
    omega
  have hheader : ¬ (0 :: 1 :: b :: c :: d :: e :: f :: g :: rest).length < 4 := by omega
  change parseStunAddress (0 :: 1 :: b :: c :: d :: e :: f :: g :: rest) xor transactionId = _
  rw [parseStunAddress, if_neg hheader]
  simp only [List.getElem?_cons_zero, List.getElem?_cons_succ, Option.bind_eq_bind,
    Option.bind_some, ne_eq, not_true_eq_false, if_false, if_true, if_neg hlong, Option.pure_def]

theorem parseStunAddress_v6 (b c : UInt8) (octets : Bytes 16) (rest : List UInt8) (xor : Bool)
    (transactionId : Bytes 12) :
    parseStunAddress (0 :: 2 :: b :: c :: (octets.toList ++ rest)) xor transactionId =
      some (.ok
        { ip := .v6 (if xor then
            (octets.xorFrom 0 (u32ToBe stunMagicCookie)).xorFrom 4 transactionId.toList
          else octets)
          port := if xor then u16FromBe b c ^^^ (stunMagicCookie >>> 16).toUInt16
            else u16FromBe b c }) := by
  have hslice : (slice? (0 :: 2 :: b :: c :: (octets.toList ++ rest)) 4 20).bind Bytes.ofList? =
      some octets := by
    rw [slice?_of_le (by decide) (by simp [octets.length_eq])]
    have htake : (octets.toList ++ rest).take 16 = octets.toList :=
      List.take_left' octets.length_eq
    simp only [List.drop_succ_cons, List.drop_zero, Nat.reduceSub, htake, Option.bind_some,
      Bytes.ofList?, octets.length_eq, dite_true]
  have hlong : ¬ (0 :: 2 :: b :: c :: (octets.toList ++ rest)).length < 20 := by
    simp only [List.length_cons, List.length_append, octets.length_eq]
    omega
  have hheader : ¬ (0 :: 2 :: b :: c :: (octets.toList ++ rest)).length < 4 := by omega
  have hfamily : ¬ (2 : UInt8) = 1 := by decide
  rw [parseStunAddress, if_neg hheader]
  simp only [List.getElem?_cons_zero, List.getElem?_cons_succ, Option.bind_eq_bind,
    Option.bind_some, ne_eq, not_true_eq_false, if_false, if_true, if_neg hfamily, if_neg hlong,
    hslice, Option.pure_def]

theorem parseStunAddress_eq (value : List UInt8) (xor : Bool) (transactionId : Bytes 12) :
    parseStunAddress value xor transactionId = some (readAddress value xor transactionId) := by
  have hsome : ∃ result, parseStunAddress value xor transactionId = some result := by
    by_cases hshort : value.length < 4
    · exact ⟨_, if_pos hshort⟩
    obtain ⟨b, family, d, e, rest, rfl⟩ := exists_four_of_length (Nat.not_lt.mp hshort)
    by_cases hzero : b = 0
    · subst hzero
      by_cases hv4 : family = 1
      · subst hv4
        by_cases hcut : rest.length < 4
        · refine ⟨.error "truncated STUN IPv4 address", ?_⟩
          simp [parseStunAddress]
          rw [if_neg (by omega), if_pos (by omega)]
        · obtain ⟨f, g, h, i, rest, rfl⟩ := exists_four_of_length (Nat.not_lt.mp hcut)
          exact ⟨_, parseStunAddress_v4 d e ⟨[f, g, h, i], rfl⟩ rest xor transactionId⟩
      · by_cases hv6 : family = 2
        · subst hv6
          by_cases hcut : rest.length < 16
          · refine ⟨.error "truncated STUN IPv6 address", ?_⟩
            simp [parseStunAddress]
            rw [if_neg (by omega), if_pos (by omega)]
          · have hlength : (rest.take 16).length = 16 := by
              rw [List.length_take]
              omega
            have hread := parseStunAddress_v6 d e ⟨rest.take 16, hlength⟩ (rest.drop 16) xor
              transactionId
            rw [List.take_append_drop] at hread
            exact ⟨_, hread⟩
        · exact ⟨_, by simp [parseStunAddress, hv4, hv6]; rfl⟩
    · exact ⟨.error "invalid STUN address attribute", by simp [parseStunAddress, hzero]⟩
  obtain ⟨result, hresult⟩ := hsome
  rw [readAddress, hresult]
  rfl

theorem readAttributes_of_short {attrs : List UInt8} (h : attrs.length < 4) :
    readAttributes transactionId mappedAddr attrs = mappedResult mappedAddr := by
  rw [readAttributes.eq_def]
  rcases attrs with _ | ⟨t, _ | ⟨u, _ | ⟨l, _ | ⟨m, rest⟩⟩⟩⟩
  · rfl
  · rfl
  · rfl
  · rfl
  · simp only [List.length_cons] at h
    omega

/-- The loop reads no byte that is not there, and ends. -/
theorem parseStunAttributes_eq (attrs : List UInt8) (transactionId : Bytes 12) (offset : Nat)
    (mappedAddr : Option SocketAddr) :
    parseStunAttributes attrs transactionId offset mappedAddr =
      some (readAttributes transactionId mappedAddr (attrs.drop offset)) := by
  induction hleft : attrs.length - offset using Nat.strongRecOn generalizing offset mappedAddr with
  | _ left ih =>
    rw [parseStunAttributes.eq_def]
    by_cases hmore : offset + 4 ≤ attrs.length
    · rw [if_pos hmore]
      obtain ⟨t, u, l, m, rest, hdrop⟩ := exists_four_of_length
        (show 4 ≤ (attrs.drop offset).length by rw [List.length_drop]; omega)
      have hbyte : ∀ i, attrs[offset + i]? = (t :: u :: l :: m :: rest)[i]? := by
        intro i
        rw [← hdrop, List.getElem?_drop]
      have hrest : attrs.drop (offset + 4) = rest := by
        rw [← List.drop_drop, hdrop]
        rfl
      have hlength : rest.length = attrs.length - (offset + 4) := by
        rw [← hrest, List.length_drop]
      have hnext : attrs.drop (offset + 4 + paddedStunAttrLen (u16FromBe l m).toNat) =
          rest.drop (paddedStunAttrLen (u16FromBe l m).toNat) := by
        rw [← List.drop_drop, hrest]
      have hrun : ∀ mapped, parseStunAttributes attrs transactionId
          (offset + 4 + paddedStunAttrLen (u16FromBe l m).toNat) mapped =
            some (readAttributes transactionId mapped
              (rest.drop (paddedStunAttrLen (u16FromBe l m).toNat))) := by
        intro mapped
        rw [ih _ (by omega) _ mapped rfl, hnext]
      rw [show attrs[offset]? = some t from hbyte 0, show attrs[offset + 1]? = some u from hbyte 1,
        show attrs[offset + 2]? = some l from hbyte 2,
        show attrs[offset + 3]? = some m from hbyte 3, hdrop, readAttributes]
      simp only [Option.bind_eq_bind, Option.bind_some, hrun, parseStunAddress_eq]
      by_cases hcut : rest.length < (u16FromBe l m).toNat
      · rw [if_pos hcut, if_pos (by omega)]
      · rw [if_neg hcut, if_neg (by omega), slice?_of_le (by omega) (by omega), hrest,
          Nat.add_sub_cancel_left]
        simp only [Option.bind_some]
        by_cases hxor : u16FromBe t u = stunAttrXorMappedAddress
        · rw [if_pos hxor, if_pos hxor]
        · rw [if_neg hxor, if_neg hxor]
          by_cases hmapped : u16FromBe t u = stunAttrMappedAddress
          · rw [if_pos hmapped, if_pos hmapped]
            cases readAddress (rest.take (u16FromBe l m).toNat) false transactionId with
            | error error => rfl
            | ok address => rfl
          · rw [if_neg hmapped, if_neg hmapped]
    · rw [if_neg hmore]
      have hshort : (attrs.drop offset).length < 4 := by
        rw [List.length_drop]
        omega
      rw [readAttributes_of_short hshort]

end

end Voicers
