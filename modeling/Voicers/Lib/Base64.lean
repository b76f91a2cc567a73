import Mathlib.Data.List.Basic

/-! Base64 without padding, over the alphabet that is safe in file names and
URLs. A decoder of canonical text: bits beyond the last byte must be zero. -/

namespace Lib.Base64

def alphabet : List Char := "ABCDEFGHIJKLMNOPQRSTUVWXYZabcdefghijklmnopqrstuvwxyz0123456789-_".toList

def symbol (value : Nat) : Char := alphabet.getD value 'A'

def value (symbol : Char) : Option Nat := alphabet.findIdx? (· = symbol)

theorem value_symbol {n : Nat} (h : n < 64) : value (symbol n) = some n := by
  have hall : ∀ i : Fin 64, value (symbol i) = some i.val := by decide +kernel
  exact hall ⟨n, h⟩

def encode : List UInt8 → List Char
  | [] => []
  | [a] => [symbol (a.toNat / 4), symbol (a.toNat % 4 * 16)]
  | [a, b] =>
    [symbol (a.toNat / 4), symbol (a.toNat % 4 * 16 + b.toNat / 16), symbol (b.toNat % 16 * 4)]
  | a :: b :: c :: rest =>
    symbol (a.toNat / 4) :: symbol (a.toNat % 4 * 16 + b.toNat / 16) ::
      symbol (b.toNat % 16 * 4 + c.toNat / 64) :: symbol (c.toNat % 64) :: encode rest

/-- The bytes of the values of two, three or four symbols. -/
def pair (w x : Nat) : Option (List UInt8) :=
  if x % 16 = 0 then some [UInt8.ofNat (w * 4 + x / 16)] else none

def triple (w x y : Nat) : Option (List UInt8) :=
  if y % 4 = 0 then
    some [UInt8.ofNat (w * 4 + x / 16), UInt8.ofNat (x % 16 * 16 + y / 4)]
  else none

def quad (w x y z : Nat) : List UInt8 :=
  [UInt8.ofNat (w * 4 + x / 16), UInt8.ofNat (x % 16 * 16 + y / 4), UInt8.ofNat (y % 4 * 64 + z)]

def decode : List Char → Option (List UInt8)
  | [] => some []
  | [_] => none
  | [a, b] => do pair (← value a) (← value b)
  | [a, b, c] => do triple (← value a) (← value b) (← value c)
  | a :: b :: c :: d :: rest => do
    let first := quad (← value a) (← value b) (← value c) (← value d)
    return first ++ (← decode rest)

theorem ofNat_eq {a : UInt8} {n : Nat} (h : n = a.toNat) : UInt8.ofNat n = a := by
  rw [h]
  exact UInt8.ofNat_toNat

theorem pair_split (a : UInt8) : pair (a.toNat / 4) (a.toNat % 4 * 16) = some [a] := by
  have ha : UInt8.ofNat (a.toNat / 4 * 4 + a.toNat % 4 * 16 / 16) = a := ofNat_eq (by omega)
  rw [pair, if_pos (by omega), ha]

theorem triple_split (a b : UInt8) :
    triple (a.toNat / 4) (a.toNat % 4 * 16 + b.toNat / 16) (b.toNat % 16 * 4) = some [a, b] := by
  have hlt := b.toNat_lt
  have ha : UInt8.ofNat (a.toNat / 4 * 4 + (a.toNat % 4 * 16 + b.toNat / 16) / 16) = a :=
    ofNat_eq (by omega)
  have hb : UInt8.ofNat ((a.toNat % 4 * 16 + b.toNat / 16) % 16 * 16 + b.toNat % 16 * 4 / 4) = b :=
    ofNat_eq (by omega)
  rw [triple, if_pos (by omega), ha, hb]

theorem quad_split (a b c : UInt8) :
    quad (a.toNat / 4) (a.toNat % 4 * 16 + b.toNat / 16) (b.toNat % 16 * 4 + c.toNat / 64)
      (c.toNat % 64) = [a, b, c] := by
  have hb := b.toNat_lt
  have hc := c.toNat_lt
  have hfirst : UInt8.ofNat (a.toNat / 4 * 4 + (a.toNat % 4 * 16 + b.toNat / 16) / 16) = a :=
    ofNat_eq (by omega)
  have hsecond : UInt8.ofNat ((a.toNat % 4 * 16 + b.toNat / 16) % 16 * 16 +
      (b.toNat % 16 * 4 + c.toNat / 64) / 4) = b := ofNat_eq (by omega)
  have hthird : UInt8.ofNat ((b.toNat % 16 * 4 + c.toNat / 64) % 4 * 64 + c.toNat % 64) = c :=
    ofNat_eq (by omega)
  rw [quad, hfirst, hsecond, hthird]

theorem decode_encode (bytes : List UInt8) : decode (encode bytes) = some bytes := by
  induction bytes using encode.induct with
  | case1 => rfl
  | case2 a =>
    have ha := a.toNat_lt
    simp only [encode, decode, value_symbol (show a.toNat / 4 < 64 by omega),
      value_symbol (show a.toNat % 4 * 16 < 64 by omega), Option.bind_eq_bind, Option.bind_some,
      pair_split]
  | case3 a b =>
    have ha := a.toNat_lt
    have hb := b.toNat_lt
    simp only [encode, decode, value_symbol (show a.toNat / 4 < 64 by omega),
      value_symbol (show a.toNat % 4 * 16 + b.toNat / 16 < 64 by omega),
      value_symbol (show b.toNat % 16 * 4 < 64 by omega), Option.bind_eq_bind, Option.bind_some,
      triple_split]
  | case4 a b c rest ih =>
    have ha := a.toNat_lt
    have hb := b.toNat_lt
    have hc := c.toNat_lt
    simp only [encode, decode, value_symbol (show a.toNat / 4 < 64 by omega),
      value_symbol (show a.toNat % 4 * 16 + b.toNat / 16 < 64 by omega),
      value_symbol (show b.toNat % 16 * 4 + c.toNat / 64 < 64 by omega),
      value_symbol (show c.toNat % 64 < 64 by omega), Option.bind_eq_bind, Option.bind_some,
      quad_split, ih]
    rfl

theorem toNat_ofNat {n : Nat} (h : n < 256) : (UInt8.ofNat n).toNat = n :=
  UInt8.toNat_ofNat_of_lt' h

theorem symbol_value {c : Char} {n : Nat} (h : value c = some n) : n < 64 ∧ symbol n = c := by
  obtain ⟨hlt, hc, _⟩ := List.findIdx?_eq_some_iff_getElem.mp h
  refine ⟨hlt, ?_⟩
  have hsymbol : symbol n = alphabet[n] := by
    rw [symbol, List.getD_eq_getElem?_getD, List.getElem?_eq_getElem hlt, Option.getD_some]
  exact hsymbol.trans (of_decide_eq_true hc)

theorem encode_of_pair {w x : Nat} {bytes : List UInt8} (hw : w < 64) (hx : x < 64)
    (h : pair w x = some bytes) : encode bytes = [symbol w, symbol x] := by
  obtain ⟨hzero, heq⟩ := Option.ite_none_right_eq_some.mp h
  obtain rfl := Option.some.inj heq
  have ha : (UInt8.ofNat (w * 4 + x / 16)).toNat = w * 4 + x / 16 :=
    toNat_ofNat (by omega)
  have hfirst : (w * 4 + x / 16) / 4 = w := by omega
  have hlast : (w * 4 + x / 16) % 4 * 16 = x := by omega
  rw [encode, ha, hfirst, hlast]

theorem encode_of_triple {w x y : Nat} {bytes : List UInt8} (hw : w < 64) (hx : x < 64)
    (hy : y < 64) (h : triple w x y = some bytes) :
    encode bytes = [symbol w, symbol x, symbol y] := by
  obtain ⟨hzero, heq⟩ := Option.ite_none_right_eq_some.mp h
  obtain rfl := Option.some.inj heq
  have ha : (UInt8.ofNat (w * 4 + x / 16)).toNat = w * 4 + x / 16 :=
    toNat_ofNat (by omega)
  have hb : (UInt8.ofNat (x % 16 * 16 + y / 4)).toNat = x % 16 * 16 + y / 4 :=
    toNat_ofNat (by omega)
  have hfirst : (w * 4 + x / 16) / 4 = w := by omega
  have hsecond : (w * 4 + x / 16) % 4 * 16 + (x % 16 * 16 + y / 4) / 16 = x := by omega
  have hlast : (x % 16 * 16 + y / 4) % 16 * 4 = y := by omega
  rw [encode, ha, hb, hfirst, hsecond, hlast]

theorem encode_quad_append {w x y z : Nat} (hw : w < 64) (hx : x < 64) (hy : y < 64) (hz : z < 64)
    (rest : List UInt8) : encode (quad w x y z ++ rest) =
      symbol w :: symbol x :: symbol y :: symbol z :: encode rest := by
  have ha : (UInt8.ofNat (w * 4 + x / 16)).toNat = w * 4 + x / 16 :=
    toNat_ofNat (by omega)
  have hb : (UInt8.ofNat (x % 16 * 16 + y / 4)).toNat = x % 16 * 16 + y / 4 :=
    toNat_ofNat (by omega)
  have hc : (UInt8.ofNat (y % 4 * 64 + z)).toNat = y % 4 * 64 + z :=
    toNat_ofNat (by omega)
  have hfirst : (w * 4 + x / 16) / 4 = w := by omega
  have hsecond : (w * 4 + x / 16) % 4 * 16 + (x % 16 * 16 + y / 4) / 16 = x := by omega
  have hthird : (x % 16 * 16 + y / 4) % 16 * 4 + (y % 4 * 64 + z) / 64 = y := by omega
  have hlast : (y % 4 * 64 + z) % 64 = z := by omega
  rw [quad]
  simp only [List.cons_append, List.nil_append, encode, ha, hb, hc, hfirst, hsecond, hthird, hlast]

/-- Text that decodes is the encoding of what it decodes to. -/
theorem encode_of_decode {text : List Char} {bytes : List UInt8} (h : decode text = some bytes) :
    encode bytes = text := by
  induction text using decode.induct generalizing bytes with
  | case1 =>
    obtain rfl := Option.some.inj h
    rfl
  | case2 a => cases h
  | case3 a b =>
    simp only [decode, Option.bind_eq_bind, Option.bind_eq_some_iff] at h
    obtain ⟨w, ha, x, hb, hpair⟩ := h
    obtain ⟨hw, rfl⟩ := symbol_value ha
    obtain ⟨hx, rfl⟩ := symbol_value hb
    exact encode_of_pair hw hx hpair
  | case4 a b c =>
    simp only [decode, Option.bind_eq_bind, Option.bind_eq_some_iff] at h
    obtain ⟨w, ha, x, hb, y, hc, htriple⟩ := h
    obtain ⟨hw, rfl⟩ := symbol_value ha
    obtain ⟨hx, rfl⟩ := symbol_value hb
    obtain ⟨hy, rfl⟩ := symbol_value hc
    exact encode_of_triple hw hx hy htriple
  | case5 a b c d rest ih =>
    simp only [decode, Option.bind_eq_bind, Option.bind_eq_some_iff] at h
    obtain ⟨w, ha, x, hb, y, hc, z, hd, last, hlast, heq⟩ := h
    obtain ⟨hw, rfl⟩ := symbol_value ha
    obtain ⟨hx, rfl⟩ := symbol_value hb
    obtain ⟨hy, rfl⟩ := symbol_value hc
    obtain ⟨hz, rfl⟩ := symbol_value hd
    obtain rfl := Option.some.inj heq
    rw [encode_quad_append hw hx hy hz, ih hlast]

theorem decode_eq_some_iff {text : List Char} {bytes : List UInt8} :
    decode text = some bytes ↔ text = encode bytes := by
  constructor
  · exact fun h => (encode_of_decode h).symm
  · rintro rfl
    exact decode_encode bytes

theorem length_lt_encode {bytes : List UInt8} (h : bytes ≠ []) :
    bytes.length < (encode bytes).length := by
  have hle : ∀ bytes : List UInt8, bytes.length ≤ (encode bytes).length := by
    intro bytes
    induction bytes using encode.induct with
    | case1 => exact Nat.le_refl 0
    | case2 a => simp [encode]
    | case3 a b => simp [encode]
    | case4 a b c rest ih =>
      simp only [encode, List.length_cons]
      omega
  match bytes with
  | [] => exact absurd rfl h
  | [a] => simp [encode]
  | [a, b] => simp [encode]
  | a :: b :: c :: rest =>
    have hrest := hle rest
    simp only [encode, List.length_cons]
    omega

theorem symbol_mem (n : Nat) : symbol n ∈ alphabet := by
  unfold symbol
  rw [List.getD_eq_getElem?_getD]
  cases h : alphabet[n]? with
  | none => decide +kernel
  | some c => exact List.mem_of_getElem? h

theorem encode_mem {bytes : List UInt8} {c : Char} (h : c ∈ encode bytes) : c ∈ alphabet := by
  induction bytes using encode.induct with
  | case1 => simp [encode] at h
  | case2 a =>
    simp only [encode, List.mem_cons, List.not_mem_nil, or_false] at h
    rcases h with rfl | rfl
    · exact symbol_mem _
    · exact symbol_mem _
  | case3 a b =>
    simp only [encode, List.mem_cons, List.not_mem_nil, or_false] at h
    rcases h with rfl | rfl | rfl
    · exact symbol_mem _
    · exact symbol_mem _
    · exact symbol_mem _
  | case4 a b d rest ih =>
    simp only [encode, List.mem_cons] at h
    rcases h with rfl | rfl | rfl | rfl | h
    · exact symbol_mem _
    · exact symbol_mem _
    · exact symbol_mem _
    · exact symbol_mem _
    · exact ih h

end Lib.Base64
