import Mathlib.Algebra.Group.Nat.Defs
import Mathlib.Data.List.Basic

/-! Numbers as bytes, the most significant first, byte strings of a fixed
length, and reads that stay inside a byte string. -/

namespace Lib

def u16FromBe (b c : UInt8) : UInt16 := UInt16.ofNat (b.toNat * 256 + c.toNat)

def u16ToBe (n : UInt16) : List UInt8 := [UInt8.ofNat (n.toNat / 256), UInt8.ofNat n.toNat]

def u32FromBe (b c d e : UInt8) : UInt32 :=
  UInt32.ofNat (b.toNat * 16777216 + c.toNat * 65536 + d.toNat * 256 + e.toNat)

def u32ToBe (n : UInt32) : List UInt8 :=
  [UInt8.ofNat (n.toNat / 16777216), UInt8.ofNat (n.toNat / 65536), UInt8.ofNat (n.toNat / 256),
    UInt8.ofNat n.toNat]

theorem length_u16ToBe (n : UInt16) : (u16ToBe n).length = 2 := rfl

theorem length_u32ToBe (n : UInt32) : (u32ToBe n).length = 4 := rfl

theorem exists_u16ToBe (n : UInt16) : ∃ b c, u16ToBe n = [b, c] ∧ u16FromBe b c = n := by
  have hlt := n.toNat_lt
  refine ⟨_, _, rfl, ?_⟩
  simp only [u16FromBe, UInt8.toNat_ofNat']
  rw [show n.toNat / 256 % 256 * 256 + n.toNat % 256 = n.toNat by omega, UInt16.ofNat_toNat]

theorem exists_u32ToBe (n : UInt32) :
    ∃ b c d e, u32ToBe n = [b, c, d, e] ∧ u32FromBe b c d e = n := by
  have hlt := n.toNat_lt
  refine ⟨_, _, _, _, rfl, ?_⟩
  simp only [u32FromBe, UInt8.toNat_ofNat']
  rw [show n.toNat / 16777216 % 256 * 16777216 + n.toNat / 65536 % 256 * 65536 +
    n.toNat / 256 % 256 * 256 + n.toNat % 256 = n.toNat by omega, UInt32.ofNat_toNat]

theorem ofNat_eq_of_mod {n : Nat} {b : UInt8} (h : n % 256 = b.toNat) : UInt8.ofNat n = b := by
  rw [← UInt8.toNat_inj, UInt8.toNat_ofNat', h]

theorem u16ToBe_u16FromBe (b c : UInt8) : u16ToBe (u16FromBe b c) = [b, c] := by
  have hb := b.toNat_lt
  have hc := c.toNat_lt
  have hn : (u16FromBe b c).toNat = b.toNat * 256 + c.toNat := by
    rw [u16FromBe, UInt16.toNat_ofNat']
    omega
  rw [u16ToBe, hn, ofNat_eq_of_mod (b := b) (by omega), ofNat_eq_of_mod (b := c) (by omega)]

theorem u32ToBe_u32FromBe (b c d e : UInt8) : u32ToBe (u32FromBe b c d e) = [b, c, d, e] := by
  have hb := b.toNat_lt
  have hc := c.toNat_lt
  have hd := d.toNat_lt
  have he := e.toNat_lt
  have hn : (u32FromBe b c d e).toNat =
      b.toNat * 16777216 + c.toNat * 65536 + d.toNat * 256 + e.toNat := by
    rw [u32FromBe, UInt32.toNat_ofNat']
    omega
  rw [u32ToBe, hn, ofNat_eq_of_mod (b := b) (by omega), ofNat_eq_of_mod (b := c) (by omega),
    ofNat_eq_of_mod (b := d) (by omega), ofNat_eq_of_mod (b := e) (by omega)]

/-- A byte string of `n` bytes. -/
@[ext]
structure Bytes (n : Nat) where
  toList : List UInt8
  length_eq : toList.length = n
deriving DecidableEq

def Bytes.ofList? {n : Nat} (bytes : List UInt8) : Option (Bytes n) :=
  if h : bytes.length = n then some ⟨bytes, h⟩ else none

/-- The `count` lowest bytes of a number. -/
def beBytes : Nat → Nat → List UInt8
  | 0, _ => []
  | count + 1, n => beBytes count (n / 256) ++ [UInt8.ofNat n]

theorem length_beBytes (count n : Nat) : (beBytes count n).length = count := by
  induction count generalizing n with
  | zero => rfl
  | succ count ih => rw [beBytes, List.length_append, ih, List.length_singleton]

theorem drop_beBytes (skipped count n : Nat) :
    (beBytes (skipped + count) n).drop skipped = beBytes count n := by
  induction count generalizing n with
  | zero => exact List.drop_eq_nil_of_le (Nat.le_of_eq (length_beBytes skipped n))
  | succ count ih =>
    rw [← Nat.add_assoc, beBytes, beBytes, List.drop_append_of_le_length, ih]
    rw [length_beBytes]
    omega

theorem beBytes_inj {count n m : Nat} (hn : n < 256 ^ count) (hm : m < 256 ^ count) :
    beBytes count n = beBytes count m ↔ n = m := by
  constructor
  · intro h
    induction count generalizing n m with
    | zero => omega
    | succ count ih =>
      rw [Nat.pow_succ] at hn hm
      obtain ⟨hhigh, hlow⟩ := List.append_inj' h rfl
      have hdiv := ih (by omega) (by omega) hhigh
      have hmod := congrArg UInt8.toNat (List.singleton_inj.mp hlow)
      rw [UInt8.toNat_ofNat', UInt8.toNat_ofNat'] at hmod
      omega
  · exact congrArg _

/-- The elements from `start` up to `stop`, where the list has them. -/
def slice? {α : Type} (l : List α) (start stop : Nat) : Option (List α) :=
  if start ≤ stop ∧ stop ≤ l.length then some ((l.drop start).take (stop - start)) else none

theorem slice?_of_le {α : Type} {l : List α} {start stop : Nat} (h : start ≤ stop)
    (hstop : stop ≤ l.length) : slice? l start stop = some ((l.drop start).take (stop - start)) :=
  if_pos ⟨h, hstop⟩

/-- Lists that agree on a known part and `count` elements after it. -/
theorem exists_append_of_take_eq {α : Type} {front rest other : List α} {count : Nat}
    (h : other.take (front.length + count) = (front ++ rest).take (front.length + count)) :
    ∃ rest', other = front ++ rest' ∧ rest'.take count = rest.take count := by
  refine ⟨other.drop front.length, ?_, ?_⟩
  · have hfront : other.take front.length = front := by
      have htake := congrArg (List.take front.length) h
      simpa [List.take_take] using htake
    rw [← List.take_append_drop front.length other, hfront]
    simp
  · have hdrop := congrArg (List.drop front.length) h
    simpa [List.drop_take] using hdrop

theorem take_eq_of_take_eq {α : Type} {l other : List α} {count more : Nat}
    (h : other.take more = l.take more) (hle : count ≤ more) : other.take count = l.take count := by
  have htake := congrArg (List.take count) h
  rwa [List.take_take, List.take_take, Nat.min_eq_left hle] at htake

theorem le_length_of_take_eq {α : Type} {l other : List α} {count : Nat}
    (h : other.take count = l.take count) (hle : count ≤ l.length) : count ≤ other.length := by
  have hlength := congrArg List.length h
  rw [List.length_take, List.length_take] at hlength
  omega

/-- The bytes combined with a mask, up to the end of either. -/
def xorInto : List UInt8 → List UInt8 → List UInt8
  | b :: bytes, m :: mask => (b ^^^ m) :: xorInto bytes mask
  | bytes, _ => bytes

theorem length_xorInto (bytes mask : List UInt8) : (xorInto bytes mask).length = bytes.length := by
  fun_induction xorInto bytes mask with
  | case1 b bytes m mask ih => rw [List.length_cons, List.length_cons, ih]
  | case2 => rfl

theorem xorInto_xorInto (bytes mask : List UInt8) : xorInto (xorInto bytes mask) mask = bytes := by
  induction bytes generalizing mask with
  | nil => rfl
  | cons b bytes ih =>
    cases mask with
    | nil => rfl
    | cons m mask =>
      rw [xorInto, xorInto, ih, UInt8.xor_assoc, UInt8.xor_self, UInt8.xor_zero]

theorem xorInto_append {bytes mask : List UInt8} (h : mask.length ≤ bytes.length)
    (more : List UInt8) : xorInto bytes (mask ++ more) =
      (xorInto bytes mask).take mask.length ++ xorInto (bytes.drop mask.length) more := by
  induction bytes generalizing mask with
  | nil =>
    obtain rfl := List.eq_nil_of_length_eq_zero (Nat.le_zero.mp h)
    rfl
  | cons b bytes ih =>
    cases mask with
    | nil => rfl
    | cons m mask =>
      have hrest := ih (Nat.le_of_succ_le_succ h)
      simp only [List.cons_append, xorInto, List.length_cons, List.take_succ_cons,
        List.drop_succ_cons, hrest]

theorem drop_xorInto (bytes mask : List UInt8) :
    (xorInto bytes mask).drop mask.length = bytes.drop mask.length := by
  fun_induction xorInto bytes mask with
  | case1 b bytes m mask ih => simpa using ih
  | case2 => rfl

/-- The bytes with those from `start` on combined with a mask. -/
def Bytes.xorFrom {n : Nat} (bytes : Bytes n) (start : Nat) (mask : List UInt8) : Bytes n where
  toList := bytes.toList.take start ++ xorInto (bytes.toList.drop start) mask
  length_eq := by
    rw [List.length_append, length_xorInto, ← List.length_append, List.take_append_drop,
      bytes.length_eq]

end Lib
