import Mathlib.Data.List.Basic
import Mathlib.Tactic.Cases
import Mathlib.Tactic.SplitIfs

/-! JSON as a writer without white space writes it, byte by byte. A format
carries the law that each value is read back off the front of what is written. -/

namespace Lib.Json

variable {α β : Type}

def isDigit (b : UInt8) : Bool := (Char.ofNat b.toNat).isDigit

/-- What comes after a number is none of its digits. -/
def Ends (rest : List UInt8) : Prop := ∀ b ∈ rest.head?, isDigit b = false

structure Format (α : Type) where
  write : α → List UInt8
  read : List UInt8 → Option (α × List UInt8)
  read_write : ∀ a rest, Ends rest → read (write a ++ rest) = some (a, rest)

namespace Format

def readAll (f : Format α) (text : List UInt8) : Option α :=
  match f.read text with
  | some (a, []) => some a
  | _ => none

theorem readAll_write (f : Format α) (a : α) : f.readAll (f.write a) = some a := by
  have hread := f.read_write a [] nofun
  rw [List.append_nil] at hread
  rw [readAll, hread]

/-- The same bytes for another type. -/
def refine (f : Format α) (fields : β → α) (back : α → Option β)
    (h : ∀ b, back (fields b) = some b) : Format β where
  write b := f.write (fields b)
  read text := (f.read text).bind fun r => (back r.1).map fun b => (b, r.2)
  read_write b rest hrest := by
    rw [f.read_write _ _ hrest, Option.bind_some, h, Option.map_some]

end Format

/-- The bytes without what they start with. -/
def literal (start text : List UInt8) : Option (List UInt8) :=
  if start.isPrefixOf text then some (text.drop start.length) else none

theorem literal_append (start rest : List UInt8) : literal start (start ++ rest) = some rest := by
  simp [literal]

section

variable (stop : UInt8) (item : List UInt8 → Option (α × List UInt8)) (write : α → List UInt8)

/-- Items up to a byte; `fuel` bounds their number. -/
def readMany : Nat → List UInt8 → Option (List α × List UInt8)
  | 0, _ => none
  | fuel + 1, text =>
    if text.head? = some stop then some ([], text.tail)
    else (item text).bind fun r =>
      (readMany fuel r.2).map fun items => (r.1 :: items.1, items.2)

variable {stop item write}

theorem readMany_write {rest : List UInt8} (hopen : ∀ a, ∃ c text, write a = c :: text ∧ c ≠ stop)
    (hitem : ∀ a (more : List α), item (write a ++ (more.flatMap write ++ stop :: rest)) =
      some (a, more.flatMap write ++ stop :: rest)) (as : List α) (fuel : Nat)
    (hfuel : (as.flatMap write).length < fuel) :
    readMany stop item fuel (as.flatMap write ++ stop :: rest) = some (as, rest) := by
  induction as generalizing fuel with
  | nil =>
    cases fuel with
    | zero => omega
    | succ fuel => exact if_pos rfl
  | cons a as ih =>
    obtain ⟨c, text, hwrite, hne⟩ := hopen a
    rw [List.flatMap_cons, List.length_append, hwrite, List.length_cons] at hfuel
    cases fuel with
    | zero => omega
    | succ fuel =>
      have hhead : ((a :: as).flatMap write ++ stop :: rest).head? ≠ some stop := by
        rw [List.flatMap_cons, hwrite]
        simpa using hne
      rw [readMany, if_neg hhead, List.flatMap_cons, List.append_assoc, hitem, Option.bind_some,
        ih fuel (by omega), Option.map_some]

end

def digits (n : Nat) : List UInt8 := (Nat.toDigits 10 n).map fun c => UInt8.ofNat c.toNat

theorem char_of_digit {c : Char} (h : c.isDigit = true) :
    Char.ofNat (UInt8.ofNat c.toNat).toNat = c := by
  have hlt : c.toNat < 256 :=
    Nat.lt_of_le_of_lt (Char.isDigit_iff_toNat.mp h).2 (by decide)
  rw [UInt8.toNat_ofNat_of_lt' hlt, Char.ofNat_toNat]

def number : Format Nat where
  write := digits
  read text :=
    if text.takeWhile isDigit = [] then none
    else some (Nat.ofDigitChars 10 ((text.takeWhile isDigit).map fun b => Char.ofNat b.toNat) 0,
      text.dropWhile isDigit)
  read_write n rest hrest := by
    have hchars : ∀ c ∈ Nat.toDigits 10 n, c.isDigit = true := fun _ hc =>
      Nat.isDigit_of_mem_toDigits (by decide) (by decide) hc
    have hdigits : ∀ b ∈ digits n, isDigit b = true := by
      intro b hb
      obtain ⟨c, hc, rfl⟩ := List.mem_map.mp hb
      rw [isDigit, char_of_digit (hchars c hc)]
      exact hchars c hc
    have hback : (digits n).map (fun b => Char.ofNat b.toNat) = Nat.toDigits 10 n := by
      rw [digits, List.map_map]
      exact (List.map_congr_left fun c hc => char_of_digit (hchars c hc)).trans (List.map_id _)
    have hne : digits n ≠ [] := by
      rw [digits, Ne, List.map_eq_nil_iff]
      exact Nat.toDigits_ne_nil
    have hnone : rest.takeWhile isDigit = [] ∧ rest.dropWhile isDigit = rest := by
      cases rest with
      | nil => exact ⟨rfl, rfl⟩
      | cons b rest =>
        have hb : isDigit b = false := hrest b rfl
        simp [hb]
    rw [List.takeWhile_append_of_pos hdigits, List.dropWhile_append_of_pos hdigits, hnone.1,
      hnone.2, List.append_nil, if_neg hne, hback, Nat.ofDigitChars_ten_toDigits]

/-- A quote, a backslash and control characters are not written as they are;
some have an escape of their own. -/
def escapes : List (UInt8 × UInt8) :=
  [(34, 34), (92, 92), (8, 98), (9, 116), (10, 110), (12, 102), (13, 114)]

def hexDigit (n : Nat) : UInt8 := UInt8.ofNat (Nat.digitChar n).toNat

def hexValue (digit : UInt8) : Nat :=
  if isDigit digit then digit.toNat - 48 else digit.toNat - 87

def writeByte (b : UInt8) : List UInt8 :=
  if b < 32 ∨ b = 34 ∨ b = 92 then
    match escapes.find? fun e => e.1 = b with
    | some e => [92, e.2]
    | none => [92, 117, 48, 48, hexDigit (b.toNat / 16), hexDigit (b.toNat % 16)]
  else [b]

def readByte : List UInt8 → Option (UInt8 × List UInt8)
  | [] => none
  | b :: text =>
    if b = 92 then
      match text with
      | 117 :: 48 :: 48 :: high :: low :: rest =>
        some (UInt8.ofNat (16 * hexValue high + hexValue low), rest)
      | e :: rest => (escapes.find? fun p => p.2 = e).map fun p => (p.1, rest)
      | [] => none
    else some (b, text)

theorem readByte_writeByte (b : UInt8) (rest : List UInt8) :
    readByte (writeByte b ++ rest) = some (b, rest) := by
  unfold writeByte
  split_ifs with hescape
  · split
    · next e hfind =>
      have hread : ∀ e ∈ escapes, readByte (92 :: e.2 :: rest) = some (e.1, rest) := by
        simp only [escapes, List.forall_mem_cons, List.not_mem_nil, false_implies, implies_true,
          and_true]
        exact ⟨rfl, rfl, rfl, rfl, rfl, rfl, rfl⟩
      have hb : e.1 = b := by simpa using List.find?_some hfind
      exact hb ▸ hread e (List.mem_of_find?_eq_some hfind)
    · have hhex : ∀ digit < 16, hexValue (hexDigit digit) = digit := by decide
      have hlt := b.toNat_lt
      have hcode : 16 * hexValue (hexDigit (b.toNat / 16)) + hexValue (hexDigit (b.toNat % 16)) =
          b.toNat := by
        rw [hhex _ (by omega), hhex _ (by omega)]
        omega
      have hread : readByte ([92, 117, 48, 48, hexDigit (b.toNat / 16),
          hexDigit (b.toNat % 16)] ++ rest) =
          some (UInt8.ofNat (16 * hexValue (hexDigit (b.toNat / 16)) +
            hexValue (hexDigit (b.toNat % 16))), rest) := rfl
      rw [hread, hcode, UInt8.ofNat_toNat]
  · exact if_neg fun hb => hescape (.inr (.inr hb))

/-- What is written for a byte is not taken for the end of a string. -/
theorem writeByte_open (b : UInt8) : ∃ c text, writeByte b = c :: text ∧ c ≠ 34 := by
  unfold writeByte
  split_ifs with hescape
  · split
    · exact ⟨_, _, rfl, by decide⟩
    · exact ⟨_, _, rfl, by decide⟩
  · exact ⟨b, [], rfl, fun hb => hescape (.inr (.inl hb))⟩

/-- The bytes of a text, in quotes. -/
def string : Format (List UInt8) where
  write bytes := [34] ++ (bytes.flatMap writeByte ++ [34])
  read text := (literal [34] text).bind fun rest =>
    readMany 34 readByte (rest.length + 1) rest
  read_write bytes rest _ := by
    rw [List.append_assoc, literal_append, Option.bind_some, List.append_assoc,
      List.singleton_append, readMany_write writeByte_open (fun b more => readByte_writeByte b _)]
    rw [List.length_append]
    omega

def null : List UInt8 := [110, 117, 108, 108]

def optional (f : Format α)
    (h : ∀ a rest, literal null (f.write a ++ rest) = none) : Format (Option α) where
  write
    | none => null
    | some a => f.write a
  read text :=
    match literal null text with
    | some rest => some (none, rest)
    | none => (f.read text).map fun r => (some r.1, r.2)
  read_write a rest hrest := by
    cases a with
    | none => rw [literal_append]
    | some a => rw [h, f.read_write a rest hrest, Option.map_some]

def array (f : Format α) (h : ∀ a, ∃ c text, f.write a = c :: text ∧ c ≠ 93) :
    Format (List α) where
  write as := [91] ++ ((as.flatMap fun a => 44 :: f.write a).drop 1 ++ [93])
  read text := (literal [91] text).bind fun rest =>
    readMany 93 (fun text => (literal [44] text).bind f.read) (rest.length + 2)
      (if rest.head? = some 93 then rest else 44 :: rest)
  read_write as rest _ := by
    rw [List.append_assoc, literal_append, Option.bind_some, List.append_assoc,
      List.singleton_append]
    cases as with
    | nil => rfl
    | cons a as =>
      obtain ⟨c, text, hwrite, hne⟩ := h a
      have hmore : ∀ more : List α,
          Ends ((more.flatMap fun a => 44 :: f.write a) ++ 93 :: rest) := by
        intro more
        cases more with
        | nil => exact fun c hc => Option.some.inj hc ▸ rfl
        | cons b more => exact fun c hc => Option.some.inj hc ▸ rfl
      have hfirst : ((a :: as).flatMap fun a => 44 :: f.write a).drop 1 ++ 93 :: rest =
          f.write a ++ ((as.flatMap fun a => 44 :: f.write a) ++ 93 :: rest) := by
        rw [List.flatMap_cons, List.cons_append, List.drop_succ_cons, List.drop_zero,
          List.append_assoc]
      have hhead : (f.write a ++ ((as.flatMap fun a => 44 :: f.write a) ++ 93 :: rest)).head? ≠
          some 93 := by
        rw [hwrite]
        simpa using hne
      have hread : ∀ fuel, ((a :: as).flatMap fun a => 44 :: f.write a).length < fuel →
          readMany 93 (fun text => (literal [44] text).bind f.read) fuel
            (((a :: as).flatMap fun a => 44 :: f.write a) ++ 93 :: rest) = some (a :: as, rest) :=
        readMany_write (fun a => ⟨44, f.write a, rfl, by decide⟩)
          (fun a more => f.read_write a _ (hmore more)) (a :: as)
      have htext : 44 :: (f.write a ++ ((as.flatMap fun a => 44 :: f.write a) ++ 93 :: rest)) =
          ((a :: as).flatMap fun a => 44 :: f.write a) ++ 93 :: rest := by
        rw [List.flatMap_cons, List.append_assoc, List.cons_append]
      rw [hfirst, if_neg hhead, htext]
      refine hread _ ?_
      simp only [List.flatMap_cons, List.length_append, List.length_cons]
      omega

theorem string_open (bytes : List UInt8) : ∃ c rest, string.write bytes = c :: rest ∧ c ≠ 93 :=
  ⟨34, _, rfl, by decide⟩

theorem string_not_null (bytes : List UInt8) (rest : List UInt8) :
    literal null (string.write bytes ++ rest) = none := rfl

theorem number_not_null (n : Nat) (rest : List UInt8) :
    literal null (number.write n ++ rest) = none := by
  have hwrite : number.write n = digits n := rfl
  cases hchars : Nat.toDigits 10 n with
  | nil => exact absurd hchars Nat.toDigits_ne_nil
  | cons c chars =>
    have hdigit : c.isDigit = true := by
      refine Nat.isDigit_of_mem_toDigits (b := 10) (n := n) (by decide) (by decide) ?_
      rw [hchars]
      exact List.mem_cons_self
    have hne : (110 : UInt8) ≠ UInt8.ofNat c.toNat := by
      intro heq
      have hchar := char_of_digit hdigit
      rw [← heq] at hchar
      rw [← hchar] at hdigit
      cases hdigit
    rw [hwrite, digits, hchars, literal, if_neg]
    simp [null, hne]

/-- The members of an object from some member on, and its end. -/
structure Members (α : Type) where
  write : α → List UInt8
  read : List UInt8 → Option (α × List UInt8)
  read_write : ∀ a rest, read (write a ++ rest) = some (a, rest)
  ends : ∀ a rest, Ends (write a ++ rest)

namespace Members

def close : Members Unit where
  write _ := [125]
  read text := (literal [125] text).map fun rest => ((), rest)
  read_write _ rest := by rw [literal_append, Option.map_some]
  ends _ _ := fun c hc => Option.some.inj hc ▸ rfl

/-- A brace or a comma, the name of a member and a colon. -/
def key (lead : UInt8) (name : List UInt8) : List UInt8 := [lead, 34] ++ (name ++ [34, 58])

def member (lead : UInt8) (hlead : isDigit lead = false) (name : List UInt8) (f : Format α)
    (others : Members β) : Members (α × β) where
  write a := key lead name ++ (f.write a.1 ++ others.write a.2)
  read text := (literal (key lead name) text).bind fun text =>
    (f.read text).bind fun first =>
      (others.read first.2).map fun rest => ((first.1, rest.1), rest.2)
  read_write a rest := by
    rw [List.append_assoc, literal_append, Option.bind_some, List.append_assoc,
      f.read_write _ _ (others.ends _ _), Option.bind_some, others.read_write, Option.map_some]
  ends _ _ := fun c hc => Option.some.inj hc ▸ hlead

/-- The object whose members these are. -/
def object (members : Members α) : Format α where
  write := members.write
  read := members.read
  read_write a rest _ := members.read_write a rest

end Members

end Lib.Json
