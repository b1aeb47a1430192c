import Mathlib.Algebra.Order.BigOperators.Group.List
import Mathlib.Algebra.Order.Group.Nat
import Mathlib.Data.List.DropRight
import RivetLink.Foundation.Bytes

/-!
# Text and base64

`Str` is a text value: a list of Unicode scalar values whose UTF-8 encoding fits an allocation.
`Str.asBytes` is the UTF-8 encoding; it determines the text (`Str.asBytes_inj`). `Str.trim` removes
the characters of the Unicode class `White_Space` from both ends.

`Base64` is the interface of a base64 codec: decoding inverts encoding, and an encoded text has no
white space to trim. `Base64.standard` is the codec with the standard alphabet, mandatory canonical
padding and no stray trailing bits, which shows that the interface can be met.
-/

namespace RivetLink.Foundation

open List Option

def utf8 (cs : List Char) : Bytes := cs.flatMap String.utf8EncodeChar

theorem utf8_injective : Function.Injective utf8 := by
  intro a b h
  have henc : a.utf8Encode = b.utf8Encode := by
    unfold utf8 at h
    simp only [List.utf8Encode, h]
  have hdec := congrArg ByteArray.utf8Decode? henc
  rw [utf8Decode?_utf8Encode, utf8Decode?_utf8Encode] at hdec
  simpa using hdec

/-- Leaving out characters does not make the encoding longer. -/
theorem length_utf8_le_of_sublist {a b : List Char} (h : a.Sublist b) :
    (utf8 a).length ≤ (utf8 b).length := by
  simp only [utf8, length_flatMap]
  exact (h.map _).sum_le_sum fun _ _ => Nat.zero_le _

def literal (s : String) : Bytes := utf8 s.toList

structure Str where
  chars : List Char
  sized : (utf8 chars).length < 2 ^ 63
  deriving DecidableEq

/-- The Unicode class `White_Space`. -/
def isWhitespace (c : Char) : Bool :=
  (9 ≤ c.toNat && c.toNat ≤ 13) || c.toNat == 0x20 || c.toNat == 0x85 || c.toNat == 0xA0 ||
    c.toNat == 0x1680 || (0x2000 ≤ c.toNat && c.toNat ≤ 0x200A) || c.toNat == 0x2028 ||
    c.toNat == 0x2029 || c.toNat == 0x202F || c.toNat == 0x205F || c.toNat == 0x3000

/-- The characters without white space at either end. -/
def trimChars (cs : List Char) : List Char :=
  ((cs.dropWhile isWhitespace).reverse.dropWhile isWhitespace).reverse

theorem trimChars_sublist (cs : List Char) : (trimChars cs).Sublist cs := by
  have hback : ((cs.dropWhile isWhitespace).reverse.dropWhile isWhitespace).reverse.Sublist
      (cs.dropWhile isWhitespace).reverse.reverse :=
    List.Sublist.reverse (dropWhile_sublist isWhitespace)
  rw [reverse_reverse] at hback
  exact hback.trans (dropWhile_sublist isWhitespace)

/-- Characters none of which is white space are left alone. -/
theorem trimChars_eq_self {cs : List Char} (h : ∀ c ∈ cs, isWhitespace c = false) :
    trimChars cs = cs := by
  have hfix : ∀ ds : List Char, (∀ c ∈ ds, isWhitespace c = false) →
      ds.dropWhile isWhitespace = ds := by
    intro ds hds
    cases ds with
    | nil => rfl
    | cons d ds => simp [List.dropWhile, hds d mem_cons_self]
  unfold trimChars
  rw [hfix cs h, hfix cs.reverse (by simpa using h), reverse_reverse]

namespace Str

@[ext] theorem ext {s t : Str} (h : s.chars = t.chars) : s = t := by
  cases s
  cases t
  simpa using h

def asBytes (s : Str) : Buffer := ⟨utf8 s.chars, s.sized⟩

theorem asBytes_inj {s t : Str} (h : s.asBytes = t.asBytes) : s = t :=
  ext (utf8_injective (congrArg Buffer.bytes h))

theorem asBytes_bytes_inj {s t : Str} (h : s.asBytes.bytes = t.asBytes.bytes) : s = t :=
  asBytes_inj (Buffer.ext h)

/-- White space removed from both ends. -/
def trim (s : Str) : Str :=
  ⟨trimChars s.chars,
    lt_of_le_of_lt (length_utf8_le_of_sublist (trimChars_sublist s.chars)) s.sized⟩

def empty : Str := ⟨[], by decide⟩

end Str

/-- A base64 codec. `encode` is total on byte strings that an encoded text can hold; the laws ask
nothing of longer ones. -/
structure Base64 where
  encode : Bytes → Str
  decode : Str → Except String Buffer
  decode_encode : ∀ b : Bytes, b.length < 2 ^ 32 →
    ∃ v : Buffer, decode (encode b) = .ok v ∧ v.bytes = b
  trim_encode : ∀ b : Bytes, (encode b).trim = encode b

/-! ## The standard codec -/

namespace Base64

def alphabet : List Char :=
  "ABCDEFGHIJKLMNOPQRSTUVWXYZabcdefghijklmnopqrstuvwxyz0123456789+/".toList

/-- The character of a six-bit value. -/
def digit (n : Nat) : Char := alphabet.getD n 'A'

/-- The six-bit value of a character. -/
def value (c : Char) : Option Nat := alphabet.idxOf? c

variable {n : Nat}

theorem value_digit (h : n < 64) : value (digit n) = some n := by
  have hall : ∀ m : Fin 64, value (digit m.val) = some m.val := by decide +kernel
  exact hall ⟨n, h⟩

theorem digit_props (h : n < 64) :
    isWhitespace (digit n) = false ∧ (String.utf8EncodeChar (digit n)).length = 1 ∧
      digit n ≠ '=' := by
  have hall : ∀ m : Fin 64, isWhitespace (digit m.val) = false ∧
      (String.utf8EncodeChar (digit m.val)).length = 1 ∧ digit m.val ≠ '=' := by decide +kernel
  exact hall ⟨n, h⟩

/-- Three bytes become four characters; one or two bytes at the end are padded. -/
def encodeChars : Bytes → List Char
  | [] => []
  | [a] => [digit (a.toNat / 4), digit (a.toNat % 4 * 16), '=', '=']
  | [a, b] =>
    [digit (a.toNat / 4), digit (a.toNat % 4 * 16 + b.toNat / 16), digit (b.toNat % 16 * 4), '=']
  | a :: b :: c :: rest =>
    digit (a.toNat / 4) :: digit (a.toNat % 4 * 16 + b.toNat / 16) ::
      digit (b.toNat % 16 * 4 + c.toNat / 64) :: digit (c.toNat % 64) :: encodeChars rest

/-- Four characters become three bytes. Padding is taken only at the end, and only with the unused
bits zero. -/
def decodeChars : List Char → Option Bytes
  | [] => some []
  | [w, x, '=', '='] =>
    (value w).bind fun w => (value x).bind fun x =>
      if x % 16 = 0 then some [UInt8.ofNat (w * 4 + x / 16)] else none
  | [w, x, y, '='] =>
    (value w).bind fun w => (value x).bind fun x => (value y).bind fun y =>
      if y % 4 = 0 then
        some [UInt8.ofNat (w * 4 + x / 16), UInt8.ofNat (x % 16 * 16 + y / 4)]
      else none
  | w :: x :: y :: z :: rest =>
    (value w).bind fun w => (value x).bind fun x => (value y).bind fun y =>
      (value z).bind fun z => (decodeChars rest).map fun more =>
        UInt8.ofNat (w * 4 + x / 16) :: UInt8.ofNat (x % 16 * 16 + y / 4) ::
          UInt8.ofNat (y % 4 * 64 + z) :: more
  | _ => none

theorem ofNat_eq_of_toNat {b : UInt8} (h : n = b.toNat) : UInt8.ofNat n = b := by
  rw [h, UInt8.ofNat_toNat]

/-- Decoding inverts encoding. -/
theorem decodeChars_encodeChars (b : Bytes) : decodeChars (encodeChars b) = some b := by
  fun_induction encodeChars b with
  | case1 => rfl
  | case2 a =>
    have ha := a.toNat_lt
    have hb : UInt8.ofNat (a.toNat / 4 * 4 + a.toNat % 4 * 16 / 16) = a :=
      ofNat_eq_of_toNat (by omega)
    have hpad : a.toNat % 4 * 16 % 16 = 0 := by omega
    simp (disch := omega) only [decodeChars, value_digit, bind_some, hpad, if_true, hb]
  | case3 a b =>
    have ha := a.toNat_lt
    have hb := b.toNat_lt
    have hne : digit (b.toNat % 16 * 4) ≠ '=' := (digit_props (by omega)).2.2
    have ha' : UInt8.ofNat (a.toNat / 4 * 4 + (a.toNat % 4 * 16 + b.toNat / 16) / 16) = a :=
      ofNat_eq_of_toNat (by omega)
    have hb' : UInt8.ofNat ((a.toNat % 4 * 16 + b.toNat / 16) % 16 * 16 +
        b.toNat % 16 * 4 / 4) = b := ofNat_eq_of_toNat (by omega)
    have hpad : b.toNat % 16 * 4 % 4 = 0 := by omega
    rw [decodeChars]
    · simp (disch := omega) only [value_digit, bind_some, hpad, if_true, ha', hb']
    · exact fun hy => absurd hy hne
  | case4 a b c rest ih =>
    have ha := a.toNat_lt
    have hb := b.toNat_lt
    have hc := c.toNat_lt
    have hne : digit (c.toNat % 64) ≠ '=' := (digit_props (by omega)).2.2
    have ha' : UInt8.ofNat (a.toNat / 4 * 4 + (a.toNat % 4 * 16 + b.toNat / 16) / 16) = a :=
      ofNat_eq_of_toNat (by omega)
    have hb' : UInt8.ofNat ((a.toNat % 4 * 16 + b.toNat / 16) % 16 * 16 +
        (b.toNat % 16 * 4 + c.toNat / 64) / 4) = b := ofNat_eq_of_toNat (by omega)
    have hc' : UInt8.ofNat ((b.toNat % 16 * 4 + c.toNat / 64) % 4 * 64 + c.toNat % 64) = c :=
      ofNat_eq_of_toNat (by omega)
    rw [decodeChars]
    · simp (disch := omega) only [value_digit, bind_some, ih, map_some, ha', hb', hc']
    · exact fun _ hz => absurd hz hne
    · exact fun hz => absurd hz hne

/-- Every encoded character is a digit or the padding sign. -/
theorem mem_encodeChars {b : Bytes} {c : Char} (h : c ∈ encodeChars b) :
    isWhitespace c = false ∧ (String.utf8EncodeChar c).length = 1 := by
  have hpad : isWhitespace '=' = false ∧ (String.utf8EncodeChar '=').length = 1 := by decide
  have hdigit : ∀ n : Nat, n < 64 →
      isWhitespace (digit n) = false ∧ (String.utf8EncodeChar (digit n)).length = 1 :=
    fun n hn => ⟨(digit_props hn).1, (digit_props hn).2.1⟩
  fun_induction encodeChars b with
  | case1 => simp at h
  | case2 a =>
    have ha := a.toNat_lt
    simp only [mem_cons, not_mem_nil, or_false] at h
    rcases h with rfl | rfl | rfl | rfl
    · exact hdigit _ (by omega)
    · exact hdigit _ (by omega)
    · exact hpad
    · exact hpad
  | case3 a b =>
    have ha := a.toNat_lt
    have hb := b.toNat_lt
    simp only [mem_cons, not_mem_nil, or_false] at h
    rcases h with rfl | rfl | rfl | rfl
    · exact hdigit _ (by omega)
    · exact hdigit _ (by omega)
    · exact hdigit _ (by omega)
    · exact hpad
  | case4 a b c' rest ih =>
    have ha := a.toNat_lt
    have hb := b.toNat_lt
    have hc := c'.toNat_lt
    simp only [mem_cons] at h
    rcases h with rfl | rfl | rfl | rfl | h
    · exact hdigit _ (by omega)
    · exact hdigit _ (by omega)
    · exact hdigit _ (by omega)
    · exact hdigit _ (by omega)
    · exact ih h

theorem length_encodeChars (b : Bytes) : (encodeChars b).length = 4 * ((b.length + 2) / 3) := by
  fun_induction encodeChars b with
  | case1 => simp
  | case2 => simp
  | case3 => simp
  | case4 a b c rest ih =>
    simp only [length_cons]
    omega

theorem length_utf8_encodeChars (b : Bytes) :
    (utf8 (encodeChars b)).length = (encodeChars b).length := by
  have hone : ∀ cs : List Char, (∀ c ∈ cs, (String.utf8EncodeChar c).length = 1) →
      (utf8 cs).length = cs.length := by
    intro cs hcs
    induction cs with
    | nil => rfl
    | cons c cs ih =>
      have hc := hcs c mem_cons_self
      have hrest := ih fun d hd => hcs d (mem_cons_of_mem c hd)
      simp only [utf8, flatMap_cons, length_append, length_cons] at *
      omega
  exact hone _ fun c hc => (mem_encodeChars hc).2

/-- The codec of the standard alphabet. Byte strings too long to be encoded are not sent through
it; they are mapped to the empty text. -/
def standard : Base64 where
  encode b :=
    if h : b.length < 2 ^ 32 then
      ⟨encodeChars b, by
        have hlen := length_utf8_encodeChars b
        rw [hlen, length_encodeChars]
        omega⟩
    else Str.empty
  decode s :=
    match decodeChars s.chars with
    | some b => if h : b.length < 2 ^ 63 then .ok ⟨b, h⟩ else .error "Invalid input length"
    | none => .error "Invalid symbol or padding"
  decode_encode := by
    intro b hb
    have hfit : b.length < 2 ^ 63 := by omega
    refine ⟨⟨b, hfit⟩, ?_, rfl⟩
    simp only [hb, dite_true, decodeChars_encodeChars, hfit]
  trim_encode := by
    intro b
    by_cases hb : b.length < 2 ^ 32
    · simp only [hb, dite_true]
      exact Str.ext (trimChars_eq_self fun c hc => (mem_encodeChars hc).1)
    · simp only [hb, dite_false]
      rfl

end Base64

end RivetLink.Foundation
