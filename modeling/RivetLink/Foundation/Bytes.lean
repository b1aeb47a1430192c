import Mathlib.Data.List.Induction
import Mathlib.Tactic.Ring

/-!
# Byte strings, big-endian integers and length-prefixed fields

A byte string is a list of `UInt8`. `FixedBytes n` is a byte array of length `n`, `Buffer` a
byte string whose length fits a signed 64-bit size, which is what an allocation can hold; the
bound is a field, so no lemma below carries a length hypothesis.

`encodeFields` writes each field behind the 8-byte big-endian encoding of its length. The
encoding of a list of fields determines the list (`encodeFields_inj`), also when more bytes
follow a known number of fields (`encodeField_append_inj`).
-/

namespace RivetLink.Foundation

open List

abbrev Bytes := List UInt8

structure FixedBytes (n : Nat) where
  bytes : Bytes
  size_eq : bytes.length = n
  deriving DecidableEq

abbrev Uuid := FixedBytes 16

instance : LawfulBEq Uuid := inferInstance

/-- A byte string that an allocation can hold: its length fits a signed 64-bit size. -/
structure Buffer where
  bytes : Bytes
  sized : bytes.length < 2 ^ 63
  deriving DecidableEq

namespace FixedBytes

variable {n : Nat}

@[ext] theorem ext {x y : FixedBytes n} (h : x.bytes = y.bytes) : x = y := by
  cases x
  cases y
  simpa using h

/-- A key or hash of 32 bytes fits into a buffer. -/
theorem thirtyTwo_lt : 32 < 2 ^ 63 := by decide

def toBuffer (x : FixedBytes n) (h : n < 2 ^ 63) : Buffer :=
  ⟨x.bytes, by rw [x.size_eq]; exact h⟩

@[simp] theorem toBuffer_bytes (x : FixedBytes n) (h : n < 2 ^ 63) :
    (x.toBuffer h).bytes = x.bytes := rfl

end FixedBytes

@[ext] theorem Buffer.ext {x y : Buffer} (h : x.bytes = y.bytes) : x = y := by
  cases x
  cases y
  simpa using h

/-! ## Big-endian integers -/

/-- The `w` low bytes of `n`, most significant byte first. -/
def beBytes : Nat → Nat → Bytes
  | 0, _ => []
  | w + 1, n => beBytes w (n / 256) ++ [UInt8.ofNat n]

/-- The value of a big-endian byte string. -/
def readBe (b : Bytes) : Nat := b.foldl (fun n x => n * 256 + x.toNat) 0

@[simp] theorem length_beBytes (w n : Nat) : (beBytes w n).length = w := by
  induction w generalizing n with
  | zero => rfl
  | succ w ih => simp [beBytes, ih]

theorem readBe_append_singleton (b : Bytes) (x : UInt8) :
    readBe (b ++ [x]) = readBe b * 256 + x.toNat := by
  simp [readBe]

/-- Reading back a big-endian encoding gives the value modulo the width. -/
theorem readBe_beBytes (w n : Nat) : readBe (beBytes w n) = n % 256 ^ w := by
  induction w generalizing n with
  | zero => simp [beBytes, readBe, Nat.mod_one]
  | succ w ih =>
    rw [beBytes, readBe_append_singleton, ih]
    have hmod : n % 256 ^ (w + 1) = n % 256 + 256 * (n / 256 % 256 ^ w) := by
      rw [Nat.pow_succ, Nat.mul_comm (256 ^ w) 256, Nat.mod_mul]
    have hbyte : (UInt8.ofNat n).toNat = n % 256 := by simp [UInt8.toNat_ofNat']
    rw [hmod, hbyte]
    ring

/-- Encoding the value of a byte string gives the byte string back. -/
theorem beBytes_readBe (b : Bytes) : beBytes b.length (readBe b) = b := by
  induction b using List.reverseRecOn with
  | nil => rfl
  | append_singleton b x ih =>
    have hx := x.toNat_lt
    have hdiv : (readBe b * 256 + x.toNat) / 256 = readBe b := by omega
    have hbyte : UInt8.ofNat (readBe b * 256 + x.toNat) = x := by
      apply UInt8.toNat_inj.1
      rw [UInt8.toNat_ofNat']
      omega
    rw [readBe_append_singleton, length_append, length_singleton, beBytes, hdiv, hbyte,
      ih]

theorem readBe_lt (b : Bytes) : readBe b < 256 ^ b.length := by
  induction b using List.reverseRecOn with
  | nil => decide
  | append_singleton b x ih =>
    have hx := x.toNat_lt
    rw [readBe_append_singleton, length_append, length_singleton, Nat.pow_succ]
    omega

/-- Equal encodings of values that fit the width are encodings of equal values. -/
theorem beBytes_inj {w m n : Nat} (hm : m < 256 ^ w) (hn : n < 256 ^ w)
    (h : beBytes w m = beBytes w n) : m = n := by
  have hread := congrArg readBe h
  rwa [readBe_beBytes, readBe_beBytes, Nat.mod_eq_of_lt hm, Nat.mod_eq_of_lt hn] at hread

/-- The 8-byte encoding of a 64-bit unsigned integer determines it. -/
theorem beBytes_uint64_inj {m n : UInt64} (h : beBytes 8 m.toNat = beBytes 8 n.toNat) : m = n :=
  UInt64.toNat_inj.1 (beBytes_inj m.toNat_lt n.toNat_lt h)

/-- The 2-byte encoding of a 16-bit unsigned integer determines it. -/
theorem beBytes_uint16_inj {m n : UInt16} (h : beBytes 2 m.toNat = beBytes 2 n.toNat) : m = n :=
  UInt16.toNat_inj.1 (beBytes_inj m.toNat_lt n.toNat_lt h)

/-! ## Length-prefixed fields -/

def encodeField (value : Buffer) : Bytes := beBytes 8 value.bytes.length ++ value.bytes

/-- Fields behind their lengths, in order. -/
def encodeFields (values : List Buffer) : Bytes := values.flatMap encodeField

@[simp] theorem length_encodeField (v : Buffer) :
    (encodeField v).length = 8 + v.bytes.length := by
  simp [encodeField]

/-- The first field and the bytes after it are determined by the whole string. -/
theorem encodeField_append_inj {v w : Buffer} {r s : Bytes}
    (h : encodeField v ++ r = encodeField w ++ s) : v = w ∧ r = s := by
  unfold encodeField at h
  rw [append_assoc, append_assoc] at h
  obtain ⟨hlen, hrest⟩ := append_inj h (by simp)
  have hlt : ∀ u : Buffer, u.bytes.length < 256 ^ 8 := fun u =>
    lt_trans u.sized (by decide)
  have hlen' : v.bytes.length = w.bytes.length := beBytes_inj (hlt v) (hlt w) hlen
  obtain ⟨hbytes, hrs⟩ := append_inj hrest hlen'
  exact ⟨Buffer.ext hbytes, hrs⟩

theorem encodeField_ne_nil (v : Buffer) (r : Bytes) : encodeField v ++ r ≠ [] := by
  intro h
  have hlen := congrArg List.length h
  simp at hlen

/-- The encoding determines the list of fields. -/
theorem encodeFields_inj : ∀ {vs ws : List Buffer},
    encodeFields vs = encodeFields ws → vs = ws
  | [], [], _ => rfl
  | [], w :: ws, h => absurd h.symm (encodeField_ne_nil w (encodeFields ws))
  | v :: vs, [], h => absurd h (encodeField_ne_nil v (encodeFields vs))
  | v :: vs, w :: ws, h => by
      obtain ⟨hvw, hrest⟩ := encodeField_append_inj h
      rw [hvw, encodeFields_inj hrest]

end RivetLink.Foundation
