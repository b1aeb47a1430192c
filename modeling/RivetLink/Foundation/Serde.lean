import Mathlib.Data.Char
import Mathlib.Data.List.Lex
import RivetLink.Foundation.Json

/-!
# Typed values as JSON

A `JsonCodec α d` writes the values of `α` as JSON values of at most `d` levels and reads them back;
the laws are fields, so codecs compose without side conditions. `required` and `defaulted` read one
field of an object: a duplicate is an error, a missing field is an error or the default.

`TaggedUnion α d` is a type of variants written as one object: the name of the variant under
`tagKey`, beside the fields of the variant. `members` are the fields as written, `ofMembers` reads
the variant of a name. `optionalKeys` are the fields that a writer of an older version may leave
out, and `reset drop` is the value in which the fields that `drop` picks among them have their
defaults. The laws say that no field is called like the tag, and that the fields that remain after
leaving out optional ones are read as `reset` says. The main result is
`TaggedUnion.ofJson_toJsonWithout`: the object without those fields is read as the reset value;
leaving out nothing gives the round trip.

serde also reads a variant from an array, and the name of a unit variant from an object such as
`{"left":null}`. These readings are left out: no writer produces such texts, and they are refused.
-/

namespace RivetLink.Foundation

open List Option Json

/-- More levels are allowed. -/
theorem Json.Fits.mono {d e : Nat} {j : Json} (h : Fits d j) (hle : d ≤ e) : Fits e j := by
  induction h generalizing e with
  | null d => exact .null e
  | bool d b => exact .bool e b
  | int d h => exact .int e h
  | str d cs => exact .str e cs
  | arr _ ih =>
    cases e with
    | zero => exact absurd hle (Nat.not_succ_le_zero _)
    | succ e => exact .arr fun x hx => ih x hx (Nat.le_of_succ_le_succ hle)
  | obj _ ih =>
    cases e with
    | zero => exact absurd hle (Nat.not_succ_le_zero _)
    | succ e => exact .obj fun m hm => ih m hm (Nat.le_of_succ_le_succ hle)

/-- A type with a JSON form of at most `d` levels. -/
structure JsonCodec (α : Type) (d : Nat) where
  toJson : α → Json
  ofJson : Json → Option α
  ofJson_toJson : ∀ a, ofJson (toJson a) = some a
  fits : ∀ a, Fits d (toJson a)

attribute [simp] JsonCodec.ofJson_toJson

namespace JsonCodec

variable {α : Type} {d : Nat}

theorem fits_of_le (c : JsonCodec α d) {e : Nat} (h : d ≤ e) (a : α) : Fits e (c.toJson a) :=
  (c.fits a).mono h

def unsigned (size : Nat) (toNat : α → Nat) (ofNat : Nat → α) (hsize : size ≤ 2 ^ 64)
    (hlt : ∀ a, toNat a < size) (hof : ∀ a, ofNat (toNat a) = a) : JsonCodec α 0 where
  toJson a := .int (toNat a)
  ofJson
    | .int n => if 0 ≤ n ∧ n < size then some (ofNat n.toNat) else none
    | _ => none
  ofJson_toJson a := by
    have hrange : (0 : Int) ≤ toNat a ∧ (toNat a : Int) < size :=
      ⟨Int.natCast_nonneg _, Int.ofNat_lt.2 (hlt a)⟩
    simp only [if_pos hrange, Int.toNat_natCast, hof]
  fits a := by
    have hlt := hlt a
    exact .int 0 ⟨by omega, by omega⟩

def u16 : JsonCodec UInt16 0 :=
  unsigned (2 ^ 16) UInt16.toNat UInt16.ofNat (by decide) UInt16.toNat_lt fun _ =>
    UInt16.ofNat_toNat

def u32 : JsonCodec UInt32 0 :=
  unsigned (2 ^ 32) UInt32.toNat UInt32.ofNat (by decide) UInt32.toNat_lt fun _ =>
    UInt32.ofNat_toNat

def u64 : JsonCodec UInt64 0 :=
  unsigned (2 ^ 64) UInt64.toNat UInt64.ofNat (by decide) UInt64.toNat_lt fun _ =>
    UInt64.ofNat_toNat

def i16 : JsonCodec Int16 0 where
  toJson a := .int a.toInt
  ofJson
    | .int n => if -2 ^ 15 ≤ n ∧ n < 2 ^ 15 then some (Int16.ofInt n) else none
    | _ => none
  ofJson_toJson a := by
    have hrange : -2 ^ 15 ≤ a.toInt ∧ a.toInt < 2 ^ 15 := ⟨a.le_toInt, a.toInt_lt⟩
    simp only [if_pos hrange, Int16.ofInt_toInt]
  fits a := by
    have hlow := a.le_toInt
    have hhigh := a.toInt_lt
    exact .int 0 ⟨by omega, by omega⟩

def bool : JsonCodec Bool 0 where
  toJson := .bool
  ofJson
    | .bool b => some b
    | _ => none
  ofJson_toJson _ := rfl
  fits b := .bool 0 b

/-- A type whose values are written as strings. -/
def text (toChars : α → List Char) (ofChars : List Char → Option α)
    (h : ∀ a, ofChars (toChars a) = some a) : JsonCodec α 0 where
  toJson a := .str (toChars a)
  ofJson
    | .str cs => ofChars cs
    | _ => none
  ofJson_toJson := h
  fits a := .str 0 (toChars a)

def string : JsonCodec String 0 :=
  text String.toList (fun cs => some (String.ofList cs)) fun _ => by rw [String.ofList_toList]

/-- A text value. A string that no allocation holds is not read. -/
def str : JsonCodec Str 0 :=
  text Str.chars (fun cs => if h : (utf8 cs).length < 2 ^ 63 then some ⟨cs, h⟩ else none)
    fun s => dif_pos s.sized

def names (all : List α) (name : α → String)
    (h : ∀ a, all.find? (fun b => name b = name a) = some a) : JsonCodec α 0 :=
  text (fun a => (name a).toList) (fun cs => all.find? fun b => name b = String.ofList cs)
    fun a => by
      rw [String.ofList_toList]
      exact h a

/-- Reads `null` as `none`. -/
def ofNullable (read : Json → Option α) : Json → Option (Option α)
  | .null => some none
  | j => (read j).map some

theorem ofNullable_of_ne {read : Json → Option α} {j : Json} (h : j ≠ .null) :
    ofNullable read j = (read j).map some := by
  cases j with
  | null => exact absurd rfl h
  | _ => rfl

/-- An option: `null` stands for `none`. -/
def nullable (c : JsonCodec α d) (h : ∀ a, c.toJson a ≠ .null) : JsonCodec (Option α) d where
  toJson
    | none => .null
    | some a => c.toJson a
  ofJson := ofNullable c.ofJson
  ofJson_toJson
    | none => rfl
    | some a => by
        rw [ofNullable_of_ne (h a), c.ofJson_toJson]
        rfl
  fits
    | none => .null d
    | some a => c.fits a

def list (c : JsonCodec α d) : JsonCodec (List α) (d + 1) where
  toJson as := .arr (as.map c.toJson)
  ofJson
    | .arr js => js.mapM c.ofJson
    | _ => none
  ofJson_toJson as := by
    induction as with
    | nil => rfl
    | cons a as ih => simp only [map_cons, mapM_cons, ofJson_toJson, ih]; rfl
  fits as := .arr fun j hj => by
    obtain ⟨a, _, rfl⟩ := mem_map.1 hj
    exact c.fits a

end JsonCodec

/-! ## Fields of an object -/

abbrev Members := List (String × Json)

def occurrences (ms : Members) (k : String) : List Json :=
  ms.filterMap fun m => if m.1 = k then some m.2 else none

/-- The members without those that `drop` picks among `keys`. -/
def without (drop : String → Bool) (keys : List String) (ms : Members) : Members :=
  ms.filter fun m => !(keys.contains m.1 && drop m.1)

section Fields

variable {α : Type} {d : Nat}

def required (c : JsonCodec α d) (ms : Members) (k : String) : Option α :=
  match occurrences ms k with
  | [j] => c.ofJson j
  | _ => none

def defaulted (c : JsonCodec α d) (default : α) (ms : Members) (k : String) : Option α :=
  match occurrences ms k with
  | [] => some default
  | [j] => c.ofJson j
  | _ => none

/-- A field that is written unless it is `none`. -/
def unlessNone (c : JsonCodec α d) (k : String) : Option α → Members
  | none => []
  | some a => [(k, c.toJson a)]

/-- A field that is written unless it is empty. -/
def unlessEmpty (c : JsonCodec α d) (k : String) : List α → Members
  | [] => []
  | a :: as => [(k, c.list.toJson (a :: as))]

variable {c : JsonCodec α d} {drop : String → Bool} {keys : List String} {ms : Members} {k : String}
  {m : String × Json} {a : Option α} {as : List α}

@[simp] theorem occurrences_nil (k : String) : occurrences [] k = [] := rfl

@[simp] theorem occurrences_cons (k' : String) (j : Json) (ms : Members) (k : String) :
    occurrences ((k', j) :: ms) k =
      if k' = k then j :: occurrences ms k else occurrences ms k := by
  unfold occurrences
  rw [filterMap_cons]
  split_ifs <;> rfl

@[simp] theorem occurrences_unlessNone (k' : String) (a : Option α) (k : String) :
    occurrences (unlessNone c k' a) k = if k' = k then a.toList.map c.toJson else [] := by
  cases a with
  | none | some a => simp [unlessNone]

@[simp] theorem occurrences_unlessEmpty (k' : String) (as : List α) (k : String) :
    occurrences (unlessEmpty c k' as) k =
      if k' = k then (if as = [] then [] else [c.list.toJson as]) else [] := by
  cases as with
  | nil | cons a as => simp [unlessEmpty]

@[simp] theorem mem_unlessNone : m ∈ unlessNone c k a ↔ ∃ x, a = some x ∧ m = (k, c.toJson x) := by
  cases a with
  | none | some a => simp [unlessNone]

@[simp] theorem mem_unlessEmpty : m ∈ unlessEmpty c k as ↔ as ≠ [] ∧ m = (k, c.list.toJson as) := by
  cases as with
  | nil | cons a as => simp [unlessEmpty]

@[simp] theorem without_nil (drop : String → Bool) (ms : Members) : without drop [] ms = ms := by
  simp [without]

/-- Leaving members out leaves out all values of their keys and no other. -/
theorem occurrences_without (drop : String → Bool) (keys : List String) (ms : Members)
    (k : String) : occurrences (without drop keys ms) k =
      if (keys.contains k && drop k) = true then [] else occurrences ms k := by
  induction ms with
  | nil => simp [without]
  | cons m ms ih =>
    obtain ⟨k', j⟩ := m
    unfold without at ih ⊢
    rw [filter_cons, occurrences_cons]
    by_cases hk : k' = k
    · subst hk
      by_cases hgone : (keys.contains k' && drop k') = true
      · simp only [hgone, Bool.not_true, Bool.false_eq_true, if_false, if_true] at ih ⊢
        exact ih
      · simp only [Bool.not_eq_true] at hgone
        simp only [hgone, Bool.not_false, if_true, Bool.false_eq_true, if_false,
          occurrences_cons] at ih ⊢
        rw [ih]
    · rw [if_neg hk]
      split_ifs at ih ⊢ with h1 h2 h2
      all_goals simp only [occurrences_cons, if_neg hk, ih]

/-- A field that may not be left out is read as it was written. -/
theorem required_without {a : α} (hk : keys.contains k = false)
    (h : occurrences ms k = [c.toJson a]) : required c (without drop keys ms) k = some a := by
  unfold required
  rw [occurrences_without, hk, Bool.false_and, if_neg Bool.false_ne_true, h]
  exact c.ofJson_toJson a

/-- A field that was left out has its default. -/
theorem defaulted_without {default a : α} (hk : keys.contains k = true)
    (h : defaulted c default ms k = some a) :
    defaulted c default (without drop keys ms) k = some (if drop k then default else a) := by
  unfold defaulted at h ⊢
  rw [occurrences_without, hk, Bool.true_and]
  split_ifs with hdrop
  · rfl
  · exact h

theorem defaulted_of_occurrences {default a : α} (h : occurrences ms k = [c.toJson a]) :
    defaulted c default ms k = some a := by
  simp only [defaulted, h, JsonCodec.ofJson_toJson]

/-- A field that is skipped when it is `none`, which is also its default. -/
theorem defaulted_of_unlessNone (hnull : ∀ a, c.toJson a ≠ .null)
    (h : occurrences ms k = a.toList.map c.toJson) :
    defaulted (c.nullable hnull) none ms k = some a := by
  cases a with
  | none => simp [defaulted, h]
  | some a => exact defaulted_of_occurrences h

/-- A field that is skipped when it is empty, which is also its default. -/
theorem defaulted_of_unlessEmpty
    (h : occurrences ms k = if as = [] then [] else [c.list.toJson as]) :
    defaulted c.list [] ms k = some as := by
  cases as with
  | nil => simp [defaulted, h]
  | cons a as => exact defaulted_of_occurrences h

end Fields

def JsonCodec.object {α : Type} {d : Nat} (members : α → Members) (ofMembers : Members → Option α)
    (h : ∀ a, ofMembers (members a) = some a) (hfits : ∀ a, ∀ m ∈ members a, Fits d m.2) :
    JsonCodec α (d + 1) where
  toJson a := .obj (members a)
  ofJson
    | .obj ms => ofMembers ms
    | _ => none
  ofJson_toJson := h
  fits a := .obj (hfits a)

/-! ## Objects with a tag -/

/-- Variants written as objects that name the variant. -/
structure TaggedUnion (α : Type) (d : Nat) where
  tagKey : String
  tag : α → String
  /-- The fields of a value, without the tag. -/
  members : α → Members
  /-- Reads the variant of this name. -/
  ofMembers : String → Members → Option α
  /-- The fields of a value that may be left out. -/
  optionalKeys : α → List String
  /-- The optional fields that `drop` picks set to their defaults. -/
  reset : (String → Bool) → α → α
  tagKey_notMem : ∀ a, ∀ m ∈ members a, m.1 ≠ tagKey
  tagKey_required : ∀ a, tagKey ∉ optionalKeys a
  fits : ∀ a, ∀ m ∈ members a, Fits d m.2
  reset_none : ∀ a, reset (fun _ => false) a = a
  ofMembers_without : ∀ drop a,
    ofMembers (tag a) (without drop (optionalKeys a) (members a)) = some (reset drop a)

namespace TaggedUnion

variable {α : Type} {d : Nat} (U : TaggedUnion α d)

def toJson (a : α) : Json := .obj ((U.tagKey, .str (U.tag a).toList) :: U.members a)

/-- The object of a value without the optional fields that `drop` picks. -/
def toJsonWithout (drop : String → Bool) (a : α) : Json :=
  .obj (without drop (U.optionalKeys a) ((U.tagKey, .str (U.tag a).toList) :: U.members a))

/-- Reads an object: the tag has to be there once, and the other members are the fields. -/
def ofJson : Json → Option α
  | .obj ms =>
    match occurrences ms U.tagKey with
    | [.str name] => U.ofMembers (String.ofList name) (ms.filter fun m => m.1 ≠ U.tagKey)
    | _ => none
  | _ => none

/-- Leaving out nothing. -/
theorem toJsonWithout_false (a : α) : U.toJsonWithout (fun _ => false) a = U.toJson a := by
  simp [toJsonWithout, toJson, without]

theorem toJsonWithout_eq (drop : String → Bool) (a : α) :
    U.toJsonWithout drop a = .obj ((U.tagKey, .str (U.tag a).toList) ::
      without drop (U.optionalKeys a) (U.members a)) := by
  have hkeep : ((U.optionalKeys a).contains U.tagKey && drop U.tagKey) = false := by
    simp [U.tagKey_required a]
  simp only [toJsonWithout, without, filter_cons, hkeep, Bool.not_false, if_true]

theorem mem_without {drop : String → Bool} {keys : List String} {ms : Members}
    {m : String × Json} (h : m ∈ without drop keys ms) : m ∈ ms :=
  mem_of_mem_filter h

/-- An object of which optional fields were left out is read as the value with the defaults of
those fields. -/
theorem ofJson_toJsonWithout (drop : String → Bool) (a : α) :
    U.ofJson (U.toJsonWithout drop a) = some (U.reset drop a) := by
  have hother : ∀ m ∈ without drop (U.optionalKeys a) (U.members a), m.1 ≠ U.tagKey :=
    fun m hm => U.tagKey_notMem a m (mem_without hm)
  have htag : occurrences (without drop (U.optionalKeys a) (U.members a)) U.tagKey = [] := by
    unfold occurrences
    refine filterMap_eq_nil_iff.2 fun m hm => if_neg (hother m hm)
  have hfields : (without drop (U.optionalKeys a) (U.members a)).filter (fun m => m.1 ≠ U.tagKey) =
      without drop (U.optionalKeys a) (U.members a) :=
    filter_eq_self.2 fun m hm => decide_eq_true (hother m hm)
  rw [toJsonWithout_eq]
  simp only [ofJson, occurrences_cons, if_true, htag, String.ofList_toList, filter_cons,
    ne_eq, not_true_eq_false, decide_false, Bool.false_eq_true, if_false]
  rw [← U.ofMembers_without drop a]
  exact congrArg _ hfields

theorem ofJson_toJson (a : α) : U.ofJson (U.toJson a) = some a := by
  rw [← toJsonWithout_false, ofJson_toJsonWithout, U.reset_none]

theorem fits_toJsonWithout (drop : String → Bool) (a : α) :
    Fits (d + 1) (U.toJsonWithout drop a) := by
  rw [toJsonWithout_eq]
  refine .obj fun m hm => ?_
  rcases mem_cons.1 hm with rfl | hm
  · exact .str d _
  · exact U.fits a m (mem_without hm)

/-- The union as a codec, for values inside other values. -/
def codec : JsonCodec α (d + 1) where
  toJson := U.toJson
  ofJson := U.ofJson
  ofJson_toJson := U.ofJson_toJson
  fits a := by
    rw [← toJsonWithout_false]
    exact U.fits_toJsonWithout _ a

/-! ### Texts and bytes -/

def toString (a : α) : List Char := render .compact 0 (U.toJson a)

def fromStr (text : List Char) : Option α := (parse text).bind U.ofJson

def toVec (a : α) : Bytes := (U.toJson a).toVec

def fromSlice (b : Bytes) : Option α := (Json.fromSlice b).bind U.ofJson

variable (hd : d + 1 < recursionLimit)

include hd

theorem fromStr_toJsonWithout (drop : String → Bool) (a : α) :
    U.fromStr (render .compact 0 (U.toJsonWithout drop a)) = some (U.reset drop a) := by
  have hfits := (U.fits_toJsonWithout drop a).mono (Nat.le_sub_one_of_lt hd)
  unfold fromStr
  rw [parse_render .compact hfits, bind_some, ofJson_toJsonWithout]

theorem fromStr_toString (a : α) : U.fromStr (U.toString a) = some a := by
  have h := U.fromStr_toJsonWithout hd (fun _ => false) a
  rwa [toJsonWithout_false, U.reset_none] at h

theorem fromSlice_toJsonWithout (drop : String → Bool) (a : α) :
    U.fromSlice (U.toJsonWithout drop a).toVec = some (U.reset drop a) := by
  have hfits := (U.fits_toJsonWithout drop a).mono (Nat.le_sub_one_of_lt hd)
  unfold fromSlice
  rw [Json.fromSlice_toVec hfits, bind_some, ofJson_toJsonWithout]

theorem fromSlice_toVec (a : α) : U.fromSlice (U.toVec a) = some a := by
  have h := U.fromSlice_toJsonWithout hd (fun _ => false) a
  rwa [toJsonWithout_false, U.reset_none] at h

end TaggedUnion

end RivetLink.Foundation
