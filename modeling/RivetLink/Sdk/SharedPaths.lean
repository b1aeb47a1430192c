import RivetLink.Foundation.Text

/-!
# Paths in the shared folder

The limits of file sharing, and the check of the paths in requests. Every part of a
path that passes is a plain file name (`plain_of_mem_relativeComponents`): it neither splits
further nor means the folder itself or the one above.
-/

namespace RivetLink.Sdk

open List Option RivetLink.Foundation

def fileChunkBytes : Nat := 192 * 1024

def maxFileBytes : Nat := 8 * 1024 * 1024 * 1024

def maxPathBytes : Nat := 1024

def maxPathDepth : Nat := 32

def isControl (c : Char) : Bool := c.toNat < 0x20 || (0x7F ≤ c.toNat && c.toNat ≤ 0x9F)

def validPart (part : List Char) : Bool :=
  !part.isEmpty && part ≠ ['.'] && part ≠ ['.', '.'] && (utf8 part).length ≤ 255 &&
    !part.any fun c => isControl c || c == '\\' || c == ':'

/-- The components of a path relative to the shared folder, if it is acceptable. -/
def relativeComponents (path : Str) : Option (List (List Char)) :=
  if path.chars.isEmpty || maxPathBytes < (utf8 path.chars).length ||
      path.chars.head? == some '/' then none
  else
    let components := path.chars.splitOn '/'
    if maxPathDepth < components.length then none
    else if components.all validPart then some components else none

/-! ## Plain names -/

/-- A name that stands for one entry of a folder. -/
structure Plain (name : List Char) : Prop where
  noSlash : '/' ∉ name
  ne_nil : name ≠ []
  ne_dot : name ≠ ['.']
  ne_dots : name ≠ ['.', '.']

theorem noSlash_of_mem_splitOn {cs part : List Char} (h : part ∈ cs.splitOn '/') : '/' ∉ part := by
  induction cs generalizing part with
  | nil =>
    rw [splitOn_eq_singleton not_mem_nil, mem_singleton] at h
    rw [h]
    exact not_mem_nil
  | cons c cs ih =>
    have hcons : (c :: cs).splitOn '/' =
        if (c == '/') = true then [] :: cs.splitOn '/'
        else (cs.splitOn '/').modifyHead (c :: ·) :=
      splitOnP_cons_eq_if_modifyHead c cs
    rw [hcons] at h
    split at h
    · obtain rfl | h := mem_cons.1 h
      · exact not_mem_nil
      · exact ih h
    · rename_i hc
      cases hsplit : cs.splitOn '/' with
      | nil => exact absurd hsplit (splitOn_ne_nil _ _)
      | cons head rest =>
        rw [hsplit] at h ih
        obtain rfl | h := mem_cons.1 h
        · -- the first part grows by a character that is no slash
          intro hmem
          obtain rfl | hmem := mem_cons.1 hmem
          · exact hc (beq_self_eq_true _)
          · exact ih mem_cons_self hmem
        · exact ih (mem_cons_of_mem _ h)

variable {components : List (List Char)} {path : Str}

theorem validPart_iff {part : List Char} : validPart part = true ↔
    part ≠ [] ∧ part ≠ ['.'] ∧ part ≠ ['.', '.'] ∧ (utf8 part).length ≤ 255 ∧
      ∀ c ∈ part, isControl c = false ∧ c ≠ '\\' ∧ c ≠ ':' := by
  simp [validPart, and_assoc]

theorem relativeComponents_eq_some_iff :
    relativeComponents path = some components ↔ components = path.chars.splitOn '/' ∧
      (utf8 path.chars).length ≤ maxPathBytes ∧ components.length ≤ maxPathDepth ∧
        ∀ part ∈ components, validPart part = true := by
  constructor
  · intro h
    unfold relativeComponents at h
    dsimp only at h
    split at h
    · cases h
    rename_i hstart
    split at h
    · cases h
    rename_i hdepth
    obtain ⟨hall, ⟨⟩⟩ := ite_none_right_eq_some.1 h
    simp only [Bool.or_eq_true, decide_eq_true_eq, not_or] at hstart
    exact ⟨rfl, Nat.not_lt.1 hstart.1.2, Nat.not_lt.1 hdepth, all_eq_true.1 hall⟩
  · rintro ⟨rfl, hsize, hdepth, hvalid⟩
    -- an empty path, and one that starts with a slash, have an empty part
    have hstart : (path.chars.isEmpty || decide (maxPathBytes < (utf8 path.chars).length) ||
        path.chars.head? == some '/') = false := by
      have hpart : [] ∉ path.chars.splitOn '/' := fun h => absurd (hvalid [] h) (by decide)
      rw [decide_eq_false (Nat.not_lt.2 hsize), Bool.or_false]
      cases hchars : path.chars with
      | nil =>
        rw [hchars, splitOn_eq_singleton not_mem_nil] at hpart
        exact absurd mem_cons_self hpart
      | cons c cs =>
        have hc : c ≠ '/' := by
          rintro rfl
          have hcons : ('/' :: cs).splitOn '/' = [] :: cs.splitOn '/' :=
            splitOnP_cons_eq_if_modifyHead '/' cs
          rw [hchars, hcons] at hpart
          exact hpart mem_cons_self
        simpa using hc
    unfold relativeComponents
    dsimp only
    rw [hstart, if_neg Bool.false_ne_true, if_neg (Nat.not_lt.2 hdepth), all_eq_true.2 hvalid,
      if_pos rfl]

theorem relativeComponents_eq_some (h : relativeComponents path = some components) :
    components = path.chars.splitOn '/' ∧ ∀ part ∈ components, validPart part = true := by
  obtain ⟨hsplit, -, -, hvalid⟩ := relativeComponents_eq_some_iff.1 h
  exact ⟨hsplit, hvalid⟩

theorem plain_of_mem_relativeComponents {part : List Char}
    (h : relativeComponents path = some components) (hpart : part ∈ components) : Plain part := by
  obtain ⟨hsplit, hvalid⟩ := relativeComponents_eq_some h
  obtain ⟨hne, hdot, hdots, -⟩ := validPart_iff.1 (hvalid part hpart)
  rw [hsplit] at hpart
  exact ⟨noSlash_of_mem_splitOn hpart, hne, hdot, hdots⟩

end RivetLink.Sdk
