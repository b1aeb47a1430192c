import RivetLink.Foundation.Text

/-!
# Lossy UTF-8 and lines

`fromUtf8Lossy` decodes bytes as UTF-8, with a replacement character for each longest start of a
character that does not go on as one. It is written as a machine that reads a byte at a time, so
that three facts are inductions over the bytes: it inverts the encoding (`fromUtf8Lossy_utf8`), it
starts afresh at every line feed (`decodeFrom_newline`), and it makes a line feed only of a line
feed (`newline_not_mem_decodeFrom`).

`lines` splits a text at its line feeds, without a carriage return before them. Together they give
`lines_fromUtf8Lossy`: the lines of a file of terminated lines, each decoded for itself.
-/

namespace RivetLink.Foundation

open List

/-! ## The decoder -/

/-- The range of the next continuation byte; the first one after some leads is narrower, which
excludes overlong forms, surrogates and values beyond the last character. -/
inductive TailRange where
  | any
  | afterE0
  | afterED
  | afterF0
  | afterF4
  deriving DecidableEq

def TailRange.low : TailRange → Nat
  | .afterE0 => 0xA0
  | .afterF0 => 0x90
  | _ => 0x80

def TailRange.high : TailRange → Nat
  | .afterED => 0x9F
  | .afterF4 => 0x8F
  | _ => 0xBF

/-- Between two characters, or in one of which `more + 1` bytes are missing and `value` is read. -/
inductive Utf8State where
  | start
  | inside (more value : Nat) (range : TailRange)
  deriving DecidableEq

def replacementChar : Char := Char.ofNat 0xFFFD

/-- A byte between two characters. -/
def leadByte (b : Nat) : List Char × Utf8State :=
  if b ≤ 0x7F then ([Char.ofNat b], .start)
  else if 0xC2 ≤ b ∧ b ≤ 0xDF then ([], .inside 0 (b % 32) .any)
  else if b = 0xE0 then ([], .inside 1 0 .afterE0)
  else if b = 0xED then ([], .inside 1 13 .afterED)
  else if 0xE1 ≤ b ∧ b ≤ 0xEF then ([], .inside 1 (b % 16) .any)
  else if b = 0xF0 then ([], .inside 2 0 .afterF0)
  else if 0xF1 ≤ b ∧ b ≤ 0xF3 then ([], .inside 2 (b % 8) .any)
  else if b = 0xF4 then ([], .inside 2 4 .afterF4)
  else ([replacementChar], .start)

namespace Utf8State

/-- What is put out for a character that ends here. -/
def flush : Utf8State → List Char
  | .start => []
  | .inside _ _ _ => [replacementChar]

/-- What is put out for one byte, and the state after it. A byte that does not belong to the
character it stands in is read again as a first byte. -/
def read : Utf8State → Nat → List Char × Utf8State
  | .start, b => leadByte b
  | .inside more value range, b =>
    if range.low ≤ b ∧ b ≤ range.high then
      match more with
      | 0 => ([Char.ofNat (value * 64 + b % 64)], .start)
      | more + 1 => ([], .inside more (value * 64 + b % 64) .any)
    else (replacementChar :: (leadByte b).1, (leadByte b).2)

end Utf8State

def decodeFrom : Utf8State → Bytes → List Char
  | q, [] => q.flush
  | q, b :: bs => (q.read b.toNat).1 ++ decodeFrom (q.read b.toNat).2 bs

/-- Bytes as text, with replacement characters for what is not UTF-8. -/
def fromUtf8Lossy (bs : Bytes) : List Char := decodeFrom .start bs

section Decoder

variable {q : Utf8State} {a bs : Bytes} {c : Char} {b : Nat} {r : TailRange}

theorem low_le (r : TailRange) : 0x80 ≤ r.low := by
  cases r <;> decide

/-- An ASCII byte ends the character it stands in, and stands for itself. -/
theorem read_ascii (hb : b ≤ 0x7F) : q.read b = (q.flush ++ [Char.ofNat b], .start) := by
  have hlead : leadByte b = ([Char.ofNat b], .start) := if_pos hb
  cases q with
  | start => exact hlead
  | inside more value range =>
    have hlow := low_le range
    unfold Utf8State.read
    dsimp only
    rw [if_neg (by omega), hlead]
    rfl

theorem decodeFrom_newline (q : Utf8State) (a bs : Bytes) :
    decodeFrom q (a ++ 10 :: bs) = decodeFrom q a ++ '\n' :: fromUtf8Lossy bs := by
  induction a generalizing q with
  | nil =>
    have hread : q.read 10 = (q.flush ++ ['\n'], .start) := read_ascii (by decide)
    change (q.read 10).1 ++ decodeFrom (q.read 10).2 bs = _
    rw [hread, append_assoc]
    rfl
  | cons b a ih =>
    rw [cons_append, decodeFrom, ih, decodeFrom, append_assoc]

/-! ### It inverts the encoding -/

theorem ofNat_toNat_val (c : Char) : Char.ofNat c.val.toNat = c := Char.ofNat_toNat c

theorem toNat_byte {n : Nat} (h : n < 256) : (UInt8.ofNat n).toNat = n := by
  rw [UInt8.toNat_ofNat']
  exact Nat.mod_eq_of_lt h

/-- A continuation byte that is not the last. -/
theorem read_more {more value : Nat} (hlow : r.low ≤ b) (hhigh : b ≤ r.high) :
    Utf8State.read (.inside (more + 1) value r) b =
      ([], .inside more (value * 64 + b % 64) .any) :=
  if_pos ⟨hlow, hhigh⟩

/-- The last continuation byte. -/
theorem read_last {value : Nat} (hlow : r.low ≤ b) (hhigh : b ≤ r.high) :
    Utf8State.read (.inside 0 value r) b = ([Char.ofNat (value * 64 + b % 64)], .start) :=
  if_pos ⟨hlow, hhigh⟩

/-- A lead and the byte after it. -/
theorem read_lead {lead more h m : Nat} (r : TailRange)
    (hlead : leadByte lead = ([], .inside (more + 1) h r)) (hm : m < 64)
    (hlow : r.low ≤ m + 128) (hhigh : m + 128 ≤ r.high) :
    ∃ r value, leadByte lead = ([], .inside (more + 1) value r) ∧
      Utf8State.read (.inside (more + 1) value r) (m + 128) =
        ([], .inside more (h * 64 + m) .any) := by
  have hmod : (m + 128) % 64 = m := by omega
  exact ⟨r, h, hlead, by rw [read_more hlow hhigh, hmod]⟩

/-- A lead of three bytes and the byte after it. -/
theorem read_lead_three {h m : Nat} (hh : h < 16) (hm : m < 64) (hlong : 32 ≤ h * 64 + m)
    (hvalid : h * 64 + m < 864 ∨ 896 ≤ h * 64 + m) :
    ∃ r value, leadByte (h + 224) = ([], .inside 1 value r) ∧
      Utf8State.read (.inside 1 value r) (m + 128) = ([], .inside 0 (h * 64 + m) .any) := by
  by_cases h0 : h = 0
  · subst h0
    exact read_lead .afterE0 rfl hm (show 0xA0 ≤ _ by omega) (show _ ≤ 0xBF by omega)
  · by_cases h13 : h = 13
    · subst h13
      exact read_lead .afterED rfl hm (show 0x80 ≤ _ by omega) (show _ ≤ 0x9F by omega)
    · refine read_lead .any ?_ hm (show 0x80 ≤ _ by omega) (show _ ≤ 0xBF by omega)
      have hmod : (h + 224) % 16 = h := by omega
      unfold leadByte
      rw [if_neg (by omega), if_neg (by omega), if_neg (by omega), if_neg (by omega),
        if_pos (by omega), hmod]

/-- A lead of four bytes and the byte after it. -/
theorem read_lead_four {h m : Nat} (hm : m < 64) (hlong : 16 ≤ h * 64 + m)
    (hvalid : h * 64 + m < 272) :
    ∃ r value, leadByte (h + 240) = ([], .inside 2 value r) ∧
      Utf8State.read (.inside 2 value r) (m + 128) = ([], .inside 1 (h * 64 + m) .any) := by
  by_cases h0 : h = 0
  · subst h0
    exact read_lead .afterF0 rfl hm (show 0x90 ≤ _ by omega) (show _ ≤ 0xBF by omega)
  · by_cases h4 : h = 4
    · subst h4
      exact read_lead .afterF4 rfl hm (show 0x80 ≤ _ by omega) (show _ ≤ 0x8F by omega)
    · refine read_lead .any ?_ hm (show 0x80 ≤ _ by omega) (show _ ≤ 0xBF by omega)
      have hmod : (h + 240) % 8 = h := by omega
      unfold leadByte
      rw [if_neg (by omega), if_neg (by omega), if_neg (by omega), if_neg (by omega),
        if_neg (by omega), if_neg (by omega), if_pos (by omega), hmod]

/-- The bytes of one character. -/
theorem decodeFrom_char (c : Char) (bs : Bytes) :
    decodeFrom .start (String.utf8EncodeChar c ++ bs) = c :: decodeFrom .start bs := by
  have hvalid : c.val.toNat < 55296 ∨ 57343 < c.val.toNat ∧ c.val.toNat < 1114112 := c.valid
  have hchar := ofNat_toNat_val c
  unfold String.utf8EncodeChar
  generalize c.val.toNat = v at hvalid hchar
  dsimp only
  have htail : ∀ n, 0x80 ≤ n % 64 + 128 ∧ n % 64 + 128 ≤ 0xBF := by omega
  split
  · rename_i h1
    simp only [cons_append, nil_append, decodeFrom]
    rw [toNat_byte (by omega), read_ascii h1, hchar]
    rfl
  · split
    · rename_i h1 h2
      have hlead : leadByte (v / 64 % 32 + 192) = ([], .inside 0 (v / 64) .any) := by
        have hmod : (v / 64 % 32 + 192) % 32 = v / 64 := by omega
        unfold leadByte
        rw [if_neg (by omega), if_pos (by omega), hmod]
      have hvalue : v / 64 * 64 + (v % 64 + 128) % 64 = v := by omega
      simp only [cons_append, nil_append, decodeFrom]
      rw [toNat_byte (by omega), toNat_byte (by omega), Utf8State.read, hlead]
      dsimp only
      rw [read_last (htail v).1 (htail v).2, hvalue, hchar]
      rfl
    · split
      · rename_i h1 h2 h3
        obtain ⟨r, value, hlead, hread⟩ := read_lead_three (h := v / 4096 % 16) (m := v / 64 % 64)
          (by omega) (by omega) (by omega) (by omega)
        have hvalue : (v / 4096 % 16 * 64 + v / 64 % 64) * 64 + (v % 64 + 128) % 64 = v := by omega
        simp only [cons_append, nil_append, decodeFrom]
        rw [toNat_byte (by omega), toNat_byte (by omega), toNat_byte (by omega), Utf8State.read,
          hlead]
        dsimp only
        rw [hread]
        dsimp only
        rw [read_last (htail v).1 (htail v).2, hvalue, hchar]
        rfl
      · rename_i h1 h2 h3
        obtain ⟨r, value, hlead, hread⟩ := read_lead_four (h := v / 262144 % 8)
          (m := v / 4096 % 64) (by omega) (by omega) (by omega)
        have hvalue : ((v / 262144 % 8 * 64 + v / 4096 % 64) * 64 + (v / 64 % 64 + 128) % 64) * 64 +
            (v % 64 + 128) % 64 = v := by omega
        simp only [cons_append, nil_append, decodeFrom]
        rw [toNat_byte (by omega), toNat_byte (by omega), toNat_byte (by omega),
          toNat_byte (by omega), Utf8State.read, hlead]
        dsimp only
        rw [hread]
        dsimp only
        rw [read_more (htail (v / 64)).1 (htail (v / 64)).2]
        dsimp only
        rw [read_last (htail v).1 (htail v).2, hvalue, hchar]
        rfl

theorem fromUtf8Lossy_utf8 (cs : List Char) : fromUtf8Lossy (utf8 cs) = cs := by
  induction cs with
  | nil => rfl
  | cons c cs ih =>
    rw [utf8, flatMap_cons, fromUtf8Lossy, decodeFrom_char]
    exact congrArg (c :: ·) ih

/-! ### It makes no line feeds -/

/-- The character that is being read will need more than one byte. -/
def Utf8State.Wide : Utf8State → Prop
  | .start => True
  | .inside 0 value _ => 2 ≤ value
  | .inside (_ + 1) value range => 130 ≤ value * 64 + range.low

theorem ofNat_ne_newline {n : Nat} (h : n ≠ 10) : Char.ofNat n ≠ '\n' := by
  intro heq
  by_cases hvalid : n.isValidChar
  · have hchar : Char.ofNat n = Char.ofNatAux n hvalid := dif_pos hvalid
    exact h (congrArg Char.toNat (hchar.symm.trans heq))
  · have hchar : Char.ofNat n = '\x00' := dif_neg hvalid
    exact absurd (hchar.symm.trans heq) (by decide)

theorem leadByte_wide (hb : b ≠ 10) : '\n' ∉ (leadByte b).1 ∧ (leadByte b).2.Wide := by
  have hnil : '\n' ∉ ([] : List Char) := not_mem_nil
  unfold leadByte
  split
  · exact ⟨fun h => ofNat_ne_newline hb (mem_singleton.1 h).symm, trivial⟩
  split
  · exact ⟨hnil, show 2 ≤ b % 32 by omega⟩
  split
  · exact ⟨hnil, show 130 ≤ 0 * 64 + 0xA0 by decide⟩
  split
  · exact ⟨hnil, show 130 ≤ 13 * 64 + 0x80 by decide⟩
  split
  · exact ⟨hnil, show 130 ≤ b % 16 * 64 + 0x80 by omega⟩
  split
  · exact ⟨hnil, show 130 ≤ 0 * 64 + 0x90 by decide⟩
  split
  · exact ⟨hnil, show 130 ≤ b % 8 * 64 + 0x80 by omega⟩
  split
  · exact ⟨hnil, show 130 ≤ 4 * 64 + 0x80 by decide⟩
  · exact ⟨by decide, trivial⟩

theorem read_wide (hq : q.Wide) (hb : b ≠ 10) : '\n' ∉ (q.read b).1 ∧ (q.read b).2.Wide := by
  obtain ⟨hnewline, hwide⟩ := leadByte_wide hb
  cases q with
  | start => exact ⟨hnewline, hwide⟩
  | inside more value range =>
    have hlow := low_le range
    have hhigh : range.high ≤ 0xBF := by cases range <;> decide
    by_cases hin : range.low ≤ b ∧ b ≤ range.high
    · cases more with
      | zero =>
        have hvalue : 2 ≤ value := hq
        rw [read_last hin.1 hin.2]
        refine ⟨fun h => ?_, trivial⟩
        exact ofNat_ne_newline (by omega) (mem_singleton.1 h).symm
      | succ more =>
        have hvalue : 130 ≤ value * 64 + range.low := hq
        rw [read_more hin.1 hin.2]
        refine ⟨not_mem_nil, ?_⟩
        cases more with
        | zero => exact show 2 ≤ value * 64 + b % 64 by omega
        | succ more => exact show 130 ≤ (value * 64 + b % 64) * 64 + 0x80 by omega
    · unfold Utf8State.read
      dsimp only
      rw [if_neg hin]
      refine ⟨fun h => ?_, hwide⟩
      obtain h | h := mem_cons.1 h
      · exact absurd h (by decide)
      · exact hnewline h

theorem newline_not_mem_decodeFrom (hq : q.Wide) (hbs : 10 ∉ bs) : '\n' ∉ decodeFrom q bs := by
  induction bs generalizing q with
  | nil =>
    cases q with
    | start => exact not_mem_nil
    | inside more value range => exact (by decide : '\n' ∉ [replacementChar])
  | cons b bs ih =>
    have hb : b.toNat ≠ 10 := fun h => hbs (mem_cons.2 (.inl (UInt8.toNat_inj.1 h).symm))
    obtain ⟨hnewline, hwide⟩ := read_wide hq hb
    rw [decodeFrom, mem_append]
    exact not_or.2 ⟨hnewline, ih hwide fun h => hbs (mem_cons_of_mem _ h)⟩

theorem newline_not_mem_fromUtf8Lossy (hbs : 10 ∉ bs) : '\n' ∉ fromUtf8Lossy bs :=
  newline_not_mem_decodeFrom trivial hbs

end Decoder

/-! ## Lines -/

/-- A line without the carriage return at its end. -/
def stripCr (line : List Char) : List Char :=
  if line.getLast? = some '\r' then line.dropLast else line

/-- The rest of the lines, once `line` is read of the next one. -/
def linesFrom (line : List Char) : List Char → List (List Char)
  | [] => if line = [] then [] else [line]
  | c :: cs => if c = '\n' then stripCr line :: linesFrom [] cs else linesFrom (line ++ [c]) cs

/-- The lines of a text; the last one may lack its line feed. -/
def lines (cs : List Char) : List (List Char) := linesFrom [] cs

section Lines

variable {line cs l : List Char}

theorem linesFrom_append {a : List Char} (ha : '\n' ∉ a) :
    linesFrom line (a ++ '\n' :: cs) = stripCr (line ++ a) :: lines cs := by
  induction a generalizing line with
  | nil =>
    rw [nil_append, linesFrom, if_pos rfl, append_nil]
    rfl
  | cons c a ih =>
    have hc : c ≠ '\n' := fun h => ha (mem_cons.2 (.inl h.symm))
    rw [cons_append, linesFrom, if_neg hc, ih fun h => ha (mem_cons_of_mem _ h),
      append_assoc]
    rfl

theorem stripCr_sublist (line : List Char) : (stripCr line).Sublist line := by
  unfold stripCr
  split
  · exact dropLast_sublist line
  · exact List.Sublist.refl line

theorem newline_not_mem_linesFrom (hline : '\n' ∉ line) (hl : l ∈ linesFrom line cs) :
    '\n' ∉ l := by
  induction cs generalizing line with
  | nil =>
    unfold linesFrom at hl
    split at hl
    · cases hl
    · exact mem_singleton.1 hl ▸ hline
  | cons c cs ih =>
    unfold linesFrom at hl
    split at hl
    · obtain rfl | hl := mem_cons.1 hl
      · exact fun h => hline ((stripCr_sublist line).subset h)
      · exact ih not_mem_nil hl
    · rename_i hc
      refine ih ?_ hl
      rw [mem_append, not_or]
      exact ⟨hline, fun h => hc (mem_singleton.1 h).symm⟩

theorem newline_not_mem_lines (hl : l ∈ lines cs) : '\n' ∉ l :=
  newline_not_mem_linesFrom not_mem_nil hl

/-- A file of lines, each with its line feed. -/
def unlines (ls : List Bytes) : Bytes := ls.flatMap (· ++ [10])

/-- Each line of the file is decoded for itself. -/
theorem lines_fromUtf8Lossy {ls : List Bytes} (h : ∀ l ∈ ls, '\n' ∉ fromUtf8Lossy l) :
    lines (fromUtf8Lossy (unlines ls)) = ls.map fun l => stripCr (fromUtf8Lossy l) := by
  induction ls with
  | nil => rfl
  | cons l ls ih =>
    have hsplit : fromUtf8Lossy (unlines (l :: ls)) =
        fromUtf8Lossy l ++ '\n' :: fromUtf8Lossy (unlines ls) := by
      rw [unlines, flatMap_cons, append_assoc]
      exact decodeFrom_newline .start l (unlines ls)
    rw [hsplit, lines, linesFrom_append (h l mem_cons_self), map_cons,
      ih fun l' hl' => h l' (mem_cons_of_mem _ hl')]
    rfl

end Lines

/-! ## Trimming -/

theorem trimChars_eq_rdropWhile (cs : List Char) :
    trimChars cs = (cs.dropWhile isWhitespace).rdropWhile isWhitespace := rfl

/-- White space at the end is trimmed anyway. -/
theorem trimChars_concat {cs : List Char} {c : Char} (hc : isWhitespace c = true) :
    trimChars (cs ++ [c]) = trimChars cs := by
  rw [trimChars_eq_rdropWhile, trimChars_eq_rdropWhile, dropWhile_append]
  split
  · rename_i hempty
    rw [isEmpty_iff.1 hempty, dropWhile_cons_of_pos hc]
    rfl
  · exact rdropWhile_concat_pos _ _ _ hc

theorem trimChars_stripCr (line : List Char) : trimChars (stripCr line) = trimChars line := by
  unfold stripCr
  split
  · rename_i hlast
    have hline := dropLast_append_getLast? '\r' hlast
    calc trimChars line.dropLast
        = trimChars (line.dropLast ++ ['\r']) := (trimChars_concat (by decide)).symm
      _ = trimChars line := by rw [hline]
  · rfl

theorem trimChars_idem (cs : List Char) : trimChars (trimChars cs) = trimChars cs := by
  have hback : (trimChars cs).rdropWhile isWhitespace = trimChars cs :=
    rdropWhile_idempotent _ _
  have hfront : (trimChars cs).dropWhile isWhitespace = trimChars cs := by
    -- the first character is that of the text without white space in front
    obtain ⟨more, hmore⟩ := rdropWhile_prefix isWhitespace (cs.dropWhile isWhitespace)
    have hidem := dropWhile_idempotent isWhitespace cs
    rw [← hmore] at hidem
    rw [trimChars_eq_rdropWhile]
    cases htrim : (cs.dropWhile isWhitespace).rdropWhile isWhitespace with
    | nil => rfl
    | cons c rest =>
      rw [htrim, cons_append] at hidem
      by_cases hc : isWhitespace c = true
      · rw [dropWhile_cons_of_pos hc] at hidem
        have hlen := congrArg List.length hidem
        have hle := (dropWhile_sublist isWhitespace (l := rest ++ more)).length_le
        rw [length_cons] at hlen
        omega
      · exact dropWhile_cons_of_neg hc
  rw [trimChars_eq_rdropWhile (trimChars cs), hfront, hback]

end RivetLink.Foundation
