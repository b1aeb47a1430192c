import RivetLink.Foundation.Text

/-!
# JSON texts

`Json` is a JSON value, `Json.render` writes it and `Json.parse` reads a text. A `Layout` says which
white space a writer puts before the entries of an array or object and after a colon;
`Layout.compact` writes none.

The reader is a recursive descent over the text. It refuses what a strict reader refuses: leading
zeros, trailing commas, control characters inside strings, lone surrogates, nesting deeper than the
limit, anything but white space after the value. An integer that fits neither 64-bit type, and a
number with a fraction or an exponent, is read as a `float`, which keeps the text.

`Fits d j` says that `j` can be written and read back: its integers are 64-bit integers, it has no
floats and it nests at most `d` levels deep. Then `parse_render` holds: what was written is read
back, in any layout. The key is `parseValue_render`, with more text after the value; only a number
cares what comes next, hence `Stops`.
-/

namespace RivetLink.Foundation

open List Option

/-- A JSON value. An object keeps its members in the order of the text, duplicates included. -/
inductive Json where
  | null
  | bool (b : Bool)
  | int (n : Int)
  | float (text : List Char)
  | str (cs : List Char)
  | arr (xs : List Json)
  | obj (ms : List (String × Json))

namespace Json

/-! ## White space -/

/-- White space between tokens. -/
def isSpace (c : Char) : Bool := c = ' ' || c = '\n' || c = '\t' || c = '\r'

def skipSpace (cs : List Char) : List Char := cs.dropWhile isSpace

theorem skipSpace_append {sp : List Char} (h : ∀ c ∈ sp, isSpace c = true) (cs : List Char) :
    skipSpace (sp ++ cs) = skipSpace cs := by
  induction sp with
  | nil => rfl
  | cons c sp ih =>
    have hc := h c mem_cons_self
    have hrest := ih fun d hd => h d (mem_cons_of_mem c hd)
    simpa [skipSpace, hc] using hrest

variable {c : Char} {n fuel : Nat} {rest : List Char}

theorem skipSpace_cons (h : isSpace c = false) (cs : List Char) :
    skipSpace (c :: cs) = c :: cs := by
  simp [skipSpace, h]

/-- The white space that a writer puts between tokens. -/
structure Layout where
  /-- Before an entry at this level, and before the bracket that closes a list of entries. -/
  gap : Nat → List Char
  afterColon : List Char
  gap_isSpace : ∀ n, ∀ c ∈ gap n, isSpace c = true
  afterColon_isSpace : ∀ c ∈ afterColon, isSpace c = true

/-- No white space at all. -/
def Layout.compact : Layout where
  gap _ := []
  afterColon := []
  gap_isSpace := by simp
  afterColon_isSpace := by simp

/-! ## Strings -/

def hexDigit (n : Nat) : Char := "0123456789abcdef".toList.getD n '0'

/-- The value of a hexadecimal digit of either case. -/
def hexValue (c : Char) : Option Nat :=
  if c.isDigit then some (c.toNat - 48)
  else if 'a' ≤ c ∧ c ≤ 'f' then some (c.toNat - 87)
  else if 'A' ≤ c ∧ c ≤ 'F' then some (c.toNat - 55)
  else none

/-- A character inside a string. -/
def escapeChar (c : Char) : List Char :=
  if c = '"' then ['\\', '"']
  else if c = '\\' then ['\\', '\\']
  else if c.toNat = 8 then ['\\', 'b']
  else if c.toNat = 9 then ['\\', 't']
  else if c.toNat = 10 then ['\\', 'n']
  else if c.toNat = 12 then ['\\', 'f']
  else if c.toNat = 13 then ['\\', 'r']
  else if c.toNat < 32 then
    ['\\', 'u', '0', '0', hexDigit (c.toNat / 16), hexDigit (c.toNat % 16)]
  else [c]

def quote (cs : List Char) : List Char := '"' :: cs.flatMap escapeChar ++ ['"']

/-- Four hexadecimal digits. -/
def readHex : List Char → Option (Nat × List Char)
  | a :: b :: c :: d :: rest => do
      let a ← hexValue a
      let b ← hexValue b
      let c ← hexValue c
      let d ← hexValue d
      some (((a * 16 + b) * 16 + c) * 16 + d, rest)
  | _ => none

/-- What follows the first half of a surrogate pair: the escape of the second half. -/
def readTrailing (leading : Nat) : List Char → Option (Char × List Char)
  | '\\' :: 'u' :: rest => do
      let (n, rest) ← readHex rest
      if 0xDC00 ≤ n ∧ n ≤ 0xDFFF then
        some (Char.ofNat (0x10000 + (leading - 0xD800) * 0x400 + (n - 0xDC00)), rest)
      else none
  | _ => none

/-- What follows a backslash and a `u`. -/
def readUnicode (cs : List Char) : Option (Char × List Char) := do
  let (n, rest) ← readHex cs
  if 0xD800 ≤ n ∧ n ≤ 0xDBFF then readTrailing n rest
  else if 0xDC00 ≤ n ∧ n ≤ 0xDFFF then none
  else some (Char.ofNat n, rest)

/-- What follows a backslash. -/
def readEscape : List Char → Option (Char × List Char)
  | [] => none
  | e :: rest =>
    if e = '"' ∨ e = '\\' ∨ e = '/' then some (e, rest)
    else if e = 'b' then some (Char.ofNat 8, rest)
    else if e = 'f' then some (Char.ofNat 12, rest)
    else if e = 'n' then some (Char.ofNat 10, rest)
    else if e = 'r' then some (Char.ofNat 13, rest)
    else if e = 't' then some (Char.ofNat 9, rest)
    else if e = 'u' then readUnicode rest
    else none

/-- A string after its opening quote. -/
def readString : Nat → List Char → Option (List Char × List Char)
  | 0, _ => none
  | _ + 1, [] => none
  | fuel + 1, c :: rest =>
    if c = '"' then some ([], rest)
    else if c = '\\' then do
      let (e, rest) ← readEscape rest
      let (cs, rest) ← readString fuel rest
      some (e :: cs, rest)
    else if c.toNat < 32 then none
    else do
      let (cs, rest) ← readString fuel rest
      some (c :: cs, rest)

/-! ## Numbers -/

def integerText (n : Int) : List Char :=
  if n < 0 then '-' :: Nat.toDigits 10 n.natAbs else Nat.toDigits 10 n.natAbs

/-- The digits before a fraction: at least one, and no zero before another digit. -/
def readDigits (cs : List Char) : Option (List Char × List Char) :=
  if cs.takeWhile Char.isDigit = [] ∨
      (cs.takeWhile Char.isDigit).head? = some '0' ∧ (cs.takeWhile Char.isDigit).length ≠ 1 then
    none
  else some (cs.takeWhile Char.isDigit, cs.dropWhile Char.isDigit)

def readSomeDigits (cs : List Char) : Option (List Char × List Char) :=
  if cs.takeWhile Char.isDigit = [] then none
  else some (cs.takeWhile Char.isDigit, cs.dropWhile Char.isDigit)

def readFraction : List Char → Option (List Char × List Char)
  | [] => some ([], [])
  | c :: rest =>
    if c = '.' then (readSomeDigits rest).map fun p => (c :: p.1, p.2)
    else some ([], c :: rest)

def readExponent : List Char → Option (List Char × List Char)
  | [] => some ([], [])
  | c :: rest =>
    if c = 'e' ∨ c = 'E' then
      match rest with
      | [] => none
      | s :: more =>
        if s = '+' ∨ s = '-' then (readSomeDigits more).map fun p => (c :: s :: p.1, p.2)
        else (readSomeDigits rest).map fun p => (c :: p.1, p.2)
    else some ([], c :: rest)

/-- The value of a number without fraction and exponent, when it is a 64-bit integer. -/
def integerValue (negative : Bool) (digits : List Char) : Option Int :=
  if negative then
    if 0 < Nat.ofDigitChars 10 digits 0 ∧ Nat.ofDigitChars 10 digits 0 ≤ 2 ^ 63 then
      some (-(Nat.ofDigitChars 10 digits 0 : Int))
    else none
  else if Nat.ofDigitChars 10 digits 0 < 2 ^ 64 then some (Nat.ofDigitChars 10 digits 0 : Int)
  else none

/-- A number after its sign. -/
def readUnsigned (negative : Bool) (cs : List Char) : Option (Json × List Char) := do
  let (digits, rest) ← readDigits cs
  let (fraction, rest) ← readFraction rest
  let (exponent, rest) ← readExponent rest
  match (if fraction ++ exponent = [] then integerValue negative digits else none) with
  | some n => some (.int n, rest)
  | none =>
    some (.float ((if negative then ['-'] else []) ++ digits ++ fraction ++ exponent), rest)

def readNumber : List Char → Option (Json × List Char)
  | [] => none
  | c :: rest => if c = '-' then readUnsigned true rest else readUnsigned false (c :: rest)

/-! ## Values -/

def readWord (word : List Char) (j : Json) (cs : List Char) : Option (Json × List Char) :=
  if word.isPrefixOf cs then some (j, cs.drop word.length) else none

mutual

/-- The text of a value at a level of nesting. -/
def render (L : Layout) : Nat → Json → List Char
  | _, .null => ['n', 'u', 'l', 'l']
  | _, .bool true => ['t', 'r', 'u', 'e']
  | _, .bool false => ['f', 'a', 'l', 's', 'e']
  | _, .int n => integerText n
  | _, .float text => text
  | _, .str cs => quote cs
  | _, .arr [] => ['[', ']']
  | n, .arr (x :: xs) => '[' :: L.gap (n + 1) ++ render L (n + 1) x ++ renderElements L n xs
  | _, .obj [] => ['\x7b', '\x7d']
  | n, .obj ((k, v) :: ms) =>
    '\x7b' :: L.gap (n + 1) ++ quote k.toList ++ ':' :: L.afterColon ++ render L (n + 1) v ++
      renderMembers L n ms

/-- The elements after the first one, and the closing bracket. -/
def renderElements (L : Layout) : Nat → List Json → List Char
  | n, [] => L.gap n ++ [']']
  | n, x :: xs => ',' :: L.gap (n + 1) ++ render L (n + 1) x ++ renderElements L n xs

/-- The members after the first one, and the closing brace. -/
def renderMembers (L : Layout) : Nat → List (String × Json) → List Char
  | n, [] => L.gap n ++ ['\x7d']
  | n, (k, v) :: ms =>
    ',' :: L.gap (n + 1) ++ quote k.toList ++ ':' :: L.afterColon ++ render L (n + 1) v ++
      renderMembers L n ms

end

def readKey (cs : List Char) : Option (String × List Char) :=
  match skipSpace cs with
  | [] => none
  | c :: rest =>
    if c = '"' then do
      let (key, rest) ← readString rest.length rest
      match skipSpace rest with
      | ':' :: rest => some (String.ofList key, rest)
      | _ => none
    else none

mutual

/-- Reads a value. `depth` is how many more brackets may be opened, plus one. -/
def parseValue : Nat → Nat → List Char → Option (Json × List Char)
  | 0, _, _ => none
  | fuel + 1, depth, cs =>
    match skipSpace cs with
    | [] => none
    | c :: rest =>
      if c = 'n' then readWord ['u', 'l', 'l'] .null rest
      else if c = 't' then readWord ['r', 'u', 'e'] (.bool true) rest
      else if c = 'f' then readWord ['a', 'l', 's', 'e'] (.bool false) rest
      else if c = '"' then
        (readString rest.length rest).map fun p => (.str p.1, p.2)
      else if c = '[' then
        if depth ≤ 1 then none
        else if (skipSpace rest).head? = some ']' then some (.arr [], (skipSpace rest).tail)
        else do
          let (x, rest) ← parseValue fuel (depth - 1) rest
          let (xs, rest) ← parseElements fuel (depth - 1) rest
          some (.arr (x :: xs), rest)
      else if c = '\x7b' then
        if depth ≤ 1 then none
        else if (skipSpace rest).head? = some '\x7d' then
          some (.obj [], (skipSpace rest).tail)
        else do
          let (k, rest) ← readKey rest
          let (v, rest) ← parseValue fuel (depth - 1) rest
          let (ms, rest) ← parseMembers fuel (depth - 1) rest
          some (.obj ((k, v) :: ms), rest)
      else readNumber (c :: rest)

def parseElements : Nat → Nat → List Char → Option (List Json × List Char)
  | 0, _, _ => none
  | fuel + 1, depth, cs =>
    match skipSpace cs with
    | [] => none
    | c :: rest =>
      if c = ']' then some ([], rest)
      else if c = ',' then do
        let (x, rest) ← parseValue fuel depth rest
        let (xs, rest) ← parseElements fuel depth rest
        some (x :: xs, rest)
      else none

def parseMembers : Nat → Nat → List Char → Option (List (String × Json) × List Char)
  | 0, _, _ => none
  | fuel + 1, depth, cs =>
    match skipSpace cs with
    | [] => none
    | c :: rest =>
      if c = '\x7d' then some ([], rest)
      else if c = ',' then do
        let (k, rest) ← readKey rest
        let (v, rest) ← parseValue fuel depth rest
        let (ms, rest) ← parseMembers fuel depth rest
        some ((k, v) :: ms, rest)
      else none

end

/-- One bracket more than a text may nest. -/
def recursionLimit : Nat := 128

/-- The value of a text. Every step of the reader consumes a character, so the length of the text
is fuel enough. -/
def parse (cs : List Char) : Option Json :=
  match parseValue cs.length recursionLimit cs with
  | some (j, rest) => if skipSpace rest = [] then some j else none
  | none => none

/-! ## Reading back a string -/

theorem hexValue_hexDigit (h : n < 16) : hexValue (hexDigit n) = some n := by
  have hall : ∀ m : Fin 16, hexValue (hexDigit m.val) = some m.val := by decide +kernel
  exact hall ⟨n, h⟩

/-- The escape of a control character. -/
theorem readUnicode_control (h : n < 32) (cs : List Char) :
    readUnicode ('0' :: '0' :: hexDigit (n / 16) :: hexDigit (n % 16) :: cs) =
      some (Char.ofNat n, cs) := by
  have hzero : hexValue '0' = some 0 := by decide
  have hhigh := hexValue_hexDigit (n := n / 16) (by omega)
  have hlow := hexValue_hexDigit (n := n % 16) (by omega)
  have hvalue : ((0 * 16 + 0) * 16 + n / 16) * 16 + n % 16 = n := by omega
  have hhex : readHex ('0' :: '0' :: hexDigit (n / 16) :: hexDigit (n % 16) :: cs) =
      some (n, cs) := by
    simp only [readHex, hzero, hhigh, hlow, bind_eq_bind, bind_some, hvalue]
  have hleading : ¬ (0xD800 ≤ n ∧ n ≤ 0xDBFF) := by omega
  have htrailing : ¬ (0xDC00 ≤ n ∧ n ≤ 0xDFFF) := by omega
  simp only [readUnicode, hhex, bind_eq_bind, bind_some, if_neg hleading,
    if_neg htrailing]

/-- An escape sequence is read as its character. -/
theorem readString_escape (es : List Char) {cs : List Char}
    (h : readEscape (es ++ cs) = some (c, cs)) :
    readString (fuel + 1) ('\\' :: es ++ cs) =
      (readString fuel cs).map fun p => (c :: p.1, p.2) := by
  have hquote : '\\' ≠ '"' := by decide
  simp only [List.cons_append, readString, if_neg hquote, if_true, h, Option.bind_eq_bind,
    Option.bind_some]
  cases readString fuel cs with
  | none | some p => rfl

theorem readString_escapeChar (fuel : Nat) (c : Char) (cs : List Char) :
    readString (fuel + 1) (escapeChar c ++ cs) =
      (readString fuel cs).map fun p => (c :: p.1, p.2) := by
  have hnat : ∀ n, c.toNat = n → Char.ofNat n = c := by
    intro n hn
    rw [← hn, Char.ofNat_toNat]
  -- one case per branch of the writer
  unfold escapeChar
  split_ifs with hquote hslash hb ht hn hf hr hcontrol
  · subst hquote
    exact readString_escape ['"'] rfl
  · subst hslash
    exact readString_escape ['\\'] rfl
  · exact readString_escape ['b'] (by rw [← hnat 8 hb]; rfl)
  · exact readString_escape ['t'] (by rw [← hnat 9 ht]; rfl)
  · exact readString_escape ['n'] (by rw [← hnat 10 hn]; rfl)
  · exact readString_escape ['f'] (by rw [← hnat 12 hf]; rfl)
  · exact readString_escape ['r'] (by rw [← hnat 13 hr]; rfl)
  · refine readString_escape ['u', '0', '0', hexDigit (c.toNat / 16),
      hexDigit (c.toNat % 16)] ?_
    have hread := readUnicode_control hcontrol cs
    rw [hnat c.toNat rfl] at hread
    exact hread
  · simp only [singleton_append, readString, if_neg hquote, if_neg hslash, if_neg hcontrol]
    cases readString fuel cs with
    | none | some p => rfl

/-- A quoted string is read back. -/
theorem readString_flatMap (cs rest : List Char) (h : cs.length < fuel) :
    readString fuel (cs.flatMap escapeChar ++ '"' :: rest) = some (cs, rest) := by
  induction cs generalizing fuel with
  | nil =>
    obtain ⟨fuel, rfl⟩ := Nat.exists_eq_add_of_lt h
    simp [readString]
  | cons c cs ih =>
    cases fuel with
    | zero => exact absurd h (Nat.not_lt_zero _)
    | succ fuel =>
      have hrest := ih (Nat.lt_of_succ_lt_succ h)
      rw [List.flatMap_cons, List.append_assoc, readString_escapeChar, hrest]
      rfl

theorem length_le_flatMap_escapeChar (cs : List Char) :
    cs.length ≤ (cs.flatMap escapeChar).length := by
  have hone : ∀ c, 1 ≤ (escapeChar c).length := by
    intro c
    unfold escapeChar
    split_ifs <;> simp
  induction cs with
  | nil => exact Nat.le_refl 0
  | cons c cs ih =>
    have hc := hone c
    simp only [List.flatMap_cons, List.length_append, List.length_cons]
    omega

/-- The fuel that the reader gives to a string is enough for a quoted one. -/
theorem readString_quote (cs rest : List Char) :
    readString (cs.flatMap escapeChar ++ '"' :: rest).length
      (cs.flatMap escapeChar ++ '"' :: rest) = some (cs, rest) := by
  have hlen := length_le_flatMap_escapeChar cs
  refine readString_flatMap cs rest ?_
  simp only [List.length_append, List.length_cons]
  omega

/-! ## Reading back a number -/

/-- What may follow a number: nothing, white space, a comma or a closing bracket. -/
def Stops (rest : List Char) : Prop :=
  ∀ c ∈ rest.head?, isSpace c = true ∨ c = ',' ∨ c = ']' ∨ c = '\x7d'

theorem Stops.nil : Stops [] := by
  intro c hc
  simp at hc

theorem Stops.cons (cs : List Char)
    (h : isSpace c = true ∨ c = ',' ∨ c = ']' ∨ c = '\x7d') : Stops (c :: cs) := by
  intro d hd
  simp only [List.head?_cons, Option.mem_def, Option.some.injEq] at hd
  exact hd ▸ h

/-- White space before what stops a number stops it too. -/
theorem Stops.space_append {sp cs : List Char} (h : ∀ c ∈ sp, isSpace c = true) (hcs : Stops cs) :
    Stops (sp ++ cs) := by
  cases sp with
  | nil => exact hcs
  | cons c sp => exact Stops.cons _ (.inl (h c List.mem_cons_self))

/-- A character that stops a number does not continue it. -/
theorem not_continues (h : isSpace c = true ∨ c = ',' ∨ c = ']' ∨ c = '\x7d') :
    c.isDigit = false ∧ c ≠ '.' ∧ ¬ (c = 'e' ∨ c = 'E') := by
  simp only [isSpace, Bool.or_eq_true, decide_eq_true_eq] at h
  rcases h with (((rfl | rfl) | rfl) | rfl) | rfl | rfl | rfl <;> decide

theorem Stops.takeWhile_append (h : Stops rest) (ds : List Char)
    (hds : ∀ c ∈ ds, c.isDigit = true) :
    (ds ++ rest).takeWhile Char.isDigit = ds ∧ (ds ++ rest).dropWhile Char.isDigit = rest := by
  have hrest : rest.takeWhile Char.isDigit = [] ∧ rest.dropWhile Char.isDigit = rest := by
    cases rest with
    | nil => exact ⟨rfl, rfl⟩
    | cons c cs =>
      have hc := (not_continues (h c rfl)).1
      simp [hc]
  rw [List.takeWhile_append_of_pos hds, List.dropWhile_append_of_pos hds, hrest.1, hrest.2]
  exact ⟨List.append_nil _, rfl⟩

theorem Stops.readFraction (h : Stops rest) : Json.readFraction rest = some ([], rest) := by
  cases rest with
  | nil => rfl
  | cons c cs => simp [Json.readFraction, (not_continues (h c rfl)).2.1]

theorem Stops.readExponent (h : Stops rest) : Json.readExponent rest = some ([], rest) := by
  cases rest with
  | nil => rfl
  | cons c cs => simp only [Json.readExponent, if_neg (not_continues (h c rfl)).2.2]

/-- Decimal digits do not start with a zero, unless the number is zero. -/
theorem head?_toDigits (h : (Nat.toDigits 10 n).head? = some '0') : n = 0 := by
  induction n using Nat.strongRecOn with
  | _ n ih =>
    rw [Nat.toDigits_eq_if (by decide)] at h
    split at h
    · next hlt =>
        simp only [List.head?_cons, Option.some.injEq] at h
        exact Nat.digitChar_eq_zero.1 h
    · next hge =>
        have hne := Nat.toDigits_ne_nil (b := 10) (n := n / 10)
        rw [List.head?_append_of_ne_nil _ hne] at h
        have hzero := ih (n / 10) (by omega) h
        omega

/-- The digits of a number are read back. -/
theorem readDigits_toDigits (n : Nat) (h : Stops rest) :
    readDigits (Nat.toDigits 10 n ++ rest) = some (Nat.toDigits 10 n, rest) := by
  obtain ⟨htake, hdrop⟩ := h.takeWhile_append (Nat.toDigits 10 n)
    fun _ hc => Nat.isDigit_of_mem_toDigits (by decide) (by decide) hc
  have hne : Nat.toDigits 10 n ≠ [] := Nat.toDigits_ne_nil
  have hzero : ¬ ((Nat.toDigits 10 n).head? = some '0' ∧ (Nat.toDigits 10 n).length ≠ 1) := by
    rintro ⟨hhead, hlen⟩
    rw [head?_toDigits hhead] at hlen
    exact hlen rfl
  unfold readDigits
  rw [htake, hdrop, if_neg (not_or.2 ⟨hne, hzero⟩)]

/-- An integer is a 64-bit integer, signed or unsigned. -/
def Is64Bit (n : Int) : Prop := -2 ^ 63 ≤ n ∧ n < 2 ^ 64

theorem readUnsigned_toDigits {negative : Bool} {k : Nat} {n : Int} (hstop : Stops rest)
    (hvalue : integerValue negative (Nat.toDigits 10 k) = some n) :
    readUnsigned negative (Nat.toDigits 10 k ++ rest) = some (.int n, rest) := by
  simp only [readUnsigned, readDigits_toDigits k hstop, hstop.readFraction, hstop.readExponent,
    Option.bind_eq_bind, Option.bind_some, List.append_nil, if_true, hvalue]

/-- The text of an integer starts with a sign or a digit. -/
theorem integerText_eq_cons (n : Int) :
    ∃ c cs, integerText n = c :: cs ∧ (c = '-' ∨ c.isDigit = true) := by
  unfold integerText
  split_ifs
  · exact ⟨_, _, rfl, .inl rfl⟩
  · cases hdigits : Nat.toDigits 10 n.natAbs with
    | nil => exact absurd hdigits Nat.toDigits_ne_nil
    | cons c cs =>
      have hc : c.isDigit = true :=
        Nat.isDigit_of_mem_toDigits (by decide) (by decide) (hdigits ▸ List.mem_cons_self)
      exact ⟨c, cs, rfl, .inr hc⟩

/-- A sign or a digit is no other token. -/
theorem not_token (h : c = '-' ∨ c.isDigit = true) (d : Char) (hd : d ≠ '-' ∧ d.isDigit = false) :
    c ≠ d := by
  rintro rfl
  rcases h with h | h
  · exact hd.1 h
  · exact absurd (h.symm.trans hd.2) (by decide)

theorem isSpace_of_number (h : c = '-' ∨ c.isDigit = true) : isSpace c = false := by
  simp only [isSpace, not_token h ' ' (by decide), not_token h '\n' (by decide),
    not_token h '\t' (by decide), not_token h '\r' (by decide), decide_false, Bool.or_self]

theorem readNumber_integerText {n : Int} (hn : Is64Bit n) (hstop : Stops rest) :
    readNumber (integerText n ++ rest) = some (.int n, rest) := by
  have hread : Nat.ofDigitChars 10 (Nat.toDigits 10 n.natAbs) 0 = n.natAbs :=
    Nat.ofDigitChars_ten_toDigits
  unfold integerText
  obtain ⟨hlow, hhigh⟩ := hn
  split_ifs with hneg
  · have hvalue : integerValue true (Nat.toDigits 10 n.natAbs) = some n := by
      have hrange : 0 < n.natAbs ∧ n.natAbs ≤ 2 ^ 63 := by omega
      simp only [integerValue, if_true, hread, if_pos hrange, Option.some.injEq]
      omega
    rw [List.cons_append]
    simpa [readNumber] using readUnsigned_toDigits hstop hvalue
  · have hvalue : integerValue false (Nat.toDigits 10 n.natAbs) = some n := by
      have hrange : n.natAbs < 2 ^ 64 := by omega
      simp only [integerValue, Bool.false_eq_true, if_false, hread, if_pos hrange,
        Option.some.injEq]
      omega
    -- the text starts with a digit, not with a sign
    cases hdigits : Nat.toDigits 10 n.natAbs with
    | nil => exact absurd hdigits Nat.toDigits_ne_nil
    | cons d ds =>
      have hd : d.isDigit = true :=
        Nat.isDigit_of_mem_toDigits (by decide) (by decide) (hdigits ▸ List.mem_cons_self)
      have hsign : d ≠ '-' := by
        rintro rfl
        exact absurd hd (by decide)
      have hunsigned := readUnsigned_toDigits hstop hvalue
      rw [hdigits, List.cons_append] at hunsigned
      simpa only [List.cons_append, readNumber, if_neg hsign] using hunsigned

/-! ## Reading back a value -/

/-- A value that can be written and read back: 64-bit integers, no floats, at most `d` levels. -/
inductive Fits : Nat → Json → Prop where
  | null (d : Nat) : Fits d .null
  | bool (d : Nat) (b : Bool) : Fits d (.bool b)
  | int (d : Nat) {n : Int} (h : Is64Bit n) : Fits d (.int n)
  | str (d : Nat) (cs : List Char) : Fits d (.str cs)
  | arr {d : Nat} {xs : List Json} (h : ∀ x ∈ xs, Fits d x) : Fits (d + 1) (.arr xs)
  | obj {d : Nat} {ms : List (String × Json)} (h : ∀ m ∈ ms, Fits d m.2) : Fits (d + 1) (.obj ms)

section Reading

variable (L : Layout) {sp : List Char} {j : Json} {d : Nat}

/-- Reading a value starts by skipping white space. -/
theorem parseValue_space {depth : Nat} (h : ∀ c ∈ sp, isSpace c = true) (cs : List Char) :
    parseValue fuel depth (sp ++ cs) = parseValue fuel depth cs := by
  cases fuel with
  | zero => simp only [parseValue]
  | succ fuel => simp only [parseValue, skipSpace_append h]

theorem isSpace_quote : isSpace '"' = false := by decide

theorem readKey_quote (h : ∀ c ∈ sp, isSpace c = true) (k : String) (rest : List Char) :
    readKey (sp ++ quote k.toList ++ ':' :: rest) = some (k, rest) := by
  have hcolon : isSpace ':' = false := by decide
  have hskip : skipSpace (sp ++ quote k.toList ++ ':' :: rest) =
      '"' :: (k.toList.flatMap escapeChar ++ '"' :: ':' :: rest) := by
    rw [append_assoc, skipSpace_append h]
    simp [quote, skipSpace_cons isSpace_quote]
  simp only [readKey, hskip, if_true, readString_quote, bind_eq_bind, bind_some,
    skipSpace_cons hcolon, String.ofList_toList]

/-- No value starts with white space or with a closing bracket. -/
theorem render_eq_cons (h : Fits d j) (n : Nat) :
    ∃ c cs, render L n j = c :: cs ∧ isSpace c = false ∧ c ≠ ']' := by
  cases h with
  | null d => exact ⟨_, _, by rw [render], by decide, by decide⟩
  | bool d b => cases b <;> exact ⟨_, _, by rw [render], by decide, by decide⟩
  | int d h =>
    rename_i k
    obtain ⟨c, cs, htext, hc⟩ := integerText_eq_cons k
    exact ⟨c, cs, by rw [render, htext], isSpace_of_number hc, not_token hc ']' (by decide)⟩
  | str d cs => exact ⟨_, _, by rw [render, quote, cons_append], by decide, by decide⟩
  | arr h =>
    rename_i xs
    cases xs with
    | nil => exact ⟨_, _, by rw [render], by decide, by decide⟩
    | cons x xs => exact ⟨_, _, by rw [render]; rfl, by decide, by decide⟩
  | obj h =>
    rename_i ms
    cases ms with
    | nil => exact ⟨_, _, by rw [render], by decide, by decide⟩
    | cons m ms => exact ⟨_, _, by rw [render]; rfl, by decide, by decide⟩

/-- What the reader makes of a written value, with more text after it. -/
def ReadsBack (d : Nat) (j : Json) : Prop :=
  ∀ (fuel depth n : Nat) (rest : List Char), d < depth → (render L n j).length ≤ fuel →
    Stops rest → parseValue fuel depth (render L n j ++ rest) = some (j, rest)

variable {L} {xs : List Json} {ms : List (String × Json)}

theorem Stops.renderElements (n : Nat) (xs : List Json) (rest : List Char) :
    Stops (Json.renderElements L n xs ++ rest) := by
  cases xs with
  | nil =>
    rw [Json.renderElements, append_assoc]
    exact Stops.space_append (L.gap_isSpace n) (Stops.cons _ (.inr (.inr (.inl rfl))))
  | cons x xs =>
    rw [Json.renderElements]
    exact Stops.cons _ (.inr (.inl rfl))

theorem Stops.renderMembers (n : Nat) (ms : List (String × Json)) (rest : List Char) :
    Stops (Json.renderMembers L n ms ++ rest) := by
  cases ms with
  | nil =>
    rw [Json.renderMembers, append_assoc]
    exact Stops.space_append (L.gap_isSpace n) (Stops.cons _ (.inr (.inr (.inr rfl))))
  | cons m ms =>
    rw [Json.renderMembers]
    exact Stops.cons _ (.inr (.inl rfl))

/-- The elements after the first are read back when each of them is. -/
theorem parseElements_render (h : ∀ x ∈ xs, ReadsBack L d x) {depth : Nat} (n : Nat)
    (rest : List Char) (hdepth : d < depth) (hfuel : (renderElements L n xs).length ≤ fuel) :
    parseElements fuel depth (renderElements L n xs ++ rest) = some (xs, rest) := by
  induction xs generalizing fuel with
  | nil =>
    rw [renderElements, length_append, length_singleton] at hfuel
    obtain ⟨fuel, rfl⟩ : ∃ k, fuel = k + 1 := ⟨fuel - 1, by omega⟩
    have hskip : skipSpace (L.gap n ++ [']'] ++ rest) = ']' :: rest := by
      rw [append_assoc, skipSpace_append (L.gap_isSpace n)]
      exact skipSpace_cons (by decide) rest
    simp only [renderElements, parseElements, hskip, if_true]
  | cons x xs ih =>
    rw [renderElements] at hfuel ⊢
    simp only [length_append, length_cons] at hfuel
    obtain ⟨fuel, rfl⟩ : ∃ k, fuel = k + 1 := ⟨fuel - 1, by omega⟩
    have hx := h x mem_cons_self fuel depth (n + 1)
      (renderElements L n xs ++ rest) hdepth (by omega) (Stops.renderElements n xs rest)
    have hxs : parseElements fuel depth (renderElements L n xs ++ rest) = some (xs, rest) :=
      ih (fun y hy => h y (mem_cons_of_mem x hy)) (by omega)
    have hbracket : ',' ≠ ']' := by decide
    have hcomma : isSpace ',' = false := by decide
    simp only [append_assoc, cons_append, parseElements, skipSpace_cons hcomma,
      if_neg hbracket, if_true, parseValue_space (L.gap_isSpace (n + 1)), hx, hxs,
      bind_eq_bind, bind_some]

/-- The members after the first are read back when each of their values is. -/
theorem parseMembers_render (h : ∀ m ∈ ms, ReadsBack L d m.2) {depth : Nat} (n : Nat)
    (rest : List Char) (hdepth : d < depth) (hfuel : (renderMembers L n ms).length ≤ fuel) :
    parseMembers fuel depth (renderMembers L n ms ++ rest) = some (ms, rest) := by
  induction ms generalizing fuel with
  | nil =>
    rw [renderMembers, length_append, length_singleton] at hfuel
    obtain ⟨fuel, rfl⟩ : ∃ k, fuel = k + 1 := ⟨fuel - 1, by omega⟩
    have hskip : skipSpace (L.gap n ++ ['\x7d'] ++ rest) = '\x7d' :: rest := by
      rw [append_assoc, skipSpace_append (L.gap_isSpace n)]
      exact skipSpace_cons (by decide) rest
    simp only [renderMembers, parseMembers, hskip, if_true]
  | cons m ms ih =>
    obtain ⟨k, v⟩ := m
    rw [renderMembers] at hfuel ⊢
    simp only [length_append, length_cons] at hfuel
    obtain ⟨fuel, rfl⟩ : ∃ k, fuel = k + 1 := ⟨fuel - 1, by omega⟩
    have hv := h (k, v) mem_cons_self fuel depth (n + 1)
      (renderMembers L n ms ++ rest) hdepth (by simp only; omega) (Stops.renderMembers n ms rest)
    have hms : parseMembers fuel depth (renderMembers L n ms ++ rest) = some (ms, rest) :=
      ih (fun y hy => h y (mem_cons_of_mem _ hy)) (by omega)
    have hkey := readKey_quote (L.gap_isSpace (n + 1)) k
      (L.afterColon ++ (render L (n + 1) v ++ (renderMembers L n ms ++ rest)))
    have hbrace : ',' ≠ '\x7d' := by decide
    have hcomma : isSpace ',' = false := by decide
    simp only [append_assoc] at hkey
    simp only [append_assoc, cons_append, parseMembers, skipSpace_cons hcomma,
      if_neg hbrace, if_true, hkey, parseValue_space L.afterColon_isSpace, hv, hms,
      bind_eq_bind, bind_some]

/-- A value without brackets, whose text is the same at every level. -/
theorem readsBack_of_text (text : List Char) (d : Nat) (htext : ∀ n, render L n j = text)
    (hne : text ≠ []) (hread : ∀ fuel depth rest, Stops rest →
      parseValue (fuel + 1) depth (text ++ rest) = some (j, rest)) : ReadsBack L d j := by
  intro fuel depth n rest _ hfuel hstop
  rw [htext] at hfuel ⊢
  have hpos : 0 < text.length := length_pos_of_ne_nil hne
  obtain ⟨fuel, rfl⟩ : ∃ m, fuel = m + 1 := ⟨fuel - 1, by omega⟩
  exact hread fuel depth rest hstop

theorem readsBack_int (d : Nat) {k : Int} (h : Is64Bit k) : ReadsBack L d (.int k) := by
  obtain ⟨c, cs, htext, hc⟩ := integerText_eq_cons k
  refine readsBack_of_text (c :: cs) d (fun n => by rw [render, htext])
    (cons_ne_nil c cs) ?_
  intro fuel depth rest hstop
  have hread := readNumber_integerText h hstop
  rw [htext, cons_append] at hread
  simp only [cons_append, parseValue, skipSpace_cons (isSpace_of_number hc),
    if_neg (not_token hc 'n' (by decide)), if_neg (not_token hc 't' (by decide)),
    if_neg (not_token hc 'f' (by decide)), if_neg (not_token hc '"' (by decide)),
    if_neg (not_token hc '[' (by decide)), if_neg (not_token hc '\x7b' (by decide)), hread]

theorem readsBack_str (d : Nat) (cs : List Char) : ReadsBack L d (.str cs) := by
  refine readsBack_of_text (quote cs) d (fun n => by rw [render])
    (List.cons_ne_nil _ _) ?_
  intro fuel depth rest _
  have hread := readString_quote cs rest
  have hquote : quote cs ++ rest = '"' :: (cs.flatMap escapeChar ++ '"' :: rest) := by
    simp [quote]
  rw [hquote]
  simp only [parseValue, skipSpace_cons isSpace_quote, if_true, hread]
  rfl

theorem readsBack_arr (hfits : ∀ x ∈ xs, Fits d x) (h : ∀ x ∈ xs, ReadsBack L d x) :
    ReadsBack L (d + 1) (.arr xs) := by
  intro fuel depth n rest hdepth hfuel hstop
  have hopen : isSpace '[' = false := by decide
  have hlimit : ¬ depth ≤ 1 := by omega
  cases xs with
  | nil =>
    rw [render] at hfuel ⊢
    obtain ⟨fuel, rfl⟩ : ∃ m, fuel = m + 1 := ⟨fuel - 1, by simp at hfuel; omega⟩
    have hclose : skipSpace (']' :: rest) = ']' :: rest := skipSpace_cons (by decide) rest
    simp [parseValue, skipSpace_cons hopen, hclose, hlimit]
  | cons x xs =>
    rw [render] at hfuel ⊢
    simp only [length_append, length_cons] at hfuel
    obtain ⟨fuel, rfl⟩ : ∃ k, fuel = k + 1 := ⟨fuel - 1, by omega⟩
    obtain ⟨c, cs, htext, hspace, hbracket⟩ :=
      render_eq_cons L (hfits x mem_cons_self) (n + 1)
    have hentry : (skipSpace (L.gap (n + 1) ++ (render L (n + 1) x ++
        (renderElements L n xs ++ rest)))).head? ≠ some ']' := by
      rw [skipSpace_append (L.gap_isSpace (n + 1)), htext, cons_append,
        skipSpace_cons hspace]
      simpa using hbracket
    have hx := h x mem_cons_self fuel (depth - 1) (n + 1)
      (renderElements L n xs ++ rest) (by omega) (by omega) (Stops.renderElements n xs rest)
    have hxs : parseElements fuel (depth - 1) (renderElements L n xs ++ rest) =
        some (xs, rest) :=
      parseElements_render (fun y hy => h y (mem_cons_of_mem x hy)) n rest (by omega)
        (by omega)
    simp only [append_assoc, cons_append, parseValue, skipSpace_cons hopen]
    simp [hlimit, hentry, parseValue_space (L.gap_isSpace (n + 1)), hx, hxs]

theorem readsBack_obj (h : ∀ m ∈ ms, ReadsBack L d m.2) : ReadsBack L (d + 1) (.obj ms) := by
  intro fuel depth n rest hdepth hfuel hstop
  have hopen : isSpace '\x7b' = false := by decide
  have hlimit : ¬ depth ≤ 1 := by omega
  cases ms with
  | nil =>
    rw [render] at hfuel ⊢
    obtain ⟨fuel, rfl⟩ : ∃ m, fuel = m + 1 := ⟨fuel - 1, by simp at hfuel; omega⟩
    have hclose : skipSpace ('\x7d' :: rest) = '\x7d' :: rest := skipSpace_cons (by decide) rest
    simp [parseValue, skipSpace_cons hopen, hclose, hlimit]
  | cons m ms =>
    obtain ⟨k, v⟩ := m
    rw [render] at hfuel ⊢
    simp only [length_append, length_cons] at hfuel
    obtain ⟨fuel, rfl⟩ : ∃ k, fuel = k + 1 := ⟨fuel - 1, by omega⟩
    have hkey := readKey_quote (L.gap_isSpace (n + 1)) k
      (L.afterColon ++ (render L (n + 1) v ++ (renderMembers L n ms ++ rest)))
    have hentry : (skipSpace (L.gap (n + 1) ++ (quote k.toList ++ (':' :: (L.afterColon ++
        (render L (n + 1) v ++ (renderMembers L n ms ++ rest))))))).head? ≠ some '\x7d' := by
      rw [skipSpace_append (L.gap_isSpace (n + 1)), quote]
      simp [skipSpace_cons isSpace_quote]
    have hv := h (k, v) mem_cons_self fuel (depth - 1) (n + 1)
      (renderMembers L n ms ++ rest) (by omega) (by simp only; omega)
      (Stops.renderMembers n ms rest)
    have hms : parseMembers fuel (depth - 1) (renderMembers L n ms ++ rest) = some (ms, rest) :=
      parseMembers_render (fun y hy => h y (mem_cons_of_mem _ hy)) n rest (by omega)
        (by omega)
    simp only [append_assoc] at hkey
    simp only [append_assoc, cons_append, parseValue, skipSpace_cons hopen]
    simp [hlimit, hentry, hkey, parseValue_space L.afterColon_isSpace, hv, hms]

/-- A value that fits is read back, whatever stops a number after it. -/
theorem parseValue_render (h : Fits d j) : ReadsBack L d j := by
  induction h with
  | null d =>
    refine readsBack_of_text _ d (fun n => by rw [render]) (cons_ne_nil _ _) ?_
    intro fuel depth rest _
    simp [parseValue, skipSpace, isSpace, readWord, List.isPrefixOf]
  | bool d b =>
    cases b
    all_goals
      refine readsBack_of_text _ d (fun n => by rw [render]) (cons_ne_nil _ _) ?_
      intro fuel depth rest _
      simp [parseValue, skipSpace, isSpace, readWord, List.isPrefixOf]
  | int d h => exact readsBack_int d h
  | str d cs => exact readsBack_str d cs
  | arr hfits ih => exact readsBack_arr hfits ih
  | obj hfits ih => exact readsBack_obj ih

variable (L)

/-- What was written is read back. -/
theorem parse_render (h : Fits (recursionLimit - 1) j) : parse (render L 0 j) = some j := by
  have hread := parseValue_render (L := L) h (render L 0 j).length recursionLimit 0 [] (by decide)
    (Nat.le_refl _) Stops.nil
  rw [append_nil] at hread
  simp [parse, hread, skipSpace]

end Reading

/-! ## Bytes -/

/-- The characters of a UTF-8 encoded text. -/
def utf8Decode (b : Bytes) : Option (List Char) := b.toByteArray.utf8Decode?.map Array.toList

theorem utf8Decode_utf8 (cs : List Char) : utf8Decode (utf8 cs) = some cs := by
  have hbytes : (utf8 cs).toByteArray = cs.utf8Encode := rfl
  unfold utf8Decode
  rw [hbytes, utf8Decode?_utf8Encode]
  rfl

def toVec (j : Json) : Bytes := utf8 (render .compact 0 j)

def fromSlice (b : Bytes) : Option Json := (utf8Decode b).bind parse

theorem fromSlice_toVec {j : Json} (h : Fits (recursionLimit - 1) j) :
    fromSlice (toVec j) = some j := by
  unfold fromSlice toVec
  rw [utf8Decode_utf8, bind_some, parse_render .compact h]

end Json

end RivetLink.Foundation
