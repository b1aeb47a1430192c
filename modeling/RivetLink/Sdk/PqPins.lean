import Mathlib.Data.Char
import Mathlib.Data.List.Lex
import RivetLink.Foundation.FileTree
import RivetLink.Foundation.SortedSet
import RivetLink.Foundation.TextLines

/-!
# Hosts known to speak the hybrid handshake

The set of pinned hosts and its file, one host a line. `Pins.refusesDowngrade` is the check before a
classical retry. A text is `Storable` if it is what `load` makes of some line: not empty, trimmed,
on one line; base64 keys are (`storable_encodeChars`). `load_save` says that a set of such texts is
loaded as it was saved, and `mem_parse_of_kept` that a line keeps its host whatever the other lines
are replaced by.
-/

namespace RivetLink.Sdk.PqPins

open List RivetLink.Foundation

structure PathBuf where
  dir : List (List Char)
  name : List Char
  deriving DecidableEq

/-- A file name up to its last dot, if there is something before it. -/
def fileStem (name : List Char) : List Char :=
  let stem := ((name.reverse.dropWhile (· ≠ '.')).drop 1).reverse
  if stem = [] then name else stem

def PathBuf.withExtension (p : PathBuf) (ext : List Char) : PathBuf :=
  { p with name := fileStem p.name ++ '.' :: ext }

abbrev Files := KeyedMap PathBuf Bytes

/-- A set of hosts, by their public identity keys in base64. -/
abbrev HostSet := SortedSet (List Char)

structure Pins where
  path : Option PathBuf := none
  hosts : HostSet := .empty
  /-- The store exists but could not be read. -/
  unreadable : Bool := false
  deriving DecidableEq

/-- Why a classical retry to a host must be refused, if it must. -/
def Pins.refusesDowngrade (pins : Pins) (host : List Char) : Option String :=
  if pins.unreadable then
    some "the post-quantum host pin file could not be read; refusing a downgrade until it is fixed"
  else if host ∈ pins.hosts then
    some "host previously supported post-quantum encryption; refusing a downgrade"
  else none

/-! ## The file -/

/-- What reading a file gives, unless the read itself fails. -/
def readFile (files : Files) (path : PathBuf) (fault : Option IoError) : Except IoError Bytes :=
  match fault with
  | some e => .error e
  | none =>
    match files.find? path with
    | some bytes => .ok bytes
    | none => .error .notFound

def parse (bytes : Bytes) : HostSet :=
  .ofList (((lines (fromUtf8Lossy bytes)).map trimChars).filter (· ≠ []))

def load (files : Files) (path : PathBuf) (fault : Option IoError) : Except IoError HostSet :=
  match readFile files path fault with
  | .ok bytes => .ok (parse bytes)
  | .error .notFound => .ok (parse [])
  | .error e => .error e

def contents (hosts : HostSet) : Bytes := unlines (hosts.elems.map utf8)

/-- Where a save fails; a write may stop after any number of bytes. -/
inductive SaveFault where
  | create (e : IoError)
  | write (written : Nat) (e : IoError)
  | sync (e : IoError)
  | rename (e : IoError)
  deriving DecidableEq

/-- Write to a temporary file, then rename it. -/
def save (files : Files) (path : PathBuf) (hosts : HostSet) :
    Option SaveFault → Files × Except IoError Unit
  | some (.create e) => (files, .error e)
  | some (.write written e) => (files.put tmp ((contents hosts).take written), .error e)
  | some (.sync e) => (files.put tmp (contents hosts), .error e)
  | some (.rename e) => (files.put tmp (contents hosts), .error e)
  | none => (((files.put tmp (contents hosts)).erase tmp).put path (contents hosts), .ok ())
where
  tmp : PathBuf := path.withExtension "tmp".toList

def useStore (files : Files) (path : PathBuf) (fault : Option IoError) (pins : Pins) :
    Pins × Except IoError Unit :=
  match load files path fault with
  | .ok hosts => ({ pins with hosts := pins.hosts.extend hosts.elems, path := some path }, .ok ())
  | .error e => ({ pins with unreadable := true }, .error e)

/-- The part of `remember` that holds the lock: the pins after it, and whether a save has to be
spawned. -/
def Pins.remember (pins : Pins) (host : List Char) : Pins × Bool :=
  ({ pins with hosts := pins.hosts.insert host }, host ∉ pins.hosts && pins.path.isSome)

/-! ## What can be stored -/

/-- A host that stands on a line of its own. -/
structure Storable (host : List Char) : Prop where
  nonempty : host ≠ []
  trimmed : trimChars host = host
  oneLine : '\n' ∉ host

section Storable

variable {host : List Char} {hosts : HostSet} {bytes : Bytes} {ls : List Bytes} {path : PathBuf}

theorem mem_parse : host ∈ parse bytes ↔
    host ≠ [] ∧ ∃ line ∈ lines (fromUtf8Lossy bytes), trimChars line = host := by
  rw [parse, SortedSet.mem_ofList, mem_filter, decide_eq_true_iff, mem_map]
  exact and_comm

/-- Every host that is loaded can be stored again. -/
theorem storable_of_mem_parse (h : host ∈ parse bytes) : Storable host := by
  obtain ⟨hne, line, hline, rfl⟩ := mem_parse.1 h
  exact ⟨hne, trimChars_idem line, fun hmem =>
    newline_not_mem_lines hline ((trimChars_sublist line).subset hmem)⟩

theorem storable_of_mem_load {files : Files} {fault : Option IoError}
    (h : load files path fault = .ok hosts) (hmem : host ∈ hosts) : Storable host := by
  unfold load at h
  split at h
  · cases h
    exact storable_of_mem_parse hmem
  · cases h
    exact storable_of_mem_parse hmem
  · cases h

/-- A base64 key. -/
theorem storable_encodeChars {b : Bytes} (hb : b ≠ []) : Storable (Base64.encodeChars b) where
  nonempty h := by
    cases b with
    | nil => exact hb rfl
    | cons x b => rcases b with _ | ⟨y, _ | ⟨z, b⟩⟩ <;> cases h
  trimmed := trimChars_eq_self fun c hc => (Base64.mem_encodeChars hc).1
  oneLine h := absurd (Base64.mem_encodeChars h).1 (by decide)

/-- The hosts in a file of terminated lines. -/
theorem mem_parse_unlines (hls : ∀ l ∈ ls, '\n' ∉ fromUtf8Lossy l) : host ∈ parse (unlines ls) ↔
    host ≠ [] ∧ ∃ l ∈ ls, trimChars (fromUtf8Lossy l) = host := by
  rw [mem_parse, lines_fromUtf8Lossy hls]
  refine and_congr_right fun _ => ⟨?_, ?_⟩
  · rintro ⟨line, hline, rfl⟩
    obtain ⟨l, hl, rfl⟩ := mem_map.1 hline
    exact ⟨l, hl, (trimChars_stripCr _).symm⟩
  · rintro ⟨l, hl, rfl⟩
    exact ⟨_, mem_map.2 ⟨l, hl, rfl⟩, trimChars_stripCr _⟩

/-- What is saved is loaded. -/
theorem parse_contents (h : ∀ host ∈ hosts, Storable host) : parse (contents hosts) = hosts := by
  have hlines : ∀ l ∈ hosts.elems.map utf8, '\n' ∉ fromUtf8Lossy l := by
    intro l hl
    obtain ⟨host, hhost, rfl⟩ := mem_map.1 hl
    rw [fromUtf8Lossy_utf8]
    exact (h host hhost).oneLine
  ext host
  rw [contents, mem_parse_unlines hlines]
  constructor
  · rintro ⟨-, l, hl, rfl⟩
    obtain ⟨host, hhost, rfl⟩ := mem_map.1 hl
    rw [fromUtf8Lossy_utf8, (h host hhost).trimmed]
    exact hhost
  · intro hhost
    refine ⟨(h host hhost).nonempty, utf8 host, mem_map.2 ⟨host, hhost, rfl⟩, ?_⟩
    rw [fromUtf8Lossy_utf8, (h host hhost).trimmed]

theorem load_save {files files' : Files} (h : ∀ host ∈ hosts, Storable host)
    (hsave : save files path hosts none = (files', .ok ())) :
    load files' path none = .ok hosts := by
  cases hsave
  rw [load, readFile, KeyedMap.find?_put_self]
  exact congrArg Except.ok (parse_contents h)

/-- Lines are kept or replaced by bytes without a line feed. -/
abbrev Damaged (hosts : List (List Char)) (ls : List Bytes) : Prop :=
  List.Forall₂ (fun host l => l = utf8 host ∨ 10 ∉ l) hosts ls

theorem newline_not_mem_of_damaged {hs : List (List Char)} (h : Damaged hs ls)
    (hhosts : ∀ host ∈ hs, Storable host) : ∀ l ∈ ls, '\n' ∉ fromUtf8Lossy l := by
  induction h with
  | nil => exact fun l hl => by cases hl
  | @cons host l hs ls hline hrest ih =>
    intro l' hl'
    obtain rfl | hl' := mem_cons.1 hl'
    · obtain rfl | hfree := hline
      · rw [fromUtf8Lossy_utf8]
        exact (hhosts host mem_cons_self).oneLine
      · exact newline_not_mem_fromUtf8Lossy hfree
    · exact ih (fun host' h' => hhosts host' (mem_cons_of_mem _ h')) l' hl'

/-- A line that is kept keeps its host. -/
theorem mem_parse_of_kept (hhosts : ∀ host ∈ hosts, Storable host) (h : Damaged hosts.elems ls)
    (hkept : (host, utf8 host) ∈ hosts.elems.zip ls) : host ∈ parse (unlines ls) := by
  obtain ⟨hhost, hline⟩ := of_mem_zip hkept
  have hstorable := hhosts host hhost
  refine (mem_parse_unlines (newline_not_mem_of_damaged h hhosts)).2
    ⟨hstorable.nonempty, utf8 host, hline, ?_⟩
  rw [fromUtf8Lossy_utf8, hstorable.trimmed]

end Storable

end RivetLink.Sdk.PqPins
