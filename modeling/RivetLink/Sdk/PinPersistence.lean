import RivetLink.Foundation.Transition
import RivetLink.Sdk.PqPins

/-!
# The pin file under concurrent calls

`remember` inserts a host under the lock of the pins. If the host is new and there is a store, the
call then spawns a save, which runs later and on its own: it takes the lock of the file, reads the
pins, and writes what it found. Calls and saves interleave in any way. `PinStore` is the state of
all of them; its last two fields record what the last save to read the pins found, and what the last
one to end returned.

`Kept` is the invariant: every pinned host was found by the last save that read the pins, or a save
that has not read them is still to come.
-/

namespace RivetLink.Sdk.PqPins

open List Option RivetLink.Foundation

/-- What the save that holds the lock of the file is about to do. -/
inductive Saver where
  | idle
  | reading
  | writing (path : PathBuf) (hosts : HostSet)
  deriving DecidableEq

structure PinStore where
  pins : Pins
  files : Files
  /-- The hosts of the calls that have still to spawn their save. -/
  spawning : List (List Char) := []
  /-- The saves that wait for the lock of the file. -/
  waiting : Nat := 0
  saver : Saver := .idle
  found : Option HostSet := none
  outcome : Option (Except IoError Unit) := none

inductive PinAction where
  /-- A call of `remember` inserts its host. -/
  | remember (host : List Char)
  /-- A call spawns its save and returns. -/
  | spawn (host : List Char)
  | lock
  | read
  | write (fault : Option SaveFault)
  deriving DecidableEq

namespace PinStore

def remember (s : PinStore) (host : List Char) : PinStore :=
  { s with
    pins := (s.pins.remember host).1
    spawning := if (s.pins.remember host).2 then s.spawning ++ [host] else s.spawning }

def step (s : PinStore) : PinAction → Option PinStore
  | .remember host => some (s.remember host)
  | .spawn host =>
    if host ∈ s.spawning then
      some { s with spawning := s.spawning.erase host, waiting := s.waiting + 1 }
    else none
  | .lock =>
    if 0 < s.waiting ∧ s.saver = .idle then
      some { s with waiting := s.waiting - 1, saver := .reading }
    else none
  | .read =>
    match s.saver with
    | .reading =>
      match s.pins.path with
      | none => some { s with saver := .idle }
      | some path =>
        some { s with saver := .writing path s.pins.hosts, found := some s.pins.hosts }
    | _ => none
  | .write fault =>
    match s.saver with
    | .writing path hosts =>
      some { s with
        files := (save s.files path hosts fault).1
        saver := .idle
        outcome := some (save s.files path hosts fault).2 }
    | _ => none

/-- The store has just been opened. -/
def start (pins : Pins) (files : Files) : PinStore := { pins := pins, files := files }

/-- Every save that was spawned has ended. -/
def SavesEnded (s : PinStore) : Prop := s.waiting = 0 ∧ s.saver = .idle

/-- Moreover, every call has returned. -/
def Settled (s : PinStore) : Prop := s.SavesEnded ∧ s.spawning = []

/-! ## One step -/

variable {s t : PinStore} {a : PinAction} {path : PathBuf} {host : List Char}
  {actions : List PinAction}

theorem subset_remember (pins : Pins) (host : List Char) :
    pins.hosts ⊆ (pins.remember host).1.hosts :=
  fun _ h => SortedSet.mem_insert.2 (.inr h)

theorem hosts_step (h : s.step a = some t) : s.pins.hosts ⊆ t.pins.hosts := by
  unfold step at h
  split at h
  · cases h
    exact subset_remember _ _
  · obtain ⟨-, ⟨⟩⟩ := ite_none_right_eq_some.1 h
    exact SortedSet.subset_refl _
  · obtain ⟨-, ⟨⟩⟩ := ite_none_right_eq_some.1 h
    exact SortedSet.subset_refl _
  · split at h
    · split at h <;> cases h <;> exact SortedSet.subset_refl _
    · cases h
  · split at h <;> cases h
    exact SortedSet.subset_refl _

/-- Every pinned host was found by the last save that read the pins, or a save that has not read
them is still to come. A save that succeeded left in the file what it found. -/
structure Kept (path : PathBuf) (s : PinStore) : Prop where
  pathEq : s.pins.path = some path
  storable : ∀ host ∈ s.pins.hosts, Storable host
  known : ∀ hosts, s.found = some hosts → hosts ⊆ s.pins.hosts
  covered : ∀ hosts, s.found = some hosts → ∀ host ∈ s.pins.hosts,
    host ∈ hosts ∨ host ∈ s.spawning ∨ 0 < s.waiting ∨ s.saver = .reading
  writes : ∀ path' hosts, s.saver = .writing path' hosts → path' = path ∧ s.found = some hosts
  saved : (∀ path' hosts, s.saver ≠ .writing path' hosts) → s.outcome = some (.ok ()) →
    ∃ hosts, s.found = some hosts ∧ s.files.find? path = some (contents hosts)

namespace Kept

theorem remember (hs : Kept path s) (hhost : Storable host) : Kept path (s.remember host) where
  pathEq := hs.pathEq
  storable host' h := by
    obtain rfl | h := SortedSet.mem_insert.1 h
    · exact hhost
    · exact hs.storable host' h
  known hosts hfound := SortedSet.subset_trans (hs.known hosts hfound) (subset_remember _ _)
  covered hosts hfound host' h := by
    have hspawning : ∀ host', host' ∈ s.spawning → host' ∈ (s.remember host).spawning := by
      intro host' hmem
      unfold PinStore.remember
      dsimp only
      split
      · exact mem_append_left _ hmem
      · exact hmem
    have hold : host' ∈ s.pins.hosts → host' ∈ hosts ∨ host' ∈ (s.remember host).spawning ∨
        0 < s.waiting ∨ s.saver = .reading := fun hmem =>
      (hs.covered hosts hfound host' hmem).imp_right (Or.imp_left (hspawning host'))
    obtain rfl | h := SortedSet.mem_insert.1 h
    · by_cases hmem : host' ∈ s.pins.hosts
      · exact hold hmem
      · -- the host is new, and there is a store: the call is going to spawn a save
        refine .inr (.inl ?_)
        unfold PinStore.remember Pins.remember
        rw [hs.pathEq]
        dsimp only
        rw [decide_eq_true hmem]
        exact mem_append_right _ (mem_singleton.2 rfl)
    · exact hold h
  writes := hs.writes
  saved := hs.saved

theorem spawn (hs : Kept path s) : Kept path
    { s with spawning := s.spawning.erase host, waiting := s.waiting + 1 } where
  pathEq := hs.pathEq
  storable := hs.storable
  known := hs.known
  covered _ _ _ _ := .inr (.inr (.inl (Nat.succ_pos _)))
  writes := hs.writes
  saved := hs.saved

theorem lock (hs : Kept path s) (hidle : s.saver = .idle) : Kept path
    { s with waiting := s.waiting - 1, saver := .reading } where
  pathEq := hs.pathEq
  storable := hs.storable
  known := hs.known
  covered _ _ _ _ := .inr (.inr (.inr rfl))
  writes _ _ h := by cases h
  saved _ hok := hs.saved (fun _ _ h => by rw [hidle] at h; cases h) hok

theorem read (hs : Kept path s) : Kept path
    { s with saver := .writing path s.pins.hosts, found := some s.pins.hosts } where
  pathEq := hs.pathEq
  storable := hs.storable
  known hosts h := by
    cases h
    exact SortedSet.subset_refl _
  covered hosts h host hhost := by
    cases h
    exact .inl hhost
  writes _ _ h := by
    cases h
    exact ⟨rfl, rfl⟩
  saved h _ := absurd rfl (h path s.pins.hosts)

theorem write {hosts : HostSet} (hs : Kept path s) (hsaver : s.saver = .writing path hosts)
    (fault : Option SaveFault) : Kept path
    { s with
      files := (save s.files path hosts fault).1
      saver := .idle
      outcome := some (save s.files path hosts fault).2 } where
  pathEq := hs.pathEq
  storable := hs.storable
  known := hs.known
  covered hosts' hfound host hhost := by
    refine (hs.covered hosts' hfound host hhost).imp_right (Or.imp_right (Or.imp_right ?_))
    intro hreading
    rw [hsaver] at hreading
    cases hreading
  writes _ _ h := by cases h
  saved _ hok := by
    refine ⟨hosts, (hs.writes path hosts hsaver).2, ?_⟩
    cases fault with
    | none => exact KeyedMap.find?_put_self
    | some fault => cases fault <;> cases hok

theorem step (hs : Kept path s) (hkey : ∀ host, a = .remember host → Storable host)
    (h : s.step a = some t) : Kept path t := by
  cases a with
  | remember host =>
    cases h
    exact hs.remember (hkey host rfl)
  | spawn host =>
    rw [PinStore.step] at h
    obtain ⟨-, ⟨⟩⟩ := ite_none_right_eq_some.1 h
    exact hs.spawn
  | lock =>
    rw [PinStore.step] at h
    obtain ⟨hguard, ⟨⟩⟩ := ite_none_right_eq_some.1 h
    exact hs.lock hguard.2
  | read =>
    rw [PinStore.step] at h
    split at h
    · rw [hs.pathEq] at h
      cases h
      exact hs.read
    · cases h
  | write fault =>
    rw [PinStore.step] at h
    split at h
    · rename_i path' hosts hsaver
      obtain ⟨rfl, -⟩ := hs.writes path' hosts hsaver
      cases h
      exact hs.write hsaver fault
    · cases h

/-- Right after a store was opened. -/
theorem start {files : Files} {fault : Option IoError} {pins₀ pins : Pins}
    (hopen : useStore files path fault pins₀ = (pins, .ok ()))
    (hearlier : ∀ host ∈ pins₀.hosts, Storable host) : Kept path (start pins files) := by
  unfold useStore at hopen
  split at hopen <;> cases hopen
  rename_i loaded hload
  refine ⟨rfl, fun host hhost => ?_, ?_, ?_, ?_, ?_⟩
  · obtain hhost | hhost := SortedSet.mem_extend.1 hhost
    · exact hearlier host hhost
    · exact storable_of_mem_load hload hhost
  · exact nofun
  · exact nofun
  · exact nofun
  · exact nofun

/-- Once every save has ended and the last one succeeded, only hosts of calls that have still to
spawn their save are missing in the file. -/
theorem load_eq (hs : Kept path s) (hended : s.SavesEnded) (hok : s.outcome = some (.ok ())) :
    ∃ hosts, load s.files path none = .ok hosts ∧ hosts ⊆ s.pins.hosts ∧
      ∀ host ∈ s.pins.hosts, host ∈ hosts ∨ host ∈ s.spawning := by
  have hidle : ∀ path' hosts, s.saver ≠ .writing path' hosts := by
    intro path' hosts h
    rw [hended.2] at h
    cases h
  obtain ⟨hosts, hfound, hfile⟩ := hs.saved hidle hok
  have hknown := hs.known hosts hfound
  refine ⟨hosts, ?_, hknown, fun host hhost => ?_⟩
  · rw [load, readFile, hfile]
    exact congrArg Except.ok (parse_contents fun host hhost => hs.storable host (hknown host hhost))
  · obtain h | h | h | h := hs.covered hosts hfound host hhost
    · exact .inl h
    · exact .inr h
    · exact absurd hended.1 (Nat.pos_iff_ne_zero.1 h)
    · rw [hended.2] at h
      cases h

end Kept

/-! ## Whole runs -/

/-- A public identity key in base64. -/
def IsKey (host : List Char) : Prop := ∃ key : FixedBytes 32, host = Base64.encodeChars key.bytes

theorem IsKey.storable (h : IsKey host) : Storable host := by
  obtain ⟨key, rfl⟩ := h
  refine storable_encodeChars fun hnil => ?_
  have hsize := key.size_eq
  rw [hnil] at hsize
  cases hsize

theorem hosts_run (hrun : runFrom step s actions = some t) : s.pins.hosts ⊆ t.pins.hosts :=
  relation_of_step (I := fun _ => True) (R := fun s t => s.pins.hosts ⊆ t.pins.hosts)
    (fun _ => SortedSet.subset_refl _) (fun _ _ _ => SortedSet.subset_trans)
    (fun _ _ _ _ _ => trivial) (fun _ _ _ _ => hosts_step) trivial hrun

theorem mem_of_remember (hrun : runFrom step s actions = some t) (hmem : .remember host ∈ actions) :
    host ∈ t.pins.hosts := by
  induction actions generalizing s with
  | nil => cases hmem
  | cons a actions ih =>
    obtain ⟨u, hstep, hrest⟩ := runFrom_cons_eq_some.1 hrun
    obtain rfl | hmem := mem_cons.1 hmem
    · cases hstep
      exact hosts_run hrest host (SortedSet.mem_insert.2 (.inl rfl))
    · exact ih hrest hmem

/-- After a store was opened, whatever calls and saves do and in whatever order: the pinned hosts
include those loaded and those remembered since, and none is ever dropped. Once every save has ended
and the last one succeeded, the file holds every pinned host but those whose call has still to spawn
its save; once all calls have returned, it holds exactly the pinned hosts. A set of keys is loaded
as it was saved, and lines that are replaced by other bytes lose no keys but their own. -/
theorem pins_persisted {files : Files} {path : PathBuf} {fault : Option IoError} {pins₀ pins : Pins}
    {loaded : HostSet} {actions : List PinAction} (hload : load files path fault = .ok loaded)
    (hopen : useStore files path fault pins₀ = (pins, .ok ()))
    (hearlier : ∀ host ∈ pins₀.hosts, Storable host)
    (hkeys : ∀ host, .remember host ∈ actions → IsKey host)
    (hrun : runFrom step (start pins files) actions = some t) :
    (loaded ⊆ t.pins.hosts ∧ ∀ host, .remember host ∈ actions → host ∈ t.pins.hosts) ∧
    (∀ before after u, actions = before ++ after →
      runFrom step (start pins files) before = some u → u.pins.hosts ⊆ t.pins.hosts) ∧
    (t.outcome = some (.ok ()) →
      (t.SavesEnded → ∃ hosts, load t.files path none = .ok hosts ∧ hosts ⊆ t.pins.hosts ∧
        ∀ host ∈ t.pins.hosts, host ∈ hosts ∨ host ∈ t.spawning) ∧
      (t.Settled → load t.files path none = .ok t.pins.hosts)) ∧
    ∀ hosts : HostSet, (∀ host ∈ hosts, IsKey host) →
      (∀ (files files' : Files) (path : PathBuf),
        save files path hosts none = (files', .ok ()) → load files' path none = .ok hosts) ∧
      ∀ (files : Files) (path : PathBuf) (ls : List Bytes),
        Damaged hosts.elems ls →
        ∃ left, load (files.put path (unlines ls)) path none = .ok left ∧
          ∀ host, (host, utf8 host) ∈ hosts.elems.zip ls → host ∈ left := by
  have hkept : Kept path t :=
    invariant_of_guardedStep (G := fun _ a => ∀ host, a = .remember host → Storable host)
      (fun s a t hs hkey h => hs.step hkey h) (Kept.start hopen hearlier)
      (runMeets_of_forall_mem fun a ha host heq => (hkeys host (heq.subst ha)).storable) hrun
  have hstart : loaded ⊆ pins.hosts := by
    rw [useStore, hload] at hopen
    cases hopen
    exact fun host h => SortedSet.mem_extend.2 (.inr h)
  refine ⟨⟨SortedSet.subset_trans hstart (hosts_run hrun), fun host h => mem_of_remember hrun h⟩,
    ?_, fun hok => ⟨fun hended => hkept.load_eq hended hok, fun hsettled => ?_⟩, fun hosts hset =>
      ⟨fun files files' path hsave => load_save (fun host h => (hset host h).storable) hsave,
        fun files path ls hlines => ?_⟩⟩
  · rintro before after u rfl hbefore
    rw [runFrom_append, hbefore] at hrun
    exact hosts_run hrun
  · obtain ⟨hosts, hfile, hsub, hall⟩ := hkept.load_eq hsettled.1 hok
    have heq : hosts = t.pins.hosts := by
      ext host
      refine ⟨hsub host, fun h => (hall host h).resolve_right ?_⟩
      rw [hsettled.2]
      exact not_mem_nil
    rw [hfile, heq]
  · refine ⟨parse (unlines ls), ?_, fun host hzip => ?_⟩
    · rw [load, readFile, KeyedMap.find?_put_self]
    · exact mem_parse_of_kept (fun host h => (hset host h).storable) hlines hzip

/-! ## A run -/

def sampleHost (n : UInt8) : List Char := Base64.encodeChars (List.replicate 32 n)

theorem isKey_sampleHost (n : UInt8) : IsKey (sampleHost n) :=
  ⟨⟨List.replicate 32 n, length_replicate⟩, rfl⟩

def samplePath : PathBuf := ⟨[], "pq_hosts".toList⟩

/-- A store with one host and one damaged line. -/
def sampleFiles : Files :=
  KeyedMap.empty.put samplePath (unlines [utf8 (sampleHost 1), [0xFF]])

def sampleOpened : Pins × Except IoError Unit := useStore sampleFiles samplePath none {}

/-- Three calls; the save of the second runs first, reads the pins before the third call and fails
half-way. -/
def sampleCalls : List PinAction :=
  [.remember (sampleHost 2), .remember (sampleHost 3), .spawn (sampleHost 3), .lock, .read,
    .remember (sampleHost 4), .write (some (.write 50 .other)), .spawn (sampleHost 2),
    .spawn (sampleHost 4), .lock, .read, .write none, .lock, .read, .write none]

theorem isSome_sampleRun :
    (runFrom step (start sampleOpened.1 sampleFiles) sampleCalls).isSome = true := by
  decide +kernel

def sampleStore : PinStore :=
  (runFrom step (start sampleOpened.1 sampleFiles) sampleCalls).get isSome_sampleRun

theorem isKey_of_mem_sampleCalls (h : .remember host ∈ sampleCalls) : IsKey host := by
  simp only [sampleCalls, mem_cons, not_mem_nil, reduceCtorEq, or_false, false_or,
    PinAction.remember.injEq] at h
  obtain rfl | rfl | rfl := h <;> exact isKey_sampleHost _

theorem pins_persisted_sampleStore :
    load sampleStore.files samplePath none = .ok sampleStore.pins.hosts ∧
      sampleHost 1 ∈ sampleStore.pins.hosts ∧ sampleHost 2 ∈ sampleStore.pins.hosts := by
  have hload : load sampleFiles samplePath none =
      .ok (parse (unlines [utf8 (sampleHost 1), [0xFF]])) := rfl
  have hopen : useStore sampleFiles samplePath none {} = (sampleOpened.1, .ok ()) := rfl
  have hnone : ∀ host ∈ ({} : Pins).hosts, Storable host := fun _ h =>
    absurd h SortedSet.not_mem_empty
  obtain ⟨⟨hloaded, hremembered⟩, -, hsaved, -⟩ := pins_persisted hload hopen hnone
    (fun _ => isKey_of_mem_sampleCalls) (some_get isSome_sampleRun).symm
  have hsettled : sampleStore.Settled := ⟨⟨by decide +kernel, by decide +kernel⟩, by decide +kernel⟩
  refine ⟨(hsaved (by decide +kernel)).2 hsettled, hloaded _ ?_, hremembered _ mem_cons_self⟩
  decide +kernel

end PinStore

end RivetLink.Sdk.PqPins
