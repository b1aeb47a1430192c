import RivetLink.Foundation.Transition
import RivetLink.Agent.FolderCalls

/-!
# The shared folder is not left

The calls of a shared folder in any order, each with its own failures of the disk. Between the
calls anything may happen to the tree. What the calls create, rename, list and read is reached from
a root that is a real directory through real directories only, except that `readChunk` takes the
root as it is and `finishUpload` the folder that was resolved when the upload began.
-/

namespace RivetLink.Agent

open List Option RivetLink.Foundation RivetLink.Sdk

inductive ShareCall where
  | startUpload (id : UInt32) (path : Str) (size : Nat)
  | writeChunk (id : UInt32) (data : Bytes)
  | finishUpload (id : UInt32)
  | abortUpload (id : UInt32)
  | list
  | readChunk (path : Str) (offset : Nat)
  | drop
  deriving DecidableEq

def ShareCall.run (s : Store) : ShareCall → Store
  | .startUpload id path size => finalState (Store.startUpload id path size s)
  | .writeChunk id data => finalState (Store.writeChunk id data s)
  | .finishUpload id => finalState (Store.finishUpload id s)
  | .abortUpload id => finalState (Store.abortUpload id s)
  | .list => finalState (Store.list s)
  | .readChunk path offset => finalState (Store.readChunk path offset s)
  | .drop => finalState (Store.drop s)

/-- A call, or a change of the tree by somebody else between two calls. -/
inductive FolderAction where
  | call (call : ShareCall) (faults : List (Option Nat))
  | foreign (tree : FileTree OsName)

namespace Store

/-- A shared folder without uploads. -/
def at_ (root : OsPath) (tree : FileTree OsName) : Store := ⟨{ root := root }, { tree := tree }⟩

def setFaults (s : Store) (faults : List (Option Nat)) : Store :=
  s.setDisk { s.disk with faults := faults }

def step (s : Store) : FolderAction → Option Store
  | .call call faults => some (call.run (s.setFaults faults))
  | .foreign tree => some (s.setDisk { s.disk with tree := tree })

variable {s s' : Store} {root : OsPath} {id : UInt32} {d : Disk OsName} {u : Upload}

/-- What a call may do to the uploads and the disk. -/
inductive Outcome (s : Store) : ShareCall → Store → Prop where
  | prepared {call : ShareCall} {d : Disk OsName} (h : Prepares s.folder.root s.disk d) :
      Outcome s call (s.setDisk d)
  | started {id : UInt32} {path : Str} {size : Nat} {s' : Store} (h : Started s id size s') :
      Outcome s (.startUpload id path size) s'
  | written {id : UInt32} {data : Bytes} {s' : Store} (h : ChunkWritten s id data s') :
      Outcome s (.writeChunk id data) s'
  | aborted {call : ShareCall} {id : UInt32} {s' : Store} (h : Aborted s id s') : Outcome s call s'
  | broken {id : UInt32} {data data' : Bytes} {u : Upload} {d : Disk OsName} {s' : Store}
      (tree : d.tree = s.disk.tree.append u.file data') (log : d.log = s.disk.log)
      (h : Aborted (s.setDisk d) id s') : Outcome s (.writeChunk id data) s'
  | finished {id : UInt32} {u : Upload} {n : Nat} {s' : Store} (h : Finished s id u n s') :
      Outcome s (.finishUpload id) s'
  | leaked {id : UInt32} {u : Upload} {d : Disk OsName}
      (open_ : s.folder.uploads.find? id = some u) (complete : u.written = u.expected)
      (same : Disk.Same s.disk d) (failed : result? (finishUpload id s) = none) :
      Outcome s (.finishUpload id) ((s.setUploads (s.folder.uploads.erase id)).setDisk d)
  | listed {d : Disk OsName} {s' : Store} (prepares : Prepares s.folder.root s.disk d)
      (looks : LooksFrom (Confined s.folder.root) (s.setDisk d) s') : Outcome s .list s'
  | read {path : Str} {offset : Nat} {s' : Store} (looks : LooksFrom (fun _ => True) s s')
      (confined : ∀ top, s.disk.tree.RealDir s.folder.root top →
        LooksFrom (Confined s.folder.root) s s') : Outcome s (.readChunk path offset) s'
  | dropped {s' : Store} (h : ∀ I : Store → Prop,
      (∀ s id s', I s → Aborted s id s' → I s') → I s → I s') : Outcome s .drop s'

theorem outcome_run (s : Store) (call : ShareCall) : Outcome s call (call.run s) := by
  cases call with
  | startUpload id path size =>
    refine (startUpload_spec s id path size).finalState _ (fun _ _ => .started) ?_
    rintro s' ⟨d, rfl, hprepares⟩
    exact .prepared hprepares
  | writeChunk id data =>
    refine (writeChunk_spec s id data).finalState _ (fun _ _ => .written) fun s' hfails => ?_
    cases hfails with
    | refused haborted => exact .aborted haborted
    | broken _ htree hlog haborted => exact .broken htree hlog haborted
  | finishUpload id =>
    have hends := ensures_eq_iff.1 (finishUpload_spec s id)
    change Outcome s _ (finalState (finishUpload id s))
    cases hr : finishUpload id s with
    | ok path s' =>
      rw [hr] at hends
      obtain ⟨u, n, relative, hfinished, -⟩ := hends
      exact .finished hfinished
    | error e s' =>
      rw [hr] at hends
      cases hends with
      | closed haborted => exact .aborted haborted
      | leaked hopen hcomplete hsame => exact .leaked hopen hcomplete hsame (by rw [hr]; rfl)
      | misplaced hfinished => exact .finished hfinished
  | abortUpload id => exact (abortUpload_spec s id).finalState _ (fun _ _ => .aborted) nofun
  | list =>
    have hlisted : ∀ s', (∃ s₁ d, s₁ = s.setDisk d ∧ Prepares s.folder.root s.disk d ∧
        LooksFrom (Confined s.folder.root) s₁ s') → Outcome s .list s' := by
      rintro s' ⟨_, d, rfl, hprepares, hlooks⟩
      exact .listed hprepares hlooks
    exact (list_spec s).finalState _ (fun _ => hlisted) hlisted
  | readChunk path offset =>
    exact .read ((readChunk_spec s path offset).finalState _ (fun _ _ => id) fun _ => id)
      fun top hreal => (readChunk_confined hreal path offset).finalState _ (fun _ _ => id)
        fun _ => id
  | drop =>
    exact .dropped fun I hI hs => (drop_keeps hI hs).finalState _ (fun _ _ => id) fun _ => id

/-! ## The invariant -/

/-- The upload was started in a folder below the root. -/
structure Placed (root : OsPath) (id : UInt32) (u : Upload) : Prop where
  dir : ∃ names : List OsName, u.dir = root ++ names.map .down
  plain : Plain u.name
  suffix : partSuffix.isSuffixOf u.name = false
  part : u.part = u.dir ++ [.down (.text (partName u.name id))]

structure Inside (root : OsPath) (s : Store) : Prop where
  rootEq : s.folder.root = root
  uploads : ∀ id u, s.folder.uploads.find? id = some u → Placed root id u
  log : ∀ a ∈ s.disk.log, Confined root a

theorem Inside.setDisk (h : Inside root s)
    (hlog : ∃ new, d.log = s.disk.log ++ new ∧ ∀ a ∈ new, Confined root a) :
    Inside root (s.setDisk d) := by
  obtain ⟨new, hnew, hall⟩ := hlog
  refine ⟨h.rootEq, h.uploads, fun a ha => ?_⟩
  rw [setDisk_disk, hnew] at ha
  exact (mem_append.1 ha).elim (h.log a) (hall a)

theorem Inside.prepares (h : Inside root s) (hprepares : Prepares s.folder.root s.disk d) :
    Inside root (s.setDisk d) := by
  obtain ⟨new, hnew, hall⟩ := hprepares.log
  exact h.setDisk ⟨new, hnew, fun a ha => h.rootEq ▸ (hall a ha).2⟩

theorem Inside.looks (h : Inside root s) (hlooks : LooksFrom (Confined root) s s') :
    Inside root s' := by
  obtain ⟨d, rfl, hlooks⟩ := hlooks
  obtain ⟨new, hnew, hall⟩ := hlooks.log
  exact h.setDisk ⟨new, hnew, fun a ha => (hall a ha).2⟩

/-- The disk notes nothing. -/
theorem Inside.quiet (h : Inside root s) (hlog : d.log = s.disk.log) : Inside root (s.setDisk d) :=
  h.setDisk ⟨[], by rw [hlog, append_nil], nofun⟩

theorem Inside.put (h : Inside root s) (hu : Placed root id u) :
    Inside root (s.setUploads (s.folder.uploads.put id u)) := by
  refine ⟨h.rootEq, fun id' u' hfind => ?_, h.log⟩
  obtain ⟨rfl, rfl⟩ | ⟨-, hfind⟩ := KeyedMap.find?_put_cases hfind
  · exact hu
  · exact h.uploads id' u' hfind

theorem Inside.erase (h : Inside root s) :
    Inside root (s.setUploads (s.folder.uploads.erase id)) := by
  refine ⟨h.rootEq, fun id' u' hfind => ?_, h.log⟩
  exact h.uploads id' u' (KeyedMap.find?_erase_cases hfind).2

theorem Removed.log_eq {d' : Disk OsName} {path : OsPath} (h : Removed d path d') :
    d'.log = d.log := by
  cases h with
  | gone _ _ _ _ hlog => exact hlog
  | kept _ => rfl

theorem Inside.aborted (h : Inside root s) (haborted : Aborted s id s') : Inside root s' := by
  cases haborted with
  | absent _ => exact h
  | closed _ hremoved => exact h.erase.quiet hremoved.log_eq

theorem Inside.started {size : Nat} (h : Inside root s) (hstarted : Started s id size s') :
    Inside root s' := by
  obtain ⟨hprepares, hreached, hplain, hsuffix, -, -, -, hloc, -, -, hlog⟩ := hstarted
  have hroot := h.rootEq
  subst hroot
  have hmade := (h.prepares hprepares).setDisk
    ⟨_, hlog, fun a ha => by rw [mem_singleton.1 ha]; exact hreached.confined hloc nofun⟩
  exact hmade.put ⟨⟨_, rfl⟩, hplain, hsuffix, rfl⟩

/-- Both names of a finished upload lie in its folder. -/
theorem Inside.finished {n : Nat} {names top : List OsName} (h : Inside root s)
    (hdir : u.dir = root ++ names.map .down) (hreached : Reached s.disk.tree root names top)
    (hfinished : Finished s id u n s') : Inside root s' := by
  obtain ⟨hopen, -, -, hsrc, hdst, -, -, -, -, hlog⟩ := hfinished
  have hplaced := h.uploads id u hopen
  rw [hplaced.part, hdir] at hsrc hlog
  rw [push_of_plain (plain_candidate hplaced.plain _), hdir] at hdst
  rw [push_of_plain (plain_candidate hplaced.plain _)] at hlog
  refine h.erase.setDisk ⟨_, hlog, fun a ha => ?_⟩
  obtain rfl | ha := mem_cons.1 ha
  · exact hreached.confined hsrc nofun
  · rw [mem_singleton.1 ha]
    exact hreached.confined hdst nofun

/-! ## The conditions of the calls -/

/-- Every folder from the root to this one is a real directory. -/
def stillReached (t : FileTree OsName) (root dir : OsPath) : Bool :=
  (List.range (dir.length - root.length + 1)).all fun k => t.isRealDir (dir.take (root.length + k))

theorem reached_of_stillReached {t : FileTree OsName} {names : List OsName}
    (h : stillReached t root (root ++ names.map .down) = true) :
    ∃ top, Reached t root names top := by
  have hreal : ∀ k ≤ names.length, ∃ loc, t.RealDir (root ++ (names.take k).map .down) loc := by
    intro k hk
    have hall := all_eq_true.1 h k (by simp; omega)
    obtain ⟨loc, hloc⟩ := FileTree.realDir_of_isRealDir hall
    rw [take_length_add_append, ← map_take] at hloc
    exact ⟨loc, hloc⟩
  obtain ⟨top, htop⟩ := hreal 0 (Nat.zero_le _)
  rw [take_zero, map_nil, append_nil] at htop
  refine ⟨top, htop, fun k hk => ?_⟩
  -- one folder after another stands below the one before
  have hloc : t.RealDir (root ++ (names.take k).map .down) (top ++ names.take k) := by
    induction k with
    | zero => simpa using htop
    | succ k ih =>
      have hlt : k < names.length := hk
      have hjoin := (ih (Nat.le_of_lt hlt)).locate_join (names.get ⟨k, hlt⟩)
      obtain ⟨loc, hreal'⟩ := hreal (k + 1) hk
      have htake : names.take (k + 1) = names.take k ++ [names.get ⟨k, hlt⟩] := by
        rw [take_add_one, getElem?_eq_getElem hlt]
        rfl
      rw [htake, map_append, ← append_assoc] at hreal' ⊢
      rw [← append_assoc]
      have heq : top ++ names.take k ++ [names.get ⟨k, hlt⟩] = loc :=
        Except.ok.inj (hjoin.symm.trans hreal'.located)
      rw [heq]
      exact hreal'
  exact hloc.dir

/-- What the code does not look at itself: the root of a read, and the folder of an upload that is
finished. -/
def Undisturbed (root : OsPath) (s : Store) : FolderAction → Prop
  | .call (.readChunk _ _) _ => s.disk.tree.isRealDir root = true
  | .call (.finishUpload id) _ =>
    (s.folder.uploads.find? id).all (fun u => stillReached s.disk.tree root u.dir) = true
  | _ => True

instance (root : OsPath) (s : Store) : (a : FolderAction) → Decidable (Undisturbed root s a)
  | .call (.readChunk _ _) _ => inferInstanceAs (Decidable (_ = true))
  | .call (.finishUpload _) _ => inferInstanceAs (Decidable (_ = true))
  | .call (.startUpload _ _ _) _ => isTrue trivial
  | .call (.writeChunk _ _) _ => isTrue trivial
  | .call (.abortUpload _) _ => isTrue trivial
  | .call .list _ => isTrue trivial
  | .call .drop _ => isTrue trivial
  | .foreign _ => isTrue trivial

theorem Inside.step {a : FolderAction} (h : Inside root s) (hguard : Undisturbed root s a)
    (hstep : s.step a = some s') : Inside root s' := by
  cases a with
  | foreign tree =>
    cases hstep
    exact ⟨h.rootEq, h.uploads, h.log⟩
  | call call faults =>
    have hs : Inside root (s.setFaults faults) := h.quiet rfl
    have hroot := hs.rootEq
    have houtcome := outcome_run (s.setFaults faults) call
    rw [some.inj hstep] at houtcome
    cases houtcome with
    | prepared hprepares => exact hs.prepares hprepares
    | started hstarted => exact hs.started hstarted
    | written hwritten =>
      obtain ⟨hopen, -, -, hlog⟩ := hwritten
      have hplaced := hs.uploads _ _ hopen
      exact (hs.quiet hlog).put ⟨hplaced.dir, hplaced.plain, hplaced.suffix, hplaced.part⟩
    | aborted haborted => exact hs.aborted haborted
    | broken _ hlog haborted => exact (hs.quiet hlog).aborted haborted
    | @finished id u n s' hfinished =>
      have hopen : s.folder.uploads.find? id = some u := by
        obtain ⟨hopen, -⟩ := hfinished
        exact hopen
      obtain ⟨names, hdir⟩ := (h.uploads id u hopen).dir
      have hstill : stillReached s.disk.tree root u.dir = true := by
        have hall : (s.folder.uploads.find? id).all _ = true := hguard
        rw [hopen] at hall
        exact hall
      rw [hdir] at hstill
      obtain ⟨top, hreached⟩ := reached_of_stillReached hstill
      exact hs.finished hdir hreached hfinished
    | leaked _ _ hsame => exact hs.erase.quiet hsame.log
    | listed hprepares hlooks => exact (hs.prepares hprepares).looks (hroot ▸ hlooks)
    | read _ hconfined =>
      obtain ⟨top, hreal⟩ := FileTree.realDir_of_isRealDir hguard
      exact hs.looks (hroot ▸ hconfined top (hroot ▸ hreal))
    | dropped hdropped => exact hdropped _ (fun _ _ _ h ha => h.aborted ha) hs

theorem inside_at (root : OsPath) (tree : FileTree OsName) : Inside root (at_ root tree) := by
  refine ⟨rfl, fun id u h => ?_, fun a ha => ?_⟩
  · cases h
  · cases ha

/-- Whatever is in the tree at first and whatever happens to it between the calls: what the calls
create, rename, list and read is reached from the root through real directories only, if this is so
of the root when a chunk is read and of the folder of an upload when it is finished. -/
theorem folder_confined (root : OsPath) (tree : FileTree OsName) (acts : List FolderAction)
    (s : Store) (hrun : runFrom step (at_ root tree) acts = some s)
    (hmeets : RunMeets step (Undisturbed root) (at_ root tree) acts) :
    ∀ a ∈ s.disk.log, Confined root a :=
  (invariant_of_guardedStep (I := Inside root) (fun _ _ _ h hguard hstep => h.step hguard hstep)
    (inside_at root tree) hmeets hrun).log

/-! ## Sample runs -/

def sampleName (name : String) : OsName := .text name.toList

def sampleRoot : OsPath := [.down (sampleName "share")]

theorem samplePath_sized : (utf8 "docs/f".toList).length < 2 ^ 63 := by decide

def samplePath : Str := ⟨"docs/f".toList, samplePath_sized⟩

/-- An upload into a new folder, a listing and a read. -/
def sampleCalls : List FolderAction :=
  [.call (.startUpload 7 samplePath 3) [], .call (.writeChunk 7 [1, 2, 3]) [],
    .call (.finishUpload 7) [], .call .list [], .call (.readChunk samplePath 0) []]

theorem folder_confined_sampleCalls :
    ∃ s, runFrom step (at_ sampleRoot .empty) sampleCalls = some s ∧
      s.disk.log.map (·.kind) = [.makeDir, .create 0, .rename, .rename, .list, .list, .read] ∧
        ∀ a ∈ s.disk.log, Confined sampleRoot a :=
  have hrun : runFrom step (at_ sampleRoot .empty) sampleCalls =
      some ((runFrom step (at_ sampleRoot .empty) sampleCalls).get (by decide +kernel)) :=
    (some_get _).symm
  ⟨_, hrun, by decide +kernel,
    folder_confined sampleRoot .empty sampleCalls _ hrun (by decide +kernel)⟩

/-- A file outside, and the place of the shared folder a link to its folder. -/
def linkedTree : FileTree OsName :=
  ((FileTree.empty.addDir [sampleName "docs"]).addFile [sampleName "docs", sampleName "f"]).addLink
    [sampleName "share"] true []

/-- The folder of an open upload was moved away and a link put in its place. -/
def movedTree : FileTree OsName :=
  (((FileTree.empty.addDir [sampleName "share"]).addDir [sampleName "out"]).addFile
    [sampleName "out", .text (partName "f".toList 7)]).addLink
      [sampleName "share", sampleName "docs"] true [.down (sampleName "out")]

def linkedRead : List FolderAction := [.call (.readChunk samplePath 0) []]

def movedUpload : List FolderAction :=
  [.call (.startUpload 7 samplePath 3) [], .call (.writeChunk 7 [1, 2, 3]) [], .foreign movedTree,
    .call (.finishUpload 7) []]

/-- The access is to a place that is not below the root. -/
def outside (root : OsPath) (a : Access OsName) : Bool :=
  match a.tree.locate false root with
  | .ok top => !decide (top <+: a.loc)
  | .error _ => false

theorem not_confined_of_outside {a : Access OsName} (h : outside root a = true) :
    ¬Confined root a := by
  rintro ⟨⟨names, top, -, hloc, hreached⟩, -⟩
  unfold outside at h
  rw [hreached.root.located, hloc] at h
  simp [prefix_append] at h

/-- A file is read through a root that is a link. And an upload whose folder was replaced by a link
while it was open is renamed where the link leads. -/
theorem links_followed :
    (∃ s, runFrom step (at_ sampleRoot linkedTree) linkedRead = some s ∧
      ∃ a ∈ s.disk.log, a.kind = .read ∧ ¬Confined sampleRoot a) ∧
    ∃ s, runFrom step (at_ sampleRoot .empty) movedUpload = some s ∧
      ∃ a ∈ s.disk.log, a.kind = .rename ∧ ¬Confined sampleRoot a := by
  have hread : runFrom step (at_ sampleRoot linkedTree) linkedRead =
      some ((runFrom step (at_ sampleRoot linkedTree) linkedRead).get (by decide +kernel)) :=
    (some_get _).symm
  have hmoved : runFrom step (at_ sampleRoot .empty) movedUpload =
      some ((runFrom step (at_ sampleRoot .empty) movedUpload).get (by decide +kernel)) :=
    (some_get _).symm
  refine ⟨⟨_, hread, ?_⟩, _, hmoved, ?_⟩
  · have hany : ∃ a ∈ ((runFrom step (at_ sampleRoot linkedTree) linkedRead).get
        (by decide +kernel)).disk.log, a.kind = .read ∧ outside sampleRoot a = true := by
      decide +kernel
    obtain ⟨a, ha, hkind, hout⟩ := hany
    exact ⟨a, ha, hkind, not_confined_of_outside hout⟩
  · have hany : ∃ a ∈ ((runFrom step (at_ sampleRoot .empty) movedUpload).get
        (by decide +kernel)).disk.log, a.kind = .rename ∧ outside sampleRoot a = true := by
      decide +kernel
    obtain ⟨a, ha, hkind, hout⟩ := hany
    exact ⟨a, ha, hkind, not_confined_of_outside hout⟩

end Store

end RivetLink.Agent
