import RivetLink.Foundation.Effects
import RivetLink.Foundation.FileTree

/-!
# File system calls

The calls that a program makes on a file tree. Any of them can fail for a reason of its own, which
the list `faults` decides; only the removal of a file cannot. No new node gets a name that the file
system does not store. The log records what was created, renamed, listed or read, each with the tree
as it was.

The call lemmas say what a call does when it returns and that it changes nothing else when it fails.
Without faults the calls are functions of the tree (the lemmas `quiet_stat` and so on).
-/

namespace RivetLink.Foundation

inductive AccessKind where
  | makeDir
  | create (inode : Nat)
  | rename
  | list
  | read
  deriving DecidableEq

variable {ν : Type} [DecidableEq ν]

/-- An access to the node at a location by a path. -/
structure Access (ν : Type) [DecidableEq ν] where
  kind : AccessKind
  tree : FileTree ν
  path : List (Hop ν)
  loc : List ν

structure Disk (ν : Type) [DecidableEq ν] where
  tree : FileTree ν
  /-- For the next calls: whether each fails, and after how many bytes a write does. -/
  faults : List (Option Nat) := []
  log : List (Access ν) := []
  /-- The names that the file system stores. -/
  stores : ν → Bool := fun _ => true

namespace Disk

variable {α : Type}

def record (d : Disk ν) (kind : AccessKind) (path : List (Hop ν)) (loc : List ν) : Disk ν :=
  { d with log := d.log ++ [⟨kind, d.tree, path, loc⟩] }

def setTree (d : Disk ν) (tree : FileTree ν) : Disk ν := { d with tree := tree }

/-- A call that can fail for its own reason, without effect. -/
def failing (m : EStateM IoError (Disk ν) α) : EStateM IoError (Disk ν) α := fun d =>
  match d.faults with
  | [] => m d
  | none :: rest => m { d with faults := rest }
  | some _ :: rest => .error .other { d with faults := rest }

/-- The next call fails for its own reason. -/
def fails (d : Disk ν) : Bool := d.faults.head?.join.isSome

/-- The disk after a call without effect. -/
def spent (d : Disk ν) : Disk ν := { d with faults := d.faults.tail }

@[simp] theorem spent_tree (d : Disk ν) : d.spent.tree = d.tree := rfl

/-- There is a node at the location, or its name is one that could be stored. -/
def admits (d : Disk ν) (loc : List ν) : Bool :=
  (d.tree.node loc).isSome || loc.getLast?.all d.stores

/-- Why a path leads to no node: a name that is not stored is not looked up. -/
def missing (d : Disk ν) (follow : Bool) (path : List (Hop ν)) (e : IoError) : IoError :=
  match d.tree.locate follow path with
  | .ok loc => if d.admits loc then e else .other
  | .error _ => e

/-- `symlink_metadata`, and `metadata` if links are followed. -/
def stat (follow : Bool) (path : List (Hop ν)) : EStateM IoError (Disk ν) (Node ν) :=
  failing fun d =>
    match d.tree.stat follow path with
    | .ok node => .ok node d
    | .error e => .error (d.missing follow path e) d

/-- `is_dir`: an error counts as no. -/
def isDir (path : List (Hop ν)) : EStateM IoError (Disk ν) Bool := do
  match ← attempt (stat true path) with
  | .ok .dir => pure true
  | _ => pure false

/-- A call on the node that a path leads to. -/
def onNode (follow : Bool) (path : List (Hop ν))
    (call : List ν → Option (Node ν) → EStateM IoError (Disk ν) α) : EStateM IoError (Disk ν) α :=
  failing fun d =>
    match d.tree.locate follow path with
    | .error e => .error e d
    | .ok loc => call loc (d.tree.node loc) d

/-- `create_dir`; whether it is noted in the log. -/
def makeDir (noted : Bool) (path : List (Hop ν)) : EStateM IoError (Disk ν) Unit :=
  onNode false path fun loc node d =>
    match node with
    | some _ => .error .alreadyExists d
    | none =>
      if d.admits loc then
        .ok () ((if noted then d.record .makeDir path loc else d).setTree (d.tree.addDir loc))
      else .error .other d

def createDir (path : List (Hop ν)) : EStateM IoError (Disk ν) Unit := makeDir true path

/-- An error is taken as success if the path leads to a directory. -/
def orDir (path : List (Hop ν)) (e : IoError) : EStateM IoError (Disk ν) Unit := do
  if ← isDir path then pure () else throw e

/-- `create_dir_all`, on the hops from the last one. The log is about what lies below. -/
def createDirAllRev : List (Hop ν) → EStateM IoError (Disk ν) Unit
  | [] => pure ()
  | hop :: above => do
      let path := (hop :: above).reverse
      match ← attempt (makeDir false path) with
      | .ok () => pure ()
      | .error .notFound =>
        createDirAllRev above
        match ← attempt (makeDir false path) with
        | .ok () => pure ()
        | .error e => orDir path e
      | .error e => orDir path e

def createDirAll (path : List (Hop ν)) : EStateM IoError (Disk ν) Unit :=
  createDirAllRev path.reverse

/-- Open a file for writing that must not exist. -/
def createNew (path : List (Hop ν)) : EStateM IoError (Disk ν) Nat :=
  onNode false path fun loc node d =>
    match node with
    | some _ => .error .alreadyExists d
    | none =>
      if d.admits loc then
        .ok d.tree.nextInode
          ((d.record (.create d.tree.nextInode) path loc).setTree (d.tree.addFile loc))
      else .error .other d

/-- `write_all` at the end of an open file. A write that fails may have written a part. -/
def writeAll (inode : Nat) (data : Bytes) : EStateM IoError (Disk ν) Unit := fun d =>
  match d.faults with
  | [] => .ok () (d.setTree (d.tree.append inode data))
  | none :: rest => .ok () ({ d with faults := rest }.setTree (d.tree.append inode data))
  | some n :: rest =>
    .error .other ({ d with faults := rest }.setTree (d.tree.append inode (data.take n)))

/-- A call that changes nothing that is seen. -/
def next : EStateM IoError (Disk ν) Unit := failing (pure ())

def syncAll : EStateM IoError (Disk ν) Unit := next

/-- Whether a node can be put in the place of another. Directories are not renamed. -/
def replaces : Option (Node ν) → Option (Node ν) → Except IoError Unit
  | none, _ => .error .notFound
  | some .dir, _ => .error .other
  | some _, some .dir => .error .isADirectory
  | some _, _ => .ok ()

def rename (src dst : List (Hop ν)) : EStateM IoError (Disk ν) Unit :=
  onNode false src fun from_ node d =>
    match d.tree.locate false dst with
    | .error e => .error e d
    | .ok to_ =>
      match replaces node (d.tree.node to_) with
      | .error e => .error e d
      | .ok () =>
        if d.admits to_ then
          .ok () (((d.record .rename src from_).record .rename dst to_).setTree
            (if from_ = to_ then d.tree else d.tree.move from_ to_))
        else .error .other d

def removeFile (path : List (Hop ν)) : EStateM IoError (Disk ν) Unit := fun d =>
  match d.tree.locate false path with
  | .error e => .error e d
  | .ok loc =>
    match d.tree.node loc with
    | none => .error .notFound d
    | some .dir => .error .isADirectory d
    | some _ => .ok () (d.setTree (d.tree.remove loc))

def readDir (path : List (Hop ν)) : EStateM IoError (Disk ν) (List (ν × Node ν)) :=
  onNode true path fun loc node d =>
    match node with
    | none => .error .notFound d
    | some .dir => .ok (d.tree.children loc) (d.record .list path loc)
    | some _ => .error .notADirectory d

def openFile (path : List (Hop ν)) : EStateM IoError (Disk ν) Nat :=
  onNode true path fun loc node d =>
    match node with
    | none => .error .notFound d
    | some (.file inode) => .ok inode (d.record .read path loc)
    | some _ => .error .isADirectory d

/-- Up to `count` bytes of an open file from `offset` on. -/
def readAt (inode offset count : Nat) : EStateM IoError (Disk ν) Bytes :=
  failing fun d => .ok (((d.tree.content inode).drop offset).take count) d

/-! ## What the calls do -/

/-- Only the faults to come may differ, and there are no new ones. -/
structure Same (d d' : Disk ν) : Prop where
  tree : d'.tree = d.tree
  log : d'.log = d.log
  stores : d'.stores = d.stores

variable {d d' d'' : Disk ν} {path src dst : List (Hop ν)} {follow noted : Bool} {inode : Nat}
  {Q : α → Disk ν → Prop}

theorem Same.refl (d : Disk ν) : Same d d := ⟨rfl, rfl, rfl⟩

theorem Same.trans (h : Same d d') (h' : Same d' d'') : Same d d'' :=
  ⟨h'.tree.trans h.tree, h'.log.trans h.log, h'.stores.trans h.stores⟩

theorem ensures_failing {m : EStateM IoError (Disk ν) α} {R : Disk ν → Prop}
    (hm : ∀ d', Same d d' → Ensures (· = d') m Q R) (hfail : ∀ d', Same d d' → R d') :
    Ensures (· = d) (failing m) Q R := by
  refine ensures_eq_iff.2 ?_
  unfold failing
  cases d.faults with
  | nil => exact ensures_eq_iff.1 (hm d (.refl d))
  | cons fault rest =>
    cases fault with
    | none => exact ensures_eq_iff.1 (hm { d with faults := rest } ⟨rfl, rfl, rfl⟩)
    | some n => exact hfail { d with faults := rest } ⟨rfl, rfl, rfl⟩

theorem failing_eq (m : EStateM IoError (Disk ν) α) (d : Disk ν) :
    failing m d = if d.fails then .error .other d.spent else m d.spent := by
  obtain ⟨tree, faults, log, stores⟩ := d
  cases faults with
  | nil => rfl
  | cons fault rest => cases fault <;> rfl

theorem stat_eq (d : Disk ν) : stat follow path d =
    if d.fails then .error .other d.spent
    else
      match d.tree.stat follow path with
      | .ok node => .ok node d.spent
      | .error e => .error (d.spent.missing follow path e) d.spent := failing_eq _ d

theorem same_spent (d : Disk ν) : Same d d.spent := ⟨rfl, rfl, rfl⟩

theorem stat_spec : Ensures (· = d) (stat follow path)
    (fun node d' => Same d d' ∧ d.tree.stat follow path = .ok node) (Same d) := by
  refine ensures_failing (fun d' hsame => ensures_eq_iff.2 ?_) fun d' h => h
  rw [← hsame.tree]
  cases d'.tree.stat follow path with
  | ok node => exact ⟨hsame, rfl⟩
  | error e => exact hsame

theorem isDir_spec : Ensures (· = d) (isDir path)
    (fun yes d' => Same d d' ∧ (yes = true → d.tree.stat true path = .ok .dir)) (Same d) := by
  refine (ensures_attempt stat_spec (T := fun r d' => Same d d' ∧
    ∀ node, r = .ok node → d.tree.stat true path = .ok node) ?_ ?_).bind ?_
  · rintro node d' ⟨hsame, hstat⟩
    exact ⟨hsame, fun _ h => by cases h; exact hstat⟩
  · exact fun e d' hsame => ⟨hsame, nofun⟩
  · intro r
    split
    · exact ensures_pure fun d' h => ⟨h.1, fun _ => h.2 _ rfl⟩
    · exact ensures_pure fun d' h => ⟨h.1, nofun⟩

theorem ensures_onNode {call : List ν → Option (Node ν) → EStateM IoError (Disk ν) α}
    (hcall : ∀ d', Same d d' → ∀ loc, d.tree.locate follow path = .ok loc →
      Ends Q (Same d) (call loc (d.tree.node loc) d')) :
    Ensures (· = d) (onNode follow path call) Q (Same d) := by
  refine ensures_failing (fun d' hsame => ensures_eq_iff.2 ?_) fun d' h => h
  rw [hsame.tree]
  cases hloc : d.tree.locate follow path with
  | error e => exact hsame
  | ok loc => exact hcall d' hsame loc hloc

/-- A new directory at a location that was free. -/
theorem makeDir_spec : Ensures (· = d) (makeDir noted path)
    (fun _ d' => ∃ loc, d.tree.locate false path = .ok loc ∧ d.tree.node loc = none ∧
      d'.tree = d.tree.addDir loc ∧
        d'.log = d.log ++ if noted then [⟨.makeDir, d.tree, path, loc⟩] else []) (Same d) := by
  refine ensures_onNode fun d' hsame loc hloc => ?_
  cases hnode : d.tree.node loc with
  | some node => exact hsame
  | none =>
    refine ends_ite (fun _ => ⟨loc, hloc, hnode, by rw [← hsame.tree]; rfl, ?_⟩) fun _ => hsame
    rw [← hsame.tree, ← hsame.log]
    cases noted with
    | true => rfl
    | false => exact (List.append_nil _).symm

theorem createNew_spec : Ensures (· = d) (createNew path)
    (fun inode d' => ∃ loc, d.tree.locate false path = .ok loc ∧ d.tree.node loc = none ∧
      inode = d.tree.nextInode ∧ d'.tree = d.tree.addFile loc ∧
        d'.log = d.log ++ [⟨.create d.tree.nextInode, d.tree, path, loc⟩]) (Same d) := by
  refine ensures_onNode fun d' hsame loc hloc => ?_
  cases hnode : d.tree.node loc with
  | some node => exact hsame
  | none =>
    refine ends_ite (fun _ => ⟨loc, hloc, hnode, ?_⟩) fun _ => hsame
    rw [← hsame.tree, ← hsame.log]
    exact ⟨rfl, rfl, rfl⟩

/-- A write changes the bytes of the file only. -/
theorem writeAll_spec {data : Bytes} : Ensures (· = d) (writeAll inode data)
    (fun _ d' => d'.tree = d.tree.append inode data ∧ d'.log = d.log)
    (fun d' => ∃ n, d'.tree = d.tree.append inode (data.take n) ∧ d'.log = d.log) := by
  refine ensures_eq_iff.2 ?_
  unfold writeAll
  cases d.faults with
  | nil => exact ⟨rfl, rfl⟩
  | cons fault rest =>
    cases fault with
    | none => exact ⟨rfl, rfl⟩
    | some n => exact ⟨n, rfl, rfl⟩

theorem next_spec : Ensures (· = d) next (fun _ => Same d) (Same d) :=
  ensures_failing (fun _ hsame => ensures_pure fun _ h => h ▸ hsame) fun _ h => h

theorem syncAll_spec : Ensures (· = d) syncAll (fun _ d' => d' = d.spent) (· = d.spent) := by
  refine ensures_eq_iff.2 ?_
  change Ends _ _ (failing _ d)
  rw [failing_eq]
  exact ends_ite (fun _ => rfl) fun _ => rfl

theorem next_eq_ok (h : d.fails = false) : next d = .ok () d.spent := by
  refine (failing_eq _ d).trans ?_
  rw [h]
  rfl

omit [DecidableEq ν] in
theorem replaces_eq_ok {node node' : Option (Node ν)} (h : replaces node node' = .ok ()) :
    (∃ n, node = some n ∧ n ≠ .dir) ∧ node' ≠ some .dir := by
  cases node with
  | none => cases h
  | some n =>
    have hdir : n ≠ .dir := by
      rintro rfl
      cases h
    refine ⟨⟨n, rfl, hdir⟩, ?_⟩
    rintro rfl
    cases n <;> cases h

theorem rename_spec : Ensures (· = d) (rename src dst)
    (fun _ d' => ∃ from_ to_ node, d.tree.locate false src = .ok from_ ∧
      d.tree.locate false dst = .ok to_ ∧ d.tree.node from_ = some node ∧ node ≠ .dir ∧
        d.tree.node to_ ≠ some .dir ∧
          d'.tree = (if from_ = to_ then d.tree else d.tree.move from_ to_) ∧
            d'.log = d.log ++ [⟨.rename, d.tree, src, from_⟩, ⟨.rename, d.tree, dst, to_⟩])
    (Same d) := by
  refine ensures_onNode fun d' hsame from_ hsrc => ?_
  rw [hsame.tree]
  cases hdst : d.tree.locate false dst with
  | error e => exact hsame
  | ok to_ =>
    dsimp only
    cases hreplaces : replaces (d.tree.node from_) (d.tree.node to_) with
    | error e => exact hsame
    | ok _ =>
      obtain ⟨⟨node, hnode, hdir⟩, hdir'⟩ := replaces_eq_ok hreplaces
      refine ends_ite
        (fun _ => ⟨from_, to_, node, hsrc, rfl, hnode, hdir, hdir', rfl, ?_⟩) fun _ => hsame
      rw [← hsame.tree, ← hsame.log]
      exact List.append_assoc _ _ _

/-- A removal takes away the node at the end of the path, if it is no directory. -/
theorem removeFile_spec : Ensures (· = d) (removeFile path)
    (fun _ d' => ∃ loc node, d.tree.locate false path = .ok loc ∧ d.tree.node loc = some node ∧
      node ≠ .dir ∧ d'.tree = d.tree.remove loc ∧ d'.log = d.log)
    (fun d' => d' = d ∧ ∀ loc node, d.tree.locate false path = .ok loc →
      d.tree.node loc = some node → node = .dir) := by
  refine ensures_eq_iff.2 ?_
  unfold removeFile
  cases hloc : d.tree.locate false path with
  | error e => exact ⟨rfl, nofun⟩
  | ok loc =>
    dsimp only
    cases hnode : d.tree.node loc with
    | none => exact ⟨rfl, by rintro _ _ ⟨⟩ h; rw [hnode] at h; cases h⟩
    | some node =>
      cases node with
      | dir => exact ⟨rfl, by rintro _ _ ⟨⟩ h; rw [hnode] at h; cases h; rfl⟩
      | file inode | link absolute target => exact ⟨loc, _, rfl, hnode, nofun, rfl, rfl⟩

theorem readDir_spec : Ensures (· = d) (readDir path)
    (fun entries d' => ∃ loc, d.tree.locate true path = .ok loc ∧ d.tree.node loc = some .dir ∧
      entries = d.tree.children loc ∧ d'.tree = d.tree ∧
        d'.log = d.log ++ [⟨.list, d.tree, path, loc⟩]) (Same d) := by
  refine ensures_onNode fun d' hsame loc hloc => ?_
  cases hnode : d.tree.node loc with
  | none => exact hsame
  | some node =>
    cases node with
    | dir =>
      refine ⟨loc, hloc, hnode, ?_⟩
      rw [← hsame.tree, ← hsame.log]
      exact ⟨rfl, rfl, rfl⟩
    | file inode | link absolute target => exact hsame

theorem openFile_spec : Ensures (· = d) (openFile path)
    (fun inode d' => ∃ loc, d.tree.locate true path = .ok loc ∧
      d.tree.node loc = some (.file inode) ∧ d'.tree = d.tree ∧
        d'.log = d.log ++ [⟨.read, d.tree, path, loc⟩]) (Same d) := by
  refine ensures_onNode fun d' hsame loc hloc => ?_
  cases hnode : d.tree.node loc with
  | none => exact hsame
  | some node =>
    cases node with
    | dir => exact hsame
    | file inode =>
      refine ⟨loc, hloc, hnode, ?_⟩
      rw [← hsame.tree, ← hsame.log]
      exact ⟨rfl, rfl⟩
    | link absolute target => exact hsame

theorem readAt_spec {offset count : Nat} : Ensures (· = d) (readAt inode offset count)
    (fun data d' => Same d d' ∧ data = ((d.tree.content inode).drop offset).take count)
    (Same d) := by
  refine ensures_failing (fun d' hsame => ensures_eq_iff.2 ?_) fun d' h => h
  refine ⟨hsame, ?_⟩
  rw [hsame.tree]

structure Grows (d d' : Disk ν) : Prop where
  tree : d.tree.Extends d'.tree
  files : ∀ loc inode, d'.tree.node loc = some (.file inode) ↔ d.tree.node loc = some (.file inode)
  contents : ∀ inode, d'.tree.content inode = d.tree.content inode
  nextInode : d'.tree.nextInode = d.tree.nextInode
  log : d'.log = d.log

theorem Grows.of_same (h : Same d d') : Grows d d' := by
  refine ⟨?_, ?_, ?_, ?_, h.log⟩
  · rw [h.tree]
    exact .refl _
  · rw [h.tree]
    exact fun _ _ => Iff.rfl
  · rw [h.tree]
    exact fun _ => rfl
  · rw [h.tree]

theorem Grows.trans (h : Grows d d') (h' : Grows d' d'') : Grows d d'' where
  tree := h.tree.trans h'.tree
  files loc inode := (h'.files loc inode).trans (h.files loc inode)
  contents inode := (h'.contents inode).trans (h.contents inode)
  nextInode := h'.nextInode.trans h.nextInode
  log := h'.log.trans h.log

theorem extends_addDir {t : FileTree ν} {loc : List ν} (hnode : t.node loc = none) :
    t.Extends (t.addDir loc) ∧ ∀ loc' inode,
      (t.addDir loc).node loc' = some (.file inode) ↔ t.node loc' = some (.file inode) := by
  have hne := FileTree.ne_nil_of_none hnode
  refine ⟨.of_change loc (by rw [hnode]; nofun) ?_, ?_⟩
  · intro loc' hne'
    rw [FileTree.node_addDir hne, if_neg hne']
  · intro loc' inode
    rw [FileTree.node_addDir hne]
    split
    · rename_i heq
      rw [heq, hnode]
      simp
    · exact Iff.rfl

/-- A directory that was made is there. -/
theorem makeDir_grows : Ensures (· = d) (makeDir false path)
    (fun _ d' => Grows d d' ∧ d'.tree.stat true path = .ok .dir) (Same d) := by
  refine makeDir_spec.mono (fun _ h => h) ?_ fun _ h => h
  rintro _ d' ⟨loc, hloc, hnode, htree, hlog⟩
  obtain ⟨hext, hfiles⟩ := extends_addDir hnode
  have hne := FileTree.ne_nil_of_none hnode
  have hdir : (d.tree.addDir loc).node loc = some .dir := by
    rw [FileTree.node_addDir hne, if_pos rfl]
  refine ⟨⟨?_, ?_, ?_, ?_, ?_⟩, ?_⟩
  · rw [htree]
    exact hext
  · rw [htree]
    exact hfiles
  · rw [htree]
    exact fun _ => rfl
  · rw [htree]
    rfl
  · simpa using hlog
  · rw [htree]
    exact FileTree.RealDir.stat ⟨hext.locate hloc, hdir⟩

theorem orDir_spec {e : IoError} : Ensures (Grows d) (orDir path e)
    (fun _ d' => Grows d d' ∧ d'.tree.stat true path = .ok .dir) (Grows d) := by
  refine Ensures.bind (Q := fun yes d' => Grows d d' ∧
    (yes = true → d'.tree.stat true path = .ok .dir)) ?_ ?_
  · refine ensures_iff_forall.2 fun d₁ hgrows => isDir_spec.mono (fun _ h => h) ?_ ?_
    · rintro yes d' ⟨hsame, hyes⟩
      refine ⟨hgrows.trans (.of_same hsame), ?_⟩
      rw [hsame.tree]
      exact hyes
    · exact fun d' hsame => hgrows.trans (.of_same hsame)
  · intro yes
    refine ensures_ite (fun hyes => ensures_pure fun d' h => ⟨h.1, h.2 hyes⟩) fun _ => ?_
    exact ensures_throw fun d' h => h.1

/-- `create_dir_all` makes directories only, and then the path leads to one. -/
theorem createDirAllRev_spec (hops : List (Hop ν)) : Ensures (Grows d) (createDirAllRev hops)
    (fun _ d' => Grows d d' ∧ d'.tree.stat true hops.reverse = .ok .dir) (Grows d) := by
  induction hops with
  | nil => exact ensures_pure fun d' h => ⟨h, rfl⟩
  | cons hop above ih =>
    -- one attempt to make the last directory
    have hmake : Ensures (Grows d)
        (attempt (makeDir false (hop :: above).reverse) :
          EStateM IoError (Disk ν) (Except IoError Unit))
        (fun r d' => Grows d d' ∧
          (r = .ok () → d'.tree.stat true (hop :: above).reverse = .ok .dir)) (Grows d) := by
      refine ensures_iff_forall.2 fun d₁ hgrows => ensures_attempt makeDir_grows ?_ ?_
      · exact fun _ d' h => ⟨hgrows.trans h.1, fun _ => h.2⟩
      · exact fun e d' hsame => ⟨hgrows.trans (.of_same hsame), nofun⟩
    refine hmake.bind fun r => ?_
    split
    · exact ensures_pure fun d' h => ⟨h.1, h.2 rfl⟩
    · refine Ensures.bind (Q := fun _ => Grows d) (ih.mono (fun _ h => h.1) (fun _ _ h => h.1)
        fun _ h => h) fun _ => hmake.bind fun r => ?_
      split
      · exact ensures_pure fun d' h => ⟨h.1, h.2 rfl⟩
      · exact orDir_spec.mono (fun _ h => h.1) (fun _ _ h => h) fun _ h => h
    · exact orDir_spec.mono (fun _ h => h.1) (fun _ _ h => h) fun _ h => h

theorem createDirAll_spec : Ensures (· = d) (createDirAll path)
    (fun _ d' => Grows d d' ∧ d'.tree.stat true path = .ok .dir) (Grows d) := by
  have hspec := createDirAllRev_spec (d := d) path.reverse
  rw [List.reverse_reverse] at hspec
  exact hspec.mono (fun _ h => by rw [h]; exact .of_same (.refl d)) (fun _ _ h => h) fun _ h => h

/-! ## Without faults -/

section Quiet

variable {loc from_ to_ : List ν} {node : Node ν}

theorem failing_quiet {m : EStateM IoError (Disk ν) α} (h : d.faults = []) :
    failing m d = m d := by
  unfold failing
  rw [h]

theorem quiet_next (h : d.faults = []) : next d = .ok () d := failing_quiet h

theorem quiet_stat (h : d.faults = []) (hstat : d.tree.stat follow path = .ok node) :
    stat follow path d = .ok node d := by
  refine (failing_quiet h).trans ?_
  rw [hstat]

/-- A name that is stored but not there is not found. -/
theorem quiet_stat_missing (h : d.faults = []) (hloc : d.tree.locate follow path = .ok loc)
    (hnode : d.tree.node loc = none) (hstores : loc.getLast?.all d.stores = true) :
    stat follow path d = .error .notFound d := by
  have hstat : d.tree.stat follow path = .error .notFound := by
    rw [FileTree.stat, hloc]
    dsimp only
    rw [hnode]
    rfl
  refine (failing_quiet h).trans ?_
  rw [hstat]
  dsimp only
  rw [missing, hloc]
  dsimp only
  rw [admits, hstores, Bool.or_true, if_pos rfl]

/-- Whether a location can be named depends on its last name only. -/
theorem stores_concat {above : List ν} {name : ν} (h : d.stores name = true) :
    (above ++ [name]).getLast?.all d.stores = true := by
  rw [List.getLast?_concat]
  exact h

theorem quiet_onNode {call : List ν → Option (Node ν) → EStateM IoError (Disk ν) α}
    (h : d.faults = []) (hloc : d.tree.locate follow path = .ok loc) :
    onNode follow path call d = call loc (d.tree.node loc) d := by
  refine (failing_quiet h).trans ?_
  rw [hloc]

theorem onNode_eq {call : List ν → Option (Node ν) → EStateM IoError (Disk ν) α}
    (h : d.fails = false) (hloc : d.tree.locate follow path = .ok loc) :
    onNode follow path call d = call loc (d.tree.node loc) d.spent := by
  refine (failing_eq _ d).trans ?_
  rw [h, if_neg Bool.false_ne_true, spent_tree, hloc]

theorem quiet_makeDir (h : d.faults = []) (hloc : d.tree.locate false path = .ok loc)
    (hnode : d.tree.node loc = none) (hstores : loc.getLast?.all d.stores = true) :
    makeDir noted path d =
      .ok () ((if noted then d.record .makeDir path loc else d).setTree (d.tree.addDir loc)) := by
  refine (quiet_onNode h hloc).trans ?_
  rw [hnode]
  dsimp only
  rw [admits, hstores, Bool.or_true, if_pos rfl]

theorem quiet_createNew (h : d.faults = []) (hloc : d.tree.locate false path = .ok loc)
    (hnode : d.tree.node loc = none) (hstores : loc.getLast?.all d.stores = true) :
    createNew path d = .ok d.tree.nextInode
      ((d.record (.create d.tree.nextInode) path loc).setTree (d.tree.addFile loc)) := by
  refine (quiet_onNode h hloc).trans ?_
  rw [hnode]
  dsimp only
  rw [admits, hstores, Bool.or_true, if_pos rfl]

theorem quiet_writeAll {data : Bytes} (h : d.faults = []) :
    writeAll inode data d = .ok () (d.setTree (d.tree.append inode data)) := by
  unfold writeAll
  rw [h]

/-- A file is renamed to a free place. -/
theorem rename_eq_ok (h : d.fails = false) (hsrc : d.tree.locate false src = .ok from_)
    (hfile : d.tree.node from_ = some (.file inode)) (hdst : d.tree.locate false dst = .ok to_)
    (hnode : d.tree.node to_ = none) (hstores : to_.getLast?.all d.stores = true) :
    rename src dst d = .ok () (((d.spent.record .rename src from_).record .rename dst to_).setTree
      (d.tree.move from_ to_)) := by
  have hne : from_ ≠ to_ := by
    rintro rfl
    rw [hfile] at hnode
    cases hnode
  have hadmits : d.spent.admits to_ = true := by
    rw [admits]
    exact (congrArg _ hstores).trans (Bool.or_true _)
  refine (onNode_eq h hsrc).trans ?_
  rw [hfile, spent_tree, hdst]
  dsimp only
  rw [hnode]
  dsimp only [replaces]
  rw [hadmits, if_pos rfl, if_neg hne]

theorem quiet_readDir (h : d.faults = []) (hreal : d.tree.RealDir path loc) :
    readDir path d = .ok (d.tree.children loc) (d.record .list path loc) := by
  have hfollow := FileTree.locate_follow
    (fun n hn => by rw [hreal.dir] at hn; cases hn; rfl) hreal.located
  refine (quiet_onNode h hfollow).trans ?_
  rw [hreal.dir]

theorem quiet_openFile (h : d.faults = []) (hloc : d.tree.locate false path = .ok loc)
    (hfile : d.tree.node loc = some (.file inode)) :
    openFile path d = .ok inode (d.record .read path loc) := by
  have hfollow := FileTree.locate_follow (fun n hn => by rw [hfile] at hn; cases hn; rfl) hloc
  refine (quiet_onNode h hfollow).trans ?_
  rw [hfile]

theorem quiet_readAt {offset count : Nat} (h : d.faults = []) :
    readAt inode offset count d = .ok (((d.tree.content inode).drop offset).take count) d :=
  failing_quiet h

theorem quiet_isDir (h : d.faults = []) (hreal : d.tree.RealDir path loc) :
    isDir path d = .ok true d := by
  have hstat : (attempt (stat true path) : EStateM IoError (Disk ν) _) d = .ok (.ok .dir) d := by
    unfold attempt
    rw [quiet_stat h hreal.stat]
  unfold isDir
  rw [run_bind hstat]
  rfl

/-- A directory that is there need not be made. -/
theorem quiet_createDirAll (h : d.faults = []) (hreal : d.tree.RealDir path loc) :
    createDirAll path d = .ok () d := by
  have hrev : ∀ hops : List (Hop ν), hops.reverse = path → createDirAllRev hops d = .ok () d := by
    intro hops hpath
    cases hops with
    | nil => rfl
    | cons hop above =>
      have hexists : makeDir false path d = .error .alreadyExists d := by
        refine (quiet_onNode h hreal.located).trans ?_
        rw [hreal.dir]
      have hmake : (attempt (makeDir false (hop :: above).reverse) :
          EStateM IoError (Disk ν) _) d = .ok (.error .alreadyExists) d := by
        unfold attempt
        rw [hpath, hexists]
      unfold createDirAllRev
      dsimp only
      rw [run_bind hmake]
      dsimp only
      rw [hpath, orDir, run_bind (quiet_isDir h hreal)]
      rfl
  exact hrev path.reverse (List.reverse_reverse path)

end Quiet

end Disk

end RivetLink.Foundation
