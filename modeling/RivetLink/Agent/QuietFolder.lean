import RivetLink.Agent.FolderConfinement

/-!
# The shared folder without failing calls

When no call on the disk fails, an operation of the shared folder is a function of the tree. The
lemmas here run an operation to its result: entering folders that are there, and reading a file that
`read_chunk` serves. `Served` says which files these are; it is the condition for a read to succeed
(`Served.readChunk`) and what a successful read shows (`served_of_readChunk`).
-/

namespace RivetLink.Agent

open List RivetLink.Foundation RivetLink.Sdk

namespace Reached

variable {t : FileTree OsName} {root : OsPath} {names more top : List OsName}

/-- The first of the names lead through real directories too. -/
theorem of_append (h : Reached t root (names ++ more) top) : Reached t root names top := by
  refine ⟨h.root, fun k hk => ?_⟩
  have hdir := h.dirs k (by rw [length_append]; omega)
  rwa [take_append_of_le_length hk] at hdir

/-- Every folder on the way is a directory. -/
theorem dir_at (h : Reached t root names top) : t.node (top ++ names) = some .dir := by
  have hdir := h.dirs names.length (Nat.le_refl _)
  rwa [take_length] at hdir

end Reached

namespace Store

variable {α : Type} {s s' : Store} {names top : List OsName} {dir : OsPath} {d : Disk OsName}
  {call : EStateM IoError (Disk OsName) α} {create : Bool}

/-! ## Folders that are there -/

theorem quiet_ensureRoot (hquiet : s.disk.faults = [])
    (hreal : s.disk.tree.RealDir s.folder.root top) : ensureRoot s = .ok () s := by
  have hstat : s.disk.tree.stat false s.folder.root = .ok .dir := by
    rw [FileTree.stat, hreal.located]
    dsimp only
    rw [hreal.dir]
    rfl
  unfold ensureRoot
  rw [run_bind (root_run s), run_bind (onDisk_ok (Disk.quiet_createDirAll hquiet hreal)),
    setDisk_self, run_bind (onDisk_ok (Disk.quiet_stat hquiet hstat))]
  rfl

theorem quiet_enterDir {name : OsName} (hquiet : s.disk.faults = [])
    (hreached : Reached s.disk.tree s.folder.root (names ++ [name]) top) :
    enterDir create (s.folder.root ++ names.map .down ++ [.down name]) s = .ok () s := by
  have hstat : s.disk.tree.stat false (s.folder.root ++ names.map .down ++ [.down name]) =
      .ok .dir := by
    rw [FileTree.stat, hreached.of_append.locate name]
    dsimp only
    rw [append_assoc, hreached.dir_at]
    rfl
  unfold enterDir
  rw [run_bind (tryDisk_ok (Disk.quiet_stat hquiet hstat))]
  rfl

/-- Folders that are there are entered one after the other. -/
theorem quiet_resolveDirs {components : List (List Char)} (hquiet : s.disk.faults = [])
    (hplain : ∀ c ∈ components, Plain c)
    (hreached : Reached s.disk.tree s.folder.root (names ++ components.map .text) top) :
    resolveDirs create (s.folder.root ++ names.map .down) components s =
      .ok (s.folder.root ++ (names ++ components.map OsName.text).map .down) s := by
  induction components generalizing names with
  | nil =>
    rw [map_nil, append_nil]
    rfl
  | cons c components ih =>
    have hsplit : names ++ (c :: components).map OsName.text =
        (names ++ [.text c]) ++ components.map .text := by simp
    rw [hsplit] at hreached
    have hnext := ih (fun c hc => hplain c (mem_cons_of_mem _ hc)) hreached
    rw [resolveDirs, push_of_plain (hplain c mem_cons_self),
      run_bind (quiet_enterDir hquiet hreached.of_append), hsplit, ← hnext]
    simp

/-! ## Files that are served -/

/-- A path that passes the check leads, through real directories only, to a regular file that is no
part file. -/
inductive Served (s : Store) (top : List OsName) (path : Str) (inode : Nat) : Prop where
  | mk {folders : List (List Char)} {name : List Char}
      (components : relativeComponents path = some (folders ++ [name]))
      (suffix : partSuffix.isSuffixOf name = false)
      (reached : Reached s.disk.tree s.folder.root (folders.map .text) top)
      (file : s.disk.tree.node (top ++ folders.map .text ++ [.text name]) = some (.file inode))

variable {path : Str} {inode offset : Nat} {file : OsPath} {r : Bytes × Nat × Bool}

/-- Only the folder and the tree matter. -/
theorem Served.congr (h : Served s top path inode) (hroot : s'.folder.root = s.folder.root)
    (htree : s'.disk.tree = s.disk.tree) : Served s' top path inode := by
  obtain ⟨hcomponents, hsuffix, hreached, hfile⟩ := h
  rw [← hroot, ← htree] at hreached
  rw [← htree] at hfile
  exact ⟨hcomponents, hsuffix, hreached, hfile⟩

/-- The chunk of a file at an offset, with the size and the end mark. -/
def chunkAt (content : Bytes) (offset : Nat) : Bytes × Nat × Bool :=
  ((content.drop offset).take fileChunkBytes, content.length,
    content.length ≤ offset + ((content.drop offset).take fileChunkBytes).length)

theorem quiet_readFrom {loc : List OsName} (hquiet : s.disk.faults = [])
    (hloc : s.disk.tree.locate false file = .ok loc)
    (hfile : s.disk.tree.node loc = some (.file inode))
    (hsize : (s.disk.tree.content inode).length ≤ maxFileBytes)
    (hoffset : offset ≤ (s.disk.tree.content inode).length) :
    readFrom file (s.disk.tree.content inode).length offset s =
      .ok (chunkAt (s.disk.tree.content inode) offset)
        (s.setDisk (s.disk.record .read file loc)) := by
  have hbounds : (maxFileBytes < (s.disk.tree.content inode).length ||
      (s.disk.tree.content inode).length < offset) = false := by
    simp only [Bool.or_eq_false_iff, decide_eq_false_iff_not, Nat.not_lt]
    exact ⟨hsize, hoffset⟩
  have hopen := onDisk_ok (Disk.quiet_openFile hquiet hloc hfile)
  have hseek := onDisk_ok (s := s.setDisk (s.disk.record .read file loc)) (Disk.quiet_next hquiet)
  have hread : onDisk (Disk.readAt inode offset fileChunkBytes)
      (s.setDisk (s.disk.record .read file loc)) =
        .ok (((s.disk.tree.content inode).drop offset).take fileChunkBytes)
          (s.setDisk (s.disk.record .read file loc)) := onDisk_ok (Disk.quiet_readAt hquiet)
  unfold readFrom
  rw [hbounds, if_neg Bool.false_ne_true, run_bind hopen, run_bind hseek, setDisk_self,
    run_bind hread]
  rfl

/-- A file that is served is read, at every offset up to its end. -/
theorem Served.readChunk (h : Served s top path inode) (hquiet : s.disk.faults = [])
    (hsize : (s.disk.tree.content inode).length ≤ maxFileBytes)
    (hoffset : offset ≤ (s.disk.tree.content inode).length) :
    ∃ log, readChunk path offset s = .ok (chunkAt (s.disk.tree.content inode) offset)
      (s.setDisk { s.disk with log := log }) := by
  obtain ⟨hcomponents, hsuffix, hreached, hfile⟩ := h
  rename_i folders name
  have hplain : ∀ c ∈ folders ++ [name], Plain c :=
    fun c hc => plain_of_mem_relativeComponents hcomponents hc
  have hname : Plain name := hplain name (by simp)
  have hresolve : resolveDirs false s.folder.root folders s =
      .ok (s.folder.root ++ (folders.map OsName.text).map .down) s := by
    have hrun := @quiet_resolveDirs s [] top false folders hquiet
      (fun c hc => hplain c (mem_append_left _ hc)) hreached
    simpa using hrun
  have hloc := hreached.locate (.text name)
  have hstat : s.disk.tree.stat false
      (s.folder.root ++ (folders.map OsName.text).map .down ++ [.down (.text name)]) =
        .ok (.file inode) := by
    rw [FileTree.stat, hloc]
    dsimp only
    rw [hfile]
    rfl
  refine ⟨(s.disk.record .read (s.folder.root ++ (folders.map OsName.text).map .down ++
    [.down (.text name)]) (top ++ folders.map .text ++ [.text name])).log, ?_⟩
  unfold Store.readChunk
  rw [hcomponents]
  dsimp only
  rw [getLast?_concat, dropLast_concat]
  dsimp only
  rw [run_bind (root_run s), run_bind hresolve, push_of_plain hname,
    run_bind (tryDisk_ok (Disk.quiet_stat hquiet hstat))]
  dsimp only
  rw [hsuffix, if_neg Bool.false_ne_true, run_bind (get_run _)]
  exact quiet_readFrom hquiet hloc hfile hsize hoffset

/-- The steps of a successful read. -/
theorem readChunk_eq_ok (h : Store.readChunk path offset s = .ok r s') :
    ∃ folders name dir s₁ inode s₂, relativeComponents path = some (folders ++ [name]) ∧
      resolveDirs false s.folder.root folders s = .ok dir s₁ ∧
      tryDisk (Disk.stat false (push dir name)) s₁ = .ok (.ok (.file inode)) s₂ ∧
      partSuffix.isSuffixOf name = false ∧
      readFrom (push dir name) (s₂.disk.tree.content inode).length offset s₂ = .ok r s' := by
  unfold Store.readChunk at h
  cases hcomponents : relativeComponents path with
  | none =>
    rw [hcomponents] at h
    cases h
  | some components =>
    rw [hcomponents] at h
    dsimp only at h
    cases hname : components.getLast? with
    | none =>
      rw [hname] at h
      cases h
    | some name =>
      rw [hname] at h
      dsimp only at h
      obtain ⟨folders, rfl⟩ := getLast?_eq_some_iff.1 hname
      rw [dropLast_concat, run_bind (root_run s)] at h
      obtain ⟨dir, s₁, hresolve, hrest⟩ := ok_of_bind h
      obtain ⟨node, s₂, hstat, hlast⟩ := ok_of_bind hrest
      split at hlast
      · rename_i inode
        cases hsuffix : partSuffix.isSuffixOf name with
        | true =>
          rw [hsuffix] at hlast
          cases hlast
        | false =>
          rw [hsuffix] at hlast
          exact ⟨folders, name, dir, s₁, inode, s₂, rfl, hresolve, hstat, hsuffix, hlast⟩
      · cases hlast

/-- A read returns the size that was looked up. -/
theorem size_of_readFrom {size : Nat} (h : readFrom file size offset s = .ok r s') :
    r.2.1 = size := by
  unfold readFrom at h
  split at h
  · cases h
  · obtain ⟨inode, s₁, -, hseek⟩ := ok_of_bind h
    obtain ⟨-, s₂, -, hread⟩ := ok_of_bind hseek
    obtain ⟨data, s₃, -, hdone⟩ := ok_of_bind hread
    cases hdone
    rfl

/-- What a successful read shows, whatever fails on the disk. -/
theorem served_of_readChunk (hreal : s.disk.tree.RealDir s.folder.root top)
    (h : Store.readChunk path offset s = .ok r s') :
    ∃ inode, Served s top path inode ∧ r.2.1 = (s.disk.tree.content inode).length := by
  obtain ⟨folders, name, dir, s₁, inode, s₂, hcomponents, hresolve, hstat, hsuffix, hread⟩ :=
    readChunk_eq_ok h
  have hplain : ∀ c ∈ folders ++ [name], Plain c :=
    fun c hc => plain_of_mem_relativeComponents hcomponents hc
  -- the folders are there, and they are left as they are
  have hspec := resolveDirs_spec (s := s) false
    (fun c hc => hplain c (mem_append_left _ hc)) (Reached.nil hreal)
  have hlooks : Ensures (· = s) (resolveDirs false s.folder.root folders)
      (fun _ => LooksFrom (fun _ => True) s) (LooksFrom (fun _ => True) s) :=
    (resolveDirs_looks folders).mono (fun s' heq => ⟨s.disk, heq, .of_same (.refl _)⟩)
      (fun _ _ h => h) fun _ h => h
  rw [map_nil, append_nil, nil_append] at hspec
  have hends := ensures_eq_iff.1 (hspec.and hlooks)
  rw [hresolve] at hends
  obtain ⟨⟨d, rfl, -, hreached, rfl⟩, d', hd', htree⟩ := hends
  obtain rfl : d = d' := congrArg Store.disk hd'
  have hsame := htree.tree
  rw [hsame] at hreached
  -- and the name leads to a file
  have hnode : Ensures (· = s.setDisk d)
      (tryDisk (Disk.stat false
        (push (s.folder.root ++ (folders.map OsName.text).map .down) name)))
      (fun r s₂ => s₂.disk.tree = s.disk.tree ∧ ∀ n, r = .ok n → s.disk.tree.stat false
        (push (s.folder.root ++ (folders.map OsName.text).map .down) name) = .ok n)
      (fun _ => False) := by
    apply ensures_tryDisk fun d => Disk.stat_spec
    · rintro node d' ⟨hd', hstat'⟩
      refine ⟨hd'.tree.trans hsame, ?_⟩
      rintro n ⟨⟩
      rw [← hsame]
      exact hstat'
    · intro e d' hd'
      exact ⟨hd'.tree.trans hsame, nofun⟩
  have hfound := ensures_eq_iff.1 hnode
  rw [hstat] at hfound
  obtain ⟨htree', hfile⟩ := hfound
  rw [push_of_plain (hplain name (by simp))] at hfile
  obtain ⟨loc, hloc, hnode⟩ := FileTree.stat_eq_ok (hfile _ rfl)
  rw [hreached.locate (.text name)] at hloc
  cases hloc
  refine ⟨inode, ⟨hcomponents, hsuffix, hreached, hnode⟩, ?_⟩
  rw [size_of_readFrom hread, htree']

/-! ## Reading to the end -/

/-- `read_chunk` again and again, each time where the last one ended; nothing if the rounds do not
suffice. -/
def readToEnd (path : Str) : Nat → Nat → Share (Option Bytes)
  | 0, _ => pure none
  | rounds + 1, offset => do
      let (data, _, eof) ← readChunk path offset
      if eof then pure (some data)
      else
        let rest ← readToEnd path rounds (offset + data.length)
        pure (rest.map (data ++ ·))

/-- Reading to the end gives the rest of the file; a round for each byte is enough. -/
theorem Served.readToEnd (h : Served s top path inode) (hquiet : s.disk.faults = [])
    (hsize : (s.disk.tree.content inode).length ≤ maxFileBytes) {rounds : Nat}
    (hoffset : offset ≤ (s.disk.tree.content inode).length)
    (hrounds : (s.disk.tree.content inode).length < offset + rounds) :
    ∃ s', readToEnd path rounds offset s =
      .ok (some ((s.disk.tree.content inode).drop offset)) s' := by
  induction rounds generalizing s offset with
  | zero => omega
  | succ rounds ih =>
    obtain ⟨log, hread⟩ := h.readChunk hquiet hsize hoffset
    unfold Store.readToEnd
    rw [run_bind hread]
    dsimp only [chunkAt]
    by_cases heof : (s.disk.tree.content inode).length ≤
        offset + (((s.disk.tree.content inode).drop offset).take fileChunkBytes).length
    · -- the chunk reaches the end
      rw [decide_eq_true heof, if_pos rfl]
      refine ⟨s.setDisk { s.disk with log := log }, ?_⟩
      have hall : ((s.disk.tree.content inode).drop offset).take fileChunkBytes =
          (s.disk.tree.content inode).drop offset := by
        apply take_of_length_le
        simp only [length_take, length_drop] at heof ⊢
        omega
      rw [hall]
      rfl
    · rw [decide_eq_false heof, if_neg Bool.false_ne_true]
      have hlen : (((s.disk.tree.content inode).drop offset).take fileChunkBytes).length =
          fileChunkBytes := by
        simp only [length_take, length_drop] at heof ⊢
        omega
      rw [hlen] at heof ⊢
      have hpos : 0 < fileChunkBytes := by decide
      have hserved : Served (s.setDisk { s.disk with log := log }) top path inode :=
        h.congr rfl rfl
      have hnext : offset + fileChunkBytes ≤ (s.disk.tree.content inode).length := by omega
      have hleft : (s.disk.tree.content inode).length < offset + fileChunkBytes + rounds := by
        omega
      obtain ⟨s', hrest⟩ := ih hserved hquiet hsize hnext hleft
      rw [run_bind hrest]
      refine ⟨s', ?_⟩
      change EStateM.Result.ok (some (_ ++ (s.disk.tree.content inode).drop _)) s' = _
      rw [← drop_drop, take_append_drop]

end Store

end RivetLink.Agent
