import RivetLink.Agent.SharedFolder

/-!
# What the operations of the shared folder do

A path below the root is reached through real directories if the root is one and no name on the way
is a link (`Reached`). `startUpload` and `list` establish this for every file they create or list;
`readChunk` never looks at the root itself, and `finishUpload` uses the path that was resolved when
the upload began. There is one lemma for each operation, which says what it does when it returns and
when it fails.
-/

namespace RivetLink.Agent

open List RivetLink.Foundation RivetLink.Sdk

/-- From a root that is a real directory the names lead through real directories only. -/
structure Reached (t : FileTree OsName) (root : OsPath) (names top : List OsName) : Prop where
  root : t.RealDir root top
  dirs : ∀ k ≤ names.length, t.node (top ++ names.take k) = some .dir

/-- The node is reached from the root through real directories only, and what is listed or read is
no link. -/
structure Confined (root : OsPath) (a : Access OsName) : Prop where
  reached : ∃ names top, a.path = root ++ names.map .down ∧ a.loc = top ++ names ∧
    Reached a.tree root names.dropLast top
  real : a.kind = .list ∨ a.kind = .read → ∀ node, a.tree.node a.loc = some node →
    node.isLink = false

namespace Reached

variable {t t' : FileTree OsName} {root : OsPath} {names top : List OsName} {name : OsName}

theorem nil (h : t.RealDir root top) : Reached t root [] top := by
  refine ⟨h, fun k _ => ?_⟩
  rw [take_nil, append_nil]
  exact h.dir

theorem extends_ (h : Reached t root names top) (hext : t.Extends t') : Reached t' root names top :=
  ⟨hext.realDir h.root, fun k hk => hext.dir _ (h.dirs k hk)⟩

/-- The end of the names is a real directory. -/
theorem realDir (h : Reached t root names top) :
    t.RealDir (root ++ names.map .down) (top ++ names) := by
  induction names using List.reverseRecOn with
  | nil => simpa using h.root
  | append_singleton names name ih =>
    have hfirst : Reached t root names top := by
      refine ⟨h.root, fun k hk => ?_⟩
      have hdir := h.dirs k (by rw [length_append]; omega)
      rwa [take_append_of_le_length hk] at hdir
    have hlast := h.dirs (names ++ [name]).length (Nat.le_refl _)
    rw [take_length, ← append_assoc] at hlast
    have hjoin := (ih hfirst).join hlast
    rw [append_assoc, append_assoc] at hjoin
    rw [map_append]
    exact hjoin

theorem snoc (h : Reached t root names top)
    (hdir : t.node (top ++ (names ++ [name])) = some .dir) :
    Reached t root (names ++ [name]) top := by
  refine ⟨h.root, fun k hk => ?_⟩
  by_cases hlt : k ≤ names.length
  · rw [take_append_of_le_length hlt]
    exact h.dirs k hlt
  · rw [take_of_length_le (by rw [length_append, length_singleton]; omega)]
    exact hdir

/-- A name below is found at once. -/
theorem locate (h : Reached t root names top) (name : OsName) :
    t.locate false (root ++ names.map .down ++ [.down name]) = .ok (top ++ names ++ [name]) :=
  h.realDir.locate_join name

variable {loc : List OsName}

/-- An access to an entry of the folder that is reached. -/
theorem confined (h : Reached t root names top) {kind : AccessKind}
    (hloc : t.locate false (root ++ names.map .down ++ [.down name]) = .ok loc)
    (hreal : kind = .list ∨ kind = .read → ∀ node, t.node loc = some node →
      node.isLink = false) :
    Confined root ⟨kind, t, root ++ names.map .down ++ [.down name], loc⟩ := by
  rw [h.locate name] at hloc
  cases hloc
  refine ⟨⟨names ++ [name], top, by simp, by simp, ?_⟩, hreal⟩
  rw [dropLast_concat]
  exact h

theorem dropLast (h : Reached t root names top) : Reached t root names.dropLast top := by
  refine ⟨h.root, fun k hk => ?_⟩
  rw [length_dropLast] at hk
  rw [dropLast_eq_take, take_take, Nat.min_eq_left hk]
  exact h.dirs k (by omega)

/-- The folder that is reached is listed. -/
theorem confined_list (h : Reached t root names top)
    (hloc : t.locate true (root ++ names.map .down) = .ok loc) (hdir : t.node loc = some .dir) :
    loc = top ++ names ∧ Confined root ⟨.list, t, root ++ names.map .down, loc⟩ := by
  have hreal := h.realDir
  have hfollow := FileTree.locate_follow
    (fun n hn => by rw [hreal.dir] at hn; cases hn; rfl) hreal.located
  rw [hfollow] at hloc
  cases hloc
  refine ⟨rfl, ⟨names, top, rfl, rfl, h.dropLast⟩, fun _ node hnode => ?_⟩
  rw [hdir] at hnode
  cases hnode
  rfl

end Reached

/-- A plain name is pushed as it is. -/
theorem push_of_plain {path : OsPath} {part : List Char} (h : Plain part) :
    push path part = path ++ [.down (.text part)] := by
  have hhead : part.head? ≠ some '/' := by
    intro heq
    exact h.noSlash (mem_of_mem_head? heq)
  have hhop : hop part = some (.down (.text part)) := by
    rw [hop, if_neg (by simp [h.ne_nil, h.ne_dot]), if_neg h.ne_dots]
  rw [push, if_neg hhead, splitOn_eq_singleton h.noSlash, filterMap_cons_some hhop,
    filterMap_nil]

namespace Store

variable {α : Type} {s : Store} {dir : OsPath} {names top : List OsName}

/-! ## Calls -/

variable {R : Store → Prop} {Q : α → Store → Prop} {Rd : Disk OsName → Disk OsName → Prop}
  {Qd : Disk OsName → α → Disk OsName → Prop} {call : EStateM IoError (Disk OsName) α}
  {d : Disk OsName}

@[simp] theorem setDisk_self (s : Store) : s.setDisk s.disk = s := rfl

theorem onDisk_ok {a : α} (h : call s.disk = .ok a d) : onDisk call s = .ok a (s.setDisk d) := by
  unfold onDisk focus
  rw [h]

theorem onDisk_error {e : IoError} (h : call s.disk = .error e d) :
    onDisk call s = .error .io (s.setDisk d) := by
  unfold onDisk focus
  rw [h]

theorem tryDisk_ok {a : α} (h : call s.disk = .ok a d) :
    tryDisk call s = .ok (.ok a) (s.setDisk d) := by
  unfold tryDisk focus attempt
  rw [h]

theorem tryDisk_error {e : IoError} (h : call s.disk = .error e d) :
    tryDisk call s = .ok (.error e) (s.setDisk d) := by
  unfold tryDisk focus attempt
  rw [h]

theorem root_run (s : Store) : root s = .ok s.folder.root s := rfl

theorem get_run (s : Store) : (get : Share Store) s = .ok s s := rfl

theorem ensures_onDisk (hcall : ∀ d, Ensures (· = d) call (Qd d) (Rd d))
    (hok : ∀ a d, Qd s.disk a d → Q a (s.setDisk d)) (herror : ∀ d, Rd s.disk d → R (s.setDisk d)) :
    Ensures (· = s) (onDisk call) Q R :=
  ensures_focus (hcall s.disk) rfl hok herror

theorem ensures_tryDisk (hcall : ∀ d, Ensures (· = d) call (Qd d) (Rd d))
    {Q : Except IoError α → Store → Prop} (hok : ∀ a d, Qd s.disk a d → Q (.ok a) (s.setDisk d))
    (herror : ∀ e d, Rd s.disk d → Q (.error e) (s.setDisk d)) :
    Ensures (· = s) (tryDisk call) Q R := by
  refine ensures_focus (R := fun _ => False) (ensures_attempt (hcall s.disk)
    (T := fun r d => Q r (s.setDisk d)) hok herror) rfl (fun _ _ h => h) ?_
  exact fun _ h => h.elim

variable {β : Type}

theorem ensures_onDisk_bind {f : α → Share β} (hcall : ∀ d, Ensures (· = d) call (Qd d) (Rd d))
    {Q : β → Store → Prop} (hok : ∀ a d, Qd s.disk a d → Ensures (· = s.setDisk d) (f a) Q R)
    (herror : ∀ d, Rd s.disk d → R (s.setDisk d)) : Ensures (· = s) (onDisk call >>= f) Q R :=
  (ensures_onDisk hcall (fun a d h => ⟨d, rfl, h⟩) herror).andThen
    (Q := fun a s' => ∃ d, s' = s.setDisk d ∧ Qd s.disk a d)
    (by rintro a t ⟨d, rfl, h⟩; exact hok a d h) fun _ => id

theorem ensures_tryDisk_bind {f : Except IoError α → Share β}
    (hcall : ∀ d, Ensures (· = d) call (Qd d) (Rd d)) {Q : β → Store → Prop}
    (hok : ∀ a d, Qd s.disk a d → Ensures (· = s.setDisk d) (f (.ok a)) Q R)
    (herror : ∀ e d, Rd s.disk d → Ensures (· = s.setDisk d) (f (.error e)) Q R) :
    Ensures (· = s) (tryDisk call >>= f) Q R :=
  (ensures_tryDisk hcall hok herror).andThen (Q := fun r s' => Ensures (· = s') (f r) Q R)
    (fun _ _ => id) fun _ => id

theorem ensures_root_bind {f : OsPath → Share α} (h : Ensures (· = s) (f s.folder.root) Q R) :
    Ensures (· = s) (root >>= f) Q R := by
  rintro _ rfl
  exact h _ rfl

theorem ensures_get_bind {f : Store → Share α} (h : Ensures (· = s) (f s) Q R) :
    Ensures (· = s) (get >>= f) Q R := by
  rintro _ rfl
  exact h _ rfl

theorem ensures_modify_bind {f : Unit → Share α} {g : Store → Store}
    (h : Ensures (· = g s) (f ()) Q R) : Ensures (· = s) (modify g >>= f) Q R := by
  rintro _ rfl
  exact h _ rfl

/-- Afterwards the root is a real directory. -/
theorem ensureRoot_spec : Ensures (· = s) ensureRoot
    (fun _ s' => ∃ d, s' = s.setDisk d ∧ Disk.Grows s.disk d ∧
      ∃ top, d.tree.RealDir s.folder.root top)
    (fun s' => ∃ d, s' = s.setDisk d ∧ Disk.Grows s.disk d) := by
  refine ensures_root_bind (ensures_onDisk_bind (fun d => Disk.createDirAll_spec)
    (fun _ d hmade => ?_) fun d h => ⟨d, rfl, h⟩)
  obtain ⟨hgrows, hdir⟩ := hmade
  refine ensures_onDisk_bind (fun d => Disk.stat_spec) (fun node d' hnode => ?_)
    fun d' hsame => ⟨d', rfl, hgrows.trans (.of_same hsame)⟩
  obtain ⟨hsame, hstat⟩ := hnode
  have hgrows' := hgrows.trans (.of_same hsame)
  refine ensures_ite (fun _ => ensures_eq_iff.2 ⟨d', rfl, hgrows'⟩) fun hlink =>
    ensures_eq_iff.2 ⟨d', rfl, hgrows', ?_⟩
  rw [hsame.tree]
  exact FileTree.realDir_of_stat hdir hstat (by simpa using hlink)

/-- New directories inside the folder only. -/
structure Prepares (root : OsPath) (d d' : Disk OsName) : Prop where
  tree : d.tree.Extends d'.tree
  files : ∀ loc inode, d'.tree.node loc = some (.file inode) ↔ d.tree.node loc = some (.file inode)
  contents : ∀ inode, d'.tree.content inode = d.tree.content inode
  nextInode : d'.tree.nextInode = d.tree.nextInode
  log : ∃ new, d'.log = d.log ++ new ∧ ∀ a ∈ new, a.kind = .makeDir ∧ Confined root a

variable {root : OsPath} {d : Disk OsName}

theorem Prepares.of_grows {d' : Disk OsName} (h : Disk.Grows d d') : Prepares root d d' :=
  ⟨h.tree, h.files, h.contents, h.nextInode, [], by rw [h.log, append_nil], nofun⟩

theorem Prepares.trans {d' d'' : Disk OsName} (h : Prepares root d d') (h' : Prepares root d' d'') :
    Prepares root d d'' := by
  obtain ⟨new, hnew, hall⟩ := h.log
  obtain ⟨new', hnew', hall'⟩ := h'.log
  refine ⟨h.tree.trans h'.tree, fun loc inode => (h'.files loc inode).trans (h.files loc inode),
    fun inode => (h'.contents inode).trans (h.contents inode), h'.nextInode.trans h.nextInode,
    new ++ new', by rw [hnew', hnew, append_assoc], ?_⟩
  intro a ha
  exact (mem_append.1 ha).elim (hall a) (hall' a)

/-- A folder is made in a folder that is reached. -/
theorem prepares_makeDir {d' : Disk OsName} {name : OsName} {loc : List OsName}
    (hreached : Reached d.tree root names top)
    (hloc : d.tree.locate false (root ++ names.map .down ++ [.down name]) = .ok loc)
    (hnode : d.tree.node loc = none) (htree : d'.tree = d.tree.addDir loc) (hlog : d'.log = d.log ++
      [⟨.makeDir, d.tree, root ++ names.map .down ++ [.down name], loc⟩]) : Prepares root d d' := by
  obtain ⟨hext, hfiles⟩ := Disk.extends_addDir hnode
  refine ⟨?_, ?_, ?_, ?_, _, hlog, ?_⟩
  · rw [htree]
    exact hext
  · rw [htree]
    exact hfiles
  · rw [htree]
    exact fun _ => rfl
  · rw [htree]
    rfl
  · intro a ha
    rw [mem_singleton.1 ha]
    exact ⟨rfl, hreached.confined hloc nofun⟩

/-- A folder on the way is a real directory. -/
theorem enterDir_spec {create : Bool} {name : OsName}
    (hreached : Reached s.disk.tree s.folder.root names top) :
    Ensures (· = s) (enterDir create (s.folder.root ++ names.map .down ++ [.down name]))
      (fun _ s' => ∃ d, s' = s.setDisk d ∧ Prepares s.folder.root s.disk d ∧
        Reached d.tree s.folder.root (names ++ [name]) top)
      (fun s' => ∃ d, s' = s.setDisk d ∧ Prepares s.folder.root s.disk d) := by
  -- a call that changed nothing
  have hquit : ∀ d, Disk.Same s.disk d →
      ∃ d', s.setDisk d = s.setDisk d' ∧ Prepares s.folder.root s.disk d' :=
    fun d hsame => ⟨d, rfl, .of_grows (.of_same hsame)⟩
  refine ensures_tryDisk_bind (fun d => Disk.stat_spec) (fun node d hfound => ?_)
    fun e d hsame => ?_
  · obtain ⟨hsame, hstat⟩ := hfound
    cases node with
    | dir =>
      obtain ⟨loc, hloc, hnode⟩ := FileTree.stat_eq_ok hstat
      cases (hreached.locate name).symm.trans hloc
      refine ensures_eq_iff.2 ⟨d, rfl, .of_grows (.of_same hsame), ?_⟩
      rw [hsame.tree]
      refine hreached.snoc ?_
      rw [← append_assoc]
      exact hnode
    | file | link => exact ensures_eq_iff.2 (hquit d hsame)
  · cases e
    case notFound =>
      refine ensures_ite (fun _ => ensures_onDisk (fun d => Disk.makeDir_spec) ?_ ?_)
        fun _ => ensures_eq_iff.2 (hquit d hsame)
      · rintro _ d' ⟨loc, hloc, hnode, htree, hlog⟩
        have hreached' : Reached d.tree s.folder.root names top := by rwa [hsame.tree]
        have heq : loc = top ++ names ++ [name] :=
          Except.ok.inj (hloc.symm.trans (hreached'.locate name))
        have hmade := prepares_makeDir hreached' hloc hnode htree hlog
        refine ⟨d', rfl, (Prepares.of_grows (.of_same hsame)).trans hmade, ?_⟩
        refine (hreached'.extends_ hmade.tree).snoc ?_
        rw [← append_assoc, ← heq, htree]
        change (d.tree.addDir loc).node loc = _
        rw [FileTree.node_addDir (by rw [heq]; simp), if_pos rfl]
      · exact fun d' hsame' => hquit d' (hsame.trans hsame')
    all_goals exact ensures_eq_iff.2 (hquit d hsame)

/-- The folders are resolved without a link on the way. -/
theorem resolveDirs_spec (create : Bool) {components : List (List Char)}
    (hplain : ∀ c ∈ components, Plain c) (hreached : Reached s.disk.tree s.folder.root names top) :
    Ensures (· = s) (resolveDirs create (s.folder.root ++ names.map .down) components)
      (fun dir s' => ∃ d, s' = s.setDisk d ∧ Prepares s.folder.root s.disk d ∧
        Reached d.tree s.folder.root (names ++ components.map .text) top ∧
          dir = s.folder.root ++ (names ++ components.map OsName.text).map .down)
      (fun s' => ∃ d, s' = s.setDisk d ∧ Prepares s.folder.root s.disk d) := by
  induction components generalizing s names with
  | nil =>
    refine ensures_eq_iff.2 ?_
    refine ⟨s.disk, rfl, .of_grows (.of_same (.refl _)), ?_, ?_⟩
    · simpa using hreached
    · simp
  | cons c components ih =>
    rw [resolveDirs, push_of_plain (hplain c mem_cons_self)]
    refine (enterDir_spec hreached).andThen ?_ fun _ => id
    rintro - s' ⟨d, rfl, hprepares, hreached'⟩
    have hrest := ih (s := s.setDisk d) (fun c hc => hplain c (mem_cons_of_mem _ hc))
      hreached'
    rw [map_append, ← append_assoc] at hrest
    refine hrest.mono (fun _ h => h) ?_ ?_
    · rintro dir s' ⟨d', rfl, hprepares', hreached'', rfl⟩
      refine ⟨d', rfl, hprepares.trans hprepares', ?_, ?_⟩
      · simpa using hreached''
      · change s.folder.root ++ _ = _
        simp
    · rintro s' ⟨d', rfl, hprepares'⟩
      exact ⟨d', rfl, hprepares.trans hprepares'⟩

/-! ## Names of files -/

theorem noSlash_digits (n : Nat) : '/' ∉ Nat.toDigits 10 n := by
  intro h
  have hdigit := Nat.isDigit_of_mem_toDigits (by decide) (by decide) h
  exact absurd hdigit (by decide)

variable {name : List Char}

theorem plain_of_length (hslash : '/' ∉ name) (hlen : 2 < name.length) : Plain name := by
  refine ⟨hslash, ?_, ?_, ?_⟩ <;>
    · rintro rfl
      simp at hlen

theorem plain_partName (h : Plain name) (id : UInt32) : Plain (partName name id) := by
  refine plain_of_length ?_ ?_
  · have hsuffix : '/' ∉ partSuffix := by decide
    simp [partName, h.noSlash, noSlash_digits, hsuffix]
  · have hsuffix : partSuffix.length = 15 := by decide
    simp only [partName, length_append, length_cons, hsuffix]
    omega

theorem mem_rsplitOnce {stem ext : List Char} (h : rsplitOnce name = some (stem, ext)) :
    name = stem ++ '.' :: ext ∧ '.' ∉ ext := by
  unfold rsplitOnce at h
  split at h <;> cases h
  rename_i c rest hdrop
  have hsplit := takeWhile_append_dropWhile (p := (· ≠ '.')) (l := name.reverse)
  have hdot : c = '.' := by
    have hhead := head?_dropWhile_not (· ≠ '.') name.reverse
    rw [hdrop] at hhead
    simpa using hhead
  rw [hdrop, hdot] at hsplit
  refine ⟨?_, ?_⟩
  · have hname := congrArg List.reverse hsplit
    rw [reverse_reverse] at hname
    refine hname.symm.trans ?_
    simp
  · intro hmem
    have hpass := all_eq_true.1 all_takeWhile '.' (mem_reverse.1 hmem)
    simp at hpass

/-- The number goes before the extension, or to the end. -/
theorem candidate_cases (name : List Char) (n : Nat) :
    candidate name n = name ∨
      candidate name n = name ++ ' ' :: '(' :: Nat.toDigits 10 n ++ [')'] ∨
      ∃ stem ext, name = stem ++ '.' :: ext ∧ '.' ∉ ext ∧
        candidate name n = stem ++ ' ' :: '(' :: Nat.toDigits 10 n ++ ')' :: '.' :: ext := by
  unfold candidate
  by_cases hn : n = 0
  · exact .inl (if_pos hn)
  rw [if_neg hn]
  unfold stemAndExtension
  cases hsplit : rsplitOnce name with
  | none => exact .inr (.inl rfl)
  | some parts =>
    obtain ⟨stem, ext⟩ := parts
    obtain ⟨hname, hdot⟩ := mem_rsplitOnce hsplit
    by_cases hstem : stem = []
    · dsimp only
      rw [if_pos hstem]
      exact .inr (.inl rfl)
    · dsimp only
      rw [if_neg hstem]
      exact .inr (.inr ⟨stem, ext, hname, hdot, rfl⟩)

theorem plain_candidate (h : Plain name) (n : Nat) : Plain (candidate name n) := by
  obtain heq | heq | ⟨stem, ext, rfl, -, heq⟩ := candidate_cases name n
  · rw [heq]
    exact h
  · rw [heq]
    refine plain_of_length ?_ ?_
    · simp [h.noSlash, noSlash_digits]
    · simp
      omega
  · have hslash := h.noSlash
    simp only [mem_append, mem_cons, not_or] at hslash
    rw [heq]
    refine plain_of_length ?_ ?_
    · simp [hslash, noSlash_digits]
    · simp
      omega

/-! ## Uploads -/

/-- An upload was started: some folders were made, and in the last one a new part file. -/
inductive Started (s : Store) (id : UInt32) (size : Nat) : Store → Prop where
  | mk {d d' : Disk OsName} {names top : List OsName} {name : List Char} {loc : List OsName}
      (prepares : Prepares s.folder.root s.disk d)
      (reached : Reached d.tree s.folder.root names top)
      (plain : Plain name) (suffix : partSuffix.isSuffixOf name = false)
      (size_le : size ≤ maxFileBytes) (newId : s.folder.uploads.contains id = false)
      (room : s.folder.uploads.size < maxOpenUploads)
      (located : d.tree.locate false
        (s.folder.root ++ names.map .down ++ [.down (.text (partName name id))]) = .ok loc)
      (free : d.tree.node loc = none) (tree : d'.tree = d.tree.addFile loc)
      (log : d'.log = d.log ++ [⟨.create d.tree.nextInode, d.tree,
        s.folder.root ++ names.map .down ++ [.down (.text (partName name id))], loc⟩]) :
      Started s id size ((s.setDisk d').setUploads (s.folder.uploads.put id
        { dir := s.folder.root ++ names.map .down
          name := name
          part := s.folder.root ++ names.map .down ++ [.down (.text (partName name id))]
          file := d.tree.nextInode
          expected := size
          written := 0 }))

/-- The part file is made in a folder that is reached. -/
theorem openPart_spec {id : UInt32} {size : Nat} (hplain : Plain name) :
    Ensures (· = s) (openPart id dir name size)
      (fun _ s' => ∃ d loc, s' = (s.setDisk d).setUploads (s.folder.uploads.put id
          ⟨dir, name, dir ++ [.down (.text (partName name id))], s.disk.tree.nextInode, size, 0⟩) ∧
        s.disk.tree.locate false (dir ++ [.down (.text (partName name id))]) = .ok loc ∧
        s.disk.tree.node loc = none ∧ d.tree = s.disk.tree.addFile loc ∧
        d.log = s.disk.log ++ [⟨.create s.disk.tree.nextInode, s.disk.tree,
          dir ++ [.down (.text (partName name id))], loc⟩])
      (fun s' => ∃ d, s' = s.setDisk d ∧ Disk.Same s.disk d) := by
  unfold openPart
  rw [push_of_plain (plain_partName hplain id)]
  refine ensures_onDisk_bind (fun d => Disk.createNew_spec) ?_ fun d hsame => ⟨d, rfl, hsame⟩
  rintro file d ⟨loc, hloc, hnode, rfl, htree, hlog⟩
  exact ensures_eq_iff.2 ⟨d, loc, rfl, hloc, hnode, htree, hlog⟩

theorem startUpload_spec (s : Store) (id : UInt32) (path : Str) (size : Nat) :
    Ensures (· = s) (startUpload id path size) (fun _ s' => Started s id size s')
      (fun s' => ∃ d, s' = s.setDisk d ∧ Prepares s.folder.root s.disk d) := by
  -- rejected before the disk is touched
  have hquit : Ensures (· = s) (throw .rejected : Share Unit) (fun _ s' => Started s id size s')
      (fun s' => ∃ d, s' = s.setDisk d ∧ Prepares s.folder.root s.disk d) :=
    ensures_throw fun s' h => ⟨s.disk, h, .of_grows (.of_same (.refl _))⟩
  unfold startUpload
  split
  · exact hquit
  rename_i components hcomponents
  split
  · exact hquit
  rename_i name hname
  have hplain : ∀ c ∈ components, Plain c :=
    fun c hc => plain_of_mem_relativeComponents hcomponents hc
  refine ensures_get_bind (ensures_ite (fun _ => hquit) fun hcheck => ?_)
  refine ensureRoot_spec.andThen ?_ fun s' ⟨d, hs', hgrows⟩ => ⟨d, hs', .of_grows hgrows⟩
  rintro - s' ⟨d, rfl, hgrows, top, hreal⟩
  refine ensures_root_bind ?_
  have hresolve := resolveDirs_spec (s := s.setDisk d) true
    (fun c hc => hplain c ((dropLast_sublist _).subset hc)) (Reached.nil hreal)
  rw [map_nil, append_nil] at hresolve
  refine hresolve.andThen ?_ ?_
  swap
  · rintro s' ⟨d', rfl, hprepares⟩
    exact ⟨d', rfl, (Prepares.of_grows hgrows).trans hprepares⟩
  rintro dir s' ⟨d', rfl, hprepares, hreached, rfl⟩
  have hall := (Prepares.of_grows hgrows).trans hprepares
  simp only [SharedFolder.refuses, Bool.or_eq_true, decide_eq_true_eq, not_or, Nat.not_lt,
    Bool.not_eq_true, Nat.not_le] at hcheck
  have hname' := hplain name (mem_of_getLast? hname)
  refine (openPart_spec hname').mono (fun _ h => h) ?_ ?_
  · rintro _ s' ⟨d'', loc, rfl, hloc, hnode, htree, hlog⟩
    exact .mk hall hreached hname' hcheck.1.1.2 hcheck.1.1.1 hcheck.1.2 hcheck.2 hloc hnode htree
      hlog
  · rintro s' ⟨d'', rfl, hsame⟩
    exact ⟨d'', rfl, hall.trans (.of_grows (.of_same hsame))⟩

/-! ## Listing and reading -/

/-- The tree is left alone, and what was listed or read meets `P`. -/
structure Looks (P : Access OsName → Prop) (d d' : Disk OsName) : Prop where
  tree : d'.tree = d.tree
  log : ∃ new, d'.log = d.log ++ new ∧ ∀ a ∈ new, (a.kind = .list ∨ a.kind = .read) ∧ P a

variable {P : Access OsName → Prop}

theorem Looks.of_same {d' : Disk OsName} (h : Disk.Same d d') : Looks P d d' :=
  ⟨h.tree, [], by rw [h.log, append_nil], nofun⟩

theorem Looks.trans {d' d'' : Disk OsName} (h : Looks P d d') (h' : Looks P d' d'') :
    Looks P d d'' := by
  obtain ⟨new, hnew, hall⟩ := h.log
  obtain ⟨new', hnew', hall'⟩ := h'.log
  refine ⟨h'.tree.trans h.tree, new ++ new', by rw [hnew', hnew, append_assoc], ?_⟩
  intro a ha
  exact (mem_append.1 ha).elim (hall a) (hall' a)

def LooksFrom (P : Access OsName → Prop) (s s' : Store) : Prop :=
  ∃ d, s' = s.setDisk d ∧ Looks P s.disk d

theorem LooksFrom.refl (s : Store) : LooksFrom P s s := ⟨s.disk, rfl, .of_same (.refl _)⟩

variable {s' : Store}

theorem LooksFrom.same (h : LooksFrom P s s') (hsame : Disk.Same s'.disk d) :
    LooksFrom P s (s'.setDisk d) := by
  obtain ⟨d', rfl, hlooks⟩ := h
  exact ⟨d, rfl, hlooks.trans (.of_same hsame)⟩

theorem LooksFrom.access {a : Access OsName} (h : LooksFrom P s s') (htree : d.tree = s'.disk.tree)
    (hlog : d.log = s'.disk.log ++ [a]) (hkind : a.kind = .list ∨ a.kind = .read) (ha : P a) :
    LooksFrom P s (s'.setDisk d) := by
  obtain ⟨d', rfl, hlooks⟩ := h
  refine ⟨d, rfl, hlooks.trans ⟨htree, [a], hlog, fun a' ha' => ?_⟩⟩
  rw [mem_singleton.1 ha']
  exact ⟨hkind, ha⟩

theorem LooksFrom.tree (h : LooksFrom P s s') : s'.disk.tree = s.disk.tree := by
  obtain ⟨d, rfl, hlooks⟩ := h
  exact hlooks.tree

theorem next_looks : Ensures (LooksFrom P s) (onDisk Disk.next) (fun _ => LooksFrom P s)
    (LooksFrom P s) :=
  ensures_iff_forall.2 fun _ h => ensures_onDisk (fun _ => Disk.next_spec)
    (fun _ _ hsame => h.same hsame) fun _ hsame => h.same hsame

/-- The folders to be listed are reached through real directories. -/
def PendingReached (t : FileTree OsName) (root : OsPath) (top : List OsName) (l : Listing) : Prop :=
  ∀ e ∈ l.pending, ∃ names, e.1 = root ++ names.map .down ∧ Reached t root names top

variable {node : Node OsName} {depth : Nat} {above : List Char} {size : Nat → Nat} {l : Listing}

theorem PendingReached.add {t : FileTree OsName} (hl : PendingReached t root top l)
    (hreached : Reached t root names top)
    (hnode : t.node (top ++ names ++ [.text name]) = some node) :
    PendingReached t root top
      (l.add size (root ++ names.map .down) above depth name node).mark := by
  intro e he
  cases node with
  | dir =>
    simp only [Listing.mark, Listing.add] at he
    split at he
    · obtain rfl | he := mem_cons.1 he
      · refine ⟨names ++ [.text name], by simp, hreached.snoc ?_⟩
        rw [← append_assoc]
        exact hnode
      · exact hl e he
    · exact hl e he
  | file inode | link absolute target => exact hl e he

variable {children : List (OsName × Node OsName)}

theorem listFolder_spec (hreached : Reached s.disk.tree s.folder.root names top)
    (hchildren : ∀ e ∈ children, s.disk.tree.node (top ++ names ++ [e.1]) = some e.2)
    (hl : PendingReached s.disk.tree s.folder.root top l) :
    Ensures (LooksFrom P s)
      (listFolder (s.folder.root ++ names.map .down) above depth children l)
      (fun l' s' => LooksFrom P s s' ∧ PendingReached s.disk.tree s.folder.root top l')
      (LooksFrom P s) := by
  induction children generalizing l with
  | nil => exact ensures_pure fun s' h => ⟨h, hl⟩
  | cons e children ih =>
    have hrest := fun e he => hchildren e (mem_cons_of_mem _ he)
    obtain ⟨name, node⟩ := e
    cases name with
    | raw bytes => exact next_looks.bind fun _ => ih hrest hl
    | text name =>
      refine next_looks.bind fun _ => ensures_ite (fun _ => ih hrest hl) fun _ => ?_
      refine next_looks.bind fun _ => next_looks.bind fun _ => ?_
      have hadd : ∀ size, PendingReached s.disk.tree s.folder.root top
          (l.add size (s.folder.root ++ names.map .down) above depth name node).mark :=
        fun _ => hl.add hreached (hchildren _ mem_cons_self)
      refine ensures_iff_forall.2 fun s' h => ensures_get_bind ?_
      exact ensures_ite (fun _ => ensures_eq_iff.2 ⟨h, hadd _⟩) fun _ => (ih hrest (hadd _)).from_ h

variable {rounds : Nat}

theorem listLoop_spec (hl : PendingReached s.disk.tree s.folder.root top l) :
    Ensures (LooksFrom (Confined s.folder.root) s) (listLoop rounds l)
      (fun _ => LooksFrom (Confined s.folder.root) s) (LooksFrom (Confined s.folder.root) s) := by
  induction rounds generalizing l with
  | zero => exact ensures_pure fun _ h => h
  | succ rounds ih =>
    unfold listLoop
    split
    · exact ensures_pure fun _ h => h
    rename_i dir above depth pending hpending
    obtain ⟨names, rfl, hreached⟩ := hl (dir, above, depth)
      (by rw [hpending]; exact mem_cons_self)
    refine ensures_iff_forall.2 fun s₁ h₁ => ensures_onDisk_bind (fun d => Disk.readDir_spec) ?_
      fun d hsame => h₁.same hsame
    rintro children d ⟨loc, hloc, hdir, rfl, htree, hlog⟩
    rw [h₁.tree] at hloc hdir hlog ⊢
    obtain ⟨rfl, hconfined⟩ := hreached.confined_list hloc hdir
    have h₂ := h₁.access htree (h₁.tree ▸ hlog) (.inl rfl) hconfined
    refine ((listFolder_spec hreached (fun e => FileTree.node_of_mem_children)
      fun e he => hl e (by rw [hpending]; exact mem_cons_of_mem _ he)).from_ h₂).andThen
        (fun l' s₃ h₃ => ?_) fun _ => id
    exact ensures_ite (fun _ => ensures_eq_iff.2 h₃.1) fun _ => (ih h₃.2).from_ h₃.1

/-- The rounds that a listing can still take. -/
def Listing.left (l : Listing) : Nat := l.pending.length + (maxListedEntries - l.entries.length)

theorem Listing.left_add (hlt : l.entries.length < maxListedEntries) :
    (l.add size dir above depth name node).mark.left ≤ l.left := by
  cases node with
  | dir =>
    simp only [Listing.left, Listing.mark, Listing.add, length_append,
      length_singleton]
    split
    · rw [length_cons]
      omega
    · omega
  | file inode =>
    simp only [Listing.left, Listing.mark, Listing.add, length_append,
      length_singleton]
    omega
  | link absolute target => exact Nat.le_refl _

/-- A folder that is listed to its end leaves no more rounds than before. -/
theorem listFolder_left (hlt : l.entries.length < maxListedEntries) :
    Ensures (fun _ => True) (listFolder dir above depth children l)
      (fun l' _ => l'.full = true ∨ l'.entries.length < maxListedEntries ∧ l'.left ≤ l.left)
      (fun _ => True) := by
  have hnext : Ensures (fun _ => True) (onDisk Disk.next) (fun _ _ => True) (fun _ => True) :=
    ensures_iff_forall.2 fun s _ => ensures_onDisk (fun d => Disk.next_spec)
      (fun _ _ _ => trivial) fun _ _ => trivial
  induction children generalizing l with
  | nil => exact ensures_pure fun _ _ => .inr ⟨hlt, Nat.le_refl _⟩
  | cons e children ih =>
    obtain ⟨name, node⟩ := e
    cases name with
    | raw bytes => exact hnext.bind fun _ => ih hlt
    | text name =>
      refine hnext.bind fun _ => ensures_ite (fun _ => ih hlt) fun _ => ?_
      refine hnext.bind fun _ => hnext.bind fun _ => ?_
      refine ensures_iff_forall.2 fun s _ => ensures_get_bind ?_
      refine ensures_ite (fun hfull => ensures_eq_iff.2 (.inl hfull)) fun hfull => ?_
      have hlt' := Nat.not_le.1 (decide_eq_true_iff.not.1 hfull)
      refine (ih (l := (l.add _ dir above depth name node).mark) hlt').mono (fun _ _ => trivial)
        (fun l' _ h => ?_) fun _ => id
      exact h.imp_right fun hleft => ⟨hleft.1, Nat.le_trans hleft.2 (Listing.left_add hlt)⟩

/-- The rounds of `list` suffice: it stops because no folder is left or the listing is full. -/
theorem listLoop_complete (hlt : l.entries.length < maxListedEntries)
    (hrounds : l.left ≤ rounds + 1) :
    Ensures (fun _ => True) (listLoop rounds l)
      (fun l' _ => l'.full = true ∨ l'.pending = []) (fun _ => True) := by
  induction rounds generalizing l with
  | zero =>
    refine ensures_pure fun _ _ => .inr (eq_nil_of_length_eq_zero ?_)
    unfold Listing.left at hrounds
    omega
  | succ rounds ih =>
    unfold listLoop
    split
    · rename_i hnil
      exact ensures_pure fun _ _ => .inr hnil
    rename_i dir above depth pending hpending
    refine ensures_iff_forall.2 fun s _ => ensures_onDisk_bind (fun d => Disk.readDir_spec)
      (fun children d _ => ?_) fun _ _ => trivial
    refine ((listFolder_left (l := { l with pending := pending }) hlt).from_ trivial).andThen
      (fun l' s' h => ?_) fun _ => id
    refine ensures_ite (fun hfull => ensures_eq_iff.2 (.inl hfull)) fun hfull => ?_
    obtain ⟨hlt', hle⟩ := h.resolve_left hfull
    refine (ih hlt' ?_).from_ trivial
    have hpop : (Listing.left { l with pending := pending }) + 1 = l.left := by
      simp only [Listing.left, hpending, length_cons]
      omega
    omega

/-- The disk after `list`: the root is made if needed, and then only looked at. -/
theorem list_spec (s : Store) : Ensures (· = s) list
    (fun _ s' => ∃ s₁ d, s₁ = s.setDisk d ∧ Prepares s.folder.root s.disk d ∧
      LooksFrom (Confined s.folder.root) s₁ s')
    (fun s' => ∃ s₁ d, s₁ = s.setDisk d ∧ Prepares s.folder.root s.disk d ∧
      LooksFrom (Confined s.folder.root) s₁ s') := by
  refine ensureRoot_spec.andThen ?_ ?_
  swap
  · rintro s' ⟨d, rfl, hgrows⟩
    exact ⟨_, d, rfl, .of_grows hgrows, .refl _⟩
  rintro - s' ⟨d, rfl, hgrows, top, hreal⟩
  refine ensures_root_bind ?_
  have hstart : PendingReached (s.setDisk d).disk.tree (s.setDisk d).folder.root top
      { pending := [(s.folder.root, [], 0)] } := by
    intro e he
    rw [mem_singleton.1 he]
    exact ⟨[], by simp, .nil hreal⟩
  refine ((listLoop_spec hstart).from_ (.refl _)).andThen (fun l s' h => ?_) fun s' h => ?_
  · exact ensures_eq_iff.2 ⟨_, d, rfl, .of_grows hgrows, h⟩
  · exact ⟨_, d, rfl, .of_grows hgrows, h⟩

theorem readFrom_spec {path : OsPath} {size offset : Nat}
    (hread : ∀ loc inode, s.disk.tree.locate true path = .ok loc →
      s.disk.tree.node loc = some (.file inode) → P ⟨.read, s.disk.tree, path, loc⟩) :
    Ensures (LooksFrom P s) (readFrom path size offset) (fun _ => LooksFrom P s)
      (LooksFrom P s) := by
  refine ensures_ite (fun _ => ensures_throw fun _ h => h) fun _ => ensures_iff_forall.2 ?_
  intro s₁ h₁
  refine ensures_onDisk_bind (fun d => Disk.openFile_spec) ?_ fun d hsame => h₁.same hsame
  rintro inode d ⟨loc, hloc, hnode, htree, hlog⟩
  rw [h₁.tree] at hloc hnode
  have h₂ := h₁.access htree hlog (.inr rfl) (h₁.tree ▸ hread loc inode hloc hnode)
  refine (next_looks.from_ h₂).andThen (fun _ s₃ h₃ => ?_) fun _ => id
  exact ensures_onDisk_bind (fun _ => Disk.readAt_spec)
    (fun _ _ hd => ensures_eq_iff.2 (h₃.same hd.1)) fun d hsame => h₃.same hsame

/-- `read_chunk`, given what is known of the folder that the path is resolved to. -/
theorem readChunk_of {D : OsPath → Prop} {path : Str} {offset : Nat}
    (hresolve : ∀ components : List (List Char), (∀ c ∈ components, Plain c) →
      Ensures (· = s) (resolveDirs false s.folder.root components)
        (fun dir s' => LooksFrom P s s' ∧ D dir) (LooksFrom P s))
    (hread : ∀ dir name loc inode, D dir →
      s.disk.tree.stat false (dir ++ [.down (.text name)]) = .ok (.file inode) →
      s.disk.tree.locate true (dir ++ [.down (.text name)]) = .ok loc →
      P ⟨.read, s.disk.tree, dir ++ [.down (.text name)], loc⟩) :
    Ensures (· = s) (readChunk path offset) (fun _ => LooksFrom P s) (LooksFrom P s) := by
  have hquit : Ensures (· = s) (throw .rejected : Share (Bytes × Nat × Bool))
      (fun _ => LooksFrom P s) (LooksFrom P s) := ensures_eq_iff.2 (.refl s)
  unfold readChunk
  split
  · exact hquit
  rename_i components hcomponents
  split
  · exact hquit
  rename_i name hname
  have hplain : ∀ c ∈ components, Plain c :=
    fun c hc => plain_of_mem_relativeComponents hcomponents hc
  refine ensures_root_bind ((hresolve components.dropLast fun c hc =>
    hplain c ((dropLast_sublist _).subset hc)).andThen (fun dir s₁ h₁ => ?_) fun _ => id)
  rw [push_of_plain (hplain name (mem_of_getLast? hname))]
  refine ensures_tryDisk_bind (fun d => Disk.stat_spec) (fun node d hfound => ?_)
    fun e d hsame => ensures_eq_iff.2 (h₁.1.same hsame)
  obtain ⟨hsame, hstat⟩ := hfound
  have h₂ := h₁.1.same hsame
  rw [h₁.1.tree] at hstat
  cases node with
  | dir | link => exact ensures_eq_iff.2 h₂
  | file inode =>
    refine ensures_ite (fun _ => ensures_eq_iff.2 h₂) fun _ => ensures_get_bind ?_
    exact (readFrom_spec fun loc _ hloc _ => hread dir name loc inode h₁.2 hstat hloc).from_ h₂

theorem enterDir_looks : Ensures (LooksFrom P s) (enterDir false dir) (fun _ => LooksFrom P s)
    (LooksFrom P s) := by
  refine ensures_iff_forall.2 fun s₁ h₁ => ensures_tryDisk_bind (fun d => Disk.stat_spec)
    (fun node d hd => ?_) fun e d hsame => ?_
  · cases node <;> exact ensures_eq_iff.2 (h₁.same hd.1)
  · cases e <;> exact ensures_eq_iff.2 (h₁.same hsame)

theorem resolveDirs_looks (components : List (List Char)) : Ensures (LooksFrom P s)
    (resolveDirs false dir components) (fun _ => LooksFrom P s) (LooksFrom P s) := by
  induction components generalizing dir with
  | nil => exact ensures_pure fun _ h => h
  | cons c components ih => exact enterDir_looks.bind fun _ => ih

/-- A read leaves the tree alone. -/
theorem readChunk_spec (s : Store) (path : Str) (offset : Nat) :
    Ensures (· = s) (readChunk path offset) (fun _ => LooksFrom (fun _ => True) s)
      (LooksFrom (fun _ => True) s) := by
  refine readChunk_of (D := fun _ => True) (fun components _ => ?_) fun _ _ _ _ _ _ _ => trivial
  exact ((resolveDirs_looks components).from_ (.refl s)).mono (fun _ => id)
    (fun _ _ h => ⟨h, trivial⟩) fun _ => id

/-- With a real directory as the root, what is read is reached through real directories. -/
theorem readChunk_confined (hreal : s.disk.tree.RealDir s.folder.root top) (path : Str)
    (offset : Nat) :
    Ensures (· = s) (readChunk path offset) (fun _ => LooksFrom (Confined s.folder.root) s)
      (LooksFrom (Confined s.folder.root) s) := by
  refine readChunk_of (D := fun dir => ∃ names, dir = s.folder.root ++ names.map .down ∧
    Reached s.disk.tree s.folder.root names top) (fun components hplain => ?_) ?_
  · have hresolve := resolveDirs_spec false hplain (Reached.nil hreal)
    rw [map_nil, append_nil] at hresolve
    refine (hresolve.and ((resolveDirs_looks components).from_ (.refl s))).mono (fun _ => id) ?_
      fun _ h => h.2
    rintro dir s' ⟨⟨d, rfl, -, hreached, rfl⟩, hlooked⟩
    exact ⟨hlooked, _, rfl, hlooked.tree ▸ hreached⟩
  · rintro dir name loc inode ⟨names, rfl, hreached⟩ hstat hloc
    obtain ⟨loc', hloc', hnode⟩ := FileTree.stat_eq_ok hstat
    have hlink : ∀ n, s.disk.tree.node loc' = some n → n.isLink = false := by
      intro n hn
      rw [hnode] at hn
      cases hn
      rfl
    rw [FileTree.locate_follow hlink hloc'] at hloc
    cases hloc
    exact hreached.confined hloc' fun _ => hlink

/-! ## The end of an upload -/

@[simp] theorem setUploads_disk (s : Store) (uploads : KeyedMap UInt32 Upload) :
    (s.setUploads uploads).disk = s.disk := rfl

@[simp] theorem setUploads_root (s : Store) (uploads : KeyedMap UInt32 Upload) :
    (s.setUploads uploads).folder.root = s.folder.root := rfl

/-- The node at the end of the path is taken away, unless there is none or it is a directory. -/
inductive Removed (d : Disk OsName) (path : OsPath) : Disk OsName → Prop where
  | gone {d' : Disk OsName} {loc : List OsName} {node : Node OsName}
      (located : d.tree.locate false path = .ok loc) (there : d.tree.node loc = some node)
      (noDir : node ≠ .dir) (tree : d'.tree = d.tree.remove loc) (log : d'.log = d.log) :
      Removed d path d'
  | kept (none : ∀ loc node, d.tree.locate false path = .ok loc →
      d.tree.node loc = some node → node = .dir) : Removed d path d

/-- The upload is closed and its part file removed. -/
inductive Aborted (s : Store) (id : UInt32) : Store → Prop where
  | absent (none : s.folder.uploads.find? id = none) : Aborted s id s
  | closed {u : Upload} {d : Disk OsName} (open_ : s.folder.uploads.find? id = some u)
      (removed : Removed s.disk u.part d) :
      Aborted s id ((s.setUploads (s.folder.uploads.erase id)).setDisk d)

theorem tryRemove_spec (path : OsPath) : Ensures (· = s) (tryDisk (Disk.removeFile path))
    (fun _ s' => ∃ d, s' = s.setDisk d ∧ Removed s.disk path d) (fun _ => False) := by
  refine ensures_tryDisk (fun d => Disk.removeFile_spec) ?_ ?_
  · rintro _ d ⟨loc, node, hloc, hnode, hdir, htree, hlog⟩
    exact ⟨d, rfl, .gone hloc hnode hdir htree hlog⟩
  · rintro _ d ⟨rfl, hnone⟩
    exact ⟨s.disk, rfl, .kept hnone⟩

theorem abortUpload_spec (s : Store) (id : UInt32) :
    Ensures (· = s) (abortUpload id) (fun _ => Aborted s id) (fun _ => False) := by
  refine ensures_get_bind ?_
  split
  · rename_i hnone
    exact ensures_eq_iff.2 (Aborted.absent hnone)
  · rename_i u hfind
    refine ensures_modify_bind ((tryRemove_spec u.part).andThen ?_ nofun)
    rintro _ s' ⟨d, rfl, hremoved⟩
    exact ensures_eq_iff.2 (Aborted.closed hfind hremoved)

/-- What is kept when an upload is aborted is kept when all are. -/
theorem drop_keeps {I : Store → Prop} (haborted : ∀ s id s', I s → Aborted s id s' → I s')
    (hs : I s) : Ensures (· = s) drop (fun _ => I) I := by
  have hall : ∀ ids, Ensures I (dropAll ids) (fun _ => I) I := by
    intro ids
    induction ids with
    | nil => exact ensures_pure fun _ h => h
    | cons id ids ih =>
      refine Ensures.bind (ensures_iff_forall.2 fun s h => ?_) fun _ => ih
      exact (abortUpload_spec s id).mono (fun _ h => h) (fun _ s' ha => haborted s id s' h ha) nofun
  exact ensures_get_bind ((hall _).from_ hs)

/-- The ways in which a chunk can fail: there is no such upload or it does not fit, or the write
fails. -/
inductive ChunkFails (s : Store) (id : UInt32) : Store → Prop where
  | refused {s' : Store} (aborted : Aborted s id s') : ChunkFails s id s'
  | broken {u : Upload} {data : Bytes} {d : Disk OsName} {s' : Store}
      (open_ : s.folder.uploads.find? id = some u) (tree : d.tree = s.disk.tree.append u.file data)
      (log : d.log = s.disk.log) (aborted : Aborted (s.setDisk d) id s') : ChunkFails s id s'

/-- A chunk is written to an upload with room for it. -/
inductive ChunkWritten (s : Store) (id : UInt32) (data : Bytes) : Store → Prop where
  | mk {u : Upload} {d : Disk OsName} (open_ : s.folder.uploads.find? id = some u)
      (fits : u.written + data.length ≤ u.expected)
      (tree : d.tree = s.disk.tree.append u.file data) (log : d.log = s.disk.log) :
      ChunkWritten s id data ((s.setDisk d).setUploads (s.folder.uploads.put id
        { u with written := u.written + data.length }))

theorem writeChunk_spec (s : Store) (id : UInt32) (data : Bytes) :
    Ensures (· = s) (writeChunk id data) (fun _ => ChunkWritten s id data) (ChunkFails s id) := by
  refine ensures_get_bind ?_
  split
  · rename_i hnone
    exact ensures_eq_iff.2 (ChunkFails.refused (.absent hnone))
  rename_i u hfind
  refine ensures_ite (fun _ => ?_) fun hfits => ?_
  · exact (abortUpload_spec s id).andThen (fun _ s' h => ensures_eq_iff.2 (ChunkFails.refused h))
      nofun
  simp only [not_or, Nat.not_lt] at hfits
  refine ensures_tryDisk_bind (fun d => Disk.writeAll_spec) (fun _ d h => ?_) fun e d h => ?_
  · exact ensures_eq_iff.2 (ChunkWritten.mk hfind hfits.2 h.1 h.2)
  · obtain ⟨n, htree, hlog⟩ := h
    exact (abortUpload_spec (s.setDisk d) id).andThen
      (fun _ s' h => ensures_eq_iff.2 (ChunkFails.broken hfind htree hlog h)) nofun

/-- What `unused_name` finds, and the disk after it: the number of the first candidate that is not
there or cannot be looked up. -/
def pickFrom (dir : OsPath) (name : List Char) :
    Nat → Nat → Disk OsName → Option Nat × Disk OsName
  | 0, _, d => (none, d)
  | left + 1, n, d =>
    if d.fails then (some n, d.spent)
    else
      match d.tree.stat false (push dir (candidate name n)) with
      | .error _ => (some n, d.spent)
      | .ok _ => pickFrom dir name left (n + 1) d.spent

def pick (dir : OsPath) (name : List Char) (d : Disk OsName) : Option Nat × Disk OsName :=
  pickFrom dir name 10000 0 d

theorem unusedNameFrom_eq (left n : Nat) : unusedNameFrom dir name left n s =
    .ok ((pickFrom dir name left n s.disk).1.map (candidate name))
      (s.setDisk (pickFrom dir name left n s.disk).2) := by
  induction left generalizing n s with
  | zero => rfl
  | succ left ih =>
    rw [unusedNameFrom, pickFrom]
    have hstat := @Disk.stat_eq OsName _ (push dir (candidate name n)) false s.disk
    by_cases hfails : s.disk.fails
    · rw [if_pos hfails] at hstat ⊢
      rw [run_bind (tryDisk_error hstat)]
      rfl
    rw [if_neg hfails] at hstat ⊢
    cases hnode : s.disk.tree.stat false (push dir (candidate name n)) with
    | error e =>
      rw [hnode] at hstat
      rw [run_bind (tryDisk_error hstat)]
      rfl
    | ok node =>
      rw [hnode] at hstat
      rw [run_bind (tryDisk_ok hstat)]
      exact ih (n + 1)

/-- The candidate that is picked is free, or its look-up fails. -/
theorem pickFrom_some {left n m : Nat} (h : (pickFrom dir name left n d).1 = some m) :
    n ≤ m ∧ ((∃ e, d.tree.stat false (push dir (candidate name m)) = .error e) ∨
      ∃ b, d.faults[m - n]? = some (some b)) := by
  induction left generalizing n d with
  | zero => cases h
  | succ left ih =>
    rw [pickFrom] at h
    split at h
    · rename_i hfails
      cases h
      refine ⟨Nat.le_refl _, .inr ?_⟩
      rw [Nat.sub_self, ← head?_eq_getElem?]
      unfold Disk.fails at hfails
      obtain ⟨b, hb⟩ := Option.isSome_iff_exists.1 hfails
      exact ⟨b, Option.join_eq_some_iff.1 hb⟩
    split at h
    · rename_i e hstat
      cases h
      exact ⟨Nat.le_refl _, .inl ⟨e, hstat⟩⟩
    · obtain ⟨hle, hm⟩ := ih h
      refine ⟨Nat.le_of_succ_le hle, hm.imp id fun ⟨b, hb⟩ => ⟨b, ?_⟩⟩
      change d.faults.tail[m - (n + 1)]? = _ at hb
      rw [getElem?_tail] at hb
      rw [← hb]
      congr 1
      omega

theorem unusedName_eq : unusedName dir name s =
    .ok ((pick dir name s.disk).1.map (candidate name)) (s.setDisk (pick dir name s.disk).2) :=
  unusedNameFrom_eq 10000 0

theorem unusedName_spec : Ensures (· = s) (unusedName dir name)
    (fun r s' => r = (pick dir name s.disk).1.map (candidate name) ∧
      s' = s.setDisk (pick dir name s.disk).2) (fun _ => False) := by
  refine ensures_eq_iff.2 ?_
  rw [unusedName_eq]
  exact ⟨rfl, rfl⟩

theorem same_pick (dir : OsPath) (name : List Char) (d : Disk OsName) :
    Disk.Same d (pick dir name d).2 := by
  have hfrom : ∀ left n d, Disk.Same d (pickFrom dir name left n d).2 := by
    intro left
    induction left with
    | zero => exact fun _ d => .refl d
    | succ left ih =>
      intro n d
      rw [pickFrom]
      split
      · exact Disk.same_spent d
      split
      · exact Disk.same_spent d
      · exact (Disk.same_spent d).trans (ih (n + 1) d.spent)
  exact hfrom 10000 0 d

/-- The complete upload `u` was renamed into place, under its candidate `n`. -/
inductive Finished (s : Store) (id : UInt32) (u : Upload) (n : Nat) : Store → Prop where
  | mk {d : Disk OsName} {from_ to_ : List OsName} {node : Node OsName}
      (open_ : s.folder.uploads.find? id = some u) (complete : u.written = u.expected)
      (picked : (pick u.dir u.name s.disk.spent).1 = some n)
      (source : s.disk.tree.locate false u.part = .ok from_)
      (target : s.disk.tree.locate false (push u.dir (candidate u.name n)) = .ok to_)
      (there : s.disk.tree.node from_ = some node) (noDir : node ≠ .dir)
      (noDir' : s.disk.tree.node to_ ≠ some .dir)
      (tree : d.tree = if from_ = to_ then s.disk.tree else s.disk.tree.move from_ to_)
      (log : d.log = s.disk.log ++ [⟨.rename, s.disk.tree, u.part, from_⟩,
        ⟨.rename, s.disk.tree, push u.dir (candidate u.name n), to_⟩]) :
      Finished s id u n ((s.setUploads (s.folder.uploads.erase id)).setDisk d)

/-- The ways in which the end of an upload can fail: there is no such upload or it is not complete,
or the disk fails, and then the part file stays. -/
inductive FinishFails (s : Store) (id : UInt32) : Store → Prop where
  | closed {s' : Store} (aborted : Aborted s id s') : FinishFails s id s'
  | leaked {u : Upload} {d : Disk OsName} (open_ : s.folder.uploads.find? id = some u)
      (complete : u.written = u.expected) (same : Disk.Same s.disk d) :
      FinishFails s id ((s.setUploads (s.folder.uploads.erase id)).setDisk d)
  | misplaced {u : Upload} {n : Nat} {s' : Store} (finished : Finished s id u n s') :
      FinishFails s id s'

theorem finishUpload_spec (s : Store) (id : UInt32) :
    Ensures (· = s) (finishUpload id)
      (fun p s' => ∃ u n relative, Finished s id u n s' ∧
        stripRoot s.folder.root u.dir = some relative ∧
          p = relativeText (push relative (candidate u.name n))) (FinishFails s id) := by
  refine ensures_get_bind ?_
  split
  · rename_i hnone
    exact ensures_eq_iff.2 (FinishFails.closed (.absent hnone))
  rename_i u hfind
  refine ensures_modify_bind (ensures_ite (fun hshort => ?_) fun hcomplete => ?_)
  · refine (tryRemove_spec u.part).andThen ?_ nofun
    rintro _ s' ⟨d, rfl, hremoved⟩
    exact ensures_eq_iff.2 (FinishFails.closed (.closed hfind hremoved))
  have hcomplete' := not_not.1 hcomplete
  refine ensures_onDisk_bind (fun d => Disk.syncAll_spec) ?_ ?_
  case refine_2 =>
    rintro _ rfl
    exact .leaked hfind hcomplete' (Disk.same_spent s.disk)
  rintro _ _ rfl
  have hsame := (Disk.same_spent s.disk).trans (same_pick u.dir u.name s.disk.spent)
  refine unusedName_spec.andThen ?_ nofun
  rintro _ _ ⟨rfl, rfl⟩
  simp only [setDisk_disk, setUploads_disk, setDisk_setDisk]
  cases hpick : (pick u.dir u.name s.disk.spent).1 with
  | none => exact ensures_eq_iff.2 (FinishFails.leaked hfind hcomplete' hsame)
  | some n =>
    refine ensures_onDisk_bind (fun d => Disk.rename_spec) ?_
      fun d hrename => .leaked hfind hcomplete' (hsame.trans hrename)
    rintro _ d ⟨from_, to_, node, hsrc, hdst, hnode, hdir, hdir', htree, hlog⟩
    simp only [setDisk_disk, hsame.tree, hsame.log] at hsrc hdst hnode hdir' htree hlog
    have hfinished : Finished s id u n ((s.setUploads (s.folder.uploads.erase id)).setDisk d) :=
      .mk hfind hcomplete' hpick hsrc hdst hnode hdir hdir' htree hlog
    refine ensures_root_bind ?_
    simp only [setDisk_folder, setUploads_root]
    cases hstrip : stripRoot s.folder.root u.dir with
    | none => exact ensures_eq_iff.2 (FinishFails.misplaced hfinished)
    | some relative => exact ensures_eq_iff.2 ⟨u, n, relative, hfinished, hstrip, rfl⟩

theorem stripRoot_append (root path : OsPath) : stripRoot root (root ++ path) = some path := by
  have hprefix : root.isPrefixOf (root ++ path) = true :=
    isPrefixOf_iff_prefix.2 (prefix_append root path)
  rw [stripRoot, if_pos hprefix, drop_left]

/-- A complete upload is finished if the sync and the rename do not fail and the name that is picked
is free. -/
theorem finishUpload_succeeds {id : UInt32} {u : Upload} {n : Nat} {relative : OsPath}
    {from_ to_ : List OsName} (hopen : s.folder.uploads.find? id = some u)
    (hcomplete : u.written = u.expected) (hsync : s.disk.fails = false)
    (hpick : (pick u.dir u.name s.disk.spent).1 = some n)
    (hrename : (pick u.dir u.name s.disk.spent).2.fails = false)
    (hsrc : s.disk.tree.locate false u.part = .ok from_)
    (hfile : s.disk.tree.node from_ = some (.file u.file))
    (hdst : s.disk.tree.locate false (push u.dir (candidate u.name n)) = .ok to_)
    (hfree : s.disk.tree.node to_ = none) (hstores : to_.getLast?.all s.disk.stores = true)
    (hstrip : stripRoot s.folder.root u.dir = some relative) :
    ∃ s', finishUpload id s = .ok (relativeText (push relative (candidate u.name n))) s' := by
  have hmodify : (modify fun s : Store => s.setUploads (s.folder.uploads.erase id) : Share Unit) s =
      .ok () (s.setUploads (s.folder.uploads.erase id)) := rfl
  have hsynced : onDisk Disk.syncAll (s.setUploads (s.folder.uploads.erase id)) =
      .ok () ((s.setUploads (s.folder.uploads.erase id)).setDisk s.disk.spent) :=
    onDisk_ok (Disk.next_eq_ok hsync)
  have hunused := @unusedName_eq
    ((s.setUploads (s.folder.uploads.erase id)).setDisk s.disk.spent) u.dir u.name
  rw [setDisk_disk, hpick, setDisk_setDisk] at hunused
  have hsame := (Disk.same_spent s.disk).trans (same_pick u.dir u.name s.disk.spent)
  rw [← hsame.tree] at hsrc hfile hdst hfree
  rw [← hsame.stores] at hstores
  have hrenamed := Disk.rename_eq_ok hrename hsrc hfile hdst hfree hstores
  unfold finishUpload
  rw [run_bind (get_run s), hopen]
  dsimp only
  rw [run_bind hmodify, if_neg (not_not.2 hcomplete), run_bind hsynced, run_bind hunused]
  dsimp only [Option.map]
  rw [run_bind (onDisk_ok hrenamed), run_bind (root_run _), setDisk_folder, setDisk_folder,
    setUploads_root, hstrip]
  exact ⟨_, rfl⟩

end Store

end RivetLink.Agent
