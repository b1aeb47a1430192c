import RivetLink.Agent.UploadRoundTrip
import RivetLink.Foundation.Subtrees

/-!
# Listing and reading

`list` walks the folder with a list of folders still to be visited; `read_chunk` checks one path.
`Walked` is the invariant of the walk: every file that was found is one that its path leads to, and
the entries found and the nodes below the folders still to be visited are together no more than the
nodes below the root. `Waits` says that a file was found or lies below a folder still to be visited.

`listing_agrees` compares the two operations when no call fails and the root is a real directory: a
file that is listed is read with the size that was listed if its path passes the rules for paths,
and a file that can be read is listed if no folder on its path has the suffix of part files.
Otherwise they differ, for example in `listing_and_reading_differ`.
-/

namespace RivetLink.Agent

open List Option RivetLink.Foundation RivetLink.Sdk

/-- The names in a tree are those that a directory can hold. -/
def Named (t : FileTree OsName) : Prop :=
  ∀ loc name, t.node (loc ++ [.text name]) ≠ none → Plain name

/-- The folders on the way have plain names. -/
theorem Reached.plain {t : FileTree OsName} {root : OsPath} {top : List OsName}
    {folders : List (List Char)} (h : Reached t root (folders.map .text) top) (hnames : Named t) :
    ∀ c ∈ folders, Plain c := by
  intro c hc
  obtain ⟨before, after, rfl⟩ := append_of_mem hc
  have hdir := h.dirs (before.length + 1) (by simp)
  rw [← map_take, take_length_add_append, map_append, ← append_assoc] at hdir
  refine hnames (top ++ before.map .text) c ?_
  have hone : (c :: after).take 1 = [c] := by simp
  rw [hone, map_singleton] at hdir
  rw [hdir]
  simp

namespace Store

/-! ## Paths as text -/

def pathText (parts : List (List Char)) : List Char := ['/'].intercalate parts

theorem pathText_cons_concat (part name : List Char) (parts : List (List Char)) :
    pathText (part :: parts ++ [name]) = pathText (part :: parts) ++ '/' :: name := by
  induction parts generalizing part with
  | nil => simp [pathText, List.intercalate]
  | cons next parts ih =>
    have hstep : ∀ rest : List (List Char),
        pathText (part :: next :: rest) = part ++ '/' :: pathText (next :: rest) := by
      intro rest
      unfold pathText
      rw [intercalate_cons_cons]
      simp
    rw [cons_append, cons_append, hstep, hstep, ← cons_append, ih]
    simp

/-- Parts without slashes are what the joined path splits into. -/
theorem components_of_intercalate {text : Str} {parts : List (List Char)} (hne : parts ≠ [])
    (hplain : ∀ c ∈ parts, Plain c) (htext : text.chars = ['/'].intercalate parts)
    (haccepted : (relativeComponents text).isSome) : relativeComponents text = some parts := by
  obtain ⟨components, hcomponents⟩ := isSome_iff_exists.1 haccepted
  have hsplit := (relativeComponents_eq_some hcomponents).1
  rw [htext, splitOn_intercalate '/' (fun c hc => (hplain c hc).noSlash) hne] at hsplit
  rw [hcomponents, hsplit]

/-- The path that a listing writes for an entry. -/
theorem entryPath_pathText {parts : List (List Char)} (hplain : ∀ c ∈ parts, Plain c)
    (name : List Char) : entryPath (pathText parts) name = pathText (parts ++ [name]) := by
  cases parts with
  | nil => simp [entryPath, pathText, List.intercalate]
  | cons part parts =>
    have hne : pathText (part :: parts) ≠ [] := by
      have hpart := (hplain part mem_cons_self).ne_nil
      cases parts with
      | nil => simpa [pathText, List.intercalate] using hpart
      | cons next parts =>
        unfold pathText
        rw [intercalate_cons_cons]
        simp
    rw [entryPath, if_neg hne, pathText_cons_concat]

/-! ## One folder -/

/-- What `listFolder` makes of the entries of a folder when no call fails. -/
def scan (size : Nat → Nat) (dir : OsPath) (above : List Char) (depth : Nat) :
    List (OsName × Node OsName) → Listing → Listing
  | [], l => l
  | (.raw _, _) :: rest, l => scan size dir above depth rest l
  | (.text name, node) :: rest, l =>
    if partSuffix.isSuffixOf name then scan size dir above depth rest l
    else if (l.add size dir above depth name node).mark.full then
      (l.add size dir above depth name node).mark
    else scan size dir above depth rest (l.add size dir above depth name node).mark

variable {s : Store} {size : Nat → Nat} {dir : OsPath} {above : List Char} {depth : Nat}
  {children : List (OsName × Node OsName)} {l : Listing}

theorem quiet_listFolder (hquiet : s.disk.faults = []) :
    listFolder dir above depth children l s =
      .ok (scan (fun inode => (s.disk.tree.content inode).length) dir above depth children l)
        s := by
  have hnext : onDisk Disk.next s = .ok () s := onDisk_ok (Disk.quiet_next hquiet)
  induction children generalizing l with
  | nil => rfl
  | cons e children ih =>
    obtain ⟨name, node⟩ := e
    cases name with
    | raw bytes =>
      rw [listFolder, run_bind hnext]
      exact ih
    | text name =>
      rw [listFolder, run_bind hnext, scan]
      split
      · exact ih
      · have hadd : addEntry dir above depth name node l s = .ok (l.add
            (fun inode => (s.disk.tree.content inode).length) dir above depth name node).mark
            s := rfl
        rw [run_bind hnext, run_bind hnext, run_bind hadd]
        split
        · rfl
        · exact ih

theorem add_mono (size : Nat → Nat) (dir : OsPath) (above name : List Char) (depth : Nat)
    (node : Node OsName) (l : Listing) :
    l.entries ⊆ (l.add size dir above depth name node).mark.entries ∧
      l.pending ⊆ (l.add size dir above depth name node).mark.pending := by
  cases node with
  | dir =>
    refine ⟨subset_append_left _ _, ?_⟩
    change l.pending ⊆ if depth + 1 < maxPathDepth then _ else l.pending
    split
    · exact subset_cons_self _ _
    · exact List.Subset.refl _
  | file inode => exact ⟨subset_append_left _ _, List.Subset.refl _⟩
  | link absolute target => exact ⟨List.Subset.refl _, List.Subset.refl _⟩

/-- Nothing is lost. -/
theorem scan_mono : l.entries ⊆ (scan size dir above depth children l).entries ∧
    l.pending ⊆ (scan size dir above depth children l).pending := by
  induction children generalizing l with
  | nil => exact ⟨List.Subset.refl _, List.Subset.refl _⟩
  | cons e children ih =>
    obtain ⟨name, node⟩ := e
    cases name with
    | raw bytes => exact ih
    | text name =>
      have hadd := add_mono size dir above name depth node l
      rw [scan]
      split
      · exact ih
      · split
        · exact hadd
        · exact ⟨List.Subset.trans hadd.1 ih.1, List.Subset.trans hadd.2 ih.2⟩

/-- An entry whose name is not that of a part file has been added, unless the listing is full. -/
theorem added_of_mem {name : List Char} {node : Node OsName} (hmem : (.text name, node) ∈ children)
    (hsuffix : partSuffix.isSuffixOf name = false)
    (hroom : (scan size dir above depth children l).full = false) :
    ∃ l₁ : Listing, (l₁.add size dir above depth name node).mark.entries ⊆
        (scan size dir above depth children l).entries ∧
      (l₁.add size dir above depth name node).mark.pending ⊆
        (scan size dir above depth children l).pending := by
  induction children generalizing l with
  | nil => cases hmem
  | cons e children ih =>
    rcases mem_cons.1 hmem with rfl | hrest
    · rw [scan, hsuffix, if_neg Bool.false_ne_true] at hroom ⊢
      split at hroom
      · rename_i hfull
        rw [hfull] at hroom
        cases hroom
      · rename_i hfull
        rw [if_neg hfull]
        exact ⟨l, scan_mono⟩
    · obtain ⟨name', node'⟩ := e
      cases name' with
      | raw bytes => exact ih hrest hroom
      | text name' =>
        rw [scan] at hroom ⊢
        split at hroom
        · rename_i hskip
          rw [if_pos hskip]
          exact ih hrest hroom
        · rename_i hskip
          rw [if_neg hskip]
          split at hroom
          · rename_i hfull
            rw [hfull] at hroom
            cases hroom
          · rename_i hfull
            rw [if_neg hfull]
            exact ih hrest hroom

/-! ## The walk -/

def pendingOf (root : OsPath) (folders : List (List Char)) : OsPath × List Char × Nat :=
  (root ++ (folders.map OsName.text).map .down, pathText folders, folders.length)

theorem pendingOf_injective {root : OsPath} {f g : List (List Char)}
    (h : pendingOf root f = pendingOf root g) : f = g := by
  have hpath := List.append_cancel_left (congrArg Prod.fst h)
  rw [List.map_map, List.map_map] at hpath
  refine List.map_injective_iff.2 ?_ hpath
  intro a b hab
  simpa using hab

theorem pendingOf_concat (root : OsPath) (f : List (List Char)) (name : List Char) :
    pendingOf root (f ++ [name]) = (root ++ (f.map OsName.text).map .down ++ [.down (.text name)],
      pathText (f ++ [name]), f.length + 1) := by
  simp [pendingOf]

def visit (t : FileTree OsName) (root : OsPath) (top : List OsName) (f : List (List Char))
    (l : Listing) : Listing :=
  scan (fun inode => (t.content inode).length) (root ++ (f.map OsName.text).map .down) (pathText f)
    f.length (t.children (top ++ f.map .text)) l

/-- The file that an entry is about. -/
inductive Listed (t : FileTree OsName) (root : OsPath) (top : List OsName) (e : ListedEntry) :
    Prop where
  | mk {folders : List (List Char)} {name : List Char} {inode : Nat}
      (path : e.path = pathText (folders ++ [name]))
      (size : e.size = (t.content inode).length)
      (suffix : ∀ part ∈ folders ++ [name], partSuffix.isSuffixOf part = false)
      (reached : Reached t root (folders.map .text) top)
      (file : t.node (top ++ folders.map .text ++ [.text name]) = some (.file inode))

/-- The folders still to be visited are there, every file found is what its entry says, and what was
found, what is below the folders still to be visited and `left` more nodes are no more than the
nodes below the root. -/
structure Walked (t : FileTree OsName) (root : OsPath) (top : List OsName) (l : Listing)
    (fs : List (List (List Char))) (left : Nat) : Prop where
  pending : l.pending = fs.map (pendingOf root)
  reached : ∀ f ∈ fs, Reached t root (f.map .text) top
  suffix : ∀ f ∈ fs, ∀ part ∈ f, partSuffix.isSuffixOf part = false
  entries : ∀ e ∈ l.entries, e.dir = false → Listed t root top e
  count : l.entries.length + (fs.map fun f => t.below (top ++ f.map .text)).sum + left ≤ t.below top
  full : l.full = true → maxListedEntries ≤ l.entries.length

section Walk

variable {t : FileTree OsName} {root : OsPath} {top : List OsName} {fs : List (List (List Char))}
  {f folders : List (List Char)} {left : Nat} {name : List Char}

theorem Walked.weaken {left' : Nat} (h : Walked t root top l fs left) (hle : left' ≤ left) :
    Walked t root top l fs left' := by
  refine ⟨h.pending, h.reached, h.suffix, h.entries, ?_, h.full⟩
  have hcount := h.count
  omega

/-- An entry of a folder that is reached is added. -/
theorem Walked.add {node : Node OsName} (hnames : Named t)
    (hreached : Reached t root (f.map .text) top)
    (hnode : t.node (top ++ f.map .text ++ [.text name]) = some node)
    (hsuffix : ∀ part ∈ f ++ [name], partSuffix.isSuffixOf part = false)
    (h : Walked t root top l fs (t.within (top ++ f.map .text ++ [.text name]) + left)) :
    ∃ fs', Walked t root top (l.add (fun inode => (t.content inode).length)
      (root ++ (f.map OsName.text).map .down) (pathText f) f.length name node).mark fs' left := by
  have hfind : t.nodes.find? (top ++ f.map .text ++ [.text name]) = some node := by
    rwa [FileTree.node_of_ne (by simp)] at hnode
  have hwithin := FileTree.below_lt_within hfind
  have hpath := entryPath_pathText (hreached.plain hnames) name
  have hcount := h.count
  cases node with
  | dir =>
    have hdir : Reached t root ((f ++ [name]).map .text) top := by
      rw [map_append, map_singleton]
      exact hreached.snoc (by rw [← append_assoc]; exact hnode)
    have hbelow : top ++ (f ++ [name]).map OsName.text = top ++ f.map .text ++ [.text name] := by
      simp
    have hentries : ∀ e ∈ l.entries ++ [⟨entryPath (pathText f) name, 0, true⟩], e.dir = false →
        Listed t root top e := by
      intro e he hfile
      rcases mem_append.1 he with hold | hnew
      · exact h.entries e hold hfile
      · rw [mem_singleton.1 hnew] at hfile
        cases hfile
    by_cases hdepth : f.length + 1 < maxPathDepth
    · refine ⟨(f ++ [name]) :: fs, ?_, ?_, ?_, hentries, ?_, of_decide_eq_true⟩
      · change (if f.length + 1 < maxPathDepth then _ else l.pending) = _
        rw [if_pos hdepth, h.pending, hpath, map_cons, pendingOf_concat]
      · intro g hg
        rcases mem_cons.1 hg with rfl | hold
        · exact hdir
        · exact h.reached g hold
      · intro g hg
        rcases mem_cons.1 hg with rfl | hold
        · exact hsuffix
        · exact h.suffix g hold
      · change (l.entries ++ [_]).length + _ + _ ≤ _
        rw [length_append, length_singleton, map_cons, sum_cons, hbelow]
        omega
    · refine ⟨fs, ?_, h.reached, h.suffix, hentries, ?_, of_decide_eq_true⟩
      · change (if f.length + 1 < maxPathDepth then _ else l.pending) = _
        rw [if_neg hdepth]
        exact h.pending
      · change (l.entries ++ [_]).length + _ + _ ≤ _
        rw [length_append, length_singleton]
        omega
  | file inode =>
    refine ⟨fs, h.pending, h.reached, h.suffix, ?_, ?_, of_decide_eq_true⟩
    · intro e he hfile
      rcases mem_append.1 he with hold | hnew
      · exact h.entries e hold hfile
      · rw [mem_singleton.1 hnew]
        exact ⟨hpath, rfl, hsuffix, hreached, hnode⟩
    · change (l.entries ++ [_]).length + _ + _ ≤ _
      rw [length_append, length_singleton]
      omega
  | link absolute target =>
    refine ⟨fs, h.pending, h.reached, h.suffix, h.entries, ?_, of_decide_eq_true⟩
    change l.entries.length + _ + _ ≤ _
    omega

/-- The entries of a folder that is reached are added. -/
theorem Walked.scan (hnames : Named t) (hreached : Reached t root (f.map .text) top)
    (hfolders : ∀ part ∈ f, partSuffix.isSuffixOf part = false)
    (hchildren : ∀ e ∈ children, t.node (top ++ f.map .text ++ [e.1]) = some e.2)
    (h : Walked t root top l fs
      (children.map fun e => t.within (top ++ f.map .text ++ [e.1])).sum) :
    ∃ fs', Walked t root top (scan (fun inode => (t.content inode).length)
      (root ++ (f.map OsName.text).map .down) (pathText f) f.length children l) fs' 0 := by
  induction children generalizing l fs with
  | nil => exact ⟨fs, h⟩
  | cons e children ih =>
    have hrest := fun e he => hchildren e (mem_cons_of_mem _ he)
    have hskip : Walked t root top l fs
        (children.map fun e => t.within (top ++ f.map .text ++ [e.1])).sum :=
      h.weaken (by simp)
    obtain ⟨name, node⟩ := e
    cases name with
    | raw bytes => exact ih hrest hskip
    | text name =>
      rw [Store.scan]
      split
      · exact ih hrest hskip
      · rename_i hsuffix
        have hparts : ∀ part ∈ f ++ [name], partSuffix.isSuffixOf part = false :=
          forall_mem_append.2 ⟨hfolders, forall_mem_singleton.2 (Bool.eq_false_iff.2 hsuffix)⟩
        obtain ⟨fs', hadded⟩ := Walked.add hnames hreached (hchildren _ mem_cons_self) hparts h
        split
        · exact ⟨fs', hadded.weaken (Nat.zero_le _)⟩
        · exact ih hrest hadded

/-- A file that a listing is to find: its name and those of the folders on the way are not those of
part files, and the folders are not too many. -/
structure Shown (t : FileTree OsName) (root : OsPath) (top : List OsName)
    (folders : List (List Char)) (name : List Char) (inode : Nat) : Prop where
  reached : Reached t root (folders.map .text) top
  file : t.node (top ++ folders.map .text ++ [.text name]) = some (.file inode)
  suffix : ∀ part ∈ folders ++ [name], partSuffix.isSuffixOf part = false
  depth : folders.length < maxPathDepth

/-- The file was found, or it is below a folder still to be visited. -/
def Waits (root : OsPath) (folders : List (List Char)) (name : List Char) (size : Nat)
    (l : Listing) : Prop :=
  ⟨pathText (folders ++ [name]), size, false⟩ ∈ l.entries ∨
    ∃ k ≤ folders.length, pendingOf root (folders.take k) ∈ l.pending

/-- The visit of a folder finds the file in it, or the next folder on the way. -/
theorem Shown.waits_visit {inode k : Nat} (h : Shown t root top folders name inode)
    (hnames : Named t) (hk : k ≤ folders.length)
    (hroom : (visit t root top (folders.take k) l).full = false) :
    Waits root folders name (t.content inode).length (visit t root top (folders.take k) l) := by
  rcases Nat.lt_or_eq_of_le hk with hlt | rfl
  · -- the next folder on the way
    have hnext : folders.take (k + 1) = folders.take k ++ [folders[k]] :=
      take_succ_eq_append_getElem hlt
    have hdir := h.reached.dirs (k + 1) (by rw [length_map]; omega)
    rw [← map_take, hnext, map_append, map_singleton, ← append_assoc] at hdir
    obtain ⟨l₁, -, hpending⟩ := added_of_mem (FileTree.mem_children.2 hdir)
      (h.suffix _ (mem_append_left _ (getElem_mem hlt))) hroom
    have hplain : ∀ c ∈ folders.take k, Plain c :=
      fun c hc => h.reached.plain hnames c (mem_of_mem_take hc)
    refine .inr ⟨k + 1, hlt, hpending ?_⟩
    have hlength : (folders.take k).length = k := length_take_of_le hk
    have hdepth := h.depth
    change _ ∈ if (folders.take k).length + 1 < maxPathDepth then _ else l₁.pending
    rw [if_pos (by omega), entryPath_pathText hplain, hnext, pendingOf_concat]
    exact mem_cons_self
  · -- the folder of the file
    rw [take_length] at hroom ⊢
    obtain ⟨l₁, hentries, -⟩ := added_of_mem (FileTree.mem_children.2 h.file)
      (h.suffix name (by simp)) hroom
    refine .inl (hentries ?_)
    rw [← entryPath_pathText (h.reached.plain hnames)]
    exact mem_append_right _ mem_cons_self

/-- The visit of the next folder keeps a file found or below a folder still to be visited. -/
theorem Waits.visit {inode : Nat} (hshown : Shown t root top folders name inode) (hnames : Named t)
    (hpending : l.pending = (f :: fs).map (pendingOf root))
    (hroom : (Store.visit t root top f { l with pending := fs.map (pendingOf root) }).full = false)
    (h : Waits root folders name (t.content inode).length l) :
    Waits root folders name (t.content inode).length
      (Store.visit t root top f { l with pending := fs.map (pendingOf root) }) := by
  rcases h with hfound | ⟨k, hk, hwaits⟩
  · exact .inl (scan_mono.1 hfound)
  · rw [hpending, map_cons] at hwaits
    rcases mem_cons.1 hwaits with hhead | hrest
    · obtain rfl := pendingOf_injective hhead
      exact hshown.waits_visit hnames hk hroom
    · exact .inr ⟨k, hk, scan_mono.2 hrest⟩

end Walk

section Run

variable {top : List OsName} {fs : List (List (List Char))}

theorem quiet_visit {f : List (List Char)} (hquiet : s.disk.faults = [])
    (hreached : Reached s.disk.tree s.folder.root (f.map .text) top) :
    ∃ log, onDisk (Disk.readDir (s.folder.root ++ (f.map OsName.text).map .down)) s =
        .ok (s.disk.tree.children (top ++ f.map .text))
          (s.setDisk { s.disk with log := log }) ∧
      listFolder (s.folder.root ++ (f.map OsName.text).map .down) (pathText f) f.length
        (s.disk.tree.children (top ++ f.map .text)) l (s.setDisk { s.disk with log := log }) =
        .ok (visit s.disk.tree s.folder.root top f l) (s.setDisk { s.disk with log := log }) :=
  ⟨_, onDisk_ok (Disk.quiet_readDir hquiet hreached.realDir), quiet_listFolder hquiet⟩

/-- The walk comes to its end with the invariant, and no file is lost unless the listing is full. -/
theorem quiet_listLoop (rounds : Nat) (hquiet : s.disk.faults = []) (hnames : Named s.disk.tree)
    (h : Walked s.disk.tree s.folder.root top l fs 0) :
    ∃ l' fs' s', listLoop rounds l s = .ok l' s' ∧
      Walked s.disk.tree s.folder.root top l' fs' 0 ∧
      (l'.full = false → ∀ folders name inode,
        Shown s.disk.tree s.folder.root top folders name inode →
        Waits s.folder.root folders name (s.disk.tree.content inode).length l →
        Waits s.folder.root folders name (s.disk.tree.content inode).length l') := by
  induction rounds generalizing l fs s with
  | zero => exact ⟨l, fs, s, rfl, h, fun _ _ _ _ _ hwaits => hwaits⟩
  | succ rounds ih =>
    cases fs with
    | nil =>
      refine ⟨l, [], s, ?_, h, fun _ _ _ _ _ hwaits => hwaits⟩
      rw [listLoop, h.pending]
      rfl
    | cons f fs =>
      have hreached := h.reached f mem_cons_self
      have hlist := quiet_visit (l := { l with pending := fs.map (pendingOf s.folder.root) })
        hquiet hreached
      -- what the folder counted for is left for its entries
      have hstart : Walked s.disk.tree s.folder.root top
          { l with pending := fs.map (pendingOf s.folder.root) } fs
          ((s.disk.tree.children (top ++ f.map .text)).map fun e =>
            s.disk.tree.within (top ++ f.map .text ++ [e.1])).sum := by
        refine ⟨rfl, fun g hg => h.reached g (mem_cons_of_mem _ hg),
          fun g hg => h.suffix g (mem_cons_of_mem _ hg), h.entries, ?_, h.full⟩
        have hcount := h.count
        have hsum := s.disk.tree.sum_within_children_le (top ++ f.map .text)
        rw [map_cons, sum_cons] at hcount
        dsimp only
        omega
      obtain ⟨fs₁, hvisit⟩ := hstart.scan hnames hreached (h.suffix f mem_cons_self)
        fun e he => FileTree.node_of_mem_children he
      obtain ⟨log, hread, hfolder⟩ := hlist
      rw [listLoop, h.pending, map_cons]
      dsimp only [pendingOf]
      rw [run_bind hread, run_bind hfolder]
      split
      · rename_i hfull
        refine ⟨_, fs₁, _, rfl, hvisit, fun hroom => ?_⟩
        rw [hfull] at hroom
        cases hroom
      · rename_i hroom
        obtain ⟨l', fs', s', hrun, hwalked, hwaits⟩ :=
          ih (s := s.setDisk { s.disk with log := log }) hquiet hnames hvisit
        refine ⟨l', fs', s', hrun, hwalked, fun hend folders name inode hshown hw => ?_⟩
        exact hwaits hend folders name inode hshown
          (hw.visit hshown hnames h.pending (Bool.eq_false_iff.2 hroom))

theorem Walked.start (hreal : s.disk.tree.RealDir s.folder.root top) :
    Walked s.disk.tree s.folder.root top { pending := [(s.folder.root, [], 0)] } [[]] 0 := by
  refine ⟨?_, ?_, ?_, ?_, ?_, ?_⟩
  · simp [pendingOf, pathText]
  · intro f hf
    rw [mem_singleton.1 hf]
    exact .nil hreal
  · intro f hf
    rw [mem_singleton.1 hf]
    nofun
  · intro e he
    cases he
  · simp
  · intro hfull
    cases hfull

/-- The listing of a real directory: every file in it is what its entry says, and every file to be
found is in it if there are not too many nodes. -/
theorem quiet_list (hquiet : s.disk.faults = [])
    (hreal : s.disk.tree.RealDir s.folder.root top) (hnames : Named s.disk.tree) :
    ∃ entries s', list s = .ok entries s' ∧
      (∀ e ∈ entries, e.dir = false → Listed s.disk.tree s.folder.root top e) ∧
      (s.disk.tree.below top < maxListedEntries → ∀ folders name inode,
        Shown s.disk.tree s.folder.root top folders name inode →
        ⟨pathText (folders ++ [name]), (s.disk.tree.content inode).length, false⟩ ∈ entries) := by
  obtain ⟨l, fs, s', hrun, hwalked, hwaits⟩ :=
    quiet_listLoop maxListedEntries hquiet hnames (Walked.start hreal)
  refine ⟨l.entries.insertionSort fun a b => pathLe a.path b.path, s', ?_, ?_, ?_⟩
  · unfold list
    rw [run_bind (quiet_ensureRoot hquiet hreal), run_bind (root_run s), run_bind hrun]
    rfl
  · intro e he hfile
    exact hwalked.entries e (mem_insertionSort _ |>.1 he) hfile
  · intro hbelow folders name inode hshown
    have hcount := hwalked.count
    have hroom : l.full = false := by
      refine Bool.eq_false_iff.2 fun hfull => ?_
      have hfull := hwalked.full hfull
      omega
    have hend : Ends (fun (l' : Listing) _ => l'.full = true ∨ l'.pending = []) (fun _ => True)
        (listLoop maxListedEntries { pending := [(s.folder.root, [], 0)] } s) :=
      listLoop_complete (l := { pending := [(s.folder.root, [], 0)] })
        (show 0 < maxListedEntries by decide)
        (show 1 + (maxListedEntries - 0) ≤ maxListedEntries + 1 by omega) s trivial
    rw [hrun] at hend
    have hdone : l.pending = [] := hend.resolve_left (by rw [hroom]; exact Bool.false_ne_true)
    -- nothing is left to be visited, so the file was found
    rcases hwaits hroom folders name inode hshown
      (.inr ⟨0, Nat.zero_le _, by simp [pendingOf, pathText]⟩) with hfound | ⟨k, -, hpending⟩
    · exact mem_insertionSort _ |>.2 hfound
    · rw [hdone] at hpending
      cases hpending

/-- All names on the way to a node are plain. -/
theorem plain_of_reached {t : FileTree OsName} {root : OsPath} {folders : List (List Char)}
    {name : List Char} {node : Node OsName} (hreached : Reached t root (folders.map .text) top)
    (hnode : t.node (top ++ folders.map .text ++ [.text name]) = some node) (hnames : Named t) :
    ∀ c ∈ folders ++ [name], Plain c := by
  refine forall_mem_append.2 ⟨hreached.plain hnames, forall_mem_singleton.2 ?_⟩
  exact hnames _ _ (by rw [hnode]; simp)

/-- When no call fails and the root is a real directory: a listed file of at most the largest size
is read with the size that was listed if its path passes the check of paths, and is rejected
otherwise; and a file that can be read is listed with its size if and only if no folder on its path
has the suffix of part files, provided that there are fewer entries than a listing can have. -/
theorem listing_agrees (hquiet : s.disk.faults = [])
    (hreal : s.disk.tree.RealDir s.folder.root top) (hnames : Named s.disk.tree) :
    ∃ entries s', list s = .ok entries s' ∧
      (∀ e ∈ entries, e.dir = false → e.size ≤ maxFileBytes →
        ∀ path : Str, path.chars = e.path →
          ((relativeComponents path).isSome →
            ∃ data eof s'', readChunk path 0 s = .ok (data, e.size, eof) s'') ∧
          (relativeComponents path = none → readChunk path 0 s = .error .rejected s)) ∧
      (s.disk.tree.below top < maxListedEntries →
        ∀ (path : Str) (offset : Nat) (data : Bytes) (size : Nat) (eof : Bool) (s'' : Store),
          readChunk path offset s = .ok (data, size, eof) s'' →
          (⟨path.chars, size, false⟩ ∈ entries ↔ ∀ folder ∈ (path.chars.splitOn '/').dropLast,
            partSuffix.isSuffixOf folder = false)) := by
  obtain ⟨entries, s', hlist, hsound, hcomplete⟩ := quiet_list hquiet hreal hnames
  refine ⟨entries, s', hlist, ?_, ?_⟩
  · intro e he hfile hsize path hpath
    refine ⟨fun haccepted => ?_, readChunk_rejected⟩
    obtain ⟨hentry, hlength, hsuffix, hreached, hnode⟩ := hsound e he hfile
    rename_i folders name inode
    have hcomponents := components_of_intercalate (by simp) (plain_of_reached hreached hnode hnames)
      (hpath.trans hentry) haccepted
    have hserved : Served s top path inode :=
      ⟨hcomponents, hsuffix name mem_concat_self, hreached, hnode⟩
    rw [hlength] at hsize ⊢
    obtain ⟨log, hread⟩ := hserved.readChunk hquiet hsize (Nat.zero_le _)
    exact ⟨_, _, _, hread⟩
  · intro hbelow path offset data size eof s'' hread
    obtain ⟨inode, hserved, hsize⟩ := served_of_readChunk hreal hread
    obtain ⟨hcomponents, hsuffix, hreached, hnode⟩ := hserved
    rename_i folders name
    obtain ⟨hsplit, -, hdepth, -⟩ := relativeComponents_eq_some_iff.1 hcomponents
    rw [length_append, length_singleton] at hdepth
    rw [← hsplit, dropLast_concat]
    constructor
    · intro hmem folder hfolder
      obtain ⟨hentry, -, hclean, hreached', hnode'⟩ := hsound _ hmem rfl
      have hplain := plain_of_reached hreached' hnode' hnames
      have hsplit' := splitOn_intercalate '/' (fun c hc => (hplain c hc).noSlash) (by simp)
      rw [← pathText, ← hentry, ← hsplit] at hsplit'
      obtain ⟨rfl, -⟩ := append_inj' hsplit' rfl
      exact hclean folder (mem_append_left _ hfolder)
    · intro hfolders
      have hshown : Shown s.disk.tree s.folder.root top folders name inode :=
        ⟨hreached, hnode, forall_mem_append.2 ⟨hfolders, forall_mem_singleton.2 hsuffix⟩, hdepth⟩
      have hmem := hcomplete hbelow folders name inode hshown
      rw [hsplit, pathText, intercalate_splitOn] at hmem
      rw [show size = _ from hsize]
      exact hmem

/-- A folder with a plain file in a folder of its own, a file whose name has a colon, and a file in
a folder that is named like a part file. -/
def mixedTree : FileTree OsName :=
  (((((FileTree.empty.addDir [sampleName "share"]).addDir
    [sampleName "share", sampleName "docs"]).addFile
    [sampleName "share", sampleName "docs", sampleName "f"]).addFile
    [sampleName "share", sampleName "a:b"]).addDir
    [sampleName "share", sampleName "d.rivetlink-part"]).addFile
    [sampleName "share", sampleName "d.rivetlink-part", sampleName "f"]

theorem named_mixedTree : Named mixedTree := by
  intro loc name hnode
  rw [FileTree.node_of_ne (by simp)] at hnode
  obtain ⟨node, hfind⟩ := ne_none_iff_exists'.1 hnode
  have hnames : ∀ e ∈ mixedTree.nodes.entries, ∀ n ∈ e.1.getLast?,
      n ∈ ["share", "docs", "f", "a:b", "d.rivetlink-part"].map sampleName := by decide +kernel
  have hplain : ∀ text ∈ ["share", "docs", "f", "a:b", "d.rivetlink-part"],
      '/' ∉ text.toList ∧ text.toList ≠ [] ∧ text.toList ≠ ['.'] ∧ text.toList ≠ ['.', '.'] := by
    decide +kernel
  have hname := hnames _ (KeyedMap.find?_eq_some.1 hfind) (.text name) (by simp)
  obtain ⟨text, htext, heq⟩ := mem_map.1 hname
  obtain rfl : text.toList = name := OsName.text.inj heq
  obtain ⟨hslash, hnil, hdot, hdots⟩ := hplain text htext
  exact ⟨hslash, hnil, hdot, hdots⟩

theorem listing_agrees_mixedTree :
    ∃ entries s', list (at_ sampleRoot mixedTree) = .ok entries s' ∧
      ⟨"docs/f".toList, 0, false⟩ ∈ entries := by
  have hread : readChunk samplePath 0 (at_ sampleRoot mixedTree) =
      .ok ([], 0, true) (finalState (readChunk samplePath 0 (at_ sampleRoot mixedTree))) :=
    eq_ok_of_result? (by decide +kernel)
  have hreal : mixedTree.RealDir sampleRoot [sampleName "share"] :=
    ⟨by decide +kernel, by decide +kernel⟩
  obtain ⟨entries, s', hlist, -, hlisted⟩ :=
    listing_agrees (s := at_ sampleRoot mixedTree) rfl hreal named_mixedTree
  exact ⟨entries, s', hlist,
    (hlisted (by decide +kernel) samplePath 0 [] 0 true _ hread).2 (by decide +kernel)⟩

theorem mixedPath_sized : (utf8 "a:b".toList).length < 2 ^ 63 ∧
    (utf8 "d.rivetlink-part/f".toList).length < 2 ^ 63 := by decide

/-- The file with the colon is listed and cannot be read; the file in the folder that is named like
a part file can be read and is not listed. -/
theorem listing_and_reading_differ :
    result? (list (at_ sampleRoot mixedTree)) = some
        [⟨"a:b".toList, 0, false⟩, ⟨"docs".toList, 0, true⟩, ⟨"docs/f".toList, 0, false⟩] ∧
      result? (readChunk ⟨"a:b".toList, mixedPath_sized.1⟩ 0 (at_ sampleRoot mixedTree)) = none ∧
      result? (readChunk ⟨"d.rivetlink-part/f".toList, mixedPath_sized.2⟩ 0
        (at_ sampleRoot mixedTree)) = some ([], 0, true) := by
  refine ⟨?_, ?_, ?_⟩
  · decide +kernel
  · decide +kernel
  · decide +kernel

end Run

end Store

end RivetLink.Agent
