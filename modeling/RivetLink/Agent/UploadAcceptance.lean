import RivetLink.Agent.UploadRoundTrip

/-!
# Uploads that the rules for paths allow

Client and host check paths by the same rules. On a file system that stores names of up to 255 bytes
an upload that passes them into an empty folder goes through, step by step, if the part file's name
fits (`accepted_upload_succeeds`). That name is longer than the one that was checked, and so a name
of allowed length can be refused (`accepted_name_refused`).
-/

namespace RivetLink.Agent

open List Option RivetLink.Foundation RivetLink.Sdk

/-- The bytes of a name. -/
def OsName.size : OsName → Nat
  | .text name => (utf8 name).length
  | .raw bytes => bytes.length

/-- The longest name that common file systems store. -/
def maxNameBytes : Nat := 255

def OsName.fits (name : OsName) : Bool := name.size ≤ maxNameBytes

/-- A part that passes the check fits. -/
theorem fits_of_validPart {part : List Char} (h : validPart part = true) :
    (OsName.text part).fits = true := by
  simp only [validPart, Bool.and_eq_true, decide_eq_true_eq] at h
  exact decide_eq_true h.1.2

namespace Store

variable {s : Store} {id : UInt32} {top names : List OsName}

/-- No call fails for a reason of its own, names of up to 255 bytes are stored, and below the folder
that is reached there is nothing. -/
structure Clear (s : Store) (top names : List OsName) : Prop where
  quiet : s.disk.faults = []
  stores : s.disk.stores = OsName.fits
  reached : Reached s.disk.tree s.folder.root names top
  free : ∀ more, more ≠ [] → s.disk.tree.node (top ++ names ++ more) = none

/-- A folder without uploads whose root is an empty real directory. -/
structure FreshRoot (s : Store) (top : List OsName) : Prop where
  clear : Clear s top []
  uploads : s.folder.uploads = .empty

/-! ## The start -/

/-- A folder that is not there is made. -/
theorem Clear.enterDir {name : OsName} (h : Clear s top names) (hfits : name.fits = true) :
    ∃ d, enterDir true (s.folder.root ++ names.map .down ++ [.down name]) s =
        .ok () (s.setDisk d) ∧ Clear (s.setDisk d) top (names ++ [name]) := by
  have hloc := h.reached.locate name
  have hnone := h.free [name] (by simp)
  have hstores : (top ++ names ++ [name]).getLast?.all s.disk.stores = true :=
    Disk.stores_concat (h.stores ▸ hfits)
  have hstat := tryDisk_error (Disk.quiet_stat_missing h.quiet hloc hnone hstores)
  refine ⟨(s.disk.record .makeDir (s.folder.root ++ names.map .down ++ [.down name])
    (top ++ names ++ [name])).setTree (s.disk.tree.addDir (top ++ names ++ [name])), ?_, ?_⟩
  · unfold Store.enterDir
    rw [run_bind hstat]
    exact onDisk_ok (Disk.quiet_makeDir h.quiet hloc hnone hstores)
  · obtain ⟨hext, -⟩ := Disk.extends_addDir hnone
    have hne := FileTree.ne_nil_of_none hnone
    refine ⟨h.quiet, h.stores, (h.reached.extends_ hext).snoc ?_, ?_⟩
    · rw [← append_assoc, FileTree.node_addDir hne, if_pos rfl]
    · intro more hmore
      change (s.disk.tree.addDir _).node _ = none
      rw [FileTree.node_addDir hne, if_neg]
      · rw [← append_assoc, append_assoc]
        exact h.free _ (by simp)
      · intro heq
        have hlen := congrArg List.length heq
        have hpos := length_pos_iff.2 hmore
        simp only [length_append, length_singleton] at hlen
        omega

/-- All folders of a path are made. -/
theorem Clear.resolveDirs {components : List (List Char)} (h : Clear s top names)
    (hplain : ∀ c ∈ components, Plain c)
    (hfits : ∀ c ∈ components, (OsName.text c).fits = true) :
    ∃ d, resolveDirs true (s.folder.root ++ names.map .down) components s =
        .ok (s.folder.root ++ (names ++ components.map OsName.text).map .down) (s.setDisk d) ∧
      Clear (s.setDisk d) top (names ++ components.map .text) := by
  induction components generalizing s names with
  | nil =>
    refine ⟨s.disk, ?_, ?_⟩
    · rw [map_nil, append_nil]
      rfl
    · rw [map_nil, append_nil]
      exact h
  | cons c components ih =>
    obtain ⟨d, henter, hclear⟩ := h.enterDir (hfits c mem_cons_self)
    obtain ⟨d', hrest, hclear'⟩ := ih hclear (fun c hc => hplain c (mem_cons_of_mem _ hc))
      fun c hc => hfits c (mem_cons_of_mem _ hc)
    have hnames : names ++ (c :: components).map OsName.text =
        names ++ [.text c] ++ components.map .text := by simp
    refine ⟨d', ?_, ?_⟩
    · rw [Store.resolveDirs, push_of_plain (hplain c mem_cons_self), run_bind henter,
        hnames]
      rw [map_append, ← append_assoc] at hrest
      exact hrest
    · rw [hnames]
      exact hclear'

/-! ## The part file -/

/-- An upload whose part file is there, while the place it is to be moved to is free. -/
structure Ready (root : OsPath) (d : Disk OsName) (id : UInt32) (u : Upload) (top : List OsName)
    (folders : List (List Char)) : Prop where
  quiet : d.faults = []
  stores : d.stores = OsName.fits
  dir : u.dir = root ++ (folders.map OsName.text).map .down
  part : u.part = u.dir ++ [.down (.text (partName u.name id))]
  plain : Plain u.name
  fits : (OsName.text u.name).fits = true
  reached : Reached d.tree root (folders.map .text) top
  file : d.tree.node (top ++ folders.map .text ++ [.text (partName u.name id)]) =
    some (.file u.file)
  free : d.tree.node (top ++ folders.map .text ++ [.text u.name]) = none

variable {u : Upload} {folders : List (List Char)} {root : OsPath}

/-- The part file is opened. -/
theorem Clear.openPart {name : List Char} (h : Clear s top (folders.map .text))
    (hplain : Plain name) (hfits : (OsName.text name).fits = true)
    (hsuffix : partSuffix.isSuffixOf name = false)
    (hpart : (OsName.text (partName name id)).fits = true) (size : Nat) :
    ∃ s' u, openPart id (s.folder.root ++ (folders.map OsName.text).map .down) name size s =
        .ok () s' ∧ Ready s'.folder.root s'.disk id u top folders ∧
      s'.folder.uploads.find? id = some u ∧ u.written = 0 ∧ u.expected = size ∧ u.name = name := by
  have hloc := h.reached.locate (.text (partName name id))
  have hnone := h.free [.text (partName name id)] (by simp)
  have hne := FileTree.ne_nil_of_none hnone
  have hcreate := onDisk_ok (Disk.quiet_createNew h.quiet hloc hnone
    (Disk.stores_concat (h.stores ▸ hpart)))
  refine ⟨(s.setDisk ((s.disk.record (.create s.disk.tree.nextInode)
      (s.folder.root ++ (folders.map OsName.text).map .down ++ [.down (.text (partName name id))])
      (top ++ folders.map .text ++ [.text (partName name id)])).setTree
      (s.disk.tree.addFile (top ++ folders.map .text ++ [.text (partName name id)])))).setUploads
    (s.folder.uploads.put id ⟨s.folder.root ++ (folders.map OsName.text).map .down, name,
      s.folder.root ++ (folders.map OsName.text).map .down ++ [.down (.text (partName name id))],
      s.disk.tree.nextInode, size, 0⟩), _, ?_,
    ⟨h.quiet, h.stores, rfl, rfl, hplain, hfits, ?_, ?_, ?_⟩, KeyedMap.find?_put_self, rfl, rfl,
    rfl⟩
  · unfold Store.openPart
    rw [push_of_plain (plain_partName hplain id), run_bind hcreate]
    rfl
  · exact h.reached.extends_ (.of_addFile hnone)
  · exact (FileTree.node_addFile hne).trans (if_pos rfl)
  · -- the file's name is not the part file's
    refine (FileTree.node_addFile hne).trans ((if_neg ?_).trans (h.free _ (by simp)))
    intro heq
    have hlast := congrArg List.getLast? heq
    rw [getLast?_concat, getLast?_concat] at hlast
    have hname : name = partName name id := OsName.text.inj (some.inj hlast)
    rw [hname, suffix_partName] at hsuffix
    cases hsuffix

/-- A part file whose name does not fit cannot be made. -/
theorem Clear.openPart_refused {name : List Char} (h : Clear s top names) (hplain : Plain name)
    (hpart : (OsName.text (partName name id)).fits = false) (size : Nat) :
    Store.openPart id (s.folder.root ++ names.map .down) name size s = .error .io s := by
  have hnone := h.free [.text (partName name id)] (by simp)
  have hadmits : s.disk.admits (top ++ names ++ [.text (partName name id)]) = false := by
    rw [Disk.admits, hnone, getLast?_concat, h.stores]
    exact hpart
  have hcreate :
      Disk.createNew (push (s.folder.root ++ names.map .down) (partName name id)) s.disk =
      .error .other s.disk := by
    rw [push_of_plain (plain_partName hplain id)]
    refine (Disk.quiet_onNode h.quiet (h.reached.locate _)).trans ?_
    rw [hnone]
    exact if_neg (Bool.eq_false_iff.1 hadmits)
  exact run_bind_error (onDisk_error hcreate)

/-- A chunk of allowed size for which there is room is written. -/
theorem Ready.writeChunk {data : Bytes} (h : Ready s.folder.root s.disk id u top folders)
    (hopen : s.folder.uploads.find? id = some u) (hdata : data.length ≤ fileChunkBytes)
    (hroom : u.written + data.length ≤ u.expected) :
    ∃ s' u', writeChunk id data s = .ok () s' ∧
      Ready s'.folder.root s'.disk id u' top folders ∧ s'.folder.uploads.find? id = some u' ∧
      u'.written = u.written + data.length ∧ u'.expected = u.expected ∧ u'.name = u.name := by
  have hallowed : ¬(fileChunkBytes < data.length ∨ u.expected < u.written + data.length) := by
    omega
  have hwrite : tryDisk (Disk.writeAll u.file data) s =
      .ok (.ok ()) (s.setDisk (s.disk.setTree (s.disk.tree.append u.file data))) :=
    tryDisk_ok (Disk.quiet_writeAll h.quiet)
  refine ⟨(s.setDisk (s.disk.setTree (s.disk.tree.append u.file data))).setUploads
    (s.folder.uploads.put id { u with written := u.written + data.length }),
    { u with written := u.written + data.length }, ?_,
    ⟨h.quiet, h.stores, h.dir, h.part, h.plain, h.fits, ?_, h.file, h.free⟩,
    KeyedMap.find?_put_self, rfl, rfl, rfl⟩
  · unfold Store.writeChunk
    rw [run_bind (get_run s), hopen]
    dsimp only
    rw [if_neg hallowed, run_bind hwrite]
    rfl
  · exact h.reached.extends_ ⟨fun _ hn => hn, fun _ _ _ hn => hn⟩

/-- Chunks that fill the upload are written one after the other. -/
theorem Ready.writeChunks {chunks : List Bytes} (h : Ready s.folder.root s.disk id u top folders)
    (hopen : s.folder.uploads.find? id = some u)
    (hchunks : ∀ data ∈ chunks, data.length ≤ fileChunkBytes)
    (hroom : u.written + chunks.flatten.length = u.expected) :
    ∃ s' u', writeChunks id chunks s = .ok () s' ∧
      Ready s'.folder.root s'.disk id u' top folders ∧ s'.folder.uploads.find? id = some u' ∧
      u'.written = u'.expected ∧ u'.name = u.name := by
  induction chunks generalizing s u with
  | nil => exact ⟨s, u, rfl, h, hopen, by simpa using hroom, rfl⟩
  | cons data chunks ih =>
    rw [flatten_cons, length_append] at hroom
    obtain ⟨s₁, u₁, hone, hready, hopen₁, hwritten, hexpected, hname⟩ :=
      h.writeChunk hopen (hchunks data mem_cons_self) (by omega)
    obtain ⟨s₂, u₂, hrest, hready', hopen₂, hcomplete, hname'⟩ := ih hready hopen₁
      (fun data hdata => hchunks data (mem_cons_of_mem _ hdata)) (by omega)
    refine ⟨s₂, u₂, ?_, hready', hopen₂, hcomplete, hname'.trans hname⟩
    rw [Store.writeChunks, run_bind hone]
    exact hrest

/-! ## The end -/

/-- The name that was asked for is picked. -/
theorem Ready.pick (h : Ready root d id u top folders) :
    Store.pick u.dir u.name d.spent = (some 0, d.spent.spent) := by
  have hfails : d.spent.fails = false := by simp [Disk.fails, Disk.spent, h.quiet]
  have hstat : d.spent.tree.stat false (push u.dir (candidate u.name 0)) = .error .notFound := by
    change d.tree.stat false (push u.dir u.name) = _
    rw [push_of_plain h.plain, h.dir, FileTree.stat, h.reached.locate (.text u.name)]
    dsimp only
    rw [h.free]
    rfl
  change pickFrom u.dir u.name (9999 + 1) 0 d.spent = _
  rw [pickFrom, hfails, if_neg Bool.false_ne_true, hstat]

/-- A complete upload is finished under the name that was asked for. -/
theorem Ready.finishUpload (h : Ready s.folder.root s.disk id u top folders)
    (hopen : s.folder.uploads.find? id = some u) (hcomplete : u.written = u.expected) :
    ∃ s', finishUpload id s = .ok (['/'].intercalate (folders ++ [u.name])) s' := by
  have hsrc := h.reached.locate (.text (partName u.name id))
  have hdst := h.reached.locate (.text u.name)
  rw [← h.dir, ← h.part] at hsrc
  rw [← h.dir, ← push_of_plain h.plain] at hdst
  have hstrip := stripRoot_append s.folder.root ((folders.map OsName.text).map .down)
  rw [← h.dir] at hstrip
  have hpick := h.pick
  obtain ⟨s', hs'⟩ := finishUpload_succeeds hopen hcomplete (by simp [Disk.fails, h.quiet])
    (congrArg Prod.fst hpick) (by rw [hpick]; simp [Disk.fails, Disk.spent, h.quiet]) hsrc h.file
    hdst h.free (Disk.stores_concat (h.stores ▸ h.fits)) hstrip
  have hname : push ((folders.map OsName.text).map .down) (candidate u.name 0) =
      (folders.map OsName.text).map .down ++ [.down (.text u.name)] := push_of_plain h.plain
  rw [hname, relativeText_of_names] at hs'
  exact ⟨s', hs'⟩

/-- An upload into an empty real folder, on a file system that stores names of up to 255 bytes,
whose path passes the rules, whose last part does not look like a part file and whose chunks are of
allowed size. If the part file's name fits, then the upload is started, written and finished, under
the path that was asked for. If it does not fit, the file system refuses the start. -/
theorem accepted_upload_succeeds {path : Str} {name : List Char} {chunks : List Bytes}
    (hfresh : FreshRoot s top) (hpath : relativeComponents path = some (folders ++ [name]))
    (hsuffix : partSuffix.isSuffixOf name = false)
    (hchunks : ∀ data ∈ chunks, data.length ≤ fileChunkBytes)
    (hsize : chunks.flatten.length ≤ maxFileBytes) :
    ((OsName.text (partName name id)).fits = true →
      ∃ s₁ s₂, sendUpload id path chunks.flatten.length chunks s = .ok () s₁ ∧
        Store.finishUpload id s₁ = .ok path.chars s₂) ∧
    ((OsName.text (partName name id)).fits = false →
      ∃ s₁, startUpload id path chunks.flatten.length s = .error .io s₁) := by
  obtain ⟨hclear, huploads⟩ := hfresh
  obtain ⟨hsplit, hvalid⟩ := relativeComponents_eq_some hpath
  have hplain : ∀ c ∈ folders ++ [name], Plain c :=
    fun c hc => plain_of_mem_relativeComponents hpath hc
  have hfits : ∀ c ∈ folders ++ [name], (OsName.text c).fits = true :=
    fun c hc => fits_of_validPart (hvalid c hc)
  have hrefuses : s.folder.refuses id name chunks.flatten.length = false := by
    rw [SharedFolder.refuses, huploads, hsuffix, decide_eq_false (Nat.not_lt.2 hsize)]
    rfl
  -- the start, up to the part file
  obtain ⟨d, hresolve, hclear'⟩ := hclear.resolveDirs
    (fun c hc => hplain c (mem_append_left _ hc))
    (fun c hc => hfits c (mem_append_left _ hc))
  rw [map_nil, append_nil, nil_append] at hresolve
  rw [nil_append] at hclear'
  have hroot := quiet_ensureRoot hclear.quiet hclear.reached.root
  have hstart : startUpload id path chunks.flatten.length s =
      openPart id (s.folder.root ++ (folders.map OsName.text).map .down) name
        chunks.flatten.length (s.setDisk d) := by
    unfold startUpload
    rw [hpath]
    dsimp only
    rw [getLast?_concat, dropLast_concat]
    dsimp only
    rw [run_bind (get_run s), hrefuses, if_neg Bool.false_ne_true, run_bind hroot,
      run_bind (root_run s), run_bind hresolve]
  rw [hstart]
  constructor
  · intro hpart
    obtain ⟨sB, u, hopenPart, hready, hopen, hwritten, hexpected, hname⟩ :=
      hclear'.openPart (hplain name (by simp)) (hfits name (by simp)) hsuffix hpart
        chunks.flatten.length
    -- the chunks and the end
    obtain ⟨s₁, u₁, hwrite, hready₁, hopen₁, hcomplete, hname₁⟩ :=
      hready.writeChunks hopen hchunks (by omega)
    obtain ⟨s₂, hfinish⟩ := hready₁.finishUpload hopen₁ hcomplete
    have htext : ['/'].intercalate (folders ++ [u₁.name]) = path.chars := by
      rw [hname₁, hname, hsplit]
      exact intercalate_splitOn '/'
    rw [htext] at hfinish
    refine ⟨s₁, s₂, ?_, hfinish⟩
    unfold sendUpload
    rw [run_bind (hstart.trans hopenPart)]
    exact hwrite
  · intro hpart
    exact ⟨_, hclear'.openPart_refused (hplain name (by simp)) hpart _⟩

/-- An empty folder at the place of the root. -/
def emptyStore : Store :=
  ⟨{ root := sampleRoot },
    { tree := FileTree.empty.addDir [sampleName "share"], stores := OsName.fits }⟩

theorem freshRoot_emptyStore : FreshRoot emptyStore [sampleName "share"] := by
  have hne : [sampleName "share"] ≠ [] := by simp
  have hreal : emptyStore.disk.tree.RealDir emptyStore.folder.root [sampleName "share"] :=
    ⟨rfl, (FileTree.node_addDir hne).trans (if_pos rfl)⟩
  refine ⟨⟨rfl, rfl, .nil hreal, ?_⟩, rfl⟩
  intro more hmore
  refine (FileTree.node_addDir hne).trans ((if_neg ?_).trans (if_neg ?_))
  · simpa using hmore
  · simp

/-- A small upload into the empty folder. -/
theorem accepted_upload_succeeds_emptyStore :
    ∃ s₁ s₂, sendUpload 7 samplePath 3 [[1], [2, 3]] emptyStore = .ok () s₁ ∧
      finishUpload 7 s₁ = .ok samplePath.chars s₂ :=
  (@accepted_upload_succeeds emptyStore 7 [sampleName "share"] ["docs".toList] samplePath
    "f".toList [[1], [2, 3]] freshRoot_emptyStore (by decide +kernel) (by decide) (by decide)
    (by decide)).1 (by decide +kernel)

/-! ## A name that does not fit -/

theorem widePath_sized : (utf8 (List.replicate 255 'a')).length < 2 ^ 63 := by decide +kernel

def widePath : Str := ⟨List.replicate 255 'a', widePath_sized⟩

/-- The rules accept the name, but an upload under it cannot even be started. -/
theorem accepted_name_refused :
    FreshRoot emptyStore [sampleName "share"] ∧
    relativeComponents widePath = some [List.replicate 255 'a'] ∧
    partSuffix.isSuffixOf (List.replicate 255 'a') = false ∧
    result? (startUpload 7 widePath 3 emptyStore) = none :=
  ⟨freshRoot_emptyStore, by decide +kernel, by decide +kernel, by decide +kernel⟩

end Store

end RivetLink.Agent
