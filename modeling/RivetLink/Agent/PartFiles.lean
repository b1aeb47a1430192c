import RivetLink.Agent.FolderConfinement

/-!
# The part files of the shared folder

The part files that a shared folder has created and that still exist are those of its open uploads,
in every run in which nothing hinders the end of a complete upload (`Unhindered`). Where it fails,
the upload is forgotten and its part file stays: `finishUpload` takes the upload out of the map
before the file is in place. The number of open uploads and what they have written is bounded in all
runs.
-/

namespace RivetLink.Agent

open List Option RivetLink.Foundation RivetLink.Sdk

/-- The files that were created, by location and inode. -/
def created (log : List (Access OsName)) : List (List OsName × Nat) :=
  log.filterMap fun a =>
    match a.kind with
    | .create inode => some (a.loc, inode)
    | _ => none

/-- The created files that are still where they were created. -/
def partFiles (d : Disk OsName) : List Nat :=
  ((created d.log).filter fun p => d.tree.node p.1 = some (.file p.2)).map Prod.snd

theorem created_append (log new : List (Access OsName)) :
    created (log ++ new) = created log ++ created new := filterMap_append

theorem created_eq_nil {new : List (Access OsName)}
    (h : ∀ a ∈ new, ∀ inode, a.kind ≠ .create inode) : created new = [] := by
  refine filterMap_eq_nil_iff.2 fun a ha => ?_
  split
  · rename_i inode hkind
    exact absurd hkind (h a ha inode)
  · rfl

namespace Store

variable {s s' : Store} {root : OsPath} {id : UInt32} {d : Disk OsName} {a : FolderAction}

/-! ## Names of part files -/

theorem suffix_partName (name : List Char) (id : UInt32) :
    partSuffix.isSuffixOf (partName name id) = true := by
  rw [isSuffixOf_iff_suffix]
  exact suffix_append _ _

theorem eq_of_last {c : Char} {a b e r : List Char} (h : a ++ c :: e = b ++ c :: r) (he : c ∉ e)
    (hr : c ∉ r) : e = r := by
  have htake : ∀ x y : List Char, c ∉ y →
      ((x ++ c :: y).reverse.takeWhile (· ≠ c)).reverse = y := by
    intro x y hy
    have hall : ∀ z ∈ y.reverse, decide (z ≠ c) = true := by
      intro z hz
      refine decide_eq_true ?_
      rintro rfl
      exact hy (mem_reverse.1 hz)
    rw [reverse_append, reverse_cons, append_assoc,
      takeWhile_append_of_pos hall]
    simp
  rw [← htake a e he, h, htake b r hr]

/-- The name of a finished file is not that of a part file. -/
theorem suffix_candidate {name : List Char} (h : partSuffix.isSuffixOf name = false) (n : Nat) :
    partSuffix.isSuffixOf (candidate name n) = false := by
  rw [← Bool.not_eq_true, isSuffixOf_iff_suffix] at h ⊢
  obtain heq | heq | ⟨stem, ext, rfl, hdot, heq⟩ := candidate_cases name n
  · rw [heq]
    exact h
  · -- a part name does not end with a bracket
    rw [heq]
    rintro ⟨front, hfront⟩
    have hlast := congrArg List.getLast? hfront
    have hpart : partSuffix.getLast? = some 't' := by decide
    rw [getLast?_append, getLast?_concat, hpart, some_or] at hlast
    exact absurd (some.inj hlast) (by decide)
  · rw [heq]
    rintro ⟨front, hfront⟩
    refine h ?_
    have hext : "rivetlink-part".toList = ext := by
      refine eq_of_last (c := '.') (a := front)
        (b := stem ++ ' ' :: '(' :: Nat.toDigits 10 n ++ [')']) ?_ (by decide) hdot
      rw [append_assoc, singleton_append]
      exact hfront
    rw [← hext]
    exact suffix_append _ _

/-! ## Bounds -/

/-- What holds of the open uploads in every run. -/
structure Bounded (s : Store) : Prop where
  sizes : ∀ id u, s.folder.uploads.find? id = some u →
    u.written ≤ u.expected ∧ u.expected ≤ maxFileBytes
  count : s.folder.uploads.size ≤ maxOpenUploads

theorem Bounded.erase (h : s.Bounded) : (s.setUploads (s.folder.uploads.erase id)).Bounded := by
  refine ⟨fun id' u hfind => ?_, Nat.le_trans KeyedMap.size_retain_le h.count⟩
  exact h.sizes id' u (KeyedMap.find?_erase_cases hfind).2

theorem Bounded.put {u : Upload} (h : s.Bounded)
    (hu : u.written ≤ u.expected ∧ u.expected ≤ maxFileBytes)
    (hroom : (s.folder.uploads.put id u).size ≤ maxOpenUploads) :
    (s.setUploads (s.folder.uploads.put id u)).Bounded := by
  refine ⟨fun id' u' hfind => ?_, hroom⟩
  obtain ⟨-, rfl⟩ | ⟨-, hfind⟩ := KeyedMap.find?_put_cases hfind
  · exact hu
  · exact h.sizes id' u' hfind

theorem Bounded.setDisk (h : s.Bounded) (d : Disk OsName) : (s.setDisk d).Bounded :=
  ⟨h.sizes, h.count⟩

theorem Bounded.aborted (h : s.Bounded) (ha : Aborted s id s') : s'.Bounded := by
  cases ha with
  | absent _ => exact h
  | closed _ _ => exact h.erase.setDisk _

theorem Bounded.step (h : s.Bounded) (hstep : s.step a = some s') : s'.Bounded := by
  cases a with
  | foreign tree =>
    cases hstep
    exact h.setDisk _
  | call call faults =>
    have hs : (s.setFaults faults).Bounded := h.setDisk _
    have houtcome := outcome_run (s.setFaults faults) call
    rw [some.inj hstep] at houtcome
    cases houtcome with
    | prepared => exact hs.setDisk _
    | started hstarted =>
      obtain ⟨-, -, -, -, hsize, -, hroom, -, -, -, -⟩ := hstarted
      refine (hs.setDisk _).put ⟨Nat.zero_le _, hsize⟩ ?_
      exact Nat.le_trans KeyedMap.size_put_le_succ hroom
    | written hwritten =>
      obtain ⟨hopen, hfits, -, -⟩ := hwritten
      refine (hs.setDisk _).put ⟨hfits, (hs.sizes _ _ hopen).2⟩ ?_
      refine Nat.le_trans (KeyedMap.size_put_of_contains ?_) hs.count
      exact isSome_iff_exists.2 ⟨_, hopen⟩
    | aborted haborted => exact hs.aborted haborted
    | broken _ _ haborted => exact (hs.setDisk _).aborted haborted
    | finished hfinished =>
      obtain ⟨⟩ := hfinished
      exact hs.erase.setDisk _
    | leaked => exact hs.erase.setDisk _
    | listed _ hlooks =>
      obtain ⟨d, rfl, -⟩ := hlooks
      exact hs.setDisk d
    | read hlooks =>
      obtain ⟨d, rfl, -⟩ := hlooks
      exact hs.setDisk d
    | dropped hdropped => exact hdropped _ (fun _ _ _ h ha => h.aborted ha) hs

/-! ## Part files -/

/-- Each open upload has its part file, and no other part file is left. -/
structure PartsOk (root : OsPath) (s : Store) : Prop where
  rootEq : s.folder.root = root
  placed : ∀ id u, s.folder.uploads.find? id = some u → Placed root id u
  part : ∀ id u, s.folder.uploads.find? id = some u → ∃ loc,
    s.disk.tree.locate false u.part = .ok loc ∧ s.disk.tree.node loc = some (.file u.file) ∧
      (loc, u.file) ∈ created s.disk.log
  exact_ : ∀ p ∈ created s.disk.log, s.disk.tree.node p.1 = some (.file p.2) →
    ∃ id u, s.folder.uploads.find? id = some u ∧ u.file = p.2
  unique : ∀ p ∈ created s.disk.log, ∀ q ∈ created s.disk.log, p.2 = q.2 → p.1 = q.1
  distinct : ∀ id u id' u', s.folder.uploads.find? id = some u →
    s.folder.uploads.find? id' = some u' → u.file = u'.file → id = id'
  old : ∀ p ∈ created s.disk.log, p.2 < s.disk.tree.nextInode
  named : ∀ p ∈ created s.disk.log, ∃ above name, p.1 = above ++ [.text name] ∧
    partSuffix.isSuffixOf name = true

/-- Nothing is at the end of the path, and the file system would store the name. -/
def vacant (d : Disk OsName) (path : OsPath) : Bool :=
  match d.tree.locate false path with
  | .ok loc => (d.tree.node loc).isNone && loc.getLast?.all d.stores
  | .error _ => false

/-- While the upload is finished the sync and the rename do not fail, one of the candidates is free,
and the look-up of none that is there fails. -/
def Unhindered (d : Disk OsName) (u : Upload) : Bool :=
  !d.fails && !(pick u.dir u.name d.spent).2.fails &&
    (pick u.dir u.name d.spent).1.any fun n => vacant d (push u.dir (candidate u.name n))

/-- Nobody else changes the tree, and nothing hinders the end of a complete upload. -/
def Completes (s : Store) : FolderAction → Prop
  | .call (.finishUpload id) faults =>
    (s.folder.uploads.find? id).all (fun u => u.written ≠ u.expected ||
      Unhindered (s.setFaults faults).disk u) = true
  | .foreign _ => False
  | _ => True

instance (s : Store) : (a : FolderAction) → Decidable (Completes s a)
  | .call (.finishUpload _) _ => inferInstanceAs (Decidable (_ = true))
  | .call (.startUpload _ _ _) _ => isTrue trivial
  | .call (.writeChunk _ _) _ => isTrue trivial
  | .call (.abortUpload _) _ => isTrue trivial
  | .call .list _ => isTrue trivial
  | .call (.readChunk _ _) _ => isTrue trivial
  | .call .drop _ => isTrue trivial
  | .foreign _ => isFalse fun h => h

theorem vacant_eq_true {path : OsPath} (h : vacant d path = true) : ∃ loc,
    d.tree.locate false path = .ok loc ∧ d.tree.node loc = none ∧
      loc.getLast?.all d.stores = true := by
  unfold vacant at h
  split at h
  · rename_i loc hloc
    rw [Bool.and_eq_true, isNone_iff_eq_none] at h
    exact ⟨loc, hloc, h.1, h.2⟩
  · cases h

theorem unhindered_eq_true {u : Upload} (h : Unhindered d u = true) : ∃ n loc,
    d.fails = false ∧ (pick u.dir u.name d.spent).2.fails = false ∧
      (pick u.dir u.name d.spent).1 = some n ∧
        d.tree.locate false (push u.dir (candidate u.name n)) = .ok loc ∧
          d.tree.node loc = none ∧ loc.getLast?.all d.stores = true := by
  simp only [Unhindered, Bool.and_eq_true, Bool.not_eq_true', Option.any_eq_true] at h
  obtain ⟨⟨hsync, hrename⟩, n, hpick, hvacant⟩ := h
  obtain ⟨loc, hloc⟩ := vacant_eq_true hvacant
  exact ⟨n, loc, hsync, hrename, hpick, hloc⟩

namespace PartsOk

/-- A change of the tree that touches no file. -/
theorem setDisk (h : PartsOk root s) (hext : s.disk.tree.Extends d.tree)
    (hfiles : ∀ loc inode, d.tree.node loc = some (.file inode) ↔
      s.disk.tree.node loc = some (.file inode))
    (hnext : d.tree.nextInode = s.disk.tree.nextInode)
    (hcreated : created d.log = created s.disk.log) : PartsOk root (s.setDisk d) := by
  refine ⟨h.rootEq, h.placed, ?_, ?_, ?_, h.distinct, ?_, ?_⟩
  · intro id u hfind
    obtain ⟨loc, hloc, hnode, hmem⟩ := h.part id u hfind
    refine ⟨loc, hext.locate hloc, (hfiles loc u.file).2 hnode, ?_⟩
    rw [setDisk_disk, hcreated]
    exact hmem
  · rw [setDisk_disk, hcreated]
    exact fun p hp hnode => h.exact_ p hp ((hfiles p.1 p.2).1 hnode)
  · rw [setDisk_disk, hcreated]
    exact h.unique
  · rw [setDisk_disk, hcreated, hnext]
    exact h.old
  · rw [setDisk_disk, hcreated]
    exact h.named

theorem prepares (h : PartsOk root s) (hprepares : Prepares s.folder.root s.disk d) :
    PartsOk root (s.setDisk d) := by
  obtain ⟨new, hnew, hall⟩ := hprepares.log
  have hnil : created new = [] := by
    refine created_eq_nil fun a ha inode hkind => ?_
    rw [(hall a ha).1] at hkind
    cases hkind
  refine h.setDisk hprepares.tree hprepares.files hprepares.nextInode ?_
  rw [hnew, created_append, hnil, append_nil]

theorem looks {P : Access OsName → Prop} (h : PartsOk root s) (hlooks : LooksFrom P s s') :
    PartsOk root s' := by
  obtain ⟨d, rfl, hlooks⟩ := hlooks
  obtain ⟨new, hnew, hall⟩ := hlooks.log
  have hnil : created new = [] := by
    refine created_eq_nil fun a ha inode hkind => ?_
    obtain heq | heq := (hall a ha).1 <;>
      · rw [heq] at hkind
        cases hkind
  refine h.setDisk ?_ ?_ ?_ ?_
  · rw [hlooks.tree]
    exact .refl _
  · rw [hlooks.tree]
    exact fun _ _ => Iff.rfl
  · rw [hlooks.tree]
  · rw [hnew, created_append, hnil, append_nil]

/-- Writing changes no node. -/
theorem append (h : PartsOk root s) {inode : Nat} {data : Bytes}
    (htree : d.tree = s.disk.tree.append inode data) (hlog : d.log = s.disk.log) :
    PartsOk root (s.setDisk d) := by
  refine h.setDisk ?_ ?_ ?_ (by rw [hlog])
  · rw [htree]
    exact ⟨fun _ h => h, fun _ _ _ h => h⟩
  · rw [htree]
    exact fun _ _ => Iff.rfl
  · rw [htree]
    rfl

variable {u : Upload}

/-- An upload is closed, and its part file is no longer where it was created. -/
theorem close {loc : List OsName} (h : PartsOk root s) (hopen : s.folder.uploads.find? id = some u)
    (hpart : s.disk.tree.locate false u.part = .ok loc) (hext : s.disk.tree.Extends d.tree)
    (hgone : d.tree.node loc ≠ some (.file u.file))
    (hkept : ∀ loc' inode, loc' ≠ loc → s.disk.tree.node loc' = some (.file inode) →
      d.tree.node loc' = some (.file inode))
    (hnew : ∀ p ∈ created s.disk.log, d.tree.node p.1 = some (.file p.2) →
      s.disk.tree.node p.1 = some (.file p.2)) (hnext : d.tree.nextInode = s.disk.tree.nextInode)
    (hcreated : created d.log = created s.disk.log) :
    PartsOk root ((s.setUploads (s.folder.uploads.erase id)).setDisk d) := by
  obtain ⟨loc₀, hloc₀, hnode, hmem⟩ := h.part id u hopen
  rw [hpart] at hloc₀
  cases hloc₀
  -- the uploads that stay open
  have hother : ∀ id' u', (s.folder.uploads.erase id).find? id' = some u' →
      id' ≠ id ∧ s.folder.uploads.find? id' = some u' :=
    fun id' u' => KeyedMap.find?_erase_cases
  refine ⟨h.rootEq, ?_, ?_, ?_, ?_, ?_, ?_, ?_⟩
  · exact fun id' u' hfind => h.placed id' u' (hother id' u' hfind).2
  · intro id' u' hfind
    obtain ⟨hne, hfind⟩ := hother id' u' hfind
    obtain ⟨loc', hloc', hnode', hmem'⟩ := h.part id' u' hfind
    have hloc : loc' ≠ loc := by
      rintro rfl
      have hfile : u'.file = u.file := by
        rw [hnode'] at hnode
        simpa using hnode
      exact hne (h.distinct id' u' id u hfind hopen hfile)
    refine ⟨loc', hext.locate hloc', hkept loc' _ hloc hnode', ?_⟩
    rw [setDisk_disk, hcreated]
    exact hmem'
  · rw [setDisk_disk, hcreated]
    intro p hp hnode'
    obtain ⟨id', u', hfind, hfile⟩ := h.exact_ p hp (hnew p hp hnode')
    refine ⟨id', u', ?_, hfile⟩
    -- the closed upload is not meant: its file is gone
    have hne : id' ≠ id := by
      rintro rfl
      rw [hopen] at hfind
      cases hfind
      have hloc : p.1 = loc := h.unique p hp _ hmem hfile.symm
      rw [hloc, ← hfile] at hnode'
      exact hgone hnode'
    change (s.folder.uploads.erase id).find? id' = _
    rw [KeyedMap.find?_erase_of_ne hne]
    exact hfind
  · rw [setDisk_disk, hcreated]
    exact h.unique
  · intro id₁ u₁ id₂ u₂ h₁ h₂
    exact h.distinct id₁ u₁ id₂ u₂ (hother id₁ u₁ h₁).2 (hother id₂ u₂ h₂).2
  · rw [setDisk_disk, hcreated, hnext]
    exact h.old
  · rw [setDisk_disk, hcreated]
    exact h.named

theorem removed (h : PartsOk root s) (hopen : s.folder.uploads.find? id = some u)
    (hremoved : Removed s.disk u.part d) :
    PartsOk root ((s.setUploads (s.folder.uploads.erase id)).setDisk d) := by
  obtain ⟨loc, hloc, hnode, -⟩ := h.part id u hopen
  cases hremoved with
  | kept hnone => cases hnone loc _ hloc hnode
  | gone hloc' _ _ htree hlog =>
    rw [hloc] at hloc'
    cases hloc'
    have hne := FileTree.ne_nil_of_file hnode
    have hsame : ∀ loc', loc' ≠ loc → d.tree.node loc' = s.disk.tree.node loc' := by
      intro loc' hne'
      rw [htree, FileTree.node_remove hne, if_neg hne']
    have hgone : d.tree.node loc = none := by
      rw [htree, FileTree.node_remove hne, if_pos rfl]
    refine h.close hopen hloc (.of_change loc ?_ hsame) ?_ ?_ ?_ ?_ (by rw [hlog])
    · intro n hn
      rw [hnode] at hn
      exact ⟨_, (some.inj hn).symm⟩
    · rw [hgone]
      nofun
    · intro loc' inode hne' hfile
      rw [hsame loc' hne']
      exact hfile
    · intro p _ hfile
      have hne' : p.1 ≠ loc := by
        intro heq
        rw [heq, hgone] at hfile
        cases hfile
      rw [← hsame p.1 hne']
      exact hfile
    · rw [htree]
      rfl

theorem aborted (h : PartsOk root s) (ha : Aborted s id s') : PartsOk root s' := by
  cases ha with
  | absent _ => exact h
  | closed hopen hremoved => exact h.removed hopen hremoved

/-- A complete upload is renamed to a free place. -/
theorem finished {n : Nat} (h : PartsOk root s) (hguard : Unhindered s.disk u = true)
    (hf : Finished s id u n s') : PartsOk root s' := by
  obtain ⟨hopen, -, hpick, hsrc, hdst, hnode, hdir, -, htree, hlog⟩ := hf
  rename_i d from_ to_ node
  have hplaced := h.placed id u hopen
  obtain ⟨loc, hloc, hfile, -⟩ := h.part id u hopen
  rw [hsrc] at hloc
  cases hloc
  rw [hfile] at hnode
  cases hnode
  obtain ⟨n', to', -, -, hpick', hdst', hnone, -⟩ := unhindered_eq_true hguard
  rw [hpick] at hpick'
  cases hpick'
  rw [hdst] at hdst'
  cases hdst'
  have hne : from_ ≠ to_ := by
    rintro rfl
    rw [hfile] at hnone
    cases hnone
  have hfrom := FileTree.ne_nil_of_file hfile
  have hto := FileTree.ne_nil_of_none hnone
  rw [if_neg hne] at htree
  have hnodes : ∀ loc', d.tree.node loc' = if loc' = to_ then some (.file u.file)
      else if loc' = from_ then none else s.disk.tree.node loc' := by
    intro loc'
    rw [htree]
    exact FileTree.node_move hfrom hto hfile
  -- the target has a name that no part file has
  rw [push_of_plain (plain_candidate hplaced.plain n)] at hdst
  obtain ⟨above, rfl⟩ := FileTree.locate_end hdst
  have hother : ∀ p ∈ created s.disk.log, p.1 ≠ above ++ [.text (candidate u.name n)] := by
    intro p hp heq
    obtain ⟨above', name, hname, hsuffix⟩ := h.named p hp
    rw [hname] at heq
    have hlast := congrArg List.getLast? heq
    rw [getLast?_concat, getLast?_concat] at hlast
    cases hlast
    rw [suffix_candidate hplaced.suffix n] at hsuffix
    cases hsuffix
  have hext : s.disk.tree.Extends d.tree := by
    rw [htree]
    refine .of_move hfile hto fun node' hnode' => ?_
    rw [hnone] at hnode'
    cases hnode'
  refine h.close hopen hsrc hext ?_ ?_ ?_ ?_ ?_
  · rw [hnodes, if_neg hne, if_pos rfl]
    exact (some_ne_none _).symm
  · intro loc' inode hne' hnode'
    have h₁ : loc' ≠ above ++ [.text (candidate u.name n)] := by
      rintro rfl
      rw [hnone] at hnode'
      cases hnode'
    rw [hnodes, if_neg h₁, if_neg hne']
    exact hnode'
  · intro p hp hnode'
    rw [hnodes, if_neg (hother p hp)] at hnode'
    obtain ⟨-, hnode'⟩ := ite_none_left_eq_some.1 hnode'
    exact hnode'
  · rw [htree]
    unfold FileTree.move
    split <;> rfl
  · rw [hlog, created_append]
    exact append_nil _

/-- A new upload with a new part file. -/
theorem started {size : Nat} (h : PartsOk root s) (hstarted : Started s id size s') :
    PartsOk root s' := by
  obtain ⟨hprepares, hreached, hplain, hsuffix, -, hnew, -, hloc, hnone, htree, hlog⟩ := hstarted
  rename_i d₁ d₂ names top name loc
  have hprep := h.prepares hprepares
  have hne := FileTree.ne_nil_of_none hnone
  have hnodes : ∀ loc', d₂.tree.node loc' =
      if loc' = loc then some (.file d₁.tree.nextInode) else d₁.tree.node loc' := by
    intro loc'
    rw [htree]
    exact FileTree.node_addFile hne
  have hext : d₁.tree.Extends d₂.tree := by
    refine .of_change loc (by rw [hnone]; nofun) fun loc' hne' => ?_
    rw [hnodes, if_neg hne']
  have hcreated : created d₂.log = created d₁.log ++ [(loc, d₁.tree.nextInode)] := by
    rw [hlog, created_append]
    rfl
  obtain ⟨above, habove⟩ := FileTree.locate_end hloc
  have hnone' : s.folder.uploads.find? id = none := by
    cases hfind : s.folder.uploads.find? id with
    | none => rfl
    | some u =>
      rw [KeyedMap.contains, hfind] at hnew
      cases hnew
  have hopen : ∀ {id' u' u}, (s.folder.uploads.put id u).find? id' = some u' →
      id' = id ∧ u' = u ∨ s.folder.uploads.find? id' = some u' :=
    fun hfind => (KeyedMap.find?_put_cases hfind).imp_right And.right
  -- the part files of the other uploads are older
  have holder : ∀ id' u', s.folder.uploads.find? id' = some u' →
      ∃ loc', d₁.tree.locate false u'.part = .ok loc' ∧ d₁.tree.node loc' = some (.file u'.file) ∧
        (loc', u'.file) ∈ created d₁.log ∧ u'.file < d₁.tree.nextInode := by
    intro id' u' hfind
    obtain ⟨loc', hloc', hnode', hmem'⟩ := hprep.part id' u' hfind
    exact ⟨loc', hloc', hnode', hmem', hprep.old _ hmem'⟩
  have hrooteq := h.rootEq
  subst hrooteq
  refine ⟨rfl, ?_, ?_, ?_, ?_, ?_, ?_, ?_⟩
  · intro id' u' hfind
    obtain ⟨rfl, rfl⟩ | hfind := hopen hfind
    · exact ⟨⟨names, rfl⟩, hplain, hsuffix, rfl⟩
    · exact h.placed id' u' hfind
  · intro id' u' hfind
    change ∃ loc', d₂.tree.locate false u'.part = _ ∧ d₂.tree.node loc' = _ ∧
      (loc', u'.file) ∈ created d₂.log
    rw [hcreated]
    obtain ⟨rfl, rfl⟩ | hfind := hopen hfind
    · exact ⟨loc, hext.locate hloc, by rw [hnodes, if_pos rfl], by simp⟩
    · obtain ⟨loc', hloc', hnode', hmem', -⟩ := holder id' u' hfind
      have hne' : loc' ≠ loc := by
        rintro rfl
        rw [hnone] at hnode'
        cases hnode'
      refine ⟨loc', hext.locate hloc', ?_, mem_append_left _ hmem'⟩
      rw [hnodes, if_neg hne']
      exact hnode'
  · change ∀ p ∈ created d₂.log, d₂.tree.node p.1 = some (.file p.2) → _
    rw [hcreated]
    intro p hp hnode'
    rw [hnodes] at hnode'
    obtain hp | hp := mem_append.1 hp
    · have hne' : p.1 ≠ loc := by
        intro heq
        rw [if_pos heq] at hnode'
        have hlt := hprep.old p hp
        rw [setDisk_disk, show d₁.tree.nextInode = p.2 by simpa using hnode'] at hlt
        exact Nat.lt_irrefl _ hlt
      rw [if_neg hne'] at hnode'
      obtain ⟨id', u', hfind, hfile⟩ := hprep.exact_ p hp hnode'
      refine ⟨id', u', ?_, hfile⟩
      change (s.folder.uploads.put id _).find? id' = _
      rw [KeyedMap.find?_put_of_ne]
      · exact hfind
      · rintro rfl
        exact absurd (hnone'.symm.trans hfind) nofun
    · rw [mem_singleton.1 hp]
      exact ⟨id, _, KeyedMap.find?_put_self, rfl⟩
  · change ∀ p ∈ created d₂.log, ∀ q ∈ created d₂.log, p.2 = q.2 → p.1 = q.1
    rw [hcreated]
    intro p hp q hq heq
    obtain hp | hp := mem_append.1 hp
    · obtain hq | hq := mem_append.1 hq
      · exact hprep.unique p hp q hq heq
      · rw [mem_singleton.1 hq] at heq
        exact absurd heq (Nat.ne_of_lt (hprep.old p hp))
    · obtain hq | hq := mem_append.1 hq
      · rw [mem_singleton.1 hp] at heq
        exact absurd heq.symm (Nat.ne_of_lt (hprep.old q hq))
      · rw [mem_singleton.1 hp, mem_singleton.1 hq]
  · intro id₁ u₁ id₂ u₂ h₁ h₂ hfile
    obtain ⟨rfl, rfl⟩ | hold₁ := hopen h₁
    · obtain ⟨rfl, rfl⟩ | hold₂ := hopen h₂
      · rfl
      · obtain ⟨-, -, -, -, hlt⟩ := holder id₂ u₂ hold₂
        exact absurd hfile.symm (Nat.ne_of_lt hlt)
    · obtain ⟨rfl, rfl⟩ | hold₂ := hopen h₂
      · obtain ⟨-, -, -, -, hlt⟩ := holder id₁ u₁ hold₁
        exact absurd hfile (Nat.ne_of_lt hlt)
      · exact h.distinct id₁ u₁ id₂ u₂ hold₁ hold₂ hfile
  · change ∀ p ∈ created d₂.log, p.2 < d₂.tree.nextInode
    rw [hcreated, htree]
    intro p hp
    obtain hp | hp := mem_append.1 hp
    · exact Nat.lt_succ_of_lt (hprep.old p hp)
    · rw [mem_singleton.1 hp]
      exact Nat.lt_succ_self _
  · change ∀ p ∈ created d₂.log, _
    rw [hcreated]
    intro p hp
    obtain hp | hp := mem_append.1 hp
    · exact hprep.named p hp
    · rw [mem_singleton.1 hp]
      exact ⟨above, _, habove, suffix_partName name id⟩

/-- More was written to an open upload. -/
theorem written {n : Nat} (h : PartsOk root s) (hopen : s.folder.uploads.find? id = some u) :
    PartsOk root (s.setUploads (s.folder.uploads.put id { u with written := n })) := by
  -- an upload of the new map is one of the old map, up to what is written
  have hold : ∀ {id' u'}, (s.folder.uploads.put id { u with written := n }).find? id' = some u' →
      ∃ u₀, s.folder.uploads.find? id' = some u₀ ∧ u'.dir = u₀.dir ∧ u'.name = u₀.name ∧
        u'.part = u₀.part ∧ u'.file = u₀.file := by
    intro id' u' hfind
    obtain ⟨rfl, rfl⟩ | ⟨-, hfind⟩ := KeyedMap.find?_put_cases hfind
    · exact ⟨u, hopen, rfl, rfl, rfl, rfl⟩
    · exact ⟨u', hfind, rfl, rfl, rfl, rfl⟩
  refine ⟨h.rootEq, ?_, ?_, ?_, h.unique, ?_, h.old, h.named⟩
  · intro id' u' hfind
    obtain ⟨u₀, hfind, hdir, hname, hpart, -⟩ := hold hfind
    have hplaced := h.placed id' u₀ hfind
    exact ⟨hdir ▸ hplaced.dir, hname ▸ hplaced.plain, hname ▸ hplaced.suffix,
      by rw [hpart, hdir, hname]; exact hplaced.part⟩
  · intro id' u' hfind
    obtain ⟨u₀, hfind, -, -, hpart, hfile⟩ := hold hfind
    rw [hpart, hfile]
    exact h.part id' u₀ hfind
  · intro p hp hnode
    obtain ⟨id', u', hfind, hfile⟩ := h.exact_ p hp hnode
    by_cases heq : id' = id
    · subst heq
      rw [hopen] at hfind
      cases hfind
      exact ⟨id', _, KeyedMap.find?_put_self, hfile⟩
    · refine ⟨id', u', ?_, hfile⟩
      change (s.folder.uploads.put id _).find? id' = _
      rw [KeyedMap.find?_put_of_ne heq]
      exact hfind
  · intro id₁ u₁ id₂ u₂ h₁ h₂ hfile
    obtain ⟨v₁, h₁, -, -, -, hfile₁⟩ := hold h₁
    obtain ⟨v₂, h₂, -, -, -, hfile₂⟩ := hold h₂
    exact h.distinct id₁ v₁ id₂ v₂ h₁ h₂ (by rw [← hfile₁, ← hfile₂]; exact hfile)

end PartsOk

theorem bounded_at (root : OsPath) (tree : FileTree OsName) : (at_ root tree).Bounded := by
  refine ⟨fun _ _ h => ?_, Nat.zero_le _⟩
  cases h

theorem partsOk_at (root : OsPath) (tree : FileTree OsName) : PartsOk root (at_ root tree) := by
  refine ⟨rfl, fun _ _ h => ?_, fun _ _ h => ?_, fun _ h => ?_, fun _ h => ?_, fun _ _ _ _ h => ?_,
    fun _ h => ?_, fun _ h => ?_⟩ <;> cases h

theorem PartsOk.step (h : PartsOk root s) (hguard : Completes s a) (hstep : s.step a = some s') :
    PartsOk root s' := by
  cases a with
  | foreign tree => exact hguard.elim
  | call call faults =>
    have hs : PartsOk root (s.setFaults faults) :=
      h.setDisk (.refl _) (fun _ _ => Iff.rfl) rfl rfl
    have hcomplete : ∀ id u, call = .finishUpload id → s.folder.uploads.find? id = some u →
        u.written = u.expected → Unhindered (s.setFaults faults).disk u = true := by
      rintro id u rfl hopen hcomplete
      have hall : (s.folder.uploads.find? id).all _ = true := hguard
      rw [hopen, all_some] at hall
      simpa [hcomplete] using hall
    have houtcome := outcome_run (s.setFaults faults) call
    rw [some.inj hstep] at houtcome
    cases houtcome with
    | prepared hprepares => exact hs.prepares hprepares
    | started hstarted => exact hs.started hstarted
    | written hwritten =>
      obtain ⟨hopen, -, htree, hlog⟩ := hwritten
      exact (hs.append htree hlog).written hopen
    | aborted haborted => exact hs.aborted haborted
    | broken htree hlog haborted => exact (hs.append htree hlog).aborted haborted
    | finished hfinished =>
      refine hs.finished ?_ hfinished
      obtain ⟨hopen, hfull, -⟩ := hfinished
      exact hcomplete _ _ rfl hopen hfull
    | @leaked id u d hopen hfull _ hfailed =>
      -- the call returns, so that nothing is left behind
      obtain ⟨n, to_, hsync, hrename, hpick, hdst, hfree, hstores⟩ :=
        unhindered_eq_true (hcomplete id u rfl hopen hfull)
      obtain ⟨loc, hsrc, hfile, -⟩ := hs.part id u hopen
      obtain ⟨names, hdir⟩ := (hs.placed id u hopen).dir
      have hstrip := stripRoot_append root (names.map Hop.down)
      rw [← hdir, ← hs.rootEq] at hstrip
      obtain ⟨t, hreturned⟩ := finishUpload_succeeds hopen hfull hsync hpick hrename hsrc hfile hdst
        hfree hstores hstrip
      rw [hreturned] at hfailed
      cases hfailed
    | listed hprepares hlooks => exact (hs.prepares hprepares).looks hlooks
    | read hlooks => exact hs.looks hlooks
    | dropped hdropped => exact hdropped _ (fun _ _ _ h ha => h.aborted ha) hs

/-- The part files that are left are those of the open uploads. -/
theorem PartsOk.mem_partFiles (h : PartsOk root s) (inode : Nat) :
    inode ∈ partFiles s.disk ↔ ∃ id u, s.folder.uploads.find? id = some u ∧ u.file = inode := by
  unfold partFiles
  rw [List.mem_map]
  constructor
  · rintro ⟨p, hp, rfl⟩
    obtain ⟨hp, hnode⟩ := mem_filter.1 hp
    exact h.exact_ p hp (of_decide_eq_true hnode)
  · rintro ⟨id, u, hfind, rfl⟩
    obtain ⟨loc, -, hnode, hmem⟩ := h.part id u hfind
    exact ⟨(loc, u.file), mem_filter.2 ⟨hmem, decide_eq_true hnode⟩, rfl⟩

/-- Whatever fails on the disk, the open uploads are bounded in number and have written no more than
announced. In runs where nothing hinders the end of a complete upload, the part files that are left
are those of the open uploads, one for each. -/
theorem part_files_of_uploads (root : OsPath) (tree : FileTree OsName) (acts : List FolderAction)
    (s : Store) (hrun : runFrom step (at_ root tree) acts = some s) :
    ((∀ id u, s.folder.uploads.find? id = some u →
        u.written ≤ u.expected ∧ u.written ≤ maxFileBytes) ∧
      s.folder.uploads.size ≤ maxOpenUploads) ∧
    (RunMeets step Completes (at_ root tree) acts →
      (∀ inode, inode ∈ partFiles s.disk ↔
        ∃ id u, s.folder.uploads.find? id = some u ∧ u.file = inode) ∧
      ∀ id u id' u', s.folder.uploads.find? id = some u → s.folder.uploads.find? id' = some u' →
        u.file = u'.file → id = id') := by
  have hbounded := invariant_of_step (I := Bounded) (fun _ _ _ h hstep => h.step hstep)
    (bounded_at root tree) hrun
  refine ⟨⟨fun id u hfind => ?_, hbounded.count⟩, fun hmeets => ?_⟩
  · obtain ⟨hwritten, hmax⟩ := hbounded.sizes id u hfind
    exact ⟨hwritten, Nat.le_trans hwritten hmax⟩
  · have hparts := invariant_of_guardedStep (I := PartsOk root)
      (fun _ _ _ h hguard hstep => h.step hguard hstep) (partsOk_at root tree) hmeets hrun
    exact ⟨hparts.mem_partFiles, hparts.distinct⟩

/-- An upload that is finished although its free name cannot be looked up, one that is refused
half-way, one that fails on the disk and one that stays open. -/
def sampleUploads : List FolderAction :=
  [.call (.startUpload 1 samplePath 3) [], .call (.writeChunk 1 [1, 2, 3]) [],
    .call (.startUpload 2 samplePath 2) [], .call (.writeChunk 2 [1, 2, 3]) [],
    .call (.finishUpload 1) [none, some 0], .call (.startUpload 3 samplePath 5) [],
    .call (.writeChunk 3 [1, 2]) [some 1], .call (.startUpload 4 samplePath 5) [none, some 0],
    .call (.startUpload 5 samplePath 9) [], .call (.writeChunk 5 [7]) []]

theorem part_files_of_uploads_sampleUploads :
    ∃ s, runFrom step (at_ sampleRoot .empty) sampleUploads = some s ∧
      RunMeets step Completes (at_ sampleRoot .empty) sampleUploads ∧
      (∀ inode, inode ∈ partFiles s.disk ↔
        ∃ id u, s.folder.uploads.find? id = some u ∧ u.file = inode) ∧
      partFiles s.disk = [3] :=
  have hrun : runFrom step (at_ sampleRoot .empty) sampleUploads =
      some ((runFrom step (at_ sampleRoot .empty) sampleUploads).get (by decide +kernel)) :=
    (some_get _).symm
  have hmeets : RunMeets step Completes (at_ sampleRoot .empty) sampleUploads := by decide +kernel
  ⟨_, hrun, hmeets,
    ((part_files_of_uploads sampleRoot .empty sampleUploads _ hrun).2 hmeets).1, by decide +kernel⟩

/-- The sync of a complete upload fails. -/
def leakingUpload : List FolderAction :=
  [.call (.startUpload 1 samplePath 3) [], .call (.writeChunk 1 [1, 2, 3]) [],
    .call (.finishUpload 1) [some 0]]

/-- The part file is left although no upload is open. -/
theorem part_file_leaked :
    ∃ s, runFrom step (at_ sampleRoot .empty) leakingUpload = some s ∧
      partFiles s.disk = [0] ∧ s.folder.uploads.entries = [] :=
  ⟨_, (some_get (by decide +kernel)).symm, by decide +kernel, by decide +kernel⟩

end Store

end RivetLink.Agent
