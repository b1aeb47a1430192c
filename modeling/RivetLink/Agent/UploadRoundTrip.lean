import RivetLink.Agent.PartFiles
import RivetLink.Agent.QuietFolder

/-!
# Uploads that are read back

A client sends a file in chunks of its choice and finishes the upload; the path that it gets back is
then read from the start to the end.

`Sending` is what holds of an upload after each of its chunks: its part file stands in a folder that
is reached through real directories and holds what was sent, and no file that was there before has
changed. `upload_round_trip` says when a finished upload is read back exactly and when the other
files are kept. Neither is certain: the free name can be longer than the one that was asked for, so
that the path may not be read (`renamed_upload_not_read`), and a name whose look-up fails is taken
even if a file has it.
-/

namespace RivetLink.Agent

open List Option RivetLink.Foundation RivetLink.Sdk

namespace Store

variable {s s' s₀ s₁ s₂ : Store} {id : UInt32} {path : Str} {size : Nat} {p : List Char}

/-! ## The steps of an upload -/

theorem startUpload_eq_ok (h : startUpload id path size s = .ok () s') :
    ∃ folders name sA dir sB, relativeComponents path = some (folders ++ [name]) ∧
      s.folder.refuses id name size = false ∧ ensureRoot s = .ok () sA ∧
      resolveDirs true sA.folder.root folders sA = .ok dir sB ∧
      openPart id dir name size sB = .ok () s' := by
  unfold startUpload at h
  cases hcomponents : relativeComponents path with
  | none =>
    rw [hcomponents] at h
    cases h
  | some components =>
    rw [hcomponents] at h
    dsimp only at h
    cases hname : components.getLast? with
    | none =>
      rw [hname] at h
      cases h
    | some name =>
      rw [hname] at h
      dsimp only at h
      obtain ⟨folders, rfl⟩ := getLast?_eq_some_iff.1 hname
      rw [dropLast_concat, run_bind (get_run s)] at h
      cases hrefuses : s.folder.refuses id name size with
      | true =>
        rw [hrefuses] at h
        cases h
      | false =>
        rw [hrefuses, if_neg Bool.false_ne_true] at h
        obtain ⟨_, sA, hroot, hrest⟩ := ok_of_bind h
        rw [run_bind (root_run sA)] at hrest
        obtain ⟨dir, sB, hresolve, hopen⟩ := ok_of_bind hrest
        exact ⟨folders, name, sA, dir, sB, rfl, hrefuses, hroot, hresolve, hopen⟩

/-! ## An upload on its way -/

/-- An upload to a path, whose part file holds the bytes that were sent. -/
structure Sending (s₀ s : Store) (id : UInt32) (path : Str) (u : Upload) (top : List OsName)
    (folders : List (List Char)) (sent : Bytes) : Prop where
  components : relativeComponents path = some (folders ++ [u.name])
  open_ : s.folder.uploads.find? id = some u
  dir : u.dir = s.folder.root ++ (folders.map OsName.text).map .down
  part : u.part = u.dir ++ [.down (.text (partName u.name id))]
  suffix : partSuffix.isSuffixOf u.name = false
  size_le : u.expected ≤ maxFileBytes
  reached : Reached s.disk.tree s.folder.root (folders.map .text) top
  file : s.disk.tree.node (top ++ folders.map .text ++ [.text (partName u.name id)]) =
    some (.file u.file)
  content : s.disk.tree.content u.file = sent
  written : u.written = sent.length
  /-- The files from before the upload. -/
  kept : ∀ loc inode, s₀.disk.tree.node loc = some (.file inode) →
    s.disk.tree.node loc = some (.file inode) ∧
      s.disk.tree.content inode = s₀.disk.tree.content inode ∧ inode ≠ u.file
  /-- There are no others besides the part file. -/
  old : ∀ loc inode, s.disk.tree.node loc = some (.file inode) →
    loc ≠ top ++ folders.map .text ++ [.text (partName u.name id)] →
      s₀.disk.tree.node loc = some (.file inode)

/-- The start of an upload. -/
theorem sending_of_startUpload (h : startUpload id path size s = .ok () s') :
    ∃ u top folders, Sending s s' id path u top folders [] := by
  obtain ⟨folders, name, sA, dir, sB, hcomponents, hrefuses, hroot, hresolve, hopen⟩ :=
    startUpload_eq_ok h
  have hplain : ∀ c ∈ folders ++ [name], Plain c :=
    fun c hc => plain_of_mem_relativeComponents hcomponents hc
  -- the root and the folders are made, and no file is touched
  have hrooted := ensures_eq_iff.1 (ensureRoot_spec (s := s))
  rw [hroot] at hrooted
  obtain ⟨dA, rfl, hgrows, top, hreal⟩ := hrooted
  have hresolved := ensures_eq_iff.1 (resolveDirs_spec (s := s.setDisk dA) true
    (fun c hc => hplain c (mem_append_left _ hc)) (Reached.nil hreal))
  rw [map_nil, append_nil, nil_append, hresolve] at hresolved
  obtain ⟨dB, rfl, hprepares, hreached, rfl⟩ := hresolved
  have hall : Prepares s.folder.root s.disk dB := (Prepares.of_grows hgrows).trans hprepares
  -- the part file is new
  have hopened := ensures_eq_iff.1 (@openPart_spec (s.setDisk dB)
    (s.folder.root ++ (folders.map OsName.text).map .down) name id size (hplain name (by simp)))
  rw [setDisk_folder, setDisk_setDisk] at hopen
  rw [hopen] at hopened
  obtain ⟨d, loc, rfl, hloc, hnone, htree, -⟩ := hopened
  have hloc' := hreached.locate (.text (partName name id))
  obtain rfl := Except.ok.inj (hloc.symm.trans hloc')
  have hne := FileTree.ne_nil_of_none hnone
  have hext : dB.tree.Extends d.tree := by
    rw [htree]
    exact .of_addFile hnone
  simp only [SharedFolder.refuses, Bool.or_eq_false_iff, decide_eq_false_iff_not, Nat.not_lt]
    at hrefuses
  refine ⟨_, top, folders, hcomponents, KeyedMap.find?_put_self, rfl, rfl, hrefuses.1.1.2,
    hrefuses.1.1.1, hreached.extends_ hext, ?_, ?_, rfl, ?_, ?_⟩
  · change d.tree.node _ = _
    rw [htree, FileTree.node_addFile hne, if_pos rfl]
  · change d.tree.content _ = _
    rw [htree]
    exact FileTree.content_addFile_self
  · intro loc' inode hnode
    have hnode' := (hall.files loc' inode).2 hnode
    have hlt := FileTree.lt_nextInode hnode'
    change d.tree.node loc' = _ ∧ d.tree.content inode = _ ∧ inode ≠ dB.tree.nextInode
    rw [htree]
    refine ⟨?_, ?_, Nat.ne_of_lt hlt⟩
    · rw [FileTree.node_addFile hne, if_neg]
      · exact hnode'
      · rintro rfl
        rw [setDisk_disk, hnode'] at hnone
        cases hnone
    · exact (FileTree.content_addFile_of_lt hlt).trans (hall.contents inode)
  · intro loc' inode hnode hloc'
    change d.tree.node loc' = _ at hnode
    rw [htree, FileTree.node_addFile hne, if_neg hloc'] at hnode
    exact (hall.files loc' inode).1 hnode

variable {u : Upload} {top : List OsName} {folders : List (List Char)} {sent data : Bytes}

/-- A chunk is added to what was sent. -/
theorem Sending.writeChunk (h : Sending s₀ s id path u top folders sent)
    (hwrite : writeChunk id data s = .ok () s') :
    Sending s₀ s' id path { u with written := u.written + data.length } top folders
      (sent ++ data) := by
  have hends := ensures_eq_iff.1 (writeChunk_spec s id data)
  rw [hwrite] at hends
  obtain ⟨hopen, -, htree, -⟩ := hends
  rename_i u' d
  cases h.open_.symm.trans hopen
  refine ⟨h.components, KeyedMap.find?_put_self, h.dir, h.part, h.suffix, h.size_le, ?_, ?_, ?_, ?_,
    ?_, ?_⟩
  · have hext : s.disk.tree.Extends d.tree := by
      rw [htree]
      exact ⟨fun _ hn => hn, fun _ _ _ hn => hn⟩
    exact h.reached.extends_ hext
  · change d.tree.node _ = _
    rw [htree]
    exact h.file
  · change d.tree.content u.file = _
    rw [htree, FileTree.content_append_self, h.content]
  · change u.written + data.length = _
    rw [h.written, length_append]
  · intro loc inode hnode
    obtain ⟨hnode', hcontent, hne⟩ := h.kept loc inode hnode
    change d.tree.node loc = _ ∧ d.tree.content inode = _ ∧ inode ≠ u.file
    rw [htree]
    exact ⟨hnode', (FileTree.content_append_of_ne hne).trans hcontent, hne⟩
  · intro loc inode hnode
    change d.tree.node loc = _ at hnode
    rw [htree] at hnode
    exact h.old loc inode hnode

def writeChunks (id : UInt32) : List Bytes → Share Unit
  | [] => pure ()
  | data :: rest => do
      writeChunk id data
      writeChunks id rest

theorem Sending.writeChunks {chunks : List Bytes} (h : Sending s₀ s id path u top folders sent)
    (hwrite : writeChunks id chunks s = .ok () s') :
    ∃ u', Sending s₀ s' id path u' top folders (sent ++ chunks.flatten) := by
  induction chunks generalizing s u sent with
  | nil =>
    cases hwrite
    exact ⟨u, by simpa using h⟩
  | cons data rest ih =>
    obtain ⟨_, s₁, hone, hmore⟩ := ok_of_bind hwrite
    obtain ⟨u', hsending⟩ := ih (h.writeChunk hone) hmore
    refine ⟨u', ?_⟩
    rwa [append_assoc] at hsending

/-- The start of an upload and all its chunks. -/
def sendUpload (id : UInt32) (path : Str) (size : Nat) (chunks : List Bytes) : Share Unit := do
  startUpload id path size
  writeChunks id chunks

/-- No candidate has the name of a part file. -/
theorem Sending.part_ne (h : Sending s₀ s id path u top folders sent) (n : Nat) :
    top ++ folders.map .text ++ [.text (partName u.name id)] ≠
      top ++ folders.map .text ++ [.text (candidate u.name n)] := by
  intro heq
  have hname := OsName.text.inj (cons.inj (append_cancel_left heq)).1
  have hsuffix := suffix_candidate h.suffix n
  rw [← hname, suffix_partName] at hsuffix
  cases hsuffix

/-! ## The end of an upload -/

/-- The path of a file in a folder, as text. -/
theorem relativeText_of_names (folders : List (List Char)) (name : List Char) :
    relativeText ((folders.map OsName.text).map .down ++ [.down (.text name)]) =
      ['/'].intercalate (folders ++ [name]) := by
  unfold relativeText
  congr 1
  induction folders with
  | nil => rfl
  | cons folder folders ih => exact congrArg (folder :: ·) ih

/-- What a candidate has besides the name is a blank, brackets and digits. -/
theorem validPart_candidate {name : List Char} {n : Nat} (h : validPart name = true)
    (hplain : Plain name) (hsize : (utf8 (candidate name n)).length ≤ 255) :
    validPart (candidate name n) = true := by
  obtain ⟨-, -, -, -, hchars⟩ := validPart_iff.1 h
  obtain ⟨-, hne, hdot, hdots⟩ := plain_candidate hplain n
  refine validPart_iff.2 ⟨hne, hdot, hdots, hsize, ?_⟩
  have hdigits : ∀ c ∈ Nat.toDigits 10 n, isControl c = false ∧ c ≠ '\\' ∧ c ≠ ':' := by
    intro c hc
    have hdigit := Nat.isDigit_of_mem_toDigits (by decide) (by decide) hc
    refine ⟨?_, ?_, ?_⟩
    · rw [Char.isDigit_iff_toNat] at hdigit
      change 48 ≤ c.toNat ∧ c.toNat ≤ 57 at hdigit
      simp only [isControl, Bool.or_eq_false_iff, Bool.and_eq_false_iff, decide_eq_false_iff_not]
      omega
    · rintro rfl
      exact absurd hdigit (by decide)
    · rintro rfl
      exact absurd hdigit (by decide)
  have hmarks : ∀ c ∈ [' ', '(', ')', '.'], isControl c = false ∧ c ≠ '\\' ∧ c ≠ ':' := by
    intro c hc
    simp only [mem_cons, not_mem_nil, or_false] at hc
    rcases hc with rfl | rfl | rfl | rfl <;> exact ⟨rfl, by decide, by decide⟩
  obtain heq | heq | ⟨stem, ext, rfl, -, heq⟩ := candidate_cases name n
  · rw [heq]
    exact hchars
  · rw [heq]
    simp only [mem_append, mem_cons] at hchars hmarks ⊢
    rintro c ((hc | rfl | rfl | hc) | rfl | hc)
    · exact hchars c hc
    · exact hmarks _ (by simp)
    · exact hmarks _ (by simp)
    · exact hdigits c hc
    · exact hmarks _ (by simp)
    · cases hc
  · rw [heq]
    simp only [mem_append, mem_cons] at hchars hmarks ⊢
    rintro c ((hc | rfl | rfl | hc) | rfl | rfl | hc)
    · exact hchars c (.inl hc)
    · exact hmarks _ (by simp)
    · exact hmarks _ (by simp)
    · exact hdigits c hc
    · exact hmarks _ (by simp)
    · exact hmarks _ (by simp)
    · exact hchars c (.inr (.inr hc))

/-- The path with these parts is short enough to be read. -/
def Short (folders : List (List Char)) (name : List Char) : Prop :=
  (utf8 (['/'].intercalate (folders ++ [name]))).length ≤ maxPathBytes ∧ (utf8 name).length ≤ 255

/-- An accepted path with a candidate in place of its name is accepted if it is short enough. -/
theorem relativeComponents_candidate {text : Str} {name : List Char} {n : Nat}
    (hpath : relativeComponents path = some (folders ++ [name]))
    (htext : text.chars = ['/'].intercalate (folders ++ [candidate name n])) :
    (Short folders (candidate name n) →
      relativeComponents text = some (folders ++ [candidate name n])) ∧
    (¬Short folders (candidate name n) → relativeComponents text = none) := by
  obtain ⟨-, -, hdepth, hvalid⟩ := relativeComponents_eq_some_iff.1 hpath
  have hplain : ∀ c ∈ folders ++ [name], Plain c :=
    fun c hc => plain_of_mem_relativeComponents hpath hc
  have hparts : ∀ c ∈ folders ++ [candidate name n], '/' ∉ c := by
    intro c hc
    rcases mem_append.1 hc with hfolder | hlast
    · exact (hplain c (mem_append_left _ hfolder)).noSlash
    · rw [mem_singleton.1 hlast]
      exact (plain_candidate (hplain name (by simp)) n).noSlash
  have hsplit : text.chars.splitOn '/' = folders ++ [candidate name n] := by
    rw [htext, splitOn_intercalate '/' hparts (by simp)]
  constructor
  · rintro ⟨hpathSize, hsize⟩
    rw [← htext] at hpathSize
    refine relativeComponents_eq_some_iff.2 ⟨hsplit.symm, hpathSize, by simpa using hdepth, ?_⟩
    intro part hpart
    rcases mem_append.1 hpart with hfolder | hlast
    · exact hvalid part (mem_append_left _ hfolder)
    · rw [mem_singleton.1 hlast]
      exact validPart_candidate (hvalid name (by simp)) (hplain name (by simp)) hsize
  · intro hlong
    cases hcomponents : relativeComponents text with
    | none => rfl
    | some parts =>
      obtain ⟨rfl, hpathSize, -, hvalid'⟩ := relativeComponents_eq_some_iff.1 hcomponents
      rw [hsplit] at hvalid'
      rw [htext] at hpathSize
      obtain ⟨-, -, -, hsize, -⟩ := validPart_iff.1 (hvalid' (candidate name n) (by simp))
      exact absurd ⟨hpathSize, hsize⟩ hlong

theorem readChunk_rejected {offset : Nat} (h : relativeComponents path = none) :
    readChunk path offset s = .error .rejected s := by
  unfold readChunk
  rw [h]
  rfl

/-- The part file is moved to the place of the candidate that is picked. -/
theorem Sending.finishUpload (h : Sending s₀ s id path u top folders sent)
    (hfinish : finishUpload id s = .ok p s') :
    u.written = u.expected ∧ s'.folder.root = s.folder.root ∧
      ∃ n, (pick u.dir u.name s.disk.spent).1 = some n ∧
        p = ['/'].intercalate (folders ++ [candidate u.name n]) ∧
        s.disk.tree.node (top ++ folders.map .text ++ [.text (candidate u.name n)]) ≠ some .dir ∧
        s'.disk.tree = s.disk.tree.move
          (top ++ folders.map .text ++ [.text (partName u.name id)])
          (top ++ folders.map .text ++ [.text (candidate u.name n)]) := by
  have hends := ensures_eq_iff.1 (finishUpload_spec s id)
  rw [hfinish] at hends
  obtain ⟨u', n, relative, hfinished, hstrip, rfl⟩ := hends
  obtain ⟨hopen, hcomplete, hpick, hsrc, hdst, -, -, hdir, htree, -⟩ := hfinished
  cases h.open_.symm.trans hopen
  have hplain : Plain (candidate u.name n) :=
    plain_candidate (plain_of_mem_relativeComponents h.components mem_concat_self) n
  rw [h.part, h.dir, h.reached.locate (.text (partName u.name id))] at hsrc
  rw [push_of_plain hplain, h.dir, h.reached.locate (.text (candidate u.name n))] at hdst
  cases hsrc
  cases hdst
  rw [h.dir, stripRoot_append] at hstrip
  cases hstrip
  refine ⟨hcomplete, rfl, n, hpick, ?_, hdir, htree.trans (if_neg (h.part_ne n))⟩
  rw [push_of_plain hplain, relativeText_of_names]

section Moved

variable {n : Nat} (h : Sending s₀ s id path u top folders sent)
  (htree : s'.disk.tree = s.disk.tree.move
    (top ++ folders.map .text ++ [.text (partName u.name id)])
    (top ++ folders.map .text ++ [.text (candidate u.name n)]))

include h htree

theorem Sending.node_moved (loc : List OsName) : s'.disk.tree.node loc =
    if loc = top ++ folders.map .text ++ [.text (candidate u.name n)] then some (.file u.file)
    else if loc = top ++ folders.map .text ++ [.text (partName u.name id)] then none
    else s.disk.tree.node loc := by
  rw [htree]
  exact FileTree.node_move (by simp) (by simp) h.file

/-- The upload can be read, if it has not replaced a link. -/
theorem Sending.served {text : Str} (hroot : s'.folder.root = s.folder.root)
    (hfile : ∀ node, s.disk.tree.node (top ++ folders.map .text ++
      [.text (candidate u.name n)]) = some node → ∃ inode, node = .file inode)
    (htext : relativeComponents text = some (folders ++ [candidate u.name n])) :
    Served s' top text u.file := by
  refine ⟨htext, suffix_candidate h.suffix n, ?_, ?_⟩
  · have hext := FileTree.Extends.of_move h.file (by simp) hfile
    rw [hroot, htree]
    exact h.reached.extends_ hext
  · rw [h.node_moved htree, if_pos rfl]

/-- The other files are kept unless one of them was at the place of the upload. -/
theorem Sending.kept_iff :
    (∀ loc inode, s₀.disk.tree.node loc = some (.file inode) →
      s'.disk.tree.node loc = some (.file inode) ∧
        s'.disk.tree.content inode = s₀.disk.tree.content inode) ↔
    ∀ inode, s.disk.tree.node (top ++ folders.map .text ++ [.text (candidate u.name n)]) ≠
      some (.file inode) := by
  constructor
  · intro hkept inode hnode
    have hold := h.old _ inode hnode (h.part_ne n).symm
    have hmoved := (hkept _ inode hold).1
    rw [h.node_moved htree, if_pos rfl] at hmoved
    cases hmoved
    exact (h.kept _ _ hold).2.2 rfl
  · intro hfree loc inode hnode
    obtain ⟨hnode', hcontent, hne⟩ := h.kept loc inode hnode
    rw [h.node_moved htree, htree, FileTree.content_move]
    refine ⟨?_, hcontent⟩
    rw [if_neg, if_neg]
    · exact hnode'
    · rintro rfl
      rw [h.file] at hnode'
      cases hnode'
      exact hne rfl
    · rintro rfl
      exact hfree inode hnode'

end Moved

theorem Sending.setFaults (h : Sending s₀ s id path u top folders sent)
    (faults : List (Option Nat)) : Sending s₀ (s.setFaults faults) id path u top folders sent :=
  ⟨h.components, h.open_, h.dir, h.part, h.suffix, h.size_le, h.reached, h.file, h.content,
    h.written, h.kept, h.old⟩

/-- From any state of the folder and the disk, with any failures. An upload that is finished goes to
the place of a candidate that is free or whose look-up failed. If the path with this candidate is
short enough and no link was there, then reading it to the end gives exactly the bytes of the
chunks; if it is too long, then every read is rejected. The files that were there before are at
their places and hold the same bytes if and only if none of them was at that place. -/
theorem upload_round_trip {chunks : List Bytes} {faults : List (Option Nat)} {name : List Char}
    (hpath : relativeComponents path = some (folders ++ [name]))
    (hsent : sendUpload id path size chunks s = .ok () s₁)
    (hfinish : finishUpload id (s₁.setFaults faults) = .ok p s₂) :
    ∃ u n loc, s₁.folder.uploads.find? id = some u ∧
      (pick u.dir name (s₁.setFaults faults).disk.spent).1 = some n ∧
      s₁.disk.tree.locate false (push u.dir (candidate name n)) = .ok loc ∧
      (s₁.disk.tree.node loc ≠ none → ∃ b, faults[n + 1]? = some (some b)) ∧
      (Short folders (candidate name n) →
        (∀ absolute target, s₁.disk.tree.node loc ≠ some (.link absolute target)) →
        ∀ text : Str, text.chars = p → ∀ rounds, chunks.flatten.length < rounds →
          ∃ s₃, readToEnd text rounds 0 (s₂.setFaults []) = .ok (some chunks.flatten) s₃) ∧
      (¬Short folders (candidate name n) → ∀ text : Str, text.chars = p → ∀ offset s',
        readChunk text offset s' = .error .rejected s') ∧
      ((∀ loc' inode, s.disk.tree.node loc' = some (.file inode) →
          s₂.disk.tree.node loc' = some (.file inode) ∧
            s₂.disk.tree.content inode = s.disk.tree.content inode) ↔
        ∀ inode, s₁.disk.tree.node loc ≠ some (.file inode)) := by
  obtain ⟨_, sA, hstart, hwrite⟩ := ok_of_bind hsent
  obtain ⟨u₀, top, folders', hstarted⟩ := sending_of_startUpload hstart
  obtain ⟨u, hsending⟩ := hstarted.writeChunks hwrite
  rw [nil_append] at hsending
  have hparts := hsending.components
  rw [hpath] at hparts
  obtain ⟨rfl, hname⟩ := append_inj' (some.inj hparts) rfl
  obtain rfl : name = u.name := (cons.inj hname).1
  have hready := hsending.setFaults faults
  obtain ⟨hcomplete, hroot, n, hpick, rfl, hdir, htree⟩ := hready.finishUpload hfinish
  have hplain : Plain (candidate u.name n) :=
    plain_candidate (plain_of_mem_relativeComponents hpath mem_concat_self) n
  have hloc := hsending.reached.locate (.text (candidate u.name n))
  rw [← hsending.dir, ← push_of_plain hplain] at hloc
  refine ⟨u, n, _, hsending.open_, hpick, hloc, ?_, ?_, ?_, hready.kept_iff htree⟩
  · intro hnode
    obtain ⟨-, ⟨e, hstat⟩ | ⟨b, hfault⟩⟩ := pickFrom_some hpick
    · obtain ⟨node, hnode⟩ := ne_none_iff_exists'.1 hnode
      change s₁.disk.tree.stat false _ = _ at hstat
      rw [FileTree.stat, hloc] at hstat
      dsimp only at hstat
      rw [hnode] at hstat
      cases hstat
    · refine ⟨b, ?_⟩
      rw [← hfault]
      exact getElem?_tail.symm
  · intro hshort hlink text htext rounds hrounds
    have hread : Served (s₂.setFaults []) top text u.file := by
      refine (hready.served htree hroot ?_
        ((relativeComponents_candidate hpath htext).1 hshort)).congr rfl rfl
      intro node hnode
      cases node with
      | dir => exact absurd hnode hdir
      | file inode => exact ⟨inode, rfl⟩
      | link absolute target => exact absurd hnode (hlink absolute target)
    have hcontent : (s₂.setFaults []).disk.tree.content u.file = chunks.flatten := by
      change s₂.disk.tree.content u.file = _
      rw [htree, FileTree.content_move]
      exact hsending.content
    have hsize : chunks.flatten.length ≤ maxFileBytes := by
      rw [← hsending.written, hcomplete]
      exact hsending.size_le
    rw [← hcontent] at hsize hrounds ⊢
    have hrun := hread.readToEnd rfl hsize (Nat.zero_le _) (rounds.zero_add.symm ▸ hrounds)
    rwa [drop_zero] at hrun
  · intro hlong text htext offset s'
    exact readChunk_rejected ((relativeComponents_candidate hpath htext).2 hlong)

/-- A small upload into a new folder. -/
def sampleSent : Store :=
  finalState (sendUpload 7 samplePath 3 [[1], [2, 3]] (at_ sampleRoot .empty))

def sampleFinished : Store := finalState (finishUpload 7 (sampleSent.setFaults []))

theorem upload_round_trip_sampleSent :
    ∃ s₃, readToEnd samplePath 4 0 (sampleFinished.setFaults []) = .ok (some [1, 2, 3]) s₃ := by
  have hpath : relativeComponents samplePath = some (["docs".toList] ++ ["f".toList]) := by
    decide +kernel
  have hsent : sendUpload 7 samplePath 3 [[1], [2, 3]] (at_ sampleRoot .empty) =
      .ok () sampleSent := eq_ok_of_result? (by decide +kernel)
  have hfinish : finishUpload 7 (sampleSent.setFaults []) = .ok "docs/f".toList sampleFinished :=
    eq_ok_of_result? (by decide +kernel)
  obtain ⟨u, n, loc, hopen, hpick, -, hfree, hread, -⟩ := upload_round_trip hpath hsent hfinish
  have hfirst : (sampleSent.folder.uploads.find? 7).all (fun u => decide
      ((pick u.dir "f".toList (sampleSent.setFaults []).disk.spent).1 = some 0)) = true := by
    decide +kernel
  rw [hopen, all_some, decide_eq_true_eq, hpick] at hfirst
  cases hfirst
  refine hread ⟨by decide +kernel, by decide⟩ (fun absolute target hlink => ?_) samplePath rfl 4
    (by decide)
  obtain ⟨b, hb⟩ := hfree (by rw [hlink]; exact some_ne_none _)
  cases hb

/-! ## A path that is too long -/

/-- Four folders with long names, and the name of a file in the last one. -/
def longParts : List (List Char) :=
  List.replicate 4 (List.replicate 200 'a') ++ [List.replicate 220 'b']

theorem longPath_sized : (utf8 (['/'].intercalate longParts)).length < 2 ^ 63 := by decide +kernel

def longPath : Str := ⟨['/'].intercalate longParts, longPath_sized⟩

def longTree : FileTree OsName :=
  ((List.range 5).foldl
    (fun (t : FileTree OsName) k => t.addDir (sampleName "share" :: (longParts.take k).map .text))
    FileTree.empty).addFile (sampleName "share" :: longParts.map .text)

def longUpload : EStateM.Result ShareError Store (List Char) :=
  (do
    sendUpload 7 longPath 3 [[1, 2, 3]]
    finishUpload 7 : Share (List Char)) (at_ sampleRoot longTree)

/-- The upload succeeds, but its new name makes the path too long to be read. -/
theorem renamed_upload_not_read : ∃ p s₂, longUpload = .ok p s₂ ∧
    ∀ text : Str, text.chars = p → ∀ offset,
      readChunk text offset s₂ = .error .rejected s₂ := by
  have hlong : (result? longUpload).any (fun p => maxPathBytes < (utf8 p).length) = true := by
    decide +kernel
  cases hrun : longUpload with
  | error e s₂ =>
    rw [hrun] at hlong
    cases hlong
  | ok p s₂ =>
    rw [hrun] at hlong
    refine ⟨p, s₂, rfl, fun text htext offset => readChunk_rejected ?_⟩
    have hbytes : decide (maxPathBytes < (utf8 p).length) = true := hlong
    unfold relativeComponents
    rw [if_pos]
    rw [htext, hbytes]
    simp

end Store

end RivetLink.Agent
