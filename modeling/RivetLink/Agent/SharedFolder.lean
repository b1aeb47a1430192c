import Mathlib.Data.List.Sort
import RivetLink.Foundation.Disk
import RivetLink.Sdk.SharedPaths

/-!
# The shared folder of the console worker

Uploads land in one folder of the logged-in user, and downloads are served only from there. An
upload is written to a hidden part file and renamed into place when it is complete. The operations
work on the open uploads and on the disk, where every call but the removal of a file can fail.
-/

namespace RivetLink.Agent

open RivetLink.Foundation RivetLink.Sdk

/-- A file name: text, or bytes that are not valid UTF-8. -/
inductive OsName where
  | text (name : List Char)
  | raw (bytes : Bytes)
  deriving DecidableEq

abbrev OsPath := List (Hop OsName)

/-- The part of a path between two slashes. -/
def hop (part : List Char) : Option (Hop OsName) :=
  if part = [] ∨ part = ['.'] then none
  else if part = ['.', '.'] then some .up
  else some (.down (.text part))

def push (path : OsPath) (part : List Char) : OsPath :=
  if part.head? = some '/' then (part.splitOn '/').filterMap hop
  else path ++ (part.splitOn '/').filterMap hop

def maxOpenUploads : Nat := 4

/-- Listing stops after this many entries. -/
def maxListedEntries : Nat := 5000

def partSuffix : List Char := ".rivetlink-part".toList

/-- Why an operation failed: the path, size or upload id is not acceptable, or the file system
refused. -/
inductive ShareError where
  | rejected
  | io
  deriving DecidableEq

structure Upload where
  dir : OsPath
  name : List Char
  part : OsPath
  /-- The open part file. -/
  file : Nat
  expected : Nat
  written : Nat
  deriving DecidableEq

structure SharedFolder where
  root : OsPath
  uploads : KeyedMap UInt32 Upload := .empty

/-- The checks of `start_upload` on the open uploads. -/
def SharedFolder.refuses (folder : SharedFolder) (id : UInt32) (name : List Char) (size : Nat) :
    Bool :=
  maxFileBytes < size || partSuffix.isSuffixOf name || folder.uploads.contains id ||
    maxOpenUploads ≤ folder.uploads.size

structure Store where
  folder : SharedFolder
  disk : Disk OsName

abbrev Share := EStateM ShareError Store

namespace Store

variable {α : Type}

def setDisk (s : Store) (disk : Disk OsName) : Store := { s with disk := disk }

def setUploads (s : Store) (uploads : KeyedMap UInt32 Upload) : Store :=
  { s with folder := { s.folder with uploads := uploads } }

@[simp] theorem setDisk_folder (s : Store) (disk : Disk OsName) :
    (s.setDisk disk).folder = s.folder := rfl

@[simp] theorem setDisk_disk (s : Store) (disk : Disk OsName) : (s.setDisk disk).disk = disk := rfl

@[simp] theorem setDisk_setDisk (s : Store) (disk disk' : Disk OsName) :
    (s.setDisk disk).setDisk disk' = s.setDisk disk' := rfl

/-- A call whose failure is an error of the operation. -/
def onDisk (call : EStateM IoError (Disk OsName) α) : Share α :=
  focus Store.disk Store.setDisk (fun _ => ShareError.io) call

/-- A call whose failure is looked at. -/
def tryDisk (call : EStateM IoError (Disk OsName) α) : Share (Except IoError α) :=
  focus Store.disk Store.setDisk id (attempt call)

def root : Share OsPath := do return (← get).folder.root

def ensureRoot : Share Unit := do
  let root ← root
  onDisk (Disk.createDirAll root)
  let node ← onDisk (Disk.stat false root)
  if node.isLink then throw .rejected else pure ()

/-- One folder on the way: an existing one that is a link or a file is rejected. -/
def enterDir (create : Bool) (dir : OsPath) : Share Unit := do
  match ← tryDisk (Disk.stat false dir) with
  | .ok .dir => pure ()
  | .ok _ => throw .rejected
  | .error .notFound => if create then onDisk (Disk.createDir dir) else throw .rejected
  | .error _ => throw .rejected

/-- Resolve the folders below `dir`, optionally creating them. -/
def resolveDirs (create : Bool) : OsPath → List (List Char) → Share OsPath
  | dir, [] => pure dir
  | dir, component :: components => do
      enterDir create (push dir component)
      resolveDirs create (push dir component) components

/-- The part file of an upload, next to the place of the finished file. -/
def partName (name : List Char) (id : UInt32) : List Char :=
  '.' :: name ++ '.' :: Nat.toDigits 10 id.toNat ++ partSuffix

def openPart (id : UInt32) (dir : OsPath) (name : List Char) (size : Nat) : Share Unit := do
  let file ← onDisk (Disk.createNew (push dir (partName name id)))
  modify fun s => s.setUploads
    (s.folder.uploads.put id ⟨dir, name, push dir (partName name id), file, size, 0⟩)

def startUpload (id : UInt32) (path : Str) (size : Nat) : Share Unit := do
  match relativeComponents path with
  | none => throw .rejected
  | some components =>
    match components.getLast? with
    | none => throw .rejected
    | some name =>
      if (← get).folder.refuses id name size then throw .rejected
      else
        ensureRoot
        let dir ← resolveDirs true (← root) components.dropLast
        openPart id dir name size

def abortUpload (id : UInt32) : Share Unit := do
  match (← get).folder.uploads.find? id with
  | none => pure ()
  | some upload =>
    modify fun s => s.setUploads (s.folder.uploads.erase id)
    let _ ← tryDisk (Disk.removeFile upload.part)

def writeChunk (id : UInt32) (data : Bytes) : Share Unit := do
  match (← get).folder.uploads.find? id with
  | none => throw .rejected
  | some upload =>
    if fileChunkBytes < data.length ∨ upload.expected < upload.written + data.length then
      abortUpload id
      throw .rejected
    else
      match ← tryDisk (Disk.writeAll upload.file data) with
      | .error _ =>
        abortUpload id
        throw .io
      | .ok () =>
        modify fun s => s.setUploads
          (s.folder.uploads.put id { upload with written := upload.written + data.length })

/-- `rsplit_once`, at the last dot. -/
def rsplitOnce (name : List Char) : Option (List Char × List Char) :=
  match name.reverse.dropWhile (· ≠ '.') with
  | [] => none
  | _ :: stem => some (stem.reverse, (name.reverse.takeWhile (· ≠ '.')).reverse)

def stemAndExtension (name : List Char) : List Char × Option (List Char) :=
  match rsplitOnce name with
  | some (stem, ext) => if stem = [] then (name, none) else (stem, some ext)
  | none => (name, none)

/-- `name`, or `name (1).ext`, `name (2).ext` and so on. -/
def candidate (name : List Char) (n : Nat) : List Char :=
  if n = 0 then name
  else
    match stemAndExtension name with
    | (stem, some ext) => stem ++ ' ' :: '(' :: Nat.toDigits 10 n ++ ')' :: '.' :: ext
    | (stem, none) => stem ++ ' ' :: '(' :: Nat.toDigits 10 n ++ [')']

/-- The first of the next candidates that does not exist. -/
def unusedNameFrom (dir : OsPath) (name : List Char) : Nat → Nat → Share (Option (List Char))
  | 0, _ => pure none
  | left + 1, n => do
      match ← tryDisk (Disk.stat false (push dir (candidate name n))) with
      | .error _ => pure (some (candidate name n))
      | .ok _ => unusedNameFrom dir name left (n + 1)

def unusedName (dir : OsPath) (name : List Char) : Share (Option (List Char)) :=
  unusedNameFrom dir name 10000 0

def relativeText (path : OsPath) : List Char :=
  ['/'].intercalate (path.filterMap fun
    | .down (.text name) => some name
    | _ => none)

/-- The parts of a path after another one. -/
def stripRoot (root path : OsPath) : Option OsPath :=
  if root.isPrefixOf path then some (path.drop root.length) else none

/-- Complete an upload; the result is its final path relative to the folder. -/
def finishUpload (id : UInt32) : Share (List Char) := do
  match (← get).folder.uploads.find? id with
  | none => throw .rejected
  | some upload =>
    modify fun s => s.setUploads (s.folder.uploads.erase id)
    if upload.written ≠ upload.expected then
      let _ ← tryDisk (Disk.removeFile upload.part)
      throw .rejected
    else
      onDisk Disk.syncAll
      match ← unusedName upload.dir upload.name with
      | none => throw .io
      | some name =>
        onDisk (Disk.rename upload.part (push upload.dir name))
        match stripRoot (← root) upload.dir with
        | none => throw .io
        | some relative => pure (relativeText (push relative name))

structure ListedEntry where
  path : List Char
  size : Nat
  dir : Bool
  deriving DecidableEq

/-- The entries found so far and the folders still to be listed. -/
structure Listing where
  entries : List ListedEntry := []
  pending : List (OsPath × List Char × Nat) := []
  full : Bool := false

/-- The path of an entry, relative to the folder. -/
def entryPath (above name : List Char) : List Char :=
  if above = [] then name else above ++ '/' :: name

/-- The listing is full once it has the largest number of entries. -/
def Listing.mark (l : Listing) : Listing :=
  { l with full := maxListedEntries ≤ l.entries.length }

/-- The entry of a folder or a regular file. -/
def Listing.add (l : Listing) (size : Nat → Nat) (dir : OsPath) (above : List Char) (depth : Nat)
    (name : List Char) : Node OsName → Listing
  | .dir =>
    { l with
      entries := l.entries ++ [⟨entryPath above name, 0, true⟩]
      pending :=
        if depth + 1 < maxPathDepth then
          (dir ++ [.down (.text name)], entryPath above name, depth + 1) :: l.pending
        else l.pending }
  | .file inode => { l with entries := l.entries ++ [⟨entryPath above name, size inode, false⟩] }
  | .link _ _ => l

def addEntry (dir : OsPath) (above : List Char) (depth : Nat) (name : List Char)
    (node : Node OsName) (l : Listing) : Share Listing := do
  let s ← get
  return (l.add (fun inode => (s.disk.tree.content inode).length) dir above depth name node).mark

def listFolder (dir : OsPath) (above : List Char) (depth : Nat) :
    List (OsName × Node OsName) → Listing → Share Listing
  | [], l => pure l
  | (.raw _, _) :: rest, l => do
      onDisk Disk.next
      listFolder dir above depth rest l
  | (.text name, node) :: rest, l => do
      onDisk Disk.next
      if partSuffix.isSuffixOf name then listFolder dir above depth rest l
      else
        onDisk Disk.next
        onDisk Disk.next
        let l ← addEntry dir above depth name node l
        if l.full then pure l else listFolder dir above depth rest l

/-- One folder after another. Every folder but the first has an entry of its own, so the number of
rounds is bounded by the number of entries (`listLoop_complete`). -/
def listLoop : Nat → Listing → Share Listing
  | 0, l => pure l
  | rounds + 1, l =>
    match l.pending with
    | [] => pure l
    | (dir, above, depth) :: pending => do
        let children ← onDisk (Disk.readDir dir)
        let l ← listFolder dir above depth children { l with pending := pending }
        if l.full then pure l else listLoop rounds l

/-- Paths in the order of their characters, which is that of their bytes. -/
def pathLe (a b : List Char) : Bool :=
  !b.lex a fun x y => x.toNat < y.toNat

/-- Every folder and regular file below the root, sorted, without links or unfinished uploads. -/
def list : Share (List ListedEntry) := do
  ensureRoot
  let l ← listLoop maxListedEntries { pending := [(← root, [], 0)] }
  pure (l.entries.insertionSort fun a b => pathLe a.path b.path)

/-- The part of `read_chunk` that opens the file. -/
def readFrom (path : OsPath) (size offset : Nat) : Share (Bytes × Nat × Bool) := do
  if maxFileBytes < size || size < offset then throw .rejected
  else
    let file ← onDisk (Disk.openFile path)
    onDisk Disk.next
    let data ← onDisk (Disk.readAt file offset fileChunkBytes)
    pure (data, size, size ≤ offset + data.length)

/-- Up to `fileChunkBytes` at `offset`, the size of the file and whether its end is reached. -/
def readChunk (path : Str) (offset : Nat) : Share (Bytes × Nat × Bool) := do
  match relativeComponents path with
  | none => throw .rejected
  | some components =>
    match components.getLast? with
    | none => throw .rejected
    | some name =>
      let dir ← resolveDirs false (← root) components.dropLast
      match ← tryDisk (Disk.stat false (push dir name)) with
      | .ok (.file inode) =>
        if partSuffix.isSuffixOf name then throw .rejected
        else readFrom (push dir name) ((← get).disk.tree.content inode).length offset
      | _ => throw .rejected

/-- Every open upload is aborted. -/
def dropAll : List UInt32 → Share Unit
  | [] => pure ()
  | id :: ids => do
      abortUpload id
      dropAll ids

def drop : Share Unit := do
  dropAll ((← get).folder.uploads.entries.map Prod.fst)

end Store

end RivetLink.Agent
