import RivetLink.Foundation.Bytes
import RivetLink.Foundation.KeyedMap

/-!
# File trees with symbolic links

The nodes of a tree stand at locations, which are lists of names from the top. A path is a list of
hops; `locate` follows it to a location through the links on the way, and through a link at its end
if asked to. A regular file is an inode; its contents are kept apart, so that a handle stays valid
when the file is renamed.

`RealDir t path loc` says that the path ends at a directory without a link at its end. A name below
it is found without further links (`RealDir.locate_join`), and changes that leave directories and
links alone (`Extends`) do not move what a path leads to (`Extends.locate`).
-/

namespace RivetLink.Foundation

open List Option

variable {ν : Type}

/-- A part of a path. -/
inductive Hop (ν : Type) where
  | up
  | down (name : ν)
  deriving DecidableEq

inductive Node (ν : Type) where
  | dir
  | file (inode : Nat)
  | link (absolute : Bool) (target : List (Hop ν))
  deriving DecidableEq

def Node.isLink : Node ν → Bool
  | .link _ _ => true
  | _ => false

theorem Node.dir_ne_file (inode : Nat) : (Node.dir : Node ν) ≠ .file inode := nofun

theorem Node.link_ne_file (absolute : Bool) (target : List (Hop ν)) (inode : Nat) :
    Node.link absolute target ≠ .file inode := nofun

inductive IoError where
  | notFound
  | alreadyExists
  | notADirectory
  | isADirectory
  | tooManyLinks
  | other
  deriving DecidableEq

/-- Where the walk along a path stops: at its end, at a link, or at an error. -/
inductive Landing (ν : Type) where
  | arrived (loc : List ν)
  | linked (loc : List ν) (absolute : Bool) (rest : List (Hop ν))
  | failed (e : IoError)

/-- The walk comes to a node that is no directory. -/
def halt (follow : Bool) (loc : List ν) (name : ν) (rest : List (Hop ν)) :
    Option (Node ν) → Landing ν
  | some (.link absolute target) =>
    if rest.isEmpty && !follow then .arrived (loc ++ [name])
    else .linked loc absolute (target ++ rest)
  | some _ => if rest.isEmpty then .arrived (loc ++ [name]) else .failed .notADirectory
  | none => if rest.isEmpty then .arrived (loc ++ [name]) else .failed .notFound

section Halt

variable {follow absolute : Bool} {loc loc' : List ν} {name : ν} {rest q : List (Hop ν)}
  {nd : Option (Node ν)}

/-- Without a directory the walk ends only with its path. -/
theorem halt_eq_arrived (h : halt follow loc name rest nd = .arrived loc') :
    rest = [] ∧ loc' = loc ++ [name] := by
  unfold halt at h
  split at h <;> split at h <;> cases h
  all_goals
    rename_i hempty
    simp only [Bool.and_eq_true, List.isEmpty_iff] at hempty
  · exact ⟨hempty.1, rfl⟩
  · exact ⟨hempty, rfl⟩
  · exact ⟨hempty, rfl⟩

theorem halt_eq_linked (h : halt false loc name rest nd = .linked loc' absolute q) :
    loc' = loc ∧ rest ≠ [] ∧ ∃ target, nd = some (.link absolute target) ∧ q = target ++ rest := by
  unfold halt at h
  split at h <;> split at h <;> cases h
  rename_i hempty
  simp only [Bool.not_false, Bool.and_true, List.isEmpty_iff] at hempty
  exact ⟨rfl, hempty, _, rfl, rfl⟩

theorem halt_nil (h : follow = true → ∀ n, nd = some n → n.isLink = false) :
    halt follow loc name [] nd = .arrived (loc ++ [name]) := by
  unfold halt
  split
  · cases follow with
    | false => rfl
    | true => cases h rfl _ rfl
  · rfl
  · rfl

end Halt

variable [DecidableEq ν]

structure FileTree (ν : Type) [DecidableEq ν] where
  nodes : KeyedMap (List ν) (Node ν)
  contents : KeyedMap Nat Bytes
  nextInode : Nat
  fresh : ∀ loc inode, nodes.find? loc = some (.file inode) → inode < nextInode

namespace FileTree

/-- The node at a location. The top is a directory. -/
def node (t : FileTree ν) (loc : List ν) : Option (Node ν) :=
  if loc = [] then some .dir else t.nodes.find? loc

/-- Go along the path up to the next link. -/
def advance (t : FileTree ν) (follow : Bool) : List ν → List (Hop ν) → Landing ν
  | loc, [] => .arrived loc
  | loc, .up :: rest => t.advance follow loc.dropLast rest
  | loc, .down name :: rest =>
    if t.node (loc ++ [name]) = some .dir then t.advance follow (loc ++ [name]) rest
    else halt follow loc name rest (t.node (loc ++ [name]))

/-- Go along the path through a bounded number of links. -/
def walk (t : FileTree ν) (follow : Bool) : Nat → List ν → List (Hop ν) → Except IoError (List ν)
  | 0, loc, path =>
    match t.advance follow loc path with
    | .arrived loc => .ok loc
    | .failed e => .error e
    | .linked _ _ _ => .error .tooManyLinks
  | links + 1, loc, path =>
    match t.advance follow loc path with
    | .arrived loc => .ok loc
    | .failed e => .error e
    | .linked loc absolute path => t.walk follow links (if absolute then [] else loc) path

/-- The limit that the kernel sets on the links of one path. -/
def maxLinks : Nat := 40

/-- The location that a path leads to; the node itself may be missing. -/
def locate (t : FileTree ν) (follow : Bool) (path : List (Hop ν)) : Except IoError (List ν) :=
  t.walk follow maxLinks [] path

/-- `lstat` and, through a link at the end, `stat`. -/
def stat (t : FileTree ν) (follow : Bool) (path : List (Hop ν)) : Except IoError (Node ν) :=
  match t.locate follow path with
  | .ok loc => (t.node loc).elim (.error .notFound) .ok
  | .error e => .error e

/-! ## Changes -/

theorem fresh_empty : ∀ (loc : List ν) inode,
    (KeyedMap.empty : KeyedMap (List ν) (Node ν)).find? loc = some (.file inode) → inode < 0 :=
  nofun

/-- The tree with nothing but its top. -/
def empty : FileTree ν := ⟨.empty, .empty, 0, fresh_empty⟩

variable {node : Node ν}

theorem fresh_put (t : FileTree ν) (loc : List ν) (hnode : ∀ inode, node ≠ .file inode) :
    ∀ loc' inode,
    (t.nodes.put loc node).find? loc' = some (.file inode) → inode < t.nextInode := by
  intro loc' inode h
  obtain ⟨-, heq⟩ | ⟨-, hold⟩ := KeyedMap.find?_put_cases h
  · exact absurd heq.symm (hnode inode)
  · exact t.fresh loc' inode hold

def addDir (t : FileTree ν) (loc : List ν) : FileTree ν :=
  { t with nodes := t.nodes.put loc .dir, fresh := t.fresh_put loc Node.dir_ne_file }

def addLink (t : FileTree ν) (loc : List ν) (absolute : Bool) (target : List (Hop ν)) :
    FileTree ν :=
  { t with
    nodes := t.nodes.put loc (.link absolute target)
    fresh := t.fresh_put loc (Node.link_ne_file absolute target) }

theorem fresh_put_file (t : FileTree ν) (loc : List ν) : ∀ loc' inode,
    (t.nodes.put loc (.file t.nextInode)).find? loc' = some (.file inode) →
      inode < t.nextInode + 1 := by
  intro loc' inode h
  obtain ⟨-, ⟨⟩⟩ | ⟨-, hold⟩ := KeyedMap.find?_put_cases h
  · exact Nat.lt_succ_self _
  · exact Nat.lt_succ_of_lt (t.fresh loc' inode hold)

def addFile (t : FileTree ν) (loc : List ν) : FileTree ν where
  nodes := t.nodes.put loc (.file t.nextInode)
  contents := t.contents.put t.nextInode []
  nextInode := t.nextInode + 1
  fresh := t.fresh_put_file loc

theorem fresh_erase (t : FileTree ν) (loc : List ν) : ∀ loc' inode,
    (t.nodes.erase loc).find? loc' = some (.file inode) → inode < t.nextInode :=
  fun loc' inode h => t.fresh loc' inode (KeyedMap.find?_erase_cases h).2

def remove (t : FileTree ν) (loc : List ν) : FileTree ν :=
  { t with nodes := t.nodes.erase loc, fresh := t.fresh_erase loc }

theorem fresh_relink (t : FileTree ν) {src : List ν} (hsrc : t.nodes.find? src = some node)
    (dst : List ν) : ∀ loc' inode,
    ((t.nodes.erase src).put dst node).find? loc' = some (.file inode) → inode < t.nextInode := by
  intro loc' inode h
  obtain ⟨-, rfl⟩ | ⟨-, hold⟩ := KeyedMap.find?_put_cases h
  · exact t.fresh src inode hsrc
  · exact t.fresh_erase src loc' inode hold

/-- The node at `src` moves to `dst`, in place of what was there. -/
def move (t : FileTree ν) (src dst : List ν) : FileTree ν :=
  match h : t.nodes.find? src with
  | none => t
  | some node => { t with nodes := (t.nodes.erase src).put dst node, fresh := t.fresh_relink h dst }

def content (t : FileTree ν) (inode : Nat) : Bytes := (t.contents.find? inode).getD []

/-- Bytes are written at the end of a file. -/
def append (t : FileTree ν) (inode : Nat) (data : Bytes) : FileTree ν :=
  { t with contents := t.contents.put inode (t.content inode ++ data) }

def children (t : FileTree ν) (loc : List ν) : List (ν × Node ν) :=
  t.nodes.entries.filterMap fun e =>
    e.1.getLast?.bind fun name => if e.1.dropLast = loc then some (name, e.2) else none

/-! ## The nodes after a change -/

variable {t t' : FileTree ν} {loc loc' src dst : List ν} {path : List (Hop ν)} {nd : Node ν}
  {inode : Nat} {name : ν} {data : Bytes}

theorem node_of_ne (h : loc ≠ []) : t.node loc = t.nodes.find? loc := if_neg h

theorem ne_nil_of_none (h : t.node loc = none) : loc ≠ [] := by
  rintro rfl
  cases h

theorem ne_nil_of_file (h : t.node loc = some (.file inode)) : loc ≠ [] := by
  rintro rfl
  cases h

/-- Only the node at one location changes. -/
theorem node_of_change {new : Option (Node ν)} (h : loc ≠ []) (hself : t'.nodes.find? loc = new)
    (hother : ∀ l, l ≠ loc → t'.nodes.find? l = t.nodes.find? l) :
    t'.node loc' = if loc' = loc then new else t.node loc' := by
  by_cases heq : loc' = loc
  · rw [if_pos heq, heq, node_of_ne h, hself]
  · rw [if_neg heq, node, node, hother loc' heq]

theorem node_addDir (h : loc ≠ []) :
    (t.addDir loc).node loc' = if loc' = loc then some .dir else t.node loc' :=
  node_of_change h KeyedMap.find?_put_self fun _ => KeyedMap.find?_put_of_ne

theorem node_addFile (h : loc ≠ []) :
    (t.addFile loc).node loc' = if loc' = loc then some (.file t.nextInode) else t.node loc' :=
  node_of_change h KeyedMap.find?_put_self fun _ => KeyedMap.find?_put_of_ne

theorem node_remove (h : loc ≠ []) :
    (t.remove loc).node loc' = if loc' = loc then none else t.node loc' :=
  node_of_change h KeyedMap.find?_erase_self fun _ => KeyedMap.find?_erase_of_ne

theorem node_move (hsrc : src ≠ []) (hdst : dst ≠ []) (hnd : t.node src = some nd) :
    (t.move src dst).node loc' =
      if loc' = dst then some nd else if loc' = src then none else t.node loc' := by
  rw [node_of_ne hsrc] at hnd
  have hmove : ∀ l, (t.move src dst).nodes.find? l =
      ((t.nodes.erase src).put dst nd).find? l := by
    intro l
    unfold move
    split
    · rename_i hnone
      rw [hnd] at hnone
      cases hnone
    · rename_i node hsome
      rw [hnd] at hsome
      cases hsome
      rfl
  rw [← node_remove hsrc]
  refine node_of_change hdst ?_ fun l hl => ?_
  · rw [hmove, KeyedMap.find?_put_self]
  · rw [hmove, KeyedMap.find?_put_of_ne hl]
    rfl

theorem node_of_mem_children (h : (name, nd) ∈ t.children loc) :
    t.node (loc ++ [name]) = some nd := by
  obtain ⟨⟨key, nd'⟩, hmem, hentry⟩ := mem_filterMap.1 h
  obtain ⟨name', hlast, hname⟩ := bind_eq_some_iff.1 hentry
  dsimp only at hlast hname
  obtain ⟨hdrop, ⟨⟩⟩ := ite_none_right_eq_some.1 hname
  have hkey : key = loc ++ [name] := by
    rw [← hdrop]
    exact (dropLast_append_getLast? name hlast).symm
  rw [node_of_ne (by simp), ← hkey]
  exact KeyedMap.find?_eq_some.2 hmem

@[simp] theorem content_move : (t.move src dst).content inode = t.content inode := by
  unfold move
  split <;> rfl

theorem content_append_self : (t.append inode data).content inode = t.content inode ++ data := by
  unfold content append
  rw [KeyedMap.find?_put_self]
  rfl

theorem content_append_of_ne {inode' : Nat} (h : inode' ≠ inode) :
    (t.append inode data).content inode' = t.content inode' := by
  unfold content append
  rw [KeyedMap.find?_put_of_ne h]

theorem content_addFile_self : (t.addFile loc).content t.nextInode = [] := by
  unfold content addFile
  rw [KeyedMap.find?_put_self]
  rfl

theorem content_addFile_of_lt (h : inode < t.nextInode) :
    (t.addFile loc).content inode = t.content inode := by
  unfold content addFile
  rw [KeyedMap.find?_put_of_ne (Nat.ne_of_lt h)]

/-- An inode that is in use is older than the next one. -/
theorem lt_nextInode (h : t.node loc = some (.file inode)) : inode < t.nextInode := by
  rw [node_of_ne (ne_nil_of_file h)] at h
  exact t.fresh loc inode h

/-! ## Walks -/

section Walk

variable {follow : Bool} {links : Nat} {name : ν} {rest p q : List (Hop ν)} {absolute : Bool}

theorem advance_dir (h : t.node (loc ++ [name]) = some .dir) :
    t.advance follow loc (.down name :: rest) = t.advance follow (loc ++ [name]) rest := if_pos h

theorem advance_halt (h : t.node (loc ++ [name]) ≠ some .dir) :
    t.advance follow loc (.down name :: rest) =
      halt follow loc name rest (t.node (loc ++ [name])) := if_neg h

/-- The end of a path is reached whatever is there, unless a link is to be followed. -/
theorem advance_last (h : follow = true → ∀ n, t.node (loc ++ [name]) = some n → n.isLink = false) :
    t.advance follow loc [.down name] = .arrived (loc ++ [name]) := by
  by_cases hnode : t.node (loc ++ [name]) = some .dir
  · rw [advance_dir hnode]
    rfl
  · rw [advance_halt hnode]
    exact halt_nil h

/-- The rest of a path is taken from the directory where its first part ends. -/
theorem advance_append (hdir : t.node loc' = some .dir)
    (h : t.advance false loc p = .arrived loc') :
    t.advance follow loc (p ++ q) = t.advance follow loc' q := by
  fun_induction advance t false loc p with
  | case1 loc =>
    cases h
    rfl
  | case2 loc p ih => exact ih h
  | case3 loc name p hnode ih =>
    rw [cons_append, advance_dir hnode]
    exact ih h
  | case4 loc name p hnode =>
    obtain ⟨-, rfl⟩ := halt_eq_arrived h
    exact absurd hdir hnode

theorem advance_append_of_linked (follow : Bool)
    (h : t.advance false loc p = .linked loc' absolute rest) :
    t.advance follow loc (p ++ q) = .linked loc' absolute (rest ++ q) := by
  fun_induction advance t false loc p with
  | case1 loc => cases h
  | case2 loc p ih => exact ih h
  | case3 loc name p hnode ih =>
    rw [cons_append, advance_dir hnode]
    exact ih h
  | case4 loc name p hnode =>
    rw [cons_append, advance_halt hnode]
    obtain ⟨rfl, hne, target, hlink, rfl⟩ := halt_eq_linked h
    rw [hlink, halt]
    simp [hne]

theorem walk_of_arrived (h : t.advance follow loc p = .arrived loc') :
    t.walk follow links loc p = .ok loc' := by
  cases links <;> rw [walk, h]

/-- A walk that ends comes to its end at once, or first to a link. -/
theorem walk_cases (h : t.walk follow links loc p = .ok loc') :
    t.advance follow loc p = .arrived loc' ∨ ∃ left at_ absolute rest, links = left + 1 ∧
      t.advance follow loc p = .linked at_ absolute rest ∧
      t.walk follow left (if absolute then [] else at_) rest = .ok loc' := by
  cases links with
  | zero =>
    unfold walk at h
    split at h <;> cases h
    exact .inl ‹_›
  | succ links =>
    unfold walk at h
    split at h
    · cases h
      exact .inl ‹_›
    · cases h
    · exact .inr ⟨links, _, _, _, rfl, ‹_›, h⟩

theorem walk_append (follow : Bool) (hdir : t.node loc' = some .dir)
    (h : t.walk false links loc p = .ok loc') :
    ∃ left, t.walk follow links loc (p ++ q) = t.walk follow left loc' q := by
  induction links generalizing loc p with
  | zero =>
    obtain harrived | ⟨_, _, _, _, ⟨⟩, -, -⟩ := walk_cases h
    refine ⟨0, ?_⟩
    rw [walk, walk, advance_append hdir harrived]
  | succ links ih =>
    obtain harrived | ⟨_, at_, absolute, rest, ⟨⟩, hlinked, h⟩ := walk_cases h
    · refine ⟨links + 1, ?_⟩
      rw [walk, walk, advance_append hdir harrived]
    · obtain ⟨left, hleft⟩ := ih h
      exact ⟨left, by rw [← hleft, walk, advance_append_of_linked follow hlinked]⟩

theorem advance_end (h : t.advance false loc (p ++ [.down name]) = .arrived loc') :
    ∃ above, loc' = above ++ [name] := by
  induction p generalizing loc with
  | nil => exact ⟨loc, Landing.arrived.inj (h.symm.trans (advance_last nofun))⟩
  | cons hop p ih =>
    cases hop with
    | up => exact ih h
    | down name' =>
      rw [cons_append] at h
      by_cases hnode : t.node (loc ++ [name']) = some .dir
      · rw [advance_dir hnode] at h
        exact ih h
      · rw [advance_halt hnode] at h
        have hnil := (halt_eq_arrived h).1
        simp at hnil

theorem advance_linked_end
    (h : t.advance false loc (p ++ [.down name]) = .linked loc' absolute rest) :
    ∃ q, rest = q ++ [.down name] := by
  induction p generalizing loc with
  | nil => cases h.symm.trans (advance_last nofun)
  | cons hop p ih =>
    cases hop with
    | up => exact ih h
    | down name' =>
      rw [cons_append] at h
      by_cases hnode : t.node (loc ++ [name']) = some .dir
      · rw [advance_dir hnode] at h
        exact ih h
      · rw [advance_halt hnode] at h
        obtain ⟨-, -, target, -, rfl⟩ := halt_eq_linked h
        exact ⟨target ++ p, by rw [append_assoc]⟩

/-- The last name of a path is the last name of the location, whatever links are on the way. -/
theorem locate_end (h : t.locate false (p ++ [.down name]) = .ok loc) :
    ∃ above, loc = above ++ [name] := by
  have hwalk : ∀ links start q, t.walk false links start (q ++ [.down name]) = .ok loc →
      ∃ above, loc = above ++ [name] := by
    intro links
    induction links with
    | zero =>
      intro start q h
      obtain harrived | ⟨_, _, _, _, ⟨⟩, -, -⟩ := walk_cases h
      exact advance_end harrived
    | succ links ih =>
      intro start q h
      obtain harrived | ⟨_, _, _, _, ⟨⟩, hlinked, h⟩ := walk_cases h
      · exact advance_end harrived
      · obtain ⟨q', rfl⟩ := advance_linked_end hlinked
        exact ih _ _ h
  exact hwalk maxLinks [] p h

/-- Without a link at the end it does not matter whether one would be followed. -/
theorem advance_follow (hend : ∀ n, t.node loc' = some n → n.isLink = false)
    (h : t.advance false loc p = .arrived loc') : t.advance true loc p = .arrived loc' := by
  fun_induction advance t false loc p with
  | case1 loc => exact h
  | case2 loc p ih => exact ih h
  | case3 loc name p hnode ih =>
    rw [advance_dir hnode]
    exact ih h
  | case4 loc name p hnode =>
    obtain ⟨rfl, rfl⟩ := halt_eq_arrived h
    exact advance_last fun _ => hend

theorem advance_follow_of_linked (h : t.advance false loc p = .linked loc' absolute rest) :
    t.advance true loc p = .linked loc' absolute rest := by
  have happend := advance_append_of_linked true (q := []) h
  rwa [append_nil, append_nil] at happend

/-- A walk that ends is the same in another tree, or with links followed at the end, if each part
of it up to a link is. -/
theorem walk_of_advance {follow' : Bool}
    (harrived : ∀ start p, t.advance follow start p = .arrived loc →
      t'.advance follow' start p = .arrived loc)
    (hlinked : ∀ start p at_ absolute rest, t.advance follow start p = .linked at_ absolute rest →
      t'.advance follow' start p = .linked at_ absolute rest) {start : List ν}
    (h : t.walk follow links start p = .ok loc) : t'.walk follow' links start p = .ok loc := by
  induction links generalizing start p with
  | zero =>
    obtain heq | ⟨_, _, _, _, ⟨⟩, -, -⟩ := walk_cases h
    exact walk_of_arrived (harrived _ _ heq)
  | succ links ih =>
    obtain heq | ⟨_, _, _, _, ⟨⟩, heq, h⟩ := walk_cases h
    · exact walk_of_arrived (harrived _ _ heq)
    · rw [walk, hlinked _ _ _ _ _ heq]
      exact ih h

theorem locate_follow (hend : ∀ n, t.node loc = some n → n.isLink = false)
    (h : t.locate false path = .ok loc) : t.locate true path = .ok loc :=
  walk_of_advance (fun _ _ => advance_follow hend) (fun _ _ _ _ _ => advance_follow_of_linked) h

end Walk

/-! ## Directories without a link at the end -/

/-- The path ends at a directory that it does not reach through a link at its end. -/
structure RealDir (t : FileTree ν) (path : List (Hop ν)) (loc : List ν) : Prop where
  located : t.locate false path = .ok loc
  dir : t.node loc = some .dir

def isRealDir (t : FileTree ν) (path : List (Hop ν)) : Bool :=
  match t.locate false path with
  | .ok loc => t.node loc = some .dir
  | .error _ => false

theorem realDir_of_isRealDir (h : t.isRealDir path = true) : ∃ loc, t.RealDir path loc := by
  unfold isRealDir at h
  split at h
  · rename_i loc hloc
    exact ⟨loc, hloc, of_decide_eq_true h⟩
  · cases h

theorem RealDir.locate_join (h : t.RealDir path loc) (name : ν) :
    t.locate false (path ++ [.down name]) = .ok (loc ++ [name]) := by
  obtain ⟨left, hleft⟩ := walk_append false (q := [.down name]) h.dir h.located
  rw [locate, hleft]
  exact walk_of_arrived (advance_last nofun)

theorem RealDir.join (h : t.RealDir path loc) (hdir : t.node (loc ++ [name]) = some .dir) :
    t.RealDir (path ++ [.down name]) (loc ++ [name]) :=
  ⟨h.locate_join name, hdir⟩

/-- The location is found again through `stat`. -/
theorem stat_eq_ok {follow : Bool} (h : t.stat follow path = .ok nd) :
    ∃ loc, t.locate follow path = .ok loc ∧ t.node loc = some nd := by
  unfold stat at h
  split at h
  · rename_i loc hloc
    refine ⟨loc, hloc, ?_⟩
    cases hnode : t.node loc with
    | none =>
      rw [hnode] at h
      cases h
    | some n =>
      rw [hnode] at h
      exact congrArg some (Except.ok.inj h)
  · cases h

theorem RealDir.stat (h : t.RealDir path loc) : t.stat true path = .ok .dir := by
  have hfollow := locate_follow (fun n hn => by rw [h.dir] at hn; cases hn; rfl) h.located
  rw [FileTree.stat, hfollow]
  dsimp only
  rw [h.dir]
  rfl

/-- What is a directory through a link at the end and no link by itself is a real directory. -/
theorem realDir_of_stat (hstat : t.stat true path = .ok .dir) (hlstat : t.stat false path = .ok nd)
    (hlink : nd.isLink = false) : ∃ loc, t.RealDir path loc := by
  obtain ⟨loc, hloc, hnode⟩ := stat_eq_ok hlstat
  obtain ⟨loc', hloc', hdir⟩ := stat_eq_ok hstat
  have hfollow := locate_follow (fun n hn => by rw [hnode] at hn; cases hn; exact hlink) hloc
  rw [hfollow] at hloc'
  cases hloc'
  exact ⟨loc, hloc, hdir⟩

/-! ## Changes that leave directories and links alone -/

structure Extends (t t' : FileTree ν) : Prop where
  dir : ∀ loc, t.node loc = some .dir → t'.node loc = some .dir
  link : ∀ loc absolute target, t.node loc = some (.link absolute target) →
    t'.node loc = some (.link absolute target)

namespace Extends

variable {p rest : List (Hop ν)} {absolute : Bool}

theorem refl (t : FileTree ν) : Extends t t := ⟨fun _ h => h, fun _ _ _ h => h⟩

theorem trans {u : FileTree ν} (h : Extends t t') (h' : Extends t' u) : Extends t u :=
  ⟨fun loc hdir => h'.dir loc (h.dir loc hdir),
    fun loc absolute target hlink => h'.link loc absolute target (h.link loc absolute target hlink)⟩

/-- A change at one location that was neither a directory nor a link. -/
theorem of_change (loc : List ν) (hnode : ∀ n, t.node loc = some n → ∃ inode, n = .file inode)
    (hsame : ∀ loc', loc' ≠ loc → t'.node loc' = t.node loc') : Extends t t' := by
  refine ⟨fun loc' h => ?_, fun loc' absolute target h => ?_⟩
  · rw [hsame loc' (by rintro rfl; obtain ⟨inode, hfile⟩ := hnode _ h; cases hfile)]
    exact h
  · rw [hsame loc' (by rintro rfl; obtain ⟨inode, hfile⟩ := hnode _ h; cases hfile)]
    exact h

theorem advance (hext : Extends t t') (h : t.advance false loc p = .arrived loc') :
    t'.advance false loc p = .arrived loc' := by
  fun_induction FileTree.advance t false loc p with
  | case1 loc => exact h
  | case2 loc p ih => exact ih h
  | case3 loc name p hnode ih =>
    rw [advance_dir (hext.dir _ hnode)]
    exact ih h
  | case4 loc name p hnode =>
    obtain ⟨rfl, rfl⟩ := halt_eq_arrived h
    exact advance_last nofun

theorem advance_linked (hext : Extends t t')
    (h : t.advance false loc p = .linked loc' absolute rest) :
    t'.advance false loc p = .linked loc' absolute rest := by
  fun_induction FileTree.advance t false loc p with
  | case1 loc => cases h
  | case2 loc p ih => exact ih h
  | case3 loc name p hnode ih =>
    rw [advance_dir (hext.dir _ hnode)]
    exact ih h
  | case4 loc name p hnode =>
    obtain ⟨rfl, hne, target, hlink, rfl⟩ := halt_eq_linked h
    have hlink' := hext.link _ _ _ hlink
    rw [advance_halt (by rw [hlink']; exact nofun), hlink', halt]
    simp [hne]

/-- A new file at a free place. -/
theorem of_addFile (hfree : t.node loc = none) : Extends t (t.addFile loc) := by
  apply of_change loc
  · intro n hn
    rw [hfree] at hn
    cases hn
  · intro loc' hne
    rw [node_addFile (ne_nil_of_none hfree), if_neg hne]

/-- A file moves to a free place or to that of another file. -/
theorem of_move (hfile : t.node src = some (.file inode)) (hne : dst ≠ [])
    (hdst : ∀ n, t.node dst = some n → ∃ i, n = .file i) : Extends t (t.move src dst) := by
  have hkept : ∀ l n, t.node l = some n → (∀ i, n ≠ .file i) →
      (t.move src dst).node l = some n := by
    intro l n hl hn
    rw [node_move (ne_nil_of_file hfile) hne hfile, if_neg, if_neg]
    · exact hl
    · rintro rfl
      rw [hfile] at hl
      exact hn inode (some.inj hl).symm
    · rintro rfl
      obtain ⟨i, rfl⟩ := hdst n hl
      exact hn i rfl
  constructor
  · intro l hl
    exact hkept l _ hl Node.dir_ne_file
  · intro l absolute target hl
    exact hkept l _ hl (Node.link_ne_file absolute target)

/-- A path leads to the same location as before. -/
theorem locate (hext : Extends t t') (h : t.locate false path = .ok loc) :
    t'.locate false path = .ok loc :=
  walk_of_advance (fun _ _ => hext.advance) (fun _ _ _ _ _ => hext.advance_linked) h

theorem realDir (hext : Extends t t') (h : t.RealDir path loc) : t'.RealDir path loc :=
  ⟨hext.locate h.located, hext.dir loc h.dir⟩

end Extends

end FileTree

end RivetLink.Foundation
