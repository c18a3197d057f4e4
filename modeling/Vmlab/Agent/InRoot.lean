import Mathlib

/-!
# Paths inside a container's root

The agent's `resolve` (`unix/in_root.rs`) beside the kernel's resolution in a chroot. What the walk has reached holds
no link, so `readlink` follows none on the way to it.
-/

namespace Vmlab.Agent.InRoot

open List

abbrev Path := List Char

abbrev Name := List Char

inductive Component where
  | parentDir
  | normal (name : Name)
  deriving DecidableEq

inductive Last where
  | follow
  | keep
  deriving DecidableEq

inductive Node where
  | file
  | dir (entries : List (Name × Node))
  | link (target : Path)

def maxLinks : Nat := 40

def Node.child (name : Name) : Node → Option Node
  | .dir entries => (entries.find? fun entry => entry.1 = name).map Prod.snd
  | _ => none

def Node.at (node : Node) : List Name → Option Node
  | [] => some node
  | name :: rest => (node.child name).bind fun next => next.at rest

def Node.readLink (tree : Node) (path : List Name) : Option Path :=
  match tree.at path with
  | some (.link target) => some target
  | _ => none

def isAbsolute (path : Path) : Bool := path.head? = some '/'

/-- A piece between two slashes; an empty one and `.` name nothing. -/
def Component.of (piece : Name) : Option Component :=
  if piece = [] ∨ piece = ['.'] then none else if piece = ['.', '.'] then some .parentDir else some (.normal piece)

def components (path : Path) : List Component := (path.splitOn '/').filterMap Component.of

/-- The loop of `resolve`; `none` is its error, too many levels of symbolic links. -/
def walk (tree : Node) (last : Last) (inside : List Name) (pending : List Component) (links : Nat) :
    Option (List Name) :=
  match pending with
  | [] => some inside
  | .parentDir :: pending => walk tree last inside.dropLast pending links
  | .normal component :: pending =>
    match if pending.isEmpty ∧ last = .keep then none else tree.readLink (inside ++ [component]) with
    | none => walk tree last (inside ++ [component]) pending links
    | some target =>
      if maxLinks < links + 1 then none
      else walk tree last (if isAbsolute target then [] else inside) (components target ++ pending) (links + 1)
termination_by (maxLinks - links, pending.length)

def resolve (root : List Name) (tree : Node) (path : Path) (last : Last) : Option (List Name) :=
  (walk tree last [] (components path) 0).map (root ++ ·)

/-! ## Resolution in a chroot -/

def Node.isDir (tree : Node) (path : List Name) : Bool := tree.at path matches some (.dir _)

def endsInDir (path : Path) : Bool := (path.splitOn '/').getLast? matches some [] | some ['.']

/-- Why the kernel finds nothing: a component is missing or stands below no directory, or there are too many links. -/
inductive Errno where
  | absent
  | loop

/-- The kernel's walk. A `.` before another component asks for a directory, as that component does; one at the end, or a
slash there, does so through `inDir`. -/
def chroot (tree : Node) (last : Last) (inDir : Bool) (here : List Name) (pending : List Component) (links : Nat) :
    Except Errno (List Name) :=
  match pending with
  | [] => if inDir && !tree.isDir here then .error .absent else .ok here
  | component :: pending =>
    if tree.isDir here then
      match component with
      | .parentDir => chroot tree last inDir here.dropLast pending links
      | .normal name =>
        match tree.at (here ++ [name]) with
        | none => .error .absent
        | some (.link target) =>
          if pending.isEmpty ∧ last = .keep ∧ inDir = false then .ok (here ++ [name])
          else if maxLinks < links + 1 then .error .loop
          else
            chroot tree last (inDir || pending.isEmpty && endsInDir target) (if isAbsolute target then [] else here)
              (components target ++ pending) (links + 1)
        | some _ => chroot tree last inDir (here ++ [name]) pending links
    else .error .absent
termination_by (maxLinks - links, pending.length)

variable {tree : Node} {last : Last} {inside out : List Name} {pending : List Component} {links : Nat}

/-- The walk goes the kernel's way, as far as the kernel finds what is named. -/
theorem walk_of_chroot {inDir : Bool} {result : Except Errno (List Name)} (kept : last = .keep → inDir = false)
    (resolved : chroot tree last inDir inside pending links = result) (found : result ≠ .error .absent) :
    walk tree last inside pending links = result.toOption := by
  subst resolved
  fun_induction chroot tree last inDir inside pending links with
  | case1 | case4 | case9 => exact absurd rfl found
  | case2 =>
    rw [walk]
    rfl
  | case3 _ _ _ _ _ ih =>
    rw [walk]
    exact ih kept found
  | case5 inDir here links pending _ name target there keeps =>
    obtain ⟨none, keep, -⟩ := keeps
    rw [isEmpty_iff.mp none, walk, if_pos ⟨rfl, keep⟩]
    rw [walk]
    rfl
  | case6 inDir here links pending _ name target there follows many =>
    have asked : ¬(pending.isEmpty ∧ last = .keep) := fun same => follows ⟨same.1, same.2, kept same.2⟩
    rw [walk, if_neg asked, Node.readLink, there]
    simp only [if_pos many]
    rfl
  | case7 inDir here links pending _ name target there follows more ih =>
    have asked : ¬(pending.isEmpty ∧ last = .keep) := fun same => follows ⟨same.1, same.2, kept same.2⟩
    rw [walk, if_neg asked, Node.readLink, there]
    simp only [if_neg more]
    refine ih (fun keep => ?_) found
    rw [kept keep, Bool.false_or, Bool.and_eq_false_iff]
    exact .inl (by simpa [keep] using asked)
  | case8 inDir here links pending _ name node plain there ih =>
    have unfollowed : tree.readLink (here ++ [name]) = none := by
      rw [Node.readLink, there]
      cases node with
      | link target => exact (plain target rfl).elim
      | file | dir entries => rfl
    rw [walk, unfollowed, ite_self]
    exact ih kept found

/-- No part of a path is a link. -/
def Plain (tree : Node) (inside : List Name) : Prop := ∀ path ≠ [], path <+: inside → tree.readLink path = none

theorem Plain.nil : Plain tree [] := fun _ some reaches => absurd (prefix_nil.mp reaches) some

theorem Plain.concat {component : Name} (plain : Plain tree inside)
    (found : tree.readLink (inside ++ [component]) = none) : Plain tree (inside ++ [component]) := by
  intro path some reaches
  rcases prefix_concat_iff.mp reaches with rfl | before
  · exact found
  · exact plain path some before

theorem walk_plain (plain : Plain tree inside) (walked : walk tree last inside pending links = some out) :
    ∀ path ≠ [], path <+: out → tree.readLink path = none ∨ path = out ∧ last = .keep := by
  fun_induction walk tree last inside pending links with
  | case1 inside links =>
    cases walked
    exact fun path some reaches => .inl (plain path some reaches)
  | case2 inside links pending ih =>
    exact ih (fun path some reaches => plain path some (reaches.trans (List.dropLast_prefix _))) walked
  | case3 inside links component pending unfollowed ih =>
    split at unfollowed
    · next kept =>
      obtain ⟨none, keep⟩ := kept
      rw [isEmpty_iff.mp none, walk] at walked
      cases walked
      intro path some reaches
      rcases prefix_concat_iff.mp reaches with rfl | before
      · exact .inr ⟨rfl, keep⟩
      · exact .inl (plain path some before)
    · exact ih (plain.concat unfollowed) walked
  | case4 => cases walked
  | case5 inside links component pending target followed more ih =>
    refine ih ?_ walked
    split
    · exact .nil
    · exact plain

/-- A plain name: it leads neither up nor out. -/
def Normal (name : Name) : Prop := name ≠ [] ∧ name ≠ ['.'] ∧ name ≠ ['.', '.'] ∧ '/' ∉ name

theorem not_mem_of_mem_splitOn {path : Path} {piece : Name} (isPiece : piece ∈ path.splitOn '/') : '/' ∉ piece := by
  induction path generalizing piece with
  | nil =>
    rw [splitOn_nil, mem_singleton] at isPiece
    exact isPiece ▸ not_mem_nil
  | cons char path ih =>
    rw [splitOn, splitOnP_cons_eq_if_modifyHead] at isPiece
    split at isPiece
    · rcases mem_cons.mp isPiece with rfl | later
      · exact not_mem_nil
      · exact ih later
    next other =>
    obtain ⟨first, rest, pieces⟩ := exists_cons_of_ne_nil (splitOnP_ne_nil (· == '/') path)
    rw [pieces, modifyHead_cons] at isPiece
    rcases mem_cons.mp isPiece with rfl | later
    · rw [mem_cons, not_or]
      refine ⟨fun same => other (by simp [← same]), ih ?_⟩
      rw [splitOn, pieces]
      exact mem_cons_self
    · refine ih ?_
      rw [splitOn, pieces]
      exact mem_cons_of_mem _ later

theorem normal_of_mem_components {path : Path} {name : Name} (named : .normal name ∈ components path) :
    Normal name := by
  obtain ⟨piece, isPiece, kind⟩ := mem_filterMap.mp named
  unfold Component.of at kind
  split at kind
  · cases kind
  next some =>
  split at kind
  · cases kind
  next inner =>
  cases kind
  rw [not_or] at some
  exact ⟨some.1, some.2, inner, not_mem_of_mem_splitOn isPiece⟩

theorem walk_normal (reached : ∀ name ∈ inside, Normal name) (named : ∀ name, .normal name ∈ pending → Normal name)
    (walked : walk tree last inside pending links = some out) : ∀ name ∈ out, Normal name := by
  fun_induction walk tree last inside pending links with
  | case1 inside links =>
    cases walked
    exact reached
  | case2 inside links pending ih =>
    exact ih (fun name member => reached name (mem_of_mem_dropLast member))
      (fun name member => named name (mem_cons_of_mem _ member)) walked
  | case3 inside links component pending unfollowed ih =>
    refine ih (fun name member => ?_) (fun name member => named name (mem_cons_of_mem _ member)) walked
    rcases mem_append.mp member with before | isLast
    · exact reached name before
    · exact mem_singleton.mp isLast ▸ named component mem_cons_self
  | case4 => cases walked
  | case5 inside links component pending target followed more ih =>
    refine ih (fun name member => ?_) (fun name member => ?_) walked
    · split at member
      · cases member
      · exact reached name member
    · rcases mem_append.mp member with inTarget | later
      · exact normal_of_mem_components inTarget
      · exact named name (mem_cons_of_mem _ later)

end Vmlab.Agent.InRoot
