import Vmlab.Workspace.Scan

/-!
# Which paths are the guest's own

The layered ignore rules of a workspace and the prune list of its guest's watcher. What one rule file says about a
path is the matcher's answer, a parameter; the digest of the rule files is left out.
-/

namespace Vmlab.Workspace.Ignore

open Library (SortedMap)
open List

inductive Verdict where
  | synced
  | guestOwned
  deriving DecidableEq

inductive Match where
  | none
  | ignore
  | whitelist
  deriving DecidableEq

/-- What a rule file says about a path below its directory, as a directory or not. -/
abbrev Gitignore := Path → Bool → Match

structure DirRules where
  vmlab : Option Gitignore
  git : Option Gitignore

structure PruneCandidates where
  excluded : List Path
  negated : List Path

structure Ignores where
  floor : Gitignore
  dirs : Path → Option DirRules
  prune : PruneCandidates

/-- The part before the last separator; the root, `[]`, where there is none. -/
def parentOf (rel : Path) : Path := ((rel.reverse.dropWhile (· ≠ '/')).drop 1).reverse

def relativeTo (dir rel : Path) : Path := if dir = [] then rel else rel.drop (dir.length + 1)

def isGlob (part : Path) : Bool := part.any ['*', '?', '[', ']', '\\'].contains

def atOrBelow (path ancestor : Path) : Bool :=
  path == ancestor ||
    (decide (ancestor.length < path.length) && ancestor.isPrefixOf path && path[ancestor.length]? == some '/')

def DirRules.opinion (rules : DirRules) (below : Path) (isDir : Bool) : Option Verdict :=
  [rules.vmlab, rules.git].reduceOption.findSome? fun matcher =>
    match matcher below isDir with
    | .ignore => some .guestOwned
    | .whitelist => some .synced
    | .none => none

namespace Ignores

variable (ignores : Ignores)

/-- The loop of `decide`, from a directory upwards. -/
def closest (rel : Path) (isDir : Bool) : Nat → Path → Option Verdict
  | 0, _ => none
  | fuel + 1, dir =>
    match (ignores.dirs dir).bind fun rules => rules.opinion (relativeTo dir rel) isDir with
    | some verdict => some verdict
    | none => if dir = [] then none else closest rel isDir fuel (parentOf dir)

def decide (rel : Path) (isDir : Bool) : Option Verdict :=
  if ignores.floor rel isDir = .ignore then
    some .guestOwned
  else
    ignores.closest rel isDir (rel.length + 1) (parentOf rel)

/-- The loop of `verdict`, which asks about the part before each separator. -/
def verdictFrom (isDir : Bool) : Path → Path → Verdict
  | before, [] => (ignores.decide before isDir).getD .synced
  | before, char :: rest =>
    if char = '/' ∧ ignores.decide before true = some .guestOwned then
      .guestOwned
    else
      verdictFrom isDir (before ++ [char]) rest

def verdict (rel : Path) (isDir : Bool) : Verdict := ignores.verdictFrom isDir [] rel

def pruneList (discovered : List Path) : List Path :=
  let prefixes := (SortedMap.ofKeys ((ignores.prune.excluded ++ discovered).filter (· ≠ []))).keys
  let prefixes := prefixes.filter fun entry => ignores.verdict entry true = .guestOwned
  let prefixes := prefixes.filter fun entry => !ignores.prune.negated.any (atOrBelow · entry)
  prefixes.filter fun entry => !prefixes.any fun other => other != entry && atOrBelow entry other

end Ignores

section

variable (isWhitespace : Char → Bool)

def trimEnd (dropped : Char → Bool) (text : Path) : Path := (text.reverse.dropWhile dropped).reverse

def PruneCandidates.readLine (candidates : PruneCandidates) (dir line : Path) : PruneCandidates :=
  let pattern := (trimEnd isWhitespace line).dropWhile isWhitespace
  if pattern = [] ∨ pattern.head? = some '#' then
    candidates
  else
    let negated := pattern.head? = some '!'
    let pattern := trimEnd (· == '/') (if negated then pattern.drop 1 else pattern)
    let anchored := '/' ∈ pattern
    let pattern := pattern.dropWhile (· == '/')
    if pattern = [] ∨ ['.', '.'] <:+: pattern then
      candidates
    else if negated then
      let head := (pattern.splitOn '/').takeWhile fun part => !isGlob part
      if anchored ∧ head ≠ [] then
        { candidates with negated := joinRel dir (List.intercalate ['/'] head) :: candidates.negated }
      else
        candidates
    else if (pattern.splitOn '/').any isGlob then
      candidates
    else
      { candidates with excluded := joinRel dir pattern :: candidates.excluded }

/-- Take the rule files of a directory, each as its lines where there is one. -/
def Ignores.readDirRules (build : Path → List Path → Except Fault Gitignore) (ignores : Ignores) (rel : Path)
    (vmlab git : Option (List Path)) : Except Fault Ignores := do
  let vmlabRules ← vmlab.mapM (build rel)
  let gitRules ← git.mapM (build rel)
  let prune := (vmlab.getD [] ++ git.getD []).foldl (fun prune line => prune.readLine isWhitespace rel line)
    ignores.prune
  let rules := if vmlab.isSome ∨ git.isSome then some ⟨vmlabRules, gitRules⟩ else ignores.dirs rel
  pure { ignores with dirs := Function.update ignores.dirs rel rules, prune }

end

/-! ## The guest's watcher -/

def normalise (rel : Path) : Path :=
  List.intercalate ['/'] (((rel.map fun char => if char = '\\' then '/' else char).splitOn '/').filter
    fun part => part ≠ [] ∧ part ≠ ['.'])

def isAtOrBelow (rel ancestor : Path) : Bool :=
  rel == ancestor || (ancestor.isPrefixOf rel && rel[ancestor.length]? == some '/')

structure Watch where
  prune : List Path

def Watch.new (prune : List Path) : Watch := ⟨prune.map normalise⟩

def Watch.isPruned (watch : Watch) (rel : Path) : Bool := watch.prune.any (isAtOrBelow rel)

/-! ## What a prune list covers -/

/-- A directory that may be pruned: one that a rule excludes or that was found on the host, the guest's own and with no
negated rule at it or below. -/
def Ignores.Candidate (ignores : Ignores) (discovered : List Path) (entry : Path) : Prop :=
  entry ∈ ignores.prune.excluded ++ discovered ∧ entry ≠ [] ∧ ignores.verdict entry true = .guestOwned ∧
    ∀ negation ∈ ignores.prune.negated, atOrBelow negation entry = false

section

variable {ignores : Ignores} {rel rest before entry dir : Path} {isDir : Bool}

theorem verdictFrom_below (owned : ignores.verdictFrom true before rel = .guestOwned) :
    ignores.verdictFrom isDir before (rel ++ '/' :: rest) = .guestOwned := by
  induction rel generalizing before with
  | nil =>
    rw [Ignores.verdictFrom] at owned
    rw [nil_append, Ignores.verdictFrom, if_pos]
    cases found : ignores.decide before true with
    | none => simp [found] at owned
    | some verdict =>
      rw [found] at owned
      exact ⟨rfl, congrArg some owned⟩
  | cons char rel ih =>
    rw [Ignores.verdictFrom] at owned
    rw [cons_append, Ignores.verdictFrom]
    split at owned
    · next stops => rw [if_pos stops]
    · next goes =>
      rw [if_neg goes]
      exact ih owned

theorem isAtOrBelow_cases {ancestor : Path} (covered : isAtOrBelow rel ancestor = true) :
    rel = ancestor ∨ ∃ rest, rel = ancestor ++ '/' :: rest := by
  simp only [isAtOrBelow, Bool.or_eq_true, beq_iff_eq, Bool.and_eq_true, isPrefixOf_iff_prefix] at covered
  rcases covered with same | ⟨⟨tail, rfl⟩, next⟩
  · exact .inl same
  rw [getElem?_append_right le_rfl, Nat.sub_self] at next
  cases tail with
  | nil => cases next
  | cons char rest =>
    cases next
    exact .inr ⟨rest, rfl⟩

theorem mem_pruneList {discovered : List Path} : entry ∈ ignores.pruneList discovered ↔
    ignores.Candidate discovered entry ∧
      ∀ other, ignores.Candidate discovered other → atOrBelow entry other = true → other = entry := by
  have candidate (path : Path) : path ∈ ((SortedMap.ofKeys
      ((ignores.prune.excluded ++ discovered).filter (· ≠ []))).keys.filter fun path =>
        ignores.verdict path true = .guestOwned).filter (fun path => !ignores.prune.negated.any (atOrBelow · path)) ↔
      ignores.Candidate discovered path := by
    simp only [List.mem_filter, SortedMap.mem_ofKeys, Ignores.Candidate, decide_eq_true_eq, Bool.not_eq_true',
      any_eq_false, Bool.not_eq_true, and_assoc]
  rw [Ignores.pruneList, List.mem_filter, candidate]
  refine and_congr_right fun _ => ?_
  simp only [Bool.not_eq_true', any_eq_false, candidate, bne, Bool.and_eq_true, beq_eq_false_iff_ne, not_and]
  exact forall₂_congr fun _ _ => not_imp_not

end

/-- The watcher drops no path that is synced. -/
def KeepsSynced (ignores : Ignores) (discovered : List Path) : Prop :=
  ∀ rel isDir, ignores.verdict rel isDir = .synced → (Watch.new (ignores.pruneList discovered)).isPruned rel = false

/-- A prune list keeps every synced path exactly where each candidate that is below no other one is the guest's own,
as a directory or not, in the guest's spelling. -/
theorem keepsSynced_iff (ignores : Ignores) (discovered : List Path) :
    KeepsSynced ignores discovered ↔ ∀ entry, ignores.Candidate discovered entry →
      (∀ other, ignores.Candidate discovered other → atOrBelow entry other = true → other = entry) →
        ∀ isDir, ignores.verdict (normalise entry) isDir = .guestOwned := by
  constructor
  · intro keeps entry candidate topmost isDir
    cases owned : ignores.verdict (normalise entry) isDir with
    | guestOwned => rfl
    | synced =>
      have missed := keeps _ _ owned
      rw [Watch.isPruned, any_eq_false] at missed
      exact absurd (by simp [isAtOrBelow]) (missed _ (mem_map_of_mem (mem_pruneList.mpr ⟨candidate, topmost⟩)))
  intro entries rel isDir synced
  rw [Watch.isPruned, any_eq_false]
  rintro ancestor member covered
  obtain ⟨entry, listed, rfl⟩ := mem_map.mp member
  obtain ⟨candidate, topmost⟩ := mem_pruneList.mp listed
  have dir := entries entry candidate topmost
  have owned : ignores.verdict rel isDir = .guestOwned := by
    rcases isAtOrBelow_cases covered with rfl | ⟨rest, rfl⟩
    · exact dir isDir
    · exact verdictFrom_below (dir true)
  rw [owned] at synced
  cases synced

/-- What a rule file with the line `build/` says: the rule is for directories. -/
def buildDirOnly : Gitignore := fun rel isDir => if rel = "build".toList ∧ isDir = true then .ignore else .none

/-- A file with the name of an ignored directory is synced, and the watcher drops its changes. -/
theorem file_named_build_pruned : ∃ ignores, Ignores.readDirRules Char.isWhitespace (fun _ _ => .ok buildDirOnly)
        ⟨fun _ _ => .none, fun _ => none, ⟨[], []⟩⟩ [] none (some ["build/".toList]) = .ok ignores ∧
      ignores.verdict "build".toList false = .synced ∧
      (Watch.new (ignores.pruneList [])).isPruned "build".toList = true := by
  refine ⟨_, rfl, ?_, ?_⟩ <;> decide +kernel

end Vmlab.Workspace.Ignore
