import Mathlib

/-!
# Flattening image layers

`survey_layers`, `apply_entry`, `stream_survivors` and `normalise` of `oci/image/flatten.rs`. A path is the list of
its components. The survivor map is a function. Reading the blobs, their digests and the squashfs writer are left out.
-/

namespace Vmlab.Oci

open List

abbrev Name := List Char

abbrev Path := List Name

inductive Component where
  | normal (name : Name)
  | curDir
  | parentDir
  | rootDir
  | drive

inductive Kind where
  | regular (content : List UInt8)
  | directory
  | symlink (target : Name)
  | link (target : Path)
  deriving DecidableEq

structure Entry where
  path : List Component
  kind : Kind

abbrev Layer := List Entry

def normalComponents : List Component → Option Path
  | [] => some []
  | .normal name :: rest => (normalComponents rest).map (name :: ·)
  | .curDir :: rest => normalComponents rest
  | .rootDir :: _ | .parentDir :: _ | .drive :: _ => none

def normalise (path : List Component) : Option Path := (normalComponents path).filter (· != [])

def whiteoutPrefix : Name := ".wh.".toList

def opaqueMarker : Name := ".wh..wh..opq".toList

def baseOf (name : Path) : Name := name.getLastD []

def below (path dir : Path) : Bool := dir.isPrefixOf path && dir != path

def stripWhiteout (base : Name) : Option Name :=
  if whiteoutPrefix.isPrefixOf base then some (base.drop whiteoutPrefix.length) else none

abbrev Winners := Path → Option Nat

section

variable (winners : Winners)

def Winners.retain (keep : Path → Nat → Bool) : Winners := fun path =>
  (winners path).filter (keep path)

def Winners.insert (name : Path) (layer : Nat) : Winners := fun path =>
  if path = name then some layer else winners path

def applyEntry (layer : Nat) (name : Path) (kind : Kind) : Winners :=
  if baseOf name = opaqueMarker then
    winners.retain fun path owner => owner == layer || !below path name.dropLast
  else
    match stripWhiteout (baseOf name) with
    | some target =>
      winners.retain fun path owner =>
        owner == layer || !(path == name.dropLast ++ [target] || below path (name.dropLast ++ [target]))
    | none =>
      -- A non-directory shadows any lower directory tree at its path.
      let kept :=
        if kind ≠ .directory then winners.retain fun path owner => owner == layer || !below path name else winners
      Winners.insert kept name layer

end

def surveyLayer (layer : Nat) (winners : Winners) (entries : Layer) : Winners :=
  entries.foldl (fun winners entry =>
    match normalise entry.path with
    | none => winners
    | some name => applyEntry winners layer name entry.kind) winners

def surveyFrom (layer : Nat) : List Layer → Winners → Winners
  | [], winners => winners
  | entries :: above, winners => surveyFrom (layer + 1) above (surveyLayer layer winners entries)

def surveyLayers (layers : List Layer) : Winners := surveyFrom 0 layers fun _ => none

structure Item where
  path : Path
  kind : Kind

def survivor (winners : Winners) (layer : Nat) (entry : Entry) : Option Item :=
  match normalise entry.path with
  | none => none
  | some name =>
    if whiteoutPrefix.isPrefixOf (baseOf name) then none
    else if winners name ≠ some layer then none
    else some ⟨name, entry.kind⟩

def streamFrom (layer : Nat) (winners : Winners) : List Layer → List Item
  | [] => []
  | entries :: above => entries.filterMap (survivor winners layer) ++ streamFrom (layer + 1) winners above

def streamSurvivors (layers : List Layer) (winners : Winners) : List Item := streamFrom 0 winners layers

def flatten (layers : List Layer) : List Item := streamSurvivors layers (surveyLayers layers)

/-! ### The tree a stack of layers stands for -/

inductive Node where
  | file (content : List UInt8)
  | symlink (target : Name)
  | directory
  | implied
  deriving DecidableEq

def Node.shape : Node → Node
  | .implied => .directory
  | node => node

abbrev Tree := Path → Option Node

def Tree.empty : Tree := fun _ => none

def Tree.shape (tree : Tree) : Tree := fun path => (tree path).map Node.shape

def ancestors (path : Path) : List Path := path.inits.filter fun dir => dir != [] && dir != path

section

variable (tree : Tree)

def Tree.blocked (path : Path) : Bool :=
  (ancestors path).any fun dir =>
    match tree dir with
    | some node => node.shape != .directory
    | none => false

def Tree.nodeFor (item : Item) : Option Node :=
  match item.kind with
  | .regular content => some (.file content)
  | .directory => some .directory
  | .symlink target => some (.symlink target)
  | .link target =>
    if item.path.isPrefixOf target then none else (tree target).filter fun node => node.shape != .directory

def Tree.put (path : Path) (node : Node) : Tree := fun other =>
  if other = path then some node
  else if other ∈ ancestors path then some ((tree other).getD .implied)
  else if below other path && node != .directory then none
  else tree other

def Tree.extract (item : Item) : Option Tree :=
  if tree.blocked item.path then none else (tree.nodeFor item).map (tree.put item.path)

end

def extractAll (items : List Item) : Option Tree := items.foldlM Tree.extract Tree.empty

/-! ### Layers -/

def marks (name path : Path) : Bool :=
  if baseOf name = opaqueMarker then below path name.dropLast
  else
    match stripWhiteout (baseOf name) with
    | some target => (name.dropLast ++ [target]).isPrefixOf path
    | none => false

def erases (layer : Layer) (path : Path) : Bool :=
  layer.any fun entry =>
    match normalise entry.path with
    | some name => marks name path
    | none => false

def itemOf (entry : Entry) : Option Item :=
  match normalise entry.path with
  | some name => if whiteoutPrefix.isPrefixOf (baseOf name) then none else some ⟨name, entry.kind⟩
  | none => none

def items (layer : Layer) : List Item := layer.filterMap itemOf

def Tree.erase (tree : Tree) (gone : Path → Bool) : Tree := fun path => if gone path then none else tree path

def applyLayer (tree : Tree) (layer : Layer) : Option Tree :=
  (items layer).foldlM Tree.extract (tree.erase (erases layer))

def applyLayers (layers : List Layer) : Option Tree := layers.foldlM applyLayer Tree.empty

/-! ### Which entries survive -/

variable {path name : Path} {layer : Nat}

def Item.isDirectory (item : Item) : Bool := item.kind == .directory

def writes (items : List Item) (path : Path) : Bool := items.any (·.path == path)

def shadows (items : List Item) (path : Path) : Bool :=
  items.any fun item => !item.isDirectory && below path item.path

def kills (layer : Layer) (path : Path) : Bool := erases layer path || shadows (items layer) path

def doomed (above : List Layer) (path : Path) : Bool :=
  above.any fun layer => writes (items layer) path || kills layer path

theorem below_iff {dir : Path} : below path dir = true ↔ dir <+: path ∧ dir ≠ path := by
  simp [below]

theorem isPrefixOf_eq (dir path : Path) : dir.isPrefixOf path = (path == dir || below path dir) := by
  rw [Bool.eq_iff_iff]
  simp only [Bool.or_eq_true, beq_iff_eq, below_iff, isPrefixOf_iff_prefix]
  constructor
  · intro starts
    by_cases same : path = dir
    · exact .inl same
    · exact .inr ⟨starts, Ne.symm same⟩
  rintro (rfl | inside)
  · exact prefix_rfl
  · exact inside.1

theorem filter_true (before : Option Nat) : (before.filter fun _ => true) = before := by
  cases before <;> rfl

theorem whiteout_of_marker {base : Name} (marker : base = opaqueMarker) : whiteoutPrefix.isPrefixOf base = true := by
  rw [marker]
  decide

variable {kind : Kind} {winners : Winners}

theorem applyEntry_whiteout (whiteout : whiteoutPrefix.isPrefixOf (baseOf name) = true) (path : Path) :
    applyEntry winners layer name kind path = (winners path).filter fun owner => owner == layer || !marks name path := by
  unfold applyEntry marks
  by_cases marker : baseOf name = opaqueMarker
  · rw [if_pos marker, if_pos marker]
    rfl
  rw [if_neg marker, if_neg marker]
  simp only [stripWhiteout, whiteout, if_true, Winners.retain]
  rw [isPrefixOf_eq]

section

variable (plain : whiteoutPrefix.isPrefixOf (baseOf name) = false)
include plain

theorem applyEntry_item (path : Path) : applyEntry winners layer name kind path =
      if path = name then some layer
      else (winners path).filter fun owner => owner == layer || !(!(kind == .directory) && below path name) := by
  have unmarked : baseOf name ≠ opaqueMarker := by
    intro marker
    rw [whiteout_of_marker marker] at plain
    cases plain
  unfold applyEntry
  rw [if_neg unmarked]
  simp only [stripWhiteout, plain, Bool.false_eq_true, if_false, Winners.insert]
  by_cases same : path = name
  · rw [if_pos same, if_pos same]
  rw [if_neg same, if_neg same]
  by_cases directory : kind = .directory
  · simp [directory, filter_true]
  · have other : (kind == .directory) = false := beq_eq_false_iff_ne.mpr directory
    simp [directory, other, Winners.retain]

theorem marks_plain : marks name path = false := by
  have unmarked : baseOf name ≠ opaqueMarker := by
    intro marker
    rw [whiteout_of_marker marker] at plain
    cases plain
  simp [marks, unmarked, stripWhiteout, plain]

end

/-! ### One layer -/

def surveyed (layer : Nat) (entries : Layer) (path : Path) (before : Option Nat) : Option Nat :=
  if writes (items entries) path then some layer
  else before.filter fun owner => owner == layer || !kills entries path

variable {entries : Layer}

theorem surveyed_owned : surveyed layer entries path (some layer) = some layer := by
  unfold surveyed
  split
  · rfl
  · simp

variable {before : Option Nat}

theorem filter_filter_owned {first second : Bool} :
    (before.filter fun owner => owner == layer || !first).filter (fun owner => owner == layer || !second) =
      before.filter fun owner => owner == layer || !(first || second) := by
  cases before with
  | none => rfl
  | some owner =>
    cases same : owner == layer <;> cases first <;> cases second <;> simp [Option.filter, same]

theorem surveyLayer_eq (layer : Nat) (entries : Layer) (winners : Winners) (path : Path) :
    surveyLayer layer winners entries path = surveyed layer entries path (winners path) := by
  induction entries generalizing winners with
  | nil => simp [surveyLayer, surveyed, writes, items, kills, erases, shadows, filter_true]
  | cons entry entries ih =>
    have step : surveyLayer layer winners (entry :: entries) path =
        surveyLayer layer (match normalise entry.path with
          | none => winners
          | some name => applyEntry winners layer name entry.kind) entries path := rfl
    rw [step, ih]
    cases named : normalise entry.path with
    | none => simp [surveyed, kills, erases, items, itemOf, named]
    | some name =>
      dsimp only
      cases whiteout : whiteoutPrefix.isPrefixOf (baseOf name) with
      | true =>
        have same : items (entry :: entries) = items entries := by
          simp [items, itemOf, named, whiteout]
        have gone : kills (entry :: entries) path = (marks name path || kills entries path) := by
          simp only [kills, same, erases, any_cons, named, Bool.or_assoc]
        unfold surveyed
        rw [applyEntry_whiteout whiteout, same, gone, filter_filter_owned]
      | false =>
        have more : items (entry :: entries) = ⟨name, entry.kind⟩ :: items entries := by
          simp [items, itemOf, named, whiteout]
        have gone : kills (entry :: entries) path =
            (!(entry.kind == .directory) && below path name || kills entries path) := by
          simp only [kills, more, erases, shadows, any_cons, named, marks_plain whiteout, Bool.false_or,
            Item.isDirectory]
          rw [← Bool.or_assoc, Bool.or_comm (entries.any _), Bool.or_assoc]
        rw [applyEntry_item whiteout]
        by_cases here : path = name
        · rw [if_pos here, surveyed_owned]
          simp [surveyed, more, writes, here]
        have apart : (name == path) = false := by simpa using fun equal : name = path => here equal.symm
        rw [if_neg here]
        unfold surveyed
        rw [gone, more]
        simp only [writes, any_cons, apart, Bool.false_or, filter_filter_owned]

/-! ### The whole stack -/

theorem doomed_cons (layer : Layer) (above : List Layer) (path : Path) :
    doomed (layer :: above) path = (writes (items layer) path || kills layer path || doomed above path) := rfl

variable {owner : Nat}

theorem surveyed_of_ne (other : owner ≠ layer) : surveyed layer entries path before = some owner ↔
      before = some owner ∧ (writes (items entries) path || kills entries path) = false := by
  unfold surveyed
  cases written : writes (items entries) path with
  | true => simp [Ne.symm other]
  | false =>
    cases before with
    | none => simp
    | some previous =>
      simp only [Bool.false_eq_true, if_false, Bool.false_or, Option.filter_eq_some_iff, Option.some.injEq]
      constructor
      · rintro ⟨rfl, kept⟩
        exact ⟨rfl, by simpa [other] using kept⟩
      · rintro ⟨rfl, kept⟩
        exact ⟨rfl, by simp [kept]⟩

theorem surveyFrom_of_lt {first : Nat} (lower : owner < first) (above : List Layer) (winners : Winners)
    (path : Path) :
    surveyFrom first above winners path = some owner ↔ winners path = some owner ∧ doomed above path = false := by
  induction above generalizing first winners with
  | nil => simp [surveyFrom, doomed]
  | cons layer above ih =>
    rw [surveyFrom, ih (Nat.lt_succ_of_lt lower), surveyLayer_eq, surveyed_of_ne (Nat.ne_of_lt lower), doomed_cons,
      and_assoc, ← Bool.or_eq_false_iff]

def survivors (above : List Layer) (all : List Item) : List Item := all.filter fun item => !doomed above item.path

def merged : List Layer → List Item
  | [] => []
  | layer :: above => survivors above (items layer) ++ merged above

theorem writes_of_mem {all : List Item} {item : Item} (listed : item ∈ all) : writes all item.path = true :=
  any_eq_true.mpr ⟨item, listed, beq_self_eq_true _⟩

theorem filterMap_survivor (first : Nat) (entries : Layer) (above : List Layer) (winners : Winners) :
    entries.filterMap (survivor (surveyFrom first (entries :: above) winners) first) =
      survivors above (items entries) := by
  have won : ∀ item ∈ items entries,
      surveyFrom first (entries :: above) winners item.path = some first ↔ doomed above item.path = false := by
    intro item listed
    rw [surveyFrom, surveyFrom_of_lt (Nat.lt_succ_self first), surveyLayer_eq, surveyed, if_pos (writes_of_mem listed)]
    simp
  -- The first pass's map is fixed while the entries are filtered.
  generalize surveyFrom first (entries :: above) winners = final at won
  unfold survivors items at *
  induction entries with
  | nil => rfl
  | cons entry entries ih =>
    have rest := ih fun item listed => won item (by
      rw [filterMap_cons]
      split
      · exact listed
      · exact mem_cons_of_mem _ listed)
    rw [filterMap_cons, filterMap_cons]
    cases named : normalise entry.path with
    | none => simpa [survivor, itemOf, named] using rest
    | some name =>
      cases whiteout : whiteoutPrefix.isPrefixOf (baseOf name) with
      | true => simpa [survivor, itemOf, named, whiteout] using rest
      | false =>
        have here := won ⟨name, entry.kind⟩ (by simp [itemOf, named, whiteout])
        dsimp only at here
        cases gone : doomed above name with
        | true =>
          have lost : final name ≠ some first := fun kept => by simp [here.mp kept] at gone
          simpa [survivor, itemOf, named, whiteout, lost, gone] using rest
        | false =>
          have kept : final name = some first := here.mpr gone
          simpa [survivor, itemOf, named, whiteout, kept, gone] using rest

theorem streamFrom_eq (first : Nat) (layers : List Layer) (winners : Winners) :
    streamFrom first (surveyFrom first layers winners) layers = merged layers := by
  induction layers generalizing first winners with
  | nil => rfl
  | cons entries above ih =>
    rw [streamFrom, filterMap_survivor, surveyFrom, ih, merged]

theorem flatten_eq (layers : List Layer) : flatten layers = merged layers := streamFrom_eq 0 layers _

/-! ## The merged tar's tree is the part of the stack's tree that is there to stay -/

open Option (filter_eq_some_iff getD_some bind_eq_some_iff map_some)

/-! ### Trees -/

variable {dir path low : Path} {node : Node} {item : Item} {final : Tree} {layer : Layer}

theorem mem_ancestors : dir ∈ ancestors path ↔ dir ≠ [] ∧ dir <+: path ∧ dir ≠ path := by
  simp only [ancestors, List.mem_filter, mem_inits, Bool.and_eq_true, bne_iff_ne]
  tauto

theorem not_mem_ancestors_of_below (inside : below path dir = true) : path ∉ ancestors dir := by
  intro listed
  obtain ⟨-, up, apart⟩ := mem_ancestors.mp listed
  exact apart (up.eq_of_length_le (below_iff.mp inside).1.length_le)

theorem below_trans (inside : below path dir = true) (starts : path <+: low) : below low dir = true := by
  obtain ⟨up, apart⟩ := below_iff.mp inside
  refine below_iff.mpr ⟨up.trans starts, fun same => apart ?_⟩
  subst same
  exact up.eq_of_length_le starts.length_le

inductive Place (path : Path) (node : Node) (other : Path) : Prop where
  | here (same : other = path)
  | above (listed : other ∈ ancestors path)
  | inside (under : below other path = true) (covers : node ≠ .directory)
  | aside (apart : other ≠ path) (unlisted : other ∉ ancestors path)
      (free : below other path = true → node = .directory)

theorem place (path : Path) (node : Node) (other : Path) : Place path node other := by
  by_cases same : other = path
  · exact .here same
  by_cases listed : other ∈ ancestors path
  · exact .above listed
  by_cases covered : below other path = true ∧ node ≠ .directory
  · exact .inside covered.1 covered.2
  · exact .aside same listed fun under => by_contra fun covers => covered ⟨under, covers⟩

section

variable (tree : Tree)

theorem put_self (path : Path) (node : Node) : tree.put path node path = some node := if_pos rfl

theorem put_above (node : Node) (listed : dir ∈ ancestors path) :
    tree.put path node dir = some ((tree dir).getD .implied) := by
  unfold Tree.put
  rw [if_neg (mem_ancestors.mp listed).2.2, if_pos listed]

theorem put_inside {other : Path} (under : below other path = true)
    (covers : node ≠ .directory) : tree.put path node other = none := by
  unfold Tree.put
  rw [if_neg (Ne.symm (below_iff.mp under).2), if_neg (not_mem_ancestors_of_below under), if_pos]
  simp [under, covers]

theorem put_aside {other : Path} (apart : other ≠ path)
    (unlisted : other ∉ ancestors path) (free : below other path = true → node = .directory) :
    tree.put path node other = tree other := by
  unfold Tree.put
  rw [if_neg apart, if_neg unlisted, if_neg]
  intro covered
  obtain ⟨under, covers⟩ := Bool.and_eq_true_iff.mp covered
  exact bne_iff_ne.mp covers (free under)

end

theorem unblocked_iff {tree : Tree} :
    tree.blocked path = false ↔ ∀ dir ∈ ancestors path, ∀ node, tree dir = some node → node.shape = .directory := by
  unfold Tree.blocked
  rw [any_eq_false]
  constructor
  · intro open_ dir listed node found
    have here := open_ dir listed
    rw [found] at here
    simpa using here
  intro open_ dir listed
  cases found : tree dir with
  | none => simp
  | some node => simp [open_ dir listed node found]

theorem extract_eq_some {tree next : Tree} : tree.extract item = some next ↔
      tree.blocked item.path = false ∧ ∃ node, tree.nodeFor item = some node ∧ tree.put item.path node = next := by
  unfold Tree.extract
  cases tree.blocked item.path <;> simp

section

variable {tree : Tree} (made : tree.nodeFor item = some node)
include made

theorem nodeFor_ne_implied : node ≠ .implied := by
  rintro rfl
  unfold Tree.nodeFor at made
  split at made
  · cases made
  · cases made
  · cases made
  · split at made
    · cases made
    · simp [filter_eq_some_iff, Node.shape] at made

theorem nodeFor_directory : node = .directory ↔ item.isDirectory = true := by
  unfold Tree.nodeFor at made
  cases kind : item.kind with
  | regular content | directory | symlink target =>
    simp only [kind, Option.some.injEq] at made
    simp [← made, Item.isDirectory, kind]
  | link target =>
    simp only [kind] at made
    split at made
    · cases made
    have solid := (filter_eq_some_iff.mp made).2
    simp only [Item.isDirectory, kind]
    constructor
    · rintro rfl
      cases solid
    · intro impossible
      cases impossible

end

def Closed (tree : Tree) : Prop :=
  ∀ path node, tree path = some node → ∀ dir ∈ ancestors path, ∃ up, tree dir = some up ∧ up.shape = .directory

theorem getD_shape {tree : Tree} (open_ : tree.blocked path = false) (listed : dir ∈ ancestors path) :
    ((tree dir).getD .implied).shape = .directory := by
  cases found : tree dir with
  | none => rfl
  | some node => exact unblocked_iff.mp open_ dir listed node found

theorem mem_ancestors_trans {middle : Path} (first : dir ∈ ancestors middle) (second : middle <+: path) :
    dir ∈ ancestors path := by
  obtain ⟨named, up, apart⟩ := mem_ancestors.mp first
  refine mem_ancestors.mpr ⟨named, up.trans second, fun same => apart ?_⟩
  subst same
  exact up.eq_of_length_le second.length_le

theorem Closed.put {tree : Tree} (closed : Closed tree) (open_ : tree.blocked path = false)
    (node : Node) : Closed (tree.put path node) := by
  intro other found held dir listed
  have covered : dir ∈ ancestors path → ∃ up, tree.put path node dir = some up ∧ up.shape = .directory :=
    fun up => ⟨_, put_above tree node up, getD_shape open_ up⟩
  cases place path node other with
  | here same => exact covered (same ▸ listed)
  | above up => exact covered (mem_ancestors_trans listed (mem_ancestors.mp up).2.1)
  | inside under covers =>
    rw [put_inside tree under covers] at held
    cases held
  | aside apart unlisted free =>
    rw [put_aside tree apart unlisted free] at held
    obtain ⟨named, starts, differs⟩ := mem_ancestors.mp listed
    cases place path node dir with
    | here same =>
      subst same
      rw [put_self, free (below_iff.mpr ⟨starts, differs⟩)]
      exact ⟨_, rfl, rfl⟩
    | above up => exact covered up
    | inside under covers => exact absurd (free (below_trans under starts)) covers
    | aside apart unlisted free =>
      rw [put_aside tree apart unlisted free]
      exact closed other found held dir listed

/-! ### Inside a layer -/

/-- The path's node in the stack's tree is there to stay: of this layer so far, or of one below that this layer does
not touch. -/
def Live (all : List Item) (cleared : Path → Bool) (above : List Layer) (done : List Item) (path : Path) : Prop :=
  doomed above path = false ∧
    (writes done path = true ∨ writes all path = false ∧ cleared path = false ∧ shadows all path = false)

instance (all : List Item) (cleared : Path → Bool) (above : List Layer) (done : List Item) (path : Path) :
    Decidable (Live all cleared above done path) :=
  inferInstanceAs (Decidable (_ ∧ _))

structure Mid (all : List Item) (cleared : Path → Bool) (above : List Layer) (done : List Item)
    (tree part : Tree) : Prop where
  sub : ∀ path node, part path = some node → ∃ same, tree path = some same ∧ same.shape = node.shape
  live : ∀ path node, tree path = some node → node ≠ .implied → Live all cleared above done path →
    part path = some node
  old : ∀ path node, tree path = some node → node ≠ .implied → writes done path = false →
    cleared path = false ∧ shadows done path = false
  anchor : ∀ path node, part path = some node → ∃ low kept, path <+: low ∧ part low = some kept ∧
    tree low = some kept ∧ kept ≠ .implied ∧ Live all cleared above done low
  treeClosed : Closed tree
  partClosed : Closed part
  root : tree [] = none

def Spares (above : List Layer) (done : List Item) (item : Item) : Prop :=
  item.isDirectory = false → doomed above item.path = true →
    ∀ earlier ∈ done, below earlier.path item.path = true → doomed above earlier.path = true

def LinkKept (all : List Item) (cleared : Path → Bool) (above : List Layer) (done : List Item) (item : Item) : Prop :=
  match item.kind with
  | .link target => doomed above item.path = false → Live all cleared above done target
  | _ => True

section

variable {all : List Item} {cleared : Path → Bool} {above : List Layer} {done : List Item} {tree part next : Tree}
  {item : Item}

theorem writes_concat (path : Path) : writes (done ++ [item]) path = (writes done path || item.path == path) := by
  simp [writes]

theorem shadows_concat (path : Path) :
    shadows (done ++ [item]) path = (shadows done path || !item.isDirectory && below path item.path) := by
  simp [shadows]

theorem live_concat (apart : path ≠ item.path) :
    Live all cleared above (done ++ [item]) path ↔ Live all cleared above done path := by
  have other : (item.path == path) = false := beq_eq_false_iff_ne.mpr (Ne.symm apart)
  unfold Live
  rw [writes_concat, other, Bool.or_false]

theorem Mid.old_put (mid : Mid all cleared above done tree part)
    (directory : node = .directory ↔ item.isDirectory = true) {found : Node}
    (held : tree.put item.path node path = some found) (explicit : found ≠ .implied)
    (fresh : writes (done ++ [item]) path = false) :
    cleared path = false ∧ shadows (done ++ [item]) path = false := by
  rw [writes_concat, Bool.or_eq_false_iff, beq_eq_false_iff_ne] at fresh
  have before : tree path = some found ∧ (below path item.path = true → item.isDirectory = true) := by
    cases place item.path node path with
    | here same => exact absurd same.symm fresh.2
    | above up =>
      rw [put_above tree node up] at held
      refine ⟨?_, fun under => absurd up (not_mem_ancestors_of_below under)⟩
      cases value : tree path with
      | none =>
        rw [value] at held
        exact absurd (Option.some.inj held).symm explicit
      | some other =>
        rw [value] at held
        exact held
    | inside under covers =>
      rw [put_inside tree under covers] at held
      cases held
    | aside apart unlisted free =>
      rw [put_aside tree apart unlisted free] at held
      exact ⟨held, fun under => directory.mp (free under)⟩
  obtain ⟨kept, open_⟩ := mid.old path found before.1 explicit fresh.1
  refine ⟨kept, ?_⟩
  rw [shadows_concat, open_, Bool.false_or]
  cases under : below path item.path with
  | false => simp
  | true => simp [before.2 under]

theorem Mid.root_put (mid : Mid all cleared above done tree part) (named : item.path ≠ []) (node : Node) :
    tree.put item.path node [] = none := by
  rw [put_aside tree (Ne.symm named) (fun listed => (mem_ancestors.mp listed).1 rfl), mid.root]
  intro under
  exact absurd (prefix_nil.mp (below_iff.mp under).1) named

theorem Spares.free (spares : Spares above done item) (listed : item ∈ all) (gone : doomed above item.path = true)
    (live : Live all cleared above done low) (under : below low item.path = true) : item.isDirectory = true := by
  by_contra solid
  rw [Bool.not_eq_true] at solid
  obtain ⟨stays, written | ⟨-, -, open_⟩⟩ := live
  · obtain ⟨earlier, before, same⟩ := any_eq_true.mp written
    rw [beq_iff_eq] at same
    subst same
    rw [spares solid gone earlier before under] at stays
    cases stays
  have shadowed : shadows all low = true := any_eq_true.mpr ⟨item, listed, by simp [solid, under]⟩
  rw [open_] at shadowed
  cases shadowed

variable (mid : Mid all cleared above done tree part)
include mid

theorem Mid.skip (listed : item ∈ all) (named : item.path ≠ [])
    (spares : Spares above done item) (gone : doomed above item.path = true)
    (extracts : tree.extract item = some next) : Mid all cleared above (done ++ [item]) next part := by
  obtain ⟨open_, node, made, rfl⟩ := extract_eq_some.mp extracts
  have directory := nodeFor_directory made
  have apart : ∀ path, Live all cleared above done path → path ≠ item.path := by
    rintro path live rfl
    rw [live.1] at gone
    cases gone
  have uncovered : ∀ path found, part path = some found → below path item.path = true → node = .directory := by
    intro path found held under
    obtain ⟨low, _, starts, -, -, -, live⟩ := mid.anchor path found held
    exact directory.mpr (spares.free listed gone live (below_trans under starts))
  refine ⟨?_, ?_, ?_, ?_, mid.treeClosed.put open_ node, mid.partClosed, mid.root_put named node⟩
  · intro path found held
    obtain ⟨same, standing, alike⟩ := mid.sub path found held
    cases place item.path node path with
    | here here =>
      subst here
      -- Something below it stays, so it is a directory in both.
      obtain ⟨low, kept, starts, lowHeld, -, -, live⟩ := mid.anchor _ found held
      have under : below low item.path = true := below_iff.mpr ⟨starts, Ne.symm (apart low live)⟩
      obtain ⟨up, found', shape⟩ :=
        mid.partClosed low kept lowHeld item.path (mem_ancestors.mpr ⟨named, below_iff.mp under⟩)
      rw [held] at found'
      cases found'
      rw [put_self, directory.mpr (spares.free listed gone live under)]
      exact ⟨_, rfl, shape.symm⟩
    | above up =>
      rw [put_above tree node up, standing]
      exact ⟨same, rfl, alike⟩
    | inside under covers => exact absurd (uncovered path found held under) covers
    | aside differs unlisted free =>
      rw [put_aside tree differs unlisted free]
      exact ⟨same, standing, alike⟩
  · intro path found held explicit live
    have differs : path ≠ item.path := by
      rintro rfl
      rw [live.1] at gone
      cases gone
    rw [live_concat differs] at live
    cases place item.path node path with
    | here same => exact absurd same differs
    | above up =>
      rw [put_above tree node up] at held
      cases value : tree path with
      | none =>
        rw [value] at held
        exact absurd (Option.some.inj held).symm explicit
      | some other =>
        rw [value] at held
        exact mid.live path found (value.trans held) explicit live
    | inside under covers =>
      rw [put_inside tree under covers] at held
      cases held
    | aside _ unlisted free =>
      rw [put_aside tree differs unlisted free] at held
      exact mid.live path found held explicit live
  · exact fun path found held explicit fresh => mid.old_put directory held explicit fresh
  · intro path found held
    obtain ⟨low, kept, starts, lowHeld, standing, explicit, live⟩ := mid.anchor path found held
    refine ⟨low, kept, starts, lowHeld, ?_, explicit, (live_concat (apart low live)).mpr live⟩
    cases place item.path node low with
    | here same => exact absurd same (apart low live)
    | above up => rw [put_above tree node up, standing, getD_some]
    | inside under covers => exact absurd (uncovered low kept lowHeld under) covers
    | aside differs unlisted free => rw [put_aside tree differs unlisted free, standing]

theorem Mid.unblocked (open_ : tree.blocked path = false) : part.blocked path = false := by
  refine unblocked_iff.mpr fun dir listed node held => ?_
  obtain ⟨same, standing, alike⟩ := mid.sub dir node held
  rw [← alike]
  exact unblocked_iff.mp open_ dir listed same standing

theorem Mid.keep (named : item.path ≠ [])
    (open_ : tree.blocked item.path = false) (stays : doomed above item.path = false) (explicit : node ≠ .implied)
    (directory : node = .directory ↔ item.isDirectory = true) :
    Mid all cleared above (done ++ [item]) (tree.put item.path node) (part.put item.path node) := by
  have partOpen := mid.unblocked open_
  have here : Live all cleared above (done ++ [item]) item.path :=
    ⟨stays, .inl (by rw [writes_concat, beq_self_eq_true, Bool.or_true])⟩
  have anchored : ∀ path, path <+: item.path → ∃ low kept, path <+: low ∧
      part.put item.path node low = some kept ∧ tree.put item.path node low = some kept ∧ kept ≠ .implied ∧
        Live all cleared above (done ++ [item]) low :=
    fun path starts => ⟨item.path, node, starts, put_self part _ _, put_self tree _ _, explicit, here⟩
  refine ⟨?_, ?_, ?_, ?_, mid.treeClosed.put open_ node, mid.partClosed.put partOpen node, mid.root_put named node⟩
  · intro path found held
    cases place item.path node path with
    | here same =>
      rw [same, put_self] at held ⊢
      exact ⟨_, rfl, by rw [Option.some.inj held]⟩
    | above up =>
      rw [put_above part node up] at held
      rw [put_above tree node up, ← Option.some.inj held]
      exact ⟨_, rfl, (getD_shape open_ up).trans (getD_shape partOpen up).symm⟩
    | inside under covers =>
      rw [put_inside part under covers] at held
      cases held
    | aside differs unlisted free =>
      rw [put_aside part differs unlisted free] at held
      rw [put_aside tree differs unlisted free]
      exact mid.sub path found held
  · intro path found held solid live
    cases place item.path node path with
    | here same =>
      rw [same, put_self] at held ⊢
      exact held
    | above up =>
      rw [put_above tree node up] at held
      rw [put_above part node up]
      cases value : tree path with
      | none =>
        rw [value] at held
        exact absurd (Option.some.inj held).symm solid
      | some other =>
        rw [value, getD_some] at held
        rw [mid.live path found (value.trans held) solid ((live_concat (mem_ancestors.mp up).2.2).mp live),
          getD_some]
    | inside under covers =>
      rw [put_inside tree under covers] at held
      cases held
    | aside differs unlisted free =>
      rw [put_aside tree differs unlisted free] at held
      rw [put_aside part differs unlisted free]
      exact mid.live path found held solid ((live_concat differs).mp live)
  · exact fun path found held solid fresh => mid.old_put directory held solid fresh
  · intro path found held
    cases place item.path node path with
    | here same => exact anchored path (same ▸ prefix_rfl)
    | above up => exact anchored path (mem_ancestors.mp up).2.1
    | inside under covers =>
      rw [put_inside part under covers] at held
      cases held
    | aside differs unlisted free =>
      rw [put_aside part differs unlisted free] at held
      obtain ⟨low, kept, starts, lowHeld, standing, solid, live⟩ := mid.anchor path found held
      cases place item.path node low with
      | here same => exact anchored path (same ▸ starts)
      | above up =>
        refine ⟨low, kept, starts, ?_, ?_, solid, (live_concat (mem_ancestors.mp up).2.2).mpr live⟩
        · rw [put_above part node up, lowHeld, getD_some]
        · rw [put_above tree node up, standing, getD_some]
      | inside under covers =>
        -- Its anchor is cleared, and so would it be if it were below the entry.
        rcases prefix_or_prefix_of_prefix starts (below_iff.mp under).1 with up | down
        · exact anchored path up
        · exact absurd (free (below_iff.mpr ⟨down, Ne.symm differs⟩)) covers
      | aside lowDiffers lowUnlisted lowFree =>
        refine ⟨low, kept, starts, ?_, ?_, solid, (live_concat lowDiffers).mpr live⟩
        · rw [put_aside part lowDiffers lowUnlisted lowFree, lowHeld]
        · rw [put_aside tree lowDiffers lowUnlisted lowFree, standing]

theorem Mid.nodeFor (made : tree.nodeFor item = some node) (stays : doomed above item.path = false) :
    (LinkKept all cleared above done item → part.nodeFor item = some node) ∧
      (¬LinkKept all cleared above done item → part.nodeFor item = none) := by
  unfold LinkKept
  unfold Tree.nodeFor at made ⊢
  cases kind : item.kind with
  | regular content | directory | symlink target =>
    exact ⟨fun _ => by simpa [kind] using made, fun lost => absurd trivial lost⟩
  | link target =>
    simp only [kind] at made ⊢
    split at made
    · cases made
    next outside =>
      obtain ⟨standing, solid⟩ := filter_eq_some_iff.mp made
      have explicit : node ≠ .implied := by
        rintro rfl
        cases solid
      rw [if_neg outside]
      constructor
      · intro kept
        rw [mid.live target node standing explicit (kept stays)]
        exact filter_eq_some_iff.mpr ⟨rfl, solid⟩
      intro lost
      cases held : part target with
      | none => rfl
      | some found =>
        exfalso
        obtain ⟨same, also, alike⟩ := mid.sub target found held
        rw [standing] at also
        cases also
        obtain ⟨low, kept, starts, lowHeld, -, -, live⟩ := mid.anchor target found held
        by_cases itself : target = low
        · exact lost fun _ => itself ▸ live
        have named : target ≠ [] := by
          rintro rfl
          rw [mid.root] at standing
          cases standing
        obtain ⟨up, found', shape⟩ :=
          mid.partClosed low kept lowHeld target (mem_ancestors.mpr ⟨named, starts, itself⟩)
        rw [held] at found'
        cases found'
        rw [alike, shape] at solid
        cases solid

end

/-! ### Runs -/

def OrderlyFrom (above : List Layer) : List Item → List Item → Prop
  | _, [] => True
  | done, item :: rest => Spares above done item ∧ OrderlyFrom above (done ++ [item]) rest

def LinksFrom (all : List Item) (cleared : Path → Bool) (above : List Layer) : List Item → List Item → Prop
  | _, [] => True
  | done, item :: rest =>
    LinkKept all cleared above done item ∧ LinksFrom all cleared above (done ++ [item]) rest

theorem Mid.run {all : List Item} {cleared : Path → Bool} {above : List Layer} {rest done : List Item}
    {tree part : Tree} (mid : Mid all cleared above done tree part)
    (listed : ∀ item ∈ rest, item ∈ all ∧ item.path ≠ []) (orderly : OrderlyFrom above done rest)
    (runs : rest.foldlM Tree.extract tree = some final) :
    (LinksFrom all cleared above done rest → ∃ result, (survivors above rest).foldlM Tree.extract part = some result ∧
        Mid all cleared above (done ++ rest) final result) ∧
      (¬LinksFrom all cleared above done rest → (survivors above rest).foldlM Tree.extract part = none) := by
  induction rest generalizing done tree part with
  | nil =>
    cases runs
    exact ⟨fun _ => ⟨part, rfl, by simpa using mid⟩, fun lost => absurd trivial lost⟩
  | cons item rest ih =>
    obtain ⟨next, extracts, later⟩ := bind_eq_some_iff.mp runs
    obtain ⟨inside, named⟩ := listed item mem_cons_self
    have others : ∀ other ∈ rest, other ∈ all ∧ other.path ≠ [] :=
      fun other among => listed other (mem_cons_of_mem _ among)
    rw [append_cons]
    cases gone : doomed above item.path with
    | true =>
      have kept : LinkKept all cleared above done item := by
        unfold LinkKept
        split
        · intro stays
          rw [gone] at stays
          cases stays
        · trivial
      have skipped : survivors above (item :: rest) = survivors above rest := by simp [survivors, gone]
      obtain ⟨sound, fails⟩ := ih (mid.skip inside named orderly.1 gone extracts) others orderly.2 later
      rw [skipped]
      exact ⟨fun links => sound links.2, fun lost => fails fun links => lost ⟨kept, links⟩⟩
    | false =>
      obtain ⟨open_, node, made, rfl⟩ := extract_eq_some.mp extracts
      have taken : survivors above (item :: rest) = item :: survivors above rest := by simp [survivors, gone]
      rw [taken, foldlM_cons]
      by_cases link : LinkKept all cleared above done item
      · have both : part.extract item = some (part.put item.path node) :=
          extract_eq_some.mpr ⟨mid.unblocked open_, node, (mid.nodeFor made gone).1 link, rfl⟩
        have step := mid.keep named open_ gone (nodeFor_ne_implied made) (nodeFor_directory made)
        obtain ⟨sound, fails⟩ := ih step others orderly.2 later
        rw [both]
        exact ⟨fun links => sound links.2, fun lost => fails fun links => lost ⟨link, links⟩⟩
      refine ⟨fun links => absurd links.1 link, fun _ => ?_⟩
      have missing : part.extract item = none := by
        unfold Tree.extract
        rw [(mid.nodeFor made gone).2 link]
        split <;> rfl
      rw [missing]
      rfl

structure Bound (above : List Layer) (tree part : Tree) : Prop where
  sub : ∀ path node, part path = some node → ∃ same, tree path = some same ∧ same.shape = node.shape
  live : ∀ path node, tree path = some node → node ≠ .implied → doomed above path = false → part path = some node
  anchor : ∀ path node, part path = some node → ∃ low kept, path <+: low ∧ part low = some kept ∧
    tree low = some kept ∧ kept ≠ .implied ∧ doomed above low = false
  treeClosed : Closed tree
  partClosed : Closed part
  root : tree [] = none

theorem erases_mono (starts : path <+: low) (gone : erases layer path = true) : erases layer low = true := by
  obtain ⟨entry, listed, marked⟩ := any_eq_true.mp gone
  refine any_eq_true.mpr ⟨entry, listed, ?_⟩
  cases named : normalise entry.path with
  | none =>
    rw [named] at marked
    cases marked
  | some name =>
    rw [named] at marked
    dsimp only [marks] at marked ⊢
    split at marked
    · next marker =>
      rw [if_pos marker]
      exact below_trans marked starts
    rename_i other
    rw [if_neg other]
    split at marked
    · exact isPrefixOf_iff_prefix.mpr ((List.isPrefixOf_iff_prefix.mp marked).trans starts)
    · cases marked

theorem live_nil {above : List Layer} :
    Live (items layer) (erases layer) above [] path ↔ doomed (layer :: above) path = false := by
  rw [doomed_cons]
  simp only [Live, writes, any_nil, Bool.false_eq_true, false_or, kills, Bool.or_eq_false_iff]
  tauto

theorem Bound.enter {above : List Layer} {tree part : Tree} (bound : Bound (layer :: above) tree part) :
    Mid (items layer) (erases layer) above [] (tree.erase (erases layer)) part := by
  have spared : ∀ path node, part path = some node → erases layer path = false := by
    intro path node held
    obtain ⟨low, _, starts, -, -, -, stays⟩ := bound.anchor path node held
    by_contra gone
    have lower := erases_mono starts (by simpa using gone)
    simp [doomed_cons, kills, lower] at stays
  have stands : ∀ path node, tree.erase (erases layer) path = some node →
      tree path = some node ∧ erases layer path = false := by
    intro path node held
    unfold Tree.erase at held
    split at held
    · cases held
    · next kept => exact ⟨held, by simpa using kept⟩
  have erased : ∀ path, erases layer path = false → tree.erase (erases layer) path = tree path := by
    intro path kept
    simp [Tree.erase, kept]
  refine ⟨?_, ?_, ?_, ?_, ?_, bound.partClosed, ?_⟩
  · intro path node held
    rw [erased path (spared path node held)]
    exact bound.sub path node held
  · intro path node held explicit live
    exact bound.live path node (stands path node held).1 explicit (live_nil.mp live)
  · intro path node held _ _
    exact ⟨(stands path node held).2, rfl⟩
  · intro path node held
    obtain ⟨low, kept, starts, lowHeld, standing, explicit, stays⟩ := bound.anchor path node held
    refine ⟨low, kept, starts, lowHeld, ?_, explicit, live_nil.mpr stays⟩
    rw [erased low (spared low kept lowHeld), standing]
  · intro path node held dir listed
    obtain ⟨standing, kept⟩ := stands path node held
    rw [erased dir]
    · exact bound.treeClosed path node standing dir listed
    by_contra gone
    rw [erases_mono (mem_ancestors.mp listed).2.1 (by simpa using gone)] at kept
    cases kept
  · unfold Tree.erase
    split
    · rfl
    · exact bound.root

theorem Mid.leave {above : List Layer} {tree part : Tree}
    (mid : Mid (items layer) (erases layer) above (items layer) tree part) : Bound above tree part := by
  refine ⟨mid.sub, ?_, ?_, mid.treeClosed, mid.partClosed, mid.root⟩
  · intro path node held explicit stays
    refine mid.live path node held explicit ⟨stays, ?_⟩
    cases written : writes (items layer) path with
    | true => exact .inl rfl
    | false => exact .inr ⟨rfl, mid.old path node held explicit written⟩
  intro path node held
  obtain ⟨low, kept, starts, lowHeld, standing, explicit, live⟩ := mid.anchor path node held
  exact ⟨low, kept, starts, lowHeld, standing, explicit, live.1⟩

/-- In no layer does a non-directory that does not survive take the place of a directory with something that does. -/
def Orderly : List Layer → Prop
  | [] => True
  | layer :: above => OrderlyFrom above [] (items layer) ∧ Orderly above

/-- Each hard link that survives names a path whose node at that moment survives. -/
def LinksKept : List Layer → Prop
  | [] => True
  | layer :: above => LinksFrom (items layer) (erases layer) above [] (items layer) ∧ LinksKept above

theorem items_named (listed : item ∈ items layer) : item.path ≠ [] := by
  obtain ⟨entry, -, made⟩ := mem_filterMap.mp listed
  unfold itemOf at made
  split at made
  · next name named =>
    split at made
    · cases made
    · cases made
      simpa using (filter_eq_some_iff.mp named).2
  · cases made

theorem Bound.run {layers : List Layer} {tree part : Tree} (bound : Bound layers tree part)
    (orderly : Orderly layers) (runs : layers.foldlM applyLayer tree = some final) :
    (LinksKept layers → ∃ result, (merged layers).foldlM Tree.extract part = some result ∧ Bound [] final result) ∧
      (¬LinksKept layers → (merged layers).foldlM Tree.extract part = none) := by
  induction layers generalizing tree part with
  | nil =>
    cases runs
    exact ⟨fun _ => ⟨part, rfl, bound⟩, fun lost => absurd trivial lost⟩
  | cons layer above ih =>
    obtain ⟨next, applied, later⟩ := bind_eq_some_iff.mp runs
    obtain ⟨sound, fails⟩ := bound.enter.run (fun item listed => ⟨listed, items_named listed⟩) orderly.1 applied
    rw [merged, foldlM_append]
    by_cases links : LinksFrom (items layer) (erases layer) above [] (items layer)
    · obtain ⟨result, extracted, mid⟩ := sound links
      obtain ⟨deeper, never⟩ := ih mid.leave orderly.2 later
      rw [extracted]
      exact ⟨fun kept => deeper kept.2, fun lost => never fun kept => lost ⟨links, kept⟩⟩
    · rw [fails links]
      exact ⟨fun kept => absurd kept.1 links, fun _ => rfl⟩

theorem bound_empty (layers : List Layer) : Bound layers Tree.empty Tree.empty :=
  ⟨nofun, nofun, nofun, nofun, nofun, rfl⟩

/-- No directory is left that was only made for what is gone. -/
def NoneBare (tree : Tree) : Prop :=
  ∀ path, tree path = some .implied → ∃ low node, path <+: low ∧ tree low = some node ∧ node ≠ .implied

theorem Bound.shape_iff {tree part : Tree} (bound : Bound [] tree part) :
    part.shape = tree.shape ↔ NoneBare tree := by
  constructor
  · intro same path bare
    have here := congrFun same path
    simp only [Tree.shape, bare, map_some, Option.map_eq_some_iff] at here
    obtain ⟨node, held, -⟩ := here
    obtain ⟨low, kept, starts, -, standing, explicit, -⟩ := bound.anchor path node held
    exact ⟨low, kept, starts, standing, explicit⟩
  intro full
  funext path
  unfold Tree.shape
  cases held : part path with
  | some node =>
    obtain ⟨same, standing, alike⟩ := bound.sub path node held
    rw [standing, map_some, map_some, alike]
  | none =>
    cases standing : tree path with
    | none => rfl
    | some node =>
      exfalso
      by_cases bare : node = .implied
      · subst bare
        obtain ⟨low, kept, starts, found, explicit⟩ := full path standing
        have lowHeld := bound.live low kept found explicit rfl
        have named : path ≠ [] := by
          rintro rfl
          rw [bound.root] at standing
          cases standing
        have apart : path ≠ low := by
          rintro rfl
          rw [standing] at found
          exact explicit (Option.some.inj found).symm
        obtain ⟨up, there, -⟩ := bound.partClosed low kept lowHeld path (mem_ancestors.mpr ⟨named, starts, apart⟩)
        rw [held] at there
        cases there
      · rw [bound.live path node standing bare rfl] at held
        cases held

def Flattens (layers : List Layer) (tree : Tree) : Prop :=
  ∃ part, extractAll (flatten layers) = some part ∧ part.shape = tree.shape

def Tree.parented (tree : Tree) (item : Item) : Bool := (ancestors item.path).all fun dir => (tree dir).isSome

def parentedItems : Tree → List Item → Bool
  | _, [] => true
  | tree, item :: rest =>
    tree.parented item &&
      match tree.extract item with
      | some next => parentedItems next rest
      | none => true

def parentedLayers : Tree → List Layer → Bool
  | _, [] => true
  | tree, layer :: above =>
    parentedItems (tree.erase (erases layer)) (items layer) &&
      match applyLayer tree layer with
      | some next => parentedLayers next above
      | none => true

def Explicit (tree : Tree) : Prop := ∀ path, tree path ≠ some .implied

section

variable {tree : Tree} (explicit : Explicit tree)
include explicit

theorem Explicit.put (parented : tree.parented item = true)
    (made : node ≠ .implied) : Explicit (tree.put item.path node) := by
  intro path bare
  cases place item.path node path with
  | here same =>
    rw [same, put_self] at bare
    exact made (Option.some.inj bare)
  | above up =>
    have present := all_eq_true.mp parented path up
    obtain ⟨found, held⟩ := Option.isSome_iff_exists.mp present
    rw [put_above tree node up, held, getD_some] at bare
    exact explicit path (held.trans bare)
  | inside under covers =>
    rw [put_inside tree under covers] at bare
    cases bare
  | aside apart unlisted free =>
    rw [put_aside tree apart unlisted free] at bare
    exact explicit path bare

theorem Explicit.items {rest : List Item}
    (parented : parentedItems tree rest = true) (runs : rest.foldlM Tree.extract tree = some final) :
    Explicit final := by
  induction rest generalizing tree with
  | nil =>
    cases runs
    exact explicit
  | cons item rest ih =>
    obtain ⟨next, extracts, later⟩ := bind_eq_some_iff.mp runs
    simp only [parentedItems, extracts, Bool.and_eq_true] at parented
    obtain ⟨-, node, made, rfl⟩ := extract_eq_some.mp extracts
    exact ih (explicit.put parented.1 (nodeFor_ne_implied made)) parented.2 later

theorem Explicit.layers {layers : List Layer}
    (parented : parentedLayers tree layers = true) (runs : layers.foldlM applyLayer tree = some final) :
    Explicit final := by
  induction layers generalizing tree with
  | nil =>
    cases runs
    exact explicit
  | cons layer above ih =>
    obtain ⟨next, applied, later⟩ := bind_eq_some_iff.mp runs
    simp only [parentedLayers, applied, Bool.and_eq_true] at parented
    have erased : Explicit (tree.erase (erases layer)) := by
      intro path bare
      unfold Tree.erase at bare
      split at bare
      · cases bare
      · exact explicit path bare
    exact ih (erased.items parented.1 applied) parented.2 later

end

theorem noneBare_of_parented {layers : List Layer} {tree : Tree} (applied : applyLayers layers = some tree)
    (parented : parentedLayers Tree.empty layers = true) : NoneBare tree := by
  have start : Explicit Tree.empty := by
    intro path bare
    cases bare
  have explicit : Explicit tree := start.layers parented applied
  exact fun path bare => absurd bare (explicit path)

instance (above : List Layer) (done : List Item) (item : Item) : Decidable (Spares above done item) :=
  inferInstanceAs (Decidable (_ → _ → _))

instance (all : List Item) (cleared : Path → Bool) (above : List Layer) (done : List Item) (item : Item) :
    Decidable (LinkKept all cleared above done item) := by
  unfold LinkKept
  split <;> infer_instance

instance decidableOrderlyFrom (above : List Layer) : (done rest : List Item) → Decidable (OrderlyFrom above done rest)
  | _, [] => .isTrue trivial
  | done, item :: rest =>
    have := decidableOrderlyFrom above (done ++ [item]) rest
    inferInstanceAs (Decidable (_ ∧ _))

instance decidableLinksFrom (all : List Item) (cleared : Path → Bool) (above : List Layer) :
    (done rest : List Item) → Decidable (LinksFrom all cleared above done rest)
  | _, [] => .isTrue trivial
  | done, item :: rest =>
    have := decidableLinksFrom all cleared above (done ++ [item]) rest
    inferInstanceAs (Decidable (_ ∧ _))

instance decidableOrderly : (layers : List Layer) → Decidable (Orderly layers)
  | [] => .isTrue trivial
  | _ :: above =>
    have := decidableOrderly above
    inferInstanceAs (Decidable (_ ∧ _))

instance decidableLinksKept : (layers : List Layer) → Decidable (LinksKept layers)
  | [] => .isTrue trivial
  | _ :: above =>
    have := decidableLinksKept above
    inferInstanceAs (Decidable (_ ∧ _))

def sampleName (name : String) : Component := .normal name.toList

/-- A directory with a file, a link to the file, and a layer that takes the first name away but not the directory. -/
def linkedLayers : List Layer :=
  [[⟨[sampleName "etc"], .directory⟩, ⟨[sampleName "etc", sampleName "host"], .regular [1]⟩,
      ⟨[sampleName "etc", sampleName "old"], .regular [3]⟩],
    [⟨[sampleName "etc", sampleName "name"], .link ["etc".toList, "host".toList]⟩],
    [⟨[sampleName "etc", sampleName ".wh.old"], .regular []⟩]]

/-- A file, a link to it in the next layer, and a new file at its name in the third. -/
def replacedTarget : List Layer :=
  [[⟨[sampleName "host"], .regular [1]⟩], [⟨[sampleName "name"], .link ["host".toList]⟩],
    [⟨[sampleName "host"], .regular [2]⟩]]

/-- A directory that becomes a file in its own layer, and a directory again above. -/
def returningDirectory : List Layer :=
  [[⟨[sampleName "run"], .directory⟩, ⟨[sampleName "run", sampleName "pid"], .regular [1]⟩,
      ⟨[sampleName "run"], .regular [2]⟩],
    [⟨[sampleName "run"], .directory⟩]]

end Vmlab.Oci
