import Vmlab.Freeze.Plan

/-!
# What a thaw keeps

A chain collapses into its base, file by file. The base then reads as the chain did exactly where every file of the
chain fits the frozen file beneath it.
-/

namespace Vmlab.Freeze

open List
open Function (update update_comm update_eq_self update_idem update_of_ne update_self)

variable {after : Disk} {content standing : Content} {point : Name}

section

variable {stranded : List Name} {name : Name} {node : Option Node} {facts : DiskFacts} {overlay : Overlay}

/-! ## Carrying one snapshot -/

structure Going (fs : Fs) (base : Path) (bottom : Content) (thawing : Thawing) (nodes : Path → Option Node)
    (file : Disk) (beneath : Content) : Prop where
  reaches : Reaches fs thawing.build nodes
  found : nodes base = some (.disk file)
  writable : file.readOnly = false
  current : ∀ name, thawing.build.active base = some name → file.find name = some file.active
  held : ∀ name, name ∈ thawing.held ↔ (file.find name).isSome = true
  point : ∃ overlay, file.find thawing.basePoint = some overlay ∧ overlay.over bottom = beneath

structure OnLayer (base layer : Path) (thawing : Thawing) (nodes : Path → Option Node) (file : Disk) : Prop where
  found : nodes layer = some (.disk file)
  writable : file.readOnly = false
  backing : file.backing = some base
  current : ∀ name, thawing.build.active layer = some name → file.find name = some file.active

structure Keeps (stranded : List Name) (before after : Disk) : Prop where
  backing : after.backing = before.backing
  kept : ∀ name overlay, before.find name = some overlay → after.find name = some overlay
  dropped : ∀ name ∈ stranded, after.find name = before.find name

theorem Keeps.refl (stranded : List Name) (file : Disk) : Keeps stranded file file :=
  ⟨rfl, fun _ _ found => found, fun _ _ => rfl⟩

theorem Keeps.trans {first second third : Disk} (one : Keeps stranded first second)
    (two : Keeps stranded second third) : Keeps stranded first third where
  backing := two.backing.trans one.backing
  kept name overlay found := two.kept name overlay (one.kept name overlay found)
  dropped name member := (two.dropped name member).trans (one.dropped name member)

variable {top : Path}

section

variable {fs : Fs} {base layer : Path} {bottom beneath : Content} {thawing : Thawing} {nodes : Path → Option Node}
  {file layerFile : Disk}

theorem active_carry (thawing : Thawing) {base layer : Path} (apart : layer ≠ base) (name : Name) :
    (thawing.carry base layer name).build.active =
      update (update thawing.build.active layer (some name)) base (some name) := by
  simp only [Thawing.carry, active_create, active_commit, active_apply, update_idem]
  rw [update_comm apart, update_idem, update_comm apart]

section

variable (going : Going fs base bottom thawing nodes file beneath) (apart : layer ≠ base)
  (onLayer : OnLayer base layer thawing nodes layerFile)
include going apart onLayer

theorem Going.merge (named : layerFile.find name = some overlay) :
    ∃ point, file.find thawing.basePoint = some point ∧ point.over bottom = beneath ∧
      Reaches fs (((thawing.build.apply base thawing.basePoint).apply layer name).commit layer base)
        (update (update nodes layer (some (.disk { layerFile with active := overlay })))
          base (some (.disk { file with active := overlay.onto point }))) := by
  obtain ⟨point, pointFound, pointReads⟩ := going.point
  refine ⟨point, pointFound, pointReads, ?_⟩
  have atPoint := going.reaches.apply going.found going.writable pointFound (by
    intro active
    exact Option.some.inj ((going.current _ active).symm.trans pointFound))
  have layerThere : update nodes base (some (.disk { file with active := point })) layer =
      some (.disk layerFile) := by
    rw [update_of_ne apart]
    exact onLayer.found
  have atSnapshot := atPoint.apply layerThere onLayer.writable named (by
    intro active
    rw [active_apply, update_of_ne apart] at active
    exact Option.some.inj ((onLayer.current _ active).symm.trans named))
  rw [update_comm (Ne.symm apart)] at atSnapshot
  have layerNow : update (update nodes layer (some (.disk { layerFile with active := overlay })))
      base (some (.disk { file with active := point })) layer = some (.disk { layerFile with active := overlay }) := by
    rw [update_of_ne apart, update_self]
  have committed := atSnapshot.commit layerNow onLayer.backing (update_self ..) going.writable
  rwa [update_idem] at committed

theorem Going.carry
    (notStranded : name ∉ stranded) (fresh : name ∉ thawing.held) (named : layerFile.find name = some overlay) :
    ∃ (nodesAfter : Path → Option Node) (after : Disk),
      Going fs base bottom (thawing.carry base layer name) nodesAfter after beneath ∧
      OnLayer base layer (thawing.carry base layer name) nodesAfter { layerFile with active := overlay } ∧
      (∃ copy, after.find name = some copy ∧ copy.over bottom = overlay.over beneath) ∧
      Keeps stranded file after ∧
      ∀ path, path ≠ base → path ≠ layer → nodesAfter path = nodes path := by
  obtain ⟨point, pointFound, pointReads, merged⟩ := going.merge apart onLayer named
  have unnamed : file.find name = none := by
    rw [going.held] at fresh
    simpa using fresh
  have created := merged.create (update_self ..) going.writable name
  rw [update_idem] at created
  let both : Disk := { file with active := overlay.onto point }
  have copied : (both.create name).find name = some (overlay.onto point) := find_create_self both unnamed
  refine ⟨_, both.create name, ⟨created, update_self .., going.writable, ?_, ?_, ?_⟩,
    ⟨?_, onLayer.writable, onLayer.backing, ?_⟩, ⟨_, copied, ?_⟩, ⟨rfl, ?_, ?_⟩, ?_⟩
  · intro other active
    rw [active_carry thawing apart, update_self] at active
    cases active
    exact copied
  · intro other
    by_cases same : other = name
    · subst same
      simp [Thawing.carry, copied]
    rw [find_create_of_ne _ same]
    simp only [Thawing.carry, mem_append, mem_singleton, same, or_false]
    exact going.held other
  · exact ⟨point, find_create_of_some both pointFound, pointReads⟩
  · rw [update_of_ne apart, update_self]
  · intro other active
    rw [active_carry thawing apart, update_of_ne apart, update_self] at active
    cases active
    exact named
  · rw [onto_over, pointReads]
  · intro other found present
    exact find_create_of_some both present
  · intro other member
    exact find_create_of_ne both (by rintro rfl; exact notStranded member)
  · intro path offBase offLayer
    rw [update_of_ne offBase, update_of_ne offLayer]

end

def Carried (file layerFile : Disk) (bottom beneath : Content) (name : Name) : Prop :=
  ∃ copy overlay, file.find name = some copy ∧ layerFile.find name = some overlay ∧
    copy.over bottom = overlay.over beneath

theorem Carried.keeps {before layerFile : Disk} (keeps : Keeps stranded before after)
    (carried : Carried before layerFile bottom beneath name) : Carried after layerFile bottom beneath name := by
  obtain ⟨copy, overlay, copied, named, reads⟩ := carried
  exact ⟨copy, overlay, keeps.kept name copy copied, named, reads⟩

structure CarriedAll (fs : Fs) (base layer : Path) (bottom beneath : Content) (nodes : Path → Option Node)
    (file layerFile : Disk) (snapshots : List InternalSnapshot) (stranded : List Name) (point : Name)
    (thawing : Thawing) : Prop where
  done : ∃ (nodesAfter : Path → Option Node) (after : Disk) (active : Overlay),
    Going fs base bottom thawing nodesAfter after beneath ∧
    OnLayer base layer thawing nodesAfter { layerFile with active := active } ∧ Keeps stranded file after ∧
    (∀ path, path ≠ base → path ≠ layer → nodesAfter path = nodes path) ∧
    ∀ snapshot ∈ snapshots, snapshot.name ≠ holdSnapshot → snapshot.name ∉ stranded → snapshot.name ≠ point →
      Carried after layerFile bottom beneath snapshot.name
  same : thawing.basePoint = point

theorem CarriedAll.skip {snapshot : InternalSnapshot} {rest : List InternalSnapshot}
    (carried : CarriedAll fs base layer bottom beneath nodes file layerFile rest stranded point thawing)
    (skipped : snapshot.name = holdSnapshot ∨ snapshot.name ∈ stranded ∨ snapshot.name = point) :
    CarriedAll fs base layer bottom beneath nodes file layerFile (snapshot :: rest) stranded point thawing := by
  obtain ⟨⟨nodesAfter, after, active, goes, on, keeps, off, names⟩, same⟩ := carried
  refine ⟨⟨nodesAfter, after, active, goes, on, keeps, off, ?_⟩, same⟩
  intro other member notHold notStranded notPoint
  cases mem_cons.mp member with
  | inl first =>
    subst first
    exact absurd skipped (by simp [notHold, notStranded, notPoint])
  | inr inRest => exact names other inRest notHold notStranded notPoint

theorem Going.carryAll {machine : Name} (apart : layer ≠ base)
    {snapshots : List InternalSnapshot} {out : Thawing} (going : Going fs base bottom thawing nodes file beneath)
    (onLayer : OnLayer base layer thawing nodes layerFile)
    (present : ∀ snapshot ∈ snapshots, (layerFile.find snapshot.name).isSome = true)
    (accepted : thawing.carryAll machine top base layer stranded snapshots = .ok out) :
    CarriedAll fs base layer bottom beneath nodes file layerFile snapshots stranded thawing.basePoint out := by
  induction snapshots generalizing thawing nodes file layerFile with
  | nil =>
    cases accepted
    exact ⟨⟨nodes, file, layerFile.active, going, onLayer, .refl stranded file, fun _ _ _ => rfl, by simp⟩, rfl⟩
  | cons snapshot rest ih =>
    have later := fun other member => present other (mem_cons_of_mem _ member)
    rw [Thawing.carryAll] at accepted
    split at accepted
    · rename_i dropped
      exact (ih going onLayer later accepted).skip (dropped.imp id .inl)
    rename_i kept
    split at accepted
    · rename_i mark
      exact (ih going onLayer later accepted).skip (.inr (.inr mark.1))
    split at accepted
    · cases accepted
    rename_i fresh
    obtain ⟨overlay, named⟩ := Option.isSome_iff_exists.mp (present snapshot mem_cons_self)
    obtain ⟨nodesNext, next, goingNext, onNext, ⟨copy, copied, reads⟩, keepsNext, offNext⟩ :=
      going.carry apart onLayer (fun member => kept (.inr member)) fresh named
    obtain ⟨⟨nodesAfter, after, active, goes, on, keeps, off, carried⟩, same⟩ := ih goingNext onNext later accepted
    refine ⟨⟨nodesAfter, after, active, goes, on, keepsNext.trans keeps, ?_, ?_⟩, same⟩
    · intro path offBase offLayer
      rw [off path offBase offLayer, offNext path offBase offLayer]
    intro other member notHold notStranded notPoint
    cases mem_cons.mp member with
    | inl first =>
      subst first
      exact Carried.keeps keeps ⟨copy, overlay, copied, named, reads⟩
    | inr inRest => exact carried other inRest notHold notStranded notPoint

end

/-! ## One layer -/

variable {fs : Fs} {base lower : Path} {bottom beneath : Content} {thawing out : Thawing}
  {nodes : Path → Option Node} {file layerFile : Disk} {machine : Name} {stranded : List Name}

variable {build : Build}

theorem Reaches.rebaseOnto {facts : DiskFacts} (base : Path) (reaches : Reaches fs build nodes)
    (found : nodes facts.path = some (.disk layerFile)) (writable : layerFile.readOnly = false)
    (backed : layerFile.backing = some lower) (told : facts.backing = some lower) :
    Reaches fs (build.rebaseOnto facts base)
      (update nodes facts.path (some (.disk { layerFile with backing := some base }))) := by
  rw [Build.rebaseOnto, told]
  by_cases already : lower = base
  · have same : { layerFile with backing := some base } = layerFile := by
      rw [← already, ← backed]
    simp only [Option.getD_some, already, if_true, same, ← found, update_eq_self]
    exact reaches
  · simp only [Option.getD_some, already, if_false]
    exact reaches.rebase found writable base _

@[simp]
theorem active_rebaseOnto (build : Build) (facts : DiskFacts) (base : Path) :
    (build.rebaseOnto facts base).active = build.active := by
  rw [Build.rebaseOnto]
  split <;> rfl

/-- What is kept of a layer reads the same over the state that the base stands at as over the file beneath, and a
snapshot with the name of that file's freeze point is that state. -/
structure Fits (layerFile : Disk) (stranded : List Name) (point : Name) (standing actual : Content) : Prop where
  mark : point ∉ stranded → ∀ overlay, layerFile.find point = some overlay → overlay.over actual = standing
  same : ∀ name ∉ stranded, name ≠ point → ∀ overlay, layerFile.find name = some overlay →
    overlay.over standing = overlay.over actual

theorem fits_iff_carried {actual : Content}
    (held : ∃ overlay, file.find point = some overlay ∧ overlay.over bottom = beneath)
    (carried : ∀ name ∉ stranded, name ≠ point → (layerFile.find name).isSome = true →
    Carried file layerFile bottom beneath name) : Fits layerFile stranded point beneath actual ↔
      ∀ name ∉ stranded, (layerFile.find name).isSome = true → Carried file layerFile bottom actual name := by
  obtain ⟨pointCopy, pointCopied, pointReads⟩ := held
  constructor
  · intro fits name notStranded present
    obtain ⟨overlay, named⟩ := Option.isSome_iff_exists.mp present
    by_cases same : name = point
    · subst same
      exact ⟨pointCopy, overlay, pointCopied, named, by rw [pointReads, fits.mark notStranded overlay named]⟩
    obtain ⟨copy, other, copied, otherNamed, reads⟩ := carried name notStranded same present
    rw [named] at otherNamed
    cases otherNamed
    exact ⟨copy, overlay, copied, named, reads.trans (fits.same name notStranded same overlay named)⟩
  intro all
  refine ⟨fun notStranded overlay named => ?_, fun name notStranded other overlay named => ?_⟩
  · obtain ⟨copy, same, copied, sameNamed, reads⟩ := all point notStranded (by rw [named]; rfl)
    rw [named] at sameNamed
    rw [pointCopied] at copied
    cases sameNamed
    cases copied
    rw [← reads, pointReads]
  have present : (layerFile.find name).isSome = true := by
    rw [named]
    rfl
  obtain ⟨copy, first, copied, firstNamed, reads⟩ := carried name notStranded other present
  obtain ⟨again, second, copiedAgain, secondNamed, readsAgain⟩ := all name notStranded present
  rw [named] at firstNamed secondNamed
  rw [copied] at copiedAgain
  cases firstNamed
  cases secondNamed
  cases copiedAgain
  exact reads.symm.trans readsAgain

structure Taken (layerFile after : Disk) (stranded : List Name) (bottom : Content) (point : Name)
    (standing : Content) : Prop where
  present : ∀ name ∉ stranded, (layerFile.find name).isSome = true → (after.find name).isSome = true
  right : ∀ actual, Fits layerFile stranded point standing actual ↔
    ∀ name ∉ stranded, (layerFile.find name).isSome = true → Carried after layerFile bottom actual name

theorem Taken.of_carriedAll {node : Option Node} {facts : DiskFacts}
    (describes : Describes node facts layerFile) (noHold : facts.has holdSnapshot = false)
    (held : ∃ overlay, file.find point = some overlay ∧ overlay.over bottom = beneath)
    (carried : ∀ snapshot ∈ facts.snapshots, snapshot.name ≠ holdSnapshot → snapshot.name ∉ stranded →
    snapshot.name ≠ point → Carried file layerFile bottom beneath snapshot.name) :
    Taken layerFile file stranded bottom point beneath := by
  have all : ∀ name ∉ stranded, name ≠ point → (layerFile.find name).isSome = true →
      Carried file layerFile bottom beneath name := by
    intro name notStranded other present
    obtain ⟨snapshot, listed, rfl⟩ := mem_map.mp ((describes.find_iff name).mp present)
    refine carried snapshot listed ?_ notStranded other
    intro isHold
    rw [isHold, describes.find_none noHold] at present
    cases present
  refine ⟨fun name notStranded present => ?_, fun actual => fits_iff_carried held all⟩
  by_cases same : name = point
  · obtain ⟨overlay, found, _⟩ := held
    rw [same, found]
    rfl
  obtain ⟨copy, _, copied, _⟩ := all name notStranded same present
  rw [copied]
  rfl

theorem Going.prepare {layer : Path} {opened : Disk} (apart : layer ≠ base)
    (going : Going fs base bottom thawing nodes file beneath)
    (reaches : Reaches fs build (update nodes layer (some (.disk opened))))
    (active : build.active base = thawing.build.active base) :
    Going fs base bottom { thawing with build := build } (update nodes layer (some (.disk opened))) file
      beneath := by
  refine ⟨reaches, ?_, going.writable, ?_, going.held, going.point⟩
  · rw [update_of_ne (Ne.symm apart)]
    exact going.found
  intro name current
  rw [active] at current
  exact going.current name current

theorem Going.frozenLayer {input : ThawInput} {layer : Nat × DiskFacts}
    (apart : layer.2.path ≠ base) (going : Going fs base bottom thawing nodes file beneath)
    (describes : Describes (nodes layer.2.path) layer.2 layerFile) (backed : layerFile.backing = some lower)
    (noHold : layer.2.has holdSnapshot = false)
    (frozen : ∀ point, input.points layer.1 = some point → layerFile.find point = some layerFile.active)
    (accepted : thawing.frozenLayer input machine top base stranded layer = .ok out) :
    ∃ (nodesAfter : Path → Option Node) (after : Disk) (standing : Content),
      Going fs base bottom out nodesAfter after standing ∧ Keeps stranded file after ∧
      (∀ path, path ≠ base → path ≠ layer.2.path → nodesAfter path = nodes path) ∧
      input.points layer.1 = some out.basePoint ∧
      Taken layerFile after stranded bottom thawing.basePoint beneath := by
  cases pointed : input.points layer.1 with
  | none => simp [Thawing.frozenLayer, ThawInput.point, pointed, bind, Except.bind] at accepted
  | some own =>
    have ownFound := frozen own pointed
    simp only [Thawing.frozenLayer, ThawInput.point, pointed, bind, Except.bind] at accepted
    split at accepted
    · cases accepted
    rename_i carriedThawing carriedOk
    split at accepted
    · cases accepted
    cases accepted
    -- the layer opened and pointed at the base
    have opened := (going.reaches.writable describes.found [.readOnly layer.2.path]).setActive layer.2.path
      (some own)
    have rebased := opened.rebaseOnto base (update_self ..) rfl backed
      (describes.backing.symm.trans backed)
    rw [update_idem] at rebased
    have ready := going.prepare apart rebased (by simp [Ne.symm apart])
    obtain ⟨⟨nodesAfter, after, active, goes, on, keeps, off, carried⟩, same⟩ := ready.carryAll apart
      ⟨update_self .., rfl, rfl, by
        intro name active
        rw [active_rebaseOnto, active_setActive, update_self] at active
        cases active
        exact ownFound⟩
      (fun snapshot listed => (describes.find_iff snapshot.name).mpr (mem_map_of_mem listed)) carriedOk
    -- the base goes to what it holds under the name of the layer's own freeze point
    rename_i notMissing
    obtain ⟨copy, copied⟩ := Option.isSome_iff_exists.mp ((goes.held own).mp (not_not.mp notMissing))
    have applied := goes.reaches.apply goes.found goes.writable copied (by
      intro current
      exact Option.some.inj ((goes.current own current).symm.trans copied))
    have taken : Taken layerFile { after with active := copy } stranded bottom thawing.basePoint beneath :=
      .of_carriedAll describes noHold (same ▸ goes.point) carried
    refine ⟨_, { after with active := copy }, copy.over bottom, ⟨applied, update_self ..,
      goes.writable, ?_, goes.held, ⟨copy, copied, rfl⟩⟩, { keeps with }, ?_, rfl,
      taken⟩
    · intro name current
      rw [active_apply, update_self] at current
      cases current
      exact copied
    · intro path offBase offLayer
      rw [update_of_ne offBase, off path offBase offLayer, update_of_ne offLayer]

theorem Going.topLayer {top : DiskFacts} (apart : top.path ≠ base)
    (going : Going fs base bottom thawing nodes file beneath)
    (describes : Describes (nodes top.path) top layerFile) (backed : layerFile.backing = some lower)
    (writable : layerFile.readOnly = false) (noHold : top.has holdSnapshot = false)
    (accepted : thawing.topLayer machine base stranded top = .ok out) :
    ∃ (nodesAfter : Path → Option Node) (after topAfter : Disk),
      Reaches fs out.build nodesAfter ∧ nodesAfter base = some (.disk after) ∧
      nodesAfter top.path = some (.disk topAfter) ∧ after.active.over bottom = layerFile.active.over beneath ∧
      Keeps stranded file after ∧ (∀ path, path ≠ base → path ≠ top.path → nodesAfter path = nodes path) ∧
      Taken layerFile after stranded bottom thawing.basePoint beneath := by
  have noFind := describes.find_none noHold
  simp only [Thawing.topLayer, bind, Except.bind] at accepted
  split at accepted
  · cases accepted
  rename_i carriedThawing carriedOk
  cases accepted
  -- the top's state held under a name, and the top pointed at the base
  have created := going.reaches.create describes.found writable holdSnapshot
  have rebased := created.rebaseOnto base (update_self ..) writable backed
    (describes.backing.symm.trans backed)
  rw [update_idem] at rebased
  have ready := going.prepare apart rebased (by simp [Ne.symm apart])
  have holds := find_create_self layerFile noFind
  obtain ⟨⟨nodesAfter, after, active, goes, on, keeps, off, carried⟩, same⟩ := ready.carryAll apart
    ⟨update_self .., writable, rfl, by
      intro name active
      rw [active_rebaseOnto, active_create, update_self] at active
      cases active
      exact holds⟩
    (by
      intro snapshot listed
      have present := (describes.find_iff snapshot.name).mpr (mem_map_of_mem listed)
      obtain ⟨overlay, found⟩ := Option.isSome_iff_exists.mp present
      exact Option.isSome_iff_exists.mpr ⟨overlay, find_create_of_some layerFile found⟩) carriedOk
  obtain ⟨point, pointFound, pointReads, merged⟩ := goes.merge apart on holds
  refine ⟨_, { after with active := layerFile.active.onto point }, _, merged, update_self ..,
    (update_of_ne apart ..).trans (update_self ..), ?_,
    { keeps with }, ?_, ?_⟩
  · rw [onto_over, pointReads]
  · intro path offBase offTop
    rw [update_of_ne offBase, update_of_ne offTop, off path offBase offTop, update_of_ne offTop]
  refine .of_carriedAll describes noHold ⟨point, same ▸ pointFound, pointReads⟩ ?_
  intro snapshot listed other kept away
  obtain ⟨copy, overlay, copied, named, reads⟩ := carried snapshot listed other kept away
  exact ⟨copy, overlay, copied, (find_create_of_ne layerFile other).symm.trans named, reads⟩

end

/-! ## One disk's chain -/

def pairs (upper : DiskFacts) : List (Nat × DiskFacts) → List (DiskFacts × Nat × DiskFacts)
  | [] => []
  | layer :: rest => (upper, layer) :: pairs layer.2 rest

def ThawDisk.files (disk : ThawDisk) : List DiskFacts := disk.top :: disk.layers.map (·.2)

def ThawDisk.paths (disk : ThawDisk) : List Path :=
  if disk.layers = [] then [] else beside disk.top.path thawSuffix :: disk.files.map (·.path)

/-- A chain of frozen files as the freezes left it, with the main lab's overlay on it. -/
structure Chain (fs : Fs) (input : ThawInput) (touched : List Path) (disk : ThawDisk) : Prop where
  described : ∀ facts ∈ disk.files, ∃ file, Describes (fs.nodes facts.path) facts file
  frozen : ∀ layer ∈ disk.layers, ∀ point, input.points layer.1 = some point →
    ∀ file, fs.nodes layer.2.path = some (.disk file) → file.find point = some file.active
  linked : ∀ pair ∈ pairs disk.top disk.layers, pair.1.backing = some pair.2.2.path
  writable : ∀ file, fs.nodes disk.top.path = some (.disk file) → file.readOnly = false
  old : fs.nodes (beside disk.top.path thawSuffix) ≠ some .dir
  bottom : ∀ base ∈ disk.layers.getLast?, ∀ file, fs.nodes base.2.path = some (.disk file) →
    ∃ content, Below (fs.without (· ∈ touched)) file content

def Standing (fs : Fs) (input : ThawInput) (stranded : List Name) (base : Path) (layer : Nat × DiskFacts)
    (content : Content) : Prop :=
  ∃ point, input.points layer.1 = some point ∧
    if point ∈ stranded then SnapshotReads fs base point content else Reads fs layer.2.path content

def Fitting (fs : Fs) (input : ThawInput) (stranded : List Name) (base : Path)
    (pair : DiskFacts × Nat × DiskFacts) : Prop :=
  ∀ file point standing actual, fs.nodes pair.1.path = some (.disk file) → input.points pair.2.1 = some point →
    Standing fs input stranded base pair.2 standing → Reads fs pair.2.2.path actual →
    Fits file stranded point standing actual

def Holds (fs : Fs) (file : Disk) (bottom : Content) (stranded : List Name) (path : Path) : Prop :=
  ∀ name ∉ stranded, ∀ content, SnapshotReads fs path name content →
    ∃ copy, file.find name = some copy ∧ copy.over bottom = content

section

variable {fs : Fs} {input : ThawInput} {machine : Name} {top : Path} {stranded : List Name} {base : Path}
  {bottom : Content}

theorem Standing.unique {layer : Nat × DiskFacts} {left right : Content}
    (first : Standing fs input stranded base layer left) (second : Standing fs input stranded base layer right) :
    left = right := by
  obtain ⟨point, pointed, one⟩ := first
  obtain ⟨other, otherPointed, two⟩ := second
  rw [pointed] at otherPointed
  cases otherPointed
  by_cases dropped : point ∈ stranded
  · rw [if_pos dropped] at one two
    exact one.unique two
  · rw [if_neg dropped] at one two
    exact one.unique two

def Present (fs : Fs) (file : Disk) (stranded : List Name) (path : Path) : Prop :=
  ∀ name ∉ stranded, ∀ content, SnapshotReads fs path name content → (file.find name).isSome = true

theorem Present.keeps {before : Disk} {path : Path} (present : Present fs before stranded path)
    (keeps : Keeps stranded before after) : Present fs after stranded path := by
  intro name kept content reads
  obtain ⟨copy, copied⟩ := Option.isSome_iff_exists.mp (present name kept content reads)
  rw [keeps.kept name copy copied]
  rfl

theorem Holds.keeps_iff {before : Disk} {path : Path} (keeps : Keeps stranded before after)
    (present : Present fs before stranded path) :
    Holds fs before bottom stranded path ↔ Holds fs after bottom stranded path := by
  constructor
  · intro holds name kept content reads
    obtain ⟨copy, copied, same⟩ := holds name kept content reads
    exact ⟨copy, keeps.kept name copy copied, same⟩
  intro holds name kept content reads
  obtain ⟨before, held⟩ := Option.isSome_iff_exists.mp (present name kept content reads)
  obtain ⟨copy, copied, same⟩ := holds name kept content reads
  rw [keeps.kept name before held] at copied
  cases copied
  exact ⟨before, held, same⟩

section

variable {file layerFile : Disk} {path lower : Path} {actual : Content}
  (found : fs.nodes path = some (.disk layerFile)) (backed : layerFile.backing = some lower)
  (reads : Reads fs lower actual)

include found backed reads

theorem snapshotReads_iff {name : Name} :
    SnapshotReads fs path name content ↔ ∃ overlay, layerFile.find name = some overlay ∧
      content = overlay.over actual := by
  constructor
  · rintro ⟨other, overlay, below, otherFound, named, beneath, rfl⟩
    rw [found] at otherFound
    cases otherFound
    rw [Below, backed] at beneath
    exact ⟨overlay, named, by rw [beneath.unique reads]⟩
  · rintro ⟨overlay, named, rfl⟩
    exact ⟨layerFile, overlay, actual, found, named, by rw [Below, backed]; exact reads, rfl⟩

theorem holds_iff_carried : Holds fs file bottom stranded path ↔
    ∀ name ∉ stranded, (layerFile.find name).isSome = true → Carried file layerFile bottom actual name := by
  constructor
  · intro holds name kept present
    obtain ⟨overlay, named⟩ := Option.isSome_iff_exists.mp present
    obtain ⟨copy, copied, same⟩ :=
      holds name kept _ ((snapshotReads_iff found backed reads).mpr ⟨overlay, named, rfl⟩)
    exact ⟨copy, overlay, copied, named, same⟩
  intro carried name kept content snapshot
  obtain ⟨overlay, named, rfl⟩ := (snapshotReads_iff found backed reads).mp snapshot
  obtain ⟨copy, other, copied, otherNamed, same⟩ := carried name kept (by rw [named]; rfl)
  rw [named] at otherNamed
  cases otherNamed
  exact ⟨copy, copied, same⟩

theorem Present.of_taken
    (taken : Taken layerFile file stranded bottom point standing) : Present fs file stranded path := by
  intro name kept content snapshot
  obtain ⟨overlay, named, _⟩ := (snapshotReads_iff found backed reads).mp snapshot
  exact taken.present name kept (by rw [named]; rfl)

end

theorem frozenLayers_append (thawing : Thawing) (first second : List (Nat × DiskFacts)) :
    thawing.frozenLayers input machine top base stranded (first ++ second) =
      (thawing.frozenLayers input machine top base stranded first).bind fun next =>
        next.frozenLayers input machine top base stranded second := by
  induction first generalizing thawing with
  | nil => rfl
  | cons layer rest ih =>
    simp only [cons_append, Thawing.frozenLayers, bind, Except.bind]
    cases thawing.frozenLayer input machine top base stranded layer with
    | error refusal => rfl
    | ok next => exact ih next

structure Lifted (fs : Fs) (input : ThawInput) (stranded : List Name) (base : Path) (bottom : Content) (file : Disk)
    (standing : Content) (layer : Nat × DiskFacts) (rest : List (Nat × DiskFacts)) : Prop where
  present : ∀ other ∈ layer :: rest, Present fs file stranded other.2.path
  right : (∀ pair ∈ pairs layer.2 rest, Fitting fs input stranded base pair) ↔
    ∀ other ∈ layer :: rest, Holds fs file bottom stranded other.2.path
  stands : (∀ other ∈ layer :: rest, Holds fs file bottom stranded other.2.path) →
    Standing fs input stranded base layer standing

structure Collapsing (fs : Fs) (input : ThawInput) (stranded : List Name) (base : Path) (bottom : Content)
    (start : Path → Option Node) (before : Disk) (layer : Nat × DiskFacts) (rest : List (Nat × DiskFacts))
    (thawing : Thawing) : Prop where
  state : ∃ (nodes : Path → Option Node) (file : Disk) (standing : Content),
    Going fs base bottom thawing nodes file standing ∧ Keeps stranded before file ∧
    (∀ path, path ∉ (layer :: rest).map (·.2.path) → nodes path = start path) ∧
    Lifted fs input stranded base bottom file standing layer rest
  point : input.points layer.1 = some thawing.basePoint
  reads : ∃ actual, Reads fs layer.2.path actual

structure Stack (fs : Fs) (input : ThawInput) (base : Path) (layer : Nat × DiskFacts)
    (rest : List (Nat × DiskFacts)) : Prop where
  described : ∀ other ∈ layer :: rest, ∃ file, Describes (fs.nodes other.2.path) other.2 file
  frozen : ∀ other ∈ layer :: rest, ∀ point, input.points other.1 = some point →
    ∀ file, fs.nodes other.2.path = some (.disk file) → file.find point = some file.active
  noHold : ∀ other ∈ layer :: rest, other.2.has holdSnapshot = false
  distinct : ((layer :: rest).map (·.2.path)).Nodup
  last : ((layer :: rest).getLast?.map fun lowest => lowest.2.path) = some base
  linked : ∀ pair ∈ pairs layer.2 rest, pair.1.backing = some pair.2.2.path

theorem Stack.tail {layer lower : Nat × DiskFacts} {rest : List (Nat × DiskFacts)}
    (stack : Stack fs input base layer (lower :: rest)) : Stack fs input base lower rest where
  described other member := stack.described other (mem_cons_of_mem _ member)
  frozen other member := stack.frozen other (mem_cons_of_mem _ member)
  noHold other member := stack.noHold other (mem_cons_of_mem _ member)
  distinct := (nodup_cons.mp stack.distinct).2
  last := by simpa using stack.last
  linked pair member := stack.linked pair (mem_cons_of_mem _ member)

theorem Stack.base_mem {layer : Nat × DiskFacts} {rest : List (Nat × DiskFacts)}
    (stack : Stack fs input base layer rest) : base ∈ (layer :: rest).map (·.2.path) := by
  obtain ⟨lowest, isLast, rfl⟩ := Option.map_eq_some_iff.mp stack.last
  exact mem_map_of_mem (mem_of_getLast? isLast)

theorem Stack.ne_base {layer lower : Nat × DiskFacts} {rest : List (Nat × DiskFacts)}
    (stack : Stack fs input base layer (lower :: rest)) : layer.2.path ≠ base := by
  intro same
  have apart : layer.2.path ∉ (lower :: rest).map (·.2.path) := (nodup_cons.mp stack.distinct).1
  rw [same] at apart
  exact apart stack.tail.base_mem

variable {start : Path → Option Node} {before baseFile : Disk} {thawing out : Thawing} {layer : Nat × DiskFacts}
  {rest : List (Nat × DiskFacts)}

theorem Collapsing.lowest (stack : Stack fs input base layer [])
    (found : fs.nodes base = some (.disk baseFile)) (below : Below fs baseFile bottom)
    (sameFind : before.find = baseFile.find)
    (going : Going fs base bottom thawing start before (baseFile.active.over bottom))
    (pointed : input.points layer.1 = some thawing.basePoint) :
    Collapsing fs input stranded base bottom start before layer [] thawing := by
  have path : layer.2.path = base := by simpa using stack.last
  have reads : Reads fs layer.2.path (baseFile.active.over bottom) := by
    rw [path]
    exact (reads_iff found).mpr ⟨bottom, below, rfl⟩
  have own := stack.frozen layer (mem_singleton_self layer) _ pointed baseFile (by rw [path]; exact found)
  have holds : ∀ other ∈ [layer], Holds fs before bottom stranded other.2.path := by
    intro other member
    rw [mem_singleton.mp member, path]
    rintro name kept content ⟨file, overlay, beneath, otherFound, named, under, rfl⟩
    rw [found] at otherFound
    cases otherFound
    exact ⟨overlay, by rw [sameFind]; exact named, by rw [under.unique below]⟩
  refine ⟨⟨start, before, _, going, .refl stranded before, fun _ _ => rfl, ?_, ⟨fun _ => holds, nofun⟩, fun _ => ?_⟩,
    pointed, _, reads⟩
  · intro other member name kept content snapshot
    obtain ⟨copy, copied, _⟩ := holds other member name kept content snapshot
    rw [copied]
    rfl
  refine ⟨_, pointed, ?_⟩
  split
  · exact ⟨baseFile, _, bottom, found, own, below, rfl⟩
  · exact reads

theorem Lifted.right_cons {mid upperFile : Disk} {upper : DiskFacts} {actual : Content}
    (lifted : Lifted fs input stranded base bottom mid standing layer rest) (keeps : Keeps stranded mid after)
    (found : fs.nodes upper.path = some (.disk upperFile)) (backed : upperFile.backing = some layer.2.path)
    (reads : Reads fs layer.2.path actual) (pointed : input.points layer.1 = some point)
    (taken : Taken upperFile after stranded bottom point standing) :
    (∀ pair ∈ pairs upper (layer :: rest), Fitting fs input stranded base pair) ↔
      Holds fs after bottom stranded upper.path ∧
        ∀ other ∈ layer :: rest, Holds fs after bottom stranded other.2.path := by
  have lowerHeld : (∀ other ∈ layer :: rest, Holds fs mid bottom stranded other.2.path) ↔
      ∀ other ∈ layer :: rest, Holds fs after bottom stranded other.2.path :=
    forall₂_congr fun other member => Holds.keeps_iff keeps (lifted.present other member)
  have ownHeld := taken.right actual |>.trans (holds_iff_carried found backed reads).symm
  rw [pairs, forall_mem_cons]
  constructor
  · rintro ⟨fitting, lowerFitting⟩
    have held := lifted.right.mp lowerFitting
    exact ⟨ownHeld.mp (fitting upperFile point standing actual found pointed (lifted.stands held) reads),
      lowerHeld.mp held⟩
  rintro ⟨holds, held⟩
  have heldMid := lowerHeld.mpr held
  refine ⟨?_, lifted.right.mpr heldMid⟩
  intro file other otherStanding otherActual otherFound otherPointed otherStands otherReads
  rw [found] at otherFound
  cases otherFound
  rw [pointed] at otherPointed
  cases otherPointed
  rw [otherStands.unique (lifted.stands heldMid), otherReads.unique reads]
  exact ownHeld.mpr holds

theorem Collapsing.step {lower : Nat × DiskFacts} (stack : Stack fs input base layer (lower :: rest))
    (unchanged : start layer.2.path = fs.nodes layer.2.path)
    (found : fs.nodes base = some (.disk baseFile)) (below : Below fs baseFile bottom)
    (sameFind : before.find = baseFile.find)
    (collapsing : Collapsing fs input stranded base bottom start before lower rest thawing)
    (accepted : thawing.frozenLayer input machine top base stranded layer = .ok out) :
    Collapsing fs input stranded base bottom start before layer (lower :: rest) out := by
  obtain ⟨⟨nodes, file, standing, going, keeps, off, lifted⟩, pointed, actual, reads⟩ := collapsing
  obtain ⟨layerFile, describes⟩ := stack.described layer mem_cons_self
  have backed : layerFile.backing = some lower.2.path :=
    describes.backing.trans (stack.linked (layer.2, lower) mem_cons_self)
  have now : nodes layer.2.path = fs.nodes layer.2.path := (off _ (nodup_cons.mp stack.distinct).1).trans unchanged
  have frozen := fun point isPoint =>
    stack.frozen layer mem_cons_self point isPoint layerFile describes.found
  obtain ⟨nodesAfter, after, standingAfter, goes, keepsAfter, offAfter, pointedAfter, taken⟩ :=
    going.frozenLayer stack.ne_base (now ▸ describes) backed (stack.noHold layer mem_cons_self) frozen
      accepted
  have layerReads : Reads fs layer.2.path (layerFile.active.over actual) :=
    (reads_iff describes.found).mpr ⟨actual, by rw [Below, backed]; exact reads, rfl⟩
  have keepsAll := keeps.trans keepsAfter
  refine ⟨⟨nodesAfter, after, standingAfter, goes, keepsAll, ?_, ?_, ?_, ?_⟩, pointedAfter, _, layerReads⟩
  · intro path outside
    rw [map_cons, mem_cons, not_or] at outside
    rw [offAfter path (fun same => outside.2 (same ▸ stack.tail.base_mem)) outside.1, off path outside.2]
  · rw [forall_mem_cons]
    exact ⟨.of_taken describes.found backed reads taken, fun other member => (lifted.present other member).keeps
      keepsAfter⟩
  · rw [forall_mem_cons]
    exact lifted.right_cons keepsAfter describes.found backed reads pointed taken
  · -- the base stands at the layer's own freeze point, by the name that it has it under
    intro held
    have holds := held layer mem_cons_self
    obtain ⟨overlay, named, same⟩ := goes.point
    refine ⟨_, pointedAfter, ?_⟩
    split
    · rename_i dropped
      rw [keepsAll.dropped _ dropped, sameFind] at named
      exact ⟨baseFile, overlay, bottom, found, named, below, same.symm⟩
    rename_i kept
    obtain ⟨copy, copied, equal⟩ := holds _ kept _ ((snapshotReads_iff describes.found backed reads).mpr
      ⟨_, frozen _ pointedAfter, rfl⟩)
    rw [named] at copied
    cases copied
    rw [← same, equal]
    exact layerReads

theorem Collapsing.layers (stack : Stack fs input base layer rest)
    (unchanged : ∀ other ∈ layer :: rest, other.2.path ≠ base → start other.2.path = fs.nodes other.2.path)
    (pointed : ∀ lowest ∈ (layer :: rest).getLast?, input.points lowest.1 = some thawing.basePoint)
    (found : fs.nodes base = some (.disk baseFile)) (below : Below fs baseFile bottom)
    (sameFind : before.find = baseFile.find)
    (going : Going fs base bottom thawing start before (baseFile.active.over bottom))
    (accepted : thawing.frozenLayers input machine top base stranded (layer :: rest).dropLast.reverse = .ok out) :
    Collapsing fs input stranded base bottom start before layer rest out := by
  induction rest generalizing layer out with
  | nil =>
    cases accepted
    exact .lowest stack found below sameFind going (pointed layer rfl)
  | cons lower rest ih =>
    rw [dropLast_cons_cons, reverse_cons, frozenLayers_append] at accepted
    cases lowerDone : thawing.frozenLayers input machine top base stranded (lower :: rest).dropLast.reverse with
    | error refusal =>
      rw [lowerDone] at accepted
      cases accepted
    | ok mid =>
      rw [lowerDone] at accepted
      simp only [Except.bind, Thawing.frozenLayers, bind] at accepted
      cases done : mid.frozenLayer input machine top base stranded layer with
      | error refusal =>
        rw [done] at accepted
        cases accepted
      | ok next =>
        rw [done] at accepted
        cases accepted
        have lowerCollapsing := ih stack.tail
          (fun other member => unchanged other (mem_cons_of_mem _ member))
          (fun lowest isLast => pointed lowest (by simpa using isLast)) lowerDone
        exact .step stack (unchanged layer mem_cons_self stack.ne_base) found below sameFind
          lowerCollapsing done

/-- What is to hold of a disk's chain: every file of it fits the one beneath, and so does the state of the top. -/
structure DiskFits (fs : Fs) (input : ThawInput) (stranded : List Name) (disk : ThawDisk) (base : Path) : Prop where
  fitting : ∀ pair ∈ pairs disk.top disk.layers, Fitting fs input stranded base pair
  state : ∀ nearest ∈ disk.layers.head?, ∀ file, fs.nodes disk.top.path = some (.disk file) →
    ∀ standing actual, Standing fs input stranded base nearest standing → Reads fs nearest.2.path actual →
      file.active.over standing = file.active.over actual

structure Collapsed (fs : Fs) (input : ThawInput) (touched : List Path) (stranded : List Name) (disk : ThawDisk)
    (base : Path) (file : Disk) (bottom : Content) : Prop where
  below : Below (fs.without (· ∈ touched)) file bottom
  based : Holds fs file bottom [] base
  right : DiskFits fs input stranded disk base ↔
    (∀ content, Reads fs disk.top.path content → file.active.over bottom = content) ∧
      ∀ facts ∈ disk.files, Holds fs file bottom stranded facts.path

variable {touched : List Path} {disk : ThawDisk} {nodes : Path → Option Node} {build : Build}

section

variable {gone : Path → Bool} {file : Disk} (below : Below (fs.without gone) file content)
include below

theorem Below.outside {next : Fs}
    (same : ∀ path, gone path = false → next.nodes path = fs.nodes path) : Below next file content := by
  rw [Below] at below ⊢
  cases backed : file.backing with
  | none =>
    rw [backed] at below
    exact below
  | some backing =>
    rw [backed] at below
    exact below.outside same

theorem Below.of_without : Below fs file content := below.outside fun _ _ => rfl

end

theorem ThawDisk.paths_of_layers (disk : ThawDisk) (layered : disk.layers = layer :: rest) :
    disk.paths = beside disk.top.path thawSuffix :: disk.top.path :: (layer :: rest).map (·.2.path) := by
  simp [ThawDisk.paths, ThawDisk.files, layered]

theorem Chain.stack (chain : Chain fs input touched disk) (layered : disk.layers = layer :: rest)
    (distinct : disk.paths.Nodup) (lowest : Nat × DiskFacts) (isLast : (layer :: rest).getLast? = some lowest)
    (noHold : ∀ other ∈ disk.layers, other.2.has holdSnapshot = false) : Stack fs input lowest.2.path layer rest where
  described other member := chain.described other.2 (by
    rw [ThawDisk.files, layered]
    exact mem_cons_of_mem _ (mem_map_of_mem member))
  frozen other member := chain.frozen other (layered ▸ member)
  noHold other member := noHold other (layered ▸ member)
  distinct := by
    rw [disk.paths_of_layers layered] at distinct
    exact (nodup_cons.mp (nodup_cons.mp distinct).2).2
  last := by rw [isLast]; rfl
  linked pair member := chain.linked pair (by
    rw [layered, pairs]
    exact mem_cons_of_mem _ member)

theorem Going.open_base {facts : DiskFacts} (reaches : Reaches fs build nodes)
    (describes : Describes (nodes facts.path) facts baseFile) (noHold : facts.has holdSnapshot = false)
    (own : baseFile.find point = some baseFile.active) : Going fs facts.path bottom
      ⟨(build.push (.writable facts.path) [.readOnly facts.path]).setActive facts.path (some point), facts.names, point⟩
      (update nodes facts.path (some (.disk { baseFile with readOnly := false })))
      { baseFile with readOnly := false } (baseFile.active.over bottom) where
  reaches := (reaches.writable describes.found _).setActive _ _
  found := update_self ..
  writable := rfl
  current name active := by
    rw [active_setActive, update_self] at active
    cases active
    exact own
  held name := by
    have isNamed : (({ baseFile with readOnly := false } : Disk).find name).isSome = true ↔ _ := describes.find_iff name
    rw [isNamed, DiskFacts.names, List.mem_filter]
    refine ⟨fun both => both.1, fun member => ⟨member, ?_⟩⟩
    rw [decide_eq_true_eq]
    rintro rfl
    have present := (describes.find_iff holdSnapshot).mpr member
    rw [describes.find_none noHold] at present
    cases present
  point := ⟨baseFile.active, own, rfl⟩

theorem Lifted.diskFits_iff {mid topFile : Disk} {actual : Content}
    (lifted : Lifted fs input stranded base bottom mid standing layer rest) (layered : disk.layers = layer :: rest)
    (keeps : Keeps stranded mid after) (found : fs.nodes disk.top.path = some (.disk topFile))
    (backed : topFile.backing = some layer.2.path) (reads : Reads fs layer.2.path actual)
    (pointed : input.points layer.1 = some point) (taken : Taken topFile after stranded bottom point standing)
    (current : after.active.over bottom = topFile.active.over standing) : DiskFits fs input stranded disk base ↔
      (∀ content, Reads fs disk.top.path content → after.active.over bottom = content) ∧
        ∀ facts ∈ disk.files, Holds fs after bottom stranded facts.path := by
  have right := lifted.right_cons keeps found backed reads pointed taken
  have topReads : Reads fs disk.top.path (topFile.active.over actual) :=
    (reads_iff found).mpr ⟨actual, by rw [Below, backed]; exact reads, rfl⟩
  rw [ThawDisk.files, forall_mem_cons, forall_mem_map, layered]
  constructor
  · rintro ⟨fitting, state⟩
    rw [layered] at fitting
    have stands := lifted.stands (lifted.right.mp fun pair member => fitting pair (mem_cons_of_mem _ member))
    refine ⟨fun content contentReads => ?_, right.mp fitting⟩
    rw [current, contentReads.unique topReads]
    exact state layer (by rw [layered]; rfl) topFile found standing actual stands reads
  rintro ⟨active, holds⟩
  have fitting := right.mpr holds
  have stands := lifted.stands (lifted.right.mp fun pair member => fitting pair (mem_cons_of_mem _ member))
  refine ⟨layered ▸ fitting, ?_⟩
  intro nearest isNearest file otherFound otherStanding otherActual otherStands otherReads
  rw [layered] at isNearest
  cases isNearest
  rw [found] at otherFound
  cases otherFound
  rw [otherStands.unique stands, otherReads.unique reads, ← current]
  exact active _ topReads

theorem Chain.carries {plans : Thawing} {thawed : Thawing} {lowest : Nat × DiskFacts}
    (chain : Chain fs input touched disk) (layered : disk.layers = layer :: rest) (distinct : disk.paths.Nodup)
    (isLast : (layer :: rest).getLast? = some lowest) (pointed : input.points lowest.1 = some point)
    (noHold : ∀ facts ∈ disk.files, facts.has holdSnapshot = false) (reaches : Reaches fs build nodes)
    (unchanged : ∀ path ∈ disk.paths, nodes path = fs.nodes path)
    (layersDone : Thawing.frozenLayers input machine disk.top.path lowest.2.path stranded
    ⟨(build.push (.writable lowest.2.path) [.readOnly lowest.2.path]).setActive lowest.2.path (some point),
    lowest.2.names, point⟩ disk.layers.dropLast.reverse = .ok plans)
    (topDone : plans.topLayer machine lowest.2.path stranded disk.top = .ok thawed) :
    ∃ (nodesAfter : Path → Option Node) (file topFile : Disk) (bottom : Content),
      Reaches fs thawed.build nodesAfter ∧ nodesAfter lowest.2.path = some (.disk file) ∧
      nodesAfter disk.top.path = some (.disk topFile) ∧
      Collapsed fs input touched stranded disk lowest.2.path file bottom ∧
      ∀ path, path ≠ disk.top.path → path ∉ disk.layers.map (·.2.path) → nodesAfter path = nodes path := by
  have paths := disk.paths_of_layers layered
  have member : lowest ∈ layer :: rest := mem_of_getLast? isLast
  have stack := chain.stack layered distinct lowest isLast
    (fun other isLayer => noHold other.2 (mem_cons_of_mem _ (mem_map_of_mem isLayer)))
  rw [paths] at distinct unchanged
  obtain ⟨_, topApart, _⟩ : _ ∧ disk.top.path ∉ (layer :: rest).map (·.2.path) ∧ _ := by
    simpa only [nodup_cons] using distinct
  -- the base, open and at its freeze point
  obtain ⟨baseFile, baseDescribes⟩ := stack.described lowest member
  obtain ⟨bottom, outside⟩ := chain.bottom lowest (by rw [layered]; exact isLast) baseFile baseDescribes.found
  have below := outside.of_without
  have baseNow : nodes lowest.2.path = fs.nodes lowest.2.path :=
    unchanged _ (mem_cons_of_mem _ (mem_cons_of_mem _ (mem_map_of_mem member)))
  have opened : Going fs lowest.2.path bottom _ _ _ _ := .open_base reaches (baseNow ▸ baseDescribes)
    (stack.noHold lowest member) (stack.frozen lowest member point pointed baseFile baseDescribes.found)
  have sameFind : ({ baseFile with readOnly := false } : Disk).find = baseFile.find := rfl
  rw [layered] at layersDone
  obtain ⟨⟨midNodes, mid, standing, going, keeps, off, lifted⟩, nearestPoint, actual, reads⟩ :=
    Collapsing.layers stack (by
      intro other isLayer apart
      rw [update_of_ne apart]
      exact unchanged _ (mem_cons_of_mem _ (mem_cons_of_mem _ (mem_map_of_mem isLayer))))
      (by
        intro other isLowest
        rw [isLast] at isLowest
        cases isLowest
        exact pointed) baseDescribes.found below sameFind opened layersDone
  -- the main lab's overlay
  obtain ⟨topFile, topDescribes⟩ := chain.described disk.top mem_cons_self
  have onTop : (disk.top, layer) ∈ pairs disk.top disk.layers := by
    rw [layered]
    exact mem_cons_self ..
  have topBacked : topFile.backing = some layer.2.path := topDescribes.backing.trans (chain.linked _ onTop)
  have topNe : disk.top.path ≠ lowest.2.path := by
    intro same
    rw [same] at topApart
    exact topApart (mem_map_of_mem member)
  have topNow : midNodes disk.top.path = fs.nodes disk.top.path := by
    rw [off _ topApart, update_of_ne topNe]
    exact unchanged _ (by simp)
  obtain ⟨nodesAfter, after, topAfter, finished, baseAfter, topThere, current, keepsAfter, offAfter, taken⟩ :=
    going.topLayer topNe (topNow ▸ topDescribes) topBacked (chain.writable topFile topDescribes.found)
      (noHold disk.top mem_cons_self) topDone
  have keepsAll := keeps.trans keepsAfter
  refine ⟨nodesAfter, after, topAfter, bottom, finished, baseAfter, topThere, ⟨?_, ?_, ?_⟩, ?_⟩
  · rw [Below, keepsAll.backing]
    exact outside
  · rintro name _ content ⟨file, overlay, beneath, found, named, under, rfl⟩
    rw [baseDescribes.found] at found
    cases found
    exact ⟨overlay, keepsAll.kept name overlay named, by rw [under.unique below]⟩
  · exact lifted.diskFits_iff layered keepsAfter topDescribes.found topBacked reads nearestPoint taken current
  · intro path offTop offLayers
    rw [layered] at offLayers
    have offBase : path ≠ lowest.2.path := fun same => offLayers (same ▸ mem_map_of_mem member)
    rw [offAfter path offBase offTop, off path offLayers, update_of_ne offBase]

theorem noHold_of_not (none : ¬(disk.top.has holdSnapshot = true ∨
    disk.layers.any (fun layer => layer.2.has holdSnapshot) = true)) :
    ∀ facts ∈ disk.files, facts.has holdSnapshot = false := by
  intro facts isFile
  rw [not_or, Bool.not_eq_true, Bool.not_eq_true, any_eq_false] at none
  cases mem_cons.mp isFile with
  | inl first =>
    rw [first]
    exact none.1
  | inr later =>
    obtain ⟨layer, isLayer, rfl⟩ := mem_map.mp later
    simpa using none.2 layer isLayer

theorem Reaches.replace {old top base : Path} {topFile file : Disk} (reaches : Reaches fs build nodes)
    (topThere : nodes top = some (.disk topFile)) (baseThere : nodes base = some (.disk file))
    (notDir : nodes old ≠ some .dir) (oldTop : old ≠ top) (oldBase : old ≠ base) (topBase : top ≠ base) :
    ∃ nodesAfter, Reaches fs ((build.push (.rename top old) [.rename old top]).push (.rename base top)
        [.rename top base]) nodesAfter ∧ nodesAfter top = some (.disk file) ∧
      ∀ path, path ≠ old → path ≠ top → path ≠ base → nodesAfter path = nodes path := by
  have moved := reaches.rename topThere notDir [.rename old top]
  have baseNow : update (update nodes top none) old (some (.disk topFile)) base = some (.disk file) := by
    rw [update_of_ne (Ne.symm oldBase), update_of_ne (Ne.symm topBase)]
    exact baseThere
  have free : update (update nodes top none) old (some (.disk topFile)) top ≠ some .dir := by
    rw [update_of_ne (Ne.symm oldTop), update_self]
    exact nofun
  refine ⟨_, moved.rename baseNow free [.rename top base], update_self .., ?_⟩
  intro path offOld offTop offBase
  rw [update_of_ne offTop, update_of_ne offBase, update_of_ne offOld, update_of_ne offTop]

theorem thawDisk_spec {out : Build × List Name} (chain : disk.layers ≠ [] → Chain fs input touched disk)
    (distinct : disk.paths.Nodup) (reaches : Reaches fs build nodes) (unchanged : ∀ path ∈ disk.paths, nodes path = fs.nodes path)
    (accepted : thawDisk input machine stranded build disk = .ok out) :
    ∃ (nodesAfter : Path → Option Node), Reaches fs out.1 nodesAfter ∧
      (∀ base ∈ disk.layers.getLast?, ∃ file bottom, nodesAfter disk.top.path = some (.disk file) ∧
        Collapsed fs input touched stranded disk base.2.path file bottom) ∧
      ∀ path ∉ disk.paths, nodesAfter path = nodes path := by
  by_cases unlayered : disk.layers = []
  · simp only [thawDisk, unlayered, getLast?_nil] at accepted
    cases accepted
    exact ⟨nodes, reaches, by simp [unlayered], fun _ _ => rfl⟩
  have chain := chain unlayered
  obtain ⟨layer, rest, layers⟩ := exists_cons_of_ne_nil unlayered
  obtain ⟨lowest, isLast⟩ : ∃ lowest, disk.layers.getLast? = some lowest := by
    rw [layers]
    exact ⟨_, getLast?_eq_some_getLast (cons_ne_nil _ _)⟩
  simp only [thawDisk, isLast] at accepted
  split at accepted
  · cases accepted
  rename_i noHolds
  simp only [bind, Except.bind, ThawInput.point] at accepted
  cases pointed : input.points lowest.1 with
  | none =>
    rw [pointed] at accepted
    cases accepted
  | some point =>
    rw [pointed] at accepted
    dsimp only at accepted
    split at accepted
    · cases accepted
    rename_i plans layersDone
    split at accepted
    · cases accepted
    rename_i thawed topDone
    cases accepted
    obtain ⟨nodesAfter, file, topFile, bottom, finished, baseThere, topThere, collapsed, off⟩ :=
      chain.carries layers distinct (layers ▸ isLast) pointed (noHold_of_not noHolds) reaches
        unchanged layersDone topDone
    have paths := disk.paths_of_layers layers
    have baseMem : lowest.2.path ∈ (layer :: rest).map (·.2.path) :=
      mem_map_of_mem (mem_of_getLast? (layers ▸ isLast))
    rw [paths] at distinct
    obtain ⟨oldApart, topApart, _⟩ : beside disk.top.path thawSuffix ∉ _ ∧ disk.top.path ∉ _ ∧ _ := by
      simpa only [nodup_cons] using distinct
    rw [mem_cons, not_or] at oldApart
    have oldNow : nodesAfter (beside disk.top.path thawSuffix) ≠ some .dir := by
      rw [off _ oldApart.1 (layers ▸ oldApart.2), unchanged _ (by rw [paths]; exact mem_cons_self ..)]
      exact chain.old
    obtain ⟨nodesLast, last, replaced, offLast⟩ := finished.replace topThere baseThere oldNow oldApart.1
      (fun same => oldApart.2 (same ▸ baseMem)) (fun same => topApart (same ▸ baseMem))
    refine ⟨nodesLast, last, ?_, ?_⟩
    · intro base isBase
      rw [isLast] at isBase
      cases isBase
      exact ⟨file, bottom, replaced, collapsed⟩
    intro path outside
    rw [paths, mem_cons, mem_cons, not_or, not_or] at outside
    rw [offLast path outside.1 outside.2.1 (fun same => outside.2.2 (same ▸ baseMem)),
      off path outside.2.1 (layers ▸ outside.2.2)]

end

/-! ## The whole plan -/

def ThawInput.touched (input : ThawInput) : List Path :=
  input.machines.flatMap fun machine => machine.disks.flatMap ThawDisk.paths

/-- At the disk's own path lies a file that has no frozen layer beneath it, reads as the disk did and holds the
snapshots of every layer but those that are dropped, as they read there. The base's own snapshots are all there. -/
structure Thawed (fs after : Fs) (touched : List Path) (stranded : List Name) (disk : ThawDisk) (base : Path) :
    Prop where
  freed : ∃ file bottom, after.nodes disk.top.path = some (.disk file) ∧
    Below (after.without (· ∈ touched)) file bottom
  active : ∀ content, Reads fs disk.top.path content → Reads after disk.top.path content
  snapshots : ∀ facts ∈ disk.files, ∀ name ∉ stranded, ∀ content,
    SnapshotReads fs facts.path name content → SnapshotReads after disk.top.path name content
  based : ∀ name content, SnapshotReads fs base name content → SnapshotReads after disk.top.path name content

section

variable {fs : Fs} {input : ThawInput} {touched : List Path} {nodes : Path → Option Node} {build : Build}

def Replaced (fs : Fs) (input : ThawInput) (touched : List Path) (stranded : List Name)
    (nodes : Path → Option Node) (disk : ThawDisk) : Prop :=
  ∀ base ∈ disk.layers.getLast?, ∃ file bottom, nodes disk.top.path = some (.disk file) ∧
    Collapsed fs input touched stranded disk base.2.path file bottom

variable {disk : ThawDisk}

theorem top_mem_paths {base : Nat × DiskFacts} (isBase : base ∈ disk.layers.getLast?) :
    disk.top.path ∈ disk.paths := by
  have layered : disk.layers ≠ [] := by
    intro none
    rw [none] at isBase
    cases isBase
  simp [ThawDisk.paths, layered, ThawDisk.files]

variable {stranded : List Name}

theorem Replaced.keep {after : Path → Option Node}
    (replaced : Replaced fs input touched stranded nodes disk) (same : ∀ path ∈ disk.paths, after path = nodes path) :
    Replaced fs input touched stranded after disk := by
  intro base isBase
  obtain ⟨file, bottom, found, collapsed⟩ := replaced base isBase
  exact ⟨file, bottom, (same _ (top_mem_paths isBase)).trans found, collapsed⟩

theorem thawDisks_spec {machine : Name} {disks : List ThawDisk}
    {out : Build × List (List Name)} (chains : ∀ disk ∈ disks, disk.layers ≠ [] → Chain fs input touched disk)
    (distinct : (disks.flatMap ThawDisk.paths).Nodup) (reaches : Reaches fs build nodes)
    (unchanged : ∀ path ∈ disks.flatMap ThawDisk.paths, nodes path = fs.nodes path)
    (accepted : thawDisks input machine stranded build disks = .ok out) : ∃ nodesAfter, Reaches fs out.1 nodesAfter ∧
      (∀ disk ∈ disks, Replaced fs input touched stranded nodesAfter disk) ∧
      ∀ path ∉ disks.flatMap ThawDisk.paths, nodesAfter path = nodes path := by
  induction disks generalizing build nodes out with
  | nil =>
    cases accepted
    exact ⟨nodes, reaches, by simp, fun _ _ => rfl⟩
  | cons disk rest ih =>
    rw [flatMap_cons] at distinct unchanged
    have apart := disjoint_of_nodup_append distinct
    simp only [thawDisks, bind, Except.bind] at accepted
    split at accepted
    · cases accepted
    rename_i first firstDone
    split at accepted
    · cases accepted
    rename_i others othersDone
    cases accepted
    obtain ⟨midNodes, midReaches, replaced, off⟩ := thawDisk_spec (chains disk mem_cons_self)
      distinct.of_append_left reaches (fun path member => unchanged path (mem_append_left _ member)) firstDone
    obtain ⟨nodesAfter, reachesAfter, replacedAfter, offAfter⟩ := ih
      (fun other member => chains other (mem_cons_of_mem _ member)) distinct.of_append_right midReaches
      (by
        intro path member
        rw [off path (fun inFirst => apart inFirst member)]
        exact unchanged path (mem_append_right _ member)) othersDone
    refine ⟨nodesAfter, reachesAfter, ?_, ?_⟩
    · rw [forall_mem_cons]
      refine ⟨?_, replacedAfter⟩
      exact Replaced.keep replaced fun path member => offAfter path fun later => apart member later
    intro path outside
    rw [flatMap_cons, mem_append, not_or] at outside
    rw [offAfter path outside.2, off path outside.1]

theorem thawMachines_spec {machines : List ThawMachine} {out : Build × ThawPlan}
    (chains : ∀ machine ∈ machines, ∀ disk ∈ machine.disks, disk.layers ≠ [] → Chain fs input touched disk)
    (distinct : (machines.flatMap fun machine => machine.disks.flatMap ThawDisk.paths).Nodup)
    (reaches : Reaches fs build nodes)
    (unchanged : ∀ path ∈ machines.flatMap fun machine => machine.disks.flatMap ThawDisk.paths,
      nodes path = fs.nodes path) (accepted : thawMachines input build machines = .ok out) :
    ∃ nodesAfter, Reaches fs out.1 nodesAfter ∧
      (∀ machine ∈ machines, ∀ disk ∈ machine.disks, Replaced fs input touched machine.stranded nodesAfter disk) ∧
      ∀ path ∉ machines.flatMap fun machine => machine.disks.flatMap ThawDisk.paths, nodesAfter path = nodes path := by
  induction machines generalizing build nodes out with
  | nil =>
    cases accepted
    exact ⟨nodes, reaches, by simp, fun _ _ => rfl⟩
  | cons machine rest ih =>
    rw [flatMap_cons] at distinct unchanged
    have apart := disjoint_of_nodup_append distinct
    simp only [thawMachines, bind, Except.bind] at accepted
    split at accepted
    · cases accepted
    split at accepted
    · cases accepted
    rename_i first firstDone
    split at accepted
    · cases accepted
    rename_i others othersDone
    cases accepted
    obtain ⟨midNodes, midReaches, replaced, off⟩ := thawDisks_spec (chains machine mem_cons_self)
      distinct.of_append_left reaches (fun path member => unchanged path (mem_append_left _ member))
      firstDone
    obtain ⟨nodesAfter, reachesAfter, replacedAfter, offAfter⟩ := ih
      (fun other member => chains other (mem_cons_of_mem _ member)) distinct.of_append_right midReaches
      (by
        intro path member
        rw [off path (fun inFirst => apart inFirst member)]
        exact unchanged path (mem_append_right _ member)) othersDone
    refine ⟨nodesAfter, reachesAfter, ?_, ?_⟩
    · rw [forall_mem_cons]
      refine ⟨fun disk isDisk => (replaced disk isDisk).keep ?_, replacedAfter⟩
      intro path member
      exact offAfter path fun later => apart (mem_flatMap.mpr ⟨disk, isDisk, member⟩) later
    intro path outside
    rw [flatMap_cons, mem_append, not_or] at outside
    rw [offAfter path outside.2, off path outside.1]

theorem planThaw_runs {out : ThawPlan} (chains : ∀ machine ∈ input.machines, ∀ disk ∈ machine.disks,
      disk.layers ≠ [] → Chain fs input input.touched disk)
    (distinct : input.touched.Nodup) (accepted : planThaw input = .ok out) :
    ∃ after, runSteps fs out.plan.steps = some after ∧
      (∀ machine ∈ input.machines, ∀ disk ∈ machine.disks,
        Replaced fs input input.touched machine.stranded after.nodes disk) ∧
      ∀ path ∉ input.touched, after.nodes path = fs.nodes path := by
  simp only [planThaw, bind, Except.bind] at accepted
  split at accepted
  · cases accepted
  split at accepted
  · cases accepted
  split at accepted
  · cases accepted
  rename_i thawed thawedDone
  cases accepted
  have start : Reaches fs .empty fs.nodes := ⟨fs, rfl, rfl⟩
  obtain ⟨nodesAfter, ⟨after, runs, rfl⟩, replaced, off⟩ :=
    thawMachines_spec chains distinct start (fun _ _ => rfl) thawedDone
  exact ⟨after, runs, replaced, off⟩

theorem Collapsed.thawed_iff {after : Fs} {base : Path} {file : Disk}
    {bottom : Content} (found : after.nodes disk.top.path = some (.disk file))
    (collapsed : Collapsed fs input touched stranded disk base file bottom)
    (off : ∀ path ∉ touched, after.nodes path = fs.nodes path) :
    Thawed fs after touched stranded disk base ↔ DiskFits fs input stranded disk base := by
  have below : Below after file bottom := collapsed.below.outside fun path untouched => off path (by simpa using untouched)
  have holds_iff : ∀ name content, SnapshotReads after disk.top.path name content ↔
      ∃ copy, file.find name = some copy ∧ copy.over bottom = content := by
    intro name content
    constructor
    · rintro ⟨other, copy, beneath, otherFound, copied, under, rfl⟩
      rw [found] at otherFound
      cases otherFound
      exact ⟨copy, copied, by rw [under.unique below]⟩
    · rintro ⟨copy, copied, rfl⟩
      exact ⟨file, copy, bottom, found, copied, below, rfl⟩
  rw [collapsed.right]
  constructor
  · intro thawed
    refine ⟨fun content reads => ?_, fun facts isFile name kept content snapshot => ?_⟩
    · obtain ⟨beneath, under, rfl⟩ := (reads_iff found).mp (thawed.active content reads)
      rw [under.unique below]
    · exact (holds_iff name content).mp (thawed.snapshots facts isFile name kept content snapshot)
  rintro ⟨active, holds⟩
  refine ⟨⟨file, bottom, found, collapsed.below.outside ?_⟩, ?_, ?_, ?_⟩
  · intro path untouched
    rw [Fs.without]
    simp only [untouched, Bool.false_eq_true, if_false]
    exact off path (by simpa using untouched)
  · intro content reads
    exact (reads_iff found).mpr ⟨bottom, below, (active content reads).symm⟩
  · intro facts isFile name kept content snapshot
    exact (holds_iff name content).mpr (holds facts isFile name kept content snapshot)
  · intro name content snapshot
    exact (holds_iff name content).mpr (collapsed.based name (by simp) content snapshot)

theorem DiskFits.of_marks {base : Path}
    (kept : ∀ layer ∈ disk.layers, ∀ point, input.points layer.1 = some point → point ∉ stranded)
    (marks : ∀ pair ∈ pairs disk.top disk.layers, ∀ file point, fs.nodes pair.1.path = some (.disk file) →
      input.points pair.2.1 = some point → ∀ overlay, file.find point = some overlay → overlay = .empty) :
    DiskFits fs input stranded disk base := by
  have stands : ∀ layer ∈ disk.layers, ∀ standing actual, Standing fs input stranded base layer standing →
      Reads fs layer.2.path actual → standing = actual := by
    rintro layer isLayer standing actual ⟨point, pointed, reads⟩ actualReads
    rw [if_neg (kept layer isLayer point pointed)] at reads
    exact reads.unique actualReads
  have isLayer : ∀ (upper : DiskFacts) (layers : List (Nat × DiskFacts)), ∀ pair ∈ pairs upper layers,
      pair.2 ∈ layers := by
    intro upper layers
    induction layers generalizing upper with
    | nil => exact nofun
    | cons layer rest ih =>
      rw [pairs, forall_mem_cons]
      exact ⟨mem_cons_self .., fun pair member => mem_cons_of_mem _ (ih layer.2 pair member)⟩
  refine ⟨?_, ?_⟩
  · intro pair isPair file point standing actual found pointed standingStands reads
    rw [stands pair.2 (isLayer _ _ pair isPair) standing actual standingStands reads]
    refine ⟨fun _ overlay named => ?_, fun _ _ _ _ _ => rfl⟩
    rw [marks pair isPair file point found pointed overlay named]
    rfl
  · intro nearest isNearest file found standing actual standingStands reads
    rw [stands nearest (mem_of_mem_head? isNearest) standing actual standingStands reads]

/-- An accepted thaw of chains that the freezes left keeps every disk's state and snapshots exactly where every file
fits the frozen file that it lies over. -/
theorem planThaw_keeps_iff {out : ThawPlan} (accepted : planThaw input = .ok out)
    (chains : ∀ machine ∈ input.machines, ∀ disk ∈ machine.disks,
      disk.layers ≠ [] → Chain fs input input.touched disk) (distinct : input.touched.Nodup) :
    (∃ after, runSteps fs out.plan.steps = some after ∧
      ∀ machine ∈ input.machines, ∀ disk ∈ machine.disks, ∀ base ∈ disk.layers.getLast?,
        Thawed fs after input.touched machine.stranded disk base.2.path) ↔
      ∀ machine ∈ input.machines, ∀ disk ∈ machine.disks, ∀ base ∈ disk.layers.getLast?,
        DiskFits fs input machine.stranded disk base.2.path := by
  obtain ⟨after, runs, replaced, off⟩ := planThaw_runs chains distinct accepted
  have each : ∀ machine ∈ input.machines, ∀ disk ∈ machine.disks, ∀ base ∈ disk.layers.getLast?,
      (Thawed fs after input.touched machine.stranded disk base.2.path ↔
        DiskFits fs input machine.stranded disk base.2.path) := by
    intro machine isMachine disk isDisk base isBase
    obtain ⟨file, bottom, found, collapsed⟩ := replaced machine isMachine disk isDisk base isBase
    exact collapsed.thawed_iff found off
  constructor
  · rintro ⟨other, otherRuns, thawed⟩ machine isMachine disk isDisk base isBase
    rw [runs] at otherRuns
    cases otherRuns
    exact (each machine isMachine disk isDisk base isBase).mp (thawed machine isMachine disk isDisk base isBase)
  intro fits
  refine ⟨after, runs, fun machine isMachine disk isDisk base isBase => ?_⟩
  exact (each machine isMachine disk isDisk base isBase).mpr (fits machine isMachine disk isDisk base isBase)

end

/-! ## One frozen generation -/

/-- A disk frozen once at the point `p`. The main lab has since written the first cluster and taken a snapshot. -/
def frozenPath : Path := ["lab".toList, "freeze".toList, "1".toList, "vm".toList, "disk".toList]

def labPath : Path := ["lab".toList, "vm".toList, "disk".toList]

def firstCluster (value : Nat) : Overlay := fun cluster => if cluster = 0 then some value else none

def frozenFile : Disk := ⟨none, firstCluster 1, [⟨"p".toList, 0, firstCluster 1⟩], true⟩

section

variable (snapshot : Name)

def labFile : Disk := ⟨some frozenPath, firstCluster 3, [⟨snapshot, 0, firstCluster 2⟩], false⟩

def frozenOnce : Fs :=
  (Fs.set ⟨fun _ => none, [], fun _ present => absurd rfl present⟩ frozenPath (.disk frozenFile)).set labPath
    (.disk (labFile snapshot))

def frozenOnceDisk : ThawDisk where
  top := ⟨labPath, some frozenPath, false, [⟨snapshot, 0⟩]⟩
  layers := [(1, ⟨frozenPath, none, false, [⟨"p".toList, 0⟩]⟩)]

def frozenOnceInput : ThawInput where
  labLocal := ["lab".toList]
  inLinkedWorktree := false
  machines := [⟨"vm".toList, true, [frozenOnceDisk snapshot], []⟩]
  points generation := if generation = 1 then some "p".toList else none
  dropOnline := false

theorem frozenOnce_lab : (frozenOnce snapshot).nodes labPath = some (.disk (labFile snapshot)) := by
  rw [frozenOnce, nodes_set, update_self]

theorem frozenOnce_frozen : (frozenOnce snapshot).nodes frozenPath = some (.disk frozenFile) := by
  have apart : frozenPath ≠ labPath := by decide
  rw [frozenOnce, nodes_set, update_of_ne apart, nodes_set, update_self]

theorem frozenOnce_chain : ∀ machine ∈ (frozenOnceInput snapshot).machines, ∀ disk ∈ machine.disks, disk.layers ≠ [] →
      Chain (frozenOnce snapshot) (frozenOnceInput snapshot) (frozenOnceInput snapshot).touched disk := by
  intro machine isMachine disk isDisk _
  cases mem_singleton.mp isMachine
  cases mem_singleton.mp isDisk
  refine ⟨?_, ?_, ?_, ?_, ?_, ?_⟩
  · intro facts isFile
    simp only [ThawDisk.files, frozenOnceDisk, map_cons, map_nil, mem_cons, not_mem_nil, or_false] at isFile
    rcases isFile with rfl | rfl
    · exact ⟨labFile snapshot, frozenOnce_lab snapshot, rfl, rfl⟩
    · exact ⟨frozenFile, frozenOnce_frozen snapshot, rfl, rfl⟩
  · intro layer isLayer point pointed file found
    cases mem_singleton.mp isLayer
    rw [frozenOnce_frozen] at found
    cases found
    cases pointed
    rfl
  · intro pair isPair
    cases mem_singleton.mp isPair
    rfl
  · intro file found
    have same := (frozenOnce_lab snapshot).symm.trans found
    cases same
    rfl
  · have absent : (frozenOnce snapshot).nodes (beside labPath thawSuffix) = none := by
      have offLab : beside labPath thawSuffix ≠ labPath := by decide
      have offFrozen : beside labPath thawSuffix ≠ frozenPath := by decide
      simp [frozenOnce, Fs.set, offLab, offFrozen]
    intro isDir
    cases absent.symm.trans isDir
  · intro base isBase file found
    cases isBase
    have same := (frozenOnce_frozen snapshot).symm.trans found
    cases same
    exact ⟨fun _ => 0, rfl⟩

end

theorem planThaw_keeps_frozenOnce : (planThaw (frozenOnceInput "s".toList)).isOk = true ∧
    ∀ out, planThaw (frozenOnceInput "s".toList) = .ok out →
      ∃ after, runSteps (frozenOnce "s".toList) out.plan.steps = some after ∧
        Thawed (frozenOnce "s".toList) after (frozenOnceInput "s".toList).touched [] (frozenOnceDisk "s".toList)
          frozenPath := by
  refine ⟨by decide +kernel, fun out accepted => ?_⟩
  have fits : ∀ machine ∈ (frozenOnceInput "s".toList).machines, ∀ disk ∈ machine.disks,
      ∀ base ∈ disk.layers.getLast?,
        DiskFits (frozenOnce "s".toList) (frozenOnceInput "s".toList) machine.stranded disk base.2.path := by
    intro machine isMachine disk isDisk base isBase
    cases mem_singleton.mp isMachine
    cases mem_singleton.mp isDisk
    refine .of_marks ?_ ?_
    · intro layer isLayer point pointed
      cases mem_singleton.mp isLayer
      cases pointed
      decide +kernel
    intro pair isPair file point found pointed overlay named
    cases mem_singleton.mp isPair
    cases (frozenOnce_lab _).symm.trans found
    cases pointed
    cases named
  obtain ⟨after, runs, thawed⟩ := (planThaw_keeps_iff accepted (frozenOnce_chain _) (by decide +kernel)).mpr fits
  have none : ThawMachine.stranded ⟨"vm".toList, true, [frozenOnceDisk "s".toList], []⟩ = [] := by decide +kernel
  refine ⟨after, runs, ?_⟩
  rw [← none]
  exact thawed _ (mem_singleton_self _) _ (mem_singleton_self _) _ rfl

/-- A snapshot taken after the freeze under the name of the freeze point, which is given up for the frozen one. -/
theorem reused_point_is_lost : ∃ (fs : Fs) (input : ThawInput) (out : ThawPlan), planThaw input = .ok out ∧
    (∀ machine ∈ input.machines, ∀ disk ∈ machine.disks, disk.layers ≠ [] → Chain fs input input.touched disk) ∧
    input.touched.Nodup ∧ ¬∃ after, runSteps fs out.plan.steps = some after ∧
      ∀ machine ∈ input.machines, ∀ disk ∈ machine.disks, ∀ base ∈ disk.layers.getLast?,
        Thawed fs after input.touched machine.stranded disk base.2.path := by
  have accepted : (planThaw (frozenOnceInput "p".toList)).isOk = true := by decide +kernel
  cases planned : planThaw (frozenOnceInput "p".toList) with
  | error refusal =>
    rw [planned] at accepted
    cases accepted
  | ok out =>
    refine ⟨frozenOnce "p".toList, frozenOnceInput "p".toList, out, planned, frozenOnce_chain _,
      by decide +kernel, ?_⟩
    rintro ⟨after, runs, thawed⟩
    have disk := thawed _ (mem_singleton_self _) _ (mem_singleton_self _) _ rfl
    have kept : "p".toList ∉ ThawMachine.stranded ⟨"vm".toList, true, [frozenOnceDisk "p".toList], []⟩ := by
      decide +kernel
    -- before, the lab's snapshot and the frozen one differ in the first cluster
    have frozenReads : Reads (frozenOnce "p".toList) frozenPath ((firstCluster 1).over fun _ => 0) :=
      .bottom (frozenOnce_frozen _) rfl
    have labSnapshot : SnapshotReads (frozenOnce "p".toList) labPath "p".toList
        ((firstCluster 2).over ((firstCluster 1).over fun _ => 0)) :=
      ⟨labFile "p".toList, _, _, frozenOnce_lab _, rfl, frozenReads, rfl⟩
    have frozenSnapshot : SnapshotReads (frozenOnce "p".toList) frozenPath "p".toList
        ((firstCluster 1).over fun _ => 0) :=
      ⟨frozenFile, _, _, frozenOnce_frozen _, rfl, rfl, rfl⟩
    have labAfter := disk.snapshots _ mem_cons_self _ kept _ labSnapshot
    have frozenAfter := disk.based _ _ frozenSnapshot
    have clash := congrFun (labAfter.unique frozenAfter) 0
    simp [Overlay.over, firstCluster] at clash

end Vmlab.Freeze
