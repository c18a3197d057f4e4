import Vmlab.Template.SwapProperties

/-!
# Metadata that reads back

A `template.wcl` reads back when its variant names are well formed and unique and, from two variants on, exactly one
is the default. Removing a variant keeps that; installing and adding keep it when the resulting blocks obey the rule.
-/

namespace Vmlab.Template

open Library List

variable {variants : List VariantMeta} {record : TemplateMeta} {variant file : Name} {force : Bool}
    {inUse : Option String} {world : World}

structure ValidBlocks (variants : List VariantMeta) : Prop where
  named : ∀ variant ∈ variants, checkVariantName variant.name = .ok ()
  unique : (variants.map (·.name)).Nodup
  oneDefault : 1 < variants.length → (variants.filter (·.isDefault)).length = 1

variable {before : List VariantMeta}

theorem variantIssues_eq_nil {variant : VariantMeta} : variantIssues before variant = [] ↔
      checkVariantName variant.name = .ok () ∧ variant.name ∉ before.map (·.name) := by
  unfold variantIssues
  rw [append_eq_nil_iff]
  refine and_congr ?_ ?_
  · split
    · next ok => simp [ok]
    · next reason failed => simp [failed]
  · simp

theorem blockIssues_eq_nil : blockIssues before variants = [] ↔
      (∀ variant ∈ variants, checkVariantName variant.name = .ok ()) ∧ (variants.map (·.name)).Nodup ∧
        ∀ variant ∈ variants, variant.name ∉ before.map (·.name) := by
  induction variants generalizing before with
  | nil => simp [blockIssues]
  | cons variant rest ih =>
    unfold blockIssues
    rw [append_eq_nil_iff, variantIssues_eq_nil, ih, map_cons, nodup_cons, forall_mem_cons,
      forall_mem_cons, map_append]
    have apart : (∀ other ∈ rest, other.name ∉ before.map (·.name) ++ [variant].map (·.name)) ↔
        (∀ other ∈ rest, other.name ∉ before.map (·.name)) ∧ variant.name ∉ rest.map (·.name) := by
      constructor
      · intro fresh
        refine ⟨fun other member inside => fresh other member (mem_append_left _ inside), fun inside => ?_⟩
        obtain ⟨other, member, same⟩ := mem_map.mp inside
        exact fresh other member (mem_append_right _ (by simp [same]))
      rintro ⟨fresh, absent⟩ other member inside
      rcases mem_append.mp inside with old | new
      · exact fresh other member old
      · have same : other.name = variant.name := by simpa using new
        exact absent (mem_map.mpr ⟨other, member, same⟩)
    rw [apart]
    tauto

theorem defaultIssues_eq_nil :
    defaultIssues variants = [] ↔ (1 < variants.length → (variants.filter (·.isDefault)).length = 1) := by
  unfold defaultIssues
  simp only [length_map]
  split
  · next broken =>
    simp only [cons_ne_nil, false_iff]
    exact fun rule => broken.2 (rule broken.1)
  rename_i kept
  simp only [true_iff]
  intro several
  by_contra broken
  exact kept ⟨several, broken⟩

theorem extractVariants_eq_ok : extractVariants variants = .ok variants ↔ ValidBlocks variants := by
  have issues : blockIssues [] variants ++ defaultIssues variants = [] ↔ ValidBlocks variants := by
    rw [append_eq_nil_iff, blockIssues_eq_nil, defaultIssues_eq_nil]
    constructor
    · rintro ⟨⟨named, unique, -⟩, oneDefault⟩
      exact ⟨named, unique, oneDefault⟩
    · rintro ⟨named, unique, oneDefault⟩
      exact ⟨⟨named, unique, by simp⟩, oneDefault⟩
  rw [← issues]
  unfold extractVariants
  split
  · next none => simp [none]
  · next found some =>
    simp only [reduceCtorEq, false_iff]
    exact some

theorem readFrom_eq_ok {file : TemplateMeta} :
    file.readFrom = .ok record ↔ record = file ∧ ValidBlocks file.variants := by
  unfold TemplateMeta.readFrom
  rw [← extractVariants_eq_ok]
  cases extracted : extractVariants file.variants with
  | error issues => simp [Except.map]
  | ok variants =>
    have same : variants = file.variants := by
      unfold extractVariants at extracted
      split at extracted
      · cases extracted
        rfl
      · cases extracted
    subst same
    simp only [Except.map, Except.ok.injEq, and_true]
    exact eq_comm

/-! ### Removing a variant -/

section

variable (valid : ValidBlocks variants)
include valid

theorem ValidBlocks.filter {keep : VariantMeta → Bool}
    (rule : 1 < (variants.filter keep).length → ∀ variant ∈ variants, variant.isDefault = true → keep variant = true) :
    ValidBlocks (variants.filter keep) where
  named := fun variant member => valid.named variant (mem_of_mem_filter member)
  unique := List.Nodup.sublist ((filter_sublist).map _) valid.unique
  oneDefault := by
    intro several
    have more : 1 < variants.length := several.trans_le (length_filter_le keep variants)
    have same : (variants.filter keep).filter (·.isDefault) = variants.filter (·.isDefault) := by
      rw [filter_filter]
      refine filter_congr fun variant member => ?_
      cases marked : variant.isDefault with
      | false => simp
      | true => simp [rule several variant member marked]
    rw [same]
    exact valid.oneDefault more

variable {right left : VariantMeta}

theorem ValidBlocks.eq_of_default
    (several : 1 < variants.length) (first : left ∈ variants) (second : right ∈ variants)
    (marked : left.isDefault = true) (alsoMarked : right.isDefault = true) : left = right := by
  obtain ⟨only, shape⟩ := length_eq_one_iff.mp (valid.oneDefault several)
  have leftIn : left ∈ variants.filter (·.isDefault) := List.mem_filter.mpr ⟨first, marked⟩
  have rightIn : right ∈ variants.filter (·.isDefault) := List.mem_filter.mpr ⟨second, alsoMarked⟩
  rw [shape, mem_singleton] at leftIn rightIn
  rw [leftIn, rightIn]

end

theorem defaultVariant_of_several {block : VariantMeta} (member : block ∈ record.variants)
    (notOne : record.variants.length ≠ 1) (marked : block.isDefault = true)
    (only : ∀ other ∈ record.variants, other.isDefault = true → other = block) :
    record.defaultVariant = some block := by
  unfold TemplateMeta.defaultVariant
  split
  · next none =>
    rw [none] at member
    cases member
  · next single =>
    rw [single] at notOne
    exact absurd rfl notOne
  cases found : record.variants.find? (·.isDefault) with
  | none => exact absurd marked (find?_eq_none.mp found block member)
  | some other => rw [only other (mem_of_find?_eq_some found) (find?_some found)]

theorem variantRefusal_valid {key : Key} {version : Name}
    {served : VariantMeta → Bool} (valid : ValidBlocks record.variants) (allowed : variantRefusal key version variant
    { record with variants := record.variants.filter served } force inUse = none) :
    ValidBlocks (record.variants.filter fun other => !decide (other.name = variant)) := by
  refine valid.filter fun several block member marked => ?_
  have more : 1 < record.variants.length := several.trans_le (length_filter_le _ _)
  by_contra taken
  have named : block.name = variant := by simpa using taken
  unfold variantRefusal at allowed
  dsimp only at allowed
  split at allowed
  · cases allowed
  split at allowed
  · split at allowed <;> cases allowed
  next found =>
    split at allowed
    · cases allowed
    next notOne =>
      split at allowed
      · cases allowed
      next notDefault =>
        -- The variant is served, so its block is, and two served blocks make the marked one the default.
        have isServed : block ∈ record.variants.filter served := by
          obtain ⟨hit, located⟩ := Option.ne_none_iff_exists'.mp (fun none => found (Option.isNone_iff_eq_none.mpr none))
          have inside : hit ∈ record.variants.filter served := mem_of_find?_eq_some located
          have called : hit.name = variant := by simpa using find?_some located
          rwa [inj_on_of_nodup_map valid.unique member (mem_of_mem_filter inside) (named.trans called.symm)]
        have chosen : TemplateMeta.defaultVariant { record with variants := record.variants.filter served } =
            some block := by
          refine defaultVariant_of_several isServed notOne marked fun other inside alsoMarked => ?_
          exact valid.eq_of_default more (mem_of_mem_filter inside) member alsoMarked marked
        exact notDefault (by rw [chosen, Option.map_some, named])

/-! ### Stores whose metadata reads back -/

def VersionDir.Readable (dir : VersionDir) : Prop := ∀ record, dir.file = some record → ValidBlocks record.variants

/-- Every version in the store, in its place or set aside, has metadata that reads back. -/
def Reads (store : Store) : Prop := ∀ key file dir, store.get key file = some dir → dir.Readable

variable {key : Key} {version : Name} {store : Store} {dir : VersionDir}

theorem Reads.put (reads : Reads store) (readable : dir.Readable) : Reads (store.put key file dir) := by
  intro other name shown found
  rw [Store.get_put] at found
  split at found
  · cases found
    exact readable
  · exact reads other name shown found

theorem Reads.drop (reads : Reads store) : Reads (store.drop key file) := by
  intro other name shown found
  rw [Store.get_drop] at found
  split at found
  · cases found
  · exact reads other name shown found

theorem VersionDir.Readable.keep (readable : dir.Readable) (left : Left) : (dir.keep left).Readable := by
  intro record found
  unfold VersionDir.keep at found
  dsimp only at found
  split at found
  · exact readable record found
  · cases found

variable {target : Name}

theorem rename_reads {source : Name} : Keeps Reads (rename key source target) := by
  intro world reads
  refine (rename_ends key source target world).mono ?_ fun _ _ same => same ▸ reads
  rintro _ finish ⟨dir, found, moved⟩
  rw [moved]
  exact (reads.put (reads key source dir found)).drop

theorem removeDirAll_reads : Keeps Reads (removeDirAll key file) := by
  intro world reads
  refine (removeDirAll_ends key file world).mono ?_ ?_
  · intro _ finish gone
    rw [gone]
    exact reads.drop
  rintro _ finish (same | ⟨dir, left, -, -, found, partly⟩)
  · exact same ▸ reads
  · rw [partly]
    exact reads.put ((reads key file dir found).keep left)

theorem removeIfPresent_reads : Keeps Reads (removeIfPresent key file) := by
  refine .bind (.attempt removeDirAll_reads) fun result => ?_
  split
  · exact .pure ()
  · exact .pure ()
  · exact .throw _

theorem recoverSwap_reads : Keeps Reads (recoverSwap key version) := by
  refine .bind (.look fun aside => ?_) fun _ => removeIfPresent_reads
  split
  · exact .pure ()
  refine .look fun shown => ?_
  split
  · exact removeIfPresent_reads
  · exact rename_reads

theorem place_reads (readable : dir.Readable) : Keeps Reads (place key file dir) := by
  intro world reads
  refine (place_ends key file dir world).mono ?_ fun _ _ failed => failed.2 ▸ reads
  intro _ finish placed
  rw [placed]
  exact reads.put readable

theorem moveIn_reads (readable : dir.Readable) : Keeps Reads (moveIn dir key target) := by
  refine .answer fun reply => ?_
  cases reply with
  | done => exact place_reads readable
  | fails left => exact .throw _
  | crash => exact .throw _
  | crosses =>
    refine .bind .call fun _ => .bind .call fun _ => .answer fun reply => ?_
    cases reply with
    | done => exact .bind (place_reads readable) fun _ => .bestEffort .call
    | fails left | crash | crosses => exact .throw _

theorem swapIn_reads (readable : dir.Readable) : Keeps Reads (swapIn dir key version) := by
  have cleared : Keeps Reads (bestEffort (removeDirAll key (nextName version))) := .bestEffort removeDirAll_reads
  refine .bind removeIfPresent_reads fun _ => .bind (.attempt (moveIn_reads readable)) fun staged => ?_
  split
  · exact .bind cleared fun _ => .throw _
  refine .bind (.attempt rename_reads) fun aside => ?_
  split
  · exact .bind cleared fun _ => .throw _
  refine .bind (.attempt rename_reads) fun moved => ?_
  split
  · refine .bind (.attempt rename_reads) fun restored => .bind cleared fun _ => ?_
    split <;> exact .throw _
  · exact .bestEffort removeDirAll_reads

variable {overwrite : Bool} {staged : Staged}

theorem install_reads (valid : ValidBlocks staged.record.variants) : Keeps Reads (install staged overwrite) := by
  have readable : staged.contents.Readable := by
    intro record found
    cases found
    exact valid
  refine .bind .call fun _ => .ite (.throw _) (.ite (.throw _) ?_)
  refine .bind recoverSwap_reads fun _ => .look fun there => ?_
  refine .ite (.throw _) (.bind .call fun _ => .bind .call fun _ => ?_)
  split
  · exact swapIn_reads readable
  · exact moveIn_reads readable

theorem installWithVariants_reads (valid : ValidBlocks staged.record.variants) :
    Keeps Reads (installWithVariants staged overwrite) := by
  unfold installWithVariants
  split
  · exact .throw _
  · exact .ite (install_reads valid) (install_reads valid)

theorem remove_reads : Keeps Reads (remove key version force inUse) := by
  refine .bind .call fun _ => .look fun found => ?_
  split
  · exact .throw _
  refine .bind ?_ fun _ => .bind removeDirAll_reads fun _ => .bind (.bestEffort .call) fun _ => .bestEffort .call
  split
  · split
    · exact .ite (.pure ()) (.throw _)
    · exact .pure ()
  · exact .ite (.pure ()) (.throw _)

/-! ### Changing a version in its place -/

theorem setDir_reads {change : VersionDir → VersionDir} (kept : ∀ dir : VersionDir, dir.Readable → (change dir).Readable) :
    Keeps Reads (setDir key version change) := by
  intro world reads
  refine look_bind_ends ?_
  cases found : world.store.get key version with
  | none => exact reads
  | some dir => exact reads.put (kept dir (reads key version dir found))

theorem removeOverlay_reads : Keeps Reads (removeOverlay key version variant) := by
  have dropped : Keeps Reads (setDir key version (dropOverlay variant)) := setDir_reads fun _ readable => readable
  refine .answer fun reply => ?_
  cases reply with
  | done => exact dropped
  | fails left => exact .bind (.ite (.pure ()) dropped) fun _ => .throw _
  | crash => exact .throw _
  | crosses => exact .throw _

theorem moveOverlay_reads {staged : List (Name × Overlay)} :
    Keeps Reads (moveOverlay key version variant staged) := by
  refine .answer fun reply => ?_
  cases reply with
  | done =>
    dsimp only
    split
    · exact .throw _
    · exact setDir_reads fun _ readable => readable
  | fails left | crash | crosses => exact .throw _

theorem writeMetaAtomic_reads (valid : ValidBlocks record.variants) :
    Keeps Reads (writeMetaAtomic key version record) := by
  refine .bind .call fun _ => .bind .call fun _ => setDir_reads fun dir _ => ?_
  intro written found
  cases found
  exact valid

theorem addOverlays_ends (variants : List VariantMeta) (staged : List (Name × Overlay)) (blocks : List VariantMeta)
    (reads : Reads world.store) : Ends (addOverlays key version variants staged blocks) world
      (fun merged finish => merged = variants.foldl mergeVariant blocks ∧ Reads finish.store)
      fun _ finish => Reads finish.store := by
  induction variants generalizing staged blocks world with
  | nil => exact ⟨rfl, reads⟩
  | cons variant rest ih =>
    refine look_bind_ends ?_
    split
    · exact reads
    rename_i dir _
    have cleared : Keeps Reads
        (if (dir.overlay variant.name).isSome then removeOverlay key version variant.name else pure ()) :=
      .ite removeOverlay_reads (.pure ())
    refine .bind (cleared world reads) fun _ first reads => ?_
    refine .bind (Keeps.call first reads) fun _ second reads => ?_
    exact .bind (moveOverlay_reads second reads) fun _ third reads => ih _ _ reads

def foundDir (key : Key) (version : Name) (store : Store) : Option VersionDir :=
  (store.get key version).or (store.get key (oldName version))

theorem recoverSwap_found (world : World) : Ends (recoverSwap key version) world
      (fun _ finish => finish.store.get key version = foundDir key version world.store) fun _ _ => True := by
  have settles : Ends (settleOld key version) world
      (fun _ finish => finish.store.get key version = foundDir key version world.store) fun _ _ => True := by
    refine (settleOld_ends world).mono ?_ fun _ _ _ => trivial
    rintro _ finish ⟨settled, ⟨place, beside⟩ | ⟨dir, missing, found, back⟩⟩
    · unfold foundDir
      cases present : world.store.get key version with
      | some dir =>
        rw [place, present]
        rfl
      | none =>
        rcases settled with there | empty
        · exact absurd (place.trans present) there
        · rw [place, present, Option.none_or, ← beside present, empty]
    · rw [back, foundDir, missing, Option.none_or, found]
  refine .bind settles fun _ middle found => ?_
  have kept : Keeps (fun after => after.get key version = foundDir key version world.store)
      (removeIfPresent key (nextName version)) := removeNext_keeps fun _ _ same _ known => same.trans known
  exact (kept middle found).monoBad fun _ _ _ => trivial

theorem installedLocked_ends {holds : Store → Prop} (recovers : Keeps holds (recoverSwap key version))
    (held : holds world.store) : Ends (installedLocked key version) world
      (fun result finish => holds finish.store ∧ ∀ dir served, result = some (dir, served) →
        finish.store.get key version = some dir ∧ foundDir key version world.store = some dir ∧
          readMeta dir = .ok served)
      fun _ finish => holds finish.store := by
  refine .bind (((recovers world held).and (recoverSwap_found world)).monoBad fun _ _ kept => kept.1) ?_
  rintro _ middle ⟨held, found⟩
  refine look_bind_ends ?_
  cases shape : middle.store.get key version with
  | none => exact ⟨held, nofun⟩
  | some dir =>
    dsimp only
    split
    · exact ⟨held, nofun⟩
    split
    · exact held
    rename_i served ok
    split
    · exact held
    refine ⟨held, fun other record same => ?_⟩
    cases same
    exact ⟨shape, found ▸ shape, ok⟩

theorem onDisk_eq_ok : onDisk dir = .ok record ↔ dir.file = some record ∧ ValidBlocks record.variants := by
  unfold onDisk
  cases dir.file with
  | none => simp
  | some file =>
    dsimp only
    split
    · next issues failed =>
      simp only [reduceCtorEq, Option.some.injEq, false_iff, not_and]
      rintro rfl valid
      rw [readFrom_eq_ok.mpr ⟨rfl, valid⟩] at failed
      cases failed
    · next read ok =>
      obtain ⟨rfl, valid⟩ := readFrom_eq_ok.mp ok
      simp only [Except.ok.injEq, Option.some.injEq, iff_self_and]
      rintro rfl
      exact valid

theorem readMeta_of_onDisk (stored : onDisk dir = .ok record) : readMeta dir =
      .ok { record with variants := (record.variants.filter fun variant => (dir.overlay variant.name).isSome) } := by
  obtain ⟨found, valid⟩ := onDisk_eq_ok.mp stored
  unfold readMeta
  rw [found]
  dsimp only
  rw [readFrom_eq_ok.mpr ⟨rfl, valid⟩]

/-! ### Adding variants -/

section

variable {installed incoming : List VariantMeta} {block added : VariantMeta}

/-- The last marked one of the blocks that are added is not replaced by a later one; or none is marked, and the
installed default is not replaced. -/
def MarkKept (installed incoming : List VariantMeta) : Prop :=
  (∃ before marked after, incoming = before ++ marked :: after ∧ marked.isDefault = true ∧
    ∀ later ∈ after, later.isDefault = false ∧ later.name ≠ marked.name) ∨
  (∀ added ∈ incoming, added.isDefault = false) ∧
    ∃ block ∈ installed, block.isDefault = true ∧ ∀ added ∈ incoming, added.name ≠ block.name

/-- The names that are added are well formed, and the default keeps its mark where there are blocks of two names. -/
def MergesWell (installed incoming : List VariantMeta) : Prop :=
  (∀ added ∈ incoming, checkVariantName added.name = .ok ()) ∧
    (MarkKept installed incoming ∨ ∃ name, ∀ block ∈ installed ++ incoming, block.name = name)

theorem names_mergeVariant (installed : List VariantMeta) (added : VariantMeta) :
    (mergeVariant installed added).map (·.name) =
      if added.name ∈ installed.map (·.name) then installed.map (·.name)
      else installed.map (·.name) ++ [added.name] := by
  have put (blocks : List VariantMeta) : (putVariant added blocks).map (·.name) =
      if added.name ∈ blocks.map (·.name) then blocks.map (·.name) else blocks.map (·.name) ++ [added.name] := by
    induction blocks with
    | nil => rfl
    | cons block rest ih =>
      rw [putVariant]
      by_cases same : block.name = added.name
      · simp [same]
      · rw [if_neg same, map_cons, ih]
        simp only [map_cons, mem_cons, Ne.symm same, false_or]
        split <;> rfl
  rw [mergeVariant, put]
  split <;> simp [Function.comp_def]

theorem named_merged (good : Name → Prop) (incoming : List VariantMeta) {installed : List VariantMeta}
    (named : ∀ block ∈ installed ++ incoming, good block.name) (unique : (installed.map (·.name)).Nodup) :
    (∀ block ∈ incoming.foldl mergeVariant installed, good block.name) ∧
      ((incoming.foldl mergeVariant installed).map (·.name)).Nodup := by
  induction incoming generalizing installed with
  | nil => exact ⟨by simpa using named, unique⟩
  | cons added rest ih =>
    have names := names_mergeVariant installed added
    simp only [forall_mem_append, forall_mem_cons] at named
    obtain ⟨old, new, later⟩ := named
    refine ih (forall_mem_append.mpr ⟨fun block member => ?_, later⟩) ?_
    · have isName : block.name ∈ (mergeVariant installed added).map (·.name) := mem_map_of_mem member
      have known : block.name ∈ installed.map (·.name) ∨ block.name = added.name := by
        rw [names] at isName
        split at isName
        · exact .inl isName
        · simpa using isName
      rcases known with known | same
      · obtain ⟨other, present, same⟩ := mem_map.mp known
        exact same ▸ old other present
      · exact same ▸ new
    · rw [names]
      split
      · exact unique
      · next fresh => exact concat_eq_append ▸ unique.concat fresh

theorem marked_mergeVariant (marked : added.isDefault = true) :
    (mergeVariant installed added).filter (·.isDefault) = [added] := by
  have put (blocks : List VariantMeta) (cleared : ∀ block ∈ blocks, block.isDefault = false) :
      (putVariant added blocks).filter (·.isDefault) = [added] := by
    induction blocks with
    | nil => simp [putVariant, marked]
    | cons block rest ih =>
      obtain ⟨here, later⟩ := forall_mem_cons.mp cleared
      rw [putVariant]
      split
      · simpa [marked] using later
      · rw [filter_cons_of_neg (by simp [here])]
        exact ih later
  rw [mergeVariant, if_pos marked]
  exact put _ (by simp)

theorem unmarked_mergeVariant (one : installed.filter (·.isDefault) = [block]) (unmarked : added.isDefault = false)
    (apart : added.name ≠ block.name) : (mergeVariant installed added).filter (·.isDefault) = [block] := by
  have put (blocks : List VariantMeta) (others : ∀ other ∈ blocks, other.isDefault = true → other = block) :
      (putVariant added blocks).filter (·.isDefault) = blocks.filter (·.isDefault) := by
    induction blocks with
    | nil => simp [putVariant, unmarked]
    | cons first rest ih =>
      obtain ⟨here, later⟩ := forall_mem_cons.mp others
      rw [putVariant]
      split
      · next same =>
        have cleared : ¬first.isDefault = true := fun marked => apart (here marked ▸ same.symm)
        rw [filter_cons_of_neg (by simp [unmarked]), filter_cons_of_neg cleared]
      · rw [filter_cons, filter_cons, ih later]
  rw [mergeVariant, if_neg (by simp [unmarked]), put installed, one]
  intro other member marked
  have isOne : other ∈ installed.filter (·.isDefault) := List.mem_filter.mpr ⟨member, marked⟩
  rwa [one, mem_singleton] at isOne

theorem unmarked_merged (one : installed.filter (·.isDefault) = [block])
    (apart : ∀ added ∈ incoming, added.isDefault = false ∧ added.name ≠ block.name) :
    (incoming.foldl mergeVariant installed).filter (·.isDefault) = [block] :=
  foldlRecOn (motive := fun blocks : List VariantMeta => blocks.filter (·.isDefault) = [block]) incoming _ one
    fun _ one added member => unmarked_mergeVariant one (apart added member).1 (apart added member).2

theorem MarkKept.merged (kept : MarkKept installed incoming) (valid : ValidBlocks installed) :
    ((incoming.foldl mergeVariant installed).filter (·.isDefault)).length = 1 := by
  rcases kept with ⟨before, marked, after, rfl, isMarked, apart⟩ | ⟨unmarked, block, present, isMarked, apart⟩
  · rw [foldl_append, foldl_cons, unmarked_merged (marked_mergeVariant isMarked) apart]
    rfl
  · have one : installed.filter (·.isDefault) = [block] := by
      have found : block ∈ installed.filter (·.isDefault) := List.mem_filter.mpr ⟨present, isMarked⟩
      have few : (installed.filter (·.isDefault)).length = 1 := by
        rcases Nat.lt_or_ge 1 installed.length with several | few
        · exact valid.oneDefault several
        · have some := length_pos_of_mem found
          have less := length_filter_le (·.isDefault) installed
          omega
      obtain ⟨only, shape⟩ := length_eq_one_iff.mp few
      rw [shape, mem_singleton] at found
      rw [shape, found]
    rw [unmarked_merged one fun added member => ⟨unmarked added member, apart added member⟩]
    rfl

theorem MergesWell.valid (well : MergesWell installed incoming) (valid : ValidBlocks installed) :
    ValidBlocks (incoming.foldl mergeVariant installed) := by
  obtain ⟨named, unique⟩ :=
    named_merged (checkVariantName · = .ok ()) incoming (forall_mem_append.mpr ⟨valid.named, well.1⟩) valid.unique
  refine ⟨named, unique, fun several => ?_⟩
  rcases well.2 with kept | ⟨name, same⟩
  · exact kept.merged valid
  · -- Blocks of one name are one block.
    obtain ⟨alike, -⟩ := named_merged (· = name) incoming same valid.unique
    obtain ⟨first, second, rest, shape⟩ : ∃ first second rest, incoming.foldl mergeVariant installed =
        first :: second :: rest := by
      match shape : incoming.foldl mergeVariant installed with
      | [] | [_] => simp [shape] at several
      | first :: second :: rest => exact ⟨first, second, rest, rfl⟩
    rw [shape] at alike unique
    have twice : first.name = second.name := (alike first (by simp)).trans (alike second (by simp)).symm
    simp [twice] at unique

end

def MergesValid (key : Key) (version : Name) (variants : List VariantMeta) (store : Store) : Prop :=
  ∀ dir record, foundDir key version store = some dir → dir.file = some record → MergesWell record.variants variants

theorem readLocked_reads : Keeps Reads (readLocked key version) := by
  refine .look fun found => ?_
  split
  · exact .throw _
  split
  · exact .throw _
  · exact .pure _

theorem addVariants_reads {staging : VersionDir}
    (reads : Reads world.store) (merges : MergesValid key version variants world.store) :
    Ends (addVariants key version staging variants) world (fun _ finish => Reads finish.store)
      fun _ finish => Reads finish.store := by
  refine .bind ((call_ends world).monoBad fun _ _ same => same ▸ reads) ?_
  intro _ first same
  refine .bind (installedLocked_ends recoverSwap_reads (same ▸ reads)) ?_
  rintro result second ⟨reads, located⟩
  cases result with
  | none => exact reads
  | some found =>
    obtain ⟨dir, served⟩ := found
    obtain ⟨-, shape, -⟩ := located dir served rfl
    dsimp only
    split
    · exact reads
    · exact reads
    rename_i record verified stored
    refine .bind (addOverlays_ends variants staging.overlays record.variants reads) ?_
    rintro _ third ⟨rfl, reads⟩
    obtain ⟨isFile, isValid⟩ := onDisk_eq_ok.mp stored
    have valid := (merges dir record (same ▸ shape) isFile).valid isValid
    refine .bind (writeMetaAtomic_reads valid third reads) fun _ fourth reads => ?_
    exact readLocked_reads fourth reads

theorem removeVariant_reads : Keeps Reads (removeVariant key version variant force inUse) := by
  intro world reads
  refine .bind (Keeps.call world reads) fun _ first reads => ?_
  refine .bind (installedLocked_ends recoverSwap_reads reads) ?_
  rintro result second ⟨reads, located⟩
  cases result with
  | none => exact reads
  | some found =>
    obtain ⟨dir, served⟩ := found
    obtain ⟨-, -, ok⟩ := located dir served rfl
    dsimp only
    split
    · exact reads
    · exact reads
    rename_i record allowed stored
    rw [readMeta_of_onDisk stored] at ok
    cases ok
    have valid := variantRefusal_valid (onDisk_eq_ok.mp stored).2 allowed
    refine .bind (writeMetaAtomic_reads valid second reads) fun _ third reads => ?_
    exact .bind (removeOverlay_reads third reads) fun _ fourth reads =>
      Keeps.bestEffort .call fourth reads

/-! ### Runs -/

abbrev VariantStep := VariantOp × List Answer

def VariantOp.Meets (op : VariantOp) (store : Store) : Prop :=
  match op with
  | .install staged _ => ValidBlocks staged.record.variants
  | .add key version _ variants => MergesValid key version variants store
  | .removeVariant .. => True
  | .remove .. => True

def AllRead : Store → List VariantStep → Prop
  | store, [] => Reads store
  | store, (op, answers) :: rest => Reads store ∧ AllRead (finalState (op.run ⟨store, answers⟩)).store rest

def AllMerge : Store → List VariantStep → Prop
  | _, [] => True
  | store, (op, answers) :: rest => op.Meets store ∧ AllMerge (finalState (op.run ⟨store, answers⟩)).store rest

theorem VariantOp.reads {op : VariantOp} {answers : List Answer} (reads : Reads store) (meets : op.Meets store) :
    Reads (finalState (op.run ⟨store, answers⟩)).store := by
  cases op with
  | install staged overwrite => exact (installWithVariants_reads meets).finalState reads
  | removeVariant key version variant force inUse => exact removeVariant_reads.finalState reads
  | remove key version force inUse => exact remove_reads.finalState reads
  | add key version staging variants =>
    have ends : Ends (VariantOp.add key version staging variants).run ⟨store, answers⟩
        (fun _ finish => Reads finish.store) fun _ finish => Reads finish.store :=
      Ends.bind (addVariants_reads reads meets) fun _ _ kept => kept
    unfold Ends at ends
    cases run : (VariantOp.add key version staging variants).run ⟨store, answers⟩ with
    | ok value finish | error stop finish =>
      rw [run] at ends
      exact ends

/-- In every run whose steps meet their condition the metadata of every version reads back throughout. -/
theorem metadata_reads_back (steps : List VariantStep) (store : Store) (reads : Reads store)
    (meets : AllMerge store steps) : AllRead store steps := by
  induction steps generalizing store with
  | nil => exact reads
  | cons step rest ih =>
    obtain ⟨op, answers⟩ := step
    exact ⟨reads, ih _ (op.reads reads meets.1) meets.2⟩

def desktop : Key := ⟨"x86_64".toList, "desktop".toList⟩

def desktopVariant (name : String) (isDefault : Bool) (digest : String) : VariantMeta :=
  ⟨name.toList, isDefault, digest.toList, "b0".toList⟩

def desktopOverlay (name digest : String) : Name × Overlay := (name.toList, ⟨digest.toList, some variantBacking⟩)

def desktopStaged : Staged where
  record :=
    { name := desktop.name, arch := desktop.arch, version := "1.0".toList, sha256 := some "b0".toList
      secureBootVars := false, variantsExpected := true
      variants := [desktopVariant "standard" true "a1", desktopVariant "win3d" false "a2"] }
  disk := some "b0".toList
  vars := false
  overlays := [desktopOverlay "standard" "a1", desktopOverlay "win3d" "a2"]

/-- The same version's variant `standard` as it comes from a registry where another is the default. -/
def desktopAdded : VersionDir := ⟨none, none, false, [desktopOverlay "standard" "a3"]⟩

theorem reads_emptyStore : Reads emptyStore := by
  intro key file dir found
  cases found

/-- A version is installed, its default variant is replaced by another one that is marked, a failed write included, and
the other variant is removed. -/
def desktopSteps : List VariantStep :=
  let add := VariantOp.add desktop "1.0".toList desktopAdded [desktopVariant "standard" true "a3"]
  [(.install desktopStaged false, []), (add, [.done, .crash]), (add, []),
    (.removeVariant desktop "1.0".toList "win3d".toList false none, [])]

theorem metadata_reads_back_desktop : AllMerge emptyStore desktopSteps ∧ AllRead emptyStore desktopSteps ∧
      (desktopSteps.foldl (fun store step => (finalState (step.1.run ⟨store, step.2⟩)).store) emptyStore).get desktop
        "1.0".toList = some ⟨some { desktopStaged.record with variants := [desktopVariant "standard" true "a3"] },
          some "b0".toList, false, [desktopOverlay "standard" "a3"]⟩ := by
  have valid : ValidBlocks desktopStaged.record.variants := extractVariants_eq_ok.mp (by decide +kernel)
  have kept (variants : List VariantMeta) : MergesWell variants [desktopVariant "standard" true "a3"] :=
    ⟨by decide, .inl (.inl ⟨[], _, [], rfl, rfl, nofun⟩)⟩
  have meets : AllMerge emptyStore desktopSteps :=
    ⟨valid, fun _ record _ _ => kept record.variants, fun _ record _ _ => kept record.variants, trivial, trivial⟩
  exact ⟨meets, metadata_reads_back _ emptyStore reads_emptyStore meets, by decide +kernel⟩

def unreadableAt (store : Store) (key : Key) (version : Name) : Bool :=
  (store.get key version).any fun dir => dir.file.any fun record => !(extractVariants record.variants).isOk

theorem not_reads_of_unreadableAt {key : Key} {version : Name} {store : Store}
    (broken : unreadableAt store key version = true) : ¬Reads store := by
  intro reads
  unfold unreadableAt at broken
  cases found : store.get key version with
  | none =>
    rw [found] at broken
    cases broken
  | some dir =>
    rw [found, Option.any_some] at broken
    cases stored : dir.file with
    | none =>
      rw [stored] at broken
      cases broken
    | some record =>
      rw [stored, Option.any_some, extractVariants_eq_ok.mpr (reads key version dir found record stored)] at broken
      cases broken

/-- Adding `standard` without its mark leaves two variants and no default. -/
theorem default_taken_away : ¬AllRead emptyStore [(.install desktopStaged false, []),
      (.add desktop "1.0".toList desktopAdded [desktopVariant "standard" false "a3"], [])] := by
  rintro ⟨-, -, reads⟩
  have broken : unreadableAt (finalState ((VariantOp.add desktop "1.0".toList desktopAdded
      [desktopVariant "standard" false "a3"]).run
        ⟨(finalState ((VariantOp.install desktopStaged false).run ⟨emptyStore, []⟩)).store, []⟩)).store
      desktop "1.0".toList = true := by
    decide +kernel
  exact not_reads_of_unreadableAt broken reads

end Vmlab.Template
