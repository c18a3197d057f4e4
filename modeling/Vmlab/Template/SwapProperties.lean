import Vmlab.Template.StoreProperties

/-!
# Versions across crashes

Installs, removals and recoveries may fail or die at any call. A version is shown whole, or waits whole beside its
place, until a removal of it succeeds.
-/

namespace Vmlab.Template

open Library List
open Store (get_drop get_put)

variable {world : World} {leftovers : List (Key × Name)} {keys : List Key}

structure Known where
  may : List VersionDir
  absent : Bool

structure Kept (key : Key) (version : Name) (known : Known) (store : Store) : Prop where
  shown : ∀ dir, store.get key version = some dir → dir ∈ known.may
  aside : store.get key version = none → ∀ dir, store.get key (oldName version) = some dir → dir ∈ known.may
  gone : store.get key version = none → store.get key (oldName version) = none → known.absent = true

def Settled (key : Key) (version : Name) (store : Store) : Prop :=
  store.get key version ≠ none ∨ store.get key (oldName version) = none

variable {key other : Key} {version name : Name} {known : Known} {store after : Store} {dir : VersionDir}

namespace Kept

theorem of_shown (found : store.get key version = some dir) (member : dir ∈ known.may) :
    Kept key version known store where
  shown := by
    intro shown same
    rw [found] at same
    cases same
    exact member
  aside := fun missing => absurd missing (by simp [found])
  gone := fun missing => absurd missing (by simp [found])

theorem of_aside (missing : store.get key version = none) (found : store.get key (oldName version) = some dir)
    (member : dir ∈ known.may) : Kept key version known store where
  shown := fun shown same => absurd same (by simp [missing])
  aside := by
    intro _ shown same
    rw [found] at same
    cases same
    exact member
  gone := fun _ nothing => absurd nothing (by simp [found])

section

variable (kept : Kept key version known store) (place : after.get key version = store.get key version)
include kept place

theorem congr (beside : after.get key (oldName version) = store.get key (oldName version)) :
    Kept key version known after where
  shown := fun shown found => kept.shown shown (place ▸ found)
  aside := fun missing shown found => kept.aside (place ▸ missing) shown (beside ▸ found)
  gone := fun missing nothing => kept.gone (place ▸ missing) (beside ▸ nothing)

theorem of_place (beside : store.get key version = none →
      after.get key (oldName version) = store.get key (oldName version)) : Kept key version known after := by
  cases found : store.get key version with
  | none => exact kept.congr place (beside found)
  | some dir => exact .of_shown (place.trans found) (kept.shown dir found)

end

theorem weaken (kept : Kept key version known store) :
    Kept key version { known with may := dir :: known.may } store where
  shown := fun shown found => mem_cons_of_mem _ (kept.shown shown found)
  aside := fun missing shown found => mem_cons_of_mem _ (kept.aside missing shown found)
  gone := kept.gone

end Kept

theorem Outside.slots {files : List Name} (outside : Outside key files store after) (place : version ∉ files)
    (beside : oldName version ∉ files) : after.get key version = store.get key version ∧
      after.get key (oldName version) = store.get key (oldName version) :=
  ⟨outside key version fun touched => place touched.2, outside key _ fun touched => beside touched.2⟩

theorem Outside.slots_of_ne (outside : Outside other (places name) store after) (plain : Plain version)
    (elsewhere : Plain name) (different : ¬(key = other ∧ version = name)) :
    after.get key version = store.get key version ∧
      after.get key (oldName version) = store.get key (oldName version) := by
  constructor
  · refine outside key version ?_
    rintro ⟨rfl, member⟩
    simp only [places, mem_cons, not_mem_nil, or_false] at member
    rcases member with rfl | same | same
    · exact different ⟨rfl, rfl⟩
    · exact plain.ne_nextName elsewhere same
    · exact plain.ne_oldName elsewhere same
  refine outside key _ ?_
  rintro ⟨rfl, member⟩
  simp only [places, mem_cons, not_mem_nil, or_false] at member
  rcases member with same | same | same
  · exact elsewhere.ne_oldName plain same.symm
  · exact nextName_ne_oldName name version same.symm
  · exact different ⟨rfl, oldName_inj.mp same⟩

def Keeps {α : Type} (holds : Store → Prop) (program : StoreM α) : Prop :=
  ∀ world : World, holds world.store → Ends program world (fun _ finish => holds finish.store)
    fun _ finish => holds finish.store

namespace Keeps

variable {α β : Type} {holds : Store → Prop}

theorem bind {program : StoreM α} {next : α → StoreM β} (first : Keeps holds program)
    (rest : ∀ value, Keeps holds (next value)) : Keeps holds (program >>= next) :=
  fun world known => .bind (first world known) fun value middle kept => rest value middle kept

theorem pure (value : α) : Keeps holds (Pure.pure value) := fun _ known => known

theorem throw (stop : Stop) : Keeps holds (MonadExcept.throw stop : StoreM α) := fun _ known => known

theorem call : Keeps holds Template.call :=
  fun world known => (call_ends world).mono (fun _ _ same => same ▸ known) fun _ _ same => same ▸ known

theorem attempt {program : StoreM α} (inner : Keeps holds program) : Keeps holds (Template.attempt program) := by
  intro world known
  refine attempt_ends ((inner world known).monoBad fun stop _ kept => ?_)
  cases stop <;> exact kept

theorem ite {condition : Prop} [Decidable condition] {yes no : StoreM α} (left : Keeps holds yes)
    (right : Keeps holds no) : Keeps holds (if condition then yes else no) := by
  split
  · exact left
  · exact right

theorem look {file : Name} {next : Option VersionDir → StoreM α} (rest : ∀ found, Keeps holds (next found)) :
    Keeps holds (Template.look key file >>= next) :=
  fun world known => rest _ world known

theorem answer {next : Answer → StoreM α} (rest : ∀ reply, Keeps holds (next reply)) :
    Keeps holds (Template.answer >>= next) := by
  intro world known
  refine answer_bind_ends (fun _ kept => kept ▸ known) fun reply state kept _ => ?_
  exact rest reply state (kept ▸ known)

theorem finalState {program : StoreM α} (keeps : Keeps holds program) (known : holds world.store) :
    holds (Library.finalState (program world)).store := by
  have ended := keeps world known
  unfold Ends at ended
  cases run : program world with
  | ok value finish | error stop finish =>
    rw [run] at ended
    exact ended

theorem of_within {files : List Name} {program : StoreM α} (within : Within key files program)
    (step : ∀ before after, Outside key files before after → holds before → holds after) : Keeps holds program :=
  fun world known => (within world).mono (fun _ _ outside => step _ _ outside known)
    fun _ _ outside => step _ _ outside known

theorem bestEffort {program : StoreM Unit} (inner : Keeps holds program) :
    Keeps holds (Template.bestEffort program) := by
  intro world known
  refine bestEffort_ends ((inner world known).monoBad fun stop _ kept => ?_)
  cases stop <;> exact kept

end Keeps

/-! ### Recovery -/

section

variable (version : Name)

theorem ne_nextName : version ≠ nextName version := by
  intro same
  have longer := congrArg List.length same
  rw [nextName, length_append] at longer
  have positive : 0 < nextPrefix.length := by decide
  omega

theorem ne_oldName : version ≠ oldName version := by
  intro same
  have longer := congrArg List.length same
  rw [oldName, length_append] at longer
  have positive : 0 < oldPrefix.length := by decide
  omega

theorem next_not_place : version ∉ [nextName version] := by
  simpa using ne_nextName version

theorem next_not_beside : oldName version ∉ [nextName version] := by
  simpa using (nextName_ne_oldName version version).symm

theorem old_not_place : version ∉ [oldName version] := by
  simpa using ne_oldName version

end

/-- Only what stands at a version's own name and at its old name matters. -/
def Slotwise (key : Key) (version : Name) (holds : Store → Prop) : Prop :=
  ∀ before after : Store, after.get key version = before.get key version →
    after.get key (oldName version) = before.get key (oldName version) → holds before → holds after

theorem Slotwise.keeps {holds : Store → Prop} (step : Slotwise key version holds) {program : StoreM Unit}
    (within : Within key [nextName version] program) : Keeps holds program := by
  refine .of_within within fun before after outside known => ?_
  obtain ⟨place, beside⟩ := outside.slots (next_not_place version) (next_not_beside version)
  exact step before after place beside known

theorem removeNext_keeps {holds : Store → Prop} (step : Slotwise key version holds) :
    Keeps holds (removeIfPresent key (nextName version)) :=
  step.keeps (.removeIfPresent (mem_singleton_self _))

theorem settleOld_ends (world : World) : Ends (settleOld key version) world
      (fun _ finish => Settled key version finish.store ∧
        ((finish.store.get key version = world.store.get key version ∧
            (world.store.get key version = none →
              finish.store.get key (oldName version) = world.store.get key (oldName version))) ∨
          ∃ dir, world.store.get key version = none ∧ world.store.get key (oldName version) = some dir ∧
            finish.store.get key version = some dir))
      fun _ finish => finish.store.get key version = world.store.get key version ∧
        (world.store.get key version = none →
          finish.store.get key (oldName version) = world.store.get key (oldName version)) := by
  refine look_bind_ends ?_
  cases beside : world.store.get key (oldName version) with
  | none => exact ⟨.inr beside, .inl ⟨rfl, fun _ => beside⟩⟩
  | some aside =>
    refine look_bind_ends ?_
    cases place : world.store.get key version with
    | some shown =>
      have removed : Within key [oldName version] (removeIfPresent key (oldName version)) :=
        .removeIfPresent (mem_singleton_self _)
      refine (removed world).mono ?_ ?_
      · intro _ finish outside
        have same := outside key version fun touched => old_not_place version touched.2
        exact ⟨.inl (by simp [same, place]), .inl ⟨same.trans place, nofun⟩⟩
      intro _ finish outside
      have same := outside key version fun touched => old_not_place version touched.2
      exact ⟨same.trans place, nofun⟩
    | none =>
      refine (rename_ends key _ _ world).mono ?_ ?_
      · rintro _ finish ⟨dir, found, moved⟩
        have back : finish.store.get key version = some dir := by
          rw [moved, get_drop, if_neg (by simp [ne_oldName version]), get_put, if_pos ⟨rfl, rfl⟩]
        exact ⟨.inl (by simp [back]), .inr ⟨dir, rfl, beside.symm.trans found, back⟩⟩
      intro _ finish same
      rw [same]
      exact ⟨place, fun _ => beside⟩

theorem settleOld_kept : Keeps (Kept key version known) (settleOld key version) := by
  intro world kept
  refine (settleOld_ends world).mono ?_ fun _ _ same => kept.of_place same.1 same.2
  rintro _ finish ⟨-, ⟨place, beside⟩ | ⟨dir, missing, found, back⟩⟩
  · exact kept.of_place place beside
  · exact .of_shown back (kept.aside missing dir found)

theorem settled_congr {before : Store} (place : after.get key version = before.get key version)
    (beside : after.get key (oldName version) = before.get key (oldName version))
    (settled : Settled key version before) : Settled key version after := by
  unfold Settled
  rwa [place, beside]

theorem recoverSwap_settles (world : World) :
    Ends (recoverSwap key version) world (fun _ finish => Settled key version finish.store) fun _ _ => True := by
  refine .bind ((settleOld_ends world).mono (fun _ _ done => done.1) fun _ _ _ => trivial) ?_
  intro _ middle settled
  exact (removeNext_keeps (fun _ _ => settled_congr) middle settled).monoBad
    fun _ _ _ => trivial

theorem recoverSwap_kept : Keeps (Kept key version known) (recoverSwap key version) :=
  .bind (settleOld_kept) fun _ => removeNext_keeps fun _ _ place beside kept => kept.congr place beside

theorem settleOld_settled : Keeps (Settled key version) (settleOld key version) := by
  intro world settled
  refine (settleOld_ends world).mono (fun _ _ done => done.1) ?_
  rintro _ finish ⟨place, beside⟩
  rcases settled with present | empty
  · exact .inl (place ▸ present)
  by_cases missing : world.store.get key version = none
  · exact .inr ((beside missing).trans empty)
  · exact .inl (place ▸ missing)

theorem recoverSwap_keeps (plain : Plain version) (elsewhere : Plain name) {holds : Store → Prop}
    (own : Keeps holds (recoverSwap key version)) (step : Slotwise key version holds) :
    Keeps holds (recoverSwap other name) := by
  by_cases same : key = other ∧ version = name
  · obtain ⟨rfl, rfl⟩ := same
    exact own
  refine .of_within (recoverSwap_within other name) fun before after outside known => ?_
  obtain ⟨place, beside⟩ := outside.slots_of_ne plain elsewhere same
  exact step before after place beside known

theorem recoverSwap_settled : Keeps (Settled key version) (recoverSwap key version) :=
  .bind (settleOld_settled) fun _ => removeNext_keeps fun _ _ => settled_congr

theorem recoverAll_keeps (plain : Plain version) {holds : Store → Prop} (own : Keeps holds (recoverSwap key version))
    (step : Slotwise key version holds)
    (all : ∀ item ∈ leftovers, Plain item.2) : Keeps holds (recoverAll leftovers) := by
  induction leftovers with
  | nil => exact fun _ known => known
  | cons item rest ih =>
    exact .bind (recoverSwap_keeps plain (all item (by simp)) own step) fun _ =>
      ih fun later member => all later (by simp [member])

/-! ### A recovery that nothing stands in the way of -/

def Willing (world : World) : Prop := ∀ reply ∈ world.answers, reply = .done ∨ reply = .crash

def Smooth {α : Type} (program : StoreM α) : Prop :=
  ∀ world, Willing world → Ends program world (fun _ => Willing) fun stop _ => stop = .crashed

theorem Smooth.bind {α β : Type} {program : StoreM α} {next : α → StoreM β} (first : Smooth program)
    (rest : ∀ value, Smooth (next value)) : Smooth (program >>= next) :=
  fun world willing => .bind (first world willing) fun value middle still => rest value middle still

theorem answer_willing (willing : Willing world) :
    Ends answer world (fun reply finish => reply = .done ∧ Willing finish ∧ finish.store = world.store)
      fun stop _ => stop = .crashed := by
  unfold Ends answer
  cases shape : world.answers with
  | nil => exact ⟨rfl, willing, rfl⟩
  | cons reply later =>
    have still : ∀ reply ∈ later, reply = .done ∨ reply = .crash :=
      fun other member => willing other (by simp [shape, member])
    rcases willing reply (by simp [shape]) with rfl | rfl
    · exact ⟨rfl, still, rfl⟩
    · rfl

theorem call_smooth : Smooth call := by
  intro world willing
  refine .bind (answer_willing willing) ?_
  rintro _ middle ⟨rfl, still, -⟩
  exact still

theorem removeIfPresent_smooth (key : Key) (file : Name) : Smooth (removeIfPresent key file) := by
  intro world willing
  refine .bind (@attempt_ends _ _ world (fun result finish => Willing finish ∧
      (result = .ok () ∨ result = .error .notFound)) _ ?_) ?_
  · refine .bind ((answer_willing willing).monoBad ?_) ?_
    · rintro _ _ rfl
      rfl
    rintro _ middle ⟨rfl, still, -⟩
    refine look_bind_ends ?_
    cases middle.store.get key file with
    | none => exact ⟨still, .inr rfl⟩
    | some dir => exact ⟨still, .inl rfl⟩
  · rintro result middle ⟨still, rfl | rfl⟩
    · exact still
    · exact still

theorem rename_smooth {source target : Name} (willing : Willing world)
    (found : world.store.get key source = some dir) (free : world.store.get key target = none) :
    Ends (rename key source target) world (fun _ => Willing) fun stop _ => stop = .crashed := by
  refine .bind (answer_willing willing) ?_
  rintro _ middle ⟨rfl, still, same⟩
  refine look_bind_ends ?_
  rw [same, found]
  have placed : Ends (place key target dir) middle (fun _ => Willing) fun stop _ => stop = .crashed := by
    refine look_bind_ends ?_
    rw [same, free]
    exact still
  exact .bind placed fun _ _ kept => kept

theorem settleOld_smooth (key : Key) (version : Name) : Smooth (settleOld key version) := by
  intro world willing
  refine look_bind_ends ?_
  cases beside : world.store.get key (oldName version) with
  | none => exact willing
  | some aside =>
    refine look_bind_ends ?_
    cases place : world.store.get key version with
    | some shown => exact removeIfPresent_smooth key _ world willing
    | none => exact rename_smooth willing beside place

theorem recoverSwap_smooth (key : Key) (version : Name) : Smooth (recoverSwap key version) :=
  .bind (settleOld_smooth key version) fun _ => removeIfPresent_smooth key _

theorem recoverAll_smooth (leftovers : List (Key × Name)) : Smooth (recoverAll leftovers) := by
  induction leftovers with
  | nil => exact fun _ willing => willing
  | cons item rest ih => exact .bind (recoverSwap_smooth item.1 item.2) fun _ => ih

theorem recoverAll_settles (plain : Plain version)
    (all : ∀ item ∈ leftovers, Plain item.2) (member : (key, version) ∈ leftovers) (willing : Willing world) :
    Ends (recoverAll leftovers) world (fun _ finish => Settled key version finish.store)
      fun stop _ => stop = .crashed := by
  induction leftovers generalizing world with
  | nil => cases member
  | cons item rest ih =>
    have restPlain : ∀ later ∈ rest, Plain later.2 := fun later inside => all later (by simp [inside])
    rcases mem_cons.mp member with rfl | later
    · refine .bind (((recoverSwap_settles world).and (recoverSwap_smooth key version world willing)).monoBad fun _ _ crashed => crashed.2) ?_
      rintro _ middle ⟨settled, still⟩
      have kept := recoverAll_keeps plain (recoverSwap_settled) (fun _ _ => settled_congr) restPlain
        middle settled
      exact (kept.and (recoverAll_smooth rest middle still)).mono (fun _ _ done => done.1)
        fun _ _ crashed => crashed.2
    · exact .bind (recoverSwap_smooth item.1 item.2 world willing) fun _ middle still =>
        ih restPlain later still

def Tidy (store : Store) : Prop :=
  ∀ key file version, store.get key file ≠ none → leftover file = some version → Plain version

theorem Tidy.of_outside (tidy : Tidy store) (plain : Plain version)
    (outside : Outside key (places version) store after) : Tidy after := by
  intro other file owner present stands
  by_cases touched : other = key ∧ file ∈ places version
  · obtain ⟨rfl, member⟩ := touched
    simp only [places, mem_cons, not_mem_nil, or_false] at member
    rcases member with rfl | rfl | rfl
    · rw [plain.2] at stands
      cases stands
    · rw [plain.leftover_nextName] at stands
      cases stands
      exact plain
    rw [plain.leftover_oldName] at stands
    cases stands
    exact plain
  · rw [outside other file touched] at present
    exact tidy other file owner present stands

theorem recoverAll_tidy (all : ∀ item ∈ leftovers, Plain item.2) : Keeps Tidy (recoverAll leftovers) := by
  induction leftovers with
  | nil => exact fun _ known => known
  | cons item rest ih =>
    refine .bind ?_ fun _ => ih fun later member => all later (by simp [member])
    exact .of_within (recoverSwap_within item.1 item.2) fun _ _ outside tidy =>
      tidy.of_outside (all item (by simp)) outside

def leftoversOf (keys : List Key) (store : Store) : List (Key × Name) :=
  keys.flatMap fun key => (swapLeftovers (store key)).map fun version => (key, version)

theorem mem_leftoversOf : (key, version) ∈ leftoversOf keys store ↔
    key ∈ keys ∧ ∃ file, store.get key file ≠ none ∧ leftover file = some version := by
  have listed : ∀ key : Key, version ∈ swapLeftovers (store key) ↔
      ∃ file, store.get key file ≠ none ∧ leftover file = some version := by
    intro key
    unfold swapLeftovers
    rw [SortedMap.mem_ofKeys, mem_filterMap]
    simp only [SortedMap.mem_keys, Store.get, ne_eq, Option.eq_none_iff_forall_not_mem, not_forall, not_not]
    rfl
  unfold leftoversOf
  simp only [mem_flatMap, mem_map, Prod.mk.injEq]
  constructor
  · rintro ⟨owner, inside, found, stands, rfl, rfl⟩
    exact ⟨inside, (listed _).mp stands⟩
  · rintro ⟨inside, stands⟩
    exact ⟨key, inside, version, (listed key).mpr stands, rfl, rfl⟩

theorem leftoversOf_plain (keys : List Key) (tidy : Tidy store) : ∀ item ∈ leftoversOf keys store, Plain item.2 := by
  rintro ⟨key, version⟩ member
  obtain ⟨-, file, present, stands⟩ := mem_leftoversOf.mp member
  exact tidy key file version present stands

/-! ### Reads -/

theorem recoverSwaps_eq (keys : List Key) (world : World) : recoverSwaps keys world =
    (if (leftoversOf keys world.store).isEmpty then (pure () : StoreM Unit) else bestEffort do
      call
      recoverAll (leftoversOf keys world.store)) world := rfl

theorem recoverSwaps_keeps {holds : Store → Prop}
    (recovery : Keeps holds (recoverAll (leftoversOf keys world.store))) (known : holds world.store) :
    Ends (recoverSwaps keys) world (fun _ finish => holds finish.store) fun _ finish => holds finish.store := by
  unfold Ends
  rw [recoverSwaps_eq]
  by_cases nothing : (leftoversOf keys world.store).isEmpty
  · rw [if_pos nothing]
    exact known
  · rw [if_neg nothing]
    exact Keeps.bestEffort (.bind .call fun _ => recovery) world known

theorem recoverSwaps_settles (tidy : Tidy world.store) (plain : Plain version)
    (member : key ∈ keys) (ready : Settled key version world.store ∨ Willing world) :
    Ends (recoverSwaps keys) world (fun _ finish => Settled key version finish.store) fun _ _ => True := by
  have all := leftoversOf_plain keys tidy
  by_cases settled : Settled key version world.store
  · exact (recoverSwaps_keeps (recoverAll_keeps plain (recoverSwap_settled) (fun _ _ => settled_congr) all)
      settled).monoBad fun _ _ _ => trivial
  have willing := ready.resolve_left settled
  have listed : (key, version) ∈ leftoversOf keys world.store := by
    refine mem_leftoversOf.mpr ⟨member, oldName version, ?_, plain.leftover_oldName⟩
    exact fun empty => settled (.inr empty)
  unfold Ends
  rw [recoverSwaps_eq, if_neg (by
    intro empty
    rw [List.isEmpty_iff.mp empty] at listed
    cases listed)]
  refine bestEffort_ends (Ends.bind ((call_smooth world willing).monoBad ?_) ?_)
  · rintro _ _ rfl
    trivial
  intro _ middle still
  refine (recoverAll_settles plain all listed still).monoBad ?_
  rintro _ _ rfl
  trivial

/-! ### Installs -/

theorem moveIn_ends {target : Name} (world : World) : Ends (moveIn dir key target) world
      (fun _ finish => finish.store = world.store.put key target dir)
      fun stop finish => finish.store = world.store ∨
        (stop = .crashed ∧ finish.store = world.store.put key target dir) := by
  have placed : ∀ state : World, state.store = world.store → Ends (place key target dir) state
      (fun _ finish => finish.store = world.store.put key target dir)
      fun stop finish => finish.store = world.store ∨
        (stop = .crashed ∧ finish.store = world.store.put key target dir) := by
    intro state same
    rw [← same]
    exact (place_ends key target dir state).monoBad fun _ _ failed => .inl failed.2
  have called : ∀ state : World, state.store = world.store → Ends call state
      (fun _ finish => finish.store = world.store)
      fun stop finish => finish.store = world.store ∨
        (stop = .crashed ∧ finish.store = world.store.put key target dir) := by
    intro state same
    rw [← same]
    exact (call_ends state).monoBad fun _ _ kept => .inl kept
  refine answer_bind_ends (fun _ kept => .inl kept) fun reply state kept _ => ?_
  cases reply with
  | done => exact placed state kept
  | fails left => exact .inl kept
  | crash => exact .inl kept
  | crosses =>
    refine .bind (called state kept) fun _ second kept => .bind (called second kept) fun _ third kept => ?_
    rw [← kept]
    refine answer_bind_ends (fun _ same => .inl same) fun reply fourth same _ => ?_
    rw [kept]
    cases reply with
    | done =>
      refine .bind (placed fourth (same.trans kept)) fun _ fifth moved => ?_
      refine bestEffort_ends ((call_ends fifth).mono (fun _ _ still => still.trans moved) ?_)
      intro stop finish still
      cases stop with
      | error error => exact still.trans moved
      | crashed => exact .inr ⟨rfl, still.trans moved⟩
    | fails left | crash | crosses => exact .inl (same.trans kept)

def Back (key : Key) (version : Name) (old : VersionDir) (store : Store) : Prop :=
  store.get key version = some old ∨ (store.get key version = none ∧ store.get key (oldName version) = some old)

def Unfinished (key : Key) (version : Name) (old new : VersionDir) (stop : Stop) (store : Store) : Prop :=
  Back key version old store ∨ (stop = .crashed ∧ store.get key version = some new)

section

variable {old : VersionDir}

theorem Back.congr {before : Store} (place : after.get key version = before.get key version)
    (beside : after.get key (oldName version) = before.get key (oldName version))
    (back : Back key version old before) : Back key version old after := by
  unfold Back
  rwa [place, beside]

theorem clearNext_keeps {holds : Store → Prop} (step : Slotwise key version holds) :
    Keeps holds (bestEffort (removeDirAll key (nextName version))) :=
  .bestEffort (step.keeps (.removeDirAll (mem_singleton_self _)))

section

variable (missing : world.store.get key version = none) (aside : world.store.get key (oldName version) = some old)
include missing aside

theorem putBack_ends :
    Ends (putBack key version) world (fun _ _ => False) fun _ finish => Back key version old finish.store := by
  refine .bind (@attempt_ends _ _ world (fun _ middle => Back key version old middle.store) _ ?_) ?_
  · refine (rename_ends key _ _ world).mono ?_ ?_
    · rintro _ middle ⟨dir, found, moved⟩
      rw [aside] at found
      cases found
      refine .inl ?_
      rw [moved, get_drop, if_neg (by simp [ne_oldName version]), get_put, if_pos ⟨rfl, rfl⟩]
    intro stop middle same
    have back : Back key version old middle.store := by
      rw [same]
      exact .inr ⟨missing, aside⟩
    cases stop <;> exact back
  · intro restored middle back
    refine .bind (clearNext_keeps (fun _ _ => Back.congr) middle back) fun _ _ kept => ?_
    split <;> exact kept

theorem moveNext_ends (staged : world.store.get key (nextName version) = some dir) :
    Ends (moveNext key version) world (fun _ finish => finish.store.get key version = some dir)
      fun stop finish => Unfinished key version old dir stop finish.store := by
  refine .bind (@attempt_ends _ _ world (fun result middle =>
    (result = .ok () ∧ middle.store.get key version = some dir) ∨
      (result ≠ .ok () ∧ middle.store = world.store)) _ ?_) ?_
  · refine (rename_ends key _ _ world).mono ?_ ?_
    · rintro _ middle ⟨found, same, moved⟩
      rw [staged] at same
      cases same
      refine .inl ⟨rfl, ?_⟩
      rw [moved, get_drop, if_neg (by simp [ne_nextName version]), get_put, if_pos ⟨rfl, rfl⟩]
    intro stop middle same
    cases stop with
    | error error => exact .inr ⟨nofun, same⟩
    | crashed =>
      refine .inl (.inr ?_)
      rw [same]
      exact ⟨missing, aside⟩
  rintro result middle (⟨rfl, moved⟩ | ⟨failed, same⟩)
  · have removed : Within key [oldName version] (removeDirAll key (oldName version)) :=
      .removeDirAll (mem_singleton_self _)
    have shown : ∀ finish, Outside key [oldName version] middle.store finish → finish.get key version = some dir :=
      fun finish outside => (outside key version fun touched => old_not_place version touched.2).trans moved
    refine bestEffort_ends ((removed middle).mono (fun _ finish outside => shown _ outside) ?_)
    intro stop finish outside
    cases stop with
    | error error => exact shown _ outside
    | crashed => exact .inr ⟨rfl, shown _ outside⟩
  cases result with
  | ok value => exact absurd rfl failed
  | error error =>
    refine (putBack_ends ?_ ?_).mono (fun _ _ never => never.elim) fun _ _ back => .inl back
    · rw [same]
      exact missing
    · rw [same]
      exact aside

end

theorem setAside_ends (present : world.store.get key version = some old)
    (staged : world.store.get key (nextName version) = some dir) :
    Ends (setAside key version) world (fun _ finish => finish.store.get key version = some dir)
      fun stop finish => Unfinished key version old dir stop finish.store := by
  have apart := ne_nextName version
  have apartOld := ne_oldName version
  refine .bind (@attempt_ends _ _ world (fun result middle =>
    (result = .ok () ∧ middle.store.get key version = none ∧
        middle.store.get key (oldName version) = some old ∧
        middle.store.get key (nextName version) = some dir) ∨
      (result ≠ .ok () ∧ Back key version old middle.store)) _ ?_) ?_
  · refine (rename_ends key _ _ world).mono ?_ ?_
    · rintro _ middle ⟨found, same, moved⟩
      rw [present] at same
      cases same
      refine .inl ⟨rfl, ?_, ?_, ?_⟩
      · rw [moved, get_drop, if_pos ⟨rfl, rfl⟩]
      · rw [moved, get_drop, if_neg (by simp [apartOld.symm]), get_put, if_pos ⟨rfl, rfl⟩]
      · rw [moved, get_drop, if_neg (by simp [apart.symm]), get_put,
          if_neg (by simp [nextName_ne_oldName]), staged]
    intro stop middle same
    have back : Back key version old middle.store := by
      rw [same]
      exact .inl present
    cases stop with
    | error error => exact .inr ⟨nofun, back⟩
    | crashed => exact .inl back
  rintro result middle (⟨rfl, missing, aside, next⟩ | ⟨failed, back⟩)
  · exact moveNext_ends missing aside next
  cases result with
  | ok value => exact absurd rfl failed
  | error error =>
    refine .bind ((clearNext_keeps (fun _ _ => Back.congr) middle back).monoBad
      fun _ _ kept => .inl kept) fun _ _ kept => .inl kept

theorem swapIn_ends (present : world.store.get key version = some old) :
    Ends (swapIn dir key version) world (fun _ finish => finish.store.get key version = some dir)
      fun stop finish => Unfinished key version old dir stop finish.store := by
  have apart := ne_nextName version
  have place : Keeps (fun store => store.get key version = some old) (removeIfPresent key (nextName version)) :=
    removeNext_keeps fun _ _ same _ known => same.trans known
  refine .bind ((place world present).monoBad fun _ _ kept => .inl (.inl kept)) ?_
  intro _ first present
  refine .bind (@attempt_ends _ _ first (fun result middle => middle.store.get key version = some old ∧
      (result = .ok () → middle.store.get key (nextName version) = some dir)) _ ?_) ?_
  · have put : (first.store.put key (nextName version) dir).get key version = some old := by
      rw [get_put, if_neg (by simp [apart]), present]
    refine (moveIn_ends first).mono ?_ ?_
    · intro _ middle moved
      rw [moved]
      exact ⟨put, fun _ => by rw [get_put, if_pos ⟨rfl, rfl⟩]⟩
    intro stop middle failed
    have same : middle.store.get key version = some old := by
      rcases failed with same | ⟨-, moved⟩
      · rw [same, present]
      · rw [moved, put]
    cases stop with
    | error error => exact ⟨same, nofun⟩
    | crashed => exact .inl (.inl same)
  rintro result middle ⟨present, staged⟩
  cases result with
  | ok value => exact setAside_ends present (staged rfl)
  | error error =>
    exact .bind ((clearNext_keeps (fun _ _ => Back.congr) middle (.inl present)).monoBad fun _ _ kept => .inl kept) fun _ _ kept => .inl kept

end

theorem installWith_kept {staged : Staged} {overwrite : Bool}
    (kept : Kept staged.key staged.version known world.store) : Ends (installWith staged overwrite) world
      (fun _ finish => finish.store.get staged.key staged.version = some staged.contents)
      fun stop finish =>
        Kept staged.key staged.version known finish.store ∨
          (stop = .crashed ∧
            Kept staged.key staged.version { known with may := staged.contents :: known.may } finish.store) := by
  unfold installWith
  split
  · exact .inl kept
  split
  · exact .inl kept
  refine .bind ((recoverSwap_kept world kept).monoBad fun _ _ kept => .inl kept) ?_
  intro _ first kept
  refine look_bind_ends ?_
  split
  · exact .inl kept
  have placeOnly : Keeps (fun store => Kept staged.key staged.version known store ∧
      store.get staged.key staged.version = first.store.get staged.key staged.version) call := .call
  refine .bind ((placeOnly first ⟨kept, rfl⟩).monoBad fun _ _ kept => .inl kept.1) ?_
  intro _ second known
  refine .bind ((placeOnly second known).monoBad fun _ _ kept => .inl kept.1) ?_
  rintro _ third ⟨kept, same⟩
  cases found : first.store.get staged.key staged.version with
  | some old =>
    rw [found] at same
    refine (swapIn_ends same).monoBad ?_
    rintro stop finish ((shown | ⟨missing, aside⟩) | ⟨crashed, shown⟩)
    · exact .inl (.of_shown shown (kept.shown old same))
    · exact .inl (.of_aside missing aside (kept.shown old same))
    · exact .inr ⟨crashed, .of_shown shown mem_cons_self⟩
  | none =>
    refine (moveIn_ends third).mono ?_ ?_
    · intro _ finish moved
      rw [moved, get_put, if_pos ⟨rfl, rfl⟩]
    rintro stop finish (unchanged | ⟨crashed, moved⟩)
    · exact .inl (unchanged ▸ kept)
    have shown : finish.store.get staged.key staged.version = some staged.contents := by
      rw [moved, get_put, if_pos ⟨rfl, rfl⟩]
    exact .inr ⟨crashed, .of_shown shown mem_cons_self⟩

/-! ## Runs of installs, imports, removals and reads, each of which may fail at any call or die before it -/

open Library

abbrev Track := Key → Name → Known

def Track.set (track : Track) (key : Key) (version : Name) (known : Known) : Track :=
  fun other name => if other = key ∧ name = version then known else track other name

def learnInstall (track : Track) (staged : Staged) : EStateM.Result Stop World (Option Store) → Track
  | .ok _ _ => track.set staged.key staged.version ⟨[staged.contents], false⟩
  | .error (.error _) _ => track
  | .error .crashed _ =>
    let known := track staged.key staged.version
    track.set staged.key staged.version { known with may := staged.contents :: known.may }

def learnRemove (track : Track) (key : Key) (version : Name) (before : Store) :
    EStateM.Result Stop World (Option Store) → Track
  | .ok _ _ => track.set key version ⟨[], true⟩
  | .error (.error _) _ => track
  | .error .crashed world =>
    if (before.get key version).isSome ∧ (world.store.get key version).isNone then
      track.set key version ⟨[], true⟩
    else track

def StoreOp.learn (op : StoreOp) (track : Track) (before : Store)
    (result : EStateM.Result Stop World (Option Store)) : Track :=
  match op with
  | .install staged _ => learnInstall track staged result
  | .importArchive (.ok staged) _ => learnInstall track staged result
  | .importArchive (.error _) _ => track
  | .remove key version _ _ => learnRemove track key version before result
  | .read _ => track

def Sees (track : Track) (keys : List Key) (view : Store) : Prop :=
  ∀ key ∈ keys, ∀ version, Plain version →
    match view.get key version with
    | none => (track key version).absent = true
    | some dir => dir ∈ (track key version).may

abbrev Step := StoreOp × List Answer

def Sound : Store → Track → List Step → Prop
  | _, _, [] => True
  | store, track, (op, answers) :: rest =>
    let result := op.run ⟨store, answers⟩
    (∀ keys view world, op = .read keys → result = .ok (some view) world → Sees track keys view) ∧
      Sound (finalState result).store (op.learn track store result) rest

def follow : Store → Track → List Step → Store × Track
  | store, track, [] => (store, track)
  | store, track, (op, answers) :: rest =>
    let result := op.run ⟨store, answers⟩
    follow (finalState result).store (op.learn track store result) rest

variable {store : Store} {track : Track} {answers : List Answer} {world : World} {key : Key} {version : Name}

variable {keys : List Key} {steps : List Step}

theorem Sound.read_at {rest : List Step} {view : Store}
    (sound : Sound store track (steps ++ (.read keys, answers) :: rest))
    (ran : (StoreOp.read keys).run ⟨(follow store track steps).1, answers⟩ = .ok (some view) world) :
    Sees (follow store track steps).2 keys view := by
  induction steps generalizing store track with
  | nil => exact sound.1 keys view world rfl ran
  | cons step steps ih => exact ih sound.2 ran

def StoreOp.Meets (op : StoreOp) (store : Store) (answers : List Answer) : Prop :=
  match op with
  | .install staged _ => Plain staged.version
  | .importArchive archive _ => ∀ staged, archive = .ok staged → Plain staged.version
  | .remove key version _ _ =>
    Plain version ∧ store.get key (oldName version) = none ∧
      ∀ left dir, Answer.fails left ∈ answers → store.get key version = some dir → dir.keep left = dir
  | .read keys =>
    ∀ key ∈ keys, ∀ version, Plain version →
      Settled key version store ∨ ∀ reply ∈ answers, reply = .done ∨ reply = .crash

def AllMeet : Store → List Step → Prop
  | _, [] => True
  | store, (op, answers) :: rest =>
    op.Meets store answers ∧ AllMeet (finalState (op.run ⟨store, answers⟩)).store rest

structure Agrees (store : Store) (track : Track) : Prop where
  tidy : Tidy store
  kept : ∀ key version, Plain version → Kept key version (track key version) store

variable {known : Known}

section

variable {after : Store} (agrees : Agrees store track) (plain : Plain version)
  (outside : Outside key (places version) store after)
include agrees plain outside

theorem Agrees.update (kept : Kept key version known after) : Agrees after (track.set key version known) where
  tidy := agrees.tidy.of_outside plain outside
  kept := by
    intro other name named
    by_cases same : other = key ∧ name = version
    · obtain ⟨rfl, rfl⟩ := same
      rw [Track.set, if_pos ⟨rfl, rfl⟩]
      exact kept
    obtain ⟨place, beside⟩ := outside.slots_of_ne named plain same
    rw [Track.set, if_neg same]
    exact (agrees.kept other name named).congr place beside

theorem Agrees.keep (kept : Kept key version (track key version) after) : Agrees after track := by
  have updated := agrees.update plain outside kept
  have same : track.set key version (track key version) = track := by
    funext other name
    unfold Track.set
    split
    · next equal => rw [equal.1, equal.2]
    · rfl
  rwa [same] at updated

end

variable {staged : Staged}

theorem Agrees.install {program : StoreM (Option Store)} (agrees : Agrees store track) (plain : Plain staged.version)
    (within : Within staged.key (places staged.version) program) (ends : Ends program ⟨store, answers⟩
    (fun _ finish => finish.store.get staged.key staged.version = some staged.contents)
    fun stop finish => Kept staged.key staged.version (track staged.key staged.version) finish.store ∨
    (stop = .crashed ∧ Kept staged.key staged.version { track staged.key staged.version with
    may := staged.contents :: (track staged.key staged.version).may } finish.store)) :
    Agrees (finalState (program ⟨store, answers⟩)).store (learnInstall track staged (program ⟨store, answers⟩)) := by
  have bounds := within ⟨store, answers⟩
  unfold Ends at ends bounds
  cases run : program ⟨store, answers⟩ with
  | ok value finish =>
    rw [run] at ends bounds
    exact agrees.update plain bounds (.of_shown ends (List.mem_singleton_self _))
  | error stop finish =>
    rw [run] at ends bounds
    cases stop with
    | error error =>
      rcases ends with kept | ⟨crashed, -⟩
      · exact agrees.keep plain bounds kept
      · cases crashed
    | crashed =>
      rcases ends with kept | ⟨-, kept⟩
      · exact agrees.update plain bounds kept.weaken
      · exact agrees.update plain bounds kept

theorem call_answers (world : World) :
    Ends call world (fun _ finish => ∀ reply ∈ finish.answers, reply ∈ world.answers) fun _ _ => True := by
  unfold Ends
  cases run : call world with
  | error stop finish => trivial
  | ok value finish =>
    unfold call answer at run
    simp only [bind, EStateM.bind] at run
    cases shape : world.answers with
    | nil =>
      rw [shape] at run
      cases run
      simp [shape]
    | cons reply later =>
      rw [shape] at run
      cases reply <;> cases run
      exact fun reply member => List.mem_cons_of_mem _ member

variable {force : Bool} {inUse : Option String}

theorem allowed_ends (dir : VersionDir) : Ends (match readMeta dir with
      | .ok _ =>
        match inUse with
        | some reason => if force then pure () else throw (.error (.inUse key version reason))
        | none => pure ()
      | .error error => if force then pure () else throw (.error error) : StoreM Unit) world
      (fun _ finish => finish = world) fun _ finish => finish = world := by
  split
  · split
    · split <;> exact rfl
    · exact rfl
  · split <;> exact rfl

theorem remove_ends : Ends (remove key version force inUse) world
      (fun _ finish => finish.store = world.store.drop key version)
      fun stop finish => finish.store = world.store ∨
        (stop = .crashed ∧ finish.store = world.store.drop key version ∧ world.store.get key version ≠ none) ∨
        ∃ dir left, stop ≠ .crashed ∧ Answer.fails left ∈ world.answers ∧
          world.store.get key version = some dir ∧ finish.store = world.store.put key version (dir.keep left) := by
  refine .bind (((call_ends world).and (call_answers world)).monoBad
    fun _ _ kept => .inl kept.1) ?_
  rintro _ first ⟨same, fewer⟩
  refine look_bind_ends ?_
  rw [← same]
  cases found : first.store.get key version with
  | none => exact .inl rfl
  | some dir =>
    refine .bind ((allowed_ends dir).monoBad fun _ _ kept => .inl (kept ▸ rfl)) ?_
    rintro _ second rfl
    refine .bind ((removeDirAll_ends key version second).monoBad ?_) ?_
    · rintro stop finish (kept | ⟨dir, left, running, replied, present, partly⟩)
      · exact .inl kept
      · exact .inr (.inr ⟨dir, left, running, fewer _ replied, found.symm.trans present, partly⟩)
    intro _ third gone
    have tidied : ∀ state : World, state.store = second.store.drop key version →
        Ends (bestEffort call) state (fun _ finish => finish.store = second.store.drop key version)
          fun stop finish => finish.store = second.store ∨
            (stop = .crashed ∧ finish.store = second.store.drop key version ∧ some dir ≠ none) ∨
            ∃ shown left, stop ≠ .crashed ∧ Answer.fails left ∈ world.answers ∧ some dir = some shown ∧
              finish.store = second.store.put key version (shown.keep left) := by
      intro state known
      refine bestEffort_ends ((call_ends state).mono (fun _ _ kept => kept.trans known) ?_)
      intro stop finish kept
      cases stop with
      | error error => exact kept.trans known
      | crashed => exact .inr (.inl ⟨rfl, kept.trans known, nofun⟩)
    exact .bind (tidied third gone) fun _ fourth gone => tidied fourth gone

theorem thenPure_ends {program : StoreM Unit} {value : Option Store} {good : World → Prop}
    {bad : Stop → World → Prop} (ends : Ends program world (fun _ => good) bad) :
    Ends (program >>= fun _ => pure value) world (fun _ => good) bad :=
  Ends.bind ends fun _ _ kept => kept

theorem Agrees.remove (agrees : Agrees store track)
    (meets : (StoreOp.remove key version force inUse).Meets store answers) :
    Agrees (finalState ((StoreOp.remove key version force inUse).run ⟨store, answers⟩)).store
      (learnRemove track key version store ((StoreOp.remove key version force inUse).run ⟨store, answers⟩)) := by
  obtain ⟨plain, clear, untouched⟩ := meets
  have within : Within key (places version) (StoreOp.remove key version force inUse).run :=
    .bind (remove_within key version force inUse) fun _ => .pure none
  have bounds := within ⟨store, answers⟩
  have ends : Ends (StoreOp.remove key version force inUse).run ⟨store, answers⟩ _ _ := thenPure_ends remove_ends
  have kept := agrees.kept key version plain
  have cleared : ∀ after : Store, after = store.drop key version → Kept key version ⟨[], true⟩ after := by
    rintro after rfl
    have missing : (store.drop key version).get key version = none := by
      rw [Store.get_drop, if_pos ⟨rfl, rfl⟩]
    have beside : (store.drop key version).get key (oldName version) = none := by
      rw [Store.get_drop, clear, ite_self]
    exact ⟨fun dir found => absurd found (by simp [missing]),
      fun _ dir found => absurd found (by simp [beside]), fun _ _ => rfl⟩
  unfold Ends at ends bounds
  cases run : (StoreOp.remove key version force inUse).run ⟨store, answers⟩ with
  | ok value finish =>
    rw [run] at ends bounds
    exact agrees.update plain bounds (cleared _ ends)
  | error stop finish =>
    rw [run] at ends bounds
    rcases ends with same | ⟨rfl, gone, present⟩ | ⟨dir, left, running, replied, present, partly⟩
    · have still : Agrees finish.store track := agrees.keep plain bounds (same ▸ kept)
      cases stop with
      | error error => exact still
      | crashed =>
        have noLoss : ¬((store.get key version).isSome = true ∧ (finish.store.get key version).isNone = true) := by
          rw [same]
          cases store.get key version <;> simp
        dsimp only [learnRemove]
        rw [if_neg noLoss]
        exact still
    · have lost : (store.get key version).isSome = true ∧ (finish.store.get key version).isNone = true := by
        constructor
        · exact Option.isSome_iff_ne_none.mpr present
        · rw [gone, Store.get_drop, if_pos ⟨rfl, rfl⟩]
          rfl
      dsimp only [learnRemove]
      rw [if_pos lost]
      exact agrees.update plain bounds (cleared _ gone)
    cases stop with
    | crashed => exact absurd rfl running
    | error error =>
      have whole := untouched left dir replied present
      have still : finish.store.get key version = some dir := by
        rw [partly, whole, Store.get_put, if_pos ⟨rfl, rfl⟩]
      exact agrees.keep plain bounds (.of_shown still (kept.shown dir present))

theorem Agrees.read (agrees : Agrees store track) (meets : (StoreOp.read keys).Meets store answers) :
    Ends (StoreOp.read keys).run ⟨store, answers⟩
      (fun view finish => Agrees finish.store track ∧ ∃ shown, view = some shown ∧ Sees track keys shown)
      fun _ finish => Agrees finish.store track := by
  have all := leftoversOf_plain keys agrees.tidy
  have keptAll : Ends (recoverSwaps keys) ⟨store, answers⟩ (fun _ finish => Agrees finish.store track)
      fun _ finish => Agrees finish.store track := by
    have tidy : Ends (recoverSwaps keys) ⟨store, answers⟩ (fun _ finish => Tidy finish.store)
        fun _ finish => Tidy finish.store := recoverSwaps_keeps (recoverAll_tidy all) agrees.tidy
    have kept : ∀ key version, Plain version → Ends (recoverSwaps keys) ⟨store, answers⟩
        (fun _ finish => Kept key version (track key version) finish.store)
        fun _ finish => Kept key version (track key version) finish.store :=
      fun key version plain => recoverSwaps_keeps
        (recoverAll_keeps plain (recoverSwap_kept)
          (fun _ _ place beside known => known.congr place beside) all) (agrees.kept key version plain)
    unfold Ends at tidy kept ⊢
    cases run : recoverSwaps keys ⟨store, answers⟩ with
    | ok value finish | error stop finish =>
      rw [run] at tidy kept
      exact ⟨tidy, kept⟩
  have settled : ∀ key ∈ keys, ∀ version, Plain version → Ends (recoverSwaps keys) ⟨store, answers⟩
      (fun _ finish => Settled key version finish.store) fun _ _ => True :=
    fun key member version plain => recoverSwaps_settles agrees.tidy plain member (meets key member version plain)
  have shown : Ends (recoverSwaps keys) ⟨store, answers⟩
      (fun _ finish => Agrees finish.store track ∧ Sees track keys finish.store)
      fun _ finish => Agrees finish.store track := by
    unfold Ends at keptAll settled ⊢
    cases run : recoverSwaps keys ⟨store, answers⟩ with
    | error stop finish =>
      rw [run] at keptAll
      exact keptAll
    | ok value finish =>
      rw [run] at keptAll settled
      refine ⟨keptAll, fun key member version plain => ?_⟩
      have known := keptAll.kept key version plain
      split
      · next missing =>
        refine known.gone missing ?_
        exact (settled key member version plain).resolve_left fun present => present missing
      · next dir found => exact known.shown dir found
  have viewed : Ends (readStore keys) ⟨store, answers⟩
      (fun view finish => Agrees finish.store track ∧ Sees track keys view)
      fun _ finish => Agrees finish.store track := .bind shown fun _ _ done => done
  exact .bind viewed fun view _ done => ⟨done.1, view, rfl, done.2⟩

theorem installWith_after {overwrite : Bool} {state : World}
    (kept : Kept staged.key staged.version known store) (same : state.store = store) :
    Ends (installWith staged overwrite) state
      (fun _ finish => finish.store.get staged.key staged.version = some staged.contents)
      fun stop finish => Kept staged.key staged.version known finish.store ∨
        (stop = .crashed ∧
          Kept staged.key staged.version { known with may := staged.contents :: known.may } finish.store) :=
  installWith_kept (same ▸ kept)

theorem Agrees.step {op : StoreOp} (agrees : Agrees store track) (meets : op.Meets store answers) :
    Agrees (finalState (op.run ⟨store, answers⟩)).store (op.learn track store (op.run ⟨store, answers⟩)) := by
  cases op with
  | install staged overwrite =>
    have plain : Plain staged.version := meets
    have kept := agrees.kept staged.key staged.version plain
    refine agrees.install plain (.bind (.bind .call fun _ => installWith_within staged overwrite)
      fun _ => .pure none) (thenPure_ends ?_)
    refine .bind ((call_ends _).monoBad fun _ _ same => .inl (same ▸ kept)) ?_
    exact fun _ _ same => installWith_after kept same
  | importArchive archive overwrite =>
    cases archive with
    | error error =>
      have keeps : Keeps (fun store => Agrees store track) (StoreOp.importArchive (.error error) overwrite).run :=
        .bind (.bind .call fun _ => .bind .call fun _ => .throw _) fun _ => .pure none
      exact keeps.finalState agrees
    | ok staged =>
      have plain : Plain staged.version := meets staged rfl
      have kept := agrees.kept staged.key staged.version plain
      refine agrees.install plain (.bind (.bind .call fun _ => .bind .call fun _ =>
        installWith_within staged overwrite) fun _ => .pure none) (thenPure_ends ?_)
      refine .bind ((call_ends _).monoBad fun _ _ same => .inl (same ▸ kept)) ?_
      intro _ first same
      refine .bind ((call_ends first).mono (fun _ _ again => again.trans same)
        fun _ _ again => .inl ((again.trans same) ▸ kept)) ?_
      exact fun _ _ same => installWith_after kept same
  | remove key version force inUse => exact agrees.remove meets
  | read keys =>
    have ends := agrees.read meets
    unfold Ends at ends
    dsimp only [StoreOp.learn]
    cases run : (StoreOp.read keys).run ⟨store, answers⟩ with
    | ok view finish =>
      rw [run] at ends
      exact ends.1
    | error stop finish =>
      rw [run] at ends
      exact ends

theorem sound_of_agrees (agrees : Agrees store track) (meets : AllMeet store steps) : Sound store track steps := by
  induction steps generalizing store track with
  | nil => trivial
  | cons step rest ih =>
    obtain ⟨op, answers⟩ := step
    obtain ⟨first, later⟩ := meets
    refine ⟨?_, ih (agrees.step first) later⟩
    rintro keys view world rfl ran
    have ends := agrees.read first
    unfold Ends at ends
    rw [ran] at ends
    obtain ⟨-, shown, same, sees⟩ := ends
    cases same
    exact sees

def nothingKnown : Track := fun _ _ => ⟨[], true⟩

theorem agrees_empty : Agrees emptyStore nothingKnown := by
  have empty : ∀ key file, emptyStore.get key file = none := fun _ _ => rfl
  exact ⟨fun key file _ present => absurd (empty key file) present, fun key version _ =>
    ⟨fun dir found => absurd found (by simp [empty]), fun _ dir found => absurd found (by simp [empty]),
      fun _ _ => rfl⟩⟩

/-- From an empty store, every read of a run whose steps meet the condition shows each version whole, or absent
where it was removed or never installed. -/
theorem reads_are_sound (steps : List Step) (meets : AllMeet emptyStore steps) :
    Sound emptyStore nothingKnown steps :=
  sound_of_agrees agrees_empty meets

def windows : Key := ⟨"x86_64".toList, "windows".toList⟩

def windowsDisk (disk : String) : Staged where
  record :=
    { name := windows.name, arch := windows.arch, version := "1.0".toList, sha256 := some disk.toList
      secureBootVars := false, variantsExpected := false, variants := [] }
  disk := some disk.toList
  vars := false
  overlays := []

theorem reads_are_sound_overwritten : AllMeet emptyStore
        [(.install (windowsDisk "aa") false, []), (.install (windowsDisk "bb") true, [.done, .crash]),
          (.read [windows], [])] ∧
      Sound emptyStore nothingKnown
        [(.install (windowsDisk "aa") false, []), (.install (windowsDisk "bb") true, [.done, .crash]),
          (.read [windows], [])] := by
  have plain : Plain "1.0".toList := by decide
  have meets : AllMeet emptyStore
      [(.install (windowsDisk "aa") false, []), (.install (windowsDisk "bb") true, [.done, .crash]),
        (.read [windows], [])] := ⟨plain, plain, fun _ _ _ _ => .inr nofun, trivial⟩
  exact ⟨meets, reads_are_sound _ meets⟩

/-- Version 1.0 is installed and overwritten, the overwrite's last cleanup fails, and the version is removed. -/
def cleanupFails : List Step :=
  [(.install (windowsDisk "aa") false, []),
    (.install (windowsDisk "bb") true, List.replicate 8 .done ++ [.fails ⟨true, true, true, []⟩]),
    (.remove windows "1.0".toList false none, [])]

def shows (dir : VersionDir) : EStateM.Result Stop World (Option Store) → Bool
  | .ok (some view) _ => view.get windows "1.0".toList = some dir
  | _ => false

/-- After the removal a read finds the first contents again. -/
theorem removed_version_reappears : ¬Sound emptyStore nothingKnown (cleanupFails ++ [(.read [windows], [])]) := by
  intro sound
  have gone : ((follow emptyStore nothingKnown cleanupFails).2 windows "1.0".toList).may = [] := by decide +kernel
  have found : shows (windowsDisk "aa").contents
      ((StoreOp.read [windows]).run ⟨(follow emptyStore nothingKnown cleanupFails).1, []⟩) = true := by
    decide +kernel
  cases ran : (StoreOp.read [windows]).run ⟨(follow emptyStore nothingKnown cleanupFails).1, []⟩ with
  | error stop world =>
    rw [ran] at found
    cases found
  | ok result world =>
    cases result with
    | none =>
      rw [ran] at found
      cases found
    | some view =>
      rw [ran] at found
      have back : view.get windows "1.0".toList = some (windowsDisk "aa").contents := of_decide_eq_true found
      have sees := sound.read_at ran windows (List.mem_singleton_self _) "1.0".toList (by decide)
      rw [back] at sees
      dsimp only at sees
      rw [gone] at sees
      cases sees

end Vmlab.Template
