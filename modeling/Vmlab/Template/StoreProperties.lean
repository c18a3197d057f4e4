import Vmlab.Template.Store

/-!
# What the calls of the store do

Where a version, its replacement and its predecessor stand in a template's
directory, and what each call changes there, whether it succeeds or fails.
-/

namespace Vmlab.Template

open Library

variable {world : World} {bad : Stop → World → Prop} {file : Name}

theorem Store.get_put (store : Store) (key other : Key) (file name : Name) (dir : VersionDir) :
    (store.put key file dir).get other name =
      if other = key ∧ name = file then some dir else store.get other name := by
  unfold Store.put Store.get
  by_cases same : other = key
  · subst other
    rw [Function.update_self, SortedMap.get?_insert]
    simp
  · rw [Function.update_of_ne same]
    simp [same]

theorem Store.get_drop (store : Store) (key other : Key) (file name : Name) :
    (store.drop key file).get other name = if other = key ∧ name = file then none else store.get other name := by
  unfold Store.drop Store.get
  by_cases same : other = key
  · subst other
    rw [Function.update_self, SortedMap.get?_erase]
    simp
  · rw [Function.update_of_ne same]
    simp [same]

/-! ### File names -/

/-- A version whose directory is not taken for a leftover of another. -/
def Plain (version : Name) : Prop := version ≠ [] ∧ leftover version = none

instance (version : Name) : Decidable (Plain version) := by
  unfold Plain
  infer_instance

theorem leftover_nextName (version : Name) :
    leftover (nextName version) = if version.isEmpty then none else some version := by
  unfold leftover nextName nextPrefix
  cases version <;> simp [Option.filter]

theorem leftover_oldName (version : Name) :
    leftover (oldName version) = if version.isEmpty then none else some version := by
  unfold leftover oldName nextPrefix oldPrefix
  cases version <;> simp [Option.filter]

theorem nextName_ne_oldName (left right : Name) : nextName left ≠ oldName right := by
  simp [nextName, oldName, nextPrefix, oldPrefix]

theorem oldName_inj {left right : Name} : oldName left = oldName right ↔ left = right := by
  simp [oldName]

theorem Plain.leftover_nextName {version : Name} (plain : Plain version) :
    leftover (nextName version) = some version := by
  rw [Template.leftover_nextName, if_neg (by simpa using plain.1)]

theorem Plain.leftover_oldName {version : Name} (plain : Plain version) :
    leftover (oldName version) = some version := by
  rw [Template.leftover_oldName, if_neg (by simpa using plain.1)]

section

variable {version other : Name} (plain : Plain version) (known : Plain other)
include plain known

theorem Plain.ne_nextName : version ≠ nextName other := by
  rintro rfl
  have clear := plain.2
  rw [known.leftover_nextName] at clear
  cases clear

theorem Plain.ne_oldName : version ≠ oldName other := by
  rintro rfl
  have clear := plain.2
  rw [known.leftover_oldName] at clear
  cases clear

end

/-! ### Calls -/

theorem attempt_ends {α : Type} {program : StoreM α} {world : World} {good : Except StoreError α → World → Prop}
    {bad : Stop → World → Prop}
    (inner : Ends program world (fun value => good (.ok value)) fun stop finish =>
      match stop with
      | .error error => good (.error error) finish
      | .crashed => bad .crashed finish) : Ends (attempt program) world good bad := by
  unfold Ends at inner ⊢
  unfold attempt
  cases run : program world with
  | ok value finish =>
    rw [run] at inner
    exact inner
  | error stop finish =>
    rw [run] at inner
    cases stop with
    | error error => exact inner
    | crashed => exact inner

theorem bestEffort_ends {program : StoreM Unit} {good : Unit → World → Prop}
    (inner : Ends program world good fun stop finish =>
    match stop with
    | .error _ => good () finish
    | .crashed => bad .crashed finish) : Ends (bestEffort program) world good bad :=
  Ends.bind (@attempt_ends _ program world (fun _ => good ()) bad inner) fun _ _ kept => kept

theorem answer_ends (world : World) : Ends answer world
      (fun reply finish => finish.store = world.store ∧ (reply = .done ∨ reply ∈ world.answers))
      fun stop finish => stop = .crashed ∧ finish.store = world.store := by
  unfold Ends answer
  cases shape : world.answers with
  | nil => exact ⟨rfl, .inl rfl⟩
  | cons reply later => cases reply <;> simp

theorem answer_bind_ends {α : Type} {next : Answer → StoreM α} {good : α → World → Prop}
    (crashed : ∀ finish, finish.store = world.store → bad .crashed finish)
    (rest : ∀ reply state, state.store = world.store → (reply = .done ∨ reply ∈ world.answers) →
    Ends (next reply) state good bad) : Ends (answer >>= next) world good bad := by
  refine .bind ((answer_ends world).monoBad ?_) fun reply state kept =>
    rest reply state kept.1 kept.2
  rintro _ finish ⟨rfl, kept⟩
  exact crashed finish kept

theorem look_bind_ends {α : Type} {key : Key} {next : Option VersionDir → StoreM α} {good : α → World → Prop}
    (rest : Ends (next (world.store.get key file)) world good bad) :
    Ends (look key file >>= next) world good bad := rest

theorem call_ends (world : World) : Ends call world (fun _ finish => finish.store = world.store) fun _ finish =>
      finish.store = world.store := by
  refine answer_bind_ends (fun _ kept => kept) fun reply state kept _ => ?_
  cases reply <;> exact kept

theorem place_ends (key : Key) (file : Name) (dir : VersionDir) (world : World) :
    Ends (place key file dir) world (fun _ finish => finish.store = world.store.put key file dir)
      fun stop finish => stop = .error .io ∧ finish.store = world.store := by
  refine look_bind_ends ?_
  split
  · exact rfl
  split
  · exact rfl
  · exact ⟨rfl, rfl⟩

theorem rename_ends (key : Key) (source target : Name) (world : World) : Ends (rename key source target) world
      (fun _ finish => ∃ dir, world.store.get key source = some dir ∧
        finish.store = (world.store.put key target dir).drop key source)
      fun _ finish => finish.store = world.store := by
  refine answer_bind_ends (fun _ kept => kept) fun reply state kept _ => ?_
  cases reply with
  | done =>
    refine look_bind_ends ?_
    cases found : state.store.get key source with
    | none => exact kept
    | some dir =>
      refine .bind ((place_ends key target dir state).monoBad
        fun _ _ failed => failed.2.trans kept) ?_
      intro _ placed moved
      refine ⟨dir, kept ▸ found, ?_⟩
      change placed.store.drop key source = _
      rw [moved, kept]
  | fails left => exact kept
  | crosses => exact kept
  | crash => exact kept

theorem removeDirAll_ends (key : Key) (file : Name) (world : World) :
    Ends (removeDirAll key file) world (fun _ finish => finish.store = world.store.drop key file)
      fun stop finish => finish.store = world.store ∨
        ∃ dir left, stop ≠ .crashed ∧ Answer.fails left ∈ world.answers ∧ world.store.get key file = some dir ∧
          finish.store = world.store.put key file (dir.keep left) := by
  refine answer_bind_ends (fun _ kept => .inl kept) fun reply state kept replied => ?_
  cases reply with
  | done =>
    refine look_bind_ends ?_
    cases found : state.store.get key file with
    | none => exact .inl kept
    | some dir =>
      change state.store.drop key file = _
      rw [kept]
  | fails left =>
    refine look_bind_ends ?_
    cases found : state.store.get key file with
    | none => exact .inl kept
    | some dir =>
      refine .inr ⟨dir, left, nofun, by simpa using replied, kept ▸ found, ?_⟩
      change state.store.put key file (dir.keep left) = _
      rw [kept]
  | crosses => exact .inl kept
  | crash => exact .inl kept

/-! ### What an operation leaves alone -/

def Outside (key : Key) (files : List Name) (before after : Store) : Prop :=
  ∀ other name, ¬(other = key ∧ name ∈ files) → after.get other name = before.get other name

def Within {α : Type} (key : Key) (files : List Name) (program : StoreM α) : Prop :=
  ∀ world, Ends program world (fun _ finish => Outside key files world.store finish.store)
    fun _ finish => Outside key files world.store finish.store

theorem Outside.refl (key : Key) (files : List Name) {before after : Store} (same : after = before) :
    Outside key files before after := by
  intro other name _
  rw [same]

theorem Outside.trans {key : Key} {files : List Name} {first second third : Store}
    (begun : Outside key files first second) (ended : Outside key files second third) :
    Outside key files first third :=
  fun other name untouched => (ended other name untouched).trans (begun other name untouched)

section

variable {files : List Name} (member : file ∈ files) (store : Store)
include member store

theorem Outside.put {key : Key} (dir : VersionDir) : Outside key files store (store.put key file dir) := by
  intro other name untouched
  rw [Store.get_put, if_neg]
  rintro ⟨rfl, rfl⟩
  exact untouched ⟨rfl, member⟩

theorem Outside.drop {key : Key} : Outside key files store (store.drop key file) := by
  intro other name untouched
  rw [Store.get_drop, if_neg]
  rintro ⟨rfl, rfl⟩
  exact untouched ⟨rfl, member⟩

end

namespace Within

variable {α β : Type} {key : Key} {files : List Name}

theorem pure (value : α) : Within key files (Pure.pure value) := fun _ => .refl key files rfl

theorem throw (stop : Stop) : Within key files (MonadExcept.throw stop : StoreM α) := fun _ => .refl key files rfl

theorem bind {program : StoreM α} {next : α → StoreM β} (first : Within key files program)
    (rest : ∀ value, Within key files (next value)) : Within key files (program >>= next) := by
  intro world
  refine .bind (first world) fun value middle begun => ?_
  exact (rest value middle).mono (fun _ _ ended => begun.trans ended) fun _ _ ended => begun.trans ended

theorem attempt {program : StoreM α} (inner : Within key files program) :
    Within key files (Template.attempt program) := by
  intro world
  refine attempt_ends ((inner world).monoBad fun stop _ kept => ?_)
  cases stop <;> exact kept

theorem bestEffort {program : StoreM Unit} (inner : Within key files program) :
    Within key files (Template.bestEffort program) :=
  bind (attempt inner) fun _ => pure ()

theorem ite {condition : Prop} [Decidable condition] {yes no : StoreM α} (left : Within key files yes)
    (right : Within key files no) : Within key files (if condition then yes else no) := by
  split
  · exact left
  · exact right

theorem look {other : Key} {next : Option VersionDir → StoreM α}
    (rest : ∀ found, Within key files (next found)) : Within key files (Template.look other file >>= next) :=
  fun world => rest _ world

theorem answer {next : Answer → StoreM α} (rest : ∀ reply, Within key files (next reply)) :
    Within key files (Template.answer >>= next) := by
  intro world
  refine answer_bind_ends (fun _ kept => .refl key files kept) fun reply state kept _ => ?_
  rw [← kept]
  exact rest reply state

theorem call : Within key files Template.call :=
  fun world => (call_ends world).mono (fun _ _ kept => .refl key files kept) fun _ _ kept => .refl key files kept

theorem place (member : file ∈ files) (dir : VersionDir) : Within key files (Template.place key file dir) := by
  intro world
  refine (place_ends key file dir world).mono (fun _ finish placed => ?_) fun _ _ failed => .refl key files failed.2
  rw [placed]
  exact .put member _ dir

theorem rename {source target : Name} (first : source ∈ files) (second : target ∈ files) :
    Within key files (Template.rename key source target) := by
  intro world
  refine (rename_ends key source target world).mono ?_ fun _ _ kept => .refl key files kept
  rintro _ finish ⟨dir, -, moved⟩
  rw [moved]
  exact (Outside.put second _ dir).trans (.drop first _)

theorem removeDirAll (member : file ∈ files) : Within key files (Template.removeDirAll key file) := by
  intro world
  refine (removeDirAll_ends key file world).mono (fun _ finish gone => ?_) ?_
  · rw [gone]
    exact .drop member _
  rintro _ finish (kept | ⟨dir, left, -, -, -, partly⟩)
  · exact .refl key files kept
  · rw [partly]
    exact .put member _ _

theorem removeIfPresent (member : file ∈ files) : Within key files (Template.removeIfPresent key file) := by
  refine bind (attempt (removeDirAll member)) fun result => ?_
  split
  · exact pure ()
  · exact pure ()
  · exact throw _

end Within

def places (version : Name) : List Name := [version, nextName version, oldName version]

section

variable (key : Key) (version : Name)

theorem settleOld_within : Within key (places version) (settleOld key version) := by
  refine .look fun aside => ?_
  split
  · exact .pure ()
  refine .look fun shown => ?_
  split
  · exact .removeIfPresent (by simp [places])
  · exact .rename (by simp [places]) (by simp [places])

theorem recoverSwap_within : Within key (places version) (recoverSwap key version) :=
  .bind (settleOld_within key version) fun _ => .removeIfPresent (by simp [places])

theorem moveIn_within {target : Name} (member : target ∈ places version) (dir : VersionDir) :
    Within key (places version) (moveIn dir key target) := by
  refine .answer fun reply => ?_
  cases reply with
  | done => exact .place member dir
  | fails left => exact .throw _
  | crash => exact .throw _
  | crosses =>
    refine .bind .call fun _ => .bind .call fun _ => .answer fun reply => ?_
    cases reply with
    | done => exact .bind (.place member dir) fun _ => .bestEffort .call
    | fails left | crash | crosses => exact .throw _

theorem clearNext_within : Within key (places version) (bestEffort (removeDirAll key (nextName version))) :=
  .bestEffort (.removeDirAll (by simp [places]))

theorem setAside_within : Within key (places version) (setAside key version) := by
  have back : Within key (places version) (putBack key version) := by
    refine .bind (.attempt (.rename (by simp [places]) (by simp [places]))) fun restored => ?_
    refine .bind (clearNext_within key version) fun _ => ?_
    split <;> exact .throw _
  refine .bind (.attempt (.rename (by simp [places]) (by simp [places]))) fun set => ?_
  split
  · exact .bind (clearNext_within key version) fun _ => .throw _
  refine .bind (.attempt (.rename (by simp [places]) (by simp [places]))) fun moved => ?_
  split
  · exact back
  · exact .bestEffort (.removeDirAll (by simp [places]))

theorem swapIn_within (dir : VersionDir) : Within key (places version) (swapIn dir key version) := by
  refine .bind (.removeIfPresent (by simp [places])) fun _ => ?_
  refine .bind (.attempt (moveIn_within key version (by simp [places]) dir)) fun staged => ?_
  split
  · exact .bind (clearNext_within key version) fun _ => .throw _
  · exact setAside_within key version

theorem remove_within (force : Bool) (inUse : Option String) :
    Within key (places version) (remove key version force inUse) := by
  refine .bind .call fun _ => .look fun found => ?_
  split
  · exact .throw _
  refine .bind ?_ fun _ => .bind (.removeDirAll (by simp [places])) fun _ =>
    .bind (.bestEffort .call) fun _ => .bestEffort .call
  split
  · split
    · exact .ite (.pure ()) (.throw _)
    · exact .pure ()
  · exact .ite (.pure ()) (.throw _)

end

theorem installWith_within (staged : Staged) (overwrite : Bool) :
    Within staged.key (places staged.version) (installWith staged overwrite) := by
  refine .ite (.throw _) (.ite (.throw _) ?_)
  refine .bind (recoverSwap_within _ _) fun _ => .look fun there => ?_
  refine .ite (.throw _) (.bind .call fun _ => .bind .call fun _ => ?_)
  split
  · exact swapIn_within _ _ _
  · exact moveIn_within _ _ (by simp [places]) _

end Vmlab.Template
