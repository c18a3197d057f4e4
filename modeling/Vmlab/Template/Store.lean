import Vmlab.Library.Program
import Vmlab.Library.SortedMap

/-!
# Template metadata and the template store

The variant blocks of a `template.wcl` (`template/meta.rs`): when a file reads
back, which variant is the default, and how a built variant is merged in. The
text of the file is left to the WCL library; a file is the record it holds. Over
them the version directories (`template/store.rs`): the swap that replaces one,
its recovery, and the overlays of variants.
-/

namespace Vmlab.Template

open String (ofList)

abbrev Name := List Char

structure VariantMeta where
  name : Name
  isDefault : Bool
  sha256 : Name
  baseSha256 : Name
  deriving DecidableEq

structure TemplateMeta where
  name : Name
  arch : Name
  version : Name
  sha256 : Option Name
  secureBootVars : Bool
  variantsExpected : Bool
  variants : List VariantMeta
  deriving DecidableEq

def baseVariant : Name := "base".toList

def variantChar (letter : Char) : Bool := letter.isLower || letter.isDigit

def variantNameOk : Name → Bool
  | [] => false
  | first :: rest =>
    rest.length < 32 && variantChar first && rest.all fun letter => variantChar letter || letter = '-'

def checkVariantName (name : Name) : Except String Unit :=
  if name = baseVariant then
    .error "`base` is reserved — it names the template's base disk, not a variant"
  else if !variantNameOk name then
    .error ("malformed variant name `" ++ ofList name ++ "`: a variant name is 1-32 characters of lowercase " ++
             "letters, digits and `-`, starting with a letter or digit")
  else .ok ()

def variantIssues (before : List VariantMeta) (variant : VariantMeta) : List String :=
  (match checkVariantName variant.name with
    | .ok () => []
    | .error reason => ["variant \"" ++ ofList variant.name ++ "\": " ++ reason]) ++
  if before.any fun other => other.name = variant.name then
    ["variant \"" ++ ofList variant.name ++ "\" is recorded twice"]
  else []

def blockIssues (before : List VariantMeta) : List VariantMeta → List String
  | [] => []
  | variant :: rest => variantIssues before variant ++ blockIssues (before ++ [variant]) rest

def joined (names : List Name) : String := String.intercalate ", " (names.map ofList)

def defaultIssues (variants : List VariantMeta) : List String :=
  let defaults := (variants.filter (·.isDefault)).map (·.name)
  if 1 < variants.length ∧ defaults.length ≠ 1 then
    let why := if defaults.isEmpty then "none of them is marked `default = true`"
      else "several are marked `default = true` (" ++ joined defaults ++ ")"
    ["template has variants " ++ joined (variants.map (·.name)) ++ " but " ++ why ++
      " — exactly one variant must be the default"]
  else []

def extractVariants (variants : List VariantMeta) : Except (List String) (List VariantMeta) :=
  match blockIssues [] variants ++ defaultIssues variants with
  | [] => .ok variants
  | issues => .error issues

namespace TemplateMeta

def readFrom (file : TemplateMeta) : Except (List String) TemplateMeta :=
  (extractVariants file.variants).map fun variants => { file with variants }

def variant (record : TemplateMeta) (name : Name) : Option VariantMeta :=
  record.variants.find? fun variant => variant.name = name

def defaultVariant (record : TemplateMeta) : Option VariantMeta :=
  match record.variants with
  | [] => none
  | [only] => some only
  | several => several.find? (·.isDefault)

def variantList (record : TemplateMeta) : String :=
  let chosen := record.defaultVariant.map (·.name)
  String.intercalate ", " (record.variants.map fun variant =>
    if some variant.name = chosen then ofList variant.name ++ " (default)"
    else ofList variant.name)

end TemplateMeta

def putVariant (incoming : VariantMeta) : List VariantMeta → List VariantMeta
  | [] => [incoming]
  | variant :: rest =>
    if variant.name = incoming.name then incoming :: rest else variant :: putVariant incoming rest

def mergeVariant (variants : List VariantMeta) (incoming : VariantMeta) : List VariantMeta :=
  putVariant incoming
    (if incoming.isDefault then variants.map fun variant => { variant with isDefault := false } else variants)

/-! ### The store -/

open Library

structure Overlay where
  sha256 : Name
  backing : Option Name
  deriving DecidableEq

structure VersionDir where
  file : Option TemplateMeta
  disk : Option Name
  vars : Bool
  overlays : List (Name × Overlay)
  deriving DecidableEq

def VersionDir.overlay (dir : VersionDir) (variant : Name) : Option Overlay :=
  (dir.overlays.find? fun entry => entry.1 = variant).map Prod.snd

def VersionDir.isEmpty (dir : VersionDir) : Bool :=
  dir.file.isNone && dir.disk.isNone && !dir.vars && dir.overlays.isEmpty

structure Left where
  file : Bool
  disk : Bool
  vars : Bool
  overlays : List Name

def VersionDir.keep (dir : VersionDir) (left : Left) : VersionDir where
  file := if left.file then dir.file else none
  disk := if left.disk then dir.disk else none
  vars := left.vars && dir.vars
  overlays := dir.overlays.filter fun entry => entry.1 ∈ left.overlays

inductive Answer where
  | done
  | fails (left : Left)
  | crosses
  | crash

structure Key where
  arch : Name
  name : Name
  deriving DecidableEq

inductive StoreError where
  | io
  | notFound
  | noDisk
  | noVars (key : Key) (version : Name)
  | exists (key : Key) (version : Name)
  | cannotSetAside (version : Name)
  | cannotMoveIn (version : Name)
  | cannotRestore (version : Name)
  | missing (key : Key) (version : Name)
  | unreadable (issues : List String)
  | inUse (key : Key) (version : Name) (reason : String)
  | corrupt (key : Key) (version : Name)
  | variant (message : String)

def reference (key : Key) (version : Name) : String :=
  ofList key.arch ++ "/" ++ ofList key.name ++ "@" ++ ofList version

/-- Why an operation does not go on: it returns an error, or its process is gone. -/
inductive Stop where
  | error (error : StoreError)
  | crashed

/-- The directories in each template's directory, under their file names. -/
abbrev Store := Key → SortedMap Name VersionDir

def Store.get (store : Store) (key : Key) (file : Name) : Option VersionDir := (store key).get? file

def Store.put (store : Store) (key : Key) (file : Name) (dir : VersionDir) : Store :=
  Function.update store key ((store key).insert file dir)

def Store.drop (store : Store) (key : Key) (file : Name) : Store := Function.update store key ((store key).erase file)

def emptyStore : Store := fun _ => .empty

structure World where
  store : Store
  answers : List Answer

abbrev StoreM := EStateM Stop World

/-- The next file-system call; when the answers run out every call is done. -/
def answer : StoreM Answer := fun world =>
  match world.answers with
  | [] => .ok .done world
  | .crash :: later => .error .crashed { world with answers := later }
  | reply :: later => .ok reply { world with answers := later }

/-- A call whose failure is an error and which touches no version. -/
def call : StoreM Unit := do
  match ← answer with
  | .done => pure ()
  | _ => throw (.error .io)

def attempt {α : Type} (program : StoreM α) : StoreM (Except StoreError α) := fun world =>
  match program world with
  | .ok value world => .ok (.ok value) world
  | .error (.error error) world => .ok (.error error) world
  | .error .crashed world => .error .crashed world

def bestEffort (program : StoreM Unit) : StoreM Unit := do
  let _ ← attempt program
  pure ()

def look (key : Key) (file : Name) : StoreM (Option VersionDir) := do
  pure ((← get).store.get key file)

def setStore (change : Store → Store) : StoreM Unit := modify fun world => { world with store := change world.store }

def place (key : Key) (file : Name) (dir : VersionDir) : StoreM Unit := do
  match ← look key file with
  | none => setStore fun store => store.put key file dir
  | some there =>
    if there.isEmpty then setStore fun store => store.put key file dir else throw (.error .io)

def rename (key : Key) (source target : Name) : StoreM Unit := do
  match ← answer with
  | .done =>
    match ← look key source with
    | none => throw (.error .notFound)
    | some dir => do
        place key target dir
        setStore fun store => store.drop key source
  | _ => throw (.error .io)

def removeDirAll (key : Key) (file : Name) : StoreM Unit := do
  match ← answer with
  | .done =>
    match ← look key file with
    | none => throw (.error .notFound)
    | some _ => setStore fun store => store.drop key file
  | .fails left =>
    match ← look key file with
    | none => throw (.error .notFound)
    | some dir => do
        setStore fun store => store.put key file (dir.keep left)
        throw (.error .io)
  | _ => throw (.error .io)

def removeIfPresent (key : Key) (file : Name) : StoreM Unit := do
  match ← attempt (removeDirAll key file) with
  | .ok () => pure ()
  | .error .notFound => pure ()
  | .error error => throw (.error error)

/-! ### Swapping versions -/

def nextPrefix : Name := ".next-".toList

def oldPrefix : Name := ".old-".toList

def nextName (version : Name) : Name := nextPrefix ++ version

def oldName (version : Name) : Name := oldPrefix ++ version

def settleOld (key : Key) (version : Name) : StoreM Unit := do
  match ← look key (oldName version) with
  | none => pure ()
  | some _ =>
    match ← look key version with
    | some _ => removeIfPresent key (oldName version)
    | none => rename key (oldName version) version

def recoverSwap (key : Key) (version : Name) : StoreM Unit := do
  settleOld key version
  removeIfPresent key (nextName version)

def leftover (file : Name) : Option Name :=
  let version := if file.take 6 = nextPrefix then some (file.drop 6)
    else if file.take 5 = oldPrefix then some (file.drop 5) else none
  version.filter fun version => !version.isEmpty

def swapLeftovers (files : SortedMap Name VersionDir) : List Name :=
  (SortedMap.ofKeys (files.keys.filterMap leftover)).keys

def recoverAll : List (Key × Name) → StoreM Unit
  | [] => pure ()
  | (key, version) :: rest => do
      recoverSwap key version
      recoverAll rest

def recoverSwaps (keys : List Key) : StoreM Unit := do
  let store := (← get).store
  let leftovers := keys.flatMap fun key => (swapLeftovers (store key)).map fun version => (key, version)
  if leftovers.isEmpty then pure ()
  else bestEffort do
    call
    recoverAll leftovers

def moveIn (dir : VersionDir) (key : Key) (target : Name) : StoreM Unit := do
  match ← answer with
  | .done => place key target dir
  | .crosses => do
      -- The copy goes into a staging directory of the store, which no reader looks at.
      call
      call
      match ← answer with
      | .done => do
          place key target dir
          bestEffort call
      | _ => throw (.error .io)
  | _ => throw (.error .io)

def putBack (key : Key) (version : Name) : StoreM Unit := do
  let restored ← attempt (rename key (oldName version) version)
  bestEffort (removeDirAll key (nextName version))
  match restored with
  | .ok () => throw (.error (.cannotMoveIn version))
  | .error _ => throw (.error (.cannotRestore version))

def moveNext (key : Key) (version : Name) : StoreM Unit := do
  match ← attempt (rename key (nextName version) version) with
  | .error _ => putBack key version
  | .ok () => bestEffort (removeDirAll key (oldName version))

def setAside (key : Key) (version : Name) : StoreM Unit := do
  match ← attempt (rename key version (oldName version)) with
  | .error _ => do
      bestEffort (removeDirAll key (nextName version))
      throw (.error (.cannotSetAside version))
  | .ok () => moveNext key version

def swapIn (dir : VersionDir) (key : Key) (version : Name) : StoreM Unit := do
  removeIfPresent key (nextName version)
  match ← attempt (moveIn dir key (nextName version)) with
  | .error error => do
      bestEffort (removeDirAll key (nextName version))
      throw (.error error)
  | .ok () => setAside key version

structure Staged where
  record : TemplateMeta
  disk : Option Name
  vars : Bool
  overlays : List (Name × Overlay)

namespace Staged

def key (staged : Staged) : Key := ⟨staged.record.arch, staged.record.name⟩

def version (staged : Staged) : Name := staged.record.version

def contents (staged : Staged) : VersionDir := ⟨some staged.record, staged.disk, staged.vars, staged.overlays⟩

end Staged

def installWith (staged : Staged) (overwrite : Bool) : StoreM Unit := do
  if staged.disk.isNone then throw (.error .noDisk)
  else if staged.record.secureBootVars && !staged.vars then
    throw (.error (.noVars staged.key staged.version))
  else do
    recoverSwap staged.key staged.version
    let there ← look staged.key staged.version
    if there.isSome && !overwrite then throw (.error (.exists staged.key staged.version))
    else do
      -- `template.wcl` into the staging directory, then the parent directory.
      call
      call
      match there with
      | some _ => swapIn staged.contents staged.key staged.version
      | none => moveIn staged.contents staged.key staged.version

def install (staged : Staged) (overwrite : Bool) : StoreM Unit := do
  call
  installWith staged overwrite

def importArchive (archive : Except StoreError Staged) (overwrite : Bool) : StoreM Unit := do
  call
  call
  match archive with
  | .error error => throw (.error error)
  | .ok staged => installWith staged overwrite

def readMeta (dir : VersionDir) : Except StoreError TemplateMeta :=
  match dir.file with
  | none => .error .notFound
  | some file =>
    match file.readFrom with
    | .error issues => .error (.unreadable issues)
    | .ok record =>
      .ok { record with variants := record.variants.filter fun variant => (dir.overlay variant.name).isSome }

/-- Removal of a whole version. `inUse` is what keeps its disks from going. -/
def remove (key : Key) (version : Name) (force : Bool) (inUse : Option String) : StoreM Unit := do
  call
  match ← look key version with
  | none => throw (.error (.missing key version))
  | some dir => do
      (match readMeta dir with
        | .ok _ =>
          match inUse with
          | some reason => if force then pure () else throw (.error (.inUse key version reason))
          | none => pure ()
        | .error error => if force then pure () else throw (.error error))
      removeDirAll key version
      -- The parents go when they are empty.
      bestEffort call
      bestEffort call

def readStore (keys : List Key) : StoreM Store := do
  recoverSwaps keys
  pure (← get).store

inductive StoreOp where
  | install (staged : Staged) (overwrite : Bool)
  | importArchive (archive : Except StoreError Staged) (overwrite : Bool)
  | remove (key : Key) (version : Name) (force : Bool) (inUse : Option String)
  | read (keys : List Key)

/-- Carry an operation out; a read returns the directories it looked at. -/
def StoreOp.run : StoreOp → StoreM (Option Store)
  | .install staged overwrite => do
      Template.install staged overwrite
      pure none
  | .importArchive archive overwrite => do
      Template.importArchive archive overwrite
      pure none
  | .remove key version force inUse => do
      Template.remove key version force inUse
      pure none
  | .read keys => do
      let view ← readStore keys
      pure (some view)

/-! ### Variants: an overlay moves before its block is written, a block goes before its overlay is removed -/

def variantBacking : Name := "../../disk.qcow2".toList

def digestMatches (left right : Name) : Bool :=
  let bare := fun digest : Name =>
    (if digest.take 7 = "sha256:".toList then digest.drop 7 else digest).map Char.toLower
  bare left = bare right

def verifyVariant (template : String) (dir : VersionDir) (base : Name) (variant : VariantMeta) :
    Except StoreError Unit :=
  let subject := "variant `" ++ ofList variant.name ++ "` of " ++ template
  match dir.overlay variant.name with
  | none => .error (.variant (subject ++ " has no variants/" ++ ofList variant.name ++ "/disk.qcow2"))
  | some overlay =>
    if !digestMatches overlay.sha256 variant.sha256 then
      .error (.variant (subject ++ ": disk digest mismatch, expected " ++ ofList variant.sha256 ++ ", got " ++
        ofList overlay.sha256 ++ " — the archive is corrupt"))
    else if !digestMatches base variant.baseSha256 then
      .error (.variant (subject ++ " was built on base " ++ ofList variant.baseSha256 ++
        " but the base here is " ++ ofList base ++
        " — refusing a variant that does not belong to this base"))
    else if overlay.backing ≠ some variantBacking then
      .error (.variant (subject ++ " is backed by " ++ (overlay.backing.map ofList).getD "nothing" ++
        " rather than " ++ ofList variantBacking))
    else .ok ()

def verifyAll (template : String) (dir : VersionDir) (base : Name) : List VariantMeta → Except StoreError Unit
  | [] => .ok ()
  | variant :: rest =>
    match verifyVariant template dir base variant with
    | .error error => .error error
    | .ok () => verifyAll template dir base rest

def verifyVariants (template : String) (dir : VersionDir) (variants : List VariantMeta)
    (baseDigest : Option Name) : Except StoreError Unit :=
  if variants.isEmpty then .ok ()
  else
    match baseDigest.or dir.disk with
    | none => .error .notFound
    | some base => verifyAll template dir base variants

def installWithVariants (staged : Staged) (overwrite : Bool) : StoreM Unit :=
  match verifyVariants (reference staged.key staged.version) staged.contents staged.record.variants
      staged.record.sha256 with
  | .error error => throw (.error error)
  | .ok () =>
    if staged.record.variants.isEmpty || staged.record.variantsExpected then install staged overwrite
    else install { staged with record := { staged.record with variantsExpected := true } } overwrite

/-- `installed_locked`: recover the version's interrupted swap, then read it. -/
def installedLocked (key : Key) (version : Name) : StoreM (Option (VersionDir × TemplateMeta)) := do
  recoverSwap key version
  match ← look key version with
  | none => pure none
  | some dir =>
    if dir.file.isNone then pure none
    else
      match readMeta dir with
      | .error error => throw (.error error)
      | .ok record =>
        if dir.disk.isNone then throw (.error (.corrupt key version)) else pure (some (dir, record))

def setDir (key : Key) (version : Name) (change : VersionDir → VersionDir) : StoreM Unit := do
  match ← look key version with
  | none => throw (.error .notFound)
  | some dir => setStore fun store => store.put key version (change dir)

def dropOverlay (variant : Name) (dir : VersionDir) : VersionDir :=
  { dir with overlays := dir.overlays.filter fun entry => !decide (entry.1 = variant) }

def removeOverlay (key : Key) (version variant : Name) : StoreM Unit := do
  match ← answer with
  | .done => setDir key version (dropOverlay variant)
  | .fails left => do
      (if variant ∈ left.overlays then pure () else setDir key version (dropOverlay variant))
      throw (.error .io)
  | _ => throw (.error .io)

def moveOverlay (key : Key) (version variant : Name) (staged : List (Name × Overlay)) : StoreM Unit := do
  match ← answer with
  | .done =>
    match staged.find? fun entry => entry.1 = variant with
    | none => throw (.error .notFound)
    | some entry => setDir key version fun dir => { dir with overlays := dir.overlays ++ [entry] }
  | _ => throw (.error .io)

def addOverlays (key : Key) (version : Name) : List VariantMeta → List (Name × Overlay) → List VariantMeta →
    StoreM (List VariantMeta)
  | [], _, blocks => pure blocks
  | variant :: rest, staged, blocks => do
      match ← look key version with
      | none => throw (.error .notFound)
      | some dir => do
          (if (dir.overlay variant.name).isSome then removeOverlay key version variant.name else pure ())
          call
          moveOverlay key version variant.name staged
          -- A staged overlay moves once.
          addOverlays key version rest (staged.filter fun entry => !decide (entry.1 = variant.name))
            (mergeVariant blocks variant)

def writeMetaAtomic (key : Key) (version : Name) (record : TemplateMeta) : StoreM Unit := do
  call
  call
  setDir key version fun dir => { dir with file := some record }

def readLocked (key : Key) (version : Name) : StoreM TemplateMeta := do
  match ← look key version with
  | none => throw (.error .notFound)
  | some dir =>
    match readMeta dir with
    | .error error => throw (.error error)
    | .ok record => pure record

def onDisk (dir : VersionDir) : Except StoreError TemplateMeta :=
  match dir.file with
  | none => .error .notFound
  | some file =>
    match file.readFrom with
    | .error issues => .error (.unreadable issues)
    | .ok record => .ok record

def addVariants (key : Key) (version : Name) (staging : VersionDir) (variants : List VariantMeta) :
    StoreM TemplateMeta := do
  call
  match ← installedLocked key version with
  | none => throw (.error (.missing key version))
  | some (dir, found) =>
    match verifyVariants (reference key version) staging variants found.sha256, onDisk dir with
    | .error error, _ => throw (.error error)
    | _, .error error => throw (.error error)
    | .ok (), .ok record => do
        let blocks ← addOverlays key version variants staging.overlays record.variants
        writeMetaAtomic key version { record with variants := blocks, variantsExpected := true }
        readLocked key version

def variantRefusal (key : Key) (version variant : Name) (found : TemplateMeta) (force : Bool)
    (inUse : Option String) : Option String :=
  let template := "template " ++ reference key version
  let refusing := "refusing to remove " ++ reference key version ++ "#" ++ ofList variant ++ ": "
  if variant = baseVariant then
    some ("`#base` is the version itself — remove " ++ reference key version ++ " to remove the base with its variants")
  else if (found.variant variant).isNone then
    if found.variants.isEmpty then some (template ++ " has no variants")
    else some (template ++ " has no variant `" ++ ofList variant ++ "` (its variants: " ++
      found.variantList ++ ")")
  else if found.variants.length = 1 then
    some (refusing ++ "it is the version's only variant, and without it a bare reference would select the unsealed " ++
      "base — remove " ++ reference key version ++ " instead")
  else if found.defaultVariant.map (·.name) = some variant then
    some (refusing ++ "it is the default variant, and the version's other variants (" ++
      joined ((found.variants.map (·.name)).filter fun name => !decide (name = variant)) ++
      ") would be left with none — remove " ++ reference key version ++ " instead, or rebuild it with another default")
  else
    match inUse with
    | some reason => if force then none else some (refusing ++ reason ++ " (use --force to remove anyway)")
    | none => none

def removeVariant (key : Key) (version variant : Name) (force : Bool) (inUse : Option String) : StoreM Unit := do
  call
  match ← installedLocked key version with
  | none => throw (.error (.missing key version))
  | some (dir, found) =>
    match variantRefusal key version variant found force inUse, onDisk dir with
    | some message, _ => throw (.error (.variant message))
    | none, .error error => throw (.error error)
    | none, .ok record => do
        let blocks := record.variants.filter fun other => !decide (other.name = variant)
        writeMetaAtomic key version { record with variants := blocks, variantsExpected := true }
        removeOverlay key version variant
        bestEffort call

inductive VariantOp where
  | install (staged : Staged) (overwrite : Bool)
  | add (key : Key) (version : Name) (staging : VersionDir) (variants : List VariantMeta)
  | removeVariant (key : Key) (version variant : Name) (force : Bool) (inUse : Option String)
  | remove (key : Key) (version : Name) (force : Bool) (inUse : Option String)

def VariantOp.run : VariantOp → StoreM Unit
  | .install staged overwrite => installWithVariants staged overwrite
  | .add key version staging variants => do
      let _ ← addVariants key version staging variants
      pure ()
  | .removeVariant key version variant force inUse => Template.removeVariant key version variant force inUse
  | .remove key version force inUse => Template.remove key version force inUse

end Vmlab.Template
