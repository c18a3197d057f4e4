import Vmlab.Library.Utf8

/-!
# Handling what a playbook's command writes

One invocation of the command (`labd/playbook.rs`), from the chunks its session delivers to the output sink, the op
log, the events and the outcome or error, with secrets kept out of them (`Redactor` of `labd/playbook_vars.rs`). The
language of variables, parsing JSON and writing a number with one decimal are parameters.
-/

namespace Vmlab.Playbook

open List

abbrev Text := List Char

def redacted : Text := "***".toList

/-- `PlaybookVar`: its value is the text of an expression. -/
structure PlaybookVar where
  name : Text
  value : Text
  secret : Bool

/-- A value of the configuration language, as far as the redactor looks at it. -/
inductive Evaluated where
  | text (value : Text)
  | other

inductive Value where
  | null
  | bool (value : Bool)
  | number (text : Text)
  | string (text : Text)
  | array (items : List Value)
  | object (entries : List (Text × Value))

def Value.isObject : Value → Bool
  | .object _ => true
  | _ => false

def Value.asStr : Value → Option Text
  | .string text => some text
  | _ => none

def Value.index (value : Value) (key : Text) : Value :=
  match value with
  | .object entries => ((entries.find? (·.1 == key)).map (·.2)).getD .null
  | _ => .null

mutual

def Value.strings : Value → List Text
  | .string text => [text]
  | .array items => Value.itemStrings items
  | .object entries => Value.entryStrings entries
  | _ => []

def Value.itemStrings : List Value → List Text
  | [] => []
  | item :: items => item.strings ++ Value.itemStrings items

def Value.entryStrings : List (Text × Value) → List Text
  | [] => []
  | (key, value) :: entries => key :: value.strings ++ Value.entryStrings entries

end

mutual

def Value.scalars : Value → List Text
  | .null => ["null".toList]
  | .bool value => [if value then "true".toList else "false".toList]
  | .number text => [text]
  | .string _ => []
  | .array items => Value.itemScalars items
  | .object entries => Value.entryScalars entries

def Value.itemScalars : List Value → List Text
  | [] => []
  | item :: items => item.scalars ++ Value.itemScalars items

def Value.entryScalars : List (Text × Value) → List Text
  | [] => []
  | (_, value) :: entries => value.scalars ++ Value.entryScalars entries

end

def Value.texts (value : Value) : List Text := value.strings ++ value.scalars

def collect (entries : List (Text × Value)) : List (Text × Value) :=
  entries.foldl (fun map entry => map.filter (·.1 != entry.1) ++ [entry]) []

structure Redactor where
  secrets : List Text
  nonempty : [] ∉ secrets

/-- The secrets of the variables: as written, and as evaluated where that is a text. -/
def secretTexts (evaluate : Text → Option Evaluated) (vars : List PlaybookVar) : List Text :=
  (vars.filter (·.secret)).flatMap fun var =>
    var.value ::
      match evaluate var.value with
      | some (.text value) => [value]
      | _ => []

def byteLength (text : Text) : Nat := (text.map Char.utf8Size).sum

def before (left right : Text) : Prop :=
  byteLength right < byteLength left ∨ byteLength left = byteLength right ∧ left ≤ right

instance (left right : Text) : Decidable (before left right) := inferInstanceAs (Decidable (_ ∨ _))

def dedup : List Text → List Text
  | first :: second :: rest => if first = second then dedup (second :: rest) else first :: dedup (second :: rest)
  | short => short

section

variable {text : Text} {secrets : List Text} {redact : Redactor}

theorem mem_dedup {texts : List Text} : text ∈ dedup texts ↔ text ∈ texts := by
  fun_induction dedup texts with
  | case1 first rest ih => simp [ih]
  | case2 first second rest other ih => simp only [mem_cons, ih]
  | case3 short => rfl

def ordered (texts : List Text) : List Text := dedup ((texts.filter (· != [])).insertionSort before)

theorem mem_ordered {texts : List Text} : text ∈ ordered texts ↔ text ∈ texts ∧ text ≠ [] := by
  unfold ordered
  rw [mem_dedup, mem_insertionSort, List.mem_filter]
  simp

def Redactor.forVars (evaluate : Text → Option Evaluated) (vars : List PlaybookVar) : Redactor where
  secrets := ordered (secretTexts evaluate vars)
  nonempty empty := (mem_ordered.mp empty).2 rfl

def stripSecret (secrets : List Text) (rest : Text) : Option Text :=
  secrets.findSome? fun secret => if secret.isPrefixOf rest then some (rest.drop secret.length) else none

def scan (secrets : List Text) : Nat → Text → Text
  | 0, _ => []
  | _ + 1, [] => []
  | fuel + 1, char :: rest =>
    match stripSecret secrets (char :: rest) with
    | some after => redacted ++ scan secrets fuel after
    | none => char :: scan secrets fuel rest

def Redactor.scrub (redact : Redactor) (text : Text) : Text :=
  if redact.secrets.isEmpty then text else scan redact.secrets text.length text

mutual

def Redactor.scrubValue (redact : Redactor) : Value → Value
  | .string text => .string (redact.scrub text)
  | .array items => .array (Redactor.scrubItems redact items)
  | .object entries => .object (collect (Redactor.scrubEntries redact entries))
  | other => other

def Redactor.scrubItems (redact : Redactor) : List Value → List Value
  | [] => []
  | item :: items => redact.scrubValue item :: Redactor.scrubItems redact items

def Redactor.scrubEntries (redact : Redactor) : List (Text × Value) → List (Text × Value)
  | [] => []
  | (key, value) :: entries => (redact.scrub key, redact.scrubValue value) :: Redactor.scrubEntries redact entries

end

def Redactor.scrubJson (redact : Redactor) (value : Value) : Value :=
  if redact.secrets.isEmpty then value else redact.scrubValue value

def Redactor.scrubError (redact : Redactor) (error : Text) : Text := redact.scrub error

/-! ### What the redactor lets through -/

def Clean (secrets : List Text) (text : Text) : Prop := ∀ secret ∈ secrets, ¬secret <:+: text

/-- A secret that could be told from its replacement. -/
def Plain (secrets : List Text) : Prop := ∀ secret ∈ secrets, secret ≠ [] ∧ '*' ∉ secret

theorem stripSecret_none {rest : Text} (none : stripSecret secrets rest = none) {secret : Text}
    (listed : secret ∈ secrets) : ¬secret <+: rest := by
  intro starts
  have here := findSome?_eq_none_iff.mp none secret listed
  rw [if_pos (List.isPrefixOf_iff_prefix.mpr starts)] at here
  cases here

theorem prefix_of_scan {fuel : Nat} {secret : Text} (star : '*' ∉ secret)
    (starts : secret <+: scan secrets fuel text) : secret <+: text := by
  induction fuel generalizing text secret with
  | zero =>
    rw [prefix_nil.mp starts]
    exact nil_prefix
  | succ fuel ih =>
    cases secret with
    | nil => exact nil_prefix
    | cons head tail =>
      cases text with
      | nil => exact absurd (prefix_nil.mp starts) (by simp)
      | cons char rest =>
        unfold scan at starts
        split at starts
        · have same : head = '*' := (cons_prefix_cons.mp starts).1
          exact absurd (by simp [same]) star
        · obtain ⟨rfl, later⟩ := cons_prefix_cons.mp starts
          exact cons_prefix_cons.mpr ⟨rfl, ih (fun inside => star (mem_cons_of_mem _ inside)) later⟩

theorem scan_clean (plain : Plain secrets) (fuel : Nat) (text : Text) : Clean secrets (scan secrets fuel text) := by
  intro secret listed inside
  obtain ⟨filled, star⟩ := plain secret listed
  induction fuel generalizing text with
  | zero => exact filled (infix_nil.mp inside)
  | succ fuel ih =>
    cases text with
    | nil => exact filled (infix_nil.mp inside)
    | cons char rest =>
      unfold scan at inside
      split at inside
      · next after stripped =>
        -- The secret has no star, so it does not touch the replacement.
        have stars : ∀ count, secret <:+: replicate count '*' ++ scan secrets fuel after →
            secret <:+: scan secrets fuel after := by
          intro count
          induction count with
          | zero => exact id
          | succ count shorter =>
            intro within
            rw [replicate_succ, cons_append, infix_cons_iff] at within
            rcases within with starts | later
            · cases secret with
              | nil => exact absurd rfl filled
              | cons head tail =>
                have same : head = '*' := (cons_prefix_cons.mp starts).1
                exact absurd (by simp [same]) star
            · exact shorter later
        exact ih after (stars 3 inside)
      · next none =>
        rcases infix_cons_iff.mp inside with starts | later
        · refine stripSecret_none none listed ?_
          cases secret with
          | nil => exact nil_prefix
          | cons head tail =>
            obtain ⟨rfl, following⟩ := cons_prefix_cons.mp starts
            exact cons_prefix_cons.mpr
              ⟨rfl, prefix_of_scan (fun inside => star (mem_cons_of_mem _ inside)) following⟩
        · exact ih rest later

theorem scrub_clean (plain : Plain redact.secrets) (text : Text) : Clean redact.secrets (redact.scrub text) := by
  unfold Redactor.scrub
  split
  · next empty =>
    intro secret listed
    rw [List.isEmpty_iff.mp empty] at listed
    cases listed
  · exact scan_clean plain _ text

theorem mem_collect {entry : Text × Value} {entries : List (Text × Value)} (listed : entry ∈ collect entries) :
    entry ∈ entries := by
  have kept : ∀ (entries done : List (Text × Value)),
      entry ∈ entries.foldl (fun map entry => map.filter (·.1 != entry.1) ++ [entry]) done →
        entry ∈ done ∨ entry ∈ entries := by
    intro entries
    induction entries with
    | nil => exact fun _ here => .inl here
    | cons first entries ih =>
      intro done here
      rcases ih _ here with early | late
      · rcases mem_append.mp early with old | new
        · exact .inl (mem_of_mem_filter old)
        · exact .inr (mem_cons.mpr (.inl (mem_singleton.mp new)))
      · exact .inr (mem_cons_of_mem _ late)
  exact (kept entries [] listed).resolve_left not_mem_nil

theorem mem_entryStrings {entries : List (Text × Value)} :
    text ∈ Value.entryStrings entries ↔ ∃ entry ∈ entries, text = entry.1 ∨ text ∈ entry.2.strings := by
  induction entries with
  | nil => simp [Value.entryStrings]
  | cons entry entries ih =>
    obtain ⟨key, value⟩ := entry
    simp [Value.entryStrings, ih, or_assoc]

mutual

theorem scrubValue_clean (plain : Plain redact.secrets) :
    ∀ value : Value, ∀ text ∈ (redact.scrubValue value).strings, Clean redact.secrets text
  | .null, text, listed => by simp [Redactor.scrubValue, Value.strings] at listed
  | .bool _, text, listed => by simp [Redactor.scrubValue, Value.strings] at listed
  | .number _, text, listed => by simp [Redactor.scrubValue, Value.strings] at listed
  | .string raw, text, listed => by
      simp only [Redactor.scrubValue, Value.strings, List.mem_singleton] at listed
      rw [listed]
      exact scrub_clean plain raw
  | .array items, text, listed => scrubItems_clean plain items text listed
  | .object entries, text, listed => by
      obtain ⟨entry, inside, named⟩ := mem_entryStrings.mp listed
      exact scrubEntries_clean plain entries text (mem_entryStrings.mpr ⟨entry, mem_collect inside, named⟩)

theorem scrubItems_clean (plain : Plain redact.secrets) :
    ∀ items : List Value, ∀ text ∈ Value.itemStrings (Redactor.scrubItems redact items), Clean redact.secrets text
  | [], text, listed => by simp [Redactor.scrubItems, Value.itemStrings] at listed
  | item :: items, text, listed => by
      simp only [Redactor.scrubItems, Value.itemStrings, List.mem_append] at listed
      rcases listed with here | later
      · exact scrubValue_clean plain item text here
      · exact scrubItems_clean plain items text later

theorem scrubEntries_clean (plain : Plain redact.secrets) :
    ∀ entries : List (Text × Value), ∀ text ∈ Value.entryStrings (Redactor.scrubEntries redact entries),
      Clean redact.secrets text
  | [], text, listed => by simp [Redactor.scrubEntries, Value.entryStrings] at listed
  | (key, value) :: entries, text, listed => by
      simp only [Redactor.scrubEntries, Value.entryStrings, List.mem_append, List.mem_cons] at listed
      rcases listed with (named | here) | later
      · rw [named]
        exact scrub_clean plain key
      · exact scrubValue_clean plain value text here
      · exact scrubEntries_clean plain entries text later

end

theorem scrubJson_clean (plain : Plain redact.secrets) (value : Value)
    (listed : text ∈ (redact.scrubJson value).strings) : Clean redact.secrets text := by
  unfold Redactor.scrubJson at listed
  split at listed
  · next empty =>
    intro secret here
    rw [List.isEmpty_iff.mp empty] at here
    cases here
  · exact scrubValue_clean plain value text listed

end

open Library.Utf8 (lossy)

/-! ### Lines -/

def splitLines : Text → List Text × Text
  | [] => ([], [])
  | char :: rest =>
    let (lines, carry) := splitLines rest
    if char = '\n' then ([] :: lines, carry)
    else
      match lines with
      | [] => ([], char :: carry)
      | line :: lines => ((char :: line) :: lines, carry)

def trimLine (line : Text) : Text := line.rdropWhile fun char => char == '\n' || char == '\r'

def completeLines (text : Text) : List Text := ((splitLines text).1.map trimLine).filter (· != [])

def splitNdjsonLines (carry : Text) (chunk : List UInt8) : List Text × Text :=
  (completeLines (carry ++ lossy chunk), (splitLines (carry ++ lossy chunk)).2)

def isWhitespace (char : Char) : Bool :=
  let code := char.toNat
  (9 ≤ code && code ≤ 13) || code == 0x20 || code == 0x85 || code == 0xA0 || code == 0x1680 ||
    (0x2000 ≤ code && code ≤ 0x200A) || code == 0x2028 || code == 0x2029 || code == 0x202F || code == 0x205F ||
    code == 0x3000

def trim (text : Text) : Text := (text.dropWhile isWhitespace).rdropWhile isWhitespace

/-! ### The session -/

inductive Chunk where
  | data (bytes : List UInt8)
  | stderr (bytes : List UInt8)
  | eof

inductive Ending where
  | exited (code : Int)
  | error (message : Text)
  | closed
  | timedOut

inductive Streamed where
  | exited (code : Int) (stdout : Text)
  | timedOut

def tailLine (carry : Text) : List Text := if trim carry = [] then [] else [trim carry]

/-- The loop of `exec_streaming`: the lines it hands on, and how the command ended. -/
def stream (display : Text) (ending : Ending) : (carry : Text) → (stdout : List UInt8) → List Chunk →
    List Text × Except Text Streamed
  | carry, stdout, .data bytes :: chunks => stream display ending carry (stdout ++ bytes) chunks
  | carry, stdout, .stderr bytes :: chunks =>
    let (lines, carry) := splitNdjsonLines carry bytes
    let (later, streamed) := stream display ending carry stdout chunks
    (lines ++ later, streamed)
  | carry, stdout, .eof :: chunks => stream display ending carry stdout chunks
  | carry, stdout, [] =>
    match ending with
    | .exited code => (tailLine carry, .ok (.exited code (lossy stdout)))
    | .error message => ([], .error ("`".toList ++ display ++ "`: ".toList ++ message))
    | .closed => ([], .error ("agent channel closed during `".toList ++ display ++ "`".toList))
    | .timedOut => ([], .ok .timedOut)

def execStreaming (display : Text) (chunks : List Chunk) (ending : Ending) : List Text × Except Text Streamed :=
  stream display ending [] [] chunks

/-! ### Events and the report -/

structure Json where
  parse : Text → Option Value
  asU64 : Text → Option Nat
  oneDecimal : Text → Text

def natText (number : Nat) : Text := Nat.toDigits 10 number

def intText (number : Int) : Text := if number < 0 then '-' :: natText number.natAbs else natText number.natAbs

def Value.asStrOr (value : Value) (key : Text) : Text := ((value.index key).asStr).getD "?".toList

def renderCwEvent (json : Json) (event : Value) : Option Text :=
  match (event.index "event".toList).asStr with
  | none => none
  | some kind =>
    if kind = "run_started".toList then
      let steps :=
        match event.index "steps".toList with
        | .array items => items.length
        | _ => 0
      some ("play ".toList ++ event.asStrOr "play".toList ++ " (".toList ++ event.asStrOr "mode".toList ++
        "): ".toList ++ natText steps ++ " step(s)".toList)
    else if kind = "gather_started".toList then
      let unique :=
        match event.index "unique".toList with
        | .number text => (json.asU64 text).getD 0
        | _ => 0
      some ("gathering ".toList ++ natText unique ++ " fact set(s)".toList)
    else if kind = "step_finished".toList then
      let duration :=
        match event.index "duration_secs".toList with
        | .number text => json.oneDecimal text
        | _ => "0.0".toList
      let message :=
        match (event.index "message".toList).asStr with
        | some message => if message = [] then [] else " — ".toList ++ message
        | none => []
      some ("  [".toList ++ event.asStrOr "status".toList ++ "] ".toList ++ event.asStrOr "name".toList ++
        " (".toList ++ duration ++ "s)".toList ++ message)
    else if kind = "step_resolved".toList then
      some ("  [".toList ++ event.asStrOr "status".toList ++ "] ".toList ++ event.asStrOr "name".toList ++
        " (resolved)".toList)
    else none

inductive Parsed where
  | panicked
  | found (report : Option Value)

def Json.parseObject (json : Json) (text : Text) : Option Value := (json.parse text).filter Value.isObject

def parseReport (json : Json) (stdout : Text) : Parsed :=
  let trimmed := trim stdout
  match json.parseObject trimmed with
  | some report => .found (some report)
  | none =>
    match trimmed.findIdx? (· == '{'), trimmed.reverse.findIdx? (· == '}') with
    | some start, some back =>
      -- `back` characters stand behind the last closing brace.
      if trimmed.length - back < start then .panicked
      else .found (json.parseObject ((trimmed.take (trimmed.length - back)).drop start))
    | _, _ => .found none

/-! ### One invocation -/

inductive PlaybookMode where
  | check
  | apply
  deriving DecidableEq

def PlaybookMode.verb : PlaybookMode → Text
  | .check => "check".toList
  | .apply => "apply".toList

def maxReboots : Nat := 3

structure Run where
  machine : Text
  playbook : Text
  play : Text
  opId : Nat
  mode : PlaybookMode
  display : Text
  timeout : Text
  tree : Bool
  canReboot : Bool
  reboots : Nat

inductive Line where
  | scrubbed (text : Text)
  | rendered (text : Text)

def Line.text : Line → Text
  | .scrubbed text | .rendered text => text

/-- An event: the fields that are the run's own, and those that the redactor let through. -/
structure Event where
  name : Text
  own : List (Text × Value)
  passed : List (Text × Value)

def Event.payload (event : Event) : Value := .object (event.own ++ event.passed)

structure Output where
  lines : List Line
  events : List Event

inductive Outcome where
  | finished (exitCode : Int) (reboots : Nat) (report : Option Value)
  | failed (error : Text)
  | again

structure Handled where
  output : Output
  outcome : Outcome

def Run.names (run : Run) : List (Text × Value) :=
  [("machine".toList, .string run.machine), ("playbook".toList, .string run.playbook),
    ("play".toList, .string run.play)]

def Run.base (run : Run) : List (Text × Value) := run.names ++ [("op_id".toList, .number (natText run.opId))]

def Output.append (first second : Output) : Output := ⟨first.lines ++ second.lines, first.events ++ second.events⟩

section

variable (run : Run)

def logLine (redact : Redactor) (line : Text) : Output where
  lines := [.scrubbed (redact.scrub line)]
  events := [⟨"playbook.op.log".toList, run.base, [("line".toList, .string (redact.scrub line))]⟩]

def setPhase (phase : Text) (attempt : Nat) : Output where
  lines := []
  events := [⟨"playbook.op.phase".toList,
    run.base ++ [("phase".toList, .string phase), ("attempt".toList, .number (natText attempt)),
      ("max".toList, .number (natText maxReboots))], []⟩]

def onLine (json : Json) (redact : Redactor) (line : Text) : Output :=
  match json.parse line with
  | some event =>
    { lines :=
        match renderCwEvent json (redact.scrubJson event) with
        | some human => [.rendered human]
        | none => []
      events := [⟨"playbook.op.step".toList, run.base, [("cw".toList, redact.scrubJson event)]⟩] }
  | none => logLine run redact line

def onLines (json : Json) (redact : Redactor) (lines : List Text) : Output :=
  lines.foldl (fun output line => output.append (onLine run json redact line)) ⟨[], []⟩

def Run.timedOutError : Text :=
  let what := "`".toList ++ run.display ++ "` timed out after ".toList ++ run.timeout
  let raise := "raise `timeout` on playbook \"".toList ++ run.playbook ++ "\" to allow a longer run".toList
  if run.tree then
    what ++ (". What it started is still running in the guest, and the next playbook " ++
      "run on \"").toList ++ run.machine ++ "\" is refused until that has finished; ".toList ++ raise
  else what ++ "; ".toList ++ raise

def Run.cannotRebootError : Text :=
  "playbook ".toList ++ run.playbook ++ " play ".toList ++ run.play ++ " on ".toList ++ run.machine ++
    (": reboot required, but this machine cannot reboot in place (a container micro-VM restarts " ++
      "from a fresh rootfs)").toList

def afterStream (json : Json) (redact : Redactor) : Except Text Streamed → Option (Output × Outcome)
  | .error error => some (⟨[], []⟩, .failed error)
  | .ok .timedOut => some (⟨[], []⟩, .failed run.timedOutError)
  | .ok (.exited code stdout) =>
    match parseReport json stdout with
    | .panicked => none
    | .found report =>
      if code = 3 ∧ run.mode = .apply then
        if !run.canReboot then some (⟨[], []⟩, .failed run.cannotRebootError)
        else if maxReboots ≤ run.reboots then
          some (logLine run redact ("still reboot-required after ".toList ++ natText maxReboots ++
            " reboots — giving up".toList), .finished code run.reboots report)
        else
          some ((logLine run redact ("reboot required — restarting ".toList ++ run.machine ++
              " (attempt ".toList ++ natText (run.reboots + 1) ++ "/".toList ++ natText maxReboots ++
              ")".toList)).append (setPhase run "rebooting".toList (run.reboots + 1)), .again)
      else some (⟨[], []⟩, .finished code run.reboots report)

def conclude (redact : Redactor) : Outcome → List Event × Outcome
  | .finished code reboots report =>
    let report := report.map redact.scrubJson
    let done : Event := ⟨"playbook.op.done".toList,
      run.base ++ [("exit_code".toList, .number (intText code)), ("reboots".toList, .number (natText reboots))],
      [("report".toList, report.getD .null)]⟩
    let verdict : List Event :=
      if code = 0 ∧ run.mode = .apply then [⟨"playbook.applied".toList, run.names, []⟩]
      else if code ≠ 0 then
        [⟨"playbook.failed".toList,
          run.names ++ [("mode".toList, .string run.mode.verb), ("exit_code".toList, .number (intText code))], []⟩]
      else []
    (done :: verdict, .finished code reboots report)
  | .failed error =>
    let error := redact.scrubError error
    ([⟨"playbook.op.error".toList, run.base, [("error".toList, .string error)]⟩,
      ⟨"playbook.failed".toList, run.names ++ [("mode".toList, .string run.mode.verb)], []⟩], .failed error)
  | .again => ([], .again)

def handleStream (json : Json) (redact : Redactor) (streamed : List Text × Except Text Streamed) :
    Option Handled :=
  match afterStream run json redact streamed.2 with
  | none => none
  | some (output, outcome) =>
    let (events, outcome) := conclude run redact outcome
    some ⟨((onLines run json redact streamed.1).append output).append ⟨[], events⟩, outcome⟩

/-- One invocation of the command, from its chunks to everything that leaves the daemon. -/
def handle (json : Json) (redact : Redactor) (chunks : List Chunk) (ending : Ending) : Option Handled :=
  handleStream run json redact (execStreaming run.display chunks ending)

end

/-! ### What leaves the daemon -/

def Output.sink (output : Output) : Text := output.lines.flatMap fun line => line.text ++ ['\n']

def Output.log (output : Output) : List Text := output.lines.map Line.text

def Event.texts (event : Event) : List Text := event.name :: event.payload.texts

def Outcome.texts : Outcome → List Text
  | .finished _ _ (some report) => report.texts
  | .finished _ _ none => []
  | .failed error => [error]
  | .again => []

def Handled.texts (handled : Handled) : List Text :=
  handled.output.sink :: handled.output.log ++ handled.output.events.flatMap Event.texts ++ handled.outcome.texts

/-! ## What a playbook's output gives away: what does not go through the redactor, and text across lines -/

open Library.Utf8 (lossy bytewise byteChar nonAscii high replacement)

variable {display text secret : Text} {chunks : List Chunk} {stdout stderr : List UInt8} {redact : Redactor}
    {run : Run} {json : Json} {handled : Handled}

/-! ### Lines and chunks -/

theorem splitLines_append (first second : Text) : splitLines (first ++ second) =
      ((splitLines first).1 ++ (splitLines ((splitLines first).2 ++ second)).1,
        (splitLines ((splitLines first).2 ++ second)).2) := by
  induction first with
  | nil => simp [splitLines]
  | cons char first ih =>
    simp only [cons_append, splitLines]
    by_cases newline : char = '\n'
    · simp [newline, ih]
    simp only [if_neg newline]
    cases lines : (splitLines first).1 with
    | nil =>
      rw [lines, nil_append] at ih
      simp only [nil_append, cons_append, splitLines, if_neg newline, ih]
    | cons line lines' =>
      rw [lines] at ih
      simp only [ih, cons_append]

theorem splitLines_carry (text : Text) : splitLines (splitLines text).2 = ([], (splitLines text).2) := by
  induction text with
  | nil => rfl
  | cons char text ih =>
    simp only [splitLines]
    by_cases newline : char = '\n'
    · simpa only [newline, if_true] using ih
    simp only [if_neg newline]
    cases lines : (splitLines text).1 with
    | nil => simp only [splitLines, ih, if_neg newline]
    | cons line lines' => exact ih

theorem completeLines_append (first second : Text) :
    completeLines (first ++ second) = completeLines first ++ completeLines ((splitLines first).2 ++ second) := by
  unfold completeLines
  rw [splitLines_append]
  simp only [map_append, filter_append]

def Chunk.stdoutBytes : Chunk → List UInt8
  | .data bytes => bytes
  | _ => []

def Chunk.stderrBytes : Chunk → List UInt8
  | .stderr bytes => bytes
  | _ => []

structure Delivers (chunks : List Chunk) (stdout stderr : List UInt8) : Prop where
  stdout : chunks.flatMap Chunk.stdoutBytes = stdout
  stderr : chunks.flatMap Chunk.stderrBytes = stderr

def decoded (chunks : List Chunk) : Text := chunks.flatMap fun chunk => lossy chunk.stderrBytes

def streamText (display : Text) (ending : Ending) (text : Text) (stdout : List UInt8) :
    List Text × Except Text Streamed :=
  (completeLines text ++ (stream display ending (splitLines text).2 stdout []).1,
    (stream display ending (splitLines text).2 stdout []).2)

theorem stream_eq (display : Text) (ending : Ending) (chunks : List Chunk) {carry : Text}
    (steady : splitLines carry = ([], carry)) (stdout : List UInt8) : stream display ending carry stdout chunks =
      streamText display ending (carry ++ decoded chunks) (stdout ++ chunks.flatMap Chunk.stdoutBytes) := by
  induction chunks generalizing carry stdout with
  | nil => simp [decoded, streamText, steady, completeLines]
  | cons chunk chunks ih =>
    cases chunk with
    | data bytes | eof =>
      rw [stream, ih steady]
      simp [decoded, Chunk.stdoutBytes, Chunk.stderrBytes]
    | stderr bytes =>
      have later := ih (splitLines_carry (carry ++ lossy bytes)) stdout
      have same : carry ++ decoded (.stderr bytes :: chunks) = (carry ++ lossy bytes) ++ decoded chunks := by
        simp [decoded, Chunk.stderrBytes]
      simp only [stream, splitNdjsonLines]
      rw [later, same]
      unfold streamText
      rw [completeLines_append (carry ++ lossy bytes), splitLines_append (carry ++ lossy bytes)]
      simp [Chunk.stdoutBytes]

theorem execStreaming_eq (delivers : Delivers chunks stdout stderr) (ending : Ending) :
    execStreaming display chunks ending = streamText display ending (decoded chunks) stdout := by
  unfold execStreaming
  rw [stream_eq display ending chunks rfl, delivers.stdout]
  rfl

def whole (stdout stderr : List UInt8) : List Chunk := [.data stdout, .stderr stderr]

theorem whole_delivers (stdout stderr : List UInt8) : Delivers (whole stdout stderr) stdout stderr := by
  constructor <;> simp [whole, Chunk.stdoutBytes, Chunk.stderrBytes]

theorem decoded_whole (stdout stderr : List UInt8) : decoded (whole stdout stderr) = lossy stderr := by
  simp [decoded, whole, Chunk.stderrBytes]

def byBytes (stdout stderr : List UInt8) : List Chunk := .data stdout :: stderr.map fun byte => .stderr [byte]

theorem byBytes_delivers (stdout stderr : List UInt8) : Delivers (byBytes stdout stderr) stdout stderr := by
  constructor
  · simp [byBytes, Chunk.stdoutBytes, flatMap_map]
  · simp [byBytes, Chunk.stderrBytes, flatMap_map]

theorem decoded_byBytes (stdout stderr : List UInt8) : decoded (byBytes stdout stderr) = stderr.map byteChar := by
  rw [map_eq_flatMap]
  simp [decoded, byBytes, Chunk.stderrBytes, flatMap_map, Library.Utf8.lossy_singleton]

theorem decoded_of_bytewise (delivers : Delivers chunks stdout stderr) (apart : bytewise stderr = true) :
    decoded chunks = stderr.map byteChar := by
  have joined : (chunks.map Chunk.stderrBytes).flatten = stderr := by
    rw [← delivers.stderr, flatMap_def]
  rw [← joined] at apart ⊢
  rw [← Library.Utf8.flatMap_lossy_of_bytewise apart, flatMap_map]
  rfl

/-! ### A character in two chunks -/

theorem countP_splitLines (text : Text) :
    (splitLines text).1.flatten.countP nonAscii + (splitLines text).2.countP nonAscii = text.countP nonAscii := by
  induction text with
  | nil => rfl
  | cons char text ih =>
    simp only [splitLines]
    by_cases newline : char = '\n'
    · rw [if_pos newline, newline, countP_cons_of_neg (by decide)]
      exact ih
    rw [if_neg newline]
    cases lines : (splitLines text).1 with
    | nil =>
      rw [lines] at ih
      simp only [countP_cons, flatten_nil, countP_nil] at ih ⊢
      omega
    | cons line lines' =>
      rw [lines] at ih
      simp only [flatten_cons, cons_append, countP_cons] at ih ⊢
      omega

section

variable {drops : Char → Bool} (ascii : ∀ char ∈ text, drops char = true → nonAscii char = false)
include ascii

theorem countP_dropWhile : (text.dropWhile drops).countP nonAscii = text.countP nonAscii := by
  induction text with
  | nil => rfl
  | cons char text ih =>
    rw [dropWhile_cons]
    split
    · next dropped =>
      have plain := ascii char mem_cons_self dropped
      rw [ih fun other inside => ascii other (mem_cons_of_mem _ inside), countP_cons_of_neg (by simp [plain])]
    · rfl

theorem countP_rdropWhile : (text.rdropWhile drops).countP nonAscii = text.countP nonAscii := by
  unfold List.rdropWhile
  rw [countP_reverse, countP_dropWhile fun char inside => ascii char (mem_reverse.mp inside), countP_reverse]

end

theorem countP_trimLine (line : Text) : (trimLine line).countP nonAscii = line.countP nonAscii := by
  refine countP_rdropWhile fun char _ dropped => ?_
  rcases Bool.or_eq_true_iff.mp dropped with newline | carriage
  · rw [eq_of_beq newline]
    decide
  · rw [eq_of_beq carriage]
    decide

theorem flatten_filter_nonempty (lines : List Text) : (lines.filter (· != [])).flatten = lines.flatten := by
  induction lines with
  | nil => rfl
  | cons line lines ih =>
    cases line with
    | nil => simpa using ih
    | cons char line => simp [ih]

theorem countP_completeLines (text : Text) :
    (completeLines text).flatten.countP nonAscii = (splitLines text).1.flatten.countP nonAscii := by
  unfold completeLines
  rw [flatten_filter_nonempty]
  induction (splitLines text).1 with
  | nil => rfl
  | cons line lines ih => simp [countP_trimLine, ih]

theorem flatten_tailLine (carry : Text) : (tailLine carry).flatten = trim carry := by
  unfold tailLine
  split
  · next empty => rw [empty, flatten_nil]
  · simp

theorem countP_trim_le (text : Text) : (trim text).countP nonAscii ≤ text.countP nonAscii :=
  ((List.rdropWhile_prefix isWhitespace _).sublist.trans (dropWhile_sublist isWhitespace)).countP_le

theorem countP_trim_bytes (bytes : ∀ char ∈ text, nonAscii char = true → char = replacement) :
    (trim text).countP nonAscii = text.countP nonAscii := by
  have ascii : ∀ char ∈ text, isWhitespace char = true → nonAscii char = false := by
    intro char inside space
    by_contra other
    rw [bytes char inside (by simpa using other)] at space
    exact absurd space (by decide)
  unfold trim
  rw [countP_rdropWhile fun char inside => ascii char ((dropWhile_sublist isWhitespace).subset inside),
    countP_dropWhile ascii]

theorem mem_splitLines_carry {char : Char} (inside : char ∈ (splitLines text).2) : char ∈ text := by
  induction text with
  | nil => exact inside
  | cons first text ih =>
    simp only [splitLines] at inside
    split at inside
    · exact mem_cons_of_mem _ (ih inside)
    split at inside
    · rcases mem_cons.mp inside with same | later
      · exact mem_cons.mpr (.inl same)
      · exact mem_cons_of_mem _ (ih later)
    · exact mem_cons_of_mem _ (ih inside)

theorem nonAscii_byteChar (byte : UInt8) : nonAscii (byteChar byte) = high byte := by
  unfold byteChar
  cases kind : high byte with
  | true =>
    rw [if_pos rfl]
    decide
  | false => exact Library.Utf8.nonAscii_ofNat (by simpa [high] using kind)

theorem countP_byteChars (bytes : List UInt8) : (bytes.map byteChar).countP nonAscii = bytes.countP high := by
  rw [countP_map]
  exact countP_congr fun byte _ => by simp [nonAscii_byteChar]

def exitedLines (text : Text) : List Text := completeLines text ++ tailLine (splitLines text).2

theorem countP_exitedLines_le (text : Text) : (exitedLines text).flatten.countP nonAscii ≤ text.countP nonAscii := by
  have parts := countP_splitLines text
  have tail := countP_trim_le (splitLines text).2
  unfold exitedLines
  rw [flatten_append, countP_append, countP_completeLines, flatten_tailLine]
  omega

theorem countP_exitedLines_bytes (bytes : List UInt8) :
    (exitedLines (bytes.map byteChar)).flatten.countP nonAscii = bytes.countP high := by
  have parts := countP_splitLines (bytes.map byteChar)
  have single : ∀ char ∈ bytes.map byteChar, nonAscii char = true → char = replacement := by
    intro char inside other
    obtain ⟨byte, _, rfl⟩ := mem_map.mp inside
    rw [nonAscii_byteChar] at other
    simp [byteChar, other]
  have tail := countP_trim_bytes fun char inside => single char (mem_splitLines_carry inside)
  unfold exitedLines
  rw [flatten_append, countP_append, countP_completeLines, flatten_tailLine, tail, parts, countP_byteChars]

theorem bytewise_of_lines {bytes : List UInt8}
    (same : exitedLines (lossy bytes) = exitedLines (bytes.map byteChar)) : bytewise bytes = true := by
  by_contra joined
  have less := Library.Utf8.countP_lossy_lt (by simpa using joined)
  have most := countP_exitedLines_le (lossy bytes)
  rw [same, countP_exitedLines_bytes] at most
  omega

/-! ### Braces that do not enclose anything -/

/-- What stands before the first opening brace and what stands behind the last closing one overlap. -/
def Crossed (text : Text) : Prop :=
  '{' ∈ text ∧ '}' ∈ text ∧ text.length < text.idxOf '{' + text.reverse.idxOf '}'

instance (text : Text) : Decidable (Crossed text) := inferInstanceAs (Decidable (_ ∧ _))

theorem findIdx?_char (char : Char) (text : Text) :
    text.findIdx? (· == char) = if char ∈ text then some (text.idxOf char) else none := by
  split
  · next listed => exact findIdx?_eq_some_iff_findIdx_eq.mpr ⟨idxOf_lt_length_of_mem listed, rfl⟩
  · next absent =>
    refine findIdx?_eq_none_iff.mpr fun other listed => beq_eq_false_iff_ne.mpr ?_
    rintro rfl
    exact absent listed

theorem parseReport_panicked (json : Json) (stdout : Text) :
    parseReport json stdout = .panicked ↔ json.parseObject (trim stdout) = none ∧ Crossed (trim stdout) := by
  unfold parseReport Crossed
  generalize trim stdout = text
  dsimp only
  cases json.parseObject text with
  | some report => simp
  | none =>
    simp only [findIdx?_char, mem_reverse, true_and]
    by_cases opens : '{' ∈ text
    · by_cases closes : '}' ∈ text
      · have behind := idxOf_lt_length_of_mem (mem_reverse.mpr closes)
        rw [length_reverse] at behind
        simp only [opens, closes, if_true, true_and]
        split
        · exact iff_of_true rfl (by omega)
        · exact iff_of_false (fun same => nomatch same) (by omega)
      · simp [opens, closes]
    · simp [opens]

/-! ### What does not go through the redactor -/

def Line.exposed : Line → List Text
  | .scrubbed _ => []
  | .rendered text => [text]

def Event.exposed (event : Event) : List Text :=
  event.name :: Value.entryStrings event.own ++ Value.entryScalars event.own ++ event.passed.map (·.1) ++
    Value.entryScalars event.passed

def Handled.exposed (handled : Handled) : List Text :=
  handled.output.lines.flatMap Line.exposed ++ handled.output.events.flatMap Event.exposed

structure Filtered (secrets : List Text) (output : Output) : Prop where
  lines : ∀ text, Line.scrubbed text ∈ output.lines → Clean secrets text
  events : ∀ event ∈ output.events, ∀ entry ∈ event.passed, ∀ text ∈ entry.2.strings, Clean secrets text

theorem Filtered.empty (secrets : List Text) : Filtered secrets ⟨[], []⟩ :=
  ⟨fun _ listed => (nomatch listed), fun _ listed => (nomatch listed)⟩

variable {secrets : List Text}

theorem Filtered.append {first second : Output} (left : Filtered secrets first)
    (right : Filtered secrets second) : Filtered secrets (first.append second) where
  lines text listed := (mem_append.mp listed).elim (left.lines text) (right.lines text)
  events event listed := (mem_append.mp listed).elim (left.events event) (right.events event)

theorem logLine_filtered (run : Run) (plain : Plain redact.secrets) (line : Text) :
    Filtered redact.secrets (logLine run redact line) := by
  constructor
  · intro text listed
    simp only [logLine, mem_singleton, Line.scrubbed.injEq] at listed
    rw [listed]
    exact scrub_clean plain line
  intro event listed entry passed text inside
  simp only [logLine, mem_singleton] at listed
  subst listed
  simp only [mem_singleton] at passed
  subst passed
  simp only [Value.strings, mem_singleton] at inside
  rw [inside]
  exact scrub_clean plain line

theorem onLine_filtered (run : Run) (json : Json) (plain : Plain redact.secrets) (line : Text) :
    Filtered redact.secrets (onLine run json redact line) := by
  unfold onLine
  split
  · next event parsed =>
    constructor
    · intro text listed
      dsimp only at listed
      split at listed
      · simp at listed
      · cases listed
    intro step listed entry passed text inside
    simp only [mem_singleton] at listed
    subst listed
    simp only [mem_singleton] at passed
    subst passed
    exact scrubJson_clean plain event inside
  · exact logLine_filtered run plain line

theorem onLines_filtered (run : Run) (json : Json) (plain : Plain redact.secrets)
    (lines : List Text) : Filtered redact.secrets (onLines run json redact lines) := by
  have kept : ∀ (lines : List Text) (output : Output), Filtered redact.secrets output →
      Filtered redact.secrets (lines.foldl (fun output line => output.append (onLine run json redact line)) output) := by
    intro lines
    induction lines with
    | nil => exact fun _ filtered => filtered
    | cons line lines ih =>
      exact fun output filtered => ih _ (filtered.append (onLine_filtered run json plain line))
  exact kept lines _ (Filtered.empty _)

theorem setPhase_filtered (secrets : List Text) (run : Run) (phase : Text) (attempt : Nat) :
    Filtered secrets (setPhase run phase attempt) := by
  constructor
  · intro text listed
    cases listed
  intro event listed entry passed
  simp only [setPhase, mem_singleton] at listed
  subst listed
  cases passed

theorem afterStream_filtered (plain : Plain redact.secrets)
    {streamed : Except Text Streamed} {output : Output} {outcome : Outcome}
    (ends : afterStream run json redact streamed = some (output, outcome)) : Filtered redact.secrets output := by
  unfold afterStream at ends
  split at ends
  · cases ends
    exact Filtered.empty _
  · cases ends
    exact Filtered.empty _
  split at ends
  · cases ends
  split_ifs at ends <;> cases ends
  · exact Filtered.empty _
  · exact logLine_filtered run plain _
  · exact (logLine_filtered run plain _).append (setPhase_filtered _ run _ _)
  · exact Filtered.empty _

structure Concluded (secrets : List Text) (events : List Event) (outcome : Outcome) : Prop where
  filtered : Filtered secrets ⟨[], events⟩
  strings : ∀ code reboots report, outcome = .finished code reboots (some report) →
    ∀ text ∈ report.strings, Clean secrets text
  scalars : ∀ code reboots report, outcome = .finished code reboots (some report) →
    ∀ text ∈ report.scalars, text ∈ events.flatMap Event.exposed
  error : ∀ error, outcome = .failed error → Clean secrets error

theorem getD_scrubbed_clean (plain : Plain redact.secrets) (report : Option Value)
    (inside : text ∈ ((report.map redact.scrubJson).getD .null).strings) : Clean redact.secrets text := by
  cases report with
  | none => simp [Value.strings] at inside
  | some report => exact scrubJson_clean plain report inside

theorem conclude_concluded {run : Run} {redact : Redactor} (plain : Plain redact.secrets) (outcome : Outcome) :
    Concluded redact.secrets (conclude run redact outcome).1 (conclude run redact outcome).2 := by
  cases outcome with
  | finished code reboots report =>
    refine ⟨⟨fun _ listed => (nomatch listed), ?_⟩, ?_, ?_, ?_⟩
    · intro event listed entry passed text inside
      rcases mem_cons.mp listed with rfl | verdict
      · simp only [mem_singleton] at passed
        subst passed
        exact getD_scrubbed_clean plain report inside
      -- The verdict's events have no field that came from the guest.
      have none : event.passed = [] := by
        split_ifs at verdict
        · rw [mem_singleton.mp verdict]
        · rw [mem_singleton.mp verdict]
        · cases verdict
      rw [none] at passed
      cases passed
    · intro code' reboots' final same text inside
      cases report with
      | none => cases same
      | some report =>
        cases same
        exact scrubJson_clean plain report inside
    · intro code' reboots' final same text inside
      cases report with
      | none => cases same
      | some report =>
        cases same
        refine mem_flatMap.mpr ⟨_, mem_cons_self, ?_⟩
        simp [Event.exposed, Value.entryScalars, inside]
    · exact fun _ same => (nomatch same)
  | failed error =>
    refine ⟨⟨fun _ listed => (nomatch listed), ?_⟩, fun _ _ _ same => (nomatch same),
      fun _ _ _ same => (nomatch same), ?_⟩
    · intro event listed entry passed text inside
      simp only [conclude, mem_cons, not_mem_nil, or_false] at listed
      rcases listed with rfl | rfl
      · simp only [mem_singleton] at passed
        subst passed
        simp only [Value.strings, mem_singleton] at inside
        rw [inside]
        exact scrub_clean plain error
      · cases passed
    · intro final same
      cases same
      exact scrub_clean plain error
  | again =>
    exact ⟨Filtered.empty _, fun _ _ _ same => (nomatch same), fun _ _ _ same => (nomatch same),
      fun _ same => (nomatch same)⟩

/-! ### What a secret can still be found in -/

theorem entryStrings_append (first second : List (Text × Value)) :
    Value.entryStrings (first ++ second) = Value.entryStrings first ++ Value.entryStrings second := by
  induction first with
  | nil => rfl
  | cons entry first ih =>
    obtain ⟨key, value⟩ := entry
    simp [Value.entryStrings, ih]

theorem entryScalars_append (first second : List (Text × Value)) :
    Value.entryScalars (first ++ second) = Value.entryScalars first ++ Value.entryScalars second := by
  induction first with
  | nil => rfl
  | cons entry first ih =>
    obtain ⟨key, value⟩ := entry
    simp [Value.entryScalars, ih]

theorem texts_cases {event : Event} (listed : text ∈ event.texts) :
    text ∈ event.exposed ∨ ∃ entry ∈ event.passed, text ∈ entry.2.strings := by
  simp only [Event.texts, Event.payload, Value.texts, Value.strings, Value.scalars, entryStrings_append,
    entryScalars_append, mem_cons, mem_append] at listed
  simp only [Event.exposed, cons_append, append_assoc, mem_cons, mem_append, mem_map]
  rcases listed with name | (own | passed) | (own | passed)
  · exact .inl (.inl name)
  · exact .inl (.inr (.inl own))
  · obtain ⟨entry, inside, named | within⟩ := mem_entryStrings.mp passed
    · exact .inl (.inr (.inr (.inr (.inl ⟨entry, inside, named.symm⟩))))
    · exact .inr ⟨entry, inside, within⟩
  · exact .inl (.inr (.inr (.inl own)))
  · exact .inl (.inr (.inr (.inr (.inr passed))))

theorem infix_of_lines (filled : secret ≠ []) (single : '\n' ∉ secret) {lines : List Line}
    (inside : secret <:+: lines.flatMap fun line => line.text ++ ['\n']) : ∃ line ∈ lines, secret <:+: line.text := by
  have across : ∀ (line rest : Text), secret <:+: line ++ '\n' :: rest → secret <:+: line ∨ secret <:+: rest := by
    intro line rest within
    induction line with
    | nil =>
      rcases infix_cons_iff.mp within with starts | later
      · cases secret with
        | nil => exact absurd rfl filled
        | cons head tail =>
          have same : head = '\n' := (cons_prefix_cons.mp starts).1
          exact absurd (by simp [same]) single
      · exact .inr later
    | cons char line ih =>
      rcases infix_cons_iff.mp within with starts | later
      · -- The secret starts here, and ends before the newline.
        have starts : secret <+: (char :: line) ++ '\n' :: rest := starts
        rcases prefix_or_prefix_of_prefix starts (prefix_append (char :: line) ('\n' :: rest)) with
          short | long
        · exact .inl short.isInfix
        obtain ⟨more, rfl⟩ := long
        cases more with
        | nil => exact .inl (by simp)
        | cons next more =>
          have following := (prefix_append_right_inj (char :: line)).mp starts
          have same : next = '\n' := (cons_prefix_cons.mp following).1
          exact absurd (by simp [same]) single
      · rcases ih later with here | there
        · exact .inl (here.trans (suffix_cons char line).isInfix)
        · exact .inr there
  induction lines with
  | nil => exact absurd (infix_nil.mp inside) filled
  | cons line lines ih =>
    rw [flatMap_cons, append_assoc, singleton_append] at inside
    rcases across _ _ inside with here | later
    · exact ⟨line, mem_cons_self, here⟩
    · obtain ⟨other, listed, within⟩ := ih later
      exact ⟨other, mem_cons_of_mem _ listed, within⟩

def Kept (secret : Text) (handled : Handled) : Prop := ∀ text ∈ handled.texts, ¬secret <:+: text

theorem Filtered.kept {ending : List Event}
    (filtered : Filtered secrets handled.output) (concluded : Concluded secrets ending handled.outcome)
    (emitted : ending ⊆ handled.output.events) (listed : secret ∈ secrets) (filled : secret ≠ [])
    (single : '\n' ∉ secret) (unseen : ∀ text ∈ handled.exposed, ¬secret <:+: text) : Kept secret handled := by
  have logged : ∀ line ∈ handled.output.lines, ¬secret <:+: line.text := by
    intro line written
    cases line with
    | scrubbed text => exact filtered.lines text written secret listed
    | rendered text =>
      refine unseen text (mem_append.mpr (.inl (mem_flatMap.mpr ⟨_, written, ?_⟩)))
      exact mem_singleton.mpr rfl
  intro text inside
  simp only [Handled.texts, Output.log, mem_append, mem_cons] at inside
  rcases inside with ((sink | log) | event) | outcome
  · rw [sink]
    intro within
    obtain ⟨line, written, here⟩ := infix_of_lines filled single within
    exact logged line written here
  · obtain ⟨line, written, rfl⟩ := mem_map.mp log
    exact logged line written
  · obtain ⟨event, sent, within⟩ := mem_flatMap.mp event
    rcases texts_cases within with exposed | ⟨entry, passed, strings⟩
    · exact unseen text (mem_append.mpr (.inr (mem_flatMap.mpr ⟨event, sent, exposed⟩)))
    · exact filtered.events event sent entry passed text strings secret listed
  · cases result : handled.outcome with
    | again =>
      rw [result] at outcome
      cases outcome
    | failed error =>
      rw [result] at outcome
      rw [mem_singleton.mp outcome]
      exact concluded.error error result secret listed
    | finished code reboots report =>
      rw [result] at outcome
      cases report with
      | none => cases outcome
      | some report =>
        rcases mem_append.mp outcome with string | scalar
        · exact concluded.strings code reboots report result text string secret listed
        obtain ⟨event, last, exposed⟩ := mem_flatMap.mp (concluded.scalars code reboots report result text scalar)
        refine unseen text (mem_append.mpr (.inr (mem_flatMap.mpr ⟨event, ?_, exposed⟩)))
        exact emitted last

variable {streamed : List Text × Except Text Streamed}

theorem handleStream_kept (plain : Plain redact.secrets)
    (ends : handleStream run json redact streamed = some handled) (listed : secret ∈ redact.secrets)
    (single : '\n' ∉ secret) (unseen : ∀ text ∈ handled.exposed, ¬secret <:+: text) : Kept secret handled := by
  unfold handleStream at ends
  split at ends
  · cases ends
  rename_i output outcome after
  cases ends
  have concluded := @conclude_concluded run redact plain outcome
  refine Filtered.kept ?_ concluded ?_ listed (plain secret listed).1 single unseen
  · exact ((onLines_filtered run json plain streamed.1).append (afterStream_filtered plain after)).append
      concluded.filtered
  · exact fun event last => mem_append_right _ last

/-! ### What the daemon says of its own -/

/-- The names of events and of their fields. -/
def fixedTexts : List Text :=
  ["playbook.op.log".toList, "playbook.op.phase".toList, "playbook.op.step".toList, "playbook.op.done".toList,
    "playbook.op.error".toList, "playbook.applied".toList, "playbook.failed".toList, "machine".toList, "playbook".toList,
    "play".toList, "op_id".toList, "line".toList, "phase".toList, "rebooting".toList, "attempt".toList, "max".toList,
    "cw".toList, "exit_code".toList, "reboots".toList, "report".toList, "mode".toList, "error".toList]

def Run.ownTexts (run : Run) : List Text :=
  [run.machine, run.playbook, run.play, run.mode.verb, natText run.opId, natText maxReboots, natText run.reboots,
    natText (run.reboots + 1)]

/-- What a line of the error stream shows besides the texts that are redacted one by one. -/
def lineTexts (json : Json) (redact : Redactor) (line : Text) : List Text :=
  match json.parse line with
  | some event => (renderCwEvent json (redact.scrubJson event)).toList ++ (redact.scrubJson event).scalars
  | none => []

def exitTexts (json : Json) (redact : Redactor) (code : Int) (stdout : Text) : List Text :=
  intText code :: match parseReport json stdout with
    | .found (some report) => (redact.scrubJson report).scalars
    | _ => ["null".toList]

def Spoken (texts : List Text) (output : Output) : Prop :=
  output.lines.flatMap Line.exposed ++ output.events.flatMap Event.exposed ⊆ texts

theorem Spoken.append {texts : List Text} {first second : Output} (left : Spoken texts first)
    (right : Spoken texts second) : Spoken texts (first.append second) := by
  intro text listed
  simp only [Output.append, flatMap_append, mem_append] at listed
  rcases listed with (line | line) | (event | event)
  · exact left (mem_append_left _ line)
  · exact right (mem_append_left _ line)
  · exact left (mem_append_right _ event)
  · exact right (mem_append_right _ event)

section

variable {texts : List Text} (known : fixedTexts ++ run.ownTexts ⊆ texts)
include known

theorem base_spoken : Value.entryStrings run.base ++ Value.entryScalars run.base ⊆ texts := by
  refine Subset.trans ?_ known
  simp [Run.base, Run.names, Value.entryStrings, Value.entryScalars, Value.strings, Value.scalars, fixedTexts,
    Run.ownTexts]

theorem logLine_spoken (line : Text) : Spoken texts (logLine run redact line) := by
  refine Subset.trans ?_ known
  simp [logLine, Line.exposed, Event.exposed, Run.base, Run.names, Value.entryStrings, Value.entryScalars, Value.strings,
    Value.scalars, fixedTexts, Run.ownTexts]

theorem setPhase_spoken : Spoken texts (setPhase run "rebooting".toList (run.reboots + 1)) := by
  refine Subset.trans ?_ known
  simp [setPhase, Event.exposed, Run.base, Run.names, Value.entryStrings, Value.entryScalars, Value.strings,
    Value.scalars, fixedTexts, Run.ownTexts]

theorem onLine_spoken {line : Text} (said : lineTexts json redact line ⊆ texts) :
    Spoken texts (onLine run json redact line) := by
  unfold onLine
  unfold lineTexts at said
  split
  · next event parsed =>
    rw [parsed] at said
    obtain ⟨shown, scalars⟩ := append_subset.mp said
    refine append_subset.mpr ⟨?_, ?_⟩
    · cases rendered : renderCwEvent json (redact.scrubJson event) with
      | none => exact nil_subset _
      | some human => simpa [Line.exposed, rendered] using shown
    · have step : Event.exposed ⟨"playbook.op.step".toList, run.base, [("cw".toList, redact.scrubJson event)]⟩ =
          "playbook.op.step".toList :: (Value.entryStrings run.base ++ Value.entryScalars run.base) ++
            ["cw".toList] ++ (redact.scrubJson event).scalars := by
        simp [Event.exposed, Value.entryScalars]
      rw [flatMap_singleton, step]
      refine append_subset.mpr ⟨append_subset.mpr ⟨cons_subset.mpr ⟨?_, base_spoken known⟩, ?_⟩, scalars⟩
      · exact known (by simp [fixedTexts])
      · exact Subset.trans (by simp [fixedTexts]) known
  · exact logLine_spoken known line

theorem onLines_spoken {lines : List Text} (said : lines.flatMap (lineTexts json redact) ⊆ texts) :
    Spoken texts (onLines run json redact lines) := by
  refine foldlRecOn (motive := Spoken texts) lines _ (nil_subset _) fun output spoken line listed => ?_
  exact spoken.append (onLine_spoken known fun text inside => said (mem_flatMap.mpr ⟨line, listed, inside⟩))

theorem conclude_spoken {outcome : Outcome} (said : ∀ code reboots report, outcome = .finished code reboots report →
      reboots = run.reboots ∧ intText code ∈ texts ∧ ((report.map redact.scrubJson).getD .null).scalars ⊆ texts) :
    Spoken texts ⟨[], (conclude run redact outcome).1⟩ := by
  cases outcome with
  | finished code reboots report =>
    obtain ⟨rfl, exit, scalars⟩ := said code reboots report rfl
    have plain : fixedTexts ++ run.ownTexts ++ [intText code] ⊆ texts :=
      append_subset.mpr ⟨known, cons_subset.mpr ⟨exit, nil_subset _⟩⟩
    simp only [Spoken, conclude, flatMap_nil, nil_append, flatMap_cons]
    refine append_subset.mpr ⟨append_subset.mpr ⟨Subset.trans ?_ plain, ?_⟩, Subset.trans ?_ plain⟩
    · simp [Run.base, Run.names, Value.entryStrings, Value.entryScalars, Value.strings, Value.scalars, fixedTexts,
        Run.ownTexts]
    · simpa [Value.entryScalars] using scalars
    · split_ifs <;> simp [Event.exposed, Run.names, Value.entryStrings, Value.entryScalars, Value.strings, Value.scalars,
        fixedTexts, Run.ownTexts]
  | failed error =>
    refine Subset.trans ?_ known
    simp [conclude, Event.exposed, Run.base, Run.names, Value.entryStrings, Value.entryScalars, Value.strings,
      Value.scalars, fixedTexts, Run.ownTexts]
  | again => exact nil_subset _

theorem handleStream_spoken (lines : streamed.1.flatMap (lineTexts json redact) ⊆ texts)
    (exit : ∀ code stdout, streamed.2 = .ok (.exited code stdout) → exitTexts json redact code stdout ⊆ texts)
    (ends : handleStream run json redact streamed = some handled) : Spoken texts handled.output := by
  obtain ⟨written, result⟩ := streamed
  unfold handleStream at ends
  split at ends
  · cases ends
  rename_i output outcome after
  cases ends
  refine ((onLines_spoken known lines).append ?_).append (conclude_spoken known ?_)
  · unfold afterStream at after
    split at after
    · cases after
      exact nil_subset _
    · cases after
      exact nil_subset _
    split at after
    · cases after
    split_ifs at after <;> cases after
    · exact nil_subset _
    · exact logLine_spoken known _
    · exact (logLine_spoken known _).append (setPhase_spoken known)
    · exact nil_subset _
  rintro code reboots report rfl
  cases result with
  | error error => cases after
  | ok result =>
    cases result with
    | timedOut => cases after
    | exited code' stdout =>
      have said := exit code' stdout rfl
      simp only [afterStream] at after
      unfold exitTexts at said
      cases found : parseReport json stdout with
      | panicked => simp [found] at after
      | found report' =>
        rw [found] at said after
        obtain ⟨first, rest⟩ := cons_subset.mp said
        have scalars : ((report'.map redact.scrubJson).getD .null).scalars ⊆ texts := by
          cases report' <;> exact rest
        dsimp only at after
        split_ifs at after <;> cases after <;> exact ⟨rfl, first, scalars⟩

end

/-! ### Every output in every chunking -/

def Outcome.report : Outcome → Option Value
  | .finished _ _ report => report
  | _ => none

/-- Handling the two streams returns for every chunking, with the same lines and report, and keeps the secrets. -/
structure Safe (run : Run) (json : Json) (evaluate : Text → Option Evaluated) (vars : List PlaybookVar)
    (stdout stderr : List UInt8) (ending : Ending) : Prop where
  returns : ∀ chunks, Delivers chunks stdout stderr →
    (handle run json (.forVars evaluate vars) chunks ending).isSome = true
  steady : ∀ chunks others, Delivers chunks stdout stderr → Delivers others stdout stderr →
    (execStreaming run.display chunks ending).1 = (execStreaming run.display others ending).1 ∧
      (handle run json (.forVars evaluate vars) chunks ending).map (·.outcome.report) =
        (handle run json (.forVars evaluate vars) others ending).map (·.outcome.report)
  quiet : ∀ chunks, Delivers chunks stdout stderr → ∀ handled ∈ handle run json (.forVars evaluate vars) chunks ending,
    ∀ secret ∈ secretTexts evaluate vars, Kept secret handled

def unfiltered (run : Run) (json : Json) (redact : Redactor) (stdout stderr : List UInt8) (ending : Ending) : List Text :=
  fixedTexts ++ run.ownTexts ++ (exitedLines (lossy stderr)).flatMap (lineTexts json redact) ++
    match ending with
    | .exited code => exitTexts json redact code (lossy stdout)
    | _ => []

/-- The braces of the standard output enclose something, no bytes of the error stream belong together, and no secret
has two lines or is in what the redactor does not see. -/
structure Harmless (run : Run) (json : Json) (evaluate : Text → Option Evaluated) (vars : List PlaybookVar)
    (stdout stderr : List UInt8) (ending : Ending) : Prop where
  report : ∀ code, ending = .exited code → json.parseObject (trim (lossy stdout)) = none → ¬Crossed (trim (lossy stdout))
  bytes : bytewise stderr = true
  single : ∀ secret ∈ secretTexts evaluate vars, '\n' ∉ secret
  unseen : ∀ secret ∈ secretTexts evaluate vars,
    ∀ text ∈ unfiltered run json (.forVars evaluate vars) stdout stderr ending, ¬secret <:+: text

theorem afterStream_isSome {code : Int} {stdout : Text} :
    (afterStream run json redact (.ok (.exited code stdout))).isSome = true ↔
      parseReport json stdout ≠ .panicked := by
  simp only [afterStream]
  cases parseReport json stdout with
  | panicked => simp
  | found report =>
    simp only [ne_eq, reduceCtorEq, not_false_eq_true, iff_true]
    split_ifs <;> rfl

theorem handleStream_isSome :
    (handleStream run json redact streamed).isSome = (afterStream run json redact streamed.2).isSome := by
  unfold handleStream
  cases afterStream run json redact streamed.2 <;> rfl

theorem streamText_returns {ending : Ending} :
    (afterStream run json redact (streamText run.display ending text stdout).2).isSome = true ↔
      ∀ code, ending = .exited code → json.parseObject (trim (lossy stdout)) = none → ¬Crossed (trim (lossy stdout)) := by
  cases ending with
  | exited code =>
    simp only [streamText, stream, afterStream_isSome, Ending.exited.injEq, ne_eq, parseReport_panicked, not_and]
    exact ⟨fun holds _ _ => holds, fun holds => holds code rfl⟩
  | error message | closed | timedOut => simp [streamText, stream, afterStream]

theorem mem_secrets {evaluate : Text → Option Evaluated} {vars : List PlaybookVar}
    (plain : Plain (secretTexts evaluate vars)) :
    secret ∈ (Redactor.forVars evaluate vars).secrets ↔ secret ∈ secretTexts evaluate vars :=
  mem_ordered.trans ⟨And.left, fun listed => ⟨listed, (plain secret listed).1⟩⟩

theorem execStreaming_of_bytewise
    (delivers : Delivers chunks stdout stderr) (apart : bytewise stderr = true) (ending : Ending) :
    execStreaming display chunks ending = execStreaming display (whole stdout stderr) ending := by
  rw [execStreaming_eq delivers, execStreaming_eq (whole_delivers stdout stderr), decoded_of_bytewise delivers apart,
    decoded_of_bytewise (whole_delivers stdout stderr) apart]

theorem execStreaming_exited (delivers : Delivers chunks stdout stderr) (code : Int) :
    (execStreaming display chunks (.exited code)).1 = exitedLines (decoded chunks) := by
  rw [execStreaming_eq delivers]
  rfl

theorem streamText_spoken {evaluate : Text → Option Evaluated} {vars : List PlaybookVar} {ending : Ending}
    (ends : handleStream run json (.forVars evaluate vars) (streamText run.display ending (lossy stderr) stdout) =
      some handled) : Spoken (unfiltered run json (.forVars evaluate vars) stdout stderr ending) handled.output := by
  refine handleStream_spoken (fun text inside => ?_) (fun text inside => ?_) (fun code out same => ?_) ends
  · exact mem_append_left _ (mem_append_left _ inside)
  · obtain ⟨line, listed, inside⟩ := mem_flatMap.mp inside
    refine mem_append_left _ (mem_append_right _ (mem_flatMap.mpr ⟨line, ?_, inside⟩))
    rcases mem_append.mp listed with complete | last
    · exact mem_append_left _ complete
    · cases ending with
      | exited code => exact mem_append_right _ last
      | error message | closed | timedOut => cases last
  · cases ending with
    | exited code' =>
      cases same
      exact subset_append_right ..
    | error message | closed | timedOut => cases same

instance (secrets : List Text) : Decidable (Plain secrets) :=
  inferInstanceAs (Decidable (∀ secret ∈ secrets, secret ≠ [] ∧ '*' ∉ secret))

def sampleRun : Run where
  machine := "dc01".toList
  playbook := "playbooks/base".toList
  play := "site".toList
  opId := 7
  mode := .check
  display := "config-weave check".toList
  timeout := "600s".toList
  tree := true
  canReboot := true
  reboots := 0

def noJson : Json where
  parse _ := none
  asU64 _ := none
  oneDecimal text := text

/-- A variable written as a quoted string, of which a backslash and `n` stand for a newline. -/
def sampleVars (written : Text) : List PlaybookVar := [⟨"password".toList, written, true⟩]

def sampleEvaluate (value : Text) (_ : Text) : Option Evaluated := some (.text value)

def sampleBytes (text : String) : List UInt8 := text.toList.map fun char => UInt8.ofNat char.toNat

end Vmlab.Playbook
