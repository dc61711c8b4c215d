import Nelix.Cli.TomlEmit
import Nelix.Core.Utf8
import Nelix.Daemon.ExecutorLoad

/-!
# Adding an executor

`nelix config add`: a table is appended to `nelix.toml`, and then the file is loaded again. What was appended
stays also where the loader does not accept it.

## Main results

`config_add_keeps`: when an addition is what was asked for, and a failed one leaves the other executors alone.
-/
namespace Nelix.Cli
open Core Core.Toml Core.Scanner Daemon

/-! ### The command -/

/-- What is called from outside: tomllib's reader of words and its message, the conversions of the loader, and
the lookup on the path. -/
structure AddTools where
  words : Words TomlWord
  shown : String → String
  py : Builtins
  /-- `shutil.which(command) is not None` -/
  which : Text → Bool

/-- `nelix.toml`. -/
abbrev File := Option (List UInt8)

structure AddArgs where
  name : Text
  command : Text
  driver : Text
  launcher : Text
  arg : List Text

inductive AddReport
  | added
  | refused (code : String)
  /-- An exception leaves the command. -/
  | raised
  deriving DecidableEq

/-- The characters of a text, if it has a UTF-8. -/
def chars? (text : Text) : Option (List Char) := text.mapM scalar?

/-- What is written, if it can be. -/
def AddArgs.texts? (args : AddArgs) : Option AddTexts := do
  let name ← chars? args.name
  let command ← chars? args.command
  let driver ← chars? args.driver
  let launcher ← chars? args.launcher
  let arg ← args.arg.mapM chars?
  pure { name, command, driver, launcher, args := arg }

/-- `s.encode()` -/
def encodeText (s : List Char) : List UInt8 := (s.flatMap Text.encodeChar).map UInt8.ofNat

/-- A text as `read_text` gives it: each end of a line is a line feed. -/
def universal (s : List Char) : List Char := (unixLines s).map fun c => if c = '\r' then '\n' else c

section Command
variable (tools : AddTools)

/-- `tomllib` -/
def AddTools.tomllib : Tomllib where
  loads text := (load tools.words text).elim (.error (tools.shown text)) .ok
  distinct {text data} parsed := by
    cases loaded : load tools.words text with
    | none =>
      rw [loaded] at parsed
      cases parsed
    | some found =>
      rw [loaded] at parsed
      obtain rfl := Except.ok.inj parsed
      exact load_distinct loaded

/-- `load_executors(path)` -/
def loadFile (path : String) (file : File) : Except Uncaught ExecutorLoad :=
  loadExecutors tools.tomllib tools.py path (file.elim .missing .content)

/-- `name in load.specs` -/
def isLoaded (load : ExecutorLoad) (name : Text) : Bool :=
  (chars? name).any fun name => (load.specs.get? (String.ofList name)).isSome

/-- What stands between the old text and the table. -/
def separator (file : File) : List Char :=
  match file with
  | none => []
  | some bytes =>
    if (decodeStrict bytes).any (fun text => ['\n', '\n'] <:+ universal text.toList) then [] else ['\n']

/-- The file with the table. -/
def appended (file : File) (texts : AddTexts) : List UInt8 :=
  file.getD [] ++ encodeText (separator file ++ texts.block)

/-- `cmd_add`. How it ends, and the file that it leaves. -/
def cmdAdd (path : String) (file : File) (args : AddArgs) : AddReport × File :=
  match loadFile tools path file with
  | .error _ => (.raised, file)
  | .ok existing =>
    if isLoaded existing args.name then (.refused "executor_exists", file)
    else if !tools.which args.command then (.refused "command_not_found", file)
    else
      match args.texts? with
      -- The file is opened before it is found that the text cannot be written.
      | none => (.raised, some (file.getD []))
      | some texts =>
        let after := some (appended file texts)
        match loadFile tools path after with
        | .error _ => (.raised, after)
        | .ok reloaded =>
          if isLoaded reloaded args.name then (.added, after) else (.refused "executor_invalid", after)

/-- What is loaded under a name. -/
def specOf (path : String) (file : File) (name : String) : Option ExecutorSpec :=
  match loadFile tools path file with
  | .error _ => none
  | .ok load => load.specs.get? name

/-- The file is TOML with a table of executors. -/
def Parses (path : String) (file : File) : Prop := ∃ load, loadFile tools path file = .ok load ∧ load.parseError = none

/-- The value of a text. -/
def textValue (text : Text) : Option ConfigValue := (chars? text).map fun s => .string (String.ofList s)

/-- The executor has the texts that were given. -/
structure IsGiven (args : AddArgs) (s : ExecutorSpec) : Prop where
  command : textValue args.command = some s.command
  driver : textValue args.driver = some s.driver
  launcher : textValue args.launcher = some s.launcher
  args : args.arg.mapM textValue = some s.args

/-- An addition adds the executor that was given and changes no other, and where none is reported all that was
loaded before still is. -/
structure AddKeeps (path : String) (file : File) (args : AddArgs) : Prop where
  added : (cmdAdd tools path file args).1 = .added →
    Parses tools path (cmdAdd tools path file args).2 ∧ ∃ s, IsGiven args s ∧
      ∀ n, specOf tools path (cmdAdd tools path file args).2 n =
        if Text.ofString n = args.name then some s else specOf tools path file n
  kept : (cmdAdd tools path file args).1 ≠ .added → ∀ n s, specOf tools path file n = some s →
    specOf tools path (cmdAdd tools path file args).2 n = some s

/-! ### The condition -/

/-- What the file defines, if it is TOML. -/
def outputOf (file : File) : Option (Output TomlWord) :=
  match file with
  | none => some {}
  | some bytes =>
    (decodeStrict bytes).bind fun text => (Toml.statements tools.words text.toList).bind (run {})

def executorsPath (texts : AddTexts) : List String := ["executors", String.ofList texts.name]

/-- The file takes the table: no text has a control character that is not escaped, the table may be opened, and
none of its keys is there. -/
def Takes (o : Output TomlWord) (texts : AddTexts) : Prop :=
  (∀ s ∈ texts.values, IsClean s) ∧ o.opensAt (executorsPath texts) = true ∧
    (nest true (defineAll texts.entries) (executorsPath texts) o.data).isSome = true

/-- The executors of what is defined. -/
def executorsAt (data : Entries TomlWord) : Entries TomlWord :=
  match (data.lookup "executors").getD (.table []) with
  | .table execs => execs
  | _ => []

/-- Where no arguments are given, the file has none under this name either. -/
def NoStrayArgs (o : Output TomlWord) (texts : AddTexts) : Prop :=
  ∀ inner stray, (executorsAt o.data).lookup (String.ofList texts.name) = some (.table inner) → texts.args = [] →
    inner.lookup "args" = some stray → Coerces tools.py (inner ++ texts.entries) → listValue stray = .ok []

/-- When the command does what it says. -/
inductive Fits (path : String) (file : File) (args : AddArgs) : Prop
  /-- The file is no UTF-8. -/
  | undecodable (bytes : List UInt8) (is : file = some bytes) (bad : decodeStrict bytes = none)
  | known (name : String) (is : Text.ofString name = args.name) (held : (specOf tools path file name).isSome = true)
  | notFound (absent : tools.which args.command = false)
  | unwritable (half : args.texts? = none)
  /-- Whatever follows the file, it is no TOML. -/
  | dead (text : String) (is : file.bind decodeStrict = some text)
    (never : ∀ more, load tools.words (text ++ more) = none)
  /-- A bare key, and the file is TOML or missing. -/
  | bare (texts : AddTexts) (written : args.texts? = some texts) (name : IsBareName texts.name)
    (o : Output TomlWord) (toml : outputOf tools file = some o) (fits : Takes o texts → NoStrayArgs tools o texts)
    (empty : ¬ Takes o texts → ∀ n, specOf tools path file n = none)

end Command

/-! ### The appended text -/

section Appended
variable {words : Words TomlWord} {cs sep block : List Char} {ss : List (Statement TomlWord)} {bytes : List UInt8}
  {text : String}

theorem toNat_encodeText (s : List Char) : (encodeText s).map UInt8.toNat = s.flatMap Text.encodeChar := by
  rw [encodeText, List.map_map]
  have same : ∀ octet ∈ s.flatMap Text.encodeChar, (UInt8.toNat ∘ UInt8.ofNat) octet = octet := by
    intro octet member
    obtain ⟨c, -, inside⟩ := List.mem_flatMap.mp member
    exact UInt8.toNat_ofNat_of_lt' (Text.encodeChar_lt octet inside)
  exact (List.map_congr_left same).trans (List.map_id' _)

theorem mapM_scalar (s : List Char) : (s.map CodePoint.char).mapM scalar? = some s := by
  induction s with
  | nil => rfl
  | cons c s ih =>
    rw [List.map_cons, List.mapM_cons, ih]
    rfl

/-- What is appended in UTF-8 stands behind the old text. -/
theorem decode_append (decoded : decodeStrict bytes = some text) (s : List Char) :
    decodeStrict (bytes ++ encodeText s) = some (text ++ String.ofList s) := by
  obtain ⟨points, read, made⟩ := Option.bind_eq_some_iff.mp decoded
  obtain ⟨chars, plain, rfl⟩ := Option.map_eq_some_iff.mp made
  have appended := Text.utf8_append read (s.flatMap Text.encodeChar)
  rw [Text.utf8_encode, Option.map_some] at appended
  have all : (points ++ s.map CodePoint.char).mapM scalar? = some (chars ++ s) := by
    rw [List.mapM_append, plain, mapM_scalar]
    rfl
  rw [decodeStrict, List.map_append, toNat_encodeText, appended, Option.bind_some, all, Option.map_some,
    String.ofList_append]

/-- The appended lines are read alone. -/
theorem statements_append (read : Toml.statements words cs = some ss) (plain : '\r' ∉ block)
    (apart : sep = ['\n'] ∨ sep = [] ∧ (cs = [] ∨ ['\n', '\n'] <:+ universal cs)) :
    Toml.statements words (cs ++ (sep ++ block)) = (readLines (line words) (block ++ ['\n'])).map (ss ++ ·) := by
  have read : readLines (tomlLines words).one (unixLines cs ++ ['\n']) = some ss := read
  have unix : '\r' ∉ unixLines cs := fun among => readLines_plain read (List.mem_append_left _ among)
  have same : universal cs = unixLines cs := by
    have each : ∀ c ∈ unixLines cs, (if c = '\r' then '\n' else c) = c := by
      intro c member
      refine if_neg ?_
      rintro rfl
      exact unix member
    exact (List.map_congr_left each).trans (List.map_id' _)
  have clean : '\r' ∉ sep ++ block := by
    rw [List.mem_append]
    rintro (among | among)
    · rcases apart with rfl | ⟨rfl, -⟩
      · exact absurd among (by decide)
      · cases among
    · exact plain among
  have whole : unixLines (cs ++ (sep ++ block)) ++ ['\n'] = unixLines cs ++ (sep ++ (block ++ ['\n'])) := by
    rw [unixLines_append unix, unixLines_of_plain clean, List.append_assoc, List.append_assoc]
  show readLines (tomlLines words).one (unixLines (cs ++ (sep ++ block)) ++ ['\n']) =
    (readLines (tomlLines words).one (block ++ ['\n'])).map (ss ++ ·)
  rw [whole]
  rcases apart with rfl | ⟨rfl, rfl | ends⟩
  · exact readLines_append read _
  · obtain rfl : [] = ss := Option.some.inj read
    exact Option.map_id'.symm
  · rw [same] at ends
    obtain ⟨s, ends⟩ := ends
    have blank : readLines (tomlLines words).one (s ++ ['\n'] ++ ['\n', '\n']) = some ss := by
      rw [← read, ← ends]
      simp
    have later := readLines_append_blank (by rfl) blank (block ++ ['\n'])
    rw [← later, ← ends]
    simp

end Appended

/-! ### What is loaded afterwards -/

section Loaded
variable {tools : AddTools} {path text : String} {file : File} {texts : AddTexts} {o : Output TomlWord}

/-- The old text. A missing file has none. -/
def textOf (file : File) : Option String := file.elim (some "") decodeStrict

/-- The text with the table. -/
def newText (file : File) (text : String) (texts : AddTexts) : String :=
  text ++ String.ofList (separator file ++ texts.block)

theorem outputOf_eq (tools : AddTools) (file : File) :
    outputOf tools file =
      (textOf file).bind fun text => (Toml.statements tools.words text.toList).bind (run {}) := by
  cases file with
  | none => rfl
  | some bytes => rfl

theorem decode_appended (decoded : textOf file = some text) (texts : AddTexts) :
    decodeStrict (appended file texts) = some (newText file text texts) := by
  cases file with
  | none =>
    obtain rfl : "" = text := Option.some.inj decoded
    exact decode_append (by rfl) _
  | some bytes => exact decode_append decoded _

theorem separator_cases (decoded : textOf file = some text) :
    separator file = ['\n'] ∨
      separator file = [] ∧ (text.toList = [] ∨ ['\n', '\n'] <:+ universal text.toList) := by
  cases file with
  | none =>
    obtain rfl : "" = text := Option.some.inj decoded
    exact .inr ⟨rfl, .inl rfl⟩
  | some bytes =>
    have decoded : decodeStrict bytes = some text := decoded
    simp only [separator, decoded, Option.any_some, decide_eq_true_eq]
    split_ifs with ends
    · exact .inr ⟨rfl, .inr ends⟩
    · exact .inl rfl

/-- The new file defines the table as well, if the old one takes it, and is no TOML otherwise. -/
theorem load_newText (toml : outputOf tools file = some o) (decoded : textOf file = some text)
    (bare : IsBareName texts.name) :
    (Takes o texts → load tools.words (newText file text texts) =
        nest true (defineAll texts.entries) (executorsPath texts) o.data) ∧
      (¬ Takes o texts → load tools.words (newText file text texts) = none) := by
  rw [outputOf_eq, decoded, Option.bind_some] at toml
  obtain ⟨ss, read, ran⟩ := Option.bind_eq_some_iff.mp toml
  have both := statements_append read (AddTexts.block_plain bare) (separator_cases decoded)
  have whole : (newText file text texts).toList = text.toList ++ (separator file ++ texts.block) := by
    rw [newText, String.toList_append, String.toList_ofList]
  rw [load, whole, both]
  by_cases clean : ∀ s ∈ texts.values, IsClean s
  · rw [AddTexts.readLines_block bare clean, Option.map_some, Option.bind_some, run_append, ran, Option.bind_some]
    cases opens : o.opensAt (executorsPath texts) with
    | true =>
      have table : (run o texts.statements).map Output.data =
          nest true (defineAll texts.entries) (executorsPath texts) o.data := run_table opens texts.entries
      rw [table]
      refine ⟨fun _ => rfl, fun refused => ?_⟩
      cases made : nest true (defineAll texts.entries) (executorsPath texts) o.data with
      | none => rfl
      | some data => exact absurd ⟨clean, opens, by rw [made]; rfl⟩ refused
    | false =>
      have none : run o texts.statements = none := run_table_closed opens _
      rw [none, Option.map_none]
      refine ⟨fun takes => ?_, fun _ => rfl⟩
      rw [takes.2.1] at opens
      cases opens
  · have bad := clean
    push Not at bad
    rw [AddTexts.readLines_block_unclean bare bad]
    exact ⟨fun takes => absurd takes.1 clean, fun _ => rfl⟩

/-- The specs of so many entries. -/
def specAt (tools : AddTools) (execs : Entries TomlWord) (n : String) : Option ExecutorSpec :=
  (execs.lookup n).bind fun value => (buildSpec tools.py n value).toOption

theorem executorsOf_tomllib (tools : AddTools) (text : String) :
    executorsOf tools.tomllib text = (load tools.words text).elim [] executorsAt := by
  have parsed : tools.tomllib.loads text = (load tools.words text).elim (.error (tools.shown text)) .ok := rfl
  rw [executorsOf, parsed]
  cases load tools.words text with
  | none => rfl
  | some data => rfl

theorem get?_loaded (tools : AddTools) (path text n : String) :
    (loadText tools.tomllib tools.py path text).specs.get? n =
      specAt tools ((load tools.words text).elim [] executorsAt) n := by
  rw [get?_loadText, executorsOf_tomllib]
  rfl

/-- What is loaded from a file that is TOML. -/
theorem specOf_eq (toml : outputOf tools file = some o) (n : String) :
    specOf tools path file n = specAt tools (executorsAt o.data) n := by
  cases file with
  | none =>
    obtain rfl : {} = o := Option.some.inj toml
    rfl
  | some bytes =>
    obtain ⟨text, decoded, ran⟩ := Option.bind_eq_some_iff.mp toml
    have loaded : load tools.words text = some o.data := congrArg (Option.map Output.data) ran
    have file : loadFile tools path (some bytes) = .ok (loadText tools.tomllib tools.py path text) := by
      simp only [loadFile, Option.elim, loadExecutors, decoded]
    simp only [specOf, file, get?_loaded, loaded, Option.elim]

theorem loadFile_appended (decoded : textOf file = some text) (texts : AddTexts) :
    loadFile tools path (some (appended file texts)) =
      .ok (loadText tools.tomllib tools.py path (newText file text texts)) := by
  simp only [loadFile, Option.elim, loadExecutors, decode_appended decoded]

/-! ### The new entry -/

/-- Where an entry of the table is, and where the others are. -/
theorem lookup_nested {execs data : Entries TomlWord} {name : String} {kvs : List (String × ConfigValue)}
    (done : nest true (defineAll kvs) [name] execs = some data) :
    (∀ n ≠ name, data.lookup n = execs.lookup n) ∧
      ((∀ inner, execs.lookup name ≠ some (.table inner)) ∧ (∃ items, data.lookup name = some (.array items)) ∨
        ∃ inner entries, (execs.lookup name).getD (.table []) = .table inner ∧
          data.lookup name = some (.table entries) ∧ defineAll kvs inner = some entries) := by
  refine ⟨fun n other => lookup_nest done other, ?_⟩
  by_cases table : ∃ inner, (execs.lookup name).getD (.table []) = .table inner
  · obtain ⟨inner, held⟩ := table
    obtain ⟨entries, defined, found⟩ := nest_table held done
    exact .inr ⟨inner, entries, held, found, defined⟩
  · refine .inl ⟨fun inner held => table ⟨inner, ?_⟩, nest_list (not_exists.mp table) done⟩
    rw [held]
    rfl

/-- What the table changes in what is loaded. -/
theorem specAt_nested (tools : AddTools) {data data' : Entries TomlWord}
    (done : nest true (defineAll texts.entries) (executorsPath texts) data = some data') :
    (∀ n ≠ String.ofList texts.name, specAt tools (executorsAt data') n = specAt tools (executorsAt data) n) ∧
      ((∀ inner, (executorsAt data).lookup (String.ofList texts.name) ≠ some (.table inner)) ∧
          specAt tools (executorsAt data') (String.ofList texts.name) = none ∨
        ∃ inner entries,
          ((executorsAt data).lookup (String.ofList texts.name)).getD (.table []) = .table inner ∧
            (executorsAt data').lookup (String.ofList texts.name) = some (.table entries) ∧
              defineAll texts.entries inner = some entries) := by
  by_cases table : ∃ execs, (data.lookup "executors").getD (.table []) = .table execs
  · obtain ⟨execs, held⟩ := table
    obtain ⟨execs', nested, found⟩ := nest_table held done
    have before : executorsAt data = execs := by rw [executorsAt, held]
    have after : executorsAt data' = execs' := by rw [executorsAt, found]; rfl
    obtain ⟨others, here⟩ := lookup_nested nested
    rw [before, after]
    refine ⟨fun n other => by rw [specAt, specAt, others n other], ?_⟩
    rcases here with ⟨other, items, array⟩ | entry
    · refine .inl ⟨other, ?_⟩
      rw [specAt, array]
      rfl
    · exact .inr entry
  · have none := not_exists.mp table
    obtain ⟨items, found⟩ := nest_list none done
    have before : executorsAt data = [] := by
      rw [executorsAt]
      cases held : (data.lookup "executors").getD (.table []) with
      | table execs => exact absurd held (none execs)
      | scalar _ | string _ | array _ => rfl
    have after : executorsAt data' = [] := by rw [executorsAt, found]; rfl
    rw [before, after]
    exact ⟨fun _ _ => rfl, .inl ⟨nofun, rfl⟩⟩

theorem chars?_eq_some {name : Text} {s : List Char} : chars? name = some s ↔ name = s.map .char := by
  constructor
  · intro read
    induction name generalizing s with
    | nil =>
      obtain rfl : [] = s := Option.some.inj read
      rfl
    | cons c name ih =>
      rw [chars?, List.mapM_cons] at read
      obtain ⟨d, here, rest⟩ := Option.bind_eq_some_iff.mp read
      obtain ⟨s', later, same⟩ := Option.bind_eq_some_iff.mp rest
      obtain rfl := Option.some.inj same
      cases c with
      | char c =>
        obtain rfl := Option.some.inj here
        rw [ih later]
        rfl
      | high _ | low _ => cases here
  · rintro rfl
    exact mapM_scalar s

/-- The texts that are given are those that are written. -/
structure Writes (args : AddArgs) (texts : AddTexts) : Prop where
  name : chars? args.name = some texts.name
  command : chars? args.command = some texts.command
  driver : chars? args.driver = some texts.driver
  launcher : chars? args.launcher = some texts.launcher
  args : args.arg.mapM chars? = some texts.args

variable {args : AddArgs}

theorem writes_of_texts? (written : args.texts? = some texts) : Writes args texts := by
  obtain ⟨name, hasName, written⟩ := Option.bind_eq_some_iff.mp written
  obtain ⟨command, hasCommand, written⟩ := Option.bind_eq_some_iff.mp written
  obtain ⟨driver, hasDriver, written⟩ := Option.bind_eq_some_iff.mp written
  obtain ⟨launcher, hasLauncher, written⟩ := Option.bind_eq_some_iff.mp written
  obtain ⟨arg, hasArg, written⟩ := Option.bind_eq_some_iff.mp written
  obtain rfl := Option.some.inj written
  exact ⟨hasName, hasCommand, hasDriver, hasLauncher, hasArg⟩

theorem ofString_eq_iff (writes : Writes args texts) {n : String} :
    Text.ofString n = args.name ↔ n = String.ofList texts.name := by
  have named : args.name = Text.ofString (String.ofList texts.name) := by
    rw [chars?_eq_some.mp writes.name, Text.ofString, String.toList_ofList]
  rw [named]
  exact ⟨Text.ofString_injective, congrArg _⟩

theorem isLoaded_eq (writes : Writes args texts) (load : ExecutorLoad) :
    isLoaded load args.name = (load.specs.get? (String.ofList texts.name)).isSome := by
  rw [isLoaded, writes.name, Option.any_some]

theorem mapM_textValue (values : List Text) :
    values.mapM textValue = (values.mapM chars?).map fun texts => texts.map fun s => .string (String.ofList s) := by
  induction values with
  | nil => rfl
  | cons value values ih =>
    rw [List.mapM_cons, List.mapM_cons, ih, textValue]
    cases chars? value with
    | none => rfl
    | some s =>
      cases values.mapM chars? with
      | none => rfl
      | some texts => rfl

/-- The executor has the texts, unless the file has arguments for it and none were given. -/
theorem isGiven_iff (writes : Writes args texts) {inner entries : Entries TomlWord} {s : ExecutorSpec} {n : String}
    (defined : defineAll texts.entries inner = some entries) (built : buildTable tools.py n entries = .ok s) :
    IsGiven args s ↔ (texts.args = [] → ∀ stray, inner.lookup "args" = some stray → listValue stray = .ok []) := by
  have made := built_of_buildTable built
  have lookup : ∀ k, entries.lookup k = (texts.entries.lookup k).or (inner.lookup k) := fun k =>
    lookup_defineAll defined
  have command : s.command = .string (String.ofList texts.command) := by
    have held := required_ok_iff.mp made.command
    rw [lookup] at held
    exact (Option.some.inj held).symm
  have driver : s.driver = .string (String.ofList texts.driver) := by
    have held := required_ok_iff.mp made.driver
    rw [lookup] at held
    exact (Option.some.inj held).symm
  have launcher : s.launcher = .string (String.ofList texts.launcher) := by
    have held := made.launcher
    rw [lookup] at held
    exact held
  have given : IsGiven args s ↔ s.args = texts.args.map fun s => .string (String.ofList s) := by
    have texts' : args.arg.mapM textValue = some (texts.args.map fun s => .string (String.ofList s)) := by
      rw [mapM_textValue, writes.args, Option.map_some]
    constructor
    · intro is
      exact (Option.some.inj (texts'.symm.trans is.args)).symm
    · intro same
      refine ⟨?_, ?_, ?_, ?_⟩
      · rw [textValue, writes.command, command, Option.map_some]
      · rw [textValue, writes.driver, driver, Option.map_some]
      · rw [textValue, writes.launcher, launcher, Option.map_some]
      · rw [texts', same]
  have listed := made.args
  rw [lookup] at listed
  rw [given]
  by_cases bare : texts.args = []
  · have absent : texts.entries.lookup "args" = (none : Option ConfigValue) := by
      rw [AddTexts.entries, if_pos bare]
      rfl
    rw [absent, Option.none_or] at listed
    rw [bare]
    cases stray : inner.lookup "args" with
    | none =>
      rw [stray] at listed
      refine iff_of_true (Except.ok.inj listed).symm ?_
      rintro - _ ⟨⟩
    | some value =>
      rw [stray] at listed
      have listed : listValue value = .ok s.args := listed
      constructor
      · rintro same - _ ⟨⟩
        rw [listed, same]
        rfl
      · intro all
        have empty := all rfl value rfl
        rw [listed] at empty
        exact Except.ok.inj empty
  · have there : texts.entries.lookup "args" =
        some (.array (texts.args.map fun s => .string (String.ofList s)) : ConfigValue) := by
      rw [AddTexts.entries, if_neg bare]
      rfl
    rw [there, Option.some_or] at listed
    exact iff_of_true (Except.ok.inj listed).symm fun empty => absurd empty bare

/-! ### How the command ends -/

/-- How the command ends once the file is written. -/
def proveWrite (tools : AddTools) (path : String) (after : File) (name : Text) : AddReport :=
  match loadFile tools path after with
  | .error _ => .raised
  | .ok reloaded => if isLoaded reloaded name then .added else .refused "executor_invalid"

theorem textOf_of_loadFile {existing : ExecutorLoad} (loaded : loadFile tools path file = .ok existing) :
    ∃ text, textOf file = some text := by
  cases file with
  | none => exact ⟨"", rfl⟩
  | some bytes =>
    simp only [loadFile, Option.elim, loadExecutors] at loaded
    cases decoded : decodeStrict bytes with
    | none =>
      rw [decoded] at loaded
      cases loaded
    | some text => exact ⟨text, decoded⟩

theorem undecoded_of_loadFile {fault : Uncaught} (failed : loadFile tools path file = .error fault) :
    ∃ bytes, file = some bytes ∧ decodeStrict bytes = none := by
  cases file with
  | none => cases failed
  | some bytes =>
    simp only [loadFile, Option.elim, loadExecutors] at failed
    cases decoded : decodeStrict bytes with
    | none => exact ⟨bytes, rfl, decoded⟩
    | some text =>
      rw [decoded] at failed
      cases failed

theorem specOf_of_loadFile {existing : ExecutorLoad} (loaded : loadFile tools path file = .ok existing) (n : String) :
    specOf tools path file n = existing.specs.get? n := by
  rw [specOf, loaded]

theorem known_of_isLoaded {existing : ExecutorLoad} (loaded : loadFile tools path file = .ok existing)
    (known : isLoaded existing args.name = true) :
    ∃ name, Text.ofString name = args.name ∧ (specOf tools path file name).isSome = true := by
  obtain ⟨s, named, held⟩ := (Option.any_eq_true ..).mp known
  refine ⟨String.ofList s, ?_, by rw [specOf_of_loadFile loaded]; exact held⟩
  rw [Text.ofString, String.toList_ofList, chars?_eq_some.mp named]

/-- Either nothing is written, or the table is appended to a file that was loaded without the name. -/
theorem cmdAdd_cases (tools : AddTools) (path : String) (file : File) (args : AddArgs) :
    (Fits tools path file args ∧ ∃ report ≠ .added, cmdAdd tools path file args = (report, file)) ∨
      (args.texts? = none ∧ cmdAdd tools path file args = (.raised, some (file.getD []))) ∨
      ∃ texts existing, args.texts? = some texts ∧ loadFile tools path file = .ok existing ∧
        isLoaded existing args.name = false ∧ tools.which args.command = true ∧
        cmdAdd tools path file args =
          (proveWrite tools path (some (appended file texts)) args.name, some (appended file texts)) := by
  unfold cmdAdd
  cases loaded : loadFile tools path file with
  | error fault =>
    obtain ⟨bytes, is, bad⟩ := undecoded_of_loadFile loaded
    exact .inl ⟨.undecodable bytes is bad, .raised, nofun, rfl⟩
  | ok existing =>
    dsimp only
    cases known : isLoaded existing args.name with
    | true =>
      obtain ⟨name, is, held⟩ := known_of_isLoaded loaded known
      exact .inl ⟨.known name is held, .refused "executor_exists", nofun, rfl⟩
    | false =>
      cases found : tools.which args.command with
      | false => exact .inl ⟨.notFound found, .refused "command_not_found", nofun, rfl⟩
      | true =>
        cases written : args.texts? with
        | none => exact .inr (.inl ⟨rfl, rfl⟩)
        | some texts =>
          refine .inr (.inr ⟨texts, existing, rfl, rfl, known, rfl, ?_⟩)
          simp only [proveWrite]
          cases loadFile tools path (some (appended file texts)) with
          | error fault => rfl
          | ok reloaded =>
            dsimp only
            cases isLoaded reloaded args.name with
            | true => rfl
            | false => rfl

theorem addKeeps_of_refused {report : AddReport} {after : File} (ends : cmdAdd tools path file args = (report, after))
    (other : report ≠ .added) (kept : ∀ n s, specOf tools path file n = some s → specOf tools path after n = some s) :
    AddKeeps tools path file args := by
  constructor
  · rw [ends]
    exact fun added => absurd added other
  · rw [ends]
    exact fun _ => kept

/-- A file that was made empty loads nothing, as the missing one did. -/
theorem specOf_getD (n : String) (s : ExecutorSpec) (held : specOf tools path file n = some s) :
    specOf tools path (some (file.getD [])) n = some s := by
  cases file with
  | none => cases held
  | some bytes => exact held

/-- What is loaded has been parsed. -/
theorem parses_of_specOf {after : File} {n : String} {s : ExecutorSpec} (held : specOf tools path after n = some s) :
    Parses tools path after := by
  unfold specOf at held
  cases loaded : loadFile tools path after with
  | error fault =>
    rw [loaded] at held
    cases held
  | ok load =>
    rw [loaded] at held
    refine ⟨load, loaded, ?_⟩
    have held : load.specs.get? n = some s := held
    cases after with
    | none =>
      obtain rfl := Except.ok.inj loaded
      cases held
    | some bytes =>
      simp only [loadFile, Option.elim, loadExecutors] at loaded
      cases decoded : decodeStrict bytes with
      | none =>
        rw [decoded] at loaded
        cases loaded
      | some text =>
        rw [decoded] at loaded
        obtain rfl := Except.ok.inj loaded
        unfold loadText at held ⊢
        cases parsed : tools.tomllib.loads text with
        | error shown =>
          simp only [parsed] at held
          cases held
        | ok data =>
          simp only [parsed] at held ⊢
          cases table : (data.lookup "executors").getD (.table []) with
          | table execs =>
            show (execs.foldl (addEntry tools.py) {}).parseError = none
            rw [foldl_addEntry]
          | scalar _ | string _ | array _ =>
            simp only [table] at held
            cases held

theorem proveWrite_eq (writes : Writes args texts) (decoded : textOf file = some text) :
    proveWrite tools path (some (appended file texts)) args.name =
      if (specOf tools path (some (appended file texts)) (String.ofList texts.name)).isSome = true then .added
      else .refused "executor_invalid" := by
  simp only [proveWrite, specOf, loadFile_appended decoded, isLoaded_eq writes]

/-- What is loaded from the new file. -/
theorem specOf_appended (decoded : textOf file = some text) (n : String) :
    specOf tools path (some (appended file texts)) n =
      specAt tools ((load tools.words (newText file text texts)).elim [] executorsAt) n := by
  simp only [specOf, loadFile_appended decoded, get?_loaded]

section Added
variable {data' inner entries : Entries TomlWord} {s : ExecutorSpec}

/-- An executor that was added is the one that was given, or the command breaks its promise. -/
theorem addKeeps_added_iff (writes : Writes args texts) {after : File}
    (ends : cmdAdd tools path file args = (.added, after))
    (made : specOf tools path after (String.ofList texts.name) = some s)
    (kept : ∀ n ≠ String.ofList texts.name, specOf tools path after n = specOf tools path file n) :
    AddKeeps tools path file args ↔ IsGiven args s := by
  constructor
  · intro keeps
    have added := keeps.added
    rw [ends] at added
    obtain ⟨-, s', is, all⟩ := added rfl
    have here := all (String.ofList texts.name)
    rw [if_pos ((ofString_eq_iff writes).mpr rfl), made] at here
    rwa [Option.some.inj here]
  · intro is
    constructor
    · rw [ends]
      refine fun _ => ⟨parses_of_specOf made, s, is, fun n => ?_⟩
      split_ifs with same
      · rw [(ofString_eq_iff writes).mp same, made]
      · exact kept n fun here => same ((ofString_eq_iff writes).mpr here)
    · rw [ends]
      exact fun other => absurd rfl other

theorem coerces_of_build {n : String} (built : buildTable tools.py n entries = .ok s) : Coerces tools.py entries := by
  have spec : buildSpec tools.py n (.table entries) = .ok s := built
  obtain ⟨_, same, coerces⟩ := buildSpec_ok_iff.mp ⟨s, spec⟩
  rwa [Toml.table.inj same]

/-- The arguments that the file has, if the entry is a spec. -/
theorem noStrayArgs_iff
    (held : ((executorsAt o.data).lookup (String.ofList texts.name)).getD (.table []) = .table inner)
    (coerces : Coerces tools.py (inner ++ texts.entries)) :
    NoStrayArgs tools o texts ↔
      (texts.args = [] → ∀ stray, inner.lookup "args" = some stray → listValue stray = .ok []) := by
  constructor
  · intro none empty stray there
    cases lookup : (executorsAt o.data).lookup (String.ofList texts.name) with
    | none =>
      rw [lookup] at held
      obtain rfl := Toml.table.inj held
      cases there
    | some value =>
      rw [lookup] at held
      obtain rfl : value = .table inner := held
      exact none inner stray lookup empty there coerces
  · intro empty inner' stray held' none there _
    rw [held'] at held
    obtain rfl := Toml.table.inj held
    exact empty none stray there

/-- Where the file takes the table, the command does what it says unless the file has arguments for it. -/
theorem addKeeps_taken_iff (writes : Writes args texts) (toml : outputOf tools file = some o)
    (nested : nest true (defineAll texts.entries) (executorsPath texts) o.data = some data')
    (unknown : specOf tools path file (String.ofList texts.name) = none) {after : File}
    (loaded : ∀ n, specOf tools path after n = specAt tools (executorsAt data') n)
    (ends : cmdAdd tools path file args =
      (if (specOf tools path after (String.ofList texts.name)).isSome = true then .added
        else .refused "executor_invalid", after)) :
    AddKeeps tools path file args ↔ NoStrayArgs tools o texts := by
  obtain ⟨others, here⟩ := specAt_nested tools nested
  have before : ∀ n, specOf tools path file n = specAt tools (executorsAt o.data) n := specOf_eq toml
  have kept : ∀ n ≠ String.ofList texts.name, specOf tools path after n = specOf tools path file n := fun n other => by
    rw [loaded, before, others n other]
  have stay : ∀ n s, specOf tools path file n = some s → specOf tools path after n = some s := by
    intro n s held
    rw [kept n, held]
    rintro rfl
    rw [unknown] at held
    cases held
  cases made : specOf tools path after (String.ofList texts.name) with
  | none =>
    rw [made] at ends
    refine iff_of_true (addKeeps_of_refused ends nofun stay) ?_
    intro inner stray held _ _ coerces
    rw [loaded] at made
    rcases here with ⟨other, -⟩ | ⟨inner', entries, same, found, defined⟩
    · exact absurd held (other inner)
    · rw [held] at same
      obtain rfl := Toml.table.inj same
      obtain ⟨rfl, -⟩ := defineAll_eq defined
      obtain ⟨s, built⟩ := buildSpec_ok_iff.mpr ⟨_, rfl, coerces⟩
      rw [specAt, found, Option.bind_some, built] at made
      cases made
  | some s =>
    rw [made] at ends
    have found := made
    rw [loaded] at found
    rcases here with ⟨-, none⟩ | ⟨inner, entries, held, entry, defined⟩
    · rw [none] at found
      cases found
    · rw [specAt, entry, Option.bind_some] at found
      have built : buildTable tools.py (String.ofList texts.name) entries = .ok s := by
        have found : (buildTable tools.py (String.ofList texts.name) entries).toOption = some s := found
        cases result : buildTable tools.py (String.ofList texts.name) entries with
        | ok s' =>
          rw [result] at found
          rw [Option.some.inj found]
        | error fault =>
          rw [result] at found
          cases found
      have coerces := coerces_of_build built
      obtain ⟨whole, -⟩ := defineAll_eq defined
      rw [whole] at coerces
      rw [addKeeps_added_iff writes ends made kept, isGiven_iff writes defined built, noStrayArgs_iff held coerces]

/-- Where the file does not take the table, it is no TOML any more. -/
theorem addKeeps_untaken_iff {after : File} {code : String} (lost : ∀ n, specOf tools path after n = none)
    (ends : cmdAdd tools path file args = (.refused code, after)) :
    AddKeeps tools path file args ↔ ∀ n, specOf tools path file n = none := by
  constructor
  · intro keeps n
    have kept := keeps.kept
    rw [ends] at kept
    cases held : specOf tools path file n with
    | none => rfl
    | some s =>
      have still := kept nofun n s held
      rw [lost] at still
      cases still
  · intro empty
    refine addKeeps_of_refused ends nofun fun n s held => ?_
    rw [empty n] at held
    cases held

/-- Where the name was not loaded and the file is TOML, the table decides. -/
theorem addKeeps_bare_iff (writes : Writes args texts) (bare : IsBareName texts.name)
    (toml : outputOf tools file = some o) (decoded : textOf file = some text)
    (unknown : specOf tools path file (String.ofList texts.name) = none)
    (ends : cmdAdd tools path file args =
      (proveWrite tools path (some (appended file texts)) args.name, some (appended file texts))) :
    AddKeeps tools path file args ↔
      (Takes o texts → NoStrayArgs tools o texts) ∧ (¬ Takes o texts → ∀ n, specOf tools path file n = none) := by
  obtain ⟨taken, untaken⟩ := load_newText toml decoded bare
  rw [proveWrite_eq writes decoded] at ends
  by_cases takes : Takes o texts
  · have loaded := taken takes
    obtain ⟨data', nested⟩ := Option.isSome_iff_exists.mp takes.2.2
    rw [nested] at loaded
    have after : ∀ n, specOf tools path (some (appended file texts)) n = specAt tools (executorsAt data') n := by
      intro n
      rw [specOf_appended decoded, loaded]
      rfl
    rw [and_iff_left fun refused => absurd takes refused, imp_iff_right takes]
    exact addKeeps_taken_iff writes toml nested unknown after ends
  · have loaded := untaken takes
    have lost : ∀ n, specOf tools path (some (appended file texts)) n = none := by
      intro n
      rw [specOf_appended decoded, loaded]
      rfl
    rw [lost] at ends
    rw [and_iff_right fun taken => absurd taken takes, imp_iff_right takes]
    exact addKeeps_untaken_iff lost ends

end Added

/-- A file that cannot become TOML loads nothing, before and after. -/
theorem addKeeps_dead (writes : Writes args texts) (is : file.bind decodeStrict = some text)
    (never : ∀ more, load tools.words (text ++ more) = none)
    (ends : cmdAdd tools path file args =
      (proveWrite tools path (some (appended file texts)) args.name, some (appended file texts))) :
    AddKeeps tools path file args := by
  obtain ⟨bytes, rfl, decoded⟩ := Option.bind_eq_some_iff.mp is
  have decoded : textOf (some bytes) = some text := decoded
  have lost : ∀ n, specOf tools path (some (appended (some bytes) texts)) n = none := by
    intro n
    rw [specOf_appended decoded, newText, never]
    rfl
  have nothing : load tools.words text = none := by
    rw [← never "", String.append_empty]
  rw [proveWrite_eq writes decoded, lost] at ends
  refine (addKeeps_untaken_iff lost ends).mpr fun n => ?_
  have old : decodeStrict bytes = some text := decoded
  have loaded : loadFile tools path (some bytes) = .ok (loadText tools.tomllib tools.py path text) := by
    simp only [loadFile, Option.elim, loadExecutors, old]
  rw [specOf_of_loadFile loaded, get?_loaded, nothing]
  rfl

/-- When an addition is what was asked for, and a failed one leaves the other executors alone. For bare keys and
files that are TOML this is exact. -/
theorem config_add_keeps (tools : AddTools) (path : String) (file : File) (args : AddArgs) :
    (Fits tools path file args → AddKeeps tools path file args) ∧
      ∀ texts, args.texts? = some texts → IsBareName texts.name → (outputOf tools file).isSome = true →
        AddKeeps tools path file args → Fits tools path file args := by
  obtain ⟨fits, report, other, ends⟩ | ⟨half, ends⟩ | ⟨texts, existing, written, loaded, known, found, ends⟩ :=
    cmdAdd_cases tools path file args
  · exact ⟨fun _ => addKeeps_of_refused ends other fun _ _ held => held, fun _ _ _ _ _ => fits⟩
  · exact ⟨fun _ => addKeeps_of_refused ends nofun specOf_getD, fun _ _ _ _ _ => .unwritable half⟩
  · have writes := writes_of_texts? written
    obtain ⟨text, decoded⟩ := textOf_of_loadFile loaded
    have unknown : specOf tools path file (String.ofList texts.name) = none := by
      rw [specOf_of_loadFile loaded]
      rw [isLoaded_eq writes] at known
      simpa using known
    constructor
    · intro fits
      cases fits with
      | undecodable bytes is bad =>
        subst is
        have read : decodeStrict bytes = some text := decoded
        rw [bad] at read
        cases read
      | known name is held =>
        rw [(ofString_eq_iff writes).mp is, unknown] at held
        cases held
      | notFound absent =>
        rw [found] at absent
        cases absent
      | unwritable half =>
        rw [written] at half
        cases half
      | dead text is never => exact addKeeps_dead writes is never ends
      | bare texts' written' name o toml fits empty =>
        rw [written] at written'
        obtain rfl := Option.some.inj written'
        exact (addKeeps_bare_iff writes name toml decoded unknown ends).mpr ⟨fits, empty⟩
    · intro texts' written' name isToml keeps
      rw [written] at written'
      obtain rfl := Option.some.inj written'
      obtain ⟨o, toml⟩ := Option.isSome_iff_exists.mp isToml
      obtain ⟨fits, empty⟩ := (addKeeps_bare_iff writes name toml decoded unknown ends).mp keeps
      exact .bare texts written name o toml fits empty

/-! ### One executor and another -/

/-- A reader that knows no word. -/
def noWords : Words TomlWord where
  scan := fail
  isLocal := Local.fail
  isTight := Shut.fail.tight

def plainTools : AddTools where
  words := noWords
  shown _ := "Invalid statement"
  py := plainBuiltins
  which _ := true

def oneExecutor : File := some (encodeText "[executors.a]\ncommand = 'c'\ndriver = 'd'\n".toList)

def addition (name arg : String) : AddArgs where
  name := Text.ofString name
  command := Text.ofString "c"
  driver := Text.ofString "claude"
  launcher := Text.ofString "local"
  arg := [Text.ofString arg]

def secondTexts : AddTexts := ⟨['b'], ['c'], "claude".toList, "local".toList, [['-', 'x']]⟩

/-- What the file with one executor defines. -/
def oneOutput : Output TomlWord := (outputOf plainTools oneExecutor).getD {}

theorem outputOf_one : outputOf plainTools oneExecutor = some oneOutput := by
  have isToml : (outputOf plainTools oneExecutor).isSome = true := by decide +kernel
  obtain ⟨o, toml⟩ := Option.isSome_iff_exists.mp isToml
  rw [oneOutput, toml, Option.getD_some]

theorem takes_second : Takes oneOutput secondTexts := by
  refine ⟨fun s member c inside control => ?_, by decide +kernel, by decide +kernel⟩
  have visible : ∀ s ∈ secondTexts.values, s.all (fun c => !isControl c) = true := by decide +kernel
  have shown := List.all_eq_true.mp (visible s member) c inside
  rw [control] at shown
  cases shown

theorem texts?_second : (addition "b" "-x").texts? = some secondTexts := by decide +kernel

theorem fits_second : Fits plainTools "nelix.toml" oneExecutor (addition "b" "-x") := by
  have bare : secondTexts.name.all isBare = true := by decide +kernel
  have named : IsBareName secondTexts.name := ⟨List.cons_ne_nil _ _, List.all_eq_true.mp bare⟩
  have given : secondTexts.args ≠ [] := List.cons_ne_nil _ _
  have stray : NoStrayArgs plainTools oneOutput secondTexts := by
    intro inner stray held none
    exact absurd none given
  exact .bare secondTexts texts?_second named oneOutput outputOf_one (fun _ => stray)
    fun refused => absurd takes_second refused

/-- A bare name is added beside the other. -/
theorem config_add_second :
    (cmdAdd plainTools "nelix.toml" oneExecutor (addition "b" "-x")).1 = .added ∧
      AddKeeps plainTools "nelix.toml" oneExecutor (addition "b" "-x") :=
  ⟨by decide +kernel, (config_add_keeps plainTools "nelix.toml" oneExecutor (addition "b" "-x")).1 fits_second⟩

/-- A refusal that leaves another spec behind breaks the promise. -/
theorem breaks_of_env {n : String}
    (report : (cmdAdd tools path file args).1 = .refused "executor_invalid")
    (old : (specOf tools path file n).map (fun s => s.env.length) = some 0)
    (other : (specOf tools path (cmdAdd tools path file args).2 n).map (fun s => s.env.length) ≠ some 0) :
    ¬ AddKeeps tools path file args := by
  intro keeps
  obtain ⟨s, held, same⟩ := Option.map_eq_some_iff.mp old
  have still := keeps.kept (by rw [report]; nofun) n s held
  rw [still, Option.map_some, same] at other
  exact other rfl

/-- A name with a dot changes another executor, and a control character makes the file unreadable. -/
theorem config_add_breaks :
    ¬ AddKeeps plainTools "nelix.toml" oneExecutor (addition "a.env" "-x") ∧
      ¬ AddKeeps plainTools "nelix.toml" oneExecutor (addition "b" "\x01") :=
  ⟨breaks_of_env (n := "a") (by decide +kernel) (by decide +kernel) (by decide +kernel),
    breaks_of_env (n := "a") (by decide +kernel) (by decide +kernel) (by decide +kernel)⟩

end Loaded

end Nelix.Cli
