import Mathlib.Algebra.Order.Ring.Rat
import Mathlib.Data.Nat.Cast.Order.Ring
import Nelix.Core.Dict
import Nelix.Core.Text
import Nelix.Core.Toml
import Nelix.Daemon.Capture
import Nelix.Store.Rows

/-!
# The executor configuration

The loader of the executors in `nelix.toml`. One entry that is malformed is an error of its own; the others
are loaded.

## Main results

`buildSpec_ok_iff`: which entries become a spec.
-/
namespace Nelix.Daemon
open Core Store

/-! ### TOML -/

/-- A value of TOML that is written in one word. -/
inductive TomlWord
  | int (n : ℤ)
  | float (x : PyFloat)
  | bool (b : Bool)
  /-- A date, a time or both. -/
  | moment (shown : String)

/-- A value of the file. -/
abbrev ConfigValue := Toml TomlWord

/-- `tomllib.loads`. An error is a `TOMLDecodeError` with its text. -/
structure Tomllib where
  loads : String → Except String (List (String × ConfigValue))
  distinct : ∀ {text data}, loads text = .ok data → (Toml.table data).Distinct

/-! ### Conversions -/

/-- What is called on a value of the file. -/
inductive Conversion
  | float
  | int
  | list
  | dict
  deriving DecidableEq

/-- What a conversion makes of a text, its message on a value that it refuses, and whether two moments are
equal. -/
structure Builtins where
  floatOfText : String → Option PyFloat
  intOfText : String → Option ℤ
  complaint : Conversion → ConfigValue → String
  sameMoment : String → String → Bool

/-- A `KeyError`, `TypeError`, `ValueError` or `ArithmeticError`, all of which the loader catches. -/
inductive SpecFault
  | own (message : String)
  | conversion (called : Conversion) (value : ConfigValue)

/-- `str(e)` -/
def SpecFault.text (py : Builtins) : SpecFault → String
  | .own message => message
  | .conversion called value => py.complaint called value

/-- The number that a float stands for, if it is finite. -/
def PyFloat.value? : PyFloat → Option ℚ
  | .finite negative size => some (if negative then -size else size)
  | _ => none

/-- `x < 0` -/
def PyFloat.isBelow : PyFloat → Bool
  | .finite negative size => (if negative then -size else size) < 0
  | .inf negative => negative
  | .nan => false

/-- `float(n)`, which rounds to 53 bits and may overflow. -/
def floatOfInt (n : ℤ) : Option PyFloat :=
  let unit := 2 ^ (n.natAbs.log2 - 52)
  let size := roundEven (n.natAbs / unit) * unit
  if size < 2 ^ 1024 then some (.finite (n < 0) size) else none

section Conversions
variable (py : Builtins)

/-- `float(value)` -/
def floatValue (value : ConfigValue) : Except SpecFault PyFloat :=
  let made := match value with
    | .scalar (.float x) => some x
    | .scalar (.int n) => floatOfInt n
    | .scalar (.bool b) => some (.finite false (if b then 1 else 0))
    | .string s => py.floatOfText s
    | _ => none
  made.elim (.error (.conversion .float value)) .ok

/-- `int(value)` -/
def intValue (value : ConfigValue) : Except SpecFault ℤ :=
  let made := match value with
    | .scalar (.float x) => x.value?.map fun q : ℚ => Int.tdiv q.num q.den
    | .scalar (.int n) => some n
    | .scalar (.bool b) => some (if b then 1 else 0)
    | .string s => py.intOfText s
    | _ => none
  made.elim (.error (.conversion .int value)) .ok

/-- `list(value)` -/
def listValue : ConfigValue → Except SpecFault (List ConfigValue)
  | .string s => .ok (s.toList.map fun c => .string (String.singleton c))
  | .array items => .ok items
  | .table entries => .ok (entries.map fun entry => .string entry.1)
  | value => .error (.conversion .list value)

/-- A bool is a number here. -/
def number? : ConfigValue → Option PyFloat
  | .scalar (.int n) => some (.finite (n < 0) n.natAbs)
  | .scalar (.float x) => some x
  | .scalar (.bool b) => some (.finite false (if b then 1 else 0))
  | _ => none

/-- `a == b` for two keys. A NaN is no other NaN. -/
def sameKey : ConfigValue → ConfigValue → Bool
  | .string a, .string b => a = b
  | .scalar (.moment a), .scalar (.moment b) => py.sameMoment a b
  | a, b =>
    match number? a, number? b with
    | some (.inf negative), some (.inf negative') => negative = negative'
    | some x, some y => x.value?.isSome && x.value? = y.value?
    | _, _ => false

def isHashable : ConfigValue → Bool
  | .array _ | .table _ => false
  | _ => true

/-- `d[key] = value`: a key that is there stays as it is. -/
def setItem (key value : ConfigValue) : List (ConfigValue × ConfigValue) → List (ConfigValue × ConfigValue)
  | [] => [(key, value)]
  | row :: rest => if sameKey py key row.1 then (row.1, value) :: rest else row :: setItem key value rest

/-- An item of what a dict is made from. -/
def pairOf (item : ConfigValue) : Except SpecFault (ConfigValue × ConfigValue) :=
  match listValue item with
  | .ok [key, value] =>
    if isHashable key then .ok (key, value) else .error (.conversion .dict item)
  | _ => .error (.conversion .dict item)

/-- `dict(value)` -/
def dictValue : ConfigValue → Except SpecFault (List (ConfigValue × ConfigValue))
  | .table entries => .ok (entries.map fun entry => (.string entry.1, entry.2))
  | value => do
    let items ← listValue value
    let pairs ← items.mapM pairOf
    pure (pairs.foldl (fun d pair => setItem py pair.1 pair.2 d) [])

end Conversions

/-! ### One entry -/

structure ExecutorSpec where
  command : ConfigValue
  args : List ConfigValue
  env : List (ConfigValue × ConfigValue)
  driver : ConfigValue
  launcher : ConfigValue
  envCmd : List (String × String)
  envCmdTimeoutSeconds : PyFloat
  settleSeconds : PyFloat
  deliveryConfirmSeconds : PyFloat
  respondWriteSeconds : PyFloat
  respondConfirmSeconds : PyFloat
  maxIdleSeconds : PyFloat
  observationGraceSeconds : PyFloat
  startupTimeoutSeconds : PyFloat
  maxRestarts : ℤ
  postSubmitGrace : PyFloat
  echoStuckAfter : PyFloat
  idleConfirmWindow : PyFloat
  liveBudget : PyFloat
  staleBudget : PyFloat
  unknownBudget : PyFloat
  heartbeatStaleAfter : PyFloat
  tailLines : ℤ
  statusTailChars : ℤ
  spoolMaxBytes : ℤ

section Entry
variable (py : Builtins) (name : String) (spec : List (String × ConfigValue))

/-- A number, no bool, and not below 0, which is the floor of all of them. -/
def isTunable : ConfigValue → Bool
  | .scalar (.int n) => 0 ≤ n
  | .scalar (.float x) => !x.isBelow
  | _ => false

/-- `_spec_num`. The cast leaves the default as it is. -/
def specNum {α : Type} (key : String) (default : α) (cast : ConfigValue → Except SpecFault α) :
    Except SpecFault α :=
  match spec.lookup key with
  | some value => if isTunable value then cast value else .ok default
  | none => .ok default

/-- `math.isfinite(x) and x > 0` -/
def PyFloat.isTimeout (x : PyFloat) : Bool := x.value?.any fun q => 0 < q

/-- `_spec_timeout` -/
def specTimeout (key : String) (default : ℚ) : Except SpecFault PyFloat :=
  let checked := fun value => do
    let x ← floatValue py value
    pure (if x.isTimeout then x else .finite false default)
  match spec.lookup key with
  | some (.scalar (.int n)) => checked (.scalar (.int n))
  | some (.scalar (.float x)) => checked (.scalar (.float x))
  | _ => .ok (.finite false default)

/-- One variable of `env_cmd`. -/
def checkEnvCmd (entry : String × ConfigValue) : Except SpecFault (String × String) :=
  let shown := pyRepr entry.1
  if entry.1 = "" ∨ '=' ∈ entry.1.toList then
    .error (.own s!"executor {pyRepr name}: env_cmd var {shown} must be a non-empty name without '='")
  else
    let refused := .error (.own
      s!"executor {pyRepr name}: env_cmd[{shown}] must be a non-empty command string")
    match entry.2 with
    | .string cmd => if cmd = "" then refused else .ok (entry.1, cmd)
    | _ => refused

/-- `_build_env_cmd` -/
def buildEnvCmd : Except SpecFault (List (String × String)) :=
  match (spec.lookup "env_cmd").getD (.table []) with
  | .table raw => raw.mapM (checkEnvCmd name)
  | _ => .error (.own s!"executor {pyRepr name}: 'env_cmd' must be a table of VAR = command")

/-- `spec[key]` for a key that must be there. -/
def required (key : String) : Except SpecFault ConfigValue :=
  (spec.lookup key).elim (.error (.own s!"executor {pyRepr name}: '{key}' is required")) .ok

/-- `_spec_num` with `cast=float` -/
def specSeconds (key : String) (default : ℚ) : Except SpecFault PyFloat :=
  specNum spec key (.finite false default) (floatValue py)

/-- `int(spec.get(key, default))` -/
def specInt (key : String) (default : ℤ) : Except SpecFault ℤ :=
  intValue py ((spec.lookup key).getD (.scalar (.int default)))

/-- `_build_spec` for a table. -/
def buildTable : Except SpecFault ExecutorSpec := do
  let command ← required name spec "command"
  let driver ← required name spec "driver"
  let args ← listValue ((spec.lookup "args").getD (.array []))
  let env ← dictValue py ((spec.lookup "env").getD (.table []))
  let envCmd ← buildEnvCmd name spec
  let envCmdTimeoutSeconds ← specTimeout py spec "env_cmd_timeout_seconds" 15
  let settleSeconds ← floatValue py ((spec.lookup "settle_seconds").getD (.scalar (.float (.finite false (3 / 2)))))
  let deliveryConfirmSeconds ← specSeconds py spec "delivery_confirm_seconds" 10
  let respondWriteSeconds ← specSeconds py spec "respond_write_seconds" 5
  let respondConfirmSeconds ← specSeconds py spec "respond_confirm_seconds" 6
  let maxIdleSeconds ← specSeconds py spec "max_idle_seconds" 600
  let observationGraceSeconds ← specSeconds py spec "observation_grace_seconds" 3600
  let startupTimeoutSeconds ← specSeconds py spec "startup_timeout_seconds" 60
  let maxRestarts ← specNum spec "max_restarts" 3 (intValue py)
  let postSubmitGrace ← specSeconds py spec "post_submit_grace" 8
  let echoStuckAfter ← specSeconds py spec "echo_stuck_after" 20
  let idleConfirmWindow ← specSeconds py spec "idle_confirm_window" (1 / 2)
  let liveBudget ← specSeconds py spec "live_budget" 1800
  let staleBudget ← specSeconds py spec "stale_budget" 30
  let unknownBudget ← specSeconds py spec "unknown_budget" 60
  let heartbeatStaleAfter ← specSeconds py spec "heartbeat_stale_after" 10
  let tailLines ← specInt py spec "tail_lines" 400
  let statusTailChars ← specInt py spec "status_tail_chars" 4000
  let spoolMaxBytes ← specInt py spec "spool_max_bytes" 8388608
  pure
    { launcher := (spec.lookup "launcher").getD (.string "auto")
      command, args, env, driver, envCmd, envCmdTimeoutSeconds, settleSeconds, deliveryConfirmSeconds
      respondWriteSeconds, respondConfirmSeconds, maxIdleSeconds, observationGraceSeconds
      startupTimeoutSeconds, maxRestarts, postSubmitGrace, echoStuckAfter, idleConfirmWindow, liveBudget
      staleBudget, unknownBudget, heartbeatStaleAfter, tailLines, statusTailChars, spoolMaxBytes }

/-- `_build_spec` -/
def buildSpec : ConfigValue → Except SpecFault ExecutorSpec
  | .table spec => buildTable py name spec
  | _ => .error (.own s!"executor {pyRepr name}: must be an [executors.{name}] table")

end Entry

/-! ### The loader -/

structure ExecutorLoad where
  specs : Dict String ExecutorSpec := ∅
  executorErrors : List (String × String) := []
  parseError : Option String := none

/-- What opening and reading the file finds. -/
inductive ConfigFile
  | missing
  | unreadable (shown : String)
  | content (bytes : List UInt8)

/-- An exception that leaves the loader. -/
inductive Uncaught
  | unicodeDecodeError
  deriving DecidableEq

/-- A code point that may stand in UTF-8. -/
def scalar? : CodePoint → Option Char
  | .char c => some c
  | _ => none

/-- `b.decode()` -/
def decodeStrict (bytes : List UInt8) : Option String :=
  (Text.utf8 (bytes.map UInt8.toNat)).bind fun text => (text.mapM scalar?).map String.ofList

section Loader
variable (toml : Tomllib) (py : Builtins)

def addEntry (load : ExecutorLoad) (entry : String × ConfigValue) : ExecutorLoad :=
  match buildSpec py entry.1 entry.2 with
  | .ok spec => { load with specs := load.specs.set entry.1 spec }
  | .error fault =>
    { load with executorErrors := load.executorErrors ++ [(entry.1, fault.text py)] }

/-- What is loaded from the text of the file. -/
def loadText (path text : String) : ExecutorLoad :=
  match toml.loads text with
  | .error shown => { parseError := s!"could not parse {path}: {shown}" }
  | .ok data =>
    match (data.lookup "executors").getD (.table []) with
    | .table execs => execs.foldl (addEntry py) {}
    | _ => { parseError := "'executors' must be a table" }

/-- `load_executors` -/
def loadExecutors (path : String) : ConfigFile → Except Uncaught ExecutorLoad
  | .missing => .ok { parseError := s!"config file not found: {path}" }
  | .unreadable shown => .ok { parseError := s!"could not parse {path}: {shown}" }
  | .content bytes =>
    match decodeStrict bytes with
    -- A `UnicodeDecodeError` is neither an `OSError` nor a `TOMLDecodeError`.
    | none => .error .unicodeDecodeError
    | some text => .ok (loadText toml py path text)

end Loader

/-! ### Which entries become a spec -/

section Specs
variable {py : Builtins} {name key : String} {spec : List (String × ConfigValue)} {value : ConfigValue} {n : ℤ}
  {x : PyFloat} {default : ℚ}

theorem bind_eq_ok {ε α β : Type} {r : Except ε α} {f : α → Except ε β} {b : β} :
    (r >>= f) = .ok b ↔ ∃ a, r = .ok a ∧ f a = .ok b := by
  cases r with
  | ok a => simp [bind, Except.bind]
  | error fault => simp [bind, Except.bind]

theorem exists_mapM_ok {ε α β : Type} {f : α → Except ε β} {items : List α} :
    (∃ made, items.mapM f = .ok made) ↔ ∀ a ∈ items, ∃ b, f a = .ok b := by
  induction items with
  | nil => simp [pure, Except.pure]
  | cons a rest ih =>
    simp only [List.mapM_cons, bind_eq_ok, pure, Except.pure, List.forall_mem_cons, ← ih]
    constructor
    · rintro ⟨_, b, here, made, later, -⟩
      exact ⟨⟨b, here⟩, made, later⟩
    · rintro ⟨⟨b, here⟩, made, later⟩
      exact ⟨_, b, here, made, later, rfl⟩

theorem floatOfInt_finite (made : floatOfInt n = some x) :
    ∃ size : ℚ, 0 ≤ size ∧ x = .finite (n < 0) size := by
  obtain ⟨-, same⟩ := Option.ite_none_right_eq_some.mp made
  exact ⟨_, mul_nonneg (Nat.cast_nonneg _) (pow_nonneg (by decide +kernel) _), (Option.some.inj same).symm⟩

theorem floatValue_int (made : floatValue py (.scalar (.int n)) = .ok x) : floatOfInt n = some x := by
  unfold floatValue at made
  cases found : floatOfInt n with
  | some y =>
    simp only [found] at made
    exact congrArg some (Except.ok.inj made)
  | none =>
    simp only [found] at made
    cases made

theorem floatValue_int_ok : (∃ x, floatValue py (.scalar (.int n)) = .ok x) ↔ (floatOfInt n).isSome = true := by
  constructor
  · rintro ⟨x, made⟩
    rw [floatValue_int made, Option.isSome_some]
  · intro made
    obtain ⟨x, found⟩ := Option.isSome_iff_exists.mp made
    refine ⟨x, ?_⟩
    simp only [floatValue, found, Option.elim]

theorem tunable_cases (tunable : isTunable value = true) :
    (∃ n, value = .scalar (.int n) ∧ 0 ≤ n) ∨ ∃ x, value = .scalar (.float x) ∧ x.isBelow = false := by
  rcases value with (n | x | _ | _) | _ | _ | _
  · exact .inl ⟨n, rfl, of_decide_eq_true tunable⟩
  · exact .inr ⟨x, rfl, by simpa [isTunable] using tunable⟩
  all_goals cases tunable

/-- Each number that is not below its floor has a float. -/
theorem specSeconds_ok_iff :
    (∃ x, specSeconds py spec key default = .ok x) ↔
      ∀ n, spec.lookup key = some (.scalar (.int n)) → 0 ≤ n → (floatOfInt n).isSome = true := by
  unfold specSeconds specNum
  cases spec.lookup key with
  | none => exact iff_of_true ⟨_, rfl⟩ nofun
  | some value =>
    dsimp only
    split_ifs with tunable
    · obtain ⟨n, rfl, floor⟩ | ⟨x, rfl, -⟩ := tunable_cases tunable
      · rw [floatValue_int_ok]
        constructor
        · rintro made m ⟨⟩ -
          exact made
        · intro all
          exact all n rfl floor
      · exact iff_of_true ⟨x, rfl⟩ nofun
    · refine iff_of_true ⟨_, rfl⟩ ?_
      rintro n ⟨⟩ floor
      exact absurd (decide_eq_true floor) tunable

theorem specTimeout_ok_iff :
    (∃ x, specTimeout py spec key default = .ok x) ↔
      ∀ n, spec.lookup key = some (.scalar (.int n)) → (floatOfInt n).isSome = true := by
  unfold specTimeout
  cases spec.lookup key with
  | none => exact iff_of_true ⟨_, rfl⟩ nofun
  | some value =>
    rcases value with (n | x | _ | _) | _ | _ | _
    · have converted : (∃ x, floatValue py (.scalar (.int n)) = .ok x) ↔ (floatOfInt n).isSome = true := floatValue_int_ok
      simp only [bind_eq_ok, Option.some.injEq, Toml.scalar.injEq, TomlWord.int.injEq, forall_eq', ← converted]
      constructor
      · rintro ⟨_, x, made, -⟩
        exact ⟨x, made⟩
      · rintro ⟨x, made⟩
        exact ⟨_, x, made, rfl⟩
    all_goals exact iff_of_true ⟨_, rfl⟩ nofun

theorem intValue_float_ok {x : PyFloat} :
    (∃ n, intValue py (.scalar (.float x)) = .ok n) ↔ ∃ negative size, x = .finite negative size := by
  cases x with
  | finite negative size => exact iff_of_true ⟨_, rfl⟩ ⟨_, _, rfl⟩
  | inf _ | nan =>
    refine iff_of_false (fun ⟨_, made⟩ => nomatch made) ?_
    rintro ⟨_, _, ⟨⟩⟩

/-- `max_restarts` is neither NaN nor infinite. -/
theorem specRestarts_ok_iff :
    (∃ n, specNum spec key 3 (intValue py) = .ok n) ↔
      spec.lookup key ≠ some (.scalar (.float .nan)) ∧
        spec.lookup key ≠ some (.scalar (.float (.inf false))) := by
  unfold specNum
  cases spec.lookup key with
  | none => exact iff_of_true ⟨_, rfl⟩ ⟨nofun, nofun⟩
  | some value =>
    dsimp only
    split_ifs with tunable
    · obtain ⟨n, rfl, -⟩ | ⟨x, rfl, above⟩ := tunable_cases tunable
      · exact iff_of_true ⟨n, rfl⟩ ⟨nofun, nofun⟩
      · rw [intValue_float_ok]
        cases x with
        | finite negative size => exact iff_of_true ⟨_, _, rfl⟩ ⟨nofun, nofun⟩
        | inf negative =>
          obtain rfl : negative = false := above
          exact iff_of_false nofun fun both => both.2 rfl
        | nan => exact iff_of_false nofun fun both => both.1 rfl
    · refine iff_of_true ⟨_, rfl⟩ ⟨?_, ?_⟩
      · rintro ⟨⟩
        exact tunable rfl
      · rintro ⟨⟩
        exact tunable rfl

/-- `env_cmd` is a table of commands under names of variables. -/
def EnvCmdWell (spec : List (String × ConfigValue)) : Prop :=
  ∃ raw, (spec.lookup "env_cmd").getD (.table []) = .table raw ∧
    ∀ entry ∈ raw, entry.1 ≠ "" ∧ '=' ∉ entry.1.toList ∧ ∃ cmd ≠ "", entry.2 = .string cmd

theorem checkEnvCmd_ok_iff {entry : String × ConfigValue} :
    (∃ made, checkEnvCmd name entry = .ok made) ↔
      entry.1 ≠ "" ∧ '=' ∉ entry.1.toList ∧ ∃ cmd ≠ "", entry.2 = .string cmd := by
  obtain ⟨var, cmd⟩ := entry
  unfold checkEnvCmd
  dsimp only
  split_ifs with bad
  · refine iff_of_false (fun ⟨_, made⟩ => nomatch made) ?_
    rintro ⟨named, plain, -⟩
    exact bad.elim named plain
  · push Not at bad
    cases cmd with
    | string text =>
      dsimp only
      split_ifs with empty
      · refine iff_of_false (fun ⟨_, made⟩ => nomatch made) ?_
        rintro ⟨-, -, _, filled, ⟨⟩⟩
        exact filled empty
      · exact iff_of_true ⟨_, rfl⟩ ⟨bad.1, bad.2, text, empty, rfl⟩
    | scalar _ | array _ | table _ =>
      refine iff_of_false (fun ⟨_, made⟩ => nomatch made) ?_
      rintro ⟨-, -, _, -, ⟨⟩⟩

theorem buildEnvCmd_ok_iff : (∃ vars, buildEnvCmd name spec = .ok vars) ↔ EnvCmdWell spec := by
  unfold buildEnvCmd EnvCmdWell
  cases (spec.lookup "env_cmd").getD (.table []) with
  | table raw =>
    simp only [exists_mapM_ok, checkEnvCmd_ok_iff, Toml.table.injEq, exists_eq_left']
  | scalar _ | string _ | array _ =>
    exact iff_of_false (fun ⟨_, made⟩ => nomatch made) (fun ⟨_, table, _⟩ => nomatch table)

/-- The tunables that are seconds, with their defaults. -/
def tunables : List (String × ℚ) :=
  [("delivery_confirm_seconds", 10), ("respond_write_seconds", 5), ("respond_confirm_seconds", 6),
    ("max_idle_seconds", 600), ("observation_grace_seconds", 3600), ("startup_timeout_seconds", 60),
    ("post_submit_grace", 8), ("echo_stuck_after", 20), ("idle_confirm_window", 1 / 2),
    ("live_budget", 1800), ("stale_budget", 30), ("unknown_budget", 60), ("heartbeat_stale_after", 10)]

def ExecutorSpec.tunables (s : ExecutorSpec) : List PyFloat :=
  [s.deliveryConfirmSeconds, s.respondWriteSeconds, s.respondConfirmSeconds, s.maxIdleSeconds,
    s.observationGraceSeconds, s.startupTimeoutSeconds, s.postSubmitGrace, s.echoStuckAfter,
    s.idleConfirmWindow, s.liveBudget, s.staleBudget, s.unknownBudget, s.heartbeatStaleAfter]

/-- The conversions accept what the entry holds. -/
structure Coerces (py : Builtins) (spec : List (String × ConfigValue)) : Prop where
  command : (spec.lookup "command").isSome = true
  driver : (spec.lookup "driver").isSome = true
  args : ∃ items, listValue ((spec.lookup "args").getD (.array [])) = .ok items
  env : ∃ pairs, dictValue py ((spec.lookup "env").getD (.table [])) = .ok pairs
  envCmd : EnvCmdWell spec
  timeout : ∀ n, spec.lookup "env_cmd_timeout_seconds" = some (.scalar (.int n)) → (floatOfInt n).isSome = true
  settle : ∀ value, spec.lookup "settle_seconds" = some value → ∃ x, floatValue py value = .ok x
  seconds : ∀ row ∈ tunables, ∀ n, spec.lookup row.1 = some (.scalar (.int n)) → 0 ≤ n →
    (floatOfInt n).isSome = true
  restarts : spec.lookup "max_restarts" ≠ some (.scalar (.float .nan)) ∧
    spec.lookup "max_restarts" ≠ some (.scalar (.float (.inf false)))
  counts : ∀ key ∈ ["tail_lines", "status_tail_chars", "spool_max_bytes"],
    ∀ value, spec.lookup key = some value → ∃ n, intValue py value = .ok n

/-- What each conversion made of the entry. -/
structure BuiltSpec (py : Builtins) (name : String) (spec : List (String × ConfigValue)) (s : ExecutorSpec) : Prop where
  command : required name spec "command" = .ok s.command
  driver : required name spec "driver" = .ok s.driver
  args : listValue ((spec.lookup "args").getD (.array [])) = .ok s.args
  timeout : specTimeout py spec "env_cmd_timeout_seconds" 15 = .ok s.envCmdTimeoutSeconds
  settle : floatValue py ((spec.lookup "settle_seconds").getD (.scalar (.float (.finite false (3 / 2))))) =
    .ok s.settleSeconds
  seconds : List.Forall₂ (fun row x => specSeconds py spec row.1 row.2 = .ok x) tunables s.tunables
  restarts : specNum spec "max_restarts" 3 (intValue py) = .ok s.maxRestarts
  launcher : s.launcher = (spec.lookup "launcher").getD (.string "auto")

theorem built_of_buildTable {s : ExecutorSpec} (made : buildTable py name spec = .ok s) :
    BuiltSpec py name spec s := by
  simp only [buildTable, bind_eq_ok] at made
  obtain ⟨command, hasCommand, driver, hasDriver, args, listed, env, _, envCmd, _, timeout, timed, settle,
    settled, a, forA, b, forB, c, forC, d, forD, e, forE, f, forF, restarts, counted, g, forG, h, forH, i,
    forI, j, forJ, k, forK, l, forL, m, forM, _, _, _, _, _, _, same⟩ := made
  obtain rfl := Except.ok.inj same
  exact
    { command := hasCommand
      driver := hasDriver
      args := listed
      timeout := timed
      settle := settled
      seconds := .cons forA (.cons forB (.cons forC (.cons forD (.cons forE (.cons forF (.cons forG
        (.cons forH (.cons forI (.cons forJ (.cons forK (.cons forL (.cons forM .nil))))))))))))
      restarts := counted
      launcher := rfl }

theorem required_ok_iff {value : ConfigValue} : required name spec key = .ok value ↔ spec.lookup key = some value := by
  unfold required
  cases spec.lookup key with
  | none => exact iff_of_false nofun nofun
  | some held => exact ⟨fun same => congrArg some (Except.ok.inj same), fun same =>
      congrArg Except.ok (Option.some.inj same)⟩

theorem coerces_of_buildTable {s : ExecutorSpec} (made : buildTable py name spec = .ok s) :
    Coerces py spec := by
  simp only [buildTable, bind_eq_ok] at made
  obtain ⟨command, hasCommand, driver, hasDriver, args, listed, env, paired, envCmd, checked, timeout, timed,
    settle, settled, a, forA, b, forB, c, forC, d, forD, e, forE, f, forF, restarts, counted, g, forG, h,
    forH, i, forI, j, forJ, k, forK, l, forL, m, forM, tail, tailed, chars, limited, spool, spooled, -⟩ := made
  have seconds : ∀ row ∈ tunables, ∃ x, specSeconds py spec row.1 row.2 = .ok x := by
    simp only [tunables, List.forall_mem_cons, List.not_mem_nil, false_imp_iff, implies_true, and_true]
    exact ⟨⟨a, forA⟩, ⟨b, forB⟩, ⟨c, forC⟩, ⟨d, forD⟩, ⟨e, forE⟩, ⟨f, forF⟩, ⟨g, forG⟩, ⟨h, forH⟩,
      ⟨i, forI⟩, ⟨j, forJ⟩, ⟨k, forK⟩, ⟨l, forL⟩, ⟨m, forM⟩⟩
  have counts : ∀ {key : String} {default n : ℤ}, specInt py spec key default = .ok n →
      ∀ value, spec.lookup key = some value → ∃ n, intValue py value = .ok n := by
    intro key default n made value held
    rw [specInt, held] at made
    exact ⟨n, made⟩
  exact
    { command := Option.isSome_iff_exists.mpr ⟨_, required_ok_iff.mp hasCommand⟩
      driver := Option.isSome_iff_exists.mpr ⟨_, required_ok_iff.mp hasDriver⟩
      args := ⟨args, listed⟩
      env := ⟨env, paired⟩
      envCmd := buildEnvCmd_ok_iff.mp ⟨envCmd, checked⟩
      timeout := specTimeout_ok_iff.mp ⟨timeout, timed⟩
      settle := fun value held => ⟨settle, by rwa [held] at settled⟩
      seconds := fun row member => specSeconds_ok_iff.mp (seconds row member)
      restarts := specRestarts_ok_iff.mp ⟨restarts, counted⟩
      counts := by
        simp only [List.forall_mem_cons, List.not_mem_nil, false_imp_iff, implies_true, and_true]
        exact ⟨counts tailed, counts limited, counts spooled⟩ }

theorem buildTable_of_coerces (coerces : Coerces py spec) : ∃ s, buildTable py name spec = .ok s := by
  obtain ⟨command, hasCommand⟩ := Option.isSome_iff_exists.mp coerces.command
  obtain ⟨driver, hasDriver⟩ := Option.isSome_iff_exists.mp coerces.driver
  obtain ⟨args, listed⟩ := coerces.args
  obtain ⟨env, paired⟩ := coerces.env
  obtain ⟨envCmd, checked⟩ : ∃ vars, buildEnvCmd name spec = .ok vars :=
    buildEnvCmd_ok_iff.mpr coerces.envCmd
  obtain ⟨timeout, timed⟩ :
      ∃ x, specTimeout py spec "env_cmd_timeout_seconds" 15 = .ok x := specTimeout_ok_iff.mpr coerces.timeout
  obtain ⟨settle, settled⟩ :
      ∃ x, floatValue py ((spec.lookup "settle_seconds").getD (.scalar (.float (.finite false (3 / 2))))) = .ok x := by
    cases held : spec.lookup "settle_seconds" with
    | none => exact ⟨_, rfl⟩
    | some value => exact coerces.settle value held
  obtain ⟨restarts, counted⟩ := specRestarts_ok_iff.mpr coerces.restarts
  have seconds : ∀ row ∈ tunables, ∃ x, specSeconds py spec row.1 row.2 = .ok x := fun row member =>
    specSeconds_ok_iff.mpr (coerces.seconds row member)
  simp only [tunables, List.forall_mem_cons, List.not_mem_nil, false_imp_iff, implies_true, and_true] at seconds
  obtain ⟨⟨a, forA⟩, ⟨b, forB⟩, ⟨c, forC⟩, ⟨d, forD⟩, ⟨e, forE⟩, ⟨f, forF⟩, ⟨g, forG⟩, ⟨h, forH⟩,
    ⟨i, forI⟩, ⟨j, forJ⟩, ⟨k, forK⟩, ⟨l, forL⟩, ⟨m, forM⟩⟩ := seconds
  have counts : ∀ key ∈ ["tail_lines", "status_tail_chars", "spool_max_bytes"], ∀ default,
      ∃ n, specInt py spec key default = .ok n := by
    intro key member default
    unfold specInt
    cases held : spec.lookup key with
    | none => exact ⟨default, rfl⟩
    | some value => exact coerces.counts key member value held
  obtain ⟨tail, tailed⟩ := counts "tail_lines" (by simp) 400
  obtain ⟨chars, limited⟩ := counts "status_tail_chars" (by simp) 4000
  obtain ⟨spool, spooled⟩ := counts "spool_max_bytes" (by simp) 8388608
  simp only [buildTable, bind_eq_ok]
  exact ⟨_, command, required_ok_iff.mpr hasCommand, driver, required_ok_iff.mpr hasDriver, args, listed, env,
    paired, envCmd, checked, timeout, timed, settle, settled, a, forA, b, forB, c, forC, d, forD, e, forE, f,
    forF, restarts, counted, g, forG, h, forH, i, forI, j, forJ, k, forK, l, forL, m, forM, tail, tailed,
    chars, limited, spool, spooled, rfl⟩

/-- Which entries become a spec. -/
theorem buildSpec_ok_iff {value : ConfigValue} :
    (∃ s, buildSpec py name value = .ok s) ↔ ∃ spec, value = .table spec ∧ Coerces py spec := by
  constructor
  · rintro ⟨s, made⟩
    cases value with
    | table spec => exact ⟨spec, rfl, coerces_of_buildTable made⟩
    | scalar _ | string _ | array _ => cases made
  · rintro ⟨spec, rfl, coerces⟩
    exact buildTable_of_coerces coerces

end Specs

end Nelix.Daemon
