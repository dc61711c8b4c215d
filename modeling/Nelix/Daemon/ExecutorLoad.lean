import Nelix.Core.Traverse
import Nelix.Daemon.ExecutorConfig

/-!
# Loading the executors

What the loader promises: it returns whatever is in the file, each entry is a spec or an error, and a spec
has the types that it should have.

## Main results

`wellTyped_iff`: which entries become a spec with the right types.

`executors_load_well_iff`: the loader keeps its promises for exactly these files.
-/
namespace Nelix.Daemon
open Core

/-! ### What is promised -/

/-- A real number. Whether what is infinite is one is left to the reader. -/
def PyFloat.IsReal (unbounded : Bool) : PyFloat → Prop
  | .finite _ _ => True
  | .inf _ => unbounded = true
  | .nan => False

/-- The spec has the types that it should have, and its strings are those of the entry. -/
structure WellTyped (unbounded : Bool) (spec : List (String × ConfigValue)) (s : ExecutorSpec) : Prop where
  command : ∃ text, spec.lookup "command" = some (.string text) ∧ s.command = .string text
  driver : ∃ text, spec.lookup "driver" = some (.string text) ∧ s.driver = .string text
  launcher : ∃ text, (spec.lookup "launcher").getD (.string "auto") = .string text ∧
    s.launcher = .string text
  args : ∃ texts : List String, (spec.lookup "args").getD (.array []) = .array (texts.map .string) ∧
    s.args = texts.map .string
  timeout : s.envCmdTimeoutSeconds.isTimeout = true
  settle : s.settleSeconds.IsReal unbounded
  tunables : ∀ x ∈ s.tunables, x.IsReal unbounded ∧ x.isBelow = false
  restarts : 0 ≤ s.maxRestarts

/-- The entry has texts where texts belong, and no seconds that are no number. -/
structure TypedEntry (py : Builtins) (unbounded : Bool) (spec : List (String × ConfigValue)) : Prop where
  command : ∃ text, spec.lookup "command" = some (.string text)
  driver : ∃ text, spec.lookup "driver" = some (.string text)
  launcher : ∀ value, spec.lookup "launcher" = some value → ∃ text, value = .string text
  args : ∀ value, spec.lookup "args" = some value →
    ∃ texts : List String, value = .array (texts.map .string)
  settle : ∀ value x, spec.lookup "settle_seconds" = some value → floatValue py value = .ok x →
    x.IsReal unbounded
  tunables : ∀ row ∈ tunables, ∀ x, spec.lookup row.1 = some (.scalar (.float x)) → x.isBelow = false →
    x.IsReal unbounded

section Typed
variable {py : Builtins} {name key : String} {spec : List (String × ConfigValue)} {unbounded : Bool} {x : PyFloat}
  {default : ℚ}

theorem isTimeout_default (positive : 0 < default) :
    (PyFloat.finite false default).isTimeout = true := by
  simpa [PyFloat.isTimeout, PyFloat.value?] using positive

theorem isTimeout_of_specTimeout (positive : 0 < default)
    (made : specTimeout py spec key default = .ok x) : x.isTimeout = true := by
  have checked : ∀ value, (do
      let y ← floatValue py value
      pure (if y.isTimeout then y else .finite false default)) = Except.ok x → x.isTimeout = true := by
    intro value made
    obtain ⟨y, -, same⟩ := bind_eq_ok.mp made
    obtain rfl := Except.ok.inj same
    split_ifs with timeout
    · exact timeout
    · exact isTimeout_default positive
  unfold specTimeout at made
  cases held : spec.lookup key with
  | none =>
    simp only [held] at made
    obtain rfl := Except.ok.inj made
    exact isTimeout_default positive
  | some value =>
    simp only [held] at made
    rcases value with (n | y | _ | _) | _ | _ | _
    · exact checked _ made
    · exact checked _ made
    all_goals
      obtain rfl := Except.ok.inj made
      exact isTimeout_default positive

/-- A tunable is a number that is not below 0, unless the entry has one that is none. -/
theorem specSeconds_real_iff (floor : 0 ≤ default) (made : specSeconds py spec key default = .ok x) :
    (x.IsReal unbounded ∧ x.isBelow = false) ↔
      ∀ y, spec.lookup key = some (.scalar (.float y)) → y.isBelow = false → y.IsReal unbounded := by
  have fallback : (PyFloat.finite false default).IsReal unbounded ∧
      (PyFloat.finite false default).isBelow = false :=
    ⟨trivial, decide_eq_false (not_lt.mpr floor)⟩
  unfold specSeconds specNum at made
  cases held : spec.lookup key with
  | none =>
    simp only [held] at made
    obtain rfl := Except.ok.inj made
    exact iff_of_true fallback nofun
  | some value =>
    simp only [held] at made
    by_cases tunable : isTunable value = true
    · rw [if_pos tunable] at made
      obtain ⟨n, rfl, least⟩ | ⟨y, rfl, above⟩ := tunable_cases tunable
      · obtain ⟨size, positive, rfl⟩ := floatOfInt_finite (floatValue_int made)
        have sign : decide (n < 0) = false := decide_eq_false (not_lt.mpr least)
        refine iff_of_true ⟨trivial, ?_⟩ nofun
        rw [sign]
        exact decide_eq_false (not_lt.mpr positive)
      · obtain rfl : y = x := Except.ok.inj made
        constructor
        · rintro ⟨real, -⟩ _ ⟨⟩ -
          exact real
        · intro all
          exact ⟨all y rfl above, above⟩
    · rw [if_neg tunable] at made
      obtain rfl := Except.ok.inj made
      refine iff_of_true fallback ?_
      rintro y ⟨⟩ above
      exact absurd (by rw [isTunable, above]; rfl) tunable

/-- The restarts are counted from 0 on. -/
theorem specRestarts_nonneg {n : ℤ} (made : specNum spec key 3 (intValue py) = .ok n) : 0 ≤ n := by
  unfold specNum at made
  cases held : spec.lookup key with
  | none =>
    simp only [held] at made
    obtain rfl := Except.ok.inj made
    decide
  | some value =>
    simp only [held] at made
    by_cases tunable : isTunable value = true
    · rw [if_pos tunable] at made
      obtain ⟨m, rfl, least⟩ | ⟨y, rfl, above⟩ := tunable_cases tunable
      · obtain rfl : m = n := Except.ok.inj made
        exact least
      · cases y with
        | finite negative size =>
          obtain rfl := Except.ok.inj made
          have least : 0 ≤ (if negative then -size else size) := not_lt.mp (of_decide_eq_false above)
          exact Int.tdiv_nonneg (Rat.num_nonneg.mpr least) (Int.natCast_nonneg _)
        | inf _ | nan => cases made
    · rw [if_neg tunable] at made
      obtain rfl := Except.ok.inj made
      decide

/-- What a list makes of an array are its items. -/
theorem args_iff {given : Option ConfigValue} {items : List ConfigValue}
    (listed : listValue (given.getD (.array [])) = .ok items) :
    (∃ texts : List String, given.getD (.array []) = .array (texts.map .string) ∧
        items = texts.map .string) ↔
      ∀ value, given = some value → ∃ texts : List String, value = .array (texts.map .string) := by
  cases given with
  | none =>
    obtain rfl : [] = items := Except.ok.inj listed
    exact iff_of_true ⟨[], rfl, rfl⟩ nofun
  | some value =>
    constructor
    · rintro ⟨texts, same, -⟩ _ ⟨⟩
      exact ⟨texts, same⟩
    · intro all
      obtain ⟨texts, rfl⟩ := all value rfl
      exact ⟨texts, rfl, (Except.ok.inj listed).symm⟩

/-- A text that is passed on is a text where the entry has one. -/
theorem passed_iff {given : Option ConfigValue} {made : ConfigValue} (passed : given = some made) :
    (∃ text, given = some (.string text) ∧ made = .string text) ↔ ∃ text, given = some (.string text) := by
  constructor
  · rintro ⟨text, same, -⟩
    exact ⟨text, same⟩
  · rintro ⟨text, same⟩
    exact ⟨text, same, Option.some.inj (passed.symm.trans same)⟩

/-- Which specs are as they should be. -/
theorem wellTyped_iff {s : ExecutorSpec} (made : buildTable py name spec = .ok s) :
    WellTyped unbounded spec s ↔ TypedEntry py unbounded spec := by
  have built := built_of_buildTable made
  have command := passed_iff (required_ok_iff.mp built.command)
  have driver := passed_iff (required_ok_iff.mp built.driver)
  have args := args_iff built.args
  have floors : ∀ row ∈ tunables, 0 ≤ row.2 := by decide +kernel
  have beside := beside built.seconds
  constructor
  · intro well
    refine
      { command := command.mp well.command
        driver := driver.mp well.driver
        launcher := ?_
        args := args.mp well.args
        settle := ?_
        tunables := ?_ }
    · intro value held
      obtain ⟨text, same, -⟩ := well.launcher
      rw [held] at same
      exact ⟨text, same⟩
    · intro value x held coerced
      have settled := built.settle
      rw [held] at settled
      obtain rfl : s.settleSeconds = x := Except.ok.inj (settled.symm.trans coerced)
      exact well.settle
    · intro row member
      obtain ⟨x, among, made⟩ := beside.1 row member
      exact (specSeconds_real_iff (floors row member) made).mp (well.tunables x among)
  · intro typed
    refine
      { command := command.mpr typed.command
        driver := driver.mpr typed.driver
        launcher := ?_
        args := args.mpr typed.args
        timeout := isTimeout_of_specTimeout (by decide +kernel) built.timeout
        settle := ?_
        tunables := ?_
        restarts := specRestarts_nonneg built.restarts }
    · rw [built.launcher]
      cases held : spec.lookup "launcher" with
      | none => exact ⟨"auto", rfl, rfl⟩
      | some value =>
        obtain ⟨text, rfl⟩ := typed.launcher value held
        exact ⟨text, rfl, rfl⟩
    · have settled := built.settle
      cases held : spec.lookup "settle_seconds" with
      | none =>
        rw [held] at settled
        rw [← Except.ok.inj settled]
        trivial
      | some value =>
        rw [held] at settled
        exact typed.settle value _ held settled
    · intro x among
      obtain ⟨row, member, made⟩ := beside.2 x among
      exact (specSeconds_real_iff (floors row member) made).mpr (typed.tunables row member)

end Typed

/-! ### What is loaded -/

section Loaded
variable {toml : Tomllib} {py : Builtins} {path : String} {bytes : List UInt8} {load : ExecutorLoad}
  {execs : List (String × ConfigValue)}

/-- The executors of a text. -/
def executorsOf (toml : Tomllib) (text : String) : List (String × ConfigValue) :=
  match toml.loads text with
  | .error _ => []
  | .ok data =>
    match (data.lookup "executors").getD (.table []) with
    | .table execs => execs
    | _ => []

/-- The executors of a file. -/
def executorsIn (toml : Tomllib) (bytes : List UInt8) : List (String × ConfigValue) :=
  (decodeStrict bytes).elim [] (executorsOf toml)

/-- The entries that become a spec. -/
def accepted (py : Builtins) (execs : List (String × ConfigValue)) : List (String × ExecutorSpec) :=
  execs.filterMap fun entry => (buildSpec py entry.1 entry.2).toOption.map (entry.1, ·)

/-- The entries that do not, with what is said about them. -/
def refused (py : Builtins) (execs : List (String × ConfigValue)) : List (String × String) :=
  execs.filterMap fun entry =>
    match buildSpec py entry.1 entry.2 with
    | .ok _ => none
    | .error fault => some (entry.1, fault.text py)

theorem mem_accepted {name : String} {s : ExecutorSpec} :
    (name, s) ∈ accepted py execs ↔ ∃ value, (name, value) ∈ execs ∧ buildSpec py name value = .ok s := by
  rw [accepted, List.mem_filterMap]
  constructor
  · rintro ⟨⟨name', value⟩, among, made⟩
    obtain ⟨s', built, same⟩ := Option.map_eq_some_iff.mp made
    obtain ⟨rfl, rfl⟩ := Prod.mk.inj same
    cases found : buildSpec py name' value with
    | ok s =>
      rw [found] at built
      obtain rfl := Option.some.inj built
      exact ⟨value, among, found⟩
    | error fault =>
      rw [found] at built
      cases built
  · rintro ⟨value, among, made⟩
    exact ⟨(name, value), among, by rw [made]; rfl⟩

/-- Each name of an entry is in one of both, once. -/
theorem names_perm (py : Builtins) (execs : List (String × ConfigValue)) :
    ((accepted py execs).map Prod.fst ++ (refused py execs).map Prod.fst).Perm (execs.map Prod.fst) := by
  induction execs with
  | nil => exact .nil
  | cons entry rest ih =>
    obtain ⟨name, value⟩ := entry
    cases made : buildSpec py name value with
    | ok s =>
      have taken : accepted py ((name, value) :: rest) = (name, s) :: accepted py rest :=
        List.filterMap_cons_some (by rw [made]; rfl)
      have left : refused py ((name, value) :: rest) = refused py rest :=
        List.filterMap_cons_none (by rw [made])
      rw [taken, left]
      exact ih.cons name
    | error fault =>
      have left : accepted py ((name, value) :: rest) = accepted py rest :=
        List.filterMap_cons_none (by rw [made]; rfl)
      have taken : refused py ((name, value) :: rest) = (name, fault.text py) :: refused py rest :=
        List.filterMap_cons_some (by rw [made])
      rw [taken, left]
      exact List.perm_middle.trans (ih.cons name)

/-- What the loop makes of the rest of the entries. -/
theorem foldl_addEntry (execs : List (String × ConfigValue)) (load : ExecutorLoad) :
    execs.foldl (addEntry py) load =
      { load with
        specs := load.specs.setAll (accepted py execs)
        executorErrors := load.executorErrors ++ refused py execs } := by
  induction execs generalizing load with
  | nil => simp [accepted, refused, Dict.setAll]
  | cons entry rest ih =>
    rw [List.foldl_cons, ih, addEntry]
    cases made : buildSpec py entry.1 entry.2 with
    | ok s => simp [accepted, refused, made, Dict.setAll, Except.toOption]
    | error fault => simp [accepted, refused, made, Dict.setAll, Except.toOption]

theorem nodup_executorsOf (toml : Tomllib) (text : String) :
    ((executorsOf toml text).map Prod.fst).Nodup := by
  unfold executorsOf
  cases parsed : toml.loads text with
  | error shown => exact List.nodup_nil
  | ok data =>
    have distinct : Toml.AreDistinct data := toml.distinct parsed
    dsimp only
    cases found : data.lookup "executors" with
    | none => exact List.nodup_nil
    | some value =>
      cases value with
      | table execs => exact (Toml.areDistinct_iff.mp (Toml.distinct_lookup distinct found)).1
      | scalar _ | string _ | array _ => exact List.nodup_nil

/-- The loop over the entries leaves the accepted ones and the refused ones. -/
theorem loadText_rows (toml : Tomllib) (py : Builtins) (path text : String) :
    (loadText toml py path text).specs.rows = accepted py (executorsOf toml text) ∧
      (loadText toml py path text).executorErrors = refused py (executorsOf toml text) := by
  have nodup := nodup_executorsOf toml text
  unfold loadText
  unfold executorsOf at nodup ⊢
  cases parsed : toml.loads text with
  | error shown => exact ⟨rfl, rfl⟩
  | ok data =>
    simp only [parsed] at nodup ⊢
    cases held : (data.lookup "executors").getD (.table []) with
    | table execs =>
      simp only [held] at nodup ⊢
      have once := (names_perm py execs).nodup_iff.mpr nodup
      rw [foldl_addEntry]
      exact ⟨Dict.rows_ofFields (List.Nodup.of_append_left once), List.nil_append _⟩
    | scalar _ | string _ | array _ => exact ⟨rfl, rfl⟩

/-- What is loaded under a name is the spec of the entry with this name. -/
theorem get?_loadText (toml : Tomllib) (py : Builtins) (path text name : String) :
    (loadText toml py path text).specs.get? name =
      ((executorsOf toml text).lookup name).bind fun value => (buildSpec py name value).toOption := by
  obtain ⟨rows, -⟩ := loadText_rows toml py path text
  have nodup := nodup_executorsOf toml text
  have loaded : ∀ s, (loadText toml py path text).specs.get? name = some s ↔
      ∃ value, (name, value) ∈ executorsOf toml text ∧ buildSpec py name value = .ok s := by
    intro s
    have among : (name, s) ∈ accepted py (executorsOf toml text) ↔ _ := mem_accepted
    rw [← among, ← rows]
    refine ⟨fun held => ?_, Dict.get?_of_mem⟩
    obtain ⟨row, there, rfl⟩ := Option.map_eq_some_iff.mp held
    obtain rfl := Table.key_of_find? there
    exact Table.mem_of_find? there
  have found : ∀ value, (executorsOf toml text).lookup name = some value ↔ (name, value) ∈ executorsOf toml text := by
    intro value
    refine ⟨Toml.mem_of_lookup, fun member => ?_⟩
    cases held : (executorsOf toml text).lookup name with
    | none => exact absurd (List.mem_map_of_mem member) (Toml.lookup_eq_none.mp held)
    | some other =>
      have same := List.inj_on_of_nodup_map nodup (Toml.mem_of_lookup held) member rfl
      exact congrArg some (congrArg Prod.snd same)
  ext s
  rw [loaded, Option.bind_eq_some_iff]
  refine exists_congr fun value => ?_
  rw [found]
  refine and_congr_right fun _ => ?_
  cases buildSpec py name value with
  | ok made => simp [Except.toOption]
  | error fault => simp [Except.toOption]

/-- The loader returns, each entry is a spec or an error, and the specs have their types. -/
def LoadsWell (toml : Tomllib) (py : Builtins) (unbounded : Bool) (path : String) (bytes : List UInt8) : Prop :=
  ∃ load, loadExecutors toml py path (.content bytes) = .ok load ∧
    (load.specs.rows.map Prod.fst ++ load.executorErrors.map Prod.fst).Nodup ∧
    (∀ name, name ∈ load.specs.rows.map Prod.fst ++ load.executorErrors.map Prod.fst ↔
      name ∈ (executorsIn toml bytes).map Prod.fst) ∧
    ∀ name s, (name, s) ∈ load.specs.rows →
      ∃ spec, (name, .table spec) ∈ executorsIn toml bytes ∧ WellTyped unbounded spec s

/-- The loader keeps its promises for the files in UTF-8 of which each entry is typed or refused. -/
theorem executors_load_well_iff (toml : Tomllib) (py : Builtins) (unbounded : Bool) (path : String)
    (bytes : List UInt8) :
    LoadsWell toml py unbounded path bytes ↔
      (decodeStrict bytes).isSome = true ∧
        ∀ name spec, (name, .table spec) ∈ executorsIn toml bytes → Coerces py spec →
          TypedEntry py unbounded spec := by
  unfold LoadsWell loadExecutors executorsIn
  cases decoded : decodeStrict bytes with
  | none =>
    refine iff_of_false ?_ nofun
    rintro ⟨load, returned, -⟩
    simp only [decoded] at returned
    cases returned
  | some text =>
    simp only [decoded, Option.elim, Except.ok.injEq, exists_eq_left', Option.isSome_some, true_and]
    have nodup := nodup_executorsOf toml text
    obtain ⟨specs, errors⟩ := loadText_rows toml py path text
    have names := names_perm py (executorsOf toml text)
    rw [specs, errors]
    constructor
    · rintro ⟨-, -, well⟩ name spec among coerces
      obtain ⟨s, made⟩ : ∃ s, buildTable py name spec = .ok s := buildTable_of_coerces coerces
      obtain ⟨spec', among', typed⟩ := well name s (mem_accepted.mpr ⟨_, among, made⟩)
      have same := List.inj_on_of_nodup_map nodup among' among rfl
      obtain rfl := Toml.table.inj (congrArg Prod.snd same)
      exact (wellTyped_iff made).mp typed
    · intro typed
      refine ⟨names.nodup_iff.mpr nodup, fun name => names.mem_iff, fun name s member => ?_⟩
      obtain ⟨value, among, made⟩ := mem_accepted.mp member
      obtain ⟨spec, rfl, coerces⟩ := buildSpec_ok_iff.mp ⟨s, made⟩
      exact ⟨spec, among, (wellTyped_iff made).mpr (typed name spec among coerces)⟩

/-- An entry with a budget that is no number. -/
def nanEntry : List (String × ConfigValue) :=
  [("command", .string "c"), ("driver", .string "d"), ("live_budget", .scalar (.float .nan))]

def nanText : String := "[executors.a]\ncommand = 'c'\ndriver = 'd'\nlive_budget = nan\n"

/-- tomllib, as far as this text is concerned. -/
def nanReader : Tomllib where
  loads text :=
    if text = nanText then .ok [("executors", .table [("a", .table nanEntry)])] else .error "Invalid statement"
  distinct := by
    intro text data parsed
    split_ifs at parsed with known
    obtain rfl := Except.ok.inj parsed
    refine .table (by decide) (List.forall_mem_singleton.mpr ?_)
    refine .table (by decide) (List.forall_mem_singleton.mpr ?_)
    refine .table (by decide) ?_
    simp only [nanEntry, List.forall_mem_cons, List.not_mem_nil, false_imp_iff, implies_true, and_true]
    exact ⟨.string _, .string _, .scalar _⟩

def plainBuiltins : Builtins where
  floatOfText _ := none
  intOfText _ := none
  complaint _ _ := "refused"
  sameMoment a b := a = b

/-- A byte that is no UTF-8 leaves the loader as an exception, and a budget that is no number is accepted. -/
theorem executors_load_ill :
    loadExecutors nanReader plainBuiltins "nelix.toml" (.content [0xff]) = .error .unicodeDecodeError ∧
      ¬ LoadsWell nanReader plainBuiltins true "nelix.toml" [0xff] ∧
      ¬ LoadsWell nanReader plainBuiltins true "nelix.toml" (nanText.toList.map fun c => UInt8.ofNat c.toNat) := by
  have undecoded : decodeStrict [0xff] = none := by decide
  have decoded : decodeStrict (nanText.toList.map fun c => UInt8.ofNat c.toNat) = some nanText := by
    decide +kernel
  refine ⟨rfl, ?_, ?_⟩
  · rintro ⟨load, returned, -⟩
    cases returned
  · rintro ⟨load, returned, -, -, well⟩
    have member : executorsIn nanReader (nanText.toList.map fun c => UInt8.ofNat c.toNat) =
        [("a", .table nanEntry)] := by
      rw [executorsIn, decoded]
      rfl
    simp only [loadExecutors, decoded] at returned
    obtain rfl := Except.ok.inj returned
    obtain ⟨specs, -⟩ := loadText_rows nanReader plainBuiltins "nelix.toml" nanText
    have executors : executorsOf nanReader nanText = [("a", .table nanEntry)] := rfl
    rw [specs, executors, member] at well
    obtain ⟨s, made, budget⟩ : ∃ s, buildSpec plainBuiltins "a" (.table nanEntry) = .ok s ∧
        s.liveBudget = .nan := ⟨_, rfl, rfl⟩
    obtain ⟨spec, -, typed⟩ := well "a" s (mem_accepted.mpr ⟨_, List.mem_cons_self, made⟩)
    have real := (typed.tunables s.liveBudget (by simp [ExecutorSpec.tunables])).1
    rw [budget] at real
    exact real

end Loaded

end Nelix.Daemon
