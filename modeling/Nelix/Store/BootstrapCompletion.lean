import Nelix.Store.BootstrapSafety

/-!
# Opening the database after an interruption

An open that nothing disturbs goes through, from whatever the others left of the file.

## Main results

`opens_resume`: openers of one build that fail or are killed, and wherever, make no difference to
what the next open of the build leaves; a file of another version is not written to.
-/
namespace Nelix.Store

open Contracts Core

variable {reader : StampReader} {i : ℕ} {d d' : Disk}

/-! ### An open that nothing disturbs -/

/-- The opener has the lock, no transaction is open, and the file is like this. -/
structure Alone (i : ℕ) (P : File → Prop) (d : Disk) : Prop where
  lock : d.lock = some i
  pending : d.pending = none
  file : P d.file

/-- The program goes through, from a file of one kind to one of another. -/
def Through (i : ℕ) (p : OpenProg Unit) (P Q : File → Prop) : Prop :=
  ∀ d, Alone i P d → ∃ d', p.run (answer i) d = (.ok (), d') ∧ Alone i Q d'

variable {F G H : File → Prop} {b : Build}

theorem Through.andThen {p : OpenProg Unit} {next : Unit → OpenProg Unit} (first : Through i p F G)
    (second : Through i (next ()) G H) : Through i (p >>= next) F H := by
  intro d start
  obtain ⟨d₁, ran, here⟩ := first d start
  obtain ⟨d₂, ran', there⟩ := second d₁ here
  exact ⟨d₂, by rw [Prog.run_bind, ran]; exact ran', there⟩

theorem Through.weaken {p : OpenProg Unit} (through : Through i p F G) (weaker : ∀ f, G f → H f) :
    Through i p F H := by
  intro d start
  obtain ⟨d', ran, there⟩ := through d start
  exact ⟨d', ran, there.lock, there.pending, weaker _ there.file⟩

theorem through_pure : Through i (pure ()) F F := fun d start => ⟨d, rfl, start⟩

theorem Alone.view {d : Disk} (alone : Alone i F d) : d.view i = d.file := by
  rw [Disk.view, Disk.own, alone.pending]
  rfl

/-- A call that only reads goes well, and the rest goes on from what it told. -/
theorem through_read {connected : Bool} {e : OpenCall} {next : e.Value → OpenProg Unit}
    (reads : ∀ d, Alone i F d → ∃ v, answer i e d = (.ok v, d) ∧ Through i (next v) (· = d.file) G) :
    Through i (call connected e >>= next) F G := by
  intro d start
  obtain ⟨v, answers, after⟩ := reads d start
  obtain ⟨d', ran, there⟩ := after d ⟨start.lock, start.pending, rfl⟩
  refine ⟨d', ?_, there⟩
  rw [call, Prog.perform_bind, Prog.run_perform, answers]
  exact ran

theorem through_write {connected : Bool} {e : OpenCall} {next : e.Value → OpenProg Unit}
    (v : e.Value) (change : File → File) (answers : ∀ d, answer i e d = written i e change v d)
    (makes : ∀ f, F f → G (change f)) (rest : Through i (next v) G H) :
    Through i (call connected e >>= next) F H := by
  intro d start
  have wrote : answer i e d = (.ok v, { d with file := change d.file }.touch i e) := by
    rw [answers, written, Disk.write, start.pending]
  obtain ⟨d', ran, there⟩ := rest ({ d with file := change d.file }.touch i e)
    ⟨start.lock, start.pending, makes _ start.file⟩
  refine ⟨d', ?_, there⟩
  rw [call, Prog.perform_bind, Prog.run_perform, wrote]
  exact ran

theorem through_quiet {connected : Bool} {e : OpenCall} {next : e.Value → OpenProg Unit}
    (v : e.Value) (answers : ∀ d, answer i e d = (.ok v, d)) (rest : Through i (next v) F G) :
    Through i (call connected e >>= next) F G :=
  through_read fun d alone => ⟨v, answers d, fun d' here =>
    rest d' ⟨here.lock, here.pending, here.file ▸ alone.file⟩⟩

/-- A file that the build may work on. -/
def Workable (b : Build) (f : File) : Prop := f.metaTable = f.stamp.map some ∧ Open b f

theorem useWal_through : Through i useWal (Workable b) (Workable b) := by
  have known : "wal".toLower = "wal" := by decide +kernel
  have other : ¬ "delete".toLower = "wal" := by decide +kernel
  refine through_read fun d alone => ?_
  have here : ∀ f, f = d.file → Workable b f := fun f same => same ▸ alone.file
  by_cases already : d.file.wal = true
  · refine ⟨"wal", by simp [answer, alone.view, already], ?_⟩
    simp only [if_pos known]
    exact fun d' alone' => ⟨d', rfl, alone'.lock, alone'.pending, here _ alone'.file⟩
  · refine ⟨"delete", by simp [answer, alone.view, already], ?_⟩
    simp only [if_neg other]
    refine through_write (G := Workable b) "wal" File.enableWal (fun d => rfl)
      (fun f same => here f same) ?_
    simp only [if_pos known]
    exact through_pure

theorem validate_through : Through i (validateVersion reader b b.mark) F F := by
  simp only [validateVersion, Build.mark, reader.reads, Int.lt_irrefl, if_false]
  exact through_pure

theorem refuse_through :
    Through i (refuseADisagreeingDatabase reader b) (Workable b) (Workable b) := by
  refine through_read fun d alone => ⟨d.file.metaTable.isSome, by simp only [answer, alone.view], ?_⟩
  obtain ⟨table, ours⟩ := alone.file
  rcases ours with unstamped | stamped
  · rw [table, unstamped]
    exact fun d' alone' =>
      ⟨d', rfl, alone'.lock, alone'.pending, alone'.file ▸ ⟨table, .inl unstamped⟩⟩
  · rw [table, stamped]
    refine through_read fun d' alone' => ⟨some b.mark, ?_, ?_⟩
    · simp only [answer, alone'.view, alone'.file, table, stamped, Option.map_some]
    · have workable : ∀ f, f = d'.file → Workable b f := fun f same =>
        same ▸ alone'.file ▸ ⟨table, .inr stamped⟩
      exact Through.weaken validate_through workable

/-- The file has the stamp of the build. -/
def Marked (b : Build) (f : File) : Prop := f.metaTable = some (some b.mark)

theorem run_call {connected : Bool} {e : OpenCall} {v : e.Value} {next : e.Value → OpenProg Unit}
    (answers : answer i e d = (.ok v, d')) :
    (call connected e >>= next).run (answer i) d = (next v).run (answer i) d' := by
  rw [call, Prog.perform_bind, Prog.run_perform, answers]
  rfl

theorem written_inside {e : OpenCall} {p : File} {α : Type} {a : α} (change : File → File)
    (mine : d.pending = some (i, p)) :
    written i e change a d = (.ok a, { d with pending := some (i, change p) }.touch i e) := by
  rw [written, Disk.write, mine]
  simp

theorem stamp_through : Through i (stampBeforeTheDdl b) (Workable b) (Marked b) := by
  intro d alone
  obtain ⟨table, ours⟩ := alone.file
  have marked : Marked b ((d.file.createMeta).insertStamp b.mark) := by
    rcases ours with unstamped | stamped
    · rw [Marked, File.insertStamp, File.createMeta, unstamped]
      rfl
    · rw [Marked, File.insertStamp, File.createMeta, stamped]
      rfl
  have began : answer i .beginImmediate d =
      (.ok (), { d with pending := some (i, d.file) }.touch i .beginImmediate) := by
    rw [answer, alone.pending]
  generalize opened : ({ d with pending := some (i, d.file) } : Disk).touch i .beginImmediate = d₁ at began
  have pending₁ : d₁.pending = some (i, d.file) := by rw [← opened]; rfl
  have created : answer i .createMeta d₁ = _ := written_inside File.createMeta pending₁
  generalize made : ({ d₁ with pending := some (i, d.file.createMeta) } : Disk).touch i .createMeta = d₂
    at created
  have pending₂ : d₂.pending = some (i, d.file.createMeta) := by rw [← made]; rfl
  have inserted : answer i (.insertStamp b.mark) d₂ = _ :=
    written_inside (File.insertStamp b.mark) pending₂
  generalize stamped : ({ d₂ with
      pending := some (i, d.file.createMeta.insertStamp b.mark) } : Disk).touch i
      (.insertStamp b.mark) = d₃ at inserted
  have pending₃ : d₃.own i = some (d.file.createMeta.insertStamp b.mark) := by
    rw [← stamped]
    exact Disk.own_eq_some.mpr rfl
  have committed : answer i .commit d₃ = (.ok (), { d₃ with
      file := d.file.createMeta.insertStamp b.mark, pending := none }.touch i .commit) := by
    rw [answer, pending₃]
  have wrote : (writeStamp b).run (answer i) d₁ = (.ok (), d₃) := by
    rw [writeStamp, run_call created, run_call inserted]
    rfl
  refine ⟨Disk.touch { d₃ with file := d.file.createMeta.insertStamp b.mark, pending := none } i
      .commit, ?_, ⟨?_, rfl, marked⟩⟩
  · rw [stampBeforeTheDdl, run_call began, Prog.run_bind, Prog.run_rescue, wrote]
    exact run_call committed
  · rw [← stamped, ← made, ← opened]
    exact alone.lock

theorem script_through (script : List Statement) :
    Through i (executeScript script) (Marked b) (Marked b) := by
  induction script with
  | nil => exact through_pure
  | cons s rest ih =>
    cases s with
    | pragma text => exact through_quiet () (fun _ => rfl) ih
    | object n df => exact through_write () (File.createObject n df) (fun _ => rfl) (fun _ => id) ih

theorem check_through : Through i (checkOrStampVersion reader b) (Marked b) (Marked b) := by
  have keeps : ∀ f, Marked b f → Marked b (f.insertStamp b.mark) := fun f marked => by
    rw [Marked, File.insertStamp, marked]
    rfl
  refine through_write () (File.insertStamp b.mark) (fun _ => rfl) keeps ?_
  refine through_read fun d alone => ⟨some b.mark, ?_, ?_⟩
  · have table : d.file.metaTable = some (some b.mark) := alone.file
    simp only [answer, alone.view, table]
  · exact Through.weaken validate_through fun f same => same ▸ alone.file

theorem bootstrap_through : Through i (bootstrap reader b) (Workable b) (Marked b) := by
  refine through_quiet () (fun _ => rfl) (through_quiet () (fun _ => rfl) ?_)
  refine useWal_through.andThen (through_quiet () (fun _ => rfl) (through_quiet () (fun _ => rfl) ?_))
  exact refuse_through.andThen (stamp_through.andThen
    ((script_through b.schema).andThen check_through))

theorem connect_completes (free : d.lock = none) (none : d.pending = none)
    (workable : Workable b d.file) :
    ∃ d', (connect reader b).run (answer i) d = (.ok (), d') ∧ Marked b d'.file := by
  have start : Alone i (Workable b) { d with lock := some i } := ⟨rfl, none, workable⟩
  have through : Through i (bootstrap reader b) (Workable b) (Marked b) := bootstrap_through
  obtain ⟨d₁, ran, marked⟩ := through _ start
  have prepared : answer i .prepareRoot d = (.ok (), d) := rfl
  have locks : answer i .lockFile d = (.ok (), { d with lock := some i }) := by rw [answer, if_pos free]
  have ensured : ((bootstrap reader b).ensure release).run (answer i) { d with lock := some i } =
      (.ok (), d₁.unlock i) := by
    rw [Prog.run_ensure, ran]
    rfl
  have opened : (openLocked reader b).run (answer i) d = (.ok (), d₁.unlock i) := by
    rw [openLocked, run_call prepared, run_call locks, ensured]
  refine ⟨d₁.unlock i, ?_, marked.file⟩
  rw [connect, Prog.run_rescue, opened]

/-! ### An open that the version gate refuses -/

/-- The version gate has raised, and the file is still this one. -/
structure Refused (i : ℕ) (f : File) (r : Except Thrown Unit) (d : Disk) : Prop where
  raised : ∃ x error, r = .error x ∧ x.fault = .version error
  alone : Alone i (· = f) d

/-- The program ends in the version gate. -/
def Stops (i : ℕ) (f : File) (p : OpenProg Unit) : Prop :=
  ∀ d, Alone i (· = f) d → Refused i f (p.run (answer i) d).1 (p.run (answer i) d).2

variable {f : File}

theorem Stops.after {p : OpenProg Unit} {next : Unit → OpenProg Unit}
    (first : Through i p (· = f) (· = f)) (second : Stops i f (next ())) : Stops i f (p >>= next) := by
  intro d start
  obtain ⟨d₁, ran, here⟩ := first d start
  rw [Prog.run_bind, ran]
  exact second d₁ here

theorem Stops.andThen {p : OpenProg Unit} {next : Unit → OpenProg Unit} (first : Stops i f p) :
    Stops i f (p >>= next) := by
  intro d start
  obtain ⟨⟨x, error, raised, gated⟩, alone⟩ := first d start
  rw [Prog.run_bind]
  generalize p.run (answer i) d = ran at raised alone ⊢
  obtain ⟨r, d'⟩ := ran
  cases raised
  exact ⟨⟨x, error, rfl, gated⟩, alone⟩

theorem stops_read {connected : Bool} {e : OpenCall} {next : e.Value → OpenProg Unit} (v : e.Value)
    (reads : ∀ d, Alone i (· = f) d → answer i e d = (.ok v, d)) (rest : Stops i f (next v)) :
    Stops i f (call connected e >>= next) := by
  intro d start
  rw [run_call (reads d start)]
  exact rest d start

theorem useWal_stays (wal : f.wal = true) : Through i useWal (· = f) (· = f) := by
  have known : "wal".toLower = "wal" := by decide +kernel
  refine through_read fun d alone => ⟨"wal", ?_, ?_⟩
  · simp [answer, alone.view, alone.file, wal]
  · simp only [if_pos known]
    exact Through.weaken through_pure fun f' same => same.trans alone.file

theorem stops_version {a b : Build} (other : a.version ≠ b.version) :
    Stops i f (validateVersion reader b a.mark) := by
  intro d alone
  simp only [validateVersion, Build.mark, reader.reads]
  by_cases newer : (b.version : ℤ) < a.version
  · rw [if_pos newer]
    exact ⟨⟨_, _, rfl, rfl⟩, alone⟩
  · have older : (a.version : ℤ) < b.version := by omega
    rw [if_neg newer, if_pos older]
    exact ⟨⟨_, _, rfl, rfl⟩, alone⟩

theorem refuse_stops {a : Build} (table : f.metaTable = some (some a.mark))
    (other : a.version ≠ b.version) : Stops i f (refuseADisagreeingDatabase reader b) := by
  refine stops_read true (fun d alone => ?_) ?_
  · rw [answer, alone.view, alone.file, table]
    rfl
  · refine stops_read (some a.mark) (fun d alone => ?_) (stops_version other)
    rw [answer, alone.view, alone.file, table]

theorem bootstrap_stops {a : Build} (wal : f.wal = true) (table : f.metaTable = some (some a.mark))
    (other : a.version ≠ b.version) : Stops i f (bootstrap reader b) := by
  refine stops_read () (fun _ _ => rfl) (stops_read () (fun _ _ => rfl) ?_)
  refine Stops.after (useWal_stays wal) ?_
  refine stops_read () (fun _ _ => rfl) (stops_read () (fun _ _ => rfl) ?_)
  exact (refuse_stops table other).andThen

theorem connect_refuses {a : Build} (free : d.lock = none) (none : d.pending = none)
    (wal : d.file.wal = true) (table : d.file.metaTable = some (some a.mark))
    (other : a.version ≠ b.version) :
    ∃ x error d', (connect reader b).run (answer i) d = (.error x, d') ∧
      x.fault = .version error ∧ d'.file = d.file := by
  have start : Alone i (· = d.file) { d with lock := some i } := ⟨rfl, none, rfl⟩
  have stops : Stops i d.file (bootstrap reader b) := bootstrap_stops wal table other
  obtain ⟨⟨x, error, raised, gated⟩, alone⟩ := stops _ start
  generalize ran : (bootstrap reader b).run (answer i) { d with lock := some i } = ended
    at raised alone
  obtain ⟨r, d₁⟩ := ended
  cases raised
  have prepared : answer i .prepareRoot d = (.ok (), d) := rfl
  have locks : answer i .lockFile d = (.ok (), { d with lock := some i }) := by rw [answer, if_pos free]
  have ensured : ((bootstrap reader b).ensure release).run (answer i) { d with lock := some i } =
      (.error x, d₁.unlock i) := by
    rw [Prog.run_ensure, ran]
    rfl
  have opened : (openLocked reader b).run (answer i) d = (.error x, d₁.unlock i) := by
    rw [openLocked, run_call prepared, run_call locks, ensured]
  by_cases closes : x.Closes
  · refine ⟨x, error, (d₁.unlock i).drop i, ?_, gated, alone.file⟩
    rw [connect, Prog.run_rescue, opened]
    show (abandon x).run (answer i) (d₁.unlock i) = _
    rw [abandon_closes closes]
    rfl
  · refine ⟨x, error, d₁.unlock i, ?_, gated, alone.file⟩
    rw [connect, Prog.run_rescue, opened]
    show (abandon x).run (answer i) (d₁.unlock i) = _
    rw [abandon_raises closes]
    rfl

/-! ### Among the others -/

theorem Acts.dead {e : OpenCall} {r : e.Answer} (acts : Acts i e d r d') : d'.dead = d.dead := by
  cases acts with
  | late _ _ _ writes | writes _ _ _ writes => exact writes.rest.2.1
  | _ => rfl

/-- Whoever has the lock or a transaction is alive. -/
structure Living (d : Disk) : Prop where
  lock : ∀ j, d.lock = some j → d.dead j = false
  pending : ∀ j f, d.pending = some (j, f) → d.dead j = false

theorem Living.acts {e : OpenCall} {r : e.Answer} (living : Living d) (acts : Acts i e d r d') :
    Living d' := by
  have alive := acts.alive
  have dead := acts.dead
  have wrote : ∀ {f : File → File} {d' : Disk}, Writes i f d d' → Living d' := by
    intro f d' writes
    cases writes with
    | inside mine =>
      refine ⟨living.lock, fun j g held => ?_⟩
      cases held
      exact alive
    | atOnce none => exact ⟨living.lock, living.pending⟩
  cases acts with
  | fails | quiet | journalMode | refusesWal | hasMeta | readStamp =>
    exact ⟨living.lock, living.pending⟩
  | aborts | rollback | close =>
    exact ⟨living.lock, fun j g held => living.pending j g (Disk.pending_of_drop held)⟩
  | late _ _ _ writes | writes _ _ _ writes => exact ⟨(wrote writes).lock, (wrote writes).pending⟩
  | lockFile _ free =>
    refine ⟨fun j held => ?_, living.pending⟩
    cases held
    exact alive
  | unlock =>
    refine ⟨fun j held => living.lock j ?_, living.pending⟩
    rw [Disk.unlock, Option.filter_eq_some_iff] at held
    exact held.1
  | beginImmediate =>
    refine ⟨living.lock, fun j g held => ?_⟩
    cases held
    exact alive
  | commit => exact ⟨living.lock, fun j g held => by cases held⟩

theorem Living.kill (living : Living d) (k : ℕ) : Living (d.kill k) := by
  have alive : ∀ j, j ≠ k → d.dead j = false → (d.kill k).dead j = false := fun j other before =>
    (Function.update_of_ne other ..).trans before
  constructor
  · intro j held
    simp only [Disk.kill, Disk.drop, Disk.unlock, Option.filter_eq_some_iff, bne_iff_ne] at held
    exact alive j held.2 (living.lock j held.1)
  · intro j f held
    simp only [Disk.kill, Disk.drop, Disk.unlock, Option.filter_eq_some_iff, bne_iff_ne] at held
    exact alive j held.2 (living.pending j f held.1)

variable {builds : ℕ → Build} {pool : Pool ℕ OpenCall OpenCall.Answer Thrown Unit Disk}

theorem living_reached (reached : (openCrew builds reader).Reaches {} pool) : Living pool.world := by
  induction reached with
  | refl =>
    constructor
    · intro j held
      cases held
    · intro j f held
      cases held
  | tail _ step ih =>
    cases step with
    | enter => exact ih
    | act _ acts => exact ih.acts acts
    | aside moves =>
      obtain ⟨k, rfl⟩ := moves
      exact ih.kill k

/-- An open that nothing disturbs is a run of the crew. -/
theorem run_steps (threads : ℕ → Option (OpenProg Unit)) {k : ℕ} (reader : StampReader)
    (builds : ℕ → Build) (alive : d.dead k = false) :
    ((connect reader (builds k)).run (answer k) d).2.dead = d.dead ∧
    Relation.ReflTransGen (openCrew builds reader).Step
      ⟨Function.update threads k (some (connect reader (builds k))), d⟩
      ⟨Function.update threads k (some (.done ((connect reader (builds k)).run (answer k) d).1)),
        ((connect reader (builds k)).run (answer k) d).2⟩ := by
  have living : ∀ d' : Disk, d'.dead = d.dead → d'.dead k = false := fun d' same => same ▸ alive
  exact Crew.steps_run (fun e d' same => answer_acts e (living d' same))
    (fun e d' same => (answer_acts e (living d' same)).dead.trans same) _ rfl

/-- No opener is under way. -/
def Rest (pool : Pool ℕ OpenCall OpenCall.Answer Thrown Unit Disk) : Prop :=
  ∀ j p, pool.threads j = some p → pool.world.dead j = true ∨ ∃ r, p = .done r

/-- Where no opener is under way, nobody has the lock or a transaction. -/
theorem rest_clear (reached : (openCrew builds reader).Reaches {} pool) (rest : Rest pool) :
    pool.world.lock = none ∧ pool.world.pending = none := by
  obtain ⟨-, safe, idle⟩ := openers_reached reader reached
  have living := living_reached reached
  have clear : ∀ j, pool.world.dead j = false →
      pool.world.lock ≠ some j ∧ pool.world.own j = none := by
    intro j alive
    cases here : pool.threads j with
    | none => exact (idle j here).2 alive
    | some p =>
      rcases rest j p here with dead | ⟨r, rfl⟩
      · rw [dead] at alive
        cases alive
      · exact Opened.clear ((safe j _ here) _ (.refl builds j _)) alive
  constructor
  · rw [Option.eq_none_iff_forall_ne_some]
    exact fun j held => (clear j (living.lock j held)).1 held
  · rw [Option.eq_none_iff_forall_ne_some]
    rintro ⟨j, f⟩ held
    exact Disk.own_eq_none.mp (clear j (living.pending j f held)).2 f held

/-! ### What a build makes of a file -/

/-- How the build defines an object. -/
def Build.definition (b : Build) (n : String) : Option String :=
  b.schema.findSome? fun
    | .object name df => if name = n then some df else none
    | .pragma _ => none

theorem Build.definition_of_mem {n df : String} (inside : .object n df ∈ b.schema) :
    b.definition n = some df := by
  have distinct := b.distinct
  rw [definition]
  generalize b.schema = schema at inside distinct ⊢
  induction schema with
  | nil => cases inside
  | cons s rest ih =>
    cases s with
    | pragma text => exact ih ((List.mem_cons.mp inside).resolve_left (by simp)) distinct
    | object name df' =>
      simp only [List.filterMap_cons, Statement.name, List.nodup_cons] at distinct
      rcases List.mem_cons.mp inside with same | later
      · cases same
        simp
      · have other : name ≠ n := by
          rintro rfl
          exact distinct.1 (List.mem_filterMap.mpr ⟨_, later, rfl⟩)
        simp only [List.findSome?_cons, if_neg other]
        exact ih later distinct.2

theorem Build.mem_of_definition {n df : String} (defines : b.definition n = some df) :
    .object n df ∈ b.schema := by
  obtain ⟨s, inside, is⟩ := List.exists_of_findSome?_eq_some defines
  cases s with
  | pragma text => cases is
  | object name df' =>
    simp only [Option.ite_none_right_eq_some, Option.some.injEq] at is
    obtain ⟨rfl, rfl⟩ := is
    exact inside

/-- The file with all that the build adds to it; what is there stays. -/
def Build.finish (b : Build) (f : File) : File where
  wal := true
  metaTable := some (some b.mark)
  objects n := (f.objects n).or (b.definition n)

theorem finish_createObject {n df : String} (inside : .object n df ∈ b.schema) (f : File) :
    b.finish (f.createObject n df) = b.finish f := by
  have same : ∀ m, ((f.createObject n df).objects m).or (b.definition m) =
      (f.objects m).or (b.definition m) := by
    intro m
    by_cases here : m = n
    · subst here
      rw [File.createObject_same, Build.definition_of_mem inside]
      cases f.objects m <;> rfl
    · rw [File.createObject_ne f df here]
  simp only [Build.finish, same]

/-- Where everything is there, nothing is added. -/
theorem Filled.finish (filled : Filled b f) (wal : f.wal = true)
    (table : f.metaTable = some (some b.mark)) : b.finish f = f := by
  have same : ∀ n, (f.objects n).or (b.definition n) = f.objects n := by
    intro n
    cases held : f.objects n with
    | some df => rfl
    | none =>
      cases defines : b.definition n with
      | none => rfl
      | some df =>
        obtain ⟨df', there⟩ := filled.2 n df (Build.mem_of_definition defines)
        rw [held] at there
        cases there
  simp only [Build.finish, same, ← wal, ← table]

/-- Unless another version has stamped the file, the build makes of it what it makes of `f`. -/
def Ours (b : Build) (f g : File) : Prop := Open b g → b.finish g = b.finish f

theorem Open.of_insertStamp {g : File} {v : String} (opens : Open b (g.insertStamp v)) :
    Open b g := by
  cases stamp : g.stamp with
  | none => exact .inl stamp
  | some w => rwa [File.insertStamp_stamped stamp] at opens

theorem Ours.effect {g : File} {e : OpenCall} {change : File → File} (ours : Ours b f g)
    (permitted : Permitted (builds i) i d e) (reader : StampReader)
    (mine : (builds i).version = b.version → builds i = b)
    (here : d.own i = none → g = d.file) (about : e.effect = some change) :
    Ours b f (change g) := by
  cases e with
  | enableWal | createMeta =>
    cases about
    exact ours
  | insertStamp value =>
    cases about
    exact fun opens => ours opens.of_insertStamp
  | createObject n df =>
    cases about
    obtain ⟨-, free, stamped, inside⟩ := permitted
    intro opens
    have marked : g.stamp = some (builds i).mark := (here free) ▸ stamped
    -- only a build of the file's own version defines objects in it
    have same : builds i = b := by
      rcases opens with unstamped | ours
      · cases marked.symm.trans unstamped
      · exact mine (mark_injective reader (Option.some.inj (marked.symm.trans ours)))
    exact (finish_createObject (same ▸ inside) g).trans (ours opens)
  | _ => cases about

/-- The same of the disk: of the file, and of a transaction that is open on it. -/
structure Settles (b : Build) (f : File) (d : Disk) : Prop where
  file : Ours b f d.file
  pending : ∀ j g, d.pending = some (j, g) → Ours b f g

theorem Settles.acts {e : OpenCall} {r : e.Answer} (settles : Settles b f d)
    (permitted : Permitted (builds i) i d e) (reader : StampReader)
    (mine : (builds i).version = b.version → builds i = b) (acts : Acts i e d r d') :
    Settles b f d' := by
  have wrote : ∀ {change : File → File} {d' : Disk}, e.effect = some change → Writes i change d d' →
      Settles b f d' := by
    intro change d' about writes
    cases writes with
    | inside held =>
      have own := Disk.own_eq_some.mpr held
      refine ⟨settles.file, fun j g now => ?_⟩
      cases now
      exact (settles.pending i _ held).effect permitted reader mine
        (fun absent => by cases own.symm.trans absent) about
    | atOnce none =>
      exact ⟨settles.file.effect permitted reader mine (fun _ => rfl) about, settles.pending⟩
  cases acts with
  | fails | quiet | journalMode | refusesWal | hasMeta | readStamp | lockFile | unlock =>
    exact ⟨settles.file, settles.pending⟩
  | aborts | rollback | close =>
    exact ⟨settles.file, fun j g held => settles.pending j g (Disk.pending_of_drop held)⟩
  | late _ _ about writes | writes _ _ about writes =>
    exact ⟨(wrote about writes).file, (wrote about writes).pending⟩
  | beginImmediate =>
    refine ⟨settles.file, fun j g held => ?_⟩
    cases held
    exact settles.file
  | commit _ _ mine => exact ⟨settles.pending i _ mine, fun j g held => by cases held⟩

variable {pool' : Pool ℕ OpenCall OpenCall.Answer Thrown Unit Disk}

/-- From a pool at rest on, the build's version has had no other build: unless another version has
stamped the file, what was written is what the build writes anyway. Those from before are where
they were. -/
theorem settles_since (reached : (openCrew builds reader).Reaches {} pool) (rest : Rest pool)
    (steps : Relation.ReflTransGen (openCrew builds reader).Step pool pool')
    (mine : ∀ i, pool.threads i = none → pool'.threads i ≠ none →
      (builds i).version = b.version → builds i = b) :
    Settles b pool.world.file pool'.world ∧ ∀ i, pool.threads i ≠ none →
      ∃ p, pool'.threads i = some p ∧ (pool'.world.dead i = true ∨ ∃ r, p = .done r) := by
  induction steps with
  | refl =>
    refine ⟨⟨fun _ => rfl, fun j g held => ?_⟩, fun i old => ?_⟩
    · rw [(rest_clear reached rest).2] at held
      cases held
    · obtain ⟨p, here⟩ := Option.ne_none_iff_exists'.mp old
      exact ⟨p, here, rest i p here⟩
  | tail before step ih =>
    have safe := (openers_reached reader (reached.trans before)).2.1
    cases step with
    | @enter threads w i p free enters =>
      have others : ∀ j, threads j ≠ none → j ≠ i := fun j there same => there (same ▸ free)
      obtain ⟨settles, stood⟩ := ih fun j new there =>
        mine j new ((Function.update_of_ne (others j there) ..).trans_ne there)
      refine ⟨settles, fun j old => ?_⟩
      obtain ⟨p, here, ended⟩ := stood j old
      have there : threads j ≠ none := fun absent => by cases here.symm.trans absent
      exact ⟨p, (Function.update_of_ne (others j there) ..).trans here, ended⟩
    | @act threads w w' i e next r here acts =>
      obtain ⟨settles, stood⟩ := ih fun j new there => mine j new <| by
        by_cases same : j = i
        · subst same
          exact fun absent => by simp at absent
        · exact (Function.update_of_ne same ..).trans_ne there
      -- whoever was there before has ended, so it is a new opener that acts
      have new : pool.threads i = none := by
        by_contra old
        obtain ⟨p, is, dead | ⟨r, rfl⟩⟩ := stood i old
        · rw [acts.alive] at dead
          cases dead
        · cases here.symm.trans is
      have permitted : Permitted (builds i) i w e :=
        ((safe i _ here) _ (.refl builds i _)).1 acts.alive
      refine ⟨settles.acts permitted reader (mine i new (by simp)) acts, fun j old => ?_⟩
      obtain ⟨p, is, ended⟩ := stood j old
      have other : j ≠ i := fun same => old (same ▸ new)
      exact ⟨p, (Function.update_of_ne other ..).trans is,
        ended.imp_left (congrFun acts.dead j).trans⟩
    | @aside threads w w' moves =>
      obtain ⟨k, rfl⟩ := moves
      obtain ⟨settles, stood⟩ := ih mine
      refine ⟨⟨settles.file, fun j g held => settles.pending j g (Disk.pending_of_drop held)⟩,
        fun j old => ?_⟩
      obtain ⟨p, is, ended⟩ := stood j old
      refine ⟨p, is, ended.imp_left fun dead => ?_⟩
      by_cases same : j = k
      · subst same
        exact Function.update_self ..
      · exact (Function.update_of_ne same ..).trans dead

/-- The next open that nothing disturbs finishes what is there. -/
theorem connect_finishes (reached : (openCrew builds reader).Reaches {} pool) (rest : Rest pool)
    {k : ℕ} (fresh : pool.threads k = none) (alive : pool.world.dead k = false)
    (opens : Open (builds k) pool.world.file) :
    ∃ d, (connect reader (builds k)).run (answer k) pool.world = (.ok (), d) ∧
      d.file = (builds k).finish pool.world.file ∧ d.lock = none ∧ d.pending = none := by
  have kept := (openers_reached reader reached).1
  obtain ⟨free, none⟩ := rest_clear reached rest
  have goes : ∃ d, (connect reader (builds k)).run (answer k) pool.world = (.ok (), d) ∧
      Marked (builds k) d.file := connect_completes free none ⟨kept.stamped, opens⟩
  obtain ⟨d, ran, marked⟩ := goes
  have entered : (openCrew builds reader).Step pool
      ⟨Function.update pool.threads k (some (connect reader (builds k))), pool.world⟩ :=
    .enter fresh rfl
  -- the open is a run of the crew, so what is known of every run is known of where it ends
  obtain ⟨dead, runs⟩ := run_steps pool.threads reader builds alive
  rw [ran] at dead runs
  have since := Relation.ReflTransGen.head entered runs
  have later := reached.trans since
  obtain ⟨kept', safe, -⟩ := openers_reached reader later
  have filled : Filled (builds k) d.file :=
    Opened.filled ((safe k _ (Function.update_self ..)) _ (.refl builds k _)) rfl
  obtain ⟨settles, -⟩ := settles_since reached rest since fun i new there => by
    by_cases same : i = k
    · exact fun _ => congrArg builds same
    · exact absurd ((Function.update_of_ne same ..).trans new) there
  have rest' : Rest ⟨Function.update pool.threads k (some (.done (.ok ()))), d⟩ := by
    intro j p here
    by_cases same : j = k
    · subst same
      have ended := (Function.update_self j _ pool.threads).symm.trans here
      exact .inr ⟨_, (Option.some.inj ended).symm⟩
    · have there := (Function.update_of_ne same _ pool.threads).symm.trans here
      exact (rest j p there).imp_left fun gone => (congrFun dead j).trans gone
  obtain ⟨unlocked, settled⟩ := rest_clear later rest'
  refine ⟨d, ran, ?_, unlocked, settled⟩
  rw [← settles.file (.inr filled.1), filled.finish (kept'.wal _ filled.1) marked]

/-- Whatever builds open the file, in whatever order, and wherever they fail or are killed: a file
of another version is not written to, and the schema runs only where the build's own stamp stands;
an open that the version gate refuses has run no statement that writes; openers that do not get to
their end make no difference to what the next open of a build leaves, unless another version has
stamped the file; and a file of another version is refused as it is. -/
theorem opens_resume (reader : StampReader) (builds : ℕ → Build)
    (pool : Pool ℕ OpenCall OpenCall.Answer Thrown Unit Disk)
    (reached : (openCrew builds reader).Reaches {} pool) :
    (∀ i e next, pool.threads i = some (.perform e next) → pool.world.dead i = false →
      (e.writing = true → Open (builds i) pool.world.file) ∧
      ∀ n df, e = .createObject n df → pool.world.file.stamp = some (builds i).mark) ∧
    (∀ i x error, pool.threads i = some (.done (.error x)) → x.fault = .version error →
      pool.world.wrote i = false) ∧
    (Rest pool → ∀ pool', Relation.ReflTransGen (openCrew builds reader).Step pool pool' →
      Rest pool' → ∀ k, pool'.threads k = none → pool'.world.dead k = false →
      (∀ i, pool.threads i = none → pool'.threads i ≠ none →
        (builds i).version = (builds k).version → builds i = builds k) →
      Open (builds k) pool'.world.file →
      ∃ d, (connect reader (builds k)).run (answer k) pool'.world = (.ok (), d) ∧
        d.file = (builds k).finish pool.world.file ∧ d.lock = none ∧ d.pending = none) ∧
    (Rest pool → ∀ k, ¬ Open (builds k) pool.world.file →
      ∃ x error d, (connect reader (builds k)).run (answer k) pool.world = (.error x, d) ∧
        x.fault = .version error ∧ d.file = pool.world.file) := by
  obtain ⟨kept, safe, -⟩ := openers_reached reader reached
  refine ⟨fun i e next here alive => ?_, fun i x error here gated => ?_,
    fun rest pool' steps rest' k fresh alive mine opens => ?_, fun rest k closed => ?_⟩
  · have permitted : Permitted (builds i) i pool.world e :=
      ((safe i _ here) _ (.refl builds i _)).1 alive
    refine ⟨fun writes => ?_, fun n df is => ?_⟩
    · cases e with
      | enableWal => exact .inl permitted.2.2
      | beginImmediate => exact permitted.2
      | createMeta => exact permitted.2.2
      | insertStamp => exact permitted.2.2.elim .inr fun unstamped => .inl unstamped.1
      | createObject => exact .inr permitted.2.2.1
      | commit => exact permitted.2.1
      | _ => cases writes
    · subst is
      exact permitted.2.2.1
  · exact Opened.refused ((safe i _ here) _ (.refl builds i _)) x error rfl gated
  · -- what was written in between is what the open would have written from the start
    have settles := (settles_since reached rest steps mine).1
    have finishes := connect_finishes (reached.trans steps) rest' fresh alive opens
    rwa [settles.file opens] at finishes
  · -- the stamp is some other build's, and the gate reads it before anything is written
    obtain ⟨free, none⟩ := rest_clear reached rest
    cases stamp : pool.world.file.stamp with
    | none => exact absurd (.inl stamp) closed
    | some v =>
      obtain ⟨j, rfl⟩ := kept.marked v stamp
      have other : (builds j).version ≠ (builds k).version := fun same =>
        closed (.inr (stamp.trans (congrArg (fun n => some (toString n)) same)))
      have table : pool.world.file.metaTable = some (some (builds j).mark) := by
        rw [kept.stamped, stamp]
        rfl
      exact connect_refuses free none (kept.wal _ stamp) table other

/-- An open that is killed between two objects is finished as if it had not been. -/
theorem opens_resume_interrupted :
    ∃ d, (connect sampleReader sampleBuild).run (answer 1) interrupted.world = (.ok (), d) ∧
      d.file = sampleBuild.finish {} := by
  have rest : Rest interrupted := by
    intro j p here
    by_cases first : j = 0
    · subst first
      exact .inl (by decide +kernel)
    · change Function.update (fun _ => none) 0 (some sampleStart.1) j = some p at here
      rw [Function.update_of_ne first] at here
      cases here
  have table : interrupted.world.file.metaTable = some (some sampleBuild.mark) := by decide +kernel
  have stamped : Open sampleBuild interrupted.world.file := .inr (by rw [File.stamp, table]; rfl)
  obtain ⟨d, ran, finished, -⟩ := (opens_resume sampleReader (fun _ => sampleBuild)
    ⟨fun _ => none, {}⟩ .refl).2.2.1 (fun _ _ absent => by cases absent) interrupted
    interrupted_reached rest 1 rfl (by decide +kernel) (fun _ _ _ _ => rfl) stamped
  exact ⟨d, ran, finished⟩

/-! An opener that is killed before it has stamped the file, which another version stamps then. -/

def newerBuild : Build := ⟨2, [], by decide⟩

def releases (i : ℕ) : Build := if i = 1 then newerBuild else sampleBuild

/-- The first opener, up to the commit of its stamp. -/
def unstamped : OpenProg Unit × Disk := (connect sampleReader sampleBuild).advance (answer 0) 12 {}

def newerRun : Except Thrown Unit × Disk :=
  (connect sampleReader newerBuild).run (answer 1) (unstamped.2.kill 0)

def overtaken : Pool ℕ OpenCall OpenCall.Answer Thrown Unit Disk :=
  ⟨Function.update (Function.update (fun _ => none) 0 (some unstamped.1)) 1
    (some (.done newerRun.1)), newerRun.2⟩

theorem overtaken_reached : (openCrew releases sampleReader).Reaches {} overtaken := by
  have killed : (openCrew releases sampleReader).Reaches {}
      ⟨Function.update (fun _ => none) 0 (some unstamped.1), unstamped.2.kill 0⟩ :=
    killed_reached (by decide +kernel)
  have second := killed.tail (.enter (i := 1) rfl rfl)
  exact second.trans (run_steps _ sampleReader releases (by decide +kernel)).2

/-- The next open of the build that was interrupted is refused. -/
theorem interrupted_overtaken :
    (openCrew releases sampleReader).Reaches {} overtaken ∧
    unstamped.2.pending.isSome = true ∧ overtaken.world.dead 0 = true ∧
    overtaken.world.file.stamp = some newerBuild.mark ∧ releases 2 = releases 0 ∧ overtaken.threads 2 = none ∧
    ∃ x error d, (connect sampleReader (releases 2)).run (answer 2) overtaken.world =
      (.error x, d) ∧ x.fault = .version error := by
  have table : overtaken.world.file.metaTable = some (some newerBuild.mark) := by decide +kernel
  have free : overtaken.world.lock = none := by decide +kernel
  have none : overtaken.world.pending.isNone = true := by decide +kernel
  have wal : overtaken.world.file.wal = true := by decide +kernel
  have refuses : ∃ x error d, (connect sampleReader (releases 2)).run (answer 2) overtaken.world =
      (.error x, d) ∧ x.fault = .version error ∧ d.file = overtaken.world.file :=
    connect_refuses free (Option.isNone_iff_eq_none.mp none) wal table (by decide)
  obtain ⟨x, error, d, ran, gated, -⟩ := refuses
  exact ⟨overtaken_reached, by decide +kernel, by decide +kernel, by rw [File.stamp, table]; rfl,
    rfl, rfl, x, error, d, ran, gated⟩

end Nelix.Store
