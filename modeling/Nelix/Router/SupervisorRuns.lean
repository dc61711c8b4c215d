import Nelix.Router.GenerationSupervisor

/-!
# What a supervisor may do

On every run of `reap_holder` and `ensure_running`, whatever the system answers and wherever it
raises: who is sent a signal, when a daemon is spawned, and what is known of the endpoint that is
handed out.

## Main results

`ensureRunning_sound`: signals go only to a process that was seen to hold the lock and to the daemon
spawned here, a daemon is spawned at most once and only where no live process was seen to hold the
lock, and an endpoint that is returned has answered for what is expected of it.

`reapHolder_sound`: `True` is proof of death.
-/
namespace Nelix.Router

open Contracts Core

namespace GenerationSupervisor

/-- What a supervisor has done so far, with the answers. -/
abbrev Log : Type := List (Prog.Event SupervisorEffect SupervisorEffect.Answer)

/-- The effect has come to this. -/
def did (e : SupervisorEffect) (a : e.Value) : Prog.Event SupervisorEffect SupervisorEffect.Answer :=
  ⟨e, .ok a⟩

/-- The effect has raised this. -/
def raised (e : SupervisorEffect) (x : SupervisorFault) :
    Prog.Event SupervisorEffect SupervisorEffect.Answer := ⟨e, .error x⟩

/-- The system knows of no such process. -/
def foundDead (pid : ℤ) : Prog.Event SupervisorEffect SupervisorEffect.Answer :=
  raised (.probe pid) (.process .processLookupError)

/-- A look that finds a live process that holds the lock. -/
def holderLook (pid : ℤ) (holder : LockMeta) : Log :=
  [did .readHolder (some holder), did (.isAlive pid) true,
    did (.startFingerprint pid) holder.startFingerprint]

/-- A look that finds none. -/
inductive EmptyLook : Log → Prop
  | unnamed {found : Option LockMeta} (nobody : found.bind (truePid ·.pid) = none) :
      EmptyLook [did .readHolder found]
  | dead {holder : LockMeta} {pid : ℤ} (named : truePid holder.pid = some pid) :
      EmptyLook [did .readHolder (some holder), did (.isAlive pid) false]
  | other {holder : LockMeta} {pid : ℤ} {shown : Option String} (named : truePid holder.pid = some pid)
      (differs : shown ≠ holder.startFingerprint) :
      EmptyLook [did .readHolder (some holder), did (.isAlive pid) true,
        did (.startFingerprint pid) shown]

/-- The process was seen to hold the lock, with this fingerprint. -/
def Seen (incarnation : Incarnation) (log : Log) : Prop :=
  ∃ holder, truePid holder.pid = some incarnation.pid ∧
    holder.startFingerprint = incarnation.startFingerprint ∧
    holderLook incarnation.pid holder <:+: log

/-- What is done between the last look and the spawn. -/
def SetsUp : SupervisorEffect → Prop
  | .ensureGenerationDirs | .chooseTransport | .openDaemonLog => True
  | _ => False

/-- What spawns no daemon. -/
def Quiet (e : SupervisorEffect) : Prop := ∀ epoch transport, e ≠ .popen epoch transport

/-- No daemon was spawned. -/
def Fresh (log : Log) : Prop := ∀ ev ∈ log, Quiet ev.1

/-- The last look has found no one, and no daemon was spawned. -/
def Vacant (log : Log) : Prop :=
  Fresh log ∧
    ∃ before look after, log = before ++ look ++ after ∧ EmptyLook look ∧ ∀ ev ∈ after, SetsUp ev.1

/-- What may be done, after what was done. -/
def Allowed : SupervisorEffect → Log → Prop
  | .sigterm pid, log | .sigkill pid, log | .writeState pid _ _, log =>
    ∃ shown, Seen ⟨pid, shown⟩ log
  | .popen _ _, log => Vacant log
  | .terminate pid, log => ∃ epoch transport, did (.popen epoch transport) pid ∈ log
  | _, _ => True

/-- What may be done to an expected incarnation: signals go to it only, after a look that has shown
it to hold the lock, and there is nothing but looks and waits besides. -/
def Targets (expected : Option Incarnation) : SupervisorEffect → Log → Prop
  | .sigterm pid, log | .sigkill pid, log => ∃ i, expected = some i ∧ i.pid = pid ∧ Seen i log
  | .readHolder, _ | .isAlive _, _ | .startFingerprint _, _ | .probe _, _ => True
  | .waitpid _ _, _ | .sleep, _ => True
  | _, _ => False

theorem Targets.allowed {expected : Option Incarnation} {e : SupervisorEffect} {log : Log}
    (targets : Targets expected e log) : Allowed e log := by
  cases e with
  | sigterm pid | sigkill pid =>
    obtain ⟨i, -, rfl, seen⟩ := targets
    exact ⟨i.startFingerprint, seen⟩
  | popen | writeState | terminate => exact targets.elim
  | _ => trivial

/-- What only looks at processes and at the lock. -/
def Looks : SupervisorEffect → Prop
  | .readHolder | .isAlive _ | .startFingerprint _ | .probe _ => True
  | _ => False

/-- Nobody is kept from looking. -/
def Open (allowed : SupervisorEffect → Log → Prop) : Prop := ∀ e log, Looks e → allowed e log

theorem open_allowed : Open Allowed := by
  intro e log looks
  cases e <;> first | exact trivial | cases looks

theorem open_targets {expected : Option Incarnation} : Open (Targets expected) := by
  intro e log looks
  cases e <;> first | exact trivial | cases looks

/-- The daemon behind the endpoint has answered for the generation, and for the epoch if there is
one. -/
def Answers (s : GenerationSupervisor) (epoch : Option String) (transport : Transport) (log : Log) :
    Prop :=
  ∃ report identity, did (.health transport) (some report) ∈ log ∧ report.identity = some identity ∧
    s.matchesIdentity epoch identity = true

/-- It has answered for the epoch. -/
def AnswersEpoch (epoch : String) (transport : Transport) (log : Log) : Prop :=
  ∃ report identity, did (.health transport) (some report) ∈ log ∧ report.identity = some identity ∧
    Json.equals identity.generationEpoch (some epoch) = true

/-- What is known of an endpoint that is handed out. -/
inductive Granted (s : GenerationSupervisor) (epoch : String) (log : Log) :
    Option Incarnation × Transport → Prop
  | answered {incarnation : Option Incarnation} {transport : Transport}
      (answers : Answers s none transport log) (current : AnswersEpoch epoch transport log)
      (holds : ∀ i ∈ incarnation, Seen i log) : Granted s epoch log (incarnation, transport)
  | spawned {pid : ℤ} {shown : Option String} {transport : Transport}
      (spawned : did (.popen epoch transport) pid ∈ log)
      (shows : did (.startFingerprint pid) shown ∈ log)
      (compatible : did (.checkHealth transport) true ∈ log)
      (holds : ∃ shown, Seen ⟨pid, shown⟩ log) :
      Granted s epoch log (some ⟨pid, shown⟩, transport)
  /-- The daemon it has spawned is gone, and another one of the generation is there. Nothing is
  known of its epoch. -/
  | lost {pid code : ℤ} {incarnation : Option Incarnation} {own transport : Transport}
      (spawned : did (.popen epoch own) pid ∈ log) (exited : did (.poll pid) (some code) ∈ log)
      (answers : Answers s none transport log) (holds : ∀ i ∈ incarnation, Seen i log) :
      Granted s epoch log (incarnation, transport)

/-! ### Rules -/

/-- Where a program ends well, this holds. -/
def Well {α : Type} (good : α → Log → Prop) (r : Except SupervisorFault α) (log : Log) : Prop :=
  ∀ a, r = .ok a → good a log

/-- On the record, only what is allowed is done, and a good end is as it should be. -/
abbrev Fine {α : Type} (allowed : SupervisorEffect → Log → Prop) (good : α → Log → Prop)
    (p : SupervisorRoutine α) (log : Log) : Prop :=
  Setting.logged.Safe allowed (Well good) p log

theorem Fresh.append {log more : Log} (fresh : Fresh log) (others : Fresh more) :
    Fresh (log ++ more) := by
  intro ev member
  rcases List.mem_append.mp member with earlier | later
  · exact fresh ev earlier
  · exact others ev later

section Rules

variable {allowed : SupervisorEffect → Log → Prop} {α β : Type} {good : α → Log → Prop} {log : Log}

theorem fine_pure {a : α} (holds : good a log) : Fine allowed good (pure a) log := by
  rintro _ rfl b ended
  cases ended
  exact holds

theorem fine_raise {x : SupervisorFault} : Fine allowed good (Prog.raise x) log := by
  rintro _ rfl b ended
  cases ended

theorem fine_ask {e : SupervisorEffect} {next : e.Value → SupervisorRoutine α}
    (here : allowed e log) (rest : ∀ a, Fine allowed good (next a) (log ++ [did e a])) :
    Fine allowed good (ask e >>= next) log := by
  rintro _ rfl
  refine ⟨here, ?_⟩
  rintro a _ rfl
  cases a with
  | ok a => exact rest a
  | error x => exact fine_raise

/-- The last act of a program. -/
theorem fine_last {e : SupervisorEffect} {good : e.Value → Log → Prop} (here : allowed e log)
    (ends : ∀ a, good a (log ++ [did e a])) : Fine allowed good (ask e) log := by
  rintro _ rfl
  refine ⟨here, ?_⟩
  rintro a _ rfl _ rfl b same
  cases same
  exact ends b

/-- The first part goes well, and the second starts from what it leaves. -/
theorem fine_then {mid : β → Log → Prop} {p : SupervisorRoutine β} {next : β → SupervisorRoutine α}
    (first : Fine allowed mid p log)
    (rest : ∀ b log', log <+: log' → mid b log' → Fine allowed good (next b) log') :
    Fine allowed good (p >>= next) log := by
  refine Setting.Safe.bind (first.grows.mono fun r log' ended => ?_)
  cases r with
  | ok b => exact rest b log' ended.1 (ended.2 b rfl)
  | error x =>
    intro b ended
    cases ended

theorem Fine.mono {good' : α → Log → Prop} {p : SupervisorRoutine α} (fine : Fine allowed good p log)
    (weaker : ∀ a log, good a log → good' a log) : Fine allowed good' p log :=
  Setting.Safe.mono fine fun _ log' ended a is => weaker a log' (ended a is)

/-- What spawns no daemon leaves none. -/
theorem Fine.fresh {p : SupervisorRoutine α} (fine : Fine allowed good p log) (quiet : p.Only Quiet)
    (fresh : Fresh log) : Fine allowed (fun a log => good a log ∧ Fresh log) p log := by
  have kept : Setting.logged.Safe (fun _ _ => True) (fun _ log => Fresh log) p log := by
    refine Setting.Safe.keeps Fresh quiet (fun _ _ same fresh => same ▸ fresh)
      (fun e log a log' quiet fresh added => ?_) (fun _ _ _ _ => trivial) fresh
    have same : log' = log ++ [⟨e, a⟩] := added
    refine same ▸ fresh.append fun ev member => ?_
    obtain rfl := List.mem_singleton.mp member
    exact quiet
  exact (Setting.Safe.both fine kept).mono fun r log both a is => ⟨both.1 a is, both.2⟩

end Rules

/-! ### Signals -/

/-- What the reaping of a process performs. -/
def Reaps (pid : ℤ) : SupervisorEffect → Prop
  | .sigterm p | .sigkill p => p = pid
  | .probe _ | .waitpid _ _ | .sleep => True
  | _ => False

variable {pid : ℤ} {log log' : Log}

theorem ask_only {ok : SupervisorEffect → Prop} {e : SupervisorEffect} (here : ok e) :
    (ask e).Only ok := Prog.Only.perform here fun _ => Prog.Only.done

theorem catching_only {ok : SupervisorEffect → Prop} {fault : ProcessFault} {value : Bool}
    {body : SupervisorRoutine Bool} (only : body.Only ok) : (catching fault value body).Only ok := by
  refine Prog.Only.rescue only fun x => ?_
  split
  · exact Prog.Only.pure
  · exact Prog.Only.raise

/-- A probe, whatever is made of what it raises. -/
theorem probe_only {ok : SupervisorEffect → Prop} {handler : SupervisorFault → SupervisorRoutine Bool}
    (here : ok (.probe pid)) (handled : ∀ x, (handler x).Only ok) :
    ((ask (.probe pid) >>= fun _ => pure true).rescue handler).Only ok :=
  Prog.Only.rescue (Prog.Only.bind (ask_only here) fun _ => Prog.Only.pure) handled

theorem pidAlive_only : (pidAlive pid).Only (Reaps pid) := by
  refine probe_only trivial fun x => ?_
  split
  · exact Prog.Only.pure
  · exact Prog.Only.pure
  · exact Prog.Only.raise

theorem waitRound_only : (waitRound pid).Only (Reaps pid) := by
  refine Prog.Only.bind (catching_only (ask_only trivial)) fun reaped => ?_
  split
  · exact Prog.Only.pure
  · refine Prog.Only.bind pidAlive_only fun alive => ?_
    split
    · exact Prog.Only.pure
    · exact Prog.Only.bind (ask_only trivial) fun _ => Prog.Only.pure

theorem gracefulWait_only : (gracefulWait pid).Only (Reaps pid) := by
  have sends : (catching .processLookupError false (ask (.sigterm pid) >>= fun _ => pure true)).Only
      (Reaps pid) := catching_only (Prog.Only.bind (ask_only rfl) fun _ => Prog.Only.pure)
  refine Prog.Only.bind sends fun sent => ?_
  split
  · exact Prog.Only.bind (Prog.Only.visit (fun _ => waitRound_only) _) fun _ => Prog.Only.pure
  · exact Prog.Only.pure

theorem killOnce_only : (killOnce pid).Only (Reaps pid) := by
  refine Prog.Only.rescue (Prog.Only.bind (ask_only rfl) fun _ => ?_) fun _ => Prog.Only.pure
  exact Prog.Only.bind (ask_only trivial) fun _ => Prog.Only.pure

theorem forceKill_only : (forceKill pid).Only (Reaps pid) := by
  refine Prog.Only.bind pidAlive_only fun alive => ?_
  split
  · exact Prog.Only.pure
  · exact Prog.Only.bind killOnce_only fun _ => Prog.Only.bind pidAlive_only fun _ => Prog.Only.pure

theorem reapDaemon_only : (reapDaemon pid).Only (Reaps pid) := by
  refine Prog.Only.bind (Prog.Only.rescue gracefulWait_only fun x => ?_) fun _ =>
    Prog.Only.bind forceKill_only fun _ => Prog.Only.pure
  split
  · exact Prog.Only.pure
  · exact Prog.Only.raise

theorem Seen.grows {incarnation : Incarnation} (seen : Seen incarnation log)
    (grown : log <+: log') : Seen incarnation log' := by
  obtain ⟨holder, named, shows, look⟩ := seen
  exact ⟨holder, named, shows, look.trans grown.isInfix⟩

variable {allowed : SupervisorEffect → Log → Prop}

/-- A process that was seen may be reaped. -/
theorem reapDaemon_fine {inc : Incarnation} (seen : Seen inc log) :
    Fine (Targets (some inc)) (fun _ _ => True) (reapDaemon inc.pid) log := by
  have kept : Setting.logged.Safe (Targets (some inc)) (fun _ log => Seen inc log)
      (reapDaemon inc.pid) log := by
    refine Setting.Safe.keeps (Seen inc) reapDaemon_only (fun _ _ same seen => same ▸ seen)
      (fun e log a log' _ seen added => ?_) (fun e log reaps seen => ?_) seen
    · have same : log' = log ++ [⟨e, a⟩] := added
      exact seen.grows (same ▸ List.prefix_append log _)
    · cases e with
      | sigterm p | sigkill p =>
        obtain rfl : p = inc.pid := reaps
        exact ⟨inc, rfl, rfl, seen⟩
      | probe | waitpid | sleep => exact trivial
      | _ => cases reaps
  exact kept.mono fun _ _ _ _ _ => trivial

/-- A process is held for dead only on the word of the system. -/
theorem pidAlive_fine (free : Open allowed) :
    Fine allowed (fun alive log' => alive = false → log' = log ++ [foundDead pid]) (pidAlive pid)
      log := by
  rintro _ rfl
  refine ⟨free _ _ trivial, ?_⟩
  rintro a _ rfl
  cases a with
  | ok _ => exact fine_pure fun dead => by cases dead
  | error x =>
    cases x with
    | process fault =>
      cases fault with
      | processLookupError => exact fine_pure fun _ => rfl
      | _ => exact fine_pure fun dead => by cases dead
    | _ => exact fine_raise

/-! ### Looks -/

/-- What a look at the lock has added to the record. -/
def Looked (log : Log) (found : Option (ℤ × LockMeta)) (log' : Log) : Prop :=
  (found = none ∧ ∃ look, EmptyLook look ∧ log' = log ++ look) ∨
    ∃ pid holder, found = some (pid, holder) ∧ truePid holder.pid = some pid ∧
      log' = log ++ holderLook pid holder

theorem liveLockHolder_fine (free : Open allowed) :
    Fine allowed (Looked log) liveLockHolder log := by
  refine fine_ask (free _ _ trivial) fun found => ?_
  cases chosen : found.bind fun holder => (truePid holder.pid).map fun pid => (pid, holder) with
  | none =>
    refine fine_pure (.inl ⟨rfl, _, .unnamed ?_, rfl⟩)
    cases found with
    | none => rfl
    | some holder => simpa using chosen
  | some both =>
    obtain ⟨pid, holder⟩ := both
    obtain ⟨held, rfl, named⟩ := Option.bind_eq_some_iff.mp chosen
    obtain ⟨pid', called, same⟩ := Option.map_eq_some_iff.mp named
    obtain ⟨rfl, rfl⟩ := Prod.mk.inj same
    refine fine_ask (free _ _ trivial) fun alive => ?_
    cases alive with
    | false =>
      refine fine_pure (.inl ⟨rfl, _, .dead called, ?_⟩)
      simp
    | true =>
      refine fine_ask (free _ _ trivial) fun shown => ?_
      by_cases differs : shown ≠ held.startFingerprint
      · simp only [if_pos differs]
        refine fine_pure (.inl ⟨rfl, _, .other called differs, ?_⟩)
        simp
      · obtain rfl := not_not.mp differs
        simp only [ne_eq, not_true_eq_false, if_false]
        refine fine_pure (.inr ⟨pid', held, rfl, called, ?_⟩)
        simp [holderLook]

theorem Looked.seen {holder : LockMeta} (looked : Looked log (some (pid, holder)) log') :
    Seen ⟨pid, holder.startFingerprint⟩ log' := by
  rcases looked with ⟨none, -⟩ | ⟨pid', holder', same, named, rfl⟩
  · cases none
  · cases same
    exact ⟨holder, named, rfl, List.suffix_append _ _ |>.isInfix⟩

theorem captureIncarnation_fine :
    Fine Allowed (fun found log => ∀ i ∈ found, Seen i log) captureIncarnation log := by
  refine fine_then (liveLockHolder_fine open_allowed) fun found log' _ looked => fine_pure ?_
  cases found with
  | none =>
    intro i none
    cases none
  | some held =>
    intro i same
    cases same
    exact looked.seen

theorem ownsLock_fine :
    Fine Allowed (fun mine log => mine = true → ∃ shown, Seen ⟨pid, shown⟩ log) (ownsLock pid) log := by
  refine fine_then (liveLockHolder_fine open_allowed) fun found log' _ looked => fine_pure fun mine => ?_
  cases found with
  | none => cases mine
  | some held =>
    obtain ⟨holderPid, holder⟩ := held
    obtain rfl : holderPid = pid := by simpa using mine
    exact ⟨_, looked.seen⟩

variable {s : GenerationSupervisor} {epoch : String} {expected : Option String}
  {transport : Transport}

/-- The daemon has answered this. -/
def Reported (transport : Transport) (identity : Identity) (log : Log) : Prop :=
  ∃ report, did (.health transport) (some report) ∈ log ∧ report.identity = some identity

theorem healthIdentity_fine :
    Fine Allowed (fun found log => ∀ identity ∈ found, Reported transport identity log)
      (healthIdentity transport) log := by
  refine fine_ask trivial fun report => fine_pure fun identity found => ?_
  cases report with
  | none => cases found
  | some report => exact ⟨report, by simp, found⟩

theorem Reported.answers {identity : Identity} (reported : Reported transport identity log)
    (fits : s.matchesIdentity expected identity = true) : Answers s expected transport log := by
  obtain ⟨report, told, complete⟩ := reported
  exact ⟨report, identity, told, complete, fits⟩

theorem Answers.grows (answers : Answers s expected transport log) (grown : log <+: log') :
    Answers s expected transport log' := by
  obtain ⟨report, identity, told, complete, fits⟩ := answers
  exact ⟨report, identity, grown.subset told, complete, fits⟩

theorem Answers.forget (answers : Answers s expected transport log) : Answers s none transport log := by
  obtain ⟨report, identity, told, complete, fits⟩ := answers
  refine ⟨report, identity, told, complete, ?_⟩
  simp only [matchesIdentity, Bool.and_eq_true] at fits ⊢
  exact ⟨fits.1, rfl⟩

theorem Answers.current (answers : Answers s (some epoch) transport log) :
    AnswersEpoch epoch transport log := by
  obtain ⟨report, identity, told, complete, fits⟩ := answers
  simp only [matchesIdentity, Bool.and_eq_true] at fits
  exact ⟨report, identity, told, complete, fits.2⟩

theorem endpoint_fine :
    Fine Allowed (fun found log => ∀ transport ∈ found, Answers s expected transport log)
      (s.endpoint expected) log := by
  have nothing : ∀ {log}, Fine Allowed (fun found log => ∀ transport ∈ found, Answers s expected transport log)
      (pure none) log := fine_pure fun _ none => by cases none
  refine fine_then (liveLockHolder_fine open_allowed) fun found log' _ looked => ?_
  cases found with
  | none => exact nothing
  | some held =>
    refine fine_ask trivial fun st => ?_
    split
    · exact nothing
    · split
      · exact nothing
      · split
        · exact nothing
        · exact fine_raise
        · refine fine_then healthIdentity_fine fun identity log'' _ reported => ?_
          cases identity with
          | none => exact nothing
          | some identity =>
            by_cases fits : s.matchesIdentity expected identity = true
            · simp only [if_pos fits]
              refine fine_pure fun other same => ?_
              cases same
              exact (reported identity rfl).answers fits
            · simp only [if_neg fits]
              exact nothing

/-! ### Reaping -/

/-- Signals go to the expected incarnation, and `True` stands on a last look that finds no such
process. -/
theorem reapHolder_fine (log : Log) {expected : Option Incarnation} :
    Fine (Targets expected) (fun gone log' => gone = true →
      ∃ i before, expected = some i ∧ log' = before ++ [foundDead i.pid])
      (reapHolder expected) log := by
  rw [reapHolder]
  split
  · exact fine_pure fun gone => by cases gone
  next expectedPid expectedFp chosen =>
    obtain ⟨inc, rfl, named⟩ := Option.bind_eq_some_iff.mp chosen
    obtain ⟨pid, nonzero, shows⟩ := Option.bind_eq_some_iff.mp named
    obtain ⟨fp, told, same⟩ := Option.map_eq_some_iff.mp shows
    obtain ⟨rfl, rfl⟩ := Prod.mk.inj same
    obtain rfl : inc.pid = pid := (Option.mem_filter_iff.mp nonzero).1 |> Option.some.inj
    have shown : inc.startFingerprint = some fp := (Option.mem_filter_iff.mp told).1
    have last : ∀ {log : Log}, Fine (Targets (some inc)) (fun gone log' => gone = true →
        ∃ i before, some inc = some i ∧
          log' = before ++ [foundDead i.pid]) (do
        let alive ← pidAlive inc.pid
        pure !alive) log := by
      intro log
      refine fine_then (pidAlive_fine open_targets) fun alive log' _ dead => fine_pure fun gone => ?_
      exact ⟨inc, log, rfl, dead (by simpa using gone)⟩
    refine fine_then (liveLockHolder_fine open_targets) fun found log' _ looked => ?_
    cases found with
    | none => exact last
    | some held =>
      obtain ⟨pid, holder⟩ := held
      dsimp only
      split
      · exact fine_pure fun gone => by cases gone
      next fits =>
        obtain ⟨rfl, same⟩ : pid = inc.pid ∧ holder.startFingerprint = some fp := by
          simpa only [not_or, not_not, ne_eq] using fits
        have seen : Seen inc log' := by
          have seen := looked.seen
          rwa [same, ← shown] at seen
        exact fine_then (reapDaemon_fine seen) fun _ _ _ _ => last

theorem discard_fine {holder : LockMeta} :
    Fine Allowed (fun found _ => found = none) (discard pid holder) log :=
  fine_then (Setting.Safe.allow (reapHolder_fine log) fun _ _ targets => targets.allowed)
    fun _ _ _ _ => fine_pure rfl

theorem writeState_fine (holds : ∃ shown, Seen ⟨pid, shown⟩ log) :
    Fine Allowed (fun _ _ => True) (writeState pid transport) log := by
  obtain ⟨shown, seen⟩ := holds
  refine fine_ask trivial fun found => fine_last ?_ fun _ => trivial
  exact ⟨shown, seen.grows (List.prefix_append _ _)⟩

theorem adopt_fine (holds : ∃ shown, Seen ⟨pid, shown⟩ log)
    (answers : Answers s expected transport log) :
    Fine Allowed (fun found log => ∀ transport ∈ found, Answers s expected transport log)
      (adopt pid transport) log := by
  refine fine_then (writeState_fine holds) fun _ log' grown _ => fine_pure fun other same => ?_
  cases same
  exact answers.grows grown

theorem reconcileLockHolder_fine :
    Fine Allowed (fun found log => ∀ transport ∈ found, Answers s expected transport log)
      (s.reconcileLockHolder expected) log := by
  have discards : ∀ {pid : ℤ} {holder : LockMeta} {log : Log},
      Fine Allowed (fun found log => ∀ transport ∈ found, Answers s expected transport log)
        (discard pid holder) log :=
    discard_fine.mono fun found log none transport some => by
      rw [none] at some
      cases some
  -- an identity that fits is adopted, any other one is discarded
  have judges : ∀ {pid : ℤ} {holder : LockMeta} {transport : Transport} {identity : Option Identity}
      {log : Log}, (∃ shown, Seen ⟨pid, shown⟩ log) →
      (∀ i ∈ identity, Reported transport i log) →
      Fine Allowed (fun found log => ∀ transport ∈ found, Answers s expected transport log)
        (if identity.any (s.matchesIdentity expected) then adopt pid transport
          else discard pid holder) log := by
    intro pid holder transport identity log holds reported
    split
    next fits =>
      cases identity with
      | none => cases fits
      | some i => exact adopt_fine holds ((reported i rfl).answers fits)
    next => exact discards
  refine fine_then (liveLockHolder_fine open_allowed) fun found log' _ looked => ?_
  cases found with
  | none => exact fine_pure fun _ none => by cases none
  | some held =>
    obtain ⟨pid, holder⟩ := held
    have seen := looked.seen
    dsimp only
    split
    · refine fine_then endpoint_fine fun ep log₁ grown₁ _ => ?_
      cases ep with
      | none => exact discards
      | some ep =>
        refine fine_then healthIdentity_fine fun identity log₂ grown₂ reported => ?_
        exact judges ⟨_, seen.grows (grown₁.trans grown₂)⟩ reported
    · refine fine_ask trivial fun compatible => ?_
      split
      · refine fine_then healthIdentity_fine fun identity log₂ grown₂ reported => ?_
        exact judges ⟨_, seen.grows ((List.prefix_append _ _).trans grown₂)⟩ reported
      · exact discards

/-! ### Spawning -/

/-- The daemon was spawned, and this was read of it then. -/
def Own (epoch : String) (pid : ℤ) (shown : Option String) (transport : Transport) (log : Log) :
    Prop :=
  did (.popen epoch transport) pid ∈ log ∧ did (.startFingerprint pid) shown ∈ log

theorem Own.grows {shown : Option String} (own : Own epoch pid shown transport log)
    (grown : log <+: log') : Own epoch pid shown transport log' :=
  ⟨grown.subset own.1, grown.subset own.2⟩

/-- What a round leaves where there is no verdict, and what its verdict says. -/
def Rounded (s : GenerationSupervisor) (epoch : String) (pid : ℤ) (shown : Option String)
    (transport : Transport) : Option (Option Incarnation × Transport) → Log → Prop
  | none, log => Own epoch pid shown transport log
  | some up, log => Granted s epoch log up

theorem healthRound_fine {shown : Option String} (own : Own epoch pid shown transport log) :
    Fine Allowed (Rounded s epoch pid shown transport) (s.healthRound pid ⟨pid, shown⟩ transport) log := by
  refine fine_ask trivial fun compatible => ?_
  have own₁ := own.grows (List.prefix_append log [did (.checkHealth transport) compatible])
  have told : did (.checkHealth transport) compatible ∈ log ++ [did (.checkHealth transport) compatible] :=
    by simp
  generalize log ++ [did (.checkHealth transport) compatible] = log₁ at own₁ told
  have owns : Fine Allowed (fun mine log => mine = true → compatible = true ∧ ∃ shown, Seen ⟨pid, shown⟩ log)
      (isMine pid compatible) log₁ := by
    rw [isMine]
    split
    next is => exact ownsLock_fine.mono fun mine log holds mine => ⟨is, holds mine⟩
    next => exact fine_pure fun mine => by cases mine
  refine fine_then owns fun mine log₂ grown₂ holds => ?_
  have own₂ := own₁.grows grown₂
  by_cases is : mine = true
  · simp only [if_pos is]
    obtain ⟨rfl, seen⟩ := holds is
    refine fine_then (writeState_fine seen) fun _ log₃ grown₃ _ => fine_pure ?_
    obtain ⟨fp, seen⟩ := seen
    have own₃ := own₂.grows grown₃
    exact .spawned own₃.1 own₃.2 ((grown₂.trans grown₃).subset told) ⟨fp, seen.grows grown₃⟩
  · simp only [if_neg is]
    refine fine_ask trivial fun exited => ?_
    have own₃ := own₂.grows (List.prefix_append log₂ [did (.poll pid) exited])
    have polled : did (.poll pid) exited ∈ log₂ ++ [did (.poll pid) exited] := by simp
    generalize log₂ ++ [did (.poll pid) exited] = log₃ at own₃ polled
    cases exited with
    | some code =>
      -- the daemon spawned here is gone, and another one may have won
      refine fine_then endpoint_fine fun existing log₄ grown₄ answers => ?_
      cases existing with
      | none => exact fine_raise
      | some existing =>
        refine fine_then captureIncarnation_fine fun incarnation log₅ grown₅ holds => fine_pure ?_
        have grown := grown₄.trans grown₅
        exact .lost (own₃.grows grown).1 (grown.subset polled)
          ((answers existing rfl).grows grown₅) holds
    | none =>
      refine fine_ask trivial fun _ => fine_pure ?_
      exact own₃.grows (List.prefix_append _ _)

theorem EmptyLook.fresh {look : Log} (empty : EmptyLook look) : Fresh look := by
  intro ev member epoch transport
  cases empty <;> simp only [List.mem_cons, List.not_mem_nil, or_false] at member <;>
    rcases member with rfl | rfl | rfl <;> simp [did]

theorem captureIncarnationFrom_fine :
    Fine Allowed (fun i log => ∃ shown, i = ⟨pid, shown⟩ ∧ did (.startFingerprint pid) shown ∈ log)
      (captureIncarnationFrom pid) log :=
  fine_ask trivial fun shown => fine_pure ⟨shown, rfl, by simp⟩

theorem healthRounds_fine {shown : Option String} (rounds : ℕ)
    (own : Own epoch pid shown transport log) :
    Fine Allowed (Rounded s epoch pid shown transport)
      (Prog.visit (fun _ => s.healthRound pid ⟨pid, shown⟩ transport) (List.range rounds)) log := by
  -- as long as no round has a verdict, the daemon it has spawned is on the record
  refine Setting.Safe.visit (fun _ log => Own epoch pid shown transport log) own
    (fun _ _ log own => Setting.Safe.mono (healthRound_fine own) fun r log' ended => ?_) ?_ ?_
  · rcases r with x | none | up
    · intro up failed
      cases failed
    · exact ended none rfl
    · exact ended
  · rintro log own _ rfl up same
    cases same
    exact own
  · rintro up log ended _ rfl
    exact ended

/-! ### What spawns nothing -/

theorem quiet_of_reaps {e : SupervisorEffect} (reaps : Reaps pid e) : Quiet e := by
  rintro epoch transport rfl
  cases reaps

theorem liveLockHolder_quiet : liveLockHolder.Only Quiet := by
  refine Prog.Only.bind (ask_only (by simp [Quiet])) fun found => ?_
  split
  · exact Prog.Only.pure
  · refine Prog.Only.bind (ask_only (by simp [Quiet])) fun alive => ?_
    split
    · exact Prog.Only.pure
    · refine Prog.Only.bind (ask_only (by simp [Quiet])) fun shown => ?_
      split <;> exact Prog.Only.pure

theorem healthIdentity_quiet : (healthIdentity transport).Only Quiet :=
  Prog.Only.bind (ask_only (by simp [Quiet])) fun _ => Prog.Only.pure

theorem captureIncarnation_quiet : captureIncarnation.Only Quiet :=
  Prog.Only.bind liveLockHolder_quiet fun _ => Prog.Only.pure

theorem endpoint_quiet : (s.endpoint expected).Only Quiet := by
  refine Prog.Only.bind liveLockHolder_quiet fun found => ?_
  split
  · exact Prog.Only.pure
  · refine Prog.Only.bind (ask_only (by simp [Quiet])) fun st => ?_
    split
    · exact Prog.Only.pure
    · split
      · exact Prog.Only.pure
      · split
        · exact Prog.Only.pure
        · exact Prog.Only.raise
        · refine Prog.Only.bind healthIdentity_quiet fun identity => ?_
          split
          · exact Prog.Only.pure
          · split <;> exact Prog.Only.pure

theorem existing_quiet : (s.existing epoch).Only Quiet := by
  refine Prog.Only.bind endpoint_quiet fun found => ?_
  split
  · exact Prog.Only.pure
  · refine Prog.Only.bind healthIdentity_quiet fun identity => ?_
    split
    · exact Prog.Only.bind captureIncarnation_quiet fun _ => Prog.Only.pure
    · exact Prog.Only.pure

theorem reapHolder_quiet {inc : Option Incarnation} : (reapHolder inc).Only Quiet := by
  have looks : ∀ pid, (pidAlive pid).Only Quiet := fun _ => pidAlive_only.mono fun _ => quiet_of_reaps
  rw [reapHolder]
  split
  · exact Prog.Only.pure
  · refine Prog.Only.bind liveLockHolder_quiet fun found => ?_
    split
    · exact Prog.Only.bind (looks _) fun _ => Prog.Only.pure
    · split
      · exact Prog.Only.pure
      · refine Prog.Only.bind (reapDaemon_only.mono fun _ => quiet_of_reaps) fun _ => ?_
        exact Prog.Only.bind (looks _) fun _ => Prog.Only.pure

theorem reconcileLockHolder_quiet : (s.reconcileLockHolder expected).Only Quiet := by
  have discards : ∀ {pid holder}, (discard pid holder).Only Quiet :=
    Prog.Only.bind reapHolder_quiet fun _ => Prog.Only.pure
  have adopts : ∀ {pid transport}, (adopt pid transport).Only Quiet :=
    Prog.Only.bind (Prog.Only.bind (ask_only (by simp [Quiet])) fun _ =>
      ask_only (by simp [Quiet])) fun _ => Prog.Only.pure
  refine Prog.Only.bind liveLockHolder_quiet fun found => ?_
  split
  · exact Prog.Only.pure
  · split
    · refine Prog.Only.bind endpoint_quiet fun ep => ?_
      split
      · exact discards
      · refine Prog.Only.bind healthIdentity_quiet fun identity => ?_
        split
        · exact adopts
        · exact discards
    · refine Prog.Only.bind (ask_only (by simp [Quiet])) fun compatible => ?_
      split
      · refine Prog.Only.bind healthIdentity_quiet fun identity => ?_
        split
        · exact adopts
        · exact discards
      · exact discards

/-- The log is closed behind a spawn, and a process that there is stands on the record. -/
theorem popen_fine (vacant : Vacant log) :
    Fine Allowed (fun pid log => did (.popen epoch transport) pid ∈ log)
      ((ask (.popen epoch transport)).ensure (ask .closeLog)) log := by
  rintro _ rfl
  refine ⟨vacant, ?_⟩
  rintro spawned _ rfl _ rfl
  refine ⟨trivial, ?_⟩
  rintro closed _ rfl
  cases closed with
  | error x => exact fine_raise
  | ok _ =>
    rintro _ rfl pid rfl
    simp [did]

theorem spawn_fine (rounds : ℕ) (fresh : Fresh log) {look : Log} (empty : EmptyLook look) :
    Fine Allowed (fun up log => Granted s epoch log up) (s.spawn rounds epoch) (log ++ look) := by
  have vacant : ∀ made transport opened, Vacant (log ++ look ++ [did .ensureGenerationDirs made] ++
      [did .chooseTransport transport] ++ [did .openDaemonLog opened]) := by
    intro made transport opened
    have sets : ∀ ev ∈ [did .ensureGenerationDirs made, did .chooseTransport transport,
        did .openDaemonLog opened], SetsUp ev.1 := by
      intro ev member
      simp only [List.mem_cons, List.not_mem_nil, or_false] at member
      rcases member with rfl | rfl | rfl <;> exact trivial
    refine ⟨?_, log, look, _, by simp, empty, sets⟩
    simp only [List.append_assoc, List.singleton_append]
    refine fresh.append (empty.fresh.append fun ev member epoch transport same => ?_)
    have sets := sets ev member
    rw [same] at sets
    exact sets
  refine fine_ask trivial fun made => fine_ask trivial fun transport => fine_ask trivial fun opened =>
    fine_then (popen_fine (vacant made transport opened)) fun pid log₀ grown₀ spawned =>
    fine_then captureIncarnationFrom_fine fun incarnation log₁ grown₁ shows => ?_
  obtain ⟨shown, rfl, shows⟩ := shows
  have own : Own epoch pid shown transport log₁ := ⟨grown₁.subset spawned, shows⟩
  refine fine_then (healthRounds_fine rounds own) fun up log₂ grown₂ rounded => ?_
  cases up with
  | some up => exact fine_pure rounded
  | none => exact fine_ask ⟨epoch, transport, rounded.1⟩ fun _ => fine_raise

/-! ### Running -/

theorem existing_fine :
    Fine Allowed (fun found log => ∀ up ∈ found, Granted s epoch log up) (s.existing epoch) log := by
  have nothing : ∀ {log}, Fine Allowed (fun found log => ∀ up ∈ found, Granted s epoch log up)
      (pure none) log := fine_pure fun _ none => by cases none
  refine fine_then endpoint_fine fun found log₁ _ answers => ?_
  cases found with
  | none => exact nothing
  | some transport =>
    refine fine_then healthIdentity_fine fun identity log₂ grown₂ reported => ?_
    cases identity with
    | none => exact nothing
    | some identity =>
      by_cases current : Json.equals identity.generationEpoch (some epoch) = true
      · simp only [Option.any_some, if_pos current]
        refine fine_then captureIncarnation_fine fun incarnation log₃ grown₃ holds =>
          fine_pure fun up same => ?_
        cases same
        obtain ⟨report, told, complete⟩ := reported identity rfl
        exact .answered ((answers transport rfl).grows (grown₂.trans grown₃))
          ⟨report, identity, grown₃.subset told, complete, current⟩ holds
      · simp only [Option.any_some, if_neg current]
        exact nothing

theorem ensureRunning_fine (rounds : ℕ) :
    Fine Allowed (fun up log => Granted s epoch log up) (s.ensureRunning rounds epoch) [] := by
  rw [ensureRunning]
  split
  · exact fine_raise
  refine fine_then (existing_fine.fresh existing_quiet (by simp [Fresh])) fun found log₁ _ first => ?_
  cases found with
  | some found => exact fine_pure (first.1 found rfl)
  | none =>
    refine fine_then (reconcileLockHolder_fine.fresh reconcileLockHolder_quiet first.2)
      fun adopted log₂ _ second => ?_
    cases adopted with
    | some adopted =>
      refine fine_then captureIncarnation_fine fun incarnation log₃ grown₃ holds => fine_pure ?_
      have answers := (second.1 adopted rfl).grows grown₃
      exact .answered answers.forget answers.current holds
    | none =>
      refine fine_then (liveLockHolder_fine open_allowed) fun lingering log₃ _ looked => ?_
      cases lingering with
      | some held => exact fine_raise
      | none =>
        obtain ⟨-, look, empty, rfl⟩ | ⟨_, _, none, -⟩ := looked
        · exact spawn_fine rounds second.2 empty
        · cases none

/-! ### Every run -/

/-- Whatever the system answers while a holder is reaped: `True` is proof of death. -/
theorem reapHolder_sound (expected : Option Incarnation) {log : Log} {r : Except SupervisorFault Bool}
    (run : Prog.Yields (reapHolder expected) log r) :
    (∀ before ev after, log = before ++ ev :: after → Targets expected ev.1 before) ∧
      (r = .ok true → ∃ i before, expected = some i ∧ log = before ++ [foundDead i.pid]) := by
  obtain ⟨ends, between⟩ := (reapHolder_fine []).yields run
  exact ⟨between, fun gone => ends true gone rfl⟩

/-- Whatever the system answers while a daemon is looked for, adopted or spawned. -/
theorem ensureRunning_sound (s : GenerationSupervisor) (rounds : ℕ) (epoch : String) {log : Log}
    {r : Except SupervisorFault (Option Incarnation × Transport)}
    (run : Prog.Yields (s.ensureRunning rounds epoch) log r) :
    (∀ before ev after, log = before ++ ev :: after → Allowed ev.1 before) ∧
      ∀ up, r = .ok up → Granted s epoch log up := by
  obtain ⟨ends, between⟩ := (ensureRunning_fine rounds).yields run
  exact ⟨between, ends⟩

/-- A system with room for one process, which holds the lock as long as it runs. -/
def sampleHost (e : SupervisorEffect) (w : Option ℤ) : e.Answer × Option ℤ :=
  match e with
  | .readHolder => (.ok (w.map fun pid => ⟨some pid, some "f", some "unix", none⟩), w)
  | .isAlive pid => (.ok (w = some pid), w)
  | .startFingerprint pid => (.ok (if w = some pid then some "f" else none), w)
  | .probe pid => (if w = some pid then .ok () else .error (.process .processLookupError), w)
  | .sigterm pid | .sigkill pid => (.ok (), if w = some pid then none else w)
  | .waitpid _ _ => (.error (.process .childProcessError), w)
  | .readState => (.ok (w.map fun pid => { pid := some pid, transport := none }), w)
  | .health _ => (.ok (w.map fun _ => ⟨some (.text "g"), some (.text "e"), some .null⟩), w)
  | .checkHealth _ => (.ok w.isSome, w)
  | .chooseTransport => (.ok (.unix "s"), w)
  | .popen _ _ => (.ok 7, some 7)
  | .poll _ => (.ok none, w)
  | .sleep | .writeState .. | .unlinkState | .ensureGenerationDirs | .openDaemonLog | .closeLog
  | .terminate _ => (.ok (), w)

def sampleSupervisor : GenerationSupervisor := ⟨"g", none, "s"⟩

/-- The holder that is expected dies of SIGTERM. -/
theorem reapHolder_sound_sample :
    ∃ i before, some (⟨7, some "f"⟩ : Incarnation) = some i ∧
      (reapHolder (some ⟨7, some "f"⟩)).trail sampleHost (some 7) = before ++ [foundDead i.pid] :=
  (reapHolder_sound _ (Prog.yields_run sampleHost _ (some 7))).2 rfl

/-- Nobody is there, and a daemon is spawned. -/
theorem ensureRunning_sound_sample :
    Granted sampleSupervisor "e" ((sampleSupervisor.ensureRunning 3 "e").trail sampleHost none)
      (some ⟨7, some "f"⟩, .unix "s") :=
  (ensureRunning_sound sampleSupervisor 3 "e" (Prog.yields_run sampleHost _ none)).2 _ rfl

end GenerationSupervisor

end Nelix.Router
