import Nelix.Router.SupervisorRuns

/-!
# Tearing a daemon down

`teardown` swallows whatever it meets. An interrupt of its waits only ends the waiting; one that cuts
a look short ends the whole teardown, and nobody hears of it.

## Main results

`teardown_sound`: it raises nothing, signals go only to processes that it has found before, and
unless something hinders it each of these was found dead or was sent a SIGKILL and the state file is
gone.
-/
namespace Nelix.Router

open Contracts Core

namespace GenerationSupervisor

/-! ### What it finds, and what hinders it -/

/-- What the look at the state file has found. -/
inductive Named : List ℤ → Log → Prop
  | nobody {found : Option StateFile} (nobody : found.bind (truePid ·.pid) = none) :
      Named [] [did .readState found]
  | gone {st : StateFile} {pid : ℤ} {fault : ProcessFault} (named : truePid st.pid = some pid) :
      Named [] [did .readState (some st), raised (.probe pid) (.process fault)]
  | runs {st : StateFile} {pid : ℤ} (named : truePid st.pid = some pid) :
      Named [pid] [did .readState (some st), did (.probe pid) ()]

/-- What both looks have found: the process of the state file, then the holder of the lock. -/
def Surveyed (pids : List ℤ) (log : Log) : Prop :=
  ∃ named found first, Named named first ∧ Looked first found log ∧
    pids = named ++ (found.map (·.1)).toList.filter (· ∉ named)

/-- The process was found: the state file names it and a probe has reached it, or it was seen to
hold the lock. -/
def Found (pid : ℤ) (log : Log) : Prop :=
  (∃ st, truePid st.pid = some pid ∧ did .readState (some st) ∈ log ∧ did (.probe pid) () ∈ log) ∨
    ∃ shown, Seen ⟨pid, shown⟩ log

/-- What a teardown may do, after what was done. -/
def Aimed : SupervisorEffect → Log → Prop
  | .sigterm pid, log | .sigkill pid, log => Found pid log
  | .readHolder, _ | .isAlive _, _ | .startFingerprint _, _ | .probe _, _ => True
  | .waitpid _ _, _ | .sleep, _ | .readState, _ | .unlinkState, _ => True
  | _, _ => False

/-- What an effect may raise and the teardown goes on to its end all the same. -/
def Harmless : SupervisorEffect → SupervisorFault → Prop
  | .probe _, x => ∃ fault, x = .process fault
  | .sigterm _, x => x = .process .processLookupError ∨ x = .keyboardInterrupt
  | .waitpid _ false, x => x = .process .childProcessError ∨ x = .keyboardInterrupt
  -- behind a SIGKILL
  | .waitpid _ true, _ => True
  | .sigkill _, x => x = .process .processLookupError
  | .sleep, x => x = .keyboardInterrupt
  | .unlinkState, x => x = .fileNotFoundError
  | _, _ => False

/-- Something was raised that may keep it from its end. -/
def Hindered (log : Log) : Prop := ∃ e x, raised e x ∈ log ∧ ¬ Harmless e x

/-- The process was sent a SIGKILL, or the system knows of no such process. -/
def Finished (pid : ℤ) (log : Log) : Prop :=
  did (.sigkill pid) () ∈ log ∨ raised (.sigkill pid) (.process .processLookupError) ∈ log ∨
    foundDead pid ∈ log

/-- The state file is gone. -/
def Cleared (log : Log) : Prop :=
  did .unlinkState () ∈ log ∨ raised .unlinkState .fileNotFoundError ∈ log

/-- Whoever it has found is finished, and the state file is gone. -/
def TornDown (log : Log) : Prop :=
  ∃ pids first, first <+: log ∧ Surveyed pids first ∧ Cleared log ∧ ∀ pid ∈ pids, Finished pid log

variable {pid : ℤ} {pids : List ℤ} {log log' : Log}

theorem Found.grows (found : Found pid log) (grown : log <+: log') : Found pid log' := by
  rcases found with ⟨st, named, read, reached⟩ | ⟨shown, seen⟩
  · exact .inl ⟨st, named, grown.subset read, grown.subset reached⟩
  · exact .inr ⟨shown, seen.grows grown⟩

theorem Hindered.grows (hindered : Hindered log) (grown : log <+: log') : Hindered log' := by
  obtain ⟨e, x, met, harmful⟩ := hindered
  exact ⟨e, x, grown.subset met, harmful⟩

theorem Finished.grows (finished : Finished pid log) (grown : log <+: log') : Finished pid log' := by
  rcases finished with killed | gone | dead
  · exact .inl (grown.subset killed)
  · exact .inr (.inl (grown.subset gone))
  · exact .inr (.inr (grown.subset dead))

/-- What was just raised is harmless, or it hinders. -/
theorem harmless_or_hindered {e : SupervisorEffect} {x : SupervisorFault} (met : raised e x ∈ log) :
    Harmless e x ∨ Hindered log :=
  or_iff_not_imp_left.mpr fun harmful => ⟨e, x, met, harmful⟩

@[simp] theorem raised_ne_did {e e' : SupervisorEffect} {x : SupervisorFault} {a : e'.Value} :
    raised e x ≠ did e' a := by
  intro same
  injection same with effects answers
  subst effects
  cases answers

@[simp] theorem raised_inj {e e' : SupervisorEffect} {x x' : SupervisorFault} :
    raised e x = raised e' x' ↔ e = e' ∧ x = x' := by
  constructor
  · intro same
    injection same with effects answers
    subst effects
    exact ⟨rfl, Except.error.inj (eq_of_heq answers)⟩
  · rintro ⟨rfl, rfl⟩
    rfl

theorem open_aimed : Open Aimed := by
  intro e log looks
  cases e <;> first | exact trivial | cases looks

/-! ### Rules -/

/-- Only what is aimed is done; a good end is as `good` says, and any other one comes of `why`. -/
abbrev Kept {α : Type} (why : SupervisorFault → Log → Prop) (good : α → Log → Prop)
    (p : SupervisorRoutine α) (log : Log) : Prop :=
  Setting.logged.Safe Aimed (fun r log => match r with
    | .ok a => good a log
    | .error x => why x log) p log

section Rules

variable {α β : Type} {why why' : SupervisorFault → Log → Prop} {good : α → Log → Prop}

theorem kept_pure {a : α} (holds : good a log) : Kept why good (pure a) log := by
  rintro _ rfl
  exact holds

theorem kept_raise {x : SupervisorFault} (reason : why x log) :
    Kept why good (Prog.raise x) log := by
  rintro _ rfl
  exact reason

theorem kept_ask {e : SupervisorEffect} {next : e.Value → SupervisorRoutine α} (here : Aimed e log)
    (fails : ∀ x, why x (log ++ [raised e x]))
    (rest : ∀ a, Kept why good (next a) (log ++ [did e a])) :
    Kept why good (ask e >>= next) log := by
  rintro _ rfl
  refine ⟨here, ?_⟩
  rintro a _ rfl
  cases a with
  | ok a => exact rest a
  | error x => exact kept_raise (fails x)

theorem kept_then {mid : β → Log → Prop} {p : SupervisorRoutine β} {next : β → SupervisorRoutine α}
    (first : Kept why mid p log)
    (rest : ∀ b log', log <+: log' → mid b log' → Kept why good (next b) log') :
    Kept why good (p >>= next) log := by
  refine Setting.Safe.bind (first.grows.mono fun r log' ended => ?_)
  cases r with
  | ok b => exact rest b log' ended.1 ended.2
  | error x => exact ended.2

theorem kept_rescue {p : SupervisorRoutine α} {handler : SupervisorFault → SupervisorRoutine α}
    (body : Kept why' good p log)
    (handled : ∀ x log', why' x log' → Kept why good (handler x) log') :
    Kept why good (p.rescue handler) log := by
  refine Setting.Safe.rescue (Setting.Safe.mono body fun r log' ended => ?_)
  cases r with
  | ok a => exact ended
  | error x => exact handled x log' ended

theorem Kept.because {p : SupervisorRoutine α} (kept : Kept why good p log)
    (reasons : ∀ x log, why x log → why' x log) : Kept why' good p log := by
  refine Setting.Safe.mono kept fun r log' ended => ?_
  cases r with
  | ok a => exact ended
  | error x => exact reasons x log' ended

/-- An effect that does nothing more, and what it may raise. -/
theorem kept_last {e : SupervisorEffect} {good : e.Value → Log → Prop} (here : Aimed e log)
    (fails : ∀ x, why x (log ++ [raised e x])) (ends : ∀ a, good a (log ++ [did e a])) :
    Kept why good (ask e) log := by
  rintro _ rfl
  refine ⟨here, ?_⟩
  rintro a _ rfl _ rfl
  cases a with
  | ok a => exact ends a
  | error x => exact fails x

end Rules

/-! ### Killing -/

/-- What is raised hinders the teardown. -/
abbrev Hinders (_ : SupervisorFault) (log : Log) : Prop := Hindered log

/-- An interrupt has come, or something hinders the teardown. -/
def Stopped (x : SupervisorFault) (log : Log) : Prop := x = .keyboardInterrupt ∨ Hindered log

theorem pidAlive_kept :
    Kept Hinders (fun alive log' => alive = false → foundDead pid ∈ log') (pidAlive pid) log := by
  have probes : Kept (fun x log => raised (.probe pid) x ∈ log)
      (fun alive log => alive = false → foundDead pid ∈ log)
      (ask (.probe pid) >>= fun _ => pure true) log :=
    kept_ask trivial (fun x => by simp) fun _ => kept_pure fun dead => by cases dead
  refine kept_rescue probes fun x log' met => ?_
  split
  · exact kept_pure fun _ => met
  · exact kept_pure fun dead => by cases dead
  next other =>
    refine kept_raise ((harmless_or_hindered met).resolve_left ?_)
    rintro ⟨fault, rfl⟩
    exact other fault rfl

/-- A body whose effect may raise the fault that is caught, or be interrupted. -/
theorem catching_kept {e : SupervisorEffect} {fault : ProcessFault} {value : Bool}
    {body : SupervisorRoutine Bool}
    (harmless : ∀ x, Harmless e x → x = .process fault ∨ x = .keyboardInterrupt)
    (raises : Kept (fun x log => raised e x ∈ log) (fun _ _ => True) body log) :
    Kept Stopped (fun _ _ => True) (catching fault value body) log := by
  refine kept_rescue raises fun x log' met => ?_
  split
  · exact kept_pure trivial
  next other =>
    refine kept_raise ?_
    rcases harmless_or_hindered met with ignored | hindered
    · exact .inl ((harmless x ignored).resolve_left other)
    · exact .inr hindered

theorem waitRound_kept : Kept Stopped (fun _ _ => True) (waitRound pid) log := by
  have reaps : Kept Stopped (fun _ _ => True)
      (catching .childProcessError false (ask (.waitpid pid false))) log :=
    catching_kept (e := .waitpid pid false) (fun _ => id)
      (kept_last trivial (fun x => by simp) fun _ => trivial)
  refine kept_then reaps fun reaped log₁ _ _ => ?_
  split
  · exact kept_pure trivial
  · refine kept_then (pidAlive_kept.because fun _ _ => .inr) fun alive log₂ _ _ => ?_
    split
    · exact kept_pure trivial
    · refine kept_ask trivial (fun x => ?_) fun _ => kept_pure trivial
      exact harmless_or_hindered (e := .sleep) (by simp)

theorem gracefulWait_kept (found : Found pid log) :
    Kept Stopped (fun _ _ => True) (gracefulWait pid) log := by
  have sends : Kept Stopped (fun _ _ => True)
      (catching .processLookupError false (ask (.sigterm pid) >>= fun _ => pure true)) log :=
    catching_kept (e := .sigterm pid) (fun _ => id)
      (kept_ask found (fun x => by simp) fun _ => kept_pure trivial)
  refine kept_then sends fun sent log₁ _ _ => ?_
  split
  · have rounds : Kept Stopped (fun _ _ => True)
        (Prog.visit (fun _ => waitRound pid) (List.range 20)) log₁ := by
      refine Setting.Safe.visit (fun _ _ => True) trivial (fun _ _ log _ => ?_)
        (fun _ _ _ _ => trivial) fun _ _ _ _ _ => trivial
      refine Setting.Safe.mono waitRound_kept fun r log' ended => ?_
      rcases r with x | none | up
      · exact ended
      · exact trivial
      · exact trivial
    exact kept_then rounds fun _ _ _ _ => kept_pure trivial
  · exact kept_pure trivial

/-- An interrupt is noted, and it is over with the waiting. -/
theorem waitUnless_kept (interrupted : Bool) (found : Found pid log) :
    Kept Hinders (fun _ _ => True) (waitUnless interrupted pid) log := by
  rw [waitUnless]
  split
  · exact kept_pure trivial
  · have waits : Kept Stopped (fun _ _ => True) (gracefulWait pid >>= fun _ => pure false) log :=
      kept_then (gracefulWait_kept found) fun _ _ _ _ => kept_pure trivial
    refine kept_rescue waits fun x log' stopped => ?_
    split
    · exact kept_pure trivial
    next other => exact kept_raise (stopped.resolve_left other)

/-- A signal that was interrupted hinders; nothing gets out all the same. -/
theorem killOnce_kept (found : Found pid log) :
    Kept Hinders (fun _ log => Hindered log ∨ Finished pid log) (killOnce pid) log := by
  have kills : Kept (fun _ log => Hindered log ∨ Finished pid log)
      (fun _ log => Hindered log ∨ Finished pid log) (do
        let _ ← ask (.sigkill pid)
        let _ ← ask (.waitpid pid true)
        pure ()) log := by
    refine kept_ask found (fun x => ?_) fun _ => ?_
    · have met : raised (.sigkill pid) x ∈ log ++ [raised (.sigkill pid) x] := by simp
      rcases harmless_or_hindered met with rfl | hindered
      · exact .inr (.inr (.inl met))
      · exact .inl hindered
    · have killed : Finished pid (log ++ [did (.sigkill pid) ()]) := .inl (by simp)
      exact kept_ask trivial (fun x => .inr (killed.grows (List.prefix_append _ _)))
        fun _ => kept_pure (.inr (killed.grows (List.prefix_append _ _)))
  exact kept_rescue kills fun _ _ ended => kept_pure ended

theorem forceKill_kept (found : Found pid log) :
    Kept Hinders (fun _ log => Hindered log ∨ Finished pid log) (forceKill pid) log := by
  refine kept_then pidAlive_kept fun alive log₁ grown dead => ?_
  split
  next gone => exact kept_pure (.inr (.inr (.inr (dead (by simpa using gone)))))
  next =>
    refine kept_then (killOnce_kept (found.grows grown)) fun _ log₂ _ finished => ?_
    refine kept_then pidAlive_kept fun _ log₃ grown _ => kept_pure ?_
    exact finished.imp (·.grows grown) (·.grows grown)

/-- One after another, until something hinders it. -/
theorem killAll_kept (interrupted : Bool) (found : ∀ pid ∈ pids, Found pid log) :
    Kept Hinders (fun _ log => Hindered log ∨ ∀ pid ∈ pids, Finished pid log)
      (killAll interrupted pids) log := by
  induction pids generalizing interrupted log with
  | nil => exact kept_pure (.inr fun pid member => by cases member)
  | cons pid rest ih =>
    have here := found pid (by simp)
    refine kept_then (waitUnless_kept interrupted here) fun interrupted log₁ grown₁ _ => ?_
    refine kept_then (forceKill_kept (here.grows grown₁)) fun _ log₂ grown₂ first => ?_
    have later : ∀ p ∈ rest, Found p log₂ := fun p member =>
      (found p (List.mem_cons_of_mem pid member)).grows (grown₁.trans grown₂)
    refine Setting.Safe.mono (Setting.Safe.grows (ih interrupted later)) fun r log₃ ended => ?_
    cases r with
    | error x => exact ended.2
    | ok _ =>
      rcases first with hindered | finished
      · exact .inl (hindered.grows ended.1)
      · refine ended.2.imp_right fun others p member => ?_
        rcases List.mem_cons.mp member with rfl | member
        · exact finished.grows ended.1
        · exact others p member

theorem clearState_kept :
    Kept Hinders (fun _ log => Hindered log ∨ Cleared log) clearState log := by
  have unlinks : Kept (fun x log => raised .unlinkState x ∈ log)
      (fun _ log => Hindered log ∨ Cleared log) (ask .unlinkState) log :=
    kept_last trivial (fun x => by simp) fun _ => .inr (.inl (by simp))
  refine kept_rescue unlinks fun x log' met => ?_
  have outcome := harmless_or_hindered met
  split
  · exact kept_raise (outcome.resolve_left fun absent => by cases absent)
  · rcases outcome with rfl | hindered
    · exact kept_pure (.inr (.inr met))
    · exact kept_pure (.inl hindered)

/-! ### What it has found -/

theorem pidRuns_kept (log : Log) :
    Kept Hinders (fun runs log' => match runs with
      | true => log' = log ++ [did (.probe pid) ()]
      | false => ∃ fault, log' = log ++ [raised (.probe pid) (.process fault)]) (pidRuns pid) log := by
  have probes : Kept (fun x log' => log' = log ++ [raised (.probe pid) x])
      (fun runs log' => match runs with
        | true => log' = log ++ [did (.probe pid) ()]
        | false => ∃ fault, log' = log ++ [raised (.probe pid) (.process fault)])
      (ask (.probe pid) >>= fun _ => pure true) log :=
    kept_ask trivial (fun _ => rfl) fun _ => kept_pure rfl
  refine kept_rescue probes fun x log' same => ?_
  have met : raised (.probe pid) x ∈ log' := by simp [same]
  split
  next fault => exact kept_pure ⟨fault, same⟩
  next other =>
    refine kept_raise ((harmless_or_hindered met).resolve_left ?_)
    rintro ⟨fault, rfl⟩
    exact other fault rfl

theorem statePids_kept (log : Log) :
    Kept Hinders (fun pids log' => ∃ l, log' = log ++ l ∧ Named pids l) statePids log := by
  refine kept_ask trivial (fun x => ⟨.readState, x, by simp, id⟩) fun found => ?_
  cases chosen : found.bind fun st => truePid st.pid with
  | none => exact kept_pure ⟨_, rfl, .nobody chosen⟩
  | some pid =>
    obtain ⟨st, rfl, named⟩ := Option.bind_eq_some_iff.mp chosen
    refine kept_then (pidRuns_kept _) fun runs log' _ probed => ?_
    cases runs with
    | true => exact kept_pure ⟨_, by simp [probed], .runs named⟩
    | false =>
      obtain ⟨fault, rfl⟩ := probed
      exact kept_pure ⟨[did .readState (some st), raised (.probe pid) (.process fault)], by simp,
        .gone named⟩

theorem liveLockHolder_kept (log : Log) : Kept Hinders (Looked log) liveLockHolder log := by
  have looks : Fine Aimed (Looked log) liveLockHolder log := liveLockHolder_fine open_aimed
  have raises : Kept Hinders (fun _ _ => True) liveLockHolder log := by
    refine kept_ask trivial (fun x => ⟨.readHolder, x, by simp, id⟩) fun found => ?_
    split
    · exact kept_pure trivial
    next pid holder _ =>
      refine kept_ask trivial (fun x => ⟨.isAlive pid, x, by simp, id⟩) fun alive => ?_
      split
      · exact kept_pure trivial
      · refine kept_ask trivial (fun x => ⟨.startFingerprint pid, x, by simp, id⟩) fun shown => ?_
        split <;> exact kept_pure trivial
  refine (looks.both raises).mono fun r log' ended => ?_
  cases r with
  | ok found => exact ended.1 found rfl
  | error x => exact ended.2

/-- Whoever both looks have named was found. -/
theorem Surveyed.found (surveyed : Surveyed pids log) : ∀ pid ∈ pids, Found pid log := by
  obtain ⟨named, found, first, names, looked, rfl⟩ := surveyed
  intro pid member
  rcases List.mem_append.mp member with called | holds
  · have grown : first <+: log := by
      rcases looked with ⟨-, look, -, rfl⟩ | ⟨_, holder, -, -, rfl⟩ <;> exact List.prefix_append _ _
    refine Found.grows ?_ grown
    cases names with
    | nobody | gone => cases called
    | runs named =>
      obtain rfl := List.mem_singleton.mp called
      exact .inl ⟨_, named, by simp, by simp⟩
  · obtain ⟨held, rfl, rfl⟩ : ∃ held, found = some held ∧ held.1 = pid := by
      simpa [Option.mem_toList] using (List.mem_filter.mp holds).1
    exact .inr ⟨_, looked.seen⟩

/-! ### Every run -/

/-- What is not swallowed: the whole body of a teardown. -/
theorem body_kept :
    Kept Hinders (fun _ log => Hindered log ∨ TornDown log) (do
      let pids ← statePids
      let holder ← liveLockHolder
      let pids := pids ++ (holder.map (·.1)).toList.filter (· ∉ pids)
      killAll false pids
      clearState) [] := by
  refine kept_then (statePids_kept []) fun named log₁ _ names => ?_
  refine kept_then (liveLockHolder_kept log₁) fun found log₂ _ looked => ?_
  have surveyed : Surveyed (named ++ (found.map (·.1)).toList.filter (· ∉ named)) log₂ := by
    obtain ⟨first, same, names⟩ := names
    obtain rfl : log₁ = first := by simpa using same
    exact ⟨named, found, log₁, names, looked, rfl⟩
  refine kept_then (killAll_kept false surveyed.found) fun _ log₃ grown₃ finished => ?_
  refine Setting.Safe.mono (Setting.Safe.grows clearState_kept) fun r log₄ ended => ?_
  cases r with
  | error x => exact ended.2
  | ok _ =>
    rcases finished with hindered | finished
    · exact .inl (hindered.grows ended.1)
    · refine ended.2.imp_right fun cleared => ?_
      exact ⟨_, log₂, grown₃.trans ended.1, surveyed, cleared,
        fun pid member => (finished pid member).grows ended.1⟩

/-- Whatever the system answers or raises while a daemon is torn down. -/
theorem teardown_sound {r : Except SupervisorFault Unit} (run : Prog.Yields teardown log r) :
    r = .ok () ∧ (∀ before ev after, log = before ++ ev :: after → Aimed ev.1 before) ∧
      (Hindered log ∨ TornDown log) := by
  have safe : Setting.logged.Safe Aimed (fun r log => r = .ok () ∧ (Hindered log ∨ TornDown log))
      teardown [] := by
    refine Setting.Safe.rescue (Setting.Safe.mono body_kept fun r log' ended => ?_)
    cases r with
    | ok _ => exact ⟨rfl, ended⟩
    | error x =>
      rintro _ rfl
      exact ⟨rfl, .inl ended⟩
  obtain ⟨⟨rfl, ended⟩, aimed⟩ := safe.yields run
  exact ⟨rfl, aimed, ended⟩

/-- A daemon that dies of SIGTERM, torn down. -/
theorem teardown_sound_sample : TornDown (Prog.trail sampleHost teardown (some 7)) := by
  refine (teardown_sound (Prog.yields_run sampleHost teardown (some 7))).2.2.resolve_left ?_
  rintro ⟨e, x, met, harmful⟩
  have trail : Prog.trail sampleHost teardown (some 7) =
      [did .readState (some { pid := some 7, transport := none }), did (.probe 7) (),
        did .readHolder (some ⟨some 7, some "f", some "unix", none⟩), did (.isAlive 7) true,
        did (.startFingerprint 7) (some "f"), did (.sigterm 7) (),
        raised (.waitpid 7 false) (.process .childProcessError), foundDead 7, foundDead 7,
        did .unlinkState ()] := rfl
  rw [trail] at met
  simp only [foundDead, List.mem_cons, raised_ne_did, raised_inj, false_or, or_false,
    List.not_mem_nil, or_self] at met
  rcases met with ⟨rfl, rfl⟩ | ⟨rfl, rfl⟩
  · exact harmful (.inl rfl)
  · exact harmful ⟨_, rfl⟩

end GenerationSupervisor

end Nelix.Router
