import Nelix.Core.Machine
import Mathlib.Data.List.Sort
import Mathlib.Data.Rat.Defs
import Mathlib.Algebra.Order.Ring.Rat
import Mathlib.Logic.Function.Basic

/-!
# The session directories of one home

Every start runs a collection over the one tree of session directories, with its own daemon's table
as the keep set. The daemons of all generations share the tree, and their starts interleave.

## Main results

`collections_spare_registered`: no collection removes the directory of a registered session, as
long as the rakes themselves would spare it and no start takes an id that a collection has listed.
-/
namespace Nelix.Daemon

open Core

/-! ### The rakes -/

/-- `session_retain` and `session_max_age_days`; 0 disables a rake. -/
structure Retention where
  retain : ℕ
  maxAgeDays : ℕ

/-- The age rake takes a directory with this activity. -/
def Retention.tooOld (r : Retention) (now activity : ℚ) : Bool :=
  r.maxAgeDays ≠ 0 && (r.maxAgeDays : ℚ) < (now - activity) / 86400

/-- `survivors.sort(key=_session_activity)`, oldest first. -/
def byActivity (activity : String → ℚ) (survivors : List String) : List String :=
  survivors.insertionSort fun a b => activity a ≤ activity b

/-- The survivors that the count rake takes. -/
def Retention.excess (r : Retention) (activity : String → ℚ) (survivors : List String) :
    List String :=
  if r.retain ≠ 0 ∧ r.retain < survivors.length then
    (byActivity activity survivors).take (survivors.length - r.retain)
  else []

/-- The survivors that the count rake leaves: as many of the newest as are retained. -/
def Retention.newest (r : Retention) (activity : String → ℚ) (survivors : List String) :
    List String :=
  if r.retain ≠ 0 then (byActivity activity survivors).drop (survivors.length - r.retain)
  else survivors

theorem mem_of_mem_excess {r : Retention} {activity : String → ℚ} {survivors : List String}
    {name : String} (picked : name ∈ r.excess activity survivors) : name ∈ survivors := by
  unfold Retention.excess at picked
  split at picked
  · exact (List.perm_insertionSort _ _).mem_iff.mp (List.mem_of_mem_take picked)
  · cases picked

theorem nodup_excess {r : Retention} {activity : String → ℚ} {survivors : List String}
    (distinct : survivors.Nodup) : (r.excess activity survivors).Nodup := by
  unfold Retention.excess
  split
  · exact ((List.perm_insertionSort _ _).nodup_iff.mpr distinct).sublist (List.take_sublist _ _)
  · exact List.nodup_nil

/-- Of distinct survivors the count rake takes exactly those that are not among the newest. -/
theorem mem_excess_iff {r : Retention} {activity : String → ℚ} {survivors : List String}
    (distinct : survivors.Nodup) {name : String} (member : name ∈ survivors) :
    name ∈ r.excess activity survivors ↔ name ∉ r.newest activity survivors := by
  have sorted : (byActivity activity survivors).Perm survivors := List.perm_insertionSort _ _
  have split : name ∈ (byActivity activity survivors).take (survivors.length - r.retain) ∨
      name ∈ (byActivity activity survivors).drop (survivors.length - r.retain) := by
    rw [← List.mem_append, List.take_append_drop]
    exact sorted.mem_iff.mpr member
  have apart := List.disjoint_take_drop (sorted.nodup_iff.mpr distinct)
    (le_refl (survivors.length - r.retain))
  unfold Retention.excess Retention.newest
  by_cases off : r.retain = 0
  · simp [off, member]
  by_cases few : r.retain < survivors.length
  · rw [if_pos ⟨off, few⟩, if_pos off]
    exact ⟨fun taken dropped => apart taken dropped, fun kept => split.resolve_right kept⟩
  · rw [if_neg fun both => few both.2, if_pos off]
    have all : survivors.length - r.retain = 0 := by omega
    rw [all, List.drop_zero, sorted.mem_iff]
    exact iff_of_false (List.not_mem_nil) (not_not_intro member)

/-! ### Starts over one tree -/

/-- Where a start's collection stands. -/
inductive Collection
  /-- The id was not in use; the session is not registered yet. -/
  | looked
  /-- The session is registered, and this is the keep set. -/
  | kept (keep : List String)
  /-- The tree is listed; `survivors` have passed the age rake. -/
  | aging (now : ℚ) (todo survivors : List String)
  /-- The count rake has picked these. -/
  | pruning (victims : List String)

/-- A start under way. -/
structure StartUnderWay where
  daemon : ℕ
  sessionId : String
  stage : Collection

/-- The tree, the session table of each daemon, and the starts under way. -/
structure Home where
  dirs : List String := []
  sessions : ℕ → List String := fun _ => []
  starts : ℕ → Option StartUnderWay := fun _ => none

inductive HomeMove
  /-- `_session_id_exists`, before the lock is taken. -/
  | look (start daemon : ℕ) (sessionId : String)
  /-- Under the daemon's lock the table is looked up once more, the session is registered and the keep
  set is taken. -/
  | register (start : ℕ)
  /-- `root.iterdir()`, in whatever order; `now` was read before it. -/
  | list (start : ℕ) (now : ℚ) (names : List String)
  /-- The next listed directory, with the activity that is read of it. -/
  | age (start : ℕ) (activity : ℚ)
  /-- Sorts the survivors by the activities that are read of them. -/
  | rank (start : ℕ) (activity : String → ℚ)
  | prune (start : ℕ)
  /-- The owner record is written into the session's own directory. -/
  | create (start : ℕ)
  /-- The session is terminal, or its start has failed. -/
  | forget (daemon : ℕ) (sessionId : String)

/-- A directory is removed. -/
structure Removal where
  home : Home
  name : String

namespace Home

def Registered (home : Home) (name : String) : Prop := ∃ d, name ∈ home.sessions d

def setStage (home : Home) (start : ℕ) (under : StartUnderWay) (stage : Collection) : Home :=
  { home with starts := Function.update home.starts start (some { under with stage := stage }) }

def rmtree (home : Home) (name : String) : Home :=
  { home with dirs := home.dirs.filter (· ≠ name) }

/-- One step of one start, or of a session's end; `settings` are each daemon's. -/
def step (settings : ℕ → Retention) (home : Home) : HomeMove → Home × List Removal
  | .look start daemon sessionId =>
    if home.starts start = none ∧ sessionId ∉ home.sessions daemon ∧ sessionId ∉ home.dirs then
      ({ home with
          starts := Function.update home.starts start (some ⟨daemon, sessionId, .looked⟩) }, [])
    else (home, [])
  | .register start =>
    match home.starts start with
    | some ⟨daemon, sessionId, .looked⟩ =>
      if sessionId ∉ home.sessions daemon then
        let table := sessionId :: home.sessions daemon
        ({ home with
            sessions := Function.update home.sessions daemon table
            starts := Function.update home.starts start (some ⟨daemon, sessionId, .kept table⟩) },
          [])
      else ({ home with starts := Function.update home.starts start none }, [])
    | _ => (home, [])
  | .list start now names =>
    match home.starts start with
    | some ⟨daemon, sessionId, .kept keep⟩ =>
      if names.Perm (home.dirs.filter (· ∉ keep)) then
        (home.setStage start ⟨daemon, sessionId, .kept keep⟩ (.aging now names []), [])
      else (home, [])
    | _ => (home, [])
  | .age start activity =>
    match home.starts start with
    | some ⟨daemon, sessionId, .aging now (name :: todo) survivors⟩ =>
      let under : StartUnderWay := ⟨daemon, sessionId, .aging now (name :: todo) survivors⟩
      if (settings daemon).tooOld now activity then
        ((home.setStage start under (.aging now todo survivors)).rmtree name, [⟨home, name⟩])
      else (home.setStage start under (.aging now todo (survivors ++ [name])), [])
    | _ => (home, [])
  | .rank start activity =>
    match home.starts start with
    | some ⟨daemon, sessionId, .aging now [] survivors⟩ =>
      (home.setStage start ⟨daemon, sessionId, .aging now [] survivors⟩
        (.pruning ((settings daemon).excess activity survivors)), [])
    | _ => (home, [])
  | .prune start =>
    match home.starts start with
    | some ⟨daemon, sessionId, .pruning (name :: victims)⟩ =>
      ((home.setStage start ⟨daemon, sessionId, .pruning (name :: victims)⟩
        (.pruning victims)).rmtree name, [⟨home, name⟩])
    | _ => (home, [])
  | .create start =>
    match home.starts start with
    | some ⟨_, sessionId, .pruning []⟩ =>
      ({ home with
          dirs := if sessionId ∈ home.dirs then home.dirs else home.dirs ++ [sessionId]
          starts := Function.update home.starts start none },
        [])
    | _ => (home, [])
  | .forget daemon sessionId =>
    ({ home with
        sessions := Function.update home.sessions daemon
          ((home.sessions daemon).filter (· ≠ sessionId)) },
      [])

def machine (settings : ℕ → Retention) : Machine Home HomeMove Removal := ⟨step settings⟩

end Home

/-- The directory that is removed is no registered session's. -/
def Removal.Spares (r : Removal) : Prop := ¬ r.home.Registered r.name

/-- What a collection has listed and not let go of. -/
def Collection.listed : Collection → List String
  | .looked | .kept _ => []
  | .aging _ todo survivors => todo ++ survivors
  | .pruning victims => victims

/-- The rakes spare what is registered, and no start takes an id that a collection has listed. -/
def HomeMove.Careful (settings : ℕ → Retention) (home : Home) : HomeMove → Prop
  | .register start =>
    ∀ daemon sessionId, home.starts start = some ⟨daemon, sessionId, .looked⟩ →
      ∀ other under, home.starts other = some under → sessionId ∉ under.stage.listed
  | .age start activity =>
    ∀ daemon sessionId now name todo survivors,
      home.starts start = some ⟨daemon, sessionId, .aging now (name :: todo) survivors⟩ →
      home.Registered name → (settings daemon).tooOld now activity = false
  | .rank start activity =>
    ∀ daemon sessionId now survivors,
      home.starts start = some ⟨daemon, sessionId, .aging now [] survivors⟩ →
      ∀ name ∈ survivors, home.Registered name →
        name ∈ (settings daemon).newest activity survivors
  | _ => True

/-! ### What a careful run keeps -/

/-- What a collection has listed is distinct, and what it has picked is unregistered. -/
structure Collection.Fair (home : Home) (stage : Collection) : Prop where
  distinct : stage.listed.Nodup
  unregistered : ∀ victims, stage = .pruning victims →
    ∀ name ∈ victims, ¬ home.Registered name

/-- The tree names each directory once, and every collection is fair. -/
structure Home.Orderly (home : Home) : Prop where
  dirs : home.dirs.Nodup
  fair : ∀ start under, home.starts start = some under → under.stage.Fair home

variable {settings : ℕ → Retention} {home : Home} {start : ℕ} {under : StartUnderWay}
  {stage : Collection} {name : String}

/-- A start comes or goes, with a collection that is fair. -/
theorem Home.Orderly.setStart {entry : Option StartUnderWay} (orderly : home.Orderly)
    (fair : ∀ under, entry = some under → under.stage.Fair home) :
    Home.Orderly { home with starts := Function.update home.starts start entry } := by
  refine ⟨orderly.dirs, fun other held found => ?_⟩
  dsimp only at found
  rw [Function.update_apply] at found
  have kept : held.stage.Fair home := by
    split at found
    · exact fair held found
    · exact orderly.fair other held found
  exact ⟨kept.distinct, kept.unregistered⟩

theorem Home.Orderly.setStage (orderly : home.Orderly) (fair : stage.Fair home) :
    (home.setStage start under stage).Orderly :=
  orderly.setStart fun held same => by
    cases same
    exact fair

theorem Home.Orderly.rmtree (orderly : home.Orderly) (name : String) : (home.rmtree name).Orderly :=
  ⟨orderly.dirs.filter _, fun other held found =>
    ⟨(orderly.fair other held found).distinct, (orderly.fair other held found).unregistered⟩⟩

/-- Fewer registered sessions leave a collection fair. -/
theorem Collection.Fair.mono {home' : Home} (fair : stage.Fair home)
    (fewer : ∀ name ∈ stage.listed, home'.Registered name → home.Registered name) :
    stage.Fair home' := by
  refine ⟨fair.distinct, ?_⟩
  rintro victims rfl name member registered
  exact fair.unregistered victims rfl name member (fewer name member registered)

/-- Each careful step keeps the home orderly. -/
theorem Home.Orderly.step (orderly : home.Orderly) (move : HomeMove)
    (careful : move.Careful settings home) : (home.step settings move).1.Orderly := by
  cases move with
  | look start daemon sessionId =>
    rw [Home.step]
    split
    · exact orderly.setStart fun under same => by
        cases same
        exact ⟨List.nodup_nil, nofun⟩
    · exact orderly
  | register start =>
    rw [Home.step]
    split
    next daemon sessionId looked =>
      split
      · refine ⟨orderly.dirs, fun other held found => ?_⟩
        dsimp only at found ⊢
        rw [Function.update_apply] at found
        split at found
        · cases found
          exact ⟨List.nodup_nil, nofun⟩
        · refine (orderly.fair other held found).mono fun name listed => ?_
          rintro ⟨d, registered⟩
          dsimp only at registered
          rw [Function.update_apply] at registered
          split at registered
          · rename_i same
            subst same
            -- a name that is registered now is not in a listing: that is what careful says
            rcases List.mem_cons.mp registered with rfl | before
            · exact absurd listed (careful _ name looked other held found)
            · exact ⟨d, before⟩
          · exact ⟨d, registered⟩
      · exact orderly.setStart nofun
    next => exact orderly
  | list start now names =>
    rw [Home.step]
    split
    · split
      · rename_i listed
        refine orderly.setStage ⟨?_, nofun⟩
        rw [Collection.listed, List.append_nil]
        exact listed.nodup_iff.mpr (orderly.dirs.filter _)
      · exact orderly
    · exact orderly
  | age start activity =>
    rw [Home.step]
    split
    · rename_i daemon sessionId now name todo survivors found
      have distinct := (orderly.fair start _ found).distinct
      rw [Collection.listed, List.cons_append, List.nodup_cons] at distinct
      dsimp only
      split
      · have fair : (Collection.aging now todo survivors).Fair home := ⟨distinct.2, nofun⟩
        exact (orderly.setStage fair).rmtree name
      · -- it moves from those to be looked at to the survivors
        refine orderly.setStage ⟨?_, nofun⟩
        rw [Collection.listed, ← List.append_assoc]
        exact (List.perm_append_singleton name (todo ++ survivors)).nodup_iff.mpr
          (List.nodup_cons.mpr distinct)
    · exact orderly
  | rank start activity =>
    rw [Home.step]
    split
    · rename_i daemon sessionId now survivors found
      have distinct : survivors.Nodup := (orderly.fair start _ found).distinct
      refine orderly.setStage ⟨nodup_excess distinct, ?_⟩
      rintro victims same name picked registered
      cases same
      have member := mem_of_mem_excess picked
      exact (mem_excess_iff distinct member).mp picked
        (careful daemon sessionId now survivors found name member registered)
    · exact orderly
  | prune start =>
    rw [Home.step]
    split
    · rename_i daemon sessionId name victims found
      have fair := orderly.fair start _ found
      have rest : (Collection.pruning victims).Fair home := by
        refine ⟨(List.nodup_cons.mp fair.distinct).2, ?_⟩
        rintro rest same other member
        cases same
        exact fair.unregistered _ rfl other (List.mem_cons_of_mem name member)
      exact (orderly.setStage rest).rmtree name
    · exact orderly
  | create start =>
    rw [Home.step]
    split
    · refine ⟨?_, fun other held found => ?_⟩
      · dsimp only
        split
        · exact orderly.dirs
        · rename_i fresh
          exact List.nodup_append.mpr ⟨orderly.dirs, List.nodup_singleton _, by
            rintro a member b here rfl
            exact fresh (List.mem_singleton.mp here ▸ member)⟩
      · dsimp only at found
        rw [Function.update_apply] at found
        split at found
        · cases found
        · exact ⟨(orderly.fair other held found).distinct,
            (orderly.fair other held found).unregistered⟩
    · exact orderly
  | forget daemon sessionId =>
    refine ⟨orderly.dirs, fun other held found => ?_⟩
    refine (orderly.fair other held found).mono fun name _ => ?_
    rintro ⟨d, registered⟩
    simp only [Home.step, Function.update_apply] at registered
    split at registered
    · rename_i same
      exact ⟨d, same ▸ (List.mem_filter.mp registered).1⟩
    · exact ⟨d, registered⟩

/-- Each careful step removes the directory of no registered session. -/
theorem Home.Orderly.removes (orderly : home.Orderly) (move : HomeMove)
    (careful : move.Careful settings home) :
    ∀ r ∈ (home.step settings move).2, r.Spares := by
  cases move with
  | age start activity =>
    rw [Home.step]
    split
    · rename_i daemon sessionId now name todo survivors found
      dsimp only
      split
      · rename_i old
        intro r member registered
        rw [List.mem_singleton.mp member] at registered
        have young := careful daemon sessionId now name todo survivors found registered
        rw [young] at old
        cases old
      · exact nofun
    · exact nofun
  | prune start =>
    rw [Home.step]
    split
    · rename_i daemon sessionId name victims found
      intro r member
      rw [List.mem_singleton.mp member]
      exact (orderly.fair start _ found).unregistered _ rfl name List.mem_cons_self
    · exact nofun
  | look | register | list | rank | create =>
    rw [Home.step]
    repeat' split
    all_goals exact nofun
  | forget => exact nofun

/-- No collection removes the directory of a session that is registered in any of the daemons, as
long as the rakes spare what is registered and no start takes an id that a collection has listed. -/
theorem collections_spare_registered (settings : ℕ → Retention) (dirs : List String)
    (distinct : dirs.Nodup) (moves : List HomeMove)
    (careful : (Home.machine settings).Along (fun home move => move.Careful settings home)
      { dirs := dirs } moves) :
    ∀ r ∈ (Home.machine settings).outputs { dirs := dirs } moves, r.Spares :=
  (Home.machine settings).outputs_along Home.Orderly Removal.Spares
    (fun _ move orderly careful => orderly.step move careful)
    (fun _ move orderly careful => orderly.removes move careful)
    ⟨distinct, fun _ _ found => by cases found⟩ careful

/-! ### Where a step is careless -/

/-- An activity that is too old costs a registered session its directory. -/
theorem age_removes {activity now : ℚ} {daemon : ℕ} {sessionId : String}
    {todo survivors : List String}
    (found : home.starts start = some ⟨daemon, sessionId, .aging now (name :: todo) survivors⟩)
    (old : (settings daemon).tooOld now activity = true) :
    (home.step settings (.age start activity)).2 = [⟨home, name⟩] := by
  rw [Home.step, found]
  dsimp only
  rw [if_pos old]

/-- A survivor that is not among the newest is picked. -/
theorem rank_picks {activity : String → ℚ} {now : ℚ} {daemon : ℕ} {sessionId : String}
    {survivors : List String} (orderly : home.Orderly)
    (found : home.starts start = some ⟨daemon, sessionId, .aging now [] survivors⟩)
    (member : name ∈ survivors) (out : name ∉ (settings daemon).newest activity survivors) :
    ∃ victims, name ∈ victims ∧ (home.step settings (.rank start activity)).1.starts start =
      some ⟨daemon, sessionId, .pruning victims⟩ := by
  have distinct : survivors.Nodup := (orderly.fair start _ found).distinct
  refine ⟨(settings daemon).excess activity survivors, (mem_excess_iff distinct member).mpr out, ?_⟩
  rw [Home.step, found]
  exact Function.update_self ..

/-! ### Two daemons -/

/-- The settings a daemon has by default. -/
def defaultRetention : Retention := ⟨20, 7⟩

/-- A start with the directories it lists, the moment and the activity it reads of each. -/
def startMoves (start daemon : ℕ) (sessionId : String) (now : ℚ) (names : List String)
    (activity : ℚ) : List HomeMove :=
  [.look start daemon sessionId, .register start, .list start now names] ++
    names.map (fun _ => .age start activity) ++ [.rank start fun _ => activity, .create start]

/-- The next generation's daemon starts a session while the draining one has another. -/
def secondStart (now : ℚ) : List HomeMove :=
  startMoves 0 0 "first" 0 [] 0 ++ startMoves 1 1 "second" now ["first"] 0

/-- The next generation's daemon starts a session beside a directory that a session of another time
has left and that of the draining daemon's session, which was active a minute ago. -/
def leftoverMoves : List HomeMove :=
  startMoves 0 0 "first" 0 ["left"] 0 ++
    [.look 1 1 "second", .register 1, .list 1 (8 * 86400) ["left", "first"], .age 1 0,
      .age 1 (8 * 86400 - 60)]

/-- The home where the first session has been started beside the directory that was left. -/
def firstStarted : Home where
  dirs := ["left", "first"]
  sessions := Function.update (fun _ => []) 0 ["first"]

theorem fresh_left : defaultRetention.tooOld 0 0 = false := by decide +kernel

theorem after_first : (Home.machine fun _ => defaultRetention).after { dirs := ["left"] }
    (startMoves 0 0 "first" 0 ["left"] 0) = firstStarted := by
  have kept : defaultRetention.excess (fun _ => 0) ["left"] = [] := by decide +kernel
  simp [startMoves, firstStarted, Home.machine, Home.step, Home.setStage, fresh_left, kept]

/-- Nothing is listed by the only start there is, which has just looked. -/
theorem looked_listed {start daemon : ℕ} {sessionId name : String} (other : ℕ)
    (under : StartUnderWay)
    (held : Function.update (fun _ => none) start (some ⟨daemon, sessionId, .looked⟩) other =
      some under) : ¬ name ∈ under.stage.listed := by
  rw [Function.update_apply] at held
  split at held
  · cases held
    exact List.not_mem_nil
  · cases held

theorem first_careful : (Home.machine fun _ => defaultRetention).Along
    (fun home move => move.Careful (fun _ => defaultRetention) home) { dirs := ["left"] }
    (startMoves 0 0 "first" 0 ["left"] 0) := by
  have newest : defaultRetention.newest (fun _ => 0) ["left"] = ["left"] := by decide +kernel
  simp only [Home.machine, HomeMove.Careful, startMoves, List.map_cons, List.map_nil,
    List.cons_append, List.nil_append, Machine.along_cons, Home.step, List.not_mem_nil,
    not_false_eq_true, List.mem_cons, String.reduceEq, or_self, and_self, ↓reduceIte,
    Function.update_self, Option.some.injEq, StartUnderWay.mk.injEq, and_true, and_imp,
    forall_apply_eq_imp_iff, forall_eq', Function.update_idem, or_false, decide_not, decide_false,
    Bool.not_false, List.filter_cons_of_pos, List.filter_nil, List.Perm.refl, Home.setStage,
    Collection.aging.injEq, List.cons.injEq, List.nil_eq, fresh_left, Bool.false_eq_true, true_and,
    Function.update_eq_self, Machine.along_nil]
  refine ⟨looked_listed, ?_, ?_⟩
  · rintro _ _ _ _ _ _ rfl rfl rfl rfl rfl rfl -
    exact fresh_left
  · rintro _ _ _ _ rfl rfl rfl rfl name member -
    rwa [newest]

theorem leftover_careful : (Home.machine fun _ => defaultRetention).Along
    (fun home move => move.Careful (fun _ => defaultRetention) home) { dirs := ["left"] }
    leftoverMoves := by
  have old : defaultRetention.tooOld (8 * 86400) 0 = true := by decide +kernel
  have young : defaultRetention.tooOld (8 * 86400) (8 * 86400 - 60) = false := by decide +kernel
  rw [leftoverMoves, Machine.along_append, after_first]
  refine ⟨first_careful, ?_⟩
  simp only [Home.machine, HomeMove.Careful, firstStarted, Machine.along_cons, Home.step, ne_eq,
    one_ne_zero, not_false_eq_true, Function.update_of_ne, List.not_mem_nil, List.mem_cons,
    String.reduceEq, or_self, and_self, ↓reduceIte, Function.update_self, Option.some.injEq,
    StartUnderWay.mk.injEq, and_true, and_imp, forall_apply_eq_imp_iff, forall_eq',
    Function.update_idem, or_false, decide_not, decide_false, Bool.not_false,
    List.filter_cons_of_pos, List.filter_nil, List.Perm.refl, Home.setStage,
    Collection.aging.injEq, List.cons.injEq, List.nil_eq, old, Home.rmtree, decide_true,
    Bool.not_true, Bool.false_eq_true, List.filter_cons_of_neg, List.nil_append,
    Machine.along_nil, true_and]
  refine ⟨looked_listed, ?_, ?_⟩
  · rintro _ _ _ _ _ _ rfl rfl rfl rfl rfl rfl ⟨d, member⟩
    simp only [Function.update_apply] at member
    repeat' split at member
    all_goals simp at member
  · rintro _ _ _ _ _ _ rfl rfl rfl rfl rfl rfl -
    exact young

theorem collections_spare_registered_left :
    ((Home.machine fun _ => defaultRetention).outputs { dirs := ["left"] }
        leftoverMoves).map Removal.name = ["left"] ∧
      ∀ r ∈ (Home.machine fun _ => defaultRetention).outputs { dirs := ["left"] } leftoverMoves,
        r.Spares :=
  ⟨by decide +kernel, collections_spare_registered (fun _ => defaultRetention) ["left"]
    (List.nodup_singleton _) leftoverMoves leftover_careful⟩

/-- A session of the draining daemon that has been idle for eight days loses its directory to a
start of the next one. -/
theorem idle_session_removed :
    ((Home.machine fun _ => defaultRetention).outputs {} (secondStart (8 * 86400))).map
        (fun r => (r.name, r.home.sessions 0)) = [("first", ["first"])] ∧
      ¬ ∀ r ∈ (Home.machine fun _ => defaultRetention).outputs {} (secondStart (8 * 86400)),
        r.Spares := by
  have removed : ((Home.machine fun _ => defaultRetention).outputs {}
      (secondStart (8 * 86400))).map (fun r => (r.name, r.home.sessions 0)) =
        [("first", ["first"])] := by decide +kernel
  refine ⟨removed, fun spares => ?_⟩
  obtain ⟨r, member, shown⟩ := List.mem_map.mp (removed ▸ List.mem_singleton_self _)
  rw [Prod.mk.injEq] at shown
  exact spares r member ⟨0, by simp [shown]⟩

end Nelix.Daemon
