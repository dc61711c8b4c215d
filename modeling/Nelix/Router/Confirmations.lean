import Nelix.Router.OperatorScene
import Nelix.Store.Numbers
import Nelix.Store.Collector
import Mathlib.Order.Bounds.Defs

/-!
# Confirmed receipts

Any number of the operator's resolutions over a store that everybody else writes to: each lists the
receipts of an epoch in one read and confirms a prefix of them in a later write.

## Main results

`numbers_confirmed`: as long as no receipt is deleted and no start is bound twice, the receipts of
an epoch are numbered without a gap, the confirmed number only grows up to the last one, and a
resolution takes it to the end of the prefix that it has seen.
-/
namespace Nelix.Router

open Contracts Core Store Prog Routine

/-! ### The prefix without a gap -/

theorem contiguousFrom_spec (existing : List ℕ) (hw fuel : ℕ) :
    hw ≤ contiguousFrom existing hw fuel ∧
      (∀ i, hw < i → i ≤ contiguousFrom existing hw fuel → i ∈ existing) ∧
      (contiguousFrom existing hw fuel = hw + fuel ∨
        contiguousFrom existing hw fuel + 1 ∉ existing) := by
  induction fuel generalizing hw with
  | zero => exact ⟨le_refl _, fun i above below => absurd below (Nat.not_le.mpr above), .inl rfl⟩
  | succ fuel ih =>
    unfold contiguousFrom
    split
    · rename_i next
      obtain ⟨above, there, stops⟩ := ih (hw + 1)
      refine ⟨by omega, fun i low high => ?_, ?_⟩
      · by_cases first : i = hw + 1
        · exact first ▸ next
        · exact there i (by omega) high
      · exact stops.imp (fun eq => by omega) id
    · rename_i missing
      exact ⟨le_refl _, fun i above below => absurd below (Nat.not_le.mpr above), .inr missing⟩

theorem le_length_of_prefix {existing : List ℕ} {k : ℕ}
    (all : ∀ i, 1 ≤ i → i ≤ k → i ∈ existing) : k ≤ existing.length := by
  have distinct : (List.range' 1 k).Nodup := List.nodup_range'
  have inside : List.range' 1 k ⊆ existing := by
    intro i member
    rw [List.mem_range'_1] at member
    exact all i member.1 (by omega)
  simpa using (List.subperm_of_subset distinct inside).length_le

/-- `contiguous` is the length of the longest prefix that is there without a gap. -/
theorem le_contiguous {existing : List ℕ} {k : ℕ} :
    k ≤ contiguous existing ↔ ∀ i, 1 ≤ i → i ≤ k → i ∈ existing := by
  obtain ⟨-, there, stops⟩ := contiguousFrom_spec existing 0 existing.length
  constructor
  · exact fun below i low high => there i low (high.trans below)
  · intro all
    by_contra beyond
    rw [not_le] at beyond
    have next : contiguous existing + 1 ∈ existing := all _ (by omega) beyond
    rcases stops with full | missing
    · -- The walk cannot have used up the list and met another number.
      have longer : contiguous existing + 1 ≤ existing.length :=
        le_length_of_prefix fun i low high => all i low (by omega)
      have exact_ : contiguous existing = 0 + existing.length := full
      omega
    · exact missing next

theorem contiguous_range' (n : ℕ) : contiguous (List.range' 1 n) = n := by
  apply le_antisymm
  · by_contra beyond
    have next := le_contiguous.mp (Nat.lt_of_not_le beyond) (n + 1) (by omega) (le_refl _)
    rw [List.mem_range'_1] at next
    omega
  · exact le_contiguous.mpr fun i low high => List.mem_range'_1.mpr ⟨low, by omega⟩

/-! ### Resolutions among others -/

/-- How the store answers; a fault stands for what it raises instead. -/
def answered (fault : Option Raised) : (a : Act) → Db → a.Answer × Db
  | ⟨_, .ask q⟩, db =>
    match fault with
    | some raised => (.error raised, db)
    | none => (db.answer q, db)
  | ⟨_, .write call⟩, db =>
    match fault with
    | some raised => (.error raised, db)
    | none => ((call.apply db).map fun _ => (), settled db (call.apply db))
  | a, db => ((Scene.handle a ⟨db, fun _ => false⟩).1, db)

/-- Resolutions under way over one store. -/
structure Confirming where
  db : Db
  resolutions : List (Routine Bool)

inductive ConfirmingMove
  | write (call : Call)
  | resolve (site : Site) (generationEpoch : String)
  | own (resolution : ℕ) (fault : Option Raised)

def confirming (at_ : Surroundings) : Machine Confirming ConfirmingMove Unit where
  step s move :=
    match move with
    | .write call => ({ s with db := (machine.step s.db call).1 }, [])
    | .resolve site e => ({ s with resolutions := s.resolutions ++ [resolveConfirmed at_ site e] }, [])
    | .own i fault =>
      match s.resolutions[i]? with
      | some (.perform a next) =>
        ({ db := (answered fault a s.db).2,
           resolutions := s.resolutions.set i (next (answered fault a s.db).1) }, [])
      | _ => (s, [])

/-- Every start is bound once, no receipt is deleted, and only a resolution confirms. -/
def Regular (s : Confirming) : ConfirmingMove → Prop
  | .write call => call.collects = false ∧ call.rebinds s.db = false ∧ call.confirms = false
  | _ => True

instance (s : Confirming) : (move : ConfirmingMove) → Decidable (Regular s move)
  | .write call => inferInstanceAs (Decidable
      (call.collects = false ∧ call.rebinds s.db = false ∧ call.confirms = false))
  | .resolve .. => isTrue trivial
  | .own .. => isTrue trivial

/-- What is left of a resolution that has listed its receipts. -/
def confirmTo (at_ : Surroundings) (site : Site) (e : String) (hw : ℕ) : Routine Bool :=
  if 0 < hw then
    Prog.rescue (do
      write site (.setGenerationConfirmedHighWater e hw)
      pure true)
      fun _ => do
        warnWithFields at_
        pure false
  else pure true

/-- What is left of a resolution that failed. -/
def unconfirmedYet (at_ : Surroundings) : Routine Bool := do
  warnWithFields at_
  pure false

theorem resolveConfirmed_eq (at_ : Surroundings) (site : Site) (e : String) :
    resolveConfirmed at_ site e = .perform ⟨site, .ask (.listTerminalForEpoch e)⟩ fun r =>
      match r with
      | .ok terminals => confirmTo at_ site e (contiguous (terminals.map fun tr => tr.row.terminalSeq))
      | .error _ => unconfirmedYet at_ := by
  unfold resolveConfirmed
  refine congrArg (Prog.perform _) (funext fun r => ?_)
  cases r with
  | error x => rfl
  | ok terminals =>
    unfold confirmTo
    by_cases some : 0 < contiguous (terminals.map fun tr => tr.row.terminalSeq)
    · simp only [if_pos some]
      show Prog.rescue (if 0 < _ then _ else _) _ = _
      rw [if_pos some]
    · simp only [if_neg some]
      show Prog.rescue (if 0 < _ then _ else _) _ = _
      rw [if_neg some]
      rfl

/-! ### Where a resolution is -/

variable {at_ : Surroundings} {db db' : Db}

/-- What can be left of a resolution; a prefix that is about to be written was given out. -/
inductive Underway (at_ : Surroundings) (db : Db) : Routine Bool → Prop
  | reading (site : Site) (e : String) : Underway at_ db (resolveConfirmed at_ site e)
  | writing (site : Site) (e : String) (hw : ℕ) (positive : 0 < hw) (given : hw ≤ db.issued e) :
    Underway at_ db (confirmTo at_ site e hw)
  | ended (r : Except Raised Bool) : Underway at_ db (.done r)

theorem Underway.mono {p : Routine Bool} (underway : Underway at_ db p)
    (grows : ∀ e, db.issued e ≤ db'.issued e) : Underway at_ db' p := by
  cases underway with
  | reading site e => exact .reading site e
  | writing site e hw positive given => exact .writing site e hw positive (given.trans (grows e))
  | ended r => exact .ended r

theorem underway_confirmTo (site : Site) (e : String) {hw : ℕ} (given : hw ≤ db.issued e) :
    Underway at_ db (confirmTo at_ site e hw) := by
  by_cases positive : 0 < hw
  · exact .writing site e hw positive given
  · unfold confirmTo
    rw [if_neg positive]
    exact .ended _

theorem underway_unconfirmedYet : Underway at_ db (unconfirmedYet at_) := by
  unfold unconfirmedYet warnWithFields
  split
  · exact .ended _
  · exact .ended _

/-- What holds along every regular run. -/
structure Confirming.Ok (at_ : Surroundings) (s : Confirming) : Prop where
  numbered : Numbered s.db
  underway : ∀ p ∈ s.resolutions, Underway at_ s.db p

/-- The first step of a resolution: it lists the receipts. -/
theorem underway_read (numbered : Numbered db) (site : Site) (e : String) (fault : Option Raised)
    {a : Act} {next : a.Answer → Routine Bool}
    (here : resolveConfirmed at_ site e = .perform a next) :
    (answered fault a db).2 = db ∧ Underway at_ db (next (answered fault a db).1) := by
  rw [resolveConfirmed_eq] at here
  cases here
  cases fault with
  | some raised => exact ⟨rfl, underway_unconfirmedYet⟩
  | none =>
    refine ⟨rfl, underway_confirmTo site e ?_⟩
    -- Everything that was given out is listed, so the prefix is all of it.
    have listed := numbered.numbers_eq e
    unfold Db.numbers at listed
    rw [listed, contiguous_range']

/-- The second step: it confirms what it has listed. -/
theorem confirmTo_step (db : Db) (site : Site) (e : String) {hw : ℕ} (positive : 0 < hw)
    (fault : Option Raised) {a : Act} {next : a.Answer → Routine Bool}
    (here : confirmTo at_ site e hw = .perform a next) :
    (∃ r, next (answered fault a db).1 = .done r) ∧
      ((answered fault a db).2 = db ∨ fault = none ∧
        db.setGenerationConfirmedHighWater e hw = .ok (answered fault a db).2) := by
  unfold confirmTo at here
  rw [if_pos positive] at here
  have failed : ∀ x, ∃ r, ((Prog.done (.error x) : Routine Unit) >>= fun _ => pure true).rescue
      (fun _ => (do warnWithFields at_; pure false : Routine Bool)) = .done r := by
    intro x
    show ∃ r, (do warnWithFields at_; pure false : Routine Bool) = .done r
    unfold warnWithFields
    split
    · exact ⟨_, rfl⟩
    · exact ⟨_, rfl⟩
  cases here
  cases fault with
  | some raised => exact ⟨failed raised, .inl rfl⟩
  | none =>
    cases done : db.setGenerationConfirmedHighWater e hw with
    | error raised =>
      refine ⟨?_, .inl ?_⟩
      · simp only [answered, Call.apply, done, Except.map]
        exact failed raised
      · simp only [answered, Call.apply, done, settled]
    | ok db' =>
      refine ⟨⟨.ok true, ?_⟩, .inr ⟨rfl, ?_⟩⟩
      · simp only [answered, Call.apply, done, Except.map]
        rfl
      · simp only [answered, Call.apply, done, settled]

theorem Confirming.Ok.own {s : Confirming} (ok : s.Ok at_) {i : ℕ} {fault : Option Raised}
    {a : Act} {next : a.Answer → Routine Bool} (here : s.resolutions[i]? = some (.perform a next)) :
    Confirming.Ok at_ ⟨(answered fault a s.db).2,
      s.resolutions.set i (next (answered fault a s.db).1)⟩ := by
  have about := ok.underway _ (List.mem_of_getElem? here)
  generalize this : (Prog.perform a next : Routine Bool) = p at about
  cases about with
  | reading site e =>
    obtain ⟨same, then_⟩ := underway_read ok.numbered site e fault this.symm
    rw [same]
    refine ⟨ok.numbered, fun p member => ?_⟩
    rcases List.mem_or_eq_of_mem_set member with old | rfl
    · exact ok.underway p old
    · exact then_
  | writing site e hw positive given =>
    obtain ⟨⟨r, concluded⟩, effect⟩ := confirmTo_step s.db site e positive fault this.symm
    have numbered : Numbered (answered fault a s.db).2 ∧
        ∀ e, s.db.issued e ≤ (answered fault a s.db).2.issued e := by
      rcases effect with same | ⟨-, done⟩
      · exact ⟨same.symm ▸ ok.numbered, fun e => by rw [same]⟩
      · have called : (Call.setGenerationConfirmedHighWater e hw).apply s.db =
            .ok (answered fault a s.db).2 := done
        exact ⟨ok.numbered.confirm given done, fun e' =>
          Nat.sub_le_sub_right (progress_grows called e').1 1⟩
    refine ⟨numbered.1, fun p member => ?_⟩
    rcases List.mem_or_eq_of_mem_set member with old | rfl
    · exact (ok.underway p old).mono numbered.2
    · rw [concluded]
      exact .ended r
  | ended r => cases this

theorem Confirming.Ok.step {s : Confirming} (ok : s.Ok at_) (move : ConfirmingMove)
    (regular : Regular s move) : ((confirming at_).step s move).1.Ok at_ := by
  cases move with
  | write call =>
    obtain ⟨keeps, once, unconfirmed⟩ := regular
    refine ⟨?_, fun p member => (ok.underway p member).mono fun e => issued_grows e⟩
    simp only [confirming, machine, settled]
    cases done : call.apply s.db with
    | error raised => exact ok.numbered
    | ok db' => exact ok.numbered.keeps done keeps once unconfirmed
  | resolve site e =>
    refine ⟨ok.numbered, fun p member => ?_⟩
    rcases List.mem_append.mp member with old | new
    · exact ok.underway p old
    · rw [List.mem_singleton.mp new]
      exact .reading site e
  | own i fault =>
    simp only [confirming]
    split
    · rename_i a next here
      exact ok.own here
    · exact ok

theorem confirmingOk_empty (at_ : Surroundings) : Confirming.Ok at_ ⟨{}, []⟩ := by
  refine ⟨⟨backed_after [], fun e k => ?_, fun e k sid sid' here => ?_, fun e => ?_⟩,
    fun p member => by cases member⟩
  · refine ⟨fun ⟨sid, held, _⟩ => (by cases held), fun within => ?_⟩
    exact absurd (within.1.trans_lt within.2) (lt_irrefl 1)
  · cases here.1
  · exact Nat.zero_lt_one

/-! ### One resolution, alone and among others -/

/-- Only an epoch with a name has receipts. -/
theorem named_of_numbers (backed : db.Backed) {e : String} {k : ℕ} (listed : k ∈ db.numbers e) :
    e ≠ "" := by
  obtain ⟨sid, held, epoch⟩ := (mem_numbers backed).mp listed
  obtain ⟨row, found, -⟩ := Option.map_eq_some_iff.mp held
  have named : row.sessionId = sid := Table.key_of_find? found
  obtain ⟨start, here, readable⟩ := backed.start (Table.mem_of_find? found)
  rw [named] at here
  rw [here, Option.bind_some] at epoch
  simp only [TerminalRow.readable, StartRow.identified, Bool.and_eq_true, epoch,
    Option.any_some] at readable
  rintro rfl
  exact absurd readable.2.2 (by decide)

/-- The write of a prefix that was listed takes effect. -/
theorem confirm_prefix (db : Db) {e : String} (hw : ℕ) (named : e ≠ "") :
    ∃ db', db.setGenerationConfirmedHighWater e hw = .ok db' ∧
      (db'.progressOf e).confirmedHighWater = max (db.progressOf e).confirmedHighWater hw := by
  have done : ∃ db', db.setGenerationConfirmedHighWater e hw = .ok db' := by
    simp [Db.setGenerationConfirmedHighWater, bind_ok, requireText, named, pure, Except.pure]
  obtain ⟨db', done⟩ := done
  refine ⟨db', done, ?_⟩
  rw [setConfirmed_progress done, if_pos rfl]
  rfl

/-- What is left of a resolution after its read, when nothing fails. -/
theorem answered_read (db : Db) (site : Site) (e : String) {a : Act}
    {next : a.Answer → Routine Bool} (here : resolveConfirmed at_ site e = .perform a next) :
    next (answered none a db).1 = confirmTo at_ site e (contiguous (db.numbers e)) := by
  rw [resolveConfirmed_eq] at here
  cases here
  rfl

/-- What the rest of a resolution does to the confirmed number, when nothing fails. -/
theorem answered_write (at_ : Surroundings) (db : Db) (site : Site) {e : String} {hw : ℕ}
    (named : 0 < hw → e ≠ "") :
    (match confirmTo at_ site e hw with
      | .perform a _ => ((answered none a db).2.progressOf e).confirmedHighWater
      | .done _ => (db.progressOf e).confirmedHighWater) =
        max (db.progressOf e).confirmedHighWater hw := by
  unfold confirmTo
  by_cases positive : 0 < hw
  · rw [if_pos positive]
    obtain ⟨db', done, confirmed⟩ := confirm_prefix db hw (named positive)
    show ((settled db (db.setGenerationConfirmedHighWater e hw)).progressOf e).confirmedHighWater = _
    rw [done]
    exact confirmed
  · rw [if_neg positive]
    show (db.progressOf e).confirmedHighWater = max _ _
    omega

/-- The move is not a step of this resolution. -/
def ConfirmingMove.leaves (i : ℕ) : ConfirmingMove → Bool
  | .own j _ => j ≠ i
  | _ => true

theorem resolution_stays {s : Confirming} {i : ℕ} {p : Routine Bool}
    (here : s.resolutions[i]? = some p) {moves : List ConfirmingMove}
    (leave : ∀ move ∈ moves, move.leaves i = true) :
    ((confirming at_).after s moves).resolutions[i]? = some p := by
  induction moves generalizing s with
  | nil => exact here
  | cons move rest ih =>
    refine ih ?_ fun later member => leave later (List.mem_cons_of_mem _ member)
    have apart := leave move (by simp)
    cases move with
    | write call => exact here
    | resolve site e =>
      have within := (List.getElem?_eq_some_iff.mp here).1
      exact (List.getElem?_append_left within).trans here
    | own j fault =>
      simp only [ConfirmingMove.leaves, decide_eq_true_eq] at apart
      simp only [confirming]
      split
      · exact (List.getElem?_set_ne apart).trans here
      · exact here

/-- A resolution confirms the prefix that it has listed, whatever happens in between. -/
theorem resolution_confirms {s : Confirming} (ok : s.Ok at_) {i : ℕ} {site : Site} {e : String}
    (here : s.resolutions[i]? = some (resolveConfirmed at_ site e)) {mid : List ConfirmingMove}
    (leave : ∀ move ∈ mid, move.leaves i = true) :
    let t := (confirming at_).after s (.own i none :: mid)
    (((confirming at_).step t (.own i none)).1.db.progressOf e).confirmedHighWater =
      max (t.db.progressOf e).confirmedHighWater (contiguous (s.db.numbers e)) := by
  intro t
  have started : ((confirming at_).step s (.own i none)).1.resolutions[i]? =
      some (confirmTo at_ site e (contiguous (s.db.numbers e))) := by
    cases todo : resolveConfirmed at_ site e with
    | done r =>
      rw [resolveConfirmed_eq] at todo
      cases todo
    | perform a next =>
      rw [todo] at here
      have within := (List.getElem?_eq_some_iff.mp here).1
      simp only [confirming, here]
      rw [List.getElem?_set_self within, answered_read s.db site e todo]
  have there : t.resolutions[i]? = some (confirmTo at_ site e (contiguous (s.db.numbers e))) :=
    resolution_stays started leave
  have named : 0 < contiguous (s.db.numbers e) → e ≠ "" := fun positive =>
    named_of_numbers ok.numbered.backed (le_contiguous.mp positive 1 (le_refl _) (le_refl _))
  have wrote := answered_write at_ t.db site named
  rw [← wrote]
  show (((confirming at_).step t (.own i none)).1.db.progressOf e).confirmedHighWater = _
  cases rest : confirmTo at_ site e (contiguous (s.db.numbers e)) with
  | done r => simp only [confirming, there, rest]
  | perform a next => simp only [confirming, there, rest]

/-! ### The law -/

theorem confirmed_grows (moves : List ConfirmingMove) (s : Confirming) (e : String) :
    (s.db.progressOf e).confirmedHighWater ≤
      (((confirming at_).after s moves).db.progressOf e).confirmedHighWater := by
  induction moves generalizing s with
  | nil => exact le_refl _
  | cons move rest ih =>
    refine le_trans ?_ (ih _)
    have applied : ∀ call : Call, (s.db.progressOf e).confirmedHighWater ≤
        ((settled s.db (call.apply s.db)).progressOf e).confirmedHighWater := by
      intro call
      cases done : call.apply s.db with
      | error raised => exact le_refl _
      | ok db' => exact (progress_grows done e).2
    cases move with
    | write call => exact applied call
    | resolve site e' => exact le_refl _
    | own i fault =>
      simp only [confirming]
      split
      · rename_i a next here
        -- A step of a routine writes by a call or not at all.
        obtain ⟨site, effect⟩ := a
        cases effect with
        | ask q => cases fault <;> exact le_refl _
        | write call =>
          cases fault with
          | none => exact applied call
          | some raised => exact le_refl _
        | _ => exact le_refl _
      · exact le_refl _

/-- The end of the longest prefix of an epoch's numbers that has no gap. -/
def Prefix (db : Db) (e : String) (n : ℕ) : Prop :=
  IsGreatest {k | ∀ i, 1 ≤ i → i ≤ k → i ∈ db.numbers e} n

theorem prefix_contiguous (db : Db) (e : String) : Prefix db e (contiguous (db.numbers e)) :=
  ⟨le_contiguous.mp (le_refl _), fun _ all => le_contiguous.mpr all⟩

/-- In every regular run of the store with any number of resolutions, and at every point of it. -/
theorem numbers_confirmed (at_ : Surroundings) (moves : List ConfirmingMove)
    (regular : (confirming at_).Along Regular ⟨{}, []⟩ moves) :
    let s := (confirming at_).after ⟨{}, []⟩ moves
    -- The receipts of an epoch have the numbers that were given out, each once.
    (∀ e, s.db.numbers e = List.range' 1 ((s.db.progressOf e).nextTerminalSeq - 1)) ∧
    -- The confirmed number stays below them and never falls.
    (∀ e, (s.db.progressOf e).confirmedHighWater ≤ (s.db.progressOf e).nextTerminalSeq - 1) ∧
    (∀ later e, (confirming at_).Along Regular s later → (s.db.progressOf e).confirmedHighWater ≤
      (((confirming at_).after s later).db.progressOf e).confirmedHighWater) ∧
    -- A resolution that lists here confirms the prefix it sees, at once or after anything else.
    (∀ i site e, s.resolutions[i]? = some (resolveConfirmed at_ site e) →
      ∃ n, Prefix s.db e n ∧ ∀ mid, (∀ move ∈ mid, move.leaves i = true) →
        let t := (confirming at_).after s (.own i none :: mid)
        let u := ((confirming at_).step t (.own i none)).1
        (u.db.progressOf e).confirmedHighWater =
          max (t.db.progressOf e).confirmedHighWater n ∧
        (mid = [] → (u.db.progressOf e).confirmedHighWater = n)) := by
  intro s
  have ok : s.Ok at_ := (confirming at_).invariant_along (Confirming.Ok at_)
    (fun s move ok regular => ok.step move regular) (confirmingOk_empty at_) regular
  refine ⟨ok.numbered.numbers_eq, fun e => ?_, fun later e along => ?_, fun i site e here => ?_⟩
  · have below := ok.numbered.confirmed e
    omega
  · exact confirmed_grows later s e
  · refine ⟨_, prefix_contiguous s.db e, fun mid leave => ?_⟩
    have confirms := resolution_confirms ok here leave
    refine ⟨confirms, fun none => ?_⟩
    subst none
    refine confirms.trans (max_eq_right ?_)
    -- Nothing was written in between, and no more was confirmed than was given out.
    have same : ((confirming at_).after s [.own i .none]).db = s.db := by
      cases todo : resolveConfirmed at_ site e with
      | done r =>
        rw [resolveConfirmed_eq] at todo
        cases todo
      | perform a next =>
        rw [todo] at here
        have kept := (underway_read ok.numbered site e none todo).1
        simpa only [Machine.after_cons, Machine.after_nil, confirming, here] using kept
    rw [same, ok.numbered.numbers_eq e, contiguous_range']
    have below := ok.numbered.confirmed e
    rw [Db.issued]
    omega

/-- A session ends while a resolution has listed nothing yet; a second one lists its receipt. -/
def twoResolutions : List ConfirmingMove :=
  (endedOnFirst.take 3).map .write ++
    [.resolve .confirming firstEpoch, .own 0 none] ++ (endedOnFirst.drop 3).map .write ++
      [.resolve .confirming firstEpoch, .own 1 none, .own 0 none, .own 1 none]

theorem numbers_confirmed_two :
    let s := (confirming oneProcess).after ⟨{}, []⟩ twoResolutions
    s.db.numbers firstEpoch = List.range' 1 ((s.db.progressOf firstEpoch).nextTerminalSeq - 1) :=
  (numbers_confirmed oneProcess twoResolutions (by decide +kernel)).1 firstEpoch

/-- The collector of retired generations deletes receipts and leaves the counter: the epoch has
given out a number that no receipt has. Every start was bound once. -/
theorem numbers_collected :
    let db := machine.after {} endedQuietly
    let db' := (sampleCollection.run gcHandle (db, {})).2.1
    machine.Along (fun db call => call.rebinds db = false) {} endedQuietly ∧
      db.numbers firstEpoch = [1] ∧ db'.numbers firstEpoch = [] ∧
      db'.numbers firstEpoch ≠ List.range' 1 ((db'.progressOf firstEpoch).nextTerminalSeq - 1) := by
  decide +kernel

end Nelix.Router
