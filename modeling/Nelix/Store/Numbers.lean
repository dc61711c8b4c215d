import Nelix.Store.BoardRuns

/-!
# The numbers of an epoch's receipts

A receipt takes the next number of its epoch in the transaction that writes it. As long as no
receipt is deleted and no start is bound twice, the numbers of an epoch have no gap.

Strategy: `Numbered` says which numbers an epoch has; one call keeps it, by what the call can do to
the receipts (`BoardEffect`), to the starts (`StartsEffect`) and to the counters.
-/
namespace Nelix.Store

open Contracts Core

variable {db db' : Db} {call : Call} {e : String}

/-- The numbers of the receipts that are listed for an epoch, in order. -/
def Db.numbers (db : Db) (generationEpoch : String) : List ℕ :=
  (db.listTerminalForEpoch generationEpoch).map fun tr => tr.row.terminalSeq

/-- How many numbers the epoch has given out. -/
def Db.issued (db : Db) (generationEpoch : String) : ℕ :=
  (db.progressOf generationEpoch).nextTerminalSeq - 1

/-- The session's receipt has this number of the epoch. -/
def Db.Holds (db : Db) (generationEpoch sessionId : String) (seq : ℕ) : Prop :=
  (db.terminal.find? sessionId).map TerminalRow.terminalSeq = some seq ∧
    (db.findStart sessionId).bind StartRow.generationEpoch = some generationEpoch

/-- The epochs are numbered from one without a gap, and no more is confirmed than was given out. -/
structure Numbered (db : Db) : Prop where
  backed : db.Backed
  dense : ∀ e k, (∃ sid, db.Holds e sid k) ↔ 1 ≤ k ∧ k < (db.progressOf e).nextTerminalSeq
  distinct : ∀ e k sid sid', db.Holds e sid k → db.Holds e sid' k → sid = sid'
  confirmed : ∀ e, (db.progressOf e).confirmedHighWater < (db.progressOf e).nextTerminalSeq

/-- The call confirms receipts. -/
def Call.confirms : Call → Bool
  | .setGenerationConfirmedHighWater .. => true
  | _ => false

/-! ### What a call leaves of a binding and of the counters -/

/-- A start that is bound to an epoch stays bound to it. -/
theorem Call.binding_stays (done : call.apply db = .ok db') (keeps : call.collects = false)
    (once : call.rebinds db = false) {sid : String} {start : StartRow}
    (found : db.findStart sid = some start) (assigned : start.generationId ≠ none)
    (bound : start.generationEpoch = some e) :
    ∃ start', db'.findStart sid = some start' ∧ start'.generationEpoch = some e := by
  cases Call.startsEffect done with
  | kept starts sessions => exact ⟨start, by rw [Db.findStart, starts]; exact found, bound⟩
  | created start' spec creates held alive identified starts sessions =>
    exact ⟨start, by rw [Db.findStart, starts]; exact found, bound⟩
  | reserved request minted clock now reserves asked fresh inserted sessions =>
    have taken := Table.fresh_of_insert inserted
    refine ⟨start, ?_, bound⟩
    rw [Db.findStart, Table.find?_insert inserted, if_neg ?_]
    · exact found
    · intro same
      rw [same] at taken
      exact absurd (taken.symm.trans found) (by simp)
  | moved old new held move starts sessions =>
    rw [Db.findStart, starts]
    by_cases same : new.sessionId = sid
    · subst same
      have here : db.findStart new.sessionId = some old := move.sessionId ▸ held
      obtain rfl : start = old := Option.some.inj (found.symm.trans here)
      refine ⟨new, Table.find?_update_self here, ?_⟩
      cases move with
      | committed alive some => exact bound
      | failed reason starting unused => exact bound
      | bound g e' assigns starting compared valid =>
        -- Binding it again to the same generation names the same epoch, or it is bound anew.
        have generation := compared.resolve_left assigned
        simp only [assigns, Call.rebinds, held, Option.any_some, starting, generation, bound,
          decide_true, Bool.true_and, decide_eq_false_iff_not, not_not] at once
        exact once.symm
    · exact ⟨start, (Table.find?_update_ne same).trans found, bound⟩
  | collected other past collects starts sessions => simp [collects, Call.collects] at keeps

theorem foldl_bumpBoardSeq_progress (owners : List String) (db : Db) :
    (owners.foldl Db.bumpBoardSeq db).progress = db.progress := by
  induction owners generalizing db with
  | nil => rfl
  | cons owner rest ih => exact ih (db.bumpBoardSeq owner)

/-- Only a publication and a confirmation touch the counters of an epoch. -/
theorem other_progress (done : call.apply db = .ok db') :
    match call with
    | .putTerminal .. | .setGenerationConfirmedHighWater .. => True
    | _ => db'.progress = db.progress := by
  have counters := other_counters done
  cases call with
  | putTerminal => trivial
  | setGenerationConfirmedHighWater => trivial
  | pruneTerminal age count clock =>
    simp only [Call.apply] at done
    cases reply : db.pruneTerminal age count clock with
    | error raised => simp [reply, Except.map] at done
    | ok r =>
      obtain ⟨n, left⟩ := r
      simp only [reply, Except.map, Except.ok.injEq] at done
      subst done
      obtain ⟨age, now, -, -, -, -, -, -, -, rfl⟩ := Db.pruneTerminal_ok.mp reply
      exact foldl_bumpBoardSeq_progress _ _
  | ackTerminal =>
    simp only [Call.apply, Db.ackTerminal, bind_ok] at done
    obtain ⟨record, -, done⟩ := done
    split at done
    · cases done
      rfl
    · simp at done
    · simp only [bind_ok, pure, Except.pure, Except.ok.injEq] at done
      obtain ⟨_, -, rfl⟩ := done
      rfl
  | _ => exact counters.2

/-! ### One call -/

/-- A receipt stays with its epoch. -/
theorem epoch_same (backed : db.Backed) (done : call.apply db = .ok db')
    (keeps : call.collects = false) (once : call.rebinds db = false) {sid : String}
    (receipt : (db.terminal.find? sid).isSome) :
    (db'.findStart sid).bind StartRow.generationEpoch =
      (db.findStart sid).bind StartRow.generationEpoch := by
  obtain ⟨row, found⟩ := Option.isSome_iff_exists.mp receipt
  have named : row.sessionId = sid := Table.key_of_find? found
  obtain ⟨start, here, readable⟩ := backed.start (Table.mem_of_find? found)
  rw [named] at here
  -- The start passed the identity check, so it is bound.
  have identified : start.identified = true := by
    simp only [TerminalRow.readable, Bool.and_eq_true] at readable
    exact readable.2
  simp only [StartRow.identified, Bool.and_eq_true, Option.any_eq_true] at identified
  obtain ⟨⟨-, g, generation, -⟩, e, epoch, -⟩ := identified
  obtain ⟨start', there, bound⟩ := Call.binding_stays done keeps once here
    (by rw [generation]; simp) epoch
  rw [there, here, Option.bind_some, Option.bind_some, bound, epoch]

theorem holds_of_kept (backed : db.Backed) (done : call.apply db = .ok db')
    (keeps : call.collects = false) (once : call.rebinds db = false)
    (receipts : ∀ sid, db'.receipt sid = db.receipt sid) (e sid : String) (k : ℕ) :
    db'.Holds e sid k ↔ db.Holds e sid k := by
  have numbers : (db'.terminal.find? sid).map TerminalRow.terminalSeq =
      (db.terminal.find? sid).map TerminalRow.terminalSeq := by
    have same := congrArg (Option.map TerminalRow.terminalSeq) (receipts sid)
    simpa only [Db.receipt, Option.map_map, Function.comp_def] using same
  unfold Db.Holds
  rw [numbers]
  refine and_congr_right fun numbered => ?_
  have receipt : (db.terminal.find? sid).isSome := by
    cases found : db.terminal.find? sid with
    | none => simp [found] at numbered
    | some row => rfl
  rw [epoch_same backed done keeps once receipt]

/-- A call that publishes nothing leaves the counters of an epoch, up to a confirmation. -/
theorem progress_of_kept (done : call.apply db = .ok db') (unconfirmed : call.confirms = false)
    (published : ∀ sid result clock, call = .putTerminal sid result clock → db' = db) (e : String) :
    db'.progressOf e = db.progressOf e := by
  have progress := other_progress done
  cases call with
  | putTerminal sid result clock => rw [published sid result clock rfl]
  | setGenerationConfirmedHighWater => cases unconfirmed
  | _ => rw [Db.progressOf, Db.progressOf, progress]

/-! ### A publication -/

/-- A receipt is published into the epoch of its start, under the epoch's next number. -/
structure PublishedInto (db db' : Db) (e sid : String) (seq : ℕ) : Prop where
  seq_eq : seq = (db.progressOf e).nextTerminalSeq
  progress : ∀ e', db'.progressOf e' = if e = e' then
    { db.progressOf e' with nextTerminalSeq := (db.progressOf e').nextTerminalSeq + 1 }
    else db.progressOf e'
  holds : ∀ e' other k, db'.Holds e' other k ↔
    db.Holds e' other k ∨ (other = sid ∧ e' = e ∧ k = seq)

theorem Publishes.into (backed : db.Backed) {sid : String} {start : StartRow} {row : TerminalRow}
    (joined : db.joined sid = some start) (named : row.sessionId = sid)
    (publishes : Publishes db db' start row) :
    ∃ e, PublishedInto db db' e sid row.terminalSeq := by
  obtain ⟨held, found⟩ := joined_eq_some.mp joined
  obtain ⟨start', found', identified⟩ := backed.sessions sid held
  obtain rfl : start = start' := Option.some.inj (found.symm.trans found')
  simp only [StartRow.identified, Bool.and_eq_true, Option.any_eq_true] at identified
  obtain ⟨-, own, epoch, -⟩ := identified
  have numbered := publishes.numbered
  have progress := publishes.progress
  simp only [epoch, Option.getD_some] at numbered progress
  refine ⟨own, numbered, progress, fun e other k => ?_⟩
  have fresh := Table.fresh_of_insert publishes.terminal
  simp only [Keyed.key, named] at fresh
  unfold Db.Holds
  rw [Table.find?_insert publishes.terminal, Db.findStart, publishes.starts]
  simp only [Keyed.key, named]
  by_cases same : sid = other
  · subst same
    rw [if_pos rfl, fresh, show db.starts.find? sid = some start from found]
    simp only [Option.map_some, Option.map_none, Option.bind_some, epoch, Option.some.injEq,
      reduceCtorEq, false_and, false_or, true_and]
    exact ⟨fun both => ⟨both.2.symm, both.1.symm⟩, fun both => ⟨both.2.symm, both.1.symm⟩⟩
  · have apart : ¬ other = sid := fun eq => same eq.symm
    simp [same, apart, Db.findStart]

theorem Numbered.published {own sid : String} {seq : ℕ} (numbered : Numbered db)
    (backed' : db'.Backed) (into : PublishedInto db db' own sid seq) : Numbered db' := by
  obtain ⟨given, progress, holds⟩ := into
  -- Nobody holds the next number yet.
  have unheld : ∀ other, ¬ db.Holds own other seq := by
    intro other there
    have below := (numbered.dense own seq).mp ⟨other, there⟩
    omega
  refine ⟨backed', fun e k => ?_, fun e k first second here there => ?_, fun e => ?_⟩
  · have before := numbered.dense e k
    simp only [holds, progress]
    by_cases same : own = e
    · subst same
      have positive := numbered.confirmed own
      simp only [if_true]
      constructor
      · rintro ⟨other, held | ⟨-, -, last⟩⟩
        · have within := before.mp ⟨other, held⟩
          omega
        · omega
      · rintro ⟨low, high⟩
        by_cases last : k = seq
        · exact ⟨sid, .inr ⟨rfl, trivial, last⟩⟩
        · obtain ⟨other, held⟩ := before.mpr ⟨low, by omega⟩
          exact ⟨other, .inl held⟩
    · have apart : ¬ e = own := fun eq => same eq.symm
      simpa only [if_neg same, apart, false_and, and_false, or_false] using before
  · rcases (holds e first k).mp here with here | ⟨rfl, rfl, rfl⟩
    · rcases (holds e second k).mp there with there | ⟨-, rfl, rfl⟩
      · exact numbered.distinct e k first second here there
      · exact absurd here (unheld first)
    · rcases (holds e second k).mp there with there | ⟨rfl, -, -⟩
      · exact absurd there (unheld second)
      · rfl
  · have before := numbered.confirmed e
    rw [progress]
    split
    · exact before.trans (Nat.lt_succ_self _)
    · exact before

/-! ### Any call -/

theorem Numbered.rests (numbered : Numbered db) (backed' : db'.Backed)
    (holds : ∀ e sid k, db'.Holds e sid k ↔ db.Holds e sid k)
    (progress : ∀ e, db'.progressOf e = db.progressOf e) : Numbered db' := by
  refine ⟨backed', fun e k => ?_, fun e k sid sid' here there => ?_, fun e => ?_⟩
  · simp only [holds, progress]
    exact numbered.dense e k
  · exact numbered.distinct e k sid sid' ((holds e sid k).mp here) ((holds e sid' k).mp there)
  · rw [progress]
    exact numbered.confirmed e

theorem Numbered.keeps (numbered : Numbered db) (done : call.apply db = .ok db')
    (keeps : call.collects = false) (once : call.rebinds db = false)
    (unconfirmed : call.confirms = false) : Numbered db' := by
  have backed' : db'.Backed := by
    have step := numbered.backed.step call
    simpa only [machine, settled, done] using step
  by_cases put : ∃ sid result clock, call = .putTerminal sid result clock
  · obtain ⟨sid, result, clock, rfl⟩ := put
    rcases putTerminal_cases done with ⟨-, -, -, -, -, rfl⟩ |
      ⟨start, endedAt, publishedAt, seq, joined, -, -, -, publishes⟩
    · exact numbered
    · obtain ⟨own, into⟩ := publishes.into numbered.backed joined rfl
      exact numbered.published backed' into
  · cases Call.receiptsEffect done with
    | kept receipts =>
      refine numbered.rests backed' (holds_of_kept numbered.backed done keeps once receipts)
        (progress_of_kept done unconfirmed fun sid result clock here => ?_)
      exact absurd ⟨sid, result, clock, here⟩ put
    | published sid result clock here => exact absurd ⟨sid, result, clock, here⟩ put
    | collected sid past here => simp [here, Call.collects] at keeps

theorem setConfirmed_progress {g : String} {seq : ℤ}
    (done : db.setGenerationConfirmedHighWater g seq = .ok db') (e : String) :
    db'.progressOf e = if g = e then { db.progressOf e with
      confirmedHighWater := max (db.progressOf e).confirmedHighWater seq.toNat }
      else db.progressOf e := by
  simp only [Db.setGenerationConfirmedHighWater, bind_ok, pure, Except.pure,
    Except.ok.injEq] at done
  obtain ⟨_, -, _, -, rfl⟩ := done
  rw [progressOf_setProgress]
  simp only [progressOf_key]
  split
  · rename_i same
    subst same
    rfl
  · rfl

/-- The counters of an epoch only grow. -/
theorem progress_grows (done : call.apply db = .ok db') (e : String) :
    (db.progressOf e).nextTerminalSeq ≤ (db'.progressOf e).nextTerminalSeq ∧
      (db.progressOf e).confirmedHighWater ≤ (db'.progressOf e).confirmedHighWater := by
  have other := other_progress done
  cases call with
  | putTerminal sid result clock =>
    rcases putTerminal_cases done with ⟨-, -, -, -, -, rfl⟩ |
      ⟨start, endedAt, publishedAt, seq, joined, -, -, -, publishes⟩
    · exact ⟨le_refl _, le_refl _⟩
    · rw [publishes.progress]
      split
      · exact ⟨Nat.le_succ _, le_refl _⟩
      · exact ⟨le_refl _, le_refl _⟩
  | setGenerationConfirmedHighWater g seq =>
    rw [setConfirmed_progress done]
    split
    · exact ⟨le_refl _, le_max_left _ _⟩
    · exact ⟨le_refl _, le_refl _⟩
  | _ =>
    rw [Db.progressOf, Db.progressOf, other]
    exact ⟨le_refl _, le_refl _⟩

theorem issued_grows {call : Call} (e : String) :
    db.issued e ≤ (settled db (call.apply db)).issued e := by
  cases done : call.apply db with
  | error raised => exact le_refl _
  | ok db' => exact Nat.sub_le_sub_right (progress_grows done e).1 1

/-- A confirmation of numbers that were given out. -/
theorem Numbered.confirm (numbered : Numbered db) {e : String} {hw : ℕ} (given : hw ≤ db.issued e)
    (done : db.setGenerationConfirmedHighWater e hw = .ok db') : Numbered db' := by
  have progress := setConfirmed_progress done
  have called : (Call.setGenerationConfirmedHighWater e hw).apply db = .ok db' := done
  have identity := Db.identity_ledger called
  have holds : ∀ e' sid k, db'.Holds e' sid k ↔ db.Holds e' sid k := by
    intro e' sid k
    unfold Db.Holds Db.findStart
    rw [identity.1, identity.2.2]
  have backed' : db'.Backed := by
    have step := numbered.backed.step (.setGenerationConfirmedHighWater e hw)
    simpa only [machine, settled, Call.apply, done] using step
  refine ⟨backed', fun e' k => ?_, fun e' k sid sid' here there => ?_, fun e' => ?_⟩
  · simp only [holds]
    rw [numbered.dense, progress]
    split <;> rfl
  · exact numbered.distinct e' k sid sid' ((holds ..).mp here) ((holds ..).mp there)
  · have before := numbered.confirmed e'
    rw [progress]
    split
    · rename_i same
      subst same
      rw [Db.issued] at given
      simp only [Int.toNat_natCast]
      omega
    · exact before

/-! ### The list of an epoch's numbers -/

theorem mem_listTerminalForEpoch (backed : db.Backed) {record : TerminalRecord} :
    record ∈ db.listTerminalForEpoch e ↔ record.row ∈ db.terminal.rows ∧
      db.findStart record.row.sessionId = some record.start ∧
        record.start.generationEpoch = some e := by
  simp only [Db.listTerminalForEpoch, Db.readTerminals, List.mem_insertionSort,
    List.mem_filterMap, Option.bind_eq_some_iff]
  constructor
  · rintro ⟨row, member, start, found, listed⟩
    split at listed
    · rename_i wanted
      cases listed
      simp only [Bool.and_eq_true, decide_eq_true_eq] at wanted
      exact ⟨member, found, wanted.1⟩
    · cases listed
  · rintro ⟨member, found, epoch⟩
    obtain ⟨start, found', readable⟩ := backed.start member
    obtain rfl : record.start = start := Option.some.inj (found.symm.trans found')
    exact ⟨record.row, member, record.start, found, by simp [epoch, readable]⟩

/-- A listing has every receipt once. -/
theorem listTerminalForEpoch_nodup (db : Db) (e : String) : (db.listTerminalForEpoch e).Nodup := by
  have sublist : ∀ (wanted : TerminalRow → StartRow → Bool) (rows : List TerminalRow),
      ((rows.filterMap fun row => (db.findStart row.sessionId).bind fun start =>
        if wanted row start && row.readable start then some (⟨row, start⟩ : TerminalRecord)
        else none).map fun tr => tr.row.sessionId).Sublist (rows.map TerminalRow.sessionId) := by
    intro wanted rows
    induction rows with
    | nil => exact .slnil
    | cons row rest ih =>
      rw [List.filterMap_cons, List.map_cons]
      split
      · exact ih.cons _
      · rename_i record read
        obtain ⟨start, -, read⟩ := Option.bind_eq_some_iff.mp read
        split at read
        · cases read
          exact ih.cons_cons _
        · cases read
  refine (List.perm_insertionSort _ _).nodup_iff.mpr ?_
  exact .of_map _ ((sublist _ _).nodup db.terminal.distinct)

theorem mem_numbers (backed : db.Backed) {k : ℕ} : k ∈ db.numbers e ↔ ∃ sid, db.Holds e sid k := by
  simp only [Db.numbers, List.mem_map]
  constructor
  · rintro ⟨record, listed, rfl⟩
    obtain ⟨member, found, epoch⟩ := (mem_listTerminalForEpoch backed).mp listed
    refine ⟨record.row.sessionId, ?_, by rw [found, Option.bind_some, epoch]⟩
    rw [show db.terminal.find? record.row.sessionId = some record.row from
      Table.find?_of_mem member, Option.map_some]
  · rintro ⟨sid, numbered, epoch⟩
    obtain ⟨row, found, rfl⟩ := Option.map_eq_some_iff.mp numbered
    obtain ⟨start, held, bound⟩ := Option.bind_eq_some_iff.mp epoch
    have named : row.sessionId = sid := Table.key_of_find? found
    exact ⟨⟨row, start⟩, (mem_listTerminalForEpoch backed).mpr
      ⟨Table.mem_of_find? found, named ▸ held, bound⟩, rfl⟩

/-- The receipts of an epoch are listed under the numbers from one to the last that was given
out, each once. -/
theorem Numbered.numbers_eq (numbered : Numbered db) (e : String) :
    db.numbers e = List.range' 1 (db.issued e) := by
  have sorted : (db.numbers e).Pairwise (· ≤ ·) := by
    unfold Db.numbers Db.listTerminalForEpoch
    rw [List.map_insertionSort _ (· ≤ ·) _ _ fun _ _ _ _ => Iff.rfl]
    exact List.pairwise_insertionSort _ _
  have nodup : (db.numbers e).Nodup := by
    refine List.Nodup.map_on ?_ (listTerminalForEpoch_nodup db e)
    intro record listed record' listed' same
    obtain ⟨member, found, epoch⟩ := (mem_listTerminalForEpoch numbered.backed).mp listed
    obtain ⟨member', found', epoch'⟩ := (mem_listTerminalForEpoch numbered.backed).mp listed'
    have held : ∀ (r : TerminalRecord), r.row ∈ db.terminal.rows →
        db.findStart r.row.sessionId = some r.start → r.start.generationEpoch = some e →
        db.Holds e r.row.sessionId r.row.terminalSeq := by
      intro r member found epoch
      refine ⟨?_, by rw [found, Option.bind_some, epoch]⟩
      rw [show db.terminal.find? r.row.sessionId = some r.row from Table.find?_of_mem member,
        Option.map_some]
    have sid := numbered.distinct e _ _ _ (held record member found epoch)
      (same ▸ held record' member' found' epoch')
    -- One session has one receipt and one start.
    have row : record.row = record'.row := Table.eq_of_key member member' sid
    have start : record.start = record'.start :=
      Option.some.inj ((row ▸ found).symm.trans found')
    cases record
    cases record'
    simp_all
  refine List.Perm.eq_of_pairwise (fun _ _ _ _ => le_antisymm) sorted
    (List.pairwise_le_range' (s := 1)) ?_
  refine (List.perm_ext_iff_of_nodup nodup List.nodup_range').mpr fun k => ?_
  have positive := numbered.confirmed e
  rw [mem_numbers numbered.backed, numbered.dense, List.mem_range'_1, Db.issued]
  omega

end Nelix.Store
