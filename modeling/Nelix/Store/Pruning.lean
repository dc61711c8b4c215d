import Nelix.Core.Ranking
import Nelix.Store.BoardRuns
import Mathlib.Algebra.Order.Ring.Rat
import Mathlib.Data.Prod.Lex
import Mathlib.Data.String.Basic

/-!
# Pruning

A prune expires what is too old, and then, owner by owner, all but the newest results. What an
owner's board keeps is the head of its young results sorted by age, and whatever else the call
says and counts follows from the receipts it changed.
-/
namespace Nelix.Store

open Contracts Core

namespace Db

/-- The results an owner still sees. -/
def visible (db : Db) (ownerId : String) : List TerminalRow :=
  db.terminal.rows.filter fun row => row.standing = .onBoard &&
    (db.findStart row.sessionId).map StartRow.ownerId = some ownerId

end Db

/-- By publication, then by session id. -/
def TerminalRow.recency (row : TerminalRow) : ℚ ×ₗ String := toLex (row.publishedAt, row.sessionId)

/-- The results that are not older than a limit. -/
def youngest (rows : List TerminalRow) (maxAge now : ℚ) : List TerminalRow :=
  rows.filter fun row => now - row.publishedAt ≤ maxAge

section Expiring

variable (db : Db) (picked : TerminalRow → Bool) (now : ℚ) (reason : ExpireReason)

/-- What a statement expires leaves the board, and nothing else does. -/
theorem visible_expireWhere (owner : String) :
    (db.expireWhere picked now reason).visible owner =
      (db.visible owner).filter fun row => !picked row := by
  let owned : TerminalRow → Bool := fun row =>
    (db.findStart row.sessionId).map StartRow.ownerId = some owner
  show (List.map _ db.terminal.rows).filter (fun row => row.standing = .onBoard && owned row) =
    (db.terminal.rows.filter fun row => row.standing = .onBoard && owned row).filter _
  rw [List.filter_map, List.filter_filter]
  -- a row is on the board afterwards when it was and is not picked, and then it is untouched
  have stays : ∀ row : TerminalRow, ((fun row : TerminalRow => row.standing = .onBoard && owned row) ∘
      fun row => if row.standing = .onBoard ∧ picked row = true then
        { row with standing := .expired now reason } else row) row =
      (!picked row && (row.standing = .onBoard && owned row)) := by
    intro row
    simp only [Function.comp_apply]
    by_cases onBoard : row.standing = .onBoard
    · cases here : picked row <;> simp [onBoard]
    · simp [onBoard]
  rw [List.filter_congr fun row _ => stays row]
  refine (List.map_congr_left fun row kept => if_neg fun left => ?_).trans (List.map_id _)
  simp [left.2] at kept

theorem sessionIds_expireWhere :
    (db.expireWhere picked now reason).terminal.rows.map TerminalRow.sessionId =
      db.terminal.rows.map TerminalRow.sessionId := by
  simp only [Db.expireWhere, Table.amend, List.map_map]
  refine List.map_congr_left fun row _ => ?_
  simp only [Function.comp_apply]
  split <;> rfl

end Expiring

section Visible

variable {db : Db} {owner : String}

theorem mem_visible {row : TerminalRow} :
    row ∈ db.visible owner ↔ row ∈ db.terminal.rows ∧ row.standing = .onBoard ∧
      (db.findStart row.sessionId).map StartRow.ownerId = some owner := by
  simp only [Db.visible, List.mem_filter, Bool.and_eq_true, decide_eq_true_eq]

/-- The board that is listed is what its owner sees. -/
theorem mem_board_iff_visible (backed : db.Backed) {row : TerminalRow} :
    row ∈ db.board owner ↔ row ∈ db.visible owner := (mem_board backed).trans mem_visible.symm

theorem recency_distinct (rows : List TerminalRow)
    (distinct : (rows.map TerminalRow.sessionId).Nodup) :
    (rows.map TerminalRow.recency).Nodup := by
  refine List.Nodup.of_map (fun key => (ofLex key).2) ?_
  rwa [List.map_map]

theorem visible_distinct : ((db.visible owner).map TerminalRow.sessionId).Nodup :=
  (List.filter_sublist.map _).nodup db.terminal.distinct

theorem ahead_iff (other row : TerminalRow) :
    Db.ahead other row = decide (row.recency < other.recency) := by
  rw [Bool.eq_iff_iff, decide_eq_true_eq, TerminalRow.recency, TerminalRow.recency,
    Prod.Lex.toLex_lt_toLex]
  simp [Db.ahead]

/-- The rank of the window is the number of newer results on the board, and one. -/
theorem boardRank_eq {row : TerminalRow} (member : row ∈ db.visible owner) :
    db.boardRank row = rank TerminalRow.recency (db.visible owner) row + 1 := by
  obtain ⟨-, -, owned⟩ := mem_visible.mp member
  unfold Db.boardRank rank Db.visible
  rw [List.filter_filter, owned]
  congr 2
  refine List.filter_congr fun other _ => ?_
  rw [ahead_iff, Bool.and_right_comm, Bool.and_comm]

/-- What the statement does not pick is untouched, and what it picks on the board is expired. -/
theorem find?_expireWhere (db : Db) (picked : TerminalRow → Bool) (now : ℚ) (reason : ExpireReason)
    {row : TerminalRow} (held : db.terminal.find? row.sessionId = some row) :
    (db.expireWhere picked now reason).terminal.find? row.sessionId =
      some (if row.standing = .onBoard ∧ picked row = true then
        { row with standing := .expired now reason } else row) := by
  simp only [Db.expireWhere, Table.find?_amend]
  rw [held, Option.map_some]

end Visible

section Prune

variable (db : Db) (old surplus : TerminalRow → Bool) (now : ℚ)

theorem visible_expireTwice (owner : String) : (db.expireTwice old surplus now).visible owner =
    ((db.visible owner).filter fun row => !old row).filter fun row => !surplus row := by
  have found : ∀ sid, (db.expireTwice old surplus now).findStart sid = db.findStart sid :=
    fun sid => by rw [Db.findStart, Db.findStart, (expireTwice_starts db old surplus now).1]
  rw [← visible_expireWhere db old now .age, ← visible_expireWhere _ surplus now .count]
  simp only [Db.visible, expireTwice_terminal, found]
  rfl

/-- A receipt that two passes changed was on the board and is expired. -/
theorem find?_expireTwice {row : TerminalRow} (member : row ∈ db.terminal.rows) :
    (db.expireTwice old surplus now).terminal.find? row.sessionId = some row ∨
      row.standing = .onBoard ∧ ∃ reason,
        (db.expireTwice old surplus now).terminal.find? row.sessionId =
          some { row with standing := .expired now reason } := by
  have aged := find?_expireWhere db old now .age (Table.find?_of_mem member)
  rw [expireTwice_terminal]
  by_cases early : row.standing = .onBoard ∧ old row = true
  · rw [if_pos early] at aged
    refine .inr ⟨early.1, .age, ?_⟩
    let gone : TerminalRow := { row with standing := .expired now .age }
    have held : (db.expireWhere old now .age).terminal.find? gone.sessionId = some gone := aged
    have later := find?_expireWhere (db.expireWhere old now .age) surplus now .count held
    exact later.trans (congrArg some (if_neg fun both => nomatch both.1))
  · rw [if_neg early] at aged
    have later := find?_expireWhere (db.expireWhere old now .age) surplus now .count aged
    by_cases late : row.standing = .onBoard ∧ surplus row = true
    · exact .inr ⟨late.1, .count, later.trans (congrArg some (if_pos late))⟩
    · exact .inl (later.trans (congrArg some (if_neg late)))

/-- A receipt changes exactly when one of the passes picks it on the board. -/
theorem changed_iff {row : TerminalRow} (member : row ∈ db.terminal.rows) :
    (db.expireTwice old surplus now).terminal.find? row.sessionId ≠ some row ↔
      row.standing = .onBoard ∧ (old row = true ∨ surplus row = true) := by
  have aged := find?_expireWhere db old now .age (Table.find?_of_mem member)
  rw [expireTwice_terminal]
  by_cases early : row.standing = .onBoard ∧ old row = true
  · rw [if_pos early] at aged
    -- the second statement finds it expired, and leaves it alone
    let gone : TerminalRow := { row with standing := .expired now .age }
    have held : (db.expireWhere old now .age).terminal.find? gone.sessionId = some gone := aged
    have later := find?_expireWhere (db.expireWhere old now .age) surplus now .count held
    rw [if_neg fun both => nomatch both.1] at later
    refine iff_of_true (fun same => ?_) ⟨early.1, .inl early.2⟩
    have unchanged : gone = row := Option.some.inj (later.symm.trans same)
    have off := congrArg TerminalRow.standing unchanged
    rw [early.1] at off
    cases off
  · rw [if_neg early] at aged
    have later := find?_expireWhere (db.expireWhere old now .age) surplus now .count aged
    by_cases late : row.standing = .onBoard ∧ surplus row = true
    · rw [if_pos late] at later
      refine iff_of_true (fun same => ?_) ⟨late.1, .inr late.2⟩
      have off := congrArg TerminalRow.standing (Option.some.inj (later.symm.trans same))
      rw [late.1] at off
      cases off
    · rw [if_neg late] at later
      refine iff_of_false (not_not.mpr later) ?_
      rintro ⟨onBoard, first | second⟩
      · exact early ⟨onBoard, first⟩
      · exact late ⟨onBoard, second⟩

theorem returning_distinct : (db.returning old).Nodup :=
  (List.filter_sublist.map _).nodup db.terminal.distinct

/-- The two passes return the sessions of the receipts they changed, each once. -/
theorem returned_length :
    (db.returning old ++ (db.expireWhere old now .age).returning surplus).length =
      (db.terminal.rows.filter fun row =>
        (db.expireTwice old surplus now).terminal.find? row.sessionId ≠ some row).length := by
  refine Eq.trans ?_ (List.length_map TerminalRow.sessionId)
  refine ((List.perm_ext_iff_of_nodup ?_ ?_).mpr fun sid => ?_).length_eq
  · refine List.nodup_append'.mpr ⟨returning_distinct _ _, returning_distinct _ _, ?_⟩
    intro sid first second
    -- the second pass returns what is on the board, and the first one took it off
    simp only [Db.returning, List.mem_map, List.mem_filter, Bool.and_eq_true,
      decide_eq_true_eq] at first second
    obtain ⟨row, ⟨member, picked⟩, rfl⟩ := first
    obtain ⟨later, ⟨among, onBoard, -⟩, same⟩ := second
    have expired := find?_expireWhere db old now .age (Table.find?_of_mem member)
    rw [if_pos picked] at expired
    have held := Table.find?_of_mem among
    simp only [Keyed.key] at held
    rw [same, expired, Option.some.injEq] at held
    rw [← held] at onBoard
    cases onBoard
  · exact (List.filter_sublist.map _).nodup db.terminal.distinct
  · simp only [List.mem_map, List.mem_filter, decide_eq_true_eq, expireTwice_terminal]
    constructor
    · intro returned
      have listed : sid ∈ db.terminal.rows.map TerminalRow.sessionId := by
        rcases List.mem_append.mp returned with first | second
        · exact (List.filter_sublist.map _).subset first
        · rw [← sessionIds_expireWhere db old now .age]
          exact (List.filter_sublist.map _).subset second
      obtain ⟨row, member, rfl⟩ := List.mem_map.mp listed
      exact ⟨row, ⟨member, (mem_returned member).mp returned⟩, rfl⟩
    · rintro ⟨row, ⟨member, differs⟩, rfl⟩
      exact (mem_returned member).mpr differs

/-- An owner lost a result exactly when a receipt of theirs changed. -/
theorem concerns_iff_lost {db' : Db} (starts : db'.starts = db.starts)
    (retires : Retires db.terminal db'.terminal) (owner : String) :
    Concerns db db' owner ↔ ∃ row ∈ db.visible owner, row ∉ db'.visible owner := by
  have found : ∀ sid, db'.findStart sid = db.findStart sid := fun sid => by
    rw [Db.findStart, Db.findStart, starts]
  constructor
  · rintro ⟨row, member, differs, owned⟩
    have held : db.terminal.find? row.sessionId = some row := Table.find?_of_mem member
    rcases retires row.sessionId with same | ⟨old, standing, held', onBoard, -, -⟩
    · exact absurd (same.trans held) differs
    · have same : row = old := Option.some.inj (held.symm.trans held')
      subst same
      refine ⟨row, mem_visible.mpr ⟨member, onBoard, owned⟩, fun still => differs ?_⟩
      exact Table.find?_of_mem (mem_visible.mp still).1
  · rintro ⟨row, seen, lost⟩
    obtain ⟨member, onBoard, owned⟩ := mem_visible.mp seen
    refine ⟨row, member, fun same => lost (mem_visible.mpr ⟨Table.mem_of_find? same, onBoard, ?_⟩),
      owned⟩
    rwa [found]

end Prune

/-- What a prune did that returned `n`. -/
structure PruneLaw (db db' : Db) (maxAge now : ℚ) (maxCount n : ℕ) : Prop where
  /-- The board keeps the newest results among those that are young enough. -/
  boards : ∀ owner, (db'.visible owner).Perm
    ((descending TerminalRow.recency (youngest (db.visible owner) maxAge now)).take maxCount)
  /-- That is what is listed. -/
  listed : db.Backed → ∀ owner, db'.board owner = {row | row ∈
    (descending TerminalRow.recency (youngest (db.visible owner) maxAge now)).take maxCount}
  /-- A receipt stays as it is, or was on the board and is expired now. -/
  receipts : ∀ row ∈ db.terminal.rows, db'.terminal.find? row.sessionId = some row ∨
    row.standing = .onBoard ∧ ∃ reason, db'.terminal.find? row.sessionId =
      some { row with standing := .expired now reason }
  /-- No receipt is deleted or made up. -/
  sessionIds : db'.terminal.rows.map TerminalRow.sessionId =
    db.terminal.rows.map TerminalRow.sessionId
  /-- An owner that lost nothing has the board and the counter it had. -/
  spared : ∀ owner, (∀ row ∈ db.visible owner, row ∈ db'.visible owner) →
    db'.visible owner = db.visible owner ∧ db'.boardSeqOf owner = db.boardSeqOf owner
  /-- The counter of an owner that lost something moves by one. -/
  affected : ∀ owner, (∃ row ∈ db.visible owner, row ∉ db'.visible owner) →
    db'.boardSeqOf owner = db.boardSeqOf owner + 1
  /-- The number that is returned is the number of receipts that changed. -/
  counted : n = (db.terminal.rows.filter fun row =>
    db'.terminal.find? row.sessionId ≠ some row).length

/-- The results that a prune retires: those that are too old, and those behind so many newer ones of
their owner that are young enough. -/
def retirable (db : Db) (maxAge now : ℚ) (maxCount : ℕ) : List TerminalRow :=
  db.terminal.rows.filter fun row => row.standing = .onBoard &&
    (maxAge < now - row.publishedAt ||
      ((db.findStart row.sessionId).map StartRow.ownerId).any fun owner =>
        maxCount ≤ rank TerminalRow.recency (youngest (db.visible owner) maxAge now) row)

section Limits

variable (db : Db) (maxAge now : ℚ) (maxCount : ℕ)

/-- Behind the age pass an owner sees the young results. -/
theorem visible_aged (owner : String) :
    (db.expireWhere (Db.outdated maxAge now) now .age).visible owner =
      youngest (db.visible owner) maxAge now := by
  rw [visible_expireWhere]
  refine List.filter_congr fun row _ => ?_
  rw [Bool.eq_iff_iff]
  simp [Db.outdated]

/-- The window ranks a result among the young ones of its owner. -/
theorem surplus_aged {owner : String} {row : TerminalRow}
    (member : row ∈ youngest (db.visible owner) maxAge now) :
    (db.expireWhere (Db.outdated maxAge now) now .age).surplus maxCount row =
      decide (maxCount ≤ rank TerminalRow.recency (youngest (db.visible owner) maxAge now) row) := by
  rw [← visible_aged] at member ⊢
  obtain ⟨-, -, owned⟩ := mem_visible.mp member
  obtain ⟨start, found, -⟩ := Option.map_eq_some_iff.mp owned
  rw [Db.surplus, found, boardRank_eq member, Option.isSome_some, Bool.true_and, decide_eq_decide]
  omega

theorem returned_eq_retirable : (db.returned maxAge now maxCount).length =
    (retirable db maxAge now maxCount).length := by
  rw [Db.returned, returned_length, retirable]
  refine congrArg List.length (List.filter_congr fun row member => ?_)
  rw [Bool.eq_iff_iff, decide_eq_true_eq, changed_iff db _ _ now member, Bool.and_eq_true,
    decide_eq_true_eq, Bool.or_eq_true, decide_eq_true_eq]
  refine and_congr_right fun onBoard => ?_
  by_cases old : maxAge < now - row.publishedAt
  · simp [Db.outdated, old]
  · simp only [Db.outdated, old, decide_false, Bool.false_eq_true, false_or]
    cases found : db.findStart row.sessionId with
    | none =>
      -- the join leaves it out
      have absent : (db.expireWhere (Db.outdated maxAge now) now .age).findStart row.sessionId =
          none := found
      simp [Db.surplus, absent]
    | some start =>
      have seen : row ∈ db.visible start.ownerId :=
        mem_visible.mpr ⟨member, onBoard, by rw [found, Option.map_some]⟩
      have young : row ∈ youngest (db.visible start.ownerId) maxAge now :=
        List.mem_filter.mpr ⟨seen, decide_eq_true (not_lt.mp old)⟩
      rw [surplus_aged db maxAge now maxCount young]
      simp

end Limits

variable {db db' : Db} {maxAge : AgeLimit} {age now : ℚ} {maxCount n : ℕ}

theorem AgeLimit.check_ok {maxAge : AgeLimit} {age : ℚ} : maxAge.check = .ok age ↔
    maxAge.exceedsFloat = false ∧ maxAge.seconds? = some age ∧ 0 ≤ age := by
  unfold AgeLimit.check
  dsimp only
  split
  next exceeds => simp [exceeds]
  next within =>
    simp only [Contracts.bind_ok, demand_ok, require_ok, pure, Except.pure, Except.ok.injEq]
    constructor
    · rintro ⟨age, given, -, nonneg, rfl⟩
      exact ⟨Bool.eq_false_iff.mpr within, given, nonneg⟩
    · rintro ⟨-, given, nonneg⟩
      exact ⟨age, given, (), nonneg, rfl⟩

/-- A prune that does not raise retires, owner by owner, all but the newest of the results that are
young enough, and nothing else changes. -/
theorem prune_law (given : maxAge.seconds? = some age)
    (done : db.pruneTerminal maxAge maxCount (.finite now) = .ok (n, db')) :
    PruneLaw db db' age now maxCount n := by
  have kept : db.Backed → db'.Backed := by
    intro backed
    have step := backed.step (.pruneTerminal maxAge maxCount (.finite now))
    simpa only [machine, settled, Call.apply, done, Except.map] using step
  obtain ⟨age', now', checked, -, ticks, -, -, -, rfl, rfl⟩ := Db.pruneTerminal_ok.mp done
  obtain rfl : age = age' :=
    Option.some.inj (given.symm.trans (AgeLimit.check_ok.mp checked).2.1)
  cases ticks
  let old := Db.outdated age now
  let aged := db.expireWhere old now .age
  let surplus := aged.surplus maxCount
  obtain ⟨starts, -⟩ := expireTwice_starts db old surplus now
  have retires := expireTwice_retires db old surplus now
  have lost := concerns_iff_lost db starts retires
  have young := visible_aged db age now
  have remains : ∀ owner, (db.expireTwice old surplus now).visible owner =
      (aged.visible owner).filter fun row =>
        rank TerminalRow.recency (aged.visible owner) row < maxCount := by
    intro owner
    -- the second statement keeps of the young ones those of a low rank
    rw [visible_expireTwice, ← visible_expireWhere db old now .age]
    refine List.filter_congr fun row member => ?_
    have among : row ∈ youngest (db.visible owner) age now := young owner ▸ member
    have picked : surplus row = decide (maxCount ≤
        rank TerminalRow.recency (youngest (db.visible owner) age now) row) :=
      surplus_aged db age now maxCount among
    rw [picked, young owner, ← decide_not, decide_eq_decide, not_le]
  have boards : ∀ owner, ((db.expireTwice old surplus now).visible owner).Perm
      ((descending TerminalRow.recency (youngest (db.visible owner) age now)).take maxCount) := by
    intro owner
    rw [remains, young]
    exact filter_rank_perm TerminalRow.recency
      (recency_distinct _ (young owner ▸ visible_distinct)) maxCount
  exact
    { boards
      listed := fun backed owner => by
        ext row
        exact (mem_board_iff_visible (kept backed)).trans (boards owner).mem_iff
      receipts := fun row member => find?_expireTwice db old surplus now member
      sessionIds := by
        rw [Db.pruned, expireTwice_terminal, sessionIds_expireWhere, sessionIds_expireWhere]
      spared := fun owner kept => by
        refine ⟨?_, (expireTwice_seqs db old surplus now owner).2 (mt (lost owner).mp ?_)⟩
        · rw [Db.pruned, visible_expireTwice, List.filter_filter] at kept ⊢
          exact List.filter_eq_self.mpr fun row seen => (List.mem_filter.mp (kept row seen)).2
        · rintro ⟨row, seen, gone⟩
          exact gone (kept row seen)
      affected := fun owner gone => (expireTwice_seqs db old surplus now owner).1 ((lost owner).mpr gone)
      counted := returned_length db old surplus now }

/-- An integer within 64 bits has a float. -/
theorem AgeLimit.Fits.hasFloat {maxAge : AgeLimit} {age : ℚ} (fits : maxAge.Fits)
    (given : maxAge.seconds? = some age) (nonneg : 0 ≤ age) : maxAge.exceedsFloat = false := by
  cases maxAge with
  | int n =>
    obtain rfl : (n : ℚ) = age := Option.some.inj given
    have small : n ≤ maxInteger := fits
    have positive : 0 ≤ n := by exact_mod_cast nonneg
    have apart : maxInteger < (floatBound : ℤ) := by decide +kernel
    simp only [AgeLimit.exceedsFloat, decide_eq_false_iff_not]
    omega
  | float => rfl
  | other => rfl

/-- A prune that does not raise was within what the adapter and the statement take. -/
theorem prune_limits (given : maxAge.seconds? = some age)
    (done : db.pruneTerminal maxAge maxCount (.finite now) = .ok (n, db')) :
    maxAge.Fits ∧ (maxCount : ℤ) ≤ maxInteger ∧
      (retirable db age now maxCount).length ≤ variableLimit := by
  obtain ⟨age', now', checked, -, ticks, fits, bound, room, -, -⟩ := Db.pruneTerminal_ok.mp done
  obtain rfl : age = age' :=
    Option.some.inj (given.symm.trans (AgeLimit.check_ok.mp checked).2.1)
  cases ticks
  exact ⟨fits, bound, returned_eq_retirable db age now maxCount ▸ room⟩

/-- A prune within limits keeps to its law exactly when the adapter binds the two limits and the
results that are to be retired are no more than a statement has variables; else it raises. -/
theorem prune_law_iff (db : Db) (maxAge : AgeLimit) (age now : ℚ) (maxCount : ℕ)
    (given : maxAge.seconds? = some age) (nonneg : 0 ≤ age) :
    (∃ n db', db.pruneTerminal maxAge maxCount (.finite now) = .ok (n, db') ∧
        PruneLaw db db' age now maxCount n) ↔
      maxAge.Fits ∧ (maxCount : ℤ) ≤ maxInteger ∧
        (retirable db age now maxCount).length ≤ variableLimit := by
  constructor
  · rintro ⟨n, db', done, -⟩
    exact prune_limits given done
  · rintro ⟨fits, bound, room⟩
    rw [← returned_eq_retirable] at room
    have checked := AgeLimit.check_ok.mpr ⟨fits.hasFloat given nonneg, given, nonneg⟩
    have done := Db.pruneTerminal_ok.mpr ⟨age, now, checked, Int.natCast_nonneg maxCount, rfl, fits,
      bound, room, rfl, rfl⟩
    exact ⟨_, _, done, prune_law given done⟩

/-- A limit of no result at all empties the board of the owner who has one. -/
theorem prune_to_nothing :
    let db := machine.after {} endedOnFirst
    (db.visible "owner").length = 1 ∧
      ∃ n db', db.pruneTerminal (.float 50 "50.0") ((0 : ℕ) : ℤ) (.finite 9) = .ok (n, db') ∧
        PruneLaw db db' 50 9 0 n :=
  ⟨by decide +kernel, (prune_law_iff (machine.after {} endedOnFirst) (.float 50 "50.0") 50 9 0 rfl
    (by decide +kernel)).mpr (by decide +kernel)⟩

/-! ### A crowded board -/

/-- The session id with the digits of a number, the lowest first. -/
def crowdedId (i : ℕ) : String :=
  String.ofList ('s' :: '-' :: (List.range 32).map fun k => if i.testBit k then '1' else '0')

theorem crowdedId_injOn {i j : ℕ} (small : i < 2 ^ 32) (small' : j < 2 ^ 32)
    (same : crowdedId i = crowdedId j) : i = j := by
  have digits := (List.cons.inj (List.cons.inj (String.ofList_injective same)).2).2
  refine Nat.eq_of_testBit_eq fun k => ?_
  by_cases low : k < 32
  · have digit := List.map_inj_left.mp digits k (List.mem_range.mpr low)
    cases first : i.testBit k <;> cases second : j.testBit k <;> simp_all
  · have high : 2 ^ 32 ≤ 2 ^ k := Nat.pow_le_pow_right (by decide) (not_lt.mp low)
    rw [Nat.testBit_lt_two_pow (small.trans_le high), Nat.testBit_lt_two_pow (small'.trans_le high)]

/-- So many rows, one for each session. -/
def crowdedTable {ρ : Type} [Keyed ρ String] (row : ℕ → ρ)
    (named : ∀ i, Keyed.key (row i) = crowdedId i) (n : ℕ) (few : n ≤ 2 ^ 32) : Table ρ where
  rows := (List.range n).map row
  distinct := by
    rw [List.map_map]
    refine List.Nodup.map_on (fun i first j second same => ?_) List.nodup_range
    refine crowdedId_injOn ((List.mem_range.mp first).trans_le few)
      ((List.mem_range.mp second).trans_le few) ?_
    rwa [Function.comp_apply, Function.comp_apply, named, named] at same

/-- One owner, and so many sessions of theirs that have ended. -/
def crowdedBoard (n : ℕ) (few : n ≤ 2 ^ 32) : Db where
  starts := crowdedTable (fun i => ⟨crowdedId i, "owner", sampleRequest.orchestrationId,
    crowdedId i, "fingerprint", .started, some sampleGeneration, some firstEpoch, none, 1⟩)
    (fun _ => rfl) n few
  sessions := crowdedTable (fun i => ⟨crowdedId i, "done", "codex", "t", "/", none, 2, 4⟩)
    (fun _ => rfl) n few
  terminal := crowdedTable (fun i => ⟨crowdedId i, "done", "", 3, 3, i + 1, .onBoard, 4⟩)
    (fun _ => rfl) n few

theorem retirable_crowded (n : ℕ) (few : n ≤ 2 ^ 32) :
    (retirable (crowdedBoard n few) 0 9 0).length = n := by
  have all : retirable (crowdedBoard n few) 0 9 0 = (crowdedBoard n few).terminal.rows := by
    refine List.filter_eq_self.mpr fun row member => ?_
    obtain ⟨i, -, rfl⟩ := List.mem_map.mp member
    rw [Bool.and_eq_true, Bool.or_eq_true, decide_eq_true_eq, decide_eq_true_eq]
    have late : (0 : ℚ) < 9 - 3 := by decide +kernel
    exact ⟨rfl, .inl late⟩
  rw [all]
  exact List.length_map _ |>.trans List.length_range

theorem visible_crowded (n : ℕ) (few : n ≤ 2 ^ 32) :
    ((crowdedBoard n few).visible "owner").length = n := by
  have all : (crowdedBoard n few).visible "owner" = (crowdedBoard n few).terminal.rows := by
    refine List.filter_eq_self.mpr fun row member => ?_
    obtain ⟨i, inside, rfl⟩ := List.mem_map.mp member
    have start : (⟨crowdedId i, "owner", sampleRequest.orchestrationId, crowdedId i, "fingerprint",
        .started, some sampleGeneration, some firstEpoch, none, 1⟩ : StartRow) ∈
        (crowdedBoard n few).starts.rows := List.mem_map_of_mem inside
    have found := Table.find?_of_mem start
    rw [Bool.and_eq_true, decide_eq_true_eq, decide_eq_true_eq]
    exact ⟨rfl, congrArg (Option.map StartRow.ownerId) found⟩
  rw [all]
  exact List.length_map _ |>.trans List.length_range

/-- A board that has one result more than a statement has variables is not pruned to nothing, and
nothing is pruned under a limit of number beyond 64 bits. -/
theorem prune_gives_up :
    (∃ few, ((crowdedBoard (variableLimit + 1) few).visible "owner").length = variableLimit + 1 ∧
      ¬ ∃ n db', (crowdedBoard (variableLimit + 1) few).pruneTerminal (.int 0) ((0 : ℕ) : ℤ)
          (.finite 9) = .ok (n, db') ∧ PruneLaw (crowdedBoard (variableLimit + 1) few) db' 0 9 0 n) ∧
    (machine.after {} endedOnFirst).pruneTerminal (.float 50 "50.0") (2 ^ 63) (.finite 9) =
      .error .overflowError := by
  refine ⟨⟨by decide, visible_crowded _ _, ?_⟩, by decide +kernel⟩
  rintro ⟨n, db', done, -⟩
  have room := (prune_limits rfl done).2.2
  have crowd : (retirable (crowdedBoard (variableLimit + 1) (by decide)) 0 9 0).length =
      variableLimit + 1 := retirable_crowded _ _
  simp only [Int.cast_zero] at room
  omega

end Nelix.Store
