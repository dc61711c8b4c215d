import Nelix.Core.Machine
import Nelix.Core.Patterns
import Mathlib.Data.Int.Notation
import Mathlib.Data.List.Sort
import Mathlib.Tactic.Common

/-!
# The transcript builder

The lines of the frame stream that are written to the transcript, each when it has scrolled out of
the viewport or at a stop. An object is a line believed on screen; what tells two objects apart is
`id`, which the source does not keep.

## Main results

`sight_aside`: a row leaves the objects of another line alone.

`sight_own`: a row near its line's only object is matched to it.

`transcriptBuilder_once`: no object is written twice.
-/
namespace Nelix.Daemon

open Core (Text Pattern CodePoint)

/-- `\s+`, with a blank in its place -/
def blankRun : Pattern CodePoint Text := fun _ text =>
  match text.takeWhile CodePoint.isSpace with
  | [] => none
  | run => some (run.length, [.char ' '])

/-- `_norm` -/
def normText (s : Text) : Text := Core.sub blankRun none 0 s.strip

theorem normText_rstrip (s : Text) : normText s.rstrip = normText s := by
  rw [normText, Text.strip_rstrip, ← normText]

/-- `_Obj` -/
structure Obj where
  id : ℕ
  norm : Text
  text : Text
  y : ℕ
  firstSeen : ℕ
  lastSeen : ℕ
  seen : ℕ
  committed : Bool
  labelled : normText text = norm
deriving DecidableEq

namespace Obj

/-- The next sighting of the line, in row `y` of frame `fno`. -/
def sighted (fno y : ℕ) (o : Obj) : Obj := { o with lastSeen := fno, seen := o.seen + 1, y := y }

/-- `committed = True` -/
def commit (o : Obj) : Obj := { o with committed := true }

/-- The order of the keys `(first_seen, y)`. -/
def Before (o p : Obj) : Prop := o.firstSeen < p.firstSeen ∨ o.firstSeen = p.firstSeen ∧ o.y ≤ p.y

instance : DecidableRel Before := fun o p =>
  inferInstanceAs (Decidable (o.firstSeen < p.firstSeen ∨ o.firstSeen = p.firstSeen ∧ o.y ≤ p.y))

instance : Std.Total Before := ⟨fun o p => by unfold Before; omega⟩

instance : IsTrans Obj Before := ⟨fun o p q => by unfold Before; omega⟩

end Obj

/-- What a builder is made with: the driver's two tests and the numbers. `sweep` is the order in
which the numbers of a set are gone through. -/
structure Transcribing where
  isTranscriptVolatile : Text → Bool
  isPromptChrome : Option (Text → Bool)
  stable : ℤ := 2
  grace : ℤ := 4
  matchWindow : ℤ := 3
  sweep : List ℕ → List ℕ := id
  sweep_perm : ∀ numbers, (sweep numbers).Perm numbers := by exact fun _ => .rfl

structure TranscriptBuilder where
  tracked : List Obj := []
  frameNo : ℕ := 0
  made : ℕ := 0

/-! ### The content of a frame -/

/-- What `_content_rows` has taken and the rows where it first took each text. -/
structure ContentRows where
  out : List (ℕ × Text) := []
  firstY : List (Text × ℕ) := []

/-- One turn of the loop in `_content_rows`. -/
def contentRow (skip chrome : List Bool) (taken : ContentRows) (y : ℕ) (row : Text) : ContentRows :=
  if row.strip = [] ∨ skip.getD y false then taken
  else
    match taken.firstY.lookup row.rstrip with
    | some prev =>
      -- a leftover that the repaint of a prompt has not reached yet
      if ((chrome.take y).drop (prev + 1)).any id then taken
      else { taken with out := taken.out ++ [(y, row)] }
    | none => { out := taken.out ++ [(y, row)], firstY := (row.rstrip, y) :: taken.firstY }

namespace Transcribing
variable (s : Transcribing)

/-- `_content_rows` -/
def contentRows (rows : List Text) : List (ℕ × Text) :=
  let isChrome := s.isPromptChrome.getD s.isTranscriptVolatile
  let skip := rows.map fun r => decide (r.strip ≠ []) && s.isTranscriptVolatile r
  let chrome := rows.map fun r => decide (r.strip ≠ []) && isChrome r
  (rows.zipIdx.foldl (fun taken entry => contentRow skip chrome taken entry.2 entry.1) {}).out

/-! ### Matching -/

/-- How far a line moves from one row to another. -/
def distance (from_ y : ℕ) : ℕ := ((from_ : ℤ) - y).natAbs

/-- Whether the number is that of a nearer object with this text. -/
def closer (tracked : List Obj) (n : Text) (y : ℕ) (best : Option (ℕ × ℕ)) (i : ℕ) :
    Option (ℕ × ℕ) :=
  match tracked[i]? with
  | none => best
  | some o =>
    let d := distance o.y y
    if o.norm = n ∧ d ≤ s.matchWindow ∧ best.all fun b => d < b.2 then some (i, d) else best

/-- The nearest object among these with this text, and its distance. -/
def nearest (tracked : List Obj) (n : Text) (y : ℕ) (numbers : List ℕ) : Option (ℕ × ℕ) :=
  numbers.foldl (s.closer tracked n y) none

/-- The objects while a frame is gone through, and the numbers of those not matched yet. -/
structure Matching where
  tracked : List Obj
  unmatched : List ℕ
  made : ℕ

/-- One content row of frame `fno`. -/
def sight (fno : ℕ) (m : Matching) (entry : ℕ × Text) : Matching :=
  let n := normText entry.2
  match s.nearest m.tracked n entry.1 (s.sweep m.unmatched) with
  | some (best, _) =>
    { m with
      tracked := m.tracked.modify best (Obj.sighted fno entry.1)
      unmatched := m.unmatched.erase best }
  | none =>
    { m with
      tracked := m.tracked ++
        [⟨m.made, n, entry.2.rstrip, entry.1, fno, fno, 1, false,
          normText_rstrip _⟩]
      made := m.made + 1 }

section Nearest
variable {s} {tracked : List Obj} {n : Text} {y : ℕ} {numbers : List ℕ}

theorem closer_some {best : Option (ℕ × ℕ)} {i : ℕ} {found : ℕ × ℕ}
    (taken : s.closer tracked n y best i = some found) :
    best = some found ∨ found.1 = i ∧ ∃ o, tracked[i]? = some o ∧ o.norm = n := by
  rw [closer] at taken
  cases there : tracked[i]? with
  | none => exact .inl (by simpa only [there] using taken)
  | some o =>
    simp only [there] at taken
    split at taken
    · rename_i better
      cases taken
      exact .inr ⟨rfl, o, rfl, better.1⟩
    · exact .inl taken

/-- What is matched is one of the objects, and has the text. -/
theorem nearest_some {found : ℕ × ℕ} (taken : s.nearest tracked n y numbers = some found) :
    found.1 ∈ numbers ∧ ∃ o, tracked[found.1]? = some o ∧ o.norm = n := by
  have fold : ∀ best, numbers.foldl (s.closer tracked n y) best = some found →
      best = some found ∨ found.1 ∈ numbers ∧ ∃ o, tracked[found.1]? = some o ∧ o.norm = n := by
    clear taken
    induction numbers with
    | nil => exact fun best same => .inl same
    | cons i rest ih =>
      intro best same
      obtain sooner | ⟨later, object⟩ := ih _ same
      · obtain start | ⟨rfl, object⟩ := closer_some sooner
        · exact .inl start
        · exact .inr ⟨List.mem_cons_self .., object⟩
      · exact .inr ⟨List.mem_cons_of_mem _ later, object⟩
  exact (fold none taken).resolve_left nofun

theorem closer_isSome {best : Option (ℕ × ℕ)} (i : ℕ) (found : best.isSome) :
    (s.closer tracked n y best i).isSome := by
  rw [closer]
  cases tracked[i]? with
  | none => exact found
  | some o =>
    dsimp only
    split
    · rfl
    · exact found

/-- Where an object with the text is near, one is matched. -/
theorem nearest_isSome {i : ℕ} {o : Obj} (free : i ∈ numbers) (there : tracked[i]? = some o)
    (same : o.norm = n) (near : distance o.y y ≤ s.matchWindow) :
    (s.nearest tracked n y numbers).isSome := by
  have stays : ∀ (more : List ℕ) (best : Option (ℕ × ℕ)), best.isSome →
      (more.foldl (s.closer tracked n y) best).isSome := by
    intro more
    induction more with
    | nil => exact fun _ found => found
    | cons j rest ih => exact fun _ found => ih _ (closer_isSome j found)
  obtain ⟨sooner, later, rfl⟩ := List.append_of_mem free
  rw [nearest, List.foldl_append, List.foldl_cons]
  refine stays later _ ?_
  generalize sooner.foldl (s.closer tracked n y) none = best
  cases best with
  | some b => exact closer_isSome i rfl
  | none =>
    rw [closer, there]
    dsimp only
    rw [if_pos ⟨same, near, rfl⟩]
    rfl

end Nearest

/-! ### The objects of one line -/

/-- The objects with this text. -/
def ofLine (n : Text) (tracked : List Obj) : List Obj := tracked.filter (·.norm = n)

section Lists
variable {α : Type*} {p : α → Bool} {f : α → α} {l : List α} {i : ℕ} {a b : α}

theorem filter_modify_aside (there : l[i]? = some a) (out : p a = false) (still : p (f a) = false) :
    (l.modify i f).filter p = l.filter p := by
  obtain ⟨inside, -⟩ := List.getElem?_eq_some_iff.mp there
  obtain ⟨left, c, right, rfl, rfl, changed⟩ := List.exists_of_modify f inside
  have same : c = a := by simpa using there
  subst same
  rw [changed, List.filter_append, List.filter_append, List.filter_cons_of_neg (by simp [still]),
    List.filter_cons_of_neg (by simp [out])]

theorem filter_modify_only (there : l[i]? = some a) (hit : p a = true) (keeps : p (f a) = true)
    (only : l.filter p = [b]) : (l.modify i f).filter p = [f b] := by
  obtain ⟨inside, -⟩ := List.getElem?_eq_some_iff.mp there
  obtain ⟨left, c, right, rfl, rfl, changed⟩ := List.exists_of_modify f inside
  have same : c = a := by simpa using there
  subst same
  rw [List.filter_append, List.filter_cons_of_pos hit, List.append_eq_singleton_iff] at only
  obtain ⟨before, rest⟩ | ⟨-, impossible⟩ := only
  · obtain ⟨rfl, behind⟩ := List.cons.inj rest
    rw [changed, List.filter_append, List.filter_cons_of_pos keeps, before, behind]
    rfl
  · cases impossible

theorem map_modify_same {β : Type*} {g : α → β} (same : ∀ a, g (f a) = g a) :
    (l.modify i f).map g = l.map g := by
  obtain inside | outside := Nat.lt_or_ge i l.length
  · obtain ⟨left, c, right, rfl, -, changed⟩ := List.exists_of_modify f inside
    rw [changed, List.map_append, List.map_append, List.map_cons, List.map_cons, same]
  · rw [List.modify_eq_self outside]

end Lists

/-- The objects of the line are not matched yet. -/
def Unmatched (n : Text) (m : Matching) : Prop :=
  ∀ i o, m.tracked[i]? = some o → o.norm = n → i ∈ m.unmatched

section Sight
variable {s} (fno : ℕ) {m : Matching} {n : Text} {entry : ℕ × Text}

/-- A row of another text. -/
theorem sight_aside (other : normText entry.2 ≠ n) :
    ofLine n (s.sight fno m entry).tracked = ofLine n m.tracked ∧
      (Unmatched n m → Unmatched n (s.sight fno m entry)) := by
  rw [sight]
  cases found : s.nearest m.tracked (normText entry.2) entry.1 (s.sweep m.unmatched) with
  | some best =>
    obtain ⟨-, p, there, same⟩ := nearest_some found
    have out : p.norm ≠ n := same ▸ other
    constructor
    · exact filter_modify_aside there (decide_eq_false out) (decide_eq_false out)
    · intro free i o at_ norm
      have apart : i ≠ best.1 := by
        rintro rfl
        rw [List.getElem?_modify_eq, there] at at_
        cases at_
        exact out norm
      rw [List.getElem?_modify_ne _ _ apart.symm] at at_
      exact (List.mem_erase_of_ne apart).mpr (free i o at_ norm)
  | none =>
    constructor
    · rw [ofLine, List.filter_append, List.filter_cons_of_neg (by simp [other]), List.filter_nil,
        List.append_nil, ofLine]
    · intro free i o at_ norm
      obtain below | above := Nat.lt_or_ge i m.tracked.length
      · rw [List.getElem?_append_left below] at at_
        exact free i o at_ norm
      · rw [List.getElem?_append_right above, List.getElem?_singleton] at at_
        split at at_
        · cases at_
          exact absurd norm other
        · cases at_

/-- The row of a line that nothing is tracked of. -/
theorem sight_first (own : normText entry.2 = n) (none_ : ofLine n m.tracked = []) :
    ∃ o, ofLine n (s.sight fno m entry).tracked = [o] ∧ o.y = entry.1 ∧ o.lastSeen = fno ∧
      o.seen = 1 ∧ o.committed = false := by
  rw [sight]
  cases found : s.nearest m.tracked (normText entry.2) entry.1 (s.sweep m.unmatched) with
  | some best =>
    obtain ⟨-, p, there, same⟩ := nearest_some found
    have member : p ∈ ofLine n m.tracked :=
      List.mem_filter.mpr ⟨List.mem_of_getElem? there, by simp [same, own]⟩
    rw [none_] at member
    cases member
  | none =>
    rw [ofLine] at none_
    rw [ofLine, List.filter_append, none_, List.filter_cons_of_pos (by simpa using own),
      List.filter_nil, List.nil_append]
    exact ⟨_, rfl, rfl, rfl, rfl, rfl⟩

/-- The row of a line near the only object of the line. -/
theorem sight_own {o : Obj} (own : normText entry.2 = n) (only : ofLine n m.tracked = [o])
    (free : Unmatched n m) (near : distance o.y entry.1 ≤ s.matchWindow) :
    ofLine n (s.sight fno m entry).tracked = [o.sighted fno entry.1] := by
  have member : o ∈ ofLine n m.tracked := only ▸ List.mem_singleton_self o
  obtain ⟨inside, norm⟩ := List.mem_filter.mp member
  obtain ⟨i, there⟩ := List.mem_iff_getElem?.mp inside
  have norm : o.norm = n := by simpa using norm
  have near_found := nearest_isSome ((s.sweep_perm _).mem_iff.mpr (free i o there norm)) there
    (norm.trans own.symm) near
  rw [sight]
  cases found : s.nearest m.tracked (normText entry.2) entry.1 (s.sweep m.unmatched) with
  | some best =>
    obtain ⟨-, p, at_, same⟩ := nearest_some found
    exact filter_modify_only at_ (by simp [same, own]) (by simp [Obj.sighted, same, own]) only
  | none =>
    rw [found] at near_found
    cases near_found

end Sight

/-- The loop over the content rows. -/
def matched (b : TranscriptBuilder) (rows : List Text) : Matching :=
  (s.contentRows rows).foldl (s.sight b.frameNo)
    ⟨b.tracked, List.range b.tracked.length, b.made⟩

/-- Out of the viewport for `grace` frames. -/
def Gone (fno : ℕ) (o : Obj) : Prop := o.lastSeen ≤ fno - s.grace

instance (fno : ℕ) : DecidablePred (s.Gone fno) := fun o =>
  inferInstanceAs (Decidable (o.lastSeen ≤ fno - s.grace))

/-- Seen often enough, and not yet written. -/
def Ripe (o : Obj) : Prop := s.stable ≤ o.seen ∧ o.committed = false

instance : DecidablePred s.Ripe := fun o =>
  inferInstanceAs (Decidable (s.stable ≤ o.seen ∧ o.committed = false))

/-- `observe`, and what it writes. -/
def observe (b : TranscriptBuilder) (rows : List Text) : TranscriptBuilder × List Obj :=
  let m := s.matched b rows
  let toCommit := (m.tracked.filter (s.Gone b.frameNo ·)).filter (s.Ripe ·)
  ({ tracked := m.tracked.filter (¬ s.Gone b.frameNo ·), frameNo := b.frameNo + 1, made := m.made },
    toCommit.insertionSort Obj.Before)

end Transcribing

/-- What `finalize` does behind the frame. -/
def TranscriptBuilder.finish (b : TranscriptBuilder) : TranscriptBuilder × List Obj :=
  ({ b with tracked := b.tracked.map fun o => if o.committed then o else o.commit },
    (b.tracked.filter (·.committed = false)).insertionSort Obj.Before)

inductive TranscriptCall
  | observe (rows : List Text)
  | finalize (frame : Option (List Text))

namespace Transcribing
variable (s : Transcribing)

/-- A builder call by call. Every output is what one loop over `sorted(…)` gives to
`add_agent_line`. -/
def transcriptBuilder : Core.Machine TranscriptBuilder TranscriptCall (List Obj) where
  step b
    | .observe rows => ((s.observe b rows).1, [(s.observe b rows).2])
    | .finalize none => (b.finish.1, [b.finish.2])
    | .finalize (some rows) =>
      let seen := s.observe b rows
      (seen.1.finish.1, [seen.2, seen.1.finish.2])

end Transcribing

/-! ### Identities -/

/-- The numbers in `spent` are those of the objects written so far. -/
structure Identified (spent : List ℕ) (tracked : List Obj) (made : ℕ) : Prop where
  apart : (tracked.map Obj.id).Nodup
  below : ∀ o ∈ tracked, o.id < made
  once : spent.Nodup
  old : ∀ i ∈ spent, i < made
  fresh : ∀ o ∈ tracked, o.committed = false → o.id ∉ spent

namespace Identified
variable {spent : List ℕ} {tracked tracked' batch : List Obj} {made : ℕ} {p : Obj → Bool}

/-- A sighting changes neither. -/
def key (o : Obj) : ℕ × Bool := (o.id, o.committed)

theorem congr (known : Identified spent tracked made)
    (same : tracked'.map key = tracked.map key) : Identified spent tracked' made := by
  have ids : tracked'.map Obj.id = tracked.map Obj.id := by
    have firsts := congrArg (List.map Prod.fst) same
    rwa [List.map_map, List.map_map] at firsts
  have source : ∀ o ∈ tracked', ∃ q ∈ tracked, key q = key o := fun o member =>
    List.mem_map.mp (same ▸ List.mem_map_of_mem member)
  refine ⟨ids ▸ known.apart, fun o member => ?_, known.once, known.old, fun o member open_ => ?_⟩
  · obtain ⟨q, inside, keys⟩ := source o member
    have id : q.id = o.id := congrArg Prod.fst keys
    exact id ▸ known.below q inside
  · obtain ⟨q, inside, keys⟩ := source o member
    have id : q.id = o.id := congrArg Prod.fst keys
    have flag : q.committed = o.committed := congrArg Prod.snd keys
    exact id ▸ known.fresh q inside (flag.trans open_)

theorem make {o : Obj} (known : Identified spent tracked made) (number : o.id = made) :
    Identified spent (tracked ++ [o]) (made + 1) where
  apart := by
    rw [List.map_append, List.map_singleton, number]
    refine List.nodup_append.mpr ⟨known.apart, List.nodup_singleton _, ?_⟩
    rintro i inside j last rfl
    obtain ⟨q, member, rfl⟩ := List.mem_map.mp inside
    exact Nat.ne_of_lt (known.below q member) (List.mem_singleton.mp last)
  below q member := by
    rcases List.mem_append.mp member with inside | last
    · exact Nat.lt_succ_of_lt (known.below q inside)
    · rw [List.mem_singleton.mp last, number]
      exact Nat.lt_succ_self made
  once := known.once
  old i member := Nat.lt_succ_of_lt (known.old i member)
  fresh q member open_ := by
    rcases List.mem_append.mp member with inside | last
    · exact known.fresh q inside open_
    · rw [List.mem_singleton.mp last, number]
      exact fun inside => Nat.lt_irrefl _ (known.old made inside)

/-- Objects not written yet are written, and none of them stays as it was. -/
theorem write (known : Identified spent tracked made) (perm : batch.Perm (tracked.filter p))
    (open_ : ∀ o, p o = true → o.committed = false)
    (stay : (tracked'.map Obj.id).Sublist (tracked.map Obj.id))
    (left : ∀ o ∈ tracked', o.committed = false → o ∈ tracked ∧ p o = false) :
    Identified (spent ++ batch.map Obj.id) tracked' made := by
  have source : ∀ o ∈ batch, o ∈ tracked ∧ p o = true := fun o member =>
    List.mem_filter.mp (perm.mem_iff.mp member)
  refine ⟨known.apart.sublist stay, fun o member => ?_, ?_, fun i member => ?_,
    fun o member flag inside => ?_⟩
  · obtain ⟨q, inside, same⟩ := List.mem_map.mp (stay.mem (List.mem_map_of_mem member))
    exact same ▸ known.below q inside
  · refine List.nodup_append.mpr ⟨known.once, ?_, ?_⟩
    · exact (perm.map Obj.id).nodup_iff.mpr
        (known.apart.sublist (List.filter_sublist.map Obj.id))
    · rintro i there j member rfl
      obtain ⟨q, inside, rfl⟩ := List.mem_map.mp member
      exact known.fresh q (source q inside).1 (open_ q (source q inside).2) there
  · rcases List.mem_append.mp member with there | new
    · exact known.old i there
    · obtain ⟨q, inside, rfl⟩ := List.mem_map.mp new
      exact known.below q (source q inside).1
  · obtain ⟨here, spared⟩ := left o member flag
    rcases List.mem_append.mp inside with there | new
    · exact known.fresh o here flag there
    · obtain ⟨q, written, same⟩ := List.mem_map.mp new
      have equal : q = o := List.inj_on_of_nodup_map known.apart (source q written).1 here same
      rw [equal] at written
      rw [(source o written).2] at spared
      cases spared

end Identified

section Runs
variable {s : Transcribing} {b : TranscriptBuilder} {spent : List ℕ}

theorem sight_identified {fno : ℕ} {m : Transcribing.Matching} (entry : ℕ × Text)
    (known : Identified spent m.tracked m.made) :
    Identified spent (s.sight fno m entry).tracked (s.sight fno m entry).made := by
  rw [Transcribing.sight]
  cases s.nearest m.tracked (normText entry.2) entry.1 (s.sweep m.unmatched) with
  | some best => exact known.congr (Transcribing.map_modify_same fun _ => rfl)
  | none => exact known.make rfl

theorem matched_identified (rows : List Text) (known : Identified spent b.tracked b.made) :
    Identified spent (s.matched b rows).tracked (s.matched b rows).made := by
  rw [Transcribing.matched]
  exact List.foldlRecOn (motive := fun m : Transcribing.Matching => Identified spent m.tracked m.made) _ _ known
    fun _ known entry _ => sight_identified entry known

theorem observe_identified (rows : List Text) (known : Identified spent b.tracked b.made) :
    Identified (spent ++ (s.observe b rows).2.map Obj.id) (s.observe b rows).1.tracked
      (s.observe b rows).1.made := by
  have swept := matched_identified (s := s) rows known
  refine swept.write (p := fun o => decide (s.Ripe o) && decide (s.Gone b.frameNo o)) ?_ ?_ ?_ ?_
  · rw [← List.filter_filter]
    exact List.perm_insertionSort ..
  · intro o ripe
    rw [Bool.and_eq_true, decide_eq_true_eq] at ripe
    exact ripe.1.2
  · exact List.filter_sublist.map Obj.id
  · intro o member _
    obtain ⟨inside, stays⟩ := List.mem_filter.mp member
    have here : ¬ s.Gone b.frameNo o := by simpa using stays
    exact ⟨inside, by simp [here]⟩

theorem finish_identified (known : Identified spent b.tracked b.made) :
    Identified (spent ++ b.finish.2.map Obj.id) b.finish.1.tracked b.finish.1.made := by
  have same : ∀ o : Obj, (if o.committed then o else o.commit).id = o.id := by
    intro o
    split <;> rfl
  refine known.write (p := (·.committed = false)) ?_ ?_ ?_ ?_
  · exact List.perm_insertionSort ..
  · exact fun o open_ => by simpa using open_
  · have ids : b.finish.1.tracked.map Obj.id = b.tracked.map Obj.id := by
      rw [TranscriptBuilder.finish, List.map_map]
      exact List.map_congr_left fun o _ => same o
    exact ids ▸ List.Sublist.refl _
  · intro o member open_
    -- nothing is left unmarked
    obtain ⟨q, -, rfl⟩ := List.mem_map.mp member
    split at open_
    · rename_i marked
      rw [open_] at marked
      cases marked
    · cases open_

/-- No object is written twice, in whatever order frames and stops come. -/
theorem transcriptBuilder_once (s : Transcribing) (calls : List TranscriptCall) :
    ((s.transcriptBuilder.outputs {} calls).flatten.map Obj.id).Nodup := by
  have all : s.transcriptBuilder.Along (fun _ _ => True) {} calls :=
    Core.Machine.along_of_forall (p := fun _ => True) _ fun _ _ => trivial
  have start : Identified [] [] 0 := ⟨.nil, nofun, .nil, nofun, nofun⟩
  refine (s.transcriptBuilder.record_along
    (fun _ b written => Identified (written.flatten.map Obj.id) b.tracked b.made)
    (fun _ b written call known _ => ?_) (s := {}) start all).once
  rw [List.flatten_append, List.map_append]
  match call with
  | .observe rows =>
    have next := observe_identified (s := s) rows known
    simpa [Transcribing.transcriptBuilder] using next
  | .finalize none =>
    have next := finish_identified known
    simpa [Transcribing.transcriptBuilder] using next
  | .finalize (some rows) =>
    have next := finish_identified (observe_identified (s := s) rows known)
    simpa [Transcribing.transcriptBuilder] using next

/-- What is written together is in the order of the first sightings, then of the rows. -/
theorem transcriptBuilder_ordered (s : Transcribing) (calls : List TranscriptCall) :
    ∀ batch ∈ s.transcriptBuilder.outputs {} calls, batch.Pairwise Obj.Before := by
  have all : s.transcriptBuilder.Along (fun _ _ => True) {} calls :=
    Core.Machine.along_of_forall (p := fun _ => True) _ fun _ _ => trivial
  refine s.transcriptBuilder.outputs_along (fun _ => True) (List.Pairwise Obj.Before ·)
    (fun _ _ _ _ => trivial) (fun b call _ _ batch member => ?_) trivial all
  obtain ⟨objects, rfl⟩ : ∃ objects, batch = List.insertionSort Obj.Before objects := by
    match call with
    | .observe rows => exact ⟨_, List.mem_singleton.mp member⟩
    | .finalize none => exact ⟨_, List.mem_singleton.mp member⟩
    | .finalize (some rows) =>
      rcases List.mem_cons.mp member with rfl | last
      · exact ⟨_, rfl⟩
      · exact ⟨_, List.mem_singleton.mp last⟩
  exact List.pairwise_insertionSort ..

end Runs
end Nelix.Daemon
