import Nelix.Daemon.TranscriptBuilder

/-!
# The lines of the transcript

What becomes of a line of the screen over a run of a transcript builder. A line is known by what a
test says of a row: by its text with the whitespace normalized, or by the text as it stands.

## Main results

`transcript_lines`: a line that is unique and steady is written once, no object is written twice, and
every batch is in order.

`transcript_excess`: what is written where an absence is as long as the grace period, where two
texts differ in whitespace only, and where there is no stop.
-/
namespace Nelix.Daemon

open Core (Text)

namespace TranscriptCall

/-- The frame that comes with the call. -/
def frame : TranscriptCall → Option (List Text)
  | .observe rows => some rows
  | .finalize frame => frame

/-- The frames of the calls, in order. -/
def frames (calls : List TranscriptCall) : List (List Text) := calls.filterMap frame

end TranscriptCall

open TranscriptCall (frames)

/-- The test for a text up to whitespace. -/
def isLine (n : Text) (row : Text) : Bool := decide (normText row = n)

/-- An object of this line is tracked. -/
def TranscriptBuilder.Tracks (n : Text) (b : TranscriptBuilder) : Prop := ∃ o ∈ b.tracked, o.norm = n

namespace Transcribing
variable (s : Transcribing)

/-! ### What is on screen -/

/-- The rows of the line in a frame. -/
def lineRows (mine : Text → Bool) (rows : List Text) : List ℕ :=
  ((s.contentRows rows).filter fun entry => mine entry.2).map Prod.fst

/-- No frame has the line twice. -/
def Unique (mine : Text → Bool) (shown : List (List Text)) : Prop :=
  ∀ rows ∈ shown, (s.lineRows mine rows).length ≤ 1

instance (mine : Text → Bool) (shown : List (List Text)) : Decidable (s.Unique mine shown) :=
  inferInstanceAs (Decidable (∀ rows ∈ shown, _))

/-- The number of the frame and the row, for every time the line is on screen. -/
def sightings (mine : Text → Bool) (shown : List (List Text)) : List (ℕ × ℕ) :=
  shown.zipIdx.flatMap fun entry => (s.lineRows mine entry.1).map (entry.2, ·)

/-- From one sighting to the next the line moves no further than the match window, and is on no more
than `absent` frames in between. -/
def Steady (absent : ℤ) (mine : Text → Bool) (shown : List (List Text)) : Prop :=
  (s.sightings mine shown).IsChain fun p q =>
    distance p.2 q.2 ≤ s.matchWindow ∧ (q.1 : ℤ) - p.1 - 1 ≤ absent

instance (absent : ℤ) (mine : Text → Bool) (shown : List (List Text)) :
    Decidable (s.Steady absent mine shown) :=
  inferInstanceAs (Decidable (List.IsChain _ _))

/-- The line was on screen, and `grace` frames have come since. -/
def Left (mine : Text → Bool) (shown : List (List Text)) : Prop :=
  ∃ last ∈ (s.sightings mine shown).getLast?, last.1 + s.grace < shown.length

/-! ### What is written -/

def transcript (calls : List TranscriptCall) : List Text :=
  (s.transcriptBuilder.outputs {} calls).flatten.map Obj.text

/-- The line is tracked at one of the stops. -/
def Stopped (n : Text) (calls : List TranscriptCall) : Prop :=
  ∃ earlier frame later, calls = earlier ++ .finalize frame :: later ∧
    (s.transcriptBuilder.after {} (earlier ++ [.finalize frame])).Tracks n

/-- How many of the objects are of this line. -/
def lineCount (n : Text) (objects : List Obj) : ℕ := objects.countP (·.norm = n)

theorem transcript_count (n : Text) (calls : List TranscriptCall) :
    (s.transcript calls).countP (isLine n) =
      lineCount n (s.transcriptBuilder.outputs {} calls).flatten := by
  rw [transcript, List.countP_map, lineCount]
  refine List.countP_congr fun o _ => ?_
  rw [Function.comp_apply, isLine, o.labelled]

/-! ### One frame -/

section Frame
variable {s} {n : Text} {b : TranscriptBuilder} {rows : List Text} {y : ℕ}

/-- Rows of other texts only. -/
theorem sights_aside (fno : ℕ) {entries : List (ℕ × Text)} {m : Matching}
    (others : ∀ entry ∈ entries, ¬ isLine n entry.2 = true) :
    ofLine n (entries.foldl (s.sight fno) m).tracked = ofLine n m.tracked ∧
      (Unmatched n m → Unmatched n (entries.foldl (s.sight fno) m)) := by
  induction entries generalizing m with
  | nil => exact ⟨rfl, id⟩
  | cons entry rest ih =>
    have other : normText entry.2 ≠ n := by simpa [isLine] using others entry (by simp)
    have here := sight_aside (s := s) fno (m := m) other
    have later := ih (m := s.sight fno m entry) fun e inside => others e (by simp [inside])
    exact ⟨later.1.trans here.1, later.2 ∘ here.2⟩

theorem unmatched_start (n : Text) (b : TranscriptBuilder) :
    Unmatched n ⟨b.tracked, List.range b.tracked.length, b.made⟩ := by
  intro i o there _
  obtain ⟨inside, -⟩ := List.getElem?_eq_some_iff.mp there
  exact List.mem_range.mpr inside

/-- A frame without the line. -/
theorem matched_aside (absent : s.lineRows (isLine n) rows = []) :
    ofLine n (s.matched b rows).tracked = ofLine n b.tracked := by
  rw [lineRows, List.map_eq_nil_iff, List.filter_eq_nil_iff] at absent
  exact (sights_aside _ absent).1

/-- The frame is gone through up to the row of the line, then over it, then on to its end. -/
theorem matched_cut (present : s.lineRows (isLine n) rows = [y]) :
    ∃ (m : Matching) (entry : ℕ × Text), entry.1 = y ∧ normText entry.2 = n ∧
      ofLine n m.tracked = ofLine n b.tracked ∧ Unmatched n m ∧
      ofLine n (s.matched b rows).tracked = ofLine n (s.sight b.frameNo m entry).tracked := by
  obtain ⟨entry, only, rfl⟩ := List.map_eq_singleton_iff.mp present
  obtain ⟨before, behind, cut, sooner, own, later⟩ := List.filter_eq_cons_iff.mp only
  obtain ⟨same, free⟩ := sights_aside (s := s) b.frameNo
    (m := ⟨b.tracked, List.range b.tracked.length, b.made⟩) sooner
  refine ⟨_, entry, rfl, by simpa [isLine] using own, same, free (unmatched_start n b), ?_⟩
  rw [matched, cut, List.foldl_append, List.foldl_cons]
  exact (sights_aside _ (List.filter_eq_nil_iff.mp later)).1

/-- What stays tracked of a line. -/
theorem ofLine_observe :
    ofLine n (s.observe b rows).1.tracked =
      (ofLine n (s.matched b rows).tracked).filter (¬ s.Gone b.frameNo ·) :=
  List.filter_comm ..

/-- What is written of a line. -/
theorem lineCount_observe :
    lineCount n (s.observe b rows).2 =
      (((ofLine n (s.matched b rows).tracked).filter (s.Gone b.frameNo ·)).filter (s.Ripe ·)).length := by
  rw [lineCount, observe, (List.perm_insertionSort ..).countP_eq, List.countP_eq_length_filter,
    List.filter_comm, List.filter_comm fun o : Obj => decide (o.norm = n)]
  rfl

end Frame

/-! ### The fate of a line -/

section Sightings
variable {s} {mine : Text → Bool} {shown : List (List Text)} {rows : List Text} {absent : ℤ} {y : ℕ}

theorem sightings_append (shown : List (List Text)) (rows : List Text) :
    s.sightings mine (shown ++ [rows]) =
      s.sightings mine shown ++ (s.lineRows mine rows).map (shown.length, ·) := by
  rw [sightings, sightings, List.zipIdx_append, List.flatMap_append, Nat.zero_add]
  simp only [List.zipIdx_cons, List.zipIdx_nil, List.flatMap_cons, List.flatMap_nil, List.append_nil]

theorem sightings_present (present : s.lineRows mine rows = [y]) :
    s.sightings mine (shown ++ [rows]) = s.sightings mine shown ++ [(shown.length, y)] := by
  rw [sightings_append, present, List.map_singleton]

theorem sightings_missing (missing : s.lineRows mine rows = []) :
    s.sightings mine (shown ++ [rows]) = s.sightings mine shown := by
  rw [sightings_append, missing, List.map_nil, List.append_nil]

theorem Steady.start {more : List (List Text)} (steady : s.Steady absent mine (shown ++ more)) :
    s.Steady absent mine shown := by
  induction more using List.reverseRecOn with
  | nil => rwa [List.append_nil] at steady
  | append_singleton more rows ih =>
    rw [Steady, ← List.append_assoc, sightings_append] at steady
    exact ih steady.left_of_append

/-- The next sighting is near the last one, and soon. -/
theorem Steady.next {last : ℕ × ℕ} (steady : s.Steady absent mine (shown ++ [rows]))
    (present : s.lineRows mine rows = [y]) (at_ : (s.sightings mine shown).getLast? = some last) :
    distance last.2 y ≤ s.matchWindow ∧ (shown.length : ℤ) - last.1 - 1 ≤ absent := by
  rw [Steady, sightings_present present, List.isChain_append] at steady
  exact steady.2.2 last at_ (shown.length, y) rfl

end Sightings

/-- What has become of a line after these frames, if so many objects of it were written. -/
inductive Fate (n : Text) (shown : List (List Text)) (tracked : List Obj) (count : ℕ) : Prop
  | unseen (nothing : s.sightings (isLine n) shown = []) (untracked : ofLine n tracked = [])
      (unwritten : count = 0)
  | onScreen (o : Obj) (only : ofLine n tracked = [o])
      (last : (s.sightings (isLine n) shown).getLast? = some (o.lastSeen, o.y))
      (seen : o.seen = (s.sightings (isLine n) shown).length)
      (recent : (shown.length : ℤ) ≤ o.lastSeen + s.grace)
      (written : count = if o.committed then 1 else 0)
  | gone (last : ℕ × ℕ) (untracked : ofLine n tracked = [])
      (at_ : (s.sightings (isLine n) shown).getLast? = some last)
      (old : last.1 + s.grace < shown.length)
      (written : count = 1 ∨ count = 0 ∧ (s.sightings (isLine n) shown).length < s.stable)

section Fates
variable {s} {n : Text} {shown : List (List Text)} {b : TranscriptBuilder} {rows : List Text}
  {count : ℕ} {o : Obj}

theorem Fate.le_one {tracked : List Obj} (fate : s.Fate n shown tracked count) : count ≤ 1 := by
  cases fate with
  | unseen _ _ unwritten => omega
  | onScreen o _ _ _ _ written => rw [written]; split <;> omega
  | gone _ _ _ _ written => omega

/-- The line's object is kept, or leaves and is written if it was seen often enough. -/
theorem observe_kept (clock : b.frameNo = shown.length)
    (only : ofLine n (s.matched b rows).tracked = [o])
    (last : (s.sightings (isLine n) (shown ++ [rows])).getLast? = some (o.lastSeen, o.y))
    (seen : o.seen = (s.sightings (isLine n) (shown ++ [rows])).length)
    (written : count = if o.committed then 1 else 0) :
    s.Fate n (shown ++ [rows]) (s.observe b rows).1.tracked
      (count + lineCount n (s.observe b rows).2) := by
  have grown : ((shown ++ [rows]).length : ℤ) = shown.length + 1 := by simp
  have stay : ofLine n (s.observe b rows).1.tracked = _ := ofLine_observe
  have wrote : lineCount n (s.observe b rows).2 = _ := lineCount_observe
  rw [only] at stay wrote
  by_cases leaves : s.Gone b.frameNo o
  · have old : o.lastSeen ≤ (b.frameNo : ℤ) - s.grace := leaves
    rw [List.filter_cons_of_neg (by simp [leaves]), List.filter_nil] at stay
    rw [List.filter_cons_of_pos (by simp [leaves]), List.filter_nil] at wrote
    refine .gone (o.lastSeen, o.y) stay last (by rw [grown]; dsimp only; omega) ?_
    by_cases ripe : s.Ripe o
    · rw [List.filter_cons_of_pos (by simpa using ripe), List.filter_nil, List.length_singleton] at wrote
      rw [ripe.2] at written
      exact .inl (by rw [wrote, written]; rfl)
    · rw [List.filter_cons_of_neg (by simpa using ripe), List.filter_nil, List.length_nil] at wrote
      rw [wrote, written, Nat.add_zero]
      cases flag : o.committed with
      | true => exact .inl rfl
      | false =>
        have young : ¬ s.stable ≤ o.seen := fun enough => ripe ⟨enough, flag⟩
        exact .inr ⟨rfl, by omega⟩
  · have recent : ¬ o.lastSeen ≤ (b.frameNo : ℤ) - s.grace := leaves
    rw [List.filter_cons_of_pos (by simpa using leaves), List.filter_nil] at stay
    rw [List.filter_cons_of_neg (by simp [leaves]), List.filter_nil, List.filter_nil,
      List.length_nil] at wrote
    refine .onScreen o stay last seen (by rw [grown]; omega) ?_
    rw [wrote, written, Nat.add_zero]

/-- Without an object of the line nothing of it is kept or written. -/
theorem observe_none (untracked : ofLine n (s.matched b rows).tracked = []) :
    ofLine n (s.observe b rows).1.tracked = [] ∧ lineCount n (s.observe b rows).2 = 0 := by
  rw [ofLine_observe, lineCount_observe, untracked]
  exact ⟨rfl, rfl⟩

/-- What a frame does to a line. -/
theorem observe_fate (fate : s.Fate n shown b.tracked count) (clock : b.frameNo = shown.length)
    (unique : (s.lineRows (isLine n) rows).length ≤ 1)
    (steady : s.Steady (s.grace - 1) (isLine n) (shown ++ [rows])) :
    s.Fate n (shown ++ [rows]) (s.observe b rows).1.tracked
      (count + lineCount n (s.observe b rows).2) := by
  obtain missing | ⟨y, present⟩ : s.lineRows (isLine n) rows = [] ∨
      ∃ y, s.lineRows (isLine n) rows = [y] := by
    rw [← List.length_eq_zero_iff, ← List.length_eq_one_iff]
    omega
  · have same := matched_aside (b := b) missing
    have sights : s.sightings (isLine n) (shown ++ [rows]) = _ := sightings_missing missing
    cases fate with
    | unseen nothing untracked unwritten =>
      obtain ⟨kept, wrote⟩ := observe_none (same.trans untracked)
      exact .unseen (sights.trans nothing) kept (by omega)
    | onScreen o only last seen _ written =>
      exact observe_kept clock (same.trans only) (sights ▸ last) (sights ▸ seen) written
    | gone last untracked at_ old written =>
      obtain ⟨kept, wrote⟩ := observe_none (same.trans untracked)
      refine .gone last kept (sights ▸ at_) ?_ ?_
      · rw [List.length_append]
        push_cast
        omega
      · rw [sights, wrote]
        exact written
  · obtain ⟨m, entry, rfl, own, same, free, cut⟩ := matched_cut (b := b) present
    have sights : s.sightings (isLine n) (shown ++ [rows]) = _ := sightings_present present
    cases fate with
    | unseen nothing untracked unwritten =>
      obtain ⟨o, only, row, lastSeen, seen, flag⟩ :=
        sight_first (s := s) b.frameNo own (same.trans untracked)
      rw [nothing, List.nil_append] at sights
      refine observe_kept clock (cut.trans only) ?_ ?_ ?_
      · rw [sights, row, lastSeen, clock]
        rfl
      · rw [sights, seen]
        rfl
      · rw [flag, unwritten]
        rfl
    | onScreen o only last seen _ written =>
      have near := (steady.next present last).1
      have only := cut.trans (sight_own b.frameNo own (same.trans only) free near)
      refine observe_kept clock only ?_ ?_ written
      · rw [sights, List.getLast?_concat, Obj.sighted, clock]
      · rw [sights, List.length_append, ← seen]
        rfl
    | gone last _ at_ old _ =>
      -- it would have to be back sooner
      have soon := (steady.next present at_).2
      omega

/-- What a stop does to a line. -/
theorem finish_fate (fate : s.Fate n shown b.tracked count) :
    s.Fate n shown b.finish.1.tracked (count + lineCount n b.finish.2) ∧
      (b.finish.1.Tracks n → count + lineCount n b.finish.2 = 1) := by
  have stay : ofLine n b.finish.1.tracked =
      (ofLine n b.tracked).map fun o => if o.committed then o else o.commit := by
    rw [ofLine, TranscriptBuilder.finish, List.filter_map]
    refine congrArg _ (List.filter_congr fun o _ => ?_)
    rw [Function.comp_apply]
    split <;> rfl
  have wrote : lineCount n b.finish.2 = ((ofLine n b.tracked).filter (·.committed = false)).length := by
    rw [lineCount, TranscriptBuilder.finish, (List.perm_insertionSort ..).countP_eq,
      List.countP_eq_length_filter, List.filter_comm]
    rfl
  have idle : ofLine n b.tracked = [] → lineCount n b.finish.2 = 0 ∧
      ofLine n b.finish.1.tracked = [] ∧ ¬ b.finish.1.Tracks n := by
    intro untracked
    rw [untracked] at stay wrote
    refine ⟨wrote, stay, ?_⟩
    rintro ⟨o, inside, norm⟩
    have member : o ∈ ofLine n b.finish.1.tracked := List.mem_filter.mpr ⟨inside, by simpa using norm⟩
    rw [stay] at member
    cases member
  cases fate with
  | unseen nothing untracked unwritten =>
    obtain ⟨zero, none_, away⟩ := idle untracked
    exact ⟨.unseen nothing none_ (by omega), fun tracks => absurd tracks away⟩
  | onScreen o only last seen recent written =>
    rw [only] at stay wrote
    cases flag : o.committed with
    | true =>
      rw [List.filter_cons_of_neg (by simp [flag])] at wrote
      rw [List.map_singleton, flag] at stay
      have one : count + lineCount n b.finish.2 = 1 := by rw [written, wrote, flag]; rfl
      exact ⟨.onScreen o stay last seen recent (by rw [one, flag]; rfl), fun _ => one⟩
    | false =>
      rw [List.filter_cons_of_pos (by simp [flag])] at wrote
      rw [List.map_singleton, flag] at stay
      have one : count + lineCount n b.finish.2 = 1 := by rw [written, wrote, flag]; rfl
      exact ⟨.onScreen o.commit stay last seen recent (by rw [one]; rfl), fun _ => one⟩
  | gone last untracked at_ old written =>
    obtain ⟨zero, none_, away⟩ := idle untracked
    exact ⟨.gone last none_ at_ old (by rwa [zero, Nat.add_zero]), fun tracks => absurd tracks away⟩

end Fates

/-! ### Runs -/

/-- What is known of a line after these calls. -/
structure Accounted (n : Text) (calls : List TranscriptCall) (b : TranscriptBuilder)
    (written : List (List Obj)) : Prop where
  clock : b.frameNo = (frames calls).length
  fate : s.Fate n (frames calls) b.tracked (lineCount n written.flatten)
  stop : ∀ frame, calls.getLast? = some (.finalize frame) → b.Tracks n → lineCount n written.flatten = 1

section Runs
variable {s} {n : Text} {calls : List TranscriptCall} {b : TranscriptBuilder} {written : List (List Obj)}
  {call : TranscriptCall}

theorem frames_append (calls more : List TranscriptCall) :
    frames (calls ++ more) = frames calls ++ frames more := List.filterMap_append

theorem Unique.start {mine : Text → Bool} {shown more : List (List Text)}
    (unique : s.Unique mine (shown ++ more)) : s.Unique mine shown :=
  fun rows inside => unique rows (List.mem_append_left _ inside)

/-- One call. -/
theorem call_accounted (known : s.Accounted n calls b written)
    (unique : s.Unique (isLine n) (frames (calls ++ [call])))
    (steady : s.Steady (s.grace - 1) (isLine n) (frames (calls ++ [call]))) :
    s.Accounted n (calls ++ [call]) (s.transcriptBuilder.step b call).1
      (written ++ (s.transcriptBuilder.step b call).2) := by
  have shown := frames_append calls [call]
  rw [shown] at unique steady
  match call with
  | .observe rows =>
    have next := observe_fate known.fate known.clock (unique rows (by simp [frames, TranscriptCall.frame])) steady
    have count : lineCount n (written ++ [(s.observe b rows).2]).flatten =
        lineCount n written.flatten + lineCount n (s.observe b rows).2 := by simp [lineCount]
    refine ⟨?_, ?_, fun frame last => ?_⟩
    · rw [shown, List.length_append, ← known.clock]
      rfl
    · rw [shown]
      exact count.symm ▸ next
    · rw [List.getLast?_concat] at last
      cases last
  | .finalize none =>
    obtain ⟨next, one⟩ := finish_fate known.fate
    have count : lineCount n (written ++ [b.finish.2]).flatten =
        lineCount n written.flatten + lineCount n b.finish.2 := by simp [lineCount]
    refine ⟨?_, ?_, fun _ _ tracks => ?_⟩
    · rw [shown, List.length_append, ← known.clock]
      rfl
    · rw [shown]
      exact (List.append_nil (frames calls)).symm ▸ count.symm ▸ next
    · exact count.trans (one tracks)
  | .finalize (some rows) =>
    have seen := observe_fate known.fate known.clock (unique rows (by simp [frames, TranscriptCall.frame])) steady
    obtain ⟨next, one⟩ := finish_fate seen
    have count : lineCount n (written ++ [(s.observe b rows).2, (s.observe b rows).1.finish.2]).flatten =
        lineCount n written.flatten + lineCount n (s.observe b rows).2 +
          lineCount n (s.observe b rows).1.finish.2 := by
      simp [lineCount, Nat.add_assoc]
    refine ⟨?_, ?_, fun _ _ tracks => ?_⟩
    · rw [shown, List.length_append, ← known.clock]
      rfl
    · rw [shown]
      exact count.symm ▸ next
    · exact count.trans (one tracks)

theorem accounted (unique : s.Unique (isLine n) (frames calls))
    (steady : s.Steady (s.grace - 1) (isLine n) (frames calls)) :
    s.Accounted n calls (s.transcriptBuilder.after {} calls) (s.transcriptBuilder.outputs {} calls) := by
  induction calls using List.reverseRecOn with
  | nil => exact ⟨rfl, .unseen rfl rfl rfl, nofun⟩
  | append_singleton calls call ih =>
    have shown := frames_append calls [call]
    have before := ih (shown ▸ unique).start (shown ▸ steady).start
    rw [Core.Machine.after_append, Core.Machine.outputs_append, Core.Machine.after_cons,
      Core.Machine.outputs_cons, Core.Machine.after_nil, Core.Machine.outputs_nil, List.append_nil]
    exact call_accounted before unique steady

/-- What is written later does not undo what was written at a stop. -/
theorem stopped_count (stopped : s.Stopped n calls) (unique : s.Unique (isLine n) (frames calls))
    (steady : s.Steady (s.grace - 1) (isLine n) (frames calls)) :
    1 ≤ lineCount n (s.transcriptBuilder.outputs {} calls).flatten := by
  obtain ⟨earlier, frame, later, rfl, tracks⟩ := stopped
  rw [← List.singleton_append, ← List.append_assoc] at unique steady ⊢
  rw [frames_append] at unique steady
  have known := accounted unique.start steady.start
  have one := known.stop frame (List.getLast?_concat ..) tracks
  rw [Core.Machine.outputs_append, List.flatten_append, lineCount, List.countP_append]
  rw [lineCount] at one
  omega

end Runs
end Transcribing

/-- For every sequence of frames and stops: a line that no frame has twice, that moves at most the
match window from one sighting to the next and is back before it was on no frame for the grace period,
is written once if it is tracked at a stop, or was seen often enough and has left; no object is written
twice; and what is written together is in the order of the first sightings, then of the rows. -/
theorem transcript_lines (s : Transcribing) (calls : List TranscriptCall) :
    (∀ n, s.Unique (isLine n) (frames calls) → s.Steady (s.grace - 1) (isLine n) (frames calls) →
      (s.Stopped n calls ∨ s.stable ≤ (s.sightings (isLine n) (frames calls)).length ∧
        s.Left (isLine n) (frames calls)) →
      (s.transcript calls).countP (isLine n) = 1) ∧
    ((s.transcriptBuilder.outputs {} calls).flatten.map Obj.id).Nodup ∧
    ∀ batch ∈ s.transcriptBuilder.outputs {} calls, batch.Pairwise Obj.Before := by
  refine ⟨fun n unique steady due => ?_, transcriptBuilder_once s calls,
    transcriptBuilder_ordered s calls⟩
  have known := (Transcribing.accounted unique steady).fate
  have most := known.le_one
  rw [s.transcript_count]
  obtain stopped | ⟨enough, last, at_, old⟩ := due
  · have least := Transcribing.stopped_count stopped unique steady
    omega
  · cases known with
    | unseen nothing _ _ =>
      rw [nothing] at at_
      cases at_
    | onScreen o _ shown _ recent _ =>
      rw [Option.mem_def, shown] at at_
      cases at_
      dsimp only at old
      omega
    | gone _ _ _ _ written => omega

/-! ### Fixed runs -/

/-- A driver whose prompt begins with `❯`. -/
def prompted : Transcribing where
  isTranscriptVolatile row := row.head? = some (.char '❯')
  isPromptChrome := none

def shows (rows : List String) : TranscriptCall := .observe (rows.map Text.ofString)

/-- A line that moves up, is away for three frames, and leaves. -/
def scrolling : List TranscriptCall :=
  [shows ["", "one", "❯"], shows ["one", "two", "❯"], shows ["two"], shows ["two"], shows ["❯"],
    shows [" one "], shows [], shows ["two"], shows [], shows [], shows [], .finalize none]

theorem transcript_lines_scrolling :
    (prompted.transcript scrolling).countP (isLine (Text.ofString "one")) = 1 :=
  (transcript_lines prompted scrolling).1 (Text.ofString "one") (by decide +kernel)
    (by decide +kernel) (.inr ⟨by decide +kernel, (5, 0), by decide +kernel, by decide +kernel⟩)

/-- The rows with this text as it stands. -/
def hasText (t row : Text) : Bool := decide (row.rstrip = t)

/-- The text is unique in every frame, moves no further than the match window, is away no longer than
the grace period, and is seen often enough. -/
def Sure (s : Transcribing) (t : Text) (calls : List TranscriptCall) : Prop :=
  s.Unique (hasText t) (frames calls) ∧ s.Steady s.grace (hasText t) (frames calls) ∧
    s.stable ≤ (s.sightings (hasText t) (frames calls)).length

instance (s : Transcribing) (t : Text) (calls : List TranscriptCall) : Decidable (Sure s t calls) :=
  inferInstanceAs (Decidable (_ ∧ _ ∧ _))

/-- Away for as long as the grace period. -/
def returning : List TranscriptCall :=
  [shows ["a b"], shows ["a b"], shows [], shows [], shows [], shows [], shows ["a b"], shows ["a b"],
    .finalize none]

/-- Below a line that differs in whitespace only, until that line is gone. -/
def crowded : List TranscriptCall :=
  [shows ["a  b", "a b"], shows ["a b"], shows ["a b"], shows ["a b"], shows ["a b"], .finalize none]

/-- Twice written, taken for the other line, and not written yet. -/
theorem transcript_excess :
    (Sure prompted (Text.ofString "a b") returning ∧
      (prompted.transcript returning).count (Text.ofString "a b") = 2) ∧
    (Sure prompted (Text.ofString "a b") crowded ∧
      (prompted.transcript crowded).count (Text.ofString "a b") = 0) ∧
    (Sure prompted (Text.ofString "a b") [shows ["a b"], shows ["a b"]] ∧
      (prompted.transcript [shows ["a b"], shows ["a b"]]).count (Text.ofString "a b") = 0) := by
  decide +kernel

end Nelix.Daemon
