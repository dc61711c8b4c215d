import Nelix.Core.Marker

/-!
# Feeding the renderer

`PtySession._feed`: every read of the child's output goes to the raw spool and to the renderer. With
a transcript sink the stream is cut behind each end of a synchronized update, a snapshot is taken
there, and what may still become such an end is held back.

## Main results

`feed_cuts`: however a stream is cut into reads, the renderer has been given the same bytes, the
sink has seen the same snapshots, and what is held back is the longest beginning of the marker that
the stream ends with.
-/
namespace Nelix.Daemon

open Core Core.Marker

/-- `_ESU`: the end of a synchronized update. -/
def esu : List UInt8 := [0x1b, 0x5b, 0x3f, 0x32, 0x30, 0x32, 0x36, 0x6c]

/-- A renderer: what feeding bytes makes of it, and the screen it shows. -/
structure Terminal (R F : Type) where
  feed : R → List UInt8 → R
  snapshot : R → F

/-- A session's terminal side. -/
structure PtySession (R F : Type) where
  renderer : R
  /-- The frames that the transcript sink has observed; none without a sink. -/
  transcript : Option (List F) := none
  /-- The raw spool; none without a dialog. -/
  dialog : Option (List UInt8) := none
  esuCarry : List UInt8 := []
  /-- Ghost: every byte that the renderer has been fed. -/
  given : List UInt8 := []

/-- The loop of `_esu_partial_len` from a length downwards. -/
def esuPartialFrom (buf : List UInt8) : ℕ → ℕ
  | 0 => 0
  | k + 1 => if esu.take (k + 1) <:+ buf then k + 1 else esuPartialFrom buf k

/-- `_esu_partial_len` -/
def esuPartialLen (buf : List UInt8) : ℕ := esuPartialFrom buf (esu.length - 1)

/-- `buf.find(_ESU)` -/
def findEsu (buf : List UInt8) : Option ℕ :=
  if esu <+: buf then some 0
  else
    match buf with
    | [] => none
    | _ :: rest => (findEsu rest).map (· + 1)

namespace PtySession

variable {R F : Type} (t : Terminal R F)

def give (bytes : List UInt8) (s : PtySession R F) : PtySession R F :=
  { s with renderer := t.feed s.renderer bytes, given := s.given ++ bytes }

/-- `self._transcript.observe(self._renderer.snapshot())` -/
def observe (s : PtySession R F) : PtySession R F :=
  { s with transcript := s.transcript.map (· ++ [t.snapshot s.renderer]) }

end PtySession

theorem findEsu_spec (buf : List UInt8) : match findEsu buf with
    | some i => esu <+: buf.drop i ∧ ∀ j, j < i → ¬ esu <+: buf.drop j
    | none => ∀ j, ¬ esu <+: buf.drop j := by
  induction buf with
  | nil =>
    rw [findEsu, if_neg (by decide)]
    intro j
    rw [List.drop_nil]
    decide
  | cons b rest ih =>
    rw [findEsu]
    by_cases here : esu <+: b :: rest
    · rw [if_pos here]
      exact ⟨here, fun j before => absurd before (Nat.not_lt_zero j)⟩
    · rw [if_neg here]
      cases found : findEsu rest with
      | some i =>
        rw [found] at ih
        refine ⟨ih.1, fun j before => ?_⟩
        cases j with
        | zero => exact here
        | succ j => exact ih.2 j (Nat.lt_of_succ_lt_succ before)
      | none =>
        rw [found] at ih
        intro j
        cases j with
        | zero => exact here
        | succ j => exact ih j

theorem esu_within {buf : List UInt8} {i : ℕ} (found : findEsu buf = some i) :
    i + esu.length ≤ buf.length := by
  have spec := findEsu_spec buf
  rw [found] at spec
  have size := spec.1.length_le
  have some : 0 < esu.length := by decide
  rw [List.length_drop] at size
  omega

theorem unbordered_esu : Unbordered esu := by
  intro p begins ends
  have one : ∀ k ∈ List.range 9, esu.take k <:+ esu → k = 0 ∨ k = 8 := by decide
  have size : p.length < 9 := Nat.lt_succ_iff.mpr begins.length_le
  obtain ⟨rest, whole⟩ := begins
  have taken : esu.take p.length = p := by rw [← whole, List.take_left]
  rcases one p.length (List.mem_range.mpr size) (taken.symm ▸ ends) with none | all
  · exact .inl (List.length_eq_zero_iff.mp none)
  · exact .inr (taken.symm.trans (all ▸ rfl))

/-- The held part of a buffer. -/
theorem held_esuPartialLen (buf : List UInt8) : Held esu buf (esuPartialLen buf) := by
  have downwards : ∀ k, k < esu.length → esuPartialFrom buf k < esu.length ∧
      esu.take (esuPartialFrom buf k) <:+ buf ∧
      ∀ k', k' ≤ k → esu.take k' <:+ buf → k' ≤ esuPartialFrom buf k := by
    intro k
    induction k with
    | zero => exact fun proper => ⟨proper, List.nil_suffix, fun k' below _ => below⟩
    | succ k ih =>
      intro proper
      rw [esuPartialFrom]
      by_cases here : esu.take (k + 1) <:+ buf
      · rw [if_pos here]
        exact ⟨proper, here, fun k' below _ => below⟩
      · rw [if_neg here]
        obtain ⟨proper', ends, most⟩ := ih (Nat.lt_of_succ_lt proper)
        refine ⟨proper', ends, fun k' below there => ?_⟩
        rcases Nat.lt_or_eq_of_le below with lower | rfl
        · exact most k' (Nat.lt_succ_iff.mp lower) there
        · exact absurd there here
  obtain ⟨proper, here, most⟩ := downwards (esu.length - 1) (by decide)
  exact ⟨proper, here, fun k' proper' => most k' (Nat.le_pred_of_lt proper')⟩

namespace PtySession

variable {R F : Type} (t : Terminal R F)

/-- The loop of `_feed`: a snapshot behind each marker. Leaves what follows the last one. -/
def feedFrames (s : PtySession R F) (buf : List UInt8) : PtySession R F × List UInt8 :=
  match _found : findEsu buf with
  | none => (s, buf)
  | some i =>
    feedFrames ((s.give t (buf.take (i + esu.length))).observe t) (buf.drop (i + esu.length))
termination_by buf.length
decreasing_by
  have within := esu_within _found
  have some : 0 < esu.length := by decide
  rw [List.length_drop]
  omega

/-- What `_feed` does for a transcript sink. -/
def feedCut (s : PtySession R F) (data : List UInt8) : PtySession R F :=
  let looped := feedFrames t { s with esuCarry := [] } (s.esuCarry ++ data)
  let rest := looped.2
  let k := esuPartialLen rest
  let s := { looped.1 with esuCarry := rest.drop (rest.length - k) }
  let rest := rest.take (rest.length - k)
  if rest = [] then s else s.give t rest

/-- `_feed` -/
def feed (s : PtySession R F) (data : List UInt8) : PtySession R F :=
  let s := { s with dialog := s.dialog.map (· ++ data) }
  match s.transcript with
  | none => s.give t data
  | some _ => s.feedCut t data

theorem feed_of_sink {s : PtySession R F} {data : List UInt8} {frames : List F}
    (sink : s.transcript = some frames) :
    s.feed t data = PtySession.feedCut t { s with dialog := s.dialog.map (· ++ data) } data := by
  unfold feed
  dsimp only
  split
  · rename_i none
    rw [sink] at none
    cases none
  · rfl

theorem feed_of_no_sink {s : PtySession R F} {data : List UInt8} (sink : s.transcript = none) :
    s.feed t data = PtySession.give t data { s with dialog := s.dialog.map (· ++ data) } := by
  unfold feed
  dsimp only
  split
  · rfl
  · rename_i some
    rw [sink] at some
    cases some

/-- What the renderer makes of the bytes it is fed; it is not fed nothing. -/
def deliver (r : R) (bytes : List UInt8) : R := if bytes = [] then r else t.feed r bytes

/-- The snapshots of a stream: one behind each marker. -/
def frames (r : R) (stream : List UInt8) : List F :=
  (ends esu stream).map fun k => t.snapshot (deliver t r (stream.take k))

variable {t} {r : R} {seen : List F} {spool : Option (List UInt8)} {s : PtySession R F}
  {stream buf : List UInt8}

theorem deliver_deliver (action : ∀ r a b, t.feed (t.feed r a) b = t.feed r (a ++ b))
    (a b : List UInt8) : deliver t (deliver t r a) b = deliver t r (a ++ b) := by
  unfold deliver
  by_cases empty : a = []
  · simp [empty]
  · by_cases empty' : b = [] <;> simp [empty, empty', action]

/-- Between two frames: the renderer has everything up to a clear position of the stream. -/
structure Framed (t : Terminal R F) (r : R) (seen : List F) (stream : List UInt8)
    (s : PtySession R F) (buf : List UInt8) : Prop where
  whole : s.given ++ buf = stream
  clear : Clear esu stream s.given.length
  renderer : s.renderer = deliver t r s.given
  transcript : s.transcript = some (seen ++ frames t r s.given)

/-- One turn of the loop. -/
theorem Framed.next (action : ∀ r a b, t.feed (t.feed r a) b = t.feed r (a ++ b))
    (framed : Framed t r seen stream s buf) {i : ℕ} (found : findEsu buf = some i) :
    Framed t r seen stream ((s.give t (buf.take (i + esu.length))).observe t)
      (buf.drop (i + esu.length)) := by
  have within := esu_within found
  have spec := findEsu_spec buf
  rw [found] at spec
  obtain ⟨here, first⟩ := spec
  obtain ⟨whole, clear, renderer, transcript⟩ := framed
  subst whole
  let segment := buf.take (i + esu.length)
  have length : segment.length = i + esu.length := List.length_take_of_le within
  have some : segment ≠ [] := fun empty => by
    rw [empty] at length
    have : 0 < esu.length := by decide
    simp only [List.length_nil] at length
    omega
  have fed : t.feed s.renderer segment = deliver t r (s.given ++ segment) := by
    rw [← deliver_deliver action, renderer]
    exact (if_neg some).symm
  -- The segment closes with the only marker that ends in it.
  have one : ends esu segment = [segment.length] := by
    refine ends_of_first (by decide) (i := i) ?_ length fun j before inside => first j before ?_
    · have taken : segment.drop i = esu := by
        rw [List.drop_take, Nat.add_sub_cancel_left]
        exact (List.prefix_iff_eq_take.mp here).symm
      rw [taken]
    · exact inside.trans ((List.take_prefix ..).drop j)
  have clear' : Clear esu (s.given ++ segment) s.given.length := by
    have cut : (s.given ++ buf).take (s.given.length + (i + esu.length)) = s.given ++ segment := by
      rw [List.take_append, List.take_of_length_le (by omega), Nat.add_sub_cancel_left]
    rw [← cut]
    exact clear.take (by omega) (by rw [List.length_append]; omega)
  have more : frames t r (s.given ++ segment) =
      frames t r s.given ++ [t.snapshot (t.feed s.renderer segment)] := by
    rw [frames, ends_append clear', one, List.map_append, fed]
    congr 1
    · refine List.map_congr_left fun k inside => ?_
      have short : k ≤ s.given.length := by
        have member := (List.mem_filter.mp inside).1
        rw [List.mem_range'_1] at member
        omega
      rw [List.take_append_of_le_length short]
    · have full : (s.given ++ segment).take (s.given.length + segment.length) = s.given ++ segment :=
        List.take_of_length_le (by rw [List.length_append])
      simp only [List.map_cons, List.map_nil, full]
  constructor
  · change (s.given ++ segment) ++ buf.drop (i + esu.length) = s.given ++ buf
    rw [List.append_assoc, List.take_append_drop]
  · change Clear esu (s.given ++ buf) (s.given ++ segment).length
    rw [List.length_append, length, ← Nat.add_assoc]
    refine clear_of_match unbordered_esu ?_
    rwa [List.drop_append, List.drop_eq_nil_of_le (by omega), Nat.add_sub_cancel_left,
      List.nil_append]
  · exact fed
  · change (s.transcript.map (· ++ [t.snapshot (t.feed s.renderer segment)])) = _
    rw [transcript, Option.map_some, List.append_assoc, ← more]
    rfl

/-- After the loop no marker is left in what follows. -/
theorem Framed.loop (action : ∀ r a b, t.feed (t.feed r a) b = t.feed r (a ++ b))
    (framed : Framed t r seen stream s buf) :
    Framed t r seen stream (feedFrames t s buf).1 (feedFrames t s buf).2 ∧
      findEsu (feedFrames t s buf).2 = none := by
  fun_induction feedFrames t s buf with
  | case1 s buf none => exact ⟨framed, none⟩
  | case2 s buf i found ih => exact ih (framed.next action found)

/-- Between two reads: the renderer lags by what is held back. -/
structure Fed (t : Terminal R F) (r : R) (seen : List F) (stream : List UInt8)
    (s : PtySession R F) : Prop where
  whole : s.given ++ s.esuCarry = stream
  held : Held esu stream s.esuCarry.length
  renderer : s.renderer = deliver t r s.given
  transcript : s.transcript = some (seen ++ frames t r stream)

/-- What is held back begins at a clear position, and no marker ends in it. -/
theorem Held.framed {k : ℕ} (held : Held esu stream k) (more : List UInt8) :
    Clear esu (stream ++ more) (stream.length - k) ∧
      frames t r stream = frames t r (stream.take (stream.length - k)) := by
  have clear := clear_of_held unbordered_esu held more
  have clear' := clear_of_held unbordered_esu held []
  refine ⟨clear, ?_⟩
  rw [List.append_nil] at clear'
  have length : (stream.take (stream.length - k)).length = stream.length - k :=
    List.length_take_of_le (Nat.sub_le ..)
  have short : ends esu (stream.drop (stream.length - k)) = [] := by
    refine ends_of_none fun j here => ?_
    have size := here.length_le
    have proper := held.proper
    rw [held.drop_eq, List.length_drop, List.length_take] at size
    omega
  have cut := ends_append (m := esu) (s := stream.take (stream.length - k))
    (t := stream.drop (stream.length - k)) (by rwa [List.take_append_drop, length])
  rw [List.take_append_drop, short, List.map_nil, List.append_nil] at cut
  unfold frames
  rw [cut]
  refine List.map_congr_left fun j inside => ?_
  have within := (List.mem_filter.mp inside).1
  rw [List.mem_range'_1] at within
  rw [List.take_take, Nat.min_eq_left (by omega)]

/-- One read. -/
theorem Fed.next (action : ∀ r a b, t.feed (t.feed r a) b = t.feed r (a ++ b))
    (fed : Fed t r seen stream s) (data : List UInt8) :
    Fed t r seen (stream ++ data) (s.feed t data) := by
  obtain ⟨whole, held, renderer, transcript⟩ := fed
  let s₁ : PtySession R F := { s with dialog := s.dialog.map (· ++ data), esuCarry := [] }
  obtain ⟨clear, same⟩ := Held.framed (t := t) (r := r) held data
  have front : stream.length - s.esuCarry.length = s.given.length := by
    rw [← whole, List.length_append, Nat.add_sub_cancel]
  have given : stream.take s.given.length = s.given := by rw [← whole, List.take_left]
  rw [front] at clear same
  have start : Framed t r seen (stream ++ data) s₁ (s.esuCarry ++ data) := by
    refine ⟨?_, clear, renderer, ?_⟩
    · change s.given ++ (s.esuCarry ++ data) = stream ++ data
      rw [← List.append_assoc, whole]
    · change s.transcript = some (seen ++ frames t r s.given)
      rw [transcript, same, given]
  obtain ⟨framed, bare⟩ := start.loop action
  have none := findEsu_spec (feedFrames t s₁ (s.esuCarry ++ data)).2
  rw [bare] at none
  rw [feed_of_sink t transcript]
  change Fed t r seen (stream ++ data) (let looped := feedFrames t s₁ (s.esuCarry ++ data)
    let last : PtySession R F :=
      { looped.1 with esuCarry := looped.2.drop (looped.2.length - esuPartialLen looped.2) }
    let rest := looped.2.take (looped.2.length - esuPartialLen looped.2)
    if rest = [] then last else last.give t rest)
  generalize feedFrames t s₁ (s.esuCarry ++ data) = looped at framed none
  obtain ⟨s₂, rest⟩ := looped
  obtain ⟨whole₂, clear₂, renderer₂, transcript₂⟩ := framed
  dsimp only at whole₂ clear₂ renderer₂ transcript₂ none ⊢
  have kept := held_esuPartialLen rest
  have size : (rest.drop (rest.length - esuPartialLen rest)).length = esuPartialLen rest := by
    rw [List.length_drop, Nat.sub_sub_self kept.le_length]
  have ended : frames t r (stream ++ data) = frames t r s₂.given := by
    have cut := ends_append (m := esu) (s := s₂.given) (t := rest) (whole₂.symm ▸ clear₂)
    rw [whole₂, ends_of_none none, List.map_nil, List.append_nil] at cut
    unfold frames
    rw [cut]
    refine List.map_congr_left fun j inside => ?_
    have within := (List.mem_filter.mp inside).1
    rw [List.mem_range'_1] at within
    rw [← whole₂, List.take_append_of_le_length (by omega)]
  have held₂ : Held esu (stream ++ data) (esuPartialLen rest) :=
    whole₂ ▸ held_append (whole₂.symm ▸ clear₂) kept
  by_cases idle : rest.take (rest.length - esuPartialLen rest) = []
  · rw [if_pos idle]
    refine ⟨?_, ?_, renderer₂, ?_⟩
    · change s₂.given ++ rest.drop (rest.length - esuPartialLen rest) = _
      have all : rest.drop (rest.length - esuPartialLen rest) = rest := by
        have parts := List.take_append_drop (rest.length - esuPartialLen rest) rest
        rwa [idle, List.nil_append] at parts
      rw [all, whole₂]
    · change Held esu (stream ++ data) (rest.drop (rest.length - esuPartialLen rest)).length
      rw [size]
      exact held₂
    · rw [ended]
      exact transcript₂
  · rw [if_neg idle]
    refine ⟨?_, ?_, ?_, ?_⟩
    · change (s₂.given ++ rest.take (rest.length - esuPartialLen rest)) ++
        rest.drop (rest.length - esuPartialLen rest) = _
      rw [List.append_assoc, List.take_append_drop, whole₂]
    · change Held esu (stream ++ data) (rest.drop (rest.length - esuPartialLen rest)).length
      rw [size]
      exact held₂
    · change t.feed s₂.renderer (rest.take (rest.length - esuPartialLen rest)) = deliver t r
        (s₂.given ++ rest.take (rest.length - esuPartialLen rest))
      rw [← deliver_deliver action, renderer₂]
      exact (if_neg idle).symm
    · rw [ended]
      exact transcript₂

/-! ### Streams -/

/-- What becomes of a session over a number of reads. -/
def feedAll (t : Terminal R F) (s : PtySession R F) (reads : List (List UInt8)) : PtySession R F :=
  reads.foldl (feed t) s

theorem Fed.after (action : ∀ r a b, t.feed (t.feed r a) b = t.feed r (a ++ b))
    (fed : Fed t r seen stream s) (reads : List (List UInt8)) :
    Fed t r seen (stream ++ reads.flatten) (feedAll t s reads) := by
  induction reads generalizing stream s with
  | nil => rwa [List.flatten_nil, List.append_nil]
  | cons data rest ih =>
    rw [List.flatten_cons, ← List.append_assoc]
    exact ih (fed.next action data)

/-- A stream says where its session stands. -/
theorem Fed.unique {s' : PtySession R F} (fed : Fed t r seen stream s)
    (fed' : Fed t r seen stream s') : s'.given = s.given ∧ s'.esuCarry = s.esuCarry ∧
      s'.renderer = s.renderer ∧ s'.transcript = s.transcript := by
  have lengths := fed.held.unique fed'.held
  have whole := fed.whole.trans fed'.whole.symm
  have sizes := congrArg List.length whole
  rw [List.length_append, List.length_append] at sizes
  obtain ⟨given, carry⟩ := List.append_inj whole (by omega)
  refine ⟨given.symm, carry.symm, ?_, fed'.transcript.trans fed.transcript.symm⟩
  rw [fed'.renderer, fed.renderer, given]

theorem given_of_no_sink (reads : List (List UInt8)) (sink : s.transcript = none) :
    (feedAll t s reads).given = s.given ++ reads.flatten ∧
      (feedAll t s reads).transcript = none := by
  induction reads generalizing s with
  | nil => exact ⟨(List.append_nil _).symm, sink⟩
  | cons data rest ih =>
    have fed : s.feed t data =
        PtySession.give t data { s with dialog := s.dialog.map (· ++ data) } := feed_of_no_sink t sink
    have given : (s.feed t data).given = s.given ++ data := congrArg PtySession.given fed
    have none : (s.feed t data).transcript = none :=
      (congrArg PtySession.transcript fed).trans sink
    have next := ih none
    rw [given] at next
    rw [List.flatten_cons, ← List.append_assoc]
    exact next

/-- However a stream is cut into reads, a session with a sink has given its renderer all of it but
the longest beginning of the marker that it ends with, and has taken a snapshot behind each marker;
a session without one hands on every read at once. -/
theorem feed_cuts (t : Terminal R F) (action : ∀ r a b, t.feed (t.feed r a) b = t.feed r (a ++ b))
    (r : R) (spool : Option (List UInt8)) (reads : List (List UInt8)) :
    (∀ seen, Fed t r seen reads.flatten (feedAll t ⟨r, some seen, spool, [], []⟩ reads) ∧
      ∀ reads' : List (List UInt8), reads'.flatten = reads.flatten →
        let s := feedAll t ⟨r, some seen, spool, [], []⟩ reads
        let s' := feedAll t ⟨r, some seen, spool, [], []⟩ reads'
        s'.given = s.given ∧ s'.esuCarry = s.esuCarry ∧ s'.renderer = s.renderer ∧
          s'.transcript = s.transcript) ∧
    (feedAll t ⟨r, none, spool, [], []⟩ reads).given = reads.flatten ∧
      (feedAll t ⟨r, none, spool, [], []⟩ reads).transcript = none := by
  have start (seen : List F) : Fed t r seen [] ⟨r, some seen, spool, [], []⟩ := by
    have proper : 0 < esu.length := by decide
    refine ⟨rfl, ⟨proper, List.nil_suffix, fun k' _ here => ?_⟩, rfl, ?_⟩
    · have size := here.length_le
      rw [List.length_take, List.length_nil] at size
      simp only [List.length_nil]
      omega
    · simp [frames, ends]
  refine ⟨fun seen => ⟨(start seen).after action reads, fun reads' same => ?_⟩,
    given_of_no_sink reads rfl⟩
  exact ((start seen).after action reads).unique (same ▸ (start seen).after action reads')

/-- A renderer that shows the bytes it was fed. -/
def plainTerminal : Terminal (List UInt8) (List UInt8) := ⟨(· ++ ·), id⟩

/-- A marker that is split over two reads. -/
theorem feed_cuts_split :
    (feedAll plainTerminal ⟨[], some [], none, [], []⟩
      [[0x41, 0x1b, 0x5b, 0x3f], [0x32, 0x30, 0x32, 0x36, 0x6c, 0x42]]).transcript =
    (feedAll plainTerminal ⟨[], some [], none, [], []⟩
      [[0x41, 0x1b, 0x5b, 0x3f, 0x32, 0x30, 0x32, 0x36, 0x6c, 0x42]]).transcript :=
  (((feed_cuts plainTerminal (fun _ _ _ => List.append_assoc ..) [] none
    [[0x41, 0x1b, 0x5b, 0x3f, 0x32, 0x30, 0x32, 0x36, 0x6c, 0x42]]).1 []).2
      [[0x41, 0x1b, 0x5b, 0x3f], [0x32, 0x30, 0x32, 0x36, 0x6c, 0x42]] rfl).2.2.2

/-- Without a sink the beginning of a marker is handed on. -/
theorem feed_cuts_unheld :
    let s := feedAll plainTerminal ⟨[], none, none, [], []⟩ [[0x1b]]
    s.given = [0x1b] ∧ ¬ Held esu [0x1b] ([0x1b].length - s.given.length) := by
  have given := (given_of_no_sink (t := plainTerminal) (s := ⟨[], none, none, [], []⟩) [[0x1b]] rfl).1
  dsimp only
  refine ⟨given, fun held => ?_⟩
  rw [given] at held
  have most := held.longest 1 (by decide) (by decide)
  cases most

end PtySession

end Nelix.Daemon
