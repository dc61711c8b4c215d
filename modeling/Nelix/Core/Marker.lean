import Mathlib.Data.List.Infix

/-!
# Markers in a stream

Where a marker ends in a stream, and how much of the end of a stream may still become one. A marker
is unbordered when no proper part of its beginning is also its end, so that two occurrences never
overlap.

## Main results

`ends_append`: a position that no occurrence reaches over splits the ends of a stream.

`clear_of_match`, `clear_of_held`: the end of an occurrence is such a position, and so is the place
where the longest beginning of a marker starts that a stream ends with.
-/
namespace Core.Marker

variable {α : Type*} {m s t total : List α} {i j k : ℕ}

/-- No proper part of its beginning is also its end. -/
def Unbordered (m : List α) : Prop := ∀ p, p <+: m → p <:+ m → p = [] ∨ p = m

/-- A marker begins here, as far as the stream goes. -/
def Fits (m total : List α) (j : ℕ) : Prop := total.drop j <+: m ∨ m <+: total.drop j

/-- Nothing that fits reaches over the position. -/
def Clear (m total : List α) (k : ℕ) : Prop :=
  ∀ j, j < k → k < j + m.length → ¬ Fits m total j

/-- Whatever fits agrees with the marker up to a position inside of both. -/
theorem Fits.take (fits : Fits m total j) (inside : k ≤ m.length) (reaches : j + k ≤ total.length) :
    (total.drop j).take k = m.take k := by
  rcases fits with short | long
  · have most : k ≤ (total.drop j).length := by
      rw [List.length_drop]
      omega
    obtain ⟨rest, whole⟩ := short
    rw [← whole, List.take_append_of_le_length most]
  · obtain ⟨rest, whole⟩ := long
    rw [← whole, List.take_append_of_le_length inside]

/-- Where an occurrence of an unbordered marker ends, nothing reaches over. -/
theorem clear_of_match (unbordered : Unbordered m) (found : m <+: total.drop i) :
    Clear m total (i + m.length) := by
  intro j before behind fits
  obtain ⟨rest, whole⟩ := found
  have long : i + m.length ≤ total.length := by
    have lengths := congrArg List.length whole
    rw [List.length_append, List.length_drop] at lengths
    omega
  -- What lies between is the end of one marker and the beginning of the other.
  have shared : m.drop (j - i) = m.take (i + m.length - j) := by
    rw [← fits.take (by omega) (by omega), show total.drop j = (total.drop i).drop (j - i) by
      rw [List.drop_drop, show i + (j - i) = j by omega], ← whole,
      List.drop_append_of_le_length (by omega), List.take_append_of_le_length]
    · rw [List.take_of_length_le]
      rw [List.length_drop]
      omega
    · rw [List.length_drop]
      omega
  have parts := unbordered (m.drop (j - i)) (shared ▸ List.take_prefix ..) (List.drop_suffix ..)
  have size : (m.drop (j - i)).length = m.length - (j - i) := List.length_drop
  rcases parts with none | all
  · rw [none, List.length_nil] at size
    omega
  · rw [all] at size
    omega

/-! ### What is held back -/

/-- The longest beginning of the marker, but for the whole of it, that the stream ends with. -/
structure Held (m s : List α) (k : ℕ) : Prop where
  proper : k < m.length
  here : m.take k <:+ s
  longest : ∀ k', k' < m.length → m.take k' <:+ s → k' ≤ k

theorem Held.unique (held : Held m s k) (held' : Held m s j) : k = j :=
  Nat.le_antisymm (held'.longest k held.proper held.here) (held.longest j held'.proper held'.here)

theorem Held.le_length (held : Held m s k) : k ≤ s.length := by
  have size := held.here.length_le
  have proper := held.proper
  rw [List.length_take] at size
  omega

theorem Held.drop_eq (held : Held m s k) : s.drop (s.length - k) = m.take k := by
  obtain ⟨front, whole⟩ := held.here
  have proper := held.proper
  have size : s.length = front.length + k := by
    rw [← whole, List.length_append, List.length_take]
    omega
  rw [show s.length - k = front.length by omega, ← whole, List.drop_left]

/-- Nothing reaches over the place where the held part of a stream starts, whatever comes next. -/
theorem clear_of_held (unbordered : Unbordered m) (held : Held m s k) (t : List α) :
    Clear m (s ++ t) (s.length - k) := by
  intro j before behind fits
  have short := held.le_length
  have proper := held.proper
  by_cases within : j + m.length ≤ s.length
  · -- A whole marker would end inside of the held part.
    have whole : m <+: s.drop j := by
      have agrees := fits.take (k := m.length) le_rfl (by rw [List.length_append]; omega)
      rw [List.take_length, List.drop_append_of_le_length (by omega),
        List.take_append_of_le_length (by rw [List.length_drop]; omega)] at agrees
      exact agrees ▸ List.take_prefix ..
    refine clear_of_match unbordered whole (s.length - k) ?_ (by omega) (.inl ?_)
    · omega
    · rw [held.drop_eq]
      exact List.take_prefix ..
  · -- Or a longer beginning would end the stream.
    have longer : m.take (s.length - j) <:+ s := by
      have agrees := fits.take (k := s.length - j) (by omega) (by rw [List.length_append]; omega)
      rw [List.drop_append_of_le_length (by omega),
        List.take_append_of_le_length (by rw [List.length_drop]), List.take_of_length_le
          (by rw [List.length_drop])] at agrees
      exact agrees ▸ List.drop_suffix ..
    have most := held.longest (s.length - j) (by omega) longer
    omega

/-- What a stream holds back is held back by its part behind a clear position. -/
theorem held_append (clear : Clear m (s ++ t) s.length) (held : Held m t k) :
    Held m (s ++ t) k where
  proper := held.proper
  here := held.here.trans (List.suffix_append ..)
  longest k' proper here := by
    by_cases inside : k' ≤ t.length
    · refine held.longest k' proper ?_
      have size : (m.take k').length ≤ t.length := by
        rw [List.length_take]
        omega
      exact List.suffix_of_suffix_length_le here (List.suffix_append ..) size
    · have size := here.length_le
      rw [List.length_take, List.length_append] at size
      obtain ⟨front, whole⟩ := here
      have length := congrArg List.length whole
      rw [List.length_append, List.length_append, List.length_take] at length
      refine absurd (.inl ?_) (clear front.length (by omega) (by omega))
      rw [← whole, List.drop_left]
      exact List.take_prefix ..

/-- A position stays clear when the stream is cut off a marker's length behind it. -/
theorem Clear.take {n : ℕ} (clear : Clear m total k) (far : k + m.length ≤ n)
    (short : n ≤ total.length) : Clear m (total.take n) k := by
  intro j before behind fits
  have agrees := fits.take (k := m.length) le_rfl (by rw [List.length_take_of_le short]; omega)
  rw [List.take_length] at agrees
  refine clear j before behind (.inr ?_)
  calc m = ((total.take n).drop j).take m.length := agrees.symm
    _ <+: (total.take n).drop j := List.take_prefix ..
    _ <+: total.drop j := (List.take_prefix ..).drop j

/-! ### Ends of markers -/

/-- Behind a clear position a marker ends where it ends in what follows. -/
theorem suffix_append_iff (clear : Clear m (s ++ t) s.length) (some : 0 < k) (inside : k ≤ t.length) :
    m <:+ s ++ t.take k ↔ m <:+ t.take k := by
  refine ⟨fun found => ?_, fun found => found.trans (List.suffix_append ..)⟩
  have size : (t.take k).length = k := List.length_take_of_le inside
  by_cases fits : m.length ≤ k
  · exact List.suffix_of_suffix_length_le found (List.suffix_append ..) (size.symm ▸ fits)
  · obtain ⟨front, whole⟩ := found
    have length := congrArg List.length whole
    rw [List.length_append, List.length_append, size] at length
    refine absurd (.inr ?_) (clear front.length (by omega) (by omega))
    rw [← List.take_append_drop k t, ← List.append_assoc, ← whole, List.append_assoc,
      List.drop_left]
    exact List.prefix_append ..

/-! ### A body between two markers -/

section Between

variable {e : α} {a b body : List α}

/-- The symbol that both markers begin with, and nothing else has, stands where they do. -/
theorem symbol_between (a_ : e ∉ a) (body_ : e ∉ body) (b_ : e ∉ b)
    (here : (e :: a ++ body ++ e :: b)[i]? = some e) : i = 0 ∨ i = 1 + a.length + body.length := by
  rcases Nat.eq_zero_or_pos i with zero | positive
  · exact .inl zero
  · refine .inr (Nat.le_antisymm ?_ ?_)
    · by_contra beyond
      rw [List.getElem?_append_right (by simp; omega)] at here
      obtain ⟨j, shift⟩ : ∃ j, i - (e :: a ++ body).length = j + 1 :=
        ⟨i - (e :: a ++ body).length - 1, by simp; omega⟩
      rw [shift, List.getElem?_cons_succ] at here
      exact b_ (List.mem_of_getElem? here)
    · by_contra before
      rw [List.getElem?_append_left (by simp; omega), List.cons_append] at here
      obtain ⟨j, rfl⟩ : ∃ j, i = j + 1 := ⟨i - 1, by omega⟩
      rw [List.getElem?_cons_succ] at here
      rcases List.mem_append.mp (List.mem_of_getElem? here) with inside | inside
      · exact a_ inside
      · exact body_ inside

theorem symbol_of_fits (fits : e :: a <+: t.drop i) : t[i]? = some e := by
  obtain ⟨rest, whole⟩ := fits
  have head := congrArg (·[0]?) whole
  simpa using head.symm

/-- The first marker occurs at the beginning only. -/
theorem opening_only (a_ : e ∉ a) (body_ : e ∉ body) (b_ : e ∉ b) (length : a.length = b.length)
    (differ : a ≠ b) (fits : e :: a <+: (e :: a ++ body ++ e :: b).drop i) : i = 0 := by
  rcases symbol_between a_ body_ b_ (symbol_of_fits fits) with zero | last
  · exact zero
  · rw [List.drop_left' (by simp; omega)] at fits
    exact absurd ((List.cons_prefix_cons.mp fits).2.eq_of_length length) differ

/-- The last marker occurs at the end only. -/
theorem closing_only (a_ : e ∉ a) (body_ : e ∉ body) (b_ : e ∉ b) (length : a.length = b.length)
    (differ : a ≠ b) (fits : e :: b <+: (e :: a ++ body ++ e :: b).drop i) :
    i = 1 + a.length + body.length := by
  rcases symbol_between a_ body_ b_ (symbol_of_fits fits) with rfl | last
  · rw [List.drop_zero, List.append_assoc, List.cons_append] at fits
    have start : b <+: a := by
      have inside := (List.cons_prefix_cons.mp fits).2
      exact List.prefix_of_prefix_length_le inside (List.prefix_append ..) length.ge
    exact absurd (start.eq_of_length length.symm).symm differ
  · exact last

end Between

variable [DecidableEq α]

/-- The positions behind which a marker has just ended. -/
def ends (m s : List α) : List ℕ := (List.range' 1 s.length).filter fun k => m <:+ s.take k

/-- The ends of a stream beside a position that nothing reaches over. -/
theorem ends_append (clear : Clear m (s ++ t) s.length) :
    ends m (s ++ t) = ends m s ++ (ends m t).map (s.length + ·) := by
  unfold ends
  rw [List.length_append, ← List.range'_append_1, List.filter_append]
  congr 1
  · refine List.filter_congr fun k inside => ?_
    have short : k ≤ s.length := by
      rw [List.mem_range'_1] at inside
      omega
    rw [List.take_append_of_le_length short]
  · rw [Nat.add_comm 1, ← List.map_add_range', List.filter_map]
    refine congrArg _ (List.filter_congr fun k inside => ?_)
    rw [List.mem_range'_1] at inside
    have reaches : (s ++ t).take (s.length + k) = s ++ t.take k := by
      rw [List.take_append, List.take_of_length_le (by omega), Nat.add_sub_cancel_left]
    simp only [Function.comp_apply, reaches, suffix_append_iff clear inside.1 (by omega)]

/-- The first occurrence is the only one that ends within what it closes. -/
theorem ends_of_first (full : m ≠ []) (found : m <+: s.drop i) (reaches : s.length = i + m.length)
    (first : ∀ j, j < i → ¬ m <+: s.drop j) : ends m s = [s.length] := by
  have size : 0 < m.length := List.length_pos_iff.mpr full
  have last : m <:+ s := by
    have whole : s.drop i = m :=
      (found.eq_of_length (by rw [List.length_drop]; omega)).symm
    exact whole ▸ List.drop_suffix ..
  unfold ends
  obtain ⟨n, length⟩ : ∃ n, s.length = n + 1 := ⟨s.length - 1, by omega⟩
  rw [length, ← List.range'_append_1, List.filter_append]
  have none : (List.range' 1 n).filter (fun k => m <:+ s.take k) = [] := by
    refine List.filter_eq_nil_iff.mpr fun k inside => ?_
    rw [List.mem_range'_1] at inside
    intro here
    obtain ⟨front, whole⟩ := of_decide_eq_true here
    have lengths := congrArg List.length whole
    rw [List.length_append, List.length_take_of_le (by omega)] at lengths
    refine first front.length (by omega) ?_
    rw [← List.take_append_drop k s, ← whole, List.append_assoc, List.drop_left]
    exact List.prefix_append ..
  rw [none, List.nil_append]
  have here : s.take (n + 1) = s := List.take_of_length_le length.le
  simp [here, last, Nat.add_comm 1 n]

theorem ends_of_none (none : ∀ j, ¬ m <+: s.drop j) : ends m s = [] := by
  refine List.filter_eq_nil_iff.mpr fun k inside here => ?_
  obtain ⟨front, whole⟩ := of_decide_eq_true here
  refine none front.length ?_
  rw [← List.take_append_drop k s, ← whole, List.append_assoc, List.drop_left]
  exact List.prefix_append ..

end Core.Marker
