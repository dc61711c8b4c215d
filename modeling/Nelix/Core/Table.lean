import Mathlib.Data.List.Nodup

/-!
# Keyed tables

Rows under distinct keys, in the order they were written. Inserting refuses a key that is taken,
`update` replaces the row under its key, and `erase` takes one out; every row is found under its
own key. The general facts are `find?` after each operation and `mem_rows`.
-/
namespace Core

class Keyed (ρ : Type*) (κ : outParam Type*) where
  key : ρ → κ

/-- Rows under distinct keys. -/
structure Table (ρ : Type*) {κ : Type*} [Keyed ρ κ] where
  rows : List ρ
  distinct : (rows.map Keyed.key).Nodup

namespace Table

open Keyed

variable {ρ κ : Type*} [Keyed ρ κ]

theorem ext_rows {t t' : Table ρ} (same : t.rows = t'.rows) : t = t' := by
  cases t
  cases t'
  cases same
  rfl

instance [DecidableEq ρ] : DecidableEq (Table ρ) := fun t t' =>
  decidable_of_iff (t.rows = t'.rows) ⟨ext_rows, fun same => same ▸ rfl⟩

def empty : Table ρ := ⟨[], List.nodup_nil⟩

instance : EmptyCollection (Table ρ) := ⟨empty⟩

instance : Inhabited (Table ρ) := ⟨∅⟩

variable [DecidableEq κ]

def find? (t : Table ρ) (k : κ) : Option ρ := t.rows.find? fun r => key r = k

/-- A row under a new key; none when the key is taken. -/
def insert (t : Table ρ) (r : ρ) : Option (Table ρ) :=
  if fresh : key r ∉ t.rows.map key then
    some ⟨t.rows ++ [r], by
      rw [List.map_append, List.nodup_append]
      refine ⟨t.distinct, List.nodup_singleton _, ?_⟩
      intro k taken k' new same
      simp only [List.map_cons, List.map_nil, List.mem_singleton] at new
      exact fresh (new ▸ same ▸ taken)⟩
  else none

/-- Puts the row in place of the one under its key; nothing happens when there is none. -/
def update (t : Table ρ) (r : ρ) : Table ρ where
  rows := t.rows.map fun old => if key old = key r then r else old
  distinct := by
    have same : (t.rows.map fun old => if key old = key r then r else old).map key
        = t.rows.map key := by
      rw [List.map_map]
      refine List.map_congr_left fun old _ => ?_
      simp only [Function.comp_apply]
      split
      · exact ‹key old = key r›.symm
      · rfl
    exact same ▸ t.distinct

def erase (t : Table ρ) (k : κ) : Table ρ where
  rows := t.rows.filter fun r => key r ≠ k
  distinct := (List.filter_sublist.map key).nodup t.distinct

/-- Changes rows in place; no key may change. -/
def amend (t : Table ρ) (f : ρ → ρ) (same : ∀ r, key (f r) = key r) : Table ρ where
  rows := t.rows.map f
  distinct := by
    have keys : (t.rows.map f).map key = t.rows.map key := by
      rw [List.map_map]
      exact List.map_congr_left fun r _ => same r
    exact keys ▸ t.distinct

/-! ### Looking up -/

variable {t t' : Table ρ} {r r' : ρ} {k : κ}

theorem key_of_find? (found : t.find? k = some r) : key r = k := by
  simpa using List.find?_some found

theorem mem_of_find? (found : t.find? k = some r) : r ∈ t.rows := List.mem_of_find?_eq_some found

theorem find?_of_mem (member : r ∈ t.rows) : t.find? (key r) = some r := by
  obtain ⟨rows, distinct⟩ := t
  simp only [find?] at member ⊢
  induction rows with
  | nil => cases member
  | cons first rest ih =>
    rw [List.map_cons, List.nodup_cons] at distinct
    rcases List.mem_cons.mp member with rfl | later
    · simp
    · have other : key first ≠ key r := fun same =>
        distinct.1 (same ▸ List.mem_map_of_mem later)
      simpa [other] using ih distinct.2 later

/-- The rows are what the keys find. -/
theorem mem_rows : r ∈ t.rows ↔ t.find? (key r) = some r := ⟨find?_of_mem, mem_of_find?⟩

theorem find?_eq_none : t.find? k = none ↔ ∀ r ∈ t.rows, key r ≠ k := by
  simp [find?]

/-- Two rows of one table under one key are one row. -/
theorem eq_of_key (left : r ∈ t.rows) (right : r' ∈ t.rows) (same : key r = key r') : r = r' := by
  have found := find?_of_mem left
  rw [same, find?_of_mem right] at found
  exact (Option.some.inj found).symm

/-! ### Inserting -/

theorem insert_eq_none : t.insert r = none ↔ ∃ old, t.find? (key r) = some old := by
  unfold insert
  split
  · rename_i fresh
    simp only [reduceCtorEq, false_iff, not_exists]
    intro old found
    exact fresh (key_of_find? found ▸ List.mem_map_of_mem (mem_of_find? found))
  · rename_i taken
    rw [not_not, List.mem_map] at taken
    obtain ⟨old, member, same⟩ := taken
    exact ⟨fun _ => ⟨old, same ▸ find?_of_mem member⟩, fun _ => rfl⟩

theorem rows_insert (done : t.insert r = some t') : t'.rows = t.rows ++ [r] := by
  unfold insert at done
  split at done
  · cases done
    rfl
  · cases done

theorem fresh_of_insert (done : t.insert r = some t') : t.find? (key r) = none := by
  by_contra taken
  obtain ⟨old, found⟩ := Option.ne_none_iff_exists'.mp taken
  rw [insert_eq_none.mpr ⟨old, found⟩] at done
  cases done

theorem exists_insert (fresh : t.find? (key r) = none) : ∃ t', t.insert r = some t' := by
  cases done : t.insert r with
  | some t' => exact ⟨t', rfl⟩
  | none =>
    obtain ⟨old, found⟩ := insert_eq_none.mp done
    rw [fresh] at found
    cases found

theorem find?_insert (done : t.insert r = some t') (k : κ) :
    t'.find? k = if key r = k then some r else t.find? k := by
  have fresh := fresh_of_insert done
  unfold find? at fresh ⊢
  rw [rows_insert done, List.find?_append]
  by_cases same : key r = k
  · subst same
    simp [fresh]
  · simp [same]

theorem mem_insert (done : t.insert r = some t') : r' ∈ t'.rows ↔ r' ∈ t.rows ∨ r' = r := by
  rw [rows_insert done]
  simp

/-! ### Updating and erasing -/

theorem find?_update (t : Table ρ) (r : ρ) (k : κ) :
    (t.update r).find? k = if key r = k then (t.find? k).map fun _ => r else t.find? k := by
  obtain ⟨rows, distinct⟩ := t
  simp only [find?, update]
  clear distinct
  induction rows with
  | nil => simp
  | cons first rest ih =>
    rw [List.map_cons, List.find?_cons, List.find?_cons]
    by_cases hit : key first = key r
    · by_cases same : key r = k
      · simp [hit, same]
      · have miss : key first ≠ k := fun eq => same (hit ▸ eq)
        simpa [hit, same, miss] using ih
    · by_cases same : key r = k
      · have miss : key first ≠ k := fun eq => hit (eq.trans same.symm)
        simpa [hit, same, miss] using ih
      · by_cases found : key first = k
        · have other : ¬ k = key r := fun eq => same eq.symm
          simp [found, same, other]
        · simpa [hit, same, found] using ih

theorem find?_update_self (found : t.find? (key r) = some r') :
    (t.update r).find? (key r) = some r := by
  rw [find?_update, if_pos rfl, found, Option.map_some]

theorem find?_update_ne (other : key r ≠ k) : (t.update r).find? k = t.find? k := by
  rw [find?_update, if_neg other]

theorem mem_update (found : t.find? (key r) = some r') {r'' : ρ} :
    r'' ∈ (t.update r).rows ↔ r'' = r ∨ (r'' ∈ t.rows ∧ key r'' ≠ key r) := by
  rw [mem_rows, mem_rows, find?_update]
  by_cases same : key r = key r''
  · rw [if_pos same, ← same, found]
    simp [same, eq_comm]
  · have other : r'' ≠ r := fun eq => same (eq ▸ rfl)
    have back : ¬ key r'' = key r := fun eq => same eq.symm
    simp [same, other, back]

theorem find?_amend (t : Table ρ) {f : ρ → ρ} (same : ∀ r, key (f r) = key r) (k : κ) :
    (t.amend f same).find? k = (t.find? k).map f := by
  obtain ⟨rows, distinct⟩ := t
  simp only [find?, amend, List.find?_map, Function.comp_def, same]

theorem find?_erase (t : Table ρ) (k' k : κ) :
    (t.erase k').find? k = if k = k' then none else t.find? k := by
  by_cases same : k = k'
  · subst same
    rw [if_pos rfl, find?_eq_none]
    intro r member
    simpa using (List.mem_filter.mp member).2
  · rw [if_neg same, find?, find?, erase, List.find?_filter]
    congr 1
    funext r
    by_cases hit : key r = k <;> simp [hit, same]

end Table

/-- What is read of rows, row by row, has keys in their order. -/
theorem sublist_keys {α β κ : Type*} {f : α → Option β} (key : α → κ) {key' : β → κ}
    (same : ∀ a b, f a = some b → key' b = key a) (items : List α) :
    ((items.filterMap f).map key').Sublist (items.map key) := by
  induction items with
  | nil => exact .slnil
  | cons a rest ih =>
    cases read : f a with
    | none => simpa [read] using ih.cons (key a)
    | some b => simpa [read, same a b read] using ih

end Core
