import Nelix.Core.Table

/-!
# Dicts

A Python dict: values under distinct keys, in the order in which the keys came. A key that is set
again keeps its place. Everything is said through `get?`.
-/
namespace Core

instance {κ υ : Type*} : Keyed (κ × υ) κ := ⟨Prod.fst⟩

/-- Values under distinct keys. -/
abbrev Dict (κ υ : Type*) := Table (κ × υ)

namespace Dict

variable {κ υ : Type*} [DecidableEq κ]

def get? (d : Dict κ υ) (k : κ) : Option υ := (d.find? k).map Prod.snd

/-- `d[k] = v` -/
def set (d : Dict κ υ) (k : κ) (v : υ) : Dict κ υ :=
  match Table.insert d (k, v) with
  | some d' => d'
  | none => Table.update d (k, v)

/-- `d.pop(k, None)`, as to what is left. -/
def pop (d : Dict κ υ) (k : κ) : Dict κ υ := Table.erase d k

/-- Sets one field after another: the last of two under one key stays. -/
def setAll (d : Dict κ υ) (fields : List (κ × υ)) : Dict κ υ :=
  fields.foldl (fun d field => d.set field.1 field.2) d

/-- A decoded object. -/
def ofFields (fields : List (κ × υ)) : Dict κ υ := (∅ : Dict κ υ).setAll fields

/-- `d.update(later)` -/
def merge (d later : Dict κ υ) : Dict κ υ := d.setAll later.rows

/-- The same keys with other values. -/
def mapValues {ω : Type*} (d : Dict κ υ) (f : υ → ω) : Dict κ ω where
  rows := d.rows.map fun row => (row.1, f row.2)
  distinct := by
    rw [List.map_map]
    exact d.distinct

variable {d later : Dict κ υ} {k k' : κ} {v : υ}

theorem get?_mapValues {ω : Type*} (d : Dict κ υ) (f : υ → ω) (k : κ) :
    (d.mapValues f).get? k = (d.get? k).map f := by
  simp only [get?, Table.find?, mapValues, List.find?_map, Option.map_map]
  rfl

@[simp] theorem get?_empty (k : κ) : (∅ : Dict κ υ).get? k = none := rfl

theorem get?_of_mem (member : (k, v) ∈ d.rows) : d.get? k = some v := by
  have found : d.find? k = some (k, v) := Table.find?_of_mem member
  rw [get?, found, Option.map_some]

theorem get?_set (d : Dict κ υ) (k k' : κ) (v : υ) :
    (d.set k v).get? k' = if k' = k then some v else d.get? k' := by
  unfold set
  cases done : Table.insert d (k, v) with
  | some d' =>
    have found := Table.find?_insert done k'
    simp only [get?, found, Keyed.key]
    by_cases same : k' = k
    · simp [same]
    · simp [same, Ne.symm same]
  | none =>
    obtain ⟨old, held⟩ := Table.insert_eq_none.mp done
    dsimp only
    by_cases same : k' = k
    · have found := Table.find?_update_self held
      rw [if_pos same, same, get?]
      exact congrArg (Option.map Prod.snd) found
    · have found : (Table.update d (k, v)).find? k' = d.find? k' :=
        Table.find?_update_ne (Ne.symm same)
      rw [if_neg same, get?, found, get?]

theorem get?_pop (d : Dict κ υ) (k k' : κ) :
    (d.pop k).get? k' = if k' = k then none else d.get? k' := by
  rw [get?, pop, Table.find?_erase]
  split <;> rfl

/-- Nothing is set under a key that the fields do not have. -/
theorem get?_setAll_absent {fields : List (κ × υ)} (absent : ∀ field ∈ fields, field.1 ≠ k)
    (d : Dict κ υ) : (d.setAll fields).get? k = d.get? k := by
  induction fields generalizing d with
  | nil => rfl
  | cons field rest ih =>
    have later := ih (fun other member => absent other (List.mem_cons_of_mem field member))
      (d.set field.1 field.2)
    exact later.trans ((get?_set ..).trans (if_neg (Ne.symm (absent field (by simp)))))

theorem get?_setAll_mem {fields : List (κ × υ)} (distinct : (fields.map Prod.fst).Nodup)
    (member : (k, v) ∈ fields) (d : Dict κ υ) : (d.setAll fields).get? k = some v := by
  induction fields generalizing d with
  | nil => cases member
  | cons field rest ih =>
    rw [List.map_cons, List.nodup_cons] at distinct
    rcases List.mem_cons.mp member with rfl | later
    · -- the rest does not have the key again
      have absent : ∀ other ∈ rest, other.1 ≠ k := fun other held same =>
        distinct.1 (List.mem_map.mpr ⟨other, held, same⟩)
      exact (get?_setAll_absent absent _).trans ((get?_set ..).trans (if_pos rfl))
    · exact ih distinct.2 later _

theorem mem_set {row : κ × υ} (held : row ∈ (d.set k v).rows) : row ∈ d.rows ∨ row = (k, v) := by
  have found : (d.set k v).get? row.1 = some row.2 := get?_of_mem held
  rw [get?_set] at found
  split at found
  · rename_i same
    exact .inr (Prod.ext same (Option.some.inj found).symm)
  · obtain ⟨old, there, same⟩ := Option.map_eq_some_iff.mp found
    have whole : old = row := Prod.ext (Table.key_of_find? there) same
    exact .inl (whole ▸ Table.mem_of_find? there)

/-- Whatever a decoded object has comes from one of the fields. -/
theorem mem_ofFields {fields : List (κ × υ)} {row : κ × υ} (held : row ∈ (ofFields fields).rows) :
    row ∈ fields := by
  have inside : ∀ (fields : List (κ × υ)) (d : Dict κ υ), row ∈ (d.setAll fields).rows →
      row ∈ d.rows ∨ row ∈ fields := by
    intro fields
    induction fields with
    | nil => exact fun d held => .inl held
    | cons field rest ih =>
      intro d held
      rcases ih (d.set field.1 field.2) held with before | later
      · rcases mem_set before with old | new
        · exact .inl old
        · exact .inr (by simp [new])
      · exact .inr (List.mem_cons_of_mem _ later)
  rcases inside fields ∅ held with none | here
  · cases none
  · exact here

/-- The order of the fields does not count when their keys are distinct. -/
theorem get?_ofFields_perm {fields : List (κ × υ)} {d : Dict κ υ} (same : fields.Perm d.rows) (k : κ) :
    (ofFields fields).get? k = d.get? k := by
  have distinct : (fields.map Prod.fst).Nodup := (same.map Prod.fst).nodup_iff.mpr d.distinct
  cases held : d.get? k with
  | some v =>
    obtain ⟨⟨k', v'⟩, found, rfl⟩ := Option.map_eq_some_iff.mp held
    obtain rfl : k' = k := Table.key_of_find? found
    exact get?_setAll_mem distinct (same.mem_iff.mpr (Table.mem_of_find? found)) _
  | none =>
    have absent := Table.find?_eq_none.mp (Option.map_eq_none_iff.mp held)
    exact get?_setAll_absent (fun field among => absent field (same.mem_iff.mp among)) _

theorem rows_setAll {fields : List (κ × υ)} {d : Dict κ υ}
    (distinct : ((d.rows ++ fields).map Prod.fst).Nodup) :
    (d.setAll fields).rows = d.rows ++ fields := by
  induction fields generalizing d with
  | nil => exact (List.append_nil _).symm
  | cons field rest ih =>
    have fresh : d.find? field.1 = none := by
      refine Table.find?_eq_none.mpr fun row held same => ?_
      rw [List.map_append, List.nodup_append'] at distinct
      exact distinct.2.2 (List.mem_map_of_mem held) (by simp [← same, Keyed.key])
    obtain ⟨d', inserted⟩ := Table.exists_insert (r := field) fresh
    have rows : d'.rows = d.rows ++ [field] := Table.rows_insert inserted
    have set : d.set field.1 field.2 = d' := by
      unfold Dict.set
      rw [inserted]
    show ((d.set field.1 field.2).setAll rest).rows = _
    rw [set, ih (by rwa [rows, List.append_assoc]), rows, List.append_assoc]
    rfl

/-- A decoded object keeps fields with distinct keys as they came. -/
theorem rows_ofFields {fields : List (κ × υ)} (distinct : (fields.map Prod.fst).Nodup) :
    (ofFields fields).rows = fields := rows_setAll distinct

/-- The later dict wins. -/
theorem get?_merge (d later : Dict κ υ) (k : κ) :
    (d.merge later).get? k = (later.get? k).or (d.get? k) := by
  cases held : later.get? k with
  | some v =>
    obtain ⟨⟨k', v'⟩, found, rfl⟩ := Option.map_eq_some_iff.mp held
    obtain rfl : k' = k := Table.key_of_find? found
    exact get?_setAll_mem later.distinct (Table.mem_of_find? found) d
  | none =>
    have absent := Table.find?_eq_none.mp (Option.map_eq_none_iff.mp held)
    exact get?_setAll_absent absent d

end Dict

end Core
