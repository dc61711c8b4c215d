import Mathlib.Data.List.Nodup

/-!
# TOML documents

The values of TOML 1.0 and what the statements of a document define. A table may be opened once, what was
written as an inline table or an array is closed, and no key is set again.

## Main results

`Output.apply_distinct`: in no table a key stands twice.

`nest_table`: a table that is there is changed, and one that is not is made.
-/
namespace Core

/-- A value of TOML. What is no string, array or table is written in one word. -/
inductive Toml (σ : Type)
  | scalar (a : σ)
  | string (s : String)
  | array (items : List (Toml σ))
  | table (entries : List (String × Toml σ))

namespace Toml

variable {σ : Type}

abbrev Entries (σ : Type) := List (String × Toml σ)

/-- In no table a key stands twice. -/
inductive Distinct : Toml σ → Prop
  | table {entries : Entries σ} (keys : (entries.map Prod.fst).Nodup)
      (inner : ∀ entry ∈ entries, Distinct entry.2) : Distinct (.table entries)
  | array {items : List (Toml σ)} (inner : ∀ item ∈ items, Distinct item) : Distinct (.array items)
  | scalar (a : σ) : Distinct (.scalar a)
  | string (s : String) : Distinct (.string s)

/-- A dotted key. -/
structure Key where
  parents : List String
  stem : String
  deriving DecidableEq

def Key.path (key : Key) : List String := key.parents ++ [key.stem]

/-! ### Tables -/

/-- The entry under a key, with another value. -/
def put (entries : Entries σ) (k : String) (value : Toml σ) : Entries σ :=
  entries.map fun entry => if entry.1 = k then (k, value) else entry

/-- Changes the table under a path and makes it where it is not. Where lists may be accessed, the last of a
list of tables is meant. -/
def nest (lists : Bool) (change : Entries σ → Option (Entries σ)) : List String → Entries σ → Option (Entries σ)
  | [], entries => change entries
  | k :: path, entries =>
    match entries.lookup k with
    | none => (nest lists change path []).map fun inner => entries ++ [(k, .table inner)]
    | some (.table inner) => (nest lists change path inner).map fun inner => put entries k (.table inner)
    | some (.array items) =>
      match lists, items.getLast? with
      | true, some (.table inner) =>
        (nest lists change path inner).map fun inner =>
          put entries k (.array (items.dropLast ++ [.table inner]))
      | _, _ => none
    | some _ => none

/-- Sets a key that is not there. -/
def define (k : String) (value : Toml σ) (entries : Entries σ) : Option (Entries σ) :=
  if (entries.lookup k).isSome then none else some (entries ++ [(k, value)])

/-- One more table in a list of them. -/
def appendTable (k : String) (entries : Entries σ) : Option (Entries σ) :=
  match entries.lookup k with
  | none => some (entries ++ [(k, .array [.table []])])
  | some (.array items) => some (put entries k (.array (items ++ [.table []])))
  | some _ => none

/-! ### Statements -/

inductive Statement (σ : Type)
  | keyValue (key : Key) (value : Toml σ)
  | header (key : Key)
  | listHeader (key : Key)

/-- What was defined so far, and which names are closed. -/
structure Output (σ : Type) where
  data : Entries σ := []
  /-- Tables that may not be opened. -/
  explicit : List (List String) := []
  /-- Values with everything under them. -/
  frozen : List (List String) := []
  /-- Will be explicit from the next header on. -/
  pending : List (List String) := []
  header : List String := []

namespace Output

variable (o : Output σ)

def isFrozen (path : List String) : Bool := o.frozen.any fun closed => closed.isPrefixOf path

def isExplicit (path : List String) : Bool := path ∈ o.explicit

def finalizePending : Output σ := { o with explicit := o.pending ++ o.explicit, pending := [] }

/-- Everything under the path is open again. -/
def unset (path : List String) : Output σ :=
  { o with
    explicit := o.explicit.filter fun closed => !path.isPrefixOf closed
    frozen := o.frozen.filter fun closed => !path.isPrefixOf closed }

/-- The tables that a dotted key stands in. -/
def within (key : Key) : List (List String) :=
  (List.range key.parents.length).map fun i => o.header ++ key.parents.take (i + 1)

/-- A header may not open what is explicit or frozen. -/
def opensAt (path : List String) : Bool := !(o.finalizePending.isExplicit path || o.finalizePending.isFrozen path)

def apply : Statement σ → Option (Output σ)
  | .header key =>
    let o := o.finalizePending
    if o.isExplicit key.path || o.isFrozen key.path then none
    else
      (nest true some key.path o.data).map fun data =>
        { o with data, explicit := key.path :: o.explicit, header := key.path }
  | .listHeader key =>
    let o := o.finalizePending
    if o.isFrozen key.path then none
    else
      let o := o.unset key.path
      (nest true (appendTable key.stem) key.parents o.data).map fun data =>
        { o with data, explicit := key.path :: o.explicit, header := key.path }
  | .keyValue key value =>
    if (o.within key).any o.isExplicit || o.isFrozen (o.header ++ key.parents) then none
    else
      (nest true (define key.stem value) (o.header ++ key.parents) o.data).map fun data =>
        { o with
          data
          pending := o.pending ++ o.within key
          frozen := match value with
            | .array _ | .table _ => (o.header ++ key.path) :: o.frozen
            | _ => o.frozen }

end Output

/-! ### Keys stay distinct -/

section Distinct
variable {entries data : Entries σ} {k : String} {value : Toml σ} {path : List String} {lists : Bool}
  {change : Entries σ → Option (Entries σ)}

/-- The entries make a table. -/
def AreDistinct (entries : Entries σ) : Prop := (Toml.table entries).Distinct

theorem areDistinct_iff :
    AreDistinct entries ↔ (entries.map Prod.fst).Nodup ∧ ∀ entry ∈ entries, entry.2.Distinct := by
  constructor
  · rintro ⟨keys, inner⟩
    exact ⟨keys, inner⟩
  · rintro ⟨keys, inner⟩
    exact .table keys inner

theorem mem_of_lookup (found : entries.lookup k = some value) : (k, value) ∈ entries := by
  obtain ⟨before, after, rfl, -⟩ := List.lookup_eq_some_iff.mp found
  exact List.mem_append_right _ List.mem_cons_self

theorem lookup_eq_none : entries.lookup k = none ↔ k ∉ entries.map Prod.fst := by
  rw [List.lookup_eq_none_iff]
  constructor
  · rintro all among
    obtain ⟨entry, member, rfl⟩ := List.mem_map.mp among
    simpa using all entry member
  · intro absent entry member
    have other : k ≠ entry.1 := by
      rintro rfl
      exact absent (List.mem_map_of_mem member)
    simpa using other

theorem keys_put : (put entries k value).map Prod.fst = entries.map Prod.fst := by
  rw [put, List.map_map]
  refine List.map_congr_left fun entry _ => ?_
  show (if entry.1 = k then (k, value) else entry).1 = entry.1
  split_ifs with same
  · exact same.symm
  · rfl

theorem lookup_append_fresh (fresh : entries.lookup k = none) : (entries ++ [(k, value)]).lookup k = some value := by
  rw [List.lookup_append, fresh]
  simp

theorem lookup_put (held : (entries.lookup k).isSome = true) : (put entries k value).lookup k = some value := by
  induction entries with
  | nil => cases held
  | cons entry rest ih =>
    obtain ⟨k', old⟩ := entry
    by_cases same : k' = k
    · subst same
      simp [put]
    · have other : (k == k') = false := by simpa using Ne.symm same
      have later : (rest.lookup k).isSome = true := by simpa [List.lookup_cons, other] using held
      show List.lookup k ((if k' = k then (k, value) else (k', old)) :: put rest k value) = some value
      rw [if_neg same, List.lookup_cons, other]
      exact ih later

theorem put_put {value' : Toml σ} : put (put entries k value) k value' = put entries k value' := by
  rw [put, put, put, List.map_map]
  refine List.map_congr_left fun entry _ => ?_
  by_cases same : entry.1 = k
  · simp [same]
  · simp [same]

theorem put_append_fresh {value' : Toml σ} (fresh : entries.lookup k = none) :
    put (entries ++ [(k, value)]) k value' = entries ++ [(k, value')] := by
  have others : put entries k value' = entries := by
    have keep : ∀ entry ∈ entries, (if entry.1 = k then (k, value') else entry) = entry := by
      intro entry member
      have other : entry.1 ≠ k := by
        rintro rfl
        exact lookup_eq_none.mp fresh (List.mem_map_of_mem member)
      rw [if_neg other]
    rw [put, List.map_congr_left keep, List.map_id']
  rw [put, List.map_append]
  show put entries k value' ++ [if k = k then (k, value') else (k, value)] = _
  rw [others, if_pos rfl]

/-- Two changes under one path are one change. -/
theorem nest_nest {change' : Entries σ → Option (Entries σ)} :
    (nest lists change path entries).bind (nest lists change' path) =
      nest lists (fun inner => (change inner).bind change') path entries := by
  induction path generalizing entries with
  | nil => rfl
  | cons k path ih =>
    rw [nest, nest]
    cases found : entries.lookup k with
    | none =>
      dsimp only
      rw [← ih]
      cases made : nest lists change path [] with
      | none => rfl
      | some inner =>
        have here : (entries ++ [(k, Toml.table inner)]).lookup k = some (.table inner) := lookup_append_fresh found
        simp only [Option.map_some, Option.bind_some, nest, here, put_append_fresh found]
    | some value =>
      have held : (entries.lookup k).isSome = true := by rw [found]; rfl
      cases value with
      | table old =>
        dsimp only
        rw [← ih]
        cases made : nest lists change path old with
        | none => rfl
        | some inner =>
          have here : (put entries k (.table inner)).lookup k = some (.table inner) := lookup_put held
          simp only [Option.map_some, Option.bind_some, nest, here, put_put]
      | array items =>
        dsimp only
        cases lists with
        | false => rfl
        | true =>
          cases last : items.getLast? with
          | none => rfl
          | some item =>
            cases item with
            | table old =>
              dsimp only
              rw [← ih]
              cases made : nest true change path old with
              | none => rfl
              | some inner =>
                have here : (put entries k (Toml.array (items.dropLast ++ [.table inner]))).lookup k =
                    some (.array (items.dropLast ++ [.table inner])) := lookup_put held
                have ends : (items.dropLast ++ [Toml.table inner]).getLast? = some (.table inner) := by simp
                simp only [Option.map_some, Option.bind_some, nest, here, ends, put_put, List.dropLast_concat]
            | scalar _ | string _ | array _ => rfl
      | scalar _ | string _ => rfl

theorem distinct_put (distinct : AreDistinct entries) (inner : value.Distinct) :
    AreDistinct (put entries k value) := by
  rw [areDistinct_iff] at distinct ⊢
  refine ⟨by rw [keys_put]; exact distinct.1, fun entry member => ?_⟩
  obtain ⟨old, among, rfl⟩ := List.mem_map.mp member
  split_ifs
  · exact inner
  · exact distinct.2 old among

theorem distinct_append (distinct : AreDistinct entries) (fresh : entries.lookup k = none)
    (inner : value.Distinct) : AreDistinct (entries ++ [(k, value)]) := by
  rw [areDistinct_iff] at distinct ⊢
  constructor
  · rw [List.map_append]
    refine List.nodup_append'.mpr ⟨distinct.1, List.nodup_singleton _, ?_⟩
    intro other among here
    obtain rfl := List.mem_singleton.mp here
    exact lookup_eq_none.mp fresh among
  · intro entry member
    rcases List.mem_append.mp member with old | new
    · exact distinct.2 entry old
    · obtain rfl := List.mem_singleton.mp new
      exact inner

theorem distinct_lookup (distinct : AreDistinct entries) (found : entries.lookup k = some value) :
    value.Distinct := (areDistinct_iff.mp distinct).2 _ (mem_of_lookup found)

theorem distinct_getLast? {items : List (Toml σ)} (distinct : (Toml.array items).Distinct)
    (last : items.getLast? = some value) : value.Distinct := by
  cases distinct with
  | array inner => exact inner value (List.mem_of_getLast? last)

theorem distinct_replaceLast {items : List (Toml σ)} (distinct : (Toml.array items).Distinct)
    (inner : value.Distinct) : (Toml.array (items.dropLast ++ [value])).Distinct := by
  cases distinct with
  | array all =>
    refine .array fun item member => ?_
    rcases List.mem_append.mp member with old | new
    · exact all item (List.dropLast_subset _ old)
    · obtain rfl := List.mem_singleton.mp new
      exact inner

/-- Where the change keeps the keys distinct, everything around it does. -/
theorem distinct_nest (keeps : ∀ {entries data}, AreDistinct entries → change entries = some data → AreDistinct data)
    (distinct : AreDistinct entries) (done : nest lists change path entries = some data) : AreDistinct data := by
  induction path generalizing entries data with
  | nil => exact keeps distinct done
  | cons k path ih =>
    rw [nest] at done
    cases found : entries.lookup k with
    | none =>
      simp only [found] at done
      obtain ⟨inner, made, rfl⟩ := Option.map_eq_some_iff.mp done
      have empty : AreDistinct ([] : Entries σ) := .table List.nodup_nil nofun
      exact distinct_append distinct found (ih empty made)
    | some value =>
      simp only [found] at done
      have held := distinct_lookup distinct found
      cases value with
      | table old =>
        obtain ⟨inner, made, rfl⟩ := Option.map_eq_some_iff.mp done
        exact distinct_put distinct (ih held made)
      | array items =>
        cases lists with
        | false => cases done
        | true =>
          cases last : items.getLast? with
          | none =>
            simp only [last] at done
            cases done
          | some item =>
            simp only [last] at done
            cases item with
            | table old =>
              obtain ⟨inner, made, rfl⟩ := Option.map_eq_some_iff.mp done
              exact distinct_put distinct (distinct_replaceLast held (ih (distinct_getLast? held last) made))
            | scalar _ | string _ | array _ => cases done
      | scalar _ | string _ => cases done

theorem distinct_define (inner : value.Distinct) (distinct : AreDistinct entries)
    (done : define k value entries = some data) : AreDistinct data := by
  unfold define at done
  split_ifs at done with there
  obtain rfl := Option.some.inj done
  exact distinct_append distinct (Option.not_isSome_iff_eq_none.mp there) inner

theorem distinct_appendTable (distinct : AreDistinct entries)
    (done : appendTable k entries = some data) : AreDistinct data := by
  have empty : (Toml.table ([] : Entries σ)).Distinct := .table List.nodup_nil nofun
  unfold appendTable at done
  cases found : entries.lookup k with
  | none =>
    simp only [found] at done
    obtain rfl := Option.some.inj done
    exact distinct_append distinct found (.array (List.forall_mem_singleton.mpr empty))
  | some value =>
    simp only [found] at done
    cases value with
    | array items =>
      obtain rfl := Option.some.inj done
      refine distinct_put distinct (.array fun item member => ?_)
      cases distinct_lookup distinct found with
      | array all =>
        rcases List.mem_append.mp member with old | new
        · exact all item old
        · obtain rfl := List.mem_singleton.mp new
          exact empty
    | scalar _ | string _ | table _ => cases done

def Statement.IsDistinct : Statement σ → Prop
  | .keyValue _ value => value.Distinct
  | _ => True

/-- A statement keeps the keys distinct. -/
theorem Output.apply_distinct {o o' : Output σ} {statement : Statement σ} (inner : statement.IsDistinct)
    (distinct : AreDistinct o.data) (done : o.apply statement = some o') : AreDistinct o'.data := by
  cases statement with
  | header key =>
    simp only [Output.apply] at done
    split_ifs at done
    obtain ⟨data, nested, rfl⟩ := Option.map_eq_some_iff.mp done
    refine distinct_nest ?_ distinct nested
    rintro entries data held ⟨⟩
    exact held
  | listHeader key =>
    simp only [Output.apply] at done
    split_ifs at done
    obtain ⟨data, nested, rfl⟩ := Option.map_eq_some_iff.mp done
    exact distinct_nest distinct_appendTable distinct nested
  | keyValue key value =>
    simp only [Output.apply] at done
    split_ifs at done
    obtain ⟨data, nested, rfl⟩ := Option.map_eq_some_iff.mp done
    exact distinct_nest (distinct_define inner) distinct nested

end Distinct

/-! ### Lookups -/

section Lookups
variable {entries data old : Entries σ} {k k' : String} {value : Toml σ} {path : List String} {lists : Bool}
  {change : Entries σ → Option (Entries σ)}

theorem lookup_put_ne (other : k' ≠ k) : (put entries k value).lookup k' = entries.lookup k' := by
  induction entries with
  | nil => rfl
  | cons entry rest ih =>
    obtain ⟨found, held⟩ := entry
    show List.lookup k' ((if found = k then (k, value) else (found, held)) :: put rest k value) = _
    by_cases same : found = k
    · subst same
      have apart : (k' == found) = false := by simpa using other
      rw [if_pos rfl, List.lookup_cons, List.lookup_cons, apart]
      exact ih
    · rw [if_neg same, List.lookup_cons, List.lookup_cons, ih]

theorem lookup_append_ne (other : k' ≠ k) : (entries ++ [(k, value)]).lookup k' = entries.lookup k' := by
  have apart : (k' == k) = false := by simpa using other
  rw [List.lookup_append, List.lookup_cons, apart]
  exact Option.or_none

/-- A change under one key leaves the others. -/
theorem lookup_nest (done : nest lists change (k :: path) entries = some data) (other : k' ≠ k) :
    data.lookup k' = entries.lookup k' := by
  rw [nest] at done
  cases found : entries.lookup k with
  | none =>
    simp only [found] at done
    obtain ⟨inner, -, rfl⟩ := Option.map_eq_some_iff.mp done
    exact lookup_append_ne other
  | some value =>
    simp only [found] at done
    cases value with
    | table old =>
      obtain ⟨inner, -, rfl⟩ := Option.map_eq_some_iff.mp done
      exact lookup_put_ne other
    | array items =>
      cases lists with
      | false => cases done
      | true =>
        cases last : items.getLast? with
        | none =>
          simp only [last] at done
          cases done
        | some item =>
          simp only [last] at done
          cases item with
          | table old =>
            obtain ⟨inner, -, rfl⟩ := Option.map_eq_some_iff.mp done
            exact lookup_put_ne other
          | scalar _ | string _ | array _ => cases done
    | scalar _ | string _ => cases done

/-- A table that is there is changed, and one that is not is made. -/
theorem nest_table (held : (entries.lookup k).getD (.table []) = .table old)
    (done : nest lists change (k :: path) entries = some data) :
    ∃ inner, nest lists change path old = some inner ∧ data.lookup k = some (.table inner) := by
  rw [nest] at done
  cases found : entries.lookup k with
  | none =>
    rw [found] at held
    obtain rfl := Toml.table.inj held
    simp only [found] at done
    obtain ⟨inner, made, rfl⟩ := Option.map_eq_some_iff.mp done
    exact ⟨inner, made, lookup_append_fresh found⟩
  | some value =>
    rw [found] at held
    obtain rfl : value = .table old := held
    simp only [found] at done
    obtain ⟨inner, made, rfl⟩ := Option.map_eq_some_iff.mp done
    exact ⟨inner, made, lookup_put (by rw [found]; rfl)⟩

/-- What is no table may still be a list of tables. -/
theorem nest_list (other : ∀ old, (entries.lookup k).getD (.table []) ≠ .table old)
    (done : nest lists change (k :: path) entries = some data) : ∃ items, data.lookup k = some (.array items) := by
  rw [nest] at done
  cases found : entries.lookup k with
  | none =>
    rw [found] at other
    exact absurd rfl (other [])
  | some value =>
    simp only [found] at done
    rw [found] at other
    cases value with
    | table old => exact absurd rfl (other old)
    | array items =>
      cases lists with
      | false => cases done
      | true =>
        cases last : items.getLast? with
        | none =>
          simp only [last] at done
          cases done
        | some item =>
          simp only [last] at done
          cases item with
          | table old =>
            obtain ⟨inner, -, rfl⟩ := Option.map_eq_some_iff.mp done
            exact ⟨_, lookup_put (by rw [found]; rfl)⟩
          | scalar _ | string _ | array _ => cases done
    | scalar _ | string _ => cases done

theorem define_eq_some : define k value entries = some data ↔ entries.lookup k = none ∧ entries ++ [(k, value)] = data := by
  unfold define
  split_ifs with there
  · refine iff_of_false nofun fun both => ?_
    rw [both.1] at there
    cases there
  · rw [Option.some.injEq]
    exact (and_iff_right (Option.not_isSome_iff_eq_none.mp there)).symm

end Lookups

end Toml

end Core
