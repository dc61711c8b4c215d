import Nelix.Core.TomlReading

/-!
# TOML documents line by line

## Main results

`tomlLines`: the lines of a document can be read one after another.

`load_distinct`: in no table that is read a key stands twice.
-/
namespace Core.Toml
open Scanner

variable {σ : Type} {n m : ℕ} {words : Words σ} {elem : Scanner (Toml σ)}

/-! ### Lines end where their statement does -/

theorem isQuote_ne {c : Char} (quote : isQuote c = true) : c ≠ '\n' := by
  rintro rfl
  cases quote

theorem skipWs_tight : Tight skipWs := (Tight.span (by decide)).bind fun _ => Tight.pure

theorem stringBody_shut {delim : Char} (other : delim ≠ '\n') (multi : Bool) (quotes : ℕ) :
    Shut (stringBody delim multi n quotes) := by
  induction n generalizing quotes with
  | zero => exact Shut.fail
  | succ n ih =>
    have onward : ∀ c, Shut (do
        let piece ← stringPiece delim multi c
        let rest ← stringBody delim multi n 0
        pure (List.replicate quotes delim ++ piece ++ rest)) := fun c =>
      Shut.after (stringPiece_local delim multi c) fun _ => (ih 0).bind fun _ => Tight.pure
    refine Shut.item_bind (Shut.ite (fun same => absurd same.symm other) fun _ => onward _) fun c _ => ?_
    exact Tight.ite (fun _ => Tight.ite (fun _ => (ih _).tight) fun _ => Tight.pure) fun _ => (onward c).tight

theorem trailing_tight {delim : Char} (other : delim ≠ '\n') : Tight (trailing delim) :=
  Tight.peek.bind fun _ => Tight.ite
    (fun _ => (Shut.exactly other).tight.bind fun _ => Tight.peek.bind fun _ =>
      Tight.ite (fun _ => (Shut.exactly other).tight.bind fun _ => Tight.pure) fun _ => Tight.pure)
    fun _ => Tight.pure

theorem quoted_tight {delim : Char} (other : delim ≠ '\n') : Tight (quoted n delim) := by
  refine (Shut.exactly other).tight.bind fun _ => Tight.peek.bind fun _ => Tight.ite (fun _ => ?_) fun _ => ?_
  · refine (Shut.exactly other).tight.bind fun _ => Tight.peek.bind fun _ =>
      Tight.ite (fun _ => (Shut.exactly other).tight.bind fun _ => ?_) fun _ => Tight.pure
    exact (Shut.after skipFirstLine_local fun _ => (stringBody_shut other true 0).bind fun _ =>
      (trailing_tight other).bind fun _ => Tight.pure).tight
  · exact (stringBody_shut other false 0).tight.bind fun _ => Tight.pure

theorem keyPart_tight : Tight (keyPart n) := by
  refine Tight.peek.bind fun c => Tight.ite (fun _ => ?_) fun _ => Tight.ite (fun quote => ?_) fun _ =>
    Shut.fail.tight
  · exact (Tight.span (by decide)).bind fun _ => Tight.pure
  · have other := isQuote_ne quote
    exact (Shut.exactly other).tight.bind fun _ => (stringBody_shut other false 0).tight.bind fun _ => Tight.pure

theorem keyRest_tight (parents : List String) (stem : String) : Tight (keyRest n parents stem) := by
  induction n generalizing parents stem with
  | zero => exact Shut.fail.tight
  | succ n ih =>
    refine Tight.peek.bind fun c => Tight.ite (fun _ => ?_) fun _ => Tight.pure
    exact (Shut.exactly (by decide)).tight.bind fun _ => skipWs_tight.bind fun _ => keyPart_tight.bind fun part =>
      skipWs_tight.bind fun _ => ih _ part

theorem key_tight : Tight (key n) :=
  keyPart_tight.bind fun part => skipWs_tight.bind fun _ => keyRest_tight [] part

theorem keyValue_tight (tight : Tight elem) : Tight (keyValue n elem) :=
  key_tight.bind fun _ => (Shut.exactly (by decide)).tight.bind fun _ => skipWs_tight.bind fun _ =>
    tight.bind fun _ => Tight.pure

theorem arrayItems_shut (items : List (Toml σ)) (isLocal : Local elem elem) : Shut (arrayItems elem n items) := by
  induction n generalizing items with
  | zero => exact Shut.fail
  | succ n ih =>
    refine Shut.after isLocal fun v => Shut.after (blanks_local true false) fun _ => Shut.item_bind ?_ fun c _ => ?_
    · exact Shut.fail
    · refine Tight.ite (fun _ => Tight.pure) fun _ => Tight.ite (fun _ => Shut.tight ?_) fun _ => Shut.fail.tight
      refine Shut.after (blanks_local true false) fun _ => Shut.after Local.peek fun _ =>
        Shut.ite (fun _ => ?_) fun _ => ih _
      exact (Shut.exactly (by decide)).bind fun _ => Tight.pure

theorem arrayOf_tight (isLocal : Local elem elem) : Tight (arrayOf elem n) :=
  Shut.tight <| Shut.after (Local.exactly _) fun _ => Shut.after (blanks_local true false) fun _ =>
    Shut.after Local.peek fun _ => Shut.ite
      (fun _ => (Shut.exactly (by decide)).bind fun _ => Tight.pure) fun _ => arrayItems_shut [] isLocal

theorem inlineItems_shut (entries : Entries σ) (frozen : List (List String)) (isLocal : Local elem elem) :
    Shut (inlineItems elem n entries frozen) := by
  induction n generalizing entries frozen with
  | zero => exact Shut.fail
  | succ n ih =>
    refine Shut.after (keyValue_local le_rfl isLocal) fun pair => ?_
    cases addInline entries frozen pair.1 pair.2 with
    | none => exact Shut.fail
    | some entries =>
      refine Shut.after skipWs_local fun _ => Shut.item_bind Shut.fail fun c _ => ?_
      refine Tight.ite (fun _ => Tight.pure) fun _ => Tight.ite (fun _ => Shut.tight ?_) fun _ => Shut.fail.tight
      exact Shut.after skipWs_local fun _ => ih _ _

theorem inlineTable_tight (isLocal : Local elem elem) : Tight (inlineTable elem n) :=
  Shut.tight <| Shut.after (Local.exactly _) fun _ => Shut.after skipWs_local fun _ =>
    Shut.after Local.peek fun _ => Shut.ite
      (fun _ => (Shut.exactly (by decide)).bind fun _ => Tight.pure) fun _ => inlineItems_shut [] [] isLocal

theorem value_tight : Tight (value words n) := by
  cases n with
  | zero => exact Shut.fail.tight
  | succ n =>
    have inner : Local (value words n) (value words n) := value_local le_rfl
    refine Tight.peek.bind fun c => Tight.ite (fun quote => ?_) fun _ => Tight.ite (fun _ => ?_) fun _ =>
      Tight.ite (fun _ => ?_) fun _ => ?_
    · exact (quoted_tight (isQuote_ne quote)).bind fun _ => Tight.pure
    · exact (arrayOf_tight inner).bind fun _ => Tight.pure
    · exact (inlineTable_tight inner).bind fun _ => Tight.pure
    · exact words.isTight.bind fun _ => Tight.pure

theorem header_tight : Tight (header n : Scanner (Statement σ)) := by
  refine (Shut.exactly (by decide)).tight.bind fun _ => Tight.peek.bind fun c => Tight.ite (fun _ => ?_) fun _ => ?_
  · exact (Shut.exactly (by decide)).tight.bind fun _ => skipWs_tight.bind fun _ => key_tight.bind fun _ =>
      (Shut.exactly (by decide)).tight.bind fun _ => (Shut.exactly (by decide)).tight.bind fun _ => Tight.pure
  · exact skipWs_tight.bind fun _ => key_tight.bind fun _ => (Shut.exactly (by decide)).tight.bind fun _ =>
      Tight.pure

theorem line_tight : Tight (line words n) := by
  refine skipWs_tight.bind fun _ => Tight.bind ?_ fun _ => skipWs_tight.bind fun _ => Tight.bind ?_ fun _ =>
    Tight.pure
  · refine Tight.peek.bind fun c => Tight.ite (fun _ => ?_) fun _ => Tight.ite (fun _ => ?_) fun _ => Tight.pure
    · exact (keyValue_tight value_tight).bind fun _ => Tight.pure
    · exact header_tight.bind fun _ => Tight.pure
  · refine Tight.peek.bind fun c => Tight.ite (fun _ => ?_) fun _ => Tight.pure
    exact (Shut.exactly (by decide)).tight.bind fun _ => (Tight.span (by decide)).bind fun _ => Tight.pure

/-- The lines of a document. -/
def tomlLines (words : Words σ) : LineScanner (Statement σ) where
  one := line words
  isLocal more := line_local more
  agree := line_agree
  tight {_} := line_tight

/-! ### In no table a key stands twice -/

section Keys

theorem arrayItems_distinct {items : List (Toml σ)} (each : Yields Distinct elem)
    (held : ∀ item ∈ items, item.Distinct) :
    Yields (fun items : List (Toml σ) => ∀ item ∈ items, item.Distinct) (arrayItems elem n items) := by
  induction n generalizing items with
  | zero => exact Yields.fail
  | succ n ih =>
    refine each.bind fun v distinct => ?_
    have longer : ∀ item ∈ items ++ [v], item.Distinct := by
      intro item member
      rcases List.mem_append.mp member with old | new
      · exact held item old
      · obtain rfl := List.mem_singleton.mp new
        exact distinct
    refine Yields.after fun _ => Yields.after fun c => Yields.ite (Yields.pure longer)
      (Yields.ite (Yields.after fun _ => Yields.after fun d => ?_) Yields.fail)
    exact Yields.ite (Yields.after fun _ => Yields.pure longer) (ih longer)

theorem arrayOf_distinct (each : Yields Distinct elem) :
    Yields (fun items : List (Toml σ) => ∀ item ∈ items, item.Distinct) (arrayOf elem n) :=
  Yields.after fun _ => Yields.after fun _ => Yields.after fun _ =>
    Yields.ite (Yields.after fun _ => Yields.pure nofun) (arrayItems_distinct each nofun)

theorem keyValue_distinct (each : Yields Distinct elem) :
    Yields (fun pair : Key × Toml σ => pair.2.Distinct) (keyValue n elem) :=
  Yields.after fun _ => Yields.after fun _ => Yields.after fun _ => each.bind fun _ distinct =>
    Yields.pure distinct

theorem inlineItems_distinct {entries : Entries σ} {frozen : List (List String)} (each : Yields Distinct elem)
    (held : AreDistinct entries) : Yields AreDistinct (inlineItems elem n entries frozen) := by
  induction n generalizing entries frozen with
  | zero => exact Yields.fail
  | succ n ih =>
    refine (keyValue_distinct each).bind fun pair distinct => ?_
    cases added : addInline entries frozen pair.1 pair.2 with
    | none => exact Yields.fail
    | some entries' =>
      have held' : AreDistinct entries' := by
        unfold addInline at added
        split_ifs at added
        exact distinct_nest (distinct_define distinct) held added
      exact Yields.after fun _ => Yields.after fun c => Yields.ite (Yields.pure held')
        (Yields.ite (Yields.after fun _ => ih held') Yields.fail)

theorem inlineTable_distinct (each : Yields Distinct elem) : Yields AreDistinct (inlineTable elem n) := by
  have empty : AreDistinct ([] : Entries σ) := .table List.nodup_nil nofun
  exact Yields.after fun _ => Yields.after fun _ => Yields.after fun _ =>
    Yields.ite (Yields.after fun _ => Yields.pure empty) (inlineItems_distinct each empty)

theorem value_distinct : Yields Distinct (value words n) := by
  induction n with
  | zero => exact Yields.fail
  | succ n ih =>
    refine Yields.after fun c => Yields.ite ?_ (Yields.ite ?_ (Yields.ite ?_ ?_))
    · exact Yields.after fun s => Yields.pure (.string s)
    · exact (arrayOf_distinct ih).bind fun _ all => Yields.pure (.array all)
    · exact (inlineTable_distinct ih).bind fun _ table => Yields.pure table
    · exact Yields.after fun a => Yields.pure (.scalar a)

theorem line_distinct :
    Yields (fun statement : Option (Statement σ) => ∀ found ∈ statement, found.IsDistinct) (line words n) := by
  refine Yields.after fun _ => Yields.bind (Q := fun statement => ∀ found ∈ statement, found.IsDistinct) ?_
    fun _ distinct => Yields.after fun _ => Yields.after fun _ => Yields.pure distinct
  refine Yields.after fun c => Yields.ite ?_ (Yields.ite ?_ (Yields.pure nofun))
  · refine (keyValue_distinct value_distinct).bind fun pair distinct => Yields.pure ?_
    rintro _ ⟨⟩
    exact distinct
  · have headers : Yields Statement.IsDistinct (header n : Scanner (Statement σ)) := by
      refine Yields.after fun _ => Yields.after fun _ => Yields.ite ?_ ?_
      · exact Yields.after fun _ => Yields.after fun _ => Yields.after fun _ => Yields.after fun _ =>
          Yields.after fun _ => Yields.pure trivial
      · exact Yields.after fun _ => Yields.after fun _ => Yields.after fun _ => Yields.pure trivial
    refine headers.bind fun statement distinct => Yields.pure ?_
    rintro _ ⟨⟩
    exact distinct

theorem linesOf_distinct {s : List Char} {ss : List (Statement σ)} (read : linesOf (line words) n s = some ss) :
    ∀ statement ∈ ss, statement.IsDistinct := by
  induction n generalizing s ss with
  | zero => cases read
  | succ n ih =>
    by_cases none : s = []
    · subst none
      obtain rfl := Option.some.inj read
      exact nofun
    · obtain ⟨a, r, rest, first, later, rfl⟩ := (linesOf_step none).mp read
      intro statement member
      rcases List.mem_append.mp member with here | there
      · exact line_distinct first statement (Option.mem_toList.mp here)
      · exact ih later statement there

theorem run_distinct {o o' : Output σ} {ss : List (Statement σ)} (inner : ∀ statement ∈ ss, statement.IsDistinct)
    (held : AreDistinct o.data) (done : run o ss = some o') : AreDistinct o'.data := by
  induction ss generalizing o with
  | nil =>
    obtain rfl := Option.some.inj done
    exact held
  | cons statement rest ih =>
    obtain ⟨next, applied, later⟩ := Option.bind_eq_some_iff.mp done
    have step := Output.apply_distinct (inner statement List.mem_cons_self) held applied
    exact ih (fun other member => inner other (List.mem_cons_of_mem _ member)) step later

/-- In no table that is read a key stands twice. -/
theorem load_distinct {text : String} {data : Entries σ} (loaded : load words text = some data) :
    (Toml.table data).Distinct := by
  obtain ⟨o, done, rfl⟩ := Option.map_eq_some_iff.mp loaded
  obtain ⟨ss, read, ran⟩ := Option.bind_eq_some_iff.mp done
  have empty : AreDistinct ({} : Output σ).data := .table List.nodup_nil nofun
  exact run_distinct (linesOf_distinct read) empty ran

end Keys

/-! ### Ends of lines -/

section UnixLines
variable {s t : List Char}

theorem unixLines_of_plain (plain : '\r' ∉ s) : unixLines s = s := by
  induction s using unixLines.induct with
  | case1 => rfl
  | case2 c => rfl
  | case3 c d s both _ =>
    obtain ⟨rfl, -⟩ := both
    exact absurd List.mem_cons_self plain
  | case4 c d s other ih =>
    rw [unixLines, if_neg other, ih fun among => plain (List.mem_cons_of_mem _ among)]

/-- Where no carriage return is left, none stands at the end. -/
theorem unixLines_append (plain : '\r' ∉ unixLines s) : unixLines (s ++ t) = unixLines s ++ unixLines t := by
  induction s using unixLines.induct with
  | case1 => rfl
  | case2 c =>
    have other : c ≠ '\r' := by
      rintro rfl
      exact plain List.mem_cons_self
    cases t with
    | nil => rfl
    | cons d t =>
      show unixLines (c :: d :: t) = c :: unixLines (d :: t)
      rw [unixLines, if_neg fun both => other both.1]
  | case3 c d s both ih =>
    rw [unixLines, if_pos both] at plain
    show unixLines (c :: d :: (s ++ t)) = _
    rw [unixLines, if_pos both, unixLines, if_pos both, ih fun among => plain (List.mem_cons_of_mem _ among)]
    rfl
  | case4 c d s other ih =>
    rw [unixLines, if_neg other] at plain
    show unixLines (c :: d :: (s ++ t)) = _
    rw [unixLines, if_neg other]
    have rest := ih fun among => plain (List.mem_cons_of_mem _ among)
    rw [unixLines, if_neg other]
    exact congrArg (c :: ·) rest

end UnixLines

/-! ### A table and its entries -/

section Tables
variable {o : Output σ} {data entries : Entries σ} {k : String} {path : List String}
  {change : Entries σ → Option (Entries σ)}

/-- Sets keys one after another. -/
def defineAll : List (String × Toml σ) → Entries σ → Option (Entries σ)
  | [], entries => some entries
  | (k, v) :: rest, entries => (define k v entries).bind (defineAll rest)

/-- The keys were not there, and the entries stand behind the others. -/
theorem defineAll_eq {kvs : List (String × Toml σ)} (done : defineAll kvs entries = some data) :
    data = entries ++ kvs ∧ ∀ kv ∈ kvs, entries.lookup kv.1 = none := by
  induction kvs generalizing entries with
  | nil =>
    obtain rfl := Option.some.inj done
    exact ⟨(List.append_nil _).symm, nofun⟩
  | cons kv kvs ih =>
    obtain ⟨next, defined, later⟩ := Option.bind_eq_some_iff.mp done
    obtain ⟨fresh, rfl⟩ := define_eq_some.mp defined
    obtain ⟨rfl, rest⟩ := ih later
    refine ⟨by rw [List.append_assoc]; rfl, List.forall_mem_cons.mpr ⟨fresh, fun other member => ?_⟩⟩
    have absent := rest other member
    rw [List.lookup_append, Option.or_eq_none_iff] at absent
    exact absent.1

theorem lookup_defineAll {kvs : List (String × Toml σ)} (done : defineAll kvs entries = some data) :
    data.lookup k = (kvs.lookup k).or (entries.lookup k) := by
  obtain ⟨rfl, fresh⟩ := defineAll_eq done
  rw [List.lookup_append]
  cases found : kvs.lookup k with
  | none => rw [Option.or_none, Option.none_or]
  | some v =>
    rw [fresh _ (mem_of_lookup found), Option.none_or, Option.some_or]

theorem run_append (o : Output σ) (first rest : List (Statement σ)) :
    run o (first ++ rest) = (run o first).bind fun o => run o rest := by
  induction first generalizing o with
  | nil => rfl
  | cons statement first ih =>
    show (o.apply statement).bind (fun o => run o (first ++ rest)) = ((o.apply statement).bind fun o => run o first).bind _
    rw [Option.bind_assoc]
    exact congrArg _ (funext ih)

theorem apply_keyValue (opened : o.isFrozen o.header = false) (k : String) (v : Toml σ) :
    ∃ frozen : List (List String), frozen.any (fun closed => closed.isPrefixOf o.header) = false ∧
      o.apply (.keyValue ⟨[], k⟩ v) =
        (nest true (define k v) o.header o.data).map fun data =>
          { o with data, frozen } := by
  have longer : (o.header ++ [k]).isPrefixOf o.header = false := by
    cases before : (o.header ++ [k]).isPrefixOf o.header with
    | false => rfl
    | true =>
      have shorter := (List.isPrefixOf_iff_prefix.mp before).length_le
      simp at shorter
  refine ⟨if isClosed v = true then (o.header ++ [k]) :: o.frozen else o.frozen, ?_, ?_⟩
  · split_ifs
    · rw [List.any_cons, longer, Bool.false_or]
      exact opened
    · exact opened
  · have inner : o.within ⟨[], k⟩ = [] := rfl
    simp only [Output.apply, inner, opened, List.any_nil, Bool.or_self, Bool.false_eq_true, if_false,
      List.append_nil]
    cases v <;> rfl

/-- Keys that are set in one table. -/
theorem run_keyValues (opened : o.isFrozen o.header = false) (made : nest true change o.header data = some o.data)
    (kvs : List (String × Toml σ)) :
    (run o (kvs.map fun kv => .keyValue ⟨[], kv.1⟩ kv.2)).map Output.data =
      nest true (fun entries => (change entries).bind (defineAll kvs)) o.header data := by
  induction kvs generalizing o change with
  | nil =>
    have same : (fun entries : Entries σ => (change entries).bind (defineAll [])) = change := by
      funext entries
      exact Option.bind_fun_some _
    rw [same, made]
    rfl
  | cons kv kvs ih =>
    obtain ⟨k, v⟩ := kv
    obtain ⟨frozen, outside, applied⟩ := apply_keyValue opened k v
    -- the change so far and the new key are one change
    have both : nest true (fun entries => (change entries).bind (define k v)) o.header data =
        nest true (define k v) o.header o.data := by
      rw [← nest_nest, made, Option.bind_some]
    have all : (fun entries : Entries σ => (change entries).bind (defineAll ((k, v) :: kvs))) =
        fun entries => ((change entries).bind (define k v)).bind (defineAll kvs) := by
      funext entries
      rw [Option.bind_assoc]
      rfl
    show ((o.apply (.keyValue ⟨[], k⟩ v)).bind fun o => run o _).map Output.data = _
    rw [all, applied]
    cases defined : nest true (define k v) o.header o.data with
    | none =>
      rw [← nest_nest, both, defined]
      rfl
    | some data' => exact ih outside (both.trans defined)

/-- A table that may be opened, and what is set in it. -/
theorem run_table {key : Key} (open_ : o.opensAt key.path = true) (kvs : List (String × Toml σ)) :
    (run o (.header key :: kvs.map fun kv => .keyValue ⟨[], kv.1⟩ kv.2)).map Output.data =
      nest true (defineAll kvs) key.path o.data := by
  have free : (o.finalizePending.isExplicit key.path || o.finalizePending.isFrozen key.path) = false := by
    simpa [Output.opensAt] using open_
  have kept : (defineAll kvs : Entries σ → _) = fun entries => (some entries).bind (defineAll kvs) := rfl
  show ((o.apply (.header key)).bind fun o => run o _).map Output.data = _
  rw [Output.apply, free, if_neg (by decide)]
  cases made : nest true some key.path o.finalizePending.data with
  | none =>
    rw [kept, ← nest_nest]
    have same : nest true some key.path o.data = none := made
    rw [same]
    rfl
  | some data' =>
    exact run_keyValues (o := { o.finalizePending with
      data := data', explicit := key.path :: o.finalizePending.explicit, header := key.path })
      (Bool.or_eq_false_iff.mp free).2 made kvs

/-- A table that may not be opened is an error. -/
theorem run_table_closed {key : Key} (closed : o.opensAt key.path = false) (rest : List (Statement σ)) :
    run o (.header key :: rest) = none := by
  have held : (o.finalizePending.isExplicit key.path || o.finalizePending.isFrozen key.path) = true := by
    by_contra free
    rw [Output.opensAt, Bool.eq_false_of_not_eq_true free] at closed
    cases closed
  show (o.apply (.header key)).bind _ = none
  rw [Output.apply, held, if_pos rfl]
  rfl

end Tables

end Core.Toml
