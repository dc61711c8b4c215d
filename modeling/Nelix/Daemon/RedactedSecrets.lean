import Nelix.Daemon.Redaction

/-!
# Redacted secrets

What stands behind the marker of a secret, and whether it shows in the log.

## Main results

`redact_hides`: which secret stands behind a marker does not show in the log when the value of a key or
the token of a scheme reaches it, and it does show otherwise.

`kvTakes_key`, `kvTakes_header`: the former is so for each key that is written without whitespace, and
never for a header.
-/
namespace Nelix.Daemon

open Core

section
variable {u : Unicode} {classes : List (CodePoint → Bool)} {words : List (List (CodePoint → Bool))}
  {text part left right rest post more run : Text} {bar x e : CodePoint} {k g n : ℕ}
  {before : Option CodePoint}

/-! ### Secrets behind a marker -/

def isDelimiter : CodePoint → Bool
  | .char c => "=:,;".toList.contains c
  | _ => false

/-- A secret has no whitespace and no delimiters. -/
structure IsSecret (s : Text) : Prop where
  filled : s ≠ []
  solid : ∀ c ∈ s, c.isSpace = false
  plain : ∀ c ∈ s, isDelimiter c = false

/-- What stands before a secret: a key with its separator, or the header of a scheme. -/
inductive Aimed : Text → Prop
  | key {name blanks blanks' : Text} {sep : CodePoint} :
      alternative keys name = some name.length → Text.Spaces blanks → isSeparator sep = true →
      Text.Spaces blanks' → Aimed (name ++ blanks ++ [sep] ++ blanks')
  | header {name blanks blanks' scheme gap : Text} :
      alternative [word "authorization"] name = some name.length → Text.Spaces blanks → Text.Spaces blanks' →
      alternative [word "bearer"] scheme = some scheme.length → Text.Spaces gap → gap ≠ [] →
      Aimed (name ++ blanks ++ [.char ':'] ++ blanks' ++ scheme ++ gap)

theorem Aimed.closed {marker pre : Text} (aimed : Aimed marker) : EndsClosed (pre ++ marker) := by
  have spaced {lead blanks : Text} (spaces : Text.Spaces blanks) (filled : blanks ≠ []) :
      EndsClosed (lead ++ blanks) := by
    obtain ⟨init, e, rfl⟩ := List.eq_nil_or_concat blanks |>.resolve_left filled
    refine ⟨e, by simp, ?_⟩
    rw [isClosed, spaces e (by simp), Bool.true_or]
  cases aimed with
  | @key name blanks blanks' sep _ _ separator spaces =>
    by_cases filled : blanks' = []
    · subst filled
      refine ⟨sep, by simp, ?_⟩
      rw [isClosed, separator, Bool.or_true]
    · rw [← List.append_assoc]
      exact spaced spaces filled
  | header _ _ _ _ spaces filled =>
    rw [← List.append_assoc]
    exact spaced spaces filled

/-- A value of a key that begins in the text reaches the character behind it. -/
def kvTakes (left : Text) : Bool := takes kv plus none 0 left

/-- So does a token of the scheme, in what is left of the text by the passes before. -/
def bearerTakes (u : Unicode) (left : Text) : Bool :=
  takes (bearer u) plus none 0 (sub (prefixed u) none 0 (subBefore kv plus none 0 left))

/-- The word that goes on with the secret does not end with a separator, and none follows it. -/
structure Calm (post : Text) : Prop where
  last : ∀ c ∈ (post.takeWhile isSolid).getLast?, isSeparator c = false
  next : ∀ c ∈ ((post.dropWhile isSolid).dropWhile CodePoint.isSpace).head?, isSeparator c = false

/-- The secret does not show. -/
def Hides (u : Unicode) (left post : Text) : Prop :=
  ∀ s s', IsSecret s → IsSecret s' → redact u (left ++ s ++ post) = redact u (left ++ s' ++ post)

variable {s : Text}

theorem IsSecret.solid' (secret : IsSecret s) : ∀ c ∈ s, isSolid c = true := by
  intro c inside
  rw [isSolid, secret.solid c inside, Bool.not_false]

theorem separator_delimiter (separator : isSeparator e = true) : isDelimiter e = true := by
  rcases isSeparator_iff.mp separator with rfl | rfl <;> decide

theorem IsSecret.other (secret : IsSecret s) : ∀ c ∈ s, isSeparator c = false := by
  intro c inside
  by_contra separator
  have delimiter := separator_delimiter (Bool.eq_true_of_not_eq_false separator)
  rw [secret.plain c inside] at delimiter
  cases delimiter

theorem kv_before (before before' : Option CodePoint) (text : Text) :
    sub kv before 0 text = sub kv before' 0 text :=
  sub_before rfl

theorem IsSecret.runs (secret : IsSecret s) (post : Text) :
    (s ++ post).takeWhile isSolid = s ++ post.takeWhile isSolid ∧
      (s ++ post).dropWhile isSolid = post.dropWhile isSolid :=
  ⟨List.takeWhile_append_of_pos secret.solid', List.dropWhile_append_of_pos secret.solid'⟩

/-- What the first pass makes of a text with a secret. -/
theorem sub_kv (closed : EndsClosed left) (secret : IsSecret s) (post : Text) :
    sub kv none 0 (left ++ (s ++ post)) = subBefore kv plus none 0 left ++
      if kvTakes left then sub kv none 0 (post.dropWhile isSolid) else sub kv none 0 (s ++ post) := by
  obtain ⟨x, more, rfl⟩ := List.exists_cons_of_ne_nil secret.filled
  have blind : Blind (fun _ => kvHead) plus left (x :: (more ++ post)) :=
    kvHead_blind closed (secret.solid x (by simp)) (secret.other x (by simp))
  have first : (x :: more ++ post).takeWhile isSolid ≠ [] := by
    rw [(secret.runs post).1]
    exact List.append_ne_nil_of_left_ne_nil secret.filled _
  rw [kv, List.cons_append, sub_run blind rfl first (Nat.zero_le _), ← List.cons_append,
    (secret.runs post).2]
  exact congrArg _ (if_congr Iff.rfl (kv_before _ _ _) (kv_before _ _ _))

/-! ### The value of a key -/

theorem hides_of_kv (closed : EndsClosed left) (taken : kvTakes left = true) : Hides u left post := by
  intro s s' secret secret'
  rw [redact, redact, List.append_assoc, List.append_assoc, sub_kv closed secret post,
    sub_kv closed secret' post, if_pos taken, if_pos taken]

/-! ### The token of a scheme -/

/-- The text is empty or begins with whitespace. -/
def Opens (text : Text) : Prop := ∀ c ∈ text.head?, c.isSpace = true

theorem opens_dropWhile (text : Text) : Opens (text.dropWhile isSolid) := by
  intro c first
  cases behind : text.dropWhile isSolid with
  | nil =>
    rw [behind] at first
    cases first
  | cons d more =>
    have stops := List.head_dropWhile_not isSolid (l := text) (by simp [behind])
    simp only [behind, List.head_cons] at stops
    rw [behind, List.head?_cons] at first
    cases first
    simpa [isSolid] using stops

theorem Opens.stop (opens : Opens (e :: rest)) : isClosed e = true ∧ isSolid e = false := by
  have space := opens e rfl
  exact ⟨by rw [isClosed, space, Bool.true_or], by rw [isSolid, space, Bool.not_true]⟩

theorem kvHead_closed (closed : isClosed e = true) : kvHead (e :: rest) = none := by
  have none' : alternative keys (e :: rest) = none := by
    have same : alternative keys ([] ++ e :: rest) = alternative keys [] :=
      alternative_stop (keys_closed closed)
    exact same.trans rfl
  rw [kvHead, none', Option.bind_none]

theorem bearerHead_closed (closed : isClosed e = true) : bearerHead u before (e :: rest) = none := by
  have none' : alternative [word "bearer"] (e :: rest) = none := by
    have same : alternative [word "bearer"] ([] ++ e :: rest) = alternative [word "bearer"] [] :=
      alternative_stop (bearer_closed closed)
    exact same.trans rfl
  rw [bearerHead, none', Option.bind_none, ite_self]

/-- What begins with whitespace goes on beginning with it. -/
theorem Opens.sub {p : Pattern CodePoint Text} (opens : Opens text)
    (miss : ∀ before e rest, isClosed e = true → p before (e :: rest) = none) :
    Opens (sub p before 0 text) := by
  cases text with
  | nil =>
    rw [Core.sub]
    rintro _ ⟨⟩
  | cons e rest =>
    rw [Core.sub, miss before e rest opens.stop.1]
    exact opens

theorem Opens.sub_before {p : Pattern CodePoint Text} (opens : Opens text)
    (miss : ∀ before e rest, isClosed e = true → p before (e :: rest) = none)
    (before before' : Option CodePoint) : Core.sub p before 0 text = Core.sub p before' 0 text := by
  cases text with
  | nil => rw [Core.sub, Core.sub]
  | cons e rest =>
    refine Core.sub_before ?_
    rw [miss before e rest opens.stop.1, miss before' e rest opens.stop.1]

/-- In front of whitespace that no separator follows, a solid text whose last character is none has the
values of its keys in it. -/
theorem kv_contained (solid : ∀ c ∈ run, isSolid c = true) (opens : Opens rest)
    (last : ∀ c ∈ run.getLast?, isSeparator c = false)
    (next : ∀ c ∈ (rest.dropWhile CodePoint.isSpace).head?, isSeparator c = false) :
    Contained kv run rest := by
  intro before part filled tail
  have inside : ∀ g ∈ kvHead part, g ≤ part.length := fun g found => kvHead_le found
  refine ⟨?_, fun m found => (run_le inside found).1⟩
  cases rest with
  | nil => rw [List.append_nil]
  | cons d more =>
    refine run_stop ?_ inside opens.stop.2
    have same : alternative keys (part ++ d :: more) = alternative keys part :=
      alternative_stop (keys_closed opens.stop.1)
    rw [kvHead, kvHead, same]
    cases key : alternative keys part with
    | none => rfl
    | some k =>
      rw [Option.bind_some, Option.bind_some, List.drop_append_of_le_length (alternative_le key)]
      dsimp only
      cases cut : part.drop k with
      | nil =>
        -- The text ends with a key, and no separator comes.
        have none' : ((d :: more).dropWhile CodePoint.isSpace).head?.any isSeparator = false := by
          cases first : ((d :: more).dropWhile CodePoint.isSpace).head? with
          | none => rfl
          | some c => exact next c first
        rw [List.nil_append, none']
        rfl
      | cons c after =>
        have among : ∀ b ∈ c :: after, b ∈ run := fun b member =>
          tail.subset (List.mem_of_mem_drop (cut ▸ member))
        have blank (b : CodePoint) (member : b ∈ c :: after) : b.isSpace = false := by
          simpa [isSolid] using solid b (among b member)
        have here := blank c (by simp)
        rw [List.cons_append, List.dropWhile_cons_of_neg (by simp [here]),
          List.dropWhile_cons_of_neg (by simp [here]), List.takeWhile_cons_of_neg (by simp [here]),
          List.takeWhile_cons_of_neg (by simp [here])]
        cases after with
        | nil =>
          -- The last character would be the separator.
          have end' : c ∈ run.getLast? := by
            obtain ⟨lead, rfl⟩ := tail
            have whole : part = part.take k ++ [c] := by rw [← cut, List.take_append_drop]
            rw [whole, ← List.append_assoc, List.getLast?_concat]
            rfl
          rw [List.head?_cons, List.head?_cons, Option.any_some, last c end']
          rfl
        | cons b after =>
          have stops := blank b (by simp)
          rw [List.head?_cons, List.head?_cons, List.tail_cons, List.tail_cons, List.cons_append,
            List.takeWhile_cons_of_neg (by simp [stops]), List.takeWhile_cons_of_neg (by simp [stops])]

theorem Calm.contained (calm : Calm post) (secret : IsSecret s) :
    Contained kv (s ++ post.takeWhile isSolid) (post.dropWhile isSolid) := by
  refine kv_contained ?_ (opens_dropWhile post) ?_ calm.next
  · intro c inside
    rcases List.mem_append.mp inside with here | behind
    · exact secret.solid' c here
    · exact List.mem_takeWhile_imp behind
  · intro c end'
    by_cases alone : post.takeWhile isSolid = []
    · rw [alone, List.append_nil] at end'
      exact secret.other c (List.mem_of_getLast? end')
    · rw [List.getLast?_append_of_ne_nil _ alone] at end'
      exact calm.last c end'

theorem mask_solid : ∀ c ∈ mask, isSolid c = true := by decide

/-- The word with the secret stays one word in the first two passes. -/
theorem kv_word (solid : ∀ c ∈ run, isSolid c = true) (filled : run ≠ []) :
    (∀ c ∈ sub kv none 0 run, isSolid c = true) ∧ sub kv none 0 run ≠ [] := by
  have stand {before : Option CodePoint} {part : Text} {m : ℕ × Text} (found : m ∈ kv before part) :
      ∃ g, m.2 = part.take g ++ mask :=
    (run_le (fun g found => kvHead_le found) found).2
  constructor
  · refine sub_forall solid fun before part tail m found c inside => ?_
    obtain ⟨g, eq⟩ := stand found
    rw [eq] at inside
    rcases List.mem_append.mp inside with key | masked
    · exact solid c (tail.subset (List.mem_of_mem_take key))
    · exact mask_solid c masked
  · refine sub_ne_nil filled fun m found => ?_
    obtain ⟨g, eq⟩ := stand found
    rw [eq]
    exact List.append_ne_nil_of_right_ne_nil _ (by decide)

theorem prefixed_word (before : Option CodePoint) (solid : ∀ c ∈ run, isSolid c = true) (filled : run ≠ []) :
    (∀ c ∈ sub (prefixed u) before 0 run, isSolid c = true) ∧ sub (prefixed u) before 0 run ≠ [] := by
  constructor
  · refine sub_forall solid fun before part _ m found c inside => ?_
    rw [(prefixed_le found).2] at inside
    exact mask_solid c inside
  · refine sub_ne_nil filled fun m found => ?_
    rw [(prefixed_le found).2]
    decide

/-- The second pass works apart on what is closed and on what follows. -/
theorem sub_prefixed (closed : EndsClosed left) (right : Text) :
    sub (prefixed u) none 0 (left ++ right) =
      sub (prefixed u) none 0 left ++ sub (prefixed u) left.getLast? 0 right := by
  have contained : Contained (prefixed u) left right := by
    intro before part filled tail
    obtain ⟨init, e, rfl, last⟩ := (closed.tail filled tail).split
    refine ⟨?_, fun m found => (prefixed_le found).1⟩
    rw [List.append_assoc, List.singleton_append, prefixed_stop (Bar.of_closed last),
      prefixed_stop (Bar.of_closed last)]
  rw [sub_append contained (Nat.zero_le _), Option.or_none]

theorem EndsClosed.prefixed (closed : EndsClosed left) :
    EndsClosed (Core.sub (Nelix.Daemon.prefixed u) none 0 left) := by
  obtain ⟨init, e, rfl, last⟩ := closed.split
  refine ⟨e, ?_, last⟩
  rw [sub_bar (prefixed_contained (Bar.of_closed last)) fun before => prefixed_bar (Bar.of_closed last),
    Core.sub, List.getLast?_concat]
  rfl

theorem EndsClosed.kv (closed : EndsClosed left) (free : kvTakes left = false) :
    EndsClosed (subBefore Nelix.Daemon.kv plus none 0 left) := by
  obtain ⟨e, last, closed'⟩ := closed
  refine ⟨e, ?_, closed'⟩
  have filled : 0 < left.length := by
    refine List.length_pos_iff.mpr fun empty => ?_
    rw [empty] at last
    cases last
  have blind : Blind (fun _ => kvHead) plus left [plus] := kvHead_blind ⟨e, last, closed'⟩ rfl rfl
  have kept : (subBefore Nelix.Daemon.kv plus none 0 left).getLast? = left.getLast? :=
    subBefore_last blind rfl filled free
  rw [kept]
  exact last

theorem prefixed_miss (before : Option CodePoint) (e : CodePoint) (rest : Text)
    (closed : isClosed e = true) : prefixed u before (e :: rest) = none :=
  prefixed_bar (Bar.of_closed closed)

theorem kv_miss (before : Option CodePoint) (e : CodePoint) (rest : Text)
    (closed : isClosed e = true) : kv before (e :: rest) = none := by
  rw [kv, runPattern, kvHead_closed closed, Option.bind_none]

theorem bearer_miss (before : Option CodePoint) (e : CodePoint) (rest : Text)
    (closed : isClosed e = true) : bearer u before (e :: rest) = none := by
  rw [bearer, runPattern, bearerHead_closed closed, Option.bind_none]

/-- What the third pass makes of a text that goes on with a solid character. -/
theorem sub_bearer_run (closed : EndsClosed left) (solid : x.isSpace = false) (rest : Text) :
    sub (bearer u) none 0 (left ++ x :: rest) = subBefore (bearer u) plus none 0 left ++
      if takes (bearer u) plus none 0 left then
        sub (bearer u) ((x :: rest).takeWhile isSolid).getLast? 0 ((x :: rest).dropWhile isSolid)
      else sub (bearer u) (left.getLast?.or none) 0 (x :: rest) := by
  have front : (x :: rest).takeWhile isSolid ≠ [] := by
    rw [List.takeWhile_cons_of_pos (by simp [isSolid, solid])]
    exact List.cons_ne_nil _ _
  exact sub_run (bearerHead_blind closed solid) rfl front (Nat.zero_le _)

/-- The token of the scheme is taken with the word that it is in, so that what is put out does not depend
on it. -/
theorem sub_bearer (closed : EndsClosed left) (free : kvTakes left = false)
    (taken : bearerTakes u left = true) (calm : Calm post) (secret : IsSecret s) :
    sub (bearer u) none 0 (sub (prefixed u) none 0 (sub kv none 0 (left ++ (s ++ post)))) =
      subBefore (bearer u) plus none 0 (sub (prefixed u) none 0 (subBefore kv plus none 0 left)) ++
        sub (bearer u) none 0 (sub (prefixed u) none 0 (sub kv none 0 (post.dropWhile isSolid))) := by
  have closed' := closed.kv free
  rw [bearerTakes] at taken
  -- The first pass cuts the text behind the word with the secret.
  have cut : s ++ post = (s ++ post.takeWhile isSolid) ++ post.dropWhile isSolid := by
    rw [List.append_assoc, List.takeWhile_append_dropWhile]
  have solid : ∀ c ∈ s ++ post.takeWhile isSolid, isSolid c = true := by
    intro c inside
    rcases List.mem_append.mp inside with here | behind
    · exact secret.solid' c here
    · exact List.mem_takeWhile_imp behind
  have first : sub kv none 0 (left ++ (s ++ post)) = subBefore kv plus none 0 left ++
      (sub kv none 0 (s ++ post.takeWhile isSolid) ++ sub kv none 0 (post.dropWhile isSolid)) := by
    rw [sub_kv closed secret, if_neg (by simp [free]), cut,
      sub_append (calm.contained secret) (Nat.zero_le _), kv_before ((s ++ post.takeWhile isSolid).getLast?.or none) none]
  obtain ⟨word', filled⟩ := kv_word solid (List.append_ne_nil_of_left_ne_nil secret.filled _)
  generalize sub kv none 0 (s ++ post.takeWhile isSolid) = run at first word' filled
  have opens : Opens (sub kv none 0 (post.dropWhile isSolid)) := (opens_dropWhile post).sub kv_miss
  generalize sub kv none 0 (post.dropWhile isSolid) = rest at first opens ⊢
  generalize subBefore kv plus none 0 left = out at first closed' taken ⊢
  -- So does the second.
  have contained : Contained (prefixed u) run rest := by
    cases rest with
    | nil =>
      intro before part _ _
      exact ⟨by rw [List.append_nil], fun m found => (prefixed_le found).1⟩
    | cons d more => exact prefixed_contained (Bar.of_closed opens.stop.1)
  have second : sub (prefixed u) none 0 (out ++ (run ++ rest)) = sub (prefixed u) none 0 out ++
      (sub (prefixed u) out.getLast? 0 run ++ sub (prefixed u) none 0 rest) := by
    rw [sub_prefixed closed', sub_append contained (Nat.zero_le _),
      opens.sub_before prefixed_miss _ none]
  obtain ⟨word'', filled'⟩ := prefixed_word (u := u) out.getLast? word' filled
  have opens' : Opens (sub (prefixed u) none 0 rest) := opens.sub prefixed_miss
  rw [first, second]
  generalize sub (prefixed u) out.getLast? 0 run = run' at word'' filled'
  generalize sub (prefixed u) none 0 rest = rest' at opens' ⊢
  -- The third takes the word from its first character on.
  obtain ⟨x, more, rfl⟩ := List.exists_cons_of_ne_nil filled'
  have start : x.isSpace = false := by simpa [isSolid] using word'' x (by simp)
  have behind : (x :: (more ++ rest')).dropWhile isSolid = rest' := by
    rw [← List.cons_append, List.dropWhile_append_of_pos word'']
    cases rest' with
    | nil => rfl
    | cons d tail => exact List.dropWhile_cons_of_neg (by simp [opens'.stop.2])
  rw [List.cons_append, sub_bearer_run closed'.prefixed start, if_pos taken, behind,
    opens'.sub_before bearer_miss _ none]

theorem hides_of_bearer (closed : EndsClosed left) (free : kvTakes left = false)
    (taken : bearerTakes u left = true) (calm : Calm post) : Hides u left post := by
  intro s s' secret secret'
  rw [redact, redact, List.append_assoc, List.append_assoc, sub_bearer closed free taken calm secret,
    sub_bearer closed free taken calm secret']

/-! ### What shows -/

/-- A secret of one character that no pattern knows. -/
structure Blunt (u : Unicode) (x : CodePoint) : Prop where
  secret : IsSecret [x]
  bar : Bar u x
  keys : ∀ w ∈ keys, ∀ q ∈ w, q x = false
  scheme : ∀ w ∈ [word "bearer"], ∀ q ∈ w, q x = false

theorem Blunt.kv (blunt : Blunt u x) (post : Text) :
    Core.sub Nelix.Daemon.kv none 0 ([x] ++ post) = x :: Core.sub Nelix.Daemon.kv none 0 post := by
  have none' : alternative Nelix.Daemon.keys ([] ++ x :: post) = alternative Nelix.Daemon.keys [] :=
    alternative_stop blunt.keys
  have miss : Nelix.Daemon.kv none (x :: post) = none := by
    rw [Nelix.Daemon.kv, runPattern, kvHead, ← List.nil_append (x :: post), none']
    rfl
  rw [List.singleton_append, Core.sub, miss]
  exact congrArg _ (kv_before ..)

theorem Blunt.begins (blunt : Blunt u x) : wordBegins u (some x) = wordBegins u none := by
  rw [wordBegins, wordBegins, Option.all_some, blunt.bar.word]
  rfl

theorem Blunt.prefixed (blunt : Blunt u x) (text : Text) :
    Core.sub (Nelix.Daemon.prefixed u) before 0 (x :: text) =
      x :: Core.sub (Nelix.Daemon.prefixed u) none 0 text := by
  rw [Core.sub, prefixed_bar blunt.bar]
  have same : Nelix.Daemon.prefixed u (some x) text = Nelix.Daemon.prefixed u none text := by
    rw [Nelix.Daemon.prefixed, Nelix.Daemon.prefixed, blunt.begins]
  exact congrArg _ (Core.sub_before same)

theorem Blunt.bearer (blunt : Blunt u x) (text : Text) :
    Core.sub (Nelix.Daemon.bearer u) before 0 (x :: text) =
      x :: Core.sub (Nelix.Daemon.bearer u) none 0 text := by
  have none' : alternative [word "bearer"] ([] ++ x :: text) = alternative [word "bearer"] [] :=
    alternative_stop blunt.scheme
  have miss : Nelix.Daemon.bearer u before (x :: text) = none := by
    rw [Nelix.Daemon.bearer, runPattern, bearerHead, ← List.nil_append (x :: text), none']
    exact congrArg (Option.bind · _) (ite_self _)
  have same : Nelix.Daemon.bearer u (some x) text = Nelix.Daemon.bearer u none text := by
    rw [Nelix.Daemon.bearer, runPattern, runPattern, bearerHead, bearerHead, blunt.begins]
  rw [Core.sub, miss]
  exact congrArg _ (Core.sub_before same)

theorem Blunt.longtok (blunt : Blunt u x) (front back : Text) :
    Core.sub (Nelix.Daemon.longtok u) none 0 (Core.sub longtokSep none 0 (front ++ x :: back)) =
      Core.sub (Nelix.Daemon.longtok u) none 0 (Core.sub longtokSep none 0 front) ++
        x :: Core.sub (Nelix.Daemon.longtok u) none 0 (Core.sub longtokSep none 0 back) := by
  have blind : Core.sub longtokSep (some x) 0 back = Core.sub longtokSep none 0 back := Core.sub_before rfl
  rw [sub_bar (longtokSep_contained blunt.bar) fun _ => longtokSep_bar blunt.bar, blind,
    sub_bar (longtok_contained blunt.bar) fun _ => longtok_bar blunt.bar]
  have same : Nelix.Daemon.longtok u (some x) (Core.sub longtokSep none 0 back) =
      Nelix.Daemon.longtok u none (Core.sub longtokSep none 0 back) := by
    rw [Nelix.Daemon.longtok, Nelix.Daemon.longtok, blunt.begins]
  rw [Core.sub_before same]

/-- A secret that no pattern takes stays where it is, and what is around it does not depend on it. -/
theorem redact_blunt (closed : EndsClosed left) (free : kvTakes left = false)
    (free' : bearerTakes u left = false) (post : Text) :
    ∃ front back, ∀ x, Blunt u x → redact u (left ++ [x] ++ post) = front ++ x :: back := by
  refine ⟨sub (longtok u) none 0 (sub longtokSep none 0 (subBefore (bearer u) plus none 0
      (sub (prefixed u) none 0 (subBefore kv plus none 0 left)))),
    sub (longtok u) none 0 (sub longtokSep none 0 (sub (bearer u) none 0
      (sub (prefixed u) none 0 (sub kv none 0 post)))), fun x blunt => ?_⟩
  rw [redact, List.append_assoc, sub_kv closed blunt.secret, if_neg (by simp [free]), blunt.kv,
    sub_prefixed (closed.kv free), blunt.prefixed,
    sub_bearer_run (closed.kv free).prefixed (blunt.secret.solid x (by simp)),
    if_neg (by rw [← bearerTakes, free']; simp), blunt.bearer, blunt.longtok]

theorem blunt_plus (u : Unicode) : Blunt u plus where
  secret := ⟨by decide, by decide, by decide⟩
  bar := ⟨u.word_ascii _ (by decide), by decide, by decide⟩
  keys := by decide +kernel
  scheme := by decide +kernel

theorem blunt_slash (u : Unicode) : Blunt u (.char '/') where
  secret := ⟨by decide, by decide, by decide⟩
  bar := ⟨u.word_ascii _ (by decide), by decide, by decide⟩
  keys := by decide +kernel
  scheme := by decide +kernel

theorem taken_of_hides (closed : EndsClosed left) (hides : Hides u left post) :
    kvTakes left = true ∨ bearerTakes u left = true := by
  by_contra free
  obtain ⟨free, free'⟩ := not_or.mp free
  obtain ⟨front, back, shows⟩ := redact_blunt closed (Bool.eq_false_of_not_eq_true free)
    (Bool.eq_false_of_not_eq_true free') post
  have same := hides [plus] [.char '/'] (blunt_plus u).secret (blunt_slash u).secret
  rw [shows _ (blunt_plus u), shows _ (blunt_slash u)] at same
  have eq := (List.cons.inj (List.append_cancel_left same)).1
  cases eq

/-! ### Keys without whitespace -/

theorem startsWith_all (found : startsWith classes text = true) (whole : classes.length = text.length) :
    ∀ c ∈ text, ∃ q ∈ classes, q c = true := by
  induction classes generalizing text with
  | nil =>
    obtain rfl := List.eq_nil_of_length_eq_zero whole.symm
    exact nofun
  | cons q classes ih =>
    cases text with
    | nil => cases whole
    | cons d text =>
      rw [startsWith, Bool.and_eq_true] at found
      intro c inside
      rcases List.mem_cons.mp inside with rfl | later
      · exact ⟨q, by simp, found.1⟩
      · obtain ⟨q', among, yes⟩ := ih found.2 (Nat.succ.inj whole) c later
        exact ⟨q', List.mem_cons_of_mem _ among, yes⟩

theorem key_solid {name : Text} (key : alternative keys name = some name.length) :
    ∀ c ∈ name, isSolid c = true := by
  obtain ⟨w, found, whole⟩ := Option.map_eq_some_iff.mp key
  have starts := List.find?_some found
  intro c inside
  obtain ⟨q, among, yes⟩ := startsWith_all starts whole c inside
  by_contra space
  have closed : isClosed c = true := by
    rw [isClosed, show c.isSpace = true by simpa [isSolid] using space, Bool.true_or]
  rw [keys_closed closed w (List.mem_of_find?_eq_some found) q among] at yes
  cases yes

/-- The value of a key that is written without whitespace is always taken, whatever stands before. -/
theorem kvTakes_key {name : Text} (key : alternative keys name = some name.length)
    (separator : isSeparator x = true) (pre : Text) : kvTakes (pre ++ (name ++ [x])) = true := by
  have closed : isClosed x = true := by rw [isClosed, separator, Bool.or_true]
  have other : x.isSpace = false := separator_solid separator
  have solid : ∀ c ∈ name ++ [x], isSolid c = true := by
    intro c inside
    rcases List.mem_append.mp inside with here | last
    · exact key_solid key c here
    · obtain rfl := List.mem_singleton.mp last
      rw [isSolid, other, Bool.not_false]
  have head : kvHead (name ++ [x] ++ [plus]) = some (name ++ [x]).length := by
    rw [List.append_assoc, List.singleton_append, kvHead, alternative_stop (keys_closed closed), key, Option.bind_some, List.drop_left]
    dsimp only
    rw [List.takeWhile_cons_of_neg (by simp [other]), List.dropWhile_cons_of_neg (by simp [other]),
      List.head?_cons, Option.any_some, if_pos separator, List.tail_cons, List.length_append]
    rfl
  refine takes_behind rfl solid (fun before => ?_) (kvHead_blind ⟨x, by simp, closed⟩ rfl rfl)
    (Nat.zero_le _)
  have run : [plus].takeWhile isSolid = [plus] := by decide
  have hit : kv before (name ++ [x] ++ [plus]) =
      some ((name ++ [x]).length + 1, (name ++ [x]).take (name ++ [x]).length ++ mask) :=
    run_over head le_rfl (by simp) (by rw [run]; exact List.cons_ne_nil _ _)
  obtain ⟨c, more, cut⟩ : ∃ c more, name ++ [x] = c :: more :=
    List.exists_cons_of_ne_nil (List.append_ne_nil_of_right_ne_nil _ (List.cons_ne_nil _ _))
  rw [cut] at hit ⊢
  rw [kv] at hit
  rw [takes, hit]
  exact takes_over (n := 0)

/-! ### The header of a scheme -/

theorem kvHead_tail (found : kvHead text = some g) :
    ∃ front c blanks, text.take g = front ++ c :: blanks ∧ isSeparator c = true ∧ Text.Spaces blanks := by
  obtain ⟨k, key, found⟩ := Option.bind_eq_some_iff.mp found
  have whole : text.drop k = (text.drop k).takeWhile CodePoint.isSpace ++
      (text.drop k).dropWhile CodePoint.isSpace := List.takeWhile_append_dropWhile.symm
  have inside := alternative_le key
  dsimp only at found
  split at found
  next sep =>
    cases behind : (text.drop k).dropWhile CodePoint.isSpace with
    | nil =>
      rw [behind] at sep
      cases sep
    | cons c more =>
      rw [behind] at found sep whole
      cases found
      refine ⟨text.take k ++ (text.drop k).takeWhile CodePoint.isSpace, c,
        more.takeWhile CodePoint.isSpace, ?_, by simpa using sep, fun b => List.mem_takeWhile_imp⟩
      have cut : text = text.take k ++ (text.drop k).takeWhile CodePoint.isSpace ++
          c :: more.takeWhile CodePoint.isSpace ++ more.dropWhile CodePoint.isSpace := by
        conv_lhs => rw [← List.take_append_drop k text, whole]
        simp [List.takeWhile_append_dropWhile]
      have size : k + ((text.drop k).takeWhile CodePoint.isSpace).length + 1 +
          ((c :: more).tail.takeWhile CodePoint.isSpace).length =
          (text.take k ++ (text.drop k).takeWhile CodePoint.isSpace ++
            c :: more.takeWhile CodePoint.isSpace).length := by
        simp only [List.length_append, List.length_cons, List.length_take, List.tail_cons]
        omega
      rw [size]
      exact (congrArg (List.take _) cut).trans List.take_left
  next => cases found

/-- No value of a key begins with what follows a word and whitespace. -/
theorem kvTakes_gap {gap : Text} (solid : x.isSpace = false) (other : isSeparator x = false)
    (spaced : Text.Spaces gap) (filled : gap ≠ []) : kvTakes (left ++ x :: gap) = false := by
  have last {part : Text} (some' : part ≠ []) (tail : part <:+ left ++ x :: gap) :
      ∃ init e, part = init ++ [e] ∧ e.isSpace = true := by
    obtain ⟨lead, whole⟩ := tail
    obtain ⟨init, e, rfl⟩ := (List.eq_nil_or_concat part).resolve_left some'
    refine ⟨init, e, by simp, ?_⟩
    have ends := congrArg List.getLast? whole
    rw [List.getLast?_append_of_ne_nil _ some', List.concat_eq_append, List.getLast?_concat,
      List.getLast?_append_of_ne_nil _ (List.cons_ne_nil _ _), List.getLast?_cons] at ends
    obtain ⟨init', e', rfl⟩ := (List.eq_nil_or_concat gap).resolve_left filled
    rw [List.concat_eq_append, List.getLast?_concat, Option.getD_some] at ends
    cases ends
    exact spaced e (by simp)
  refine takes_false (fun before part some' tail m found => ?_) (Nat.zero_le _)
  obtain ⟨init, e, rfl, space⟩ := last some' tail
  have closed : EndsClosed (init ++ [e]) := ⟨e, by simp, by rw [isClosed, space, Bool.true_or]⟩
  have same : kvHead (init ++ [e] ++ [plus]) = kvHead (init ++ [e]) :=
    kvHead_stop (closed.alternative_eq (fun _ => keys_closed) _) rfl rfl
  rw [kv] at found
  cases here : kvHead (init ++ [e] ++ [plus]) with
  | none =>
    rw [runPattern, here] at found
    cases found
  | some g =>
    have key := same.symm.trans here
    have reach := kvHead_le key
    have stops : ∃ c ∈ (init ++ [e]).drop g, isSolid c = false := by
      by_contra all
      -- The first group would end with the whitespace, and so behind a separator.
      have whole : g = (init ++ [e]).length := by
        by_contra short
        refine all ⟨e, ?_, by rw [isSolid, space]; rfl⟩
        rw [List.length_append, List.length_singleton] at reach short
        rw [List.drop_append_of_le_length (by omega)]
        simp
      obtain ⟨front, c, blanks, cut, separator, spaced'⟩ := kvHead_tail key
      obtain ⟨lead, whole'⟩ := tail
      rw [whole, List.take_length] at cut
      rw [cut, ← List.append_assoc] at whole'
      have ends := congrArg Text.rstrip whole'
      rw [Text.rstrip_spaces spaced' (separator_solid separator), Text.rstrip_spaces spaced solid] at ends
      have eq := (List.append_inj' ends rfl).2
      cases eq
      rw [other] at separator
      cases separator
    have within : runPattern isSolid (fun _ => kvHead) (· ++ mask) before (init ++ [e] ++ [plus]) =
          (if (((init ++ [e]).drop g).takeWhile isSolid).isEmpty then none
          else some (g + (((init ++ [e]).drop g).takeWhile isSolid).length,
            (init ++ [e]).take g ++ mask)) ∧
        g + (((init ++ [e]).drop g).takeWhile isSolid).length < (init ++ [e]).length :=
      run_within _ here reach stops
    rw [within.1] at found
    split at found
    · cases found
    · cases found
      exact within.2.le

/-- Nor does the value of a key reach the token behind a header. -/
theorem kvTakes_header {scheme gap : Text} (named : alternative [word "bearer"] scheme = some scheme.length)
    (spaced : Text.Spaces gap) (filled : gap ≠ []) :
    kvTakes (left ++ scheme ++ gap) = false := by
  obtain ⟨w, found, whole⟩ := Option.map_eq_some_iff.mp named
  have starts := List.find?_some found
  have filled' : scheme ≠ [] := by
    rintro rfl
    rw [List.mem_singleton.mp (List.mem_of_find?_eq_some found)] at whole
    cases whole
  obtain ⟨init, x, rfl⟩ := (List.eq_nil_or_concat scheme).resolve_left filled'
  obtain ⟨q, among, yes⟩ := startsWith_all starts whole x (by simp)
  have open' : isClosed x = false := by
    by_contra closed
    rw [bearer_closed (Bool.eq_true_of_not_eq_false closed) w (List.mem_of_find?_eq_some found) q among] at yes
    cases yes
  rw [isClosed, Bool.or_eq_false_iff] at open'
  rw [List.concat_eq_append, List.append_assoc, List.append_assoc, List.singleton_append,
    ← List.append_assoc]
  exact kvTakes_gap open'.1 open'.2 spaced filled

/-! ### Secrets -/

/-- Which secret stands behind a marker does not show when the value of a key reaches it, or the token
of a scheme in a calm text; and when neither reaches it, it shows. -/
theorem redact_hides {marker : Text} (aimed : Aimed marker) (pre post : Text) :
    (kvTakes (pre ++ marker) = true ∨ bearerTakes u (pre ++ marker) = true ∧ Calm post →
      Hides u (pre ++ marker) post) ∧
    (Hides u (pre ++ marker) post →
      kvTakes (pre ++ marker) = true ∨ bearerTakes u (pre ++ marker) = true) := by
  have closed : EndsClosed (pre ++ marker) := aimed.closed
  constructor
  · rintro (taken | ⟨taken, calm⟩)
    · exact hides_of_kv closed taken
    · cases first : kvTakes (pre ++ marker) with
      | true => exact hides_of_kv closed first
      | false => exact hides_of_bearer closed first taken calm
  · exact taken_of_hides closed

/-- The value of a key. -/
theorem redact_hides_key : Hides .ascii (Text.ofString "token=") (Text.ofString " ok") := by
  have aimed : Aimed (Text.ofString "token" ++ [] ++ [.char '='] ++ []) :=
    .key (by decide +kernel) nofun (by decide) nofun
  exact (redact_hides aimed [] (Text.ofString " ok")).1 (.inl (by decide +kernel))

/-- The first pass takes the name of the scheme for the value of the header, so that the third does not
find it; a short token is written out. -/
theorem redact_header :
    ∃ s s', IsSecret s ∧ IsSecret s' ∧
      Aimed (Text.ofString "Authorization" ++ [] ++ [.char ':'] ++ Text.ofString " " ++ Text.ofString "Bearer" ++
        Text.ofString " ") ∧
      redact .ascii (Text.ofString "Authorization: Bearer " ++ s) = Text.ofString "Authorization: *** tok1" ∧
      redact .ascii (Text.ofString "Authorization: Bearer " ++ s') = Text.ofString "Authorization: *** tok2" :=
  ⟨Text.ofString "tok1", Text.ofString "tok2", ⟨by decide +kernel, by decide +kernel, by decide +kernel⟩,
    ⟨by decide +kernel, by decide +kernel, by decide +kernel⟩,
    .header (by decide +kernel) nofun (by decide +kernel) (by decide +kernel) (by decide +kernel)
      (by decide +kernel), by decide +kernel, by decide +kernel⟩

end

end Nelix.Daemon
