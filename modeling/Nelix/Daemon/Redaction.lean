import Nelix.Core.Patterns

/-!
# Redaction

What the log masks in a text: the values of sensitive keys, tokens with a known beginning, what follows
the word Bearer, and long tokens.

## Main results

`kvHead_blind`, `bearerHead_blind`: the head of a match in front of whitespace or of a separator does not
depend on what follows.

`prefixed_contained`, `longtokSep_contained`, `longtok_contained`: no token reaches over a bar.
-/
namespace Nelix.Daemon

open Core

/-! ### The patterns -/

/-- The characters that match a small letter, a hyphen or an underscore under `re.I`. -/
def caseVariants (l : Char) : List Char :=
  l :: l.toUpper :: match l with
    | 'i' => ['\u0130', '\u0131']
    | 's' => ['\u017f']
    | 'k' => ['\u212a']
    | _ => []

def foldsTo (l : Char) : CodePoint → Bool
  | .char c => (caseVariants l).contains c
  | _ => false

/-- The text begins with characters of these classes. -/
def startsWith : List (CodePoint → Bool) → Text → Bool
  | [], _ => true
  | q :: classes, c :: text => q c && startsWith classes text
  | _ :: _, [] => false

/-- A word without regard to case. -/
def word (w : String) : List (CodePoint → Bool) := w.toList.map foldsTo

/-- A word as it is written. -/
def exactly (w : String) : List (CodePoint → Bool) := w.toList.map fun l c => c = .char l

def mask : Text := .ofString "***"

def isSolid (c : CodePoint) : Bool := !c.isSpace

/-- `api[_-]?key|token|secret|password|authorization` -/
def keys : List (List (CodePoint → Bool)) :=
  [word "apikey", word "api_key", word "api-key", word "token", word "secret", word "password",
    word "authorization"]

/-- How long the alternative is that the text begins with. None of them begins with another. -/
def alternative (words : List (List (CodePoint → Bool))) (text : Text) : Option ℕ :=
  (words.find? (startsWith · text)).map List.length

/-- `[=:]` -/
def isSeparator (c : CodePoint) : Bool := c = .char '=' || c = .char ':'

/-- How long the first group of `_KV` is. -/
def kvHead (text : Text) : Option ℕ :=
  (alternative keys text).bind fun k =>
    let rest := text.drop k
    let sep := rest.dropWhile CodePoint.isSpace
    if sep.head?.any isSeparator then
      some (k + (rest.takeWhile CodePoint.isSpace).length + 1 +
        (sep.tail.takeWhile CodePoint.isSpace).length)
    else none

/-- `_KV`, with the first group and the mask in place of the match. -/
def kv : Pattern CodePoint Text := runPattern isSolid (fun _ => kvHead) (· ++ mask)

section
variable (u : Unicode)

/-- `\b` before a character of a word. -/
def wordBegins (before : Option CodePoint) : Bool := before.all (!u.word ·)

def isAsciiAlnum : CodePoint → Bool
  | .char c => c.toNat < 128 && c.isAlphanum
  | _ => false

/-- `[A-Za-z0-9._\-]` -/
def isPrefixedChar (c : CodePoint) : Bool :=
  isAsciiAlnum c || c = .char '.' || c = .char '_' || c = .char '-'

def isLower : CodePoint → Bool
  | .char c => c.isLower
  | _ => false

/-- `sk-|ghp_|gho_|ghs_|xox[a-z]-|AKIA|ASIA|eyJ` -/
def knownBeginnings : List (List (CodePoint → Bool)) :=
  [exactly "sk-", exactly "ghp_", exactly "gho_", exactly "ghs_",
    exactly "xox" ++ [isLower] ++ exactly "-", exactly "AKIA", exactly "ASIA", exactly "eyJ"]

/-- `_PREFIXED` -/
def prefixed : Pattern CodePoint Text := fun before text =>
  if wordBegins u before then
    (alternative knownBeginnings text).bind fun k =>
      let run := (text.drop k).takeWhile isPrefixedChar
      if run.isEmpty then none else some (k + run.length, mask)
  else none

/-- How long `\bbearer\s+` is. -/
def bearerHead (before : Option CodePoint) (text : Text) : Option ℕ :=
  if wordBegins u before then
    (alternative [word "bearer"] text).bind fun k =>
      let blanks := (text.drop k).takeWhile CodePoint.isSpace
      if blanks.isEmpty then none else some (k + blanks.length)
  else none

/-- `_BEARER` -/
def bearer : Pattern CodePoint Text := runPattern isSolid (bearerHead u) fun _ => Text.ofString "Bearer ***"

/-- `[A-Za-z0-9_-]` -/
def isTokenChar (c : CodePoint) : Bool :=
  isAsciiAlnum c || c = .char '_' || c = .char '-'

/-- `_mask_if_opaque` -/
def maskIfOpaque (tok : Text) : Text :=
  let has (q : Char → Bool) := tok.any fun
    | .char c => q c
    | _ => false
  if has Char.isDigit && has Char.isUpper && has Char.isLower then mask else tok

/-- `_LONGTOK_SEP` -/
def longtokSep : Pattern CodePoint Text := fun _ text =>
  let run := text.takeWhile isTokenChar
  if 32 ≤ run.length then some (run.length, maskIfOpaque run) else none

/-- `_LONGTOK` -/
def longtok : Pattern CodePoint Text := fun before text =>
  let run := text.takeWhile isAsciiAlnum
  if wordBegins u before ∧ 32 ≤ run.length ∧ (text.dropWhile isAsciiAlnum).head?.all (!u.word ·) then
    some (run.length, mask)
  else none

def redact (text : Text) : Text :=
  let s := sub kv none 0 text
  let s := sub (prefixed u) none 0 s
  let s := sub (bearer u) none 0 s
  let s := sub longtokSep none 0 s
  sub (longtok u) none 0 s

end

/-! ### Words and classes -/

section
variable {u : Unicode} {classes : List (CodePoint → Bool)} {words : List (List (CodePoint → Bool))}
  {text part left right rest post more run : Text} {bar x e : CodePoint} {k g n : ℕ}
  {before : Option CodePoint}

theorem startsWith_stop (stops : ∀ q ∈ classes, q bar = false) :
    startsWith classes (part ++ bar :: rest) = startsWith classes part := by
  induction classes generalizing part with
  | nil => rw [startsWith, startsWith]
  | cons q classes ih =>
    cases part with
    | nil => rw [List.nil_append, startsWith, stops q (by simp), Bool.false_and, startsWith]
    | cons c part =>
      rw [List.cons_append, startsWith, startsWith, ih fun q inside => stops q (by simp [inside])]

theorem startsWith_le (found : startsWith classes text = true) : classes.length ≤ text.length := by
  induction classes generalizing text with
  | nil => exact Nat.zero_le _
  | cons q classes ih =>
    cases text with
    | nil => cases found
    | cons c text =>
      rw [startsWith, Bool.and_eq_true] at found
      exact Nat.succ_le_succ (ih found.2)

theorem alternative_stop (stops : ∀ w ∈ words, ∀ q ∈ w, q bar = false) :
    alternative words (part ++ bar :: rest) = alternative words part := by
  rw [alternative, alternative]
  congr 1
  induction words with
  | nil => rfl
  | cons w words ih =>
    rw [List.find?_cons, List.find?_cons, startsWith_stop (stops w (by simp)),
      ih fun w inside => stops w (by simp [inside])]

theorem alternative_le (found : alternative words text = some k) : k ≤ text.length := by
  obtain ⟨w, here, rfl⟩ := Option.map_eq_some_iff.mp found
  have starts := List.find?_some here
  exact startsWith_le starts

theorem isSeparator_iff : isSeparator e = true ↔ e = .char '=' ∨ e = .char ':' := by
  rw [isSeparator, Bool.or_eq_true, decide_eq_true_eq, decide_eq_true_eq]

theorem separator_solid (separator : isSeparator e = true) : e.isSpace = false := by
  rcases isSeparator_iff.mp separator with rfl | rfl <;> rfl

/-- Whitespace or a separator. -/
def isClosed (c : CodePoint) : Bool := c.isSpace || isSeparator c

/-- No letter of a key is whitespace or a separator, whatever its case. -/
theorem word_closed {w : String}
    (letters : w.toList.all ("abcdefghijklmnopqrstuvwxyz_-".toList.contains ·) = true)
    (closed : isClosed e = true) : ∀ q ∈ word w, q e = false := by
  have each : "abcdefghijklmnopqrstuvwxyz_-".toList.all (fun l =>
      (caseVariants l).all fun c => !isClosed (.char c)) = true := by decide +kernel
  intro q inside
  obtain ⟨l, letter, rfl⟩ := List.mem_map.mp inside
  cases e with
  | char c =>
    by_contra folds
    have among : c ∈ caseVariants l :=
      List.contains_iff_mem.mp (Bool.eq_true_of_not_eq_false folds)
    have known := List.contains_iff_mem.mp (List.all_eq_true.mp letters l letter)
    have opened := List.all_eq_true.mp (List.all_eq_true.mp each l known) c among
    rw [closed] at opened
    cases opened
  | high _ => rfl
  | low _ => rfl

theorem keys_closed (closed : isClosed e = true) : ∀ w ∈ keys, ∀ q ∈ w, q e = false := by
  intro w inside
  simp only [keys, List.mem_cons, List.not_mem_nil, or_false] at inside
  rcases inside with rfl | rfl | rfl | rfl | rfl | rfl | rfl
  all_goals exact word_closed (by decide) closed

theorem bearer_closed (closed : isClosed e = true) : ∀ w ∈ [word "bearer"], ∀ q ∈ w, q e = false := by
  intro w inside
  obtain rfl := List.mem_singleton.mp inside
  exact word_closed (by decide) closed

/-! ### Heads -/

/-- The text ends with whitespace or a separator. -/
def EndsClosed (text : Text) : Prop := ∃ e ∈ text.getLast?, isClosed e = true

theorem EndsClosed.split (closed : EndsClosed text) :
    ∃ init e, text = init ++ [e] ∧ isClosed e = true := by
  obtain ⟨e, last, closed⟩ := closed
  obtain ⟨init, rfl⟩ := List.getLast?_eq_some_iff.mp last
  exact ⟨init, e, rfl, closed⟩

theorem EndsClosed.tail (closed : EndsClosed text) (filled : part ≠ []) (suffix : part <:+ text) :
    EndsClosed part := by
  obtain ⟨e, last, closed⟩ := closed
  obtain ⟨lead, rfl⟩ := suffix
  rw [List.getLast?_append_of_ne_nil _ filled] at last
  exact ⟨e, last, closed⟩

/-- A word in front of the closed end does not go on behind it. -/
theorem EndsClosed.alternative_eq (closed : EndsClosed part)
    (stops : ∀ e, isClosed e = true → ∀ w ∈ words, ∀ q ∈ w, q e = false) (rest : Text) :
    alternative words (part ++ rest) = alternative words part := by
  obtain ⟨init, e, rfl, last⟩ := closed.split
  rw [List.append_assoc, List.singleton_append, alternative_stop (stops e last),
    alternative_stop (stops e last)]

/-- A key with its separator does not go on with a solid character. -/
theorem kvHead_stop (same : alternative keys (part ++ x :: rest) = alternative keys part)
    (solid : x.isSpace = false) (other : isSeparator x = false) :
    kvHead (part ++ x :: rest) = kvHead part := by
  rw [kvHead, kvHead, same]
  cases key : alternative keys part with
  | none => rfl
  | some k =>
    rw [Option.bind_some, Option.bind_some, List.drop_append_of_le_length (alternative_le key)]
    dsimp only
    rw [takeWhile_stop solid, dropWhile_stop solid]
    cases (part.drop k).dropWhile CodePoint.isSpace with
    | nil => simp [other]
    | cons c sep =>
      rw [List.cons_append, List.head?_cons, List.head?_cons, List.tail_cons, List.tail_cons,
        takeWhile_stop solid]

theorem kvHead_le (found : kvHead text = some g) : g ≤ text.length := by
  obtain ⟨k, key, found⟩ := Option.bind_eq_some_iff.mp found
  have inside := alternative_le key
  have whole := congrArg List.length
    (List.takeWhile_append_dropWhile (p := CodePoint.isSpace) (l := text.drop k))
  rw [List.length_append, List.length_drop] at whole
  dsimp only at found
  split at found
  next sep =>
    cases behind : (text.drop k).dropWhile CodePoint.isSpace with
    | nil =>
      rw [behind] at sep
      cases sep
    | cons c more =>
      rw [behind] at found whole
      cases found
      have blanks : (more.takeWhile CodePoint.isSpace).length ≤ more.length :=
        (List.takeWhile_prefix _).length_le
      rw [List.length_cons] at whole
      rw [List.tail_cons]
      omega
  next => cases found

def plus : CodePoint := .char '+'

theorem kvHead_blind (closed : EndsClosed left) (solid : x.isSpace = false)
    (other : isSeparator x = false) : Blind (fun _ => kvHead) plus left (x :: rest) := by
  intro before part filled tail
  have ends := closed.tail filled tail
  have same (x : CodePoint) (rest : Text) (solid : x.isSpace = false) (other : isSeparator x = false) :
      kvHead (part ++ x :: rest) = kvHead part :=
    kvHead_stop (ends.alternative_eq (fun _ => keys_closed) _) solid other
  dsimp only
  rw [same x rest solid other, same plus [] rfl rfl]
  exact ⟨rfl, fun n found => kvHead_le found⟩

theorem bearerHead_blind (closed : EndsClosed left) (solid : x.isSpace = false) :
    Blind (bearerHead u) plus left (x :: rest) := by
  intro before part filled tail
  have ends := closed.tail filled tail
  have same (x : CodePoint) (rest : Text) (solid : x.isSpace = false) :
      bearerHead u before (part ++ x :: rest) = bearerHead u before part := by
    rw [bearerHead, bearerHead, ends.alternative_eq (fun _ => bearer_closed)]
    cases word' : alternative [word "bearer"] part with
    | none => rfl
    | some k =>
      rw [Option.bind_some, Option.bind_some, List.drop_append_of_le_length (alternative_le word')]
      dsimp only
      rw [takeWhile_stop solid]
  rw [same x rest solid, same plus [] rfl]
  refine ⟨rfl, fun n found => ?_⟩
  rw [bearerHead] at found
  split at found
  next =>
    obtain ⟨k, word', found⟩ := Option.bind_eq_some_iff.mp found
    have inside := alternative_le word'
    have blanks : ((part.drop k).takeWhile CodePoint.isSpace).length ≤ (part.drop k).length :=
      (List.takeWhile_prefix _).length_le
    rw [List.length_drop] at blanks
    dsimp only at found
    split at found
    · cases found
    · cases found
      omega
  next => cases found

/-! ### Bars -/

/-- No token reaches over the character. -/
structure Bar (u : Unicode) (c : CodePoint) : Prop where
  word : u.word c = false
  dot : c ≠ .char '.'
  hyphen : c ≠ .char '-'

theorem Bar.alnum (bar : Bar u e) : isAsciiAlnum e = false := by
  by_contra alnum
  have alnum := Bool.eq_true_of_not_eq_false alnum
  cases e with
  | char c =>
    rw [isAsciiAlnum, Bool.and_eq_true, decide_eq_true_eq] at alnum
    have word := bar.word
    rw [u.word_ascii c alnum.1, alnum.2, Bool.true_or] at word
    cases word
  | high _ => cases alnum
  | low _ => cases alnum

theorem Bar.underscore (bar : Bar u e) : e ≠ .char '_' := by
  rintro rfl
  have word := bar.word
  rw [u.word_ascii _ (by decide)] at word
  cases word

theorem Bar.tokenChar (bar : Bar u e) : isTokenChar e = false := by
  simp [isTokenChar, bar.alnum, bar.underscore, bar.hyphen]

theorem Bar.prefixedChar (bar : Bar u e) : isPrefixedChar e = false := by
  simp [isPrefixedChar, bar.alnum, bar.underscore, bar.hyphen, bar.dot]

theorem Bar.beginnings (bar : Bar u e) : ∀ w ∈ knownBeginnings, ∀ q ∈ w, q e = false := by
  have letters : "sk-ghp_oxAKIASeyJ".toList.all (isPrefixedChar <| .char ·) = true := by decide +kernel
  have exact' (w : String) (all : w.toList.all ("sk-ghp_oxAKIASeyJ".toList.contains ·) = true) :
      ∀ q ∈ exactly w, q e = false := by
    intro q inside
    obtain ⟨l, letter, rfl⟩ := List.mem_map.mp inside
    by_contra same
    have eq : e = .char l := by simpa using same
    have token := List.all_eq_true.mp letters l
      (List.contains_iff_mem.mp (List.all_eq_true.mp all l letter))
    rw [← eq, bar.prefixedChar] at token
    cases token
  have lower : isLower e = false := by
    by_contra lower
    have lower := Bool.eq_true_of_not_eq_false lower
    cases e with
    | char c =>
      have alnum := bar.alnum
      have alpha : c.isAlphanum = true := by
        have letter : c.isLower = true := lower
        show ((c.isUpper || c.isLower) || c.isDigit) = true
        rw [letter, Bool.or_true, Bool.true_or]
      have small : c.toNat < 128 := by
        have between : (decide (97 ≤ c.val) && decide (c.val ≤ 122)) = true := lower
        have bounds : 97 ≤ c.val ∧ c.val ≤ 122 := by
          simpa only [Bool.and_eq_true, decide_eq_true_eq] using between
        have top := UInt32.le_iff_toNat_le.mp bounds.2
        exact Nat.lt_of_le_of_lt top (by decide)
      rw [isAsciiAlnum, alpha, decide_eq_true small] at alnum
      cases alnum
    | high _ => cases lower
    | low _ => cases lower
  intro w inside q member
  simp only [knownBeginnings, List.mem_cons, List.not_mem_nil, or_false] at inside
  rcases inside with rfl | rfl | rfl | rfl | rfl | rfl | rfl | rfl
  case inr.inr.inr.inr.inl =>
    rcases List.mem_append.mp member with first | last
    · rcases List.mem_append.mp first with first | middle
      · exact exact' "xox" (by decide) q first
      · obtain rfl := List.mem_singleton.mp middle
        exact lower
    · exact exact' "-" (by decide) q last
  all_goals exact exact' _ (by decide) q member

/-- A token with a known beginning does not go on behind a bar, nor behind the end. -/
theorem prefixed_stop (bar : Bar u e) :
    prefixed u before (part ++ e :: rest) = prefixed u before part := by
  rw [prefixed, prefixed, alternative_stop bar.beginnings]
  cases known : alternative knownBeginnings part with
  | none => rfl
  | some k =>
    rw [Option.bind_some, Option.bind_some, List.drop_append_of_le_length (alternative_le known)]
    dsimp only
    rw [takeWhile_stop bar.prefixedChar]

theorem prefixed_le {m : ℕ × Text} (found : m ∈ prefixed u before text) :
    m.1 ≤ text.length ∧ m.2 = mask := by
  rw [Option.mem_def, prefixed] at found
  split at found
  next =>
    obtain ⟨k, known, found⟩ := Option.bind_eq_some_iff.mp found
    have inside := alternative_le known
    have run : ((text.drop k).takeWhile isPrefixedChar).length ≤ (text.drop k).length :=
      (List.takeWhile_prefix _).length_le
    rw [List.length_drop] at run
    dsimp only at found
    split at found
    · cases found
    · cases found
      exact ⟨by dsimp only; omega, rfl⟩
  next => cases found

theorem prefixed_contained (bar : Bar u e) : Contained (prefixed u) left (e :: rest) :=
  fun _ _ _ _ => ⟨prefixed_stop bar, fun _ found => (prefixed_le found).1⟩

theorem prefixed_bar (bar : Bar u e) : prefixed u before (e :: rest) = none := by
  have same : prefixed u before ([] ++ e :: rest) = prefixed u before [] := prefixed_stop bar
  rw [List.nil_append] at same
  rw [same, prefixed]
  split <;> rfl

theorem longtokSep_stop (bar : Bar u e) :
    longtokSep before (part ++ e :: rest) = longtokSep before part := by
  rw [longtokSep, longtokSep, takeWhile_stop bar.tokenChar]

theorem longtokSep_contained (bar : Bar u e) : Contained longtokSep left (e :: rest) := by
  intro before part _ _
  refine ⟨longtokSep_stop bar, fun m found => ?_⟩
  rw [Option.mem_def, longtokSep] at found
  split at found
  · cases found
    exact (List.takeWhile_prefix _).length_le
  · cases found

theorem longtokSep_bar (bar : Bar u e) : longtokSep before (e :: rest) = none := by
  have same : longtokSep before ([] ++ e :: rest) = longtokSep before [] := longtokSep_stop bar
  rw [List.nil_append] at same
  rw [same]
  rfl

theorem longtok_stop (bar : Bar u e) :
    longtok u before (part ++ e :: rest) = longtok u before part := by
  have ends : ((part.dropWhile isAsciiAlnum ++ e :: rest).head?.all (!u.word ·)) =
      (part.dropWhile isAsciiAlnum).head?.all (!u.word ·) := by
    cases part.dropWhile isAsciiAlnum with
    | nil => simp [bar.word]
    | cons c more => rfl
  rw [longtok, longtok]
  rw [takeWhile_stop bar.alnum, dropWhile_stop bar.alnum, ends]

theorem longtok_contained (bar : Bar u e) : Contained (longtok u) left (e :: rest) := by
  intro before part _ _
  refine ⟨longtok_stop bar, fun m found => ?_⟩
  rw [Option.mem_def, longtok] at found
  split at found
  · cases found
    exact (List.takeWhile_prefix _).length_le
  · cases found

theorem longtok_bar (bar : Bar u e) : longtok u before (e :: rest) = none := by
  have same : longtok u before ([] ++ e :: rest) = longtok u before [] := longtok_stop bar
  rw [List.nil_append] at same
  rw [same, longtok]
  exact if_neg fun both => absurd both.2.1 (by decide)

/-- What is closed is a bar. -/
theorem Bar.of_closed (closed : isClosed e = true) : Bar u e := by
  rw [isClosed, Bool.or_eq_true] at closed
  rcases closed with space | separator
  · refine ⟨?_, ?_, ?_⟩
    · by_contra word
      rw [u.word_solid e (Bool.eq_true_of_not_eq_false word)] at space
      cases space
    · rintro rfl
      cases space
    · rintro rfl
      cases space
  · rcases isSeparator_iff.mp separator with rfl | rfl
    · exact ⟨u.word_ascii _ (by decide), by decide, by decide⟩
    · exact ⟨u.word_ascii _ (by decide), by decide, by decide⟩

end

end Nelix.Daemon
