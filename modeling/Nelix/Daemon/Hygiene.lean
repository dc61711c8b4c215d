import Nelix.Core.Marker
import Nelix.Core.Whitespace

/-!
# Input hygiene

What is left of a text before it is typed into a terminal, which texts are refused, and the bytes in
which a driver frames one.

## Main results

`hygiene_law`: cleaning a text twice is cleaning it once, what is left has no controls and is tidy,
and the frame of an accepted text is opened once and closed once.
-/
namespace Nelix.Daemon

open Core

/-! ### Cleaning -/

/-- ESC -/
def esc : CodePoint := .char '\x1b'

/-- `[0-9;?]` -/
def isParameter : CodePoint → Bool
  | .char c => ('0' ≤ c && c ≤ '9') || c = ';' || c = '?'
  | _ => false

/-- From the blank to the slash. -/
def isIntermediate : CodePoint → Bool
  | .char c => ' ' ≤ c && c ≤ '/'
  | _ => false

/-- `[@-~]` -/
def isFinal : CodePoint → Bool
  | .char c => '@' ≤ c && c ≤ '~'
  | _ => false

/-- How long a control sequence is behind its bracket. The three classes are disjoint, so that there
is nothing to try again. -/
def csiLength (rest : Text) : Option ℕ :=
  let parameters := rest.takeWhile isParameter
  let rest := rest.dropWhile isParameter
  let intermediates := rest.takeWhile isIntermediate
  match rest.dropWhile isIntermediate with
  | final :: _ =>
    if isFinal final then some (parameters.length + intermediates.length + 1) else none
  | [] => none

/-- How long an operating system command is behind its bracket: it ends with BEL or with ESC `\`. -/
def oscLength (rest : Text) : Option ℕ :=
  let body := rest.takeWhile fun c => c ≠ .char '\x07' && c ≠ esc
  match rest.dropWhile fun c => c ≠ .char '\x07' && c ≠ esc with
  | .char '\x07' :: _ => some (body.length + 1)
  | _ :: .char '\\' :: _ => some (body.length + 2)
  | _ => none

/-- How long the escape sequence of `_ANSI` is that the text begins with. -/
def ansiLength : Text → Option ℕ
  | .char '\x1b' :: .char '[' :: rest => (csiLength rest).map (· + 2)
  | .char '\x1b' :: .char ']' :: rest => (oscLength rest).map (· + 2)
  | _ => none

/-- `_ANSI.sub("", text)`; the first number is how much of a sequence is left to be dropped. -/
def stripAnsi : ℕ → Text → Text
  | _, [] => []
  | n + 1, _ :: rest => stripAnsi n rest
  | 0, c :: rest =>
    match ansiLength (c :: rest) with
    | some (n + 1) => stripAnsi n rest
    | _ => c :: stripAnsi 0 rest

/-- `_BIDI`: embeddings, overrides and isolates. -/
def isBidi : CodePoint → Bool
  | .char c => (0x202a ≤ c.toNat && c.toNat ≤ 0x202e) || (0x2066 ≤ c.toNat && c.toNat ≤ 0x2069)
  | _ => false

/-- `unicodedata.category(ch) == "Cc"` -/
def isControl : CodePoint → Bool
  | .char c => c.toNat < 0x20 || (0x7f ≤ c.toNat && c.toNat < 0xa0)
  | _ => false

/-- `re.sub(r"[\t\n\v\f]", " ", s)` -/
def blankControl (c : CodePoint) : CodePoint :=
  if c ∈ [.char '\t', .char '\n', .char '\x0b', .char '\x0c'] then .char ' ' else c

def coreSanitize (text : Text) : Text :=
  let s := stripAnsi 0 text
  let s := s.filter (!isBidi ·)
  let s := s.filter (· ≠ .char '\r')
  let s := s.map blankControl
  let s := s.filter (!isControl ·)
  Text.joinWords (Text.words s)

/-! ### Refusals -/

/-- What is handed over to be typed. -/
inductive Typed
  | text (value : Text)
  | other (typeName : String)

inductive PtyInputRejected
  /-- "expected a string, got …" -/
  | notString (typeName : String)
  /-- "input is empty after sanitization" -/
  | empty
  /-- "input starts with command prefix …; it would be read as a command, not a prompt — rephrase
  without a leading …" -/
  | commandPrefix (p : Text)
  deriving DecidableEq

def preparePtyInput (text : Typed) (commandPrefixes : List Text) : Except PtyInputRejected Text :=
  match text with
  | .other typeName => .error (.notString typeName)
  | .text value =>
    let s := coreSanitize value
    if s = [] then .error .empty
    else
      match commandPrefixes.find? fun p => p ≠ [] && p.isPrefixOf s with
      | some p => .error (.commandPrefix p)
      | none => .ok s

/-! ### The frame of a submission -/

/-- The octets of a character. -/
def encodeChar (c : Char) : List ℕ :=
  let n := c.toNat
  if n < 0x80 then [n]
  else if n < 0x800 then [0xc0 + n / 64, 0x80 + n % 64]
  else if n < 0x10000 then [0xe0 + n / 4096, 0x80 + n / 64 % 64, 0x80 + n % 64]
  else [0xf0 + n / 262144, 0x80 + n / 4096 % 64, 0x80 + n / 64 % 64, 0x80 + n % 64]

/-- `encode()`; half a surrogate pair raises. -/
def encode : Text → Option (List ℕ)
  | [] => some []
  | .char c :: rest => (encode rest).map (encodeChar c ++ ·)
  | _ :: _ => none

def pasteStart : Text := .ofString "\x1b[200~"

def pasteEnd : Text := .ofString "\x1b[201~"

/-- `ClaudeDriver.format_submission` -/
def formatSubmission (text : Text) : Text := pasteStart ++ text ++ pasteEnd

/-! ### What cleaning leaves -/

/-- No control is left, none of `_BIDI`, and no whitespace but single blanks inside. -/
structure Clean (t : Text) : Prop where
  tidy : Text.Tidy t
  noControl : ∀ c ∈ t, isControl c = false
  noBidi : ∀ c ∈ t, isBidi c = false

theorem stripAnsi_bare {t : Text} (bare : esc ∉ t) : stripAnsi 0 t = t := by
  induction t with
  | nil => rfl
  | cons c rest ih =>
    have later := ih fun member => bare (List.mem_cons_of_mem _ member)
    have unmatched : ansiLength (c :: rest) = none := by
      unfold ansiLength
      split
      · rename_i same
        cases same
        exact absurd (List.mem_cons_self ..) bare
      · rename_i same
        cases same
        exact absurd (List.mem_cons_self ..) bare
      · rfl
    rw [stripAnsi, unmatched]
    exact congrArg (c :: ·) later

/-- What goes into the words. -/
theorem word_of_sanitize {text w : Text} {c : CodePoint}
    (word : w ∈ Text.words ((((stripAnsi 0 text).filter (!isBidi ·)).filter
      (· ≠ .char '\r')).map blankControl |>.filter (!isControl ·))) (inside : c ∈ w) :
    isControl c = false ∧ isBidi c = false := by
  have among := (Text.mem_splitOnP (List.mem_filter.mp word).1 c inside).2
  obtain ⟨mapped, visible⟩ := List.mem_filter.mp among
  obtain ⟨d, before, rfl⟩ := List.mem_map.mp mapped
  refine ⟨by simpa using visible, ?_⟩
  unfold blankControl
  split
  · rfl
  · have kept := (List.mem_filter.mp (List.mem_filter.mp before).1).2
    simpa using kept

theorem coreSanitize_clean (text : Text) : Clean (coreSanitize text) := by
  have character {c : CodePoint} (member : c ∈ coreSanitize text) :
      isControl c = false ∧ isBidi c = false := by
    rcases Text.mem_joinWords member with rfl | ⟨w, word, inside⟩
    · exact ⟨rfl, rfl⟩
    · exact word_of_sanitize word inside
  exact ⟨Text.tidy_joinWords fun w word => Text.isWord_of_words word,
    fun c member => (character member).1, fun c member => (character member).2⟩

theorem blankControl_of_visible {c : CodePoint} (visible : isControl c = false) :
    blankControl c = c := by
  refine if_neg fun listed => ?_
  simp only [List.mem_cons, List.not_mem_nil, or_false] at listed
  rcases listed with rfl | rfl | rfl | rfl <;> cases visible

/-- What is clean loses nothing but its spacing. -/
theorem coreSanitize_of_clean {t : Text} (clean : Clean t) :
    coreSanitize t = Text.joinWords (Text.words t) := by
  have bare : esc ∉ t := fun member => absurd (clean.noControl _ member) (by decide)
  have undirected : t.filter (!isBidi ·) = t :=
    List.filter_eq_self.mpr fun c member => by simp [clean.noBidi c member]
  have unreturned : t.filter (· ≠ .char '\r') = t := by
    refine List.filter_eq_self.mpr fun c member => ?_
    have visible := clean.noControl c member
    simp only [ne_eq, decide_not, Bool.not_eq_true', decide_eq_false_iff_not]
    rintro rfl
    cases visible
  have unblanked : t.map blankControl = t := by
    conv_rhs => rw [← List.map_id t]
    exact List.map_congr_left fun c member => blankControl_of_visible (clean.noControl c member)
  have uncontrolled : t.filter (!isControl ·) = t :=
    List.filter_eq_self.mpr fun c member => by simp [clean.noControl c member]
  unfold coreSanitize
  dsimp only
  rw [stripAnsi_bare bare, undirected, unreturned, unblanked, uncontrolled]

theorem coreSanitize_idempotent (text : Text) :
    coreSanitize (coreSanitize text) = coreSanitize text := by
  rw [coreSanitize_of_clean (coreSanitize_clean text)]
  conv_lhs => rw [coreSanitize]
  rw [Text.words_joinWords fun w word => Text.isWord_of_words word]
  rfl

/-- What is accepted is the cleaned text, unless that is empty or begins with a prefix. -/
theorem preparePtyInput_ok {input : Typed} {commandPrefixes : List Text} {s : Text} :
    preparePtyInput input commandPrefixes = .ok s ↔
      ∃ value, input = .text value ∧ s = coreSanitize value ∧ s ≠ [] ∧
        ∀ p ∈ commandPrefixes, p ≠ [] → ¬ p <+: s := by
  cases input with
  | other typeName => simp [preparePtyInput]
  | text value =>
    rw [preparePtyInput]
    by_cases empty : coreSanitize value = []
    · rw [if_pos empty]
      refine iff_of_false nofun ?_
      rintro ⟨value', same, rfl, filled, -⟩
      cases same
      exact filled empty
    · rw [if_neg empty]
      cases found : commandPrefixes.find? fun p => p ≠ [] && p.isPrefixOf (coreSanitize value) with
      | some p =>
        refine iff_of_false nofun ?_
        rintro ⟨value', same, rfl, -, clear⟩
        cases same
        have begins := List.find?_some found
        simp only [ne_eq, decide_not, Bool.and_eq_true, Bool.not_eq_true',
          decide_eq_false_iff_not, List.isPrefixOf_iff_prefix] at begins
        exact clear p (List.mem_of_find?_eq_some found) begins.1 begins.2
      | none =>
        have clear := List.find?_eq_none.mp found
        simp only [Except.ok.injEq, Typed.text.injEq]
        constructor
        · rintro rfl
          refine ⟨value, rfl, rfl, empty, fun p member filled begins => clear p member ?_⟩
          simpa [filled] using begins
        · rintro ⟨value', rfl, rfl, -⟩
          rfl

/-! ### One frame -/

/-- In the octets the opening marker stands at the beginning and nowhere else, and the closing
marker at the end and nowhere else. -/
structure FramedOnce {α : Type} (opening closing whole : List α) : Prop where
  opens : opening <+: whole
  closes : closing <:+ whole
  once : ∀ i, opening <+: whole.drop i → i = 0
  last : ∀ i, closing <+: whole.drop i → i + closing.length = whole.length

theorem encode_append {t t' : Text} :
    encode (t ++ t') = (encode t).bind fun first => (encode t').map (first ++ ·) := by
  induction t with
  | nil => simp [encode]
  | cons c rest ih =>
    cases c with
    | char c =>
      rw [List.cons_append, encode, encode, ih]
      cases encode rest <;> cases encode t' <;> simp
    | high bits => rfl
    | low bits => rfl

/-- ESC is one octet, and no other character has it. -/
theorem esc_encodeChar {c : Char} (member : 0x1b ∈ encodeChar c) : c = '\x1b' := by
  unfold encodeChar at member
  dsimp only at member
  split at member
  · have same : c.toNat = '\x1b'.toNat := (List.mem_singleton.mp member).symm
    exact Char.ext (UInt32.toNat_inj.mp same)
  · split at member
    · simp only [List.mem_cons, List.not_mem_nil, or_false] at member
      omega
    · split at member <;> simp only [List.mem_cons, List.not_mem_nil, or_false] at member <;> omega

theorem esc_encode {t : Text} {octets : List ℕ} (encoded : encode t = some octets)
    (member : 0x1b ∈ octets) : esc ∈ t := by
  induction t generalizing octets with
  | nil =>
    obtain rfl := Option.some.inj encoded
    cases member
  | cons c rest ih =>
    cases c with
    | char c =>
      obtain ⟨more, later, rfl⟩ := Option.map_eq_some_iff.mp encoded
      rcases List.mem_append.mp member with here | behind
      · rw [esc_encodeChar here]
        exact List.mem_cons_self ..
      · exact List.mem_cons_of_mem _ (ih later behind)
    | high bits => cases encoded
    | low bits => cases encoded

/-- The octets of the two markers behind their ESC. -/
def startTail : List ℕ := [0x5b, 0x32, 0x30, 0x30, 0x7e]

def endTail : List ℕ := [0x5b, 0x32, 0x30, 0x31, 0x7e]

/-- A text without ESC is framed once. -/
theorem formatSubmission_framed {s : Text} (bare : esc ∉ s) {octets : List ℕ}
    (encoded : encode (formatSubmission s) = some octets) :
    FramedOnce (0x1b :: startTail) (0x1b :: endTail) octets := by
  have first : encode pasteStart = some (0x1b :: startTail) := by decide
  have second : encode pasteEnd = some (0x1b :: endTail) := by decide
  rw [formatSubmission, encode_append, encode_append, first, second] at encoded
  cases inner : encode s with
  | none =>
    rw [inner] at encoded
    cases encoded
  | some body =>
    rw [inner] at encoded
    have whole : 0x1b :: startTail ++ body ++ 0x1b :: endTail = octets := Option.some.inj encoded
    subst whole
    have inside : 0x1b ∉ body := fun member => bare (esc_encode inner member)
    refine ⟨?_, List.suffix_append .., fun i fits => ?_, fun i fits => ?_⟩
    · rw [List.append_assoc]
      exact List.prefix_append ..
    · exact Marker.opening_only (a := startTail) (b := endTail) (by decide) inside (by decide) rfl
        (by decide) fits
    · have place := Marker.closing_only (a := startTail) (b := endTail) (by decide) inside
        (by decide) rfl (by decide) fits
      rw [place]
      simp only [startTail, endTail, List.length_append, List.length_cons, List.length_nil]

/-- Cleaning is idempotent and leaves a clean text; what is accepted is the cleaned text, not empty
and without a command prefix that has something in it; and where UTF-8 has octets for it, its
submission is framed by one marker at the beginning and one at the end. -/
theorem hygiene_law (input : Typed) (text : Text) (commandPrefixes : List Text) :
    coreSanitize (coreSanitize text) = coreSanitize text ∧ Clean (coreSanitize text) ∧
      ((∃ raised, preparePtyInput input commandPrefixes = .error raised) ∨
        ∃ value, input = .text value ∧
          preparePtyInput input commandPrefixes = .ok (coreSanitize value)) ∧
      ∀ s, preparePtyInput input commandPrefixes = .ok s →
        s ≠ [] ∧ (∀ p ∈ commandPrefixes, p ≠ [] → ¬ p <+: s) ∧
        ∀ octets, encode (formatSubmission s) = some octets →
          FramedOnce (0x1b :: startTail) (0x1b :: endTail) octets := by
  refine ⟨coreSanitize_idempotent text, coreSanitize_clean text, ?_, fun s accepted => ?_⟩
  · cases answer : preparePtyInput input commandPrefixes with
    | error raised => exact .inl ⟨raised, rfl⟩
    | ok s =>
      obtain ⟨value, same, rfl, -⟩ := preparePtyInput_ok.mp answer
      exact .inr ⟨value, same, rfl⟩
  · obtain ⟨value, -, rfl, filled, clear⟩ := preparePtyInput_ok.mp accepted
    have bare : esc ∉ coreSanitize value := fun member =>
      absurd ((coreSanitize_clean value).noControl _ member) (by decide)
    exact ⟨filled, clear, fun octets encoded => formatSubmission_framed bare encoded⟩

-- A sequence is put together again by what is cut out of it, and loses its ESC.
example : coreSanitize (.ofString "\x1b\x1b[0m[31m  a\tb\r\n") = .ofString "[31m a b" := by
  decide +kernel

/-- `Bidi_Control` of Unicode: the marks as well. -/
def bidiControls : List CodePoint :=
  ([0x61c, 0x200e, 0x200f, 0x202a, 0x202b, 0x202c, 0x202d, 0x202e, 0x2066, 0x2067, 0x2068, 0x2069] :
    List ℕ).map CodePoint.ofNat

/-- A left-to-right mark is left. -/
theorem hygiene_mark : ∃ c ∈ coreSanitize [.ofNat 0x200e, .char 'a'], c ∈ bidiControls := by
  decide +kernel

end Nelix.Daemon
