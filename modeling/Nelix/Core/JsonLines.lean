import Nelix.Core.JsonReading
import Nelix.Core.Lines
import Nelix.Core.Whitespace

/-!
# Lines of JSON

Objects written by `json.dumps` by itself, one a line, and read back from a file that is opened as
text.
-/
namespace Core.JsonText

/-! ### Objects with blanks -/

def writeSpacedField (field : String × List Char) : List Char :=
  writeText (Text.ofString field.1) ++ ':' :: ' ' :: field.2

/-- The items with a blank behind each comma. -/
def spaced : List (List Char) → List Char
  | [] => []
  | [item] => item
  | item :: rest => item ++ ',' :: ' ' :: spaced rest

/-- An object as `json.dumps` writes it by itself: in order, and with blanks. -/
def writeSpaced (fields : List (String × List Char)) : List Char :=
  '{' :: (spaced (fields.map writeSpacedField) ++ ['}'])

/-- `json.loads` of a text. -/
def loadsText (room : ℕ) (text : Text) : Option Document := do
  let (document, rest) ← readValue (2 * text.length + 2) room (skip text)
  if skip rest = [] then return document
  none

variable {room : ℕ}

def Field.spacedly (field : Field) : List Char := writeSpacedField (field.1, field.2.1)

theorem spaced_cons (item next : List Char) (rest : List (List Char)) :
    spaced (item :: next :: rest) = item ++ ',' :: ' ' :: spaced (next :: rest) := rfl

theorem Begins.spacedly {written : List Char} (begins : Begins written)
    (others : List (List Char)) : Begins (spaced (written :: others)) := by
  cases others with
  | nil => exact begins
  | cons next rest => exact begins.append _

theorem skip_blank (s : Text) : skip (.char ' ' :: s) = skip s := by
  rw [skip, if_pos (.inl rfl)]

/-- The reader of members before a field with its blank. -/
theorem readMembers_spacedly (fuel : ℕ) (field : Field) (rest : Text)
    (reads : Reads room field.2.1 field.2.2) (enough : 2 * field.spacedly.length ≤ fuel)
    (stops : Stops rest) :
    readMembers (fuel + 1) room (field.spacedly.map .char ++ rest) =
      match skip rest with
      | .char '}' :: rest => return ([field.read], rest)
      | .char ',' :: rest => do
        let (fields, rest) ← readMembers fuel room (skip rest)
        return (field.read :: fields, rest)
      | _ => none := by
  have key := readString_text (Text.ofString_unpaired field.1)
    (.char ':' :: .char ' ' :: (field.2.1.map .char ++ rest))
  simp only [Field.spacedly, writeSpacedField, writeText, List.length_append,
    List.length_cons] at enough
  simp only [Field.spacedly, writeSpacedField, writeText, List.map_append, List.map_cons,
    List.cons_append, List.append_assoc, List.nil_append]
  rw [readMembers.eq_def]
  simp only [key, Option.bind_eq_bind, Option.bind_some,
    skip_first (show ':' ∉ [' ', '\t', '\n', '\r'] by decide), skip_blank, reads.begins.skipped,
    reads.reads fuel rest (by omega) stops]
  rfl

theorem readMembers_spaced {fields : List Field} (filled : fields ≠ [])
    (all : ∀ field ∈ fields, Reads room field.2.1 field.2.2) (fuel : ℕ)
    (enough : 2 * (spaced (fields.map Field.spacedly)).length + 1 ≤ fuel) (rest : Text) :
    readMembers fuel room ((spaced (fields.map Field.spacedly)).map .char ++ .char '}' :: rest) =
      some (fields.map Field.read, rest) := by
  induction fields generalizing fuel with
  | nil => exact absurd rfl filled
  | cons field fields ih =>
    have first := all field (by simp)
    cases fuel with
    | zero => simp at enough
    | succ fuel =>
      cases fields with
      | nil =>
        simp only [List.map_cons, List.map_nil, spaced] at enough ⊢
        rw [readMembers_spacedly fuel field _ first (by omega) (stops_before (by simp) rest),
          skip_first (by decide)]
        rfl
      | cons next fields =>
        have later := ih (by simp) (fun field among => all field (by simp [among])) fuel
        simp only [List.map_cons] at enough later ⊢
        simp only [spaced_cons, List.length_append, List.length_cons] at enough
        simp only [spaced_cons, List.map_append, List.map_cons, List.append_assoc,
          List.cons_append]
        have begins : Begins next.spacedly := ⟨'"', _, rfl, by decide⟩
        have solid : ∀ s, skip ((spaced (next.spacedly :: fields.map Field.spacedly)).map .char ++ s) =
            (spaced (next.spacedly :: fields.map Field.spacedly)).map .char ++ s :=
          (begins.spacedly _).skipped
        rw [readMembers_spacedly fuel field _ first (by omega) (stops_before (by simp) _),
          skip_first (by decide)]
        simp only [skip_blank, solid, later (by omega)]
        rfl

theorem writeSpaced_fields (fields : List Field) :
    writeSpaced (fields.map fun field => (field.1, field.2.1)) =
      '{' :: (spaced (fields.map Field.spacedly) ++ ['}']) := by
  rw [writeSpaced, List.map_map]
  rfl

/-- An object that is written with blanks is read as its fields in order. -/
theorem loadsText_spaced {fields : List Field} (filled : fields ≠ [])
    (all : ∀ field ∈ fields, Reads room field.2.1 field.2.2) :
    loadsText (room + 1) ((writeSpaced (fields.map fun field => (field.1, field.2.1))).map .char) =
      some (.object (fields.map Field.read)) := by
  rw [writeSpaced_fields]
  obtain ⟨field, more, rfl⟩ := List.exists_cons_of_ne_nil filled
  have begins : Begins field.spacedly := ⟨'"', _, rfl, by decide⟩
  have opened := begins.spacedly (more.map Field.spacedly)
  have skipped := skip_first (show '{' ∉ [' ', '\t', '\n', '\r'] by decide)
  have read : ∀ fuel, 2 * (spaced ((field :: more).map Field.spacedly)).length + 2 ≤ fuel →
      readValue fuel (room + 1)
        (('{' :: (spaced ((field :: more).map Field.spacedly) ++ ['}'])).map .char) =
        some (.object ((field :: more).map Field.read), []) := by
    intro fuel enough
    cases fuel with
    | zero => omega
    | succ fuel =>
      rw [List.map_cons, List.map_append, List.map_cons, List.map_cons,
        readValue_object fuel (opened.closes (.inl rfl) _), opened.skipped]
      have members := readMembers_spaced (by simp) all fuel (by omega) []
      rw [List.map_cons] at members
      rw [List.map_cons, List.map_nil, members]
      rfl
  have enough : 2 * (spaced ((field :: more).map Field.spacedly)).length + 2 ≤
      2 * (('{' :: (spaced ((field :: more).map Field.spacedly) ++ ['}'])).map CodePoint.char).length
        + 2 := by
    simp only [List.length_map, List.length_cons, List.length_append]
    omega
  rw [loadsText, List.map_cons, skipped, ← List.map_cons, read _ enough]
  rfl

/-! ### Lines -/

theorem printable_spaced {items : List (List Char)} (all : ∀ item ∈ items, Printable item) :
    Printable (spaced items) := by
  induction items with
  | nil => exact nofun
  | cons item rest ih =>
    have first := all item (by simp)
    cases rest with
    | nil => exact first
    | cons next rest =>
      have later := ih fun item among => all item (by simp [among])
      exact first.append (.cons (by decide) (.cons (by decide) later))

theorem printable_writeSpaced {fields : List (String × List Char)}
    (all : ∀ field ∈ fields, Printable field.2) : Printable (writeSpaced fields) := by
  refine .cons (by decide) (.append (printable_spaced fun item among => ?_) (.cons (by decide) nofun))
  obtain ⟨field, here, rfl⟩ := List.mem_map.mp among
  exact (printable_writeText _).append (.cons (by decide) (.cons (by decide) (all field here)))

/-- What opening a file as text makes of its line ends. -/
def universalNewlines : Text → Text
  | .char '\r' :: .char '\n' :: rest => .char '\n' :: universalNewlines rest
  | .char '\r' :: rest => .char '\n' :: universalNewlines rest
  | c :: rest => c :: universalNewlines rest
  | [] => []

/-- The lines of a file, stripped, without the blank ones. -/
def fileLines (content : Text) : List Text :=
  (((universalNewlines content).splitOn (.char '\n')).map Text.strip).filter (· ≠ [])

theorem universalNewlines_printed {content : Text} (bare : CodePoint.char '\r' ∉ content) :
    universalNewlines content = content := by
  induction content with
  | nil => rfl
  | cons c rest ih =>
    have later := ih fun member => bare (List.mem_cons_of_mem _ member)
    rw [universalNewlines.eq_def]
    split
    · rename_i same
      cases same
      exact absurd (List.mem_cons_self ..) bare
    · rename_i same
      cases same
      exact absurd (List.mem_cons_self ..) bare
    · rename_i same
      cases same
      rw [later]
    · rename_i same
      cases same

/-- Objects that were written one a line are the lines of the file. -/
theorem fileLines_written {lines : List (List Char)} (printable : ∀ line ∈ lines, Printable line)
    (closed : ∀ line ∈ lines, ∃ middle, line = '{' :: (middle ++ ['}'])) :
    fileLines ((lines.flatMap fun line => line ++ ['\n']).map .char) =
      lines.map (List.map .char) := by
  have bare (c : Char) (low : c.toNat < 0x20) : ∀ line ∈ lines, c ∉ line := fun line among member => by
    have high := printable line among c member
    omega
  have returned : CodePoint.char '\r' ∉
      (lines.flatMap fun line => line ++ ['\n']).map CodePoint.char := by
    intro member
    obtain ⟨c, there, same⟩ := List.mem_map.mp member
    obtain rfl := CodePoint.char.inj same
    obtain ⟨line, among, inside⟩ := List.mem_flatMap.mp there
    rcases List.mem_append.mp inside with here | here
    · exact bare '\r' (by decide) line among here
    · exact absurd (List.mem_singleton.mp here) (by decide)
  have whole : (lines.flatMap fun line => line ++ ['\n']).map CodePoint.char =
      List.intercalate [.char '\n'] (lines.map (List.map .char) ++ [[]]) := by
    rw [Lines.intercalate_closed, List.map_flatMap, List.flatMap_map]
    simp
  have unbroken : ∀ line ∈ lines.map (List.map CodePoint.char) ++ [[]],
      CodePoint.char '\n' ∉ line := by
    intro line among
    rcases List.mem_append.mp among with here | here
    · obtain ⟨chars, inside, rfl⟩ := List.mem_map.mp here
      rintro member
      obtain ⟨c, there, same⟩ := List.mem_map.mp member
      obtain rfl := CodePoint.char.inj same
      exact bare '\n' (by decide) chars inside there
    · rw [List.mem_singleton.mp here]
      exact List.not_mem_nil
  rw [fileLines, universalNewlines_printed returned, whole,
    List.splitOn_intercalate _ unbroken (by simp), List.map_append, List.filter_append]
  have kept : ∀ line ∈ lines.map (List.map CodePoint.char), Text.strip line = line ∧ line ≠ [] := by
    intro line among
    obtain ⟨chars, inside, rfl⟩ := List.mem_map.mp among
    obtain ⟨middle, rfl⟩ := closed chars inside
    refine ⟨?_, nofun⟩
    rw [List.map_cons, List.map_append]
    exact Text.strip_solid (by decide) (by decide)
  have stripped : (lines.map (List.map CodePoint.char)).map Text.strip =
      lines.map (List.map CodePoint.char) := by
    conv_rhs => rw [← List.map_id (lines.map (List.map CodePoint.char))]
    exact List.map_congr_left fun line among => (kept line among).1
  rw [stripped, List.filter_eq_self.mpr fun line among => by simpa using (kept line among).2]
  exact List.append_nil _

end Core.JsonText
