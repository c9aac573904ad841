import StyleOrder.Proofs.Sheet.Lines

namespace StyleOrder

/-!
# Lines and their text

A text that is empty or ends in a line feed leaves nothing open: what is appended
to it starts a line of its own.  The lines of the whole are then the lines of both
parts, and those of the second part are numbered on from the first.

The first lines of a text, taken with their line feeds, are again a text, and its
lines are the first lines of the whole.
-/

namespace Text

/-- Whatever is appended to the text starts a line of its own. -/
def Ended (text : List Char) : Prop :=
  ∀ c ∈ text.getLast?, c = '\n'

-- Written out, so that the last character is looked at and not all characters.
instance (text : List Char) : Decidable (Ended text) :=
  match last : text.getLast? with
  | none => isTrue (by simp [Ended, last])
  | some c => decidable_of_iff (c = '\n') (by simp [Ended, last])

theorem lines_eq_nil_iff (text : List Char) : lines text = [] ↔ text = [] := by
  cases text with
  | nil => simp [lines]
  | cons c rest =>
      unfold lines
      split
      · simp
      · split <;> simp

theorem lines_feed (rest : List Char) : lines ('\n' :: rest) = [] :: lines rest := by
  simp [lines]

theorem lines_cons {c : Char} (inside : c ≠ '\n') {rest line : List Char}
    {others : List (List Char)} (following : lines rest = line :: others) :
    lines (c :: rest) = (c :: line) :: others := by
  simp [lines, inside, following]

theorem lines_append {text : List Char} (ended : Ended text) (more : List Char) :
    lines (text ++ more) = lines text ++ lines more := by
  induction text with
  | nil => rfl
  | cons c rest ih =>
      cases rest with
      | nil =>
          have feed : c = '\n' := ended c rfl
          rw [feed, List.singleton_append, lines_feed, lines_feed]
          rfl
      | cons d others =>
          have tail := ih fun last found => ended last (by simpa using found)
          rw [List.cons_append]
          by_cases feed : c = '\n'
          · rw [feed, lines_feed, lines_feed, tail, List.cons_append]
          · cases split : lines (d :: others) with
            | nil => simp [lines_eq_nil_iff] at split
            | cons line following =>
                rw [split] at tail
                rw [lines_cons feed tail, lines_cons feed split]
                rfl

/-- The first lines with their line feeds have the first lines as their lines. -/
theorem lines_take_pieces (text : List Char) (count : Nat) :
    lines ((pieces text).take count).flatten = (lines text).take count := by
  induction text generalizing count with
  | nil => simp [pieces, lines]
  | cons c rest ih =>
      cases count with
      | zero => rfl
      | succ count =>
          by_cases feed : c = '\n'
          · simp [pieces, lines, feed, ih]
          · have whole := ih (count + 1)
            cases split : pieces rest with
            | nil =>
                have empty : rest = [] := by rw [← flatten_pieces rest, split]; rfl
                subst empty
                simp [pieces, lines, feed]
            | cons piece others =>
                rw [split, List.take_succ_cons, List.flatten_cons] at whole
                have first : pieces (c :: rest) = (c :: piece) :: others := by
                  simp [pieces, feed, split]
                rw [first, List.take_succ_cons, List.flatten_cons, List.cons_append]
                cases following : lines rest with
                | nil =>
                    rw [(lines_eq_nil_iff rest).mp following] at split
                    cases split
                | cons line others =>
                    rw [following, List.take_succ_cons] at whole
                    rw [lines_cons feed whole, lines_cons feed following, List.take_succ_cons]

/-- The first lines of a source, with their line feeds. -/
def firstLines (count : Nat) (source : String) : String :=
  String.ofList ((pieces source.toList).take count).flatten

end Text

/-- The position in a text that has further lines above it. -/
def Position.down (count : Nat) (position : Position) : Position where
  line := position.line + count
  column := position.column

namespace Sheet
namespace Line

/-- The line in a text that has further lines above it. -/
def down (count : Nat) (line : Line) : Line :=
  { line with number := line.number + count }

theorem read?_add (number count : Nat) (raw : List Char) :
    read? (number + count) raw = (read? number raw).map (down count) := by
  unfold read?
  split
  · rfl
  · split <;> rfl

theorem readFrom_add (first count : Nat) (raws : List (List Char)) :
    readFrom (first + count) raws = (readFrom first raws).map (down count) := by
  induction raws generalizing first with
  | nil => rfl
  | cons raw others ih =>
      have tail := ih (first + 1)
      rw [Nat.add_right_comm] at tail
      rw [readFrom, readFrom, read?_add, tail, List.map_append]
      cases read? first raw <;> rfl

theorem readFrom_append (first : Nat) (raws more : List (List Char)) :
    readFrom first (raws ++ more) = readFrom first raws ++ readFrom (first + raws.length) more := by
  induction raws generalizing first with
  | nil => rfl
  | cons raw others ih =>
      rw [List.cons_append, readFrom, ih, readFrom, List.length_cons, List.append_assoc,
        Nat.add_assoc, Nat.add_comm 1]

/-- Around a raw line that takes part stand the lines above it and those below it. -/
theorem readFrom_split {first index : Nat} {raws : List (List Char)} {raw : List Char} {line : Line}
    (found : raws[index]? = some raw) (read : read? (first + index) raw = some line) :
    readFrom first raws =
      readFrom first (raws.take index) ++
        line :: readFrom (first + index + 1) (raws.drop (index + 1)) := by
  rcases List.getElem?_eq_some_iff.mp found with ⟨inside, here⟩
  have parts : raws = raws.take index ++ raw :: raws.drop (index + 1) := by
    rw [← here, List.getElem_cons_drop, List.take_append_drop]
  have length : (raws.take index).length = index :=
    List.length_take_of_le (Nat.le_of_lt inside)
  calc
    readFrom first raws =
        readFrom first (raws.take index ++ raw :: raws.drop (index + 1)) := congrArg _ parts
    _ = _ := by
      rw [readFrom_append, length, readFrom, read]
      rfl

/-- The lines of two texts together. -/
theorem ofSource_append {source : String} (ended : Text.Ended source.toList) (more : String) :
    ofSource (source ++ more) =
      ofSource source ++ (ofSource more).map (down (Text.lines source.toList).length) := by
  rw [ofSource, String.toList_append, Text.lines_append ended, readFrom_append, readFrom_add]
  rfl

theorem ofSource_firstLines (count : Nat) (source : String) :
    ofSource (Text.firstLines count source) =
      readFrom 1 ((Text.lines source.toList).take count) := by
  rw [ofSource, Text.firstLines, String.toList_ofList, Text.lines_take_pieces]

theorem eq_of_read? {number : Nat} {raw : List Char} {line : Line}
    (found : read? number raw = some line) :
    line = ⟨number, Text.indentation raw, Text.trim raw⟩ := by
  unfold read? at found
  split at found
  · cases found
  · rename_i text
    split at found
    · cases found
    · cases found
      rw [text]

/-- A line that takes part comes from a raw line. -/
theorem exists_raw_of_mem_readFrom {first : Nat} {raws : List (List Char)} {line : Line}
    (member : line ∈ readFrom first raws) :
    ∃ index raw, raws[index]? = some raw ∧
      line = ⟨first + index, Text.indentation raw, Text.trim raw⟩ := by
  induction raws generalizing first with
  | nil => cases member
  | cons raw others ih =>
      rw [readFrom] at member
      rcases List.mem_append.mp member with here | later
      · exact ⟨0, raw, rfl, eq_of_read? (Option.mem_toList.mp here)⟩
      · rcases ih later with ⟨index, other, found, same⟩
        exact ⟨index + 1, other, found, by rw [same, Nat.add_assoc, Nat.add_comm 1]⟩

/-- Where the opening lines stand can be read off the raw lines. -/
theorem positions_readFrom (first : Nat) (raws : List (List Char)) :
    ((readFrom first raws).filter opens).map position =
      ((raws.zipIdx first).filter fun raw => Mark.begins (Text.trim raw.1)).map fun raw =>
        ⟨raw.2, Text.indentation raw.1⟩ := by
  induction raws generalizing first with
  | nil => rfl
  | cons raw others ih =>
      rw [readFrom, List.filter_append, List.map_append, ih, List.zipIdx_cons, List.filter_cons]
      unfold read?
      split
      · rename_i empty
        simp [empty, Mark.begins]
      · rename_i c rest text
        by_cases slash : c = '/'
        · have silent : Mark.begins ('/' :: rest) = false := rfl
          simp [text, slash, silent]
        · cases opening : Mark.begins (c :: rest) <;>
            simp [text, slash, opening, opens, position]

end Line
end Sheet
end StyleOrder
