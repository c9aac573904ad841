import Mathlib.Data.List.DropRight
import Mathlib.Data.List.Forall2
import Mathlib.Data.List.InsertIdx
import StyleOrder.Proofs.Sheet.Sources

namespace StyleOrder

/-!
# Sheets in another layout

Two changes to a source leave all that its lines say alone.  The first changes the
blanks around the text of lines: indentations are replaced by others that are wider
by a common factor, in whatever characters, and blanks are appended.  The second
inserts a line that is passed over.  Under both, the lines that take part are the
same lines at other positions.

A source is looked at here as a list of lines with a line feed between any two.  A
text that ends in a line feed then has an empty line at its end, which is passed over.
-/

namespace Text

/-! ## Blanks around a text -/

/-- Blanks within one line. -/
structure Gap (text : List Char) : Prop where
  blank : Text.blank text = true
  single : '\n' ∉ text

theorem Gap.isBlank {text : List Char} (gap : Gap text) {c : Char} (member : c ∈ text) :
    isBlank c = true :=
  List.all_eq_true.mp gap.blank c member

theorem trimStart_gap_append {lead : List Char} (gap : Gap lead) (text : List Char) :
    trimStart (lead ++ text) = trimStart text :=
  List.dropWhile_append_of_pos fun _ => gap.isBlank

theorem trimEnd_append_gap {tail : List Char} (gap : Gap tail) (text : List Char) :
    trimEnd (text ++ tail) = trimEnd text := by
  have blanks : ∀ c ∈ tail.reverse, isBlank c = true :=
    fun _ member => gap.isBlank (List.mem_reverse.mp member)
  rw [trimEnd, List.reverse_append, List.dropWhile_append_of_pos blanks, trimEnd]

theorem trim_gap_append {lead : List Char} (gap : Gap lead) (text : List Char) :
    trim (lead ++ text) = trim text := by
  rw [trim, trimStart_gap_append gap, trim]

theorem trim_append_gap {tail : List Char} (gap : Gap tail) (text : List Char) :
    trim (text ++ tail) = trim text := by
  rw [trim, trim, trimStart, trimStart, List.dropWhile_append]
  split
  · rename_i empty
    have blanks : tail.dropWhile isBlank = [] :=
      List.dropWhile_eq_nil_iff.mpr fun _ => gap.isBlank
    rw [List.isEmpty_iff.mp empty, blanks]
  · exact trimEnd_append_gap gap _

theorem trim_trimStart (text : List Char) : trim (trimStart text) = trim text := by
  rw [trim, trimStart, trimStart, List.dropWhile_idempotent, trim, trimStart]

/-- Blanks before a text that does not begin with one are its indentation. -/
theorem indentation_gap_append {lead text : List Char} (gap : Gap lead)
    (begins : ∀ c ∈ text.head?, isBlank c = false) :
    indentation (lead ++ text) = lead.length := by
  have none : text.takeWhile isBlank = [] := by
    cases text with
    | nil => rfl
    | cons c rest => rw [List.takeWhile_cons_of_neg (by simp [begins c rfl])]
  rw [indentation, List.takeWhile_append_of_pos fun _ => gap.isBlank, none, List.append_nil]

theorem isBlank_head_trimStart (text : List Char) :
    ∀ c ∈ (trimStart text).head?, isBlank c = false := by
  intro c found
  have first := List.head?_dropWhile_not isBlank text
  rw [trimStart, Option.mem_def] at found
  rw [found] at first
  simpa using first

/-! ## Texts as lists of lines -/

/-- Lines put together to a text, with a line feed between any two. -/
def joined (raws : List (List Char)) : String :=
  String.ofList (['\n'].intercalate raws)

theorem splitOn_feed (rest : List Char) :
    ('\n' :: rest).splitOn '\n' = [] :: rest.splitOn '\n' := by
  simp [List.splitOn, List.splitOnP_cons_eq_if_modifyHead]

theorem splitOn_cons {c : Char} (inside : c ≠ '\n') (rest : List Char) :
    (c :: rest).splitOn '\n' = (rest.splitOn '\n').modifyHead (c :: ·) := by
  simp [List.splitOn, List.splitOnP_cons_eq_if_modifyHead, inside]

theorem single_of_mem_splitOn {text raw : List Char} (member : raw ∈ text.splitOn '\n') :
    '\n' ∉ raw := by
  induction text generalizing raw with
  | nil =>
      rw [List.mem_singleton.mp member]
      exact List.not_mem_nil
  | cons c rest ih =>
      by_cases feed : c = '\n'
      · rw [feed, splitOn_feed] at member
        rcases List.mem_cons.mp member with rfl | later
        · exact List.not_mem_nil
        · exact ih later
      · rw [splitOn_cons feed] at member
        cases split : rest.splitOn '\n' with
        | nil => exact absurd split (List.splitOn_ne_nil _ _)
        | cons line others =>
            rw [split] at ih member
            rcases List.mem_cons.mp member with rfl | later
            · simp [ih List.mem_cons_self, Ne.symm feed]
            · exact ih (List.mem_cons_of_mem _ later)

/-- Between line feeds stand the lines of a text, and an empty one at the end of a text
that is ended. -/
theorem splitOn_eq_lines (text : List Char) :
    text.splitOn '\n' = lines text ++ if Ended text then [[]] else [] := by
  induction text with
  | nil => rfl
  | cons c rest ih =>
      by_cases feed : c = '\n'
      · subst feed
        have same : Ended ('\n' :: rest) ↔ Ended rest := by
          cases rest <;> simp [Ended]
        simp only [splitOn_feed, ih, lines_feed, same, List.cons_append]
      · rw [splitOn_cons feed, ih]
        cases rest with
        | nil => simp [lines, feed, Ended]
        | cons d others =>
            have same : Ended (c :: d :: others) ↔ Ended (d :: others) := by simp [Ended]
            cases following : lines (d :: others) with
            | nil => simp [lines_eq_nil_iff] at following
            | cons line more => simp only [lines_cons feed following, same, List.cons_append,
                List.modifyHead_cons]

/-- The number of a line once another line stands after the first `index` lines. -/
def pastInsertion (index number : Nat) : Nat :=
  if index < number then number + 1 else number

end Text

namespace Position

/-- The position in a sheet whose indentations are wider by a factor. -/
def widen (factor : Nat) (position : Position) : Position where
  line := position.line
  column := position.column * factor

/-- The position in a sheet with one more line after the first `index` lines. -/
def makeRoom (index : Nat) (position : Position) : Position where
  line := Text.pastInsertion index position.line
  column := position.column

end Position

namespace Sheet
namespace Line

/-- The same line at another position. -/
def reposition (move : Position → Position) (line : Line) : Line where
  number := (move line.position).line
  width := (move line.position).column
  text := line.text

theorem reposition_makeRoom_of_lt {index : Nat} {line : Line} (below : index < line.number) :
    line.reposition (Position.makeRoom index) = line.down 1 := by
  simp [reposition, Position.makeRoom, Text.pastInsertion, position, below, down]

theorem reposition_makeRoom_of_le {index : Nat} {line : Line} (above : line.number ≤ index) :
    line.reposition (Position.makeRoom index) = line := by
  simp [reposition, Position.makeRoom, Text.pastInsertion, position, Nat.not_lt.mpr above]

/-! ## Lines that are passed over -/

/-- A raw line that is blank or whose text starts with a slash. -/
def passedOver (raw : List Char) : Bool :=
  match Text.trim raw with
  | [] => true
  | c :: _ => c = '/'

theorem read?_eq (number : Nat) (raw : List Char) :
    read? number raw =
      if passedOver raw then none else some ⟨number, Text.indentation raw, Text.trim raw⟩ := by
  unfold read? passedOver
  cases text : Text.trim raw with
  | nil => rfl
  | cons c rest => by_cases slash : c = '/' <;> simp [slash]

theorem readFrom_empty (first : Nat) : readFrom first [[]] = [] := by
  rfl

/-- The lines that take part can be read off the list of lines. -/
theorem ofSource_eq_readFrom (source : String) :
    ofSource source = readFrom 1 (source.toList.splitOn '\n') := by
  rw [Text.splitOn_eq_lines, readFrom_append, ofSource]
  split
  · rw [readFrom_empty, List.append_nil]
  · exact (List.append_nil _).symm

theorem ofSource_joined {raws : List (List Char)} (single : ∀ raw ∈ raws, '\n' ∉ raw) :
    ofSource (Text.joined raws) = readFrom 1 raws := by
  rw [ofSource_eq_readFrom, Text.joined, String.toList_ofList]
  cases raws with
  | nil => rfl
  | cons raw others => rw [List.splitOn_intercalate '\n' single (List.cons_ne_nil _ _)]

/-! ## Other blanks -/

/-- The raw line in another layout.  If it takes part, its indentation is replaced by
one that is wider by the factor; blanks may be appended in any case. -/
inductive Relaid (factor : Nat) : List Char → List Char → Prop where
  | taken {raw lead tail : List Char} (part : passedOver raw = false) (before : Text.Gap lead)
      (after : Text.Gap tail) (wide : lead.length = Text.indentation raw * factor) :
      Relaid factor raw (lead ++ Text.trimStart raw ++ tail)
  | passed {raw tail : List Char} (skipped : passedOver raw = true) (after : Text.Gap tail) :
      Relaid factor raw (raw ++ tail)

namespace Relaid

variable {factor : Nat} {raw relaid : List Char}

theorem trim_eq (same : Relaid factor raw relaid) : Text.trim relaid = Text.trim raw := by
  cases same with
  | taken part before after wide =>
      rw [Text.trim_append_gap after, Text.trim_gap_append before, Text.trim_trimStart]
  | passed skipped after => exact Text.trim_append_gap after raw

theorem single (same : Relaid factor raw relaid) (inside : '\n' ∉ raw) : '\n' ∉ relaid := by
  cases same with
  | taken part before after wide =>
      have kept : '\n' ∉ Text.trimStart raw :=
        fun member => inside ((List.dropWhile_sublist _).subset member)
      simp [before.single, kept, after.single]
  | passed skipped after => simp [inside, after.single]

theorem indentation_eq {lead tail : List Char} (part : passedOver raw = false)
    (before : Text.Gap lead) :
    Text.indentation (lead ++ Text.trimStart raw ++ tail) = lead.length := by
  rw [List.append_assoc]
  apply Text.indentation_gap_append before
  cases text : Text.trimStart raw with
  | nil =>
      rw [passedOver, Text.trim, text] at part
      cases part
  | cons c rest =>
      have visible := Text.isBlank_head_trimStart raw
      rw [text] at visible
      exact visible

/-- The line behind a raw line in another layout is the same line, further in. -/
theorem read?_eq (same : Relaid factor raw relaid) (number : Nat) :
    read? number relaid = (read? number raw).map (reposition (Position.widen factor)) := by
  have skips : passedOver relaid = passedOver raw := by rw [passedOver, same.trim_eq, passedOver]
  rw [Line.read?_eq, Line.read?_eq, skips, same.trim_eq]
  cases same with
  | taken part before after wide =>
      rw [part, indentation_eq part before, wide]
      rfl
  | passed skipped after =>
      rw [skipped]
      rfl

end Relaid

theorem single_relaid {factor : Nat} {raws relaid : List (List Char)}
    (same : List.Forall₂ (Relaid factor) raws relaid) (single : ∀ raw ∈ raws, '\n' ∉ raw) :
    ∀ raw ∈ relaid, '\n' ∉ raw := by
  induction same with
  | nil => exact single
  | cons here _ ih =>
      rw [List.forall_mem_cons] at single ⊢
      exact ⟨here.single single.1, ih single.2⟩

theorem readFrom_relaid {factor : Nat} {raws relaid : List (List Char)}
    (same : List.Forall₂ (Relaid factor) raws relaid) (first : Nat) :
    readFrom first relaid = (readFrom first raws).map (reposition (Position.widen factor)) := by
  induction same generalizing first with
  | nil => rfl
  | cons here _ ih =>
      rw [readFrom, readFrom, here.read?_eq, ih, List.map_append]
      cases read? first _ <;> rfl

/-- A source in another layout has the same lines, further in. -/
theorem ofSource_relaid {factor : Nat} {source : String} {relaid : List (List Char)}
    (same : List.Forall₂ (Relaid factor) (source.toList.splitOn '\n') relaid) :
    ofSource (Text.joined relaid) =
      (ofSource source).map (reposition (Position.widen factor)) := by
  have single := single_relaid same fun _ => Text.single_of_mem_splitOn
  rw [ofSource_joined single, ofSource_eq_readFrom, readFrom_relaid same]

/-! ## One line more -/

/-- Lines below an insertion move down by one, and those above it stay. -/
theorem readFrom_insertIdx {skipped : List Char} (silent : passedOver skipped = true)
    (before index : Nat) (raws : List (List Char)) :
    readFrom (before + 1) (raws.insertIdx index skipped) =
      (readFrom (before + 1) raws).map (reposition (Position.makeRoom (before + index))) := by
  induction index generalizing before raws with
  | zero =>
      rw [List.insertIdx_zero, readFrom, read?_eq, silent, readFrom_add]
      apply List.map_congr_left
      intro line member
      have below := (number_of_mem_readFrom member).1
      exact (reposition_makeRoom_of_lt (by omega)).symm
  | succ index ih =>
      cases raws with
      | nil => rfl
      | cons raw others =>
          have tail := ih (before + 1) others
          rw [Nat.add_assoc before 1 index, Nat.add_comm 1 index] at tail
          rw [List.insertIdx_succ_cons, readFrom, tail, readFrom, List.map_append]
          congr 1
          cases found : read? (before + 1) raw with
          | none => rfl
          | some line =>
              have number : line.number = before + 1 := by rw [eq_of_read? found]
              rw [Option.toList_some, List.map_singleton, reposition_makeRoom_of_le (by omega)]

/-- A source with a further line that is passed over has the same lines. -/
theorem ofSource_insertIdx {raws : List (List Char)} {skipped : List Char}
    (single : ∀ raw ∈ raws, '\n' ∉ raw) (inside : '\n' ∉ skipped)
    (silent : passedOver skipped = true) (index : Nat) :
    ofSource (Text.joined (raws.insertIdx index skipped)) =
      (ofSource (Text.joined raws)).map (reposition (Position.makeRoom index)) := by
  have singleInserted : ∀ raw ∈ raws.insertIdx index skipped, '\n' ∉ raw := by
    intro raw member
    rcases List.eq_or_mem_of_mem_insertIdx member with rfl | old
    · exact inside
    · exact single raw old
  have inserted := readFrom_insertIdx silent 0 index raws
  rw [Nat.zero_add] at inserted
  rw [ofSource_joined singleInserted, ofSource_joined single, inserted, Nat.zero_add]

end Line
end Sheet
end StyleOrder
