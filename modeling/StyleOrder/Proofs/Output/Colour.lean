import Mathlib.Data.List.Basic
import StyleOrder.Output.Print
import StyleOrder.Proofs.Text.Records

namespace StyleOrder
namespace Output

/-!
# Colour adds nothing but control sequences

Output is put together from pieces, and only a piece with a style looks different in
colour.  A control sequence begins with the escape character.  As long as no text
contains that character, all control sequences of an output are those of its styles, and
taking them away leaves the text, whatever brackets, digits and letters stand next to
them.

The notations that programs read have no styles.  In the one that is a single document, an
escape character would itself be escaped.
-/

/-! ## Taking control sequences away -/

/-- The parameters of a control sequence are digits and semicolons. -/
def isParameter (c : Char) : Bool :=
  Text.isDigit c || c == ';'

/-- The text after the control sequence that a text begins with, if it begins with one. -/
def afterSequence? : List Char → Option (List Char)
  | '\x1b' :: '[' :: rest =>
      match rest.dropWhile isParameter with
      | 'm' :: after => some after
      | _ => none
  | _ => none

theorem length_lt_of_afterSequence? {text after : List Char}
    (found : afterSequence? text = some after) : after.length < text.length := by
  unfold afterSequence? at found
  split at found
  · rename_i rest
    split at found
    · rename_i dropped
      have shorter := (List.dropWhile_suffix isParameter (l := rest)).length_le
      rw [dropped] at shorter
      obtain rfl := Option.some.inj found
      simp only [List.length_cons] at shorter ⊢
      omega
    · cases found
  · cases found

/-- A text without its control sequences. -/
def uncoloured (text : List Char) : List Char :=
  match text with
  | [] => []
  | c :: rest =>
      match _found : afterSequence? (c :: rest) with
      | some after => uncoloured after
      | none => c :: uncoloured rest
termination_by text.length
decreasing_by
  · exact length_lt_of_afterSequence? _found
  · exact Nat.lt_succ_self _

theorem uncoloured_cons {c : Char} (other : c ≠ Style.escape) (rest : List Char) :
    uncoloured (c :: rest) = c :: uncoloured rest := by
  have none : afterSequence? (c :: rest) = none := by
    unfold afterSequence?
    split
    · rename_i same
      exact absurd (List.cons.inj same).1 other
    · rfl
  rw [uncoloured]
  split
  · rename_i found
    rw [none] at found
    cases found
  · rfl

/-- A text without escape character stays. -/
theorem uncoloured_append {text : List Char} (plain : Style.escape ∉ text) (rest : List Char) :
    uncoloured (text ++ rest) = text ++ uncoloured rest := by
  induction text with
  | nil => rfl
  | cons c others ih =>
      rw [List.mem_cons, not_or] at plain
      rw [List.cons_append, uncoloured_cons (Ne.symm plain.1), ih plain.2, List.cons_append]

/-- A control sequence goes, whatever comes after it. -/
theorem uncoloured_sequence {codes : List Char} (parameters : ∀ c ∈ codes, isParameter c = true)
    (rest : List Char) :
    uncoloured (Style.escape :: '[' :: (codes ++ 'm' :: rest)) = uncoloured rest := by
  have dropped : (codes ++ 'm' :: rest).dropWhile isParameter = 'm' :: rest := by
    rw [List.dropWhile_append_of_pos parameters]
    rfl
  have found : afterSequence? (Style.escape :: '[' :: (codes ++ 'm' :: rest)) = some rest := by
    simp only [afterSequence?, Style.escape, dropped]
  rw [uncoloured]
  split
  · rename_i after same
    rw [found] at same
    rw [Option.some.inj same]
  · rename_i none
    rw [found] at none
    cases none

/-! ## Pieces -/

namespace Style

theorem isParameter_codes (style : Style) : ∀ c ∈ style.codes, isParameter c = true := by
  cases style <;> exact List.all_eq_true.mp rfl

/-- There is nothing to switch on again in a text without escape character. -/
theorem reopen_eq {text : List Char} (plain : escape ∉ text) (opening : List Char) :
    reopen opening text = text := by
  induction text with
  | nil => rfl
  | cons c rest ih =>
      rw [List.mem_cons, not_or] at plain
      unfold reopen
      split
      · rename_i same
        exact absurd (List.cons.inj same).1.symm plain.1
      · rename_i same
        obtain ⟨rfl, rfl⟩ := List.cons.inj same
        rw [ih plain.2]
      · contradiction

theorem uncoloured_wrap (style : Style) {text : List Char} (plain : escape ∉ text)
    (rest : List Char) : uncoloured (style.wrap text ++ rest) = text ++ uncoloured rest := by
  have split : style.wrap text ++ rest =
      escape :: '[' :: (style.codes ++ 'm' :: (text ++ escape :: '[' :: (['0'] ++ 'm' :: rest))) := by
    simp only [wrap, opening, reset, reopen_eq plain, List.cons_append, List.append_assoc,
      List.nil_append]
  rw [split, uncoloured_sequence style.isParameter_codes, uncoloured_append plain,
    uncoloured_sequence (List.all_eq_true.mp rfl)]

end Style

/-- A text without escape character. -/
def Plain (text : String) : Prop :=
  Style.escape ∉ text.toList

instance (text : String) : Decidable (Plain text) :=
  inferInstanceAs (Decidable (Style.escape ∉ text.toList))

namespace Piece

def text : Piece → String
  | plain text => text
  | styled _ text => text

theorem uncoloured_render {piece : Piece} (plain : Plain piece.text) (rest : List Char) :
    uncoloured (piece.render true ++ rest) = piece.render false ++ uncoloured rest := by
  cases piece with
  | plain text => exact uncoloured_append plain rest
  | styled style text => exact style.uncoloured_wrap plain rest

end Piece

/-- What is written in colour is, without its control sequences, what is written without
colour. -/
theorem uncoloured_render {pieces : List Piece} (plain : ∀ piece ∈ pieces, Plain piece.text) :
    uncoloured (render true pieces).toList = (render false pieces).toList := by
  simp only [render, String.toList_ofList]
  induction pieces with
  | nil => rw [List.flatMap_nil, uncoloured, List.flatMap_nil]
  | cons piece others ih =>
      rw [List.forall_mem_cons] at plain
      rw [List.flatMap_cons, List.flatMap_cons, Piece.uncoloured_render plain.1, ih plain.2]

/-- Pieces without style are written in the same way with and without colour. -/
theorem render_of_unstyled {pieces : List Piece}
    (unstyled : ∀ piece ∈ pieces, ∃ text, piece = .plain text) :
    render true pieces = render false pieces := by
  refine congrArg String.ofList (List.flatMap_congr ?_)
  intro piece member
  rcases unstyled piece member with ⟨text, rfl⟩
  rfl

/-! ## Texts without escape character -/

theorem plain_append {first second : String} :
    Plain (first ++ second) ↔ Plain first ∧ Plain second := by
  rw [Plain, String.toList_append, List.mem_append, not_or]
  rfl

theorem plain_ofList {text : List Char} : Plain (String.ofList text) ↔ Style.escape ∉ text := by
  rw [Plain, String.toList_ofList]

theorem plain_toString (number : Nat) : Plain (toString number) := by
  rw [Plain, Nat.toString_eq_repr, Nat.toList_repr]
  exact Text.not_mem_toDigits rfl number

end Output

namespace Decimal

theorem not_mem_zeros {c : Char} (other : c.isDigit = false) (count : Nat) : c ∉ zeros count := by
  intro member
  rw [(List.mem_replicate.mp member).2] at other
  cases other

/-- A number is written with digits, a point, a sign and the mark of an exponent. -/
theorem not_mem_notate {c : Char} (other : c.isDigit = false) (unmarked : c ∉ ['.', 'e', '-', '+'])
    (digits : Nat) (power : Int) : c ∉ notate digits power := by
  have zero : c ≠ '0' := by
    rintro rfl
    cases other
  have number := Text.not_mem_toDigits other
  have zeros := not_mem_zeros other
  simp only [List.mem_cons, List.not_mem_nil, or_false, not_or] at unmarked
  rcases unmarked with ⟨point, mark, minus, plus⟩
  unfold notate
  split
  · simp [zero, point]
  · dsimp only
    have taken := fun count => mt (List.mem_of_mem_take (i := count)) (number digits)
    have dropped := fun count => mt (List.mem_of_mem_drop (i := count)) (number digits)
    split
    · unfold pointed
      split
      · simp [zero, point, zeros, number]
      · split <;> simp [zero, point, zeros, number, taken, dropped]
    · have inside := number digits
      unfold scientific exponentDigits
      simp only [List.mem_append, List.mem_cons, not_or]
      refine ⟨?_, mark, ?_, zeros _, number _⟩
      · split
        · rename_i split
          rw [split] at inside
          simp only [List.mem_cons, not_or] at inside ⊢
          exact ⟨inside.1, point, inside.2⟩
        · exact inside
      · split
        · exact minus
        · exact plus

end Decimal

namespace Output

open Value (write writeItems writeFields writeString escapeChar newline)

/-- In a string the escape character is written by its number. -/
theorem escape_not_mem_escapeChar (c : Char) : Style.escape ∉ escapeChar c := by
  have digit : ∀ value < 16, Style.escape ≠ Nat.digitChar value := by decide
  unfold escapeChar
  split
  · decide
  split
  · decide
  split
  · decide
  split
  · decide
  split
  · decide
  split
  · decide
  split
  · decide
  split
  · rename_i control
    have high := digit (c.toNat / 16) (by omega)
    have low := digit (c.toNat % 16) (by omega)
    simp only [List.mem_cons, List.not_mem_nil, or_false, not_or]
    exact ⟨by decide, by decide, by decide, by decide, high, low⟩
  · rename_i visible
    rw [List.mem_singleton]
    rintro rfl
    exact visible (by decide)

theorem plain_writeString (text : String) : Plain (writeString text) := by
  rw [writeString, plain_ofList]
  simp only [List.cons_append, List.mem_cons, List.mem_append, List.mem_flatMap, not_or]
  refine ⟨by decide, ?_, by decide⟩
  rintro ⟨c, -, member⟩
  exact escape_not_mem_escapeChar c member

theorem plain_newline (depth : Nat) : Plain (newline depth) := by
  rw [newline, plain_ofList, List.mem_cons, not_or]
  refine ⟨by decide, fun member => ?_⟩
  cases (List.mem_replicate.mp member).2

theorem plain_decimal (number : Float) : Plain (Decimal.text number) := by
  have digits := Decimal.not_mem_notate (show Style.escape.isDigit = false from rfl) (by decide)
  rw [Decimal.text, plain_ofList, List.mem_append, not_or]
  refine ⟨?_, digits _ _⟩
  split <;> decide

theorem plain_integer (number : Int) : Plain (toString number) := by
  cases number with
  | ofNat size => exact plain_toString size
  | negSucc size =>
      change Plain ("-" ++ toString (size + 1))
      exact plain_append.mpr ⟨by decide, plain_toString _⟩

mutual

/-- No written value contains the escape character. -/
theorem plain_write (depth : Nat) (value : Value) : Plain (write depth value) := by
  cases value with
  | null => exact (by decide : Plain "null")
  | bool value =>
      cases value with
      | false => exact (by decide : Plain "false")
      | true => exact (by decide : Plain "true")
  | integer number => exact plain_integer number
  | real number => exact plain_decimal number
  | string text => exact plain_writeString text
  | list items =>
      cases items with
      | nil => exact (by decide : Plain "[]")
      | cons item rest =>
          simp only [write, plain_append, and_assoc]
          exact ⟨by decide, plain_newline _, plain_write _ item, plain_writeItems _ rest,
            plain_newline _, by decide⟩
  | object fields =>
      cases fields with
      | nil => exact (by decide : Plain "\x7b\x7d")
      | cons field rest =>
          simp only [write, plain_append, and_assoc]
          exact ⟨by decide, plain_newline _, plain_writeString _, by decide,
            plain_write _ field.2, plain_writeFields _ rest, plain_newline _, by decide⟩

theorem plain_writeItems (depth : Nat) (items : List Value) : Plain (writeItems depth items) := by
  cases items with
  | nil => exact (by decide : Plain "")
  | cons item rest =>
      simp only [writeItems, plain_append, and_assoc]
      exact ⟨by decide, plain_newline _, plain_write _ item, plain_writeItems _ rest⟩

theorem plain_writeFields (depth : Nat) (fields : List (String × Value)) :
    Plain (writeFields depth fields) := by
  cases fields with
  | nil => exact (by decide : Plain "")
  | cons field rest =>
      simp only [writeFields, plain_append, and_assoc]
      exact ⟨by decide, plain_newline _, plain_writeString _, by decide, plain_write _ field.2,
        plain_writeFields _ rest⟩

end

/-! ## Reports -/

/-- No name or text in a report contains the escape character. -/
structure PlainReport (report : Report) : Prop where
  files : ∀ file ∈ report.files, Plain file.file
  violations : ∀ violation ∈ report.violations,
    Plain violation.file ∧ Plain violation.message ∧ Plain violation.rule
  errors : ∀ failure ∈ report.errors, Plain failure.2.message

namespace PlainReport

variable {report : Report} (plain : PlainReport report)

include plain

/-- A file that could not be linted has a name among those of the files. -/
theorem failure {file : String} {error : LintError} (member : (file, error) ∈ report.errors) :
    Plain file ∧ Plain error.message := by
  refine ⟨?_, plain.errors _ member⟩
  rcases List.mem_filterMap.mp member with ⟨named, listed, found⟩
  rcases Option.map_eq_some_iff.mp found with ⟨_, -, same⟩
  rw [← (Prod.mk.inj same).1]
  exact plain.files named listed

theorem classic :
    (∀ piece ∈ (classic report).out, Plain piece.text) ∧
      ∀ piece ∈ (classic report).err, Plain piece.text := by
  constructor
  · intro piece member
    rcases List.mem_map.mp member with ⟨violation, reported, rfl⟩
    rcases plain.violations violation reported with ⟨file, message, -⟩
    simp only [Piece.text, Violation.text, plain_append, and_assoc]
    exact ⟨file, by decide, plain_toString _, by decide, plain_toString _, by decide, message,
      by decide⟩
  · intro piece member
    rcases List.mem_map.mp member with ⟨⟨file, error⟩, failed, rfl⟩
    rcases plain.failure failed with ⟨name, message⟩
    simp only [Piece.text, plain_append, and_assoc]
    exact ⟨name, by decide, message, by decide⟩

theorem humanViolation {violation : Violation} (reported : violation ∈ report.violations) :
    ∀ piece ∈ humanViolation violation, Plain piece.text := by
  rcases plain.violations violation reported with ⟨file, message, rule⟩
  have place : Plain ("\n" ++ violation.file ++ ":" ++ toString violation.position.line ++ ":" ++
      toString violation.position.column ++ ": ") := by
    simp only [plain_append, and_assoc]
    exact ⟨by decide, file, by decide, plain_toString _, by decide, plain_toString _, by decide⟩
  rw [Output.humanViolation]
  cases violation.severity <;>
  · simp only [List.forall_mem_cons, Piece.text]
    exact ⟨place, by decide, by decide, message, by decide, by decide, by decide, rule, by decide,
      nofun⟩

omit plain in
theorem verdict (errors warnings : Nat) : Plain (Output.verdict errors warnings).text := by
  unfold Output.verdict
  split <;> split <;> simp only [Piece.text, plain_append, and_assoc]
  · decide
  · exact ⟨by decide, plain_toString _, by decide⟩
  · exact ⟨by decide, plain_toString _, by decide⟩
  · exact ⟨by decide, plain_toString _, by decide, plain_toString _, by decide⟩

omit plain in
/-- A summary is made of fixed words and numbers. -/
theorem summary (report : Report) : ∀ piece ∈ Output.summary report, Plain piece.text := by
  have failed : ∀ count : Nat, ∀ piece ∈ (if count = 0 then []
      else [.styled .red ("✗ " ++ toString count ++ " file(s) could not be linted"),
        .plain "\n"] : List Piece), Plain piece.text := by
    intro count
    split
    · exact nofun
    · simp only [List.forall_mem_cons, Piece.text, plain_append, and_assoc]
      exact ⟨by decide, plain_toString _, by decide, by decide, nofun⟩
  rw [Output.summary]
  simp only [List.forall_mem_append, List.forall_mem_cons]
  refine ⟨⟨⟨by decide, verdict _ _, by decide, nofun⟩, failed _⟩, by decide, by decide, ?_, nofun⟩
  simp only [Piece.text, plain_append, and_assoc]
  exact ⟨by decide, plain_toString _, by decide⟩

theorem human (quiet : Bool) :
    (∀ piece ∈ (human report quiet).out, Plain piece.text) ∧
      ∀ piece ∈ (human report quiet).err, Plain piece.text := by
  constructor
  · refine List.forall_mem_append.mpr ⟨?_, ?_⟩
    · exact List.forall_mem_flatMap.mpr fun violation reported => plain.humanViolation reported
    · cases quiet with
      | true => exact nofun
      | false => exact summary report
  · refine List.forall_mem_flatMap.mpr ?_
    rintro ⟨file, error⟩ failed
    rcases plain.failure failed with ⟨name, message⟩
    simp only [complaint, List.forall_mem_cons, Piece.text, plain_append, and_assoc]
    exact ⟨by decide, by decide, name, by decide, message, by decide, nofun⟩

omit plain in
/-- Escaping for a command brings no escape character in. -/
theorem escape {escapeChar : Char → List Char}
    (kept : ∀ c, c ≠ Style.escape → Style.escape ∉ escapeChar c) {text : String}
    (free : Plain text) : Plain (Notice.escape escapeChar text) := by
  rw [Notice.escape, plain_ofList, List.mem_flatMap]
  rintro ⟨c, member, made⟩
  refine kept c ?_ made
  rintro rfl
  exact free member

omit plain in
theorem escapeText (c : Char) (other : c ≠ Style.escape) :
    Style.escape ∉ Notice.escapeText c := by
  unfold Notice.escapeText
  split
  · decide
  split
  · decide
  split
  · decide
  · rw [List.mem_singleton]
    exact Ne.symm other

omit plain in
theorem escapeProperty (c : Char) (other : c ≠ Style.escape) :
    Style.escape ∉ Notice.escapeProperty c := by
  unfold Notice.escapeProperty
  split
  · decide
  split
  · decide
  · exact escapeText c other

omit plain in
theorem write {notice : Notice} (file : Plain notice.file) (text : Plain notice.text) :
    Plain notice.write := by
  have word : Plain notice.severity.text := by cases notice.severity <;> decide
  simp only [Notice.write, plain_append, and_assoc]
  refine ⟨by decide, word, by decide, escape escapeProperty file, ?line, ?column, by decide,
    escape escapeText text, by decide⟩
  case line =>
    cases notice.line with
    | none => decide
    | some line => exact plain_append.mpr ⟨by decide, plain_toString line⟩
  case column =>
    cases notice.column with
    | none => decide
    | some column => exact plain_append.mpr ⟨by decide, plain_toString column⟩

theorem github : ∀ piece ∈ (github report).out, Plain piece.text := by
  refine List.forall_mem_map.mpr ?_
  refine List.forall_mem_append.mpr ⟨List.forall_mem_map.mpr ?_, List.forall_mem_map.mpr ?_⟩
  · intro violation reported
    rcases plain.violations violation reported with ⟨file, message, rule⟩
    refine write file ?_
    simp only [Notice.ofViolation, plain_append, and_assoc]
    exact ⟨message, by decide, rule, by decide⟩
  · rintro ⟨file, error⟩ failed
    rcases plain.failure failed with ⟨name, message⟩
    exact write name message

/-- In every format the texts that are printed contain no escape character. -/
theorem print (format : Format) (quiet : Bool) :
    (∀ piece ∈ (print report format quiet).out, Plain piece.text) ∧
      ∀ piece ∈ (print report format quiet).err, Plain piece.text := by
  cases format with
  | classic => exact plain.classic
  | human => exact plain.human quiet
  | json =>
      refine ⟨List.forall_mem_singleton.mpr ?_, nofun⟩
      exact plain_append.mpr ⟨plain_write 0 _, by decide⟩
  | github => exact ⟨plain.github, nofun⟩

end PlainReport

/-- Only the format for people has styles. -/
theorem unstyled_print (report : Report) {format : Format} (quiet : Bool)
    (other : format ≠ .human) :
    (∀ piece ∈ (print report format quiet).out, ∃ text, piece = .plain text) ∧
      ∀ piece ∈ (print report format quiet).err, ∃ text, piece = .plain text := by
  cases format with
  | classic =>
      exact ⟨List.forall_mem_map.mpr fun _ _ => ⟨_, rfl⟩,
        List.forall_mem_map.mpr fun _ _ => ⟨_, rfl⟩⟩
  | human => exact absurd rfl other
  | json => exact ⟨List.forall_mem_singleton.mpr ⟨_, rfl⟩, nofun⟩
  | github => exact ⟨List.forall_mem_map.mpr fun _ _ => ⟨_, rfl⟩, nofun⟩

/-- Whatever is printed in colour is, without its control sequences, what is printed without
colour, on both streams, provided that no name or text of the report contains the escape
character.  In the formats other than the one for people there is no difference, whatever
they contain. -/
theorem print_uncoloured (report : Report) (format : Format) (quiet : Bool) :
    let written := print report format quiet
    (PlainReport report →
      uncoloured (render true written.out).toList = (render false written.out).toList ∧
      uncoloured (render true written.err).toList = (render false written.err).toList) ∧
    (format ≠ .human →
      render true written.out = render false written.out ∧
      render true written.err = render false written.err) := by
  intro written
  constructor
  · intro plain
    rcases plain.print format quiet with ⟨out, err⟩
    exact ⟨uncoloured_render out, uncoloured_render err⟩
  · intro other
    rcases unstyled_print report quiet other with ⟨out, err⟩
    exact ⟨render_of_unstyled out, render_of_unstyled err⟩

/-- Names and texts that continue and complete the control sequences around them. -/
theorem print_uncoloured_disguised :
    let report : Report := ⟨[
      ⟨"[0m", .ok [⟨"[0m", ⟨4, 2⟩, .warning, "1m[31m", ";1m"⟩]⟩,
      ⟨"m", .error (.unreadable "[" (.other "0m"))⟩]⟩
    let written := print report .human false
    render true written.err =
        "\x1b[1;31merror:\x1b[0m m: failed to read [: 0m\n" ∧
      uncoloured (render true written.out).toList = (render false written.out).toList ∧
      uncoloured (render true written.err).toList = "error: m: failed to read [: 0m\n".toList ∧
      render true (print report .github false).out = render false (print report .github false).out := by
  intro report written
  have plain : PlainReport report := by
    refine ⟨?_, ?_, ?_⟩
    · simp only [report, List.forall_mem_cons]
      exact ⟨by decide, by decide, nofun⟩
    · exact List.forall_mem_singleton.mpr ⟨by decide, by decide, by decide⟩
    · exact List.forall_mem_singleton.mpr (by decide)
  rcases (print_uncoloured report .human false).1 plain with ⟨out, err⟩
  refine ⟨by decide +kernel, out, err.trans (by decide +kernel), ?_⟩
  exact ((print_uncoloured report .github false).2 (by decide)).1

end Output
end StyleOrder
