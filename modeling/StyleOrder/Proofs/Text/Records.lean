import StyleOrder.Proofs.Sheet.Sources
import StyleOrder.Text.Number

namespace StyleOrder
namespace Text

/-!
# Records in a text

Output for programs has one record on a line, and marks between the parts of a
record.  What was put together can be taken apart again as long as the parts do not
contain the marks at which they are divided.  If one part may contain them, it has to
be the first or the last, and the record is divided from the other end.

Numbers are written in decimal digits, which contain no mark.
-/

/-! ## Lines -/

theorem ended_append_feed (line : List Char) : Ended (line ++ ['\n']) := by
  intro c last
  rw [Option.mem_def, List.getLast?_concat] at last
  exact (Option.some.inj last).symm

theorem lines_append_feed {line : List Char} (single : '\n' ∉ line) :
    lines (line ++ ['\n']) = [line] := by
  induction line with
  | nil => rfl
  | cons c rest ih =>
      rw [List.mem_cons, not_or] at single
      exact lines_cons (Ne.symm single.1) (ih single.2)

/-- Lines that are written with their line feeds, one after the other, are the lines of
the text. -/
theorem lines_flatMap_feed {records : List (List Char)}
    (single : ∀ record ∈ records, '\n' ∉ record) :
    lines (records.flatMap (· ++ ['\n'])) = records := by
  induction records with
  | nil => rfl
  | cons record others ih =>
      have first := single record List.mem_cons_self
      have rest := ih fun other member => single other (List.mem_cons_of_mem record member)
      rw [List.flatMap_cons, lines_append (ended_append_feed record), lines_append_feed first, rest]
      rfl

/-! ## Parts of a line -/

/-- The parts of a text before and after the first mark. -/
def cut? (mark : Char) : List Char → Option (List Char × List Char)
  | [] => none
  | c :: rest =>
      if c = mark then some ([], rest)
      else (cut? mark rest).map fun parts => (c :: parts.1, parts.2)

theorem cut?_append {mark : Char} {before : List Char} (unmarked : mark ∉ before)
    (after : List Char) : cut? mark (before ++ mark :: after) = some (before, after) := by
  induction before with
  | nil => exact if_pos rfl
  | cons c rest ih =>
      rw [List.mem_cons, not_or] at unmarked
      rw [List.cons_append, cut?, if_neg (Ne.symm unmarked.1), ih unmarked.2]
      rfl

theorem not_mem_intercalate {mark : Char} {separator : List Char} (apart : mark ∉ separator)
    {parts : List (List Char)} (unmarked : ∀ part ∈ parts, mark ∉ part) :
    mark ∉ separator.intercalate parts := by
  induction parts with
  | nil => exact List.not_mem_nil
  | cons part others ih =>
      have first := unmarked part List.mem_cons_self
      have rest := ih fun other member => unmarked other (List.mem_cons_of_mem part member)
      cases others with
      | nil => rwa [List.intercalate_singleton]
      | cons next more =>
          rw [List.intercalate_cons_cons]
          simp only [List.mem_append, not_or]
          exact ⟨⟨first, apart⟩, rest⟩

/-- A text divided at its last marks, at most as many as given. -/
def splitLast (mark : Char) : (count : Nat) → List Char → List (List Char)
  | 0, text => [text]
  | count + 1, text =>
      match cut? mark text.reverse with
      | none => [text]
      | some (after, before) => splitLast mark count before.reverse ++ [after.reverse]

theorem splitLast_append {mark : Char} {after : List Char} (unmarked : mark ∉ after) (count : Nat)
    (before : List Char) :
    splitLast mark (count + 1) (before ++ mark :: after) =
      splitLast mark count before ++ [after] := by
  have turned : (before ++ mark :: after).reverse = after.reverse ++ mark :: before.reverse := by
    simp
  have last : mark ∉ after.reverse := fun member => unmarked (List.mem_reverse.mp member)
  rw [splitLast, turned, cut?_append last]
  simp only [List.reverse_reverse]

/-! ## Numbers -/

theorem not_mem_toDigits {c : Char} (other : c.isDigit = false) (number : Nat) :
    c ∉ Nat.toDigits 10 number := by
  intro member
  rw [Nat.isDigit_of_mem_toDigits (by decide) (by decide) member] at other
  cases other

end Text
end StyleOrder
