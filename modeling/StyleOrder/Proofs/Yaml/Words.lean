import StyleOrder.Yaml.Scalar

namespace StyleOrder
namespace Yaml

/-!
# Words

A word has small letters and underscores only.  None of them is a sign, a gap or the
end of a line, so nothing inside a word can end it.  What comes after it decides where a
plain scalar ends: the colon of a key ends it at once, and the end of a line ends it if the
next line does not reach the column that a scalar of several lines would need.
-/

/-- Small letters and the underscore. -/
def isSmall (c : Char) : Bool :=
  ('a' ≤ c && c ≤ 'z') || c == '_'

section Small

variable {c : Char} (small : isSmall c)

include small

theorem beq_of_isSmall {other : Char} (unlike : isSmall other = false) : (c == other) = false := by
  refine beq_false_of_ne ?_
  rintro rfl
  rw [small] at unlike
  cases unlike

theorem isGap_of_isSmall : isGap c = false := by
  rw [isGap, beq_of_isSmall small rfl, beq_of_isSmall small rfl, Bool.or_false]

theorem isBreak_of_isSmall : isBreak c = false := by
  rw [isBreak, beq_of_isSmall small rfl, beq_of_isSmall small rfl, Bool.or_false]

end Small

/-- A text of small letters and underscores that is not empty. -/
structure Word (text : List Char) : Prop where
  nonempty : text ≠ []
  small : ∀ c ∈ text, isSmall c

/-- A text that is at its end or goes on with a word. -/
def Begins (text : List Char) : Prop :=
  ∀ c ∈ text.head?, isSmall c

theorem Word.not_mem {word : List Char} {other : Char} (isWord : Word word)
    (unlike : isSmall other = false) : other ∉ word := by
  intro member
  rw [isWord.small other member] at unlike
  cases unlike

theorem Word.exists_small {word : List Char} (isWord : Word word) (rest : List Char) :
    ∃ c others, word ++ rest = c :: others ∧ isSmall c := by
  cases word with
  | nil => exact absurd rfl isWord.nonempty
  | cons c others => exact ⟨c, others ++ rest, rfl, isWord.small c List.mem_cons_self⟩

theorem Word.begins {word : List Char} (isWord : Word word) (rest : List Char) :
    Begins (word ++ rest) := by
  rcases isWord.exists_small rest with ⟨c, others, same, small⟩
  rw [same]
  intro first head
  rwa [← Option.some.inj head]

theorem markerAhead_cons {c : Char} (rest : List Char) (dash : (c == '-') = false)
    (point : (c == '.') = false) : markerAhead (c :: rest) = false := by
  unfold markerAhead
  split
  · rename_i same
    rw [← (List.cons.inj same).1, dash, point]
    rfl
  · rfl

section Begins

variable {text : List Char} (begins : Begins text)

include begins

theorem Begins.head?_beq {other : Char} (unlike : isSmall other = false) :
    (text.head? == some other) = false := by
  cases text with
  | nil => rfl
  | cons c rest => exact beq_of_isSmall (begins c rfl) unlike

theorem Begins.markerAhead : markerAhead text = false := by
  cases text with
  | nil => rfl
  | cons c rest =>
      exact markerAhead_cons rest (beq_of_isSmall (begins c rfl) rfl)
        (beq_of_isSmall (begins c rfl) rfl)

end Begins

namespace Cursor

variable {least : Int} {index line column : Nat} {fresh ended : Bool} {text : List Char}

theorem nextContent_begins (begins : Begins text) (fuel : Nat) :
    nextContent least (fuel + 1) ended ⟨text, index, line, column, fresh⟩ =
      some (⟨text, index, line, column, fresh⟩, ended) := by
  cases text with
  | nil => rfl
  | cons c rest =>
      have small : isSmall c := begins c rfl
      simp only [nextContent, isGap_of_isSmall small, isBreak_of_isSmall small,
        beq_of_isSmall small (rfl : isSmall '\t' = false),
        beq_of_isSmall small (rfl : isSmall '#' = false)]
      rfl

theorem nextContent_spaces (fuel count : Nat) :
    nextContent least (fuel + count) ended
        ⟨List.replicate count ' ' ++ text, index, line, column, fresh⟩ =
      nextContent least fuel ended ⟨text, index + count, line, column + count, fresh⟩ := by
  induction count generalizing index column with
  | zero => rfl
  | succ count ih =>
      rw [List.replicate_succ, ← Nat.add_assoc, nextContent]
      simp [along, isGap, ih, Nat.add_assoc, Nat.add_comm 1]

/-- A word is content. -/
theorem toContent_begins (begins : Begins text) :
    toContent least ⟨text, index, line, column, fresh⟩ =
      some (⟨text, index, line, column, fresh⟩, false) :=
  nextContent_begins begins text.length

/-- After the end of a line comes the content of the next line. -/
theorem toContent_nextLine (begins : Begins text) (indent : Nat) :
    toContent least ⟨'\n' :: (List.replicate indent ' ' ++ text), index, line, column, fresh⟩ =
      some (⟨text, index + 1 + indent, line + 1, indent, true⟩, true) := by
  have size : ('\n' :: (List.replicate indent ' ' ++ text)).length + 1 =
      text.length + 1 + indent + 1 := by
    simp
    omega
  rw [toContent, size, nextContent]
  simp [isGap, isBreak, nextLine, nextContent_spaces, nextContent_begins begins]

end Cursor

/-! ## Plain scalars -/

section Plain

variable {word : List Char} (isWord : Word word) {least : Int} {index line column : Nat}
  {fresh : Bool} {rest text : List Char}

theorem plainRun_append (small : ∀ c ∈ word, isSmall c) (ends : plainRun false rest = []) :
    plainRun false (word ++ rest) = word := by
  induction word with
  | nil => exact ends
  | cons c others ih =>
      rcases List.forall_mem_cons.mp small with ⟨first, small⟩
      rw [List.cons_append, plainRun, isGap_of_isSmall first, isBreak_of_isSmall first,
        beq_of_isSmall first rfl, ih small]
      rfl

theorem plainGap_begins (begins : Begins text) (fuel : Nat) (fold : Fold) :
    plainGap least (fuel + 1) fold ⟨text, index, line, column, fresh⟩ =
      some (fold, ⟨text, index, line, column, fresh⟩) := by
  cases text with
  | nil => rfl
  | cons c rest =>
      have small : isSmall c := begins c rfl
      simp only [plainGap, isGap_of_isSmall small, isBreak_of_isSmall small]
      rfl

theorem plainGap_spaces (fuel count : Nat) {fold : Fold} (ended : fold.ended) :
    plainGap least (fuel + count) fold
        ⟨List.replicate count ' ' ++ text, index, line, column, fresh⟩ =
      plainGap least fuel fold ⟨text, index + count, line, column + count, fresh⟩ := by
  induction count generalizing index column with
  | zero => rfl
  | succ count ih =>
      rw [List.replicate_succ, ← Nat.add_assoc, plainGap]
      simp [Cursor.along, isGap, Fold.addGap, ended, ih, Nat.add_assoc, Nat.add_comm 1]

include isWord

/-- A word is a whole scalar if the next line does not reach its column. -/
theorem plainText_word {next : Cursor} {fuel : Nat} (ends : plainRun false rest = [])
    (gap : ∃ fold, plainGap least fuel {}
      ⟨rest, index + word.length, line, column + word.length, false⟩ = some (fold, next))
    (ended : next.index = index + word.length ∨ next.column < least) :
    plainText false least (fuel + 1) [] ⟨word ++ rest, index, line, column, fresh⟩ =
      some (word, next) := by
  rcases gap with ⟨fold, gap⟩
  have begins := isWord.begins rest
  have past : (⟨word ++ rest, index, line, column, fresh⟩ : Cursor).past word.length =
      ⟨rest, index + word.length, line, column + word.length, false⟩ := by
    simp [Cursor.past, Cursor.along]
  have unmarked : ((fresh && markerAhead (word ++ rest)) ||
      Cursor.charAhead '#' ⟨word ++ rest, index, line, column, fresh⟩) = false := by
    rw [begins.markerAhead, Cursor.charAhead, begins.head?_beq rfl, Bool.and_false, Bool.or_false]
  have stops : (next.index = index + word.length || (!false && next.column < least)) = true := by
    simpa using ended
  rw [plainText, if_neg (by rw [unmarked]; decide), if_neg (by exact Bool.false_ne_true)]
  dsimp only
  rw [plainRun_append isWord.small ends]
  split
  · exact absurd rfl isWord.nonempty
  · rw [past, gap]
    exact if_pos stops

theorem plain_eq_some {width : Int} {next : Cursor}
    (read : plainText false (width + 1) ((word ++ rest).length + 2) []
      ⟨word ++ rest, index, line, column, fresh⟩ = some (word, next)) :
    plain false width ⟨word ++ rest, index, line, column, fresh⟩ = some (word, next) := by
  have filled : (!word.isEmpty) = true := by simp [isWord.nonempty]
  simp only [plain, read, Option.filter, filled, if_true]
  rfl

/-- A key ends before its colon. -/
theorem plain_key (width : Int) (apart : gapAhead rest) :
    plain false width ⟨word ++ ':' :: rest, index, line, column, fresh⟩ =
      some (word, ⟨':' :: rest, index + word.length, line, column + word.length, false⟩) := by
  apply plain_eq_some isWord
  refine plainText_word isWord ?_ ⟨{}, ?_⟩ (.inl rfl)
  · simp [plainRun, apart]
  · simp [plainGap, isGap, isBreak]

/-- A word at the end of a line ends there, if the next line is not deeper. -/
theorem plain_lineEnd {width : Int} {indent : Nat} (begins : Begins text) (back : indent ≤ width) :
    plain false width
        ⟨word ++ '\n' :: (List.replicate indent ' ' ++ text), index, line, column, fresh⟩ =
      some (word, ⟨text, index + word.length + 1 + indent, line + 1, indent, true⟩) := by
  have size : (word ++ '\n' :: (List.replicate indent ' ' ++ text)).length + 1 =
      text.length + word.length + 1 + indent + 1 := by
    simp
    omega
  apply plain_eq_some isWord
  refine plainText_word isWord ?_ ⟨{ ended := true, plainly := true }, ?_⟩ (.inr ?_)
  · simp [plainRun, isBreak]
  · rw [size, plainGap]
    simp [isGap, isBreak, Cursor.nextLine, Fold.addBreak, plainGap_spaces, plainGap_begins begins]
  · exact Int.lt_add_one_of_le back

end Plain

end Yaml
end StyleOrder
