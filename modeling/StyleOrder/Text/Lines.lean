namespace StyleOrder
namespace Text

/-!
# Lines

A line ends at a line feed and nowhere else.  A text that ends in a line feed
has no further empty line after it, and the empty text has no line at all.
-/

/-- The lines of a text, without their line feeds. -/
def lines : List Char → List (List Char)
  | [] => []
  | c :: rest =>
      if c = '\n' then [] :: lines rest
      else
        match lines rest with
        | [] => [[c]]
        | line :: others => (c :: line) :: others

/-- The lines of a text with their line feeds, so that joining them gives the
text back. -/
def pieces : List Char → List (List Char)
  | [] => []
  | c :: rest =>
      if c = '\n' then [c] :: pieces rest
      else
        match pieces rest with
        | [] => [[c]]
        | piece :: others => (c :: piece) :: others

theorem flatten_pieces (text : List Char) : (pieces text).flatten = text := by
  induction text with
  | nil => rfl
  | cons c rest ih =>
      unfold pieces
      split
      · simp [ih]
      · split
        · rename_i none
          rw [none] at ih
          simp_all
        · rename_i some
          rw [some] at ih
          simp_all

end Text
end StyleOrder
