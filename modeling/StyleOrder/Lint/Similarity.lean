namespace StyleOrder
namespace Similarity

/-!
# Similar words

The similarity of Jaro and Winkler, computed in floating point.  Equal
characters that stand at most a window apart are paired, each character of the
first word taking the first free one of the second.  Pairs that are out of order
count half, and a common beginning of up to four characters counts extra.
-/

/-- Take the first free occurrence of `c` between the places `low` and `high`. -/
def take (c : Char) (low high : Nat) : (place : Nat) → List (Char × Bool) →
    Option (List (Char × Bool))
  | _, [] => none
  | place, (other, taken) :: rest =>
      if low ≤ place && place < high && c == other && !taken then some ((other, true) :: rest)
      else (take c low high (place + 1) rest).map ((other, taken) :: ·)

/-- The characters of the first word that find a partner, and the second word
with the characters that are taken. -/
def pair (window : Nat) : (place : Nat) → List Char → List (Char × Bool) →
    List Char × List (Char × Bool)
  | _, [], second => ([], second)
  | place, c :: rest, second =>
      match take c (place - window) (place + window + 1) 0 second with
      | some second =>
          let (paired, second) := pair window (place + 1) rest second
          (c :: paired, second)
      | none => pair window (place + 1) rest second

def jaro (first second : List Char) : Float :=
  if first.isEmpty && second.isEmpty then 1.0
  else
    let window := max first.length second.length / 2 - 1
    let (paired, marked) := pair window 0 first (second.map (·, false))
    let partners := (marked.filter (·.2)).map (·.1)
    let disordered := ((paired.zip partners).filter fun (c, d) => c != d).length / 2
    let count := paired.length
    if count = 0 then 0.0
    else
      (count.toFloat / first.length.toFloat + count.toFloat / second.length.toFloat +
        (count - disordered).toFloat / count.toFloat) / 3.0

/-- Length of the common beginning of two words, at most `bound`. -/
def commonStart : (bound : Nat) → List Char → List Char → Nat
  | bound + 1, c :: first, d :: second => if c = d then commonStart bound first second + 1 else 0
  | _, _, _ => 0

def winkler (first second : List Char) : Float :=
  let score := jaro first second
  if score > 0.7 then
    score + 0.1 * (commonStart 4 first second).toFloat * (1.0 - score)
  else score

/-- The most similar candidate, if any is similar enough to be suggested.  Of
equally similar ones it is the last. -/
def closest (word : String) (candidates : List String) : Option String :=
  let scored := candidates.map fun candidate =>
    (candidate, winkler word.toList candidate.toList)
  let best := (scored.filter (·.2 > 0.8)).foldl (fun best entry =>
    match best with
    | some (candidate, score) => if entry.2 < score then some (candidate, score) else some entry
    | none => some entry) (none : Option (String × Float))
  best.map Prod.fst

end Similarity
end StyleOrder
