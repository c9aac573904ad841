import Mathlib.Data.List.TakeWhile
import StyleOrder.Proofs.Yaml.Words
import StyleOrder.Yaml.Token.Lexer

namespace StyleOrder
namespace Yaml

/-!
# Tokens of blocks

A word in front of a colon is held back until the colon is met.  Then it is given out as
a key, after the beginning of a block if it stands deeper than the block around it.  From these
steps, the tokens of a line follow, then those of all lines of a block, then those of a block
under two keys.

A key has to be short.  A longer one is no key, and nothing can be read after it.
-/

/-- A word that is not too long for a key. -/
structure Key (text : List Char) : Prop extends Word text where
  short : text.length ≤ Lexer.maxKey

/-! ## Steps of the lexer -/

namespace Lexer

/-- Reading on from one state, tokens come out and another state is reached. -/
def Emits (steps : Nat) (before : Lexer) (out : List Token) (after : Lexer) : Prop :=
  ∀ fuel, tokens (fuel + steps) before = out ++ tokens fuel after

theorem Emits.trans {before middle after : Lexer} {first second : Nat} {out more : List Token}
    (one : Emits first before out middle) (other : Emits second middle more after) :
    Emits (second + first) before (out ++ more) after := by
  intro fuel
  rw [← Nat.add_assoc, one, other, List.append_assoc]

section Steps

variable {lexer after : Lexer}

theorem emits_of_advance (idle : lexer.waiting = []) (advance : lexer.advance = some after) :
    Emits 1 lexer [] after := by
  intro fuel
  rw [tokens, idle]
  simp only [advance, List.nil_append]

/-- Where a key may have begun, it is on the same line and not too long yet. -/
def Lasts (candidate : Option Candidate) (cursor : Cursor) : Prop :=
  ∀ key ∈ candidate, cursor.line ≤ key.line ∧ cursor.index ≤ key.index + maxKey

theorem expire_eq_self (lasts : Lasts lexer.candidate lexer.cursor) :
    lexer.expire = some lexer := by
  have kept : (lexer.candidate.any fun key =>
      key.line < lexer.cursor.line || key.index + maxKey < lexer.cursor.index) = false := by
    cases found : lexer.candidate with
    | none => rfl
    | some key =>
        rcases lasts key found with ⟨line, index⟩
        simp only [Option.any_some, Bool.or_eq_false_iff, decide_eq_false_iff_not, Nat.not_lt]
        exact ⟨line, index⟩
  simp [expire, kept]

theorem unwind_of_le {target column : Int} (levels : List Level) (inside : column ≤ target) :
    unwind target column levels = (column, levels, []) := by
  cases levels with
  | nil => rfl
  | cons level levels => rw [unwind, if_neg (Int.not_lt.mpr inside)]

/-- At content that is deep enough, a sign or scalar is read. -/
theorem advance_eq_sign {cursor : Cursor} {ended : Bool} (outside : lexer.outer = [])
    (content : lexer.cursor.toContent lexer.column = some (cursor, ended))
    (lasts : Lasts lexer.candidate cursor) (inside : lexer.column ≤ cursor.column)
    (ordinary : cursor.rest.head? ≠ some '%') (unmarked : markerAhead cursor.rest = false) :
    lexer.advance = sign { lexer with cursor, keyAllowed := lexer.keyAllowed || ended } := by
  have toContent : lexer.toContent =
      some { lexer with cursor, keyAllowed := lexer.keyAllowed || ended } := by
    simp [Lexer.toContent, content, inFlow, outside]
  have expire : expire { lexer with cursor, keyAllowed := lexer.keyAllowed || ended } =
      some { lexer with cursor, keyAllowed := lexer.keyAllowed || ended } :=
    expire_eq_self lasts
  have close : close cursor.column { lexer with cursor, keyAllowed := lexer.keyAllowed || ended } =
      { lexer with cursor, keyAllowed := lexer.keyAllowed || ended } := by
    simp [Lexer.close, inFlow, outside, unwind_of_le lexer.levels inside]
  rw [advance, toContent]
  simp only [Option.bind_eq_bind, Option.bind_some, expire, close]
  rw [if_neg (by simp [ordinary]), if_neg (by simp [unmarked]),
    if_neg (by simp [Int.not_lt.mpr inside])]

/-- A token that may begin a key is held back. -/
theorem emits_of_undecided (held : lexer.waiting ≠ []) (fresh : lexer.expire = some lexer)
    (undecided : lexer.undecided) (advance : lexer.advance = some after) :
    Emits 1 lexer [] after := by
  intro fuel
  rw [tokens]
  split
  · exact absurd ‹_› held
  · simp only [fresh, undecided, advance, if_true, List.nil_append]

theorem tokens_of_refused (fuel : Nat) (idle : lexer.waiting = [])
    (refused : lexer.advance = none) : tokens (fuel + 1) lexer = [] := by
  rw [tokens, idle]
  simp only [refused]

theorem tokens_of_expired (fuel : Nat) (held : lexer.waiting ≠ []) (expired : lexer.expire = none) :
    tokens (fuel + 1) lexer = [] := by
  rw [tokens]
  split
  · exact absurd ‹_› held
  · simp only [expired]

/-- The first of the tokens that are held back is given out when it cannot begin a key. -/
theorem tokens_of_decided {token : Token} {rest : List Token} (fuel : Nat)
    (held : lexer.waiting = token :: rest) (expire : lexer.expire = some after)
    (decided : after.undecided = false) (unfinished : token ≠ .finish) :
    tokens (fuel + 1) lexer =
      token :: tokens fuel { after with waiting := rest, released := after.released + 1 } := by
  rw [tokens, held]
  simp only [expire, decided, Bool.false_eq_true, if_false, if_neg unfinished]

/-- If no key may have begun, all tokens that are held back are given out. -/
theorem emits_waiting (lexer : Lexer) {out : List Token} (outside : lexer.outer = [])
    (keyless : lexer.candidate = none) (unfinished : .finish ∉ out) :
    Emits out.length { lexer with waiting := out } out
      { lexer with waiting := [], released := lexer.released + out.length } := by
  induction out generalizing lexer with
  | nil => exact fun fuel => rfl
  | cons token rest ih =>
      intro fuel
      have lasts : Lasts lexer.candidate lexer.cursor := by simp [Lasts, keyless]
      have expire : expire { lexer with waiting := token :: rest } =
          some { lexer with waiting := token :: rest } := expire_eq_self lasts
      have decided : undecided { lexer with waiting := token :: rest } = false := by
        simp [undecided, keyless, outside]
      rw [List.mem_cons, not_or] at unfinished
      have others := ih { lexer with released := lexer.released + 1 } outside keyless
        unfinished.2 fuel
      rw [List.length_cons, ← Nat.add_assoc,
        tokens_of_decided _ rfl expire decided (Ne.symm unfinished.1), others, List.cons_append,
        Nat.add_assoc, Nat.add_comm 1]

/-- A word begins a plain scalar. -/
theorem sign_of_small {c : Char} {rest : List Char} (text : lexer.cursor.rest = c :: rest)
    (small : isSmall c) : lexer.sign = lexer.plainScalar := by
  unfold sign
  rw [text]
  dsimp only
  split
  all_goals try cases small
  rfl

end Steps

/-! ## Keys and values -/

section Entries

variable {word rest : List Char} {cursor : Cursor} {released index line indent : Nat}
  {fresh ended keyAllowed : Bool} {column width : Int} {levels blocks : List Level}

/-- The lexer before the colon of a key, which is held back. -/
def holding (cursor : Cursor) (word : List Char) (key : Candidate) (column : Int)
    (blocks : List Level) : Lexer where
  cursor
  waiting := [.scalar word false]
  released := key.number
  candidate := some key
  keyAllowed := false
  column
  levels := blocks

/-- The lexer after the colon of a key at a column. -/
def afterColon (cursor : Cursor) (released indent : Nat) (blocks : List Level) : Lexer where
  cursor
  released
  keyAllowed := false
  column := indent + 1
  levels := ⟨indent, false⟩ :: blocks

/-- The first token of a key is held back, with the place where it began. -/
theorem advance_key (released : Nat) (isWord : Word word) (apart : gapAhead rest)
    (content : cursor.toContent column =
      some (⟨word ++ ':' :: rest, index, line, indent, fresh⟩, ended))
    (allowed : (keyAllowed || ended) = true) (inside : column ≤ indent)
    (closed : closeDeeper column levels = (width, blocks)) :
    advance { cursor, released, keyAllowed, column, levels } =
      some (holding ⟨':' :: rest, index + word.length, line, indent + word.length, false⟩ word
        ⟨released, index, line, indent, column = indent && levels.head?.any Level.isBlock⟩
        width blocks) := by
  have begins := isWord.begins (':' :: rest)
  rcases isWord.exists_small (':' :: rest) with ⟨c, others, same, small⟩
  refine Eq.trans (advance_eq_sign rfl content (by simp [Lasts]) inside
    (by simpa using begins.head?_beq rfl) begins.markerAhead) ?_
  rw [sign_of_small same small, plainScalar]
  simp only [noteKey, allowed, if_true]
  simp [inFlow, closed, plain_key isWord width apart, push, holding]

/-- Whether what comes after a colon sets it apart, without tabs. -/
structure Apart (rest : List Char) : Prop where
  gap : gapAhead rest
  untabbed : rest.head? ≠ some '\t'

theorem apart_space (rest : List Char) : Apart (' ' :: rest) :=
  ⟨rfl, nofun⟩

theorem apart_lineEnd (rest : List Char) : Apart ('\n' :: rest) :=
  ⟨rfl, nofun⟩

/-- A colon is read as a sign of its own. -/
theorem advance_colon {lexer : Lexer} (outside : lexer.outer = []) (apart : Apart rest)
    (colon : lexer.cursor.rest = ':' :: rest) (lasts : Lasts lexer.candidate lexer.cursor)
    (inside : lexer.column ≤ lexer.cursor.column) : lexer.advance = lexer.value := by
  have content : lexer.cursor.toContent lexer.column = some (lexer.cursor, false) := by
    simp [Cursor.toContent, Cursor.nextContent, colon, isGap, isBreak]
  have sign : lexer.sign = lexer.value := by
    simp [Lexer.sign, colon, apart.gap]
  rw [advance_eq_sign outside content lasts inside (by simp [colon])
    (colon ▸ markerAhead_cons rest rfl rfl), Bool.or_false]
  exact sign

/-- Nothing is skipped after a colon that is set apart without tabs. -/
theorem overTabs_of_apart {lexer : Lexer} (apart : Apart rest)
    (colon : lexer.cursor.rest = ':' :: rest) :
    tabbed (lexer.past 1).cursor = false ∧ (lexer.past 1).overTabs = some (lexer.past 1) := by
  have after : (lexer.past 1).cursor.rest = rest := by
    simp [past, Cursor.past, Cursor.along, colon]
  have head : (((lexer.past 1).cursor.gap true).head? == some '\t') = false := by
    rw [Cursor.gap, after, List.head?_takeWhile]
    cases rest with
    | nil => rfl
    | cons c others =>
        have other : c ≠ '\t' := fun same => apart.untabbed (congrArg some same)
        simp [Option.filter, other]
  refine ⟨by simp only [tabbed, head, Bool.false_and], ?_⟩
  rw [overTabs, Cursor.charAhead, after, if_neg (by simpa using apart.untabbed)]

/-- A colon turns what may have been a key into one. -/
theorem value_eq {lexer : Lexer} {key : Candidate} (unpaired : lexer.pairs = [])
    (apart : Apart rest) (colon : lexer.cursor.rest = ':' :: rest)
    (found : lexer.candidate = some key) :
    lexer.value = some (push .value
      { deepen (openBlock key.column (some key.number) .blockMapping
          (insert key.number .key (lexer.past 1))) with
        candidate := none
        keyAllowed := false }) := by
  rcases overTabs_of_apart apart colon with ⟨untabbed, along⟩
  have known : (lexer.past 1).candidate = some key := found
  simp [value, unpaired, untabbed, along, known]

/-- A colon without a key is refused where no key is allowed. -/
theorem value_eq_none {lexer : Lexer} (outside : lexer.outer = []) (unpaired : lexer.pairs = [])
    (apart : Apart rest) (colon : lexer.cursor.rest = ':' :: rest)
    (keyless : lexer.candidate = none) (refused : lexer.keyAllowed = false) :
    lexer.value = none := by
  rcases overTabs_of_apart apart colon with ⟨untabbed, along⟩
  have known : (lexer.past 1).candidate = none := keyless
  have flow : (lexer.past 1).inFlow = false := by
    simp [inFlow, past, outside]
  have allowed : (lexer.past 1).keyAllowed = false := refused
  simp [value, unpaired, untabbed, along, known, flow, allowed]

/-- A block that is deeper than the one around it is opened. -/
theorem openBlock_deeper {lexer : Lexer} (outside : lexer.outer = [])
    (around : ∀ level ∈ lexer.levels.head?, level.isBlock) (deeper : lexer.column < indent)
    (token : Token) :
    deepen (openBlock indent (some lexer.released) token lexer) =
      { lexer with
        waiting := token :: lexer.waiting
        levels := ⟨indent, false⟩ :: ⟨lexer.column, true⟩ :: lexer.levels
        column := indent + 1 } := by
  have kept : lexer.replaceLevel indent = lexer := by
    unfold replaceLevel
    split
    · rename_i level levels same
      rw [same] at around
      rw [around level rfl, Bool.not_true, Bool.and_false, if_neg Bool.false_ne_true]
    · rfl
  simp [openBlock, deepen, inFlow, outside, kept, deeper, insert]

/-- A block at the same column goes on. -/
theorem openBlock_same {lexer : Lexer} {around : Int} {others : List Level}
    (outside : lexer.outer = []) (inBlock : lexer.levels = ⟨around, true⟩ :: others)
    (same : lexer.column = indent) (number : Option Nat) (token : Token) :
    deepen (openBlock indent number token lexer) =
      { lexer with levels := ⟨indent, false⟩ :: lexer.levels, column := indent + 1 } := by
  have kept : lexer.replaceLevel indent = lexer := by
    simp [replaceLevel, inBlock]
  simp [openBlock, deepen, inFlow, outside, kept, same, inBlock]

section Key

variable (isWord : Word word) (short : word.length ≤ maxKey) (apart : Apart rest)
  (content : cursor.toContent column =
    some (⟨word ++ ':' :: rest, index, line, indent, fresh⟩, ended))
  (allowed : (keyAllowed || ended) = true) (inside : column ≤ indent)
  (closed : closeDeeper column levels = (width, blocks))

include isWord short apart content allowed inside closed

/-- A key is given out once its colon is read, after the beginning of its block if it opens
one. -/
theorem emits_key (front : List Token) {inner : List Level} (reached : width ≤ indent)
    (unfinished : .finish ∉ front)
    (opened : ∀ lexer : Lexer, lexer.outer = [] → lexer.released = released →
      lexer.column = width → lexer.levels = blocks →
      deepen (openBlock indent (some released) .blockMapping lexer) =
        { lexer with
          waiting := front ++ lexer.waiting
          levels := ⟨indent, false⟩ :: inner
          column := indent + 1 }) :
    Emits (front.length + 5) { cursor, released, keyAllowed, column, levels }
      (front ++ [.key, .scalar word false, .value])
      (afterColon ⟨rest, index + word.length + 1, line, indent + word.length + 1, false⟩
        (released + (front.length + 3)) indent inner) := by
  -- the word is held back, the colon makes a key of it, and then nothing is held back any more
  let key : Candidate :=
    ⟨released, index, line, indent, column = indent && levels.head?.any Level.isBlock⟩
  let colon : Cursor := ⟨':' :: rest, index + word.length, line, indent + word.length, false⟩
  let next := afterColon ⟨rest, index + word.length + 1, line, indent + word.length + 1, false⟩
    released indent inner
  have lasts : Lasts (some key) colon := by
    intro other same
    obtain rfl := Option.some.inj same
    exact ⟨Nat.le_refl line, Nat.add_le_add_left short index⟩
  have advance : (holding colon word key width blocks).advance =
      some { next with waiting := front ++ [.key, .scalar word false, .value] } := by
    have inside : width ≤ colon.column := by
      simp only [colon]
      omega
    rw [advance_colon rfl apart rfl lasts inside, value_eq rfl apart rfl rfl,
      opened _ rfl rfl rfl rfl]
    simp [push, insert, past, Cursor.past, Cursor.along, next, afterColon, holding, key, colon]
  have held : Emits 1 (holding colon word key width blocks) []
      { next with waiting := front ++ [.key, .scalar word false, .value] } :=
    emits_of_undecided (by simp [holding]) (expire_eq_self lasts) (by simp [undecided, holding])
      advance
  have unfinished : Token.finish ∉ front ++ [.key, .scalar word false, .value] := by
    simpa using unfinished
  have out := emits_waiting next rfl rfl unfinished
  rw [List.length_append] at out
  have begun := advance_key released isWord apart.gap content allowed inside closed
  exact ((emits_of_advance rfl begun).trans held).trans out

/-- A key that is deeper than the block around it opens a block. -/
theorem emits_firstKey (around : ∀ level ∈ blocks.head?, level.isBlock) (deeper : width < indent) :
    Emits 6 { cursor, released, keyAllowed, column, levels }
      [.blockMapping, .key, .scalar word false, .value]
      (afterColon ⟨rest, index + word.length + 1, line, indent + word.length + 1, false⟩
        (released + 4) indent (⟨width, true⟩ :: blocks)) := by
  refine emits_key isWord short apart content allowed inside closed [.blockMapping]
    (Int.le_of_lt deeper) (by decide) ?_
  rintro lexer outside rfl rfl rfl
  exact openBlock_deeper outside around deeper .blockMapping

/-- A key at the column of the block around it belongs to this block. -/
theorem emits_nextKey {around : Int} {others : List Level}
    (inBlock : blocks = ⟨around, true⟩ :: others) (same : width = indent) :
    Emits 5 { cursor, released, keyAllowed, column, levels }
      [.key, .scalar word false, .value]
      (afterColon ⟨rest, index + word.length + 1, line, indent + word.length + 1, false⟩
        (released + 3) indent blocks) := by
  refine emits_key isWord short apart content allowed inside closed [] (Int.le_of_eq same)
    List.not_mem_nil ?_
  rintro lexer outside rfl rfl rfl
  exact openBlock_same outside inBlock same _ _

omit short in
/-- A key that is too long is none.  Where one is required there is nothing more, elsewhere it
is a scalar whose colon is refused. -/
theorem tokens_longKey (long : maxKey < word.length) (reached : width ≤ indent) (fuel : Nat) :
    tokens (fuel + 3) { cursor, released, keyAllowed, column, levels } =
      if column = indent && levels.head?.any Level.isBlock then [] else [.scalar word false] := by
  let key : Candidate :=
    ⟨released, index, line, indent, column = indent && levels.head?.any Level.isBlock⟩
  let colon : Cursor := ⟨':' :: rest, index + word.length, line, indent + word.length, false⟩
  have begun := advance_key released isWord apart.gap content allowed inside closed
  let keyless : Lexer :=
    { cursor := colon
      waiting := [.scalar word false]
      released
      keyAllowed := false
      column := width
      levels := blocks }
  have expire : expire (holding colon word key width blocks) =
      if key.required then none else some keyless := by
    have late : index + maxKey < index + word.length := by omega
    simp [expire, dropKey, holding, inFlow, key, colon, late, keyless]
  have refused : advance { keyless with waiting := [], released := released + 1 } = none := by
    have inside : width ≤ colon.column := by
      simp only [colon]
      omega
    have lasts : Lasts none colon := fun key never => by cases never
    exact (advance_colon rfl apart rfl lasts inside).trans
      (value_eq_none rfl rfl apart rfl rfl rfl)
  rw [emits_of_advance rfl begun (fuel + 2), List.nil_append]
  change tokens (fuel + 1 + 1) (holding colon word key width blocks) = if key.required then _ else _
  by_cases required : key.required
  · rw [if_pos required] at expire ⊢
    exact tokens_of_expired (fuel + 1) (by simp [holding]) expire
  · rw [if_neg required] at expire ⊢
    rw [tokens_of_decided (fuel + 1) rfl expire (by simp [undecided, keyless]) nofun]
    exact congrArg _ (tokens_of_refused fuel rfl refused)

end Key

theorem closeDeeper_of_block (column : Int) (around : ∀ level ∈ blocks.head?, level.isBlock) :
    closeDeeper column blocks = (column, blocks) := by
  cases blocks with
  | nil => rfl
  | cons level others => rw [closeDeeper, if_pos (around level rfl)]

/-- A word after a colon ends with its line, and the lexer is ready for the next key. -/
theorem emits_word {text : List Char} {place : Nat} (back : Nat) (isWord : Word word)
    (begins : Begins text) (around : ∀ level ∈ blocks.head?, level.isBlock)
    (inside : indent ≤ place) (returns : back ≤ indent) :
    Emits 2 (afterColon ⟨' ' :: (word ++ '\n' :: (List.replicate back ' ' ++ text)),
        index, line, place, false⟩ released indent blocks)
      [.scalar word false]
      { cursor := ⟨text, index + 1 + word.length + 1 + back, line + 1, back, true⟩
        released := released + 1
        column := indent
        levels := blocks } := by
  let tail := '\n' :: (List.replicate back ' ' ++ text)
  let next : Lexer :=
    { cursor := ⟨text, index + 1 + word.length + 1 + back, line + 1, back, true⟩
      released
      column := indent
      levels := blocks }
  have content (least : Int) :
      Cursor.toContent least ⟨' ' :: (word ++ tail), index, line, place, false⟩ =
        some (⟨word ++ tail, index + 1, line, place + 1, false⟩, false) :=
    (Cursor.nextContent_spaces ((word ++ tail).length + 1) 1).trans
      (Cursor.nextContent_begins (isWord.begins tail) _)
  have read : plain false indent ⟨word ++ tail, index + 1, line, place + 1, false⟩ =
      some (word, next.cursor) :=
    plain_lineEnd isWord begins (Int.ofNat_le.mpr returns)
  rcases isWord.exists_small tail with ⟨c, others, same, small⟩
  have advance : advance (afterColon ⟨' ' :: (word ++ tail), index, line, place, false⟩ released
      indent blocks) = some { next with waiting := [.scalar word false] } := by
    refine Eq.trans (advance_eq_sign rfl (content _) (by simp [Lasts, afterColon]) ?_
      (by simpa using (isWord.begins tail).head?_beq rfl) (isWord.begins tail).markerAhead) ?_
    · simp only [afterColon]
      omega
    · rw [sign_of_small same small, plainScalar]
      simp [noteKey, afterColon, inFlow, closeDeeper, closeDeeper_of_block _ around, push, next,
        read]
  have unfinished : Token.finish ∉ [Token.scalar word false] := by simp
  exact (emits_of_advance rfl advance).trans (emits_waiting next rfl rfl unfinished)

section Nested

variable {outer inner : Nat} {place : Nat} (isWord : Word word) (apart : Apart rest)
  (around : ∀ level ∈ blocks.head?, level.isBlock) (deeper : outer < inner)

include isWord apart around deeper

/-- A deeper line after a key without a word opens a block. -/
theorem emits_nested (short : word.length ≤ maxKey) :
    Emits 6 (afterColon ⟨'\n' :: (List.replicate inner ' ' ++ (word ++ ':' :: rest)),
        index, line, place, false⟩ released outer blocks)
      [.blockMapping, .key, .scalar word false, .value]
      (afterColon ⟨rest, index + 1 + inner + word.length + 1, line + 1, inner + word.length + 1,
        false⟩ (released + 4) inner (⟨outer, true⟩ :: blocks)) :=
  emits_firstKey isWord short apart (Cursor.toContent_nextLine (isWord.begins _) inner) rfl
    (Int.ofNat_le.mpr deeper) (closeDeeper_of_block outer around) around (Int.ofNat_lt.mpr deeper)

/-- If its key is too long, no block is opened. -/
theorem tokens_nested (long : maxKey < word.length) (fuel : Nat) :
    tokens (fuel + 3) (afterColon ⟨'\n' :: (List.replicate inner ' ' ++ (word ++ ':' :: rest)),
        index, line, place, false⟩ released outer blocks) = [.scalar word false] := by
  have closed : closeDeeper (outer + 1) (⟨outer, false⟩ :: blocks) = (↑outer, blocks) :=
    closeDeeper_of_block outer around
  have inside : (outer : Int) + 1 ≤ inner := Int.ofNat_le.mpr deeper
  rw [afterColon, tokens_longKey isWord apart
    (Cursor.toContent_nextLine (isWord.begins _) inner) rfl inside closed long
    (Int.ofNat_le.mpr (Nat.le_of_lt deeper)) fuel, List.head?_cons, Option.any_some,
    Bool.and_false, if_neg Bool.false_ne_true]

end Nested

/-! ## Lines of a block -/

/-- Lines at a column, each with a key and a word. -/
def entryLines (indent : Nat) : List (List Char × List Char) → List Char
  | [] => []
  | (name, word) :: rest =>
      List.replicate indent ' ' ++ (name ++ ':' :: ' ' :: (word ++ '\n' :: entryLines indent rest))

def entryTokens (entry : List Char × List Char) : List Token :=
  [.key, .scalar entry.1 false, .value, .scalar entry.2 false]

/-- The lexer before the next of the lines of a block that is open, or after the last. -/
def atLine (index line released indent : Nat) (blocks : List Level) :
    List (List Char × List Char) → Lexer
  | [] =>
      { cursor := ⟨[], index, line, 0, true⟩
        released
        column := indent
        levels := blocks }
  | (name, word) :: rest =>
      { cursor := ⟨name ++ ':' :: ' ' :: (word ++ '\n' :: entryLines indent rest),
          index, line, indent, true⟩
        released
        column := indent
        levels := blocks }

end Entries

section Lines

variable {name word : List Char} {index line place released indent : Nat} {around : Int}
  {others : List Level} {entries more : List (List Char × List Char)}

theorem isBlock_head : ∀ level ∈ (⟨around, true⟩ :: others : List Level).head?, level.isBlock := by
  intro level same
  rw [← Option.some.inj same]

/-- After a word comes the next line. -/
theorem emits_lineEnd (isWord : Word word) (words : ∀ entry ∈ entries, Word entry.1)
    (inside : indent ≤ place) :
    ∃ index', Emits 2 (afterColon ⟨' ' :: (word ++ '\n' :: entryLines indent entries),
        index, line, place, false⟩ released indent (⟨around, true⟩ :: others))
      [.scalar word false]
      (atLine index' (line + 1) (released + 1) indent (⟨around, true⟩ :: others) entries) := by
  cases entries with
  | nil =>
      have begins : Begins [] := nofun
      exact ⟨_, emits_word 0 isWord begins isBlock_head inside (Nat.zero_le _)⟩
  | cons entry rest =>
      rcases entry with ⟨name, other⟩
      have begins := (words (name, other) List.mem_cons_self).begins
      exact ⟨_, emits_word indent isWord (begins _) isBlock_head inside (Nat.le_refl _)⟩

/-- A line of a block gives a key and a word. -/
theorem emits_line (isName : Key name) (isWord : Word word)
    (words : ∀ entry ∈ entries, Word entry.1) :
    ∃ index', Emits 7
      (atLine index line released indent (⟨around, true⟩ :: others) ((name, word) :: entries))
      (entryTokens (name, word))
      (atLine index' (line + 1) (released + 3 + 1) indent (⟨around, true⟩ :: others) entries) := by
  let text := ' ' :: (word ++ '\n' :: entryLines indent entries)
  have key : Emits 5
      (atLine index line released indent (⟨around, true⟩ :: others) ((name, word) :: entries))
      [.key, .scalar name false, .value]
      (afterColon ⟨text, index + name.length + 1, line, indent + name.length + 1, false⟩
        (released + 3) indent (⟨around, true⟩ :: others)) :=
    emits_nextKey isName.toWord isName.short (apart_space _)
      (Cursor.toContent_begins (isName.begins _)) rfl (Int.le_refl _)
      (closeDeeper_of_block _ isBlock_head) rfl rfl
  rcases emits_lineEnd isWord words (by omega : indent ≤ indent + name.length + 1) with
    ⟨index', value⟩
  exact ⟨index', key.trans value⟩

/-- Lines whose keys are not too long give their keys and words. -/
theorem emits_lines (named : ∀ entry ∈ entries, Key entry.1)
    (valued : ∀ entry ∈ entries, Word entry.2) (words : ∀ entry ∈ more, Word entry.1) :
    ∃ index' line' released', Emits (7 * entries.length)
      (atLine index line released indent (⟨around, true⟩ :: others) (entries ++ more))
      (entries.flatMap entryTokens)
      (atLine index' line' released' indent (⟨around, true⟩ :: others) more) := by
  induction entries generalizing index line released with
  | nil => exact ⟨index, line, released, fun fuel => rfl⟩
  | cons entry rest ih =>
      rcases entry with ⟨name, word⟩
      rcases List.forall_mem_cons.mp named with ⟨isName, named⟩
      rcases List.forall_mem_cons.mp valued with ⟨isWord, valued⟩
      have following : ∀ entry ∈ rest ++ more, Word entry.1 :=
        List.forall_mem_append.mpr ⟨fun entry member => (named entry member).toWord, words⟩
      rcases emits_line isName isWord following with ⟨index', first⟩
      rcases ih named valued with ⟨index'', line', released', others⟩
      exact ⟨index'', line', released', first.trans others⟩

/-- Nothing comes out of a line whose key is too long. -/
theorem tokens_longLine (isName : Word name) (long : maxKey < name.length) (fuel : Nat) :
    tokens (fuel + 3) (atLine index line released indent (⟨around, true⟩ :: others)
      ((name, word) :: entries)) = [] := by
  rw [atLine, tokens_longKey isName (apart_space _) (Cursor.toContent_begins (isName.begins _)) rfl
    (Int.le_refl _) (closeDeeper_of_block _ isBlock_head) long (Int.le_refl _)]
  simp

/-- At the end of the text all blocks are closed. -/
theorem tokens_end {outer inner : Nat} (positive : 0 < outer) (deeper : outer < inner)
    (fuel : Nat) : tokens (fuel + 5) (atLine index line released inner
        [⟨outer, true⟩, ⟨(0 : Nat), true⟩, ⟨-1, true⟩] []) =
      [.blockEnd, .blockEnd, .blockEnd, .finish] := by
  have advance : advance (atLine index line released inner
      [⟨outer, true⟩, ⟨(0 : Nat), true⟩, ⟨-1, true⟩] []) =
      some
        { cursor := ⟨[], index, line, 0, true⟩
          waiting := [.blockEnd, .blockEnd, .blockEnd, .finish]
          released
          keyAllowed := false } := by
    have within : 0 < inner := Nat.lt_trans positive deeper
    simp [Lexer.advance, atLine, Lexer.toContent, Cursor.toContent, Cursor.nextContent, expire,
      inFlow, close, unwind, sign, finish, dropKey, push, positive, within, markerAhead]
  rw [emits_of_advance rfl advance (fuel + 4)]
  rfl

end Lines
end Lexer

/-! ## Nested blocks -/

open Lexer

/-- Lines of a block under two keys. -/
def nestedText (outer inner : Nat) (first second : List Char)
    (entries : List (List Char × List Char)) : List Char :=
  first ++ ':' :: '\n' :: (List.replicate outer ' ' ++
    (second ++ ':' :: '\n' :: entryLines inner entries))

/-- A block that begins with a key. -/
def keyTokens (name : List Char) : List Token :=
  [.blockMapping, .key, .scalar name false, .value]

theorem length_le_entryLines (indent : Nat) (entries : List (List Char × List Char)) :
    entries.length ≤ (entryLines indent entries).length := by
  induction entries with
  | nil => exact Nat.le_refl 0
  | cons entry rest ih =>
      simp only [entryLines, List.length_append, List.length_cons]
      omega

section Nested

variable {outer inner : Nat} {first second : List Char}
  {entries : List (List Char × List Char)}

theorem not_mem_entryLines (indent : Nat)
    (words : ∀ entry ∈ entries, Word entry.1 ∧ Word entry.2) :
    '\x00' ∉ entryLines indent entries := by
  have zero : isSmall '\x00' = false := rfl
  induction entries with
  | nil => exact List.not_mem_nil
  | cons entry rest ih =>
      rcases List.forall_mem_cons.mp words with ⟨⟨isName, isWord⟩, words⟩
      simp [entryLines, isName.not_mem zero, isWord.not_mem zero, ih words]

/-- The text of nested blocks counts as it is. -/
theorem counted_nestedText (isFirst : Word first) (isSecond : Word second)
    (words : ∀ entry ∈ entries, Word entry.1 ∧ Word entry.2) :
    counted (nestedText outer inner first second entries) =
      nestedText outer inner first second entries := by
  have begins : Begins (nestedText outer inner first second entries) := isFirst.begins _
  have visible : '\x00' ∉ nestedText outer inner first second entries := by
    have zero : isSmall '\x00' = false := rfl
    simp [nestedText, isFirst.not_mem zero, isSecond.not_mem zero, not_mem_entryLines inner words]
  have whole : (nestedText outer inner first second entries).takeWhile (· ≠ '\x00') =
      nestedText outer inner first second entries := by
    refine List.takeWhile_eq_self_iff.mpr fun c member => decide_eq_true ?_
    rintro rfl
    exact visible member
  unfold counted
  split
  · rename_i same
    cases begins _ (congrArg List.head? same)
  · rename_i same
    cases begins _ (congrArg List.head? same)
  · exact whole

section Keys

variable (isFirst : Key first) (isSecond : Key second) (positive : 0 < outer)

include isFirst isSecond positive

/-- Two keys that open blocks come before the lines. -/
theorem emits_nestedText (inner : Nat) (entries : List (List Char × List Char)) :
    ∃ index place, Emits 12 { cursor := { rest := nestedText outer inner first second entries } }
      (keyTokens first ++ keyTokens second)
      (afterColon ⟨'\n' :: entryLines inner entries, index, 1, place, false⟩ 8 outer
        [⟨(0 : Nat), true⟩, ⟨-1, true⟩]) := by
  have top : Emits 6 { cursor := { rest := nestedText outer inner first second entries } }
      (keyTokens first)
      (afterColon ⟨'\n' :: (List.replicate outer ' ' ++
        (second ++ ':' :: '\n' :: entryLines inner entries)),
        0 + first.length + 1, 0, 0 + first.length + 1, false⟩ 4 0 [⟨-1, true⟩]) :=
    emits_firstKey isFirst.toWord isFirst.short (apart_lineEnd _)
      (Cursor.toContent_begins (isFirst.begins _)) rfl (by decide) rfl
      (fun level never => by cases never) (by decide)
  exact ⟨_, _, top.trans
    (emits_nested isSecond.toWord (apart_lineEnd _) isBlock_head positive isSecond.short)⟩

variable (deeper : outer < inner)

include deeper

/-- Lines under two keys give their keys and words, as far as the keys are not too long. -/
theorem emits_nestedLines {name word : List Char} {more : List (List Char × List Char)}
    (named : ∀ entry ∈ (name, word) :: entries, Key entry.1)
    (valued : ∀ entry ∈ (name, word) :: entries, Word entry.2)
    (words : ∀ entry ∈ more, Word entry.1) :
    ∃ index line released, Emits (7 * entries.length + 20)
      { cursor := { rest := nestedText outer inner first second ((name, word) :: entries ++ more) } }
      (keyTokens first ++ keyTokens second ++
        .blockMapping :: ((name, word) :: entries).flatMap entryTokens)
      (atLine index line released inner [⟨outer, true⟩, ⟨(0 : Nat), true⟩, ⟨-1, true⟩] more) := by
  rcases List.forall_mem_cons.mp named with ⟨isName, named⟩
  rcases List.forall_mem_cons.mp valued with ⟨isWord, valued⟩
  have following : ∀ entry ∈ entries ++ more, Word entry.1 :=
    List.forall_mem_append.mpr ⟨fun entry member => (named entry member).toWord, words⟩
  rcases emits_nestedText isFirst isSecond positive inner ((name, word) :: (entries ++ more)) with
    ⟨index, place, keys⟩
  have opening := keys.trans
    (emits_nested isName.toWord (apart_space _) isBlock_head deeper isName.short)
  rcases emits_lineEnd isWord following (by omega : inner ≤ inner + name.length + 1) with
    ⟨index, value⟩
  rcases emits_lines named valued words with ⟨index', line, released, others⟩
  have all := (opening.trans value).trans others
  exact ⟨index', line, released, by simpa [keyTokens, entryTokens] using all⟩

omit positive deeper in
/-- A text has enough characters for its tokens to be read to the end. -/
theorem tokens_nestedText_eq {steps : Nat} {out : List Token}
    (words : ∀ entry ∈ entries, Word entry.1 ∧ Word entry.2)
    (enough : steps ≤ 7 * entries.length + 20)
    (read : ∀ fuel, Lexer.tokens (fuel + steps)
      { cursor := { rest := nestedText outer inner first second entries } } = out) :
    tokens (nestedText outer inner first second entries) = out := by
  have lines := length_le_entryLines inner entries
  have size : steps ≤ 8 * (nestedText outer inner first second entries).length + 8 := by
    simp only [nestedText, List.length_append, List.length_cons]
    omega
  rcases Nat.exists_eq_add_of_le' size with ⟨fuel, same⟩
  rw [tokens, counted_nestedText isFirst.toWord isSecond.toWord words]
  simp only [same]
  exact read fuel

theorem tokens_nestedText (filled : entries ≠ []) (named : ∀ entry ∈ entries, Key entry.1)
    (valued : ∀ entry ∈ entries, Word entry.2) :
    tokens (nestedText outer inner first second entries) =
      keyTokens first ++ keyTokens second ++ .blockMapping :: entries.flatMap entryTokens ++
        [.blockEnd, .blockEnd, .blockEnd, .finish] := by
  have words : ∀ entry ∈ entries, Word entry.1 ∧ Word entry.2 :=
    fun entry member => ⟨(named entry member).toWord, valued entry member⟩
  rcases List.exists_cons_of_ne_nil filled with ⟨⟨name, word⟩, rest, rfl⟩
  have none : ∀ entry ∈ ([] : List (List Char × List Char)), Word entry.1 := nofun
  rcases emits_nestedLines isFirst isSecond positive deeper named valued none with
    ⟨index, line, released, lines⟩
  rw [List.append_nil] at lines
  refine tokens_nestedText_eq isFirst isSecond words
    (?_ : 5 + (7 * rest.length + 20) ≤ _) fun fuel => ?_
  · rw [List.length_cons]
    omega
  · rw [← Nat.add_assoc, lines, tokens_end positive deeper]

/-- Nothing can be read after a key that is too long. -/
theorem tokens_nestedText_of_long (words : ∀ entry ∈ entries, Word entry.1 ∧ Word entry.2)
    (exceeded : ∃ entry ∈ entries, maxKey < entry.1.length) :
    (∃ name, tokens (nestedText outer inner first second entries) =
      keyTokens first ++ keyTokens second ++ [.scalar name false]) ∨
    ∃ before : List (List Char × List Char),
      tokens (nestedText outer inner first second entries) =
        keyTokens first ++ keyTokens second ++ .blockMapping :: before.flatMap entryTokens := by
  -- reading ends at the first of the keys that are too long
  have split : ∃ before entry after, entries = before ++ entry :: after ∧
      maxKey < entry.1.length ∧ ∀ entry ∈ before, entry.1.length ≤ maxKey := by
    cases found : entries.find? (maxKey < ·.1.length) with
    | none =>
        rcases exceeded with ⟨entry, member, long⟩
        exact absurd (decide_eq_true long) (List.find?_eq_none.mp found entry member)
    | some entry =>
        rcases List.find?_eq_some_iff_append.mp found with ⟨long, before, after, same, short⟩
        exact ⟨before, entry, after, same, of_decide_eq_true long,
          fun entry member => by simpa using short entry member⟩
  rcases split with ⟨before, ⟨name, word⟩, after, rfl, long, short⟩
  rcases List.forall_mem_append.mp words with ⟨known, rest⟩
  rcases List.forall_mem_cons.mp rest with ⟨⟨isName, isWord⟩, rest⟩
  cases before with
  | nil =>
      rcases emits_nestedText isFirst isSecond positive inner ((name, word) :: after) with
        ⟨index, place, keys⟩
      refine .inl ⟨name, tokens_nestedText_eq isFirst isSecond words
        (?_ : 3 + 12 ≤ _) fun fuel => ?_⟩
      · omega
      · rw [← Nat.add_assoc, List.nil_append, keys]
        exact congrArg _ (tokens_nested isName (apart_space _) isBlock_head deeper long fuel)
  | cons entry before =>
      rcases emits_nestedLines isFirst isSecond positive deeper
        (fun entry member => ⟨(known entry member).1, short entry member⟩)
        (fun entry member => (known entry member).2)
        (List.forall_mem_cons.mpr ⟨isName, fun entry member => (rest entry member).1⟩) with
        ⟨index, line, released, lines⟩
      refine .inr ⟨entry :: before, tokens_nestedText_eq isFirst isSecond words
        (?_ : 3 + (7 * before.length + 20) ≤ _) fun fuel => ?_⟩
      · simp only [List.length_append, List.length_cons]
        omega
      · rw [← Nat.add_assoc, lines, tokens_longLine isName long, List.append_nil]

end Keys

end Nested

end Yaml
end StyleOrder
