import StyleOrder.Proofs.Nesting.Run
import StyleOrder.Proofs.Sheet.Sources

namespace StyleOrder

/-!
# Reading on

A line that is taken in never undoes anything.  The blocks that are there keep
what they were pushed with; their children and entries may grow at the end, and
whatever is new stands on the new line.  So the outline of the beginning of a
source is found again at the beginning of the outline of the whole.

A line that cannot be placed ends the reading, and nothing after it is looked at.
The fault names that line, and the lines before it can be read.
-/

namespace Outline

/-- The second outline has all that the first has, and the rest of it stands below
the given line. -/
structure Grows (line : Nat) (outline grown : Outline) : Prop where
  /-- Blocks keep what they were pushed with, and new ones come after them. -/
  blocks : ∃ more, grown.bare = outline.bare ++ more ∧ ∀ block ∈ more, line < block.position.line
  children : ∀ id, outline.children id <+: grown.children id
  entries : ∀ id, ∃ more, grown.entries id = outline.entries id ++ more ∧
    ∀ entry ∈ more, line < entry.position.line

theorem children_of_size_le {outline : Outline} {id : Nat} (outside : outline.size ≤ id) :
    outline.children id = [] := by
  rw [children, (block?_eq_none_iff outline id).mpr outside]
  rfl

namespace Grows

variable {line : Nat}

theorem refl (outline : Outline) : Grows line outline outline where
  blocks := ⟨[], (List.append_nil _).symm, fun _ member => by cases member⟩
  children _ := List.prefix_refl _
  entries _ := ⟨[], (List.append_nil _).symm, fun _ member => by cases member⟩

theorem trans {outline middle grown : Outline} (first : Grows line outline middle)
    (second : Grows line middle grown) : Grows line outline grown where
  blocks := by
    rcases first.blocks with ⟨more, before, below⟩
    rcases second.blocks with ⟨further, after, furtherBelow⟩
    refine ⟨more ++ further, by rw [after, before, List.append_assoc], ?_⟩
    intro block member
    exact (List.mem_append.mp member).elim (below block) (furtherBelow block)
  children id := (first.children id).trans (second.children id)
  entries id := by
    rcases first.entries id with ⟨more, before, below⟩
    rcases second.entries id with ⟨further, after, furtherBelow⟩
    refine ⟨more ++ further, by rw [after, before, List.append_assoc], ?_⟩
    intro entry member
    exact (List.mem_append.mp member).elim (below entry) (furtherBelow entry)

theorem push (outline : Outline) (kind : BlockKind) (name selector : String) {position : Position}
    (parent : Option Nat) (below : line < position.line) :
    Grows line outline (outline.push kind name selector position parent) where
  blocks := by
    refine ⟨_, bare_push outline kind name selector position parent, ?_⟩
    intro block member
    rw [List.mem_singleton.mp member]
    exact below
  children id := by
    rcases Nat.lt_or_ge id outline.size with inside | outside
    · rw [children_push outline kind name selector position parent id inside]
      exact List.prefix_append _ _
    · rw [children_of_size_le outside]
      exact List.nil_prefix
  entries id := by
    refine ⟨[], ?_, fun _ member => by cases member⟩
    rw [entries_push, List.append_nil]

theorem addEntry (outline : Outline) {target : Nat} (inside : target < outline.size)
    {entry : Entry} (below : line < entry.position.line) :
    Grows line outline (outline.addEntry target entry) where
  blocks := by
    refine ⟨[], ?_, fun _ member => by cases member⟩
    rw [bare_addEntry, List.append_nil]
  children id := by
    refine ⟨[], ?_⟩
    rw [children_addEntry, List.append_nil]
  entries id := by
    refine ⟨_, entries_addEntry outline target entry id inside, ?_⟩
    intro other member
    split at member
    · rw [List.mem_singleton.mp member]
      exact below
    · cases member

theorem size_le {outline grown : Outline} (grows : Grows line outline grown) :
    outline.size ≤ grown.size := by
  rcases grows.blocks with ⟨more, extended, -⟩
  have lengths := congrArg List.length extended
  simp only [bare, List.length_map, List.length_append] at lengths
  simp only [size]
  omega

end Grows
end Outline

namespace Nesting

open Sheet (Line)

/-! ## What a line adds -/

namespace Sound

theorem grows_apply {nesting : Nesting} (sound : nesting.Sound) {position : Position} {line : Nat}
    (below : line < position.line) (mark : Sheet.Mark) :
    Outline.Grows line nesting.outline (nesting.apply position mark).outline := by
  rcases apply_cases position nesting mark with
    ⟨entry, isEntry, -, applied⟩ | ⟨-, -, kind, name, selector, applied⟩
  · have entryBelow : line < entry.position.line := by
      cases mark <;> cases isEntry <;> exact below
    rw [applied, Nesting.addEntry]
    cases inBody : nesting.body with
    | none => exact Outline.Grows.refl _
    | some target =>
        exact Outline.Grows.addEntry _ (sound.body_lt target inBody) entryBelow
  · rw [applied]
    exact Outline.Grows.push _ kind name selector _ below

theorem grows_foldl_apply {nesting : Nesting} (sound : nesting.Sound) {position : Position}
    {line : Nat} (below : line < position.line) (marks : List Sheet.Mark) :
    Outline.Grows line nesting.outline
      (marks.foldl (Nesting.apply position) nesting).outline := by
  induction marks generalizing nesting with
  | nil => exact Outline.Grows.refl _
  | cons mark others ih =>
      exact (sound.grows_apply below mark).trans (ih (sound.apply position mark))

theorem grows_absorb {nesting : Nesting} (sound : nesting.Sound) {line : Line} {above : Nat}
    (below : above < line.number) :
    Outline.Grows above nesting.outline (nesting.absorb line).outline :=
  (sound.withWidth line.width).grows_foldl_apply below _

theorem step {nesting next : Nesting} (sound : nesting.Sound) {line : Line}
    (accepted : nesting.step line = .ok next) : next.Sound := by
  rcases enters_of_step accepted with ⟨body, enters, rfl⟩
  exact (sound.place enters).absorb line

theorem grows_step {nesting next : Nesting} (sound : nesting.Sound) {line : Line} {above : Nat}
    (below : above < line.number) (accepted : nesting.step line = .ok next) :
    Outline.Grows above nesting.outline next.outline := by
  rcases enters_of_step accepted with ⟨body, enters, rfl⟩
  rw [← outline_fixUnit nesting line.width]
  exact (sound.place enters).grows_absorb below

/-- Reading on only adds, and adds below. -/
theorem grows_foldlM {nesting next : Nesting} (sound : nesting.Sound) {lines : List Line}
    {above : Nat} (below : ∀ line ∈ lines, above < line.number)
    (accepted : lines.foldlM Nesting.step nesting = .ok next) :
    Outline.Grows above nesting.outline next.outline := by
  induction lines generalizing nesting with
  | nil =>
      cases accepted
      exact Outline.Grows.refl _
  | cons line others ih =>
      rw [List.foldlM_cons] at accepted
      cases first : nesting.step line with
      | error malformed =>
          rw [first] at accepted
          cases accepted
      | ok middle =>
          rw [first] at accepted
          have step := sound.grows_step (below line List.mem_cons_self) first
          exact step.trans (ih (sound.step first)
            (fun other member => below other (List.mem_cons_of_mem _ member)) accepted)

end Sound

/-! ## Where reading ends -/

/-- Where reading fails, it fails at one raw line, and those before it can be read. -/
theorem exists_first_fault {first : Nat} {raws : List (List Char)} {nesting : Nesting}
    {malformed : Malformed}
    (failed : (Line.readFrom first raws).foldlM step nesting = .error malformed) :
    ∃ index raw line before, raws[index]? = some raw ∧
      Line.read? (first + index) raw = some line ∧
      (Line.readFrom first (raws.take index)).foldlM step nesting = .ok before ∧
      before.step line = .error malformed := by
  induction raws generalizing first nesting with
  | nil => cases failed
  | cons raw others ih =>
      rw [Line.readFrom] at failed
      cases here : Line.read? first raw with
      | none =>
          -- A raw line that is passed over still counts, so the index moves on.
          rw [here] at failed
          rcases ih failed with ⟨index, other, line, before, found, read, accepted, refused⟩
          refine ⟨index + 1, other, line, before, found, ?_, ?_, refused⟩
          · rwa [Nat.add_comm index 1, ← Nat.add_assoc]
          · rwa [List.take_succ_cons, Line.readFrom, here]
      | some line =>
          rw [here, Option.toList_some, List.singleton_append, List.foldlM_cons] at failed
          cases taken : nesting.step line with
          | error fault =>
              rw [taken] at failed
              cases failed
              exact ⟨0, raw, line, nesting, rfl, here, rfl, taken⟩
          | ok next =>
              rw [taken] at failed
              rcases ih failed with ⟨index, other, later, before, found, read, accepted, refused⟩
              refine ⟨index + 1, other, later, before, found, ?_, ?_, refused⟩
              · rwa [Nat.add_comm index 1, ← Nat.add_assoc]
              · rw [List.take_succ_cons, Line.readFrom, here, Option.toList_some,
                  List.singleton_append, List.foldlM_cons, taken]
                exact accepted

end Nesting

namespace Outline

open Sheet (Line)

theorem parse_eq_map (source : String) :
    Outline.parse source =
      ((Line.ofSource source).foldlM Nesting.step Nesting.start).map Nesting.outline := by
  unfold Outline.parse Outline.ofLines
  cases (Line.ofSource source).foldlM Nesting.step Nesting.start <;> rfl

theorem parse_eq_error_iff (source : String) (malformed : Malformed) :
    Outline.parse source = .error malformed ↔
      (Line.ofSource source).foldlM Nesting.step Nesting.start = .error malformed := by
  rw [parse_eq_map]
  cases (Line.ofSource source).foldlM Nesting.step Nesting.start with
  | ok nesting =>
      constructor
      · intro failed
        cases failed
      · intro failed
        cases failed
  | error fault =>
      constructor
      · intro failed
        cases failed
        rfl
      · intro failed
        cases failed
        rfl

/-- Reading the lines of two texts is reading on after the lines of the first. -/
theorem foldlM_ofSource_append {source : String} (ended : Text.Ended source.toList)
    (more : String) :
    (Line.ofSource (source ++ more)).foldlM Nesting.step Nesting.start =
      (Line.ofSource source).foldlM Nesting.step Nesting.start >>=
        ((Line.ofSource more).map (Line.down (Text.lines source.toList).length)).foldlM
          Nesting.step := by
  rw [Line.ofSource_append ended, List.foldlM_append]

theorem parse_append_of_error {source : String} (ended : Text.Ended source.toList) (more : String)
    {malformed : Malformed} (failed : Outline.parse source = .error malformed) :
    Outline.parse (source ++ more) = .error malformed := by
  rw [parse_eq_error_iff] at failed ⊢
  rw [foldlM_ofSource_append ended, failed]
  rfl

theorem grows_of_parse_append {source more : String} (ended : Text.Ended source.toList)
    {grown : Outline} (parsed : Outline.parse (source ++ more) = .ok grown) :
    ∃ outline, Outline.parse source = .ok outline ∧
      outline.Grows (Text.lines source.toList).length grown := by
  rw [parse_eq_map, foldlM_ofSource_append ended] at parsed
  rw [parse_eq_map]
  cases reading : (Line.ofSource source).foldlM Nesting.step Nesting.start with
  | error fault =>
      rw [reading] at parsed
      cases parsed
  | ok nesting =>
      rw [reading] at parsed
      change (List.foldlM Nesting.step nesting _).map Nesting.outline = _ at parsed
      rcases Nesting.Run.start.extend reading with ⟨placements, -, run⟩
      cases continued : ((Line.ofSource more).map
          (Line.down (Text.lines source.toList).length)).foldlM Nesting.step nesting with
      | error fault =>
          rw [continued] at parsed
          cases parsed
      | ok next =>
          rw [continued] at parsed
          cases parsed
          refine ⟨nesting.outline, rfl, run.sound.grows_foldlM ?_ continued⟩
          intro line member
          rcases List.mem_map.mp member with ⟨original, originalMember, rfl⟩
          have positive := (Line.number_of_mem_readFrom originalMember).1
          change _ < original.number + _
          omega

/-- A fault names a line of the source: the lines before it are parsed, and with it
the same fault is found. -/
theorem exists_faulty_line {source : String} {malformed : Malformed}
    (failed : Outline.parse source = .error malformed) :
    ∃ raw outline, 0 < malformed.position.line ∧
      (Text.lines source.toList)[malformed.position.line - 1]? = some raw ∧
      Outline.parse (Text.firstLines (malformed.position.line - 1) source) = .ok outline ∧
      Outline.parse (Text.firstLines malformed.position.line source) = .error malformed ∧
      malformed.text = String.ofList (Text.trim raw) ∧
      malformed.position.column = Text.indentation raw := by
  rcases Nesting.exists_first_fault ((parse_eq_error_iff source malformed).mp failed) with
    ⟨index, raw, line, before, found, read, accepted, refused⟩
  rcases Nesting.fails_of_step refused with ⟨fault, rfl, -⟩
  have number : (Malformed.ofLine line fault).position.line = index + 1 := by
    rw [Line.eq_of_read? read, Nat.add_comm]
    rfl
  have last : (Text.lines source.toList).take (index + 1) =
      (Text.lines source.toList).take index ++ [raw] := by
    rw [List.take_add_one, found]
    rfl
  have length : ((Text.lines source.toList).take index).length = index := by
    rw [List.length_take]
    exact Nat.min_eq_left (Nat.le_of_lt (List.getElem?_eq_some_iff.mp found).1)
  refine ⟨raw, before.outline, ?_, ?_, ?_, ?_, ?_, ?_⟩
  · omega
  · rwa [number]
  · rw [number, Nat.add_sub_cancel, parse_eq_map, Line.ofSource_firstLines, accepted]
    rfl
  · rw [number, parse_eq_error_iff, Line.ofSource_firstLines, last, Line.readFrom_append, length,
      List.foldlM_append, accepted]
    change List.foldlM Nesting.step before ((Line.read? (1 + index) raw).toList ++ []) = _
    rw [read]
    change (Nesting.step before line >>= pure) = _
    rw [refused]
    rfl
  · rw [Line.eq_of_read? read]
    rfl
  · rw [Line.eq_of_read? read]
    rfl

/-- What has been read is settled.  A fault in the beginning of a source is the fault
of the whole, the outline of the beginning is found again in the outline of the
whole, and a fault names the line up to which the source can be parsed. -/
theorem parse_settles :
    (∀ source more : String, Text.Ended source.toList →
      (∀ malformed, Outline.parse source = .error malformed →
        Outline.parse (source ++ more) = .error malformed) ∧
      ∀ grown, Outline.parse (source ++ more) = .ok grown →
        ∃ outline, Outline.parse source = .ok outline ∧ outline.size ≤ grown.size ∧
          outline.Grows (Text.lines source.toList).length grown) ∧
    ∀ source malformed, Outline.parse source = .error malformed →
      ∃ raw outline, 0 < malformed.position.line ∧
        (Text.lines source.toList)[malformed.position.line - 1]? = some raw ∧
        Outline.parse (Text.firstLines (malformed.position.line - 1) source) = .ok outline ∧
        Outline.parse (Text.firstLines malformed.position.line source) = .error malformed ∧
        malformed.text = String.ofList (Text.trim raw) ∧
        malformed.position.column = Text.indentation raw := by
  refine ⟨?_, fun source malformed => exists_faulty_line⟩
  intro source more ended
  refine ⟨fun malformed failed => parse_append_of_error ended more failed, ?_⟩
  intro grown parsed
  rcases grows_of_parse_append ended parsed with ⟨outline, parsedFirst, grows⟩
  exact ⟨outline, parsedFirst, grows.size_le, grows⟩

/-- A body that later lines go on with, and a fault below a comment and after lines
with carriage returns. -/
theorem disordered_settles :
    (∃ outline grown, Outline.parse ".a\n  top: 0\r\n" = .ok outline ∧
      Outline.parse (".a\n  top: 0\r\n" ++ "  .b\n    +m\n  left: 0") = .ok grown ∧
      outline.size = 2 ∧ grown.size = 5 ∧ outline.Grows 2 grown) ∧
    (let source := ".a\r\n  .b\n        .c\n// d\n .e\r\n.f\n"
      let malformed : Malformed := ⟨⟨5, 1⟩, .pastTopLevel, ".e"⟩
      Outline.parse source = .error malformed ∧
      Outline.parse (source ++ ".g") = .error malformed ∧
      Outline.parse (Text.firstLines 5 source) = .error malformed ∧
      ∃ outline, Outline.parse (Text.firstLines 4 source) = .ok outline) := by
  refine ⟨?_, ?_⟩
  · obtain ⟨grown, parsed, five⟩ := exists_of_view Outline.size
      (show (Outline.parse (".a\n  top: 0\r\n" ++ "  .b\n    +m\n  left: 0")).toOption.map
        Outline.size = some 5 by decide +kernel)
    obtain ⟨small, parsedSmall, two⟩ := exists_of_view Outline.size
      (show (Outline.parse ".a\n  top: 0\r\n").toOption.map Outline.size = some 2 by
        decide +kernel)
    rcases (parse_settles.1 ".a\n  top: 0\r\n" "  .b\n    +m\n  left: 0" (by decide +kernel)).2
      grown parsed with ⟨outline, parsedFirst, -, grows⟩
    have same : small = outline := Except.ok.inj (parsedSmall.symm.trans parsedFirst)
    exact ⟨outline, grown, parsedFirst, parsed, same ▸ two, five, grows⟩
  · intro source malformed
    have failed : Outline.parse source = .error malformed := by decide +kernel
    rcases parse_settles.2 source malformed failed with
      ⟨raw, outline, -, -, before, upTo, -⟩
    exact ⟨failed, (parse_settles.1 source ".g" (by decide +kernel)).1 malformed failed, upTo,
      outline, before⟩

end Outline
end StyleOrder
