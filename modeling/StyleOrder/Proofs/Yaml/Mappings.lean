import Mathlib.Algebra.GroupWithZero.Nat
import StyleOrder.Proofs.Reading
import StyleOrder.Proofs.Value.Canonical
import StyleOrder.Proofs.Yaml.Tokens
import StyleOrder.Yaml.Content
import StyleOrder.Yaml.Reader

namespace StyleOrder
namespace Yaml

/-!
# Mappings

A block is read pair by pair from its tokens, up to the token that ends it.  Where that token
is missing, nothing is read.  So lines under two keys become mappings inside each other if no key is
too long, and otherwise no document at all.  The value of a mapping has its pairs as fields, put in
by name, if the names are distinct and none of them stands for nothing.
-/

/-! ## Nodes from tokens -/

section Reading

variable {fuel : Nat} {token : Token} {rest after : List Token} {block bare : Bool}

@[simp] theorem run_peek_cons : peek.run { tokens := token :: rest } =
    some (token, { tokens := token :: rest }) :=
  rfl

@[simp] theorem run_skip : skip.run { tokens := token :: rest } = some ((), { tokens := rest }) :=
  rfl

theorem run_ahead (wanted : List Token) : (ahead wanted).run { tokens := token :: rest } =
    some (wanted.contains token, { tokens := token :: rest }) :=
  rfl

theorem run_take_self : (take token).run { tokens := token :: rest } =
    some (true, { tokens := rest }) := by
  simp [take, ahead]

theorem run_take_other {wanted : Token} (other : token ≠ wanted) :
    (take wanted).run { tokens := token :: rest } = some (false, { tokens := token :: rest }) := by
  simp [take, ahead, other]

theorem run_node_scalar (text : List Char) (quoted : Bool) :
    (node (fuel + 2) block bare).run { tokens := .scalar text quoted :: rest } =
      some (.scalar text quoted, { tokens := rest }) :=
  rfl

theorem run_node_mapping :
    (node (fuel + 2) true bare).run { tokens := .blockMapping :: rest } =
      ((blockPairs fuel).run { tokens := rest }).map fun (pairs, progress) =>
        (.mapping pairs, progress) := by
  rw [node, content]
  simp
  rw [content]
  simp

theorem run_blockPairs_end :
    (blockPairs (fuel + 1)).run { tokens := .blockEnd :: rest } = some ([], { tokens := rest }) := by
  rw [blockPairs]
  simp [run_take_self]

theorem run_blockPairs_nil : (blockPairs (fuel + 1)).run { tokens := [] } = none := by
  rfl

/-- Tokens with which no value begins. -/
def absentTokens : List Token := [.key, .value, .blockEnd]

theorem run_nodeUnless {ends : List Token} (begins : token ∉ ends) :
    (nodeUnless (fuel + 1) block bare ends).run { tokens := token :: rest } =
      (node fuel block bare).run { tokens := token :: rest } := by
  rw [nodeUnless]
  simp [run_ahead, begins]

theorem run_valueUnless (ends : List Token) :
    (valueUnless (fuel + 1) block ends).run { tokens := .value :: rest } =
      (nodeUnless fuel block block ends).run { tokens := rest } := by
  rw [valueUnless]
  simp [run_take_self]

/-- A pair is read before those that follow. -/
theorem run_blockPairs_cons (name : List Char) (begins : token ∉ absentTokens) :
    (blockPairs (fuel + 4)).run
        { tokens := .key :: .scalar name false :: .value :: token :: rest } =
      ((node (fuel + 1) true true).run { tokens := token :: rest }).bind fun (child, progress) =>
        ((blockPairs (fuel + 3)).run progress).map fun (pairs, progress) =>
          ((.scalar name false, child) :: pairs, progress) := by
  have key : (nodeUnless (fuel + 3) true true absentTokens).run
      { tokens := .scalar name false :: .value :: token :: rest } =
      some (.scalar name false, { tokens := .value :: token :: rest }) :=
    (run_nodeUnless (by simp [absentTokens])).trans (run_node_scalar name false)
  have content : (valueUnless (fuel + 3) true absentTokens).run
      { tokens := .value :: token :: rest } =
      (node (fuel + 1) true true).run { tokens := token :: rest } := by
    rw [run_valueUnless, run_nodeUnless begins]
  rw [blockPairs]
  simp only [absentTokens] at key content
  simp [run_take_self, run_take_other, run_ahead, key, content]

/-- A key that opens a block stands before its only value. -/
theorem run_node_key (name : List Char) (begins : token ∉ absentTokens) :
    (node (fuel + 6) true bare).run { tokens := keyTokens name ++ token :: rest } =
      ((node (fuel + 1) true true).run { tokens := token :: rest }).bind fun (child, progress) =>
        ((blockPairs (fuel + 3)).run progress).map fun (pairs, progress) =>
          (.mapping ((.scalar name false, child) :: pairs), progress) := by
  refine run_node_mapping.trans ((congrArg _ (run_blockPairs_cons name begins)).trans ?_)
  cases (node (fuel + 1) true true).run { tokens := token :: rest } with
  | none => rfl
  | some read => exact Option.map_map _ _ _

theorem run_node_key_alone {child : Node} (name : List Char) (begins : token ∉ absentTokens)
    (read : (node (fuel + 1) true true).run { tokens := token :: rest } =
      some (child, { tokens := .blockEnd :: after })) :
    (node (fuel + 6) true bare).run { tokens := keyTokens name ++ token :: rest } =
      some (.mapping [(.scalar name false, child)], { tokens := after }) := by
  rw [run_node_key name begins, read, Option.bind_some]
  dsimp only
  rw [run_blockPairs_end, Option.map_some]

theorem run_node_key_eq_none (name : List Char) (begins : token ∉ absentTokens)
    (unread : (node (fuel + 1) true true).run { tokens := token :: rest } = none) :
    (node (fuel + 6) true bare).run { tokens := keyTokens name ++ token :: rest } = none := by
  rw [run_node_key name begins, unread]
  rfl

/-- The nodes of a key and a word. -/
def entryNodes (entry : List Char × List Char) : Node × Node :=
  (.scalar entry.1 false, .scalar entry.2 false)

/-- Keys and words are read in their order. -/
theorem run_blockPairs_entries (entries : List (List Char × List Char)) :
    (blockPairs (fuel + entries.length + 4)).run
        { tokens := entries.flatMap Lexer.entryTokens ++ rest } =
      ((blockPairs (fuel + 4)).run { tokens := rest }).map fun (pairs, progress) =>
        (entries.map entryNodes ++ pairs, progress) := by
  induction entries with
  | nil => simp
  | cons entry others ih =>
      rw [List.length_cons, List.flatMap_cons, ← Nat.add_assoc]
      refine (run_blockPairs_cons entry.1 (by simp [absentTokens])).trans ?_
      rw [run_node_scalar]
      refine (congrArg (Option.map _) ih).trans ?_
      rw [Option.map_map]
      rfl

end Reading

/-! ## Documents -/

section Documents

variable {outer inner : Nat} {first second : List Char} {entries : List (List Char × List Char)}
  {limits : Limits}

theorem run_document {all : List Token} (begins : all.head? = some .blockMapping) (fuel : Nat) :
    (document fuel).run { tokens := all } = (node fuel true false).run { tokens := all } := by
  rcases List.head?_eq_some_iff.mp begins with ⟨rest, rfl⟩
  rw [document]
  simp [skipEnds, isMarked, Token.isDirective, run_ahead]

theorem run_endDocument :
    endDocument.run { tokens := [.finish] } = some ((), { tokens := [.finish] }) :=
  rfl

/-- A text is read if its tokens are, up to the end, unless it is beyond the limits. -/
theorem parse_eq_filter {text : List Char} {all : List Token} {result : Node}
    (out : tokens text = all) (begins : all.head? = some .blockMapping)
    (read : (node (4 * all.length + 8) true false).run { tokens := all } =
      some (result, { tokens := [.finish] })) :
    parse (String.ofList text) limits = (some result).filter limits.allow := by
  rw [Option.filter_some]
  simp [parse, out, run_document begins, read, run_endDocument, withinUses]

theorem parse_eq_none {text : List Char} {all : List Token} (out : tokens text = all)
    (begins : all.head? = some .blockMapping)
    (unread : (node (4 * all.length + 8) true false).run { tokens := all } = none) :
    parse (String.ofList text) limits = none := by
  simp [parse, out, run_document begins, unread]

/-- The node of lines under two keys. -/
def nestedNode (first second : List Char) (entries : List (List Char × List Char)) : Node :=
  .mapping [(.scalar first false,
    .mapping [(.scalar second false, .mapping (entries.map entryNodes))])]

theorem pairsDepth_entryNodes (entries : List (List Char × List Char)) :
    Node.pairsDepth (entries.map entryNodes) = 0 := by
  induction entries with
  | nil => rfl
  | cons entry rest ih =>
      rw [List.map_cons, entryNodes, Node.pairsDepth, ih]
      rfl

theorem depth_nestedNode : (nestedNode first second entries).depth = 3 := by
  simp [nestedNode, Node.depth, Node.pairsDepth, pairsDepth_entryNodes]

section Total

variable (ofText : List Char → Nat) (ofCollection : Nat)

theorem pairsTotal_entryNodes (entries : List (List Char × List Char)) :
    Node.pairsTotal ofText ofCollection (entries.map entryNodes) =
      (entries.map fun entry => ofText entry.1 + ofText entry.2).sum := by
  induction entries with
  | nil => rfl
  | cons entry rest ih =>
      rw [List.map_cons, entryNodes, Node.pairsTotal, ih]
      rfl

theorem total_nestedNode :
    (nestedNode first second entries).total ofText ofCollection =
      ofText first + ofText second +
        (entries.map fun entry => ofText entry.1 + ofText entry.2).sum + 3 * ofCollection := by
  simp only [nestedNode, Node.total, Node.pairsTotal, pairsTotal_entryNodes]
  omega

end Total

theorem count_nestedNode : (nestedNode first second entries).count = 2 * entries.length + 5 := by
  rw [Node.count, total_nestedNode, List.map_const', List.sum_replicate_nat]
  omega

/-- What limits have to allow for lines under two keys. -/
theorem allow_nestedNode_iff :
    limits.allow (nestedNode first second entries) = true ↔
      3 ≤ limits.depth ∧ 2 * entries.length + 5 ≤ limits.nodes ∧
        (String.ofList first).utf8ByteSize + (String.ofList second).utf8ByteSize +
          (entries.map fun entry => (String.ofList entry.1).utf8ByteSize +
            (String.ofList entry.2).utf8ByteSize).sum ≤ limits.bytes := by
  rw [Limits.allow, depth_nestedNode, count_nestedNode, Node.bytes, total_nestedNode]
  simp only [Bool.and_eq_true, decide_eq_true_eq, and_assoc, Nat.mul_zero, Nat.add_zero]

theorem length_entryTokens (entries : List (List Char × List Char)) :
    (entries.flatMap Lexer.entryTokens).length = 4 * entries.length := by
  induction entries with
  | nil => rfl
  | cons entry rest ih =>
      rw [List.flatMap_cons, List.length_append, ih, List.length_cons, Lexer.entryTokens]
      simp only [List.length_cons, List.length_nil]
      omega

theorem run_node_nested {steps : Nat} (enough : entries.length + 16 ≤ steps) {rest : List Token} :
    (node steps true false).run
        { tokens := keyTokens first ++ (keyTokens second ++
          .blockMapping :: (entries.flatMap Lexer.entryTokens ++
            .blockEnd :: .blockEnd :: .blockEnd :: rest)) } =
      some (nestedNode first second entries, { tokens := rest }) := by
  rcases Nat.exists_eq_add_of_le' enough with ⟨fuel, rfl⟩
  have begins : Token.blockMapping ∉ absentTokens := by decide
  have lines : (node (fuel + entries.length + 6) true true).run
      { tokens := .blockMapping :: (entries.flatMap Lexer.entryTokens ++
        .blockEnd :: .blockEnd :: .blockEnd :: rest) } =
      some (.mapping (entries.map entryNodes), { tokens := .blockEnd :: .blockEnd :: rest }) := by
    rw [run_node_mapping, run_blockPairs_entries, run_blockPairs_end]
    simp only [Option.map_some, List.append_nil]
  exact run_node_key_alone first begins (run_node_key_alone second begins lines)

/-- Without their ends, blocks cannot be read. -/
theorem run_node_nested_eq_none {steps : Nat} (enough : entries.length + 16 ≤ steps) :
    (node steps true false).run
        { tokens := keyTokens first ++ (keyTokens second ++
          .blockMapping :: entries.flatMap Lexer.entryTokens) } = none := by
  rcases Nat.exists_eq_add_of_le' enough with ⟨fuel, rfl⟩
  have begins : Token.blockMapping ∉ absentTokens := by decide
  have lines : (node (fuel + entries.length + 6) true true).run
      { tokens := .blockMapping :: entries.flatMap Lexer.entryTokens } = none := by
    rw [run_node_mapping, ← List.append_nil (entries.flatMap _), run_blockPairs_entries,
      run_blockPairs_nil]
    rfl
  exact run_node_key_eq_none first begins (run_node_key_eq_none second begins lines)

theorem run_node_nested_scalar {steps : Nat} (enough : 16 ≤ steps) (name : List Char) :
    (node steps true false).run
      { tokens := keyTokens first ++ (keyTokens second ++ [.scalar name false]) } = none := by
  rcases Nat.exists_eq_add_of_le' enough with ⟨fuel, rfl⟩
  have begins : Token.blockMapping ∉ absentTokens := by decide
  have inside : (node (fuel + 11) true true).run
      { tokens := keyTokens second ++ [.scalar name false] } = none := by
    rw [run_node_key second (by simp [absentTokens]), run_node_scalar, Option.bind_some]
    dsimp only
    rw [run_blockPairs_nil]
    rfl
  exact run_node_key_eq_none first begins inside

section Keys

variable (isFirst : Key first) (isSecond : Key second) (positive : 0 < outer)
  (deeper : outer < inner)

include isFirst isSecond positive deeper

/-- Lines under two keys are read as mappings inside each other. -/
theorem parse_nestedText (filled : entries ≠ []) (named : ∀ entry ∈ entries, Key entry.1)
    (valued : ∀ entry ∈ entries, Word entry.2) :
    parse (String.ofList (nestedText outer inner first second entries)) limits =
      (some (nestedNode first second entries)).filter limits.allow := by
  have out := tokens_nestedText isFirst isSecond positive deeper filled named valued
  simp only [List.append_assoc] at out
  refine parse_eq_filter out rfl (run_node_nested ?_)
  simp only [List.length_append, List.length_cons, length_entryTokens]
  omega

/-- Lines under two keys cannot be read if one of their own keys is too long. -/
theorem parse_nestedText_of_long (words : ∀ entry ∈ entries, Word entry.1 ∧ Word entry.2)
    (exceeded : ∃ entry ∈ entries, Lexer.maxKey < entry.1.length) :
    parse (String.ofList (nestedText outer inner first second entries)) limits = none := by
  have nested := tokens_nestedText_of_long isFirst isSecond positive deeper words exceeded
  rcases nested with ⟨name, out⟩ | ⟨before, out⟩
  · rw [List.append_assoc] at out
    exact parse_eq_none out rfl (run_node_nested_scalar (Nat.le_add_left 16 _) name)
  · rw [List.append_assoc] at out
    refine parse_eq_none out rfl (run_node_nested_eq_none ?_)
    simp only [List.length_append, List.length_cons, length_entryTokens, keyTokens]
    omega

end Keys

end Documents

/-! ## Values -/

namespace Node

/-- The field that a key and a word stand for. -/
def entryField (entry : List Char × List Char) : String × Value :=
  (String.ofList entry.1, scalarValue entry.2 false)

theorem fields_entryNodes {entries : List (List Char × List Char)} {sorted : List (String × Value)}
    (given : ∀ entry ∈ entries, (scalar entry.1 false).isNull = false)
    (distinct : ((sorted ++ entries.map entryField).map Prod.fst).Nodup) :
    fields sorted (entries.map entryNodes) =
      .ok (Value.insertFields sorted (entries.map entryField)) := by
  induction entries generalizing sorted with
  | nil => rfl
  | cons entry rest ih =>
      rcases List.forall_mem_cons.mp given with ⟨first, given⟩
      have key : key (scalar entry.1 false) = .ok (entryField entry).1 := by
        simp [key, first, entryField, pure, Except.pure]
      have fresh : ¬sorted.any (·.1 = (entryField entry).1) := by
        intro known
        rcases List.any_eq_true.mp known with ⟨field, member, same⟩
        rw [List.map_append, List.nodup_append] at distinct
        exact distinct.2.2 field.1 (List.mem_map_of_mem member) _ (by simp)
          (of_decide_eq_true same)
      have turned := Value.insertField_append_perm distinct
      have others := ih given ((turned.map Prod.fst).nodup_iff.mpr distinct)
      rw [List.map_cons, entryNodes, fields, key]
      exact (if_neg fresh).trans others

theorem value_singleton {name : List Char} {node : Node} {content : Value}
    (given : (scalar name false).isNull = false) (read : node.value = .ok content) :
    value (mapping [(scalar name false, node)]) =
      .ok (.object [(String.ofList name, content)]) := by
  have key : key (scalar name false) = .ok (String.ofList name) := by
    simp [key, given, pure, Except.pure]
  have fields : fields [] [(scalar name false, node)] = .ok [(String.ofList name, content)] := by
    rw [fields]
    exact Reading.bind_eq_ok_iff.mpr ⟨_, key, Reading.bind_eq_ok_iff.mpr ⟨_, read, rfl⟩⟩
  rw [value]
  exact Reading.bind_eq_ok_iff.mpr ⟨_, fields, rfl⟩

end Node
end Yaml
end StyleOrder
