import Mathlib.Data.List.DropRight
import Mathlib.Data.List.Forall2
import Transparency.Proofs.Base64
import Transparency.Record.AuditProof

/-! Which texts are nodes of an audit path.

The padding of a node may be cut off anywhere, and nothing else of its text may differ from the base64 of its
bytes: what is left of a text without its padding decides what is read (`Spells.unpadded`). A path is read if all its
texts are nodes, and refused for the first that is not (`paths_decoded`). -/
namespace Transparency
open Text

/-! ### Padding that is cut off -/

namespace Text.Base64

/-- Without the padding at its end. -/
def unpadded (text : String) : List Char := text.toList.rdropWhile (· = '=')

/-- Where padding follows what has none, a text that more padding completes to the same has the start of it. -/
theorem append_pads_eq_iff {α : Type} {mark : α} {symbols text : List α} {whole cut : Nat}
    (plain : mark ∉ symbols) :
    symbols ++ List.replicate whole mark = text ++ List.replicate cut mark ↔
      cut ≤ whole ∧ text = symbols ++ List.replicate (whole - cut) mark := by
  constructor
  · intro same
    have split : ∃ more, text = symbols ++ more ∧ List.replicate whole mark = more ++ List.replicate cut mark := by
      rcases List.append_eq_append_iff.1 same with behind | ⟨more, rfl, pads⟩
      · exact behind
      · -- What the symbols would have beyond the text is padding, so it is nothing.
        have none : more = [] := by
          refine List.eq_nil_iff_forall_not_mem.2 fun c member => plain ?_
          have inPads : c ∈ List.replicate cut mark := pads ▸ List.mem_append_left _ member
          exact List.eq_of_mem_replicate inPads ▸ List.mem_append_right _ member
        subst none
        exact ⟨[], by simp, pads.symm⟩
    obtain ⟨more, rfl, pads⟩ := split
    have length := congrArg List.length pads
    simp only [List.length_append, List.length_replicate] at length
    refine ⟨by omega, ?_⟩
    have filled := (List.append_eq_replicate_iff.1 pads.symm).2.1
    rw [filled, length, Nat.add_sub_cancel]
  · rintro ⟨bound, rfl⟩
    rw [List.append_assoc, List.replicate_append_replicate, Nat.sub_add_cancel bound]

theorem rdropWhile_append_pads {symbols : List Char} (plain : '=' ∉ symbols) (count : Nat) :
    (symbols ++ List.replicate count '=').rdropWhile (· = '=') = symbols := by
  induction count with
  | zero =>
    rw [List.replicate_zero, List.append_nil, List.rdropWhile_eq_self_iff]
    intro some last
    exact plain (of_decide_eq_true last ▸ List.getLast_mem some)
  | succ count ih =>
    rw [List.replicate_succ', ← List.append_assoc, List.rdropWhile_concat_pos _ _ _ (by decide), ih]

theorem symbol_ne_pad : ∀ v < 64, symbol v ≠ '=' := by
  decide +kernel

theorem pad_not_mem_symbols (bytes : Bytes) : '=' ∉ symbols bytes := by
  intro member
  obtain ⟨v, sextet, pad⟩ := List.mem_map.1 member
  exact symbol_ne_pad v (sextetsOf_lt bytes v sextet) pad

end Text.Base64

/-! ### Paths -/

namespace AuditProof

/-- `text` is the base64 of `node`, whole or with padding missing at its end. -/
def NodeText (text : String) (node : Bytes) : Prop :=
  ∃ count, (Base64.encode node).toList = text.toList ++ List.replicate count '='

theorem nodeText_iff {text : String} {node : Bytes} :
    NodeText text node ↔ ∃ count ≤ Base64.pads node.length,
      text.toList = Base64.symbols node ++ List.replicate count '=' := by
  simp only [NodeText, Base64.toList_encode, Base64.append_pads_eq_iff (Base64.pad_not_mem_symbols node)]
  constructor
  · rintro ⟨count, bound, same⟩
    exact ⟨_, Nat.sub_le _ _, same⟩
  · rintro ⟨count, bound, same⟩
    exact ⟨Base64.pads node.length - count, Nat.sub_le _ _, by rw [Nat.sub_sub_self bound, same]⟩

/-- What a node is read as. -/
theorem decode_ok_iff_nodeText {text : String} {node : Bytes} :
    Base64.decode .optional (Utf8.ofString text) = .ok node ↔ NodeText text node := by
  have spelt (count : Nat) : Utf8.ofString text =
      (Base64.sextetsOf node).map Base64.code ++ List.replicate count Base64.pad ↔
        text.toList = Base64.symbols node ++ List.replicate count '=' := by
    rw [← Base64.encode_symbols, ← String.toList_ofList (l := Base64.symbols node ++ _),
      ← Utf8.ofString_eq_encode, Utf8.ofString_inj, String.toList_inj]
  simp only [Base64.decode_ok_iff, nodeText_iff, Base64.Spells, spelt, reduceCtorEq, false_imp_iff, and_true]

theorem NodeText.unpadded {text : String} {node : Bytes} (h : NodeText text node) :
    Base64.unpadded text = Base64.symbols node := by
  obtain ⟨count, -, same⟩ := nodeText_iff.1 h
  rw [Base64.unpadded, same, Base64.rdropWhile_append_pads (Base64.pad_not_mem_symbols node)]

/-- A text is a node for one byte string at most. -/
theorem NodeText.unique {text : String} {node other : Bytes} (h : NodeText text node)
    (h' : NodeText text other) : node = other :=
  Except.ok.inj ((decode_ok_iff_nodeText.2 h).symm.trans (decode_ok_iff_nodeText.2 h'))

theorem nodeText_symbols (node : Bytes) : NodeText (String.ofList (Base64.symbols node)) node :=
  ⟨_, by rw [Base64.toList_encode, String.toList_ofList]⟩

theorem symbols_injective : Function.Injective Base64.symbols := by
  intro node other same
  exact (nodeText_symbols node).unique (same ▸ nodeText_symbols other)

theorem nodes_ok_iff {index : Nat} {texts : List String} {path : List Bytes} :
    nodes index texts = .ok path ↔ List.Forall₂ NodeText texts path := by
  induction texts generalizing index path with
  | nil => simp [nodes, List.forall₂_nil_left_iff, eq_comm]
  | cons text rest ih =>
    rw [nodes, List.forall₂_cons_left_iff]
    cases decoded : Base64.decode .optional (Utf8.ofString text) with
    | error cause =>
      refine ⟨nofun, fun parts => ?_⟩
      obtain ⟨node, path, isNode, -⟩ := parts
      rw [decode_ok_iff_nodeText.2 isNode] at decoded
      cases decoded
    | ok node =>
      have isNode := decode_ok_iff_nodeText.1 decoded
      simp only [Except.bind_ok_iff, ih, Except.ok.injEq]
      constructor
      · rintro ⟨path, others, rfl⟩
        exact ⟨node, path, isNode, others, rfl⟩
      · rintro ⟨other, path, isNode', others, rfl⟩
        exact ⟨path, others, by rw [isNode.unique isNode']⟩

theorem exists_forall₂_iff {texts : List String} :
    (∃ path, List.Forall₂ NodeText texts path) ↔ ∀ text ∈ texts, ∃ node, NodeText text node := by
  induction texts with
  | nil => exact ⟨fun _ => nofun, fun _ => ⟨[], .nil⟩⟩
  | cons text rest ih =>
    rw [List.forall_mem_cons, ← ih]
    constructor
    · rintro ⟨_, _ | ⟨isNode, nodes⟩⟩
      exact ⟨⟨_, isNode⟩, _, nodes⟩
    · rintro ⟨⟨node, isNode⟩, path, nodes⟩
      exact ⟨node :: path, .cons isNode nodes⟩

/-- `text` is no node, and the texts `before` it are. -/
structure FirstForeign (texts before : List String) (text : String) : Prop where
  split : ∃ after, texts = before ++ text :: after
  nodes : ∀ other ∈ before, ∃ node, NodeText other node
  foreign : ∀ node, ¬ NodeText text node

theorem firstForeign_nil_iff {first text : String} {rest : List String} :
    FirstForeign (first :: rest) [] text ↔ first = text ∧ ∀ node, ¬ NodeText text node := by
  constructor
  · rintro ⟨⟨after, split⟩, -, foreign⟩
    exact ⟨(List.cons.inj split).1, foreign⟩
  · rintro ⟨rfl, foreign⟩
    exact ⟨⟨rest, rfl⟩, nofun, foreign⟩

theorem firstForeign_cons_iff {first second text : String} {rest before : List String} :
    FirstForeign (first :: rest) (second :: before) text ↔
      first = second ∧ (∃ node, NodeText first node) ∧ FirstForeign rest before text := by
  constructor
  · rintro ⟨⟨after, split⟩, nodes, foreign⟩
    rw [List.cons_append, List.cons.injEq] at split
    obtain ⟨rfl, split⟩ := split
    obtain ⟨isNode, nodes⟩ := List.forall_mem_cons.1 nodes
    exact ⟨rfl, isNode, ⟨after, split⟩, nodes, foreign⟩
  · rintro ⟨rfl, isNode, ⟨after, split⟩, nodes, foreign⟩
    exact ⟨⟨after, congrArg _ split⟩, List.forall_mem_cons.2 ⟨isNode, nodes⟩, foreign⟩

theorem not_firstForeign_nil {before : List String} {text : String} : ¬ FirstForeign [] before text := by
  rintro ⟨⟨after, split⟩, -, -⟩
  exact absurd split.symm (by simp)

/-- Nodes are refused at the first text that is none. -/
theorem nodes_error_iff {index : Nat} {texts : List String} {error : Error} :
    nodes index texts = .error error ↔ ∃ before text, FirstForeign texts before text ∧
      error.index = index + before.length ∧
        Base64.decode .optional (Utf8.ofString text) = .error error.cause := by
  induction texts generalizing index with
  | nil => exact ⟨nofun, fun ⟨_, _, first, _⟩ => absurd first not_firstForeign_nil⟩
  | cons text rest ih =>
    rw [nodes]
    cases decoded : Base64.decode .optional (Utf8.ofString text) with
    | error cause =>
      have foreign (node : Bytes) : ¬ NodeText text node := by
        rw [← decode_ok_iff_nodeText, decoded]
        exact nofun
      constructor
      · intro failed
        cases failed
        exact ⟨[], text, firstForeign_nil_iff.2 ⟨rfl, foreign⟩, rfl, decoded⟩
      · rintro ⟨before, other, first, place, refused⟩
        cases before with
        | nil =>
          obtain ⟨rfl, -⟩ := firstForeign_nil_iff.1 first
          rw [decoded] at refused
          cases refused
          exact congrArg (fun index => Except.error (Error.mk index error.cause)) place.symm
        | cons second before =>
          obtain ⟨-, ⟨node, isNode⟩, -⟩ := firstForeign_cons_iff.1 first
          exact absurd isNode (foreign node)
    | ok node =>
      have isNode := decode_ok_iff_nodeText.1 decoded
      refine Except.bind_ok_error_iff.trans (ih.trans ?_)
      constructor
      · rintro ⟨before, other, first, place, refused⟩
        refine ⟨text :: before, other, firstForeign_cons_iff.2 ⟨rfl, ⟨node, isNode⟩, first⟩, ?_, refused⟩
        rw [place, List.length_cons, Nat.add_right_comm, Nat.add_assoc]
      · rintro ⟨before, other, first, place, refused⟩
        cases before with
        | nil =>
          obtain ⟨rfl, foreign⟩ := firstForeign_nil_iff.1 first
          exact absurd isNode (foreign node)
        | cons second before =>
          refine ⟨before, other, (firstForeign_cons_iff.1 first).2.2, ?_, refused⟩
          rw [place, List.length_cons, Nat.add_right_comm, Nat.add_assoc]

/-- Two paths with the same nodes differ in padding alone. -/
theorem path_eq_iff {texts others : List String} {path path' : List Bytes}
    (h : List.Forall₂ NodeText texts path) (h' : List.Forall₂ NodeText others path') :
    path = path' ↔ texts.map Base64.unpadded = others.map Base64.unpadded := by
  have unpadded {texts : List String} {path : List Bytes} (h : List.Forall₂ NodeText texts path) :
      texts.map Base64.unpadded = path.map Base64.symbols := by
    induction h with
    | nil => rfl
    | cons isNode _ ih => rw [List.map_cons, List.map_cons, isNode.unpadded, ih]
  rw [unpadded h, unpadded h', (List.map_injective_iff.2 symbols_injective).eq_iff]

theorem ofTexts_ok_iff {texts : List String} {leafIndex treeSize : UInt64} {p : AuditProof} :
    ofTexts texts leafIndex treeSize = .ok p ↔
      ∃ path, List.Forall₂ NodeText texts path ∧ ⟨.v1, treeSize, leafIndex, path⟩ = p := by
  simp only [ofTexts, Except.bind_ok_iff, nodes_ok_iff, Except.ok.injEq]

/-- **A path is decoded if each of its texts is the base64 of a node, whole or with padding missing at its end**,
and is refused for the first that is not. Padding that is missing changes nothing else. -/
theorem paths_decoded (texts : List String) (leafIndex treeSize : UInt64) :
    ((∃ p, ofTexts texts leafIndex treeSize = .ok p) ↔ ∀ text ∈ texts, ∃ node, NodeText text node) ∧
    (∀ p, ofTexts texts leafIndex treeSize = .ok p ↔
      List.Forall₂ NodeText texts p.pathNodes ∧ p.pathNodes.length = texts.length ∧ p.version = .v1 ∧
        p.leafIndex = leafIndex ∧ p.treeSize = treeSize) ∧
    (∀ error, ofTexts texts leafIndex treeSize = .error error ↔
      ∃ before text, FirstForeign texts before text ∧ error.index = before.length ∧
        Base64.decode .optional (Utf8.ofString text) = .error error.cause) ∧
    ∀ others p p', ofTexts texts leafIndex treeSize = .ok p → ofTexts others leafIndex treeSize = .ok p' →
      (p.pathNodes = p'.pathNodes ↔ texts.map Base64.unpadded = others.map Base64.unpadded) := by
  refine ⟨?_, fun p => ?_, fun error => ?_, fun others p p' decoded decoded' => ?_⟩
  · simp only [ofTexts_ok_iff, ← exists_forall₂_iff]
    exact ⟨fun ⟨_, path, nodes, _⟩ => ⟨path, nodes⟩, fun ⟨path, nodes⟩ => ⟨_, path, nodes, rfl⟩⟩
  · rw [ofTexts_ok_iff]
    constructor
    · rintro ⟨path, nodes, rfl⟩
      exact ⟨nodes, nodes.length_eq.symm, rfl, rfl, rfl⟩
    · rintro ⟨nodes, -, version, index, size⟩
      exact ⟨_, nodes, by rw [← version, ← index, ← size]⟩
  · rw [ofTexts, Except.bind_ok_error_iff, nodes_error_iff]
    simp only [Nat.zero_add]
  · obtain ⟨path, nodes, rfl⟩ := ofTexts_ok_iff.1 decoded
    obtain ⟨path', nodes', rfl⟩ := ofTexts_ok_iff.1 decoded'
    exact path_eq_iff nodes nodes'

/-- A node with its padding and without it, and one whose last symbol has a bit that no byte uses. -/
theorem paths_decoded_unpadded :
    ofTexts ["AQI=", "AAEC"] 3 9 = .ok ⟨.v1, 9, 3, [[1, 2], [0, 1, 2]]⟩ ∧
      ofTexts ["AQI", "AAEC"] 3 9 = .ok ⟨.v1, 9, 3, [[1, 2], [0, 1, 2]]⟩ ∧
        ["AQI=", "AAEC"].map Base64.unpadded = ["AQI", "AAEC"].map Base64.unpadded ∧
          ∃ before, FirstForeign ["AQI=", "AQJ="] before "AQJ=" ∧ before.length = 1 := by
  have padded : ofTexts ["AQI=", "AAEC"] 3 9 = .ok ⟨.v1, 9, 3, [[1, 2], [0, 1, 2]]⟩ := by decide +kernel
  have cut : ofTexts ["AQI", "AAEC"] 3 9 = .ok ⟨.v1, 9, 3, [[1, 2], [0, 1, 2]]⟩ := by decide +kernel
  have spare : ofTexts ["AQI=", "AQJ="] 3 9 = .error ⟨1, .invalidLastSymbol 74 2⟩ := by decide +kernel
  obtain ⟨-, -, -, same⟩ := paths_decoded ["AQI=", "AAEC"] 3 9
  obtain ⟨-, -, refused, -⟩ := paths_decoded ["AQI=", "AQJ="] 3 9
  refine ⟨padded, cut, (same _ _ _ padded cut).1 rfl, ?_⟩
  obtain ⟨before, text, first, place, -⟩ := (refused _).1 spare
  obtain ⟨after, split⟩ := first.split
  match before, place with
  | [other], _ =>
    cases split
    exact ⟨_, first, rfl⟩

end AuditProof

end Transparency
