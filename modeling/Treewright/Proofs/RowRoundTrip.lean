import Treewright.Proofs.Mention
import Treewright.Proofs.RowText

/-!
# Rows written and read again

The text written for a node is a spelling of the node, so it is read as the same node.
Every name in it has to be an identifier, and there has to be a field.  A node that was
read from some line has both, and the text written for it is the canonical one among the
lines that are read as this node.
-/

namespace Treewright

open Text (Blanks)

/-- The names in a node are identifiers at every depth, and it has a field. -/
structure Node.WellNamed (n : Node) : Prop where
  className : Name.isIdentifier n.className = true
  fields_ne_nil : n.fields ≠ []
  fieldNames : ∀ f ∈ n.fields, Name.isIdentifier f.name = true
  typeNames : ∀ f ∈ n.fields, ∀ name ∈ f.type.names, Name.isIdentifier name = true

/-! ## Writing -/

theorem Text.blanks_space : Blanks [' '] :=
  List.forall_mem_singleton.mpr (by decide)

/-- Members that are written with a comma and a space between any two form a list. -/
theorem Text.listed_intercalate
    {α : Type} {spells : α → List Char → Prop} {write : α → String} {members : List α}
    (hne : members ≠ []) (h : ∀ a ∈ members, spells a (write a).toList) :
    Listed spells members (", ".intercalate (members.map write)).toList := by
  induction members with
  | nil => exact absurd rfl hne
  | cons a rest ih =>
      obtain ⟨ha, hrest⟩ := List.forall_mem_cons.mp h
      cases rest with
      | nil => simpa using Listed.last ha
      | cons b rest =>
          have htail := ih (List.cons_ne_nil b rest) hrest
          simpa [String.intercalate_cons_cons] using Listed.more ha blanks_nil blanks_space htail

namespace TypeRef

theorem textsOf_eq_map (ts : List TypeRef) : textsOf ts = ts.map text := by
  induction ts with
  | nil => rfl
  | cons t rest ih => rw [textsOf, ih, List.map_cons]

theorem text_of_args {name : String} {args : List TypeRef} (h : args ≠ []) :
    (⟨name, args⟩ : TypeRef).text =
      name ++ "<" ++ ", ".intercalate (args.map text) ++ ">" := by
  cases args with
  | nil => exact absurd rfl h
  | cons t rest => rw [text, textsOf_eq_map]

theorem spellsCompact_text
    {t : TypeRef} (h : ∀ name ∈ t.names, Name.isIdentifier name = true) :
    t.SpellsCompact t.text.toList := by
  induction t using induction_args with
  | step name args ih =>
      rw [names_eq, List.forall_mem_cons] at h
      obtain ⟨hname, hargs⟩ := h
      by_cases hne : args = []
      · subst hne
        exact .name hname
      · have hlisted : Text.Listed Spells args (", ".intercalate (args.map text)).toList := by
          apply Text.listed_intercalate hne
          intro t ht
          have hnames : ∀ inner ∈ t.names, Name.isIdentifier inner = true := fun inner hinner =>
            hargs inner (List.mem_flatMap.mpr ⟨t, ht, hinner⟩)
          exact (ih t ht hnames).spells
        rw [text_of_args hne]
        simpa using SpellsCompact.applied hname Text.blanks_nil hlisted Text.blanks_nil

end TypeRef

theorem Field.spells_text
    {f : Field} (hname : Name.isIdentifier f.name = true)
    (htypes : ∀ name ∈ f.type.names, Name.isIdentifier name = true) :
    f.Spells f.text.toList := by
  have hspells := Field.Spells.mk (TypeRef.spellsCompact_text htypes) Text.blanks_space
    (by simp) hname
  simpa [Field.text] using hspells

theorem Node.spells_text {n : Node} (h : n.WellNamed) : n.Spells n.text.toList := by
  have hfields := Text.listed_intercalate h.fields_ne_nil fun f hf =>
    Field.spells_text (h.fieldNames f hf) (h.typeNames f hf)
  have hspells := Node.Spells.mk Text.blanks_nil h.className Text.blanks_space Text.blanks_space
    hfields Text.blanks_nil
  simpa [Node.text] using hspells

/-! ## Names that were read -/

theorem Text.Listed.ne_nil
    {α : Type} {spells : α → List Char → Prop} {members : List α} {body : List Char}
    (h : Listed spells members body) : members ≠ [] := by
  cases h <;> simp

theorem Text.Listed.exists_spells
    {α : Type} {spells : α → List Char → Prop} {members : List α} {body : List Char}
    (h : Listed spells members body) : ∀ a ∈ members, ∃ s, spells a s := by
  induction h with
  | last h => exact List.forall_mem_singleton.mpr ⟨_, h⟩
  | more h _ _ _ ih => exact List.forall_mem_cons.mpr ⟨⟨_, h⟩, ih⟩

theorem TypeRef.Spells.isIdentifier
    {t : TypeRef} : ∀ {text : List Char}, t.Spells text →
      ∀ name ∈ t.names, Name.isIdentifier name = true := by
  induction t using induction_args with
  | step name args ih =>
      intro text h
      rw [names_eq, List.forall_mem_cons]
      cases h with
      | name hname => exact ⟨hname, by simp⟩
      | applied hname _ _ hargs _ =>
          refine ⟨hname, fun inner hinner => ?_⟩
          obtain ⟨t, ht, hinner⟩ := List.mem_flatMap.mp hinner
          obtain ⟨s, hs⟩ := hargs.exists_spells t ht
          exact ih t ht hs inner hinner

theorem Node.Spells.wellNamed {n : Node} {s : List Char} (h : n.Spells s) : n.WellNamed := by
  obtain ⟨-, hclass, -, -, hfields, -⟩ := h
  refine ⟨hclass, hfields.ne_nil, fun f hf => ?_, fun f hf => ?_⟩
  · obtain ⟨_, -, -, -, hname⟩ := hfields.exists_spells f hf
    exact hname
  · obtain ⟨_, htype, -, -, -⟩ := hfields.exists_spells f hf
    exact htype.spells.isIdentifier

/-! ## Round trip -/

namespace Row

theorem parse_text {n : Node} (h : n.WellNamed) : parse n.text = .ok n :=
  parse_eq_ok_iff.mpr (Node.spells_text h)

theorem wellNamed_of_parse {line : String} {n : Node} (h : parse line = .ok n) : n.WellNamed :=
  (parse_eq_ok_iff.mp h).wellNamed

/-- Every well-named node is read from its own text.  A line that is read as some node can
be replaced by the text of this node, and writing again changes nothing. -/
theorem parse_inverts_text :
    (∀ n : Node, n.WellNamed → parse n.text = .ok n) ∧
      ∀ line (n : Node), parse line = .ok n →
        parse n.text = .ok n ∧ (parse n.text).map Node.text = .ok n.text := by
  refine ⟨fun n h => parse_text h, fun line n h => ?_⟩
  have hread := parse_text (wellNamed_of_parse h)
  exact ⟨hread, by rw [hread]; rfl⟩

/-- A node with nested type arguments. -/
def nestedNode : Node :=
  ⟨"Call", [⟨⟨"Map", [⟨"Key", []⟩, ⟨"Vec", [⟨"Expr", []⟩]⟩]⟩, "args"⟩, ⟨⟨"Token", []⟩, "paren"⟩]⟩

theorem nestedNode_wellNamed : nestedNode.WellNamed := by
  constructor <;> decide

/-- The node is read from a row with blanks in all sorts of places. -/
theorem parse_nestedNode :
    parse "\tCall:Map< Key ,Vec <Expr>> args ,Token\u2003paren " = .ok nestedNode := by
  have hvec : TypeRef.Spells ⟨"Vec", [⟨"Expr", []⟩]⟩ "Vec <Expr>".toList :=
    .applied (by decide) Text.blanks_space Text.blanks_nil (.last (.name (by decide)))
      Text.blanks_nil
  have hmap : TypeRef.SpellsCompact ⟨"Map", [⟨"Key", []⟩, ⟨"Vec", [⟨"Expr", []⟩]⟩]⟩
      "Map< Key ,Vec <Expr>>".toList :=
    .applied (by decide) Text.blanks_space
      (.more (.name (by decide)) Text.blanks_space Text.blanks_nil (.last hvec)) Text.blanks_nil
  have hfirst : Field.Spells ⟨⟨"Map", [⟨"Key", []⟩, ⟨"Vec", [⟨"Expr", []⟩]⟩]⟩, "args"⟩
      ("Map< Key ,Vec <Expr>>".toList ++ [' '] ++ "args".toList) :=
    .mk hmap Text.blanks_space (List.cons_ne_nil ' ' []) (by decide)
  have hemSpace : Blanks ['\u2003'] := List.forall_mem_singleton.mpr (by decide)
  have hsecond : Field.Spells ⟨⟨"Token", []⟩, "paren"⟩
      ("Token".toList ++ ['\u2003'] ++ "paren".toList) :=
    .mk (.name (by decide)) hemSpace (List.cons_ne_nil _ []) (by decide)
  have htab : Blanks ['\t'] := List.forall_mem_singleton.mpr (by decide)
  have hclass : Name.isIdentifier "Call" = true := by decide
  have hnode := Node.Spells.mk htab hclass Text.blanks_nil Text.blanks_nil
    (.more hfirst Text.blanks_space Text.blanks_nil (.last hsecond)) Text.blanks_space
  exact parse_eq_ok_iff.mpr hnode

theorem parse_inverts_text_nestedNode :
    nestedNode.WellNamed ∧ parse nestedNode.text = .ok nestedNode ∧
      (parse nestedNode.text).map Node.text = .ok nestedNode.text :=
  ⟨nestedNode_wellNamed, parse_inverts_text.1 nestedNode nestedNode_wellNamed,
    (parse_inverts_text.2 _ nestedNode parse_nestedNode).2⟩

end Row

end Treewright
