import Treewright.Proofs.Dispatch

/-!
# Constructors fill the slots of structures

The structure of a node has a slot for each field, and its constructor fills all of them:
the slots of the fields that it takes as parameters from these, and the others with default
values.  Structures and constructors are read as tables here, as for dispatch, so that each
node has one row in either.

Whether a slot is filled once depends on its identifier, to which the mark of the raw
spelling does not belong.  Validation tells the slot names of a node apart before reserved
words are escaped.  For names that are identifiers this is enough, since they bring no mark
along.  A name that does is told apart from the name without it, and still both are written
as one identifier.
-/

namespace Treewright

namespace Code

/-- A name without the mark of the raw spelling. -/
def unmarked (name : String) : String :=
  match name.toList with
  | 'r' :: '#' :: rest => String.ofList rest
  | _ => name

theorem unmarked_of_hash_not_mem
    {name : String} (h : '#' ∉ name.toList) : unmarked name = name := by
  unfold unmarked
  split
  next rest heq => simp [heq] at h
  next => rfl

/-- The identifier of a spelled word is the name without the mark. -/
theorem Word.name_of_spell_eq_ok
    {name : String} {w : Word} (h : Word.spell name = .ok w) : w.name = unmarked name := by
  unfold Word.spell at h
  split at h
  · simp at h
  · split at h
    next hword =>
      obtain rfl := Except.ok.inj h
      exact (unmarked_of_hash_not_mem (hash_not_mem_of_isWord hword)).symm
    next =>
      split at h
      next found hraw =>
        obtain rfl := Except.ok.inj h
        unfold Word.ofRawSpelling? at hraw
        split at hraw
        next rest heq =>
          rw [Option.ite_none_right_eq_some] at hraw
          rw [← Option.some.inj hraw.2, unmarked, heq]
          rfl
        next => simp at hraw
      next => simp at h

end Code

theorem Field.unmarked_slotName_of_isIdentifier
    {field : Field} (h : Name.isIdentifier field.name = true) :
    Code.unmarked field.slotName = field.slotName := by
  apply Code.unmarked_of_hash_not_mem
  intro hmem
  rw [Field.slotName, Name.snake, String.toList_ofList] at hmem
  exact absurd (Name.isTail_of_mem_snakeText h hmem) (by decide)

/-- A field is passed to the constructor: the outermost name of its type does not start with
a default value, or it is held by reference. -/
def Ownership.Passes (o : Ownership) (field : Field) : Prop :=
  field.type.name ∉ o.defaulted ∨ field.type.name ∈ o.borrowed

instance (o : Ownership) (field : Field) : Decidable (o.Passes field) :=
  inferInstanceAs (Decidable (_ ∨ _))

/-! ## Tables of structures and constructors -/

namespace Item

def slotRows : Item → List (String × List Slot)
  | structDecl _ _ name _ slots => [(name, slots)]
  | _ => []

def constructorRows : Item → List (String × Constructor)
  | structImpl _ target constructor _ _ => [(target.name, constructor)]
  | _ => []

theorem constructionRows_of_isLink
    {item : Item} (h : item.isLink = true) : item.slotRows = [] ∧ item.constructorRows = [] := by
  cases item with
  | moduleDecl | siblingImport | reexport | userImport => exact ⟨rfl, rfl⟩
  | _ => simp [isLink] at h

end Item

namespace Draft

theorem isParameter_iff
    {l : Linked} {field : Field} :
    isParameter l field = true ↔ l.grammar.ownership.Passes field := by
  unfold isParameter Ownership.holding Ownership.holdingOf Ownership.Passes
  split
  next hborrowed => simp [Holding.isParameter, hborrowed]
  next hborrowed =>
    split
    next hdefaulted => simp [Holding.isParameter, hborrowed, hdefaulted]
    next hdefaulted => simp [Holding.isParameter, hdefaulted]

theorem spell_of_slot_eq_ok
    {l : Linked} {field : Field} {s : Slot} (h : slot l field = .ok s) :
    Code.Word.spell field.slotName = .ok s.name := by
  obtain ⟨name, hname, h⟩ := bind_eq_ok_iff.mp h
  obtain ⟨type, -, h⟩ := bind_eq_ok_iff.mp h
  obtain rfl := Except.ok.inj h
  exact hname

/-- The fields of a node whose slots can be written, with these. -/
def writtenSlots (l : Linked) (n : Node) : List (Field × Slot) :=
  n.fields.filterMap fun field => (slot l field).toOption.map (Prod.mk field)

theorem IsSlots.eq_writtenSlots
    {l : Linked} {n : Node} {slots : List (Field × Slot)} (h : IsSlots l n slots) :
    writtenSlots l n = slots := by
  unfold IsSlots at h
  unfold writtenSlots
  generalize n.fields = fields at h
  induction h with
  | nil => rfl
  | @cons field p _ _ hp _ ih =>
      obtain ⟨rfl, hslot⟩ := hp
      have hwritten : (slot l p.1).toOption.map (Prod.mk p.1) = some p := by
        rw [hslot]
        rfl
      rw [List.filterMap_cons, hwritten, ih]

section Tables

variable {l : Linked} {dress : Dress} {drafts : List Draft}

theorem table_slotRows
    (h : all l dress = .ok drafts) :
    table Item.slotRows drafts =
      (Family.members l.order).map fun m =>
        (m.1.typeName m.2, (writtenSlots l m.2).map (·.2)) := by
  have hlinks : ∀ item : Item, item.isLink = true → item.slotRows = [] := fun _ h =>
    (Item.constructionRows_of_isLink h).1
  apply table_eq_map_members_of_nodeItems h hlinks fun _ _ => rfl
  · intro f items hitems
    obtain ⟨doc, variants, -, rfl⟩ := exists_of_baseItems_eq_ok hitems
    rfl
  · intro f n items hitems
    obtain ⟨label, slots, -, hslots, rfl⟩ := exists_of_nodeItems_eq_ok hitems
    rw [hslots.eq_writtenSlots]
    rfl

theorem table_constructorRows
    (h : all l dress = .ok drafts) :
    table Item.constructorRows drafts =
      (Family.members l.order).map fun m =>
        (m.1.typeName m.2, constructorOf l (writtenSlots l m.2)) := by
  have hlinks : ∀ item : Item, item.isLink = true → item.constructorRows = [] := fun _ h =>
    (Item.constructionRows_of_isLink h).2
  apply table_eq_map_members_of_nodeItems h hlinks fun _ _ => rfl
  · intro f items hitems
    obtain ⟨doc, variants, -, rfl⟩ := exists_of_baseItems_eq_ok hitems
    rfl
  · intro f n items hitems
    obtain ⟨label, slots, -, hslots, rfl⟩ := exists_of_nodeItems_eq_ok hitems
    rw [hslots.eq_writtenSlots]
    rfl

end Tables

/-! ## Constructors and slots -/

/-- A constructor of a node is put together from the fields of the node and their slots.  The
parameters are the slots of the fields that are passed, and every slot is filled in order,
from a parameter if its field is passed and with a default value otherwise. -/
structure Constructs (l : Linked) (n : Node) (written : List (Field × Slot)) (c : Constructor) :
    Prop where
  fields : written.map (·.1) = n.fields
  slots : ∀ p ∈ written,
    Code.Word.spell p.1.slotName = .ok p.2.name ∧ l.fieldType p.1.type = .ok p.2.type
  params : c.params =
    (written.filter fun p => decide (l.grammar.ownership.Passes p.1)).map (·.2)
  initializers : c.initializers = written.map fun p =>
    ⟨p.2.name, if l.grammar.ownership.Passes p.1 then .parameter else .default⟩
  allowance : c.allowsMany = true ↔ 7 < c.params.length

/-- A constructor fills slots when it gives each of them one value: that of the parameter
with the identifier of the slot if there is one, and a default value otherwise. -/
structure Fills (c : Constructor) (slots : List Slot) : Prop where
  /-- No two slots have one identifier. -/
  distinct : (slots.map (·.name.name)).Nodup
  /-- Every slot is filled once. -/
  once : ∀ s ∈ slots, ∃ i, (c.initializers.filter fun i => i.name.name == s.name.name) = [i]
  /-- Nothing else is filled. -/
  declared : ∀ i ∈ c.initializers, ∃ s ∈ slots, s.name = i.name
  /-- Parameters are used where they have the identifier, and only there. -/
  filling : ∀ i ∈ c.initializers,
    i.filling = .parameter ↔ ∃ s ∈ c.params, s.name.name = i.name.name

section Constructors

variable {l : Linked} {n : Node} {written : List (Field × Slot)} {c : Constructor}

theorem IsSlots.constructs (h : IsSlots l n written) :
    Constructs l n written (constructorOf l written) := by
  have hpasses : ∀ p : Field × Slot,
      isParameter l p.1 = decide (l.grammar.ownership.Passes p.1) := by
    intro p
    rw [Bool.eq_iff_iff, isParameter_iff, decide_eq_true_iff]
  refine ⟨?_, ?_, ?_, ?_, ?_⟩
  · have hfields : written.map (·.1) = n.fields.map id :=
      map_eq_map_of_forall₂ h fun _ _ _ hp => hp.1
    rwa [List.map_id] at hfields
  · intro p hp
    obtain ⟨field, -, rfl, hslot⟩ := exists_source_of_mem h hp
    exact ⟨spell_of_slot_eq_ok hslot, fieldType_of_slot_eq_ok hslot⟩
  · simp only [constructorOf, hpasses]
  · simp only [constructorOf, isParameter_iff]
  · simp [constructorOf, usualParameters]

/-- The identifiers of the slots are the slot names of the fields without the mark. -/
theorem Constructs.map_identifier (h : Constructs l n written c) :
    (written.map fun p => p.2.name.name) =
      n.fields.map fun field => Code.unmarked field.slotName := by
  rw [← h.fields, List.map_map]
  apply List.map_congr_left
  intro p hp
  exact Code.Word.name_of_spell_eq_ok (h.slots p hp).1

theorem Constructs.mem_params_iff (h : Constructs l n written c) {s : Slot} :
    s ∈ c.params ↔ ∃ p ∈ written, l.grammar.ownership.Passes p.1 ∧ p.2 = s := by
  simp only [h.params, List.mem_map, List.mem_filter, decide_eq_true_iff, and_assoc]

theorem Constructs.map_initializer (h : Constructs l n written c) :
    (c.initializers.map fun i => i.name.name) = written.map fun p => p.2.name.name := by
  rw [h.initializers, List.map_map]
  rfl

theorem Constructs.mem_initializers_iff (h : Constructs l n written c) {i : Initializer} :
    i ∈ c.initializers ↔ ∃ p ∈ written,
      ⟨p.2.name, if l.grammar.ownership.Passes p.1 then .parameter else .default⟩ = i := by
  rw [h.initializers, List.mem_map]

/-- The slots of a node are filled when the fields are still told apart without the mark. -/
theorem Constructs.fills_iff (h : Constructs l n written c) :
    Fills c (written.map (·.2)) ↔
      (n.fields.map fun field => Code.unmarked field.slotName).Nodup := by
  rw [← h.map_identifier]
  constructor
  · intro hfills
    have hdistinct := hfills.distinct
    rwa [List.map_map] at hdistinct
  · intro hnodup
    refine ⟨by rwa [List.map_map], ?_, ?_, ?_⟩
    · intro s hs
      obtain ⟨p, hp, rfl⟩ := List.mem_map.mp hs
      have hkeys : (c.initializers.map fun i => i.name.name).Nodup := by
        rwa [h.map_initializer]
      exact ⟨_, filter_key_eq_singleton hkeys (h.mem_initializers_iff.mpr ⟨p, hp, rfl⟩)⟩
    · intro i hi
      obtain ⟨p, hp, rfl⟩ := h.mem_initializers_iff.mp hi
      exact ⟨p.2, List.mem_map_of_mem hp, rfl⟩
    · intro i hi
      obtain ⟨p, hp, rfl⟩ := h.mem_initializers_iff.mp hi
      have hfilling : (if l.grammar.ownership.Passes p.1 then Filling.parameter else .default) =
          .parameter ↔ l.grammar.ownership.Passes p.1 := by
        split
        next hpasses => exact iff_of_true rfl hpasses
        next hpasses => exact iff_of_false Filling.noConfusion hpasses
      rw [hfilling]
      constructor
      · intro hpasses
        exact ⟨p.2, h.mem_params_iff.mpr ⟨p, hp, hpasses, rfl⟩, rfl⟩
      · -- A parameter with the identifier of the slot is that of the field itself.
        rintro ⟨s, hs, hname⟩
        obtain ⟨q, hq, hpasses, rfl⟩ := h.mem_params_iff.mp hs
        rwa [← List.inj_on_of_nodup_map hnodup hq hp hname]

end Constructors

section Rows

variable {g : Grammar} {l : Linked} {dress : Dress} {drafts : List Draft}

/-- The structure of a node and its constructor are the only ones under the name. -/
theorem exists_constructs_of_all
    (hlink : g.link = .ok l) (h : all l dress = .ok drafts) {f : Family} (hf : f ∈ g.families)
    {n : Node} (hn : n ∈ f.nodes) :
    ∃ written c, under (f.typeName n) (table Item.slotRows drafts) = [written.map (·.2)] ∧
      under (f.typeName n) (table Item.constructorRows drafts) = [c] ∧
      Constructs l n written c := by
  obtain ⟨d, -, hfd⟩ := exists_draft_of_mem_order h ((Grammar.mem_order_iff hlink).mpr hf)
  obtain ⟨_, slots, hslots, -⟩ := structDecl_mem_of_ofFamily_eq_ok hfd hn
  refine ⟨slots, constructorOf l slots, ?_, ?_, hslots.constructs⟩
  · rw [table_slotRows h, under_map _ fun m : Family × Node => m.1.typeName m.2,
      filter_members_typeName hlink hf hn, List.map_singleton, hslots.eq_writtenSlots]
  · rw [table_constructorRows h, under_map _ fun m : Family × Node => m.1.typeName m.2,
      filter_members_typeName hlink hf hn, List.map_singleton, hslots.eq_writtenSlots]

end Rows

end Draft

theorem Grammar.unmarked_slotNames_nodup
    {g : Grammar} (h : g.validate = .ok ()) {f : Family} (hf : f ∈ g.families) {n : Node}
    (hn : n ∈ f.nodes) (hident : ∀ field ∈ n.fields, Name.isIdentifier field.name = true) :
    (n.fields.map fun field => Code.unmarked field.slotName).Nodup := by
  have hslots := (validate_eq_ok_iff_unambiguous.mp h).slots f hf n hn
  rwa [List.map_congr_left fun field hfield =>
    Field.unmarked_slotName_of_isIdentifier (hident field hfield)]

/-- In the files of a rendered grammar every node has one structure, with a slot for each
field, and one constructor, whose parameters are the slots of the fields that are passed.
The constructor fills the structure exactly when the slot names of the node are told apart
without the mark of the raw spelling.  They always are when the fields are named by
identifiers. -/
theorem render_constructors_fill
    {g : Grammar} {files : List SourceFile} (h : g.render = .ok files) :
    ∃ l drafts, g.link = .ok l ∧ g.drafts = .ok drafts ∧
      files = drafts.map (fun d => ⟨d.path, d.write⟩) ∧
      ∀ f ∈ g.families, ∀ n ∈ f.nodes, ∃ written c,
        Draft.under (f.typeName n) (Draft.table Item.slotRows drafts) = [written.map (·.2)] ∧
        Draft.under (f.typeName n) (Draft.table Item.constructorRows drafts) = [c] ∧
        Draft.Constructs l n written c ∧
        (Draft.Fills c (written.map (·.2)) ↔
          (n.fields.map fun field => Code.unmarked field.slotName).Nodup) ∧
        ((∀ field ∈ n.fields, Name.isIdentifier field.name = true) →
          Draft.Fills c (written.map (·.2))) := by
  obtain ⟨drafts, hdrafts, hfiles⟩ := Grammar.exists_of_render_eq_ok h
  obtain ⟨l, dress, hlink, -, hall⟩ := Grammar.exists_of_drafts_eq_ok hdrafts
  have hvalid := (Grammar.link_eq_ok_iff_stages.mp hlink).1
  refine ⟨l, drafts, hlink, hdrafts, hfiles, ?_⟩
  intro f hf n hn
  obtain ⟨written, c, hslots, hconstructor, hconstructs⟩ :=
    Draft.exists_constructs_of_all hlink hall hf hn
  refine ⟨written, c, hslots, hconstructor, hconstructs, hconstructs.fills_iff, ?_⟩
  intro hident
  exact hconstructs.fills_iff.mpr (Grammar.unmarked_slotNames_nodup hvalid hf hn hident)

/-- A node with more parameters than is usual, a field that starts with its default value,
and slot names that are reserved or change their case. -/
def manyParameters : Grammar :=
  { name := "Many"
    families := [⟨"Expr", [⟨"Call", [⟨⟨"Token", []⟩, "paren"⟩, ⟨⟨"Expr", []⟩, "callee"⟩,
      ⟨⟨"String", []⟩, "textBuffer"⟩, ⟨⟨"List", [⟨"Expr", []⟩]⟩, "args"⟩, ⟨⟨"u8", []⟩, "type"⟩,
      ⟨⟨"u8", []⟩, "currentLine"⟩, ⟨⟨"u8", []⟩, "a"⟩, ⟨⟨"u8", []⟩, "b"⟩,
      ⟨⟨"u8", []⟩, "c"⟩]⟩], none⟩]
    options := { result := "Value", aliases := [("List", "Vec")] } }

theorem render_constructors_fill_manyParameters :
    ∃ drafts slots c, manyParameters.drafts = .ok drafts ∧
      Draft.under "CallExpr" (Draft.table Item.slotRows drafts) = [slots] ∧
      Draft.under "CallExpr" (Draft.table Item.constructorRows drafts) = [c] ∧
      Draft.Fills c slots ∧ c.allowsMany = true ∧
      slots.map (·.name.text) = ["paren", "callee", "text_buffer", "args", "r#type",
        "current_line", "a", "b", "c"] ∧
      c.params.map (·.name.text) = ["paren", "callee", "args", "r#type", "current_line", "a",
        "b", "c"] := by
  have hread : ∃ drafts, manyParameters.drafts = .ok drafts ∧
      (Draft.under "CallExpr" (Draft.table Item.slotRows drafts)).map
          (fun slots => slots.map (·.name.text)) =
        [["paren", "callee", "text_buffer", "args", "r#type", "current_line", "a", "b", "c"]] ∧
      (Draft.under "CallExpr" (Draft.table Item.constructorRows drafts)).map
          (fun c => (c.allowsMany, c.params.map (·.name.text))) =
        [(true, ["paren", "callee", "args", "r#type", "current_line", "a", "b", "c"])] :=
    Grammar.exists_drafts_of_any (by decide +kernel)
  obtain ⟨drafts, hdrafts, hslotTexts, hconstructorTexts⟩ := hread
  obtain ⟨l, _, -, hdrafts', -, hnodes⟩ :=
    render_constructors_fill (Grammar.render_eq_ok_of_drafts hdrafts)
  obtain rfl := Except.ok.inj (hdrafts.symm.trans hdrafts')
  obtain ⟨written, c, hslots, hconstructor, -, -, hfills⟩ :=
    hnodes _ List.mem_cons_self _ List.mem_cons_self
  change Draft.under "CallExpr" _ = _ at hslots hconstructor
  rw [hslots, List.map_singleton] at hslotTexts
  rw [hconstructor, List.map_singleton] at hconstructorTexts
  obtain ⟨hallows, hparams⟩ := Prod.mk.inj (List.singleton_inj.mp hconstructorTexts)
  exact ⟨drafts, written.map (·.2), c, hdrafts, hslots, hconstructor, hfills (by decide +kernel),
    hallows, List.singleton_inj.mp hslotTexts, hparams⟩

/-- A field with a name in raw spelling beside one with the reserved word itself. -/
def rawSpelling : Grammar :=
  { name := "Raw"
    families := [⟨"Expr", [⟨"Nil", [⟨⟨"u8", []⟩, "type"⟩, ⟨⟨"u8", []⟩, "r#type"⟩]⟩], none⟩]
    options := { result := "Value" } }

/-- Fields that validation tells apart may be written as one identifier: the structure then
has two slots of one name, and its constructor fills that name twice. -/
theorem slots_collide_of_rawSpelling :
    ∃ drafts, rawSpelling.drafts = .ok drafts ∧
      (Draft.under "NilExpr" (Draft.table Item.slotRows drafts)).map
          (fun slots => slots.map (·.name.text)) = [["r#type", "r#type"]] ∧
      (Draft.under "NilExpr" (Draft.table Item.constructorRows drafts)).map
          (fun c => c.initializers.map (·.name.text)) = [["r#type", "r#type"]] :=
  Grammar.exists_drafts_of_any (by decide +kernel)

end Treewright
