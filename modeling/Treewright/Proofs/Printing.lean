import Treewright.Proofs.Drafts
import Treewright.Proofs.FieldType

/-!
# Code that can be printed

Some code is read although it cannot be printed: a function without a body inside a block is
one example.  The items of the files hold such code only where the grammar brings it along,
in the result type or in what is written for the names of field types.  So the files of a
grammar can be printed as soon as these pieces can.
-/

namespace Treewright

/-- The code that a grammar brings along can be printed wherever it can be read: its result
type, and what is written for the type names in its fields. -/
def Grammar.CodePrints (g : Grammar) : Prop :=
  (∀ type ∈ Code.Ty.parse? g.options.result, type.printable = true) ∧
    ∀ f ∈ g.families, ∀ n ∈ f.nodes, ∀ field ∈ n.fields, ∀ name ∈ field.type.names,
      ∀ path ∈ Code.Path.parse? (g.options.codeName name), path.printable = true

instance (g : Grammar) : Decidable g.CodePrints :=
  inferInstanceAs (Decidable (_ ∧ _))

theorem FieldType.allPrintable_iff {types : List FieldType} :
    FieldType.allPrintable types = true ↔ ∀ type ∈ types, type.printable = true := by
  induction types with
  | nil => simp [FieldType.allPrintable]
  | cons t rest ih => simp [FieldType.allPrintable, ih]

namespace Linked

/-- A written field type can be printed when the code of its names can. -/
theorem printable_of_fieldTypeIn
    {l : Linked} {t : TypeRef} :
    ∀ {box : Bool} {type : FieldType}, l.fieldTypeIn box t = .ok type →
      (∀ name, t.Mentions name →
        ∀ path ∈ Code.Path.parse? (l.grammar.options.codeName name), path.printable = true) →
      type.printable = true := by
  induction t using TypeRef.induction_args with
  | step name args ih =>
      intro box type h hcode
      rcases fieldTypeIn_cases h with ⟨-, -, rfl⟩ | ⟨-, types, path, htypes, hpath, rfl⟩
      · split <;> rfl
      · have happlied : (FieldType.applied path types).printable = true := by
          rw [FieldType.printable, Bool.and_eq_true, FieldType.allPrintable_iff]
          refine ⟨hcode name .outermost path hpath, fun inner hinner => ?_⟩
          obtain ⟨t, ht, hwritten⟩ := exists_source_of_mem htypes hinner
          exact ih t ht hwritten fun name hname => hcode name (.inside ht hname)
        split
        · exact happlied
        · exact happlied

end Linked

namespace Draft

variable {l : Linked} {dress : Dress}

theorem printable_of_mem_slots
    (hcode : l.grammar.CodePrints) {f : Family} (hf : f ∈ l.grammar.families) {n : Node}
    (hn : n ∈ f.nodes) {slots : List (Field × Slot)} (hslots : IsSlots l n slots) {s : Slot}
    (hs : s ∈ slots.map (·.2)) : s.type.printable = true := by
  obtain ⟨field, hfield, hwritten⟩ := hslots.exists_field hs
  apply Linked.printable_of_fieldTypeIn hwritten
  intro name hname
  exact hcode.2 f hf n hn field hfield name (TypeRef.mem_names_iff.mpr hname)

/-- The items of the files can be printed when the code that the grammar brings along can. -/
theorem Holds.printable
    (horder : ∀ f ∈ l.order, f ∈ l.grammar.families)
    (hdress : Dress.ofOptions l.grammar.options = .ok dress) (hcode : l.grammar.CodePrints)
    {item : Item} (h : Holds l dress item) : item.printable = true := by
  have hresult : dress.result.printable = true :=
    hcode.1 dress.result (Dress.parts_of_ofOptions_eq_ok hdress).1
  cases h with
  | moduleDecl | siblingImport | reexport | userImport | enumDecl | conversion => rfl
  | enumDispatch => exact hresult
  | @structDecl f hf n hn doc slots hslots =>
      rw [Item.printable, List.all_eq_true]
      exact fun s hs => printable_of_mem_slots hcode (horder f hf) hn hslots hs
  | @structImpl f hf n hn slots hslots =>
      rw [Item.printable, Bool.and_eq_true, List.all_eq_true]
      exact ⟨fun s hs =>
        printable_of_mem_slots hcode (horder f hf) hn hslots (params_subset_slots hs), hresult⟩
  | @visitorTrait doc methods hmethods =>
      rw [Item.printable, List.all_eq_true]
      intro m hm
      obtain ⟨f, -, n, -, hnm⟩ := hmethods m hm
      rw [(visitMethod_eq_ok hnm).2.2]
      exact hresult

end Draft

end Treewright
