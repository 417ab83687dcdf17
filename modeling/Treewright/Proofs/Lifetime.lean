import Treewright.Proofs.Borrowing
import Treewright.Proofs.Drafts
import Treewright.Proofs.FieldType

/-!
# Lifetimes in written files

Whether a written type carries the lifetime of the source text is decided in several
places: a declaration asks whether its family or its node borrows, a mention asks the
same about the mentioned type, and a field type is written by recursion on the type of
the grammar.  The answers agree because the borrowing families are closed under
mentions.  A lifetime that stands in an item is therefore declared by this item, as long
as the code which the grammar brings along is free of it, and every mention of a written
type has a lifetime argument exactly when the declaration of the type has a parameter.
-/

namespace Treewright

/-! ## Lifetimes of code -/

namespace Code

mutual

/-- The lifetimes in a token, at any depth of brackets. -/
def Token.lifetimes : Token → List String
  | .lifetime text => [text]
  | .group _ content => Token.lifetimesOf content
  | _ => []

/-- The lifetimes in a list of tokens. -/
def Token.lifetimesOf : List Token → List String
  | [] => []
  | t :: rest => t.lifetimes ++ Token.lifetimesOf rest

end

/-- The lifetimes in a document once it is written. -/
def writtenLifetimes (d : List Layout.Doc) : List String :=
  match Token.scan (Layout.Doc.render d) with
  | some tokens => Token.lifetimesOf tokens
  | none => []

/-- The lifetimes in a path. -/
def Path.lifetimes (p : Path) : List String :=
  writtenLifetimes (p.doc "")

/-- The lifetimes in a type. -/
def Ty.lifetimes (t : Ty) : List String :=
  writtenLifetimes t.doc

end Code

/-- The code that a grammar brings along holds no lifetime of this name: neither its
result type nor what is written for the type names in its fields. -/
def Grammar.CodeAvoids (g : Grammar) (lifetime : String) : Prop :=
  (∀ type ∈ Code.Ty.parse? g.options.result, lifetime ∉ type.lifetimes) ∧
    ∀ f ∈ g.families, ∀ n ∈ f.nodes, ∀ field ∈ n.fields, ∀ name ∈ field.type.names,
      g.isFamily name = false →
        ∀ path ∈ Code.Path.parse? (g.options.codeName name), lifetime ∉ path.lifetimes

instance (g : Grammar) (lifetime : String) : Decidable (g.CodeAvoids lifetime) :=
  inferInstanceAs (Decidable (_ ∧ _))

/-! ## Lifetimes and mentions in items -/

namespace FieldType

mutual

/-- The lifetimes in a field type. -/
def lifetimes : FieldType → List String
  | family mention => mention.lifetime.toList
  | boxed inner => inner.lifetimes
  | borrowed inner => sourceLifetime :: inner.lifetimes
  | applied path args => path.lifetimes ++ lifetimesOf args

/-- The lifetimes in a list of field types. -/
def lifetimesOf : List FieldType → List String
  | [] => []
  | t :: rest => t.lifetimes ++ lifetimesOf rest

end

mutual

/-- The families that are mentioned in a field type. -/
def families : FieldType → List Mention
  | family mention => [mention]
  | boxed inner => inner.families
  | borrowed inner => inner.families
  | applied _ args => familiesOf args

/-- The families that are mentioned in a list of field types. -/
def familiesOf : List FieldType → List Mention
  | [] => []
  | t :: rest => t.families ++ familiesOf rest

end

theorem lifetimesOf_eq_flatMap (types : List FieldType) :
    lifetimesOf types = types.flatMap lifetimes := by
  induction types with
  | nil => rfl
  | cons t rest ih => rw [lifetimesOf, ih, List.flatMap_cons]

theorem familiesOf_eq_flatMap (types : List FieldType) :
    familiesOf types = types.flatMap families := by
  induction types with
  | nil => rfl
  | cons t rest ih => rw [familiesOf, ih, List.flatMap_cons]

@[simp] theorem lifetimes_boxedIf (box : Bool) (t : FieldType) :
    (if box then .boxed t else t).lifetimes = t.lifetimes := by
  cases box with
  | true => rfl
  | false => rfl

@[simp] theorem families_boxedIf (box : Bool) (t : FieldType) :
    (if box then .boxed t else t).families = t.families := by
  cases box with
  | true => rfl
  | false => rfl

theorem mem_lifetimes_borrowedIf_iff
    {c : Prop} [Decidable c] {t : FieldType} {lifetime : String} :
    lifetime ∈ (if c then .borrowed t else t).lifetimes ↔
      c ∧ lifetime = sourceLifetime ∨ lifetime ∈ t.lifetimes := by
  by_cases hc : c
  · simp [hc, lifetimes]
  · simp [hc]

@[simp] theorem families_borrowedIf (c : Prop) [Decidable c] (t : FieldType) :
    (if c then .borrowed t else t).families = t.families := by
  by_cases hc : c
  · simp [hc, families]
  · simp [hc]

end FieldType

namespace Item

/-- The lifetimes that stand in an item. -/
def lifetimes : Item → List String
  | enumDecl _ _ _ _ variants => variants.flatMap (·.payload.lifetime.toList)
  | enumDispatch _ target _ result => target.lifetime.toList ++ result.lifetimes
  | structDecl _ _ _ _ slots => slots.flatMap (·.type.lifetimes)
  | structImpl _ target constructor _ result =>
    target.lifetime.toList ++ constructor.params.flatMap (·.type.lifetimes) ++ result.lifetimes
  | conversion _ source target _ => source.lifetime.toList ++ target.lifetime.toList
  | visitorTrait _ methods =>
    methods.flatMap fun m => m.value.lifetime.toList ++ m.result.lifetimes
  | _ => []

/-- Decides whether an item declares the lifetime of the source text. -/
def declaresSource : Item → Bool
  | enumDecl _ _ _ declares _ => declares
  | enumDispatch declares _ _ _ => declares
  | structDecl _ _ _ declares _ => declares
  | structImpl declares _ _ _ _ => declares
  | conversion declares _ _ _ => declares
  | _ => false

/-- The nodes that an item of a family file mentions. -/
def nodes : Item → List Mention
  | enumDecl _ _ _ _ variants => variants.map (·.payload)
  | structImpl _ target _ _ _ => [target]
  | conversion _ source _ _ => [source]
  | _ => []

/-- The nodes that an item hands to a visitor. -/
def visitedNodes : Item → List Mention
  | visitorTrait _ methods => methods.map (·.value)
  | _ => []

/-- The families that an item mentions. -/
def families : Item → List Mention
  | enumDispatch _ target _ _ => [target]
  | structDecl _ _ _ _ slots => slots.flatMap (·.type.families)
  | structImpl _ _ constructor _ _ => constructor.params.flatMap (·.type.families)
  | conversion _ _ target _ => [target]
  | _ => []

theorem families_of_isLink {item : Item} (h : item.isLink = true) : item.families = [] := by
  cases item with
  | moduleDecl | siblingImport | reexport | userImport => rfl
  | _ => simp [isLink] at h

/-- The structure that an item declares, and whether it has the lifetime parameter. -/
def struct? : Item → Option (String × Bool)
  | structDecl _ _ name declares _ => some (name, declares)
  | _ => none

/-- The enumeration that an item declares, and whether it has the lifetime parameter. -/
def enum? : Item → Option (String × Bool)
  | enumDecl _ _ name declares _ => some (name, declares)
  | _ => none

end Item

/-- The type of the mention is declared, and the mention carries the lifetime exactly
when the declaration has a parameter for it. -/
def Mention.Agrees (m : Mention) (lifetime : String) (declarations : List (String × Bool)) :
    Prop :=
  m.name ∈ declarations.map (·.1) ∧
    ∀ p ∈ declarations, p.1 = m.name → m.lifetime = if p.2 then some lifetime else none

/-- The structures that are declared in drafts. -/
def Draft.structs (drafts : List Draft) : List (String × Bool) :=
  drafts.flatMap fun d => d.items.filterMap Item.struct?

/-- The enumerations that are declared in drafts. -/
def Draft.enums (drafts : List Draft) : List (String × Bool) :=
  drafts.flatMap fun d => d.items.filterMap Item.enum?

/-- All mentions of nodes and of families agree with the declarations, in all files. -/
structure LifetimesAgree (drafts : List Draft) : Prop where
  nodes : ∀ d ∈ drafts, ∀ item ∈ d.items, ∀ m ∈ item.nodes,
    m.Agrees sourceLifetime (Draft.structs drafts)
  visitedNodes : ∀ d ∈ drafts, ∀ item ∈ d.items, ∀ m ∈ item.visitedNodes,
    m.Agrees "'_" (Draft.structs drafts)
  families : ∀ d ∈ drafts, ∀ item ∈ d.items, ∀ m ∈ item.families,
    m.Agrees sourceLifetime (Draft.enums drafts)

/-- No item uses the lifetime of the source text without declaring it. -/
def SourceDeclared (drafts : List Draft) : Prop :=
  ∀ d ∈ drafts, ∀ item ∈ d.items, sourceLifetime ∈ item.lifetimes → item.declaresSource = true

instance (drafts : List Draft) : Decidable (SourceDeclared drafts) :=
  inferInstanceAs (Decidable (∀ _ ∈ _, _))

/-! ## Where lifetimes and families come from -/

/-- A name of a field type puts a lifetime into the written type.  A family that borrows
puts the lifetime of the source text there.  So does any other name that is on the
borrowed list, and it brings along the lifetimes of its code. -/
def Grammar.Puts (g : Grammar) (lifetime name : String) : Prop :=
  if g.isFamily name then
    name ∈ Linked.borrowingFamilies g ∧ lifetime = sourceLifetime
  else
    name ∈ g.ownership.borrowed ∧ lifetime = sourceLifetime ∨
      ∃ path ∈ Code.Path.parse? (g.options.codeName name), lifetime ∈ path.lifetimes

theorem Grammar.Puts.cases
    {g : Grammar} {lifetime name : String} (h : g.Puts lifetime name) :
    (lifetime = sourceLifetime ∧
      (name ∈ g.ownership.borrowed ∨ name ∈ Linked.borrowingFamilies g)) ∨
    (g.isFamily name = false ∧
      ∃ path ∈ Code.Path.parse? (g.options.codeName name), lifetime ∈ path.lifetimes) := by
  unfold Grammar.Puts at h
  by_cases hfamily : g.isFamily name = true
  · rw [if_pos hfamily] at h
    exact Or.inl ⟨h.2, Or.inr h.1⟩
  · rw [if_neg hfamily] at h
    rcases h with ⟨hborrowed, hsource⟩ | hcode
    · exact Or.inl ⟨hsource, Or.inl hborrowed⟩
    · exact Or.inr ⟨Bool.eq_false_iff.mpr hfamily, hcode⟩

namespace Linked

theorem mem_lifetimeIf_iff {borrows : Bool} {lifetime : String} :
    lifetime ∈ (lifetimeIf borrows).toList ↔ borrows = true ∧ lifetime = sourceLifetime := by
  cases borrows with
  | true => simp [lifetimeIf]
  | false => simp [lifetimeIf]

/-- The lifetimes in a written field type are those that its names put there. -/
theorem mem_lifetimes_iff
    {g : Grammar} {l : Linked} (hlink : g.link = .ok l) {t : TypeRef} {lifetime : String} :
    ∀ {box : Bool} {type : FieldType}, l.fieldTypeIn box t = .ok type →
      (lifetime ∈ type.lifetimes ↔ ∃ name, t.Mentions name ∧ g.Puts lifetime name) := by
  have hg := Grammar.grammar_of_link hlink
  induction t using TypeRef.induction_args with
  | step name args ih =>
      intro box type h
      rcases fieldTypeIn_cases h with
        ⟨hfamily, rfl, rfl⟩ | ⟨hfamily, types, path, htypes, hpath, rfl⟩
      · have hputs : lifetime ∈ (l.familyMention name).lifetime.toList ↔ g.Puts lifetime name := by
          rw [hg] at hfamily
          rw [familyMention, mem_lifetimeIf_iff, familyBorrows, decide_eq_true_eq,
            Grammar.borrowing_of_link hlink, Grammar.Puts, if_pos hfamily]
        rw [FieldType.lifetimes_boxedIf, FieldType.lifetimes, hputs]
        constructor
        · exact fun hputs => ⟨name, .outermost, hputs⟩
        · rintro ⟨_, hmentions, hputs⟩
          cases hmentions with
          | outermost => exact hputs
          | inside ht _ => exact False.elim (List.not_mem_nil ht)
      · have hputs : name ∈ l.grammar.ownership.borrowed ∧ lifetime = sourceLifetime ∨
            lifetime ∈ path.lifetimes ↔ g.Puts lifetime name := by
          rw [hg] at hfamily hpath ⊢
          rw [Grammar.Puts, if_neg (by simp [hfamily]), hpath]
          simp
        rw [FieldType.mem_lifetimes_borrowedIf_iff, FieldType.lifetimes,
          FieldType.lifetimesOf_eq_flatMap, List.mem_append, List.mem_flatMap, ← or_assoc, hputs]
        constructor
        · rintro (hputs | ⟨inner, hinner, hmem⟩)
          · exact ⟨name, .outermost, hputs⟩
          · obtain ⟨t, ht, hwritten⟩ := exists_source_of_mem htypes hinner
            obtain ⟨found, hmentions, hputs⟩ := (ih t ht hwritten).mp hmem
            exact ⟨found, .inside ht hmentions, hputs⟩
        · rintro ⟨found, hmentions, hputs⟩
          cases hmentions with
          | outermost => exact Or.inl hputs
          | @inside _ _ _ t ht hmentions =>
              obtain ⟨inner, hinner, hwritten⟩ := exists_built_of_mem htypes ht
              exact Or.inr ⟨inner, hinner, (ih t ht hwritten).mpr ⟨found, hmentions, hputs⟩⟩

/-- A family in a written field type is a family of the grammar which the field type
mentions, and it is written as everywhere else. -/
theorem exists_family_of_mem_families
    {l : Linked} {t : TypeRef} {m : Mention} :
    ∀ {box : Bool} {type : FieldType}, l.fieldTypeIn box t = .ok type → m ∈ type.families →
      ∃ f ∈ l.grammar.families, t.Mentions f.name ∧ m = l.familyMention f.name := by
  induction t using TypeRef.induction_args with
  | step name args ih =>
      intro box type h hm
      rcases fieldTypeIn_cases h with ⟨hfamily, -, rfl⟩ | ⟨-, types, path, htypes, -, rfl⟩
      · rw [FieldType.families_boxedIf, FieldType.families] at hm
        obtain rfl := List.mem_singleton.mp hm
        obtain ⟨f, hf, rfl⟩ := Grammar.isFamily_iff.mp hfamily
        exact ⟨f, hf, .outermost, rfl⟩
      · rw [FieldType.families_borrowedIf, FieldType.families,
          FieldType.familiesOf_eq_flatMap] at hm
        obtain ⟨inner, hinner, hmem⟩ := List.mem_flatMap.mp hm
        obtain ⟨t, ht, hwritten⟩ := exists_source_of_mem htypes hinner
        obtain ⟨f, hf, hmentions, hm⟩ := ih t ht hwritten hmem
        exact ⟨f, hf, .inside ht hmentions, hm⟩

end Linked

namespace Draft

/-! ## Every used lifetime is declared -/

section Declared

variable {g : Grammar} {l : Linked} {dress : Dress}

/-- A node with the lifetime of the source text in one of its slots borrows. -/
theorem borrows_of_mem_slot_lifetimes
    (hlink : g.link = .ok l) (hcode : g.CodeAvoids sourceLifetime)
    {f : Family} (hf : f ∈ g.families) {n : Node} (hn : n ∈ f.nodes)
    {slots : List (Field × Slot)} (hslots : IsSlots l n slots)
    {s : Slot} (hs : s ∈ slots.map (·.2)) (hsource : sourceLifetime ∈ s.type.lifetimes) :
    l.borrows n = true := by
  obtain ⟨field, hfield, htype⟩ := hslots.exists_field hs
  obtain ⟨name, hmentions, hputs⟩ := (Linked.mem_lifetimes_iff hlink htype).mp hsource
  rcases Grammar.Puts.cases hputs with ⟨-, hname⟩ | ⟨hfamily, path, hpath, hmem⟩
  · rw [Linked.borrows, Linked.nodeBorrows_iff, Grammar.grammar_of_link hlink,
      Grammar.borrowing_of_link hlink]
    exact ⟨name, ⟨field, hfield, hmentions⟩, hname⟩
  · have havoids := hcode.2 f hf n hn field hfield name (TypeRef.mem_names_iff.mpr hmentions)
      hfamily path hpath
    exact False.elim (havoids hmem)

theorem source_not_mem_result
    (hdress : Dress.ofOptions g.options = .ok dress) (hcode : g.CodeAvoids sourceLifetime) :
    sourceLifetime ∉ dress.result.lifetimes :=
  hcode.1 dress.result (Dress.parts_of_ofOptions_eq_ok hdress).1

/-- An item in which the lifetime of the source text stands declares it. -/
theorem Holds.declaresSource
    (hlink : g.link = .ok l) (hdress : Dress.ofOptions g.options = .ok dress)
    (hcode : g.CodeAvoids sourceLifetime) {item : Item} (h : Holds l dress item)
    (hsource : sourceLifetime ∈ item.lifetimes) : item.declaresSource = true := by
  have hfamilies : ∀ f ∈ l.order, f ∈ g.families := fun f hf =>
    (Grammar.mem_order_iff hlink).mp hf
  have hresult := source_not_mem_result hdress hcode
  have hfamily : ∀ f ∈ l.order, ∀ n ∈ f.nodes, l.borrows n = true →
      l.familyBorrows f.name = true := fun f hf n hn hborrows =>
    (Linked.familyBorrows_iff_exists_borrows hlink (hfamilies f hf)).mpr ⟨n, hn, hborrows⟩
  cases h with
  | moduleDecl | siblingImport | reexport | userImport => simp [Item.lifetimes] at hsource
  | @enumDecl f hf doc variants hvariants =>
      obtain ⟨v, hv, hmem⟩ := List.mem_flatMap.mp hsource
      obtain ⟨n, hn, -, hpayload⟩ := exists_source_of_mem hvariants hv
      rw [hpayload] at hmem
      exact hfamily f hf n hn (Linked.mem_lifetimeIf_iff.mp hmem).1
  | @enumDispatch f hf =>
      rcases List.mem_append.mp hsource with hmem | hmem
      · exact (Linked.mem_lifetimeIf_iff.mp hmem).1
      · exact False.elim (hresult hmem)
  | @structDecl f hf n hn doc slots hslots =>
      obtain ⟨s, hs, hmem⟩ := List.mem_flatMap.mp hsource
      exact borrows_of_mem_slot_lifetimes hlink hcode (hfamilies f hf) hn hslots hs hmem
  | @structImpl f hf n hn slots hslots =>
      rcases List.mem_append.mp hsource with hsource | hmem
      · rcases List.mem_append.mp hsource with hmem | hmem
        · exact (Linked.mem_lifetimeIf_iff.mp hmem).1
        · obtain ⟨s, hs, hmem⟩ := List.mem_flatMap.mp hmem
          exact borrows_of_mem_slot_lifetimes hlink hcode (hfamilies f hf) hn hslots
            (params_subset_slots hs) hmem
      · exact False.elim (hresult hmem)
  | @conversion f hf n hn =>
      -- The node's lifetime is bound by the declaration of the family.
      rcases List.mem_append.mp hsource with hmem | hmem
      · exact hfamily f hf n hn (Linked.mem_lifetimeIf_iff.mp hmem).1
      · exact (Linked.mem_lifetimeIf_iff.mp hmem).1
  | visitorTrait doc hmethods =>
      obtain ⟨m, hm, hmem⟩ := List.mem_flatMap.mp hsource
      obtain ⟨f, -, n, -, hbuilt⟩ := hmethods m hm
      obtain ⟨-, hvalue, hmresult⟩ := visitMethod_eq_ok hbuilt
      rw [hvalue, hmresult] at hmem
      rcases List.mem_append.mp hmem with hmem | hmem
      · cases hborrows : l.borrows n with
        | true => simp [hborrows, sourceLifetime] at hmem
        | false => simp [hborrows] at hmem
      · exact False.elim (hresult hmem)

end Declared

/-! ## Mentions agree with declarations -/

section Mentions

variable {g : Grammar} {l : Linked} {dress : Dress} {drafts : List Draft}

theorem mem_structs_iff
    (h : all l dress = .ok drafts) {p : String × Bool} :
    p ∈ structs drafts ↔ ∃ f ∈ l.order, ∃ n ∈ f.nodes, p = (f.typeName n, l.borrows n) := by
  simp only [structs, List.mem_flatMap, List.mem_filterMap]
  constructor
  · rintro ⟨d, hd, item, hitem, hstruct⟩
    cases holds_of_mem_all h hd item hitem with
    | structDecl hf hn doc hslots => exact ⟨_, hf, _, hn, (Option.some.inj hstruct).symm⟩
    | _ => simp [Item.struct?] at hstruct
  · rintro ⟨f, hf, n, hn, rfl⟩
    obtain ⟨d, hd, hfd⟩ := exists_draft_of_mem_order h hf
    obtain ⟨doc, slots, -, hitem⟩ := structDecl_mem_of_ofFamily_eq_ok hfd hn
    exact ⟨d, hd, _, hitem, rfl⟩

theorem mem_enums_iff
    (h : all l dress = .ok drafts) {p : String × Bool} :
    p ∈ enums drafts ↔ ∃ f ∈ l.order, p = (f.name, l.familyBorrows f.name) := by
  simp only [enums, List.mem_flatMap, List.mem_filterMap]
  constructor
  · rintro ⟨d, hd, item, hitem, henum⟩
    cases holds_of_mem_all h hd item hitem with
    | enumDecl hf doc hvariants => exact ⟨_, hf, (Option.some.inj henum).symm⟩
    | _ => simp [Item.enum?] at henum
  · rintro ⟨f, hf, rfl⟩
    obtain ⟨d, hd, hfd⟩ := exists_draft_of_mem_order h hf
    obtain ⟨doc, variants, -, hitem⟩ := enumDecl_mem_of_ofFamily_eq_ok hfd
    exact ⟨d, hd, _, hitem, rfl⟩

/-- A mention of a node agrees with its structure if it asks whether the node borrows:
no other node has a structure of this name. -/
theorem agrees_structs
    (hlink : g.link = .ok l) (h : all l dress = .ok drafts) {f : Family} (hf : f ∈ l.order)
    {n : Node} (hn : n ∈ f.nodes) (lifetime : String) :
    (Mention.mk (f.typeName n) (if l.borrows n then some lifetime else none)).Agrees lifetime
      (structs drafts) := by
  constructor
  · exact List.mem_map_of_mem ((mem_structs_iff h).mpr ⟨f, hf, n, hn, rfl⟩)
  · intro p hp hname
    obtain ⟨e, he, m, hm, rfl⟩ := (mem_structs_iff h).mp hp
    have hvalid := (Grammar.link_eq_ok_iff_stages.mp hlink).1
    obtain ⟨rfl, rfl⟩ := Grammar.eq_of_typeName_eq_of_validate hvalid
      ((Grammar.mem_order_iff hlink).mp he) hm ((Grammar.mem_order_iff hlink).mp hf) hn hname
    rfl

theorem agrees_enums
    (h : all l dress = .ok drafts) {f : Family} (hf : f ∈ l.order) :
    (l.familyMention f.name).Agrees sourceLifetime (enums drafts) := by
  constructor
  · exact List.mem_map_of_mem ((mem_enums_iff h).mpr ⟨f, hf, rfl⟩)
  · intro p hp hname
    obtain ⟨e, he, rfl⟩ := (mem_enums_iff h).mp hp
    change (l.familyMention f.name).lifetime = (l.familyMention e.name).lifetime
    rw [show e.name = f.name from hname]

theorem Holds.exists_of_mem_nodes
    {item : Item} (h : Holds l dress item) {m : Mention} (hm : m ∈ item.nodes) :
    ∃ f ∈ l.order, ∃ n ∈ f.nodes, m = l.nodeMention f n := by
  cases h with
  | @enumDecl f hf doc variants hvariants =>
      obtain ⟨v, hv, rfl⟩ := List.mem_map.mp hm
      obtain ⟨n, hn, -, hpayload⟩ := exists_source_of_mem hvariants hv
      exact ⟨f, hf, n, hn, hpayload⟩
  | @structImpl f hf n hn =>
      exact ⟨f, hf, n, hn, List.mem_singleton.mp hm⟩
  | @conversion f hf n hn =>
      exact ⟨f, hf, n, hn, List.mem_singleton.mp hm⟩
  | _ => simp [Item.nodes] at hm

theorem Holds.exists_of_mem_visitedNodes
    {item : Item} (h : Holds l dress item) {m : Mention} (hm : m ∈ item.visitedNodes) :
    ∃ f ∈ l.grammar.families, ∃ n ∈ f.nodes,
      m = ⟨f.typeName n, if l.borrows n then some "'_" else none⟩ := by
  cases h with
  | visitorTrait doc hmethods =>
      obtain ⟨method, hmethod, rfl⟩ := List.mem_map.mp hm
      obtain ⟨f, hf, n, hn, hbuilt⟩ := hmethods method hmethod
      exact ⟨f, hf, n, hn, (visitMethod_eq_ok hbuilt).2.1⟩
  | _ => simp [Item.visitedNodes] at hm

/-- The families that a family file mentions: its own, and those in the fields. -/
theorem exists_of_mem_families_ofFamily
    {f : Family} {d : Draft} (h : ofFamily l dress f = .ok d) {item : Item}
    (hitem : item ∈ d.items) {m : Mention} (hm : m ∈ item.families) :
    ∃ e, (e = f ∨ e ∈ l.grammar.families ∧ f.Mentions e.name) ∧ m = l.familyMention e.name := by
  obtain ⟨links, base, nodes, hlinks, hbase, hnodes, hitems⟩ := exists_links_of_ofFamily_eq_ok h
  obtain ⟨doc, variants, -, rfl⟩ := exists_of_baseItems_eq_ok hbase
  have hslot : ∀ {n : Node} {slots : List (Field × Slot)} {s : Slot}, n ∈ f.nodes →
      IsSlots l n slots → s ∈ slots.map (·.2) → m ∈ s.type.families →
        ∃ e ∈ l.grammar.families, f.Mentions e.name ∧ m = l.familyMention e.name := by
    intro n slots s hn hslots hs hm
    obtain ⟨field, hfield, htype⟩ := hslots.exists_field hs
    obtain ⟨e, he, hmentions, hmention⟩ := Linked.exists_family_of_mem_families htype hm
    exact ⟨e, he, ⟨n, hn, field, hfield, hmentions⟩, hmention⟩
  simp only [hitems, List.mem_append, List.mem_cons, List.not_mem_nil, or_false,
    List.mem_flatten] at hitem
  rcases hitem with hitem | (rfl | rfl) | ⟨items, hmem, hitem⟩
  · simp [Item.families_of_isLink (hlinks item hitem)] at hm
  · simp [Item.families] at hm
  · exact ⟨f, Or.inl rfl, List.mem_singleton.mp hm⟩
  · obtain ⟨n, hn, hn'⟩ := exists_source_of_mem hnodes hmem
    obtain ⟨label, slots, -, hslots, rfl⟩ := exists_of_nodeItems_eq_ok hn'
    simp only [List.mem_cons, List.not_mem_nil, or_false] at hitem
    rcases hitem with rfl | rfl | rfl
    · obtain ⟨s, hs, hm⟩ := List.mem_flatMap.mp hm
      obtain ⟨e, he, hmentions, hmention⟩ := hslot hn hslots hs hm
      exact ⟨e, Or.inr ⟨he, hmentions⟩, hmention⟩
    · obtain ⟨s, hs, hm⟩ := List.mem_flatMap.mp hm
      obtain ⟨e, he, hmentions, hmention⟩ := hslot hn hslots (params_subset_slots hs) hm
      exact ⟨e, Or.inr ⟨he, hmentions⟩, hmention⟩
    · exact ⟨f, Or.inl rfl, List.mem_singleton.mp hm⟩

/-- Families are mentioned in family files only. -/
theorem exists_family_of_mem_families
    (h : all l dress = .ok drafts) {d : Draft} (hd : d ∈ drafts) {item : Item}
    (hitem : item ∈ d.items) {m : Mention} (hm : m ∈ item.families) :
    ∃ f ∈ l.order, ofFamily l dress f = .ok d := by
  have hlinks : ∀ item : Item, item.isLink = true → item.families = [] := fun _ h =>
    Item.families_of_isLink h
  have hshown : m ∈ d.items.flatMap Item.families := List.mem_flatMap.mpr ⟨item, hitem, hm⟩
  rcases source_of_mem_all h hd with hfamily | hvisitor | henclosing
  · exact hfamily
  · obtain ⟨doc, methods, -, hnone⟩ := rows_ofVisitor hlinks hvisitor
    simp [hnone, Item.families] at hshown
  · simp [rows_ofModule hlinks henclosing] at hshown

theorem lifetimesAgree_of_all
    (hlink : g.link = .ok l) (h : all l dress = .ok drafts) : LifetimesAgree drafts where
  nodes := by
    intro d hd item hitem m hm
    obtain ⟨f, hf, n, hn, rfl⟩ := (holds_of_mem_all h hd item hitem).exists_of_mem_nodes hm
    exact agrees_structs hlink h hf hn sourceLifetime
  visitedNodes := by
    intro d hd item hitem m hm
    obtain ⟨f, hf, n, hn, rfl⟩ :=
      (holds_of_mem_all h hd item hitem).exists_of_mem_visitedNodes hm
    rw [Grammar.grammar_of_link hlink] at hf
    exact agrees_structs hlink h ((Grammar.mem_order_iff hlink).mpr hf) hn "'_"
  families := by
    intro d hd item hitem m hm
    obtain ⟨f, hf, hfd⟩ := exists_family_of_mem_families h hd hitem hm
    obtain ⟨e, rfl | ⟨he, -⟩, rfl⟩ := exists_of_mem_families_ofFamily hfd hitem hm
    · exact agrees_enums h hf
    · rw [Grammar.grammar_of_link hlink] at he
      exact agrees_enums h ((Grammar.mem_order_iff hlink).mpr he)

end Mentions

end Draft

/-- In the files of a rendered grammar all mentions of written types agree with the
declarations on who carries the lifetime of the source text.  If the code which the
grammar brings along does not hold this lifetime, then every item declares it where the
item uses it. -/
theorem render_lifetimes_agree
    {g : Grammar} {files : List SourceFile} (h : g.render = .ok files) :
    ∃ drafts, g.drafts = .ok drafts ∧ files = drafts.map (fun d => ⟨d.path, d.write⟩) ∧
      LifetimesAgree drafts ∧ (g.CodeAvoids sourceLifetime → SourceDeclared drafts) := by
  obtain ⟨drafts, hdrafts, hfiles⟩ := Grammar.exists_of_render_eq_ok h
  obtain ⟨l, dress, hlink, hdress, hall⟩ := Grammar.exists_of_drafts_eq_ok hdrafts
  refine ⟨drafts, hdrafts, hfiles, Draft.lifetimesAgree_of_all hlink hall, ?_⟩
  intro hcode d hd item hitem hsource
  exact (Draft.holds_of_mem_all hall hd item hitem).declaresSource hlink hdress hcode hsource

/-- A family that borrows through a container, and one that borrows only through it. -/
def borrowingPair : Grammar :=
  { name := "Pair"
    families := [
      ⟨"Stmt", [⟨"Run", [⟨⟨"Expr", []⟩, "body"⟩]⟩, ⟨"Skip", [⟨⟨"u8", []⟩, "width"⟩]⟩],
        some "Expr"⟩,
      ⟨"Expr", [⟨"Name", [⟨⟨"List", [⟨"Token", []⟩]⟩, "parts"⟩]⟩], none⟩]
    options := { result := "Value", aliases := [("List", "Vec")] } }

theorem render_lifetimes_agree_borrowingPair :
    ∃ drafts, borrowingPair.drafts = .ok drafts ∧ LifetimesAgree drafts ∧
      SourceDeclared drafts ∧
      Draft.structs drafts = [("NameExpr", true), ("RunStmt", true), ("SkipStmt", false)] := by
  have hcode : borrowingPair.CodeAvoids sourceLifetime := by decide +kernel
  have hrender : borrowingPair.render.toOption.isSome = true := by decide +kernel
  have hstructs : borrowingPair.drafts.toOption.map Draft.structs =
      some [("NameExpr", true), ("RunStmt", true), ("SkipStmt", false)] := by
    decide +kernel
  cases h : borrowingPair.render with
  | error fault => simp [h, Except.toOption] at hrender
  | ok files =>
      obtain ⟨drafts, hdrafts, -, hagree, hdeclared⟩ := render_lifetimes_agree h
      rw [hdrafts] at hstructs
      exact ⟨drafts, hdrafts, hagree, hdeclared hcode, Option.some.inj hstructs⟩

/-! ## Code that names lifetimes or families -/

/-- The lifetimes in the aliases and in the result type. -/
def Options.lifetimes (o : Options) : List String :=
  (o.aliases.flatMap fun p => ((Code.Path.parse? p.2).map Code.Path.lifetimes).getD []) ++
    ((Code.Ty.parse? o.result).map Code.Ty.lifetimes).getD []

/-- A type name without an alias that is code with a lifetime. -/
def lifetimeInName : Grammar :=
  { name := "Bare"
    families := [⟨"Expr", [⟨"Hold", [⟨⟨"Foo<'src>", []⟩, "held"⟩]⟩], none⟩]
    options := { result := "Value" } }

/-- An alias that is the name of a family. -/
def familyInAlias : Grammar :=
  { name := "Alias"
    families := [⟨"Expr", [⟨"Name", [⟨⟨"Token", []⟩, "text"⟩]⟩], none⟩,
      ⟨"Stmt", [⟨"Run", [⟨⟨"Node", []⟩, "body"⟩]⟩], some "Expr"⟩]
    options := { result := "Value", aliases := [("Node", "Expr")] } }

/-- The types in the slots of a structure, as far as they are a single word. -/
def Item.slotWords : Item → List String
  | structDecl _ _ _ _ slots => slots.filterMap fun s =>
    match s.type with
    | .applied path [] => path.word?.map (·.text)
    | _ => none
  | _ => []

/-- It does not suffice that aliases and result type are free of lifetimes: a type name
without an alias may be code with a lifetime, which then nobody declares, and an alias may
name a family, which then lacks its lifetime. -/
theorem lifetimes_disagree_of_code :
    (lifetimeInName.options.lifetimes = [] ∧
      ∃ drafts, lifetimeInName.drafts = .ok drafts ∧ ¬SourceDeclared drafts) ∧
    (familyInAlias.options.lifetimes = [] ∧
      ∃ drafts, familyInAlias.drafts = .ok drafts ∧ ("Expr", true) ∈ Draft.enums drafts ∧
        ∃ d ∈ drafts, ∃ item ∈ d.items, "Expr" ∈ item.slotWords) := by
  have hname : (lifetimeInName.drafts.toOption.any fun drafts =>
      !decide (SourceDeclared drafts)) = true := by
    decide +kernel
  have halias : (familyInAlias.drafts.toOption.any fun drafts =>
      decide (("Expr", true) ∈ Draft.enums drafts ∧
        ∃ d ∈ drafts, ∃ item ∈ d.items, "Expr" ∈ item.slotWords)) = true := by
    decide +kernel
  refine ⟨⟨by decide +kernel, ?_⟩, by decide +kernel, ?_⟩
  · cases h : lifetimeInName.drafts with
    | error fault => simp [h, Except.toOption] at hname
    | ok drafts => exact ⟨drafts, rfl, by simpa [h, Except.toOption] using hname⟩
  · cases h : familyInAlias.drafts with
    | error fault => simp [h, Except.toOption] at halias
    | ok drafts =>
        rw [h] at halias
        exact ⟨drafts, rfl, of_decide_eq_true halias⟩

end Treewright
