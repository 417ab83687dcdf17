import Treewright.Proofs.Lifetime

/-!
# Declared lifetimes are used

A written type declares the lifetime of the source text when its node or its family
borrows.  Whether the lifetime then stands in the type is decided elsewhere, by the
writing of the field types, and the two decisions are not the same: the first one counts
every mention of a name on the borrowed list, while the second one looks whether a name
is a family before it looks at the list.

They part exactly where a family stands on the borrowed list.  A family that borrows
has a node that borrows, so an enumeration always uses what it declares.  A structure
does not if its node borrows only by mentioning listed families which themselves do not
borrow.  As long as no family is listed, every declared lifetime is used, and it leads
to a reference in a slot of some structure.
-/

namespace Treewright

/-! ## Uses of a declared lifetime -/

/-- A declaration with the lifetime parameter has a part in which the lifetime stands: a
slot of a structure, or the payload of a case of an enumeration. -/
def Item.UsesSource : Item → Prop
  | .structDecl _ _ _ declares slots =>
    declares = true → ∃ s ∈ slots, sourceLifetime ∈ s.type.lifetimes
  | .enumDecl _ _ _ declares variants =>
    declares = true → ∃ v ∈ variants, v.payload.lifetime = some sourceLifetime
  | _ => True

instance : DecidablePred Item.UsesSource := fun item =>
  match item with
  | .structDecl _ _ _ _ _ => inferInstanceAs (Decidable (_ → _))
  | .enumDecl _ _ _ _ _ => inferInstanceAs (Decidable (_ → _))
  | .moduleDecl _ | .siblingImport _ _ | .reexport _ _ | .userImport _ | .enumDispatch _ _ _ _
  | .structImpl _ _ _ _ _ | .conversion _ _ _ _ | .visitorTrait _ _ =>
    inferInstanceAs (Decidable True)

/-- Every declared lifetime is used, in all files. -/
def SourceUsed (drafts : List Draft) : Prop :=
  ∀ d ∈ drafts, ∀ item ∈ d.items, item.UsesSource

instance (drafts : List Draft) : Decidable (SourceUsed drafts) :=
  inferInstanceAs (Decidable (∀ _ ∈ _, _))

/-- The node mentions a borrowed name, and no name that it mentions puts the lifetime of
the source text into a written type. -/
def Grammar.Loses (g : Grammar) (n : Node) : Prop :=
  (∃ name ∈ g.ownership.borrowed, n.Mentions name) ∧
    ∀ name, n.Mentions name → ¬g.Puts sourceLifetime name

/-- A borrowing family puts the lifetime of the source text into a written type. -/
theorem Grammar.puts_of_mem_borrowingFamilies
    {g : Grammar} {name : String} (h : name ∈ Linked.borrowingFamilies g) :
    g.Puts sourceLifetime name := by
  obtain ⟨f, rest, hname, hchain⟩ := Linked.mem_borrowingFamilies_iff.mp h
  have hfamily : g.isFamily name = true :=
    Grammar.isFamily_iff.mpr ⟨f, hchain.head_mem, hname⟩
  rw [Grammar.Puts, if_pos hfamily]
  exact ⟨h, rfl⟩

/-- A borrowed name that is not a family puts the lifetime of the source text into a
written type. -/
theorem Grammar.puts_of_mem_borrowed
    {g : Grammar} {name : String} (hfamily : g.isFamily name = false)
    (h : name ∈ g.ownership.borrowed) : g.Puts sourceLifetime name := by
  rw [Grammar.Puts, if_neg (by simp [hfamily])]
  exact Or.inl ⟨h, rfl⟩

theorem Grammar.isFamily_eq_false_of_mem_borrowed
    {g : Grammar} (hlisted : ∀ f ∈ g.families, f.name ∉ g.ownership.borrowed)
    {name : String} (h : name ∈ g.ownership.borrowed) : g.isFamily name = false := by
  rw [Bool.eq_false_iff]
  intro hfamily
  obtain ⟨f, hf, rfl⟩ := Grammar.isFamily_iff.mp hfamily
  exact hlisted f hf h

theorem Grammar.not_loses_of_not_listed
    {g : Grammar} (hlisted : ∀ f ∈ g.families, f.name ∉ g.ownership.borrowed) (n : Node) :
    ¬g.Loses n := by
  rintro ⟨⟨name, hborrowed, hmentions⟩, hnone⟩
  have hfamily := isFamily_eq_false_of_mem_borrowed hlisted hborrowed
  exact hnone name hmentions (puts_of_mem_borrowed hfamily hborrowed)

namespace Draft

section Used

variable {g : Grammar} {l : Linked} {dress : Dress} {drafts : List Draft}

/-- The lifetime of the source text stands in a slot of a node exactly when a name which
the node mentions puts it there. -/
theorem exists_slot_iff
    (hlink : g.link = .ok l) {n : Node} {slots : List (Field × Slot)}
    (hslots : IsSlots l n slots) :
    (∃ s ∈ slots.map (·.2), sourceLifetime ∈ s.type.lifetimes) ↔
      ∃ name, n.Mentions name ∧ g.Puts sourceLifetime name := by
  constructor
  · rintro ⟨s, hs, hsource⟩
    obtain ⟨field, hfield, htype⟩ := hslots.exists_field hs
    obtain ⟨name, hmentions, hputs⟩ := (Linked.mem_lifetimes_iff hlink htype).mp hsource
    exact ⟨name, ⟨field, hfield, hmentions⟩, hputs⟩
  · rintro ⟨name, ⟨field, hfield, hmentions⟩, hputs⟩
    obtain ⟨s, hs, htype⟩ := hslots.exists_slot hfield
    exact ⟨s, hs, (Linked.mem_lifetimes_iff hlink htype).mpr ⟨name, hmentions, hputs⟩⟩

/-- The structure of a node uses the lifetime it declares unless the node loses it. -/
theorem structDecl_usesSource_iff
    (hlink : g.link = .ok l) {n : Node} {slots : List (Field × Slot)}
    (hslots : IsSlots l n slots) (doc : String) (derives : List (List Code.Token))
    (name : String) :
    (Item.structDecl doc derives name (l.borrows n) (slots.map (·.2))).UsesSource ↔
      ¬g.Loses n := by
  have hborrows : l.borrows n = true ↔
      ∃ name, n.Mentions name ∧
        (name ∈ g.ownership.borrowed ∨ name ∈ Linked.borrowingFamilies g) := by
    rw [Linked.borrows, Linked.nodeBorrows_iff, Grammar.grammar_of_link hlink,
      Grammar.borrowing_of_link hlink]
  rw [Item.UsesSource, exists_slot_iff hlink hslots, hborrows]
  constructor
  · rintro huses ⟨⟨name, hborrowed, hmentions⟩, hnone⟩
    obtain ⟨found, hfound, hputs⟩ := huses ⟨name, hmentions, Or.inl hborrowed⟩
    exact hnone found hfound hputs
  · rintro hkeeps ⟨name, hmentions, hborrowed | hborrowing⟩
    · -- The listed name itself may be a family that does not borrow, so it need not help.
      by_contra hnone
      apply hkeeps
      refine ⟨⟨name, hborrowed, hmentions⟩, ?_⟩
      intro found hfound hputs
      exact hnone ⟨found, hfound, hputs⟩
    · exact ⟨name, hmentions, Grammar.puts_of_mem_borrowingFamilies hborrowing⟩

/-- The enumeration of a family uses the lifetime it declares. -/
theorem enumDecl_usesSource
    (hlink : g.link = .ok l) {f : Family} (hf : f ∈ g.families) {variants : List Variant}
    (hvariants : List.Forall₂ (IsVariant l f) f.nodes variants) (doc : String)
    (derives : List (List Code.Token)) (name : String) :
    (Item.enumDecl doc derives name (l.familyBorrows f.name) variants).UsesSource := by
  intro hdeclares
  obtain ⟨n, hn, hborrows⟩ :=
    (Linked.familyBorrows_iff_exists_borrows hlink hf).mp hdeclares
  obtain ⟨v, hv, -, hpayload⟩ := exists_built_of_mem hvariants hn
  refine ⟨v, hv, ?_⟩
  rw [hpayload, Linked.nodeMention, hborrows]
  rfl

theorem usesSource_of_mem_enums
    (hlink : g.link = .ok l) (h : all l dress = .ok drafts) :
    ∀ d ∈ drafts, ∀ item ∈ d.items, item.enum?.isSome = true → item.UsesSource := by
  intro d hd item hitem henum
  cases holds_of_mem_all h hd item hitem with
  | enumDecl hf doc hvariants =>
      exact enumDecl_usesSource hlink ((Grammar.mem_order_iff hlink).mp hf) hvariants _ _ _
  | _ => simp [Item.enum?] at henum

/-- All declared lifetimes are used exactly when no node loses the lifetime. -/
theorem sourceUsed_iff
    (hlink : g.link = .ok l) (h : all l dress = .ok drafts) :
    SourceUsed drafts ↔ ∀ f ∈ g.families, ∀ n ∈ f.nodes, ¬g.Loses n := by
  constructor
  · intro hused f hf n hn
    have hf' := (Grammar.mem_order_iff hlink).mpr hf
    obtain ⟨d, hd, hfd⟩ := exists_draft_of_mem_order h hf'
    obtain ⟨doc, slots, hslots, hitem⟩ := structDecl_mem_of_ofFamily_eq_ok hfd hn
    exact (structDecl_usesSource_iff hlink hslots _ _ _).mp (hused d hd _ hitem)
  · intro hkeeps d hd item hitem
    cases holds_of_mem_all h hd item hitem with
    | enumDecl hf doc hvariants =>
        exact enumDecl_usesSource hlink ((Grammar.mem_order_iff hlink).mp hf) hvariants _ _ _
    | structDecl hf hn doc hslots =>
        have hf' := (Grammar.mem_order_iff hlink).mp hf
        exact (structDecl_usesSource_iff hlink hslots _ _ _).mpr (hkeeps _ hf' _ hn)
    | _ => trivial

end Used

end Draft

/-! ## References behind a declared lifetime -/

/-- A field type stands in another one. -/
inductive FieldType.Within : FieldType → FieldType → Prop
  | refl (t : FieldType) : Within t t
  | boxed {t inner : FieldType} (h : Within t inner) : Within t (.boxed inner)
  | borrowed {t inner : FieldType} (h : Within t inner) : Within t (.borrowed inner)
  | arg {t inner : FieldType} {path : Code.Path} {args : List FieldType} (hinner : inner ∈ args)
      (h : Within t inner) : Within t (.applied path args)

theorem FieldType.Within.trans
    {a b c : FieldType} (hab : a.Within b) (hbc : b.Within c) : a.Within c := by
  induction hbc with
  | refl => exact hab
  | boxed _ ih => exact .boxed ih
  | borrowed _ ih => exact .borrowed ih
  | arg hinner _ ih => exact .arg hinner ih

mutual

/-- A structure of the drafts holds a reference for the lifetime of the source text: in
one of its slots, or behind a family which stands in one of them. -/
inductive StructHolds (drafts : List Draft) : String → Prop
  | reference {d : Draft} {doc name : String} {derives : List (List Code.Token)}
      {declares : Bool} {slots : List Slot} {s : Slot} {inner : FieldType} (hd : d ∈ drafts)
      (hitem : .structDecl doc derives name declares slots ∈ d.items) (hs : s ∈ slots)
      (hinner : (FieldType.borrowed inner).Within s.type) : StructHolds drafts name
  | family {d : Draft} {doc name : String} {derives : List (List Code.Token)}
      {declares : Bool} {slots : List Slot} {s : Slot} {m : Mention} (hd : d ∈ drafts)
      (hitem : .structDecl doc derives name declares slots ∈ d.items) (hs : s ∈ slots)
      (hm : (FieldType.family m).Within s.type) (h : EnumHolds drafts m.name) :
      StructHolds drafts name

/-- An enumeration of the drafts holds such a reference behind one of its cases. -/
inductive EnumHolds (drafts : List Draft) : String → Prop
  | variant {d : Draft} {doc name : String} {derives : List (List Code.Token)}
      {declares : Bool} {variants : List Variant} {v : Variant} (hd : d ∈ drafts)
      (hitem : .enumDecl doc derives name declares variants ∈ d.items) (hv : v ∈ variants)
      (h : StructHolds drafts v.payload.name) : EnumHolds drafts name

end

/-- Behind every declared lifetime there is a reference. -/
def SourceHeld (drafts : List Draft) : Prop :=
  (∀ p ∈ Draft.structs drafts, p.2 = true → StructHolds drafts p.1) ∧
    ∀ p ∈ Draft.enums drafts, p.2 = true → EnumHolds drafts p.1

/-- What is written for a mentioned name stands in what is written for the type. -/
theorem Linked.exists_within_of_mentions
    {l : Linked} {t : TypeRef} {name : String} (hmentions : t.Mentions name) :
    ∀ {box : Bool} {type : FieldType}, l.fieldTypeIn box t = .ok type →
      ∃ innerBox args inner, l.fieldTypeIn innerBox ⟨name, args⟩ = .ok inner ∧
        inner.Within type := by
  induction hmentions with
  | outermost =>
      intro box type h
      exact ⟨box, _, type, h, .refl type⟩
  | @inside name outer args t ht _ ih =>
      intro box type h
      rcases fieldTypeIn_cases h with ⟨-, rfl, -⟩ | ⟨-, types, path, htypes, -, rfl⟩
      · -- A family takes no arguments, so nothing stands inside it.
        exact False.elim (List.not_mem_nil ht)
      · obtain ⟨arg, harg, hwritten⟩ := exists_built_of_mem htypes ht
        obtain ⟨innerBox, innerArgs, inner, hinner, hwithin⟩ := ih hwritten
        refine ⟨innerBox, innerArgs, inner, hinner, ?_⟩
        split
        · exact .borrowed (.arg harg hwithin)
        · exact .arg harg hwithin

namespace Draft

section Held

variable {g : Grammar} {l : Linked} {dress : Dress} {drafts : List Draft}

theorem exists_slot_within
    {n : Node} {slots : List (Field × Slot)} (hslots : IsSlots l n slots) {name : String}
    (hmentions : n.Mentions name) :
    ∃ s ∈ slots.map (·.2), ∃ box args inner,
      l.fieldTypeIn box ⟨name, args⟩ = .ok inner ∧ inner.Within s.type := by
  obtain ⟨field, hfield, hmentions⟩ := hmentions
  obtain ⟨s, hs, htype⟩ := hslots.exists_slot hfield
  exact ⟨s, hs, Linked.exists_within_of_mentions hmentions htype⟩

theorem structHolds_of_mentions_borrowed
    (h : all l dress = .ok drafts) {f : Family} (hf : f ∈ l.order) {n : Node} (hn : n ∈ f.nodes)
    {name : String} (hmentions : n.Mentions name) (hfamily : l.grammar.isFamily name = false)
    (hborrowed : name ∈ l.grammar.ownership.borrowed) : StructHolds drafts (f.typeName n) := by
  obtain ⟨d, hd, hfd⟩ := exists_draft_of_mem_order h hf
  obtain ⟨doc, slots, hslots, hitem⟩ := structDecl_mem_of_ofFamily_eq_ok hfd hn
  obtain ⟨s, hs, box, args, inner, hwritten, hwithin⟩ := exists_slot_within hslots hmentions
  rcases Linked.fieldTypeIn_cases hwritten with ⟨hname, -, -⟩ | ⟨-, types, path, -, -, rfl⟩
  · simp [hfamily] at hname
  · rw [if_pos hborrowed] at hwithin
    exact .reference hd hitem hs hwithin

theorem structHolds_of_mentions_family
    (h : all l dress = .ok drafts) {f : Family} (hf : f ∈ l.order) {n : Node} (hn : n ∈ f.nodes)
    {name : String} (hmentions : n.Mentions name) (hfamily : l.grammar.isFamily name = true)
    (hholds : EnumHolds drafts name) : StructHolds drafts (f.typeName n) := by
  obtain ⟨d, hd, hfd⟩ := exists_draft_of_mem_order h hf
  obtain ⟨doc, slots, hslots, hitem⟩ := structDecl_mem_of_ofFamily_eq_ok hfd hn
  obtain ⟨s, hs, box, args, inner, hwritten, hwithin⟩ := exists_slot_within hslots hmentions
  have hfamilyWithin : (FieldType.family (l.familyMention name)).Within s.type := by
    rcases Linked.fieldTypeIn_cases hwritten with ⟨-, -, rfl⟩ | ⟨hname, -⟩
    · cases box with
      | false => exact hwithin
      | true => exact FieldType.Within.trans (.boxed (.refl _)) hwithin
    · simp [hfamily] at hname
  exact .family hd hitem hs hfamilyWithin hholds

theorem enumHolds_of_structHolds
    (h : all l dress = .ok drafts) {f : Family} (hf : f ∈ l.order) {n : Node} (hn : n ∈ f.nodes)
    (hholds : StructHolds drafts (f.typeName n)) : EnumHolds drafts f.name := by
  obtain ⟨d, hd, hfd⟩ := exists_draft_of_mem_order h hf
  obtain ⟨doc, variants, hvariants, hitem⟩ := enumDecl_mem_of_ofFamily_eq_ok hfd
  obtain ⟨v, hv, -, hpayload⟩ := exists_built_of_mem hvariants hn
  apply EnumHolds.variant hd hitem hv
  rwa [hpayload]

/-- Every family on a chain to a borrowed name holds a reference. -/
theorem enumHolds_of_borrowChain
    (hlink : g.link = .ok l) (h : all l dress = .ok drafts)
    (hlisted : ∀ f ∈ g.families, f.name ∉ g.ownership.borrowed) {chain : List Family}
    (hchain : g.BorrowChain chain) : ∀ f rest, chain = f :: rest → EnumHolds drafts f.name := by
  have hg := Grammar.grammar_of_link hlink
  -- From the end of the chain, where a node mentions a borrowed name, to its head.
  induction hchain with
  | @last f name hf hborrowed hmentions =>
      rintro _ _ ⟨⟩
      obtain ⟨n, hn, hmentions⟩ := hmentions
      have hf' := (Grammar.mem_order_iff hlink).mpr hf
      have hfamily := Grammar.isFamily_eq_false_of_mem_borrowed hlisted hborrowed
      rw [← hg] at hfamily hborrowed
      exact enumHolds_of_structHolds h hf' hn
        (structHolds_of_mentions_borrowed h hf' hn hmentions hfamily hborrowed)
  | @step f e tail hf hmentions hrest ih =>
      rintro _ _ ⟨⟩
      obtain ⟨n, hn, hmentions⟩ := hmentions
      have hf' := (Grammar.mem_order_iff hlink).mpr hf
      have hfamily : l.grammar.isFamily e.name = true := by
        rw [hg]
        exact Grammar.isFamily_iff.mpr ⟨e, hrest.head_mem, rfl⟩
      exact enumHolds_of_structHolds h hf' hn
        (structHolds_of_mentions_family h hf' hn hmentions hfamily (ih e tail rfl))

theorem sourceHeld_of_not_listed
    (hlink : g.link = .ok l) (h : all l dress = .ok drafts)
    (hlisted : ∀ f ∈ g.families, f.name ∉ g.ownership.borrowed) : SourceHeld drafts := by
  have hg := Grammar.grammar_of_link hlink
  have hheads : ∀ name ∈ g.chainHeads, EnumHolds drafts name := by
    rintro _ ⟨f, rest, rfl, hchain⟩
    exact enumHolds_of_borrowChain hlink h hlisted hchain f rest rfl
  constructor
  · rintro p hp hdeclares
    obtain ⟨f, hf, n, hn, rfl⟩ := (mem_structs_iff h).mp hp
    obtain ⟨name, hmentions, hborrowed | hhead⟩ := (Linked.borrows_iff hlink).mp hdeclares
    · have hfamily := Grammar.isFamily_eq_false_of_mem_borrowed hlisted hborrowed
      rw [← hg] at hfamily hborrowed
      exact structHolds_of_mentions_borrowed h hf hn hmentions hfamily hborrowed
    · have hfamily : l.grammar.isFamily name = true := by
        obtain ⟨e, rest, hname, hchain⟩ := hhead
        rw [hg]
        exact Grammar.isFamily_iff.mpr ⟨e, hchain.head_mem, hname⟩
      exact structHolds_of_mentions_family h hf hn hmentions hfamily (hheads name hhead)
  · rintro p hp hdeclares
    obtain ⟨f, -, rfl⟩ := (mem_enums_iff h).mp hp
    exact hheads f.name ((Linked.familyBorrows_iff hlink).mp hdeclares)

end Held

end Draft

/-- In the files of a rendered grammar every enumeration uses the lifetime it declares,
and all structures do exactly when no node loses the lifetime.  No node does as long as
no family is on the borrowed list, and then there is a reference behind every declared
lifetime. -/
theorem render_lifetimes_used
    {g : Grammar} {files : List SourceFile} (h : g.render = .ok files) :
    ∃ drafts, g.drafts = .ok drafts ∧ files = drafts.map (fun d => ⟨d.path, d.write⟩) ∧
      (∀ d ∈ drafts, ∀ item ∈ d.items, item.enum?.isSome = true → item.UsesSource) ∧
      (SourceUsed drafts ↔ ∀ f ∈ g.families, ∀ n ∈ f.nodes, ¬g.Loses n) ∧
      ((∀ f ∈ g.families, f.name ∉ g.ownership.borrowed) →
        SourceUsed drafts ∧ SourceHeld drafts) := by
  obtain ⟨drafts, hdrafts, hfiles⟩ := Grammar.exists_of_render_eq_ok h
  obtain ⟨l, dress, hlink, -, hall⟩ := Grammar.exists_of_drafts_eq_ok hdrafts
  have hused := Draft.sourceUsed_iff hlink hall
  refine ⟨drafts, hdrafts, hfiles, Draft.usesSource_of_mem_enums hlink hall, hused, ?_⟩
  intro hlisted
  refine ⟨?_, Draft.sourceHeld_of_not_listed hlink hall hlisted⟩
  exact hused.mpr fun f _ n _ => Grammar.not_loses_of_not_listed hlisted n

/-- A family that borrows only through another one, which holds its tokens in a list. -/
def borrowedTokens : Grammar :=
  { name := "Tokens"
    families := [⟨"Expr", [⟨"Name", [⟨⟨"List", [⟨"Token", []⟩]⟩, "parts"⟩]⟩], none⟩,
      ⟨"Stmt", [⟨"Run", [⟨⟨"Option", [⟨"Expr", []⟩]⟩, "body"⟩]⟩], some "Expr"⟩]
    options := { result := "Value", aliases := [("List", "Vec")] } }

theorem render_lifetimes_used_borrowedTokens :
    ∃ drafts, borrowedTokens.drafts = .ok drafts ∧ SourceUsed drafts ∧ SourceHeld drafts ∧
      Draft.structs drafts = [("NameExpr", true), ("RunStmt", true)] := by
  have hlisted : ∀ f ∈ borrowedTokens.families, f.name ∉ borrowedTokens.ownership.borrowed := by
    decide
  have hstructs : ∃ drafts, borrowedTokens.drafts = .ok drafts ∧
      Draft.structs drafts = [("NameExpr", true), ("RunStmt", true)] :=
    Grammar.exists_drafts_of_any (by decide +kernel)
  obtain ⟨drafts, hdrafts, hdeclared⟩ := hstructs
  obtain ⟨_, hdrafts', -, -, -, hused⟩ :=
    render_lifetimes_used (Grammar.render_eq_ok_of_drafts hdrafts)
  obtain rfl := Except.ok.inj (hdrafts.symm.trans hdrafts')
  exact ⟨drafts, hdrafts, (hused hlisted).1, (hused hlisted).2, hdeclared⟩

/-- A family on the borrowed list that does not borrow, and a family that mentions it. -/
def listedFamily : Grammar :=
  { name := "Listed"
    families := [⟨"Expr", [⟨"Nil", [⟨⟨"u8", []⟩, "width"⟩]⟩], none⟩,
      ⟨"Stmt", [⟨"Run", [⟨⟨"Expr", []⟩, "value"⟩]⟩], some "Expr"⟩]
    ownership := { borrowed := ["Expr"] }
    options := { result := "Value" } }

/-- A structure that declares the lifetime because it mentions a listed family does not
use it. -/
theorem lifetime_unused_of_listedFamily :
    ∃ drafts, listedFamily.drafts = .ok drafts ∧ ("RunStmt", true) ∈ Draft.structs drafts ∧
      ¬SourceUsed drafts :=
  Grammar.exists_drafts_of_any (by decide +kernel)

end Treewright
