import Treewright.Proofs.Chain
import Treewright.Proofs.Drafts
import Treewright.Proofs.FirstFault
import Treewright.Proofs.Printing
import Treewright.Proofs.RowRoundTrip
import Treewright.Proofs.Spelling

/-!
# Names that can be spelled

Some names cannot be spelled in the written code at all, neither as they are nor in raw
spelling.  A grammar whose nodes have been read from rows has no such name: classes and
fields are identifiers because of how rows are read, families because of validation, and
the names that are made from them by joining, by a prefix and by the conversion to snake
case are identifiers again.

The other way round, a fault about such a name is always about one of these names, whatever
the grammar is, and a file that cannot be printed has code which the grammar brings along.
For this the builders are gone through once, with the property that all of their faults have.
-/

namespace Treewright

/-! ## Identifiers made from identifiers -/

namespace Name

theorem isIdentifierText_append
    {a b : List Char} (ha : isIdentifierText a = true) (hb : ∀ c ∈ b, isTail c = true) :
    isIdentifierText (a ++ b) = true := by
  cases a with
  | nil => simp [isIdentifierText] at ha
  | cons c rest =>
      rw [isIdentifierText, Bool.and_eq_true, List.all_eq_true] at ha
      rw [List.cons_append, isIdentifierText, Bool.and_eq_true, List.all_eq_true,
        List.forall_mem_append]
      exact ⟨ha.1, ha.2, hb⟩

theorem isIdentifier_append
    {a b : String} (ha : isIdentifier a = true) (hb : isIdentifier b = true) :
    isIdentifier (a ++ b) = true := by
  rw [isIdentifier, String.toList_append]
  exact isIdentifierText_append ha fun c hc => isTail_of_mem hb hc

end Name

namespace Code

theorem isWord_of_isIdentifier {s : String} (h : Name.isIdentifier s = true) :
    isWord s = true := by
  unfold Name.isIdentifier at h
  have hsmall : ∀ c ∈ s.toList, c.toNat < 0x80 := fun c hc => by
    have hbound := Name.toNat_of_isTail (Name.isTail_of_mem h hc)
    omega
  unfold isWord
  cases htext : s.toList with
  | nil => simp [htext, Name.isIdentifierText] at h
  | cons c rest =>
      rw [htext] at h hsmall
      rw [Name.isIdentifierText, Bool.and_eq_true, List.all_eq_true] at h
      rw [isWordText, Bool.and_eq_true, List.all_eq_true]
      obtain ⟨hc, hrest⟩ := List.forall_mem_cons.mp hsmall
      refine ⟨?_, fun d hd => ?_⟩
      · rw [Text.isLetter, if_pos hc]
        exact h.1
      · rw [Text.isLetterOrMark, if_pos (hrest d hd)]
        exact h.2 d hd

end Code

/-! ## Faults of builders -/

/-- All faults of the outcome have the property. -/
def OnlyFaults {α : Type} (p : Fault → Prop) (x : Except Fault α) : Prop :=
  ∀ fault, x = .error fault → p fault

section OnlyFaults

variable {α β : Type} {p : Fault → Prop}

theorem onlyFaults_ok {a : α} : OnlyFaults p (.ok a) := by
  rintro fault ⟨⟩

theorem onlyFaults_error {fault : Fault} (h : p fault) :
    OnlyFaults p (.error fault : Except Fault α) := by
  rintro _ ⟨⟩
  exact h

theorem OnlyFaults.bind
    {x : Except Fault α} {next : α → Except Fault β} (hx : OnlyFaults p x)
    (hnext : ∀ a, x = .ok a → OnlyFaults p (next a)) : OnlyFaults p (x >>= next) := by
  cases x with
  | error fault =>
      rintro _ ⟨⟩
      exact hx fault rfl
  | ok a => exact hnext a rfl

theorem onlyFaults_mapM
    {build : α → Except Fault β} {sources : List α}
    (h : ∀ a ∈ sources, OnlyFaults p (build a)) : OnlyFaults p (sources.mapM build) := by
  induction sources with
  | nil => exact onlyFaults_ok
  | cons a rest ih =>
      obtain ⟨ha, hrest⟩ := List.forall_mem_cons.mp h
      rw [List.mapM_cons]
      exact ha.bind fun _ _ => (ih hrest).bind fun _ _ => onlyFaults_ok

end OnlyFaults

/-! ## The names of a grammar -/

namespace Grammar

/-- The names that are written as they are. -/
inductive PlainName (g : Grammar) : String → Prop
  | family {f : Family} (hf : f ∈ g.families) : PlainName g f.name
  | type {f : Family} (hf : f ∈ g.families) {n : Node} (hn : n ∈ f.nodes) :
      PlainName g (f.typeName n)
  | method {f : Family} (hf : f ∈ g.families) {n : Node} (hn : n ∈ f.nodes) :
      PlainName g (f.visitMethod n)

/-- The names that are written in raw spelling where they are reserved. -/
inductive EscapedName (g : Grammar) : String → Prop
  | module {f : Family} (hf : f ∈ g.families) : EscapedName g f.moduleName
  | label {f : Family} (hf : f ∈ g.families) {n : Node} (hn : n ∈ f.nodes) :
      EscapedName g n.className
  | slot {f : Family} (hf : f ∈ g.families) {n : Node} (hn : n ∈ f.nodes) {field : Field}
      (hfield : field ∈ n.fields) : EscapedName g field.slotName

/-- What a fault at which rendering stops says about the grammar. -/
def Blames (g : Grammar) : Fault → Prop
  | .unspellable name => (g.PlainName name ∨ g.EscapedName name) ∧ Code.isWord name = false
  | .unprintable _ => ¬g.CodePrints
  | _ => True

variable {g : Grammar}

theorem blames_of_not_isCrash {fault : Fault} (h : fault.isCrash = false) : g.Blames fault := by
  cases fault with
  | unspellable | unprintable => simp [Fault.isCrash] at h
  | _ => trivial

theorem onlyFaults_spellPlain {name : String} (h : g.PlainName name) :
    OnlyFaults g.Blames (Code.spellPlain name) := by
  unfold Code.spellPlain
  split
  · exact onlyFaults_ok
  next hword =>
    exact onlyFaults_error ⟨Or.inl h, by simpa using hword⟩

theorem onlyFaults_spell {name : String} (h : g.EscapedName name) :
    OnlyFaults g.Blames (Code.Word.spell name) := by
  unfold Code.Word.spell
  split
  · exact onlyFaults_error (blames_of_not_isCrash rfl)
  split
  · exact onlyFaults_ok
  next hword =>
    split
    · exact onlyFaults_ok
    · exact onlyFaults_error ⟨Or.inr h, by simpa using hword⟩

end Grammar

namespace Draft

open Grammar

variable {l : Linked} {dress : Dress}

theorem onlyFaults_typePath (g : Grammar) (name : String) :
    OnlyFaults g.Blames (l.typePath name) := by
  unfold Linked.typePath
  split
  · exact onlyFaults_ok
  · exact onlyFaults_error (blames_of_not_isCrash rfl)

theorem onlyFaults_fieldTypeIn (g : Grammar) (box : Bool) (t : TypeRef) :
    OnlyFaults g.Blames (l.fieldTypeIn box t) := by
  induction t using TypeRef.induction_args generalizing box with
  | step name args ih =>
      rw [Linked.fieldTypeIn.eq_def]
      dsimp only
      by_cases hfamily : l.grammar.isFamily name = true
      · rw [if_pos hfamily]
        cases args with
        | nil => exact onlyFaults_ok
        | cons arg rest => exact onlyFaults_error (blames_of_not_isCrash rfl)
      · rw [if_neg hfamily, Linked.fieldTypesIn_eq_mapM]
        split
        next fault hfault =>
          exact onlyFaults_error (onlyFaults_mapM (fun t ht => ih t ht _) fault hfault)
        split
        next fault hfault => exact onlyFaults_error (onlyFaults_typePath g name fault hfault)
        split <;> exact onlyFaults_ok

theorem onlyFaults_slot {f : Family} (hf : f ∈ l.grammar.families) {n : Node} (hn : n ∈ f.nodes)
    {field : Field} (hfield : field ∈ n.fields) :
    OnlyFaults l.grammar.Blames (slot l field) :=
  (onlyFaults_spell (.slot hf hn hfield)).bind fun _ _ =>
    (onlyFaults_fieldTypeIn _ true field.type).bind fun _ _ => onlyFaults_ok

theorem onlyFaults_baseItems {f : Family} (hf : f ∈ l.grammar.families) :
    OnlyFaults l.grammar.Blames (baseItems l dress f) := by
  refine (onlyFaults_spellPlain (.family hf)).bind fun _ _ => ?_
  refine OnlyFaults.bind (onlyFaults_mapM fun n hn => ?_) fun _ _ => onlyFaults_ok
  exact (onlyFaults_spell (.label hf hn)).bind fun _ _ =>
    (onlyFaults_spellPlain (.type hf hn)).bind fun _ _ => onlyFaults_ok

theorem onlyFaults_nodeItems
    {f : Family} (hf : f ∈ l.grammar.families) {n : Node} (hn : n ∈ f.nodes) :
    OnlyFaults l.grammar.Blames (nodeItems l dress f n) := by
  refine (onlyFaults_spellPlain (.type hf hn)).bind fun _ _ => ?_
  refine (onlyFaults_spell (.label hf hn)).bind fun _ _ => ?_
  refine (onlyFaults_spellPlain (.method hf hn)).bind fun _ _ => ?_
  refine OnlyFaults.bind (onlyFaults_mapM fun field hfield => ?_) fun _ _ => onlyFaults_ok
  exact (onlyFaults_slot hf hn hfield).bind fun _ _ => onlyFaults_ok

theorem onlyFaults_dependencyImport {g : Grammar} {f : Family} (hf : f ∈ g.families) :
    OnlyFaults g.Blames (dependencyImport f) :=
  (onlyFaults_spell (.module hf)).bind fun _ _ =>
    (onlyFaults_spellPlain (.family hf)).bind fun _ _ => onlyFaults_ok

section Files

variable (horder : ∀ f ∈ l.order, f ∈ l.grammar.families)
  (hdress : Dress.ofOptions l.grammar.options = .ok dress)

include horder hdress

/-- A file is refused without a report only for code that the grammar brings along. -/
theorem onlyFaults_check {d : Draft} (h : ∀ item ∈ d.items, Holds l dress item) :
    OnlyFaults l.grammar.Blames (check d) := by
  unfold check
  split
  · exact onlyFaults_error (blames_of_not_isCrash rfl)
  split
  next hprint =>
    apply onlyFaults_error
    intro hcode
    have hall : d.items.all Item.printable = true :=
      List.all_eq_true.mpr fun item hitem => (h item hitem).printable horder hdress hcode
    simp [hall] at hprint
  · exact onlyFaults_ok

theorem onlyFaults_ofFamily {f : Family} (hf : f ∈ l.order) :
    OnlyFaults l.grammar.Blames (ofFamily l dress f) := by
  have hdependencies : ∀ e ∈ Linked.dependencies l.grammar f, e ∈ l.grammar.families :=
    Linked.reachedFrom_subset _ _
  refine OnlyFaults.bind
    (onlyFaults_mapM fun e he => onlyFaults_dependencyImport (hdependencies e he))
    fun dependencies himports => ?_
  refine (onlyFaults_baseItems (horder f hf)).bind fun base hbase => ?_
  refine OnlyFaults.bind (onlyFaults_mapM fun n hn => onlyFaults_nodeItems (horder f hf) hn)
    fun nodes hnodes => ?_
  exact onlyFaults_check horder hdress (holds_of_mem_familyParts hf (mapM_eq_ok_iff.mp himports)
    hbase (mapM_eq_ok_iff.mp hnodes))

theorem onlyFaults_ofVisitor : OnlyFaults l.grammar.Blames (ofVisitor l dress) := by
  refine OnlyFaults.bind (onlyFaults_mapM fun f hf => ?_) fun imports himports => ?_
  · refine (onlyFaults_spell (.module hf)).bind fun _ _ => ?_
    refine OnlyFaults.bind (onlyFaults_mapM fun n hn => ?_) fun _ _ => onlyFaults_ok
    exact onlyFaults_spellPlain (.type hf hn)
  refine OnlyFaults.bind (onlyFaults_mapM fun f hf => onlyFaults_mapM fun n hn => ?_)
    fun methods hmethods => ?_
  · exact (onlyFaults_spellPlain (.method hf hn)).bind fun _ _ =>
      (onlyFaults_spellPlain (.type hf hn)).bind fun _ _ => onlyFaults_ok
  have hbuilt : List.Forall₂
      (fun f ms => List.Forall₂ (fun n m => visitMethod l dress f n = .ok m) f.nodes ms)
      l.grammar.families methods :=
    (mapM_eq_ok_iff.mp hmethods).imp fun f ms hms => mapM_eq_ok_iff.mp hms
  exact onlyFaults_check horder hdress
    (holds_of_mem_visitorParts (mapM_eq_ok_iff.mp himports) hbuilt _)

theorem onlyFaults_ofModule : OnlyFaults l.grammar.Blames (ofModule l) := by
  refine OnlyFaults.bind
    (onlyFaults_mapM fun f hf => onlyFaults_spell (.module (horder f hf))) fun homes _ => ?_
  refine OnlyFaults.bind
    (onlyFaults_mapM fun f hf => onlyFaults_spellPlain (.family (horder f hf)))
    fun names _ => ?_
  apply onlyFaults_check horder hdress
  intro item hitem
  simp only [List.mem_append, List.mem_singleton, List.mem_map] at hitem
  rcases hitem with ((⟨home, -, rfl⟩ | rfl) | ⟨⟨home, name⟩, -, rfl⟩) | rfl
  · exact .moduleDecl home
  · exact .moduleDecl _
  · exact .reexport home name
  · exact .reexport _ _

theorem onlyFaults_all : OnlyFaults l.grammar.Blames (all l dress) := by
  refine OnlyFaults.bind
    (onlyFaults_mapM fun f hf => onlyFaults_ofFamily horder hdress hf) fun _ _ => ?_
  refine (onlyFaults_ofVisitor horder hdress).bind fun _ _ => ?_
  exact (onlyFaults_ofModule horder hdress).bind fun _ _ => onlyFaults_ok

end Files

end Draft

namespace Grammar

variable {g : Grammar}

theorem onlyFaults_ofOptions (g : Grammar) (o : Options) :
    OnlyFaults g.Blames (Dress.ofOptions o) := by
  have huse : ∀ s, OnlyFaults g.Blames (Dress.readUse s) := fun s => by
    unfold Dress.readUse
    split
    · exact onlyFaults_ok
    · exact onlyFaults_error (blames_of_not_isCrash rfl)
  have hderive : ∀ s, OnlyFaults g.Blames (Dress.readDerive s) := fun s => by
    unfold Dress.readDerive
    split
    · exact onlyFaults_ok
    · exact onlyFaults_error (blames_of_not_isCrash rfl)
  unfold Dress.ofOptions
  split
  · exact onlyFaults_error (blames_of_not_isCrash rfl)
  · exact (onlyFaults_mapM fun s _ => huse s).bind fun _ _ =>
      (onlyFaults_mapM fun s _ => hderive s).bind fun _ _ => onlyFaults_ok

theorem LinkFault.not_isCrash {fault : Fault} (h : g.LinkFault fault) : fault.isCrash = false := by
  cases h with
  | invalid h =>
      obtain ⟨c, -, rfl⟩ := validate_eq_error_iff.mp h
      cases c <;> rfl
  | _ => rfl

theorem LinkFault.isCycle {cycle : List String} (h : g.LinkFault (.dependencyCycle cycle)) :
    g.IsCycle cycle := by
  generalize hfault : Fault.dependencyCycle cycle = fault at h
  cases h with
  | invalid h =>
      obtain ⟨c, -, rfl⟩ := validate_eq_error_iff.mp h
      cases c <;> simp [Check.fault] at hfault
  | unknownDependency => simp at hfault
  | dependencyCycle _ _ hcycle =>
      cases hfault
      exact hcycle
  | undeclaredReference => simp [Reference.fault] at hfault

/-- Rendering stops without a report only after the grammar has been linked. -/
theorem link_of_render_eq_crash
    {fault : Fault} (h : g.render = .error fault) (hcrash : fault.isCrash = true) :
    ∃ l, g.link = .ok l := by
  unfold render drafts at h
  cases hlink : g.link with
  | error found =>
      rw [hlink] at h
      obtain rfl : found = fault := Except.error.inj h
      have hreported := (linkFault_of_link_eq_error hlink).not_isCrash
      exact absurd hcrash (by simp [hreported])
  | ok l => exact ⟨l, rfl⟩

/-- A grammar at which rendering stops has a name that cannot be spelled, or it brings code
along that cannot be printed. -/
theorem onlyFaults_render (g : Grammar) : OnlyFaults g.Blames g.render := by
  unfold render drafts
  cases hlink : g.link with
  | error fault =>
      exact onlyFaults_error (blames_of_not_isCrash (linkFault_of_link_eq_error hlink).not_isCrash)
  | ok l =>
      obtain rfl := grammar_of_link hlink
      refine OnlyFaults.bind ?_ fun _ _ => onlyFaults_ok
      refine (onlyFaults_ofOptions _ l.grammar.options).bind fun dress hdress => ?_
      exact Draft.onlyFaults_all (fun f hf => (mem_order_iff hlink).mp hf) hdress

/-! ## Nodes that have been read from rows -/

/-- All nodes of the grammar have been read from rows. -/
def FromRows (g : Grammar) : Prop :=
  ∀ f ∈ g.families, ∀ n ∈ f.nodes, ∃ line, Row.parse line = .ok n

theorem FromRows.wellNamed
    (h : g.FromRows) {f : Family} (hf : f ∈ g.families) {n : Node} (hn : n ∈ f.nodes) :
    n.WellNamed := by
  obtain ⟨line, hline⟩ := h f hf n hn
  exact Row.wellNamed_of_parse hline

theorem isIdentifier_typeName
    (hrows : g.FromRows) (hvalid : g.validate = .ok ()) {f : Family} (hf : f ∈ g.families)
    {n : Node} (hn : n ∈ f.nodes) : Name.isIdentifier (f.typeName n) = true :=
  Name.isIdentifier_append (hrows.wellNamed hf hn).className (family_of_validate hvalid hf).1

/-- Names that are written as they are and names that may be escaped are identifiers. -/
theorem PlainName.isIdentifier
    (hrows : g.FromRows) (hvalid : g.validate = .ok ()) {name : String} (h : g.PlainName name) :
    Name.isIdentifier name = true := by
  cases h with
  | family hf => exact (family_of_validate hvalid hf).1
  | type hf hn => exact isIdentifier_typeName hrows hvalid hf hn
  | method hf hn =>
      exact Name.isIdentifier_append (by decide)
        ((Name.isIdentifier_snake _).trans (isIdentifier_typeName hrows hvalid hf hn))

theorem EscapedName.isIdentifier
    (hrows : g.FromRows) (hvalid : g.validate = .ok ()) {name : String} (h : g.EscapedName name) :
    Name.isIdentifier name = true := by
  cases h with
  | module hf => exact (Name.isIdentifier_snake _).trans (family_of_validate hvalid hf).1
  | label hf hn => exact (hrows.wellNamed hf hn).className
  | slot hf hn hfield =>
      exact (Name.isIdentifier_snake _).trans ((hrows.wellNamed hf hn).fieldNames _ hfield)

/-- A grammar whose nodes have been read from rows has no name that cannot be spelled. -/
theorem render_ne_unspellable (hrows : g.FromRows) (name : String) :
    g.render ≠ .error (.unspellable name) := by
  intro h
  obtain ⟨l, hl⟩ := link_of_render_eq_crash h rfl
  have hvalid := (link_eq_ok_iff_stages.mp hl).1
  obtain ⟨hname, hword⟩ := onlyFaults_render g _ h
  have hident : Name.isIdentifier name = true :=
    hname.elim (·.isIdentifier hrows hvalid) (·.isIdentifier hrows hvalid)
  exact absurd (Code.isWord_of_isIdentifier hident) (by simp [hword])

end Grammar

end Treewright
