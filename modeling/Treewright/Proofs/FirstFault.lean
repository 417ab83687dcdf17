import Treewright.Proofs.Validity

/-!
# The first fault of validation

Validation makes many small checks: single names, and pairs of names of which no two may be
alike.  Here they are written down as one list, in the order in which they are made: the
ownership lists, then the families in declaration order, each compared with the earlier
ones, and within a family the nodes and their fields in the same way.

The three nested loops with their accumulators make exactly these checks, so the reported
fault is that of the first check that fails.  Every check fails because of something that
is really there, and two things that are literally the same are compared as such before
what is written for them is compared.
-/

namespace Treewright

/-- A check of validation, with everything that it looks at. -/
inductive Check where
  /-- The borrowed name is not defaulted as well. -/
  | ownership (o : Ownership) (name : String)
  | identifier (f : Family)
  | names (e f : Family)
  | unreserved (f : Family)
  | modules (e f : Family)
  | nonempty (f : Family)
  | classes (f : Family) (m n : Node)
  | methods (a b : Family × Node)
  /-- Two fields of the node type `node` are told apart. -/
  | slots (node : String) (a b : Field)

namespace Check

/-- What it means for a check to fail. -/
def Fails : Check → Prop
  | ownership o name => name ∈ o.defaulted
  | identifier f => Name.isIdentifier f.name = false
  | names e f => e.name = f.name
  | unreserved f => f.moduleName ∈ reservedModules
  | modules e f => e.moduleName = f.moduleName
  | nonempty f => f.nodes = []
  | classes _ m n => m.className = n.className
  | methods a b => a.1.visitMethod a.2 = b.1.visitMethod b.2
  | slots _ a b => a.slotName = b.slotName

instance (c : Check) : Decidable c.Fails :=
  match c with
  | ownership o name => inferInstanceAs (Decidable (name ∈ o.defaulted))
  | identifier f => inferInstanceAs (Decidable (Name.isIdentifier f.name = false))
  | names e f => inferInstanceAs (Decidable (e.name = f.name))
  | unreserved f => inferInstanceAs (Decidable (f.moduleName ∈ reservedModules))
  | modules e f => inferInstanceAs (Decidable (e.moduleName = f.moduleName))
  | nonempty f => decidable_of_iff (f.nodes.isEmpty = true) List.isEmpty_iff
  | classes _ m n => inferInstanceAs (Decidable (m.className = n.className))
  | methods a b => inferInstanceAs (Decidable (a.1.visitMethod a.2 = b.1.visitMethod b.2))
  | slots _ a b => inferInstanceAs (Decidable (a.slotName = b.slotName))

/-- The fault that reports a failed check. -/
def fault : Check → Fault
  | ownership _ name => .conflictingOwnership name
  | identifier f => .invalidCode f.name .familyName
  | names _ f => .duplicateFamily f.name
  | unreserved f => .reservedFamilyName f.name
  | modules e f => .moduleCollision e.name f.name f.moduleName
  | nonempty f => .emptyFamily f.name
  | classes f _ n => .duplicateClass f.name n.className
  | methods a b => .visitorCollision (a.1.typeName a.2) (b.1.typeName b.2) (b.1.visitMethod b.2)
  | slots node _ b => .duplicateField node b.name

/-- The check is the first one of the list that fails. -/
def FirstFails (checks : List Check) (c : Check) : Prop :=
  ∃ before after, checks = before ++ c :: after ∧ (∀ b ∈ before, ¬b.Fails) ∧ c.Fails

/-- Makes checks in order and reports the first one that fails. -/
def report : List Check → Except Fault Unit
  | [] => .ok ()
  | c :: rest => if c.Fails then .error c.fault else report rest

/-- The checks of a walk over sources that looks at each of them and at the earlier ones,
nearest first. -/
def scan {α : Type} (look : List α → α → List Check) (earlier : List α) : List α → List Check
  | [] => []
  | a :: rest => look earlier a ++ scan look (a :: earlier) rest

/-- The checks of a field. -/
def ofField (node : String) (earlier : List Field) (b : Field) : List Check :=
  earlier.map (slots node · b)

/-- The checks of a node. The nodes of earlier families are `taken`. -/
def ofNode (taken : List (Family × Node)) (f : Family) (earlier : List Node) (n : Node) :
    List Check :=
  earlier.map (classes f · n) ++
    ((earlier.map (Prod.mk f) ++ taken).map (methods · (f, n)) ++
      scan (ofField (f.typeName n)) [] n.fields)

/-- The nodes of families that are given nearest first, in the same order. -/
def taken (earlier : List Family) : List (Family × Node) :=
  earlier.flatMap fun f => f.nodes.reverse.map (Prod.mk f)

/-- The checks of a family. -/
def ofFamily (earlier : List Family) (f : Family) : List Check :=
  identifier f :: (earlier.map (names · f) ++ (unreserved f :: (earlier.map (modules · f) ++
    (nonempty f :: scan (ofNode (taken earlier) f) [] f.nodes))))

end Check

/-- The checks of a grammar in the order in which they are made. -/
def Grammar.checks (g : Grammar) : List Check :=
  g.ownership.borrowed.map (.ownership g.ownership) ++ Check.scan Check.ofFamily [] g.families

namespace Check

/-! ## The first check that fails -/

theorem report_append (before after : List Check) :
    report (before ++ after) = (report before).bind fun _ => report after := by
  induction before with
  | nil => rfl
  | cons c rest ih =>
      rw [List.cons_append, report, report, ih]
      by_cases hc : c.Fails
      · rw [if_pos hc, if_pos hc, Except.bind]
      · rw [if_neg hc, if_neg hc]

theorem report_eq_ok_iff {checks : List Check} :
    report checks = .ok () ↔ ∀ c ∈ checks, ¬c.Fails := by
  induction checks with
  | nil => simp [report]
  | cons c rest ih =>
      rw [report, List.forall_mem_cons, ← ih]
      by_cases hc : c.Fails
      · simp [hc]
      · simp [hc]

theorem firstFails_append_iff {before after : List Check} {c : Check} :
    FirstFails (before ++ after) c ↔
      FirstFails before c ∨ (∀ b ∈ before, ¬b.Fails) ∧ FirstFails after c := by
  constructor
  · rintro ⟨front, back, hsplit, hfront, hc⟩
    rcases List.append_eq_append_iff.mp hsplit with ⟨mid, rfl, hafter⟩ | ⟨mid, rfl, hmid⟩
    · rw [List.forall_mem_append] at hfront
      exact Or.inr ⟨hfront.1, mid, back, hafter, hfront.2, hc⟩
    · cases mid with
      | nil => exact Or.inr ⟨by simpa using hfront, [], back, hmid.symm, by simp, hc⟩
      | cons d mid =>
          obtain ⟨rfl, -⟩ := List.cons.inj hmid
          exact Or.inl ⟨front, mid, rfl, hfront, hc⟩
  · rintro (⟨front, back, rfl, hfront, hc⟩ | ⟨hbefore, front, back, rfl, hfront, hc⟩)
    · exact ⟨front, back ++ after, by simp, hfront, hc⟩
    · refine ⟨before ++ front, back, by simp, ?_, hc⟩
      exact List.forall_mem_append.mpr ⟨hbefore, hfront⟩

theorem firstFails_cons_iff {c d : Check} {rest : List Check} :
    FirstFails (d :: rest) c ↔ c = d ∧ d.Fails ∨ ¬d.Fails ∧ FirstFails rest c := by
  have hsingle : FirstFails [d] c ↔ c = d ∧ d.Fails := by
    constructor
    · rintro ⟨before, after, hsplit, -, hc⟩
      have hmem : c ∈ [d] := by simp [hsplit]
      obtain rfl := List.mem_singleton.mp hmem
      exact ⟨rfl, hc⟩
    · rintro ⟨rfl, hc⟩
      exact ⟨[], [], rfl, by simp, hc⟩
  rw [← List.singleton_append, firstFails_append_iff, List.forall_mem_singleton, hsingle]

theorem report_eq_error_iff {checks : List Check} {fault : Fault} :
    report checks = .error fault ↔ ∃ c, FirstFails checks c ∧ c.fault = fault := by
  induction checks with
  | nil => simp [report, FirstFails]
  | cons d rest ih =>
      simp only [report, firstFails_cons_iff]
      by_cases hd : d.Fails
      · simp [hd]
      · simp [hd, ih]

theorem report_map_eq_ok
    {α : Type} {check : α → Check} {others : List α} (h : ∀ a ∈ others, ¬(check a).Fails) :
    report (others.map check) = .ok () := by
  rw [report_eq_ok_iff]
  intro c hc
  obtain ⟨a, ha, rfl⟩ := List.mem_map.mp hc
  exact h a ha

/-- Of the checks of one thing against several others, the first one that fails is found by
a search through the others. -/
theorem report_map_eq_error
    {α : Type} {check : α → Check} {others : List α} {p : α → Bool}
    (hp : ∀ a, p a = true ↔ (check a).Fails) {a : α} (hfind : others.find? p = some a) :
    report (others.map check) = .error (check a).fault := by
  obtain ⟨ha, before, after, rfl, hbefore⟩ := List.find?_eq_some_iff_append.mp hfind
  refine report_eq_error_iff.mpr ⟨check a, ⟨before.map check, after.map check, by simp, ?_,
    (hp a).mp ha⟩, rfl⟩
  intro c hc
  obtain ⟨b, hb, rfl⟩ := List.mem_map.mp hc
  rw [← hp b]
  simpa using hbefore b hb

/-- Where all of them are reported in the same way, it does not matter which one fails. -/
theorem report_map_of_fault_eq
    {α : Type} {check : α → Check} {others : List α} {reported : Fault}
    (hfault : ∀ a, (check a).fault = reported) (h : ∃ a ∈ others, (check a).Fails) :
    report (others.map check) = .error reported := by
  obtain ⟨a, hfind⟩ : ∃ a, others.find? (fun a => decide (check a).Fails) = some a := by
    rw [← Option.isSome_iff_exists, List.find?_isSome]
    simpa using h
  rw [report_map_eq_error (by simp) hfind, hfault]

theorem exists_of_firstFails_map
    {α : Type} {check : α → Check} {others : List α} {c : Check}
    (h : FirstFails (others.map check) c) : ∃ a ∈ others, c = check a ∧ c.Fails := by
  obtain ⟨before, after, hsplit, -, hc⟩ := h
  have hmem : c ∈ others.map check := by simp [hsplit]
  obtain ⟨a, ha, rfl⟩ := List.mem_map.mp hmem
  exact ⟨a, ha, rfl, hc⟩

theorem exists_of_firstFails_scan
    {α : Type} {look : List α → α → List Check} {sources earlier : List α} {c : Check}
    (h : FirstFails (scan look earlier sources) c) :
    ∃ before a after, sources = before ++ a :: after ∧
      FirstFails (look (before.reverse ++ earlier) a) c := by
  induction sources generalizing earlier with
  | nil =>
      obtain ⟨before, after, hsplit, -⟩ := h
      simp [scan] at hsplit
  | cons a rest ih =>
      rcases firstFails_append_iff.mp h with hown | ⟨-, hrest⟩
      · exact ⟨[], a, rest, rfl, hown⟩
      · obtain ⟨before, b, after, rfl, hb⟩ := ih hrest
        exact ⟨a :: before, b, after, rfl, by simpa using hb⟩

end Check

namespace Grammar

open Check

/-! ## The loops of validation -/

theorem checkFields_eq_report (node : String) (earlier fields : List Field) :
    checkFields node (earlier.map (·.slotName)) fields =
      report (scan (ofField node) earlier fields) := by
  induction fields generalizing earlier with
  | nil => rfl
  | cons b rest ih =>
      rw [checkFields, scan, report_append, ofField, ← List.map_cons, ih]
      by_cases hb : ∃ a ∈ earlier, a.slotName = b.slotName
      · have hown : report (earlier.map (slots node · b)) =
            .error (.duplicateField node b.name) :=
          report_map_of_fault_eq (fun _ => rfl) hb
        rw [if_pos (List.mem_map.mpr hb), hown, Except.bind]
      · have hown : report (earlier.map (slots node · b)) = .ok () :=
          report_map_eq_ok fun a ha heq => hb ⟨a, ha, heq⟩
        rw [if_neg (fun h => hb (List.mem_map.mp h)), hown, Except.bind]

/-- What is kept of a node for the comparison with later ones. -/
def row (a : Family × Node) : String × String :=
  (a.1.visitMethod a.2, a.1.typeName a.2)

theorem lookup_map_row (others : List (Family × Node)) (method : String) :
    (others.map row).lookup method =
      (others.find? fun a => a.1.visitMethod a.2 == method).map fun a => a.1.typeName a.2 := by
  induction others with
  | nil => rfl
  | cons a rest ih =>
      rw [List.map_cons, row, List.lookup_cons, List.find?_cons, ih]
      by_cases ha : a.1.visitMethod a.2 = method
      · simp [ha]
      · rw [beq_false_of_ne ha, beq_false_of_ne (Ne.symm ha)]

/-- The walk over the nodes of a family, with the nodes of earlier families `others`, makes
the checks of these nodes. -/
theorem checkNodes_eq_report
    (f : Family) (others : List (Family × Node)) (earlier nodes : List Node) :
    checkNodes f (earlier.map (·.className)) ((earlier.map (Prod.mk f) ++ others).map row)
        nodes =
      (report (scan (ofNode others f) earlier nodes)).map fun _ =>
        ((nodes.reverse ++ earlier).map (Prod.mk f) ++ others).map row := by
  induction nodes generalizing earlier with
  | nil => rfl
  | cons n rest ih =>
      have hfields := checkFields_eq_report (f.typeName n) [] n.fields
      have hrest := ih (n :: earlier)
      rw [List.map_nil] at hfields
      rw [List.map_cons, List.map_cons, List.cons_append, List.map_cons] at hrest
      rw [checkNodes, lookup_map_row, scan, report_append, ofNode, report_append, report_append,
        ← hfields]
      by_cases hclass : ∃ m ∈ earlier, m.className = n.className
      · have hclasses : report (earlier.map (classes f · n)) =
            .error (.duplicateClass f.name n.className) :=
          report_map_of_fault_eq (fun _ => rfl) hclass
        rw [if_pos (List.mem_map.mpr hclass), hclasses]
        rfl
      · have hclasses : report (earlier.map (classes f · n)) = .ok () :=
          report_map_eq_ok fun m hm heq => hclass ⟨m, hm, heq⟩
        rw [if_neg (fun h => hclass (List.mem_map.mp h)), hclasses]
        cases hfind : (earlier.map (Prod.mk f) ++ others).find? fun a =>
            a.1.visitMethod a.2 == f.visitMethod n with
        | some a =>
            rw [report_map_eq_error (by simp [Fails]) hfind]
            rfl
        | none =>
            have hmethods : ∀ a ∈ earlier.map (Prod.mk f) ++ others, ¬(methods a (f, n)).Fails :=
              fun a ha => by simpa [Fails] using List.find?_eq_none.mp hfind a ha
            rw [report_map_eq_ok hmethods]
            cases checkFields (f.typeName n) [] n.fields with
            | error fault => rfl
            | ok u =>
                refine hrest.trans ?_
                simp [Except.bind]

theorem checkFamilies_eq_report (earlier families : List Family) :
    checkFamilies earlier ((taken earlier).map row) families =
      report (scan ofFamily earlier families) := by
  induction families generalizing earlier with
  | nil => rfl
  | cons f rest ih =>
      have hnodes := checkNodes_eq_report f (taken earlier) [] f.nodes
      have hrest := ih (f :: earlier)
      rw [List.map_nil, List.map_nil, List.nil_append, List.append_nil] at hnodes
      rw [taken, List.flatMap_cons, ← taken] at hrest
      rw [checkFamilies, scan, report_append, ofFamily, report]
      -- The checks of a family are made one after the other, and each failing one ends the walk.
      by_cases hident : Name.isIdentifier f.name = false
      · rw [if_pos (by simp [hident]), if_pos (show (identifier f).Fails from hident)]
        rfl
      rw [if_neg (by simp [hident]), if_neg (show ¬(identifier f).Fails from hident), report_append]
      by_cases hname : ∃ e ∈ earlier, e.name = f.name
      · have hnames : report (earlier.map (names · f)) = .error (.duplicateFamily f.name) :=
          report_map_of_fault_eq (fun _ => rfl) hname
        rw [if_pos (by simpa using hname), hnames]
        rfl
      have hnames : report (earlier.map (names · f)) = .ok () :=
        report_map_eq_ok fun e he heq => hname ⟨e, he, heq⟩
      rw [if_neg (by simpa using hname), hnames, Except.bind, report]
      by_cases hreserved : f.moduleName ∈ reservedModules
      · rw [if_pos hreserved, if_pos (show (unreserved f).Fails from hreserved)]
        rfl
      rw [if_neg hreserved, if_neg (show ¬(unreserved f).Fails from hreserved), report_append]
      cases hfind : earlier.find? (·.moduleName == f.moduleName) with
      | some e =>
          have hmodules : report (earlier.map (modules · f)) =
              .error (.moduleCollision e.name f.name f.moduleName) :=
            report_map_eq_error (fun _ => beq_iff_eq) hfind
          rw [hmodules]
          rfl
      | none =>
          have hmodules : report (earlier.map (modules · f)) = .ok () :=
            report_map_eq_ok (by simpa [Fails] using hfind)
          rw [hmodules, Except.bind, report]
          by_cases hempty : f.nodes = []
          · rw [if_pos (show (nonempty f).Fails from hempty)]
            simp [hempty, Except.bind, fault]
          rw [if_neg (show ¬(nonempty f).Fails from hempty), hnodes]
          cases report (scan (ofNode (taken earlier) f) [] f.nodes) with
          | error fault => simp [hempty, Except.map, Except.bind]
          | ok u => simpa [hempty, Except.map, Except.bind] using hrest

theorem validate_eq_report (g : Grammar) : g.validate = report g.checks := by
  have hownership : g.ownership.validate =
      report (g.ownership.borrowed.map (.ownership g.ownership)) := by
    rw [Ownership.validate]
    cases hfind : g.ownership.borrowed.find? (· ∈ g.ownership.defaulted) with
    | some name =>
        rw [report_map_eq_error (by simp [Fails]) hfind]
        rfl
    | none => rw [report_map_eq_ok (by simpa [Fails] using hfind)]
  have hfamilies := checkFamilies_eq_report [] g.families
  rw [validate, checks, report_append, ← hownership, ← hfamilies]
  cases g.ownership.validate with
  | error fault => rfl
  | ok u => rfl

/-- The reported fault is that of the first check that fails. -/
theorem validate_eq_error_iff {g : Grammar} {fault : Fault} :
    g.validate = .error fault ↔ ∃ c, FirstFails g.checks c ∧ c.fault = fault := by
  rw [validate_eq_report, report_eq_error_iff]

/-! ## What a fault says about the grammar -/

/-- The faults that a grammar can really have. Two families, nodes or fields are at
different places of the grammar, and they are given in the order of these places. -/
inductive Clash (g : Grammar) : Fault → Prop
  | ownership {name : String} (hborrowed : name ∈ g.ownership.borrowed)
      (hdefaulted : name ∈ g.ownership.defaulted) : Clash g (.conflictingOwnership name)
  | identifier {f : Family} (hf : f ∈ g.families) (h : Name.isIdentifier f.name = false) :
      Clash g (.invalidCode f.name .familyName)
  | names {e f : Family} (h : [e, f].Sublist g.families) (hname : e.name = f.name) :
      Clash g (.duplicateFamily f.name)
  | reserved {f : Family} (hf : f ∈ g.families) (h : f.moduleName ∈ reservedModules) :
      Clash g (.reservedFamilyName f.name)
  /-- Two families of different names have the same module. -/
  | modules {e f : Family} (h : [e, f].Sublist g.families) (hname : e.name ≠ f.name)
      (hmodule : e.moduleName = f.moduleName) :
      Clash g (.moduleCollision e.name f.name f.moduleName)
  | empty {f : Family} (hf : f ∈ g.families) (h : f.nodes = []) : Clash g (.emptyFamily f.name)
  | classes {f : Family} (hf : f ∈ g.families) {m n : Node} (h : [m, n].Sublist f.nodes)
      (hclass : m.className = n.className) : Clash g (.duplicateClass f.name n.className)
  /-- Two nodes have the same method, and they are of different families or classes. -/
  | methods {e f : Family} {m n : Node} (h : [(e, m), (f, n)].Sublist (Family.members g.families))
      (happart : e.name = f.name → m.className ≠ n.className)
      (hmethod : e.visitMethod m = f.visitMethod n) :
      Clash g (.visitorCollision (e.typeName m) (f.typeName n) (f.visitMethod n))
  | slots {f : Family} (hf : f ∈ g.families) {n : Node} (hn : n ∈ f.nodes) {a b : Field}
      (h : [a, b].Sublist n.fields) (hslot : a.slotName = b.slotName) :
      Clash g (.duplicateField (f.typeName n) b.name)

theorem pair_sublist_iff {α : Type} {a b : α} {l : List α} :
    [a, b].Sublist l ↔ ∃ before after, l = before ++ b :: after ∧ a ∈ before := by
  constructor
  · intro h
    obtain ⟨front, back, rfl, ha, hb⟩ := List.cons_sublist_iff.mp h
    obtain ⟨middle, after, rfl⟩ := List.append_of_mem (List.singleton_sublist.mp hb)
    exact ⟨front ++ middle, after, by simp, List.mem_append_left _ ha⟩
  · rintro ⟨before, after, rfl, ha⟩
    exact List.cons_sublist_iff.mpr
      ⟨before, b :: after, rfl, ha, List.singleton_sublist.mpr List.mem_cons_self⟩

theorem mem_taken_iff {families : List Family} {a : Family × Node} :
    a ∈ taken families.reverse ↔ a ∈ Family.members families := by
  simp [taken, Family.members]

/-- The first failing check of a node is about something in its family. -/
theorem clash_of_firstFails_ofNode
    {g : Grammar} {before after : List Family} {f : Family}
    (hsplit : g.families = before ++ f :: after) (hnames : ∀ e ∈ before, e.name ≠ f.name)
    {earlier later : List Node} {n : Node} (hnodes : f.nodes = earlier ++ n :: later) {c : Check}
    (h : FirstFails (ofNode (taken before.reverse) f earlier.reverse n) c) : g.Clash c.fault := by
  have hf : f ∈ g.families := by simp [hsplit]
  rcases firstFails_append_iff.mp h with hclass | ⟨hclasses, h⟩
  · obtain ⟨m, hm, rfl, hfails⟩ := exists_of_firstFails_map hclass
    exact .classes hf (pair_sublist_iff.mpr ⟨_, _, hnodes, List.mem_reverse.mp hm⟩) hfails
  rcases firstFails_append_iff.mp h with hmethod | ⟨-, h⟩
  · obtain ⟨⟨e, m⟩, hm, rfl, hfails⟩ := exists_of_firstFails_map hmethod
    have hmembers : Family.members g.families =
        (Family.members before ++ earlier.map (Prod.mk f)) ++
          (f, n) :: (later.map (Prod.mk f) ++ Family.members after) := by
      simp [Family.members, hsplit, hnodes]
    refine .methods (pair_sublist_iff.mpr ⟨_, _, hmembers, ?_⟩) ?_ hfails
    · rw [List.mem_append, mem_taken_iff] at hm
      simpa [or_comm] using hm
    · intro hname
      rw [List.mem_append, mem_taken_iff, Family.mem_members_iff] at hm
      rcases hm with hm | ⟨he, -⟩
      · obtain ⟨m', hm', heq⟩ := List.mem_map.mp hm
        obtain ⟨-, rfl⟩ := Prod.mk.inj heq
        exact hclasses _ (List.mem_map_of_mem hm')
      · exact False.elim (hnames e he hname)
  · obtain ⟨front, b, back, hfields, hslot⟩ := exists_of_firstFails_scan h
    obtain ⟨a, ha, rfl, hfails⟩ := exists_of_firstFails_map hslot
    rw [List.append_nil, List.mem_reverse] at ha
    exact .slots hf (by simp [hnodes]) (pair_sublist_iff.mpr ⟨_, _, hfields, ha⟩) hfails

theorem clash_of_firstFails_ofFamily
    {g : Grammar} {before after : List Family} {f : Family}
    (hsplit : g.families = before ++ f :: after) {c : Check}
    (h : FirstFails (ofFamily before.reverse f) c) : g.Clash c.fault := by
  have hf : f ∈ g.families := by simp [hsplit]
  rcases firstFails_cons_iff.mp h with ⟨rfl, hfails⟩ | ⟨-, h⟩
  · exact .identifier hf hfails
  rcases firstFails_append_iff.mp h with hname | ⟨hpassed, h⟩
  · obtain ⟨e, he, rfl, hfails⟩ := exists_of_firstFails_map hname
    exact .names (pair_sublist_iff.mpr ⟨_, _, hsplit, List.mem_reverse.mp he⟩) hfails
  have hnames : ∀ e ∈ before, e.name ≠ f.name := fun e he =>
    hpassed _ (List.mem_map_of_mem (List.mem_reverse.mpr he))
  rcases firstFails_cons_iff.mp h with ⟨rfl, hfails⟩ | ⟨-, h⟩
  · exact .reserved hf hfails
  rcases firstFails_append_iff.mp h with hmodule | ⟨-, h⟩
  · obtain ⟨e, he, rfl, hfails⟩ := exists_of_firstFails_map hmodule
    rw [List.mem_reverse] at he
    exact .modules (pair_sublist_iff.mpr ⟨_, _, hsplit, he⟩) (hnames e he) hfails
  rcases firstFails_cons_iff.mp h with ⟨rfl, hfails⟩ | ⟨-, h⟩
  · exact .empty hf hfails
  · obtain ⟨earlier, n, later, hnodes, hnode⟩ := exists_of_firstFails_scan h
    rw [List.append_nil] at hnode
    exact clash_of_firstFails_ofNode hsplit hnames hnodes hnode

/-- What the first failing check reports is really there. -/
theorem clash_of_firstFails {g : Grammar} {c : Check} (h : FirstFails g.checks c) :
    g.Clash c.fault := by
  rcases firstFails_append_iff.mp h with hownership | ⟨-, hfamilies⟩
  · obtain ⟨name, hname, rfl, hfails⟩ := exists_of_firstFails_map hownership
    exact .ownership hname hfails
  · obtain ⟨before, f, after, hsplit, hfamily⟩ := exists_of_firstFails_scan hfamilies
    rw [List.append_nil] at hfamily
    exact clash_of_firstFails_ofFamily hsplit hfamily

theorem clash_of_validate_eq_error {g : Grammar} {fault : Fault} (h : g.validate = .error fault) :
    g.Clash fault := by
  obtain ⟨c, hc, rfl⟩ := validate_eq_error_iff.mp h
  exact clash_of_firstFails hc

/-! ## Things before what is written for them -/

theorem sublist_scan
    {α : Type} {look : List α → α → List Check} {before after earlier : List α} {a : α} :
    (look (before.reverse ++ earlier) a).Sublist (scan look earlier (before ++ a :: after)) := by
  induction before generalizing earlier with
  | nil => exact List.sublist_append_left _ _
  | cons b before ih =>
      have hrest : (look (before.reverse ++ b :: earlier) a).Sublist
          (scan look (b :: earlier) (before ++ a :: after)) := ih
      rw [List.reverse_cons, List.append_assoc, List.singleton_append, List.cons_append, scan]
      exact hrest.trans (List.sublist_append_right _ _)

theorem ofFamily_sublist_checks
    {g : Grammar} {before after : List Family} {f : Family}
    (hsplit : g.families = before ++ f :: after) :
    (ofFamily before.reverse f).Sublist g.checks := by
  have hscan : (ofFamily (before.reverse ++ []) f).Sublist (scan ofFamily [] g.families) :=
    hsplit ▸ sublist_scan
  rw [List.append_nil] at hscan
  exact hscan.trans (List.sublist_append_right _ _)

/-- The names of two families are compared before their modules are. -/
theorem names_before_modules
    {g : Grammar} {e f : Family} (h : [e, f].Sublist g.families) :
    [Check.names e f, .modules e f].Sublist g.checks := by
  obtain ⟨before, after, hsplit, he⟩ := pair_sublist_iff.mp h
  have hmap : ∀ check : Family → Check, [check e].Sublist (before.reverse.map check) :=
    fun check => List.singleton_sublist.mpr (List.mem_map_of_mem (List.mem_reverse.mpr he))
  refine List.Sublist.trans ?_ (ofFamily_sublist_checks hsplit)
  exact .cons _ ((hmap (.names · f)).append (.cons _ ((hmap (.modules · f)).append (by simp))))

/-- The classes of two nodes of a family are compared before their methods are. -/
theorem classes_before_methods
    {g : Grammar} {f : Family} (hf : f ∈ g.families) {m n : Node} (h : [m, n].Sublist f.nodes) :
    [Check.classes f m n, .methods (f, m) (f, n)].Sublist g.checks := by
  obtain ⟨before, after, hsplit⟩ := List.append_of_mem hf
  obtain ⟨earlier, later, hnodes, hm⟩ := pair_sublist_iff.mp h
  rw [← List.mem_reverse] at hm
  have hclass : [Check.classes f m n].Sublist (earlier.reverse.map (Check.classes f · n)) :=
    List.singleton_sublist.mpr (List.mem_map_of_mem hm)
  have hmethod : [Check.methods (f, m) (f, n)].Sublist
      ((earlier.reverse.map (Prod.mk f) ++ taken before.reverse).map (.methods · (f, n))) :=
    List.singleton_sublist.mpr
      (List.mem_map_of_mem (List.mem_append_left _ (List.mem_map_of_mem hm)))
  have hnode : [Check.classes f m n, .methods (f, m) (f, n)].Sublist
      (ofNode (taken before.reverse) f (earlier.reverse ++ []) n) := by
    rw [List.append_nil]
    exact hclass.append (hmethod.trans (List.sublist_append_left _ _))
  have hscan : (ofNode (taken before.reverse) f (earlier.reverse ++ []) n).Sublist
      (scan (ofNode (taken before.reverse) f) [] f.nodes) :=
    hnodes ▸ sublist_scan
  refine (hnode.trans hscan).trans (List.Sublist.trans ?_ (ofFamily_sublist_checks hsplit))
  refine .cons _ (List.Sublist.trans ?_ (List.sublist_append_right _ _))
  exact .cons _ (List.Sublist.trans (.cons _ (.refl _)) (List.sublist_append_right _ _))

/-- Validation accepts the grammars whose written names are told apart.  Of any other one it
reports the first check that fails, and the fault is really there.  Families are compared by
their names before they are compared by their modules, and so are the nodes of a family by
their classes before their methods. -/
theorem validate_reports_first (g : Grammar) :
    (g.validate = .ok () ↔ g.Unambiguous) ∧
      (∀ fault, g.validate = .error fault ↔ ∃ c, FirstFails g.checks c ∧ c.fault = fault) ∧
      (∀ fault, g.validate = .error fault → g.Clash fault) ∧
      (∀ e f, [e, f].Sublist g.families →
        [Check.names e f, .modules e f].Sublist g.checks) ∧
      ∀ f ∈ g.families, ∀ m n, [m, n].Sublist f.nodes →
        [Check.classes f m n, .methods (f, m) (f, n)].Sublist g.checks := by
  refine ⟨validate_eq_ok_iff_unambiguous, fun _ => validate_eq_error_iff, ?_,
    fun _ _ h => names_before_modules h, fun _ hf _ _ h => classes_before_methods hf h⟩
  intro fault hfault
  obtain ⟨c, hc, rfl⟩ := validate_eq_error_iff.mp hfault
  exact clash_of_firstFails hc

/-- A family with two classes of one name, which have the same method as well, before a node
of another family with that method. -/
def repeatedClass : Grammar :=
  { name := "Repeated"
    families := [⟨"C", [⟨"AB", []⟩, ⟨"Nil", []⟩, ⟨"AB", []⟩], none⟩, ⟨"BC", [⟨"A", []⟩], none⟩] }

/-- Nodes of two families whose classes and families are joined to the same name. -/
def joinedClass : Grammar :=
  { name := "Joined"
    families := [⟨"C", [⟨"AB", []⟩, ⟨"Nil", []⟩], none⟩, ⟨"BC", [⟨"A", []⟩], none⟩] }

theorem validate_reports_first_sameMethod :
    repeatedClass.Clash (.duplicateClass "C" "AB") ∧
      joinedClass.Clash (.visitorCollision "ABC" "ABC" "visit_abc") ∧
      ¬joinedClass.Unambiguous := by
  have hrepeated : repeatedClass.validate = .error (.duplicateClass "C" "AB") := by
    decide +kernel
  have hjoined : joinedClass.validate =
      .error (.visitorCollision "ABC" "ABC" "visit_abc") := by
    decide +kernel
  obtain ⟨-, -, hrepeatedClash, -, -⟩ := validate_reports_first repeatedClass
  obtain ⟨haccepts, -, hjoinedClash, -, -⟩ := validate_reports_first joinedClass
  refine ⟨hrepeatedClash _ hrepeated, hjoinedClash _ hjoined, ?_⟩
  rw [← haccepts, hjoined]
  simp

end Grammar

end Treewright
