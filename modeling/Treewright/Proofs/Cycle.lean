import Treewright.Proofs.Order

/-!
# The reported cycle

When families depend on each other in a circle, the writing order does not exist and a
cycle is reported instead.  Which one it is depends on the walks: requests are made in
declaration order, so the first family from which dependencies lead into a cycle is the
one whose walk fails, and the walk may pass through families that are on no cycle before
it comes to the first one that is.

`FirstCycle` says this of the grammar alone, without walks.  It determines the names, so
the report is right when it fulfils `FirstCycle`, and no other report would be.
-/

namespace Treewright

namespace Grammar

/-- Dependencies lead from the family to one that reaches itself. -/
def EntersCycle (g : Grammar) (f : Family) : Prop :=
  ∃ e, g.Needs f e ∧ g.Reaches e e

/-- Dependencies lead from `f` through the families of `tail`, none of which reaches itself,
to the family `e`, and from there through those of `rest` round to `e` again. -/
structure RunsInto (g : Grammar) (f : Family) (tail : List Family) (e : Family)
    (rest : List Family) : Prop where
  start : (tail ++ [e]).head? = some f
  linked : (tail ++ e :: (rest ++ [e])).IsChain g.DependsOn
  names : ((e :: rest).map (·.name)).Nodup
  off : ∀ d ∈ tail, ¬g.Reaches d d

/-- The names on the cycle that is entered from the first family in declaration order from
which one is entered.  They start where dependencies first lead from this family to one
that is on the cycle, and this name is repeated at the end. -/
def FirstCycle (g : Grammar) (cycle : List String) : Prop :=
  ∃ before f after tail e rest,
    g.families = before ++ f :: after ∧ (∀ d ∈ before, ¬g.EntersCycle d) ∧
      g.RunsInto f tail e rest ∧ cycle = (e :: rest ++ [e]).map (·.name)

/-- Names of families that depend on each other in turn: there are at least two of them,
the last one repeats the first one, and no other name is repeated. -/
structure IsClosedWalk (g : Grammar) (names : List String) : Prop where
  length : 2 ≤ names.length
  closed : names.head? = names.getLast?
  distinct : names.dropLast.Nodup
  linked : names.IsChain fun a b => ∃ f ∈ g.families, f.name = a ∧ f.dependsOn = some b

/-! ## Families that reach themselves -/

/-- What a family on a cycle needs leads back to it. -/
theorem needs_of_reaches_self
    {g : Grammar} (hg : g.NamesDistinct) {d e : Family} (hd : g.Reaches d d)
    (h : g.Needs d e) : g.Needs e d := by
  induction h with
  | refl => exact .refl
  | @tail b c _ hstep ih =>
      -- The walk from `b` back to `d` can only begin with the step to `c`.
      have hreach : g.Reaches b d := by
        rcases Relation.reflTransGen_iff_eq_or_transGen.mp ih with rfl | hreach
        · exact hd
        · exact hreach
      obtain ⟨c', hstep', hback⟩ := Relation.TransGen.head'_iff.mp hreach
      rwa [hg.dependsOn_unique hstep hstep']

/-- A family that enters a cycle depends on one that does so, too. -/
theorem EntersCycle.exists_dependsOn
    {g : Grammar} {f : Family} (h : g.EntersCycle f) :
    ∃ d, g.DependsOn f d ∧ g.EntersCycle d := by
  obtain ⟨e, hneeds, hself⟩ := h
  have hreach : g.Reaches f e := Relation.TransGen.trans_right hneeds hself
  obtain ⟨d, hstep, hneeds'⟩ := Relation.TransGen.head'_iff.mp hreach
  exact ⟨d, hstep, e, hneeds', hself⟩

/-- In a chain every family but the last one depends on another one of the chain. -/
theorem exists_dependsOn_of_isChain
    {g : Grammar} {families : List Family} {last : Family}
    (h : (families ++ [last]).IsChain g.DependsOn) :
    ∀ a ∈ families, ∃ b ∈ families ++ [last], g.DependsOn a b := by
  induction families with
  | nil => simp
  | cons c rest ih =>
      intro a ha
      rcases List.mem_cons.mp ha with rfl | ha
      · cases rest with
        | nil => exact ⟨last, by simp, (List.isChain_cons_cons.mp h).1⟩
        | cons b rest => exact ⟨b, by simp, (List.isChain_cons_cons.mp h).1⟩
      · obtain ⟨b, hb, hab⟩ := ih h.tail a ha
        exact ⟨b, List.mem_cons_of_mem c hb, hab⟩

/-- The families of a cycle depend on each other only. -/
theorem mem_of_dependsOn_of_cycle
    {g : Grammar} (hg : g.NamesDistinct) {e : Family} {rest : List Family}
    (h : (e :: (rest ++ [e])).IsChain g.DependsOn) :
    ∀ a ∈ e :: rest, ∀ b, g.DependsOn a b → b ∈ e :: rest := by
  intro a ha b hab
  obtain ⟨b', hb', hab'⟩ := exists_dependsOn_of_isChain h a ha
  obtain rfl := hg.dependsOn_unique hab hab'
  rcases List.mem_append.mp hb' with hb | hb
  · exact hb
  · rw [List.mem_singleton.mp hb]
    exact List.mem_cons_self

namespace RunsInto

variable {g : Grammar} {f e : Family} {tail rest : List Family}

theorem cycle (h : g.RunsInto f tail e rest) : (e :: (rest ++ [e])).IsChain g.DependsOn :=
  h.linked.right_of_append

theorem reaches_self (h : g.RunsInto f tail e rest) : g.Reaches e e := by
  have hpairwise := pairwise_reaches_of_isChain h.cycle
  exact (List.pairwise_cons.mp hpairwise).1 e (by simp)

theorem entersCycle (h : g.RunsInto f tail e rest) : g.EntersCycle f := by
  refine ⟨e, ?_, h.reaches_self⟩
  have hpairwise := pairwise_reaches_of_isChain h.linked
  cases tail with
  | nil =>
      obtain rfl : e = f := by simpa using h.start
      exact .refl
  | cons d tail =>
      obtain rfl : d = f := by simpa using h.start
      have hreach : g.Reaches d e := (List.pairwise_cons.mp hpairwise).1 e (by simp)
      exact hreach.to_reflTransGen

/-- Before the cycle the family that it starts at may be replaced by the next one. -/
theorem exists_step {d : Family} (h : g.RunsInto f (d :: tail) e rest) :
    ∃ next, g.DependsOn d next ∧ g.RunsInto next tail e rest := by
  have hoff := fun c hc => h.off c (List.mem_cons_of_mem d hc)
  have hlinked := h.linked
  cases tail with
  | nil =>
      obtain ⟨hstep, hrest⟩ := List.isChain_cons_cons.mp hlinked
      exact ⟨e, hstep, rfl, hrest, h.names, hoff⟩
  | cons c tail =>
      obtain ⟨hstep, hrest⟩ := List.isChain_cons_cons.mp hlinked
      exact ⟨c, hstep, rfl, hrest, h.names, hoff⟩

theorem isCycle (h : g.RunsInto f tail e rest) :
    g.IsCycle ((e :: rest ++ [e]).map (·.name)) := by
  refine ⟨e, rest, rfl, h.names, ?_, h.cycle⟩
  -- All families of the cycle are needed by `e`, which is itself reached from one of them.
  have hpairwise := pairwise_reaches_of_isChain h.cycle
  intro c hc
  rcases List.mem_cons.mp hc with rfl | hc
  · exact h.reaches_self.mem
  · exact ((List.pairwise_cons.mp hpairwise).1 c (List.mem_append_left _ hc)).mem

end RunsInto

theorem IsCycle.isClosedWalk
    {g : Grammar} {cycle : List String} (h : g.IsCycle cycle) : g.IsClosedWalk cycle := by
  obtain ⟨e, rest, rfl, hnames, hmem, hlinked⟩ := h
  have hall : ∀ c ∈ e :: rest ++ [e], c ∈ g.families := by
    intro c hc
    rcases List.mem_append.mp hc with hc | hc
    · exact hmem c hc
    · rw [List.mem_singleton.mp hc]
      exact hmem e List.mem_cons_self
  refine ⟨by simp, ?_, ?_, ?_⟩
  · rw [List.map_append, List.map_singleton, List.getLast?_concat]
    rfl
  · rwa [List.map_append, List.map_singleton, List.dropLast_concat]
  · rw [List.isChain_map]
    apply hlinked.imp_of_mem_imp
    intro a b ha _ hab
    exact ⟨a, hall a ha, rfl, hab.2⟩

/-! ## There is one first cycle -/

section Unique

variable {g : Grammar}

/-- Two ways from a family to the next occurrence of `e` are the same. -/
theorem eq_of_isChain
    (hg : g.NamesDistinct) {e : Family} {rest : List Family} :
    ∀ {a : Family} {rest' : List Family}, e ∉ rest → e ∉ rest' →
      (a :: (rest ++ [e])).IsChain g.DependsOn → (a :: (rest' ++ [e])).IsChain g.DependsOn →
        rest = rest' := by
  induction rest with
  | nil =>
      intro a rest' _ he' h h'
      cases rest' with
      | nil => rfl
      | cons b rest' =>
          have hb : e = b := hg.dependsOn_unique (List.isChain_cons_cons.mp h).1
            (List.isChain_cons_cons.mp h').1
          exact False.elim (he' (hb ▸ List.mem_cons_self))
  | cons c rest ih =>
      intro a rest' he he' h h'
      obtain ⟨hac, hrest⟩ := List.isChain_cons_cons.mp h
      cases rest' with
      | nil =>
          have hc : e = c := hg.dependsOn_unique (List.isChain_cons_cons.mp h').1 hac
          exact False.elim (he (hc ▸ List.mem_cons_self))
      | cons b rest' =>
          obtain ⟨hab, hrest'⟩ := List.isChain_cons_cons.mp h'
          obtain rfl := hg.dependsOn_unique hac hab
          rw [ih (List.not_mem_of_not_mem_cons he) (List.not_mem_of_not_mem_cons he') hrest hrest']

/-- A family runs into a cycle in one way only. -/
theorem RunsInto.unique
    (hg : g.NamesDistinct) {e e' : Family} {tail rest rest' : List Family} :
    ∀ {f : Family} {tail' : List Family}, g.RunsInto f tail e rest →
      g.RunsInto f tail' e' rest' → e = e' ∧ rest = rest' := by
  induction tail with
  | nil =>
      intro f tail' h h'
      obtain rfl : e = f := by simpa using h.start
      cases tail' with
      | nil =>
          obtain rfl : e' = e := by simpa using h'.start
          have hfresh := (List.nodup_cons.mp (List.Nodup.of_map _ h.names)).1
          have hfresh' := (List.nodup_cons.mp (List.Nodup.of_map _ h'.names)).1
          exact ⟨rfl, eq_of_isChain hg hfresh hfresh' h.cycle h'.cycle⟩
      | cons d tail' =>
          obtain rfl : d = e := by simpa using h'.start
          exact False.elim (h'.off d List.mem_cons_self h.reaches_self)
  | cons c tail ih =>
      intro f tail' h h'
      obtain rfl : c = f := by simpa using h.start
      cases tail' with
      | nil =>
          obtain rfl : e' = c := by simpa using h'.start
          exact False.elim (h.off e' List.mem_cons_self h'.reaches_self)
      | cons d tail' =>
          obtain rfl : d = c := by simpa using h'.start
          obtain ⟨next, hnext, hrest⟩ := h.exists_step
          obtain ⟨next', hnext', hrest'⟩ := h'.exists_step
          obtain rfl := hg.dependsOn_unique hnext hnext'
          exact ih hrest hrest'

theorem FirstCycle.unique
    (hg : g.NamesDistinct) {cycle cycle' : List String} (h : g.FirstCycle cycle)
    (h' : g.FirstCycle cycle') : cycle = cycle' := by
  obtain ⟨before, f, after, tail, e, rest, hsplit, hbefore, hruns, rfl⟩ := h
  obtain ⟨before', f', after', tail', e', rest', hsplit', hbefore', hruns', rfl⟩ := h'
  have hf : f = f' := by
    rw [hsplit] at hsplit'
    rcases List.append_eq_append_iff.mp hsplit' with ⟨more, hmore, hrest⟩ | ⟨more, hmore, hrest⟩
    · cases more with
      | nil => exact (List.cons.inj hrest).1
      | cons d more =>
          obtain rfl := (List.cons.inj hrest).1
          exact False.elim (hbefore' f (by simp [hmore]) hruns.entersCycle)
    · cases more with
      | nil => exact (List.cons.inj hrest).1.symm
      | cons d more =>
          obtain rfl := (List.cons.inj hrest).1
          exact False.elim (hbefore f' (by simp [hmore]) hruns'.entersCycle)
  subst hf
  obtain ⟨rfl, rfl⟩ := hruns.unique hg hruns'
  rfl

end Unique

end Grammar

namespace Linked

/-! ## The cycle that a failing walk reports -/

variable {g : Grammar}

/-- A walk that comes back to one of its families reports the cycle that the family it
starts at runs into. -/
theorem Walk.exists_runsInto
    {f e : Family} {available chain open_ : List Family} {name : String}
    (w : Walk g f available chain open_ (some name)) (hg : g.NamesDistinct) (he : e ∈ chain)
    (hname : e.name = name) :
    ∃ tail d rest, g.RunsInto f tail d rest ∧
      cycleAt name chain = (d :: rest ++ [d]).map (·.name) := by
  obtain ⟨tail, d, rest, hsplit, hlinked, hcycle⟩ := w.exists_loop he hname
  have hnames : ((tail ++ d :: rest).map (·.name)).Nodup := by
    rw [← hsplit]
    simpa [List.map_reverse] using w.names_nodup.of_append_left
  have hnodup : (tail ++ d :: rest).Nodup := List.Nodup.of_map _ hnames
  rw [List.map_append] at hnames
  refine ⟨tail, d, rest, ⟨?_, hlinked, hnames.of_append_right, ?_⟩, hcycle⟩
  · have hhead : chain.reverse.head? = some f := by
      rw [List.head?_reverse]
      rcases w.start with ⟨rfl, -⟩ | hlast
      · exact False.elim (List.not_mem_nil he)
      · exact hlast
    rw [hsplit] at hhead
    cases tail with
    | nil => exact hhead
    | cons c tail => exact hhead
  · -- What `c` needs leads back to `c` if `c` is on a cycle, but the families from `d` on
    -- need nothing but each other.
    intro c hc hself
    have hneeds : g.Needs c d := by
      have hpairwise := Grammar.pairwise_reaches_of_isChain hlinked
      exact ((List.pairwise_append.mp hpairwise).2.2 c hc d (by simp)).to_reflTransGen
    have hclosed := Grammar.mem_of_dependsOn_of_cycle hg hlinked.right_of_append
    have hmem : c ∈ d :: rest :=
      (Grammar.needs_of_reaches_self hg hself hneeds).mem_of_closed hclosed List.mem_cons_self
    exact (List.nodup_append.mp hnodup).2.2 c hc c hmem rfl

/-- From a family that has been requested no cycle is entered. -/
theorem Written.not_entersCycle
    {asked order open_ : List Family} (w : Written g asked order open_) (hg : g.NamesDistinct) :
    ∀ f ∈ asked, ¬g.EntersCycle f := by
  rintro f hf ⟨e, hneeds, hself⟩
  have hnodup : (order ++ open_).Nodup := w.perm.nodup_iff.mpr hg.nodup
  have he : e ∈ order := hneeds.mem_of_closed w.dependencyFirst.closed (w.asked_mem hf)
  exact w.dependencyFirst.not_reaches_self hnodup.of_append_left e he hself

theorem firstCycle_of_emissionOrder_eq_error
    (hg : g.NamesDistinct) {fault : Fault} (h : emissionOrder g = .error fault) :
    ∃ cycle, fault = .dependencyCycle cycle ∧ g.FirstCycle cycle := by
  obtain ⟨asked, f, rest, order, open_, hsplit, w, hfollow⟩ :=
    (Written.initial g).exists_of_orderFrom_eq_error hg rfl h
  have hf : f ∈ g.families := by
    rw [hsplit]
    simp
  obtain ⟨chain, open', name, walk, ⟨e, he, hname⟩, rfl⟩ :=
    (w.walk hg hf).exists_of_follow_eq_error hg hfollow
  obtain ⟨tail, d, more, hruns, hcycle⟩ := walk.exists_runsInto hg he hname
  exact ⟨_, rfl, asked, f, rest, tail, d, more, hsplit, w.not_entersCycle hg, hruns, hcycle⟩

end Linked

namespace Grammar

theorem FirstCycle.isCycle
    {g : Grammar} {cycle : List String} (h : g.FirstCycle cycle) : g.IsCycle cycle := by
  obtain ⟨before, f, after, tail, e, rest, -, -, hruns, rfl⟩ := h
  exact hruns.isCycle

/-- In a valid grammar the search for a writing order ends with an order or with a cycle.
It ends with a cycle exactly when a family reaches itself, and then with the first cycle,
which goes round once. -/
theorem emissionOrder_reports_first_cycle
    {g : Grammar} (h : g.validate = .ok ()) :
    ((∃ cycle, Linked.emissionOrder g = .error (.dependencyCycle cycle)) ↔
      ∃ f ∈ g.families, g.Reaches f f) ∧
    ((∃ order, Linked.emissionOrder g = .ok order) ↔ ∀ f ∈ g.families, ¬g.Reaches f f) ∧
    (∀ cycle, Linked.emissionOrder g = .error (.dependencyCycle cycle) ↔ g.FirstCycle cycle) ∧
    ∀ cycle, g.FirstCycle cycle → g.IsClosedWalk cycle := by
  have hg := namesDistinct_of_validate h
  have hacyclic := Linked.emissionOrder_eq_ok_iff_acyclic hg
  have hreports : ∀ cycle,
      Linked.emissionOrder g = .error (.dependencyCycle cycle) ↔ g.FirstCycle cycle := by
    intro cycle
    constructor
    · intro herror
      obtain ⟨found, hfound, hfirst⟩ := Linked.firstCycle_of_emissionOrder_eq_error hg herror
      rwa [Fault.dependencyCycle.inj hfound]
    · intro hfirst
      cases herror : Linked.emissionOrder g with
      | ok order => exact False.elim (hfirst.isCycle.not_acyclic (hacyclic.mp ⟨order, herror⟩))
      | error fault =>
          obtain ⟨found, rfl, hfirst'⟩ := Linked.firstCycle_of_emissionOrder_eq_error hg herror
          rw [hfirst.unique hg hfirst']
  refine ⟨?_, hacyclic, hreports, fun cycle hfirst => hfirst.isCycle.isClosedWalk⟩
  constructor
  · rintro ⟨cycle, herror⟩
    by_contra hnone
    apply ((hreports cycle).mp herror).isCycle.not_acyclic
    intro f hf hself
    exact hnone ⟨f, hf, hself⟩
  · rintro ⟨f, hf, hself⟩
    cases herror : Linked.emissionOrder g with
    | ok order => exact False.elim (hacyclic.mp ⟨order, herror⟩ f hf hself)
    | error fault =>
        obtain ⟨cycle, rfl, -⟩ := Linked.firstCycle_of_emissionOrder_eq_error hg herror
        exact ⟨cycle, rfl⟩

/-- A family without dependencies, and one that is not on the cycle which it leads to. -/
def tailBeforeCycle : Grammar :=
  { name := "Tail"
    families := [⟨"Type", [⟨"Any", []⟩], none⟩, ⟨"Item", [⟨"Let", []⟩], some "Stmt"⟩,
      ⟨"Expr", [⟨"Nil", []⟩], some "Stmt"⟩, ⟨"Stmt", [⟨"Run", []⟩], some "Expr"⟩] }

theorem emissionOrder_reports_first_cycle_tail :
    tailBeforeCycle.validate = .ok () ∧
      Linked.emissionOrder tailBeforeCycle = .error (.dependencyCycle ["Stmt", "Expr", "Stmt"]) ∧
      tailBeforeCycle.FirstCycle ["Stmt", "Expr", "Stmt"] ∧
      (∃ f ∈ tailBeforeCycle.families, tailBeforeCycle.Reaches f f) ∧
      tailBeforeCycle.IsClosedWalk ["Stmt", "Expr", "Stmt"] := by
  have hvalid : tailBeforeCycle.validate = .ok () := by decide +kernel
  have herror : Linked.emissionOrder tailBeforeCycle =
      .error (.dependencyCycle ["Stmt", "Expr", "Stmt"]) := by
    cbv
  obtain ⟨hexists, -, hreports, hclosed⟩ := emissionOrder_reports_first_cycle hvalid
  have hfirst := (hreports _).mp herror
  exact ⟨hvalid, herror, hfirst, hexists.mp ⟨_, herror⟩, hclosed _ hfirst⟩

end Grammar

end Treewright
