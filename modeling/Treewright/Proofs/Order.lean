import Mathlib.Data.List.Chain
import Mathlib.Data.List.Perm.Basic
import Mathlib.Data.List.TakeWhile
import Mathlib.Order.Lattice.Nat
import Treewright.Linked
import Treewright.Proofs.Dependency

/-!
# The order in which families are written

Families are requested in declaration order, and every request walks along
dependencies through the families that are still open.  The theory has two layers.

* `Walk` is what holds while one request is followed.  A walk that stops has taken a
  stretch of the dependency chain of the requested family; a walk that fails has run
  into a cycle, and the reported names go round it once.
* `Written` is what holds between two requests.  What has been written is what the
  earlier requests need, and it is sorted by the first request that needs it.

The families of an accepted grammar are thus written in the only order that lists
them by first request and, within one request, dependencies first.
-/

namespace Treewright

namespace Grammar

/-- No family reaches itself. -/
def Acyclic (g : Grammar) : Prop :=
  ∀ f ∈ g.families, ¬g.Reaches f f

/-- The names of different families, each of which depends on the next one and the last
one on the first, with the name of the first one repeated at the end. -/
def IsCycle (g : Grammar) (cycle : List String) : Prop :=
  ∃ f rest, cycle = (f :: rest ++ [f]).map (·.name) ∧ ((f :: rest).map (·.name)).Nodup ∧
    (∀ e ∈ f :: rest, e ∈ g.families) ∧ (f :: rest ++ [f]).IsChain g.DependsOn

/-- Families on a chain of dependencies reach all the later ones. -/
theorem pairwise_reaches_of_isChain
    {g : Grammar} {families : List Family} (h : families.IsChain g.DependsOn) :
    families.Pairwise g.Reaches := by
  have htrans : families.IsChain g.Reaches :=
    h.imp fun _ _ hstep => Relation.TransGen.single hstep
  exact List.isChain_iff_pairwise.mp htrans

theorem IsCycle.not_acyclic
    {g : Grammar} {cycle : List String} (h : g.IsCycle cycle) : ¬g.Acyclic := by
  obtain ⟨f, rest, -, -, hmem, hchain⟩ := h
  intro hacyclic
  have hpairwise := pairwise_reaches_of_isChain hchain
  rw [List.cons_append, List.pairwise_cons] at hpairwise
  exact hacyclic f (hmem f List.mem_cons_self) (hpairwise.1 f (by simp))

end Grammar

namespace Linked

/-! ## One walk -/

/-- A walk from the family `f` through the families `available`: those of `chain` have
been taken, last one first, those of `open_` are left, and the name `next` is looked up
next. -/
structure Walk (g : Grammar) (f : Family) (available chain open_ : List Family)
    (next : Option String) : Prop where
  mem : f ∈ g.families
  sub : available ⊆ g.families
  names : (available.map (·.name)).Nodup
  perm : (chain ++ open_).Perm available
  linked : chain.IsChain fun d e => g.DependsOn e d
  start : chain = [] ∧ next = some f.name ∨ chain.getLast? = some f
  next_eq : ∀ e ∈ chain.head?, e.dependsOn = next

namespace Walk

variable {g : Grammar} {f : Family} {available chain open_ : List Family}

/-- The walk before its first step. -/
theorem initial
    (hf : f ∈ g.families) (hsub : available ⊆ g.families)
    (hnames : (available.map (·.name)).Nodup) :
    Walk g f available [] available (some f.name) where
  mem := hf
  sub := hsub
  names := hnames
  perm := List.Perm.refl _
  linked := List.IsChain.nil
  start := Or.inl ⟨rfl, rfl⟩
  next_eq := by simp

/-- Taking a family out of the open ones moves it to the chain. -/
theorem perm_without
    {e : Family} (hnames : (open_.map (·.name)).Nodup) (he : e ∈ open_) :
    (e :: without e.name open_).Perm open_ := by
  have hopen : open_.Nodup := List.Nodup.of_map _ hnames
  have hrest : (e :: without e.name open_).Nodup := by
    rw [List.nodup_cons]
    exact ⟨by simp, List.Nodup.of_map _ (names_without_nodup e.name hnames)⟩
  rw [List.perm_ext_iff_of_nodup hrest hopen]
  intro d
  rw [List.mem_cons, mem_without_iff]
  constructor
  · rintro (rfl | ⟨hd, -⟩)
    · exact he
    · exact hd
  · intro hd
    by_cases hname : d.name = e.name
    · exact Or.inl (List.inj_on_of_nodup_map hnames hd he hname)
    · exact Or.inr ⟨hd, hname⟩

/-- The families of a walk, taken or left, have different names. -/
theorem names_nodup
    {next : Option String} (w : Walk g f available chain open_ next) :
    (chain.map (·.name) ++ open_.map (·.name)).Nodup := by
  rw [← List.map_append]
  exact (w.perm.map _).nodup_iff.mpr w.names

/-- One step of a walk: the family of the name that is looked up is taken. -/
theorem step
    {name : String} {e : Family} (w : Walk g f available chain open_ (some name))
    (hg : g.NamesDistinct) (hfind : open_.find? (·.name == name) = some e) :
    Walk g f available (e :: chain) (without name open_) e.dependsOn := by
  have he : e ∈ open_ := List.mem_of_find?_eq_some hfind
  have hname : e.name = name := by simpa using List.find?_some hfind
  have heg : e ∈ g.families :=
    w.sub (w.perm.subset (List.mem_append_right _ he))
  refine ⟨w.mem, w.sub, w.names, ?_, ?_, ?_, ?_⟩
  · rw [← hname]
    have hmoved := perm_without w.names_nodup.of_append_right he
    exact List.perm_middle.symm.trans ((hmoved.append_left chain).trans w.perm)
  · apply w.linked.cons
    intro d hd
    exact ⟨heg, by rw [w.next_eq d hd, hname]⟩
  · rcases w.start with ⟨hchain, hnext⟩ | hlast
    · have hef : e = f :=
        hg.eq heg w.mem (hname.trans (Option.some.inj hnext))
      exact Or.inr (by simp [hchain, hef])
    · exact Or.inr (by rw [List.getLast?_cons, hlast]; rfl)
  · intro d hd
    rw [Option.some.inj hd]

/-- A walk that stops has not stopped at a family that was available to it. -/
theorem of_follow_eq_ok
    {next : Option String} {chain' open' : List Family}
    (w : Walk g f available chain open_ next) (hg : g.NamesDistinct)
    (h : follow open_ chain next = .ok (chain', open')) :
    ∃ last, Walk g f available chain' open' last ∧ ∀ e ∈ available, last ≠ some e.name := by
  fun_induction follow open_ chain next with
  | case1 open_ chain =>
      obtain ⟨rfl, rfl⟩ := Prod.mk.inj (Except.ok.inj h)
      exact ⟨none, w, by simp⟩
  | case2 open_ chain name e hfind ih =>
      exact ih (w.step hg hfind) h
  | case3 open_ chain name hfind hchain => simp at h
  | case4 open_ chain name hfind hchain =>
      obtain ⟨rfl, rfl⟩ := Prod.mk.inj (Except.ok.inj h)
      refine ⟨some name, w, ?_⟩
      intro e he hname
      rcases List.mem_append.mp (w.perm.mem_iff.mpr he) with he | he
      · exact hchain (List.any_eq_true.mpr ⟨e, he, by simp [Option.some.inj hname]⟩)
      · exact List.find?_eq_none.mp hfind e he (by simp [Option.some.inj hname])

/-- A walk that comes back to one of its families splits there: what it has taken is a
stretch that leads up to this family, and from it on a stretch that leads back to it. -/
theorem exists_loop
    {name : String} {e : Family} (w : Walk g f available chain open_ (some name))
    (he : e ∈ chain) (hname : e.name = name) :
    ∃ tail d rest, chain.reverse = tail ++ d :: rest ∧
      (tail ++ d :: (rest ++ [d])).IsChain g.DependsOn ∧
      cycleAt name chain = (d :: rest ++ [d]).map (·.name) := by
  have hlinked : chain.reverse.IsChain g.DependsOn := List.isChain_reverse.mpr w.linked
  have hsplit := List.takeWhile_append_dropWhile (p := (·.name != name)) (l := chain.reverse)
  cases hdrop : chain.reverse.dropWhile (·.name != name) with
  | nil =>
      have hnone := List.dropWhile_eq_nil_iff.mp hdrop e (List.mem_reverse.mpr he)
      simp [hname] at hnone
  | cons d rest =>
      have hd : d.name = name := by
        have hhead := List.head?_dropWhile_not (·.name != name) chain.reverse
        simpa [hdrop] using hhead
      rw [hdrop] at hsplit
      refine ⟨_, d, rest, hsplit.symm, ?_, by simp [cycleAt, hdrop, hd]⟩
      rw [← List.cons_append, ← List.append_assoc, hsplit]
      have hmem : d ∈ g.families := by
        apply w.sub
        apply w.perm.subset
        apply List.mem_append_left
        rw [← List.mem_reverse, ← hsplit]
        simp
      apply hlinked.append (List.IsChain.singleton d)
      intro c hc b hb
      obtain rfl : d = b := by simpa using hb
      rw [List.getLast?_reverse] at hc
      exact ⟨hmem, by rw [w.next_eq c hc, hd]⟩

/-- A walk that comes back to one of its families has gone round a cycle. -/
theorem isCycle
    {name : String} {e : Family} (w : Walk g f available chain open_ (some name))
    (he : e ∈ chain) (hname : e.name = name) : g.IsCycle (cycleAt name chain) := by
  obtain ⟨tail, d, rest, hsplit, hlinked, hcycle⟩ := w.exists_loop he hname
  have hnames : (chain.reverse.map (·.name)).Nodup := by
    simpa [List.map_reverse] using w.names_nodup.of_append_left
  rw [hsplit, List.map_append] at hnames
  refine ⟨d, rest, hcycle, hnames.of_append_right, ?_, hlinked.right_of_append⟩
  intro c hc
  apply w.sub
  apply w.perm.subset
  apply List.mem_append_left
  rw [← List.mem_reverse, hsplit]
  exact List.mem_append_right _ hc

/-- A walk fails when it comes back to one of its families. -/
theorem exists_of_follow_eq_error
    {next : Option String} {fault : Fault}
    (w : Walk g f available chain open_ next) (hg : g.NamesDistinct)
    (h : follow open_ chain next = .error fault) :
    ∃ chain' open' name, Walk g f available chain' open' (some name) ∧
      (∃ e ∈ chain', e.name = name) ∧ fault = .dependencyCycle (cycleAt name chain') := by
  fun_induction follow open_ chain next with
  | case1 open_ chain => simp at h
  | case2 open_ chain name e hfind ih =>
      exact ih (w.step hg hfind) h
  | case3 open_ chain name hfind hchain =>
      obtain ⟨e, he, hname⟩ := List.any_eq_true.mp hchain
      exact ⟨chain, open_, name, w, ⟨e, he, by simpa using hname⟩, (Except.error.inj h).symm⟩
  | case4 open_ chain name hfind hchain => simp at h

/-- A walk fails only on a cycle, and reports it. -/
theorem of_follow_eq_error
    {next : Option String} {fault : Fault}
    (w : Walk g f available chain open_ next) (hg : g.NamesDistinct)
    (h : follow open_ chain next = .error fault) :
    ∃ cycle, g.IsCycle cycle ∧ fault = .dependencyCycle cycle := by
  obtain ⟨chain', open', name, w', ⟨e, he, hname⟩, rfl⟩ := w.exists_of_follow_eq_error hg h
  exact ⟨_, w'.isCycle he hname, rfl⟩

/-- The families of a walk are needed by the one that it starts at. -/
theorem needs
    {next : Option String} (w : Walk g f available chain open_ next) :
    ∀ e ∈ chain, g.Needs f e := by
  have hpairwise := Grammar.pairwise_reaches_of_isChain (List.isChain_reverse.mpr w.linked)
  intro e he
  rcases w.start with ⟨hchain, -⟩ | hlast
  · simp [hchain] at he
  · obtain ⟨rest, hrest⟩ : ∃ rest, chain.reverse = f :: rest := by
      rw [← List.head?_reverse] at hlast
      exact ⟨_, (List.head?_eq_some_iff.mp hlast).choose_spec⟩
    rw [hrest, List.pairwise_cons] at hpairwise
    have hmem : e ∈ f :: rest := by rwa [← hrest, List.mem_reverse]
    rcases List.mem_cons.mp hmem with rfl | hmem
    · exact Relation.ReflTransGen.refl
    · exact (hpairwise.1 e hmem).to_reflTransGen

/-- A walk that stops has taken the family that it starts at, if that was available. -/
theorem start_mem
    {last : Option String} (w : Walk g f available chain open_ last)
    (hlast : ∀ e ∈ available, last ≠ some e.name) (hf : f ∈ available) : f ∈ chain := by
  rcases w.start with ⟨-, hnext⟩ | hchain
  · exact False.elim (hlast f hf hnext)
  · exact List.mem_of_getLast? hchain

end Walk

end Linked

namespace Grammar

/-! ## First requests -/

/-- The position of the first family in declaration order that needs the family `f`. -/
noncomputable def firstRequest (g : Grammar) (f : Family) : ℕ :=
  sInf {i | ∃ e, g.families[i]? = some e ∧ g.Needs e f}

theorem firstRequest_le
    {g : Grammar} {e f : Family} {i : ℕ}
    (hget : g.families[i]? = some e) (hneeds : g.Needs e f) : g.firstRequest f ≤ i :=
  Nat.sInf_le ⟨e, hget, hneeds⟩

theorem exists_firstRequest
    {g : Grammar} {f : Family} (hf : f ∈ g.families) :
    ∃ e, g.families[g.firstRequest f]? = some e ∧ g.Needs e f := by
  obtain ⟨i, hi⟩ := List.mem_iff_getElem?.mp hf
  have hrequested : {i | ∃ e, g.families[i]? = some e ∧ g.Needs e f}.Nonempty :=
    ⟨i, f, hi, Relation.ReflTransGen.refl⟩
  exact Nat.sInf_mem hrequested

/-- What an earlier family needs is requested earlier. -/
theorem firstRequest_lt_length
    {g : Grammar} {asked rest : List Family} (hsplit : g.families = asked ++ rest)
    {e f : Family} (he : e ∈ asked) (hneeds : g.Needs e f) :
    g.firstRequest f < asked.length := by
  obtain ⟨i, hi, hget⟩ := List.mem_iff_getElem.mp he
  have hget' : g.families[i]? = some e := by
    rw [hsplit, List.getElem?_append_left hi, List.getElem?_eq_getElem hi, hget]
  exact lt_of_le_of_lt (firstRequest_le hget' hneeds) hi

/-- What a family needs and no earlier family does is requested by that family. -/
theorem firstRequest_eq_length
    {g : Grammar} {asked rest : List Family} {e f : Family}
    (hsplit : g.families = asked ++ e :: rest) (hneeds : g.Needs e f)
    (hnew : ∀ d ∈ asked, ¬g.Needs d f) : g.firstRequest f = asked.length := by
  have hget : g.families[asked.length]? = some e := by
    rw [hsplit]
    simp
  apply Nat.le_antisymm (firstRequest_le hget hneeds)
  have hf : f ∈ g.families := hneeds.mem (List.mem_of_getElem? hget)
  obtain ⟨d, hd, hdf⟩ := exists_firstRequest hf
  by_contra hlt
  rw [hsplit, List.getElem?_append_left (by omega)] at hd
  exact hnew d (List.mem_of_getElem? hd) hdf

/-- The family `a` is to be written before `b`: it is requested earlier, or by the same
family and `b` depends on it. -/
def WrittenBefore (g : Grammar) (a b : Family) : Prop :=
  g.firstRequest a < g.firstRequest b ∨
    g.firstRequest a = g.firstRequest b ∧ g.Reaches b a

theorem WrittenBefore.asymm
    {g : Grammar} (hg : g.Acyclic) {a b : Family} (ha : a ∈ g.families)
    (hab : g.WrittenBefore a b) : ¬g.WrittenBefore b a := by
  rintro (hlt | ⟨heq, hreach⟩)
  · rcases hab with h | ⟨h, -⟩
    · omega
    · omega
  · rcases hab with h | ⟨-, hreach'⟩
    · omega
    · exact hg a ha (hreach.trans hreach')

/-- A dependency is to be written before what depends on it. -/
theorem Reaches.writtenBefore
    {g : Grammar} {a b : Family} (h : g.Reaches b a) (hb : b ∈ g.families) :
    g.WrittenBefore a b := by
  obtain ⟨e, hget, hneeds⟩ := exists_firstRequest hb
  have hle : g.firstRequest a ≤ g.firstRequest b :=
    firstRequest_le hget (hneeds.trans h.to_reflTransGen)
  rcases Nat.lt_or_eq_of_le hle with hlt | heq
  · exact Or.inl hlt
  · exact Or.inr ⟨heq, h⟩

/-- A list of families in which every dependency stands before what depends on it. -/
inductive DependencyFirst (g : Grammar) : List Family → Prop
  | nil : DependencyFirst g []
  | snoc {order : List Family} {e : Family} (h : DependencyFirst g order)
      (he : ∀ d, g.DependsOn e d → d ∈ order) : DependencyFirst g (order ++ [e])

namespace DependencyFirst

theorem closed
    {g : Grammar} {order : List Family} (h : g.DependencyFirst order) :
    ∀ a ∈ order, ∀ b, g.DependsOn a b → b ∈ order := by
  induction h with
  | nil => simp
  | snoc _ he ih =>
      intro a ha b hab
      rcases List.mem_append.mp ha with ha | ha
      · exact List.mem_append_left _ (ih a ha b hab)
      · rw [List.mem_singleton.mp ha] at hab
        exact List.mem_append_left _ (he b hab)

/-- No family of such a list reaches itself. -/
theorem not_reaches_self
    {g : Grammar} {order : List Family} (h : g.DependencyFirst order) (hnodup : order.Nodup) :
    ∀ a ∈ order, ¬g.Reaches a a := by
  induction h with
  | nil => simp
  | @snoc order e horder he ih =>
      intro a ha hreach
      rw [List.nodup_append] at hnodup
      rcases List.mem_append.mp ha with ha | ha
      · exact ih hnodup.1 a ha hreach
      · rw [List.mem_singleton] at ha
        subst ha
        obtain ⟨d, hstep, hneeds⟩ := Relation.TransGen.head'_iff.mp hreach
        have hmem : a ∈ order := Needs.mem_of_closed hneeds horder.closed (he d hstep)
        exact hnodup.2.2 a hmem a List.mem_cons_self rfl

/-- A stretch of a dependency chain may follow once the dependency of its deepest family
is there. -/
theorem append_chain
    {g : Grammar} (hg : g.NamesDistinct) {chain : List Family} :
    ∀ {order : List Family}, g.DependencyFirst order →
      (chain.IsChain fun d e => g.DependsOn e d) →
      (∀ e ∈ chain.head?, ∀ d, g.DependsOn e d → d ∈ order) →
        g.DependencyFirst (order ++ chain) := by
  induction chain with
  | nil =>
      intro order horder _ _
      simpa using horder
  | cons e rest ih =>
      intro order horder hchain hhead
      rw [List.append_cons]
      apply ih (horder.snoc (hhead e rfl)) hchain.tail
      intro c hc d hd
      have hce : g.DependsOn c e := hchain.rel_head? hc
      rw [hg.dependsOn_unique hd hce]
      simp

end DependencyFirst

end Grammar

namespace Linked

/-! ## Requests -/

/-- What holds after the families `asked` have been requested: those of `order` have been
written and those of `open_` have not. -/
structure Written (g : Grammar) (asked order open_ : List Family) : Prop where
  perm : (order ++ open_).Perm g.families
  asked_mem : asked ⊆ order
  needed : ∀ e ∈ order, ∃ f ∈ asked, g.Needs f e
  dependencyFirst : g.DependencyFirst order
  sorted : order.Pairwise g.WrittenBefore

namespace Written

variable {g : Grammar} {asked order open_ : List Family}

/-- Nothing is written before the first request. -/
theorem initial (g : Grammar) : Written g [] [] g.families where
  perm := List.Perm.refl _
  asked_mem := List.nil_subset _
  needed := by simp
  dependencyFirst := .nil
  sorted := List.Pairwise.nil

/-- What is still open is not needed by an earlier request. -/
theorem not_needs_of_mem_open
    (w : Written g asked order open_) (hg : g.NamesDistinct) {e : Family} (he : e ∈ open_) :
    ∀ f ∈ asked, ¬g.Needs f e := by
  intro f hf hneeds
  have hmem : e ∈ order := hneeds.mem_of_closed w.dependencyFirst.closed (w.asked_mem hf)
  have hnodup : (order ++ open_).Nodup := w.perm.nodup_iff.mpr hg.nodup
  exact (List.nodup_append.mp hnodup).2.2 e hmem e he rfl

/-- The walk that the next request starts. -/
theorem walk
    (w : Written g asked order open_) (hg : g.NamesDistinct) {f : Family}
    (hf : f ∈ g.families) : Walk g f open_ [] open_ (some f.name) := by
  apply Walk.initial hf
  · exact fun e he => w.perm.subset (List.mem_append_right _ he)
  · have hnames : ((order ++ open_).map (·.name)).Nodup := (w.perm.map _).nodup_iff.mpr hg
    rw [List.map_append] at hnames
    exact hnames.of_append_right

/-- One request: the chain that its walk has taken is written. -/
theorem request
    (w : Written g asked order open_) (hg : g.NamesDistinct)
    {f : Family} {rest chain stillOpen : List Family}
    (hsplit : g.families = asked ++ f :: rest)
    (h : follow open_ [] (some f.name) = .ok (chain, stillOpen)) :
    Written g (asked ++ [f]) (order ++ chain) stillOpen := by
  have hf : f ∈ g.families := by
    rw [hsplit]
    simp
  obtain ⟨last, wlast, hstop⟩ := (w.walk hg hf).of_follow_eq_ok hg h
  have hchainOpen : ∀ e ∈ chain, e ∈ open_ :=
    fun e he => wlast.perm.subset (List.mem_append_left _ he)
  have hrequest : ∀ e ∈ chain, g.firstRequest e = asked.length := by
    intro e he
    exact Grammar.firstRequest_eq_length hsplit (wlast.needs e he)
      (w.not_needs_of_mem_open hg (hchainOpen e he))
  refine ⟨?_, ?_, ?_, ?_, ?_⟩
  · rw [List.append_assoc]
    exact (wlast.perm.append_left order).trans w.perm
  · intro e he
    rcases List.mem_append.mp he with he | he
    · exact List.mem_append_left _ (w.asked_mem he)
    · rw [List.mem_singleton.mp he]
      rcases List.mem_append.mp (w.perm.mem_iff.mpr hf) with hwritten | hopen
      · exact List.mem_append_left _ hwritten
      · exact List.mem_append_right _ (wlast.start_mem hstop hopen)
  · intro e he
    rcases List.mem_append.mp he with he | he
    · obtain ⟨d, hd, hneeds⟩ := w.needed e he
      exact ⟨d, List.mem_append_left _ hd, hneeds⟩
    · exact ⟨f, by simp, wlast.needs e he⟩
  · apply w.dependencyFirst.append_chain hg wlast.linked
    intro e he d hd
    -- the walk has stopped at `d`, so `d` was not open any more
    rcases List.mem_append.mp (w.perm.mem_iff.mpr hd.1) with hwritten | hopen
    · exact hwritten
    · exact False.elim (hstop d hopen (by rw [← wlast.next_eq e he, hd.2]))
  · rw [List.pairwise_append]
    refine ⟨w.sorted, ?_, ?_⟩
    · have hreaches : chain.Pairwise fun d e => g.Reaches e d :=
        List.pairwise_reverse.mp
          (Grammar.pairwise_reaches_of_isChain (List.isChain_reverse.mpr wlast.linked))
      apply hreaches.imp_of_mem
      intro a b ha hb hreach
      exact Or.inr ⟨by rw [hrequest a ha, hrequest b hb], hreach⟩
    · intro a ha b hb
      obtain ⟨d, hd, hneeds⟩ := w.needed a ha
      apply Or.inl
      rw [hrequest b hb]
      exact Grammar.firstRequest_lt_length hsplit hd hneeds

/-- All remaining requests. -/
theorem of_orderFrom_eq_ok
    (hg : g.NamesDistinct) {rest : List Family} :
    ∀ {asked order open_ later : List Family}, Written g asked order open_ →
      g.families = asked ++ rest → orderFrom open_ rest = .ok later →
        ∃ left, Written g g.families (order ++ later) left := by
  induction rest with
  | nil =>
      intro asked order open_ later w hsplit h
      obtain rfl : [] = later := by simpa [orderFrom] using h
      have hasked : asked = g.families := by simpa using hsplit.symm
      exact ⟨open_, by simpa [hasked] using w⟩
  | cons f rest ih =>
      intro asked order open_ later w hsplit h
      rw [orderFrom] at h
      cases hfollow : follow open_ [] (some f.name) with
      | error fault => simp [hfollow] at h
      | ok walked =>
          obtain ⟨chain, stillOpen⟩ := walked
          cases hrest : orderFrom stillOpen rest with
          | error fault => simp [hfollow, hrest] at h
          | ok tail =>
              obtain rfl : chain ++ tail = later := by simpa [hfollow, hrest] using h
              rw [← List.append_assoc]
              exact ih (w.request hg hsplit hfollow) (by simp [hsplit]) hrest

/-- One of the requests fails, after all earlier ones have been answered. -/
theorem exists_of_orderFrom_eq_error
    (hg : g.NamesDistinct) {rest : List Family} {fault : Fault} :
    ∀ {asked order open_ : List Family}, Written g asked order open_ →
      g.families = asked ++ rest → orderFrom open_ rest = .error fault →
        ∃ asked' f rest' order' open', g.families = asked' ++ f :: rest' ∧
          Written g asked' order' open' ∧ follow open' [] (some f.name) = .error fault := by
  induction rest with
  | nil =>
      intro asked order open_ w hsplit h
      simp [orderFrom] at h
  | cons f rest ih =>
      intro asked order open_ w hsplit h
      rw [orderFrom] at h
      cases hfollow : follow open_ [] (some f.name) with
      | error found =>
          obtain rfl : found = fault := by simpa [hfollow] using h
          exact ⟨asked, f, rest, order, open_, hsplit, w, hfollow⟩
      | ok walked =>
          obtain ⟨chain, stillOpen⟩ := walked
          cases hrest : orderFrom stillOpen rest with
          | error found =>
              obtain rfl : found = fault := by simpa [hfollow, hrest] using h
              exact ih (w.request hg hsplit hfollow) (by simp [hsplit]) hrest
          | ok tail => simp [hfollow, hrest] at h

end Written

/-! ## The order of a whole grammar -/

/-- When all families have been requested, all of them have been written. -/
theorem written_of_emissionOrder_eq_ok
    {g : Grammar} (hg : g.NamesDistinct) {order : List Family}
    (h : emissionOrder g = .ok order) : Written g g.families order [] := by
  obtain ⟨left, w⟩ := (Written.initial g).of_orderFrom_eq_ok hg rfl h
  rw [List.nil_append] at w
  have hleft : left = [] := by
    rw [List.eq_nil_iff_forall_not_mem]
    intro e he
    have hmem : e ∈ g.families := w.perm.subset (List.mem_append_right _ he)
    exact w.not_needs_of_mem_open hg he e hmem Relation.ReflTransGen.refl
  rwa [hleft] at w

theorem isCycle_of_emissionOrder_eq_error
    {g : Grammar} (hg : g.NamesDistinct) {fault : Fault}
    (h : emissionOrder g = .error fault) :
    ∃ cycle, g.IsCycle cycle ∧ fault = .dependencyCycle cycle := by
  obtain ⟨asked, f, rest, order, open_, hsplit, w, hfollow⟩ :=
    (Written.initial g).exists_of_orderFrom_eq_error hg rfl h
  have hf : f ∈ g.families := by
    rw [hsplit]
    simp
  exact (w.walk hg hf).of_follow_eq_error hg hfollow

/-- The families can be put in order exactly when there is no cycle. -/
theorem emissionOrder_eq_ok_iff_acyclic
    {g : Grammar} (hg : g.NamesDistinct) :
    (∃ order, emissionOrder g = .ok order) ↔ g.Acyclic := by
  constructor
  · rintro ⟨order, h⟩ f hf
    have w := written_of_emissionOrder_eq_ok hg h
    have hperm : order.Perm g.families := by simpa using w.perm
    exact w.dependencyFirst.not_reaches_self (hperm.nodup_iff.mpr hg.nodup) f
      (hperm.mem_iff.mpr hf)
  · intro hacyclic
    cases h : emissionOrder g with
    | ok order => exact ⟨order, rfl⟩
    | error fault =>
        obtain ⟨cycle, hcycle, -⟩ := isCycle_of_emissionOrder_eq_error hg h
        exact False.elim (hcycle.not_acyclic hacyclic)

/-! ## Positions -/

/-- The family `a` stands before `b` on a list. -/
def Precedes (families : List Family) (a b : Family) : Prop :=
  ∃ i j : ℕ, i < j ∧ families[i]? = some a ∧ families[j]? = some b

theorem Precedes.rel_of_pairwise
    {R : Family → Family → Prop} {families : List Family} (h : families.Pairwise R)
    {a b : Family} (hab : Precedes families a b) : R a b := by
  obtain ⟨i, j, hij, ha, hb⟩ := hab
  obtain ⟨hi, rfl⟩ := List.getElem?_eq_some_iff.mp ha
  obtain ⟨hj, rfl⟩ := List.getElem?_eq_some_iff.mp hb
  exact List.pairwise_iff_getElem.mp h i j hi hj hij

/-- One of two different families of a list stands before the other. -/
theorem precedes_or_precedes
    {families : List Family} {a b : Family}
    (ha : a ∈ families) (hb : b ∈ families) (hne : a ≠ b) :
    Precedes families a b ∨ Precedes families b a := by
  obtain ⟨i, hi⟩ := List.mem_iff_getElem?.mp ha
  obtain ⟨j, hj⟩ := List.mem_iff_getElem?.mp hb
  rcases lt_trichotomy i j with hij | rfl | hji
  · exact Or.inl ⟨i, j, hij, hi, hj⟩
  · rw [hi] at hj
    exact False.elim (hne (Option.some.inj hj))
  · exact Or.inr ⟨j, i, hji, hj, hi⟩

/-- The position of a family is determined by the requests for it. -/
theorem Written.precedes_iff
    {g : Grammar} {order : List Family} (w : Written g g.families order [])
    (hacyclic : g.Acyclic) {a b : Family} (ha : a ∈ g.families) (hb : b ∈ g.families)
    (hne : a ≠ b) : Precedes order a b ↔ g.WrittenBefore a b := by
  constructor
  · intro h
    exact h.rel_of_pairwise w.sorted
  · intro h
    rcases precedes_or_precedes (w.asked_mem ha) (w.asked_mem hb) hne with hab | hba
    · exact hab
    · exact False.elim (h.asymm hacyclic ha (hba.rel_of_pairwise w.sorted))

theorem Written.precedes_of_reaches
    {g : Grammar} {order : List Family} (w : Written g g.families order [])
    (hacyclic : g.Acyclic) {a b : Family} (hb : b ∈ g.families) (h : g.Reaches b a) :
    Precedes order a b := by
  have hne : a ≠ b := by
    rintro rfl
    exact hacyclic a hb h
  exact (w.precedes_iff hacyclic h.mem hb hne).mpr (h.writtenBefore hb)

/-! ## Grammars that are declared in order -/

/-- Where dependencies are declared first, what a family needs is declared no later. -/
theorem index_le_of_needs
    {g : Grammar} (hg : g.NamesDistinct)
    (hdeclared : ∀ b ∈ g.families, ∀ a, g.DependsOn b a → Precedes g.families a b)
    {a b : Family} (h : g.Needs b a) :
    ∀ {i j : ℕ}, g.families[i]? = some a → g.families[j]? = some b → i ≤ j := by
  have hindex : ∀ {c : Family} {i j : ℕ},
      g.families[i]? = some c → g.families[j]? = some c → i = j := by
    intro c i j hi hj
    obtain ⟨hlt, -⟩ := List.getElem?_eq_some_iff.mp hi
    exact (List.getElem?_inj hlt hg.nodup).mp (hi.trans hj.symm)
  induction h with
  | refl =>
      intro i j hi hj
      exact Nat.le_of_eq (hindex hi hj)
  | @tail c a hneeds hstep ih =>
      intro i j hi hj
      have hc : c ∈ g.families := Grammar.Needs.mem hneeds (List.mem_of_getElem? hj)
      obtain ⟨i', k, hlt, hi', hk⟩ := hdeclared c hc a hstep
      have hik : i = i' := hindex hi hi'
      have hkj : k ≤ j := ih hk hj
      omega

/-- Where dependencies are declared first, the declaration order is the one by requests. -/
theorem pairwise_writtenBefore_of_declared
    {g : Grammar} (hg : g.NamesDistinct)
    (hdeclared : ∀ b ∈ g.families, ∀ a, g.DependsOn b a → Precedes g.families a b) :
    g.families.Pairwise g.WrittenBefore := by
  rw [List.pairwise_iff_getElem]
  intro i j hi hj hij
  have hgeti : g.families[i]? = some g.families[i] := List.getElem?_eq_getElem hi
  have hgetj : g.families[j]? = some g.families[j] := List.getElem?_eq_getElem hj
  have hle : g.firstRequest g.families[i] ≤ i :=
    Grammar.firstRequest_le hgeti Relation.ReflTransGen.refl
  obtain ⟨e, he, hneeds⟩ := Grammar.exists_firstRequest (List.getElem_mem hj)
  have hge : j ≤ g.firstRequest g.families[j] := index_le_of_needs hg hdeclared hneeds hgetj he
  exact Or.inl (by omega)

/-- Families are written in declaration order exactly when dependencies are declared
first. -/
theorem Written.eq_families_iff
    {g : Grammar} (hg : g.NamesDistinct) {order : List Family}
    (w : Written g g.families order []) (hacyclic : g.Acyclic) :
    order = g.families ↔
      ∀ b ∈ g.families, ∀ a, g.DependsOn b a → Precedes g.families a b := by
  constructor
  · rintro horder b hb a hab
    have hprecedes := w.precedes_of_reaches hacyclic hb (Relation.TransGen.single hab)
    rwa [horder] at hprecedes
  · intro hdeclared
    have hperm : order.Perm g.families := by simpa using w.perm
    apply hperm.eq_of_pairwise _ w.sorted (pairwise_writtenBefore_of_declared hg hdeclared)
    intro a b ha _ hab hba
    exact False.elim (hab.asymm hacyclic (hperm.mem_iff.mp ha) hba)

end Linked

end Treewright
