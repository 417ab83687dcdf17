import Treewright.Proofs.Linking

/-!
# Which families hold borrowed values

A family holds borrowed values when a chain of families leads from it to a borrowed
name: each family of the chain mentions the next one in a field type, and the last one
mentions the borrowed name.  The search for borrowing families goes through all
families again and again and adds to its result on the way, so the proof has two
halves.  What a step adds lies in every set of names that is closed under mentions,
hence so does the result; and a pass that changes nothing shows that the result is such
a set itself.  The heads of chains form the least closed set.
-/

namespace Treewright

namespace Grammar

/-- A chain of families, each of which mentions the next one, and the last of which
mentions a borrowed name. -/
inductive BorrowChain (g : Grammar) : List Family → Prop
  | last {f : Family} {name : String} (hf : f ∈ g.families)
      (hname : name ∈ g.ownership.borrowed) (hmentions : f.Mentions name) : BorrowChain g [f]
  | step {f d : Family} {rest : List Family} (hf : f ∈ g.families)
      (hmentions : f.Mentions d.name) (hrest : BorrowChain g (d :: rest)) :
      BorrowChain g (f :: d :: rest)

/-- The names that start a chain to a borrowed name. -/
def chainHeads (g : Grammar) : Set String :=
  {name | ∃ f rest, f.name = name ∧ g.BorrowChain (f :: rest)}

/-- A set of names that holds every family which mentions a borrowed name or a name of
the set. -/
def BorrowClosed (g : Grammar) (names : Set String) : Prop :=
  ∀ f ∈ g.families, ∀ name, f.Mentions name →
    name ∈ g.ownership.borrowed ∨ name ∈ names → f.name ∈ names

theorem BorrowChain.head_mem
    {g : Grammar} {f : Family} {rest : List Family} (h : g.BorrowChain (f :: rest)) :
    f ∈ g.families := by
  cases h with
  | last hf => exact hf
  | step hf => exact hf

theorem borrowClosed_chainHeads (g : Grammar) : g.BorrowClosed g.chainHeads := by
  rintro f hf name hmentions (hname | ⟨d, rest, rfl, hrest⟩)
  · exact ⟨f, [], rfl, .last hf hname hmentions⟩
  · exact ⟨f, d :: rest, rfl, .step hf hmentions hrest⟩

/-- A closed set holds the head of every chain. -/
theorem BorrowClosed.head_mem
    {g : Grammar} {names : Set String} (hclosed : g.BorrowClosed names)
    {chain : List Family} (h : g.BorrowChain chain) :
    ∀ f rest, chain = f :: rest → f.name ∈ names := by
  induction h with
  | @last f name hf hname hmentions =>
      rintro _ _ ⟨⟩
      exact hclosed f hf name hmentions (Or.inl hname)
  | @step f d tail hf hmentions _ ih =>
      rintro _ _ ⟨⟩
      exact hclosed f hf d.name hmentions (Or.inr (ih d tail rfl))

end Grammar

namespace Linked

/-! ## One look at a family -/

theorem nodeBorrows_iff
    {o : Ownership} {borrowing : List String} {n : Node} :
    nodeBorrows o borrowing n = true ↔
      ∃ name, n.Mentions name ∧ (name ∈ o.borrowed ∨ name ∈ borrowing) := by
  simp only [nodeBorrows, List.any_eq_true, Bool.or_eq_true, Ownership.mentionsBorrowed_iff,
    TypeRef.mem_names_iff, decide_eq_true_eq]
  constructor
  · rintro ⟨field, hfield, ⟨name, hname, hmentions⟩ | ⟨name, hmentions, hname⟩⟩
    · exact ⟨name, ⟨field, hfield, hmentions⟩, Or.inl hname⟩
    · exact ⟨name, ⟨field, hfield, hmentions⟩, Or.inr hname⟩
  · rintro ⟨name, ⟨field, hfield, hmentions⟩, hname | hname⟩
    · exact ⟨field, hfield, Or.inl ⟨name, hname, hmentions⟩⟩
    · exact ⟨field, hfield, Or.inr ⟨name, hmentions, hname⟩⟩

/-- A family has a borrowing node exactly when it mentions something that borrows. -/
theorem any_nodeBorrows_iff
    {o : Ownership} {borrowing : List String} {f : Family} :
    f.nodes.any (nodeBorrows o borrowing) = true ↔
      ∃ name, f.Mentions name ∧ (name ∈ o.borrowed ∨ name ∈ borrowing) := by
  simp only [List.any_eq_true, nodeBorrows_iff]
  constructor
  · rintro ⟨n, hn, name, hmentions, hname⟩
    exact ⟨name, ⟨n, hn, hmentions⟩, hname⟩
  · rintro ⟨name, ⟨n, hn, hmentions⟩, hname⟩
    exact ⟨n, hn, name, hmentions, hname⟩

/-- A step adds nothing outside a closed set. -/
theorem borrowingStep_subset
    {g : Grammar} {names : Set String} (hclosed : g.BorrowClosed names)
    {borrowing : List String} (hsub : ∀ name ∈ borrowing, name ∈ names)
    {f : Family} (hf : f ∈ g.families) :
    ∀ name ∈ borrowingStep g.ownership borrowing f, name ∈ names := by
  rcases borrowingStep_cases g.ownership borrowing f with h | ⟨-, hnode, h⟩
  · rwa [h]
  · rw [h]
    intro name hname
    rcases List.mem_append.mp hname with hold | hnew
    · exact hsub name hold
    · obtain rfl : name = f.name := List.mem_singleton.mp hnew
      obtain ⟨found, hmentions, hfound⟩ := any_nodeBorrows_iff.mp hnode
      exact hclosed f hf found hmentions (hfound.imp_right (hsub found))

/-- A step that changes nothing finds no node that borrows outside the known families. -/
theorem name_mem_of_borrowingStep_eq
    {o : Ownership} {borrowing : List String} {f : Family}
    (h : borrowingStep o borrowing f = borrowing)
    (hnode : f.nodes.any (nodeBorrows o borrowing) = true) : f.name ∈ borrowing := by
  by_contra hmem
  simp [borrowingStep, hmem, hnode] at h

/-! ## Passes over all families -/

/-- A pass adds nothing outside a closed set. -/
theorem borrowingPass_subset
    {g : Grammar} {names : Set String} (hclosed : g.BorrowClosed names)
    {families : List Family} (hfamilies : ∀ f ∈ families, f ∈ g.families) :
    ∀ {borrowing : List String}, (∀ name ∈ borrowing, name ∈ names) →
      ∀ name ∈ borrowingPass g.ownership borrowing families, name ∈ names := by
  induction families with
  | nil =>
      intro borrowing hsub
      exact hsub
  | cons f rest ih =>
      intro borrowing hsub
      have hf : f ∈ g.families := hfamilies f List.mem_cons_self
      exact ih (fun e he => hfamilies e (List.mem_cons_of_mem f he))
        (borrowingStep_subset hclosed hsub hf)

/-- No step of a pass that changes nothing changes something: what a step adds stays to
the end of the pass. -/
theorem borrowingStep_eq_of_borrowingPass_eq
    {o : Ownership} {borrowing : List String} {families : List Family}
    (h : borrowingPass o borrowing families = borrowing) :
    ∀ f ∈ families, borrowingStep o borrowing f = borrowing := by
  induction families with
  | nil => simp
  | cons f rest ih =>
      have hkept : borrowingStep o borrowing f ⊆ borrowing := by
        have hpass := subset_borrowingPass o (borrowingStep o borrowing f) rest
        change borrowingPass o (borrowingStep o borrowing f) rest = borrowing at h
        rwa [h] at hpass
      have hstep : borrowingStep o borrowing f = borrowing := by
        rcases borrowingStep_cases o borrowing f with hsame | ⟨hnew, -, hadded⟩
        · exact hsame
        · rw [hadded] at hkept
          exact False.elim (hnew (hkept (List.mem_append_right _ (List.mem_singleton_self _))))
      have hrest : borrowingPass o borrowing rest = borrowing := by
        change borrowingPass o (borrowingStep o borrowing f) rest = borrowing at h
        rwa [hstep] at h
      intro e he
      rcases List.mem_cons.mp he with rfl | he
      · exact hstep
      · exact ih hrest e he

theorem borrowClosed_of_borrowingPass_eq
    {g : Grammar} {borrowing : List String}
    (h : borrowingPass g.ownership borrowing g.families = borrowing) :
    g.BorrowClosed {name | name ∈ borrowing} := by
  intro f hf name hmentions hname
  exact name_mem_of_borrowingStep_eq (borrowingStep_eq_of_borrowingPass_eq h f hf)
    (any_nodeBorrows_iff.mpr ⟨name, hmentions, hname⟩)

/-! ## The whole search -/

theorem borrowingFrom_subset
    {g : Grammar} {names : Set String} (hclosed : g.BorrowClosed names)
    {borrowing : List String} (hsub : ∀ name ∈ borrowing, name ∈ names) :
    ∀ name ∈ borrowingFrom g borrowing, name ∈ names := by
  induction borrowing using borrowingFrom.induct g with
  | case1 borrowing hpass =>
      rwa [borrowingFrom, dif_pos hpass]
  | case2 borrowing hpass ih =>
      rw [borrowingFrom, dif_neg hpass]
      exact ih (borrowingPass_subset hclosed (fun _ hf => hf) hsub)

theorem borrowClosed_borrowingFrom (g : Grammar) (borrowing : List String) :
    g.BorrowClosed {name | name ∈ borrowingFrom g borrowing} := by
  induction borrowing using borrowingFrom.induct g with
  | case1 borrowing hpass =>
      rw [borrowingFrom, dif_pos hpass]
      exact borrowClosed_of_borrowingPass_eq hpass
  | case2 borrowing hpass ih =>
      rwa [borrowingFrom, dif_neg hpass]

theorem borrowClosed_borrowingFamilies (g : Grammar) :
    g.BorrowClosed {name | name ∈ borrowingFamilies g} :=
  borrowClosed_borrowingFrom g []

/-- The borrowing families lie in every closed set. -/
theorem borrowingFamilies_subset
    {g : Grammar} {names : Set String} (hclosed : g.BorrowClosed names) :
    ∀ name ∈ borrowingFamilies g, name ∈ names :=
  borrowingFrom_subset hclosed (fun _ h => False.elim (List.not_mem_nil h))

/-- The borrowing families are those from which a chain leads to a borrowed name. -/
theorem mem_borrowingFamilies_iff {g : Grammar} {name : String} :
    name ∈ borrowingFamilies g ↔ name ∈ g.chainHeads := by
  constructor
  · exact borrowingFamilies_subset g.borrowClosed_chainHeads name
  · rintro ⟨f, rest, rfl, hchain⟩
    exact (borrowClosed_borrowingFamilies g).head_mem hchain f rest rfl

theorem name_mem_borrowingFamilies_iff
    {g : Grammar} (hg : g.NamesDistinct) {f : Family} (hf : f ∈ g.families) :
    f.name ∈ borrowingFamilies g ↔ ∃ rest, g.BorrowChain (f :: rest) := by
  rw [mem_borrowingFamilies_iff]
  constructor
  · rintro ⟨e, rest, hname, hchain⟩
    obtain rfl : e = f := hg.eq hchain.head_mem hf hname
    exact ⟨rest, hchain⟩
  · rintro ⟨rest, hchain⟩
    exact ⟨f, rest, rfl, hchain⟩

/-! ## Linked grammars -/

theorem familyBorrows_iff
    {g : Grammar} {l : Linked} (h : g.link = .ok l) {name : String} :
    l.familyBorrows name = true ↔ name ∈ g.chainHeads := by
  rw [familyBorrows, decide_eq_true_eq, Grammar.borrowing_of_link h, mem_borrowingFamilies_iff]

theorem borrows_iff
    {g : Grammar} {l : Linked} (h : g.link = .ok l) {n : Node} :
    l.borrows n = true ↔
      ∃ name, n.Mentions name ∧ (name ∈ g.ownership.borrowed ∨ name ∈ g.chainHeads) := by
  rw [borrows, nodeBorrows_iff, Grammar.grammar_of_link h, Grammar.borrowing_of_link h]
  simp only [mem_borrowingFamilies_iff]

/-- A family borrows exactly when one of its nodes does. -/
theorem familyBorrows_iff_exists_borrows
    {g : Grammar} {l : Linked} (h : g.link = .ok l) {f : Family} (hf : f ∈ g.families) :
    l.familyBorrows f.name = true ↔ ∃ n ∈ f.nodes, l.borrows n = true := by
  simp only [familyBorrows_iff h, borrows_iff h]
  constructor
  · rintro ⟨e, rest, hname, hchain⟩
    obtain rfl : e = f := (Grammar.namesDistinct_of_link h).eq hchain.head_mem hf hname
    cases hchain with
    | last _ hborrowed hmentions =>
        obtain ⟨n, hn, hnode⟩ := hmentions
        exact ⟨n, hn, _, hnode, Or.inl hborrowed⟩
    | @step _ d tail _ hmentions hrest =>
        obtain ⟨n, hn, hnode⟩ := hmentions
        exact ⟨n, hn, d.name, hnode, Or.inr ⟨d, tail, rfl, hrest⟩⟩
  · rintro ⟨n, hn, name, hnode, hname⟩
    exact g.borrowClosed_chainHeads f hf name ⟨n, hn, hnode⟩ hname

end Linked

/-- The families that borrow are the least set of names closed under mentions, and they
are those from which a chain leads to a borrowed name.  In a linked grammar a node
borrows exactly when it mentions a borrowed name or such a family, and a family exactly
when one of its nodes does. -/
theorem borrowingFamilies_least_fixpoint (g : Grammar) :
    (g.BorrowClosed {name | name ∈ Linked.borrowingFamilies g} ∧
      ∀ names, g.BorrowClosed names → {name | name ∈ Linked.borrowingFamilies g} ⊆ names) ∧
    (∀ name, name ∈ Linked.borrowingFamilies g ↔
      ∃ f rest, f.name = name ∧ g.BorrowChain (f :: rest)) ∧
    (g.NamesDistinct → ∀ f ∈ g.families,
      (f.name ∈ Linked.borrowingFamilies g ↔ ∃ rest, g.BorrowChain (f :: rest))) ∧
    ∀ l, g.link = .ok l →
      l.borrowing = Linked.borrowingFamilies g ∧
      (∀ f ∈ g.families, (l.familyBorrows f.name = true ↔ ∃ rest, g.BorrowChain (f :: rest))) ∧
      (∀ n, l.borrows n = true ↔
        ∃ name, n.Mentions name ∧
          (name ∈ g.ownership.borrowed ∨
            ∃ f rest, f.name = name ∧ g.BorrowChain (f :: rest))) ∧
      ∀ f ∈ g.families, (l.familyBorrows f.name = true ↔ ∃ n ∈ f.nodes, l.borrows n = true) := by
  refine ⟨⟨Linked.borrowClosed_borrowingFamilies g, ?_⟩, ?_, ?_, ?_⟩
  · intro names hclosed name hname
    exact Linked.borrowingFamilies_subset hclosed name hname
  · intro name
    exact Linked.mem_borrowingFamilies_iff
  · intro hg f hf
    exact Linked.name_mem_borrowingFamilies_iff hg hf
  · intro l h
    refine ⟨Grammar.borrowing_of_link h, ?_, fun n => Linked.borrows_iff h, ?_⟩
    · intro f hf
      rw [Linked.familyBorrows, decide_eq_true_eq, Grammar.borrowing_of_link h]
      exact Linked.name_mem_borrowingFamilies_iff (Grammar.namesDistinct_of_link h) hf
    · intro f hf
      exact Linked.familyBorrows_iff_exists_borrows h hf

/-- A family that borrows only through another one, and two families that mention
themselves, one of which mentions a borrowed name inside a container, too. -/
def selfMentions : Grammar :=
  { name := "Self"
    families := [⟨"Stmt", [⟨"Run", [⟨⟨"Vec", [⟨"Expr", []⟩]⟩, "body"⟩]⟩], some "Expr"⟩,
      ⟨"Expr", [⟨"Name", [⟨⟨"Vec", [⟨"Token", []⟩]⟩, "parts"⟩]⟩,
        ⟨"Group", [⟨⟨"Expr", []⟩, "inner"⟩]⟩], none⟩,
      ⟨"Type", [⟨"Any", [⟨⟨"Type", []⟩, "inner"⟩]⟩], none⟩] }

theorem borrowingFamilies_least_fixpoint_selfMentions :
    (∃ rest, selfMentions.BorrowChain
      (⟨"Stmt", [⟨"Run", [⟨⟨"Vec", [⟨"Expr", []⟩]⟩, "body"⟩]⟩], some "Expr"⟩ :: rest)) ∧
    ¬∃ rest, selfMentions.BorrowChain
      (⟨"Type", [⟨"Any", [⟨⟨"Type", []⟩, "inner"⟩]⟩], none⟩ :: rest) := by
  have hborrowing : Linked.borrowingFamilies selfMentions = ["Expr", "Stmt"] := by
    decide +kernel
  have hdistinct : selfMentions.NamesDistinct := by
    unfold Grammar.NamesDistinct
    decide
  obtain ⟨-, -, hchains, -⟩ := borrowingFamilies_least_fixpoint selfMentions
  constructor
  · rw [← hchains hdistinct _ (by simp [selfMentions]), hborrowing]
    decide
  · rw [← hchains hdistinct _ (by simp [selfMentions]), hborrowing]
    decide

end Treewright
