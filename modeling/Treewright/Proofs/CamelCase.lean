import Mathlib.Data.Set.Function
import Treewright.Proofs.FirstFault
import Treewright.Proofs.Spelling
import Treewright.Proofs.WordBoundary

/-!
# Names in camel case

Different names can be alike in snake case: `HTTPGet` and `HttpGet` are.  Names in camel case
never are.  Such a name consists of humps, each a capital with lowercase letters or digits behind
it.  Its conversion is the humps in lower case with one underscore between any two of them, so
the humps can be read off from it.

A name of a class and one of a family, put together, are in camel case again.  In a grammar with
such names, no two families are therefore written to the same module, and two nodes have the same
visitor method only if the types written for them have the same name.
-/

namespace Treewright

namespace Name

/-- A capital with lowercase letters or digits behind it, one at least. -/
@[ext]
structure Hump where
  capital : Char
  tail : List Char
  isUpper_capital : capital.isUpper = true
  tail_ne_nil : tail ≠ []
  tail_small : ∀ c ∈ tail, c.isLower ∨ c.isDigit

namespace Hump

/-- The hump as it stands in a name. -/
def text (h : Hump) : List Char :=
  h.capital :: h.tail

/-- The hump in lower case. -/
def word (h : Hump) : List Char :=
  h.capital.toLower :: h.tail

theorem isUpper_eq_false_of_mem_tail (h : Hump) : ∀ c ∈ h.tail, c.isUpper = false := by
  intro c hc
  rcases h.tail_small c hc with hlower | hdigit
  · exact isUpper_eq_false_of_isLower hlower
  · have hle : c.toNat ≤ 57 := (Char.isDigit_iff_toNat.mp hdigit).2
    rw [Bool.eq_false_iff, ne_eq, isUpper_iff_toNat]
    omega

theorem snakeText_text (h : Hump) : snakeText h.text = h.word := by
  rw [snakeText_eq, text, spellFrom_none_cons, spellFrom_eq_self h.isUpper_eq_false_of_mem_tail,
    word]

theorem word_injective : Function.Injective word := by
  intro h k hword
  obtain ⟨hcapital, htail⟩ := List.cons.inj hword
  have hcode := congrArg Char.toNat hcapital
  rw [toNat_toLower_of_isUpper h.isUpper_capital, toNat_toLower_of_isUpper k.isUpper_capital]
    at hcode
  exact Hump.ext (Char.toNat_inj.mp (Nat.add_right_cancel hcode)) htail

theorem underscore_not_mem_word (h : Hump) : '_' ∉ h.word := by
  intro hmem
  rcases List.mem_cons.mp hmem with hcapital | htail
  · have hupper := h.isUpper_capital
    rw [toLower_eq_underscore_iff.mp hcapital.symm] at hupper
    exact absurd hupper (by decide)
  · exact absurd (h.tail_small '_' htail) (by decide)

end Hump

/-- The name consists of humps, of one at least. -/
def IsCamelCase (s : String) : Prop :=
  ∃ humps : List Hump, humps ≠ [] ∧ s.toList = humps.flatMap Hump.text

theorem IsCamelCase.append {s t : String} (hs : IsCamelCase s) (ht : IsCamelCase t) :
    IsCamelCase (s ++ t) := by
  obtain ⟨humps, hne, hs⟩ := hs
  obtain ⟨more, -, ht⟩ := ht
  refine ⟨humps ++ more, by simp [hne], ?_⟩
  rw [String.toList_append, hs, ht, List.flatMap_append]

/-- The conversion of humps has one word for each of them, with underscores between. -/
theorem snakeText_flatMap_text (humps : List Hump) :
    snakeText (humps.flatMap Hump.text) = ['_'].intercalate (humps.map Hump.word) := by
  induction humps with
  | nil => rfl
  | cons h rest ih =>
      cases rest with
      | nil => simp [h.snakeText_text]
      | cons k rest =>
          have hlast : h.text.getLast? = some (h.tail.getLast h.tail_ne_nil) := by
            rw [Hump.text, List.getLast?_cons, List.getLast?_eq_some_getLast h.tail_ne_nil,
              Option.getD_some]
          have hword (next : Option Char) :
              beginsWord (h.tail.getLast h.tail_ne_nil) next = true := by
            rw [beginsWord_iff, ← or_assoc]
            exact Or.inl (h.tail_small _ (List.getLast_mem _))
          have hsplit := snakeText_append hlast k.isUpper_capital (k.tail ++ rest.flatMap Hump.text)
          rw [if_pos (hword _), h.snakeText_text] at hsplit
          rw [List.map_cons, List.map_cons, List.intercalate_cons_cons, ← List.map_cons, ← ih]
          exact hsplit

/-- Names in camel case can be told apart by their conversions. -/
theorem snake_injOn_camelCase : Set.InjOn snake {s | IsCamelCase s} := by
  rintro s ⟨humps, hne, hs⟩ t ⟨others, hne', ht⟩ heq
  have htext : snakeText s.toList = snakeText t.toList := String.ofList_injective heq
  have hread (ks : List Hump) (hks : ks ≠ []) :
      (['_'].intercalate (ks.map Hump.word)).splitOn '_' = ks.map Hump.word := by
    apply List.splitOn_intercalate
    · simpa using fun k _ => k.underscore_not_mem_word
    · simpa using hks
  rw [hs, ht, snakeText_flatMap_text, snakeText_flatMap_text] at htext
  have hwords : humps.map Hump.word = others.map Hump.word := by
    rw [← hread humps hne, htext, hread others hne']
  obtain rfl := List.map_injective_iff.mpr Hump.word_injective hwords
  exact String.toList_injective (hs.trans ht.symm)

-- A run of capitals is no hump, and its conversion does not tell it from one.
example : snake "HTTPGet" = snake "HttpGet" := by
  decide

end Name

namespace Grammar

/-- The names of all families and classes are in camel case. -/
structure InCamelCase (g : Grammar) : Prop where
  families : ∀ f ∈ g.families, Name.IsCamelCase f.name
  classes : ∀ f ∈ g.families, ∀ n ∈ f.nodes, Name.IsCamelCase n.className

variable {g : Grammar}

theorem InCamelCase.typeName (hg : g.InCamelCase) {f : Family} (hf : f ∈ g.families) {n : Node}
    (hn : n ∈ f.nodes) : Name.IsCamelCase (f.typeName n) :=
  (hg.classes f hf n hn).append (hg.families f hf)

/-- Names in camel case can be told apart by their conversions.  So validation finds no two
families of one module among them, and it finds two nodes of one visitor method only if class
and family, put together, are literally the same for both. -/
theorem camelCase_collides_only_if_equal :
    Set.InjOn Name.snake {s | Name.IsCamelCase s} ∧
      ∀ g : Grammar, g.InCamelCase →
        (∀ first second home, g.validate ≠ .error (.moduleCollision first second home)) ∧
          ∀ first second method,
            g.validate = .error (.visitorCollision first second method) →
              ∃ e f m n, [(e, m), (f, n)].Sublist (Family.members g.families) ∧
                first = e.typeName m ∧ second = f.typeName n ∧ e.typeName m = f.typeName n := by
  refine ⟨Name.snake_injOn_camelCase, fun g hg => ⟨?_, ?_⟩⟩
  · intro first second home hfault
    cases clash_of_validate_eq_error hfault with
    | @modules e f h hname hmodule =>
        obtain ⟨he, hf⟩ : e ∈ g.families ∧ f ∈ g.families := by simpa using h.subset
        exact hname (Name.snake_injOn_camelCase (hg.families e he) (hg.families f hf) hmodule)
  · intro first second method hfault
    cases clash_of_validate_eq_error hfault with
    | @methods e f m n h _ hmethod =>
        obtain ⟨⟨he, hm⟩, hf, hn⟩ : (e ∈ g.families ∧ m ∈ e.nodes) ∧
            f ∈ g.families ∧ n ∈ f.nodes := by
          simpa [Family.mem_members_iff] using h.subset
        have hsnake := (String.append_right_inj "visit_").mp hmethod
        exact ⟨e, f, m, n, h, rfl, rfl,
          Name.snake_injOn_camelCase (hg.typeName he hm) (hg.typeName hf hn) hsnake⟩

/-- Two nodes of different families.  Put together with the names of their families, their
classes are the same three humps. -/
def sharedHumps : Grammar :=
  { name := "Shared"
    families := [⟨"Expr", [⟨"UnaryNode2", []⟩], none⟩, ⟨"Node2Expr", [⟨"Unary", []⟩], none⟩] }

theorem inCamelCase_sharedHumps : sharedHumps.InCamelCase := by
  let unary : Name.Hump := ⟨'U', ['n', 'a', 'r', 'y'], by decide, by decide, by simp⟩
  let node : Name.Hump := ⟨'N', ['o', 'd', 'e', '2'], by decide, by decide, by simp⟩
  let expr : Name.Hump := ⟨'E', ['x', 'p', 'r'], by decide, by decide, by simp⟩
  constructor
  · simp only [sharedHumps, List.forall_mem_cons]
    exact ⟨⟨[expr], by simp, by decide⟩, ⟨[node, expr], by simp, by decide⟩, by simp⟩
  · simp only [sharedHumps, List.forall_mem_cons]
    exact ⟨⟨⟨[unary, node], by simp, by decide⟩, by simp⟩,
      ⟨⟨[unary], by simp, by decide⟩, by simp⟩, by simp⟩

theorem camelCase_collides_only_if_equal_sharedHumps :
    sharedHumps.InCamelCase ∧
      sharedHumps.validate =
        .error (.visitorCollision "UnaryNode2Expr" "UnaryNode2Expr" "visit_unary_node2_expr") ∧
      Name.snake "Expr" ≠ Name.snake "Node2Expr" ∧
      (∃ e f m n, [(e, m), (f, n)].Sublist (Family.members sharedHumps.families) ∧
        e.typeName m = f.typeName n) ∧
      ∀ first second home, sharedHumps.validate ≠ .error (.moduleCollision first second home) := by
  have hvalidate : sharedHumps.validate =
      .error (.visitorCollision "UnaryNode2Expr" "UnaryNode2Expr" "visit_unary_node2_expr") := by
    decide +kernel
  obtain ⟨hinj, hgrammars⟩ := camelCase_collides_only_if_equal
  obtain ⟨hexpr, hnodeExpr, -⟩ := by
    simpa only [sharedHumps, List.forall_mem_cons] using inCamelCase_sharedHumps.families
  obtain ⟨hmodules, hmethods⟩ := hgrammars sharedHumps inCamelCase_sharedHumps
  obtain ⟨e, f, m, n, hnodes, -, -, htypes⟩ := hmethods _ _ _ hvalidate
  exact ⟨inCamelCase_sharedHumps, hvalidate, hinj.ne hexpr hnodeExpr (by decide),
    ⟨e, f, m, n, hnodes, htypes⟩, hmodules⟩

end Grammar

end Treewright
