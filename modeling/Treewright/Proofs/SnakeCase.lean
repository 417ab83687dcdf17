import Treewright.Proofs.Spelling
import Treewright.Proofs.WordBoundary

/-!
# What the conversion to snake case changes

The conversion puts capitals into lower case and adds underscores, and it changes nothing else.
`spellByPlaces` writes it down place by place: what is written for a character is a matter of
this character and of its two neighbours, and never of the text that is written already.

An underscore is only added between two characters that are letters or digits.  So it stands
beside no other underscore, and it does not decide whether a name is an identifier.
-/

namespace Treewright.Name

/-- Decides whether a word begins at the place `i` of a text: a capital stands there, behind a
lowercase letter or a digit, or between a capital and a lowercase letter. -/
def beginsWordAt (text : List Char) (i : Nat) : Bool :=
  0 < i && text[i]?.any Char.isUpper &&
    text[i - 1]?.any fun previous =>
      previous.isLower || previous.isDigit ||
        previous.isUpper && text[i + 1]?.any Char.isLower

/-- What is written for the character `c` at the place `i`: the character in lower case, behind
an underscore if a word begins there. -/
def spellAt (text : List Char) (i : Nat) (c : Char) : List Char :=
  if beginsWordAt text i then ['_', c.toLower] else [c.toLower]

/-- The conversion of a text, place by place. -/
def spellByPlaces (text : List Char) : List Char :=
  (text.mapIdx (spellAt text)).flatten

/-- The number of places of a text at which two underscores follow each other. -/
def doubleUnderscores (text : List Char) : Nat :=
  (text.zip text.tail).count ('_', '_')

/-! ## Place by place -/

theorem beginsWordAt_length (before rest : List Char) (c : Char) :
    beginsWordAt (before ++ c :: rest) before.length =
      (c.isUpper && before.getLast?.any (beginsWord · rest.head?)) := by
  rcases List.eq_nil_or_concat before with rfl | ⟨front, previous, rfl⟩
  · simp [beginsWordAt]
  · have hprevious : (front ++ [previous] ++ c :: rest)[front.length]? = some previous := by
      simp
    have hc : (front ++ [previous] ++ c :: rest)[front.length + 1]? = some c := by
      simp
    have hnext : (front ++ [previous] ++ c :: rest)[front.length + 1 + 1]? = rest.head? := by
      rw [List.append_assoc, List.getElem?_append_right (by omega), List.head?_eq_getElem?,
        Nat.add_assoc, Nat.add_sub_cancel_left]
      rfl
    simp only [beginsWordAt, List.concat_eq_append, List.length_append, List.length_singleton,
      Nat.add_sub_cancel, hprevious, hc, hnext]
    simp [beginsWord]

/-- The rest of a text is converted as it stands behind what comes before it. -/
theorem spellFrom_getLast? (before rest : List Char) :
    spellFrom before.getLast? rest =
      (rest.mapIdx fun i => spellAt (before ++ rest) (i + before.length)).flatten := by
  induction rest generalizing before with
  | nil => rfl
  | cons c rest ih =>
      have hrest : spellFrom (some c) rest =
          (rest.mapIdx fun i => spellAt (before ++ c :: rest) (i + 1 + before.length)).flatten := by
        have hplaces := ih (before ++ [c])
        rw [List.getLast?_concat, List.append_assoc, List.singleton_append,
          List.length_append, List.length_singleton] at hplaces
        simpa only [Nat.add_assoc, Nat.add_comm 1] using hplaces
      rw [spellFrom, List.mapIdx_cons, List.flatten_cons, ← hrest, Nat.zero_add, spellAt,
        beginsWordAt_length]
      split <;> rfl

theorem snakeText_eq_spellByPlaces (text : List Char) : snakeText text = spellByPlaces text := by
  rw [snakeText_eq]
  exact spellFrom_getLast? [] text

/-! ## Underscores aside -/

/-- The conversion loses no character but for its case, and adds none but underscores. -/
theorem filter_spellFrom (text : List Char) (previous : Option Char) :
    (spellFrom previous text).filter (· ≠ '_') =
      (text.map Char.toLower).filter (· ≠ '_') := by
  induction text generalizing previous with
  | nil => rfl
  | cons c rest ih =>
      rw [spellFrom, List.map_cons]
      split
      · rw [List.filter_cons_of_neg (by simp), List.filter_cons, List.filter_cons, ih]
      · rw [List.filter_cons, List.filter_cons, ih]

/-! ## Underscores that follow each other -/

theorem doubleUnderscores_cons (c : Char) (rest : List Char) :
    doubleUnderscores (c :: rest) =
      (if c = '_' ∧ rest.head? = some '_' then 1 else 0) + doubleUnderscores rest := by
  cases rest with
  | nil => simp [doubleUnderscores]
  | cons d rest =>
      simp only [doubleUnderscores, List.tail_cons, List.zip_cons_cons, List.count_cons,
        List.head?_cons, Option.some_inj, beq_iff_eq, Prod.mk.injEq]
      exact Nat.add_comm _ _

/-- Behind a character that is in the text already, the conversion adds no underscore to another
one and takes none away from it. -/
theorem doubleUnderscores_spellFrom (text : List Char) (previous : Char) :
    doubleUnderscores (previous.toLower :: spellFrom (some previous) text) =
      doubleUnderscores (previous :: text) := by
  induction text generalizing previous with
  | nil => simp [spellFrom, doubleUnderscores]
  | cons c rest ih =>
      rw [spellFrom, Option.any_some]
      split
      next hbegins =>
        -- Neither neighbour of an added underscore is one.
        rw [Bool.and_eq_true] at hbegins
        have hprevious : previous.toLower ≠ '_' := toLower_ne_underscore hbegins.2
        have hc : c ≠ '_' := by
          rintro rfl
          exact absurd hbegins.1 (by decide)
        have hlower : c.toLower ≠ '_' := mt toLower_eq_underscore_iff.mp hc
        rw [doubleUnderscores_cons, doubleUnderscores_cons, ih, doubleUnderscores_cons previous]
        simp [hprevious, hc, hlower]
      next =>
        rw [doubleUnderscores_cons, ih, doubleUnderscores_cons previous]
        simp [toLower_eq_underscore_iff]

theorem doubleUnderscores_snakeText (text : List Char) :
    doubleUnderscores (snakeText text) = doubleUnderscores text := by
  rw [snakeText_eq]
  cases text with
  | nil => rfl
  | cons c rest =>
      rw [spellFrom_none_cons, doubleUnderscores_spellFrom]

/-- The conversion puts capitals into lower case and adds an underscore in front of each one at
which a word begins, as the characters around it say.  Apart from underscores it keeps the name
in lower case.  Underscores follow each other at as many places as in the name, the result is an
identifier if and only if the name is one, and a second conversion changes nothing. -/
theorem snake_lowers_and_separates (s : String) :
    (snake s).toList = spellByPlaces s.toList ∧
      (snake s).toList.filter (· ≠ '_') = (s.toList.map Char.toLower).filter (· ≠ '_') ∧
      doubleUnderscores (snake s).toList = doubleUnderscores s.toList ∧
      isIdentifier (snake s) = isIdentifier s ∧
      snake (snake s) = snake s := by
  have htext : (snake s).toList = snakeText s.toList := by
    rw [snake, String.toList_ofList]
  refine ⟨?_, ?_, ?_, isIdentifier_snake s, snake_snake s⟩
  · rw [htext, snakeText_eq_spellByPlaces]
  · rw [htext, snakeText_eq, filter_spellFrom]
  · rw [htext, doubleUnderscores_snakeText]

example : spellByPlaces "getHTTPResponse".toList = "get_http_response".toList := by
  decide

end Treewright.Name
