import Treewright.Grammar
import Treewright.Proofs.Blank

/-!
# Where words begin

The conversion to snake case carries the text written so far along, and at every capital it
looks back at the last character of this text.  The look back never decides anything: that
character is the last one read, in lower case, and where it is an underscore no word begins
anyway.  Whether a word begins at a capital is therefore a matter of its two neighbours, and
the conversion is the one that `spellFrom` writes down without the text so far.

A name that is put together from two names is then converted part by part, with at most one
underscore between the parts.  This is how visitor methods get their names.
-/

namespace Treewright

namespace Name

/-- Decides whether a word begins at a capital that stands between two neighbours: behind a
lowercase letter or a digit, or between a capital and a lowercase letter. -/
def beginsWord (previous : Char) (next : Option Char) : Bool :=
  previous.isLower || previous.isDigit || previous.isUpper && next.any Char.isLower

/-- The conversion of a text that follows `previous`: everything in lower case, and an
underscore in front of each capital at which a word begins. -/
def spellFrom (previous : Option Char) : List Char → List Char
  | [] => []
  | c :: rest =>
    if c.isUpper && previous.any (beginsWord · rest.head?) then
      '_' :: c.toLower :: spellFrom (some c) rest
    else
      c.toLower :: spellFrom (some c) rest

/-- No word begins at the first character, since nothing stands before it. -/
theorem spellFrom_none_cons (c : Char) (rest : List Char) :
    spellFrom none (c :: rest) = c.toLower :: spellFrom (some c) rest := by
  rw [spellFrom, Option.any_none, Bool.and_false, if_neg Bool.false_ne_true]

/-! ## Letters in lower case -/

theorem toLower_eq_self {c : Char} (h : c.isUpper = false) : c.toLower = c := by
  have hrange : ¬(c.val ≥ 'A'.val ∧ c.val ≤ 'Z'.val) := of_decide_eq_false h
  exact dif_neg hrange

theorem toNat_toLower_of_isUpper {c : Char} (h : c.isUpper = true) :
    c.toLower.toNat = c.toNat + 32 := by
  have hrange := isUpper_iff_toNat.mp h
  have hval : c.toLower.val = c.val + 32 := congrArg Char.val (dif_pos (of_decide_eq_true h))
  calc
    c.toLower.toNat = (c.val + 32).toNat := congrArg UInt32.toNat hval
    _ = (c.toNat + 32) % 2 ^ 32 := UInt32.toNat_add c.val 32
    _ = c.toNat + 32 := by omega

theorem isLower_toLower_of_isUpper {c : Char} (h : c.isUpper = true) :
    c.toLower.isLower = true := by
  have hrange := isUpper_iff_toNat.mp h
  rw [isLower_iff_toNat, toNat_toLower_of_isUpper h]
  omega

theorem isUpper_eq_false_of_isLower {c : Char} (h : c.isLower = true) : c.isUpper = false := by
  have hrange := isLower_iff_toNat.mp h
  rw [Bool.eq_false_iff, ne_eq, isUpper_iff_toNat]
  omega

theorem isUpper_toLower (c : Char) : c.toLower.isUpper = false := by
  cases hupper : c.isUpper with
  | true => exact isUpper_eq_false_of_isLower (isLower_toLower_of_isUpper hupper)
  | false => rw [toLower_eq_self hupper, hupper]

theorem toLower_eq_underscore_iff {c : Char} : c.toLower = '_' ↔ c = '_' := by
  cases hupper : c.isUpper with
  | true =>
      have hlower := isLower_toLower_of_isUpper hupper
      constructor
      · intro hbar
        rw [hbar] at hlower
        exact absurd hlower (by decide)
      · rintro rfl
        exact absurd hupper (by decide)
  | false => rw [toLower_eq_self hupper]

/-! ## The text written so far decides nothing -/

theorem toLower_ne_underscore {previous : Char} {next : Option Char}
    (h : beginsWord previous next = true) : previous.toLower ≠ '_' := by
  rw [ne_eq, toLower_eq_underscore_iff]
  rintro rfl
  have hnot : beginsWord '_' next = false := by simp [beginsWord]
  rw [hnot] at h
  exact Bool.false_ne_true h

/-- Where the text so far ends with the last character read, a word begins as its neighbours
say. -/
theorem startsWord_eq {written : List Char} {previous : Option Char}
    (h : ∀ p ∈ previous, written.head? = some p.toLower) (next : Option Char) :
    startsWord written previous next = previous.any (beginsWord · next) := by
  cases previous with
  | none => simp [startsWord]
  | some p =>
      have hhead : written.head? = some p.toLower := h p rfl
      have hstarts :
          startsWord written (some p) next = (some p.toLower != some '_' && beginsWord p next) := by
        rw [startsWord, hhead, beginsWord]
      rw [hstarts, Option.any_some]
      by_cases hbegins : beginsWord p next = true
      · rw [hbegins, Bool.and_true, bne_iff_ne, ne_eq, Option.some_inj]
        exact toLower_ne_underscore hbegins
      · simp [hbegins]

theorem snakeFrom_eq {text written : List Char} {previous : Option Char}
    (h : ∀ p ∈ previous, written.head? = some p.toLower) :
    snakeFrom written previous text = written.reverse ++ spellFrom previous text := by
  -- Every step writes the character that it reads last, so the hypothesis is kept.
  induction text generalizing written previous with
  | nil => rw [snakeFrom, spellFrom, List.append_nil]
  | cons c rest ih =>
      rw [snakeFrom, spellFrom, startsWord_eq h]
      by_cases hupper : c.isUpper = true
      · have hkept : ∀ before : List Char, ∀ p ∈ some c,
            (c.toLower :: before).head? = some p.toLower := by
          rintro before p ⟨⟩
          rfl
        rw [if_pos hupper, hupper, Bool.true_and]
        split
        · rw [ih (hkept ('_' :: written))]
          simp
        · rw [ih (hkept written)]
          simp
      · have hcopied : c.toLower = c := toLower_eq_self (Bool.eq_false_iff.mpr hupper)
        have hkept : ∀ p ∈ some c, (c :: written).head? = some p.toLower := by
          rintro p ⟨⟩
          rw [hcopied, List.head?_cons]
        rw [if_neg hupper, ih hkept, hcopied]
        simp [hupper]

/-- The conversion asks for the neighbours of capitals only. -/
theorem snakeText_eq (text : List Char) : snakeText text = spellFrom none text :=
  snakeFrom_eq (by simp)

/-! ## Names that are put together -/

/-- In front of a capital, the conversion of a text does not depend on what follows. -/
theorem spellFrom_append {first : Char} (hfirst : first.isUpper = true) (text rest : List Char)
    (previous : Option Char) :
    spellFrom previous (text ++ first :: rest) =
      spellFrom previous text ++ spellFrom (text.getLast?.or previous) (first :: rest) := by
  induction text generalizing previous with
  | nil => rfl
  | cons c text ih =>
      -- Only the last character of the text gets a new neighbour, and this one is a capital.
      have hsmall : first.isLower = false := by
        rw [Bool.eq_false_iff]
        intro hlower
        exact Bool.false_ne_true ((isUpper_eq_false_of_isLower hlower).symm.trans hfirst)
      have hnext : ∀ p, beginsWord p (text ++ first :: rest).head? = beginsWord p text.head? := by
        intro p
        cases text with
        | nil => simp [beginsWord, hsmall]
        | cons d text => rfl
      have hlast : (c :: text).getLast?.or previous = text.getLast?.or (some c) := by
        rw [List.getLast?_cons, Option.some_or]
        cases text.getLast? <;> rfl
      rw [List.cons_append, spellFrom, spellFrom, hlast, ih]
      simp only [hnext]
      split <;> rfl

/-- A capital that follows a text is converted as at the start, behind an underscore if a
word begins there. -/
theorem spellFrom_some {first : Char} (hfirst : first.isUpper = true) (last : Char)
    (rest : List Char) :
    spellFrom (some last) (first :: rest) =
      (if beginsWord last rest.head? then ['_'] else []) ++ spellFrom none (first :: rest) := by
  rw [spellFrom, spellFrom_none_cons, hfirst, Bool.true_and, Option.any_some]
  split <;> simp

theorem snakeText_append {last first : Char} {text : List Char}
    (hlast : text.getLast? = some last) (hfirst : first.isUpper = true) (rest : List Char) :
    snakeText (text ++ first :: rest) =
      snakeText text ++ (if beginsWord last rest.head? then ['_'] else []) ++
        snakeText (first :: rest) := by
  rw [snakeText_eq, snakeText_eq, snakeText_eq, spellFrom_append hfirst, hlast, Option.some_or,
    spellFrom_some hfirst, List.append_assoc]

theorem beginsWord_iff {previous : Char} {next : Option Char} :
    beginsWord previous next = true ↔
      previous.isLower ∨ previous.isDigit ∨ previous.isUpper ∧ next.any Char.isLower := by
  simp [beginsWord, or_assoc]

/-- A name in front of a capital is converted on its own.  Behind it stands an underscore if a
word begins at the capital. -/
theorem snake_append {className familyName : String} {last first : Char}
    (hlast : className.toList.getLast? = some last) (hhead : familyName.toList.head? = some first)
    (hfirst : first.isUpper = true) :
    snake (className ++ familyName) =
      snake className ++
        (if last.isLower ∨ last.isDigit ∨
            last.isUpper ∧ familyName.toList[1]?.any Char.isLower then "_"
          else "") ++
        snake familyName := by
  obtain ⟨rest, hfamily⟩ := List.head?_eq_some_iff.mp hhead
  have hsecond : familyName.toList[1]? = rest.head? := by
    rw [hfamily, List.getElem?_cons_succ, List.head?_eq_getElem?]
  apply String.toList_injective
  simp only [snake, String.toList_append, String.toList_ofList, hsecond, ← beginsWord_iff]
  rw [hfamily, snakeText_append hlast hfirst]
  split <;> rfl

/-- The converted name of a node is that of its class and that of its family, if the family's
name starts with a capital.  An underscore stands between them exactly where a word begins at
this capital, so the visitor method of a class that ends with a lowercase letter or a digit
has the two names apart. -/
theorem snake_splits_at_family :
    (∀ (className familyName : String) (last first : Char),
      className.toList.getLast? = some last → familyName.toList.head? = some first →
        first.isUpper = true →
        snake (className ++ familyName) =
          snake className ++
            (if last.isLower ∨ last.isDigit ∨
                last.isUpper ∧ familyName.toList[1]?.any Char.isLower then "_"
              else "") ++
            snake familyName) ∧
      ∀ (f : Family) (n : Node) (last first : Char),
        n.className.toList.getLast? = some last → last.isLower ∨ last.isDigit →
          f.name.toList.head? = some first → first.isUpper = true →
          f.visitMethod n = "visit_" ++ snake n.className ++ "_" ++ snake f.name := by
  refine ⟨fun _ _ _ _ hlast hhead hfirst => snake_append hlast hhead hfirst, ?_⟩
  intro f n last first hlast hword hhead hfirst
  rw [Family.visitMethod, Family.typeName, snake_append hlast hhead hfirst,
    if_pos (or_assoc.mp (Or.inl hword))]
  simp only [String.append_assoc]

/-- A run of capitals goes on into the family's name if that name goes on with a capital. -/
theorem snake_splits_at_family_acronyms :
    snake ("HTTP" ++ "Request") = "http_request" ∧ snake ("HTTP" ++ "AST") = "httpast" ∧
      (⟨"Expr", [], none⟩ : Family).visitMethod ⟨"Vec2", []⟩ = "visit_vec2_expr" := by
  obtain ⟨hsplit, hmethod⟩ := snake_splits_at_family
  have hrequest := hsplit "HTTP" "Request" 'P' 'R' (by decide) (by decide) (by decide)
  have hast := hsplit "HTTP" "AST" 'P' 'A' (by decide) (by decide) (by decide)
  have hexpr := hmethod ⟨"Expr", [], none⟩ ⟨"Vec2", []⟩ '2' 'E' (by decide) (by decide)
    (by decide) (by decide)
  exact ⟨hrequest.trans (by decide), hast.trans (by decide), hexpr.trans (by decide)⟩

end Name

end Treewright
