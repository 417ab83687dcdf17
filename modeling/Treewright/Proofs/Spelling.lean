import Treewright.Code.Word
import Treewright.Proofs.Blank
import Treewright.Proofs.WordBoundary

/-!
# Spelled names

Written names come from names of the grammar in two steps: some are converted to snake
case, and some are escaped where they are reserved words.  This module says what the two
steps keep.  A converted name has no capitals, so a second conversion changes nothing,
and it is an identifier if and only if the name is one.  An escaped word still has
the name it was made from: the only exception is a name which is in raw spelling
already, and such a name holds a `#`, which neither identifiers nor generated names do.
-/

namespace Treewright

namespace Name

theorem isAlpha_toLower (c : Char) : c.toLower.isAlpha = c.isAlpha := by
  cases hupper : c.isUpper with
  | true =>
      have hlower : c.toLower.isAlpha = true :=
        Bool.or_eq_true_iff.mpr (Or.inr (isLower_toLower_of_isUpper hupper))
      have halpha : c.isAlpha = true := Bool.or_eq_true_iff.mpr (Or.inl hupper)
      rw [hlower, halpha]
  | false => rw [toLower_eq_self hupper]

theorem isHead_toLower (c : Char) : isHead c.toLower = isHead c := by
  rw [isHead, isHead, isAlpha_toLower, Bool.eq_iff_iff]
  simp [toLower_eq_underscore_iff]

theorem isTail_toLower (c : Char) : isTail c.toLower = isTail c := by
  cases hupper : c.isUpper with
  | true =>
      have halpha : c.isAlpha = true := Bool.or_eq_true_iff.mpr (Or.inl hupper)
      have hlower : c.toLower.isAlpha = true := (isAlpha_toLower c).trans halpha
      simp [isTail, Char.isAlphanum, halpha, hlower]
  | false => rw [toLower_eq_self hupper]

/-- What holds of underscores and of all characters of a text in lower case holds of all
characters of its conversion. -/
theorem forall_mem_spellFrom
    {p : Char → Prop} (hbar : p '_') {text : List Char} (htext : ∀ c ∈ text, p c.toLower)
    (previous : Option Char) : ∀ c ∈ spellFrom previous text, p c := by
  induction text generalizing previous with
  | nil => simp [spellFrom]
  | cons d rest ih =>
      obtain ⟨hd, hrest⟩ := List.forall_mem_cons.mp htext
      rw [spellFrom]
      split
      · exact List.forall_mem_cons.mpr ⟨hbar, List.forall_mem_cons.mpr ⟨hd, ih hrest _⟩⟩
      · exact List.forall_mem_cons.mpr ⟨hd, ih hrest _⟩

/-- A converted text has no capitals. -/
theorem isUpper_eq_false_of_mem_snakeText
    {text : List Char} {c : Char} (hc : c ∈ snakeText text) : c.isUpper = false := by
  rw [snakeText_eq] at hc
  exact forall_mem_spellFrom (p := fun c => c.isUpper = false) rfl
    (fun d _ => isUpper_toLower d) none c hc

theorem all_isTail_spellFrom (text : List Char) (previous : Option Char) :
    (spellFrom previous text).all isTail = text.all isTail := by
  induction text generalizing previous with
  | nil => rfl
  | cons c rest ih =>
      have hbar : isTail '_' = true := rfl
      rw [spellFrom]
      split
      · rw [List.all_cons, List.all_cons, List.all_cons, ih, hbar, Bool.true_and, isTail_toLower]
      · rw [List.all_cons, List.all_cons, ih, isTail_toLower]

/-- A converted text is an identifier if and only if the text is one. -/
theorem isIdentifierText_snakeText (text : List Char) :
    isIdentifierText (snakeText text) = isIdentifierText text := by
  rw [snakeText_eq]
  cases text with
  | nil => rfl
  | cons c rest =>
      rw [spellFrom_none_cons, isIdentifierText, isIdentifierText, isHead_toLower,
        all_isTail_spellFrom]

theorem isIdentifier_snake (s : String) : isIdentifier (snake s) = isIdentifier s := by
  rw [isIdentifier, isIdentifier, snake, String.toList_ofList, isIdentifierText_snakeText]

/-- Every character of a converted identifier may stand in an identifier. -/
theorem isTail_of_mem_snakeText
    {text : List Char} (h : isIdentifierText text = true) {c : Char} (hc : c ∈ snakeText text) :
    isTail c = true :=
  isTail_of_mem ((isIdentifierText_snakeText text).trans h) hc

/-- A text without capitals is copied. -/
theorem spellFrom_eq_self
    {text : List Char} (h : ∀ c ∈ text, c.isUpper = false) (previous : Option Char) :
    spellFrom previous text = text := by
  induction text generalizing previous with
  | nil => rfl
  | cons c rest ih =>
      obtain ⟨hc, hrest⟩ := List.forall_mem_cons.mp h
      have hlower : c.toLower = c := toLower_eq_self hc
      rw [spellFrom, hc, Bool.false_and, if_neg Bool.false_ne_true, ih hrest, hlower]

theorem snakeText_snakeText (text : List Char) :
    snakeText (snakeText text) = snakeText text := by
  rw [snakeText_eq (snakeText text)]
  exact spellFrom_eq_self (fun _ hc => isUpper_eq_false_of_mem_snakeText hc) none

/-- The names that are in snake case already are those without capitals. -/
theorem snake_eq_self_iff {s : String} :
    snake s = s ↔ ∀ c ∈ s.toList, c.isUpper = false := by
  constructor
  · intro h c hc
    rw [← h, snake, String.toList_ofList] at hc
    exact isUpper_eq_false_of_mem_snakeText hc
  · intro h
    rw [snake, snakeText_eq, spellFrom_eq_self h, String.ofList_toList]

/-- A name in snake case is not changed by the conversion. -/
theorem snake_snake (s : String) : snake (snake s) = snake s := by
  simp only [snake, String.toList_ofList, snakeText_snakeText]

end Name

namespace Code

/-- A word holds no `#`. -/
theorem hash_not_mem_of_isWord {s : String} (h : isWord s = true) : '#' ∉ s.toList := by
  unfold isWord at h
  cases htext : s.toList with
  | nil => simp
  | cons c rest =>
      rw [htext, isWordText, Bool.and_eq_true, List.all_eq_true] at h
      intro hmem
      rcases List.mem_cons.mp hmem with rfl | hmem
      · exact absurd h.1 (by decide)
      · exact absurd (h.2 '#' hmem) (by decide)

theorem Word.ne_empty_of_spell_eq_ok
    {name : String} {w : Word} (h : Word.spell name = .ok w) : name ≠ "" := by
  rintro rfl
  simp [Word.spell] at h

/-- A name without `#` is spelled under its own name, raw if it is reserved. -/
theorem Word.eq_of_spell_eq_ok
    {name : String} {w : Word} (h : Word.spell name = .ok w) (hhash : '#' ∉ name.toList) :
    w = ⟨name, decide (name ∈ reservedWords)⟩ := by
  unfold Word.spell at h
  split at h
  · simp at h
  · split at h
    · exact (Except.ok.inj h).symm
    · -- The remaining case reads a raw spelling, whose second character is a `#`.
      have hraw : Word.ofRawSpelling? name.toList = none := by
        unfold Word.ofRawSpelling?
        split
        next rest heq => simp [heq] at hhash
        next => rfl
      rw [hraw] at h
      simp at h

end Code

/-- The module of a family is spelled under the name of its file. -/
theorem Family.name_of_spell_moduleName
    {f : Family} (hident : Name.isIdentifier f.name = true) {home : Code.Word}
    (h : Code.Word.spell f.moduleName = .ok home) : home.name = f.moduleName := by
  have hhash : '#' ∉ f.moduleName.toList := by
    intro hmem
    rw [Family.moduleName, Name.snake, String.toList_ofList] at hmem
    exact absurd (Name.isTail_of_mem_snakeText hident hmem) (by decide)
  rw [Code.Word.eq_of_spell_eq_ok h hhash]

end Treewright
