import Mathlib.Data.List.TakeWhile
import Treewright.Name
import Treewright.Text.Blank

/-!
# Blanks around words

Trimming cuts a text into blanks, a middle part that neither starts nor ends with a blank,
and blanks again.  There is only one such middle part, so what trimming gives is known as
soon as one is found.  Identifiers have no blanks at all.
-/

namespace Treewright

namespace Text

/-- A text of blanks alone, the empty one included. -/
def Blanks (s : List Char) : Prop :=
  ∀ c ∈ s, isBlank c = true

/-- No blank stands at either end of the text. -/
def IsTrimmed (s : List Char) : Prop :=
  (∀ c ∈ s.head?, isBlank c = false) ∧ ∀ c ∈ s.getLast?, isBlank c = false

@[simp] theorem blanks_nil : Blanks [] :=
  fun _ h => False.elim (List.not_mem_nil h)

@[simp] theorem blanks_append_iff {s t : List Char} :
    Blanks (s ++ t) ↔ Blanks s ∧ Blanks t := by
  simp only [Blanks, List.forall_mem_append]

theorem IsTrimmed.front_eq_nil
    {a s : List Char} (h : IsTrimmed (a ++ s)) (ha : Blanks a) : a = [] := by
  cases a with
  | nil => rfl
  | cons c a =>
      have hblank := ha c List.mem_cons_self
      rw [h.1 c rfl] at hblank
      simp at hblank

theorem IsTrimmed.back_eq_nil
    {s b : List Char} (h : IsTrimmed (s ++ b)) (hb : Blanks b) : b = [] := by
  rcases List.eq_nil_or_concat b with rfl | ⟨b, c, rfl⟩
  · rfl
  · have hblank := hb c (by simp)
    rw [h.2 c (by simp)] at hblank
    simp at hblank

/-! ## Trimming -/

theorem trimStart_append {a s : List Char} (ha : Blanks a) :
    trimStart (a ++ s) = trimStart s :=
  List.dropWhile_append_of_pos ha

theorem trimStart_eq_self {s : List Char} (h : ∀ c ∈ s.head?, isBlank c = false) :
    trimStart s = s := by
  cases s with
  | nil => rfl
  | cons c rest =>
      have hc : isBlank c = false := h c rfl
      rw [trimStart, List.dropWhile_cons, hc]
      rfl

theorem exists_blanks_trimStart (s : List Char) : ∃ a, Blanks a ∧ s = a ++ trimStart s :=
  ⟨s.takeWhile isBlank, fun _ hc => List.mem_takeWhile_imp hc,
    List.takeWhile_append_dropWhile.symm⟩

theorem isBlank_eq_false_of_mem_head?_trimStart
    {s : List Char} {c : Char} (hc : c ∈ (trimStart s).head?) : isBlank c = false := by
  have hhead := List.head?_dropWhile_not isBlank s
  rw [trimStart] at hc
  rw [Option.mem_def.mp hc] at hhead
  exact hhead

theorem trimEnd_eq (s : List Char) : trimEnd s = (trimStart s.reverse).reverse := rfl

theorem trim_append
    {a s b : List Char} (ha : Blanks a) (hs : IsTrimmed s) (hb : Blanks b) :
    trim (a ++ s ++ b) = s := by
  obtain ⟨hfirst, hlast⟩ := hs
  have hback : Blanks b.reverse := fun c hc => hb c (List.mem_reverse.mp hc)
  have hend : trimEnd (s ++ b) = s := by
    rw [trimEnd_eq, List.reverse_append, trimStart_append hback, trimStart_eq_self,
      List.reverse_reverse]
    rwa [List.head?_reverse]
  rw [trim, List.append_assoc, trimStart_append ha]
  cases s with
  | nil =>
      rw [List.nil_append] at hend ⊢
      rw [trimStart, List.dropWhile_eq_nil_iff.mpr hb]
      rfl
  | cons c rest =>
      rw [trimStart_eq_self]
      · exact hend
      · exact hfirst

theorem exists_blanks_trim (s : List Char) :
    ∃ a b, Blanks a ∧ Blanks b ∧ s = a ++ trim s ++ b := by
  obtain ⟨a, ha, hfront⟩ := exists_blanks_trimStart s
  obtain ⟨b, hb, hback⟩ := exists_blanks_trimStart (trimStart s).reverse
  refine ⟨a, b.reverse, ha, fun c hc => hb c (List.mem_reverse.mp hc), ?_⟩
  have hsplit := congrArg List.reverse hback
  rw [List.reverse_reverse, List.reverse_append, ← trimEnd_eq] at hsplit
  rw [trim, List.append_assoc, ← hsplit]
  exact hfront

theorem isTrimmed_trim (s : List Char) : IsTrimmed (trim s) := by
  constructor
  · intro c hc
    obtain ⟨b, -, hback⟩ := exists_blanks_trimStart (trimStart s).reverse
    have hsplit := congrArg List.reverse hback
    rw [List.reverse_reverse, List.reverse_append, ← trimEnd_eq] at hsplit
    apply isBlank_eq_false_of_mem_head?_trimStart (s := s)
    rw [trim] at hc
    rw [hsplit, List.head?_append, Option.mem_def.mp hc]
    rfl
  · intro c hc
    rw [trim, trimEnd_eq, List.getLast?_reverse] at hc
    exact isBlank_eq_false_of_mem_head?_trimStart hc

end Text

/-! ## Identifiers -/

namespace Name

/-- The text goes on with something that does not belong to an identifier. -/
def EndsWord (rest : List Char) : Prop :=
  ∀ c ∈ rest.head?, isTail c = false

theorem isUpper_iff_toNat {c : Char} : c.isUpper = true ↔ 65 ≤ c.toNat ∧ c.toNat ≤ 90 :=
  decide_eq_true_iff

theorem isLower_iff_toNat {c : Char} : c.isLower = true ↔ 97 ≤ c.toNat ∧ c.toNat ≤ 122 :=
  Bool.and_eq_true_iff.trans (and_congr decide_eq_true_iff decide_eq_true_iff)

theorem toNat_of_isTail {c : Char} (h : isTail c = true) : 48 ≤ c.toNat ∧ c.toNat ≤ 122 := by
  rcases Bool.or_eq_true_iff.mp h with hword | hbar
  · rcases Bool.or_eq_true_iff.mp hword with halpha | hdigit
    · rcases Bool.or_eq_true_iff.mp halpha with hupper | hlower
      · have hrange := isUpper_iff_toNat.mp hupper
        omega
      · have hrange := isLower_iff_toNat.mp hlower
        omega
    · obtain ⟨hge, hle⟩ := Char.isDigit_iff_toNat.mp hdigit
      change 48 ≤ c.toNat at hge
      change c.toNat ≤ 57 at hle
      omega
  · obtain rfl : c = '_' := beq_iff_eq.mp hbar
    decide

/-- No blank lies between the first digit and the last letter. -/
theorem isBlank_eq_false_of_isTail {c : Char} (h : isTail c = true) :
    Text.isBlank c = false := by
  have hrange := toNat_of_isTail h
  simp only [Text.isBlank, Bool.or_eq_false_iff, Bool.and_eq_false_iff, decide_eq_false_iff_not,
    beq_eq_false_iff_ne]
  omega

theorem isTail_eq_false_of_isBlank {c : Char} (h : Text.isBlank c = true) : isTail c = false := by
  by_contra htail
  rw [isBlank_eq_false_of_isTail (by simpa using htail)] at h
  simp at h

theorem isTail_of_isHead {c : Char} (h : isHead c = true) : isTail c = true := by
  simp only [isHead, Bool.or_eq_true] at h
  rcases h with halpha | hbar
  · simp [isTail, Char.isAlphanum, halpha]
  · simp [isTail, hbar]

theorem isTail_of_mem {s : List Char} (h : isIdentifierText s = true) {c : Char} (hc : c ∈ s) :
    isTail c = true := by
  cases s with
  | nil => simp at hc
  | cons first rest =>
      rw [isIdentifierText, Bool.and_eq_true, List.all_eq_true] at h
      rcases List.mem_cons.mp hc with rfl | hc
      · exact isTail_of_isHead h.1
      · exact h.2 c hc

theorem ne_nil_of_isIdentifierText {s : List Char} (h : isIdentifierText s = true) : s ≠ [] := by
  rintro rfl
  simp [isIdentifierText] at h

theorem isTrimmed_of_isIdentifierText
    {s : List Char} (h : isIdentifierText s = true) : Text.IsTrimmed s :=
  ⟨fun _ hc => isBlank_eq_false_of_isTail (isTail_of_mem h (List.mem_of_mem_head? hc)),
    fun _ hc => isBlank_eq_false_of_isTail (isTail_of_mem h (List.mem_of_getLast? hc))⟩

theorem takeWhile_isTail_append
    {s rest : List Char} (hs : ∀ c ∈ s, isTail c = true) (hrest : EndsWord rest) :
    (s ++ rest).takeWhile isTail = s := by
  rw [List.takeWhile_append_of_pos hs]
  cases rest with
  | nil => simp
  | cons c rest =>
      have hc : isTail c = false := hrest c rfl
      simp [hc]

theorem dropWhile_isTail_append
    {s rest : List Char} (hs : ∀ c ∈ s, isTail c = true) (hrest : EndsWord rest) :
    (s ++ rest).dropWhile isTail = rest := by
  rw [List.dropWhile_append_of_pos hs]
  cases rest with
  | nil => rfl
  | cons c rest =>
      have hc : isTail c = false := hrest c rfl
      simp [hc]

theorem endsWord_dropWhile_isTail (s : List Char) : EndsWord (s.dropWhile isTail) := by
  intro c hc
  have hhead := List.head?_dropWhile_not isTail s
  rw [Option.mem_def.mp hc] at hhead
  exact hhead

end Name

end Treewright
