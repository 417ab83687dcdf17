import Mathlib.Data.List.Forall2
import Treewright.Fault

/-!
# Outcomes in sequence

Most of the library builds its results step by step and stops at the first fault.  These
lemmas take a successful outcome apart: the steps of a sequence have all succeeded, and a
list of results has one member for each source.  A member is found again by its key.
-/

namespace Treewright

theorem bind_eq_ok_iff
    {ε α β : Type} {x : Except ε α} {next : α → Except ε β} {b : β} :
    (x >>= next) = .ok b ↔ ∃ a, x = .ok a ∧ next a = .ok b := by
  cases x with
  | error fault => simp [bind, Except.bind]
  | ok a => simp [bind, Except.bind]

/-- A list is built when all of its members are, one for each source. -/
theorem mapM_eq_ok_iff
    {α β : Type} {build : α → Except Fault β} {sources : List α} {built : List β} :
    sources.mapM build = .ok built ↔
      List.Forall₂ (fun source b => build source = .ok b) sources built := by
  induction sources generalizing built with
  | nil =>
      rw [List.mapM_nil, List.forall₂_nil_left_iff]
      exact ⟨fun h => (Except.ok.inj h).symm, fun h => h ▸ rfl⟩
  | cons source rest ih =>
      rw [List.mapM_cons, List.forall₂_cons_left_iff, bind_eq_ok_iff]
      constructor
      · rintro ⟨b, hb, h⟩
        obtain ⟨tail, htail, h⟩ := bind_eq_ok_iff.mp h
        exact ⟨b, tail, hb, ih.mp htail, (Except.ok.inj h).symm⟩
      · rintro ⟨b, tail, hb, htail, rfl⟩
        exact ⟨b, hb, bind_eq_ok_iff.mpr ⟨tail, ih.mpr htail, rfl⟩⟩

/-- Only what is built from the sources matters. -/
theorem mapM_congr
    {α β : Type} {build build' : α → Except Fault β} {sources : List α}
    (h : ∀ a ∈ sources, build a = build' a) : sources.mapM build = sources.mapM build' := by
  induction sources with
  | nil => rfl
  | cons a rest ih =>
      obtain ⟨ha, hrest⟩ := List.forall_mem_cons.mp h
      rw [List.mapM_cons, List.mapM_cons, ha, ih hrest]

theorem exists_source_of_mem
    {α β : Type} {R : α → β → Prop} {sources : List α} {built : List β}
    (h : List.Forall₂ R sources built) {b : β} (hb : b ∈ built) : ∃ a ∈ sources, R a b := by
  induction h with
  | nil => exact False.elim (List.not_mem_nil hb)
  | cons hab _ ih =>
      rcases List.mem_cons.mp hb with rfl | hb
      · exact ⟨_, List.mem_cons_self, hab⟩
      · obtain ⟨a, ha, hR⟩ := ih hb
        exact ⟨a, List.mem_cons_of_mem _ ha, hR⟩

theorem exists_built_of_mem
    {α β : Type} {R : α → β → Prop} {sources : List α} {built : List β}
    (h : List.Forall₂ R sources built) {a : α} (ha : a ∈ sources) : ∃ b ∈ built, R a b :=
  exists_source_of_mem h.flip ha

/-- The member built from a source stands at the position of the source. -/
theorem exists_getElem?_of_forall₂
    {α β : Type} {R : α → β → Prop} {sources : List α} {built : List β}
    (h : List.Forall₂ R sources built) {i : ℕ} {a : α} (ha : sources[i]? = some a) :
    ∃ b, built[i]? = some b ∧ R a b := by
  induction h generalizing i with
  | nil => simp at ha
  | @cons source b _ _ hab _ ih =>
      cases i with
      | zero =>
          obtain rfl : source = a := by simpa using ha
          exact ⟨b, rfl, hab⟩
      | succ i => exact ih ha

/-- A list can be built when each of its members can. -/
theorem exists_mapM_eq_ok_iff
    {α β : Type} {build : α → Except Fault β} {sources : List α} :
    (∃ built, sources.mapM build = .ok built) ↔ ∀ a ∈ sources, ∃ b, build a = .ok b := by
  constructor
  · rintro ⟨built, h⟩ a ha
    obtain ⟨b, -, hb⟩ := exists_built_of_mem (mapM_eq_ok_iff.mp h) ha
    exact ⟨b, hb⟩
  · intro h
    induction sources with
    | nil => exact ⟨[], rfl⟩
    | cons a rest ih =>
        obtain ⟨⟨b, hb⟩, hrest⟩ := List.forall_mem_cons.mp h
        obtain ⟨tail, htail⟩ := ih hrest
        exact ⟨b :: tail, mapM_eq_ok_iff.mpr (.cons hb (mapM_eq_ok_iff.mp htail))⟩

/-- What is seen of each built member is determined by its source. -/
theorem map_eq_map_of_forall₂
    {α β γ : Type} {R : α → β → Prop} {sources : List α} {built : List β} {view : β → γ}
    {seen : α → γ} (h : List.Forall₂ R sources built)
    (hseen : ∀ a ∈ sources, ∀ b, R a b → view b = seen a) :
    built.map view = sources.map seen := by
  induction h with
  | nil => rfl
  | @cons a b _ _ hab _ ih =>
      have hrest := ih fun c hc => hseen c (List.mem_cons_of_mem a hc)
      rw [List.map_cons, List.map_cons, hseen a List.mem_cons_self b hab, hrest]

theorem flatMap_eq_flatMap_of_forall₂
    {α β γ : Type} {R : α → β → Prop} {sources : List α} {built : List β}
    {view : β → List γ} {seen : α → List γ} (h : List.Forall₂ R sources built)
    (hseen : ∀ a ∈ sources, ∀ b, R a b → view b = seen a) :
    built.flatMap view = sources.flatMap seen :=
  congrArg List.flatten (map_eq_map_of_forall₂ h hseen)

/-- Built members that are paired with something of their sources. -/
theorem forall₂_zip_map
    {α β γ : Type} {R : α → β → Prop} {sources : List α} {built : List β}
    (h : List.Forall₂ R sources built) (key : α → γ) :
    List.Forall₂ (fun a p => R a p.1 ∧ p.2 = key a) sources (built.zip (sources.map key)) := by
  induction h with
  | nil => exact .nil
  | cons hab _ ih => exact .cons ⟨hab, rfl⟩ ih

theorem guarded_eq_ok_iff
    {α : Type} {c : Prop} [Decidable c] {a b : α} {fault : Fault} :
    (if c then Except.ok a else .error fault) = .ok b ↔ c ∧ b = a := by
  by_cases hc : c
  · rw [if_pos hc]
    exact ⟨fun h => ⟨hc, (Except.ok.inj h).symm⟩, fun h => h.2 ▸ rfl⟩
  · simp [hc]

/-- Among members with different keys there is one under each key. -/
theorem filter_key_eq_singleton
    {α : Type} {key : α → String} {members : List α} (hkeys : (members.map key).Nodup) {a : α}
    (ha : a ∈ members) : (members.filter fun b => key b == key a) = [a] := by
  induction members with
  | nil => exact False.elim (List.not_mem_nil ha)
  | cons b rest ih =>
      rw [List.map_cons, List.nodup_cons] at hkeys
      obtain ⟨hb, hrest⟩ := hkeys
      rcases List.mem_cons.mp ha with rfl | ha
      · have hnone : (rest.filter fun c => key c == key a) = [] := by
          rw [List.filter_eq_nil_iff]
          intro c hc hkey
          exact hb (List.mem_map.mpr ⟨c, hc, by simpa using hkey⟩)
        rw [List.filter_cons, if_pos (by simp), hnone]
      · have hne : ¬(key b == key a) = true := by
          intro hkey
          exact hb (List.mem_map.mpr ⟨a, ha, (by simpa using hkey : key b = key a).symm⟩)
        rw [List.filter_cons, if_neg hne, ih hrest ha]

end Treewright
