import Treewright.Descriptor.Document
import Treewright.Proofs.Spellable

/-!
# Grammars from documents

A grammar that is loaded from a document has read every node from a row, so no name in it is
one that cannot be spelled.  Whatever keeps a document from being loaded is reported.  So the
program stops without a report only at code that cannot be printed.
-/

namespace Treewright

theorem Row.parseAll_eq_mapM (lines : List String) : Row.parseAll lines = lines.mapM Row.parse := by
  induction lines with
  | nil => rfl
  | cons line rest ih =>
      rw [Row.parseAll, List.mapM_cons, ih]
      cases Row.parse line with
      | error fault => rfl
      | ok n =>
          cases rest.mapM Row.parse with
          | error fault => rfl
          | ok nodes => rfl

theorem Row.RowFault.not_isCrash {line : String} {fault : Fault} (h : Row.RowFault line fault) :
    fault.isCrash = false := by
  cases h with
  | missingSeparator | invalidClassName => rfl
  | notField _ _ _ _ _ hfault => cases hfault <;> rfl

namespace FamilyDescriptor

variable {d : FamilyDescriptor}

theorem exists_row_of_toFamily_eq_ok {f : Family} (h : d.toFamily = .ok f) {n : Node}
    (hn : n ∈ f.nodes) : ∃ line, Row.parse line = .ok n := by
  unfold toFamily at h
  rw [Row.parseAll_eq_mapM] at h
  cases hnodes : d.rows.mapM Row.parse with
  | error fault => simp [hnodes] at h
  | ok nodes =>
      rw [hnodes] at h
      obtain rfl := Except.ok.inj h
      obtain ⟨line, -, hline⟩ := exists_source_of_mem (mapM_eq_ok_iff.mp hnodes) hn
      exact ⟨line, hline⟩

theorem onlyFaults_toFamily (d : FamilyDescriptor) :
    OnlyFaults (fun fault => fault.isCrash = false) d.toFamily := by
  have hrows : OnlyFaults (fun fault => fault.isCrash = false) (d.rows.mapM Row.parse) :=
    onlyFaults_mapM fun line _ fault h => (Row.parse_eq_error_iff.mp h).not_isCrash
  unfold toFamily
  rw [Row.parseAll_eq_mapM]
  split
  next fault hfault => exact onlyFaults_error (hrows fault hfault)
  next => exact onlyFaults_ok

end FamilyDescriptor

namespace Descriptor

theorem readFamilies_eq_mapM (ds : List FamilyDescriptor) :
    readFamilies ds = ds.mapM FamilyDescriptor.toFamily := by
  induction ds with
  | nil => rfl
  | cons d rest ih =>
      rw [readFamilies, List.mapM_cons, ih]
      cases d.toFamily with
      | error fault => rfl
      | ok f =>
          cases rest.mapM FamilyDescriptor.toFamily with
          | error fault => rfl
          | ok families => rfl

theorem onlyFaults_toGrammar (d : Descriptor) :
    OnlyFaults (fun fault => fault.isCrash = false) d.toGrammar := by
  have hfamilies : OnlyFaults (fun fault => fault.isCrash = false)
      (d.families.mapM FamilyDescriptor.toFamily) :=
    onlyFaults_mapM fun f _ => f.onlyFaults_toFamily
  unfold toGrammar
  rw [readFamilies_eq_mapM]
  split
  next fault hfault => exact onlyFaults_error (hfamilies fault hfault)
  split
  · exact onlyFaults_error rfl
  · exact onlyFaults_ok

theorem fromRows_of_toGrammar_eq_ok {d : Descriptor} {g : Grammar} (h : d.toGrammar = .ok g) :
    g.FromRows := by
  unfold toGrammar at h
  rw [readFamilies_eq_mapM] at h
  cases hfamilies : d.families.mapM FamilyDescriptor.toFamily with
  | error fault => simp [hfamilies] at h
  | ok families =>
      rw [hfamilies] at h
      dsimp only at h
      split at h
      · simp at h
      obtain rfl := Except.ok.inj h
      intro f hf n hn
      obtain ⟨e, -, hfamily⟩ := exists_source_of_mem (mapM_eq_ok_iff.mp hfamilies) hf
      exact FamilyDescriptor.exists_row_of_toFamily_eq_ok hfamily hn

theorem onlyFaults_load (d : Descriptor) :
    OnlyFaults (fun fault => fault.isCrash = false) d.load := by
  unfold load
  split
  next fault hfault => exact onlyFaults_error (d.onlyFaults_toGrammar fault hfault)
  next g _ =>
    split
    next fault hfault =>
      obtain ⟨c, -, rfl⟩ := Grammar.validate_eq_error_iff.mp hfault
      exact onlyFaults_error (by cases c <;> rfl)
    next => exact onlyFaults_ok

theorem toGrammar_of_load_eq_ok {d : Descriptor} {g : Grammar} (h : d.load = .ok g) :
    d.toGrammar = .ok g := by
  unfold load at h
  split at h
  · simp at h
  next found hfound =>
    split at h
    · simp at h
    · rw [hfound, Except.ok.inj h]

end Descriptor

namespace Grammar

theorem fromRows_of_ofDocument_eq_ok {text : String} {g : Grammar}
    (h : ofDocument text = .ok g) : g.FromRows := by
  unfold ofDocument at h
  split at h
  · simp at h
  · exact Descriptor.fromRows_of_toGrammar_eq_ok (Descriptor.toGrammar_of_load_eq_ok h)

/-- Whatever is wrong with a document is reported. -/
theorem not_isCrash_of_ofDocument_eq_error {text : String} {fault : Fault}
    (h : ofDocument text = .error fault) : fault.isCrash = false := by
  unfold ofDocument at h
  split at h
  next found hparse =>
    obtain rfl := Except.error.inj h
    unfold Descriptor.parse at hparse
    split at hparse
    · simp at hparse
    · exact Except.error.inj hparse ▸ rfl
  next d _ => exact d.onlyFaults_load fault h

/-- A grammar that has been loaded is rendered, or a fault is reported, or there is code in a
file that cannot be printed. -/
theorem render_cases_of_ofDocument {text : String} {g : Grammar} (h : ofDocument text = .ok g) :
    (∃ files, g.render = .ok files) ∨
      (∃ fault, g.render = .error fault ∧ fault.isCrash = false) ∨
      ∃ file, g.render = .error (.unprintable file) := by
  cases hrender : g.render with
  | ok files => exact Or.inl ⟨files, rfl⟩
  | error fault =>
      refine Or.inr ?_
      cases fault with
      | unspellable name =>
          exact absurd hrender (render_ne_unspellable (fromRows_of_ofDocument_eq_ok h) name)
      | unprintable file => exact Or.inr ⟨file, rfl⟩
      | _ => exact Or.inl ⟨_, rfl, rfl⟩

end Grammar

end Treewright
