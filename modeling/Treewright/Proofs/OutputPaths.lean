import Treewright.Proofs.ExitCode

/-!
# Paths of written files

The files of a rendered grammar are named after the modules of its families, in the order in
which the families are written, and two more are there for every grammar.  Module names are
identifiers, validation tells them apart and keeps the two fixed ones free, and writing in
another order loses none of them.  Together this makes every path a plain name, and no two of
them are the same.

So putting the files into a directory changes nothing outside of it, and no file is written
over by a later one.
-/

namespace Treewright

namespace Path

/-- A plain name is a path of one part. -/
theorem IsPlain.parts_eq {name : String} (h : IsPlain name) : parts name = [name] := by
  have hname : name.toList ≠ [] := by simpa using h.ne_empty
  have hraw : rawParts name = [name] := by
    simp [rawParts, splitSlashes_of_not_mem h.slash_not_mem, hname]
  rw [parts, hraw]
  simp [h.ne_dot]

end Path

/-! ## Files in a directory -/

section Install

variable {files : List SourceFile} {m : Mishaps} {d : Disk} {dir : String}

/-- Files with plain names are put directly into the directory. -/
theorem exists_file_of_get?_installUnder_ne (hplain : ∀ f ∈ files, Path.IsPlain f.path)
    (hdistinct : (files.map (·.path)).Nodup) {p : Place}
    (hp : (installUnder m d dir files).disk.get? p ≠ d.get? p) :
    ∃ home, d.Opens dir home ∧ ∃ f ∈ files, p = home ++ [f.path] := by
  rcases installUnder_cases hplain hdistinct m d dir with
    ⟨home, hready, -, hreceived⟩ | ⟨-, -, hdisk | ⟨home, moved, hopens, hinitial, -, hreceived⟩⟩
  · refine ⟨home, hready.opens, ?_⟩
    by_contra hnone
    push Not at hnone
    exact hp (hreceived.others p hnone)
  · exact absurd (congrArg (Disk.get? · p) hdisk) hp
  · refine ⟨home, hopens, ?_⟩
    by_contra hnone
    push Not at hnone
    exact hp (hreceived.others p fun f hf => hnone f (hinitial.subset hf))

/-- Files with different plain names are all there after a run without a fault. -/
theorem exists_home_of_installUnder_eq_ok (hplain : ∀ f ∈ files, Path.IsPlain f.path)
    (hdistinct : (files.map (·.path)).Nodup) {targets : List String}
    (hdone : (installUnder m d dir files).outcome = .ok targets) :
    ∃ home, d.Opens dir home ∧ ∀ f ∈ files,
      (installUnder m d dir files).disk.get? (home ++ [f.path]) =
        some (.file f.content.toUTF8) := by
  rcases installUnder_cases hplain hdistinct m d dir with
    ⟨home, hready, -, hreceived⟩ | ⟨-, ⟨fault, hfault, -⟩, -⟩
  · exact ⟨home, hready.opens, hreceived.there⟩
  · rw [hfault] at hdone
    simp at hdone

end Install

namespace Grammar

theorem paths_in_emissionOrder {g : Grammar} {files : List SourceFile}
    (h : g.render = .ok files) :
    ∃ order, Linked.emissionOrder g = .ok order ∧
      files.map (·.path) =
        (order.map fun f => f.moduleName ++ ".rs") ++ ["visitor.rs", "mod.rs"] := by
  obtain ⟨l, hl, hpaths⟩ := paths_of_render h
  obtain ⟨-, -, -, order, horder, rfl⟩ := link_eq_ok_iff_stages.mp hl
  refine ⟨order, horder, ?_⟩
  rw [hpaths, List.map_append, List.map_map]
  rfl

/-- The files of a rendered grammar are those of its families in writing order, then the one
of the visitor and the one of the enclosing module.  Their paths are plain names and all
different.  Hence a run changes nothing but places directly in the output directory, whatever
goes wrong on the way, and after a run without a fault each of these places has the content of
its own file. -/
theorem render_paths_plain_and_distinct {g : Grammar} {files : List SourceFile}
    (h : g.render = .ok files) :
    (∃ order, Linked.emissionOrder g = .ok order ∧
      files.map (·.path) =
        (order.map fun f => f.moduleName ++ ".rs") ++ ["visitor.rs", "mod.rs"]) ∧
    (files.map (·.path)).Nodup ∧
    (∀ f ∈ files, Path.IsPlain f.path ∧ Path.parts f.path = [f.path] ∧
      Path.isAbsolute f.path = false) ∧
    ∀ (m : Mishaps) (d : Disk) (dir : String),
      (∀ p, (installUnder m d dir files).disk.get? p ≠ d.get? p →
        ∃ home, d.Opens dir home ∧ ∃ f ∈ files, p = home ++ [f.path]) ∧
      ∀ targets, (installUnder m d dir files).outcome = .ok targets →
        ∃ home, d.Opens dir home ∧ ∀ f ∈ files,
          (installUnder m d dir files).disk.get? (home ++ [f.path]) =
            some (.file f.content.toUTF8) := by
  have hplain : ∀ f ∈ files, Path.IsPlain f.path := fun f hf => isPlain_of_render h hf
  have hdistinct := paths_nodup_of_render h
  refine ⟨paths_in_emissionOrder h, hdistinct, fun f hf => ?_, fun m d dir => ⟨?_, ?_⟩⟩
  · exact ⟨hplain f hf, (hplain f hf).parts_eq, (hplain f hf).isAbsolute_eq_false⟩
  · exact fun p hp => exists_file_of_get?_installUnder_ne hplain hdistinct hp
  · exact fun targets hdone => exists_home_of_installUnder_eq_ok hplain hdistinct hdone

/-- Families with modules that are close to the fixed ones and to a reserved word, declared
against the order in which they are written. -/
def nearReserved : Grammar :=
  { name := "Near"
    families := [⟨"ModVisitor", [⟨"Run", []⟩], some "Type"⟩, ⟨"VISITOR2", [⟨"See", []⟩], none⟩,
      ⟨"Type", [⟨"Unit", []⟩], none⟩] }

theorem render_paths_plain_and_distinct_nearReserved :
    ∃ files, nearReserved.render = .ok files ∧
      files.map (·.path) =
        ["type.rs", "mod_visitor.rs", "visitor2.rs", "visitor.rs", "mod.rs"] ∧
      (files.map (·.path)).Nodup ∧ ∀ f ∈ files, Path.IsPlain f.path := by
  have hevaluated : ∃ drafts, nearReserved.drafts = .ok drafts ∧ drafts.map (·.path) =
      ["type.rs", "mod_visitor.rs", "visitor2.rs", "visitor.rs", "mod.rs"] :=
    exists_drafts_of_any (by decide +kernel)
  obtain ⟨drafts, hdrafts, hpaths⟩ := hevaluated
  have hrender := render_eq_ok_of_drafts hdrafts
  obtain ⟨-, hdistinct, hplain, -⟩ := render_paths_plain_and_distinct hrender
  refine ⟨_, hrender, ?_, hdistinct, fun f hf => (hplain f hf).1⟩
  rw [← hpaths, List.map_map]
  rfl

end Grammar

end Treewright
