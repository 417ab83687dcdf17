import Treewright.CommandLine
import Treewright.Proofs.Loading
import Treewright.Proofs.Replacement

/-!
# What the code of a run says

A run comes to one of four ends.  The grammar is faulty, and nothing has been written; its
files hold code that cannot be printed, and nothing has been written either; all files have
been written; or something else went wrong, and the files before the first one that could not
be replaced have been written, if any.  The four ends have different codes.  So the code and
the disk before the run say what has happened to the disk.

Each of the steps may fail for reasons that the disk does not show, and so everything is said
for any mishaps.
-/

namespace Treewright

/-! ## Sources -/

namespace Source

/-- The text of a source: of the built-in document, or of the file at a path if it can be
read and is text. -/
def text? (s : Source) (m : Mishaps) (d : Disk) : Option String :=
  match s with
  | embedded => some embeddedDocument
  | file path =>
    match d.readUnder m path with
    | .ok content => String.fromUTF8? content
    | .error _ => none

/-- What comes of loading and rendering the grammar of a source that has a text. -/
def rendered? (s : Source) (m : Mishaps) (d : Disk) : Option (Except Fault (List SourceFile)) :=
  (s.text? m d).map fun text => Grammar.ofDocument text >>= Grammar.render

/-- There is a text, and a fault in its grammar is found and reported. -/
def Faulty (s : Source) (m : Mishaps) (d : Disk) : Prop :=
  ∃ fault, s.rendered? m d = some (.error fault) ∧ fault.isCrash = false

/-- There is a text, and the files of its grammar hold code that cannot be printed. -/
def Crashes (s : Source) (m : Mishaps) (d : Disk) : Prop :=
  ∃ file, s.rendered? m d = some (.error (.unprintable file))

/-- There is a text, and its grammar is rendered to the files. -/
def Renders (s : Source) (m : Mishaps) (d : Disk) (files : List SourceFile) : Prop :=
  s.rendered? m d = some (.ok files)

variable {s : Source} {m : Mishaps} {d : Disk} {files : List SourceFile}

theorem Renders.unique {files' : List SourceFile} (h : s.Renders m d files)
    (h' : s.Renders m d files') : files = files' :=
  Except.ok.inj (Option.some.inj (h.symm.trans h'))

theorem cases (s : Source) (m : Mishaps) (d : Disk) :
    s.text? m d = none ∨ s.Faulty m d ∨ s.Crashes m d ∨ ∃ files, s.Renders m d files := by
  cases htext : s.text? m d with
  | none => exact Or.inl rfl
  | some text =>
      have hrendered : s.rendered? m d = some (Grammar.ofDocument text >>= Grammar.render) := by
        rw [rendered?, htext, Option.map_some]
      unfold Faulty Crashes Renders
      simp only [hrendered, Option.some.injEq]
      refine Or.inr ?_
      cases hg : Grammar.ofDocument text with
      | error fault =>
          exact Or.inl ⟨fault, rfl, Grammar.not_isCrash_of_ofDocument_eq_error hg⟩
      | ok g =>
          rcases Grammar.render_cases_of_ofDocument hg with hfiles | hfault | hcrash
          · exact Or.inr (Or.inr hfiles)
          · exact Or.inl hfault
          · exact Or.inr (Or.inl hcrash)

end Source

namespace Disk

variable {m : Mishaps} {d : Disk} {dir : String} {home : Place} {files : List SourceFile}

/-- Every file can be staged and moved into the directory, which the path `dir` leads to. -/
structure Ready (m : Mishaps) (d : Disk) (dir : String) (home : Place)
    (files : List SourceFile) : Prop where
  opens : d.Opens dir home
  staged : ∀ j < files.length, Install.hindrance? m d home dir j = none
  moved : ∀ f j, (f, j) ∈ files.zipIdx → Install.refusalUnder? m j d home dir f.path = none

/-- The files have been put into the directory at `home`, and nothing else has changed. -/
structure Received (before after : Disk) (dir : String) (home : Place) (files : List SourceFile) :
    Prop where
  read : ∀ f ∈ files, after.read (Path.join dir f.path) = .ok f.content.toUTF8
  there : ∀ f ∈ files, after.get? (home ++ [f.path]) = some (.file f.content.toUTF8)
  others : ∀ p, (∀ f ∈ files, p ≠ home ++ [f.path]) → after.get? p = before.get? p
  locked : after.locked = before.locked

theorem received_put (hopens : d.Opens dir home) (hplain : ∀ f ∈ files, Path.IsPlain f.path)
    (hdistinct : (files.map (·.path)).Nodup)
    (haccepts : ∀ f ∈ files, d.refusal? home dir f.path = none) :
    Received d (put home d files) dir home files where
  read f hf := by
    obtain ⟨hpath, hsize, -⟩ := refusal?_eq_none_iff.mp (haccepts f hf)
    have hopens' := (sameDirectories_put haccepts).opens hopens
    exact hopens'.read_join (hplain f hf) hpath hsize (get?_put hdistinct hf)
  there _ hf := get?_put hdistinct hf
  others _ hp := get?_put_of_forall_ne hp
  locked := (sameDirectories_put haccepts).locked_eq

end Disk

open Install Disk

theorem StagingMishap.grammarFault?_fault (mishap : StagingMishap) (target dir : String) :
    (mishap.fault target dir).grammarFault? = none := by
  cases mishap <;> rfl

/-- Files with plain names are all put in place when the disk is ready for them.  Otherwise
some of the first ones are, and the fault is not one of the grammar. -/
theorem installUnder_cases {files : List SourceFile} (hplain : ∀ f ∈ files, Path.IsPlain f.path)
    (hdistinct : (files.map (·.path)).Nodup) (m : Mishaps) (d : Disk) (dir : String) :
    (∃ home, d.Ready m dir home files ∧
      (∃ targets, (installUnder m d dir files).outcome = .ok targets) ∧
      Received d (installUnder m d dir files).disk dir home files) ∨
    (¬∃ home, d.Ready m dir home files) ∧
      (∃ fault, (installUnder m d dir files).outcome = .error fault ∧
        fault.grammarFault? = none) ∧
      ((installUnder m d dir files).disk = d ∨ ∃ home moved, d.Opens dir home ∧
        moved <+: files ∧ moved ≠ files ∧
        Received d (installUnder m d dir files).disk dir home moved) := by
  by_cases hopens : ∃ home, d.Opens dir home
  · obtain ⟨home, hopens⟩ := hopens
    have hunique : ∀ home', d.Ready m dir home' files → home' = home := fun home' hready =>
      Except.ok.inj (hready.opens.located.symm.trans hopens.located)
    rcases hindrance_cases m d home dir files with
      hfree | ⟨first, f, later, mishap, rfl, hfirst, hmishap⟩
    · rw [installUnder_eq_replaceAll hopens hfree, replaceAll_eq hopens hplain]
      have hinitial : accepted m 0 d home dir files <+: files := accepted_initial
      have hreceived := received_put hopens (fun f hf => hplain f (hinitial.subset hf))
        (hdistinct.sublist (hinitial.sublist.map _)) fun f hf => refusal?_of_mem_accepted hf
      cases hrefused : firstRefusal? m 0 d home dir files with
      | none =>
          rw [accepted_eq_self_of_firstRefusal? hrefused] at hreceived ⊢
          exact Or.inl ⟨home, ⟨hopens, hfree, firstRefusal?_eq_none_iff.mp hrefused⟩, ⟨_, rfl⟩,
            hreceived⟩
      | some fault =>
          obtain ⟨target, cause, rfl⟩ := exists_of_firstRefusal?_eq_some hrefused
          refine Or.inr ⟨?_, ⟨_, rfl, rfl⟩, Or.inr ⟨home, _, hopens, hinitial,
            accepted_ne_self_of_firstRefusal? hrefused, hreceived⟩⟩
          rintro ⟨home', hready⟩
          obtain rfl := hunique home' hready
          exact absurd (firstRefusal?_eq_none_iff.mpr hready.moved) (by simp [hrefused])
    · rw [installUnder_of_mishap hopens hfirst hmishap]
      refine Or.inr ⟨?_, ⟨_, rfl, mishap.grammarFault?_fault _ dir⟩, Or.inl rfl⟩
      rintro ⟨home', hready⟩
      obtain rfl := hunique home' hready
      exact absurd (hready.staged first.length (by simp)) (by simp [hmishap])
  · rw [installUnder_of_not_opens (not_exists.mp hopens)]
    refine Or.inr ⟨?_, ⟨_, rfl, rfl⟩, Or.inl rfl⟩
    rintro ⟨home, hready⟩
    exact hopens ⟨home, hready.opens⟩

/-! ## Runs -/

variable {s : Source} {m : Mishaps} {d : Disk} {dir : String}

/-- How a run into `dir` ends, with a code and the disk that it leaves behind. -/
inductive Ends (m : Mishaps) (d : Disk) (s : Source) (dir : String) : Nat → Disk → Prop
  | faulty (h : s.Faulty m d) : Ends m d s dir CommandLine.faultyGrammar d
  | crashed (h : s.Crashes m d) : Ends m d s dir CommandLine.crashed d
  | done {files : List SourceFile} {home : Place} {after : Disk} (hfiles : s.Renders m d files)
      (hready : d.Ready m dir home files) (hreceived : d.Received after dir home files) :
      Ends m d s dir CommandLine.done after
  | unchanged (hfaulty : ¬s.Faulty m d) (hcrash : ¬s.Crashes m d)
      (hready : ∀ files, s.Renders m d files → ¬∃ home, d.Ready m dir home files) :
      Ends m d s dir CommandLine.failedDisk d
  | partWay {files moved : List SourceFile} {home : Place} {after : Disk}
      (hfiles : s.Renders m d files) (hready : ¬∃ home, d.Ready m dir home files)
      (hopens : d.Opens dir home) (hinitial : moved <+: files) (hne : moved ≠ files)
      (hreceived : d.Received after dir home moved) :
      Ends m d s dir CommandLine.failedDisk after

namespace Ends

variable {code : Nat} {after : Disk}

theorem otherwise (h : Ends m d s dir code after) (hfaulty : code ≠ CommandLine.faultyGrammar)
    (hcrash : code ≠ CommandLine.crashed) (hdone : code ≠ CommandLine.done) :
    code = CommandLine.failedDisk ∧
      (after = d ∨ ∃ files moved home, s.Renders m d files ∧ d.Opens dir home ∧
        moved <+: files ∧ moved ≠ files ∧ d.Received after dir home moved) := by
  cases h with
  | faulty => exact absurd rfl hfaulty
  | crashed => exact absurd rfl hcrash
  | done => exact absurd rfl hdone
  | unchanged => exact ⟨rfl, Or.inl rfl⟩
  | partWay hfiles _ hopens hinitial hne hreceived =>
      exact ⟨rfl, Or.inr ⟨_, _, _, hfiles, hopens, hinitial, hne, hreceived⟩⟩

end Ends

namespace CommandLine

end CommandLine

end Treewright
