import Treewright.Proofs.Replacement

/-!
# Effect of putting files in place

Any step of putting files in place can fail.  Where the staging of a file fails, the disk is
as it was.  Otherwise the files are moved in order up to the first move that fails on the disk
that the earlier moves have left, and only the places where the moved files end have changed.

The paths of the files are arbitrary: two of them can end at the same place, and the later file
is then the one that is found there.
-/

namespace Treewright

namespace Disk

variable {d d' : Disk} {path : String} {p : Place}

/-- The path ends at the place, in a directory. -/
def EndsAt (d : Disk) (path : String) (p : Place) : Prop :=
  ∃ target, d.destination path = .ok target ∧ target.place = p

namespace SameDirectories

theorem symm (h : SameDirectories d d') : SameDirectories d' d :=
  ⟨fun p => (h.holdsDirectory_eq p).symm, h.locked_eq.symm⟩

theorem destination {target : Destination} (h : SameDirectories d d')
    (hpath : d.destination path = .ok target) : d'.destination path = .ok target :=
  destination_of_directories (fun p hp => (h.holdsDirectory_eq p).trans hp) hpath

theorem endsAt_iff (h : SameDirectories d d') : d'.EndsAt path p ↔ d.EndsAt path p := by
  constructor
  · rintro ⟨target, hpath, hplace⟩
    exact ⟨target, h.symm.destination hpath, hplace⟩
  · rintro ⟨target, hpath, hplace⟩
    exact ⟨target, h.destination hpath, hplace⟩

theorem lands {target : Destination} (h : SameDirectories d d') (hpath : d.Lands path target) :
    d'.Lands path target where
  destination := h.destination hpath.destination
  isDots_eq_false := hpath.isDots_eq_false
  slash_eq_false := hpath.slash_eq_false
  size_le := hpath.size_le
  holdsDirectory_eq_false := (h.holdsDirectory_eq _).trans hpath.holdsDirectory_eq_false

end SameDirectories

theorem Lands.endsAt {target : Destination} (h : d.Lands path target) :
    d.EndsAt path target.place :=
  ⟨target, h.destination, rfl⟩

theorem Lands.place_eq_of_endsAt {target : Destination} (h : d.Lands path target)
    (hp : d.EndsAt path p) : target.place = p := by
  obtain ⟨target', hpath, rfl⟩ := hp
  rw [Except.ok.inj (h.destination.symm.trans hpath)]

theorem Lands.sameDirectories_set {target : Destination} (h : d.Lands path target)
    (content : ByteArray) : SameDirectories d (d.set target.place (.file content)) :=
  Disk.sameDirectories_set target.place_ne_nil h.holdsDirectory_eq_false content

/-- From one disk to the other, files have been moved to their targets.  What was moved last to
a place is there and is read there, and nothing is different at any other place.  So there are
no entries but the old ones and those of the targets: no staging file is left. -/
structure Overwritten (before after : Disk) (dir : String) (moved : List SourceFile) : Prop where
  ends : ∀ f ∈ moved, ∃ p, before.EndsAt (Path.join dir f.path) p
  contents : ∀ first f later p, moved = first ++ f :: later →
    before.EndsAt (Path.join dir f.path) p →
    (∀ g ∈ later, ¬before.EndsAt (Path.join dir g.path) p) →
    after.get? p = some (.file f.content.toUTF8) ∧
      after.read (Path.join dir f.path) = .ok f.content.toUTF8
  others : ∀ p, (∀ f ∈ moved, ¬before.EndsAt (Path.join dir f.path) p) →
    after.get? p = before.get? p
  entries : ∀ entry ∈ after.entries, entry ∈ before.entries ∨
    ∃ f ∈ moved, before.EndsAt (Path.join dir f.path) entry.1
  locked : after.locked = before.locked

end Disk

namespace Install

open Disk (SameDirectories)

variable {m : Mishaps} {home p : Place} {dir : String} {i : Nat} {d d' after : Disk}
  {f : SourceFile} {moved files : List SourceFile}

/-! ## One move -/

/-- Moves the file with index `i` from a new place in the directory at `home` to its target. -/
def moveNew (m : Mishaps) (i : Nat) (d : Disk) (home : Place) (dir : String) (f : SourceFile) :
    Except DiskFault Disk :=
  let target := Path.join dir f.path
  let place := home ++ [freshName d target.length]
  moveStaged m i (d.set place (.file f.content.toUTF8)) ⟨place, target⟩

/-- The move sets the file at its target, or nothing. -/
theorem moveNew_eq (m : Mishaps) (i : Nat) (d : Disk) (home : Place) (dir : String)
    (f : SourceFile) :
    moveNew m i d home dir f =
      match landingUnder m i d home (Path.join dir f.path) with
      | .error cause => .error cause
      | .ok place => .ok (d.set place (.file f.content.toUTF8)) := by
  unfold moveNew
  dsimp only
  generalize hlimit : (Path.join dir f.path).length = limit
  generalize hname : freshName d limit = name
  have hnew : d.IsNew (home ++ [name]) := hname ▸ isNew_freshName d home limit
  have hlong : longestName d + limit < name.length := hname ▸ lt_length_freshName d limit
  have hwaiting : Waiting (longestName d + limit) home dir d
      (d.set (home ++ [name]) (.file f.content.toUTF8))
      [⟨home ++ [name], Path.join dir f.path⟩] [f] :=
    Waiting.stage ⟨.nil, by simp, by simp, rfl⟩ hnew hlong
  have hmove := hwaiting.moveStaged_eq (by omega) m i
  rw [hnew.erase_set] at hmove
  exact hmove

theorem exists_lands_of_moveNew_eq_ok (h : moveNew m i d home dir f = .ok d') :
    ∃ target, d.Lands (Path.join dir f.path) target ∧
      d' = d.set target.place (.file f.content.toUTF8) := by
  rw [moveNew_eq] at h
  split at h
  · simp at h
  next place hlanding =>
    unfold landingUnder at hlanding
    split at hlanding
    · simp at hlanding
    · obtain ⟨target, hlands, rfl⟩ := Disk.exists_lands_of_landing_eq_ok hlanding
      exact ⟨target, hlands, (Except.ok.inj h).symm⟩

theorem sameDirectories_of_moveNew (h : moveNew m i d home dir f = .ok d') :
    SameDirectories d d' := by
  obtain ⟨target, hlands, rfl⟩ := exists_lands_of_moveNew_eq_ok h
  exact hlands.sameDirectories_set f.content.toUTF8

/-! ## Moves in order -/

/-- The files, from index `i` on, are moved one after the other from the disk `d`, and the
last disk is left. -/
inductive Moves (m : Mishaps) (home : Place) (dir : String) :
    Nat → Disk → List SourceFile → Disk → Prop
  | nil {i : Nat} {d : Disk} : Moves m home dir i d [] d
  | cons {i : Nat} {d d' after : Disk} {f : SourceFile} {rest : List SourceFile}
      (hmove : moveNew m i d home dir f = .ok d') (hrest : Moves m home dir (i + 1) d' rest after) :
      Moves m home dir i d (f :: rest) after

namespace Moves

theorem sameDirectories (h : Moves m home dir i d moved after) : SameDirectories d after := by
  induction h with
  | nil => exact .refl _
  | cons hmove _ ih => exact (sameDirectories_of_moveNew hmove).trans ih

theorem exists_of_append {first rest : List SourceFile}
    (h : Moves m home dir i d (first ++ rest) after) :
    ∃ d', Moves m home dir i d first d' ∧ Moves m home dir (i + first.length) d' rest after := by
  induction first generalizing i d with
  | nil => exact ⟨d, .nil, h⟩
  | cons f first ih =>
      cases h with
      | cons hmove hrest =>
          obtain ⟨d', hfirst, hrest⟩ := ih hrest
          refine ⟨d', .cons hmove hfirst, ?_⟩
          rwa [Nat.add_right_comm] at hrest

theorem get?_of_not_endsAt (h : Moves m home dir i d moved after)
    (hp : ∀ f ∈ moved, ¬d.EndsAt (Path.join dir f.path) p) : after.get? p = d.get? p := by
  induction h with
  | nil => rfl
  | @cons i d d' after f rest hmove _ ih =>
      obtain ⟨hf, hrest⟩ := List.forall_mem_cons.mp hp
      have hsame := sameDirectories_of_moveNew hmove
      obtain ⟨target, hlands, rfl⟩ := exists_lands_of_moveNew_eq_ok hmove
      have hne : p ≠ target.place := fun heq => hf (heq ▸ hlands.endsAt)
      rw [ih fun g hg hends => hrest g hg (hsame.endsAt_iff.mp hends),
        Disk.get?_set target.place_ne_nil, if_neg hne]

theorem mem_entries (h : Moves m home dir i d moved after) {entry : Place × DiskEntry}
    (hentry : entry ∈ after.entries) :
    entry ∈ d.entries ∨ ∃ f ∈ moved, d.EndsAt (Path.join dir f.path) entry.1 := by
  induction h with
  | nil => exact Or.inl hentry
  | @cons i d d' after f rest hmove _ ih =>
      have hsame := sameDirectories_of_moveNew hmove
      obtain ⟨target, hlands, rfl⟩ := exists_lands_of_moveNew_eq_ok hmove
      rcases ih hentry with hentry | ⟨g, hg, hends⟩
      · rcases Disk.mem_setEntry hentry with rfl | hentry
        · exact Or.inr ⟨f, List.mem_cons_self, hlands.endsAt⟩
        · exact Or.inl hentry
      · exact Or.inr ⟨g, List.mem_cons_of_mem f hg, hsame.endsAt_iff.mp hends⟩

theorem exists_endsAt (h : Moves m home dir i d moved after) {f : SourceFile} (hf : f ∈ moved) :
    ∃ p, d.EndsAt (Path.join dir f.path) p := by
  obtain ⟨first, later, rfl⟩ := List.append_of_mem hf
  obtain ⟨d₁, hfirst, hrest⟩ := h.exists_of_append
  cases hrest with
  | cons hmove _ =>
      obtain ⟨target, hlands, -⟩ := exists_lands_of_moveNew_eq_ok hmove
      exact ⟨_, hfirst.sameDirectories.endsAt_iff.mp hlands.endsAt⟩

/-- A file is found where it has been moved to, unless a later one was moved there. -/
theorem get?_of_last {first later : List SourceFile}
    (h : Moves m home dir i d (first ++ f :: later) after)
    (hp : d.EndsAt (Path.join dir f.path) p)
    (hlater : ∀ g ∈ later, ¬d.EndsAt (Path.join dir g.path) p) :
    after.get? p = some (.file f.content.toUTF8) ∧
      after.read (Path.join dir f.path) = .ok f.content.toUTF8 := by
  have hsame := h.sameDirectories
  obtain ⟨d₁, hfirst, hrest⟩ := h.exists_of_append
  cases hrest with
  | cons hmove hrest =>
      have hsame₁ := hfirst.sameDirectories
      have hsame₂ := hsame₁.trans (sameDirectories_of_moveNew hmove)
      obtain ⟨target, hlands₁, rfl⟩ := exists_lands_of_moveNew_eq_ok hmove
      have hlands := hsame₁.symm.lands hlands₁
      obtain rfl := hlands.place_eq_of_endsAt hp
      have hthere : after.get? target.place = some (.file f.content.toUTF8) := by
        rw [hrest.get?_of_not_endsAt fun g hg hends => hlater g hg (hsame₂.endsAt_iff.mp hends),
          Disk.get?_set target.place_ne_nil, if_pos rfl]
      have hafter := hsame.lands hlands
      exact ⟨hthere, Disk.read_of_destination hafter.destination hafter.isDots_eq_false
        hafter.slash_eq_false hafter.size_le hthere⟩

theorem overwritten (h : Moves m home dir i d moved after) :
    d.Overwritten after dir moved where
  ends _ hf := h.exists_endsAt hf
  contents _ _ _ _ hmoved hp hlater := by
    subst hmoved
    exact h.get?_of_last hp hlater
  others _ hp := h.get?_of_not_endsAt hp
  entries _ hentry := h.mem_entries hentry
  locked := h.sameDirectories.locked_eq

end Moves

/-- What is written one by one is moved in order, up to the first move that fails on the disk
that the moves before it have left. -/
theorem replaceAll_cases (m : Mishaps) (i : Nat) (d : Disk) (home : Place) (dir : String)
    (files : List SourceFile) :
    (∃ after, Moves m home dir i d files after ∧
      replaceAll m i d home dir files =
        ⟨after, files.map fun f => .wrote (Path.join dir f.path),
          .ok (files.map fun f => Path.join dir f.path)⟩) ∨
    ∃ moved f later after cause, files = moved ++ f :: later ∧ Moves m home dir i d moved after ∧
      moveNew m (i + moved.length) after home dir f = .error cause ∧
      replaceAll m i d home dir files =
        ⟨after, moved.map fun f => .wrote (Path.join dir f.path),
          .error (.notReplaced (Path.join dir f.path) cause)⟩ := by
  induction files generalizing i d with
  | nil => exact Or.inl ⟨d, .nil, rfl⟩
  | cons f rest ih =>
      have hmove := moveNew_eq m i d home dir f
      rw [replaceAll]
      cases hlanding : landingUnder m i d home (Path.join dir f.path) with
      | error cause =>
          rw [hlanding] at hmove
          exact Or.inr ⟨[], f, rest, d, cause, rfl, .nil, hmove, rfl⟩
      | ok place =>
          rw [hlanding] at hmove
          dsimp only at hmove ⊢
          rcases ih (i + 1) (d.set place (.file f.content.toUTF8)) with
            ⟨after, hmoves, heq⟩ | ⟨moved, g, later, after, cause, rfl, hmoves, hfails, heq⟩
          · rw [heq]
            exact Or.inl ⟨after, .cons hmove hmoves, rfl⟩
          · rw [heq]
            refine Or.inr ⟨f :: moved, g, later, after, cause, rfl, .cons hmove hmoves, ?_, rfl⟩
            rwa [Nat.add_right_comm] at hfails

/-! ## Whole runs -/

/-- The ways in which putting files in place can end. -/
inductive Effect (m : Mishaps) (d : Disk) (dir : String) (files : List SourceFile) :
    Attempt (List String) → Prop
  /-- There is no directory, and nothing has changed. -/
  | noDirectory (hdir : d.isDirectory dir = false) :
      Effect m d dir files ⟨d, [], .error (.noDirectory dir)⟩
  /-- Some file cannot be staged, and nothing has changed. -/
  | notStaged {home : Place} {first later : List SourceFile} {f : SourceFile}
      {mishap : StagingMishap} (hopens : d.Opens dir home) (hfiles : files = first ++ f :: later)
      (hfirst : ∀ j < first.length, hindrance? m d home dir j = none)
      (hmishap : hindrance? m d home dir first.length = some mishap) :
      Effect m d dir files ⟨d, [], .error (mishap.fault (Path.join dir f.path) dir)⟩
  /-- All files are staged, and the first ones are moved, up to one whose move fails. -/
  | stopped {home : Place} {moved later : List SourceFile} {f : SourceFile} {after : Disk}
      {cause : DiskFault} (hopens : d.Opens dir home)
      (hstaged : ∀ j < files.length, hindrance? m d home dir j = none)
      (hfiles : files = moved ++ f :: later) (hmoves : Moves m home dir 0 d moved after)
      (hfails : moveNew m moved.length after home dir f = .error cause)
      (hover : d.Overwritten after dir moved) :
      Effect m d dir files ⟨after, moved.map fun f => .wrote (Path.join dir f.path),
        .error (.notReplaced (Path.join dir f.path) cause)⟩
  /-- All files are staged and moved. -/
  | finished {home : Place} {after : Disk} (hopens : d.Opens dir home)
      (hstaged : ∀ j < files.length, hindrance? m d home dir j = none)
      (hmoves : Moves m home dir 0 d files after) (hover : d.Overwritten after dir files) :
      Effect m d dir files ⟨after, files.map fun f => .wrote (Path.join dir f.path),
        .ok (files.map fun f => Path.join dir f.path)⟩

end Install

open Install

theorem Disk.isDirectory_eq_false_of_not_opens
    {d : Disk} {dir : String} (h : ∀ home, ¬d.Opens dir home) : d.isDirectory dir = false := by
  unfold isDirectory
  cases hlocated : d.locate dir with
  | error cause => rfl
  | ok home =>
      dsimp only
      exact Bool.eq_false_iff.mpr fun hdirectory => h home ⟨hlocated, hdirectory⟩

/-- Whatever goes wrong on the way, putting files in place ends in one of these ways: nothing has
changed, the first files have been moved up to one whose move fails, or all of them have been. -/
theorem installUnder_effect (m : Mishaps) (d : Disk) (dir : String) (files : List SourceFile) :
    Effect m d dir files (installUnder m d dir files) := by
  by_cases hopens : ∃ home, d.Opens dir home
  · obtain ⟨home, hopens⟩ := hopens
    rcases hindrance_cases m d home dir files with
      hstaged | ⟨first, f, later, mishap, rfl, hfirst, hmishap⟩
    · rw [installUnder_eq_replaceAll hopens hstaged]
      rcases replaceAll_cases m 0 d home dir files with
        ⟨after, hmoves, heq⟩ | ⟨moved, f, later, after, cause, hfiles, hmoves, hfails, heq⟩
      · rw [heq]
        exact .finished hopens hstaged hmoves hmoves.overwritten
      · rw [heq]
        rw [Nat.zero_add] at hfails
        exact .stopped hopens hstaged hfiles hmoves hfails hmoves.overwritten
    · rw [installUnder_of_mishap hopens hfirst hmishap]
      exact .notStaged hopens rfl hfirst hmishap
  · rw [installUnder_of_not_opens (not_exists.mp hopens)]
    exact .noDirectory (Disk.isDirectory_eq_false_of_not_opens (not_exists.mp hopens))

/-- A disk with an empty directory. -/
def emptyOut : Disk :=
  { entries := [(["out"], .directory)] }

/-- A content that cannot be written leaves nothing of the file that was staged before. -/
example :
    (installUnder { staging := fun i => if i = 1 then some (.notWritten .empty .busy) else none }
      emptyOut "out" [⟨"a.rs", "a"⟩, ⟨"b.rs", "b"⟩]).disk.entries.map (·.1) = [["out"]] := by
  decide +kernel

end Treewright
