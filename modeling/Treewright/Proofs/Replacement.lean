import Treewright.Generate
import Treewright.Proofs.References
import Treewright.Proofs.Staging

/-!
# Replacing files

The files that are written for a grammar have plain names, all of them different.  Whether
such a file can be put into a directory depends on how long its name and its path are and on
whether there is a directory under its name, so writing a file never decides about another
one: the run replaces the files before the first one that cannot be replaced, and this is
known before it starts.

A second run therefore meets the same fault or none, and what it writes is there already.
-/

namespace Treewright

namespace Disk

variable {d d' : Disk} {dir name : String} {home p : Place}

/-- Why no file can be put under a name into the directory at `home`, which the path `dir`
leads to. -/
def refusal? (d : Disk) (home : Place) (dir name : String) : Option DiskFault :=
  if pathLimit < (Path.join dir name).utf8ByteSize ∨ nameLimit < name.utf8ByteSize then
    some .nameTooLong
  else if d.locked.contains home then some .permissionDenied
  else if d.holdsDirectory (home ++ [name]) then some .isADirectory
  else none

theorem refusal?_eq_none_iff :
    d.refusal? home dir name = none ↔
      (Path.join dir name).utf8ByteSize ≤ pathLimit ∧ name.utf8ByteSize ≤ nameLimit ∧
        home ∉ d.locked ∧ d.holdsDirectory (home ++ [name]) = false := by
  unfold refusal?
  split
  next hlong =>
    simp only [reduceCtorEq, false_iff]
    omega
  next hshort =>
    rw [not_or, Nat.not_lt, Nat.not_lt] at hshort
    by_cases hlocked : home ∈ d.locked
    · simp [hlocked]
    · by_cases hdirectory : d.holdsDirectory (home ++ [name]) = true
      · simp [hlocked, hdirectory]
      · simp [hlocked, hdirectory, hshort]

theorem landing_join (h : d.Opens dir home) (hname : Path.IsPlain name) :
    d.landing home (Path.join dir name) =
      match d.refusal? home dir name with
      | some cause => .error cause
      | none => .ok (home ++ [name]) := by
  have hnul : Path.holdsNul (Path.join dir name) = false := by
    rw [hname.holdsNul_join h.ne_empty]
    exact (checkPath_eq_ok_iff.mp (opens_iff.mp h).1).1
  have hdots : Destination.isDots ⟨home, name, false⟩ = false := by
    simp [Destination.isDots, hname.ne_dot, hname.ne_dots]
  have hinside : (home ++ [name]).isPrefixOf home = false := by
    rw [Bool.eq_false_iff, ne_eq, List.isPrefixOf_iff_prefix]
    intro hinside
    have hlength := hinside.length_le
    rw [List.length_append, List.length_singleton] at hlength
    exact Nat.not_succ_le_self _ hlength
  unfold landing refusal?
  rw [hnul, if_neg Bool.false_ne_true, h.destination_join hname]
  by_cases hpath : pathLimit < (Path.join dir name).utf8ByteSize
  · simp [hpath, bind, Except.bind]
  · by_cases hsize : nameLimit < name.utf8ByteSize
    · simp [hpath, hsize, child?, hdots, bind, Except.bind]
    · by_cases hlocked : home ∈ d.locked
      · simp [hpath, hsize, child?, hdots, hlocked, bind, Except.bind]
      · simp only [hpath, hsize, child?, hdots, bind, Except.bind, hinside,
          Destination.place, List.contains_iff_mem, hlocked, or_self, if_false,
          Bool.false_eq_true]
        unfold holdsDirectory
        split <;> simp_all

/-- The disks have the same directories. -/
structure SameDirectories (d d' : Disk) : Prop where
  holdsDirectory_eq : ∀ p, d'.holdsDirectory p = d.holdsDirectory p
  locked_eq : d'.locked = d.locked

namespace SameDirectories

theorem refl (d : Disk) : SameDirectories d d :=
  ⟨fun _ => rfl, rfl⟩

theorem trans {d'' : Disk} (h : SameDirectories d d') (h' : SameDirectories d' d'') :
    SameDirectories d d'' :=
  ⟨fun p => (h'.holdsDirectory_eq p).trans (h.holdsDirectory_eq p), h'.locked_eq.trans h.locked_eq⟩

theorem opens (h : SameDirectories d d') (hopens : d.Opens dir home) : d'.Opens dir home :=
  hopens.of_directories fun p hp => (h.holdsDirectory_eq p).trans hp

theorem refusal?_eq (h : SameDirectories d d') :
    d'.refusal? home dir name = d.refusal? home dir name := by
  rw [refusal?, refusal?, h.holdsDirectory_eq, h.locked_eq]

end SameDirectories

/-- A file where there is no directory leaves the directories as they are. -/
theorem sameDirectories_set (hp : p ≠ []) (hnone : d.holdsDirectory p = false)
    (content : ByteArray) : SameDirectories d (d.set p (.file content)) where
  holdsDirectory_eq q := by
    by_cases hq : q = p
    · rw [hq, hnone, holdsDirectory, get?_set hp, if_pos rfl]
    · rw [holdsDirectory, holdsDirectory, get?_set hp, if_neg hq]
  locked_eq := locked_set

/-! ## Files under plain names -/

/-- Sets files in the directory at `home`, one after the other. -/
def put (home : Place) (d : Disk) (files : List SourceFile) : Disk :=
  files.foldl (fun d f => d.set (home ++ [f.path]) (.file f.content.toUTF8)) d

variable {files : List SourceFile}

theorem get?_put_of_forall_ne (hp : ∀ f ∈ files, p ≠ home ++ [f.path]) :
    (put home d files).get? p = d.get? p := by
  induction files generalizing d with
  | nil => rfl
  | cons f rest ih =>
      obtain ⟨hf, hrest⟩ := List.forall_mem_cons.mp hp
      calc (put home (d.set (home ++ [f.path]) (.file f.content.toUTF8)) rest).get? p
          = (d.set (home ++ [f.path]) (.file f.content.toUTF8)).get? p := ih hrest
        _ = d.get? p := by rw [get?_set (by simp), if_neg hf]

/-- Each file that was set is there, if the names are different. -/
theorem get?_put (hdistinct : (files.map (·.path)).Nodup) {f : SourceFile} (hf : f ∈ files) :
    (put home d files).get? (home ++ [f.path]) = some (.file f.content.toUTF8) := by
  induction files generalizing d with
  | nil => exact False.elim (List.not_mem_nil hf)
  | cons g rest ih =>
      rw [List.map_cons, List.nodup_cons] at hdistinct
      obtain ⟨hg, hdistinct⟩ := hdistinct
      rcases List.mem_cons.mp hf with rfl | hf
      · have hothers : ∀ g ∈ rest, home ++ [f.path] ≠ home ++ [g.path] := fun g hgrest heq =>
          hg (List.mem_map.mpr ⟨g, hgrest, by simpa using heq.symm⟩)
        calc (put home (d.set (home ++ [f.path]) (.file f.content.toUTF8)) rest).get?
              (home ++ [f.path])
            = (d.set (home ++ [f.path]) (.file f.content.toUTF8)).get? (home ++ [f.path]) :=
              get?_put_of_forall_ne hothers
          _ = some (.file f.content.toUTF8) := by rw [get?_set (by simp), if_pos rfl]
      · exact ih hdistinct hf

theorem put_eq_self
    (h : ∀ f ∈ files, d.get? (home ++ [f.path]) = some (.file f.content.toUTF8)) :
    put home d files = d := by
  induction files with
  | nil => rfl
  | cons f rest ih =>
      obtain ⟨hf, hrest⟩ := List.forall_mem_cons.mp h
      calc put home (d.set (home ++ [f.path]) (.file f.content.toUTF8)) rest
          = put home d rest := by rw [set_eq_self (by simp) hf]
        _ = d := ih hrest

theorem put_put (hdistinct : (files.map (·.path)).Nodup) :
    put home (put home d files) files = put home d files :=
  put_eq_self fun _ hf => get?_put hdistinct hf

theorem sameDirectories_put (h : ∀ f ∈ files, d.refusal? home dir f.path = none) :
    SameDirectories d (put home d files) := by
  induction files generalizing d with
  | nil => exact .refl d
  | cons f rest ih =>
      obtain ⟨hf, hrest⟩ := List.forall_mem_cons.mp h
      have hset := sameDirectories_set (by simp) (refusal?_eq_none_iff.mp hf).2.2.2 f.content.toUTF8
      exact hset.trans (ih fun g hg => hset.refusal?_eq.trans (hrest g hg))

end Disk

/-! ## Runs over plain names -/

namespace Install

open Disk (put SameDirectories)

/-- Why the file with index `i` cannot replace its target. -/
def refusalUnder? (m : Mishaps) (i : Nat) (d : Disk) (home : Place) (dir name : String) :
    Option DiskFault :=
  (m.moving i).or (d.refusal? home dir name)

/-- The files, counted from index `i` on, before the first one that is refused. -/
def accepted (m : Mishaps) (i : Nat) (d : Disk) (home : Place) (dir : String)
    (files : List SourceFile) : List SourceFile :=
  ((files.zipIdx i).takeWhile fun (f, j) =>
    (refusalUnder? m j d home dir f.path).isNone).map (·.1)

/-- The fault of the first file that is refused. -/
def firstRefusal? (m : Mishaps) (i : Nat) (d : Disk) (home : Place) (dir : String)
    (files : List SourceFile) : Option RunFault :=
  (files.zipIdx i).findSome? fun (f, j) =>
    (refusalUnder? m j d home dir f.path).map (.notReplaced (Path.join dir f.path))

variable {m : Mishaps} {i : Nat} {d d' : Disk} {dir : String} {home : Place}
  {files : List SourceFile}

theorem landingUnder_join (h : d.Opens dir home) {name : String} (hname : Path.IsPlain name) :
    landingUnder m i d home (Path.join dir name) =
      match refusalUnder? m i d home dir name with
      | some cause => .error cause
      | none => .ok (home ++ [name]) := by
  unfold landingUnder refusalUnder?
  cases m.moving i with
  | some cause => rfl
  | none => exact Disk.landing_join h hname

theorem refusal?_of_refusalUnder? {name : String}
    (h : refusalUnder? m i d home dir name = none) : d.refusal? home dir name = none :=
  (Option.or_eq_none_iff.mp h).2

theorem refusalUnder?_eq_of_sameDirectories (h : SameDirectories d d') (i : Nat) (name : String) :
    refusalUnder? m i d' home dir name = refusalUnder? m i d home dir name := by
  rw [refusalUnder?, refusalUnder?, h.refusal?_eq]

theorem accepted_eq_of_sameDirectories (h : SameDirectories d d') :
    accepted m i d' home dir files = accepted m i d home dir files := by
  simp only [accepted, refusalUnder?_eq_of_sameDirectories h]

theorem firstRefusal?_eq_of_sameDirectories (h : SameDirectories d d') :
    firstRefusal? m i d' home dir files = firstRefusal? m i d home dir files := by
  simp only [firstRefusal?, refusalUnder?_eq_of_sameDirectories h]

theorem hindrance?_eq_of_sameDirectories (h : SameDirectories d d') :
    hindrance? m d' home dir i = hindrance? m d home dir i := by
  rw [hindrance?, hindrance?, h.locked_eq]

theorem accepted_initial : accepted m i d home dir files <+: files := by
  have hinitial := (List.takeWhile_prefix (l := files.zipIdx i) fun (f, j) =>
    (refusalUnder? m j d home dir f.path).isNone).map Prod.fst
  rwa [List.zipIdx_map_fst] at hinitial

theorem refusal?_of_mem_accepted {f : SourceFile} (hf : f ∈ accepted m i d home dir files) :
    d.refusal? home dir f.path = none := by
  obtain ⟨⟨_, j⟩, hp, rfl⟩ := List.mem_map.mp hf
  have hready := List.mem_takeWhile_imp hp
  exact refusal?_of_refusalUnder? (Option.isNone_iff_eq_none.mp hready)

theorem firstRefusal?_eq_none_iff :
    firstRefusal? m i d home dir files = none ↔
      ∀ f j, (f, j) ∈ files.zipIdx i → refusalUnder? m j d home dir f.path = none := by
  simp [firstRefusal?]

theorem accepted_eq_self_of_firstRefusal? (h : firstRefusal? m i d home dir files = none) :
    accepted m i d home dir files = files := by
  rw [firstRefusal?_eq_none_iff] at h
  have hall : ((files.zipIdx i).takeWhile fun (f, j) =>
      (refusalUnder? m j d home dir f.path).isNone) = files.zipIdx i :=
    List.takeWhile_eq_self_iff.mpr fun (f, j) hp => Option.isNone_iff_eq_none.mpr (h f j hp)
  rw [accepted, hall, List.zipIdx_map_fst]

theorem accepted_ne_self_of_firstRefusal? {fault : RunFault}
    (h : firstRefusal? m i d home dir files = some fault) :
    accepted m i d home dir files ≠ files := by
  intro hall
  have hlength := congrArg List.length hall
  rw [accepted, List.length_map, ← List.length_zipIdx (l := files) (i := i)] at hlength
  have htaken := (List.takeWhile_prefix _).eq_of_length hlength
  have hnone : firstRefusal? m i d home dir files = none := by
    rw [firstRefusal?_eq_none_iff]
    intro f j hp
    exact Option.isNone_iff_eq_none.mp (List.takeWhile_eq_self_iff.mp htaken (f, j) hp)
  simp [hnone] at h

theorem exists_of_firstRefusal?_eq_some {fault : RunFault}
    (h : firstRefusal? m i d home dir files = some fault) :
    ∃ target cause, fault = .notReplaced target cause := by
  obtain ⟨⟨f, j⟩, -, h⟩ := List.exists_of_findSome?_eq_some h
  obtain ⟨cause, -, rfl⟩ := Option.map_eq_some_iff.mp h
  exact ⟨_, cause, rfl⟩

/-- A run replaces the files before the first one that is refused on the disk it starts
from, and reports that one. -/
theorem replaceAll_eq (h : d.Opens dir home) (hplain : ∀ f ∈ files, Path.IsPlain f.path)
    (m : Mishaps) (i : Nat) :
    replaceAll m i d home dir files =
      { disk := put home d (accepted m i d home dir files)
        events := (accepted m i d home dir files).map fun f => .wrote (Path.join dir f.path)
        outcome :=
          match firstRefusal? m i d home dir files with
          | some fault => .error fault
          | none => .ok (files.map fun f => Path.join dir f.path) } := by
  induction files generalizing d i with
  | nil => rfl
  | cons f rest ih =>
      obtain ⟨hf, hplain⟩ := List.forall_mem_cons.mp hplain
      rw [replaceAll, landingUnder_join h hf]
      cases hrefusal : refusalUnder? m i d home dir f.path with
      | some cause => simp [accepted, firstRefusal?, hrefusal, put]
      | none =>
          have hnone := Disk.refusal?_eq_none_iff.mp (refusal?_of_refusalUnder? hrefusal)
          have hset := Disk.sameDirectories_set (by simp) hnone.2.2.2 f.content.toUTF8
          have haccepted : accepted m i d home dir (f :: rest) =
              f :: accepted m (i + 1) d home dir rest := by
            simp [accepted, hrefusal]
          have hfirst : firstRefusal? m i d home dir (f :: rest) =
              firstRefusal? m (i + 1) d home dir rest := by
            simp [firstRefusal?, hrefusal]
          dsimp only
          rw [ih (hset.opens h) hplain, accepted_eq_of_sameDirectories hset,
            firstRefusal?_eq_of_sameDirectories hset, haccepted, hfirst]
          cases firstRefusal? m (i + 1) d home dir rest <;> rfl

end Install

open Install
open Disk (put put_put sameDirectories_put SameDirectories)

/-- Putting the same files in place a second time, with the same mishaps, changes nothing and
has the same outcome. -/
theorem installUnder_installUnder {files : List SourceFile}
    (hplain : ∀ f ∈ files, Path.IsPlain f.path) (hdistinct : (files.map (·.path)).Nodup)
    (m : Mishaps) (d : Disk) (dir : String) :
    installUnder m (installUnder m d dir files).disk dir files = installUnder m d dir files := by
  have hunchanged : ∀ {attempt : Attempt (List String)}, installUnder m d dir files = attempt →
      attempt.disk = d →
        installUnder m (installUnder m d dir files).disk dir files =
          installUnder m d dir files := by
    rintro _ rfl hdisk
    rw [hdisk]
  by_cases hopens : ∃ home, d.Opens dir home
  · obtain ⟨home, hopens⟩ := hopens
    rcases hindrance_cases m d home dir files with
      hfree | ⟨first, f, later, mishap, rfl, hfirst, hmishap⟩
    · have hdone : SameDirectories d (put home d (accepted m 0 d home dir files)) :=
        sameDirectories_put fun f hf => refusal?_of_mem_accepted hf
      have hfree' : ∀ j < files.length,
          hindrance? m (put home d (accepted m 0 d home dir files)) home dir j = none :=
        fun j hj => (hindrance?_eq_of_sameDirectories hdone).trans (hfree j hj)
      have hmoved : ((accepted m 0 d home dir files).map (·.path)).Nodup :=
        hdistinct.sublist (accepted_initial.sublist.map _)
      rw [installUnder_eq_replaceAll hopens hfree, replaceAll_eq hopens hplain,
        installUnder_eq_replaceAll (hdone.opens hopens) hfree',
        replaceAll_eq (hdone.opens hopens) hplain, accepted_eq_of_sameDirectories hdone,
        firstRefusal?_eq_of_sameDirectories hdone, put_put hmoved]
    · exact hunchanged (installUnder_of_mishap hopens hfirst hmishap f) rfl
  · exact hunchanged (installUnder_of_not_opens (not_exists.mp hopens) m files) rfl

/-! ## Rendered files -/

theorem Path.isPlain_fileName {home : String} (h : ∀ c ∈ home.toList, Name.isTail c = true) :
    IsPlain (home ++ ".rs") := by
  have hlength : (home ++ ".rs").length = home.length + 3 := by
    rw [String.length_append]
    rfl
  have hchars : ∀ c ∈ (home ++ ".rs").toList, 46 ≤ c.toNat ∧ c.toNat ≠ 47 := by
    rw [String.toList_append, List.forall_mem_append]
    refine ⟨fun c hc => ?_, by simp⟩
    have hrange := Name.toNat_of_isTail (h c hc)
    omega
  have hne : ∀ s : String, s.length < 3 → home ++ ".rs" ≠ s := by
    rintro s hs rfl
    omega
  exact {
    ne_empty := hne _ (by decide)
    ne_dot := hne _ (by decide)
    ne_dots := hne _ (by decide)
    slash_not_mem := fun hslash => (hchars '/' hslash).2 rfl
    holdsNul_eq_false := by
      rw [holdsNul, List.any_eq_false]
      intro c hc
      have hlarge := (hchars c hc).1
      simp only [beq_iff_eq]
      omega }

namespace Grammar

variable {g : Grammar} {files : List SourceFile}

theorem paths_of_render (h : g.render = .ok files) :
    ∃ l, g.link = .ok l ∧
      files.map (·.path) =
        ((l.order.map (·.moduleName)) ++ ["visitor", "mod"]).map (· ++ ".rs") := by
  obtain ⟨drafts, hdrafts, rfl⟩ := exists_of_render_eq_ok h
  obtain ⟨l, dress, hl, -, hall⟩ := exists_of_drafts_eq_ok hdrafts
  refine ⟨l, hl, ?_⟩
  rw [List.map_map, ← Draft.paths_of_all hall]
  rfl

theorem isPlain_of_render (h : g.render = .ok files) {f : SourceFile} (hf : f ∈ files) :
    Path.IsPlain f.path := by
  obtain ⟨l, hl, hpaths⟩ := paths_of_render h
  have hpath : f.path ∈ files.map (·.path) := List.mem_map_of_mem hf
  rw [hpaths] at hpath
  obtain ⟨home, hhome, hname⟩ := List.mem_map.mp hpath
  rw [← hname]
  apply Path.isPlain_fileName
  rcases List.mem_append.mp hhome with hfamily | hfixed
  · obtain ⟨e, he, rfl⟩ := List.mem_map.mp hfamily
    have hident := (family_of_validate (link_eq_ok_iff_stages.mp hl).1
      ((mem_order_iff hl).mp he)).1
    intro c hc
    rw [Family.moduleName, Name.snake, String.toList_ofList] at hc
    exact Name.isTail_of_mem_snakeText hident hc
  · have hidentifiers : ∀ home ∈ ["visitor", "mod"], Name.isIdentifier home = true := by decide
    exact fun c hc => Name.isTail_of_mem (hidentifiers home hfixed) hc

theorem paths_nodup_of_render (h : g.render = .ok files) : (files.map (·.path)).Nodup := by
  obtain ⟨l, hl, hpaths⟩ := paths_of_render h
  rw [hpaths]
  exact (Draft.homes_nodup hl).map fun _ _ => (String.append_left_inj ".rs").mp

theorem generate_of_render_eq_ok (h : g.render = .ok files) (m : Mishaps) (d : Disk)
    (dir : String) :
    g.generate m d dir =
      { installUnder m d dir files with
        events := g.renderEvents ++ (installUnder m d dir files).events } := by
  unfold generate Operations.generate
  rw [h]
  rfl

theorem generate_of_render_eq_error {fault : Fault} (h : g.render = .error fault) (m : Mishaps)
    (d : Disk) (dir : String) :
    g.generate m d dir = ⟨d, g.renderEvents, .error (.grammar none fault)⟩ := by
  unfold generate Operations.generate
  rw [h]
  rfl

/-- A second run right after the first one, with the same mishaps, changes nothing on the disk,
reports the same and has the same outcome: the same paths or the same fault. -/
theorem generate_generate (g : Grammar) (m : Mishaps) (d : Disk) (dir : String) :
    g.generate m (g.generate m d dir).disk dir = g.generate m d dir := by
  cases hrender : g.render with
  | error fault => simp only [generate_of_render_eq_error hrender]
  | ok files =>
      have hplain : ∀ f ∈ files, Path.IsPlain f.path := fun f hf => isPlain_of_render hrender hf
      simp only [generate_of_render_eq_ok hrender,
        installUnder_installUnder hplain (paths_nodup_of_render hrender)]

/-- A grammar with one family. -/
def leafGrammar : Grammar :=
  { name := "Leaf", families := [⟨"Leaf", [⟨"Nil", []⟩], none⟩] }

/-- A disk with a directory where the second file of the grammar would go. -/
def blockedDisk : Disk :=
  { entries := [(["out"], .directory), (["out", "visitor.rs"], .directory)] }

theorem generate_generate_partWay :
    (leafGrammar.generate {} blockedDisk "out").outcome =
        .error (.notReplaced "out/visitor.rs" .isADirectory) ∧
      (leafGrammar.generate {} blockedDisk "out").disk.entries.map (·.1) =
        [["out"], ["out", "visitor.rs"], ["out", "leaf.rs"]] ∧
      leafGrammar.generate {} (leafGrammar.generate {} blockedDisk "out").disk "out" =
        leafGrammar.generate {} blockedDisk "out" :=
  ⟨by decide +kernel, by decide +kernel, generate_generate leafGrammar {} blockedDisk "out"⟩

end Grammar

end Treewright
