import Mathlib.Data.List.Induction
import Treewright.Files.Install
import Treewright.Proofs.Disk

/-!
# Staging leaves no trace

Files are put into a directory through staging files, whose names are longer than every name
on the disk and every path that is written to.  No path in use can come across such a file,
so each move does what it would do on the disk without staging files, and what is left over
is removed.  Seen from outside, a run that can be staged writes its files one by one, up to
the first target that cannot be replaced.
-/

namespace Treewright

namespace Disk

/-- The place that a file from the directory at `home` is moved to, if the move can be made. -/
@[irreducible] def landing (d : Disk) (home : Place) (path : String) : Except DiskFault Place :=
  if Path.holdsNul path then .error .invalidArgument
  else do
    let target ← d.destination path
    if target.isDots then .error .busy
    else
      let there ← d.child? target.home target.last
      if target.slash then .error .notADirectory
      else if d.locked.contains target.home then .error .permissionDenied
      else if target.place.isPrefixOf home then .error .notEmpty
      else
        match there with
        | some .directory => .error .isADirectory
        | _ => .ok target.place

/-- The path ends in a directory, under a name that a file can have and no directory has. -/
structure Lands (d : Disk) (path : String) (target : Destination) : Prop where
  destination : d.destination path = .ok target
  isDots_eq_false : target.isDots = false
  slash_eq_false : target.slash = false
  size_le : target.last.utf8ByteSize ≤ nameLimit
  holdsDirectory_eq_false : d.holdsDirectory target.place = false

theorem exists_lands_of_landing_eq_ok {d : Disk} {home p : Place} {path : String}
    (h : d.landing home path = .ok p) : ∃ target, d.Lands path target ∧ target.place = p := by
  unfold landing at h
  split at h
  · simp at h
  obtain ⟨target, hdestination, h⟩ := bind_eq_ok_iff.mp h
  split at h
  · simp at h
  next hdots =>
    obtain ⟨there, hchild, h⟩ := bind_eq_ok_iff.mp h
    obtain ⟨hsize, hthere⟩ := child?_eq_ok_iff.mp hchild
    split at h
    · simp at h
    next hslash =>
      split at h
      · simp at h
      split at h
      · simp at h
      split at h
      · simp at h
      next hnone =>
        refine ⟨target, ⟨hdestination, by simpa using hdots, by simpa using hslash, hsize, ?_⟩,
          Except.ok.inj h⟩
        rw [Bool.eq_false_iff, ne_eq, holdsDirectory_eq_true_iff]
        intro hdirectory
        exact hnone (hthere.symm.trans hdirectory)

end Disk

namespace Install

/-- The place that the file with index `i` is moved to, if nothing goes wrong. -/
def landingUnder (m : Mishaps) (i : Nat) (d : Disk) (home : Place) (path : String) :
    Except DiskFault Place :=
  match m.moving i with
  | some cause => .error cause
  | none => d.landing home path

/-- Puts files, from index `i` on, into the directory at `home` one by one, up to the first
target that cannot be replaced. -/
def replaceAll (m : Mishaps) (i : Nat) (d : Disk) (home : Place) (dir : String) :
    List SourceFile → Attempt (List String)
  | [] => ⟨d, [], .ok []⟩
  | f :: rest =>
    match landingUnder m i d home (Path.join dir f.path) with
    | .error cause => ⟨d, [], .error (.notReplaced (Path.join dir f.path) cause)⟩
    | .ok place =>
      let later := replaceAll m (i + 1) (d.set place (.file f.content.toUTF8)) home dir rest
      { disk := later.disk
        events := .wrote (Path.join dir f.path) :: later.events
        outcome := later.outcome.map (Path.join dir f.path :: ·) }

/-! ## Steps on a disk -/

theorem run_bind
    {α β : Type} {steps : StateM Disk α} {next : α → StateM Disk β} {d d' : Disk} {a : α}
    (h : steps.run d = (a, d')) : (steps >>= next).run d = (next a).run d' := by
  rw [StateT.run_bind, h]
  rfl

/-- Removes staging files from a disk. -/
def discard (d : Disk) : List (Staged Place) → Disk
  | [] => d
  | s :: rest => discard (d.erase s.place) rest

theorem run_discard (m : Mishaps) (staged : List (Staged Place)) (d : Disk) :
    ((Disk.operations m).discard staged).run d = ((), discard d staged) := by
  induction staged generalizing d with
  | nil => rfl
  | cons s rest ih => exact ih (d.erase s.place)

/-! ## Removing staging files -/

section Discard

variable {d : Disk} {p : Place} {e : DiskEntry} {staged : List (Staged Place)}

@[simp] theorem locked_discard : (discard d staged).locked = d.locked := by
  induction staged generalizing d with
  | nil => rfl
  | cons s rest ih => rw [discard, ih, Disk.locked_erase]

theorem get?_discard
    (hplaces : ∀ s ∈ staged, s.place ≠ []) (hp : ∀ s ∈ staged, s.place ≠ p) :
    (discard d staged).get? p = d.get? p := by
  induction staged generalizing d with
  | nil => rfl
  | cons s rest ih =>
      obtain ⟨hplace, hplaces⟩ := List.forall_mem_cons.mp hplaces
      obtain ⟨hs, hp⟩ := List.forall_mem_cons.mp hp
      rw [discard, ih hplaces hp, Disk.get?_erase hplace, if_neg (Ne.symm hs)]

theorem discard_erase : discard (d.erase p) staged = (discard d staged).erase p := by
  induction staged generalizing d with
  | nil => rfl
  | cons s rest ih => rw [discard, discard, Disk.erase_erase, ih]

theorem discard_set (hp : ∀ s ∈ staged, s.place ≠ p) :
    discard (d.set p e) staged = (discard d staged).set p e := by
  induction staged generalizing d with
  | nil => rfl
  | cons s rest ih =>
      obtain ⟨hs, hp⟩ := List.forall_mem_cons.mp hp
      rw [discard, discard, Disk.erase_set (Ne.symm hs), ih hp]

end Discard

/-! ## Files that wait for their targets -/

/-- On the disk `busy`, the files wait at staging places in the directory at `home`. Without
them it is the disk `d`. -/
structure Waiting (limit : Nat) (home : Place) (dir : String) (d busy : Disk)
    (staged : List (Staged Place)) (files : List SourceFile) : Prop where
  contents : List.Forall₂ (fun s f => s.target = Path.join dir f.path ∧
    busy.get? s.place = some (.file f.content.toUTF8)) staged files
  long : ∀ s ∈ staged, ∃ name, s.place = home ++ [name] ∧ limit < name.length
  distinct : (staged.map (·.place)).Nodup
  discard_eq : discard busy staged = d

namespace Waiting

variable {limit : Nat} {home : Place} {dir : String} {d busy : Disk}
  {staged : List (Staged Place)} {files : List SourceFile}

theorem mono {limit' : Nat} (h : Waiting limit home dir d busy staged files)
    (hlimit : limit' ≤ limit) : Waiting limit' home dir d busy staged files where
  contents := h.contents
  long s hs := by
    obtain ⟨name, hplace, hname⟩ := h.long s hs
    exact ⟨name, hplace, hlimit.trans_lt hname⟩
  distinct := h.distinct
  discard_eq := h.discard_eq

theorem place_ne_nil (h : Waiting limit home dir d busy staged files) {s : Staged Place}
    (hs : s ∈ staged) : s.place ≠ [] := by
  obtain ⟨name, hplace, -⟩ := h.long s hs
  simp [hplace]

theorem place_ne_of_short (h : Waiting limit home dir d busy staged files) {s : Staged Place}
    (hs : s ∈ staged) {p : Place} (hp : Disk.Short limit p) : s.place ≠ p := by
  rintro rfl
  obtain ⟨name, hplace, hname⟩ := h.long s hs
  exact absurd (hp name (by simp [hplace])) (Nat.not_le.mpr hname)

theorem locked_eq (h : Waiting limit home dir d busy staged files) : d.locked = busy.locked := by
  rw [← h.discard_eq, locked_discard]

/-- Staging files are seen at their own places only. -/
theorem agree (h : Waiting limit home dir d busy staged files) : Disk.Agree limit d busy := by
  intro p hp
  rw [← h.discard_eq]
  exact (get?_discard (fun s hs => h.place_ne_nil hs) fun s hs => h.place_ne_of_short hs hp).symm

/-- After a move of the first file, the other ones still wait. -/
theorem moved {s : Staged Place} {f : SourceFile}
    (h : Waiting limit home dir d busy (s :: staged) (f :: files)) {p : Place}
    (hp : Disk.Short limit p) (hne : p ≠ []) (e : DiskEntry) :
    Waiting limit home dir (d.set p e) ((busy.erase s.place).set p e) staged files where
  contents := by
    obtain ⟨-, hrest⟩ := List.forall₂_cons.mp h.contents
    refine ((List.forall₂_and_left _ _).mpr ⟨fun _ ht => ht, hrest⟩).imp ?_
    rintro t g ⟨ht, htarget, hwaits⟩
    refine ⟨htarget, ?_⟩
    have hts : t.place ≠ s.place := fun heq =>
      (List.nodup_cons.mp h.distinct).1 (List.mem_map.mpr ⟨t, ht, heq⟩)
    rw [Disk.get?_set hne, if_neg (h.place_ne_of_short (List.mem_cons_of_mem _ ht) hp),
      Disk.get?_erase (h.place_ne_nil List.mem_cons_self), if_neg hts]
    exact hwaits
  long t ht := h.long t (List.mem_cons_of_mem _ ht)
  distinct := (List.nodup_cons.mp h.distinct).2
  discard_eq := by
    rw [discard_set fun t ht => h.place_ne_of_short (List.mem_cons_of_mem _ ht) hp]
    exact congrArg (Disk.set · p e) h.discard_eq

/-- A place with short names is not inside the directory of a staging file. -/
theorem isPrefixOf_place {s : Staged Place} (h : Waiting limit home dir d busy (s :: staged) files)
    {p : Place} (hp : Disk.Short limit p) :
    (p.isPrefixOf s.place && p != s.place) = p.isPrefixOf home := by
  have hne : p ≠ s.place := (h.place_ne_of_short List.mem_cons_self hp).symm
  obtain ⟨name, hplace, -⟩ := h.long s List.mem_cons_self
  rw [bne_iff_ne.mpr hne, Bool.and_true, Bool.eq_iff_iff, List.isPrefixOf_iff_prefix,
    List.isPrefixOf_iff_prefix, hplace, List.prefix_concat_iff, ← hplace, or_iff_right hne]

/-- The first file is moved as it would be written on the disk without staging files. -/
theorem moveFile_eq {s : Staged Place} {f : SourceFile}
    (h : Waiting limit home dir d busy (s :: staged) (f :: files)) {path : String}
    (hpath : path.length ≤ limit) :
    busy.moveFile s.place path =
      match d.landing home path with
      | .error cause => .error cause
      | .ok place => .ok ((busy.erase s.place).set place (.file f.content.toUTF8)) := by
  obtain ⟨⟨-, hcontent⟩, -⟩ := List.forall₂_cons.mp h.contents
  unfold Disk.moveFile Disk.landing
  rw [h.agree.destination hpath]
  split
  · rfl
  cases hdestination : d.destination path with
  | error cause => rfl
  | ok target =>
      simp only [bind, Except.bind]
      by_cases hdots : target.isDots = true
      · rw [if_pos hdots, if_pos hdots]
      · rw [if_neg hdots, if_neg hdots]
        have hshort : Disk.Short limit target.place :=
          (Disk.short_of_destination_eq_ok hpath hdestination).resolve_left hdots
        have hchild : busy.child? target.home target.last = d.child? target.home target.last := by
          have hthere := h.agree target.place hshort
          rw [Disk.Destination.place] at hthere
          rw [Disk.child?, Disk.child?, hthere]
        rw [hchild, h.locked_eq, h.isPrefixOf_place hshort, hcontent]
        simp only [List.contains_iff_mem]
        cases d.child? target.home target.last with
        | error cause => rfl
        | ok there =>
            dsimp only
            split
            · rfl
            split
            · rfl
            split
            · rfl
            · cases there with
              | none => rfl
              | some e => cases e <;> rfl

/-- Whatever goes wrong with the move goes wrong on both disks. -/
theorem moveStaged_eq {s : Staged Place} {f : SourceFile}
    (h : Waiting limit home dir d busy (s :: staged) (f :: files))
    (hpath : (Path.join dir f.path).length ≤ limit) (m : Mishaps) (i : Nat) :
    moveStaged m i busy s =
      match landingUnder m i d home (Path.join dir f.path) with
      | .error cause => .error cause
      | .ok place => .ok ((busy.erase s.place).set place (.file f.content.toUTF8)) := by
  obtain ⟨⟨htarget, -⟩, -⟩ := List.forall₂_cons.mp h.contents
  unfold moveStaged landingUnder
  cases m.moving i with
  | some cause => rfl
  | none => rw [htarget]; exact h.moveFile_eq hpath

end Waiting

theorem short_of_landing_eq_ok {limit : Nat} {d : Disk} {home p : Place} {path : String}
    (hpath : path.length ≤ limit) (h : d.landing home path = .ok p) :
    Disk.Short limit p ∧ p ≠ [] := by
  obtain ⟨target, hlands, rfl⟩ := Disk.exists_lands_of_landing_eq_ok h
  have hshort := (Disk.short_of_destination_eq_ok hpath hlands.destination).resolve_left
  exact ⟨hshort (by simp [hlands.isDots_eq_false]), target.place_ne_nil⟩

theorem short_of_landingUnder_eq_ok {limit : Nat} {m : Mishaps} {i : Nat} {d : Disk}
    {home p : Place} {path : String} (hpath : path.length ≤ limit)
    (h : landingUnder m i d home path = .ok p) : Disk.Short limit p ∧ p ≠ [] := by
  unfold landingUnder at h
  split at h
  · simp at h
  · exact short_of_landing_eq_ok hpath h

theorem run_moveAll_nil (m : Mishaps) (i : Nat) (d : Disk) :
    Attempt.of ((Disk.operations m).moveAll i []) d = ⟨d, [], .ok []⟩ :=
  rfl

/-- The first file is moved, or it and all later ones are removed. -/
theorem run_moveAll_cons (m : Mishaps) (i : Nat) (d : Disk) (s : Staged Place)
    (rest : List (Staged Place)) :
    Attempt.of ((Disk.operations m).moveAll i (s :: rest)) d =
      match moveStaged m i d s with
      | .error cause => ⟨discard d (s :: rest), [], .error (.notReplaced s.target cause)⟩
      | .ok moved =>
        let later := Attempt.of ((Disk.operations m).moveAll (i + 1) rest) moved
        { disk := later.disk
          events := .wrote s.target :: later.events
          outcome := later.outcome.map (s.target :: ·) } := by
  unfold Attempt.of
  rw [Operations.moveAll]
  cases hmove : moveStaged m i d s with
  | error cause =>
      have hstep : ((Disk.operations m).move i s.place s.target).run d = (.error cause, d) := by
        simp only [StateT.run, Disk.operations, hmove]
      rw [run_bind hstep]
      dsimp only
      rw [run_bind (run_discard m (s :: rest) d)]
      rfl
  | ok moved =>
      have hstep : ((Disk.operations m).move i s.place s.target).run d = (.ok (), moved) := by
        simp only [StateT.run, Disk.operations, hmove]
      rw [run_bind hstep]
      rfl

/-- Moving the files that wait is the same as writing them one by one. -/
theorem Waiting.moveAll_eq {limit : Nat} {home : Place} {dir : String} {d busy : Disk}
    {staged : List (Staged Place)} {files : List SourceFile}
    (h : Waiting limit home dir d busy staged files)
    (hpaths : ∀ f ∈ files, (Path.join dir f.path).length ≤ limit) (m : Mishaps) (i : Nat) :
    Attempt.of ((Disk.operations m).moveAll i staged) busy = replaceAll m i d home dir files := by
  -- By induction on the files, with the disk as it would be without staging files.
  induction files generalizing d busy staged i with
  | nil =>
      obtain rfl := List.forall₂_nil_right_iff.mp h.contents
      rw [run_moveAll_nil, replaceAll, ← h.discard_eq, discard]
  | cons f rest ih =>
      obtain ⟨s, later, ⟨htarget, -⟩, -, rfl⟩ := List.forall₂_cons_right_iff.mp h.contents
      obtain ⟨hpath, hpaths⟩ := List.forall_mem_cons.mp hpaths
      rw [run_moveAll_cons, replaceAll, h.moveStaged_eq hpath, htarget]
      cases hlanding : landingUnder m i d home (Path.join dir f.path) with
      | error cause => simp only [h.discard_eq]
      | ok place =>
          obtain ⟨hshort, hne⟩ := short_of_landingUnder_eq_ok hpath hlanding
          have hlater := ih (h.moved hshort hne (.file f.content.toUTF8)) hpaths (i + 1)
          dsimp only
          exact hlater ▸ rfl

/-! ## Staging -/

theorem start_le_foldl_max (ns : List Nat) (start : Nat) : start ≤ ns.foldl max start := by
  induction ns generalizing start with
  | nil => exact le_rfl
  | cons n rest ih => exact (le_max_left start n).trans (ih _)

theorem le_foldl_max_of_mem {n : Nat} {ns : List Nat} (h : n ∈ ns) (start : Nat) :
    n ≤ ns.foldl max start := by
  induction ns generalizing start with
  | nil => exact False.elim (List.not_mem_nil h)
  | cons m rest ih =>
      rcases List.mem_cons.mp h with rfl | h
      · exact (le_max_right start n).trans (start_le_foldl_max rest _)
      · exact ih h _

section Stage

variable {d : Disk} {home p : Place} {dir : String} {limit : Nat} {e : DiskEntry}

theorem length_le_longestName {entry : Place × DiskEntry} (hentry : entry ∈ d.entries)
    {name : String} (hname : name ∈ entry.1) : name.length ≤ longestName d :=
  le_foldl_max_of_mem (List.mem_map_of_mem (List.mem_flatMap.mpr ⟨entry, hentry, hname⟩)) 0

theorem lt_length_freshName (d : Disk) (limit : Nat) :
    longestName d + limit < (freshName d limit).length := by
  have hzeros : (String.ofList (List.replicate (longestName d + limit) '0')).length =
      longestName d + limit := by
    rw [String.length_ofList, List.length_replicate]
  have hfixed : ".generate_ast".length = 13 := by decide
  unfold freshName
  rw [String.length_append, String.length_append, hzeros, hfixed]
  omega

theorem isNew_freshName (d : Disk) (home : Place) (limit : Nat) :
    d.IsNew (home ++ [freshName d limit]) := by
  rintro entry hentry heq
  have hmem : freshName d limit ∈ entry.1 := by simp [heq]
  have hlength := length_le_longestName hentry hmem
  have hlong := lt_length_freshName d limit
  omega

theorem longestName_set (hp : d.IsNew p) :
    longestName (d.set p e) = (p.map String.length).foldl max (longestName d) := by
  unfold longestName Disk.set
  rw [Disk.setEntry_eq_append hp, List.flatMap_append, List.map_append, List.foldl_append]
  simp

/-- Files that wait on a disk with one more staging file wait together with it. -/
theorem Waiting.stage {name : String} {f : SourceFile} {busy : Disk}
    {staged : List (Staged Place)} {files : List SourceFile}
    (h : Waiting (longestName (d.set (home ++ [name]) (.file f.content.toUTF8)) + limit) home dir
      (d.set (home ++ [name]) (.file f.content.toUTF8)) busy staged files)
    (hnew : d.IsNew (home ++ [name])) (hlong : longestName d + limit < name.length) :
    Waiting (longestName d + limit) home dir d busy
      (⟨home ++ [name], Path.join dir f.path⟩ :: staged) (f :: files) := by
  have hlength := longestName_set (e := .file f.content.toUTF8) hnew
  have hgrows : longestName d ≤ longestName (d.set (home ++ [name]) (.file f.content.toUTF8)) :=
    hlength ▸ start_le_foldl_max _ _
  have hname : name.length ≤ longestName (d.set (home ++ [name]) (.file f.content.toUTF8)) :=
    hlength ▸ le_foldl_max_of_mem (List.mem_map_of_mem (by simp)) _
  -- The later names are longer than this one, which is on the disk when they are chosen.
  have hlater : ∀ s ∈ staged, s.place ≠ home ++ [name] := by
    intro s hs heq
    obtain ⟨name', hplace, hname'⟩ := h.long s hs
    obtain rfl : name = name' := by simpa [heq] using hplace
    omega
  have hcontent := get?_discard (d := busy) (fun s hs => h.place_ne_nil hs) hlater
  rw [h.discard_eq, Disk.get?_set (by simp), if_pos rfl] at hcontent
  exact {
    contents := .cons ⟨rfl, hcontent.symm⟩ h.contents
    long := List.forall_mem_cons.mpr
      ⟨⟨name, rfl, hlong⟩, (h.mono (Nat.add_le_add_right hgrows limit)).long⟩
    distinct := List.nodup_cons.mpr ⟨fun hmem => by
      obtain ⟨s, hs, heq⟩ := List.mem_map.mp hmem
      exact hlater s hs heq, h.distinct⟩
    discard_eq := by rw [discard, discard_erase, h.discard_eq, hnew.erase_set] }

variable {m : Mishaps} {i : Nat} {targets : List String}

theorem hindrance?_set : hindrance? m (d.set p e) home dir i = hindrance? m d home dir i := rfl

/-- If nothing hinders the first file and the ones after it, nothing hinders those on a disk
with one more entry. -/
theorem unhindered_of_succ {n : Nat} (h : ∀ j < n + 1, hindrance? m d home dir (i + j) = none) :
    hindrance? m d home dir i = none ∧
      ∀ j < n, hindrance? m (d.set p e) home dir (i + 1 + j) = none := by
  refine ⟨h 0 (Nat.succ_pos n), fun j hj => ?_⟩
  rw [hindrance?_set, Nat.add_right_comm]
  exact h (j + 1) (Nat.succ_lt_succ hj)

/-- Nothing hinders the staging of the files, or there is a first one that cannot be staged. -/
theorem hindrance_cases (m : Mishaps) (d : Disk) (home : Place) (dir : String)
    (files : List SourceFile) :
    (∀ j < files.length, hindrance? m d home dir j = none) ∨
    ∃ first f later mishap, files = first ++ f :: later ∧
      (∀ j < first.length, hindrance? m d home dir j = none) ∧
      hindrance? m d home dir first.length = some mishap := by
  induction files using List.reverseRecOn with
  | nil => exact Or.inl (by simp)
  | append_singleton files f ih =>
      rcases ih with hfree | ⟨first, g, later, mishap, rfl, hfirst, hmishap⟩
      · cases hlast : hindrance? m d home dir files.length with
        | some mishap => exact Or.inr ⟨files, f, [], mishap, rfl, hfree, hlast⟩
        | none =>
            refine Or.inl fun j hj => ?_
            rw [List.length_append, List.length_singleton, Nat.lt_succ_iff_lt_or_eq] at hj
            rcases hj with hj | rfl
            · exact hfree j hj
            · exact hlast
      · exact Or.inr ⟨first, g, later ++ [f], mishap, by simp, hfirst, hmishap⟩

theorem staging_eq_none (h : hindrance? m d home dir i = none) : m.staging i = none := by
  unfold hindrance? at h
  split at h
  · simp at h
  split at h
  · simp at h
  · exact h

/-- What hinders a file and lets its staging file be created is a mishap. -/
theorem staging_eq_some {mishap : StagingMishap} (h : hindrance? m d home dir i = some mishap)
    (hcreated : ∀ cause, mishap ≠ .notCreated cause) : m.staging i = some mishap := by
  unfold hindrance? at h
  split at h
  · exact absurd (Option.some.inj h).symm (hcreated _)
  split at h
  · exact absurd (Option.some.inj h).symm (hcreated _)
  · exact h

theorem run_create (hcreated : ∀ cause, hindrance? m d home dir i ≠ some (.notCreated cause)) :
    ((Disk.operations m).create home dir targets i).run d =
      (.ok (home ++ [freshName d (longestTarget targets)]),
        d.set (home ++ [freshName d (longestTarget targets)]) (.file .empty)) := by
  simp only [StateT.run, Disk.operations]

theorem run_write (hwritten : ∀ part cause, m.staging i ≠ some (.notWritten part cause))
    (place : Place) (content : String) :
    ((Disk.operations m).write i place content).run (d.set place (.file .empty)) =
      (.ok (), d.set place (.file content.toUTF8)) := by
  simp only [StateT.run, Disk.operations, Disk.set_set]

theorem run_remove (hnew : d.IsNew p) :
    ((Disk.operations m).remove p).run (d.set p e) = ((), d) := by
  simp only [StateT.run, Disk.operations, hnew.erase_set]

theorem run_stageFile_of_unhindered (h : hindrance? m d home dir i = none)
    (target content : String) :
    ((Disk.operations m).stageFile home dir targets i target content).run d =
      (.ok ⟨home ++ [freshName d (longestTarget targets)], target⟩,
        d.set (home ++ [freshName d (longestTarget targets)]) (.file content.toUTF8)) := by
  have hstaging := staging_eq_none h
  rw [Operations.stageFile, run_bind (run_create (by simp [h]))]
  generalize home ++ [freshName d (longestTarget targets)] = place
  have hpermit : ((Disk.operations m).permit i place).run (d.set place (.file content.toUTF8)) =
      (.ok (), d.set place (.file content.toUTF8)) := by
    simp only [StateT.run, Disk.operations, hstaging]
  dsimp only
  rw [run_bind (run_write (by simp [hstaging]) place content)]
  dsimp only
  rw [run_bind hpermit]
  rfl

/-- A file that is hindered leaves no trace. -/
theorem run_stageFile_of_mishap {mishap : StagingMishap}
    (h : hindrance? m d home dir i = some mishap) (target content : String) :
    ((Disk.operations m).stageFile home dir targets i target content).run d =
      (.error (mishap.fault target dir), d) := by
  have hnew := isNew_freshName d home (longestTarget targets)
  cases mishap with
  | notCreated cause =>
      have hcreate : ((Disk.operations m).create home dir targets i).run d = (.error cause, d) := by
        simp only [StateT.run, Disk.operations, h]
      rw [Operations.stageFile, run_bind hcreate]
      rfl
  | notWritten part cause =>
      have hstaging := staging_eq_some h (by simp)
      rw [Operations.stageFile, run_bind (run_create (by simp [h]))]
      generalize home ++ [freshName d (longestTarget targets)] = place at hnew
      have hwrite : ((Disk.operations m).write i place content).run (d.set place (.file .empty)) =
          (.error cause, d.set place (.file part)) := by
        simp only [StateT.run, Disk.operations, hstaging, Disk.set_set]
      dsimp only
      rw [run_bind hwrite]
      dsimp only
      rw [run_bind (run_remove hnew)]
      rfl
  | notPermitted cause =>
      have hstaging := staging_eq_some h (by simp)
      rw [Operations.stageFile, run_bind (run_create (by simp [h]))]
      generalize home ++ [freshName d (longestTarget targets)] = place at hnew
      have hpermit : ((Disk.operations m).permit i place).run
          (d.set place (.file content.toUTF8)) =
            (.error cause, d.set place (.file content.toUTF8)) := by
        simp only [StateT.run, Disk.operations, hstaging]
      dsimp only
      rw [run_bind (run_write (by simp [hstaging]) place content)]
      dsimp only
      rw [run_bind hpermit]
      dsimp only
      rw [run_bind (run_remove hnew)]
      rfl

theorem run_stage_cons_of_mishap {mishap : StagingMishap}
    (h : hindrance? m d home dir i = some mishap) (f : SourceFile) (rest : List SourceFile) :
    ((Disk.operations m).stage home dir targets i (f :: rest)).run d =
      (.error (mishap.fault (Path.join dir f.path) dir), d) := by
  rw [Operations.stage, run_bind (run_stageFile_of_mishap h _ _)]
  rfl

theorem run_stage_cons_of_unhindered (h : hindrance? m d home dir i = none) (f : SourceFile)
    (rest : List SourceFile) :
    ((Disk.operations m).stage home dir targets i (f :: rest)).run d =
      match ((Disk.operations m).stage home dir targets (i + 1) rest).run
          (d.set (home ++ [freshName d (longestTarget targets)]) (.file f.content.toUTF8)) with
      | (.error fault, busy) =>
        (.error fault, busy.erase (home ++ [freshName d (longestTarget targets)]))
      | (.ok staged, busy) =>
        (.ok (⟨home ++ [freshName d (longestTarget targets)], Path.join dir f.path⟩ :: staged),
          busy) := by
  rw [Operations.stage, run_bind (run_stageFile_of_unhindered h _ _)]
  dsimp only
  split
  next hrest =>
    rw [run_bind hrest]
    rfl
  next hrest =>
    rw [run_bind hrest]
    rfl

/-- The first hindrance ends the staging, and the disk is as it was. -/
theorem run_stage_of_mishap {mishap : StagingMishap} {before after : List SourceFile}
    (hbefore : ∀ j < before.length, hindrance? m d home dir (i + j) = none)
    (h : hindrance? m d home dir (i + before.length) = some mishap) (f : SourceFile) :
    ((Disk.operations m).stage home dir targets i (before ++ f :: after)).run d =
      (.error (mishap.fault (Path.join dir f.path) dir), d) := by
  induction before generalizing d i with
  | nil => exact run_stage_cons_of_mishap h f after
  | cons g rest ih =>
      obtain ⟨hfirst, hrest⟩ := unhindered_of_succ
        (p := home ++ [freshName d (longestTarget targets)]) (e := .file g.content.toUTF8) hbefore
      have hlater := ih hrest (by rw [hindrance?_set, Nat.add_right_comm]; exact h)
      rw [List.cons_append, run_stage_cons_of_unhindered hfirst, hlater]
      simp only [(isNew_freshName d home (longestTarget targets)).erase_set]

theorem exists_run_stage {files : List SourceFile}
    (h : ∀ j < files.length, hindrance? m d home dir (i + j) = none) :
    ∃ staged busy,
      ((Disk.operations m).stage home dir targets i files).run d = (.ok staged, busy) := by
  induction files generalizing d i with
  | nil => exact ⟨[], d, rfl⟩
  | cons f rest ih =>
      obtain ⟨hfirst, hrest⟩ := unhindered_of_succ
        (p := home ++ [freshName d (longestTarget targets)]) (e := .file f.content.toUTF8) h
      obtain ⟨staged, busy, hlater⟩ := ih hrest
      rw [run_stage_cons_of_unhindered hfirst, hlater]
      exact ⟨_, busy, rfl⟩

/-- What has been staged waits at places with names longer than all names on the disk. -/
theorem waiting_of_run_stage {files : List SourceFile} {staged : List (Staged Place)}
    {busy : Disk}
    (h : ((Disk.operations m).stage home dir targets i files).run d = (.ok staged, busy)) :
    Waiting (longestName d + longestTarget targets) home dir d busy staged files := by
  induction files generalizing d i staged with
  | nil =>
      obtain ⟨hstaged, rfl⟩ := Prod.mk.inj h
      obtain rfl := Except.ok.inj hstaged
      exact ⟨.nil, by simp, by simp, rfl⟩
  | cons f rest ih =>
      cases hhindrance : hindrance? m d home dir i with
      | some mishap =>
          rw [run_stage_cons_of_mishap hhindrance] at h
          exact absurd (Prod.mk.inj h).1 (by simp)
      | none =>
          rw [run_stage_cons_of_unhindered hhindrance] at h
          generalize hname : freshName d (longestTarget targets) = name at h
          have hnew : d.IsNew (home ++ [name]) := hname ▸ isNew_freshName d home _
          have hlong : longestName d + longestTarget targets < name.length :=
            hname ▸ lt_length_freshName d _
          split at h
          next => exact absurd (Prod.mk.inj h).1 (by simp)
          next later busy' hrest =>
            obtain ⟨hstaged, rfl⟩ := Prod.mk.inj h
            obtain rfl := Except.ok.inj hstaged
            exact (ih hrest).stage hnew hlong

end Stage

end Install

/-! ## Putting files in place -/

variable {d : Disk} {dir : String} {home : Place}

open Install

theorem run_find_of_opens (h : d.Opens dir home) (m : Mishaps) :
    ((Disk.operations m).find dir).run d = (some home, d) := by
  simp only [StateT.run, Disk.operations, h.located, h.directory, if_true]

theorem installUnder_of_not_opens
    (h : ∀ home, ¬d.Opens dir home) (m : Mishaps) (files : List SourceFile) :
    installUnder m d dir files = ⟨d, [], .error (.noDirectory dir)⟩ := by
  have hfind : ((Disk.operations m).find dir).run d = (none, d) := by
    simp only [StateT.run, Disk.operations]
    cases hlocated : d.locate dir with
    | error fault => rfl
    | ok home =>
        have hdirectory : d.holdsDirectory home = false :=
          Bool.eq_false_iff.mpr fun hdirectory => h home ⟨hlocated, hdirectory⟩
        simp only [hdirectory, Bool.false_eq_true, if_false]
  unfold installUnder Attempt.of
  rw [Operations.install, run_bind hfind]
  rfl

/-- The first hindrance in an open directory ends the run, and the disk is as it was. -/
theorem installUnder_of_mishap
    {m : Mishaps} {mishap : StagingMishap} {before after : List SourceFile}
    (h : d.Opens dir home) (hbefore : ∀ j < before.length, hindrance? m d home dir j = none)
    (hmishap : hindrance? m d home dir before.length = some mishap) (f : SourceFile) :
    installUnder m d dir (before ++ f :: after) =
      ⟨d, [], .error (mishap.fault (Path.join dir f.path) dir)⟩ := by
  unfold installUnder Attempt.of
  rw [Operations.install, run_bind (run_find_of_opens h m)]
  dsimp only
  rw [run_bind (run_stage_of_mishap (by simpa using hbefore) (by simpa using hmishap) f)]
  rfl

/-- Where nothing hinders the staging, the files are written one by one. -/
theorem installUnder_eq_replaceAll {m : Mishaps} {files : List SourceFile}
    (h : d.Opens dir home) (hfree : ∀ j < files.length, hindrance? m d home dir j = none) :
    installUnder m d dir files = replaceAll m 0 d home dir files := by
  have hpaths : ∀ f ∈ files, (Path.join dir f.path).length ≤
      longestTarget (files.map fun f => Path.join dir f.path) := by
    intro f hf
    have hmem : (Path.join dir f.path).length ∈
        (files.map fun f => Path.join dir f.path).map String.length :=
      List.mem_map_of_mem (List.mem_map_of_mem hf)
    exact le_foldl_max_of_mem hmem 0
  obtain ⟨staged, busy, hstage⟩ : ∃ staged busy,
      ((Disk.operations m).stage home dir (files.map fun f => Path.join dir f.path) 0 files).run d =
        (.ok staged, busy) :=
    exists_run_stage (by simpa using hfree)
  have hwaiting := (waiting_of_run_stage hstage).mono (Nat.le_add_left _ (longestName d))
  rw [← hwaiting.moveAll_eq hpaths m 0]
  unfold installUnder Attempt.of
  rw [Operations.install, run_bind (run_find_of_opens h m)]
  dsimp only
  rw [run_bind hstage]

end Treewright
