import Treewright.Files.Disk
import Treewright.Proofs.Outcome
import Treewright.Proofs.Path

/-!
# Places on disks

Setting and removing what is at one place says nothing about any other place, and a path is
followed through directories only.  So a path leads to the same directory on every disk with
the same directories, and two disks that agree on all places which a path can name cannot be
told apart by following it.
-/

namespace Treewright.Disk

variable {d d' : Disk} {p q : Place} {e : DiskEntry}

/-! ## Setting and removing -/

theorem lookup_cons_eq {r : Place} {old : DiskEntry} {rest : List (Place × DiskEntry)} :
    ((r, old) :: rest).lookup q = if q = r then some old else rest.lookup q := by
  rw [List.lookup_cons]
  by_cases hq : q = r
  · simp [hq]
  · rw [if_neg hq, beq_false_of_ne hq]

theorem lookup_setEntry (entries : List (Place × DiskEntry)) :
    (setEntry p e entries).lookup q = if q = p then some e else entries.lookup q := by
  induction entries with
  | nil => rw [setEntry, lookup_cons_eq]
  | cons head rest ih =>
      obtain ⟨r, old⟩ := head
      rw [setEntry]
      by_cases hr : r = p
      · rw [if_pos hr, hr, lookup_cons_eq, lookup_cons_eq]
        by_cases hq : q = p
        · rw [if_pos hq, if_pos hq]
        · rw [if_neg hq, if_neg hq, if_neg hq]
      · rw [if_neg hr, lookup_cons_eq, lookup_cons_eq, ih]
        by_cases hq : q = r
        · rw [if_pos hq, if_pos hq, if_neg (hq ▸ hr)]
        · rw [if_neg hq, if_neg hq]

theorem lookup_filter_ne (entries : List (Place × DiskEntry)) :
    (entries.filter fun (r, _) => decide (r ≠ p)).lookup q =
      if q = p then none else entries.lookup q := by
  induction entries with
  | nil => simp
  | cons head rest ih =>
      obtain ⟨r, old⟩ := head
      by_cases hr : r = p
      · rw [List.filter_cons_of_neg (by simpa using hr), ih, lookup_cons_eq, hr]
        by_cases hq : q = p
        · rw [if_pos hq, if_pos hq]
        · rw [if_neg hq, if_neg hq, if_neg hq]
      · rw [List.filter_cons_of_pos (by simpa using hr), lookup_cons_eq, lookup_cons_eq, ih]
        by_cases hq : q = r
        · rw [if_pos hq, if_pos hq, if_neg (hq ▸ hr)]
        · rw [if_neg hq, if_neg hq]

/-- What is set at a place is there, and nothing else has changed. -/
theorem get?_set (hp : p ≠ []) : (d.set p e).get? q = if q = p then some e else d.get? q := by
  unfold get? set
  rw [lookup_setEntry]
  by_cases hq : q = p
  · simp [hq, hp]
  · simp [hq]

/-- Nothing is at a place from which it has been removed, and nothing else has changed. -/
theorem get?_erase (hp : p ≠ []) : (d.erase p).get? q = if q = p then none else d.get? q := by
  unfold get? erase
  rw [lookup_filter_ne]
  by_cases hq : q = p
  · simp [hq, hp]
  · simp [hq]

@[simp] theorem locked_set : (d.set p e).locked = d.locked := rfl

@[simp] theorem locked_erase : (d.erase p).locked = d.locked := rfl

theorem setEntry_eq_self {entries : List (Place × DiskEntry)}
    (h : entries.lookup p = some e) : setEntry p e entries = entries := by
  induction entries with
  | nil => simp at h
  | cons head rest ih =>
      obtain ⟨r, old⟩ := head
      rw [lookup_cons_eq] at h
      rw [setEntry]
      by_cases hr : r = p
      · obtain rfl : old = e := by simpa [hr] using h
        rw [if_pos hr]
      · rw [if_neg (Ne.symm hr)] at h
        rw [if_neg hr, ih h]

theorem set_eq_self (hp : p ≠ []) (h : d.get? p = some e) : d.set p e = d := by
  rw [get?, if_neg hp] at h
  unfold set
  rw [setEntry_eq_self h]

theorem setEntry_setEntry {e' : DiskEntry} (entries : List (Place × DiskEntry)) :
    setEntry p e' (setEntry p e entries) = setEntry p e' entries := by
  induction entries with
  | nil => simp [setEntry]
  | cons head rest ih =>
      obtain ⟨r, old⟩ := head
      rw [setEntry]
      by_cases hr : r = p
      · rw [if_pos hr, setEntry, if_pos hr, setEntry, if_pos hr]
      · rw [if_neg hr, setEntry, if_neg hr, ih, setEntry, if_neg hr]

@[simp] theorem set_set {e' : DiskEntry} : (d.set p e).set p e' = d.set p e' := by
  unfold set
  rw [setEntry_setEntry]

theorem mem_setEntry {entries : List (Place × DiskEntry)} {entry : Place × DiskEntry}
    (h : entry ∈ setEntry p e entries) : entry = (p, e) ∨ entry ∈ entries := by
  induction entries with
  | nil => exact Or.inl (List.mem_singleton.mp h)
  | cons head rest ih =>
      obtain ⟨r, old⟩ := head
      rw [setEntry] at h
      split at h
      next hr =>
        rcases List.mem_cons.mp h with rfl | h
        · exact Or.inl (congrArg (·, e) hr)
        · exact Or.inr (List.mem_cons_of_mem _ h)
      next =>
        rcases List.mem_cons.mp h with rfl | h
        · exact Or.inr List.mem_cons_self
        · exact (ih h).imp_right (List.mem_cons_of_mem _)

theorem filter_setEntry {entries : List (Place × DiskEntry)} (h : q ≠ p) :
    (setEntry q e entries).filter (fun (r, _) => decide (r ≠ p)) =
      setEntry q e (entries.filter fun (r, _) => decide (r ≠ p)) := by
  induction entries with
  | nil => simp [setEntry, h]
  | cons head rest ih =>
      obtain ⟨r, old⟩ := head
      rw [setEntry]
      by_cases hrq : r = q
      · have hr : r ≠ p := hrq ▸ h
        rw [if_pos hrq, List.filter_cons_of_pos (by simpa using hr),
          List.filter_cons_of_pos (by simpa using hr), setEntry, if_pos hrq]
      · rw [if_neg hrq]
        by_cases hr : r = p
        · rw [List.filter_cons_of_neg (by simpa using hr), ih,
            List.filter_cons_of_neg (by simpa using hr)]
        · rw [List.filter_cons_of_pos (by simpa using hr), ih,
            List.filter_cons_of_pos (by simpa using hr), setEntry, if_neg hrq]

theorem erase_set (h : q ≠ p) : (d.set q e).erase p = (d.erase p).set q e := by
  unfold set erase
  rw [filter_setEntry h]

theorem erase_erase (p q : Place) : (d.erase p).erase q = (d.erase q).erase p := by
  unfold erase
  rw [List.filter_comm]

/-- A place is new on a disk. -/
def IsNew (d : Disk) (p : Place) : Prop :=
  ∀ entry ∈ d.entries, entry.1 ≠ p

theorem setEntry_eq_append {entries : List (Place × DiskEntry)}
    (h : ∀ entry ∈ entries, entry.1 ≠ p) : setEntry p e entries = entries ++ [(p, e)] := by
  induction entries with
  | nil => rfl
  | cons head rest ih =>
      obtain ⟨hhead, hrest⟩ := List.forall_mem_cons.mp h
      rw [setEntry, if_neg hhead, ih hrest, List.cons_append]

/-- What was set at a new place is removed without a trace. -/
theorem IsNew.erase_set (h : d.IsNew p) : (d.set p e).erase p = d := by
  have hfilter : d.entries.filter (fun (r, _) => decide (r ≠ p)) = d.entries :=
    List.filter_eq_self.mpr fun entry hentry => by simpa using h entry hentry
  unfold set erase
  rw [setEntry_eq_append h, List.filter_append, hfilter]
  simp

/-! ## Following paths -/

theorem holdsDirectory_eq_true_iff : d.holdsDirectory p = true ↔ d.get? p = some .directory := by
  unfold holdsDirectory
  split <;> simp_all

theorem child?_eq_ok_iff {name : String} {there : Option DiskEntry} :
    d.child? p name = .ok there ↔
      name.utf8ByteSize ≤ nameLimit ∧ d.get? (p ++ [name]) = there := by
  unfold child?
  split
  next hlong => simp [Nat.not_le.mpr hlong]
  next hshort => simp [Nat.not_lt.mp hshort]

/-- No name of the list is longer than the limit. -/
def Short (limit : Nat) (names : List String) : Prop :=
  ∀ name ∈ names, name.length ≤ limit

theorem short_nil (limit : Nat) : Short limit [] :=
  fun _ hname => False.elim (List.not_mem_nil hname)

theorem Short.append {limit : Nat} {names more : List String} (h : Short limit names)
    (hmore : Short limit more) : Short limit (names ++ more) :=
  List.forall_mem_append.mpr ⟨h, hmore⟩

theorem Short.dropLast {limit : Nat} {names : List String} (h : Short limit names) :
    Short limit names.dropLast :=
  fun name hname => h name (List.dropLast_subset names hname)

theorem short_rawParts {limit : Nat} {path : String} (h : path.length ≤ limit) :
    Short limit (Path.rawParts path) :=
  fun _ hpart => (Path.length_le_of_mem_rawParts hpart).trans h

/-- The names that are followed to the directory of a path. -/
theorem short_directoryNames {limit : Nat} {path : String} (h : path.length ≤ limit) :
    Short limit ((Path.rawParts path).dropLast.filter (· ≠ ".")) :=
  fun name hname => (short_rawParts h).dropLast name (List.mem_filter.mp hname).1

theorem short_of_walk_eq_ok {limit : Nat} {names : List String} (hnames : Short limit names)
    {place : Place} (hplace : Short limit place) (h : d.walk place names = .ok q) :
    Short limit q := by
  induction names generalizing place with
  | nil =>
      obtain rfl : place = q := Except.ok.inj h
      exact hplace
  | cons name rest ih =>
      obtain ⟨hname, hrest⟩ := List.forall_mem_cons.mp hnames
      have hnext : Short limit (place ++ [name]) :=
        hplace.append (List.forall_mem_singleton.mpr hname)
      rw [walk] at h
      split at h
      · exact ih hrest hplace.dropLast h
      · split at h
        · simp at h
        · simp at h
        · exact ih hrest hnext h
        · split at h
          · obtain rfl : place ++ [name] = q := Except.ok.inj h
            exact hnext
          · simp at h

/-- The disks have the same at all places with short names. -/
def Agree (limit : Nat) (d d' : Disk) : Prop :=
  ∀ place : Place, Short limit place → d'.get? place = d.get? place

theorem Agree.walk {limit : Nat} (h : Agree limit d d') {names : List String}
    (hnames : Short limit names) {place : Place} (hplace : Short limit place) :
    d'.walk place names = d.walk place names := by
  induction names generalizing place with
  | nil => rfl
  | cons name rest ih =>
      obtain ⟨hname, hrest⟩ := List.forall_mem_cons.mp hnames
      have hnext : Short limit (place ++ [name]) :=
        hplace.append (List.forall_mem_singleton.mpr hname)
      rw [Disk.walk, Disk.walk, child?, child?, h _ hnext, ih hrest hplace.dropLast,
        ih hrest hnext]

theorem Agree.holdsDirectory {limit : Nat} (h : Agree limit d d') (hp : Short limit p) :
    d'.holdsDirectory p = d.holdsDirectory p := by
  unfold Disk.holdsDirectory
  rw [h p hp]

theorem Agree.destination {limit : Nat} (h : Agree limit d d') {path : String}
    (hpath : path.length ≤ limit) : d'.destination path = d.destination path := by
  have hnames := short_directoryNames hpath
  unfold Disk.destination
  rw [h.walk hnames (short_nil limit)]
  cases hwalk : d.walk [] ((Path.rawParts path).dropLast.filter (· ≠ ".")) with
  | error fault => rfl
  | ok home =>
      simp only [bind, Except.bind,
        h.holdsDirectory (short_of_walk_eq_ok hnames (short_nil limit) hwalk)]

theorem walk_cons_dots {place : Place} {rest : List String} :
    d.walk place (".." :: rest) = d.walk place.dropLast rest := by
  rw [walk, if_pos rfl]

theorem walk_cons_of_get? {name : String} (hname : name ≠ "..")
    (hsize : name.utf8ByteSize ≤ nameLimit) {place : Place}
    (hthere : d.get? (place ++ [name]) = some .directory) {rest : List String} :
    d.walk place (name :: rest) = d.walk (place ++ [name]) rest := by
  rw [walk, if_neg hname, child?_eq_ok_iff.mpr ⟨hsize, hthere⟩]

/-- The first step of the way to a directory goes up or into a directory. -/
theorem walk_cons_cases {name : String} {place : Place} {rest : List String}
    (h : d.walk place (name :: rest) = .ok q) (hq : d.holdsDirectory q = true) :
    (name = ".." ∧ d.walk place.dropLast rest = .ok q) ∨
      (name ≠ ".." ∧ name.utf8ByteSize ≤ nameLimit ∧
        d.get? (place ++ [name]) = some .directory ∧ d.walk (place ++ [name]) rest = .ok q) := by
  rw [walk] at h
  by_cases hname : name = ".."
  · rw [if_pos hname] at h
    exact Or.inl ⟨hname, h⟩
  · rw [if_neg hname] at h
    split at h
    · simp at h
    · simp at h
    next hchild =>
      obtain ⟨hsize, hthere⟩ := child?_eq_ok_iff.mp hchild
      exact Or.inr ⟨hname, hsize, hthere, h⟩
    next hchild =>
      -- A file is at most the end of the way, and then it is no directory.
      obtain ⟨-, hthere⟩ := child?_eq_ok_iff.mp hchild
      split at h
      · obtain rfl : place ++ [name] = q := Except.ok.inj h
        rw [holdsDirectory_eq_true_iff, hthere] at hq
        simp at hq
      · simp at h

/-- The way to a directory stays open as long as all directories are there. -/
theorem walk_of_directories
    (hkeeps : ∀ r, d.holdsDirectory r = true → d'.holdsDirectory r = true)
    {names : List String} {place : Place} (h : d.walk place names = .ok q)
    (hq : d.holdsDirectory q = true) : d'.walk place names = .ok q := by
  induction names generalizing place with
  | nil => exact h
  | cons name rest ih =>
      rcases walk_cons_cases h hq with ⟨rfl, hrest⟩ | ⟨hname, hsize, hthere, hrest⟩
      · rw [walk_cons_dots, ih hrest]
      · have hthere' := hkeeps _ (holdsDirectory_eq_true_iff.mpr hthere)
        rw [holdsDirectory_eq_true_iff] at hthere'
        rw [walk_cons_of_get? hname hsize hthere', ih hrest]

theorem walk_append
    {names more : List String} {place : Place} (h : d.walk place names = .ok q)
    (hq : d.holdsDirectory q = true) : d.walk place (names ++ more) = d.walk q more := by
  induction names generalizing place with
  | nil =>
      obtain rfl : place = q := Except.ok.inj h
      rfl
  | cons name rest ih =>
      rw [List.cons_append]
      rcases walk_cons_cases h hq with ⟨rfl, hrest⟩ | ⟨hname, hsize, hthere, hrest⟩
      · rw [walk_cons_dots, ih hrest]
      · rw [walk_cons_of_get? hname hsize hthere, ih hrest]

theorem Destination.place_ne_nil (target : Destination) : target.place ≠ [] := by
  simp [Destination.place]

/-- The directory of a path is followed to, and the last part is left. -/
theorem destination_eq_ok_iff {path : String} {target : Destination} :
    d.destination path = .ok target ↔
      checkPath path = .ok () ∧
        d.walk [] ((Path.rawParts path).dropLast.filter (· ≠ ".")) = .ok target.home ∧
        d.holdsDirectory target.home = true ∧
        ((Path.rawParts path).getLast?).getD "." = target.last ∧
        Path.endsWithSlash path = target.slash := by
  constructor
  · intro h
    obtain ⟨u, hcheck, h⟩ := bind_eq_ok_iff.mp h
    obtain ⟨home, hwalk, h⟩ := bind_eq_ok_iff.mp h
    split at h
    · simp at h
    next hdirectory =>
      obtain rfl := Except.ok.inj h
      exact ⟨hcheck, hwalk, by simpa using hdirectory, rfl, rfl⟩
  · rintro ⟨hcheck, hwalk, hdirectory, hlast, hslash⟩
    refine bind_eq_ok_iff.mpr ⟨(), hcheck, bind_eq_ok_iff.mpr ⟨target.home, hwalk, ?_⟩⟩
    rw [if_neg (by simp [hdirectory]), hlast, hslash]

/-- A path ends at the same place as long as all directories are there. -/
theorem destination_of_directories
    (hkeeps : ∀ r, d.holdsDirectory r = true → d'.holdsDirectory r = true)
    {path : String} {target : Destination} (h : d.destination path = .ok target) :
    d'.destination path = .ok target := by
  obtain ⟨hcheck, hwalk, hdirectory, hlast⟩ := destination_eq_ok_iff.mp h
  exact destination_eq_ok_iff.mpr
    ⟨hcheck, walk_of_directories hkeeps hwalk hdirectory, hkeeps _ hdirectory, hlast⟩

/-- A file is read at the path that ends at its place. -/
theorem read_of_destination
    {path : String} {target : Destination} (h : d.destination path = .ok target)
    (hdots : target.isDots = false) (hslash : target.slash = false)
    (hsize : target.last.utf8ByteSize ≤ nameLimit) {content : ByteArray}
    (hthere : d.get? target.place = some (.file content)) : d.read path = .ok content := by
  obtain ⟨hcheck, hwalk, hdirectory, hlast, hends⟩ := destination_eq_ok_iff.mp h
  rw [Destination.isDots, Bool.or_eq_false_iff, beq_eq_false_iff_ne, beq_eq_false_iff_ne] at hdots
  obtain ⟨hdot, hdotdot⟩ := hdots
  have hraw : (Path.rawParts path).getLast? = some target.last := by
    cases hfound : (Path.rawParts path).getLast? with
    | none => exact absurd (by rw [← hlast, hfound]; rfl) hdot
    | some last => rw [← hlast, hfound]; rfl
  have hparts : Path.parts path =
      (Path.rawParts path).dropLast.filter (· ≠ ".") ++ [target.last] := by
    rw [Path.parts, ← List.dropLast_append_getLast? _ hraw, List.filter_append,
      List.dropLast_concat]
    simp [hdot]
  have hstep : d.walk target.home [target.last] = .ok target.place := by
    rw [walk, if_neg hdotdot, child?_eq_ok_iff.mpr ⟨hsize, hthere⟩]
    rfl
  have hlocated : d.locate path = .ok target.place := by
    unfold locate
    rw [hcheck, hparts, walk_append hwalk hdirectory, hstep, hends, hslash, hraw]
    simp [bind, Except.bind, hdot]
  unfold read
  rw [hlocated]
  simp only [hthere]

/-- A path with short parts ends at a place with short names, unless it ends with dots. -/
theorem short_of_destination_eq_ok {limit : Nat} {path : String} (hpath : path.length ≤ limit)
    {target : Destination} (h : d.destination path = .ok target) :
    target.isDots = true ∨ Short limit target.place := by
  obtain ⟨-, hwalk, -, hlast, -⟩ := destination_eq_ok_iff.mp h
  cases hfound : (Path.rawParts path).getLast? with
  | none =>
      rw [hfound] at hlast
      exact Or.inl (by simp [Destination.isDots, ← hlast])
  | some last =>
      rw [hfound] at hlast
      obtain rfl : last = target.last := hlast
      have hlength : target.last.length ≤ limit :=
        short_rawParts hpath _ (List.mem_of_getLast? hfound)
      have hhome : Short limit target.home :=
        short_of_walk_eq_ok (short_directoryNames hpath) (short_nil limit) hwalk
      exact Or.inr (hhome.append (List.forall_mem_singleton.mpr hlength))

/-! ## Open directories -/

theorem checkPath_eq_ok_iff {path : String} :
    checkPath path = .ok () ↔
      Path.holdsNul path = false ∧ path ≠ "" ∧ path.utf8ByteSize ≤ pathLimit := by
  unfold checkPath
  split
  next hnul => simp [hnul]
  next hnul =>
    split
    next hempty => simp_all
    next hempty =>
      split
      next hlong => simp [Nat.not_le.mpr hlong]
      next hshort => simp_all

/-- The path leads to the directory at a place. -/
structure Opens (d : Disk) (dir : String) (home : Place) : Prop where
  located : d.locate dir = .ok home
  directory : d.holdsDirectory home = true

variable {dir name : String} {home : Place}

theorem opens_iff :
    d.Opens dir home ↔
      checkPath dir = .ok () ∧ d.walk [] (Path.parts dir) = .ok home ∧
        d.holdsDirectory home = true := by
  constructor
  · rintro ⟨hlocated, hdirectory⟩
    obtain ⟨u, hcheck, hlocated⟩ := bind_eq_ok_iff.mp hlocated
    obtain ⟨place, hwalk, hlocated⟩ := bind_eq_ok_iff.mp hlocated
    refine ⟨hcheck, ?_, hdirectory⟩
    dsimp only at hlocated
    split at hlocated
    · simp at hlocated
    · rw [hwalk, Except.ok.inj hlocated]
  · rintro ⟨hcheck, hwalk, hdirectory⟩
    refine ⟨bind_eq_ok_iff.mpr ⟨_, hcheck, bind_eq_ok_iff.mpr ⟨home, hwalk, ?_⟩⟩, hdirectory⟩
    rw [if_neg (by simp [hdirectory])]

theorem Opens.ne_empty (h : d.Opens dir home) : dir ≠ "" :=
  (checkPath_eq_ok_iff.mp (opens_iff.mp h).1).2.1

theorem Opens.of_directories
    (h : d.Opens dir home) (hkeeps : ∀ r, d.holdsDirectory r = true → d'.holdsDirectory r = true) :
    d'.Opens dir home := by
  obtain ⟨hcheck, hwalk, hdirectory⟩ := opens_iff.mp h
  exact opens_iff.mpr
    ⟨hcheck, walk_of_directories hkeeps hwalk hdirectory, hkeeps home hdirectory⟩

theorem Opens.checkPath_join (h : d.Opens dir home) (hname : Path.IsPlain name) :
    checkPath (Path.join dir name) =
      if pathLimit < (Path.join dir name).utf8ByteSize then .error .nameTooLong else .ok () := by
  have hnul := (checkPath_eq_ok_iff.mp (opens_iff.mp h).1).1
  have hne := hname.join_ne_empty h.ne_empty
  unfold checkPath
  rw [hname.holdsNul_join h.ne_empty, hnul, if_neg Bool.false_ne_true, if_neg (by simpa using hne)]

/-- A plain name that is joined to an open directory ends in that directory. -/
theorem Opens.destination_join (h : d.Opens dir home) (hname : Path.IsPlain name) :
    d.destination (Path.join dir name) =
      if pathLimit < (Path.join dir name).utf8ByteSize then .error .nameTooLong
      else .ok ⟨home, name, false⟩ := by
  obtain ⟨-, hwalk, hdirectory⟩ := opens_iff.mp h
  rw [Path.parts] at hwalk
  unfold destination
  rw [h.checkPath_join hname, hname.rawParts_join h.ne_empty, hname.endsWithSlash_join h.ne_empty,
    List.dropLast_concat, List.getLast?_concat, hwalk]
  split
  · rfl
  · simp [bind, Except.bind, hdirectory]

/-- The file under a plain name in an open directory is read there. -/
theorem Opens.read_join
    (h : d.Opens dir home) (hname : Path.IsPlain name)
    (hpath : (Path.join dir name).utf8ByteSize ≤ pathLimit) (hsize : name.utf8ByteSize ≤ nameLimit)
    {content : ByteArray} (hthere : d.get? (home ++ [name]) = some (.file content)) :
    d.read (Path.join dir name) = .ok content := by
  have hdestination := h.destination_join hname
  rw [if_neg (Nat.not_lt.mpr hpath)] at hdestination
  have hdots : Destination.isDots ⟨home, name, false⟩ = false := by
    simp [Destination.isDots, hname.ne_dot, hname.ne_dots]
  exact read_of_destination hdestination hdots rfl hsize hthere

end Treewright.Disk
