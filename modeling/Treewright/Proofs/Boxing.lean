import Treewright.Proofs.LifetimeUse

/-!
# Families inside field types

A field that held a family by value would make the family contain itself, so a family is
put into a box wherever it does not stand directly in a container that keeps its contents
on the heap.  Whether it does is decided by the container around it alone, at every depth.

The statements speak of places.  A place leads from the outermost name of a type inwards,
and a written type has the same places as the type of the grammar: what is put around a
name, a box or a reference, stands at the place of the name.  What is left when boxes,
references and lifetimes are taken away again is the type of the grammar in the code of
its names.

That code belongs to the grammar and is copied as it is.  Where it spells the name of a
family, nothing is put around it.
-/

namespace Treewright

namespace TypeRef

/-- The type at a place: each step of a place is the position of an argument. -/
def at? : TypeRef → List ℕ → Option TypeRef
  | t, [] => some t
  | t, i :: place => t.args[i]?.bind fun arg => arg.at? place

@[simp] theorem at?_nil (t : TypeRef) : t.at? [] = some t := by
  rw [at?]

theorem at?_cons_eq_some_iff
    {t s : TypeRef} {i : ℕ} {place : List ℕ} :
    t.at? (i :: place) = some s ↔ ∃ arg, t.args[i]? = some arg ∧ arg.at? place = some s := by
  rw [at?, Option.bind_eq_some_iff]

/-- What stands at the place is an argument of a heap container itself, not only somewhere inside
one. -/
def InHeapContainer (o : Options) (t : TypeRef) (place : List ℕ) : Prop :=
  ∃ outside i container, place = outside ++ [i] ∧ t.at? outside = some container ∧
    o.isHeapContainer container.name = true

theorem not_inHeapContainer_nil (o : Options) (t : TypeRef) : ¬t.InHeapContainer o [] := by
  rintro ⟨outside, i, container, hplace, -⟩
  simp at hplace

/-- Only the container directly around a name counts. -/
theorem inHeapContainer_cons_iff
    {o : Options} {t arg : TypeRef} {i : ℕ} (harg : t.args[i]? = some arg) (place : List ℕ) :
    t.InHeapContainer o (i :: place) ↔
      place = [] ∧ o.isHeapContainer t.name = true ∨ arg.InHeapContainer o place := by
  constructor
  · rintro ⟨outside, j, container, hplace, hcontainer, hheap⟩
    cases outside with
    | nil =>
        obtain ⟨-, rfl⟩ := List.cons.inj hplace
        obtain rfl := Option.some.inj ((at?_nil t).symm.trans hcontainer)
        exact Or.inl ⟨rfl, hheap⟩
    | cons k outside =>
        obtain ⟨rfl, rfl⟩ := List.cons.inj hplace
        obtain ⟨arg', harg', hcontainer⟩ := at?_cons_eq_some_iff.mp hcontainer
        obtain rfl := Option.some.inj (harg.symm.trans harg')
        exact Or.inr ⟨outside, j, container, rfl, hcontainer, hheap⟩
  · rintro (⟨rfl, hheap⟩ | ⟨outside, j, container, rfl, hcontainer, hheap⟩)
    · exact ⟨[], i, t, rfl, at?_nil t, hheap⟩
    · exact ⟨i :: outside, j, container, rfl,
        at?_cons_eq_some_iff.mpr ⟨arg, harg, hcontainer⟩, hheap⟩

end TypeRef

namespace FieldType

/-- The arguments of a written type, which a box and a reference leave where they are. -/
def args : FieldType → List FieldType
  | family _ => []
  | boxed inner => inner.args
  | borrowed inner => inner.args
  | applied _ args => args

/-- The written type at a place, with what is put around it. -/
def at? : FieldType → List ℕ → Option FieldType
  | w, [] => some w
  | w, i :: place => w.args[i]?.bind fun arg => arg.at? place

@[simp] theorem at?_nil (w : FieldType) : w.at? [] = some w := by
  rw [at?]

theorem at?_cons_eq_some_iff
    {w v : FieldType} {i : ℕ} {place : List ℕ} :
    w.at? (i :: place) = some v ↔ ∃ arg, w.args[i]? = some arg ∧ arg.at? place = some v := by
  rw [at?, Option.bind_eq_some_iff]

mutual

/-- A written type without boxes, references and lifetimes. -/
def plain : FieldType → FieldType
  | family mention => .family ⟨mention.name, none⟩
  | boxed inner => inner.plain
  | borrowed inner => inner.plain
  | applied path args => .applied path (plainAll args)

def plainAll : List FieldType → List FieldType
  | [] => []
  | w :: rest => w.plain :: plainAll rest

end

theorem plainAll_eq_map (ws : List FieldType) : plainAll ws = ws.map plain := by
  induction ws with
  | nil => simp [plainAll]
  | cons w rest ih => simp [plainAll, ih]

end FieldType

/-- A type of the grammar in the code of its names: a family keeps its name, and any other
name becomes a path with the same arguments in the same order. -/
inductive Grammar.Renamed (g : Grammar) : TypeRef → FieldType → Prop
  | family {name : String} (h : g.isFamily name = true) :
      Renamed g ⟨name, []⟩ (.family ⟨name, none⟩)
  | applied {name : String} {args : List TypeRef} {path : Code.Path} {types : List FieldType}
      (h : g.isFamily name = false)
      (hpath : Code.Path.parse? (g.options.codeName name) = some path)
      (hargs : List.Forall₂ (Renamed g) args types) :
      Renamed g ⟨name, args⟩ (.applied path types)

namespace Linked

/-- A name that cannot be written where it stands: a family with arguments, or a name whose
code is not a path. -/
def Unwritable (l : Linked) (s : TypeRef) : Prop :=
  l.grammar.isFamily s.name = true ∧ s.args ≠ [] ∨
    l.grammar.isFamily s.name = false ∧
      Code.Path.parse? (l.grammar.options.codeName s.name) = none

section Written

variable {l : Linked} {box : Bool} {t : TypeRef} {w : FieldType}

theorem exists_fieldTypeIn_eq_ok_iff
    {name : String} {args : List TypeRef} :
    (∃ w, l.fieldTypeIn box ⟨name, args⟩ = .ok w) ↔
      ¬l.Unwritable ⟨name, args⟩ ∧ ∀ arg ∈ args, ∃ w,
        l.fieldTypeIn (!l.grammar.options.isHeapContainer name) arg = .ok w := by
  constructor
  · rintro ⟨w, hw⟩
    rcases fieldTypeIn_cases hw with ⟨hfamily, rfl, -⟩ | ⟨hfamily, types, path, htypes, hpath, -⟩
    · exact ⟨by simp [Unwritable, hfamily], by simp⟩
    · refine ⟨by simp [Unwritable, hfamily, hpath], ?_⟩
      intro arg harg
      obtain ⟨v, -, hv⟩ := exists_built_of_mem htypes harg
      exact ⟨v, hv⟩
  · rintro ⟨hwritable, hargs⟩
    cases hfamily : l.grammar.isFamily name with
    | true =>
        obtain rfl : args = [] := by simpa [Unwritable, hfamily] using hwritable
        exact ⟨_, fieldTypeIn_of_isFamily hfamily box⟩
    | false =>
        obtain ⟨path, hpath⟩ : ∃ path,
            Code.Path.parse? (l.grammar.options.codeName name) = some path := by
          simpa [Unwritable, hfamily, Option.ne_none_iff_exists'] using hwritable
        exact exists_fieldTypeIn_of_args hfamily hargs hpath box

/-- A type is written when each of its names can be. -/
theorem exists_fieldTypeIn_eq_ok_iff_at (l : Linked) (box : Bool) (t : TypeRef) :
    (∃ w, l.fieldTypeIn box t = .ok w) ↔
      ∀ place s, t.at? place = some s → ¬l.Unwritable s := by
  induction t using TypeRef.induction_args generalizing box with
  | step name args ih =>
      rw [exists_fieldTypeIn_eq_ok_iff]
      constructor
      · rintro ⟨hwritable, hargs⟩ place s hs
        cases place with
        | nil => rwa [← Option.some.inj hs]
        | cons i place =>
            obtain ⟨arg, harg, hs⟩ := TypeRef.at?_cons_eq_some_iff.mp hs
            have hmem : arg ∈ args := List.mem_of_getElem? harg
            exact (ih arg hmem _).mp (hargs arg hmem) place s hs
      · intro h
        refine ⟨h [] _ rfl, ?_⟩
        intro arg hmem
        obtain ⟨i, harg⟩ := List.getElem?_of_mem hmem
        apply (ih arg hmem _).mpr
        intro place s hs
        exact h (i :: place) s (TypeRef.at?_cons_eq_some_iff.mpr ⟨arg, harg, hs⟩)

theorem forall₂_args_of_fieldTypeIn
    (h : l.fieldTypeIn box t = .ok w) :
    List.Forall₂
      (fun arg v => l.fieldTypeIn (!l.grammar.options.isHeapContainer t.name) arg = .ok v)
      t.args w.args := by
  obtain ⟨name, args⟩ := t
  rcases fieldTypeIn_cases h with ⟨-, rfl, rfl⟩ | ⟨-, types, path, htypes, -, rfl⟩
  · cases box with
    | false => exact .nil
    | true => exact .nil
  · split
    · exact htypes
    · exact htypes

/-- What stands at a place is written on its own, and a family is boxed there unless it
stands directly in a heap container.  The outermost place has no container around it. -/
theorem exists_written_at
    {place : List ℕ} {s : TypeRef} (hs : t.at? place = some s) (h : l.fieldTypeIn box t = .ok w) :
    ∃ innerBox v, w.at? place = some v ∧ l.fieldTypeIn innerBox s = .ok v ∧
      (innerBox = true ↔
        ¬t.InHeapContainer l.grammar.options place ∧ (place = [] → box = true)) := by
  -- Each step inwards hands the flag of the container on and forgets the one it was given.
  induction place generalizing box t w with
  | nil =>
      obtain rfl := Option.some.inj ((TypeRef.at?_nil t).symm.trans hs)
      exact ⟨box, w, FieldType.at?_nil w, h, by simp [TypeRef.not_inHeapContainer_nil]⟩
  | cons i place ih =>
      obtain ⟨arg, harg, hs⟩ := TypeRef.at?_cons_eq_some_iff.mp hs
      obtain ⟨v, hv, hwritten⟩ := exists_getElem?_of_forall₂ (forall₂_args_of_fieldTypeIn h) harg
      obtain ⟨innerBox, u, hu, hinner, hbox⟩ := ih hs hwritten
      refine ⟨innerBox, u, FieldType.at?_cons_eq_some_iff.mpr ⟨v, hv, hu⟩, hinner, ?_⟩
      rw [hbox, TypeRef.inHeapContainer_cons_iff harg]
      cases l.grammar.options.isHeapContainer t.name with
      | false => simp
      | true => simp [and_comm]

/-- A written type has no places beyond those of the type. -/
theorem exists_source_at
    {place : List ℕ} {v : FieldType} (hv : w.at? place = some v)
    (h : l.fieldTypeIn box t = .ok w) : ∃ s, t.at? place = some s := by
  induction place generalizing box t w with
  | nil => exact ⟨t, TypeRef.at?_nil t⟩
  | cons i place ih =>
      obtain ⟨arg, harg, hv⟩ := FieldType.at?_cons_eq_some_iff.mp hv
      obtain ⟨source, hsource, hwritten⟩ :=
        exists_getElem?_of_forall₂ (forall₂_args_of_fieldTypeIn h).flip harg
      obtain ⟨s, hs⟩ := ih hv hwritten
      exact ⟨s, TypeRef.at?_cons_eq_some_iff.mpr ⟨source, hsource, hs⟩⟩

/-- A family that stands in a written type is written for a family name of the type. -/
theorem exists_at_of_within
    {m : Mention} (hm : (FieldType.family m).Within w) (h : l.fieldTypeIn box t = .ok w) :
    ∃ place s, t.at? place = some s ∧ l.grammar.isFamily s.name = true ∧
      m = l.familyMention s.name := by
  induction t using TypeRef.induction_args generalizing box w with
  | step name args ih =>
      rcases fieldTypeIn_cases h with ⟨hfamily, rfl, rfl⟩ | ⟨-, types, path, htypes, -, rfl⟩
      · refine ⟨[], _, TypeRef.at?_nil _, hfamily, ?_⟩
        cases box with
        | false =>
            cases hm
            rfl
        | true =>
            cases hm with
            | boxed hm =>
                cases hm
                rfl
      · -- A reference around a path leaves what stands inside where it is.
        have hinner : (FieldType.family m).Within (.applied path types) := by
          split at hm
          next =>
            cases hm with
            | borrowed hm => exact hm
          next => exact hm
        cases hinner with
        | arg hv hm =>
            obtain ⟨arg, hmem, hwritten⟩ := exists_source_of_mem htypes hv
            obtain ⟨i, harg⟩ := List.getElem?_of_mem hmem
            obtain ⟨place, s, hs, hfound⟩ := ih arg hmem hm hwritten
            exact ⟨i :: place, s, TypeRef.at?_cons_eq_some_iff.mpr ⟨arg, harg, hs⟩, hfound⟩

theorem renamed_plain_of_fieldTypeIn
    (h : l.fieldTypeIn box t = .ok w) : l.grammar.Renamed t w.plain := by
  induction t using TypeRef.induction_args generalizing box w with
  | step name args ih =>
      rcases fieldTypeIn_cases h with
        ⟨hfamily, rfl, rfl⟩ | ⟨hfamily, types, path, htypes, hpath, rfl⟩
      · cases box with
        | false => exact .family hfamily
        | true => exact .family hfamily
      · have hargs : List.Forall₂ l.grammar.Renamed args (FieldType.plainAll types) := by
          rw [FieldType.plainAll_eq_map, List.forall₂_map_right_iff]
          exact ((List.forall₂_and_left _ _).mpr ⟨ih, htypes⟩).imp fun arg v h => h.1 h.2
        split
        · exact .applied hfamily hpath hargs
        · exact .applied hfamily hpath hargs

theorem exists_fieldType_error_iff (l : Linked) (t : TypeRef) :
    (∃ fault, l.fieldType t = .error fault) ↔
      ∃ place s, t.at? place = some s ∧ l.Unwritable s := by
  have hwritten := exists_fieldTypeIn_eq_ok_iff_at l true t
  constructor
  · rintro ⟨fault, hfault⟩
    by_contra hnone
    obtain ⟨w, hw⟩ := hwritten.mpr fun place s hs hunwritable => hnone ⟨place, s, hs, hunwritable⟩
    rw [fieldType, hw] at hfault
    cases hfault
  · rintro ⟨place, s, hs, hunwritable⟩
    cases hresult : l.fieldType t with
    | error fault => exact ⟨fault, rfl⟩
    | ok w => exact False.elim (hwritten.mp ⟨w, hresult⟩ place s hs hunwritable)

/-- A family is boxed in a field type unless it stands directly in a heap container. -/
theorem family_at_of_fieldType
    (h : l.fieldType t = .ok w) {place : List ℕ} {s : TypeRef} (hs : t.at? place = some s)
    (hfamily : l.grammar.isFamily s.name = true) :
    (t.InHeapContainer l.grammar.options place →
      w.at? place = some (.family (l.familyMention s.name))) ∧
    (¬t.InHeapContainer l.grammar.options place →
      w.at? place = some (.boxed (.family (l.familyMention s.name)))) := by
  obtain ⟨innerBox, v, hv, hwritten, hbox⟩ := exists_written_at hs h
  obtain ⟨name, args⟩ := s
  rcases fieldTypeIn_cases hwritten with ⟨-, -, rfl⟩ | ⟨hname, -⟩
  · constructor
    · intro hheap
      obtain rfl : innerBox = false := by simpa [hheap] using hbox
      exact hv
    · intro hheap
      obtain rfl : innerBox = true := by simpa [hheap] using hbox
      exact hv
  · simp [hfamily] at hname

theorem applied_at_of_fieldType
    (h : l.fieldType t = .ok w) {place : List ℕ} {s : TypeRef} (hs : t.at? place = some s)
    (hfamily : l.grammar.isFamily s.name = false) :
    ∃ path args, Code.Path.parse? (l.grammar.options.codeName s.name) = some path ∧
      w.at? place = some (if s.name ∈ l.grammar.ownership.borrowed
        then .borrowed (.applied path args) else .applied path args) := by
  obtain ⟨_, v, hv, hwritten, -⟩ := exists_written_at hs h
  obtain ⟨name, args⟩ := s
  rcases fieldTypeIn_cases hwritten with ⟨hname, -, -⟩ | ⟨-, types, path, -, hpath, rfl⟩
  · simp [hfamily] at hname
  · exact ⟨path, types, hpath, hv⟩

/-- No family stands in a field type outside of the box or the heap container that holds
it. -/
theorem exists_at_of_within_fieldType
    (h : l.fieldType t = .ok w) {m : Mention} (hm : (FieldType.family m).Within w) :
    ∃ place, w.at? place = some (.boxed (.family m)) ∨
      w.at? place = some (.family m) ∧ t.InHeapContainer l.grammar.options place := by
  obtain ⟨place, s, hs, hfamily, rfl⟩ := exists_at_of_within hm h
  obtain ⟨hopen, hboxed⟩ := family_at_of_fieldType h hs hfamily
  by_cases hheap : t.InHeapContainer l.grammar.options place
  · exact ⟨place, Or.inr ⟨hopen hheap, hheap⟩⟩
  · exact ⟨place, Or.inl (hboxed hheap)⟩

end Written

/-- A field type is written unless one of its names cannot be.  What is written has the
places of the type of the grammar.  A family is put into a box unless it stands directly in
a heap container, so on the outside it always is, and no family stands anywhere else.  Any
other name becomes a path, behind a reference exactly when it is on the borrowed list.
Apart from boxes, references and lifetimes the type is kept. -/
theorem fieldType_boxes_families (l : Linked) (t : TypeRef) :
    ((∃ fault, l.fieldType t = .error fault) ↔
      ∃ place s, t.at? place = some s ∧ l.Unwritable s) ∧
    ∀ w, l.fieldType t = .ok w →
      (∀ place, (∃ v, w.at? place = some v) ↔ ∃ s, t.at? place = some s) ∧
      (∀ place s, t.at? place = some s → l.grammar.isFamily s.name = true →
        (t.InHeapContainer l.grammar.options place →
          w.at? place = some (.family (l.familyMention s.name))) ∧
        (¬t.InHeapContainer l.grammar.options place →
          w.at? place = some (.boxed (.family (l.familyMention s.name))))) ∧
      (l.grammar.isFamily t.name = true → w = .boxed (.family (l.familyMention t.name))) ∧
      (∀ m, (FieldType.family m).Within w → ∃ place,
        w.at? place = some (.boxed (.family m)) ∨
          w.at? place = some (.family m) ∧ t.InHeapContainer l.grammar.options place) ∧
      (∀ place s, t.at? place = some s → l.grammar.isFamily s.name = false →
        ∃ path args, Code.Path.parse? (l.grammar.options.codeName s.name) = some path ∧
          w.at? place = some (if s.name ∈ l.grammar.ownership.borrowed
            then .borrowed (.applied path args) else .applied path args)) ∧
      l.grammar.Renamed t w.plain := by
  refine ⟨exists_fieldType_error_iff l t, ?_⟩
  intro w h
  have hplaces : ∀ place, (∃ v, w.at? place = some v) ↔ ∃ s, t.at? place = some s := by
    intro place
    constructor
    · rintro ⟨v, hv⟩
      exact exists_source_at hv h
    · rintro ⟨s, hs⟩
      obtain ⟨_, v, hv, -, -⟩ := exists_written_at hs h
      exact ⟨v, hv⟩
  have houtside : l.grammar.isFamily t.name = true →
      w = .boxed (.family (l.familyMention t.name)) := by
    intro hfamily
    have hboxed := (family_at_of_fieldType h (TypeRef.at?_nil t) hfamily).2
      (TypeRef.not_inHeapContainer_nil _ t)
    exact Option.some.inj ((FieldType.at?_nil w).symm.trans hboxed)
  exact ⟨hplaces, fun _ _ hs => family_at_of_fieldType h hs, houtside,
    fun _ hm => exists_at_of_within_fieldType h hm, fun _ _ hs => applied_at_of_fieldType h hs,
    renamed_plain_of_fieldTypeIn h⟩

/-- A family that borrows, and an alias that is a heap container. -/
def mixedContainers : Grammar :=
  { name := "Mixed"
    families := [⟨"Expr", [⟨"Name", [⟨⟨"Token", []⟩, "text"⟩]⟩], none⟩]
    options := { result := "Value", aliases := [("List", "Vec")] } }

def mixedArgs : TypeRef :=
  ⟨"Map", [⟨"Token", []⟩, ⟨"List", [⟨"Expr", []⟩]⟩, ⟨"Option", [⟨"Expr", []⟩]⟩]⟩

theorem fieldType_boxes_families_mixed :
    ∃ l w, mixedContainers.link = .ok l ∧ l.fieldType mixedArgs = .ok w ∧
      w.at? [1, 0] = some (.family (l.familyMention "Expr")) ∧
      w.at? [2, 0] = some (.boxed (.family (l.familyMention "Expr"))) ∧
      (∃ path args, w.at? [0] = some (.borrowed (.applied path args))) ∧
      (∃ path args, w.at? [] = some (.applied path args)) ∧
      mixedContainers.Renamed mixedArgs w.plain ∧
      ∃ fault, l.fieldType ⟨"Option", [⟨"Expr", [⟨"u8", []⟩]⟩]⟩ = .error fault := by
  have hwritten : (mixedContainers.link.toOption.any fun l =>
      (l.fieldType mixedArgs).toOption.isSome) = true := by
    decide +kernel
  cases hlink : mixedContainers.link with
  | error fault => simp [hlink, Except.toOption] at hwritten
  | ok l =>
      cases hw : l.fieldType mixedArgs with
      | error fault => simp [hlink, hw, Except.toOption] at hwritten
      | ok w =>
          have hg : l.grammar = mixedContainers := Grammar.grammar_of_link hlink
          obtain ⟨hfails, -⟩ := fieldType_boxes_families l ⟨"Option", [⟨"Expr", [⟨"u8", []⟩]⟩]⟩
          obtain ⟨-, hkept⟩ := fieldType_boxes_families l mixedArgs
          obtain ⟨-, hfamilies, -, -, hothers, hrenamed⟩ := hkept w hw
          rw [hg] at hfamilies hothers hrenamed
          have hheap : mixedArgs.InHeapContainer mixedContainers.options [1, 0] :=
            ⟨[1], 0, _, rfl, rfl, by decide⟩
          have hopen : ¬mixedArgs.InHeapContainer mixedContainers.options [2, 0] := by
            have houter : mixedContainers.options.isHeapContainer "Option" = false := by decide
            rw [TypeRef.inHeapContainer_cons_iff rfl, TypeRef.inHeapContainer_cons_iff rfl]
            simp [houter, TypeRef.not_inHeapContainer_nil]
          obtain ⟨tokenPath, tokenArgs, -, htoken⟩ := hothers [0] ⟨"Token", []⟩ rfl (by decide)
          obtain ⟨mapPath, mapArgs, -, hmap⟩ := hothers [] mixedArgs rfl (by decide)
          exact ⟨l, w, rfl, hw, (hfamilies [1, 0] ⟨"Expr", []⟩ rfl (by decide)).1 hheap,
            (hfamilies [2, 0] ⟨"Expr", []⟩ rfl (by decide)).2 hopen,
            ⟨tokenPath, tokenArgs, htoken⟩, ⟨mapPath, mapArgs, hmap⟩, hrenamed,
            hfails.mpr ⟨[0], ⟨"Expr", [⟨"u8", []⟩]⟩, rfl, Or.inl ⟨by rw [hg]; decide, by simp⟩⟩⟩

end Linked

/-! ## Code that names families -/

/-- What is held by value on the outside of a written type, as far as it is a single
word. -/
def FieldType.wordByValue? : FieldType → Option String
  | family mention => some mention.name
  | applied path [] => path.word?.map (·.text)
  | _ => none

/-- An alias that is the name of the family in which it is used. -/
def recursiveAlias : Grammar :=
  { name := "Alias"
    families := [⟨"Expr", [⟨"Neg", [⟨⟨"Node", []⟩, "inner"⟩]⟩], none⟩]
    options := { result := "Value", aliases := [("Node", "Expr")] } }

/-- Code which a grammar brings along is not put into a box: with an alias that names a
family, a node holds its own family by value. -/
theorem family_by_value_of_code :
    ∃ l, recursiveAlias.link = .ok l ∧
      ∃ f ∈ recursiveAlias.families, ∃ n ∈ f.nodes, ∃ field ∈ n.fields, ∃ w,
        l.fieldType field.type = .ok w ∧ w.wordByValue? = some f.name := by
  have hheld : (recursiveAlias.link.toOption.any fun l =>
      (l.fieldType ⟨"Node", []⟩).toOption.any fun w =>
        decide (w.wordByValue? = some "Expr")) = true := by
    decide +kernel
  cases hlink : recursiveAlias.link with
  | error fault => simp [hlink, Except.toOption] at hheld
  | ok l =>
      cases hw : l.fieldType ⟨"Node", []⟩ with
      | error fault => simp [hlink, hw, Except.toOption] at hheld
      | ok w =>
          exact ⟨l, rfl, _, List.mem_cons_self, _, List.mem_cons_self, _, List.mem_cons_self, w, hw,
            by simpa [hlink, hw, Except.toOption] using hheld⟩

end Treewright
