import DebugLayout.Proofs.Program.Representation
import Mathlib.Data.Finset.Card

/-!
# DebugLayout — what a scoped name stands for

The variables at file scope that share a scoped name are definitions or declarations, with a
location or without. What the name stands for depends on the number of **locations** at which it is
defined: with one location it means the first definition there; with several it means none of them,
and they go by their qualified names; without any it means the first definition, or else the first
declaration. This holds in whatever order the entries and the units come, provided that every
variable lies in a unit with a name and that braces are kept for qualified names.

The number of locations is a count of distinct addresses, while the program keeps a list of the
definitions it has not seen the location of. The two are connected by `length_distinctLocated`, and
everything else is a case distinction on that number.

* `Store.fileScope`, `Store.definitions`, `Store.locations`: the variables of a scoped name;
* `Store.PlainlyNamed`: the condition on units and names;
* `length_distinctLocated`, `head?_distinctLocated`: the definitions that are kept;
* `Program.fileScope_binding`: what the name stands for.
-/

namespace DebugLayout

namespace Store

/-- The variables at file scope of a scoped name, in document order. -/
def fileScope (s : Store) (name : String) : List Variable :=
  (s.variables.filter (·.name = name)).filter (·.function.isNone)

/-- The definitions among them. -/
def definitions (s : Store) (name : String) : List Variable :=
  (s.fileScope name).filter (!·.entry.isDeclaration)

/-- The locations at which a scoped name is defined. -/
def locations (s : Store) (name : String) : Finset Int :=
  ((s.definitions name).filterMap Variable.location?).toFinset

/-- Every variable lies in a unit with a name, and neither its name nor those of the scopes around
it have a brace in them. -/
structure PlainlyNamed (s : Store) : Prop where
  unit : ∀ p ∈ s.entries, p.entry.tag = Tag.variable_ → (unitName? p).isSome = true
  name : ∀ p ∈ s.entries, p.entry.tag = Tag.variable_ →
    ∀ name, s.entryName? p.entry = some name → '\x7b' ∉ name.toList
  scope : ∀ p ∈ s.entries, p.entry.tag = Tag.variable_ →
    ∀ e ∈ ((s.origin? p.entry).getD p).ancestors, e.tag.isNamedScope = true →
      ∀ name, e.name? = some name → '\x7b' ∉ name.toList

end Store

-- ---------------------------------------------------------------------------
-- Definitions that are kept
-- ---------------------------------------------------------------------------

/-- One definition is kept for each location that was not seen before. -/
theorem length_distinctLocated (seen : List Int) (vs : List Variable) :
    (distinctLocated seen vs).length =
      ((vs.filterMap Variable.location?).toFinset \ seen.toFinset).card := by
  induction vs generalizing seen with
  | nil => simp [distinctLocated]
  | cons v vs ih =>
    rw [distinctLocated, List.filterMap_cons]
    cases hlocation : v.location? with
    | none => exact ih seen
    | some location =>
      simp only [List.toFinset_cons]
      by_cases hseen : location ∈ seen
      · rw [if_pos (by simpa using hseen), ih,
          Finset.insert_sdiff_of_mem _ (List.mem_toFinset.2 hseen)]
      · -- a new location counts once, and is seen from then on
        have hsplit : ∀ others : Finset Int, insert location others \ seen.toFinset =
            insert location (others \ insert location seen.toFinset) := by
          intro others
          ext other
          by_cases hsame : other = location
          · simp [hsame, hseen]
          · simp [hsame]
        rw [if_neg (by simpa using hseen), List.length_cons, ih, List.toFinset_cons, hsplit,
          Finset.card_insert_of_notMem (by simp)]

theorem location_of_mem_distinctLocated {seen : List Int} {vs : List Variable} {v : Variable}
    (h : v ∈ distinctLocated seen vs) : v.location?.isSome = true := by
  induction vs generalizing seen with
  | nil => exact absurd h (by simp [distinctLocated])
  | cons u vs ih =>
    rw [distinctLocated] at h
    split at h
    · exact ih h
    · rename_i location hlocation
      split at h
      · exact ih h
      · rcases List.mem_cons.1 h with rfl | h
        · exact Option.isSome_of_eq_some hlocation
        · exact ih h

/-- The first definition with a location is kept. -/
theorem head?_distinctLocated (vs : List Variable) :
    (distinctLocated [] vs).head? = vs.find? (·.location?.isSome) := by
  induction vs with
  | nil => rfl
  | cons v vs ih =>
    rw [distinctLocated]
    cases hlocation : v.location? with
    | none => rw [List.find?_cons_of_neg (by simp [hlocation]), ← ih]
    | some location =>
      rw [List.find?_cons_of_pos (by simp [hlocation])]
      rfl

/-- Something is kept of some definitions, if there are any. -/
theorem uniqueDefinitions_eq_nil {vs : List Variable} (h : uniqueDefinitions vs = []) :
    vs.filter (!·.entry.isDeclaration) = [] := by
  unfold uniqueDefinitions at h
  simp only at h
  split at h
  · rename_i hnil
    have hfirst := head?_distinctLocated (vs.filter (!·.entry.isDeclaration))
    rw [hnil, List.head?_nil, eq_comm, List.find?_eq_none] at hfirst
    have hall : (vs.filter (!·.entry.isDeclaration)).filter (·.location?.isNone) =
        vs.filter (!·.entry.isDeclaration) :=
      List.filter_eq_self.2 fun v hv => by simpa using hfirst v hv
    rw [hall] at h
    simpa using h
  · rename_i hne
    exact absurd h hne

/-- Definitions at file scope are listed, or else the first declaration. -/
theorem isDeclaration_of_mem_fileScopeVariables {vs : List Variable} {v : Variable}
    (h : v ∈ fileScopeVariables vs) (hdeclaration : v.entry.isDeclaration = true) :
    vs.filter (!·.entry.isDeclaration) = [] := by
  unfold fileScopeVariables at h
  split at h
  · rename_i hnil
    exact uniqueDefinitions_eq_nil hnil
  · have hmem : v ∈ vs.filter (!·.entry.isDeclaration) := by
      unfold uniqueDefinitions at h
      simp only at h
      split at h
      · exact List.mem_of_mem_filter (List.mem_of_mem_take h)
      · exact distinctLocated_subset [] _ h
    rw [List.mem_filter, hdeclaration] at hmem
    exact absurd hmem.2 (by simp)

-- ---------------------------------------------------------------------------
-- What a group lists at file scope
-- ---------------------------------------------------------------------------

section FileScope

variable {s : Store} {name : String}

/-- Where a definition has a location, the variables of a name at file scope are the located
definitions. -/
theorem fileScopeVariables_of_located
    (h : distinctLocated [] (s.definitions name) ≠ []) :
    fileScopeVariables (s.fileScope name) = distinctLocated [] (s.definitions name) := by
  have hunique : uniqueDefinitions (s.fileScope name) =
      distinctLocated [] (s.definitions name) := by
    unfold uniqueDefinitions
    simp only
    split
    · rename_i hnil
      exact absurd hnil h
    · rfl
  unfold fileScopeVariables
  rw [hunique]
  split
  · rename_i hnil
    exact absurd hnil h
  · rfl

/-- Without locations the name means the first definition, or else the first declaration. -/
theorem fileScopeVariables_of_unlocated (h : distinctLocated [] (s.definitions name) = []) :
    fileScopeVariables (s.fileScope name) =
      (((s.definitions name).find? (·.location?.isNone)).or
        ((s.fileScope name).find? (·.entry.isDeclaration))).toList := by
  have hunique : uniqueDefinitions (s.fileScope name) =
      ((s.definitions name).find? (·.location?.isNone)).toList := by
    unfold uniqueDefinitions
    simp only
    rw [show distinctLocated [] ((s.fileScope name).filter (!·.entry.isDeclaration)) = [] from h]
    rw [← List.head?_filter, ← List.take_one]
    rfl
  unfold fileScopeVariables
  rw [hunique]
  cases hfirst : (s.definitions name).find? (·.location?.isNone) with
  | some v => rfl
  | none =>
    -- without a definition the file scope consists of declarations
    have hnone : s.definitions name = [] :=
      uniqueDefinitions_eq_nil (hunique.trans (by rw [hfirst]; rfl))
    have hall : (s.fileScope name).filter (·.entry.isDeclaration) = s.fileScope name := by
      refine List.filter_eq_self.2 fun v hv => ?_
      simpa using List.filter_eq_nil_iff.1 hnone v hv
    rw [Option.none_or, ← List.head?_filter, hall, ← List.take_one]
    rfl

/-- As many definitions are kept as there are locations. -/
theorem length_distinctLocated_definitions (s : Store) (name : String) :
    (distinctLocated [] (s.definitions name)).length = (s.locations name).card := by
  rw [length_distinctLocated, List.toFinset_nil, Finset.sdiff_empty]
  rfl

/-- What a name stands for at file scope, by the number of its locations. -/
theorem scopedOf_fileScope :
    scopedOf (s.variables.filter (·.name = name)) =
      if (s.locations name).card = 0 then
        ((s.definitions name).find? (·.location?.isNone)).or
          ((s.fileScope name).find? (·.entry.isDeclaration))
      else if (s.locations name).card = 1 then (s.definitions name).find? (·.location?.isSome)
      else none := by
  have hgroup : (s.variables.filter (·.name = name)).filter (·.function.isNone) =
      s.fileScope name := rfl
  rw [scopedOf, hgroup, ← length_distinctLocated_definitions, ← head?_distinctLocated]
  cases hkept : distinctLocated [] (s.definitions name) with
  | nil =>
    rw [fileScopeVariables_of_unlocated hkept]
    cases ((s.definitions name).find? (·.location?.isNone)).or
      ((s.fileScope name).find? (·.entry.isDeclaration)) <;> rfl
  | cons u rest =>
    rw [fileScopeVariables_of_located (by simp [hkept]), hkept]
    cases rest <;> rfl

/-- What goes by its qualified name at file scope is listed there. -/
theorem mem_fileScopeVariables_of_qualifiedOf {v : Variable}
    (h : v ∈ qualifiedOf (s.variables.filter (·.name = name))) (hfile : v.function = none) :
    v ∈ fileScopeVariables (s.fileScope name) := by
  have hstatic : v ∉ uniqueDefinitions
      ((s.variables.filter (·.name = name)).filter (·.function.isSome)) := by
    intro hv
    have hfunction := (List.mem_filter.1 (uniqueDefinitions_subset _ hv)).2
    rw [hfile] at hfunction
    exact absurd hfunction (by simp)
  unfold qualifiedOf at h
  simp only at h
  split at h
  · exact absurd h hstatic
  · exact (List.mem_append.1 h).resolve_right hstatic

/-- A name with one location has a definition with a location. -/
theorem exists_located (h : (s.locations name).card = 1) :
    ∃ u, (s.definitions name).find? (·.location?.isSome) = some u := by
  rw [← length_distinctLocated_definitions] at h
  obtain ⟨u, hu⟩ := List.length_eq_one_iff.1 h
  exact ⟨u, by rw [← head?_distinctLocated, hu]; rfl⟩

/-- A name without location has a definition without location, or else a declaration. -/
theorem exists_unlocated (hname : s.fileScope name ≠ []) (h : (s.locations name).card = 0) :
    ∃ u, ((s.definitions name).find? (·.location?.isNone)).or
      ((s.fileScope name).find? (·.entry.isDeclaration)) = some u := by
  rw [← length_distinctLocated_definitions, List.length_eq_zero_iff] at h
  rw [← Option.ne_none_iff_exists']
  intro hnone
  have hnil := fileScopeVariables_of_unlocated h
  rw [hnone] at hnil
  unfold fileScopeVariables at hnil
  split at hnil
  · exact hname (by simpa using hnil)
  · rename_i hunique
    exact hunique hnil

/-- Several definitions at file scope go by their qualified names, and nothing else does. -/
theorem mem_definitions_of_qualifiedOf {v : Variable}
    (h : v ∈ qualifiedOf (s.variables.filter (·.name = name))) (hfile : v.function = none)
    (hseveral : 2 ≤ (s.locations name).card) :
    v ∈ s.definitions name ∧ v.location?.isSome = true := by
  have hkept : distinctLocated [] (s.definitions name) ≠ [] := by
    intro hnil
    rw [← length_distinctLocated_definitions, hnil] at hseveral
    exact absurd hseveral (by simp)
  have hmem := mem_fileScopeVariables_of_qualifiedOf h hfile
  rw [fileScopeVariables_of_located hkept] at hmem
  exact ⟨distinctLocated_subset [] _ hmem, location_of_mem_distinctLocated hmem⟩

/-- The variable that is chosen for a name is one of those at file scope. -/
theorem mem_fileScopeVariables_of_scopedOf {v : Variable}
    (h : scopedOf (s.variables.filter (·.name = name)) = some v) :
    v ∈ fileScopeVariables (s.fileScope name) := by
  unfold scopedOf at h
  split at h
  · rename_i u heq
    obtain rfl := Option.some.inj h
    exact heq ▸ List.mem_singleton_self u
  · exact absurd h (by simp)

end FileScope

-- ---------------------------------------------------------------------------
-- Braces
-- ---------------------------------------------------------------------------

/-- A character of a joined text is one of its parts or of what joins them. -/
theorem not_mem_intercalate {c : Char} {separator : String} {parts : List String}
    (hseparator : c ∉ separator.toList) (hparts : ∀ part ∈ parts, c ∉ part.toList) :
    c ∉ (String.intercalate separator parts).toList := by
  induction parts with
  | nil => simp
  | cons part parts ih =>
    obtain ⟨hpart, hrest⟩ := List.forall_mem_cons.1 hparts
    cases parts with
    | nil => simpa using hpart
    | cons other parts =>
      rw [String.intercalate_cons_cons, String.toList_append, String.toList_append,
        List.mem_append, List.mem_append]
      rintro ((h | h) | h)
      · exact hpart h
      · exact hseparator h
      · exact ih hrest h

/-- What the name and the unit of a variable are made from. -/
theorem Variable.of_ofEntry? {s : Store} {p : Placed} {v : Variable} (h : ofEntry? s p = some v) :
    ∃ name, s.entryName? p.entry = some name ∧ v.unit = unitName? p ∧
      v.name = String.intercalate "::"
        (scopeNames ((s.origin? p.entry).getD p).ancestors ++ [name]) := by
  unfold ofEntry? at h
  split at h
  · exact absurd h (by simp)
  · rename_i name hname
    simp only at h
    split at h
    · exact absurd h (by simp)
    · obtain rfl := Option.some.inj h
      exact ⟨name, hname, rfl, rfl⟩

namespace Store.PlainlyNamed

variable {s : Store} (hs : s.PlainlyNamed) {v : Variable} (hv : v ∈ s.variables)
include hs hv

/-- A variable of a compile unit has the name of a unit. -/
theorem exists_unit : ∃ unit, v.unit = some unit := by
  obtain ⟨p, hp, hv⟩ := List.mem_filterMap.1 hv
  obtain ⟨hp, htag⟩ := List.mem_filter.1 hp
  obtain ⟨_, -, hunit, -⟩ := Variable.of_ofEntry? hv
  rw [hunit]
  exact Option.isSome_iff_exists.1 (hs.unit p hp (by simpa using htag))

/-- No plain name has a brace in it. -/
theorem brace_not_mem_name : '\x7b' ∉ v.name.toList := by
  obtain ⟨p, hp, hv⟩ := List.mem_filterMap.1 hv
  obtain ⟨hp, htag⟩ := List.mem_filter.1 hp
  have htag : p.entry.tag = Tag.variable_ := by simpa using htag
  obtain ⟨name, hname, -, hscoped⟩ := Variable.of_ofEntry? hv
  rw [hscoped]
  refine not_mem_intercalate (by decide) fun part hpart => ?_
  rcases List.mem_append.1 hpart with hpart | hpart
  · obtain ⟨e, he, rfl⟩ := List.mem_map.1 (List.mem_reverse.1 hpart)
    obtain ⟨he, hscope⟩ := List.mem_filter.1 he
    cases hown : e.name? with
    | none => decide
    | some own => exact hs.scope p hp htag e he hscope own hown
  · obtain rfl := List.mem_singleton.1 hpart
    exact hs.name p hp htag part hname

/-- The qualified name of a variable is no plain name. -/
theorem brace_mem_qualifiedName : '\x7b' ∈ v.qualifiedName.toList := by
  obtain ⟨unit, hunit⟩ := hs.exists_unit hv
  have hopen : '\x7b' ∈ "\x7bCompileUnit:".toList := by decide
  simp only [Variable.qualifiedName, hunit, Option.elim_some, String.toList_append,
    List.mem_append]
  exact .inr (.inl (.inl hopen))

end Store.PlainlyNamed

-- ---------------------------------------------------------------------------
-- Names of a loaded program
-- ---------------------------------------------------------------------------

section Binding

variable {s : Store} {name key : String} {v : Variable}

/-- Whatever is known is listed by the group of its scoped name. -/
theorem listed_of_get?_indexVariables (h : (indexVariables s).get? key = some v) :
    v.name = key ∧ scopedOf (s.variables.filter (·.name = v.name)) = some v ∨
      ∃ w ∈ qualifiedOf (s.variables.filter (·.name = v.name)), w.qualifiedName = key ∧
        v = { w with isQualified := true } := by
  obtain ⟨⟨name, group⟩, hgroup, hlisted⟩ := listed_of_get?_addGroups h
  obtain ⟨rfl, -⟩ := mem_groupVariables.1 hgroup
  rcases hlisted with ⟨rfl, hscoped⟩ | ⟨w, hw, hkey, rfl⟩
  · have hname : v.name = name := by simpa using (List.mem_filter.1 (mem_of_scopedOf hscoped)).2
    subst hname
    exact .inl ⟨rfl, hscoped⟩
  · have hname : w.name = name := by simpa using (List.mem_filter.1 (mem_of_qualifiedOf hw)).2
    subst hname
    exact .inr ⟨w, hw, hkey, rfl⟩

/-- A name that its group lists a variable under stands for it. -/
theorem get?_indexVariables_of_scopedOf (hname : s.fileScope name ≠ [])
    (h : scopedOf (s.variables.filter (·.name = name)) = some v) :
    (indexVariables s).get? name = some v := by
  refine get?_addGroups_of_scopedOf (groupVariables_distinct s) (mem_groupVariables.2 ⟨rfl, ?_⟩) h
  rintro hnil
  exact hname (by rw [Store.fileScope, hnil]; rfl)

/-- A declaration at file scope is known only if nothing defines its name. -/
theorem definitions_eq_nil_of_declaration (h : (indexVariables s).get? key = some v)
    (hfile : v.function = none) (hdeclaration : v.entry.isDeclaration = true) :
    s.definitions v.name = [] := by
  rcases listed_of_get?_indexVariables h with ⟨-, hscoped⟩ | ⟨w, hw, -, rfl⟩
  · exact isDeclaration_of_mem_fileScopeVariables (mem_fileScopeVariables_of_scopedOf hscoped)
      hdeclaration
  · exact isDeclaration_of_mem_fileScopeVariables (mem_fileScopeVariables_of_qualifiedOf hw hfile)
      hdeclaration

variable (hs : s.PlainlyNamed) (hseveral : 2 ≤ (s.locations name).card)
include hs hseveral

/-- A name with several locations stands for nothing. -/
theorem get?_indexVariables_of_several (hname : s.fileScope name ≠ []) :
    (indexVariables s).get? name = none := by
  obtain ⟨u, hmember⟩ := List.exists_mem_of_ne_nil _ hname
  obtain ⟨hu, huname⟩ := List.mem_filter.1 (List.mem_filter.1 hmember).1
  obtain rfl : u.name = name := by simpa using huname
  rw [Option.eq_none_iff_forall_ne_some]
  intro v hv
  rcases listed_of_get?_indexVariables hv with ⟨hvname, hscoped⟩ | ⟨w, hw, hkey, -⟩
  · rw [hvname, scopedOf_fileScope, if_neg (by omega), if_neg (by omega)] at hscoped
    exact absurd hscoped (by simp)
  · -- a qualified name has a brace in it, which no scoped name has
    have hmem := (List.mem_filter.1 (mem_of_qualifiedOf hw)).1
    have hbrace := hs.brace_mem_qualifiedName hmem
    rw [hkey] at hbrace
    exact hs.brace_not_mem_name hu hbrace

/-- Its definitions go by their qualified names. -/
theorem definition_of_get?_indexVariables (h : (indexVariables s).get? key = some v)
    (hvname : v.name = name) (hfile : v.function = none) :
    ∃ u ∈ s.definitions name, u.location?.isSome = true ∧ v = { u with isQualified := true } ∧
      ∃ unit, u.unit = some unit ∧ key = name ++ "\x7bCompileUnit:" ++ unit ++ "\x7d" := by
  rcases listed_of_get?_indexVariables h with ⟨-, hscoped⟩ | ⟨w, hw, hkey, rfl⟩
  · rw [hvname, scopedOf_fileScope, if_neg (by omega), if_neg (by omega)] at hscoped
    exact absurd hscoped (by simp)
  · obtain rfl : w.name = name := hvname
    obtain ⟨unit, hunit⟩ := hs.exists_unit (List.mem_filter.1 (mem_of_qualifiedOf hw)).1
    obtain ⟨hmem, hlocated⟩ := mem_definitions_of_qualifiedOf hw hfile hseveral
    refine ⟨w, hmem, hlocated, rfl, unit, hunit, ?_⟩
    have hfile : w.function = none := hfile
    rw [← hkey, Variable.qualifiedName, hfile, hunit]
    simp [String.append_assoc]

end Binding

namespace Program

/-- What the scoped name of variables at file scope stands for in a loaded program: the first
definition at its only location; nothing if there are several locations, when every variable of the
name is a definition with a location that goes by its qualified name; and the first definition or
else the first declaration if there are none. A declaration is known only if there are no
definitions. -/
theorem fileScope_binding (store : Store) (symbols : SymbolTable) (target : Target)
    (regions : Option Regions) (memory : Option MemoryReader) (config : Config) (depth : Nat)
    (hs : store.PlainlyNamed) {name : String} (hname : store.fileScope name ≠ []) :
    let p := Program.load store symbols target regions memory config depth
    let definitions := store.definitions name
    let k := (store.locations name).card
    (k = 1 → ∃ u, definitions.find? (·.location?.isSome) = some u ∧
      name ∈ p.names ∧ p.variableIndex.get? name = some u) ∧
    (2 ≤ k → name ∉ p.names ∧ ∀ key v, p.variableIndex.get? key = some v →
      v.name = name → v.function = none →
        ∃ u ∈ definitions, u.location?.isSome = true ∧ v = { u with isQualified := true } ∧
          ∃ unit, u.unit = some unit ∧ key = name ++ "\x7bCompileUnit:" ++ unit ++ "\x7d") ∧
    (k = 0 → ∃ u, (definitions.find? (·.location?.isNone)).or
        ((store.fileScope name).find? (·.entry.isDeclaration)) = some u ∧
      name ∈ p.names ∧ p.variableIndex.get? name = some u) ∧
    ∀ key v, p.variableIndex.get? key = some v → v.name = name → v.function = none →
      v.entry.isDeclaration = true → definitions = [] := by
  intro p definitions k
  have hmem : ∀ {key v}, p.variableIndex.get? key = some v → key ∈ p.names := fun h =>
    OrderedMap.contains_iff.1 (Option.isSome_of_eq_some h)
  have hbound : ∀ {u}, scopedOf (store.variables.filter (·.name = name)) = some u →
      name ∈ p.names ∧ p.variableIndex.get? name = some u := fun h =>
    ⟨hmem (get?_indexVariables_of_scopedOf hname h), get?_indexVariables_of_scopedOf hname h⟩
  refine ⟨fun hone => ?_, fun hseveral => ⟨?_, fun key v h hvname hfile => ?_⟩, fun hnone => ?_,
    fun key v h hvname hfile hdeclaration => ?_⟩
  · -- one location: the name means the first definition there
    obtain ⟨u, hu⟩ := exists_located hone
    refine ⟨u, hu, hbound ?_⟩
    rw [scopedOf_fileScope, if_neg (by omega), if_pos hone, hu]
  · -- several locations: the bare name is given to nobody
    intro hknown
    have hnone : p.variableIndex.get? name = none :=
      get?_indexVariables_of_several hs hseveral hname
    have hsome := OrderedMap.contains_iff.2 hknown
    rw [OrderedMap.contains, hnone] at hsome
    exact absurd hsome (by simp)
  · exact definition_of_get?_indexVariables hs hseveral h hvname hfile
  · -- no location: a definition without one, or else a declaration
    obtain ⟨u, hu⟩ := exists_unlocated hname hnone
    refine ⟨u, hu, hbound ?_⟩
    rw [scopedOf_fileScope, if_pos hnone, hu]
  · subst hvname
    exact definitions_eq_nil_of_declaration h hfile hdeclaration

-- ---------------------------------------------------------------------------
-- Two units
-- ---------------------------------------------------------------------------

/-- A unit that defines `x` and declares `y`. -/
def firstUnit : Entry :=
  .node 1 Tag.compileUnit (.ofList [(Attr.name, .text "a.c")])
    [.node 2 Tag.baseType
        (.ofList [(Attr.name, .text "int"), (Attr.byteSize, .int 4), (Attr.encoding, .int 5)]) [],
      .node 3 Tag.variable_ (.ofList [(Attr.name, .text "x"), (Attr.type, .int 2),
        (Attr.location, .int 0x1000)]) [],
      .node 4 Tag.variable_ (.ofList [(Attr.name, .text "y"), (Attr.type, .int 2),
        (Attr.declaration, .bool true)]) []]

/-- A unit that defines another `x` as well as `y`, and `z` without location. -/
def secondUnit : Entry :=
  .node 11 Tag.compileUnit (.ofList [(Attr.name, .text "b.c")])
    [.node 12 Tag.variable_ (.ofList [(Attr.name, .text "x"), (Attr.type, .int 2),
        (Attr.location, .int 0x2000)]) [],
      .node 13 Tag.variable_ (.ofList [(Attr.name, .text "y"), (Attr.type, .int 2),
        (Attr.location, .int 0x3000)]) [],
      .node 14 Tag.variable_ (.ofList [(Attr.name, .text "z"), (Attr.type, .int 2)]) []]

def unitsStore : Store := ((Store.empty.addRoot firstUnit).1.addRoot secondUnit).1

/-- The program of both units. -/
def units : Program :=
  .load unitsStore .empty .standard none none .default defaultDepth

/-- Names with one and with two definitions, and one that is declared only. -/
theorem fileScope_binding_units :
    unitsStore.PlainlyNamed ∧
      (∃ u, units.variableIndex.get? "y" = some u ∧ u.location? = some 0x3000) ∧
      "x" ∉ units.names ∧ "z" ∈ units.names := by
  have hs : unitsStore.PlainlyNamed := ⟨by decide, by decide, by decide⟩
  have hbinding : ∀ name, unitsStore.fileScope name ≠ [] → _ := fun name hname =>
    fileScope_binding unitsStore .empty .standard none none .default defaultDepth hs hname
  obtain ⟨u, hu, -, hy⟩ := (hbinding "y" (by decide)).1 (by decide)
  obtain ⟨hx, -⟩ := (hbinding "x" (by decide)).2.1 (by decide)
  obtain ⟨_, -, hz, -⟩ := (hbinding "z" (by decide)).2.2.1 (by decide)
  have hlocation : ((unitsStore.definitions "y").find? (·.location?.isSome)).bind
      Variable.location? = some 0x3000 := by decide
  rw [hu] at hlocation
  exact ⟨hs, ⟨u, hy, hlocation⟩, hx, hz⟩

end Program

end DebugLayout
