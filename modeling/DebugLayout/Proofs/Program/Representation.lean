import DebugLayout.Proofs.Program.Index
import Mathlib.Data.List.Induction

/-!
# DebugLayout — which variables are known

The variables of a store are grouped by their scoped names, and each group lists those of its
variables that differ: at most one under the scoped name, the others under their **qualified**
names. Qualified names need not differ, and then the first variable keeps the name. So every
location at which a variable is defined is known under some name, unless another variable goes by
the qualified name of the variable there.

The groups are listed in the order of the first variable of each name, and a key that is taken is
not given again. To find out what a key leads to one therefore looks at the first group that lists
something under it.

* `Store.variables`, `mem_groupVariables`: the variables, and those of one scoped name;
* `mem_uniqueDefinitions`: the first definition at a location is one of the distinct ones;
* `scopedOf`, `qualifiedOf`, `get?_addGroup`: what a group lists under which names;
* `get?_addGroups_of_scopedOf`, `listed_of_get?_addGroups`: what is listed in the end;
* `Program.known_or_taken`: the locations that are known.
-/

namespace DebugLayout

/-- The variables that the entries of a store describe, in document order. -/
def Store.variables (s : Store) : List Variable :=
  (s.entries.filter (·.entry.tag = Tag.variable_)).filterMap (Variable.ofEntry? s)

/-- Whether a variable goes by a name, its scoped or its qualified one. -/
def Variable.GoesBy (v : Variable) (key : String) : Prop := v.name = key ∨ v.qualifiedName = key

/-- A definition with a name and a location describes a variable, inside a function as well. -/
theorem Variable.exists_ofEntry? {s : Store} {p : Placed} {name : String} {location : Int}
    (hname : s.entryName? p.entry = some name) (hdefinition : p.entry.isDeclaration = false)
    (hlocation : p.entry.location? = some location) :
    ∃ v, ofEntry? s p = some v ∧ v.entry = p.entry := by
  unfold ofEntry?
  simp only [hname, hdefinition, hlocation, Option.isNone_some, Bool.or_self, Bool.and_false,
    Bool.false_eq_true, if_false]
  exact ⟨_, rfl, rfl⟩

-- ---------------------------------------------------------------------------
-- Groups
-- ---------------------------------------------------------------------------

/-- The group of a scoped name holds the variables of that name, in order. -/
theorem get?_foldl_addToGroup {vs group : List Variable} {name : String} :
    (vs.foldl addToGroup .empty).get? name = some group ↔
      group = vs.filter (·.name = name) ∧ group ≠ [] := by
  induction vs using List.reverseRecOn generalizing group with
  | nil =>
    refine iff_of_false (by simp) ?_
    rintro ⟨rfl, hne⟩
    exact hne rfl
  | append_singleton vs v ih =>
    rw [List.foldl_append, List.foldl_cons, List.foldl_nil, addToGroup, OrderedMap.get?_insert,
      List.filter_append]
    by_cases hname : v.name = name
    · rw [if_pos hname, List.filter_cons_of_pos (by simpa using hname), List.filter_nil, hname]
      -- the group so far is empty exactly if no variable of the name came before
      have hold : ((vs.foldl addToGroup .empty).get? name).getD [] =
          vs.filter (·.name = name) := by
        cases hget : (vs.foldl addToGroup .empty).get? name with
        | some group => exact (ih.1 hget).1
        | none =>
          cases hfilter : vs.filter (·.name = name) with
          | nil => rfl
          | cons u us =>
            rw [ih.2 ⟨hfilter.symm, by simp⟩] at hget
            exact absurd hget (by simp)
      rw [hold, Option.some.injEq]
      constructor
      · rintro rfl
        exact ⟨rfl, by simp⟩
      · exact fun h => h.1.symm
    · rw [if_neg hname, List.filter_cons_of_neg (by simpa using hname), List.filter_nil,
        List.append_nil]
      exact ih

/-- The group of a name has all variables of the name, in order. -/
theorem get?_groupVariables {s : Store} {name : String} {group : List Variable} :
    (groupVariables s).get? name = some group ↔
      group = s.variables.filter (·.name = name) ∧ group ≠ [] :=
  get?_foldl_addToGroup

theorem groupVariables_distinct (s : Store) : (groupVariables s).Distinct :=
  List.foldlRecOn _ addToGroup OrderedMap.distinct_empty fun _ h _ _ => h.insert _ _

/-- The groups that are listed are those that are found. -/
theorem mem_groupVariables {s : Store} {name : String} {group : List Variable} :
    (name, group) ∈ (groupVariables s).entries ↔
      group = s.variables.filter (·.name = name) ∧ group ≠ [] :=
  (groupVariables_distinct s).mem_entries_iff.trans get?_groupVariables

-- ---------------------------------------------------------------------------
-- Definitions of one name
-- ---------------------------------------------------------------------------

/-- Of the variables at a location that is not taken yet, the first one is kept. -/
theorem find?_distinctLocated {seen : List Int} {location : Int} (hseen : location ∉ seen)
    (vs : List Variable) :
    (distinctLocated seen vs).find? (·.location? = some location) =
      vs.find? (·.location? = some location) := by
  induction vs generalizing seen with
  | nil => rfl
  | cons v vs ih =>
    rw [distinctLocated]
    split
    · rename_i hnone
      rw [ih hseen, List.find?_cons_of_neg (by simp [hnone])]
    · rename_i own hown
      split
      · rename_i htaken
        have hne : own ≠ location := by
          rintro rfl
          exact hseen (by simpa using htaken)
        rw [ih hseen, List.find?_cons_of_neg (by simpa [hown] using hne)]
      · by_cases heq : own = location
        · have hv : v.location? = some location := heq ▸ hown
          rw [List.find?_cons_of_pos (by simpa using hv),
            List.find?_cons_of_pos (by simpa using hv)]
        · rw [List.find?_cons_of_neg (by simpa [hown] using heq),
            List.find?_cons_of_neg (by simpa [hown] using heq)]
          exact ih (by simpa using ⟨Ne.symm heq, hseen⟩)

theorem distinctLocated_subset (seen : List Int) (vs : List Variable) :
    distinctLocated seen vs ⊆ vs := by
  induction vs generalizing seen with
  | nil => exact fun _ h => h
  | cons v vs ih =>
    rw [distinctLocated]
    split
    · exact List.subset_cons_of_subset v (ih seen)
    · split
      · exact List.subset_cons_of_subset v (ih seen)
      · exact List.cons_subset_cons v (ih _)

theorem uniqueDefinitions_subset (vs : List Variable) : uniqueDefinitions vs ⊆ vs := by
  unfold uniqueDefinitions
  simp only
  split
  · intro v hv
    exact (List.mem_filter.1 (List.mem_filter.1 (List.mem_of_mem_take hv)).1).1
  · intro v hv
    exact (List.mem_filter.1 (distinctLocated_subset [] _ hv)).1

theorem fileScopeVariables_subset (vs : List Variable) : fileScopeVariables vs ⊆ vs := by
  unfold fileScopeVariables
  split
  · exact fun v hv => List.mem_of_mem_take hv
  · exact uniqueDefinitions_subset vs

/-- The first definition at a location is one of the distinct ones. -/
theorem mem_uniqueDefinitions {vs : List Variable} {u : Variable} {location : Int}
    (h : (vs.filter (!·.entry.isDeclaration)).find? (·.location? = some location) = some u) :
    u ∈ uniqueDefinitions vs := by
  have hmem : u ∈ distinctLocated [] (vs.filter (!·.entry.isDeclaration)) := by
    rw [← find?_distinctLocated List.not_mem_nil] at h
    exact List.mem_of_find?_eq_some h
  unfold uniqueDefinitions
  simp only
  split
  · rename_i hnil
    rw [hnil] at hmem
    exact absurd hmem (by simp)
  · exact hmem

/-- What defines a name at file scope is listed, and declarations are not. -/
theorem fileScopeVariables_of_mem {vs : List Variable} {u : Variable}
    (h : u ∈ uniqueDefinitions vs) : u ∈ fileScopeVariables vs := by
  unfold fileScopeVariables
  split
  · rename_i hnil
    rw [hnil] at h
    exact absurd h (by simp)
  · exact h

-- ---------------------------------------------------------------------------
-- One group
-- ---------------------------------------------------------------------------

/-- The variable that a group lists under its scoped name. -/
def scopedOf (group : List Variable) : Option Variable :=
  match fileScopeVariables (group.filter (·.function.isNone)) with
  | [v] => some v
  | _ => none

/-- The variables that a group lists under their qualified names. -/
def qualifiedOf (group : List Variable) : List Variable :=
  let statics := uniqueDefinitions (group.filter (·.function.isSome))
  match fileScopeVariables (group.filter (·.function.isNone)) with
  | [_] => statics
  | fileScope => fileScope ++ statics

/-- The variable that is chosen for a name is one of its group. -/
theorem mem_of_scopedOf {group : List Variable} {v : Variable} (h : scopedOf group = some v) :
    v ∈ group := by
  unfold scopedOf at h
  split at h
  · rename_i u heq
    obtain rfl := Option.some.inj h
    have hmem : u ∈ fileScopeVariables (group.filter (·.function.isNone)) := by simp [heq]
    exact (List.mem_filter.1 (fileScopeVariables_subset _ hmem)).1
  · exact absurd h (by simp)

/-- The variables that are listed by qualified name are of their group. -/
theorem mem_of_qualifiedOf {group : List Variable} {v : Variable} (h : v ∈ qualifiedOf group) :
    v ∈ group := by
  have hstatics : ∀ {u}, u ∈ uniqueDefinitions (group.filter (·.function.isSome)) → u ∈ group :=
    fun hu => (List.mem_filter.1 (uniqueDefinitions_subset _ hu)).1
  unfold qualifiedOf at h
  simp only at h
  split at h
  · exact hstatics h
  · rcases List.mem_append.1 h with h | h
    · exact (List.mem_filter.1 (fileScopeVariables_subset _ h)).1
    · exact hstatics h

/-- The distinct definitions of a group are listed, in one way or the other. -/
theorem scopedOf_or_mem_qualifiedOf {group : List Variable} {u : Variable}
    (h : u ∈ uniqueDefinitions (group.filter (·.function.isNone)) ∨
      u ∈ uniqueDefinitions (group.filter (·.function.isSome))) :
    scopedOf group = some u ∨ u ∈ qualifiedOf group := by
  unfold scopedOf qualifiedOf
  simp only
  rcases h with h | h
  · have hmem := fileScopeVariables_of_mem h
    split
    · rename_i v heq
      rw [heq, List.mem_singleton] at hmem
      exact .inl (congrArg some hmem.symm)
    · exact .inr (List.mem_append_left _ hmem)
  · right
    split
    · exact h
    · exact List.mem_append_right _ h

/-- Of the variables of one qualified name, the first one is listed, unless the name is taken. -/
theorem get?_foldl_addQualified (known : Variables) (vs : List Variable) (key : String) :
    (vs.foldl addQualified known).get? key =
      (known.get? key).or
        ((vs.find? (·.qualifiedName = key)).map ({ · with isQualified := true })) := by
  induction vs generalizing known with
  | nil => simp
  | cons v vs ih =>
    rw [List.foldl_cons, ih, addQualified, OrderedMap.get?_insertNew, Option.or_assoc]
    by_cases hkey : v.qualifiedName = key
    · rw [List.find?_cons_of_pos (by simpa using hkey), if_pos hkey]
      rfl
    · rw [List.find?_cons_of_neg (by simpa using hkey), if_neg hkey]
      rfl

/-- A group gives its scoped name a variable, whatever it stood for; its qualified names are given
one only if they have none. -/
theorem get?_addGroup (known : Variables) (name : String) (group : List Variable) (key : String) :
    (addGroup known name group).get? key =
      (((if name = key then scopedOf group else none).or (known.get? key)).or
        (((qualifiedOf group).find? (·.qualifiedName = key)).map
          ({ · with isQualified := true }))) := by
  unfold addGroup scopedOf qualifiedOf
  simp only
  rcases fileScopeVariables (group.filter (·.function.isNone)) with _ | ⟨v, _ | ⟨w, rest⟩⟩
  · rw [get?_foldl_addQualified, ite_self, Option.none_or]
  · rw [get?_foldl_addQualified, OrderedMap.get?_insert]
    by_cases hkey : name = key <;> simp [hkey]
  · rw [get?_foldl_addQualified, ite_self, Option.none_or]

-- ---------------------------------------------------------------------------
-- All groups
-- ---------------------------------------------------------------------------

/-- Adds the variables of some groups, one group after the other. -/
def addGroups (known : Variables) (groups : List (String × List Variable)) : Variables :=
  groups.foldl (fun known group => addGroup known group.1 group.2) known

@[simp] theorem addGroups_append_singleton (known : Variables)
    (groups : List (String × List Variable)) (group : String × List Variable) :
    addGroups known (groups ++ [group]) = addGroup (addGroups known groups) group.1 group.2 := by
  rw [addGroups, List.foldl_append]
  rfl

variable {groups : List (String × List Variable)} {name key : String} {group : List Variable}
  {v : Variable} {known : Variables}

/-- What a group lists under its scoped name stays there: the other groups have other names. -/
theorem get?_addGroups_of_scopedOf (hdistinct : (groups.map (·.1)).Nodup)
    (hgroup : (name, group) ∈ groups) (h : scopedOf group = some v) :
    (addGroups known groups).get? name = some v := by
  induction groups using List.reverseRecOn with
  | nil => exact absurd hgroup List.not_mem_nil
  | append_singleton groups last ih =>
    rw [addGroups_append_singleton, get?_addGroup]
    rw [List.map_append, List.nodup_append] at hdistinct
    obtain ⟨hdistinct, -, hne⟩ := hdistinct
    rcases List.mem_append.1 hgroup with hgroup | hgroup
    · have hother : last.1 ≠ name :=
        (hne name (List.mem_map.2 ⟨_, hgroup, rfl⟩) last.1 (by simp)).symm
      rw [if_neg hother, Option.none_or, ih hdistinct hgroup, Option.some_or]
    · obtain rfl := List.mem_singleton.1 hgroup
      rw [if_pos rfl, h, Option.some_or, Option.some_or]

/-- A qualified name that a group lists is given to some variable. -/
theorem exists_get?_addGroups_of_mem_qualifiedOf (hgroup : (name, group) ∈ groups)
    (h : v ∈ qualifiedOf group) : ∃ w, (addGroups known groups).get? v.qualifiedName = some w := by
  rw [← Option.isSome_iff_exists]
  induction groups using List.reverseRecOn with
  | nil => exact absurd hgroup List.not_mem_nil
  | append_singleton groups last ih =>
    rw [addGroups_append_singleton, get?_addGroup, Option.isSome_or, Option.isSome_or,
      Option.isSome_map]
    rcases List.mem_append.1 hgroup with hgroup | hgroup
    · rw [ih hgroup, Bool.or_true, Bool.true_or]
    · obtain rfl := List.mem_singleton.1 hgroup
      have hfind : ((qualifiedOf group).find? (·.qualifiedName = v.qualifiedName)).isSome = true :=
        List.find?_isSome.2 ⟨v, h, by simp⟩
      rw [hfind, Bool.or_true]

/-- Whatever is known is listed by a group, under its scoped name or under a qualified one. -/
theorem listed_of_get?_addGroups (h : (addGroups .empty groups).get? key = some v) :
    ∃ group ∈ groups, (group.1 = key ∧ scopedOf group.2 = some v) ∨
      ∃ w ∈ qualifiedOf group.2, w.qualifiedName = key ∧ v = { w with isQualified := true } := by
  induction groups using List.reverseRecOn with
  | nil => exact absurd h (by simp [addGroups])
  | append_singleton groups last ih =>
    rw [addGroups_append_singleton, get?_addGroup, Option.or_eq_some_iff,
      Option.or_eq_some_iff] at h
    rcases h with (h | ⟨-, h⟩) | ⟨-, h⟩
    · split at h
      · rename_i hname
        exact ⟨last, by simp, .inl ⟨hname, h⟩⟩
      · exact absurd h (by simp)
    · obtain ⟨group, hgroup, hlisted⟩ := ih h
      exact ⟨group, List.mem_append_left _ hgroup, hlisted⟩
    · obtain ⟨w, hw, rfl⟩ := Option.map_eq_some_iff.1 h
      have hkey : w.qualifiedName = key := by simpa using List.find?_some hw
      exact ⟨last, by simp, .inr ⟨w, List.mem_of_find?_eq_some hw, hkey, rfl⟩⟩

/-- Every name that is given to a variable is one that the variable goes by, in its group. -/
theorem of_get?_addGroups (h : (addGroups .empty groups).get? key = some v) :
    ∃ group ∈ groups, ∃ w ∈ group.2,
      (group.1 = key ∨ w.qualifiedName = key) ∧ v.entry = w.entry := by
  obtain ⟨group, hgroup, ⟨hname, hscoped⟩ | ⟨w, hw, hkey, rfl⟩⟩ := listed_of_get?_addGroups h
  · exact ⟨group, hgroup, v, mem_of_scopedOf hscoped, .inl hname, rfl⟩
  · exact ⟨group, hgroup, w, mem_of_qualifiedOf hw, .inr hkey, rfl⟩

-- ---------------------------------------------------------------------------
-- Locations
-- ---------------------------------------------------------------------------

/-- The variable that stands for a definition: the first one of its scoped name at its location,
where the variables at file scope and those of functions are kept apart. -/
def Store.standIn? (s : Store) (v : Variable) : Option Variable :=
  s.variables.find? fun u => u.name = v.name ∧ u.function.isSome = v.function.isSome ∧
    u.entry.isDeclaration = false ∧ u.location? = v.location?

/-- A definition has a variable that stands for it, and this one is listed by its group. -/
theorem exists_standIn? {s : Store} (hv : v ∈ s.variables)
    (hdefinition : v.entry.isDeclaration = false) {location : Int}
    (hlocation : v.location? = some location) :
    ∃ u, s.standIn? v = some u ∧ u.location? = some location ∧
      (scopedOf (s.variables.filter (·.name = v.name)) = some u ∨
        u ∈ qualifiedOf (s.variables.filter (·.name = v.name))) := by
  have hsome : (s.standIn? v).isSome = true :=
    List.find?_isSome.2 ⟨v, hv, by simpa using hdefinition⟩
  obtain ⟨u, hu⟩ := Option.isSome_iff_exists.1 hsome
  have hstands := List.find?_some hu
  simp only [decide_eq_true_eq] at hstands
  -- the stand-in is the first definition of its kind at the location
  have hunique : ∀ own : Variable → Bool, (∀ w, own w = (w.function.isSome = v.function.isSome)) →
      u ∈ uniqueDefinitions ((s.variables.filter (·.name = v.name)).filter own) := by
    intro own hown
    have hfirst : (((s.variables.filter (·.name = v.name)).filter own).filter
        (!·.entry.isDeclaration)).find? (·.location? = some location) = some u := by
      rw [List.find?_filter, List.find?_filter, List.find?_filter, ← hu, Store.standIn?, hlocation]
      simp only [hown, Bool.not_eq_true', decide_eq_true_eq]
    exact mem_uniqueDefinitions hfirst
  refine ⟨u, hu, hstands.2.2.2.trans hlocation, scopedOf_or_mem_qualifiedOf ?_⟩
  cases hfunction : v.function with
  | none => exact .inl (hunique _ fun w => by simp [hfunction])
  | some f => exact .inr (hunique _ fun w => by simp [hfunction])

/-- Every definition with a location is known, in the sense that some name stands for a variable at
that location, unless the variable that stands for it goes by its qualified name and that name is
given to another variable. -/
theorem Program.known_or_taken (store : Store) (symbols : SymbolTable) (target : Target)
    (regions : Option Regions) (memory : Option MemoryReader) (config : Config) (depth : Nat)
    {d : Placed} {name : String} {location : Int}
    (hd : d ∈ store.entries)
    (htag : d.entry.tag = Tag.variable_) (hname : store.entryName? d.entry = some name)
    (hdefinition : d.entry.isDeclaration = false) (hlocation : d.entry.location? = some location) :
    let p := Program.load store symbols target regions memory config depth
    (∃ key ∈ p.names, ∃ v, p.variableIndex.get? key = some v ∧ v.location? = some location) ∨
      ∃ v u w x, Variable.ofEntry? store d = some v ∧ store.standIn? v = some u ∧
        p.variableIndex.get? u.qualifiedName = some x ∧ x.location? ≠ some location ∧
        w ∈ store.variables ∧ w.GoesBy u.qualifiedName ∧ x.entry = w.entry := by
  intro p
  obtain ⟨v, hv, hentry⟩ := Variable.exists_ofEntry? hname hdefinition hlocation
  have hmem : v ∈ store.variables :=
    List.mem_filterMap.2 ⟨d, List.mem_filter.2 ⟨hd, by simpa using htag⟩, hv⟩
  obtain ⟨u, hu, huloc, hlisted⟩ := exists_standIn? hmem (hentry ▸ hdefinition)
    (show v.entry.location? = some location from hentry ▸ hlocation)
  have hgroup : (v.name, store.variables.filter (·.name = v.name)) ∈
      (groupVariables store).entries :=
    mem_groupVariables.2 ⟨rfl, List.ne_nil_of_mem (List.mem_filter.2 ⟨hmem, by simp⟩)⟩
  rcases hlisted with hscoped | hqualified
  · left
    have hget : p.variableIndex.get? v.name = some u :=
      get?_addGroups_of_scopedOf (groupVariables_distinct store) hgroup hscoped
    exact ⟨v.name, OrderedMap.contains_iff.1 (Option.isSome_of_eq_some hget), u, hget, huloc⟩
  · obtain ⟨x, hget⟩ : ∃ x, p.variableIndex.get? u.qualifiedName = some x :=
      exists_get?_addGroups_of_mem_qualifiedOf hgroup hqualified
    by_cases hxloc : x.location? = some location
    · left
      exact ⟨_, OrderedMap.contains_iff.1 (Option.isSome_of_eq_some hget), x, hget, hxloc⟩
    · right
      -- the key went to the first variable that goes by it
      obtain ⟨⟨other, group⟩, hother, w, hw, hkey, hxw⟩ := of_get?_addGroups hget
      obtain ⟨rfl, -⟩ := mem_groupVariables.1 hother
      obtain ⟨hwmem, hwname⟩ := List.mem_filter.1 hw
      have hwname : w.name = other := by simpa using hwname
      refine ⟨v, u, w, x, hv, hu, hget, hxloc, hwmem, ?_, hxw⟩
      exact hkey.imp_left hwname.trans

-- ---------------------------------------------------------------------------
-- Two blocks of one function
-- ---------------------------------------------------------------------------

/-- A unit with a function that has a static variable in each of its two blocks, both of one
name. -/
def blocksUnit : Entry :=
  .node 1 Tag.compileUnit (.ofList [(Attr.name, .text "a.c")])
    [.node 2 Tag.baseType
        (.ofList [(Attr.name, .text "int"), (Attr.byteSize, .int 4), (Attr.encoding, .int 5)]) [],
      .node 3 Tag.subprogram (.ofList [(Attr.name, .text "f")])
        [.node 4 Tag.lexicalBlock .empty
          [.node 5 Tag.variable_ (.ofList [(Attr.name, .text "x"), (Attr.type, .int 2),
            (Attr.location, .int 0x1000)]) []],
          .node 6 Tag.lexicalBlock .empty
          [.node 7 Tag.variable_ (.ofList [(Attr.name, .text "x"), (Attr.type, .int 2),
            (Attr.location, .int 0x2000)]) []]]]

/-- The store of that unit alone. -/
def blocksStore : Store := (Store.empty.addRoot blocksUnit).1

/-- The program of that unit alone. -/
def blocks : Program :=
  .load blocksStore .empty .standard none none .default defaultDepth

/-- Of two variables in two blocks of one function the second is taken. -/
theorem Program.known_or_taken_blocks :
    ∃ d ∈ blocksStore.entries, d.entry.tag = Tag.variable_ ∧
      blocksStore.entryName? d.entry = some "x" ∧ d.entry.isDeclaration = false ∧
      d.entry.location? = some 0x2000 ∧
      ((∃ key ∈ blocks.names, ∃ v, blocks.variableIndex.get? key = some v ∧
          v.location? = some 0x2000) ∨
        ∃ v u w x, Variable.ofEntry? blocksStore d = some v ∧ blocksStore.standIn? v = some u ∧
          blocks.variableIndex.get? u.qualifiedName = some x ∧ x.location? ≠ some 0x2000 ∧
          w ∈ blocksStore.variables ∧ w.GoesBy u.qualifiedName ∧ x.entry = w.entry) := by
  have hd := List.mem_of_getElem? (l := blocksStore.entries) (i := 6) rfl
  exact ⟨_, hd, rfl, rfl, rfl, rfl, Program.known_or_taken blocksStore .empty .standard none none
    .default defaultDepth hd rfl rfl rfl rfl⟩

/-- The variable of the second block is not known: its name is given to that of the first one. -/
theorem Program.second_block_unknown :
    blocks.names = ["x\x7bFunction:f\x7d\x7bCompileUnit:a_c\x7d"] ∧
      ∃ d ∈ blocksStore.entries, d.entry.tag = Tag.variable_ ∧
        blocksStore.entryName? d.entry = some "x" ∧ d.entry.isDeclaration = false ∧
        d.entry.location? = some 0x2000 ∧
        ∀ key v, blocks.variableIndex.get? key = some v → v.location? ≠ some 0x2000 := by
  have hall : ∀ e ∈ blocks.variableIndex.entries, e.2.location? ≠ some 0x2000 := by decide
  refine ⟨rfl, _, List.mem_of_getElem? (l := blocksStore.entries) (i := 6) rfl, rfl, rfl, rfl, rfl,
    fun key v hv => hall (key, v) (OrderedMap.mem_of_lookupIn hv)⟩

end DebugLayout
