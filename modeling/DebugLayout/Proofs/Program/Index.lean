import DebugLayout.Program.Basic
import DebugLayout.Proofs.Image.SymbolTable

/-!
# DebugLayout — the indexes of a loaded program

A program looks its variables up in three ways: by the name under which they are known, by their
link name, and by the location of the debug information. All three are built by one walk over a
list, and what such a walk keeps at every step holds of the whole index. Every entry of the two
smaller indexes leads to a variable that has the link name, or the location, that it is found by.

The main index keeps the first variable of a name, and so do the two others. That is all that is
needed of them: which variable an entry leads to, and not which of several it is.

* `Program.Loaded`: the programs that loading leads to;
* `indexVariables_distinct`: no name is listed twice;
* `Program.Loaded.of_byLinkName`: a link name leads to an unqualified variable of that link name;
* `Program.Loaded.of_byLocation`: a location leads to a variable at that location.
-/

namespace DebugLayout

-- ---------------------------------------------------------------------------
-- Names
-- ---------------------------------------------------------------------------

/-- Adding variables under their qualified names lists no name twice. -/
theorem foldl_addQualified_distinct {known : Variables} (h : known.Distinct) (vs : List Variable) :
    (vs.foldl addQualified known).Distinct :=
  List.foldlRecOn vs addQualified h fun _ hk v _ => hk.insertNew v.qualifiedName _

theorem addGroup_distinct {known : Variables} (h : known.Distinct) (name : String)
    (group : List Variable) : (addGroup known name group).Distinct := by
  unfold addGroup
  simp only
  split
  · exact foldl_addQualified_distinct (h.insert name _) _
  · exact foldl_addQualified_distinct h _

/-- No variable is known under two entries of one name. -/
theorem indexVariables_distinct (s : Store) : (indexVariables s).Distinct := by
  unfold indexVariables
  exact List.foldlRecOn _ _ OrderedMap.distinct_empty fun _ h group _ =>
    addGroup_distinct h group.1 group.2

namespace Program

-- ---------------------------------------------------------------------------
-- Link names and locations
-- ---------------------------------------------------------------------------

/-- An index by link name leads from each link name to an unqualified variable that has it. -/
theorem of_foldl_indexLinkName {es : List (String × Variable)} {linkName name : String}
    (h : (es.foldl indexLinkName .empty).get? linkName = some name) :
    ∃ v, (name, v) ∈ es ∧ v.linkName = some linkName ∧ v.isQualified = false := by
  revert linkName name
  refine List.foldlRecOn (motive := fun index : OrderedMap String String =>
    ∀ {linkName name}, index.get? linkName = some name →
      ∃ v, (name, v) ∈ es ∧ v.linkName = some linkName ∧ v.isQualified = false)
    es indexLinkName ?_ ?_
  · intro linkName name h
    simp at h
  · intro index ih e he linkName name h
    unfold indexLinkName at h
    split at h
    · rename_i own hown hqualified
      -- the name was there before, or it is that of the variable at hand
      rw [OrderedMap.get?_insertNew, Option.or_eq_some_iff] at h
      rcases h with h | ⟨-, h⟩
      · exact ih h
      · split at h
        · rename_i heq
          subst heq
          rw [Option.some.injEq] at h
          subst h
          exact ⟨e.2, he, hown, hqualified⟩
        · exact absurd h (by simp)
    · exact ih h

/-- An index by location leads from each location to a variable that has it. -/
theorem of_foldl_indexLocation {es : List (String × Variable)} {location : Int} {name : String}
    (h : (location, name) ∈ (es.foldl indexLocation .empty).entries) :
    ∃ v, (name, v) ∈ es ∧ v.location? = some location := by
  revert location name
  refine List.foldlRecOn (motive := fun index : AddressMap String =>
    ∀ {location name}, (location, name) ∈ index.entries →
      ∃ v, (name, v) ∈ es ∧ v.location? = some location) es indexLocation ?_ ?_
  · intro location name h
    exact absurd h (by simp [AddressMap.empty])
  · intro index ih e he location name h
    unfold indexLocation at h
    split at h
    · rename_i own hown
      split at h
      · exact ih h
      · rcases AddressMap.mem_insertIn h with heq | h
        · obtain ⟨rfl, rfl⟩ := Prod.mk.inj heq
          exact ⟨e.2, he, hown⟩
        · exact ih h
    · exact ih h

-- ---------------------------------------------------------------------------
-- Loaded programs
-- ---------------------------------------------------------------------------

/-- The programs that loading leads to, with every symbol table that additions build. -/
inductive Loaded : Program → Prop
  | load {symbols : SymbolTable} (hsymbols : symbols.Reachable) (store : Store) (target : Target)
      (regions : Option Regions) (memory : Option MemoryReader) (config : Config) (depth : Nat) :
      Loaded (Program.load store symbols target regions memory config depth)

variable {p : Program}

/-- The symbols of a loaded program agree by name and by address. -/
theorem Loaded.coherent (hp : p.Loaded) : p.symbols.Coherent := by
  obtain ⟨hsymbols⟩ := hp
  exact hsymbols.coherent

theorem Loaded.distinct (hp : p.Loaded) : p.variableIndex.Distinct := by
  obtain ⟨-⟩ := hp
  exact indexVariables_distinct _

/-- A link name that is indexed leads to a variable that has it and goes by its scoped name. -/
theorem Loaded.of_byLinkName (hp : p.Loaded) {linkName name : String}
    (h : p.byLinkName.get? linkName = some name) :
    ∃ v, p.variableIndex.get? name = some v ∧ v.linkName = some linkName ∧
      v.isQualified = false := by
  have hdistinct := hp.distinct
  obtain ⟨-⟩ := hp
  obtain ⟨v, hmem, hlink, hqualified⟩ := of_foldl_indexLinkName h
  exact ⟨v, hdistinct.mem_entries_iff.1 hmem, hlink, hqualified⟩

/-- A location that is indexed leads to a variable that has it. -/
theorem Loaded.of_byLocation (hp : p.Loaded) {location : Int} {name : String}
    (h : (location, name) ∈ p.byLocation.entries) :
    ∃ v, p.variableIndex.get? name = some v ∧ v.location? = some location := by
  have hdistinct := hp.distinct
  obtain ⟨-⟩ := hp
  obtain ⟨v, hmem, hlocation⟩ := of_foldl_indexLocation h
  exact ⟨v, hdistinct.mem_entries_iff.1 hmem, hlocation⟩

end Program

end DebugLayout
