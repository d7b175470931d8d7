import DebugLayout.Program.Variable
import DebugLayout.Proofs.TypeGraph.Transcript

/-!
# DebugLayout — which definition a declared composite is completed with

A composite that is only declared is an alias of a composite that **defines** it. The two are of one
family and have one name, but the search for a definition does not look at the scopes around them,
which variables are told apart by: it takes the first one in document order. The definition is
therefore that of another scope exactly if such a one comes first, which **eclipses** those in the
scope of the declaration, if there are any.

The search compares the family, the name and the completeness of an entry, and all of these are read
off the entries. So it is known from the store alone which declarations are eclipsed, and no graph
has to be built to tell.

* `Placed.Defines`: a definition of the family and name of another composite;
* `Placed.scopes`: the names of the scopes around an entry;
* `Store.Eclipsed`: whether the first such definition is in another scope;
* `TypeGraph.definition?_eq_some`: the definition that is found is the first one;
* `TypeGraph.completed_in_scope_iff`: a declared composite that is an alias is one of a definition,
  which is in its own scope unless it is eclipsed.
-/

namespace DebugLayout

/-- The names of the scopes around an entry, from the outermost in. -/
def Placed.scopes (p : Placed) : List String := scopeNames p.ancestors

/-- Whether an entry is a complete composite of the family and name of another one. -/
structure Placed.Defines (p d : Placed) : Prop where
  composite : p.entry.tag.isComposite = true
  complete : p.entry.isDeclaration = false
  family : p.entry.tag.family = d.entry.tag.family
  named : ∃ name, d.entry.name? = some name ∧ p.entry.name? = some name

/-- Whether a definition in another scope comes before all those in the scope of an entry. -/
def Store.Eclipsed (store : Store) (d : Placed) : Prop :=
  ∃ before p after, store.entries = before ++ p :: after ∧ p.Defines d ∧ p.scopes ≠ d.scopes ∧
    ∀ q ∈ before, q.Defines d → q.scopes ≠ d.scopes

/-- Of two members of a list, one comes before the other unless they are the same. -/
theorem mem_or_eq_or_mem_of_split {α : Type} {a b : α} {before after before' after' : List α}
    (h : before ++ a :: after = before' ++ b :: after') : b ∈ before ∨ b = a ∨ a ∈ before' := by
  rcases List.append_eq_append_iff.1 h with ⟨rest, rfl, hrest⟩ | ⟨rest, rfl, hrest⟩
  · cases rest with
    | nil => exact .inr (.inl (List.cons.inj hrest).1.symm)
    | cons c rest =>
      obtain ⟨rfl, -⟩ := List.cons.inj hrest
      exact .inr (.inr (by simp))
  · cases rest with
    | nil => exact .inr (.inl (List.cons.inj hrest).1)
    | cons c rest =>
      obtain ⟨rfl, -⟩ := List.cons.inj hrest
      exact .inl (by simp)

/-- The first definition of an entry is in its scope unless the entry is eclipsed. -/
theorem Store.scopes_eq_iff {store : Store} {d e : Placed} {before after : List Placed}
    (hentries : store.entries = before ++ e :: after) (he : e.Defines d)
    (hfirst : ∀ q ∈ before, ¬q.Defines d) : e.scopes = d.scopes ↔ ¬store.Eclipsed d := by
  constructor
  · rintro hscopes ⟨before', p, after', hentries', hp, hother, hbefore'⟩
    rcases mem_or_eq_or_mem_of_split (hentries.symm.trans hentries') with hmem | rfl | hmem
    · exact hfirst p hmem hp
    · exact hother hscopes
    · exact hbefore' e hmem he hscopes
  · intro heclipsed
    by_contra hscopes
    exact heclipsed ⟨before, e, after, hentries, he, hscopes,
      fun q hq hdefines => absurd hdefines (hfirst q hq)⟩

namespace TypeGraph

variable {g : TypeGraph} {store : Store} {ref target : Int} {d : Placed}

/-- The definition that is found is the first one of the family and name. -/
theorem definition?_eq_some (h : definition? store d.entry = some ref) :
    ∃ before e after, store.entries = before ++ e :: after ∧ e.entry.ref = ref ∧ e.Defines d ∧
      ∀ q ∈ before, ¬q.Defines d := by
  unfold definition? at h
  split at h
  · cases h
  · rename_i name hname
    obtain ⟨e, hfound, rfl⟩ := Option.map_eq_some_iff.1 h
    obtain ⟨he, before, after, hentries, hbefore⟩ := List.find?_eq_some_iff_append.1 hfound
    simp only [Bool.and_eq_true, Bool.not_eq_true', decide_eq_true_eq] at he
    obtain ⟨⟨⟨hcomposite, hcomplete⟩, hfamily⟩, hsame⟩ := he
    refine ⟨before, e, after, hentries, rfl,
      ⟨hcomposite, hcomplete, hfamily, name, hname, hsame⟩, fun q hq hdefines => ?_⟩
    -- an earlier definition of the name would have been found first
    obtain ⟨other, hother, hothers⟩ := hdefines.named
    obtain rfl := Option.some.inj (hname.symm.trans hother)
    have hmissed := hbefore q hq
    simp [hdefines.composite, hdefines.complete, hdefines.family, hothers] at hmissed

/-- An alias of what is no alias ends there. -/
theorem canonicalRef_of_alias (halias : g.aliases.get? ref = some target)
    (hend : g.aliases.get? target = none) : g.canonicalRef ref = .ok target := by
  have hsize : [ref].length ≤ g.aliases.size :=
    length_le_size (List.nodup_singleton ref) (by simp [halias])
  obtain ⟨n, hn⟩ : ∃ n, g.aliases.size = n + 1 := ⟨g.aliases.size - 1, by
    rw [List.length_singleton] at hsize
    omega⟩
  rw [canonicalRef, hn, follow, halias]
  simp [follow, hend]

/-- A definition is no alias of the graph that is built. -/
theorem get?_aliases_of_defines (hdistinct : store.Distinct) (depth : Nat) (platform : Target)
    {e : Placed} (hmem : e ∈ store.entries) (he : e.Defines d) :
    (buildWithin depth platform store).aliases.get? e.entry.ref = none := by
  have hg := transcribes_buildWithin hdistinct depth platform
  cases halias : (buildWithin depth platform store).aliases.get? e.entry.ref with
  | none => rfl
  | some other =>
    obtain ⟨found, hfound, hstands, -⟩ := hg.synonym _ _ halias
    rw [Store.entry?_of_mem hdistinct hmem] at hfound
    obtain rfl := Option.some.inj hfound
    rw [Store.standsFor?_of_isComposite he.composite, Store.completion?, he.complete,
      if_neg (by decide)] at hstands
    cases hstands

/-- A declared composite that the graph holds as an alias is completed with a definition of its
family and name. That is one in the same scopes, unless the declaration is eclipsed by a definition
in others. -/
theorem completed_in_scope_iff (hdistinct : store.Distinct) (depth : Nat) (platform : Target)
    (hmem : d ∈ store.entries) (hcomposite : d.entry.tag.isComposite = true)
    (hdeclared : d.entry.isDeclaration = true)
    (halias : (buildWithin depth platform store).aliases.get? d.entry.ref = some ref) :
    ∃ e ∈ store.entries, e.entry.ref = ref ∧ e.Defines d ∧
      (buildWithin depth platform store).canonicalRef d.entry.ref = .ok ref ∧
      (e.scopes = d.scopes ↔ ¬store.Eclipsed d) := by
  have hg := transcribes_buildWithin hdistinct depth platform
  obtain ⟨found, hfound, hstands, -⟩ := hg.synonym _ _ halias
  rw [Store.entry?_of_mem hdistinct hmem] at hfound
  obtain rfl := Option.some.inj hfound
  rw [Store.standsFor?_of_isComposite hcomposite, Store.completion?, if_pos hdeclared] at hstands
  obtain ⟨before, e, after, hentries, rfl, he, hfirst⟩ := definition?_eq_some hstands
  have hmem' : e ∈ store.entries := by simp [hentries]
  exact ⟨e, hmem', rfl, he,
    canonicalRef_of_alias halias (get?_aliases_of_defines hdistinct depth platform hmem' he),
    Store.scopes_eq_iff hentries he hfirst⟩

-- ------------------------------------------------------------------------------------------------
-- Two structs of one name
-- ------------------------------------------------------------------------------------------------

/-- A struct that is declared in a namespace. -/
def declaredEntry : Entry :=
  .node 3 Tag.structureType (.ofList [(Attr.name, .text "S"), (Attr.declaration, .int 1)]) []

/-- A struct of the same name in another namespace. -/
def namesakeEntry : Entry :=
  .node 5 Tag.structureType (.ofList [(Attr.name, .text "S"), (Attr.byteSize, .int 4)]) []

/-- The definition of the declared struct, in a later part of its namespace. -/
def definedEntry : Entry :=
  .node 7 Tag.structureType (.ofList [(Attr.name, .text "S"), (Attr.byteSize, .int 8)]) []

def declaredNamespace : Entry :=
  .node 2 Tag.namespace_ (.ofList [(Attr.name, .text "a")]) [declaredEntry]

def namesakeNamespace : Entry :=
  .node 4 Tag.namespace_ (.ofList [(Attr.name, .text "b")]) [namesakeEntry]

def definedNamespace : Entry :=
  .node 6 Tag.namespace_ (.ofList [(Attr.name, .text "a")]) [definedEntry]

def namesakesRoot : Entry :=
  .node 1 Tag.compileUnit (.ofList [(Attr.name, .text "a.c")])
    [declaredNamespace, namesakeNamespace, definedNamespace]

def namesakesStore : Store := (Store.empty.addRoot namesakesRoot).1

def declaredPlaced : Placed := ⟨declaredEntry, [declaredNamespace, namesakesRoot]⟩

def namesakePlaced : Placed := ⟨namesakeEntry, [namesakeNamespace, namesakesRoot]⟩

def definedPlaced : Placed := ⟨definedEntry, [definedNamespace, namesakesRoot]⟩

theorem declaredPlaced_mem : declaredPlaced ∈ namesakesStore.entries :=
  List.mem_of_getElem? (rfl : namesakesStore.entries[2]? = some declaredPlaced)

theorem namesakePlaced_mem : namesakePlaced ∈ namesakesStore.entries :=
  List.mem_of_getElem? (rfl : namesakesStore.entries[4]? = some namesakePlaced)

theorem definedPlaced_mem : definedPlaced ∈ namesakesStore.entries :=
  List.mem_of_getElem? (rfl : namesakesStore.entries[6]? = some definedPlaced)

/-- Of two definitions of one name the first completes a declaration that is in the scope of the
second. -/
theorem completed_in_scope_iff_namesakes :
    (build .standard namesakesStore).aliases.get? 3 = some 5 ∧
      ∃ e ∈ namesakesStore.entries, e.entry.ref = 5 ∧ e.Defines declaredPlaced ∧
        (build .standard namesakesStore).canonicalRef 3 = .ok 5 ∧
        (e.scopes = declaredPlaced.scopes ↔ ¬namesakesStore.Eclipsed declaredPlaced) := by
  have hdistinct : namesakesStore.Distinct := by
    unfold Store.Distinct
    decide
  have halias : (build .standard namesakesStore).aliases.get? 3 = some 5 := by decide +kernel
  exact ⟨halias, completed_in_scope_iff hdistinct (depthBound namesakesStore) .standard
    declaredPlaced_mem rfl rfl halias⟩

/-- A struct that is declared in one namespace is completed with the one of another namespace, and
takes its size, although it is defined in its own. -/
theorem completed_with_namesake :
    (declaredPlaced ∈ namesakesStore.entries ∧ declaredPlaced.entry.isDeclaration = true ∧
      declaredPlaced.scopes = ["a"]) ∧
    (namesakePlaced ∈ namesakesStore.entries ∧ namesakePlaced.scopes = ["b"]) ∧
    (definedPlaced ∈ namesakesStore.entries ∧ definedPlaced.Defines declaredPlaced ∧
      definedPlaced.scopes = ["a"]) ∧
    (build .standard namesakesStore).aliases.get? declaredPlaced.entry.ref =
      some namesakePlaced.entry.ref ∧
    (build .standard namesakesStore).byteSize declaredPlaced.entry.ref = .ok (some 4) ∧
    (build .standard namesakesStore).byteSize definedPlaced.entry.ref = .ok (some 8) :=
  ⟨⟨declaredPlaced_mem, rfl, by decide⟩, ⟨namesakePlaced_mem, by decide⟩,
    ⟨definedPlaced_mem, ⟨rfl, rfl, rfl, "S", rfl, rfl⟩, by decide⟩,
    by decide +kernel, by decide +kernel, by decide +kernel⟩

end TypeGraph

end DebugLayout
