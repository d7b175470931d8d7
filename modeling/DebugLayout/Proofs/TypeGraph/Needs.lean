import DebugLayout.Proofs.Entry.Store
import DebugLayout.TypeGraph.Build
import Mathlib.Data.Finset.Card
import Mathlib.Logic.Relation

/-!
# DebugLayout — what a type needs

A type needs the types that it contains **by value**: what an alias stands for, the elements of an
array, the underlying type of an enumeration, the types of members and base classes, and for a
declared composite the definition that completes it. All of this is read off the entries. A pointer
needs nothing.

Needs are a relation between references of a store. It may go round, and there may be needs without
an entry at their end; where it does not go round, every type has a height, which is the number of
types that can be reached from it.

* `Store.Needs`: one type directly needs another one;
* `Store.IsBody`: the composites whose own members are read;
* `Store.SelfContaining`, `Store.Acyclic`: the composites that contain themselves, and the stores
  without any type that does;
* `Store.acyclic_of_mentioned`: stores that are acyclic because references only lead back;
* `Store.height`: how far a type is above those that need nothing.
-/

namespace DebugLayout

/-- Whether an entry inside a composite gives it a member: a base class, or a member that is not
static. -/
def Entry.IsStored (c : Entry) : Prop :=
  c.tag = Tag.member ∧ c.isDeclaration = false ∨ c.tag = Tag.inheritance

namespace Store

open Relation (ReflTransGen TransGen)

variable {store : Store} {ref : Int} {e : Entry}

/-- The entry of a reference, without the entries around it. -/
def entry? (store : Store) (ref : Int) : Option Entry := (store.resolve? ref).map Placed.entry

/-- An entry is found under its own reference. -/
theorem entry?_ref (h : store.entry? ref = some e) : e.ref = ref := by
  obtain ⟨placed, hplaced, rfl⟩ := Option.map_eq_some_iff.1 h
  exact (mem_of_resolve? hplaced).2

/-- An entry that is found is one of the entries of the store. -/
theorem exists_placed (h : store.entry? ref = some e) : ∃ p ∈ store.entries, p.entry = e := by
  obtain ⟨p, hp, hentry⟩ := Option.map_eq_some_iff.1 h
  exact ⟨p, (mem_of_resolve? hp).1, hentry⟩

/-- Under the reference of each entry of the store one is found, be it that entry or an earlier
one. -/
theorem exists_entry? {p : Placed} (hp : p ∈ store.entries) :
    ∃ e, store.entry? p.entry.ref = some e := by
  obtain ⟨q, hq⟩ := exists_resolve? hp
  exact ⟨q.entry, Option.map_eq_some_iff.2 ⟨q, hq, rfl⟩⟩

/-- The definition that completes a declared composite. -/
def completion? (store : Store) (e : Entry) : Option Int :=
  if e.isDeclaration then TypeGraph.definition? store e else none

/-- Whether a type contains another one by value, directly. -/
inductive Needs (store : Store) (ref : Int) : Int → Prop
  | target {e : Entry} {target : Int} (he : store.entry? ref = some e)
      (htag : e.tag.isAlias = true) (h : e.typeRef? = some target) : Needs store ref target
  | element {e : Entry} {element : Int} (he : store.entry? ref = some e)
      (htag : e.tag = Tag.arrayType) (h : e.typeRef? = some element) : Needs store ref element
  | underlying {e : Entry} {type : Int} (he : store.entry? ref = some e)
      (htag : e.tag = Tag.enumerationType) (h : e.typeRef? = some type) : Needs store ref type
  | definition {e : Entry} {definition : Int} (he : store.entry? ref = some e)
      (htag : e.tag.isComposite = true) (h : store.completion? e = some definition) :
      Needs store ref definition
  | member {e c : Entry} {type : Int} (he : store.entry? ref = some e)
      (htag : e.tag.isComposite = true) (hbody : store.completion? e = none)
      (hc : c ∈ e.children) (hstored : c.IsStored) (h : c.typeRef? = some type) :
      Needs store ref type

/-- Whether a reference is that of a composite whose own members are read. -/
def IsBody (store : Store) (ref : Int) : Prop :=
  ∃ e, store.entry? ref = some e ∧ e.tag.isComposite = true ∧ store.completion? e = none

/-- Whether a composite contains itself by value. -/
def SelfContaining (store : Store) (ref : Int) : Prop :=
  store.IsBody ref ∧ TransGen store.Needs ref ref

/-- Whether no type contains itself by value. -/
def Acyclic (store : Store) : Prop := ∀ ref, ¬ TransGen store.Needs ref ref

/-- An entry that is no composite, or is completed by another one, has no members of its own. -/
theorem not_isBody (he : store.entry? ref = some e)
    (h : e.tag.isComposite = true → store.completion? e ≠ none) : ¬ store.IsBody ref := by
  rintro ⟨e', he', htag, hbody⟩
  obtain rfl : e = e' := Option.some.inj (he.symm.trans he')
  exact h htag hbody

/-- Without an entry there is no body of a composite. -/
theorem not_isBody_of_missing (h : store.entry? ref = none) : ¬ store.IsBody ref := by
  rintro ⟨e, he, -⟩
  rw [h] at he
  exact absurd he (by simp)

/-- The reference in an entry, and for a composite those inside it and the definition that completes
it. -/
def mentioned (store : Store) (e : Entry) : List Int :=
  e.typeRef?.toList ++ if e.tag.isComposite then
    e.children.filterMap Entry.typeRef? ++ (store.completion? e).toList else []

/-- Only entries need types, and they mention what they need. -/
theorem Needs.exists_mentioned {needed : Int} (h : store.Needs ref needed) :
    ∃ p ∈ store.entries, p.entry.ref = ref ∧ needed ∈ store.mentioned p.entry := by
  have hmentioned : ∃ e, store.entry? ref = some e ∧ needed ∈ store.mentioned e := by
    unfold mentioned
    cases h with
    | target he _ htype | element he _ htype | underlying he _ htype =>
      exact ⟨_, he, by simp [htype]⟩
    | definition he htag hdefinition => exact ⟨_, he, by simp [htag, hdefinition]⟩
    | member he htag _ hc _ htype =>
      have hchild := List.mem_filterMap.2 ⟨_, hc, htype⟩
      exact ⟨_, he, by simp [htag, hchild]⟩
  obtain ⟨e, he, hneeded⟩ := hmentioned
  obtain ⟨p, hp, rfl⟩ := exists_placed he
  exact ⟨p, hp, entry?_ref he, hneeded⟩

/-- A store in which entries mention only smaller references than their own is acyclic. -/
theorem acyclic_of_mentioned
    (h : ∀ p ∈ store.entries, ∀ needed ∈ store.mentioned p.entry, needed < p.entry.ref) :
    store.Acyclic := by
  have hdescending : ∀ a b, TransGen store.Needs a b → b < a := by
    have hsmaller : ∀ a b, store.Needs a b → b < a := by
      intro a b hneeds
      obtain ⟨p, hp, rfl, hmentioned⟩ := hneeds.exists_mentioned
      exact h p hp b hmentioned
    intro a b hab
    induction hab with
    | single hneeds => exact hsmaller _ _ hneeds
    | tail _ hneeds ih => exact (hsmaller _ _ hneeds).trans ih
  exact fun ref hcycle => lt_irrefl ref (hdescending ref ref hcycle)

-- ---------------------------------------------------------------------------
-- Heights
-- ---------------------------------------------------------------------------

open Classical in
/-- The references of entries to which the needs of a type lead, with its own. -/
noncomputable def reach (store : Store) (ref : Int) : Finset Int :=
  (store.entries.map (·.entry.ref)).toFinset.filter (ReflTransGen store.Needs ref)

/-- The number of types to which the needs of a type lead. -/
noncomputable def height (store : Store) (ref : Int) : Nat := (store.reach ref).card

/-- What is in reach has an entry and is what the needs lead to. -/
theorem mem_reach {other : Int} : other ∈ store.reach ref ↔
    other ∈ store.entries.map (·.entry.ref) ∧ ReflTransGen store.Needs ref other := by
  classical
  rw [reach, Finset.mem_filter, List.mem_toFinset]

/-- A type is higher than those that it needs. -/
theorem Needs.height_lt {needed : Int} (hacyclic : store.Acyclic) (h : store.Needs ref needed) :
    store.height needed < store.height ref := by
  have hsub : store.reach needed ⊆ store.reach ref := by
    intro other hother
    obtain ⟨hlisted, hreached⟩ := mem_reach.1 hother
    exact mem_reach.2 ⟨hlisted, .head h hreached⟩
  have hown : ref ∈ store.reach ref := by
    obtain ⟨p, hp, href, -⟩ := h.exists_mentioned
    exact mem_reach.2 ⟨List.mem_map.2 ⟨p, hp, href⟩, .refl⟩
  have hback : ref ∉ store.reach needed := fun hback =>
    hacyclic ref (TransGen.head' h (mem_reach.1 hback).2)
  exact Finset.card_lt_card ((Finset.ssubset_iff_of_subset hsub).2 ⟨ref, hown, hback⟩)

/-- The needs of a type lead to no more types than there are entries. -/
theorem height_le_size (store : Store) (ref : Int) : store.height ref ≤ store.size := by
  classical
  have hfilter : store.height ref ≤ (store.entries.map (·.entry.ref)).toFinset.card :=
    Finset.card_filter_le _ _
  have hlength := List.toFinset_card_le (store.entries.map (·.entry.ref))
  rw [List.length_map] at hlength
  exact hfilter.trans hlength

end Store

namespace Tag

variable {t : Tag}

theorem isComposite_of_isAlias (h : t.isAlias = true) : t.isComposite = false := by
  simp only [isAlias, List.contains_iff_mem, List.mem_cons, List.not_mem_nil, or_false] at h
  rcases h with rfl | rfl | rfl | rfl | rfl | rfl | rfl <;> decide

theorem isComposite_of_isPointer (h : t.isPointer = true) : t.isComposite = false := by
  simp only [isPointer, List.contains_iff_mem, List.mem_cons, List.not_mem_nil, or_false] at h
  rcases h with rfl | rfl | rfl <;> decide

theorem isAlias_of_isComposite (h : t.isComposite = true) : t.isAlias = false := by
  by_contra halias
  rw [isComposite_of_isAlias (by simpa using halias)] at h
  exact absurd h (by decide)

theorem isPointer_of_isComposite (h : t.isComposite = true) : t.isPointer = false := by
  by_contra hpointer
  rw [isComposite_of_isPointer (by simpa using hpointer)] at h
  exact absurd h (by decide)

end Tag

end DebugLayout
