import DebugLayout.Proofs.TypeGraph.Frame
import Mathlib.Combinatorics.Pigeonhole

/-!
# DebugLayout — trails of nested types

An entry other than a composite with members needs at most one type, so that the types that are
being built for one another, since the last composite, follow a single **walk** through the entries.
A walk that is longer than there are entries comes back to where it was. What ends such a round is
that aliases are kept track of: an alias of an alias that is being followed is not built. But an
array or an enumeration is not kept track of, and neither is an alias noticed of which no other
alias is an alias. A type that contains itself by such ways only is **endless**.

* `Store.Unchecked`, `Store.Endless`: the ways that nothing keeps track of, and the types that
  contain themselves by them;
* `Store.walk`: the walk from a type;
* `Store.Trail`: a walk the types of which are being built;
* `Store.Trail.extend`: another type on a trail;
* `Store.Short`: types to which no trail leads that is much longer than the store;
* `Store.short_of_not_endless`, `Ends.short`: all types are such without endless ones, and all those
  from which the walk comes to an end.
-/

namespace DebugLayout

open Relation (ReflTransGen TransGen)

/-- From where every way comes to an end none goes round. -/
theorem not_transGen_of_acc {α : Type} {r : α → α → Prop} {a : α} (h : Acc (fun b a => r a b) a) :
    ¬ TransGen r a a := by
  induction h with
  | intro a _ ih =>
    intro hround
    obtain ⟨b, hab, hba⟩ := TransGen.head'_iff.1 hround
    exact ih b hab (TransGen.tail' hba hab)

namespace Store

variable {store : Store} {ref next start : Int} {e : Entry} {steps : Nat}

-- ------------------------------------------------------------------------------------------------
-- Endless types
-- ------------------------------------------------------------------------------------------------

/-- Whether a reference is that of a typedef or a qualified type. -/
def IsAlias (store : Store) (ref : Int) : Prop :=
  ∃ e, store.entry? ref = some e ∧ e.tag.isAlias = true

/-- Whether a type is built for another one without anything that would notice a round: as the
elements of an array, as the underlying type of an enumeration, as what an alias stands for, unless
it is an alias itself, or as what a declared composite is completed by. The last way leads to a
composite with members, and thus never round, in every store in which references are not shared. -/
inductive Unchecked (store : Store) (ref : Int) : Int → Prop
  | element {e : Entry} {element : Int} (he : store.entry? ref = some e)
      (htag : e.tag = Tag.arrayType) (h : e.typeRef? = some element) : Unchecked store ref element
  | underlying {e : Entry} {type : Int} {enumerators : List (String × Int)}
      (he : store.entry? ref = some e) (htag : e.tag = Tag.enumerationType)
      (henumerators : TypeGraph.enumeratorsOf e.children = .ok enumerators)
      (h : e.typeRef? = some type) : Unchecked store ref type
  | target {e : Entry} {target : Int} (he : store.entry? ref = some e)
      (htag : e.tag.isAlias = true) (h : e.typeRef? = some target)
      (hplain : ¬ store.IsAlias target) : Unchecked store ref target
  | definition {e : Entry} {definition : Int} (he : store.entry? ref = some e)
      (htag : e.tag.isComposite = true) (h : store.completion? e = some definition) :
      Unchecked store ref definition

/-- Whether a type contains itself by ways that nothing keeps track of. -/
def Endless (store : Store) (ref : Int) : Prop := TransGen store.Unchecked ref ref

/-- What is built unchecked for an entry is the type that it needs, and not both are aliases. -/
theorem Unchecked.passage? (he : store.entry? ref = some e) (h : store.Unchecked ref next) :
    store.passage? e = some next ∧ ¬ (e.tag.isAlias = true ∧ store.IsAlias next) := by
  -- in each of the four ways the next type is what the entry turns to, and only the third starts at
  -- an alias
  cases h with
  | element he' htag htype =>
    obtain rfl := Option.some.inj (he.symm.trans he')
    refine ⟨(passage?_of_array htag).trans htype, fun h => ?_⟩
    rw [htag] at h
    exact absurd h.1 (by decide)
  | underlying he' htag henumerators htype =>
    obtain rfl := Option.some.inj (he.symm.trans he')
    refine ⟨(passage?_of_enum htag henumerators).trans htype, fun h => ?_⟩
    rw [htag] at h
    exact absurd h.1 (by decide)
  | target he' htag htype hplain =>
    obtain rfl := Option.some.inj (he.symm.trans he')
    exact ⟨(passage?_of_isAlias htag).trans htype, fun h => hplain h.2⟩
  | definition he' htag hdefinition =>
    obtain rfl := Option.some.inj (he.symm.trans he')
    refine ⟨(passage?_of_isComposite htag).trans hdefinition, fun h => ?_⟩
    rw [Tag.isAlias_of_isComposite htag] at h
    exact absurd h.1 (by decide)

/-- The type that an entry needs is built unchecked, unless both are aliases. -/
theorem unchecked_of_passage? (he : store.entry? ref = some e)
    (h : store.passage? e = some next) (haliases : ¬ (store.IsAlias ref ∧ store.IsAlias next)) :
    store.Unchecked ref next := by
  -- the kinds of entries in the order in which they are told apart
  unfold Store.passage? at h
  split at h
  · rename_i htag
    exact .target he htag h fun hplain => haliases ⟨⟨e, he, htag⟩, hplain⟩
  split at h
  · exact absurd h (by simp)
  split at h
  · exact .definition he ‹_› h
  split at h
  · split at h
    · exact .underlying he ‹_› ‹_› h
    · exact absurd h (by simp)
  · split at h
    · exact .element he ‹_› h
    · exact absurd h (by simp)

/-- What is built for another type without being noticed is built from the entry of a type. -/
theorem Unchecked.exists_entry? (h : store.Unchecked ref next) :
    ∃ e, store.entry? ref = some e ∧ e.tag.isType = true := by
  cases h with
  | element he htag => exact ⟨_, he, by rw [htag]; decide⟩
  | underlying he htag => exact ⟨_, he, by rw [htag]; decide⟩
  | target he htag => exact ⟨_, he, by rw [Tag.isType, htag]; rfl⟩
  | definition he htag => exact ⟨_, he, by simp [Tag.isType, htag]⟩

/-- The type that is built for an endless one is endless. -/
theorem Endless.step (h : store.Endless ref) :
    ∃ next, store.Unchecked ref next ∧ store.Endless next := by
  obtain ⟨next, hnext, hback⟩ := TransGen.head'_iff.1 h
  exact ⟨next, hnext, TransGen.tail' hback hnext⟩

-- ------------------------------------------------------------------------------------------------
-- Walks
-- ------------------------------------------------------------------------------------------------

/-- The type that is built for the one of a reference. -/
def onward? (store : Store) (ref : Int) : Option Int := (store.entry? ref).bind store.passage?

/-- The walk from a type on. Where nothing more is built it goes anywhere. -/
def walk (store : Store) (start : Int) : Nat → Int
  | 0 => start
  | steps + 1 => (store.onward? (walk store start steps)).getD start

/-- The walk takes one step more where one more type is built. -/
theorem walk_succ (h : store.onward? (store.walk start steps) = some next) :
    store.walk start (steps + 1) = next := by
  rw [walk, h]
  rfl

/-- Walks that meet stay together, as long as something is built. -/
theorem walk_add {i j : Nat} (h : store.walk start i = store.walk start j) (m : Nat)
    (hsome : ∀ k < m, (store.onward? (store.walk start (i + k))).isSome = true) :
    store.walk start (i + m) = store.walk start (j + m) := by
  induction m with
  | zero => exact h
  | succ m ih =>
    have hmeet := ih fun k hk => hsome k (by omega)
    obtain ⟨next, hnext⟩ := Option.isSome_iff_exists.1 (hsome m (by omega))
    rw [← Nat.add_assoc, ← Nat.add_assoc, walk_succ hnext, walk_succ (hmeet ▸ hnext)]

/-- A walk comes back to where it was as soon as it has more steps than there are entries. -/
theorem exists_repeat
    (hsome : ∀ i < store.size + 1, (store.onward? (store.walk start i)).isSome = true) :
    ∃ i j, i < j ∧ j < store.size + 1 ∧ store.walk start i = store.walk start j := by
  classical
  have hlisted : ∀ i ∈ Finset.range (store.size + 1),
      store.walk start i ∈ (store.entries.map (·.entry.ref)).toFinset := by
    intro i hi
    obtain ⟨next, hnext⟩ := Option.isSome_iff_exists.1 (hsome i (Finset.mem_range.1 hi))
    obtain ⟨e, he, -⟩ := Option.bind_eq_some_iff.1 hnext
    obtain ⟨p, hp, rfl⟩ := exists_placed he
    exact List.mem_toFinset.2 (List.mem_map.2 ⟨p, hp, entry?_ref he⟩)
  -- there are more steps than entries
  have hcard : (store.entries.map (·.entry.ref)).toFinset.card <
      (Finset.range (store.size + 1)).card := by
    have hlength := List.toFinset_card_le (store.entries.map (·.entry.ref))
    rw [List.length_map] at hlength
    rw [Finset.card_range]
    exact Nat.lt_succ_of_le hlength
  obtain ⟨i, hi, j, hj, hne, hmeet⟩ := Finset.exists_ne_map_eq_of_card_lt_of_maps_to hcard hlisted
  wlog hlt : i < j generalizing i j
  · exact this j hj i hi hne.symm hmeet.symm (by omega)
  exact ⟨i, j, hlt, Finset.mem_range.1 hj, hmeet⟩

-- ------------------------------------------------------------------------------------------------
-- Trails
-- ------------------------------------------------------------------------------------------------

/-- A walk all types of which, but for the last one, are being built for the next one: the aliases
among them are being followed, and none of them stands for an alias that was being followed then. -/
structure Trail (store : Store) (following : List Int) (start : Int) (steps : Nat) : Prop where
  onward : ∀ i < steps, (store.onward? (store.walk start i)).isSome = true
  followed : ∀ i < steps, store.IsAlias (store.walk start i) → store.walk start i ∈ following
  uncut : ∀ i j, i ≤ j → j < steps → store.IsAlias (store.walk start i) →
    store.IsAlias (store.walk start j) → store.walk start (j + 1) ≠ store.walk start i

theorem trail_zero (store : Store) (following : List Int) (start : Int) :
    store.Trail following start 0 where
  onward _ h := absurd h (by omega)
  followed _ h := absurd h (by omega)
  uncut _ _ _ h := absurd h (by omega)

/-- The type that an entry needs comes next on its trail, if the entry turns to it. -/
theorem Trail.extend {s : BuildState} (h : store.Trail s.following start steps)
    (he : store.entry? (store.walk start steps) = some e) (hpassage : store.passage? e = some next)
    (huncut : ¬ TypeGraph.IsCut e s next) :
    store.walk start (steps + 1) = next ∧
      store.Trail (s.begun e).following start (steps + 1) := by
  have honward : store.onward? (store.walk start steps) = some next := by
    rw [onward?, he]
    exact hpassage
  have hnext := walk_succ honward
  have href := entry?_ref he
  have halias : store.IsAlias (store.walk start steps) → e.tag.isAlias = true := by
    rintro ⟨e', he', htag⟩
    obtain rfl := Option.some.inj (he.symm.trans he')
    exact htag
  -- what was being followed still is
  have hkept : ∀ other ∈ s.following, other ∈ (s.begun e).following := by
    intro other hother
    unfold BuildState.begun
    split
    · exact List.mem_insert_of_mem hother
    · exact hother
  refine ⟨hnext, ?_, ?_, ?_⟩
  · intro i hi
    rcases Nat.lt_succ_iff_lt_or_eq.1 hi with hi | rfl
    · exact h.onward i hi
    · rw [honward]
      rfl
  · intro i hi halias'
    rcases Nat.lt_succ_iff_lt_or_eq.1 hi with hi | rfl
    · exact hkept _ (h.followed i hi halias')
    · rw [BuildState.begun, if_pos (halias halias'), ← href]
      exact List.mem_insert_self
  · intro i j hij hj hi' hj'
    rcases Nat.lt_succ_iff_lt_or_eq.1 hj with hj | rfl
    · exact h.uncut i j hij hj hi' hj'
    · rw [hnext]
      rintro rfl
      -- otherwise the new step would lead back to an alias that is being followed
      refine huncut ⟨halias hj', ?_⟩
      rcases Nat.lt_or_eq_of_le hij with hlt | rfl
      · exact .inl (h.followed i hlt hi')
      · exact .inr href.symm

/-- A round of a trail that is gone twice has no alias of an alias, and is thus endless. -/
theorem Trail.endless {following : List Int} {i j : Nat} (h : store.Trail following start steps)
    (hlt : i < j) (hlong : j + (j - i) ≤ steps) (hmeet : store.walk start i = store.walk start j) :
    store.Endless (store.walk start i) := by
  -- from where the walk meets itself it repeats its steps
  have hagain : ∀ q, q ≤ j - i → store.walk start (i + q) = store.walk start (j + q) :=
    fun q hq => walk_add hmeet q fun k hk => h.onward _ (by omega)
  have hstep : ∀ q < j - i,
      store.Unchecked (store.walk start (i + q)) (store.walk start (i + q + 1)) := by
    intro q hq
    obtain ⟨next, hnext⟩ := Option.isSome_iff_exists.1 (h.onward (i + q) (by omega))
    obtain ⟨e, he, hpassage⟩ := Option.bind_eq_some_iff.1 hnext
    rw [walk_succ hnext]
    refine unchecked_of_passage? he hpassage ?_
    -- the second time around the alias would stand for one that is being followed
    rintro ⟨hfirst, hsecond⟩
    rw [← walk_succ hnext] at hsecond
    have hlast : store.IsAlias (store.walk start (j + q)) := hagain q (by omega) ▸ hfirst
    refine h.uncut (i + q + 1) (j + q) (by omega) (by omega) hsecond hlast ?_
    exact (hagain (q + 1) (by omega)).symm
  have hround : ∀ q < j - i,
      TransGen store.Unchecked (store.walk start i) (store.walk start (i + q + 1)) := by
    intro q
    induction q with
    | zero => exact fun hq => .single (hstep 0 hq)
    | succ q ih => exact fun hq => (ih (by omega)).tail (hstep (q + 1) hq)
  -- the steps of one round lead from the type back to itself
  have hback := hround (j - i - 1) (by omega)
  have hend : i + (j - i - 1) + 1 = j := by omega
  rw [hend, ← hmeet] at hback
  exact hback

/-- Whether a trail that leads to a type has at most two steps for each entry. -/
def Short (store : Store) (ref : Int) : Prop :=
  ∀ following start steps, store.Trail following start steps → store.walk start steps = ref →
    steps ≤ 2 * store.size

/-- Without endless types, all trails are short. -/
theorem short_of_not_endless (hfinite : ∀ ref, ¬ store.Endless ref) (ref : Int) :
    store.Short ref := by
  rintro following start steps htrail -
  by_contra hlong
  obtain ⟨i, j, hlt, hj, hmeet⟩ := exists_repeat fun i hi => htrail.onward i (by omega)
  exact hfinite _ (htrail.endless hlt (by omega) hmeet)

/-- Whether one type is built for another one next. -/
def Precedes (store : Store) (ref next : Int) : Prop := store.onward? ref = some next

/-- Whether the walk from a type comes to an end. -/
def Ends (store : Store) (ref : Int) : Prop := Acc (fun next ref => store.Precedes ref next) ref

/-- A type comes to an end if what is built for it does. -/
theorem Ends.of_precedes (h : store.Ends next) (hstep : store.Precedes ref next) :
    store.Ends ref := by
  refine .intro ref fun other hother => ?_
  obtain rfl := Option.some.inj (hstep.symm.trans hother)
  exact h

/-- A type comes to an end if anything on the way down from it does. -/
theorem Ends.of_reaches (h : store.Ends next) (hreach : ReflTransGen store.Precedes ref next) :
    store.Ends ref := by
  induction hreach using ReflTransGen.head_induction_on with
  | refl => exact h
  | head hstep _ ih => exact ih.of_precedes hstep

/-- Each step of a trail leads from a type to one that is built for it. -/
theorem Trail.precedes {following : List Int} {i : Nat} (h : store.Trail following start steps)
    (hi : i < steps) : store.Precedes (store.walk start i) (store.walk start (i + 1)) := by
  obtain ⟨next, hnext⟩ := Option.isSome_iff_exists.1 (h.onward i hi)
  rw [walk_succ hnext]
  exact hnext

/-- A trail leads from each of its types to all later ones. -/
theorem Trail.reaches {following : List Int} {i j : Nat} (h : store.Trail following start steps)
    (hij : i ≤ j) (hj : j ≤ steps) :
    ReflTransGen store.Precedes (store.walk start i) (store.walk start j) := by
  induction j, hij using Nat.le_induction with
  | base => exact .refl
  | succ j _ ih => exact (ih (by omega)).tail (h.precedes (by omega))

/-- To a type from which the walk comes to an end only short trails lead. -/
theorem Ends.short (h : store.Ends ref) : store.Short ref := by
  rintro following start steps htrail rfl
  by_contra hlong
  obtain ⟨i, j, hlt, hj, hmeet⟩ := exists_repeat fun i hi => htrail.onward i (by omega)
  have hround : TransGen store.Precedes (store.walk start i) (store.walk start j) :=
    TransGen.head' (htrail.precedes (by omega)) (htrail.reaches hlt (by omega))
  rw [← hmeet] at hround
  exact not_transGen_of_acc (h.of_reaches (htrail.reaches (by omega) (Nat.le_refl steps))) hround

end Store

end DebugLayout
