import DebugLayout.Proofs.TypeGraph.SameEntries
import Mathlib.Data.List.Perm.Subperm

/-!
# DebugLayout — chains of entries

Some entries only stand for another one: a typedef or a qualified type for what it names, and a
declared composite for its definition. From every reference there is at most one **chain** of them,
and if it ends, it never meets an entry twice. What a pointer points to is found by taking typedefs
and qualifiers off, which goes down the same chain and stops short only of a definition.

A chain is given by the entries it passes, as a list, so that two chains from one reference can be
compared entry by entry. Taking names off keeps the references it has met, which is how it notices a
chain without end.

* `Store.standsFor?`: what an entry stands for;
* `Store.Leads`: the chain from a reference, through the entries passed, to the last entry;
* `Store.Leads.unique`, `Leads.nodup`: there is one chain, without repetition;
* `TypeGraph.exec_peel_of_leads`, `any_bare_iff`: taking typedefs and qualifiers off comes to a
  function exactly if the chain does.
-/

namespace DebugLayout

/-- The name that an entry has as a typedef. -/
def Entry.typedefName? (e : Entry) : Option String := if e.tag = Tag.typedef then e.name? else none

theorem Entry.typedefName?_of_isAlias {e : Entry} (h : e.tag.isAlias = false) :
    e.typedefName? = none := by
  refine if_neg fun htag => ?_
  rw [htag] at h
  exact absurd h (by decide)

namespace Store

/-- What an entry stands for: a typedef or a qualified type for the type it is made from, a declared
composite for the definition that completes it. -/
def standsFor? (store : Store) (e : Entry) : Option Int :=
  if e.tag.isAlias then e.typeRef?
  else if e.tag.isComposite then store.completion? e
  else none

/-- The chain from a reference to the first entry that stands for itself, with the entries that are
passed on the way. -/
inductive Leads (store : Store) : Int → List Entry → Entry → Prop
  | last {ref : Int} {e : Entry} (he : store.entry? ref = some e)
      (h : store.standsFor? e = none) : Leads store ref [] e
  | step {ref target : Int} {e last : Entry} {passed : List Entry}
      (he : store.entry? ref = some e) (h : store.standsFor? e = some target)
      (hrest : Leads store target passed last) : Leads store ref (e :: passed) last

variable {store : Store} {ref target : Int} {e last last' : Entry} {passed passed' : List Entry}

/-- An alias stands for the type that it names. -/
theorem standsFor?_of_isAlias (htag : e.tag.isAlias = true) : store.standsFor? e = e.typeRef? :=
  if_pos htag

/-- A composite stands for the definition that completes it, if there is one. -/
theorem standsFor?_of_isComposite (htag : e.tag.isComposite = true) :
    store.standsFor? e = store.completion? e := by
  rw [standsFor?, Tag.isAlias_of_isComposite htag, if_neg (by decide), if_pos htag]

/-- Entries of all other kinds stand for themselves. -/
theorem standsFor?_eq_none (halias : e.tag.isAlias = false)
    (hcomposite : e.tag.isComposite = false) : store.standsFor? e = none := by
  rw [standsFor?, halias, hcomposite, if_neg (by decide), if_neg (by decide)]

-- ---------------------------------------------------------------------------
-- There is one chain
-- ---------------------------------------------------------------------------

/-- The chain of a reference begins with its entry. -/
theorem Leads.exists_entry? (h : store.Leads ref passed last) : ∃ e, store.entry? ref = some e := by
  cases h with
  | last he => exact ⟨_, he⟩
  | step he => exact ⟨_, he⟩

/-- A chain that ends is the only one from its reference. -/
theorem Leads.unique (h : store.Leads ref passed last) (h' : store.Leads ref passed' last') :
    passed = passed' ∧ last = last' := by
  -- an entry either stands for another one or does not, so that both chains step or end together
  induction h generalizing passed' with
  | last he hend =>
    cases h' with
    | last he' => exact ⟨rfl, Option.some.inj (he.symm.trans he')⟩
    | step he' hstep =>
      obtain rfl := Option.some.inj (he.symm.trans he')
      rw [hend] at hstep
      exact absurd hstep (by simp)
  | step he hstep _ ih =>
    cases h' with
    | last he' hend =>
      obtain rfl := Option.some.inj (he.symm.trans he')
      rw [hend] at hstep
      exact absurd hstep (by simp)
    | step he' hstep' hrest' =>
      obtain rfl := Option.some.inj (he.symm.trans he')
      obtain rfl := Option.some.inj (hstep.symm.trans hstep')
      obtain ⟨rfl, rfl⟩ := ih hrest'
      exact ⟨rfl, rfl⟩

/-- The chain goes on from every entry that is passed, and gets no longer. -/
theorem Leads.of_mem (h : store.Leads ref passed last) (he : e ∈ passed) :
    ∃ rest, store.Leads e.ref rest last ∧ rest.length ≤ passed.length := by
  induction h with
  | last => exact absurd he (by simp)
  | step hfirst hstep hrest ih =>
    rcases List.mem_cons.1 he with rfl | he
    · exact ⟨_, .step (by rwa [entry?_ref hfirst]) hstep hrest, Nat.le_refl _⟩
    · obtain ⟨rest, hleads, hlength⟩ := ih he
      exact ⟨rest, hleads, Nat.le_succ_of_le hlength⟩

/-- A chain that ends does not pass an entry twice. -/
theorem Leads.nodup (h : store.Leads ref passed last) : (passed.map Entry.ref).Nodup := by
  induction h with
  | last => exact List.nodup_nil
  | @step ref target e last passed he hstep hrest ih =>
    refine List.nodup_cons.2 ⟨fun hmem => ?_, ih⟩
    -- the chain from the second time on would be the whole chain, and shorter
    obtain ⟨again, hagain, hsame⟩ := List.mem_map.1 hmem
    obtain ⟨rest, hleads, hlength⟩ := hrest.of_mem hagain
    have hwhole : store.Leads again.ref (e :: passed) last := by
      rw [hsame, entry?_ref he]
      exact .step he hstep hrest
    rw [(hleads.unique hwhole).1, List.length_cons] at hlength
    omega

/-- The entries that a chain passes are entries of the store. -/
theorem Leads.mem_refs (h : store.Leads ref passed last) (he : e ∈ passed) :
    e.ref ∈ store.entries.map (·.entry.ref) := by
  obtain ⟨rest, hleads, -⟩ := h.of_mem he
  obtain ⟨found, hfound⟩ := hleads.exists_entry?
  obtain ⟨p, hp, rfl⟩ := exists_placed hfound
  exact List.mem_map.2 ⟨p, hp, entry?_ref hfound⟩

/-- A chain that ends passes no more entries than there are. -/
theorem Leads.length_le (h : store.Leads ref passed last) : passed.length ≤ store.size := by
  have hsub : passed.map Entry.ref ⊆ store.entries.map (·.entry.ref) := by
    intro r hr
    obtain ⟨e, he, rfl⟩ := List.mem_map.1 hr
    exact h.mem_refs he
  have hlength := (List.subperm_of_subset h.nodup hsub).length_le
  rwa [List.length_map, List.length_map] at hlength

/-- The chain of a definition is the definition alone. -/
theorem Leads.of_completion? (hdistinct : store.Distinct) (h : store.Leads target passed last)
    (hcompletion : store.completion? e = some target) :
    passed = [] ∧ last.tag.isComposite = true := by
  unfold completion? at hcompletion
  split at hcompletion
  · obtain ⟨p, hp, rfl, htag, hcomplete, -⟩ := completes_of_definition? hcompletion
    have hentry : store.entry? p.entry.ref = some p.entry := entry?_of_mem hdistinct hp
    have hend : store.standsFor? p.entry = none := by
      rw [standsFor?_of_isComposite htag, completion?, hcomplete, if_neg (by decide)]
    obtain ⟨rfl, rfl⟩ := h.unique (.last hentry hend)
    exact ⟨rfl, htag⟩
  · exact absurd hcompletion (by simp)

end Store

namespace Tag

variable {t : Tag}

theorem isAlias_of_isPointer (h : t.isPointer = true) : t.isAlias = false := by
  simp only [isPointer, List.contains_iff_mem, List.mem_cons, List.not_mem_nil, or_false] at h
  rcases h with rfl | rfl | rfl <;> decide

/-- An entry of a kind to which functions do not belong is no function. -/
theorem ne_subroutineType {kind : Tag → Bool} (h : kind t = true)
    (hkind : kind subroutineType = false) : t ≠ subroutineType := by
  rintro rfl
  rw [hkind] at h
  exact absurd h (by decide)

end Tag

-- ---------------------------------------------------------------------------
-- Typedefs and qualifiers taken off
-- ---------------------------------------------------------------------------

namespace TypeGraph

open Build

variable {store : Store} {ref : Int} {e last : Entry} {passed : List Entry}

/-- Taking typedefs and qualifiers off goes down the chain of an entry, and comes to a function
exactly if the chain does. -/
theorem exec_peel_of_leads (hdistinct : store.Distinct) (h : store.Leads ref passed last)
    (he : store.entry? ref = some e) {steps : Nat} {visited : List Int}
    (hsteps : passed.length < steps) (hnew : ∀ p ∈ passed, p.ref ∉ visited) (s : BuildState) :
    ∃ bare, (peel store steps visited e).exec s = (.ok bare, s) ∧
      (bare.any (·.tag = Tag.subroutineType) = true ↔ last.tag = Tag.subroutineType) := by
  induction h generalizing e steps visited with
  | @last ref last hlast hend =>
    obtain rfl := Option.some.inj (hlast.symm.trans he)
    obtain ⟨steps, rfl⟩ : ∃ n, steps = n + 1 := ⟨steps - 1, by omega⟩
    unfold peel
    split
    · exact ⟨some last, rfl, by simp⟩
    · rename_i halias
      -- a typedef of nothing is no function, seen before or not
      have halias : last.tag.isAlias = true := by simpa using halias
      have hvoid : last.typeRef? = none := (Store.standsFor?_of_isAlias halias).symm.trans hend
      rw [hvoid]
      refine ⟨none, by split <;> rfl, ?_⟩
      exact iff_of_false (by simp) (Tag.ne_subroutineType halias rfl)
  | @step ref target first last passed hfirst hstep hrest ih =>
    obtain rfl := Option.some.inj (hfirst.symm.trans he)
    obtain ⟨steps, rfl⟩ : ∃ n, steps = n + 1 := ⟨steps - 1, by omega⟩
    have hnodup := (Store.Leads.step hfirst hstep hrest).nodup
    unfold peel
    split
    · rename_i halias
      -- a chain that goes on at no alias does so at a declared composite, which is no function
      have hcomposite : first.tag.isComposite = true := by
        by_contra hcomposite
        rw [Store.standsFor?_eq_none (by simpa using halias) (by simpa using hcomposite)] at hstep
        exact absurd hstep (by simp)
      rw [Store.standsFor?_of_isComposite hcomposite] at hstep
      have hlast := (hrest.of_completion? hdistinct hstep).2
      refine ⟨some first, rfl, iff_of_false ?_ (Tag.ne_subroutineType hlast rfl)⟩
      simpa using Tag.ne_subroutineType hcomposite rfl
    · rename_i halias
      rw [Store.standsFor?_of_isAlias (by simpa using halias)] at hstep
      have hunseen : ¬ visited.contains first.ref = true := fun hseen =>
        hnew first List.mem_cons_self (List.contains_iff_mem.1 hseen)
      obtain ⟨next, hnext⟩ := hrest.exists_entry?
      have hnew' : ∀ p ∈ passed, p.ref ∉ first.ref :: visited := by
        intro p hp hseen
        rcases List.mem_cons.1 hseen with hsame | hseen
        · exact (List.nodup_cons.1 hnodup).1 (hsame ▸ List.mem_map_of_mem hp)
        · exact hnew p (List.mem_cons_of_mem _ hp) hseen
      rw [if_neg hunseen, hstep]
      dsimp only
      rw [exec_bind, exec_entry, hnext]
      exact ih hnext (by simpa using hsteps) hnew'

/-- As many steps as the library takes are enough. -/
theorem any_bare_iff (hdistinct : store.Distinct) (h : store.Leads ref passed last)
    (he : store.entry? ref = some e) {s t : BuildState} {bare : Option Entry}
    (hexec : (peel store (store.size + 1) [] e).exec s = (.ok bare, t)) :
    bare.any (·.tag = Tag.subroutineType) = true ↔ last.tag = Tag.subroutineType := by
  obtain ⟨found, hfound, hiff⟩ := exec_peel_of_leads hdistinct h he
    (Nat.lt_succ_of_le h.length_le) (fun _ _ => List.not_mem_nil) s
  obtain rfl := Except.ok.inj (congrArg Prod.fst (hexec.symm.trans hfound))
  exact hiff

end TypeGraph

end DebugLayout
