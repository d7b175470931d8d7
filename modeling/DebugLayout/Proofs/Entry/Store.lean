import DebugLayout.Entry.Store
import DebugLayout.Proofs.Outcome
import Mathlib.Data.List.Nodup

/-!
# DebugLayout — what a store lists

A store is made of trees that are added one after the other, some of which may be stopped by a
reference that is taken. What it lists is known from the trees alone: of each tree its **listing**
in document order, **cut** just before the first entry whose reference is taken, be it by an entry
of an earlier tree or by one further ahead in the same tree. The index has the same entries, each
under its reference.

The walk with a stack is tied to listings by one invariant: what is still to be added is the listing
of the entry on top, then that of the entry under it, and so on down the stack. Taking an entry off
and putting those inside it on changes nothing about that but for the entry itself
(`Placed.listed_eq`).

* `Entry.listed`: a tree in document order;
* `Cut`: a listing up to the first reference that is taken, `Cut.unique`: there is just one such;
* `Store.mem_of_resolve?`, `exists_resolve?`, `resolve?_eq_some_iff`: where references lead;
* `Store.exists_cut_addPending`, `exists_cut_addRoot`: what a stack and a tree add to a store;
* `Store.nodup_addRoot`, `addRoot_eq`: references stay distinct, and new ones are all added;
* `Store.addRoots`, `entries_addRoots`: what some trees lead to.
-/

namespace DebugLayout

-- ---------------------------------------------------------------------------
-- Document order
-- ---------------------------------------------------------------------------

namespace Entry

mutual

/-- An entry and the entries inside it, in document order. -/
def listed (ancestors : List Entry) : Entry → List Placed
  | node ref tag attributes children =>
    ⟨node ref tag attributes children, ancestors⟩ ::
      listedAll (node ref tag attributes children :: ancestors) children

/-- Some entries, each with the entries inside it. -/
def listedAll (ancestors : List Entry) : List Entry → List Placed
  | [] => []
  | e :: es => listed ancestors e ++ listedAll ancestors es

end

theorem listed_eq (ancestors : List Entry) (e : Entry) :
    e.listed ancestors = ⟨e, ancestors⟩ :: listedAll (e :: ancestors) e.children := by
  obtain ⟨ref, tag, attributes, children⟩ := e
  rw [listed]
  rfl

end Entry

namespace Placed

/-- An entry and the entries inside it, in document order. -/
def listed (p : Placed) : List Placed := p.entry.listed p.ancestors

/-- An entry comes before the entries inside it. -/
theorem listed_eq (p : Placed) : p.listed = p :: p.inside.flatMap listed := by
  have hall : ∀ es : List Entry, Entry.listedAll (p.entry :: p.ancestors) es =
      (es.map fun e => (⟨e, p.entry :: p.ancestors⟩ : Placed)).flatMap listed := by
    intro es
    induction es with
    | nil => rw [Entry.listedAll]; rfl
    | cons e es ih => rw [Entry.listedAll, List.map_cons, List.flatMap_cons, ← ih]; rfl
  rw [listed, Entry.listed_eq, hall]
  rfl

end Placed

-- ---------------------------------------------------------------------------
-- Cut listings
-- ---------------------------------------------------------------------------

/-- The references of some entries. -/
abbrev refs (ps : List Placed) : List Int := ps.map (·.entry.ref)

/-- Whether a listing is cut just before the first entry whose reference is taken, by one of the
entries that are known or by one further ahead in the listing. It is kept as a whole if there is no
such entry. -/
structure Cut (known listing kept rest : List Placed) : Prop where
  split : listing = kept ++ rest
  distinct : (refs kept).Nodup
  fresh : ∀ p ∈ kept, p.entry.ref ∉ refs known
  taken : ∀ p ∈ rest.head?, p.entry.ref ∈ refs (known ++ kept)

namespace Cut

variable {known listing kept rest : List Placed} {p : Placed}

theorem nil (known : List Placed) : Cut known [] [] [] where
  split := rfl
  distinct := List.nodup_nil
  fresh := by simp
  taken := by simp

/-- A listing is cut before the first entry whose reference is taken. -/
theorem stop (h : p.entry.ref ∈ refs known) : Cut known (p :: listing) [] (p :: listing) where
  split := rfl
  distinct := List.nodup_nil
  fresh := by simp
  taken := by simpa using h

/-- An entry with a free reference is kept, and is known to the rest. -/
theorem keep (hfree : p.entry.ref ∉ refs known) (h : Cut (known ++ [p]) listing kept rest) :
    Cut known (p :: listing) (p :: kept) rest where
  split := by rw [h.split, List.cons_append]
  distinct := by
    -- the kept entry is known to those after it
    refine List.nodup_cons.2 ⟨fun hmem => ?_, h.distinct⟩
    obtain ⟨q, hq, href⟩ := List.mem_map.1 hmem
    exact h.fresh q hq (List.mem_map.2 ⟨p, by simp, href.symm⟩)
  fresh := by
    refine List.forall_mem_cons.2 ⟨hfree, fun q hq hmem => h.fresh q hq ?_⟩
    rw [refs, List.map_append]
    exact List.mem_append_left _ hmem
  taken := by
    rw [List.append_cons]
    exact h.taken

/-- Nothing that is kept comes after the first entry that is cut off. -/
theorem eq_nil_of_append {more kept' rest' : List Placed} (h : Cut known listing kept rest)
    (h' : Cut known listing kept' rest') (hkept : kept' = kept ++ more) : more = [] := by
  have hrest : rest = more ++ rest' := by
    rw [← List.append_cancel_left_eq kept, ← h.split, h'.split, hkept, List.append_assoc]
  cases more with
  | nil => rfl
  | cons p more =>
    -- what one cut leaves off first is taken, and the other cut cannot keep it
    subst hkept hrest
    have htaken := h.taken p rfl
    have hdistinct := h'.distinct
    rw [refs, List.map_append] at htaken hdistinct
    rcases List.mem_append.1 htaken with hmem | hmem
    · exact absurd hmem (h'.fresh p (by simp))
    · exact absurd (List.mem_map_of_mem List.mem_cons_self)
        (List.disjoint_of_nodup_append hdistinct hmem)

/-- A listing is cut at one place. -/
theorem unique {kept' rest' : List Placed} (h : Cut known listing kept rest)
    (h' : Cut known listing kept' rest') : kept = kept' ∧ rest = rest' := by
  have hkept : kept = kept' := by
    rcases List.append_eq_append_iff.1 (h.split.symm.trans h'.split) with
      ⟨more, hkept, -⟩ | ⟨more, hkept, -⟩
    · rw [hkept, h.eq_nil_of_append h' hkept, List.append_nil]
    · rw [hkept, h'.eq_nil_of_append h hkept, List.append_nil]
  subst hkept
  exact ⟨rfl, List.append_cancel_left (h.split.symm.trans h'.split)⟩

/-- What is kept has references of its own among distinct ones. -/
theorem nodup_append (h : Cut known listing kept rest) (hknown : (refs known).Nodup) :
    (refs (known ++ kept)).Nodup := by
  rw [refs, List.map_append]
  refine List.Nodup.append hknown h.distinct fun ref hbefore hkept => ?_
  obtain ⟨p, hp, rfl⟩ := List.mem_map.1 hkept
  exact h.fresh p hp hbefore

/-- A listing with new and distinct references is kept as a whole. -/
theorem whole (h : (refs (known ++ listing)).Nodup) : Cut known listing listing [] where
  split := (List.append_nil _).symm
  distinct := by
    rw [refs, List.map_append] at h
    exact h.of_append_right
  fresh p hp hmem := by
    rw [refs, List.map_append] at h
    exact List.disjoint_of_nodup_append h hmem (List.mem_map_of_mem hp)
  taken := by simp

end Cut

/-- The fault of a cut listing, if anything is cut off: the reference that is taken. -/
def cutFault (rest : List Placed) : Option StoreFault :=
  rest.head?.map fun p => .duplicate p.entry.ref

-- ---------------------------------------------------------------------------
-- References
-- ---------------------------------------------------------------------------

namespace Store

variable {s t : Store} {p : Placed} {ref : Int}

/-- A reference leads to an entry that has it. -/
theorem mem_of_resolve? (h : s.resolve? ref = some p) : p ∈ s.entries ∧ p.entry.ref = ref := by
  rw [resolve?_eq] at h
  exact ⟨List.mem_of_find?_eq_some h, by simpa using List.find?_some h⟩

/-- The reference of an entry leads to one, which may be an earlier entry. -/
theorem exists_resolve? (hp : p ∈ s.entries) : ∃ q, s.resolve? p.entry.ref = some q := by
  rw [resolve?_eq]
  exact Option.isSome_iff_exists.1 (List.find?_isSome.2 ⟨p, hp, by simp⟩)

/-- If references are distinct, one leads exactly to the entry that has it. -/
theorem resolve?_eq_some_iff (h : (refs s.entries).Nodup) :
    s.resolve? ref = some p ↔ p ∈ s.entries ∧ p.entry.ref = ref := by
  refine ⟨mem_of_resolve?, ?_⟩
  rintro ⟨hp, rfl⟩
  obtain ⟨q, hq⟩ := exists_resolve? hp
  obtain ⟨hmem, href⟩ := mem_of_resolve? hq
  rw [hq, List.inj_on_of_nodup_map h hmem hp href]

-- ---------------------------------------------------------------------------
-- Adding trees
-- ---------------------------------------------------------------------------

/-- Whether a store has some more entries than another one, listed last and indexed. -/
structure Extends (s t : Store) (more : List Placed) : Prop where
  entries : t.entries = s.entries ++ more
  index : t.index.entries = s.index.entries ++ more.map fun p => (p.entry.ref, p)

theorem Extends.refl (s : Store) : s.Extends s [] where
  entries := (List.append_nil _).symm
  index := (List.append_nil _).symm

/-- A store that is extended twice is extended by both parts in a row. -/
theorem Extends.trans {u : Store} {more further : List Placed} (h : s.Extends t more)
    (h' : t.Extends u further) : s.Extends u (more ++ further) where
  entries := by rw [h'.entries, h.entries, List.append_assoc]
  index := by rw [h'.index, h.index, List.append_assoc, List.map_append]

/-- The index knows the references of the entries, as long as the store is kept in step. -/
theorem contains_index_iff :
    s.index.contains p.entry.ref = true ↔ p.entry.ref ∈ refs s.entries := by
  rw [OrderedMap.contains, s.indexed, findRef, List.find?_isSome, List.mem_map]
  simp

/-- An entry is added exactly if its reference is not taken. -/
theorem addEntry_cases (s : Store) (p : Placed) :
    (p.entry.ref ∈ refs s.entries ∧ s.addEntry p = .error (.duplicate p.entry.ref)) ∨
      (p.entry.ref ∉ refs s.entries ∧
        ∃ t, s.addEntry p = .ok t ∧ s.Extends t [p] ∧ t.roots = s.roots) := by
  by_cases h : s.index.contains p.entry.ref = true
  · exact .inl ⟨contains_index_iff.1 h, by rw [addEntry, dif_pos h]⟩
  · refine .inr ⟨fun hmem => h (contains_index_iff.2 hmem), _, dif_neg h, ⟨rfl, ?_⟩, rfl⟩
    exact OrderedMap.insertIn_of_not_mem fun hmem => h (OrderedMap.contains_iff.2 hmem)

/-- The entries on a stack are added in the order of their listings, up to the first reference that
is taken. -/
theorem exists_cut_addPending (s : Store) (stack : List Placed) :
    ∃ kept rest, Cut s.entries (stack.flatMap Placed.listed) kept rest ∧
      s.Extends (s.addPending stack).1 kept ∧ (s.addPending stack).1.roots = s.roots ∧
      (s.addPending stack).2 = cutFault rest := by
  induction s, stack using addPending.induct with
  | case1 s =>
    rw [addPending]
    exact ⟨[], [], .nil _, .refl s, rfl, rfl⟩
  | case2 s p stack t hadd ih =>
    rcases addEntry_cases s p with ⟨-, hfault⟩ | ⟨hfree, u, hu, hextends, hroots⟩
    · exact absurd (hadd.symm.trans hfault) (by simp)
    · obtain rfl := eq_of_ok hu hadd
      obtain ⟨kept, rest, hcut, hmore, hmoreRoots, hfault⟩ := ih
      -- the entries inside the one that was on top are next, before what was under it
      rw [List.flatMap_append, hextends.entries] at hcut
      rw [addPending, hadd, List.flatMap_cons, Placed.listed_eq, List.cons_append]
      exact ⟨p :: kept, rest, hcut.keep hfree, hextends.trans hmore, hmoreRoots.trans hroots,
        hfault⟩
  | case3 s p stack fault hadd =>
    rcases addEntry_cases s p with ⟨htaken, hfault⟩ | ⟨-, t, ht, -⟩
    · obtain rfl := Except.error.inj (hadd.symm.trans hfault)
      rw [addPending, hadd, List.flatMap_cons, Placed.listed_eq, List.cons_append]
      exact ⟨[], _, .stop htaken, .refl s, rfl, rfl⟩
    · exact absurd (hadd.symm.trans ht) (by simp)

/-- A tree is added in document order, up to the first reference that is taken. -/
theorem exists_cut_addRoot (s : Store) (root : Entry) :
    ∃ kept rest, Cut s.entries (root.listed []) kept rest ∧ s.Extends (s.addRoot root).1 kept ∧
      (s.addRoot root).1.roots = s.roots ++ [root] ∧ (s.addRoot root).2 = cutFault rest := by
  obtain ⟨kept, rest, hcut, hextends, hroots, hfault⟩ :=
    exists_cut_addPending { s with roots := s.roots ++ [root] } [⟨root, []⟩]
  rw [List.flatMap_singleton] at hcut
  exact ⟨kept, rest, hcut, ⟨hextends.entries, hextends.index⟩, hroots, hfault⟩

/-- References stay distinct, even if a tree is not added to its end. -/
theorem nodup_addRoot (h : (refs s.entries).Nodup) (root : Entry) :
    (refs (s.addRoot root).1.entries).Nodup := by
  obtain ⟨kept, rest, hcut, hextends, -⟩ := exists_cut_addRoot s root
  rw [hextends.entries]
  exact hcut.nodup_append h

/-- A tree with new references is added as a whole. -/
theorem addRoot_eq {root : Entry} (hnodup : (refs (s.entries ++ root.listed [])).Nodup) :
    ∃ t, s.addRoot root = (t, none) ∧ t.entries = s.entries ++ root.listed [] := by
  obtain ⟨kept, rest, hcut, hextends, -, hfault⟩ := exists_cut_addRoot s root
  obtain ⟨rfl, rfl⟩ := hcut.unique (.whole hnodup)
  exact ⟨(s.addRoot root).1, Prod.ext rfl hfault, hextends.entries⟩

-- ---------------------------------------------------------------------------
-- Some trees
-- ---------------------------------------------------------------------------

/-- What some trees lead to, each added as far as it goes. -/
def addRoots (s : Store) (roots : List Entry) : Store :=
  roots.foldl (fun s root => (s.addRoot root).1) s

/-- After some trees a store lists what it listed before and a part of each tree, which is cut by
the parts of the trees before it. -/
theorem exists_parts_addRoots (s : Store) (roots : List Entry) :
    ∃ parts : List (List Placed), parts.length = roots.length ∧
      s.Extends (s.addRoots roots) parts.flatten ∧ (s.addRoots roots).roots = s.roots ++ roots ∧
      ∀ (i : Nat) (root : Entry) (part : List Placed),
        roots[i]? = some root → parts[i]? = some part →
        ∃ rest, Cut (s.entries ++ (parts.take i).flatten) (root.listed []) part rest ∧
          ((s.addRoots (roots.take i)).addRoot root).2 = cutFault rest := by
  induction roots generalizing s with
  | nil => exact ⟨[], rfl, .refl s, (List.append_nil _).symm, by simp⟩
  | cons first roots ih =>
    obtain ⟨kept, rest, hcut, hextends, hroots, hfault⟩ := exists_cut_addRoot s first
    obtain ⟨parts, hlength, hmore, hmoreRoots, hparts⟩ := ih (s.addRoot first).1
    refine ⟨kept :: parts, by simp [hlength], hextends.trans hmore, ?_, ?_⟩
    · rw [addRoots, List.foldl_cons, ← addRoots, hmoreRoots, hroots, List.append_assoc]
      rfl
    · intro i root part hroot hpart
      cases i with
      | zero =>
        obtain rfl := Option.some.inj hroot
        obtain rfl := Option.some.inj hpart
        refine ⟨rest, ?_, hfault⟩
        simpa using hcut
      | succ i =>
        -- the later trees meet what the first one has left in the store
        obtain ⟨rest', hcut', hfault'⟩ := hparts i root part hroot hpart
        refine ⟨rest', ?_, hfault'⟩
        rwa [List.take_succ_cons, List.flatten_cons, ← List.append_assoc, ← hextends.entries]

/-- No reference is listed twice, whatever the trees that are added. -/
theorem nodup_addRoots (h : (refs s.entries).Nodup) (roots : List Entry) :
    (refs (s.addRoots roots).entries).Nodup := by
  induction roots generalizing s with
  | nil => exact h
  | cons root roots ih => exact ih (nodup_addRoot h root)

/-- After some trees, references are distinct and lead to the entries that have them, as many as are
indexed. What is listed is, tree by tree, the tree in document order, cut just before the first
entry whose reference is taken; the fault of a tree names that reference. -/
theorem entries_addRoots (roots : List Entry) :
    (refs (empty.addRoots roots).entries).Nodup ∧
    (∀ ref p, (empty.addRoots roots).resolve? ref = some p ↔
      p ∈ (empty.addRoots roots).entries ∧ p.entry.ref = ref) ∧
    (empty.addRoots roots).size = (empty.addRoots roots).index.size ∧
    (empty.addRoots roots).roots = roots ∧
    ∃ parts : List (List Placed), parts.length = roots.length ∧
      (empty.addRoots roots).entries = parts.flatten ∧
      ∀ (i : Nat) (root : Entry) (part : List Placed),
        roots[i]? = some root → parts[i]? = some part →
        ∃ rest, Cut (parts.take i).flatten (root.listed []) part rest ∧
          ((empty.addRoots (roots.take i)).addRoot root).2 = cutFault rest := by
  have hempty : (refs empty.entries).Nodup := List.nodup_nil
  have hnodup := nodup_addRoots hempty roots
  obtain ⟨parts, hlength, hextends, hroots, hparts⟩ := exists_parts_addRoots empty roots
  refine ⟨hnodup, fun ref p => resolve?_eq_some_iff hnodup, ?_, hroots, parts, hlength,
    hextends.entries, hparts⟩
  rw [size, OrderedMap.size, hextends.entries, hextends.index, List.length_append,
    List.length_append, List.length_map]
  rfl

/-- Three trees: the second has a reference of the first one, with an entry inside it and one behind
it, and the third has its own reference again. -/
def overlappingTrees : List Entry :=
  [entry 1 Tag.compileUnit
      [entry 2 Tag.structureType [entry 3 Tag.member []], entry 4 Tag.variable_ []],
    entry 5 Tag.compileUnit
      [entry 6 Tag.structureType [entry 3 Tag.typedef [entry 7 Tag.member []]],
        entry 9 Tag.variable_ []],
    entry 8 Tag.compileUnit [entry 8 Tag.variable_ []]]
where
  entry (ref : Int) (tag : Tag) (children : List Entry) : Entry :=
    .node ref tag (.ofList []) children

/-- The second of two trees is cut where it takes up a reference of the first one. -/
theorem entries_addRoots_overlapping :
    refs (empty.addRoots overlappingTrees).entries = [1, 2, 3, 4, 5, 6, 8] ∧
    (∃ p, (empty.addRoots overlappingTrees).resolve? 3 = some p ∧ p.entry.tag = Tag.member) ∧
    (empty.addRoots overlappingTrees).resolve? 7 = none ∧
    ∃ parts : List (List Placed), (empty.addRoots overlappingTrees).entries = parts.flatten ∧
      ∃ second part rest, overlappingTrees[1]? = some second ∧ parts[1]? = some part ∧
        Cut (parts.take 1).flatten (second.listed []) part rest ∧
        cutFault rest = some (.duplicate 3) := by
  obtain ⟨-, hresolve, -, -, parts, hlength, hentries, hparts⟩ := entries_addRoots overlappingTrees
  refine ⟨by decide, ⟨_, (hresolve 3 _).2 ⟨List.mem_of_getElem? (i := 2) rfl, rfl⟩, rfl⟩, ?_, parts,
    hentries, ?_⟩
  · have hnone : ∀ p ∈ (empty.addRoots overlappingTrees).entries, p.entry.ref ≠ 7 := by decide
    refine Option.eq_none_iff_forall_ne_some.2 fun p hp => ?_
    obtain ⟨hmem, href⟩ := (hresolve 7 p).1 hp
    exact hnone p hmem href
  · have hsecond : 1 < parts.length := by rw [hlength]; decide
    obtain ⟨rest, hcut, hfault⟩ :=
      hparts 1 _ _ rfl (List.getElem?_eq_getElem hsecond)
    exact ⟨_, _, rest, rfl, List.getElem?_eq_getElem hsecond, hcut, hfault.symm⟩

end Store

end DebugLayout
