import DebugLayout.Proofs.TypeGraph.Build

/-!
# DebugLayout — graphs that were built

Whatever the entries of a store are, the graph that is built from them is **regular**: it holds no
placeholders, no reference means two things, and no way down aliases and elements goes round, so
that every walk through the graph has an end.

Types are left out with all that contain them, and why is recorded, with one exception. A composite
that contains itself is there as a placeholder while its members are built. What is built on the
placeholder stays when the composite is given up, and what cannot do with a placeholder is given up
without a record. Nothing else is ever lost.

* `TypeGraph.Regular`, `TypeGraph.Walkable`: regular graphs, and what they are good for;
* `TypeGraph.regular_build`: every graph that was built is regular;
* `TypeGraph.resolves_iff_not_lost`: which references by value can be resolved;
* `TypeGraph.recorded_iff_not_unlisted`: which types are left out on the record.
-/

namespace DebugLayout

open Relation (ReflTransGen TransGen)

namespace TypeGraph

variable {g : TypeGraph} {store : Store} {target : Target} {ref part : Int}

-- ---------------------------------------------------------------------------
-- Regular graphs
-- ---------------------------------------------------------------------------

/-- Whether every type of a graph has been read, every reference means one thing, and no way down
aliases and elements goes round. -/
structure Regular (g : TypeGraph) : Prop where
  complete : ∀ ref, g.hasPlaceholder ref = false
  ownRef : ∀ ref node, g.nodes.get? ref = some node → node.ref = ref
  apart : ∀ ref, g.isAlias ref = true → g.nodes.contains ref = false
  acyclic : ∀ ref, ¬ TransGen g.Inside ref ref

/-- Whether every walk through a graph comes to its end: aliases lead to a reference that is none,
and sizes, strides and folded arrays are found. -/
structure Walkable (g : TypeGraph) : Prop where
  canonical : ∀ ref, ∃ canonical, g.canonicalRef ref = .ok canonical ∧ g.isAlias canonical = false
  size : ∀ ref, g.SizeOf ref (g.byteSize ref)
  stride : ∀ element, g.SizeOf element (g.arrayStride element none)
  folding : ∀ dims element stride, g.Folds dims element stride (g.foldAll dims element stride)

/-- Every walk through a graph ends if each step down comes closer. -/
theorem Ranked.walkable (hranked : g.Ranked) : g.Walkable where
  canonical ref := by
    obtain ⟨canonical, hcanonical⟩ := hranked.exists_canonicalRef ref
    obtain ⟨-, hend⟩ := canonicalRef_eq_ok hcanonical
    refine ⟨canonical, hcanonical, ?_⟩
    rw [isAlias, OrderedMap.contains, hend, Option.isSome_none]
  size := hranked.sizeOf_byteSize
  stride := hranked.sizeOf_byteSize
  folding := hranked.folds_foldAll

/-- A coherent graph in which nothing is being built is regular. -/
theorem Coherent.regular (hg : g.Coherent store) (hcomplete : ∀ ref, g.hasPlaceholder ref = false) :
    g.Regular where
  complete := hcomplete
  ownRef := hg.ownRef
  apart ref halias := by
    obtain ⟨target, htarget⟩ := Option.isSome_iff_exists.1 halias
    rw [OrderedMap.contains, hg.apart ref target htarget, Option.isSome_none]
  acyclic := hg.ranked.acyclic

/-- Every graph that was built is regular, and every walk through it has an end. -/
theorem regular_build (target : Target) (store : Store) :
    (build target store).Regular ∧ (build target store).Walkable := by
  have hidle : Idle store (finalState target store) := idle_finalState target store
  rw [build_eq]
  exact ⟨hidle.coherent.graph.regular hidle.complete, hidle.coherent.graph.ranked.walkable⟩

-- ---------------------------------------------------------------------------
-- References that cannot be resolved
-- ---------------------------------------------------------------------------

/-- Whether a reference leads to a composite that contains itself and was left out. -/
def Lost (g : TypeGraph) (store : Store) (ref : Int) : Prop :=
  ∃ composite, g.canonicalRef ref = .ok composite ∧ g.has composite = false ∧
    store.SelfContaining composite

/-- What a coherent graph without placeholders refers to can be resolved, unless it is lost. -/
theorem Coherent.resolves_or_lost (hg : g.Coherent store)
    (hcomplete : ∀ ref, g.hasPlaceholder ref = false) (h : g.Refers ref part) :
    (∃ node, g.resolve part = .ok node) ∨ g.Lost store part := by
  cases hget : g.get part with
  | error fault => exact .inr ⟨fault.ref, hg.get_eq_error (hg.grounded ref part h) hget⟩
  | ok node =>
    obtain ⟨canonical, -, hnode⟩ := get_eq_ok hget
    refine .inl ⟨node, resolve_eq_ok.2 ⟨hget, ?_⟩⟩
    by_contra hplaceholder
    have hcanonical : g.hasPlaceholder canonical = true :=
      hasPlaceholder_iff.2 ⟨node, hnode, by simpa using hplaceholder⟩
    rw [hcomplete canonical] at hcanonical
    exact absurd hcanonical (by decide)

/-- What is lost cannot be resolved. -/
theorem Lost.not_resolves (h : g.Lost store ref) : ¬ ∃ node, g.resolve ref = .ok node := by
  rintro ⟨node, hnode⟩
  obtain ⟨composite, hcomposite, hmissing, -⟩ := h
  obtain ⟨hget, -⟩ := resolve_eq_ok.1 hnode
  obtain ⟨canonical, hcanonical, hfound⟩ := get_eq_ok hget
  obtain rfl := eq_of_ok hcomposite hcanonical
  rw [(has_eq_false_iff.1 hmissing).2] at hfound
  exact absurd hfound (by simp)

/-- What an alias stands for, the elements of an array and the types of members can be resolved,
except where they lead to a composite that contains itself and was left out. -/
theorem resolves_iff_not_lost (h : (build target store).Refers ref part) :
    (∃ node, (build target store).resolve part = .ok node) ↔
      ¬ (build target store).Lost store part := by
  have hidle : Idle store (finalState target store) := idle_finalState target store
  rw [build_eq] at h ⊢
  constructor
  · exact fun hresolves hlost => hlost.not_resolves hresolves
  · intro hkept
    exact (hidle.coherent.graph.resolves_or_lost hidle.complete h).resolve_right hkept

/-- A struct that contains itself through a typedef, and a member of a type that does not exist. -/
def brokenRoot : Entry :=
  .node 1 Tag.compileUnit (.ofList [(Attr.name, .text "a.c")])
    [.node 2 Tag.structureType (.ofList [(Attr.name, .text "s"), (Attr.byteSize, .int 8)])
        [.node 3 Tag.member (.ofList [(Attr.name, .text "inner"), (Attr.type, .int 5)]) [],
          .node 4 Tag.member (.ofList [(Attr.name, .text "gone"), (Attr.type, .int 99)]) []],
      .node 5 Tag.typedef (.ofList [(Attr.name, .text "t"), (Attr.type, .int 2)]) []]

def brokenStore : Store := (Store.empty.addRoot brokenRoot).1

/-- The typedef of a struct that was left out refers to what is lost. -/
theorem resolves_iff_not_lost_broken :
    (build .standard brokenStore).Refers 5 2 ∧
      ((∃ node, (build .standard brokenStore).resolve 2 = .ok node) ↔
        ¬ (build .standard brokenStore).Lost brokenStore 2) := by
  have hrefers : (build .standard brokenStore).Refers 5 2 := .inl rfl
  exact ⟨hrefers, resolves_iff_not_lost hrefers⟩

/-- The typedef is in the graph, and what it stands for is not. -/
theorem typedef_of_missing_struct :
    (build .standard brokenStore).isAlias 5 = true ∧
      (build .standard brokenStore).resolve 5 = .error ⟨2, some 5⟩ := by
  decide

-- ---------------------------------------------------------------------------
-- Types that are left out
-- ---------------------------------------------------------------------------

/-- Whether a type is in the graph, or it is known why it is not. -/
def Settled (s : BuildState) (ref : Int) : Prop :=
  s.graph.has ref = true ∨ (s.failures.get? ref).isSome = true

theorem Settled.run {s t : BuildState} {root : Int} (h : Settled s ref)
    (hrun : BuildState.Run store root s t) : Settled t ref :=
  h.imp hrun.has hrun.failures

/-- The type of an entry is settled when the entry was visited. -/
theorem settled_visit {s : BuildState} {p : Placed} (target : Target) (depth : Nat)
    (hs : Idle store s) (hp : p ∈ store.entries) (htype : p.entry.tag.isType = true) :
    Settled (visit store target (depth + 1) s p) p.entry.ref := by
  obtain ⟨e, he⟩ := Store.exists_entry? hp
  have hruns := runs_buildRef store target (depth + 1) p.entry.ref none s hs.coherent
    (hs.surrounds _) trivial
  have hafter := hruns.2
  rw [visit, if_pos htype]
  rw [exec_buildRef, he] at hafter ⊢
  split at hafter
  · rename_i hhas
    rw [if_pos hhas]
    exact .inl hhas
  · rename_i hnew
    rw [if_neg hnew]
    cases hfailed : s.failures.get? p.entry.ref with
    | some fault => exact .inr (by rw [hfailed]; rfl)
    | none =>
      rw [hfailed] at hafter
      dsimp only at hafter ⊢
      rcases hexec : (buildEntry (buildRef store target depth) store target e).exec s
        with ⟨outcome, t⟩
      rw [hexec] at hafter
      -- a type that is not built is remembered with its fault
      cases outcome with
      | ok a => exact .inl hafter
      | error stop =>
        right
        rw [← Store.entry?_ref he]
        cases stop with
        | type fault =>
          show ((t.failures.insert e.ref fault).get? e.ref).isSome = true
          rw [OrderedMap.get?_insert, if_pos rfl, Option.isSome_some]
        | cause reason =>
          show ((t.failures.insert e.ref (.malformed e.ref reason)).get? e.ref).isSome = true
          rw [OrderedMap.get?_insert, if_pos rfl, Option.isSome_some]

/-- In the end every type is settled. -/
theorem settled_finalState {p : Placed} (target : Target) (hp : p ∈ store.entries)
    (htype : p.entry.tag.isType = true) : Settled (finalState target store) p.entry.ref := by
  have hfinal : Idle store (finalState target store) ∧ ∀ q ∈ store.entries,
      q.entry.tag.isType = true → Settled (finalState target store) q.entry.ref := by
    refine finalState_induction
      (P := fun before s => ∀ q ∈ before, q.entry.tag.isType = true → Settled s q.entry.ref)
      target (fun q hq => absurd hq (by simp)) ?_
    intro before s q hidle hq hbefore other hother hothertype
    rcases List.mem_append.1 hother with hother | hother
    · exact (hbefore other hother hothertype).run (run_visit target _ hidle q)
    · obtain rfl := List.mem_singleton.1 hother
      exact settled_visit target _ hidle hq hothertype
  exact hfinal.2 p hp htype

/-- Of every type that is left out it is known why. That is on record, unless it is a reference to a
composite that contains itself. -/
theorem recorded_iff_not_unlisted {p : Placed} (hp : p ∈ store.entries)
    (htype : p.entry.tag.isType = true) (hmissing : (build target store).has p.entry.ref = false) :
    ∃ fault, (finalState target store).failures.get? p.entry.ref = some fault ∧
      (fault ∈ (build target store).faults ↔ ¬ fault.Unlisted store) := by
  have hidle : Idle store (finalState target store) := idle_finalState target store
  rw [build_eq] at hmissing ⊢
  rcases settled_finalState target hp htype with hhas | hfailed
  · rw [hmissing] at hhas
    exact absurd hhas (by decide)
  · obtain ⟨fault, hfault⟩ := Option.isSome_iff_exists.1 hfailed
    refine ⟨fault, hfault, ?_, ?_⟩
    · rintro hrecorded ⟨missing, rfl, hself⟩
      exact hidle.coherent.faults missing hrecorded hself.1
    · exact (hidle.coherent.failures _ fault hfault).resolve_right

/-- A struct with a member of an enumeration whose underlying type is the struct. -/
def silentRoot : Entry :=
  .node 1 Tag.compileUnit (.ofList [(Attr.name, .text "a.c")])
    [.node 2 Tag.structureType (.ofList [(Attr.name, .text "s"), (Attr.byteSize, .int 4)])
        [.node 3 Tag.member (.ofList [(Attr.name, .text "mode"), (Attr.type, .int 4)]) []],
      .node 4 Tag.enumerationType
        (.ofList [(Attr.name, .text "e"), (Attr.byteSize, .int 4), (Attr.type, .int 2)]) []]

def silentStore : Store := (Store.empty.addRoot silentRoot).1

/-- A struct that an enumeration is based on is left out for a fault that is not on record. -/
theorem recorded_iff_not_unlisted_silent :
    ∃ p ∈ silentStore.entries, p.entry.ref = 2 ∧ p.entry.tag.isType = true ∧
      (build .standard silentStore).has 2 = false ∧
      ∃ fault, (finalState .standard silentStore).failures.get? 2 = some fault ∧
        (fault ∈ (build .standard silentStore).faults ↔ ¬ fault.Unlisted silentStore) := by
  have hp := List.mem_of_getElem? (l := silentStore.entries) (i := 1) rfl
  have hmissing : (build .standard silentStore).has 2 = false := by decide
  exact ⟨_, hp, rfl, rfl, hmissing, recorded_iff_not_unlisted hp rfl hmissing⟩

/-- The struct and the enumeration are left out, and nothing is on record. -/
theorem left_out_in_silence :
    (finalState .standard silentStore).failures.get? 2 = some (.dangling ⟨2, none⟩) ∧
      build .standard silentStore = .empty := by
  decide

end TypeGraph

end DebugLayout
