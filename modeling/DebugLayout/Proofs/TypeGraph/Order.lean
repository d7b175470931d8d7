import DebugLayout.Proofs.TypeGraph.Agreement
import DebugLayout.Proofs.TypeGraph.SameEntries

/-!
# DebugLayout — the order of entries

Where no type contains itself, a type comes to the same in every state. What is learned from an
entry is then the same at every time, and what is known in the end is what was learned from any of
them. The graphs of two stores that hold the same entries are therefore the same, up to the order of
what they hold.

The visits are compared as a whole: what a visit adds to the facts depends on its entry only, so
that the facts of the end are the union over all entries, in which no order is left.

* `TypeGraph.settles_buildRef`: a type comes to what it would come to in a fresh state;
* `TypeGraph.facts_visit`, `facts_foldl_visit`: what is known when some entries have been visited;
* `TypeGraph.Matches`: graphs that are the same up to order;
* `TypeGraph.matches_of_sameEntries`: the order of entries does not matter.
-/

namespace DebugLayout

namespace TypeGraph

open Build
open BuildState (Consistent Open)

variable {store s t : Store} {target : Target} {ref : Int} {state : BuildState}

-- ---------------------------------------------------------------------------
-- Single types
-- ---------------------------------------------------------------------------

/-- The needs of a type lead to fewer types than a fresh state has depth for. -/
theorem height_lt_freshDepth (store : Store) (ref : Int) : store.height ref < freshDepth store := by
  have hsize : store.height ref ≤ store.size := store.height_le_size ref
  have hfresh : store.size + 1 ≤ freshDepth store := Nat.le_mul_of_pos_left _ (by omega)
  omega

/-- A type comes to what it would come to in a fresh state, whenever it is built. The induction is
on its height. -/
theorem settles_buildRef (hacyclic : store.Acyclic) (target : Target) {depth : Nat}
    (hdepth : store.height ref < depth) :
    Settles store target (buildRef store target depth) ref := by
  induction hheight : store.height ref using Nat.strong_induction_on generalizing ref depth with
  | h height ih =>
    obtain ⟨depth, rfl⟩ : ∃ smaller, depth = smaller + 1 := ⟨depth - 1, by omega⟩
    refine settles_of_needed hacyclic fun needed hneeds => ?_
    have hlt : store.height needed < store.height ref := hneeds.height_lt hacyclic
    have hbelow : store.height needed < height := hheight ▸ hlt
    exact ⟨ih _ hbelow (by omega) rfl, ih _ hbelow (height_lt_freshDepth store needed) rfl⟩

-- ---------------------------------------------------------------------------
-- All entries
-- ---------------------------------------------------------------------------

/-- What holds between two entries: the state is consistent, and nothing is being built. -/
structure Rested (store : Store) (target : Target) (s : BuildState) : Prop where
  consistent : Consistent store target s
  complete : ∀ ref, s.graph.hasPlaceholder ref = false
  following : s.following = []

theorem rested_start (store : Store) (target : Target) : Rested store target .start where
  consistent := consistent_start store target
  complete _ := rfl
  following := rfl

theorem Rested.idle (h : Rested store target state) : Idle store state :=
  ⟨h.consistent.coherent, h.complete⟩

/-- Between two entries any type may be built. -/
theorem Rested.open (h : Rested store target state) (ref : Int) : Open store target ref state where
  consistent := h.consistent
  surrounds outer houter := by
    rw [h.complete outer] at houter
    exact absurd houter (by decide)
  following other hother := by
    rw [h.following] at hother
    exact absurd hother (by simp)

/-- What is learned from an entry. -/
def lesson (store : Store) (target : Target) (p : Placed) : Set Fact :=
  { fact | p.entry.tag.isType = true ∧ fact ∈ (fresh store target p.entry.ref none).2.facts }

/-- The same is learned from an entry at every time. -/
theorem facts_visit (hacyclic : store.Acyclic) (h : Rested store target state) (p : Placed) :
    Rested store target (visit store target (depthBound store) state p) ∧
      (visit store target (depthBound store) state p).facts =
        state.facts ∪ lesson store target p := by
  have hrun := run_visit target (depthBound store) h.idle p
  have hcomplete := (h.idle.run hrun).complete
  -- a visit leaves no alias being followed
  have hfollowing : (visit store target (depthBound store) state p).following = [] := by
    refine List.eq_nil_iff_forall_not_mem.2 fun other hother => ?_
    have hbefore := hrun.following other hother
    rw [h.following] at hbefore
    exact absurd hbefore (by simp)
  -- an entry that is no type teaches nothing
  by_cases htype : p.entry.tag.isType = true
  · have hdepth : store.height p.entry.ref < depthBound store :=
      Nat.lt_succ_of_lt (height_lt_freshDepth store p.entry.ref)
    obtain ⟨-, hfacts, hconsistent⟩ :=
      settles_buildRef hacyclic target hdepth none state (h.open p.entry.ref)
    have hvisit : visit store target (depthBound store) state p =
        ((buildRef store target (depthBound store) p.entry.ref none).exec state).2 := if_pos htype
    have hlesson : lesson store target p = (fresh store target p.entry.ref none).2.facts :=
      Set.ext fun fact => and_iff_right htype
    rw [hvisit] at hcomplete hfollowing ⊢
    exact ⟨⟨hconsistent, hcomplete, hfollowing⟩, hlesson ▸ hfacts⟩
  · have hvisit : visit store target (depthBound store) state p = state := if_neg htype
    have hlesson : lesson store target p = ∅ :=
      Set.eq_empty_of_forall_notMem fun fact hfact => htype hfact.1
    rw [hvisit, hlesson, Set.union_empty]
    exact ⟨h, rfl⟩

/-- When entries have been visited, what was learned from any of them is known. -/
theorem facts_foldl_visit (hacyclic : store.Acyclic) (h : Rested store target state)
    (ps : List Placed) :
    Rested store target (ps.foldl (visit store target (depthBound store)) state) ∧
      ∀ fact, fact ∈ (ps.foldl (visit store target (depthBound store)) state).facts ↔
        fact ∈ state.facts ∨ ∃ p ∈ ps, fact ∈ lesson store target p := by
  induction ps generalizing state with
  | nil => exact ⟨h, fun fact => by simp⟩
  | cons p ps ih =>
    obtain ⟨hrested, hfacts⟩ := facts_visit hacyclic h p
    obtain ⟨hend, hknown⟩ := ih hrested
    refine ⟨hend, fun fact => ?_⟩
    rw [List.foldl_cons, hknown, hfacts, Set.mem_union, List.exists_mem_cons_iff, or_assoc]

-- ---------------------------------------------------------------------------
-- Stores that hold the same entries
-- ---------------------------------------------------------------------------

/-- Whether two graphs are the same, up to the order of what they hold. -/
structure Matches (g h : TypeGraph) : Prop where
  nodes : ∀ ref, g.nodes.get? ref = h.nodes.get? ref
  aliases : ∀ ref, g.aliases.get? ref = h.aliases.get? ref
  typedefNames : ∀ ref, g.typedefNames.get? ref = h.typedefNames.get? ref
  faults : g.faults.Perm h.faults

/-- Where nothing is being built, every node is known. -/
theorem Rested.node_mem_facts (h : Rested store target state) {node : TypeNode} :
    .node ref node ∈ state.facts ↔ state.graph.nodes.get? ref = some node := by
  refine ⟨And.left, fun hnode => ⟨hnode, ?_⟩⟩
  by_contra hplaceholder
  have hbuilt := hasPlaceholder_iff.2 ⟨node, hnode, by simpa using hplaceholder⟩
  rw [h.complete ref] at hbuilt
  exact absurd hbuilt (by decide)

/-- Where the same is known, the graphs are the same up to order. -/
theorem Rested.matches {other : BuildState} (h : Rested store target state)
    (hother : Rested store target other) (hfacts : state.facts = other.facts) :
    state.graph.Matches other.graph where
  nodes ref := Option.ext fun node => by
    rw [← h.node_mem_facts, ← hother.node_mem_facts, hfacts]
  aliases ref := Option.ext fun aim => by
    have hsame := Set.ext_iff.1 hfacts (.synonym ref aim)
    exact hsame
  typedefNames ref := Option.ext fun name => by
    have hsame := Set.ext_iff.1 hfacts (.typedefName ref name)
    exact hsame
  faults := by
    refine (List.perm_ext_iff_of_nodup h.consistent.tidy.once hother.consistent.tidy.once).2 ?_
    exact fun fault => Set.ext_iff.1 hfacts (.recorded fault)

/-- An entry is visited in the same way in stores that hold the same entries. -/
theorem visit_eq (hsame : s.SameEntries t) (hunique : s.UniqueDefinitions) (target : Target) :
    visit t target (depthBound t) = visit s target (depthBound s) := by
  have hdepth : depthBound t = depthBound s := by
    rw [depthBound, depthBound, hsame.listed.size_eq]
  funext state p
  rw [visit, visit, buildRef_eq hsame hunique, hdepth]

/-- The same entries in another order teach the same facts. -/
theorem exists_lesson_iff (h : s.Relisted t) (fact : Fact) :
    (∃ q ∈ t.entries, fact ∈ lesson store target q) ↔
      ∃ p ∈ s.entries, fact ∈ lesson store target p := by
  have halikes : ∀ {p q : Placed}, p.entry.Alike q.entry →
      lesson store target q = lesson store target p := fun halike => by
    rw [lesson, lesson, halike.tag, halike.ref]
  constructor
  · rintro ⟨q, hq, hfact⟩
    obtain ⟨p, hp, halike⟩ := h.exists_alike' hq
    exact ⟨p, hp, halikes halike ▸ hfact⟩
  · rintro ⟨p, hp, hfact⟩
    obtain ⟨q, hq, halike⟩ := h.exists_alike hp
    exact ⟨q, hq, (halikes halike).symm ▸ hfact⟩

/-- The graphs of stores that hold the same entries are the same up to order, if no type contains
itself and no declared composite has two definitions. -/
theorem matches_of_sameEntries (target : Target) (hsame : s.SameEntries t) (hacyclic : s.Acyclic)
    (hunique : s.UniqueDefinitions) : (build target s).Matches (build target t) := by
  obtain ⟨hs, hsfacts⟩ := facts_foldl_visit hacyclic (rested_start s target) s.entries
  obtain ⟨ht, htfacts⟩ := facts_foldl_visit hacyclic (rested_start s target) t.entries
  rw [build_eq, build_eq, finalState, finalState, visit_eq hsame hunique]
  refine hs.matches ht (Set.ext fun fact => ?_)
  rw [hsfacts, htfacts, exists_lesson_iff hsame.listed]

/-- A base type, and a struct with a member of it. -/
def definitions : List Entry :=
  [.node 2 Tag.baseType (.ofList [(Attr.name, .text "int"), (Attr.byteSize, .int 4),
      (Attr.encoding, .int 5)]) [],
    .node 3 Tag.structureType (.ofList [(Attr.name, .text "s"), (Attr.byteSize, .int 4)])
      [.node 4 Tag.member (.ofList [(Attr.name, .text "x"), (Attr.type, .int 2)]) []]]

/-- A declaration of the struct, an alias of it, and an alias of a type that is missing. -/
def uses : List Entry :=
  [.node 5 Tag.structureType (.ofList [(Attr.name, .text "s"), (Attr.declaration, .bool true)]) [],
    .node 6 Tag.typedef (.ofList [(Attr.name, .text "t"), (Attr.type, .int 5)]) [],
    .node 7 Tag.typedef (.ofList [(Attr.name, .text "u"), (Attr.type, .int 0)]) []]

/-- A unit of some entries, and its store. -/
def unitOf (entries : List Entry) : Entry := .node 1 Tag.compileUnit (.ofList []) entries

def unitStore (entries : List Entry) : Store := (Store.empty.addRoot (unitOf entries)).1

theorem relisted_uses :
    (unitStore (definitions ++ uses)).Relisted (unitStore (uses ++ definitions)) := by
  refine ⟨(unitStore (uses ++ definitions)).entries.take 1 ++
    ((unitStore (uses ++ definitions)).entries.drop 4 ++
      ((unitStore (uses ++ definitions)).entries.drop 1).take 3), ?_, ?_⟩
  · exact (List.perm_append_comm.append_left _).trans (.of_eq rfl)
  · refine .cons (.node (fun _ => rfl) fun h => absurd h (by decide)) ?_
    exact .cons (Entry.alike_refl _) (.cons (Entry.alike_refl _) (.cons (Entry.alike_refl _)
      (.cons (Entry.alike_refl _) (.cons (Entry.alike_refl _) (.cons (Entry.alike_refl _) .nil)))))

/-- Definitions listed before their uses and after them come to matching graphs. -/
theorem matches_of_sameEntries_uses :
    (unitStore (definitions ++ uses)).SameEntries (unitStore (uses ++ definitions)) ∧
      (unitStore (definitions ++ uses)).Acyclic ∧
      (unitStore (definitions ++ uses)).UniqueDefinitions ∧
      (build .standard (unitStore (definitions ++ uses))).Matches
        (build .standard (unitStore (uses ++ definitions))) := by
  have hread : Store.ofRoots [unitOf (definitions ++ uses)] =
      .ok (unitStore (definitions ++ uses)) := rfl
  have hsame := Store.SameEntries.of_distinct relisted_uses (Store.distinct_ofRoots hread)
  have hacyclic : (unitStore (definitions ++ uses)).Acyclic :=
    Store.acyclic_of_mentioned (by decide)
  -- the only complete composite is the struct that is defined
  have hcomplete : ∀ p ∈ (unitStore (definitions ++ uses)).entries,
      p.entry.tag.isComposite = true → p.entry.isDeclaration = false → p.entry.ref = 3 := by
    decide
  have hunique : (unitStore (definitions ++ uses)).UniqueDefinitions := by
    rintro - - - - ref ref' ⟨p, hp, rfl, htag, hdefined, -⟩ ⟨q, hq, rfl, htag', hdefined', -⟩
    rw [hcomplete p hp htag hdefined, hcomplete q hq htag' hdefined']
  exact ⟨hsame, hacyclic, hunique, matches_of_sameEntries .standard hsame hacyclic hunique⟩

example : (build .standard (unitStore (definitions ++ uses))).nodes.keys = [2, 3] ∧
    (build .standard (unitStore (uses ++ definitions))).nodes.keys = [3, 2] := by decide

end TypeGraph

end DebugLayout
