import DebugLayout.Proofs.Image.Additions
import DebugLayout.Proofs.TypeGraph.Descent

/-!
# DebugLayout — the arena of types is written once

A type graph begins empty and is changed by five **operations**, any of which may be refused at any
time, and then nothing changes. Whatever the order in which they come, each node is listed under its
own reference, no reference has both a node and an alias, and a graph **extends** every one that it
came from: an alias is never changed, and a node is changed only while it is a placeholder. A node
at the end of aliases stays there, because no alias can begin at it any more.

* `Operation`, `ofOperations`: the operations, and what they make of the empty graph;
* `Keyed`: what is listed where, `keyed_ofOperations`: all operations keep it;
* `Extends`: what later operations keep, `extends_ofOperations`: of all earlier graphs;
* `Extends.follow`, `Extends.resolve`: the way down aliases to a node is kept with it;
* `ofOperations_write_once`: the listing and the references of every graph in a sequence of
  operations.
-/

namespace DebugLayout

namespace TypeGraph

-- ------------------------------------------------------------------------------------------------
-- Operations
-- ------------------------------------------------------------------------------------------------

/-- An operation on a graph, with its arguments. -/
inductive Operation
  | addNode (node : TypeNode)
  | addPlaceholder (ref : Int)
  | fillPlaceholder (node : TypeNode)
  | discardPlaceholder (ref : Int)
  | addAlias (ref target : Int) (name : Option String)

/-- What an operation makes of a graph. Discarding is never refused, with or without a
placeholder. -/
def apply (g : TypeGraph) : Operation → Except ArenaFault TypeGraph
  | .addNode node => g.addNode node
  | .addPlaceholder ref => g.addPlaceholder ref
  | .fillPlaceholder node => g.fillPlaceholder node
  | .discardPlaceholder ref => .ok (g.discardPlaceholder ref)
  | .addAlias ref target name => g.addAlias ref target name

/-- What operations make of the empty graph, those that are refused changing nothing. -/
def ofOperations (operations : List Operation) : TypeGraph := addEach apply empty operations

/-- Operations in a row are the first of them, and then the others on what these leave. -/
theorem ofOperations_append (first later : List Operation) :
    ofOperations (first ++ later) = addEach apply (ofOperations first) later :=
  List.foldl_append

variable {g g' : TypeGraph} {operation : Operation} {node : TypeNode} {ref canonical : Int}

-- ------------------------------------------------------------------------------------------------
-- Keys
-- ------------------------------------------------------------------------------------------------

/-- Each node is listed under its own reference, and no reference has both a node and an alias. -/
structure Keyed (g : TypeGraph) : Prop where
  own : ∀ {ref node}, g.nodes.get? ref = some node → node.ref = ref
  apart : ∀ {ref node}, g.nodes.get? ref = some node → g.aliases.get? ref = none

theorem keyed_empty : empty.Keyed where
  own h := by cases h
  apart h := by cases h

/-- A node that is listed under its own reference, which is no alias. -/
theorem Keyed.insert (hkeyed : g.Keyed) (halias : g.aliases.get? node.ref = none) :
    ({ g with nodes := g.nodes.insert node.ref node } : TypeGraph).Keyed := by
  constructor
  · intro ref found hfound
    rw [OrderedMap.get?_insert] at hfound
    split at hfound
    · rename_i hown
      rwa [← Option.some.inj hfound]
    · exact hkeyed.own hfound
  · intro ref found hfound
    rw [OrderedMap.get?_insert] at hfound
    split at hfound
    · rename_i hown
      rwa [← hown]
    · exact hkeyed.apart hfound

/-- Every operation that is accepted keeps the listing. -/
theorem Keyed.apply (hkeyed : g.Keyed) (h : g.apply operation = .ok g') : g'.Keyed := by
  cases operation with
  | addNode node =>
    obtain ⟨halias, -, rfl⟩ := addNode_eq_ok h
    exact hkeyed.insert (by simpa [isAlias, OrderedMap.contains] using halias)
  | addPlaceholder ref =>
    obtain ⟨hfree, rfl⟩ := addPlaceholder_eq_ok h
    have halias : g.aliases.get? (placeholder ref).ref = none := (has_eq_false_iff.1 hfree).1
    exact hkeyed.insert halias
  | fillPlaceholder node =>
    obtain ⟨hplaceholder, rfl⟩ := fillPlaceholder_eq_ok h
    obtain ⟨old, hold, -⟩ := hasPlaceholder_iff.1 hplaceholder
    exact hkeyed.insert (hkeyed.apart hold)
  | discardPlaceholder ref =>
    obtain rfl := Except.ok.inj h
    -- to discard only takes a node away
    have hnode : ∀ {other node}, (g.discardPlaceholder ref).nodes.get? other = some node →
        g.nodes.get? other = some node := by
      intro other node hfound
      rw [get?_discardPlaceholder] at hfound
      split at hfound
      · cases hfound
      · exact hfound
    refine ⟨fun hfound => hkeyed.own (hnode hfound), fun hfound => ?_⟩
    rw [discardPlaceholder_aliases]
    exact hkeyed.apart (hnode hfound)
  | addAlias ref target name =>
    obtain ⟨hfree, hnodes, haliases, -⟩ := addAlias_eq_ok h
    refine ⟨fun hfound => hkeyed.own (hnodes ▸ hfound), fun {other found} hfound => ?_⟩
    rw [hnodes] at hfound
    -- the reference of the alias was free, so that it has no node
    have hother : ref ≠ other := by
      rintro rfl
      rw [(has_eq_false_iff.1 hfree).2] at hfound
      cases hfound
    rw [haliases, OrderedMap.get?_insert, if_neg hother]
    exact hkeyed.apart hfound

/-- Whatever the operations, each node is listed under its own reference. -/
theorem keyed_ofOperations (operations : List Operation) : (ofOperations operations).Keyed :=
  addEach_induction apply (fun g _ => g.Keyed) keyed_empty
    (fun _ _ _ _ hkeyed h => hkeyed.apply h) operations

-- ------------------------------------------------------------------------------------------------
-- Extensions
-- ------------------------------------------------------------------------------------------------

/-- A graph that keeps all aliases of another one, and all its nodes but for placeholders. -/
structure Extends (g' g : TypeGraph) : Prop where
  aliases : ∀ {ref target}, g.aliases.get? ref = some target → g'.aliases.get? ref = some target
  size : g.aliases.size ≤ g'.aliases.size
  nodes : ∀ {ref node}, g.nodes.get? ref = some node → node.isPlaceholder = false →
    g'.nodes.get? ref = some node

theorem Extends.refl (g : TypeGraph) : g.Extends g := ⟨id, Nat.le_refl _, fun h _ => h⟩

theorem Extends.trans {g'' : TypeGraph} (h : g'.Extends g) (h' : g''.Extends g') :
    g''.Extends g where
  aliases halias := h'.aliases (h.aliases halias)
  size := Nat.le_trans h.size h'.size
  nodes hnode hreal := h'.nodes (h.nodes hnode hreal) hreal

/-- A node may be listed where only a placeholder is. -/
theorem extends_insert (hfree : g.has node.ref = true → g.hasPlaceholder node.ref = true) :
    ({ g with nodes := g.nodes.insert node.ref node } : TypeGraph).Extends g := by
  refine ⟨id, Nat.le_refl _, fun {ref found} hfound hreal => ?_⟩
  have hother : node.ref ≠ ref := by
    rintro rfl
    obtain ⟨old, hold, hplaceholder⟩ :=
      hasPlaceholder_iff.1 (hfree (has_iff.2 (.inr ⟨found, hfound⟩)))
    rw [hfound, Option.some.injEq] at hold
    rw [← hold, hreal] at hplaceholder
    cases hplaceholder
  rw [OrderedMap.get?_insert, if_neg hother]
  exact hfound

theorem size_le_insert {κ α : Type} [DecidableEq κ] (m : OrderedMap κ α) (k : κ) (v : α) :
    m.size ≤ (m.insert k v).size := by
  have hkeys : (m.insert k v).keys = if k ∈ m.keys then m.keys else m.keys ++ [k] :=
    OrderedMap.map_fst_insertIn k v m.entries
  have hsize : ∀ m : OrderedMap κ α, m.size = m.keys.length :=
    fun m => (List.length_map _).symm
  rw [hsize, hsize, hkeys]
  split
  · exact Nat.le_refl _
  · simp

/-- Every operation that is accepted extends the graph. -/
theorem extends_apply (h : g.apply operation = .ok g') : g'.Extends g := by
  cases operation with
  | addNode node =>
    obtain ⟨-, hfree, rfl⟩ := addNode_eq_ok h
    exact extends_insert hfree
  | addPlaceholder ref =>
    obtain ⟨hfree, rfl⟩ := addPlaceholder_eq_ok h
    have hnothing : ¬g.has (placeholder ref).ref = true := Bool.eq_false_iff.1 hfree
    exact extends_insert fun hhas => absurd hhas hnothing
  | fillPlaceholder node =>
    obtain ⟨hplaceholder, rfl⟩ := fillPlaceholder_eq_ok h
    exact extends_insert fun _ => hplaceholder
  | discardPlaceholder ref =>
    obtain rfl := Except.ok.inj h
    have haliases : (g.discardPlaceholder ref).aliases = g.aliases := discardPlaceholder_aliases
    refine ⟨fun halias => haliases ▸ halias, haliases ▸ Nat.le_refl _,
      fun {other found} hfound hreal => ?_⟩
    -- the discarded node is a placeholder, and this one is not
    have hkept : ¬(g.hasPlaceholder ref = true ∧ ref = other) := by
      rintro ⟨hplaceholder, rfl⟩
      obtain ⟨old, hold, hold'⟩ := hasPlaceholder_iff.1 hplaceholder
      rw [hfound, Option.some.injEq] at hold
      rw [← hold, hreal] at hold'
      cases hold'
    rw [get?_discardPlaceholder, if_neg hkept]
    exact hfound
  | addAlias ref target name =>
    obtain ⟨hfree, hnodes, haliases, -⟩ := addAlias_eq_ok h
    refine ⟨fun {other old} halias => ?_, haliases ▸ size_le_insert _ _ _,
      fun hfound _ => hnodes ▸ hfound⟩
    -- an alias that was there is not the one that is added
    have hother : ref ≠ other := by
      rintro rfl
      rw [(has_eq_false_iff.1 hfree).1] at halias
      cases halias
    rw [haliases, OrderedMap.get?_insert, if_neg hother]
    exact halias

/-- More operations extend the graph that the first of them built. -/
theorem extends_ofOperations (first later : List Operation) :
    (ofOperations (first ++ later)).Extends (ofOperations first) := by
  rw [ofOperations_append]
  exact addEach_induction apply (fun g' _ => g'.Extends (ofOperations first)) (.refl _)
    (fun _ _ _ _ hextends h => hextends.trans (extends_apply h)) later

-- ------------------------------------------------------------------------------------------------
-- References
-- ------------------------------------------------------------------------------------------------

/-- Aliases that lead to a reference still do so when there are more of them, unless one of these
begins at that reference. More of them also allow for more steps. -/
theorem Extends.follow (hextends : g'.Extends g) (hend : g'.aliases.get? canonical = none)
    {steps steps' : Nat} {visited : List Int} (hsteps : steps ≤ steps')
    (h : TypeGraph.follow g.aliases steps visited ref = .ok canonical) :
    TypeGraph.follow g'.aliases steps' visited ref = .ok canonical := by
  induction steps generalizing steps' visited ref with
  | zero => exact absurd h (by simp [TypeGraph.follow])
  | succ steps ih =>
    obtain ⟨n, rfl⟩ : ∃ n, steps' = n + 1 := ⟨steps' - 1, by omega⟩
    rw [TypeGraph.follow] at h ⊢
    cases htarget : g.aliases.get? ref with
    | none =>
      -- the reference itself is the end, which has no alias in the extension either
      rw [htarget] at h
      obtain rfl := Except.ok.inj h
      rw [hend]
    | some target =>
      rw [htarget] at h
      rw [hextends.aliases htarget]
      dsimp only at h ⊢
      split at h
      · cases h
      · rename_i hnew
        rw [if_neg hnew]
        exact ih (Nat.le_of_succ_le_succ hsteps) h

/-- A node that a reference resolves to in a graph is resolved alike in an extension of it. -/
theorem Extends.resolve (hextends : g'.Extends g) (hkeyed : g.Keyed) (hkeyed' : g'.Keyed)
    (h : g.resolve ref = .ok node) :
    g'.resolve ref = .ok node ∧ g.canonicalRef ref = .ok node.ref ∧
      g'.canonicalRef ref = .ok node.ref := by
  obtain ⟨hget, hreal⟩ := resolve_eq_ok.1 h
  obtain ⟨canonical, hcanonical, hnode⟩ := get_eq_ok hget
  have hnode' : g'.nodes.get? canonical = some node := hextends.nodes hnode hreal
  have hcanonical' : g'.canonicalRef ref = .ok canonical :=
    hextends.follow (hkeyed'.apart hnode') (Nat.succ_le_succ hextends.size) hcanonical
  obtain rfl : node.ref = canonical := hkeyed.own hnode
  exact ⟨resolve_eq_ok.2 ⟨get_of_canonicalRef hcanonical' hnode', hreal⟩, hcanonical, hcanonical'⟩

/-- In a graph that any operations made each node is listed under its own reference and no reference
has both a node and an alias. A reference that resolves to a node resolves to the same one after any
further operations, by the same reference at the end of its aliases. -/
theorem ofOperations_write_once (first later : List Operation) :
    (ofOperations first).Keyed ∧
    ∀ {ref : Int} {node : TypeNode}, (ofOperations first).resolve ref = .ok node →
      (ofOperations (first ++ later)).resolve ref = .ok node ∧
      (ofOperations first).canonicalRef ref = .ok node.ref ∧
      (ofOperations (first ++ later)).canonicalRef ref = .ok node.ref :=
  ⟨keyed_ofOperations first, fun h => (extends_ofOperations first later).resolve
    (keyed_ofOperations first) (keyed_ofOperations (first ++ later)) h⟩

/-- A struct, of whose members nothing is said. -/
def pointNode : TypeNode := ⟨1, some "Point", .composite .struct (some 8) [] false⟩

/-- Operations that define a struct and a typedef of it, which comes before the struct is known. -/
def definePoint : List Operation :=
  [.addPlaceholder 1, .addAlias 2 1 (some "point_t"), .fillPlaceholder pointNode]

/-- Operations of which all but the last one are refused or find nothing to discard. -/
def redefinePoint : List Operation :=
  [.fillPlaceholder ⟨1, none, .void⟩, .addNode ⟨2, none, .void⟩, .addAlias 1 2 none,
    .discardPlaceholder 1, .addAlias 3 2 none]

/-- The typedef still resolves to the struct. -/
theorem ofOperations_write_once_typedef :
    (ofOperations definePoint).resolve 2 = .ok pointNode ∧
    (ofOperations (definePoint ++ redefinePoint)).resolve 2 = .ok pointNode ∧
    (ofOperations (definePoint ++ redefinePoint)).canonicalRef 2 = .ok 1 := by
  have hresolve : (ofOperations definePoint).resolve 2 = .ok pointNode := rfl
  obtain ⟨hlater, -, hcanonical⟩ := (ofOperations_write_once definePoint redefinePoint).2 hresolve
  exact ⟨hresolve, hlater, hcanonical⟩

end TypeGraph

end DebugLayout
