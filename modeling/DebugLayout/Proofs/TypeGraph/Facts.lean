import DebugLayout.Proofs.TypeGraph.Build
import Mathlib.Data.List.Nodup
import Mathlib.Data.Set.Insert

/-!
# DebugLayout — what a state knows

The maps of a state and the faults on its record are taken together as one set of **facts**, in
which order does not show. A placeholder is no fact. Every step of the building adds facts and takes
none away, and a look-up that needs only some facts has the same answer in every state that knows
them.

Facts are what makes the order of entries disappear: two graphs that were built in different orders
list the same nodes at different places, but as sets of facts they can be equal. A look-up is one
that some facts determine, which is why it can be compared across states.

* `Fact`, `BuildState.facts`: the facts of a state;
* `BuildState.facts_insert_node`, `facts_noted`, …: the facts that a step adds;
* `BuildState.Tidy`: nothing is on record twice;
* `BuildState.Within.get_eq`, `byteSize_eq`: look-ups in a state that knows more than another one.
-/

namespace DebugLayout

open Relation (ReflTransGen TransGen)

/-- What can be known in the building of a graph. -/
inductive Fact
  | node (ref : Int) (node : TypeNode)
  | synonym (ref target : Int)
  | typedefName (ref : Int) (name : String)
  | leftOut (ref : Int) (fault : TypeFault)
  | recorded (fault : TypeFault)

namespace BuildState

/-- Whether something is known in a state. -/
def Knows (s : BuildState) : Fact → Prop
  | .node ref node => s.graph.nodes.get? ref = some node ∧ node.isPlaceholder = false
  | .synonym ref target => s.graph.aliases.get? ref = some target
  | .typedefName ref name => s.graph.typedefNames.get? ref = some name
  | .leftOut ref fault => s.failures.get? ref = some fault
  | .recorded fault => fault ∈ s.graph.faults

/-- All that is known in a state. -/
def facts (s : BuildState) : Set Fact := { fact | s.Knows fact }

end BuildState

@[simp] theorem BuildState.mem_facts {s : BuildState} {fact : Fact} :
    fact ∈ s.facts ↔ s.Knows fact := Iff.rfl

/-- What is known of an alias with a target and perhaps a name. -/
def aliasFacts (ref target : Int) (name : Option String) : Set Fact :=
  { fact | fact = .synonym ref target ∨ ∃ own, name = some own ∧ fact = .typedefName ref own }

/-- What is known of a type whose building stopped. -/
def BuildStop.facts (ref : Int) : BuildStop → Set Fact
  | .type known => {.leftOut ref known}
  | .cause reason => {.recorded (.malformed ref reason), .leftOut ref (.malformed ref reason)}

namespace BuildState

variable {store : Store} {root ref : Int} {s t : BuildState}

/-- At the start nothing is known. -/
theorem facts_start : start.facts = ∅ := by
  ext fact
  cases fact <;> simp [Knows, start, TypeGraph.empty]

-- ---------------------------------------------------------------------------
-- The facts that a step adds
-- ---------------------------------------------------------------------------

/-- A node that is no placeholder is a new fact where there was none or a placeholder. -/
theorem facts_insert_node {node : TypeNode} (hreal : node.isPlaceholder = false)
    (hnew : ∀ old, s.graph.nodes.get? node.ref = some old → old.isPlaceholder = true) :
    ({ s with graph := { s.graph with nodes := s.graph.nodes.insert node.ref node } } :
      BuildState).facts = s.facts ∪ {.node node.ref node} := by
  ext fact
  cases fact with
  | node ref other =>
    simp only [mem_facts, Knows, Set.mem_union, Set.mem_singleton_iff,
      Fact.node.injEq, OrderedMap.get?_insert]
    -- under the reference itself the node is new, and what was there, if anything, was a
    -- placeholder
    by_cases href : node.ref = ref
    · subst href
      rw [if_pos rfl]
      constructor
      · rintro ⟨heq, -⟩
        exact .inr ⟨rfl, (Option.some.inj heq).symm⟩
      · rintro (⟨hold, hother⟩ | ⟨-, rfl⟩)
        · rw [hnew other hold] at hother
          exact absurd hother (by decide)
        · exact ⟨rfl, hreal⟩
    · rw [if_neg href]
      constructor
      · exact .inl
      · rintro (h | ⟨heq, -⟩)
        · exact h
        · exact absurd heq.symm href
  | synonym | typedefName | leftOut | recorded => simp [Knows]

/-- A placeholder is no fact: it may be taken out again. -/
theorem facts_addPlaceholder {g : TypeGraph} (h : s.graph.addPlaceholder ref = .ok g) :
    ({ s with graph := g } : BuildState).facts = s.facts := by
  obtain ⟨hnew, rfl⟩ := TypeGraph.addPlaceholder_eq_ok h
  ext fact
  cases fact with
  | node other node =>
    simp only [mem_facts, Knows, OrderedMap.get?_insert]
    split
    · rename_i href
      subst href
      rw [(TypeGraph.has_eq_false_iff.1 hnew).2]
      -- nothing was known of the reference, and a placeholder tells nothing
      refine iff_of_false ?_ (by simp)
      rintro ⟨heq, hreal⟩
      obtain rfl := Option.some.inj heq
      exact absurd hreal (by simp [TypeGraph.placeholder, TypeNode.isPlaceholder,
        TypeBody.isPlaceholder])
    · exact Iff.rfl
  | synonym | typedefName | leftOut | recorded => exact Iff.rfl

/-- And therefore taking it out loses none. -/
theorem facts_discardPlaceholder :
    ({ s with graph := s.graph.discardPlaceholder ref } : BuildState).facts = s.facts := by
  ext fact
  cases fact with
  | node other node =>
    simp only [mem_facts, Knows, TypeGraph.get?_discardPlaceholder]
    split
    · rename_i hgone
      obtain ⟨hplaceholder, rfl⟩ := hgone
      obtain ⟨old, hold, hreal⟩ := TypeGraph.hasPlaceholder_iff.1 hplaceholder
      -- what was discarded was a placeholder, which told nothing
      refine iff_of_false (by simp) ?_
      rintro ⟨heq, hnode⟩
      obtain rfl := Option.some.inj (hold.symm.trans heq)
      rw [hnode] at hreal
      exact absurd hreal (by decide)
    · exact Iff.rfl
  | synonym | typedefName | recorded =>
    simp only [mem_facts, Knows, TypeGraph.discardPlaceholder]
    split <;> exact Iff.rfl
  | leftOut => exact Iff.rfl

/-- An alias adds itself and its name, if it has one, to the facts. -/
theorem facts_addAlias {target : Int} {name : Option String} {g : TypeGraph}
    (h : s.graph.addAlias ref target name = .ok g) (hname : s.graph.typedefNames.get? ref = none) :
    ({ s with graph := g } : BuildState).facts = s.facts ∪ aliasFacts ref target name := by
  have hnew : s.graph.aliases.get? ref = none :=
    (TypeGraph.has_eq_false_iff.1 (TypeGraph.addAlias_eq_ok h).1).1
  unfold TypeGraph.addAlias at h
  split at h
  · exact absurd h (by simp)
  obtain rfl := Except.ok.inj h
  ext fact
  cases fact with
  | synonym other aim =>
    simp only [mem_facts, Knows, aliasFacts, Set.mem_union, Set.mem_ofPred_eq,
      OrderedMap.get?_insert]
    -- nothing was known of the reference before
    by_cases href : ref = other
    · subst href
      simp [hnew, eq_comm]
    · simp [href, Ne.symm href]
  | typedefName other own =>
    simp only [mem_facts, Knows, aliasFacts, Set.mem_union, Set.mem_ofPred_eq]
    cases name with
    | none => simp
    | some name =>
      simp only [OrderedMap.get?_insert]
      by_cases href : ref = other
      · subst href
        simp [hname, eq_comm]
      · simp [href, Ne.symm href]
  | node | leftOut | recorded => simp [Knows, aliasFacts]

/-- A fault that goes on record is a fact. -/
theorem facts_recorded (s : BuildState) (fault : TypeFault) :
    (s.recorded fault).facts = s.facts ∪ {.recorded fault} := by
  ext fact
  cases fact with
  | recorded other => simp [Knows, recorded, or_comm]
  | node | synonym | typedefName | leftOut => simp [Knows, recorded]

/-- It is one also if it was on record before. -/
theorem facts_noted (s : BuildState) (fault : TypeFault) :
    (s.noted fault).facts = s.facts ∪ {.recorded fault} := by
  unfold noted
  split
  · rename_i hknown
    have hmem : .recorded fault ∈ s.facts := List.contains_iff_mem.1 hknown
    exact (Set.union_eq_self_of_subset_right (Set.singleton_subset_iff.2 hmem)).symm
  · exact facts_recorded s fault

/-- The reason why an entry is left out is a fact of its own. -/
theorem facts_remembering (fault : TypeFault) (hnew : s.failures.get? ref = none) :
    (s.remembering ref fault).facts = s.facts ∪ {.leftOut ref fault} := by
  ext fact
  cases fact with
  | leftOut other known =>
    simp only [mem_facts, Knows, failures_remembering, Set.mem_union, Set.mem_singleton_iff,
      Fact.leftOut.injEq]
    by_cases href : ref = other
    · subst href
      simp [hnew, eq_comm]
    · simp [href, Ne.symm href]
  | node | synonym | typedefName | recorded => simp [Knows, remembering]

/-- Leaving an entry out adds the reason and, if the fault is a new one, the record of it. -/
theorem facts_leftOut (stop : BuildStop) (hnew : s.failures.get? ref = none) :
    (s.leftOut ref stop).facts = s.facts ∪ stop.facts ref := by
  cases stop with
  | type known => exact facts_remembering known hnew
  | cause reason =>
    have hrecorded : (s.recorded (.malformed ref reason)).failures.get? ref = none := hnew
    rw [leftOut, facts_remembering _ hrecorded, facts_recorded, Set.union_assoc]
    rfl

-- ---------------------------------------------------------------------------
-- Tidy states
-- ---------------------------------------------------------------------------

/-- Whether nothing is on record twice, every malformed type is known to be left out, and only
aliases have the name of a typedef. -/
structure Tidy (s : BuildState) : Prop where
  once : s.graph.faults.Nodup
  settled : ∀ ref cause, .malformed ref cause ∈ s.graph.faults →
    (s.failures.get? ref).isSome = true
  named : ∀ ref name, s.graph.typedefNames.get? ref = some name → s.graph.isAlias ref = true

/-- At the start there is nothing to be untidy. -/
theorem tidy_start : start.Tidy where
  once := List.nodup_nil
  settled _ _ h := absurd h (by simp [start, TypeGraph.empty])
  named _ _ h := absurd h (by simp [start, TypeGraph.empty])

/-- Only what is on record, aliases and names count. -/
theorem Tidy.withGraph {g : TypeGraph} (hs : s.Tidy) (hfaults : g.faults = s.graph.faults)
    (haliases : g.aliases = s.graph.aliases) (hnames : g.typedefNames = s.graph.typedefNames) :
    ({ s with graph := g } : BuildState).Tidy where
  once := hfaults ▸ hs.once
  settled ref cause h := hs.settled ref cause (hfaults ▸ h)
  named ref name h := by
    show g.aliases.contains ref = true
    rw [haliases]
    exact hs.named ref name (hnames ▸ h)

/-- An alias keeps the state tidy: it is the alias that gets the name. -/
theorem Tidy.addAlias {target : Int} {name : Option String} {g : TypeGraph} (hs : s.Tidy)
    (h : s.graph.addAlias ref target name = .ok g) :
    ({ s with graph := g } : BuildState).Tidy := by
  have hfaults : g.faults = s.graph.faults := (TypeGraph.addAlias_eq_ok h).2.2.2
  refine ⟨hfaults ▸ hs.once, fun other cause hother => hs.settled other cause (hfaults ▸ hother),
    fun other own hown => ?_⟩
  -- every name belongs to an alias, the new one to the new alias
  unfold TypeGraph.addAlias at h
  split at h
  · exact absurd h (by simp)
  obtain rfl := Except.ok.inj h
  show ((s.graph.aliases.insert ref target).get? other).isSome = true
  rw [OrderedMap.get?_insert]
  split
  · rfl
  · rename_i hne
    cases name with
    | none => exact hs.named other own hown
    | some name =>
      have hown : (s.graph.typedefNames.insert ref name).get? other = some own := hown
      rw [OrderedMap.get?_insert, if_neg hne] at hown
      exact hs.named other own hown

theorem Tidy.noted (hs : s.Tidy) (missing : Dangling) : (s.noted (.dangling missing)).Tidy := by
  unfold BuildState.noted
  split
  · exact hs
  · rename_i hnew
    have hnew : .dangling missing ∉ s.graph.faults := fun h => hnew (List.contains_iff_mem.2 h)
    refine ⟨?_, fun ref cause h => ?_, hs.named⟩
    · show (s.graph.faults ++ [_]).Nodup
      rw [← List.concat_eq_append]
      exact List.Nodup.concat hnew hs.once
    · rcases List.mem_append.1 h with h | h
      · exact hs.settled ref cause h
      · exact absurd (List.mem_singleton.1 h) (by simp)

/-- The malformation of a type that was not left out before is not on record. -/
theorem Tidy.leftOut (hs : s.Tidy) (stop : BuildStop) (hnew : s.failures.get? ref = none) :
    (s.leftOut ref stop).Tidy := by
  -- what has failed goes on having failed
  have hkept : ∀ (fault : TypeFault) (other : Int), (s.failures.get? other).isSome = true →
      ((s.failures.insert ref fault).get? other).isSome = true := by
    intro fault other hother
    rw [OrderedMap.get?_insert]
    split
    · rfl
    · exact hother
  cases stop with
  | type known =>
    exact ⟨hs.once, fun other cause h => hkept _ other (hs.settled other cause h), hs.named⟩
  | cause reason =>
    refine ⟨?_, fun other cause h => ?_, hs.named⟩
    · show (s.graph.faults ++ [_]).Nodup
      rw [← List.concat_eq_append]
      -- had the fault been on record, the type would be known to have failed
      refine List.Nodup.concat (fun hmem => ?_) hs.once
      have hsettled := hs.settled ref reason hmem
      rw [hnew] at hsettled
      exact absurd hsettled (by decide)
    · rcases List.mem_append.1 h with h | h
      · exact hkept _ other (hs.settled other cause h)
      · obtain ⟨rfl, -⟩ := TypeFault.malformed.inj (List.mem_singleton.1 h)
        show ((s.failures.insert other _).get? other).isSome = true
        rw [OrderedMap.get?_insert, if_pos rfl, Option.isSome_some]

-- ---------------------------------------------------------------------------
-- Look-ups that need only some facts
-- ---------------------------------------------------------------------------

/-- Whether a reference has a node other than a placeholder, or is an alias. -/
def Stands (s : BuildState) (ref : Int) : Prop :=
  (∃ node, .node ref node ∈ s.facts) ∨ ∃ target, .synonym ref target ∈ s.facts

/-- What stands goes on standing as facts are added. -/
theorem Stands.mono (h : s.Stands ref) (hsub : s.facts ⊆ t.facts) : t.Stands ref := by
  rcases h with ⟨node, hnode⟩ | ⟨target, htarget⟩
  · exact .inl ⟨node, hsub hnode⟩
  · exact .inr ⟨target, hsub htarget⟩

/-- What stands is in the graph. -/
theorem Stands.has (h : s.Stands ref) : s.graph.has ref = true := by
  rcases h with ⟨node, hnode, -⟩ | ⟨target, htarget⟩
  · exact TypeGraph.has_iff.2 (.inr ⟨node, hnode⟩)
  · exact TypeGraph.has_iff.2 (.inl ⟨target, htarget⟩)

/-- What is in the graph without a placeholder stands. -/
theorem stands_of_has (h : s.graph.has ref = true) (hreal : s.graph.hasPlaceholder ref = false) :
    s.Stands ref := by
  rcases TypeGraph.has_iff.1 h with ⟨target, htarget⟩ | ⟨node, hnode⟩
  · exact .inr ⟨target, htarget⟩
  · refine .inl ⟨node, hnode, ?_⟩
    by_contra hplaceholder
    have hbuilt : s.graph.hasPlaceholder ref = true :=
      TypeGraph.hasPlaceholder_iff.2 ⟨node, hnode, by simpa using hplaceholder⟩
    rw [hreal] at hbuilt
    exact absurd hbuilt (by decide)

/-- Whether all that is known in one state, between two entries, is known in another one. -/
structure Within (store : Store) (s t : BuildState) : Prop where
  idle : TypeGraph.Idle store s
  coherent : t.Coherent store
  facts : s.facts ⊆ t.facts

namespace Within

variable (hacyclic : store.Acyclic) (hwithin : Within store s t)
include hacyclic hwithin

/-- What is in a graph is found, there and where more is known. -/
theorem get_eq_ok (href : s.graph.has ref = true) :
    ∃ node, node.isPlaceholder = false ∧ s.graph.get ref = .ok node ∧
      t.graph.get ref = .ok node := by
  have hs : s.graph.Coherent store := hwithin.idle.coherent.graph
  cases hget : s.graph.get ref with
  | error fault => exact absurd (hs.get_eq_error (.inl href) hget).2.2.2 (hacyclic fault.ref)
  | ok node =>
    obtain ⟨canonical, hcanonical, hnode⟩ := TypeGraph.get_eq_ok hget
    obtain ⟨hchain, -⟩ := TypeGraph.canonicalRef_eq_ok hcanonical
    -- nothing is being built in this state, so that there are no placeholders
    have hreal : node.isPlaceholder = false := by
      by_contra hplaceholder
      have hbuilt := TypeGraph.hasPlaceholder_iff.2 ⟨node, hnode, by simpa using hplaceholder⟩
      rw [hwithin.idle.complete canonical] at hbuilt
      exact absurd hbuilt (by decide)
    have hfact : .node canonical node ∈ s.facts := ⟨hnode, hreal⟩
    have hnode' : t.graph.nodes.get? canonical = some node := (hwithin.facts hfact).1
    have hstep : ∀ a b, s.graph.aliases.get? a = some b → t.graph.aliases.get? a = some b :=
      fun a b h => hwithin.facts (show .synonym a b ∈ s.facts from h)
    have hchain' : t.graph.Aliased ref canonical := ReflTransGen.mono hstep ref canonical hchain
    -- the other state has the node, and therefore no alias under the same reference
    have hend : t.graph.aliases.get? canonical = none := by
      by_contra hsome
      obtain ⟨target, htarget⟩ := Option.ne_none_iff_exists'.1 hsome
      rw [hwithin.coherent.graph.apart canonical target htarget] at hnode'
      exact absurd hnode' (by simp)
    have hcanonical' := hwithin.coherent.graph.ranked.canonicalRef_eq hchain' hend
    exact ⟨node, hreal, rfl, TypeGraph.get_of_canonicalRef hcanonical' hnode'⟩

/-- Both graphs have the same node for what stands in both. -/
theorem get_eq (href : s.graph.has ref = true) : t.graph.get ref = s.graph.get ref := by
  obtain ⟨node, -, hs, ht⟩ := get_eq_ok hacyclic hwithin href
  rw [hs, ht]

theorem resolve_eq_ok (href : s.graph.has ref = true) :
    ∃ node, s.graph.resolve ref = .ok node ∧ t.graph.resolve ref = .ok node := by
  obtain ⟨node, hreal, hs, ht⟩ := get_eq_ok hacyclic hwithin href
  exact ⟨node, TypeGraph.resolve_eq_ok.2 ⟨hs, hreal⟩, TypeGraph.resolve_eq_ok.2 ⟨ht, hreal⟩⟩

/-- What a reference leads to is the same in both graphs. -/
theorem resolve_eq (href : s.graph.has ref = true) : t.graph.resolve ref = s.graph.resolve ref := by
  obtain ⟨node, hs, ht⟩ := resolve_eq_ok hacyclic hwithin href
  rw [hs, ht]

/-- A size is found in the same way. -/
theorem sizeOf {outcome : Except Dangling (Option Int)} (h : s.graph.SizeOf ref outcome)
    (href : s.graph.has ref = true) : t.graph.SizeOf ref outcome := by
  have hfound : ∀ {x node}, s.graph.has x = true → s.graph.resolve x = .ok node →
      t.graph.resolve x = .ok node := by
    intro x node hx hnode
    obtain ⟨found, hs, ht⟩ := resolve_eq_ok hacyclic hwithin hx
    rw [ht, eq_of_ok hs hnode]
  induction h with
  | unresolved hfault =>
    obtain ⟨node, hs, -⟩ := resolve_eq_ok hacyclic hwithin href
    rw [hs] at hfault
    exact absurd hfault (by simp)
  | given hnode hbody => exact .given (hfound href hnode) hbody
  | strided hnode hbody => exact .strided (hfound href hnode) hbody
  | @measured ref element node dims outcome hnode hbody _ ih =>
    refine .measured (hfound href hnode) hbody (ih ?_)
    -- the elements of an array in the graph are in the graph
    obtain ⟨hget, -⟩ := TypeGraph.resolve_eq_ok.1 hnode
    obtain ⟨array, -, harray⟩ := TypeGraph.get_eq_ok hget
    have hrefers : s.graph.Refers array element :=
      .inr ⟨node, harray, by rw [hbody]; exact List.mem_singleton_self element⟩
    rcases hwithin.idle.coherent.graph.grounded array element hrefers with hhas | hself
    · exact hhas
    · exact absurd hself.2 (hacyclic element)

/-- And so is its size, which takes the types inside it into account. -/
theorem byteSize_eq (href : s.graph.has ref = true) :
    t.graph.byteSize ref = s.graph.byteSize ref := by
  have hs : s.graph.SizeOf ref (s.graph.byteSize ref) :=
    hwithin.idle.coherent.graph.ranked.sizeOf_byteSize ref
  have ht : t.graph.SizeOf ref (t.graph.byteSize ref) :=
    hwithin.coherent.graph.ranked.sizeOf_byteSize ref
  exact ht.unique (sizeOf hacyclic hwithin hs href)

end Within

end BuildState

end DebugLayout
