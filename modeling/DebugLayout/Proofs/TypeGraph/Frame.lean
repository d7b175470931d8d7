import DebugLayout.Proofs.TypeGraph.Course

/-!
# DebugLayout — what the building of an entry comes to

An entry other than a composite with members needs at most one type. It turns to it before anything
else and is **closed** afterwards: it is added to the graph unless something is wrong with it. A
composite with members puts a placeholder in the graph, takes its course, and then either fills the
placeholder or takes it out again. These are the **frames** of the nested building, whatever the way
to build the types that are needed.

The later arguments about records and about the depth go through the building entry by entry. They
rest on frames alone and open no definition of the builder, so that a change to one kind of entry is
a change to one lemma here.

* `TypeGraph.Closing`: the end of an entry other than a composite with members;
* `Store.passage?`: the type that such an entry needs;
* `TypeGraph.Frame`, `TypeGraph.frame_buildEntry`: what becomes of an entry;
* `TypeGraph.Turn`, `TypeGraph.turn_buildRef`: and of a type, which may be there already.
-/

namespace DebugLayout

namespace TypeGraph

open Build

variable {store : Store} {recurse : Recurse}

-- ------------------------------------------------------------------------------------------------
-- The end of an entry
-- ------------------------------------------------------------------------------------------------

/-- What a graph gains when an entry is added to it under a reference that was free, as a node or as
an alias. -/
structure Gains (g g' : TypeGraph) (ref : Int) : Prop where
  fresh : g.has ref = true → g.hasPlaceholder ref = true
  has : ∀ other, g'.has other = true ↔ ref = other ∨ g.has other = true
  hasPlaceholder : ∀ other, g'.hasPlaceholder other = true → g.hasPlaceholder other = true
  faults : g'.faults = g.faults

/-- A node that was added is what the graph gains, and it is no placeholder. -/
theorem gains_addNode {g g' : TypeGraph} {node : TypeNode} (hreal : node.isPlaceholder = false)
    (h : g.addNode node = .ok g') : g.Gains g' node.ref := by
  obtain ⟨-, hfree, rfl⟩ := addNode_eq_ok h
  refine ⟨hfree, fun other => has_insert_node _, fun other hother => ?_, rfl⟩
  rw [hasPlaceholder_insert_node] at hother
  split at hother
  · rw [hreal] at hother
    exact absurd hother (by decide)
  · exact hother

/-- An alias that was added is what the graph gains: no node changes. -/
theorem gains_addAlias {g g' : TypeGraph} {ref target : Int} {name : Option String}
    (h : g.addAlias ref target name = .ok g') : g.Gains g' ref := by
  obtain ⟨hnew, hnodes, -, hfaults⟩ := addAlias_eq_ok h
  refine ⟨fun hhas => ?_, has_of_addAlias h, fun other hother => ?_, hfaults⟩
  · rw [hnew] at hhas
    exact absurd hhas (by decide)
  · rw [hasPlaceholder_iff] at hother ⊢
    rwa [hnodes] at hother

/-- A node is refused only if there is something under its reference. -/
theorem has_of_addNode_eq_error {g : TypeGraph} {node : TypeNode} {fault : ArenaFault}
    (h : g.addNode node = .error fault) : g.has node.ref = true := by
  unfold addNode at h
  split at h
  · rename_i hnode
    rw [Bool.and_eq_true] at hnode
    rw [has, hnode.1, Bool.or_true]
  · split at h
    · rename_i halias
      rw [has, halias, Bool.true_or]
    · exact absurd h (by simp)

/-- An alias is refused only if there is something under its reference. -/
theorem has_of_addAlias_eq_error {g : TypeGraph} {ref target : Int} {name : Option String}
    {fault : ArenaFault} (h : g.addAlias ref target name = .error fault) : g.has ref = true := by
  unfold addAlias at h
  split at h
  · assumption
  · exact absurd h (by simp)

/-- Whether an array has an element type, and its dimensions and its stride can be read. -/
structure IsReadable (e : Entry) : Prop where
  element : ∃ element, e.typeRef? = some element
  dims : ∃ dims, dimensionsOf e = .ok dims
  stride : (e.attr? Attr.byteStride).isSome = true →
    ∃ stride, e.intAttr? Attr.byteStride = .ok stride

/-- What is known of an array or an enumeration that is added to a graph. -/
structure Suits (e : Entry) (g : TypeGraph) : Prop where
  array : e.tag = Tag.arrayType → IsReadable e
  enum : e.tag = Tag.enumerationType → ∀ type, e.typeRef? = some type →
    ∃ node, g.resolve type = .ok node

theorem suits_of_ne {e : Entry} {g : TypeGraph} (harray : e.tag ≠ Tag.arrayType)
    (henum : e.tag ≠ Tag.enumerationType) : Suits e g :=
  ⟨fun h => absurd h harray, fun h => absurd h henum⟩

/-- Nothing needs to be known of an entry of another kind. -/
theorem suits_of_kind {kind : Tag → Bool} {e : Entry} {g : TypeGraph} (htag : kind e.tag = true)
    (harray : kind Tag.arrayType = false) (henum : kind Tag.enumerationType = false) :
    Suits e g :=
  suits_of_ne (fun h => by simp [h, harray] at htag) (fun h => by simp [h, henum] at htag)

/-- Whether an entry, other than a composite with members, can be to blame for a malformation: a
base type or an enumeration can, and so can an array, but it always is then. -/
inductive Refusable (e : Entry) : Prop
  | baseType (htag : e.tag = Tag.baseType)
  | enum (htag : e.tag = Tag.enumerationType)
  | array (htag : e.tag = Tag.arrayType) (h : ¬ IsReadable e)

/-- The end of an entry that is no composite with members, once what it needs is there. Something is
wrong with it, it refers to what is missing, its reference is taken by then, or it is added. -/
inductive Closing (e : Entry) (s : BuildState) : Except BuildStop Unit × BuildState → Prop
  | refused {stop : BuildStop} (hown : stop.IsOwn)
      (hentry : ∀ cause, stop = .cause cause → Refusable e) : Closing e s (.error stop, s)
  | noted (missing : Dangling) :
      Closing e s (.error (.type (.dangling missing)), s.noted (.dangling missing))
  | clash {fault : ArenaFault} (htaken : s.graph.has e.ref = true) :
      Closing e s (.error (.cause (.arena fault)), s)
  | added {g : TypeGraph} (hgains : s.graph.Gains g e.ref) (hsuits : Suits e s.graph) :
      Closing e s (.ok (), { s with graph := g })

section Closing

variable {α : Type} {e : Entry} {s : BuildState} {x : Build α} {f : α → Build Unit}

/-- An entry that is added as a node is closed with it, or by the clash with what is there. -/
theorem closing_addNode {name : Option String} {body : TypeBody} (hsuits : Suits e s.graph)
    (hreal : body.isPlaceholder = false) :
    Closing e s ((update (·.addNode ⟨e.ref, name, body⟩)).exec s) := by
  have hnode : (TypeNode.mk e.ref name body).isPlaceholder = false := hreal
  rw [exec_update]
  cases hadd : s.graph.addNode ⟨e.ref, name, body⟩ with
  | error fault => exact .clash (has_of_addNode_eq_error hadd)
  | ok g => exact .added (gains_addNode hnode hadd) hsuits

/-- An entry that is added as an alias is closed with it, or by the clash with what is there. -/
theorem closing_addAlias {target : Int} {name : Option String} (hsuits : Suits e s.graph) :
    Closing e s ((update (·.addAlias e.ref target name)).exec s) := by
  rw [exec_update]
  cases hadd : s.graph.addAlias e.ref target name with
  | error fault => exact .clash (has_of_addAlias_eq_error hadd)
  | ok g => exact .added (gains_addAlias hadd) hsuits

/-- An entry of a refusable kind may be closed by a fault of its own. -/
theorem closing_cause {cause : Malformation} (hown : cause.IsOwn) (hentry : Refusable e) :
    Closing e s ((throw (.cause cause) : Build Unit).exec s) :=
  .refused hown fun _ _ => hentry

/-- Before an entry is closed an operation may find a fault that the entry is to blame for, and only
entries of a refusable kind are. -/
theorem closing_ofExcept {x : Except Malformation α} (hx : Blames x)
    (hentry : ∀ cause, x = .error cause → Refusable e)
    (hf : ∀ a, x = .ok a → Closing e s ((f a).exec s)) :
    Closing e s ((ofExcept x >>= f).exec s) := by
  rw [exec_bind]
  cases hvalue : x with
  | ok a => exact hf a hvalue
  | error cause =>
    exact .refused (hx cause hvalue) fun _ _ => hentry cause hvalue

/-- Before an entry is closed other entries may be looked up. A missing one closes it. -/
theorem closing_looksUp (hx : LooksUp x) (hf : ∀ a, Closing e s ((f a).exec s)) :
    Closing e s ((x >>= f).exec s) := by
  rw [exec_bind]
  rcases hx s with ⟨a, ha⟩ | ⟨missing, hmissing⟩
  · rw [ha]
    exact hf a
  · rw [hmissing]
    exact .noted missing

/-- A look-up in the graph, which fails only for a type that is missing. -/
theorem closing_lookup {lookup : TypeGraph → Except Dangling α}
    (hf : ∀ a, lookup s.graph = .ok a → Closing e s ((f a).exec s)) :
    Closing e s ((graph >>= fun g => ofDangling (lookup g) >>= f).exec s) := by
  show Closing e s ((ofDangling (lookup s.graph) >>= f).exec s)
  rw [exec_bind]
  cases hvalue : lookup s.graph with
  | ok a => exact hf a hvalue
  | error fault => exact .refused trivial fun _ h => absurd h (by simp)

/-- Before an entry is closed the size of a type may be looked at, which dangles if the type is
missing. -/
theorem closing_sizeSoFar {ref : Int} {f : Option Int → Build Unit}
    (hf : ∀ size, Closing e s ((f size).exec s)) :
    Closing e s ((sizeSoFar ref >>= f).exec s) := by
  have hnone : ∀ fault : Dangling, Closing e s (.error (.type (.dangling fault)), s) :=
    fun fault => .refused trivial fun _ h => absurd h (by simp)
  -- the look-up changes nothing: it finds a size or none, or a type is missing
  have hsize : (∃ size, (sizeSoFar ref).exec s = (.ok size, s)) ∨
      ∃ fault, (sizeSoFar ref).exec s = (.error (.type (.dangling fault)), s) := by
    show (∃ size, exec (ofDangling (s.graph.get ref) >>= _) s = _) ∨
      ∃ fault, exec (ofDangling (s.graph.get ref) >>= _) s = _
    cases s.graph.get ref with
    | error fault => exact .inr ⟨fault, rfl⟩
    | ok node =>
      show (∃ size, exec (if node.isPlaceholder = true then _ else _) s = _) ∨
        ∃ fault, exec (if node.isPlaceholder = true then _ else _) s = _
      split
      · exact .inl ⟨none, rfl⟩
      · cases s.graph.byteSize ref with
        | error fault => exact .inr ⟨fault, rfl⟩
        | ok size => exact .inl ⟨size, rfl⟩
  rw [exec_bind]
  rcases hsize with ⟨size, hsize⟩ | ⟨fault, hfault⟩
  · rw [hsize]
    exact hf size
  · rw [hfault]
    exact hnone fault

end Closing

-- ------------------------------------------------------------------------------------------------
-- The course of an entry
-- ------------------------------------------------------------------------------------------------

end TypeGraph

-- ---------------------------------------------------------------------------
-- The type that an entry turns to
-- ---------------------------------------------------------------------------

/-- The one type that an entry needs, if it is no composite with members. An enumeration does not
come to it if its enumerators cannot be read. -/
def Store.passage? (store : Store) (e : Entry) : Option Int :=
  if e.tag.isAlias then e.typeRef?
  else if e.tag.isPointer then none
  else if e.tag.isComposite then store.completion? e
  else if e.tag = Tag.enumerationType then
    match TypeGraph.enumeratorsOf e.children with
    | .ok _ => e.typeRef?
    | .error _ => none
  else if e.tag = Tag.arrayType then e.typeRef?
  else none

namespace Store

variable {store : Store} {e : Entry} {ref needed : Int}

/-- A typedef or a qualified type turns to its target. -/
theorem passage?_of_isAlias (htag : e.tag.isAlias = true) : store.passage? e = e.typeRef? := by
  rw [passage?, if_pos htag]

/-- An array turns to the type of its elements. -/
theorem passage?_of_array (htag : e.tag = Tag.arrayType) : store.passage? e = e.typeRef? := by
  simp only [passage?, htag]
  rfl

/-- An enumeration whose enumerators can be read turns to its underlying type. -/
theorem passage?_of_enum {enumerators : List (String × Int)} (htag : e.tag = Tag.enumerationType)
    (h : TypeGraph.enumeratorsOf e.children = .ok enumerators) :
    store.passage? e = e.typeRef? := by
  simp only [passage?, htag, h]
  rfl

/-- One whose enumerators cannot be read is refused before it turns to any type. -/
theorem passage?_of_enum_error {cause : Malformation} (htag : e.tag = Tag.enumerationType)
    (h : TypeGraph.enumeratorsOf e.children = .error cause) : store.passage? e = none := by
  simp only [passage?, htag, h]
  rfl

/-- The only type that an enumeration can turn to is its underlying type. -/
theorem typeRef?_of_passage? (htag : e.tag = Tag.enumerationType)
    (h : store.passage? e = some needed) : e.typeRef? = some needed := by
  cases henumerators : TypeGraph.enumeratorsOf e.children with
  | ok enumerators => exact (passage?_of_enum htag henumerators).symm.trans h
  | error cause =>
    rw [passage?_of_enum_error htag henumerators] at h
    exact absurd h (by simp)

/-- A base type needs no other type. -/
theorem passage?_of_baseType (htag : e.tag = Tag.baseType) : store.passage? e = none := by
  simp only [passage?, htag]
  rfl

/-- A composite that is only declared turns to its definition, and any other one to nothing. -/
theorem passage?_of_isComposite (htag : e.tag.isComposite = true) :
    store.passage? e = store.completion? e := by
  have halias : ¬ e.tag.isAlias = true := by simp [Tag.isAlias_of_isComposite htag]
  have hpointer : ¬ e.tag.isPointer = true := by simp [Tag.isPointer_of_isComposite htag]
  rw [passage?, if_neg halias, if_neg hpointer, if_pos htag]

/-- The type that an entry turns to is one that it needs by value. -/
theorem needs_of_passage? (he : store.entry? ref = some e) (h : store.passage? e = some needed) :
    store.Needs ref needed := by
  unfold passage? at h
  split at h
  · exact .target he ‹_› h
  · split at h
    · exact absurd h (by simp)
    · split at h
      · exact .definition he ‹_› h
      · split at h
        · split at h
          · exact .underlying he ‹_› h
          · exact absurd h (by simp)
        · split at h
          · exact .element he ‹_› h
          · exact absurd h (by simp)

/-- A composite with members turns to no type before it has its placeholder. -/
theorem not_isBody_of_passage? (he : store.entry? ref = some e)
    (h : store.passage? e = some needed) : ¬ store.IsBody ref := by
  refine not_isBody he fun htag hcompletion => ?_
  rw [passage?_of_isComposite htag, hcompletion] at h
  exact absurd h (by simp)

end Store

/-- A state in which the type that an entry needs is being built: aliases are being followed. -/
def BuildState.begun (s : BuildState) (e : Entry) : BuildState :=
  if e.tag.isAlias then s.entering e.ref else s

/-- A state after the type that an entry needs was built. -/
def BuildState.ended (s : BuildState) (e : Entry) : BuildState :=
  if e.tag.isAlias then s.leaving e.ref else s

namespace BuildState

variable {store : Store} {s t : BuildState} {e : Entry} {ref : Int} {g : TypeGraph}

@[simp] theorem graph_begun : (s.begun e).graph = s.graph := by
  unfold begun
  split <;> rfl

@[simp] theorem graph_ended : (s.ended e).graph = s.graph := by
  unfold ended
  split <;> rfl

@[simp] theorem failures_begun : (s.begun e).failures = s.failures := by
  unfold begun
  split <;> rfl

@[simp] theorem failures_ended : (s.ended e).failures = s.failures := by
  unfold ended
  split <;> rfl

/-- A state stays coherent when an entry is marked as being followed, unless it is a composite with
members. -/
theorem Coherent.begun (hs : s.Coherent store) (hbody : ¬ store.IsBody e.ref) :
    (s.begun e).Coherent store := by
  unfold BuildState.begun
  split
  · refine ⟨hs.graph, fun other hother => ?_, hs.faults, hs.failures⟩
    rcases List.mem_insert_iff.1 hother with rfl | hother
    · exact hbody
    · exact hs.following other hother
  · exact hs

/-- What surrounds a type does not depend on the entries that are being followed. -/
theorem Surrounds.begun (hs : s.Surrounds store ref) : (s.begun e).Surrounds store ref := by
  intro outer houter
  rw [graph_begun] at houter
  exact hs outer houter

/-- Where an entry may be built, the type that it needs may be built for it. -/
theorem Coherent.passage {needed : Int} (hs : s.Coherent store)
    (hsurrounds : s.Surrounds store e.ref) (he : store.entry? e.ref = some e)
    (h : store.passage? e = some needed) :
    (s.begun e).Coherent store ∧ (s.begun e).Surrounds store needed :=
  ⟨hs.begun (Store.not_isBody_of_passage? he h),
    (hsurrounds.needed (Store.needs_of_passage? he h)).begun⟩

/-- The building of the type that an entry needs is part of that of the entry. -/
theorem Run.ended (hbody : ¬ store.IsBody e.ref) (h : Run store e.ref (s.begun e) t) :
    Run store e.ref s (t.ended e) := by
  unfold BuildState.begun at h
  unfold BuildState.ended
  split at h
  · rename_i htag
    rw [if_pos htag]
    exact .followed hbody h
  · rename_i htag
    rwa [if_neg htag]

/-- A composite whose members are to be read has a placeholder. -/
theorem Coherent.addPlaceholder (hs : s.Coherent store) (hbody : store.IsBody ref)
    (h : s.graph.addPlaceholder ref = .ok g) :
    ({ s with graph := g } : BuildState).Coherent store ∧ g.hasPlaceholder ref = true := by
  have hcoherent := hs.graph.addPlaceholder hbody h
  obtain ⟨-, rfl⟩ := TypeGraph.addPlaceholder_eq_ok h
  refine ⟨hs.withGraph hcoherent rfl, ?_⟩
  rw [TypeGraph.hasPlaceholder_insert_node, if_pos rfl]
  rfl

/-- The other placeholders are still there then. -/
theorem hasPlaceholder_addPlaceholder {other : Int} (h : s.graph.addPlaceholder ref = .ok g)
    (hother : s.graph.hasPlaceholder other = true) :
    other ≠ ref ∧ g.hasPlaceholder other = true := by
  obtain ⟨hnew, rfl⟩ := TypeGraph.addPlaceholder_eq_ok h
  have hne : other ≠ ref := by
    rintro rfl
    obtain ⟨node, hnode, -⟩ := TypeGraph.hasPlaceholder_iff.1 hother
    rw [(TypeGraph.has_eq_false_iff.1 hnew).2] at hnode
    exact absurd hnode (by simp)
  refine ⟨hne, ?_⟩
  rwa [TypeGraph.hasPlaceholder_insert_node, if_neg hne.symm]

end BuildState

namespace TypeGraph

open Build

/-- Whether the type that an entry needs is not built, because an alias would be followed round. -/
def IsCut (e : Entry) (s : BuildState) (needed : Int) : Prop :=
  e.tag.isAlias = true ∧ (needed ∈ s.following ∨ needed = e.ref)

/-- The course of the building of an entry that is not in the graph yet. -/
inductive Frame (store : Store) (recurse : Recurse) (e : Entry) (s : BuildState) :
    Except BuildStop Unit × BuildState → Prop
  | alone {result : Except BuildStop Unit × BuildState} (hbody : ¬ store.IsBody e.ref)
      (hcut : ∀ needed, store.passage? e = some needed → IsCut e s needed)
      (hclosing : Closing e s result) : Frame store recurse e s result
  | failed {needed : Int} {stop : BuildStop} {t : BuildState}
      (hpassage : store.passage? e = some needed) (huncut : ¬ IsCut e s needed)
      (h : (recurse needed (some e.ref)).exec (s.begun e) = (.error stop, t)) :
      Frame store recurse e s (.error stop, t.ended e)
  | built {needed : Int} {t : BuildState} {result : Except BuildStop Unit × BuildState}
      (hpassage : store.passage? e = some needed) (huncut : ¬ IsCut e s needed)
      (h : (recurse needed (some e.ref)).exec (s.begun e) = (.ok (), t))
      (hclosing : Closing e (t.ended e) result) : Frame store recurse e s result
  | abandoned {g : TypeGraph} {stop : BuildStop} {t : BuildState} (hbody : store.IsBody e.ref)
      (hplaceholder : s.graph.addPlaceholder e.ref = .ok g)
      (hcourse : Course recurse (store.Needs e.ref) { s with graph := g } (some stop) t) :
      Frame store recurse e s (.error stop, { t with graph := t.graph.discardPlaceholder e.ref })
  | filled {g g' : TypeGraph} {node : TypeNode} {t : BuildState} (hbody : store.IsBody e.ref)
      (hplaceholder : s.graph.addPlaceholder e.ref = .ok g)
      (hcourse : Course recurse (store.Needs e.ref) { s with graph := g } none t)
      (hnode : node.ref = e.ref) (hreal : node.isPlaceholder = false)
      (hfill : t.graph.fillPlaceholder node = .ok g') :
      Frame store recurse e s (.ok (), { t with graph := g' })

section Frame

variable {store : Store} {recurse : Recurse} {e : Entry} {s : BuildState}

/-- An alias is no composite with members. -/
theorem not_isBody_of_isAlias (he : store.entry? e.ref = some e) (htag : e.tag.isAlias = true) :
    ¬ store.IsBody e.ref :=
  Store.not_isBody he fun h => by
    rw [Tag.isComposite_of_isAlias htag] at h
    exact absurd h (by decide)

/-- A typedef or a qualified type is added as an alias once its target is built. One that is
followed in a circle is cut, and stays alone. -/
theorem frame_buildAlias (he : store.entry? e.ref = some e) (htag : e.tag.isAlias = true) :
    Frame store recurse e s ((buildAlias recurse e).exec s) := by
  have hbody := not_isBody_of_isAlias he htag
  have hsuits : ∀ g, Suits e g := fun _ => suits_of_kind htag rfl rfl
  have hpassage : store.passage? e = e.typeRef? := Store.passage?_of_isAlias htag
  unfold buildAlias
  extract_lets name
  cases htarget : e.typeRef? with
  | none =>
    refine .alone hbody (fun needed h => ?_) (closing_addNode (hsuits _) rfl)
    rw [hpassage, htarget] at h
    exact absurd h (by simp)
  | some target =>
    rw [htarget] at hpassage
    rw [exec_bind]
    show Frame store recurse e s (exec (if _ then _ else _) s)
    split
    · -- a round is reported, and no target is built
      rename_i hround
      rw [exec_bind, exec_dangling]
      refine .alone hbody (fun needed h => ?_) (.noted _)
      obtain rfl := Option.some.inj (hpassage.symm.trans h)
      simpa [IsCut, htag] using hround
    · rename_i hround
      -- no round: the target is built while the alias is being followed
      have huncut : ¬ IsCut e s target := by
        rintro ⟨-, hcut⟩
        exact hround (by simpa using hcut)
      rw [exec_following e.ref (recurse target (some e.ref))
        (fun _ => update (·.addAlias e.ref target name))]
      rcases hexec : (recurse target (some e.ref)).exec (s.entering e.ref) with ⟨outcome, t⟩
      have hbegun : s.begun e = s.entering e.ref := if_pos htag
      have hended : t.ended e = t.leaving e.ref := if_pos htag
      rw [← hbegun] at hexec
      cases outcome with
      | error stop =>
        show Frame store recurse e s (.error stop, t.leaving e.ref)
        rw [← hended]
        exact .failed hpassage huncut hexec
      | ok a =>
        refine .built hpassage huncut hexec ?_
        rw [hended]
        exact closing_addAlias (hsuits _)

/-- The course of an entry, other than an alias, that turns to the type it needs. -/
theorem frame_needed {needed : Int} {f : Unit → Build Unit} (htag : e.tag.isAlias = false)
    (hpassage : store.passage? e = some needed)
    (hf : ∀ t, Closing e t ((f ()).exec t)) :
    Frame store recurse e s ((recurse needed (some e.ref) >>= f).exec s) := by
  -- only what aliases stand for is ever cut off
  have huncut : ¬ IsCut e s needed := by
    rintro ⟨halias, -⟩
    rw [htag] at halias
    exact absurd halias (by decide)
  have hbegun : s.begun e = s := if_neg (by rw [htag]; decide)
  have hended : ∀ t : BuildState, t.ended e = t := fun t => if_neg (by rw [htag]; decide)
  rw [exec_bind]
  rcases hexec : (recurse needed (some e.ref)).exec s with ⟨outcome, t⟩
  rw [← hbegun] at hexec
  cases outcome with
  | error stop =>
    have hframe := Frame.failed hpassage huncut hexec
    rwa [hended] at hframe
  | ok a =>
    refine .built hpassage huncut hexec ?_
    rw [hended]
    exact hf t

/-- The course of an entry that needs no type. -/
theorem frame_alone {result : Except BuildStop Unit × BuildState} (hbody : ¬ store.IsBody e.ref)
    (hpassage : store.passage? e = none) (hclosing : Closing e s result) :
    Frame store recurse e s result := by
  refine .alone hbody (fun needed h => ?_) hclosing
  rw [hpassage] at h
  exact absurd h (by simp)

-- ---------------------------------------------------------------------------
-- The kinds of types
-- ---------------------------------------------------------------------------

/-- A pointer needs no type. It looks its target up to tell whether that is a function. -/
theorem closing_buildPointer (target : Target) (hsuits : ∀ g, Suits e g) :
    Closing e s ((buildPointer store target e).exec s) := by
  unfold buildPointer
  extract_lets size jp
  have hadd : ∀ isFunction, Closing e s ((jp isFunction).exec s) :=
    fun isFunction => closing_addNode (hsuits _) rfl
  split
  · exact closing_looksUp (looksUp_pure _) hadd
  · refine closing_looksUp (looksUp_entry _ _) fun pointed => ?_
    refine closing_looksUp (looksUp_peel _ _ _) fun bare => ?_
    exact closing_looksUp (looksUp_pure _) hadd

/-- A base type is added with its encoding, if it has a size and the encoding is known. -/
theorem closing_buildBaseType (htag : e.tag = Tag.baseType) (hsuits : ∀ g, Suits e g) :
    Closing e s ((buildBaseType e).exec s) := by
  unfold buildBaseType
  split
  · exact closing_cause trivial (.baseType htag)
  · exact closing_ofExcept (blames_encodingOf e) (fun _ _ => .baseType htag) fun encoding _ =>
      closing_addNode (hsuits _) rfl

/-- A signature is added once its result and its parameters are found among the entries. -/
theorem closing_buildSignature (hsuits : ∀ g, Suits e g) :
    Closing e s ((buildSignature store e).exec s) := by
  unfold buildSignature
  extract_lets isVariadic jp
  have hjp : ∀ u, Closing e s ((jp u).exec s) := fun u =>
    closing_looksUp (looksUp_parametersOf _) fun _ => closing_addNode (hsuits _) rfl
  split
  · exact closing_looksUp ((looksUp_entry _ _).map _) hjp
  · exact hjp ()

/-- An enumeration is refused for its enumerators, or turns to its underlying type first and takes
its size and its sign from there. -/
theorem frame_buildEnum (htag : e.tag = Tag.enumerationType) (hbody : ¬ store.IsBody e.ref) :
    Frame store recurse e s ((buildEnum recurse e).exec s) := by
  have halias : e.tag.isAlias = false := by rw [htag]; decide
  have harray : e.tag ≠ Tag.arrayType := by rw [htag]; decide
  unfold buildEnum
  rw [exec_bind]
  cases henumerators : enumeratorsOf e.children with
  | error cause =>
    exact frame_alone hbody (Store.passage?_of_enum_error htag henumerators)
      (.refused (blames_enumeratorsOf _ cause henumerators) fun _ _ => .enum htag)
  | ok enumerators =>
    have hpassage : store.passage? e = e.typeRef? := Store.passage?_of_enum htag henumerators
    show Frame store recurse e s (exec _ s)
    extract_lets jp
    -- with the underlying type there, what remains is the entry's own
    have hjp : ∀ t underlying, Suits e t.graph → Closing e t ((jp underlying).exec t) := by
      rintro t ⟨underlying, size⟩ hsuits
      dsimp only [jp]
      split
      · exact closing_cause trivial (.enum htag)
      · exact closing_ofExcept (blames_enumDataType _ _ _ _) (fun _ _ => .enum htag)
          fun type _ => closing_addNode hsuits rfl
    cases htype : e.typeRef? with
    | none =>
      rw [htype] at hpassage
      refine frame_alone hbody hpassage (closing_looksUp (looksUp_pure _) fun underlying => ?_)
      refine hjp s underlying ⟨fun h => absurd h harray, fun _ type h => ?_⟩
      rw [htype] at h
      exact absurd h (by simp)
    | some type =>
      rw [htype] at hpassage
      refine frame_needed halias hpassage fun t => closing_lookup fun node hnode => ?_
      refine closing_looksUp (looksUp_pure _) fun underlying => ?_
      refine hjp t underlying ⟨fun h => absurd h harray, fun _ other h => ?_⟩
      obtain rfl := Option.some.inj (htype.symm.trans h)
      exact ⟨node, hnode⟩

/-- An array turns to the type of its elements. Its bounds and its stride are read afterwards. -/
theorem frame_buildArray (htag : e.tag = Tag.arrayType) (hbody : ¬ store.IsBody e.ref) :
    Frame store recurse e s ((buildArray recurse e).exec s) := by
  have halias : e.tag.isAlias = false := by rw [htag]; decide
  have hpassage : store.passage? e = e.typeRef? := Store.passage?_of_array htag
  unfold buildArray
  cases htype : e.typeRef? with
  | none =>
    rw [htype] at hpassage
    refine frame_alone hbody hpassage (closing_cause trivial (.array htag fun h => ?_))
    -- an array without elements is not readable
    obtain ⟨element, helement⟩ := h.element
    rw [htype] at helement
    exact absurd helement (by simp)
  | some element =>
    rw [htype] at hpassage
    refine frame_needed halias hpassage fun t => ?_
    refine closing_ofExcept (blames_dimensionsOf e) (fun cause hcause => .array htag fun h => ?_)
      fun dims hdims => ?_
    · obtain ⟨dims, hdims⟩ := h.dims
      rw [hdims] at hcause
      exact absurd hcause (by simp)
    extract_lets jp
    -- an array whose attributes could be read suits the graph
    have hjp : ∀ explicit, IsReadable e → Closing e t ((jp explicit).exec t) := by
      intro explicit hreadable
      have hsuits : Suits e t.graph :=
        ⟨fun _ => hreadable, fun h => absurd (htag.symm.trans h) (by decide)⟩
      cases explicit with
      | none => exact closing_sizeSoFar fun size => closing_addNode hsuits rfl
      | some stride => exact closing_looksUp (looksUp_pure _) fun _ => closing_addNode hsuits rfl
    split
    · rename_i hstride
      refine closing_looksUp (looksUp_pure _) fun explicit => hjp explicit ?_
      refine ⟨⟨element, htype⟩, ⟨dims, hdims⟩, fun h => ?_⟩
      rw [hstride] at h
      exact absurd h (by simp)
    · rename_i hstride
      refine closing_ofExcept (e.blames_intAttr? _) (fun cause hcause => .array htag fun h => ?_)
        fun stride hvalue => hjp stride ⟨⟨element, htype⟩, ⟨dims, hdims⟩, fun _ => ⟨stride, hvalue⟩⟩
      obtain ⟨stride, hvalue⟩ := h.stride (by rw [hstride]; rfl)
      rw [hvalue] at hcause
      exact absurd hcause (by simp)

-- ---------------------------------------------------------------------------
-- Composites
-- ---------------------------------------------------------------------------

/-- What the building of a composite under its placeholder comes to. -/
inductive Attempt (recurse : Recurse) (needs : Int → Prop) (ref : Int) (s : BuildState) :
    Except BuildStop Unit × BuildState → Prop
  | stopped {stop : BuildStop} {t : BuildState} (hcourse : Course recurse needs s (some stop) t) :
      Attempt recurse needs ref s (.error stop, t)
  | unfilled {fault : ArenaFault} {t : BuildState} (hcourse : Course recurse needs s none t)
      (hlost : t.graph.hasPlaceholder ref = false) :
      Attempt recurse needs ref s (.error (.cause (.arena fault)), t)
  | filled {t : BuildState} {node : TypeNode} {g : TypeGraph}
      (hcourse : Course recurse needs s none t) (hnode : node.ref = ref)
      (hreal : node.isPlaceholder = false) (hfill : t.graph.fillPlaceholder node = .ok g) :
      Attempt recurse needs ref s (.ok (), { t with graph := g })

/-- What comes before an attempt prolongs its course. -/
theorem attempt_bind {α : Type} {needs : Int → Prop} {ref : Int} {x : Build α}
    {f : α → Build Unit} (hx : Courses recurse needs x)
    (hf : ∀ a t, Attempt recurse needs ref t ((f a).exec t)) (s : BuildState) :
    Attempt recurse needs ref s ((x >>= f).exec s) := by
  have hcourse := hx s
  rw [exec_bind]
  rcases hexec : x.exec s with ⟨outcome, t⟩
  rw [hexec] at hcourse
  cases outcome with
  | error stop => exact .stopped hcourse
  | ok a =>
    show Attempt recurse needs ref s ((f a).exec t)
    generalize hresult : (f a).exec t = result
    -- a course in front of an attempt is part of its course
    cases hresult ▸ hf a t with
    | stopped hrest => exact .stopped (hcourse.trans hrest)
    | unfilled hrest hlost => exact .unfilled (hcourse.trans hrest) hlost
    | filled hrest hnode hreal hfill => exact .filled (hcourse.trans hrest) hnode hreal hfill

/-- The last step of a composite puts the node in the place of the placeholder, if that is still
there. -/
theorem attempt_fillPlaceholder {needs : Int → Prop} (node : TypeNode)
    (hreal : node.isPlaceholder = false) (s : BuildState) :
    Attempt recurse needs node.ref s ((update (·.fillPlaceholder node)).exec s) := by
  rw [exec_update]
  cases hfill : s.graph.fillPlaceholder node with
  | ok g => exact .filled (.ended s) rfl hreal hfill
  | error fault =>
    refine .unfilled (.ended s) ?_
    unfold fillPlaceholder at hfill
    split at hfill
    · exact absurd hfill (by simp)
    · rename_i hlost
      simpa using hlost

/-- A composite with members takes its course under the placeholder. It always finds the placeholder
again, since nothing that it needs takes it away. -/
theorem frame_buildBody (hrec : Builds store recurse) (target : Target)
    (he : store.entry? e.ref = some e) (htag : e.tag.isComposite = true)
    (hcompletion : store.completion? e = none) (hcoherent : s.Coherent store)
    (hsurrounds : s.Surrounds store e.ref) (hnew : s.graph.has e.ref = false) :
    Frame store recurse e s ((buildBody recurse target e).exec s) := by
  have hbody : store.IsBody e.ref := ⟨e, he, htag, hcompletion⟩
  have hplaceholder : s.graph.addPlaceholder e.ref =
      .ok { s.graph with nodes := s.graph.nodes.insert e.ref (placeholder e.ref) } := by
    rw [addPlaceholder, if_neg (by rw [hnew]; decide)]
  unfold buildBody
  extract_lets inUnion kind
  rw [exec_bind, exec_update, hplaceholder]
  simp only [exec_tryCatch]
  obtain ⟨hinner, hplaced⟩ := hcoherent.addPlaceholder hbody hplaceholder
  have hwithin := hsurrounds.addPlaceholder hplaceholder
  generalize hbegun : ({ s with graph := _ } : BuildState) = begun at hinner hwithin ⊢
  have hplaced : begun.graph.hasPlaceholder e.ref = true := by
    rw [← hbegun]
    exact hplaced
  generalize hresult : Build.exec (_ >>= _) begun = result
  -- from the placeholder on, the members are built and the placeholder is filled
  have hattempt : Attempt recurse (store.Needs e.ref) e.ref begun result := by
    rw [← hresult]
    refine attempt_bind (courses_buildMembers target inUnion e.children ?_) (fun members t => ?_) _
    · exact fun c hc hstored type htype => .member he htag hcompletion hc hstored htype
    · have hfill : ∀ size t, Attempt recurse (store.Needs e.ref) e.ref t
          ((update (·.fillPlaceholder ⟨e.ref, e.name?,
            .composite kind size members (e.tag = Tag.classType)⟩)).exec t) :=
        fun size t => attempt_fillPlaceholder
          ⟨e.ref, e.name?, .composite kind size members (e.tag = Tag.classType)⟩ rfl t
      split
      · exact attempt_bind (courses_pure _) hfill t
      · split
        · exact attempt_bind (courses_pure _) hfill t
        · exact attempt_bind (courses_of_glances ((glances_deducedSize _ _ _).map _)) hfill t
  subst hbegun
  cases hattempt with
  | stopped hcourse => exact .abandoned hbody hplaceholder hcourse
  | unfilled hcourse hlost =>
    -- the placeholder cannot have been lost in between
    have hkept := (hcourse.run hrec hinner hwithin).keepsPlaceholder hbody hplaced
    rw [hlost] at hkept
    exact absurd hkept (by decide)
  | filled hcourse hnode hreal hfill => exact .filled hbody hplaceholder hcourse hnode hreal hfill

/-- A composite that is only declared becomes an alias of its definition; any other one is built
under a placeholder. -/
theorem frame_buildComposite (hrec : Builds store recurse) (target : Target)
    (he : store.entry? e.ref = some e) (htag : e.tag.isComposite = true)
    (hcoherent : s.Coherent store) (hsurrounds : s.Surrounds store e.ref)
    (hnew : s.graph.has e.ref = false) :
    Frame store recurse e s ((buildComposite recurse store target e).exec s) := by
  unfold buildComposite
  split
  · rename_i definition hdefinition
    have hpassage : store.passage? e = some definition :=
      (Store.passage?_of_isComposite htag).trans hdefinition
    exact frame_needed (Tag.isAlias_of_isComposite htag) hpassage fun t =>
      closing_addAlias (suits_of_kind htag rfl rfl)
  · rename_i hcompletion
    exact frame_buildBody hrec target he htag hcompletion hcoherent hsurrounds hnew

/-- Every entry that is not in the graph yet takes its course, whatever the way to build the types
that it needs is. -/
theorem frame_buildEntry (hrec : Builds store recurse) (target : Target)
    (he : store.entry? e.ref = some e) (hcoherent : s.Coherent store)
    (hsurrounds : s.Surrounds store e.ref) (hnew : s.graph.has e.ref = false) :
    Frame store recurse e s ((buildEntry recurse store target e).exec s) := by
  unfold buildEntry
  split
  · rename_i htag
    exact frame_buildAlias he htag
  rename_i halias
  split
  · rename_i htag
    have hbody : ¬ store.IsBody e.ref := Store.not_isBody he fun h => by
      rw [Tag.isComposite_of_isPointer htag] at h
      exact absurd h (by decide)
    refine frame_alone hbody ?_ (closing_buildPointer target fun _ => suits_of_kind htag rfl rfl)
    rw [Store.passage?, if_neg halias, if_pos htag]
  rename_i hpointer
  split
  · rename_i htag
    exact frame_buildComposite hrec target he htag hcoherent hsurrounds hnew
  rename_i hcomposite
  have hbody : ¬ store.IsBody e.ref := Store.not_isBody he fun h => absurd h hcomposite
  -- the further kinds need no other type, apart from enumerations and arrays
  have hpassage : e.tag ≠ Tag.enumerationType → e.tag ≠ Tag.arrayType →
      store.passage? e = none := by
    intro henum harray
    rw [Store.passage?, if_neg halias, if_neg hpointer, if_neg hcomposite, if_neg henum,
      if_neg harray]
  split
  · rename_i htag
    have henum : e.tag ≠ Tag.enumerationType := by rw [htag]; decide
    have harray : e.tag ≠ Tag.arrayType := by rw [htag]; decide
    exact frame_alone hbody (hpassage henum harray)
      (closing_buildBaseType htag fun _ => suits_of_ne harray henum)
  split
  · rename_i htag
    exact frame_buildEnum htag hbody
  rename_i henum
  split
  · rename_i htag
    exact frame_buildArray htag hbody
  rename_i harray
  split
  · exact frame_alone hbody (hpassage henum harray)
      (closing_buildSignature fun _ => suits_of_ne harray henum)
  · exact frame_alone hbody (hpassage henum harray)
      (closing_addNode (suits_of_ne harray henum) rfl)

-- ---------------------------------------------------------------------------
-- References
-- ---------------------------------------------------------------------------

/-- What the building of one type comes to: nothing if it is there or was left out before, and
otherwise what becomes of its entry. -/
inductive Turn (store : Store) (recurse : Recurse) (ref : Int) (s : BuildState) :
    Except BuildStop Unit × BuildState → Prop
  | there (hhas : s.graph.has ref = true) : Turn store recurse ref s (.ok (), s)
  | known {fault : TypeFault} (hnew : s.graph.has ref = false)
      (hfault : s.failures.get? ref = some fault) :
      Turn store recurse ref s (.error (.type fault), s)
  | missing {usedBy : Option Int} (hnew : s.graph.has ref = false)
      (he : store.entry? ref = none) :
      Turn store recurse ref s
        (.error (.type (.dangling ⟨ref, usedBy⟩)), s.noted (.dangling ⟨ref, usedBy⟩))
  | entry {e : Entry} {result : Except BuildStop Unit × BuildState}
      (hnew : s.graph.has ref = false) (hunknown : s.failures.get? ref = none)
      (he : store.entry? ref = some e) (hframe : Frame store recurse e s result) :
      Turn store recurse ref s (concluded ref result)

/-- The building of a type turns to its entry only if the type is neither there nor left out. -/
theorem turn_buildRef (target : Target) (depth : Nat) {ref : Int} (usedBy : Option Int)
    (hcoherent : s.Coherent store) (hsurrounds : s.Surrounds store ref) :
    Turn store (buildRef store target depth) ref s
      ((buildRef store target (depth + 1) ref usedBy).exec s) := by
  rw [exec_buildRef]
  split
  · exact .there ‹_›
  · rename_i hnew
    have hnew : s.graph.has ref = false := Bool.eq_false_iff.2 hnew
    cases hfault : s.failures.get? ref with
    | some fault => exact .known hnew hfault
    | none =>
      cases he : store.entry? ref with
      | none => exact .missing hnew he
      | some e =>
        obtain rfl := Store.entry?_ref he
        exact .entry hnew hfault he
          (frame_buildEntry (runs_buildRef store target depth) target he hcoherent hsurrounds hnew)

/-- Only a building without any depth left stops without saying which type is left out. -/
theorem buildRef_eq_cause {target : Target} {depth : Nat} {ref : Int} {usedBy : Option Int}
    {cause : Malformation}
    (h : ((buildRef store target depth ref usedBy).exec s).1 = .error (.cause cause)) :
    depth = 0 ∧ cause = .endless := by
  cases depth with
  | zero => exact ⟨rfl, (BuildStop.cause.inj (Except.error.inj h)).symm⟩
  | succ depth =>
    rw [exec_buildRef] at h
    split at h
    · exact absurd h (by simp)
    · split at h
      · exact absurd h (by simp)
      · split at h
        · exact absurd h (by simp)
        · rename_i e _
          rcases hresult : (buildEntry (buildRef store target depth) store target e).exec s
            with ⟨outcome, t⟩
          rw [hresult] at h
          -- an entry concludes with a fault of its own
          cases outcome <;> exact absurd h (by simp [concluded])

end Frame

end TypeGraph

end DebugLayout
