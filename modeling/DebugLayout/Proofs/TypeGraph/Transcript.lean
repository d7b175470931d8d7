import DebugLayout.Proofs.TypeGraph.Contents

/-!
# DebugLayout — the graph as a transcript of the entries

Typedefs and qualifiers are followed twice: on the entries, to tell pointers to functions from
others before the types they point to are built, and on the aliases of the finished graph. The two
ways agree because a graph is a **transcript** of its store at all times: an alias stands for what
its entry stands for, under the name of a typedef, and a node has been made from an entry that
stands for itself. Each step of the building keeps this, whether it ends or stops.

That something stands at the end of the aliases was read from the last entry of the chain is shown
by following both at once. Each step of the aliases is a step of the chain, since both come from the
same entry.

* `TypeNode.Transcribes`, `TypeGraph.Transcribes`: nodes and graphs that say what their entries say;
* `TypeGraph.transcribes_of_readFrom`, `transcribes_buildWithin`: what is read transcribes, and so
  does the graph;
* `TypeGraph.Transcribes.leads_of_follow`: aliases go down the chain of the entries;
* `TypeGraph.aliases_agree`: references, names and pointers to functions agree with the entries.
-/

namespace DebugLayout

/-- Whether a type is the signature of a function. -/
def TypeBody.isSignature : TypeBody → Bool
  | .signature .. => true
  | _ => false

/-- Whether a node says what its entry says: that it stands for itself, its name if it is a typedef,
whether it is a function, and of a pointer whether it leads to one. -/
structure TypeNode.Transcribes (store : Store) (e : Entry) (node : TypeNode) : Prop where
  last : store.standsFor? e = none
  name : ∀ name, e.typedefName? = some name → node.name = some name
  signature : node.body.isSignature = true ↔ e.tag = Tag.subroutineType
  pointer : ∀ pointee size isFunction isReference,
    node.body = .pointer (some pointee) size isFunction isReference →
    ∀ passed last, store.Leads pointee passed last →
      (isFunction = true ↔ last.tag = Tag.subroutineType)

namespace TypeGraph

open Build

/-- Whether the aliases and the nodes of a graph, other than placeholders, say what their entries
say. -/
structure Transcribes (store : Store) (g : TypeGraph) : Prop where
  synonym : ∀ ref target, g.aliases.get? ref = some target → ∃ e, store.entry? ref = some e ∧
    store.standsFor? e = some target ∧ g.typedefNames.get? ref = e.typedefName?
  named : ∀ ref name, g.typedefNames.get? ref = some name → g.isAlias ref = true
  node : ∀ ref node, g.nodes.get? ref = some node → node.isPlaceholder = false →
    ∃ e, store.entry? ref = some e ∧ node.Transcribes store e

variable {store : Store} {g g' : TypeGraph} {node : TypeNode} {ref : Int} {e : Entry}

/-- The empty graph says nothing that its entries do not say. -/
theorem transcribes_empty (store : Store) : Transcribes store .empty where
  synonym _ _ h := absurd h (by simp [empty])
  named _ _ h := absurd h (by simp [empty])
  node _ _ h := absurd h (by simp [empty])

-- ---------------------------------------------------------------------------
-- The operations on the arena
-- ---------------------------------------------------------------------------

/-- Nodes may go away, and what is on record does not count. -/
theorem Transcribes.of_nodes (hg : g.Transcribes store) (haliases : g'.aliases = g.aliases)
    (hnames : g'.typedefNames = g.typedefNames)
    (hnodes : ∀ ref node, g'.nodes.get? ref = some node → g.nodes.get? ref = some node) :
    g'.Transcribes store where
  synonym := by
    rw [haliases, hnames]
    exact hg.synonym
  named := by
    rw [hnames]
    unfold isAlias
    rw [haliases]
    exact hg.named
  node ref node hnode := hg.node ref node (hnodes ref node hnode)

/-- A node that says what its entry says may be put into the graph, and so may any placeholder. -/
theorem Transcribes.insert_node (hg : g.Transcribes store)
    (hnode : node.isPlaceholder = false →
      ∃ e, store.entry? node.ref = some e ∧ node.Transcribes store e) :
    ({ g with nodes := g.nodes.insert node.ref node } : TypeGraph).Transcribes store where
  synonym := hg.synonym
  named := hg.named
  node ref found hfound hreal := by
    rw [OrderedMap.get?_insert] at hfound
    split at hfound
    · rename_i href
      obtain rfl := Option.some.inj hfound
      rw [← href]
      exact hnode hreal
    · exact hg.node ref found hfound hreal

theorem Transcribes.addPlaceholder (hg : g.Transcribes store)
    (h : g.addPlaceholder ref = .ok g') : g'.Transcribes store := by
  obtain ⟨-, rfl⟩ := addPlaceholder_eq_ok h
  have hplaceholder : (placeholder ref).isPlaceholder = true := rfl
  have hplaced := @insert_node store g (placeholder ref) hg
  refine hplaced fun hreal => ?_
  rw [hplaceholder] at hreal
  exact absurd hreal (by decide)

theorem Transcribes.discardPlaceholder (hg : g.Transcribes store) (ref : Int) :
    (g.discardPlaceholder ref).Transcribes store := by
  refine hg.of_nodes discardPlaceholder_aliases ?_ fun other node hnode => ?_
  · unfold TypeGraph.discardPlaceholder
    split <;> rfl
  · rw [get?_discardPlaceholder] at hnode
    split at hnode
    · exact absurd hnode (by simp)
    · exact hnode

/-- An alias that is added has its name, if it is given one. -/
theorem get?_typedefNames_of_addAlias {target : Int} {name : Option String}
    (h : g.addAlias ref target name = .ok g') (other : Int) :
    g'.typedefNames.get? other =
      if ref = other then name.or (g.typedefNames.get? other) else g.typedefNames.get? other := by
  unfold TypeGraph.addAlias at h
  split at h
  · exact absurd h (by simp)
  obtain rfl := Except.ok.inj h
  cases name with
  | none => simp
  | some name => exact OrderedMap.get?_insert ..

/-- An alias may be added for an entry that stands for its target, under the name that the entry
gives. -/
theorem Transcribes.addAlias {target : Int} (hg : g.Transcribes store)
    (he : store.entry? ref = some e) (hstands : store.standsFor? e = some target)
    (h : g.addAlias ref target e.typedefName? = .ok g') : g'.Transcribes store := by
  obtain ⟨hnew, hnodes, haliases, -⟩ := addAlias_eq_ok h
  -- only aliases have names, and there was none under the reference
  have hunnamed : g.typedefNames.get? ref = none := by
    by_contra hname
    obtain ⟨name, hname⟩ := Option.ne_none_iff_exists'.1 hname
    have halias := hg.named ref name hname
    rw [isAlias, OrderedMap.contains, (has_eq_false_iff.1 hnew).1] at halias
    exact absurd halias (by decide)
  -- the name of the new alias is that of its entry
  have hnames : ∀ other, g'.typedefNames.get? other =
      if ref = other then e.typedefName? else g.typedefNames.get? other := by
    intro other
    rw [get?_typedefNames_of_addAlias h other]
    split
    · rename_i hsame
      rw [← hsame, hunnamed, Option.or_none]
    · rfl
  refine ⟨fun other aim haim => ?_, fun other name hname => ?_, fun other node hnode => ?_⟩
  · rw [haliases, OrderedMap.get?_insert] at haim
    rw [hnames]
    split at haim
    · rename_i hsame
      obtain rfl := Option.some.inj haim
      exact ⟨e, hsame ▸ he, hstands, if_pos hsame⟩
    · rename_i hother
      rw [if_neg hother]
      exact hg.synonym other aim haim
  · rw [isAlias, OrderedMap.contains, haliases, OrderedMap.get?_insert]
    split
    · rfl
    · rename_i hother
      rw [hnames, if_neg hother] at hname
      exact hg.named other name hname
  · exact hg.node other node (hnodes ▸ hnode)

-- ---------------------------------------------------------------------------
-- The building
-- ---------------------------------------------------------------------------

/-- Faults on record say nothing of the types that are there. -/
theorem ignoresFaults_transcribes : IgnoresFaults (Transcribes store) :=
  fun _ _ hg => hg.of_nodes rfl rfl fun _ _ hnode => hnode

variable {target : Target} {recurse : Recurse} {name : Option String} {body : TypeBody}

/-- A node that has been read from an entry transcribes it, but for the name of a typedef and for
the target of a pointer. -/
theorem transcribes_of_readFrom (hread : body.ReadFrom store target e)
    (hname : ∀ own, e.typedefName? = some own → name = some own)
    (hpointer : ∀ pointee size isFunction isReference,
      body = .pointer (some pointee) size isFunction isReference →
      ∀ passed last, store.Leads pointee passed last →
        (isFunction = true ↔ last.tag = Tag.subroutineType)) :
    (TypeNode.mk e.ref name body).Transcribes store e where
  last := by
    -- an entry whose node stands for itself stands for no other one
    cases hread with
    | void htag htype => exact (Store.standsFor?_of_isAlias htag).trans htype
    | pointer htag =>
      exact Store.standsFor?_eq_none (Tag.isAlias_of_isPointer htag)
        (Tag.isComposite_of_isPointer htag)
    | composite htag hcompletion => exact (Store.standsFor?_of_isComposite htag).trans hcompletion
    | scalar htag | enum htag | array htag | signature htag =>
      exact Store.standsFor?_eq_none (by rw [htag]; decide) (by rw [htag]; decide)
    | unspecified halias hcomposite => exact Store.standsFor?_eq_none halias hcomposite
  name := hname
  signature := by
    cases hread with
    | void htag | pointer htag | composite htag =>
      exact iff_of_false (by simp [TypeBody.isSignature]) (Tag.ne_subroutineType htag rfl)
    | scalar htag | enum htag | array htag =>
      exact iff_of_false (by simp [TypeBody.isSignature]) (by rw [htag]; decide)
    | signature htag => exact iff_of_true rfl htag
    | unspecified _ _ hother => exact iff_of_false (by simp [TypeBody.isSignature]) hother
  pointer := hpointer

/-- Graphs that say what their entries say allow for whatever another entry adds. -/
theorem allows_transcribes (hdistinct : store.Distinct) (he : store.entry? e.ref = some e) :
    Allows (Transcribes store) store target e where
  faults := ignoresFaults_transcribes
  node hg hadds hadd := by
    obtain ⟨-, -, rfl⟩ := addNode_eq_ok hadd
    exact hg.insert_node fun _ =>
      ⟨e, he, transcribes_of_readFrom hadds.read hadds.name (hadds.function hdistinct)⟩
  synonym hg hstands hadd := hg.addAlias he hstands hadd

/-- The body of a composite says what its entry says. -/
theorem transcribes_buildBody
    (hrec : ∀ ref usedBy, Preserves (Transcribes store) (recurse ref usedBy))
    (he : store.entry? e.ref = some e) (htag : e.tag.isComposite = true)
    (hcompletion : store.completion? e = none) :
    Preserves (Transcribes store) (buildBody recurse target e) := by
  refine preserves_buildBody hrec (returns_buildMembers _ e.children).yields
    (fun hg hadd => hg.addPlaceholder hadd) (fun {g g' size members} hg hread hfill => ?_)
    (fun hg => hg.discardPlaceholder e.ref)
  obtain ⟨-, rfl⟩ := fillPlaceholder_eq_ok hfill
  have hunnamed : e.typedefName? = none :=
    Entry.typedefName?_of_isAlias (Tag.isAlias_of_isComposite htag)
  exact hg.insert_node fun _ => ⟨e, he, transcribes_of_readFrom
    (.composite htag hcompletion hread) (by simp [hunnamed]) (by simp)⟩

/-- A graph that was built is a transcript of the store. -/
theorem transcribes_buildWithin (hdistinct : store.Distinct) (depth : Nat) (target : Target) :
    (buildWithin depth target store).Transcribes store :=
  buildWithin_induction (transcribes_empty store)
    (preserves_buildRef ignoresFaults_transcribes target (fun _ _ hrec he =>
      preserves_buildEntry (allows_transcribes hdistinct he) hrec
        (transcribes_buildBody hrec he)) depth)

-- ---------------------------------------------------------------------------
-- Aliases and chains
-- ---------------------------------------------------------------------------

variable {g : TypeGraph} {node : TypeNode} {ref canonical : Int}

/-- Where aliases end at a node, they have gone down a chain of entries, and the name along them is
that of the first typedef of the chain, or else that of the node. -/
theorem Transcribes.leads_of_follow (hg : g.Transcribes store)
    (hnode : g.nodes.get? canonical = some node) (hreal : node.isPlaceholder = false) {steps : Nat}
    {visited : List Int} (h : follow g.aliases steps visited ref = .ok canonical) :
    ∃ passed last, store.Leads ref passed last ∧ last.ref = canonical ∧
      node.Transcribes store last ∧ g.nameAlong steps visited ref =
        ((passed ++ [last]).findSome? Entry.typedefName?).or node.name := by
  induction steps generalizing visited ref with
  | zero => exact absurd h (by simp [follow])
  | succ steps ih =>
    rw [follow] at h
    rw [nameAlong]
    cases halias : g.aliases.get? ref with
    | none =>
      rw [halias] at h
      obtain rfl := Except.ok.inj h
      -- at the end of the aliases stands the node, which was made from the last entry
      obtain ⟨e, he, hmade⟩ := hg.node ref node hnode hreal
      refine ⟨[], e, .last he hmade.last, Store.entry?_ref he, hmade, ?_⟩
      rw [hnode]
      show node.name = (List.findSome? Entry.typedefName? [e]).or node.name
      cases hname : e.typedefName? with
      | none => simp [hname]
      | some name => simp [hname, hmade.name name hname]
    | some target =>
      rw [halias] at h
      dsimp only at h ⊢
      split at h
      · exact absurd h (by simp)
      · rename_i hunseen
        -- an alias was made from an entry that stands for its target
        obtain ⟨e, he, hstands, hname⟩ := hg.synonym ref target halias
        obtain ⟨passed, last, hleads, hlast, hmade, hrest⟩ := ih h
        refine ⟨e :: passed, last, .step he hstands hleads, hlast, hmade, ?_⟩
        rw [hname, if_neg hunseen, hrest]
        cases hown : e.typedefName? with
        | none => simp [hown]
        | some name => simp [hown]

/-- What a reference can be resolved to is the node of the last entry of its chain. -/
theorem Transcribes.leads_of_resolve (hg : g.Transcribes store) (h : g.resolve ref = .ok node) :
    ∃ passed last, store.Leads ref passed last ∧ g.canonicalRef ref = .ok last.ref ∧
      node.Transcribes store last ∧
      g.typeName? ref = ((passed ++ [last]).findSome? Entry.typedefName?).or node.name := by
  obtain ⟨hget, hreal⟩ := resolve_eq_ok.1 h
  obtain ⟨canonical, hcanonical, hnode⟩ := get_eq_ok hget
  obtain ⟨passed, last, hleads, rfl, hmade, hname⟩ := hg.leads_of_follow hnode hreal hcanonical
  exact ⟨passed, last, hleads, hcanonical, hmade, hname⟩

/-- The aliases of a graph that was built agree with its entries, however deep the building may
nest; `build` allows `depthBound` steps. A reference that can be resolved leads down a chain of
entries to the canonical reference; it is known under the name of the first typedef of the chain, or
else that of the node at its end; and a pointer whose target can be resolved is one to a function
exactly if the target is a signature. -/
theorem aliases_agree (hdistinct : store.Distinct) (depth : Nat) (target : Target) :
    (∀ ref node, (buildWithin depth target store).resolve ref = .ok node →
      ∃ passed last, store.Leads ref passed last ∧
        (buildWithin depth target store).canonicalRef ref = .ok last.ref ∧
        (buildWithin depth target store).typeName? ref =
          ((passed ++ [last]).findSome? Entry.typedefName?).or node.name) ∧
    ∀ ref pointer pointee size isFunction isReference,
      (buildWithin depth target store).nodes.get? ref = some pointer →
      pointer.body = .pointer (some pointee) size isFunction isReference →
      ∀ node, (buildWithin depth target store).resolve pointee = .ok node →
        (isFunction = true ↔ node.body.isSignature = true) := by
  have hg := transcribes_buildWithin hdistinct depth target
  refine ⟨fun ref node h => ?_, ?_⟩
  · obtain ⟨passed, last, hleads, hcanonical, -, hname⟩ := hg.leads_of_resolve h
    exact ⟨passed, last, hleads, hcanonical, hname⟩
  · intro ref pointer pointee size isFunction isReference hpointer hbody node h
    obtain ⟨passed, last, hleads, -, hmade, -⟩ := hg.leads_of_resolve h
    have hreal : pointer.isPlaceholder = false := by
      rw [TypeNode.isPlaceholder, hbody]
      rfl
    obtain ⟨e, -, htells⟩ := hg.node ref pointer hpointer hreal
    rw [hmade.signature]
    exact htells.pointer pointee size isFunction isReference hbody passed last hleads

/-- A pointer to a constant function under a typedef, and a struct that is declared, named and only
then defined. -/
def callbackRoot : Entry :=
  .node 1 Tag.compileUnit (.ofList [(Attr.name, .text "a.c")])
    [.node 2 Tag.pointerType (.ofList [(Attr.type, .int 3)]) [],
      .node 3 Tag.typedef (.ofList [(Attr.name, .text "callback"), (Attr.type, .int 4)]) [],
      .node 4 Tag.constType (.ofList [(Attr.type, .int 5)]) [],
      .node 5 Tag.subroutineType (.ofList []) [],
      .node 6 Tag.constType (.ofList [(Attr.type, .int 7)]) [],
      .node 7 Tag.typedef (.ofList [(Attr.name, .text "state"), (Attr.type, .int 8)]) [],
      .node 8 Tag.structureType
        (.ofList [(Attr.name, .text "s"), (Attr.declaration, .int 1)]) [],
      .node 9 Tag.structureType (.ofList [(Attr.name, .text "s"), (Attr.byteSize, .int 4)]) []]

def callbackStore : Store := (Store.empty.addRoot callbackRoot).1

/-- A qualified typedef of a struct, and a pointer to a function through a typedef. -/
theorem aliases_agree_callbacks :
    callbackStore.Distinct ∧
      (build .standard callbackStore).resolve 6 =
        .ok ⟨9, some "s", .composite .struct (some 4) [] false⟩ ∧
      (∃ passed last, callbackStore.Leads 6 passed last ∧
        (build .standard callbackStore).canonicalRef 6 = .ok last.ref ∧
        (build .standard callbackStore).typeName? 6 =
          ((passed ++ [last]).findSome? Entry.typedefName?).or (some "s")) ∧
      (build .standard callbackStore).nodes.get? 2 =
        some ⟨2, none, .pointer (some 3) 4 true false⟩ ∧
      (build .standard callbackStore).resolve 3 = .ok ⟨5, none, .signature none [] false⟩ ∧
      (true = true ↔ (TypeBody.signature none [] false).isSignature = true) := by
  have hdistinct : callbackStore.Distinct := by
    unfold Store.Distinct
    decide
  have hresolve : (build .standard callbackStore).resolve 6 =
      .ok ⟨9, some "s", .composite .struct (some 4) [] false⟩ := by decide +kernel
  have hpointer : (build .standard callbackStore).nodes.get? 2 =
      some ⟨2, none, .pointer (some 3) 4 true false⟩ := by decide +kernel
  have hpointee : (build .standard callbackStore).resolve 3 =
      .ok ⟨5, none, .signature none [] false⟩ := by decide +kernel
  have hagree := aliases_agree hdistinct (depthBound callbackStore) .standard
  exact ⟨hdistinct, hresolve, hagree.1 6 _ hresolve, hpointer, hpointee,
    hagree.2 2 _ 3 4 true false hpointer rfl _ hpointee⟩

end TypeGraph

end DebugLayout
