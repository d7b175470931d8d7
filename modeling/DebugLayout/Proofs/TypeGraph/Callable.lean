import DebugLayout.Proofs.TypeGraph.Contents
import DebugLayout.Proofs.TypeGraph.Nesting
import DebugLayout.Proofs.TypeGraph.Reentry

/-!
# DebugLayout — functions that are in every graph

A signature needs no type by value. It is enough that the types it names have entries, and a typedef
or a qualified type of it needs no more. Such a type is **callable**. Whatever else is wrong with a
store, nothing can keep it out of the graph: it does not go round, no alias that is being followed
comes back to it, and the depth of the nesting suffices for it even where an endless type uses it
up. A signature that names a type without entry, on the other hand, is never in the graph.

* `Store.Callable`, `Callable.acc_needs`: such types, and that their needs come to an end;
* `BuildState.Follows`, `Unfailed`: what holds while the types around them are built;
* `TypeGraph.Delivers`, `delivers_buildRef`: the building of a callable type ends well;
* `TypeGraph.exists_get_iff`: the functions that are in a graph.
-/

namespace DebugLayout

open Relation (ReflTransGen TransGen)

-- ---------------------------------------------------------------------------
-- Callable types
-- ---------------------------------------------------------------------------

namespace Store

variable {store : Store} {ref needed : Int} {e last : Entry}

/-- Whether a type is a function, once typedefs and qualifiers are taken off, and all types that its
signature names have entries. -/
def Callable (store : Store) (ref : Int) : Prop :=
  ∃ last, store.Bare ref last ∧ last.tag = Tag.subroutineType ∧
    ∀ type ∈ last.signatureTypes, ∃ named, store.entry? type = some named

/-- All that a qualified or renamed type needs is the type that it names. -/
theorem needs_of_isAlias (he : store.entry? ref = some e) (htag : e.tag.isAlias = true)
    (h : store.Needs ref needed) : e.typeRef? = some needed := by
  have hcomposite := Tag.isComposite_of_isAlias htag
  cases h with
  | target he' _ htype | element he' _ htype | underlying he' _ htype =>
    obtain rfl := Option.some.inj (he.symm.trans he')
    exact htype
  | definition he' htag' | member he' htag' =>
    obtain rfl := Option.some.inj (he.symm.trans he')
    rw [hcomposite] at htag'
    exact absurd htag' (by decide)

/-- The type of a function needs no type. -/
theorem not_needs_of_signature (he : store.entry? ref = some e)
    (htag : e.tag = Tag.subroutineType) : ¬ store.Needs ref needed := by
  intro h
  cases h with
  | target he' htag' | element he' htag' | underlying he' htag' | definition he' htag'
  | member he' htag' =>
    obtain rfl := Option.some.inj (he.symm.trans he')
    rw [htag] at htag'
    exact absurd htag' (by decide)

/-- The needs of a callable type come to an end. -/
theorem Callable.acc_needs (h : store.Callable ref) :
    Acc (fun needed ref => store.Needs ref needed) ref := by
  obtain ⟨last, hbare, htag, -⟩ := h
  induction hbare with
  | last he => exact .intro _ fun _ hneeds => absurd hneeds (not_needs_of_signature he htag)
  | step he halias htype _ ih =>
    refine .intro _ fun needed hneeds => ?_
    obtain rfl := Option.some.inj (htype.symm.trans (needs_of_isAlias he halias hneeds))
    exact ih htag

/-- What has to be there before a type is one of those that it needs. -/
theorem Precedes.needs (h : store.Precedes ref needed) : store.Needs ref needed := by
  obtain ⟨e, he, hpassage⟩ := Option.bind_eq_some_iff.1 h
  exact needs_of_passage? he hpassage

/-- The way down from a callable type has an end. -/
theorem Callable.ends (h : store.Callable ref) : store.Ends ref :=
  Subrelation.accessible Precedes.needs h.acc_needs

theorem Callable.exists_entry? (h : store.Callable ref) :
    ∃ e, store.entry? ref = some e ∧ e.tag.isType = true := by
  obtain ⟨last, hbare, htag, -⟩ := h
  cases hbare with
  | last he => exact ⟨last, he, by rw [htag]; decide⟩
  | step he halias => exact ⟨_, he, by rw [Tag.isType, halias]; rfl⟩

end Store

-- ---------------------------------------------------------------------------
-- What holds around them
-- ---------------------------------------------------------------------------

namespace BuildState

variable {store : Store} {s t : BuildState} {ref inner : Int} {e : Entry}

/-- Whether every alias that is being followed contains a type by value, or is that type. -/
def Follows (s : BuildState) (store : Store) (ref : Int) : Prop :=
  ∀ other ∈ s.following, ReflTransGen store.Needs other ref

/-- A run leaves the aliases that are being followed as they are. -/
theorem Follows.run {root : Int} (hs : s.Follows store ref) (hrun : Run store root s t) :
    t.Follows store ref :=
  fun other hother => hs other (hrun.following other hother)

/-- What contains a type contains what the type needs. -/
theorem Follows.needed (hs : s.Follows store ref) (hneeds : store.Needs ref inner) :
    s.Follows store inner :=
  fun other hother => (hs other hother).tail hneeds

/-- Once the building of a type has begun, all aliases that are being followed contain what the type
needs, the type itself included. -/
theorem Follows.begun (hs : s.Follows store e.ref) (hneeds : store.Needs e.ref inner) :
    (s.begun e).Follows store inner := by
  unfold BuildState.begun
  split
  · intro other hother
    rcases List.mem_insert_iff.1 hother with rfl | hother
    · exact .single hneeds
    · exact hs.needed hneeds other hother
  · exact hs.needed hneeds

/-- Whether no callable type is known to be left out. -/
def Unfailed (s : BuildState) (store : Store) : Prop :=
  ∀ ref, store.Callable ref → s.failures.get? ref = none

/-- What is known to be left out is a matter of the failures alone. -/
theorem Unfailed.of_failures (hs : s.Unfailed store) (h : t.failures = s.failures) :
    t.Unfailed store := by
  intro ref hcallable
  rw [h]
  exact hs ref hcallable

/-- A fault that is noted is not a failure of a type yet. -/
theorem failures_noted (fault : TypeFault) : (s.noted fault).failures = s.failures := by
  unfold noted
  split <;> rfl

/-- To leave out a type that is not callable is not to leave out a callable one. -/
theorem Unfailed.leftOut {stop : BuildStop} (hs : s.Unfailed store) (h : ¬ store.Callable ref) :
    (s.leftOut ref stop).Unfailed store := by
  intro other hother
  have hne : ref ≠ other := fun hsame => h (hsame ▸ hother)
  have hunchanged : (s.leftOut ref stop).failures.get? other = s.failures.get? other := by
    cases stop <;> exact (OrderedMap.get?_insert ..).trans (if_neg hne)
  rw [hunchanged]
  exact hs other hother

end BuildState

namespace TypeGraph

open Build

variable {store : Store} {target : Target} {recurse : Recurse} {e : Entry} {s t : BuildState}
  {ref : Int} {result : Except BuildStop Unit × BuildState}

theorem Closing.failures (h : Closing e s result) : result.2.failures = s.failures := by
  cases h with
  | refused | clash | added => rfl
  | noted => exact BuildState.failures_noted _

-- ---------------------------------------------------------------------------
-- Callable entries
-- ---------------------------------------------------------------------------

/-- A reference that is free can be given a node. -/
theorem exec_addNode_of_free {name : Option String} {body : TypeBody}
    (hnew : s.graph.has e.ref = false) :
    ∃ t, (update (·.addNode ⟨e.ref, name, body⟩)).exec s = (.ok (), t) := by
  rw [exec_update]
  cases hadd : s.graph.addNode ⟨e.ref, name, body⟩ with
  | ok g => exact ⟨_, rfl⟩
  | error fault =>
    have hhas := has_of_addNode_eq_error hadd
    rw [hnew] at hhas
    exact absurd hhas (by decide)

/-- A reference that is free can be made an alias. -/
theorem exec_addAlias_of_free {aim : Int} {name : Option String}
    (hnew : s.graph.has ref = false) :
    ∃ t, (update (·.addAlias ref aim name)).exec s = (.ok (), t) := by
  rw [exec_update]
  cases hadd : s.graph.addAlias ref aim name with
  | ok g => exact ⟨_, rfl⟩
  | error fault =>
    have hhas := has_of_addAlias_eq_error hadd
    rw [hnew] at hhas
    exact absurd hhas (by decide)

/-- A step that only looks, and finds what it looks for. -/
def Finds {α : Type} (x : Build α) : Prop := ∀ s, ∃ a, x.exec s = (.ok a, s)

theorem finds_pure {α : Type} (a : α) : Finds (pure a : Build α) := fun _ => ⟨a, rfl⟩

theorem finds_entry {ref : Int} (usedBy : Option Int)
    (h : ∃ named, store.entry? ref = some named) : Finds (discard (entry store ref usedBy)) := by
  intro s
  obtain ⟨named, hnamed⟩ := h
  refine ⟨(), ?_⟩
  show ((fun _ => ()) <$> entry store ref usedBy).exec s = _
  rw [exec_map, exec_entry, hnamed]
  rfl

theorem Finds.bind {α β : Type} {x : Build α} {f : α → Build β} (hx : Finds x)
    (hf : ∀ a, Finds (f a)) : Finds (x >>= f) := by
  intro s
  obtain ⟨a, ha⟩ := hx s
  rw [exec_bind, ha]
  exact hf a s

/-- The parameters of a function are found if each of their types has an entry. -/
theorem finds_parametersOf {es : List Entry}
    (hnamed : ∀ type ∈ (es.filter (·.tag = Tag.formalParameter)).filterMap Entry.typeRef?,
      ∃ named, store.entry? type = some named) : Finds (parametersOf store es) := by
  induction es with
  | nil => exact finds_pure _
  | cons c es ih =>
    unfold parametersOf
    split
    · rename_i htag
      rw [List.filter_cons_of_pos (by simpa using htag)] at hnamed
      -- a parameter without a type looks for nothing
      split
      · rename_i htype
        rw [List.filterMap_cons_none htype] at hnamed
        exact ih hnamed
      · rename_i type htype
        rw [List.filterMap_cons_some htype] at hnamed
        obtain ⟨hfirst, hrest⟩ := List.forall_mem_cons.1 hnamed
        exact (finds_entry _ hfirst).bind fun _ => (ih hrest).bind fun _ => finds_pure _
    · rename_i htag
      rw [List.filter_cons_of_neg (by simpa using htag)] at hnamed
      exact ih hnamed

/-- A signature can be built if all types that it names have entries. -/
theorem exec_buildSignature_of_named (hnew : s.graph.has e.ref = false)
    (hnamed : ∀ type ∈ e.signatureTypes, ∃ named, store.entry? type = some named) :
    ∃ t, (buildSignature store e).exec s = (.ok (), t) := by
  obtain ⟨hresult, hparameters⟩ := List.forall_mem_append.1 hnamed
  unfold buildSignature
  extract_lets isVariadic jp
  -- the parameters are looked up after the result, or without one
  have hjp : ∀ u, ∃ t, (jp u).exec s = (.ok (), t) := by
    intro u
    obtain ⟨types, htypes⟩ := finds_parametersOf hparameters s
    dsimp only [jp]
    rw [exec_bind, htypes]
    exact exec_addNode_of_free hnew
  split
  · rename_i result htype
    obtain ⟨u, hu⟩ := finds_entry (some e.ref) (hresult result (by simp [htype])) s
    rw [exec_bind, hu]
    exact hjp u
  · exact hjp ()

/-- An alias can be built if what it stands for can, and it is still free then. -/
theorem exec_buildAlias_of_built {aim : Int} (htag : e.tag.isAlias = true)
    (htype : e.typeRef? = some aim) (huncut : ¬ IsCut e s aim)
    (hbuilt : (recurse aim (some e.ref)).exec (s.begun e) = (.ok (), t))
    (hnew : t.graph.has e.ref = false) :
    ∃ u, (buildAlias recurse e).exec s = (.ok (), u) := by
  have hbegun : s.begun e = s.entering e.ref := if_pos htag
  have hlook : (getThe BuildState : Build BuildState).exec s = (.ok s, s) := rfl
  -- the aim is not being followed already
  have hround : ¬ (s.following.contains aim = true ∨ aim = e.ref) := by
    rw [List.contains_iff_mem]
    exact fun h => huncut ⟨htag, h⟩
  unfold buildAlias
  extract_lets name
  rw [htype]
  dsimp only
  rw [exec_bind, hlook]
  dsimp only
  rw [if_neg (by simpa using hround), exec_following e.ref (recurse aim (some e.ref))
    (fun _ => update (·.addAlias e.ref aim name)), ← hbegun, hbuilt]
  exact exec_addAlias_of_free hnew

-- ---------------------------------------------------------------------------
-- The building
-- ---------------------------------------------------------------------------

/-- A way to build types that does not leave any callable type out, if there is enough depth for the
types from which the walk comes to an end. -/
def Delivers (store : Store) (depth : Nat) (recurse : Recurse) : Prop :=
  ∀ ref usedBy s, s.Coherent store → s.Surrounds store ref → s.Follows store ref →
    (store.Ends ref → Suffices store depth s ref) → s.Unfailed store →
      ((recurse ref usedBy).exec s).2.Unfailed store ∧
        (store.Callable ref → ((recurse ref usedBy).exec s).1 = .ok ())

section Delivers

variable {depth : Nat} (hrec : Builds store recurse) (hdelivers : Delivers store depth recurse)
  (he : store.entry? e.ref = some e) (hcoherent : s.Coherent store)
  (hsurrounds : s.Surrounds store e.ref) (hfollows : s.Follows store e.ref)
  (hdepth : store.Ends e.ref → Suffices store (depth + 1) s e.ref) (hs : s.Unfailed store)
include hdelivers he hcoherent hsurrounds hfollows hdepth hs

/-- Where an entry may be built, the type that it needs is delivered for it. -/
theorem Delivers.passage {inner : Int} (hpassage : store.passage? e = some inner)
    (huncut : ¬ IsCut e s inner) :
    ((recurse inner (some e.ref)).exec (s.begun e)).2.Unfailed store ∧
      (store.Callable inner → ((recurse inner (some e.ref)).exec (s.begun e)).1 = .ok ()) := by
  have hneeds := Store.needs_of_passage? he hpassage
  obtain ⟨hbegun, hwithin⟩ := hcoherent.passage hsurrounds he hpassage
  have hprecedes : store.Precedes e.ref inner := by
    rw [Store.Precedes, Store.onward?, he]
    exact hpassage
  refine hdelivers inner (some e.ref) (s.begun e) hbegun hwithin (hfollows.begun hneeds)
    (fun hends => ?_) (hs.of_failures BuildState.failures_begun)
  have hown := Store.Ends.of_precedes hends hprecedes
  exact (hdepth hown).passage hown.short he hpassage huncut

omit he in
include hrec in
/-- The members of a composite have no callable type left out. -/
theorem Delivers.body {g : TypeGraph} {stop? : Option BuildStop} {t : BuildState}
    (hbody : store.IsBody e.ref) (hplaceholder : s.graph.addPlaceholder e.ref = .ok g)
    (hcourse : Course recurse (store.Needs e.ref) { s with graph := g } stop? t) :
    t.Unfailed store := by
  obtain ⟨hinner, -⟩ := hcoherent.addPlaceholder hbody hplaceholder
  -- nothing is passed on the way to the members, so that the walk from here has ended
  have hends : store.Ends e.ref := by
    refine .intro _ fun inner hprecedes => ?_
    obtain ⟨found, hfound, hpassage⟩ := Option.bind_eq_some_iff.1 hprecedes
    exact absurd hbody (Store.not_isBody_of_passage? hfound hpassage)
  refine (hcourse.keeps_placed (fun u => u.Unfailed store ∧ u.Follows store e.ref) (fun _ => True)
    hrec hinner (hsurrounds.addPlaceholder hplaceholder)
    (fun inner usedBy u hneeds hcoherent' hsurrounds' hplaced hu => ?_) ⟨hs, hfollows⟩).1.1
  have hrun := (hrec inner usedBy u hcoherent' hsurrounds' trivial).1
  have hnext := hdelivers inner usedBy u hcoherent' hsurrounds' (hu.2.needed hneeds)
    (fun _ => (hdepth hends).member hends.short hcoherent hbody hplaceholder hplaced) hu.1
  exact ⟨⟨hnext.1, hu.2.run hrun⟩, fun _ _ => trivial⟩

include hrec in
/-- No entry has a callable type left out if what it needs has not. -/
theorem Delivers.frame (hframe : Frame store recurse e s result) : result.2.Unfailed store := by
  have hpassed : ∀ {inner : Int}, store.passage? e = some inner → ¬ IsCut e s inner →
      ((recurse inner (some e.ref)).exec (s.begun e)).2.Unfailed store := fun hpassage huncut =>
    (hdelivers.passage he hcoherent hsurrounds hfollows hdepth hs hpassage huncut).1
  -- only the building of other types can fail one; the last step of the entry does not
  cases hframe with
  | alone _ _ hclosing => exact hs.of_failures hclosing.failures
  | failed hpassage huncut h =>
    have hnext := hpassed hpassage huncut
    rw [h] at hnext
    exact hnext.of_failures BuildState.failures_ended
  | built hpassage huncut h hclosing =>
    have hnext := hpassed hpassage huncut
    rw [h] at hnext
    exact hnext.of_failures (hclosing.failures.trans BuildState.failures_ended)
  | abandoned hbody hplaceholder hcourse | filled hbody hplaceholder hcourse =>
    exact (hdelivers.body hrec hcoherent hsurrounds hfollows hdepth hs hbody hplaceholder
      hcourse).of_failures rfl

include hrec in
/-- A callable entry is built: nothing that it names is missing, what it stands for is delivered,
and it does not come to itself on the way. -/
theorem Delivers.entry (target : Target) (hnew : s.graph.has e.ref = false)
    (hcallable : store.Callable e.ref) :
    ((buildEntry recurse store target e).exec s).1 = .ok () := by
  obtain ⟨last, hbare, htag, hnamed⟩ := hcallable
  -- the entry is the function itself, or a name on the way to it
  cases hbare with
  | last he' =>
    obtain rfl := Option.some.inj (he.symm.trans he')
    have hbuild : buildEntry recurse store target e = buildSignature store e := by
      simp only [buildEntry, htag]
      rfl
    obtain ⟨t, ht⟩ := exec_buildSignature_of_named hnew hnamed
    rw [hbuild, ht]
  | @step _ aim _ _ he' halias htype hrest =>
    obtain rfl := Option.some.inj (he.symm.trans he')
    have haim : store.Callable aim := ⟨last, hrest, htag, hnamed⟩
    have hbuild : buildEntry recurse store target e = buildAlias recurse e := if_pos halias
    have hpassage : store.passage? e = some aim := (Store.passage?_of_isAlias halias).trans htype
    have hneeds := Store.needs_of_passage? he hpassage
    -- what comes back to the entry would go round
    have hreturn : ¬ ReflTransGen store.Needs aim e.ref := fun hback =>
      not_transGen_of_acc haim.acc_needs (TransGen.tail' hback hneeds)
    have huncut : ¬ IsCut e s aim := by
      rintro ⟨-, hcut | hcut⟩
      · exact hreturn (hfollows aim hcut)
      · exact hreturn (hcut ▸ .refl)
    obtain ⟨hbegun, hwithin⟩ := hcoherent.passage hsurrounds he hpassage
    have hrun := (hrec aim (some e.ref) (s.begun e) hbegun hwithin trivial).1
    have hok := (hdelivers.passage he hcoherent hsurrounds hfollows hdepth hs hpassage huncut).2
      haim
    rcases hexec : (recurse aim (some e.ref)).exec (s.begun e) with ⟨outcome, t⟩
    rw [hexec] at hok hrun
    subst hok
    -- the alias is still free when its target has been built
    have hfree : t.graph.has e.ref = false := by
      by_contra hhas
      exact hreturn (needs_of_built hrun (by simpa using hnew) (by simpa using hhas))
    obtain ⟨u, hu⟩ := exec_buildAlias_of_built halias htype huncut hexec hfree
    rw [hbuild, hu]

end Delivers

/-- The building of references delivers the callable types that lie within its depth. -/
theorem delivers_buildRef (store : Store) (target : Target) (depth : Nat) :
    Delivers store depth (buildRef store target depth) := by
  induction depth with
  | zero =>
    -- a callable type is never met at depth zero: there is depth enough for it
    refine fun ref usedBy s _ _ _ hdepth hs => ⟨hs, fun hcallable => ?_⟩
    exact absurd ((hdepth hcallable.ends).pos hcallable.ends.short) (by decide)
  | succ depth ih =>
    intro ref usedBy s hcoherent hsurrounds hfollows hdepth hs
    have hrec := runs_buildRef store target depth
    rw [exec_buildRef]
    split
    · exact ⟨hs, fun _ => rfl⟩
    rename_i hnew
    have hnew : s.graph.has ref = false := Bool.eq_false_iff.2 hnew
    split
    · rename_i fault hfault
      refine ⟨hs, fun hcallable => ?_⟩
      rw [hs ref hcallable] at hfault
      exact absurd hfault (by simp)
    split
    · rename_i hmissing
      refine ⟨hs.of_failures (BuildState.failures_noted _), fun hcallable => ?_⟩
      obtain ⟨e, he, -⟩ := hcallable.exists_entry?
      rw [hmissing] at he
      exact absurd he (by simp)
    · rename_i e he
      obtain rfl := Store.entry?_ref he
      have hkept := ih.frame hrec he hcoherent hsurrounds hfollows hdepth hs
        (frame_buildEntry hrec target he hcoherent hsurrounds hnew)
      have hok := ih.entry hrec he hcoherent hsurrounds hfollows hdepth hs target hnew
      rcases hexec : (buildEntry (buildRef store target depth) store target e).exec s
        with ⟨outcome, t⟩
      rw [hexec] at hkept hok
      cases outcome with
      | ok a => exact ⟨hkept, fun _ => rfl⟩
      | error stop =>
        -- what stops is not callable, so that no callable type is left out
        have hnot : ¬ store.Callable e.ref := fun hcallable => absurd (hok hcallable) (by simp)
        exact ⟨hkept.leftOut hnot, fun hcallable => absurd hcallable hnot⟩

-- ---------------------------------------------------------------------------
-- The whole graph
-- ---------------------------------------------------------------------------

/-- In the end no callable type is known to be left out. -/
theorem unfailed_finalState (target : Target) (store : Store) :
    (finalState target store).Unfailed store := by
  refine (finalState_induction (P := fun _ s => s.Unfailed store ∧ s.following = []) target
    ⟨fun _ _ => rfl, rfl⟩ ?_).2.1
  rintro before s p hidle - ⟨hs, hfollowing⟩
  have hrun := run_visit target (depthBound store) hidle p
  constructor
  · unfold visit
    split
    · refine (delivers_buildRef store target _ _ _ s hidle.coherent (hidle.surrounds _) ?_
        (fun _ => suffices_of_depthBound (Nat.le_refl _) s _) hs).1
      intro other hother
      rw [hfollowing] at hother
      exact absurd hother (by simp)
    · exact hs
  · -- between two entries no alias is followed
    refine List.eq_nil_iff_forall_not_mem.2 fun other hother => ?_
    have hbefore := hrun.following other hother
    rw [hfollowing] at hbefore
    exact absurd hbefore (by simp)

/-- Every callable type is in the graph. -/
theorem has_of_callable (target : Target) (h : store.Callable ref) :
    (build target store).has ref = true := by
  obtain ⟨e, he, htype⟩ := h.exists_entry?
  obtain ⟨p, hp, rfl⟩ := Store.exists_placed he
  obtain rfl := Store.entry?_ref he
  rw [build_eq]
  refine (settled_finalState target hp htype).resolve_right fun hfailed => ?_
  rw [unfailed_finalState target store _ h] at hfailed
  exact absurd hfailed (by decide)

/-- Aliases take typedefs and qualifiers off. -/
theorem ReadFrom.bare_of_aliased {g : TypeGraph} {canonical : Int} {last : Entry}
    (hg : g.ReadFrom store target) (h : g.Aliased ref canonical) (hbare : store.Bare ref last)
    (htag : last.tag = Tag.subroutineType) : store.Bare canonical last := by
  induction h with
  | refl => exact hbare
  | tail _ hstep ih =>
    obtain ⟨e, he, hstands⟩ := hg.synonym _ _ hstep
    cases ih with
    | last he' halias =>
      obtain rfl := Option.some.inj (he.symm.trans he')
      -- the last entry stands for itself
      rw [Store.standsFor?_eq_none halias (by rw [htag]; decide)] at hstands
      exact absurd hstands (by simp)
    | step he' halias htype hrest =>
      obtain rfl := Option.some.inj (he.symm.trans he')
      rw [Store.standsFor?_of_isAlias halias, htype] at hstands
      obtain rfl := Option.some.inj hstands
      exact hrest

/-- A function is in the graph exactly if all types that its signature names have entries. -/
theorem exists_get_iff {last : Entry} (hbare : store.Bare ref last)
    (htag : last.tag = Tag.subroutineType) :
    (∃ node, (build target store).get ref = .ok node) ↔
      ∀ type ∈ last.signatureTypes, ∃ named, store.entry? type = some named := by
  have hg : (build target store).ReadFrom store target := readFrom_buildWithin store _ target
  obtain ⟨canonical, hcanonical⟩ := (coherent_build target store).ranked.exists_canonicalRef ref
  obtain ⟨haliased, hend⟩ := canonicalRef_eq_ok hcanonical
  have hbare' := hg.bare_of_aliased haliased hbare htag
  constructor
  · rintro ⟨node, hget⟩
    obtain ⟨canonical', hcanonical', hnode⟩ := get_eq_ok hget
    obtain rfl := eq_of_ok hcanonical hcanonical'
    obtain ⟨-, hreal⟩ := resolve_eq_ok.1 (resolve_of_get? hnode)
    obtain ⟨e, he, hread⟩ := hg.node canonical node hnode hreal
    -- the canonical reference is that of the function: it has no alias to follow
    cases hbare' with
    | last he' =>
      obtain rfl := Option.some.inj (he.symm.trans he')
      exact hread.exists_named htag
    | step he' halias htype =>
      obtain rfl := Option.some.inj (he.symm.trans he')
      rw [hread.typeRef?_of_isAlias halias] at htype
      exact absurd htype (by simp)
  · intro hnamed
    have hhas := has_of_callable target ⟨last, hbare', htag, hnamed⟩
    rcases has_iff.1 hhas with ⟨aim, haim⟩ | ⟨node, hnode⟩
    · rw [hend] at haim
      exact absurd haim (by simp)
    · exact ⟨node, get_of_canonicalRef hcanonical hnode⟩

end TypeGraph

end DebugLayout
