import DebugLayout.Proofs.TypeGraph.Frame

/-!
# DebugLayout — types that are built while they are being built

A composite with members has a placeholder, and no other type has one. The building of an alias, an
array, an enumeration or a declared composite can therefore come to the same entry again, by way of
the type that it needs. The inner building adds the entry, and the outer one, which finds the
reference taken, records it as malformed all the same. This is the only way in which a type of the
graph comes to be on record as malformed.

The account of a type is what the induction on the depth carries: what was known of the records
before is known afterwards, and if the type stops, it has been reported with a cause that is
warranted. The cases of the proof are those of its frame.

* `TypeGraph.Warranted`: what a malformation on record tells about the type;
* `BuildState.Reported`: what is known of the records throughout;
* `TypeGraph.Account`, `TypeGraph.reports_buildRef`: the building of one type keeps to it;
* `TypeGraph.has_malformed_iff`: which of the malformed types are in the graph.
-/

namespace DebugLayout

open Relation (ReflTransGen TransGen)

/-- Whether a type is the underlying type of an enumeration. -/
def Store.Underlies (store : Store) (type ref : Int) : Prop :=
  ∃ e, store.entry? ref = some e ∧ e.tag = Tag.enumerationType ∧ e.typeRef? = some type

namespace TypeGraph

/-- Whether a type that is said to be malformed is in the graph exactly if the arena refused it, and
only types without a placeholder of their own, which contain themselves, are refused. -/
structure Warranted (g : TypeGraph) (store : Store) (ref : Int) (cause : Malformation) : Prop where
  present : g.has ref = true ↔ ∃ refusal, cause = .arena refusal
  reentered : (∃ refusal, cause = .arena refusal) →
    ¬ store.IsBody ref ∧ TransGen store.Needs ref ref

/-- To call a type malformed that is not in the graph is warranted, if the arena has not refused
it. -/
theorem warranted_of_absent {g : TypeGraph} {store : Store} {ref : Int} {cause : Malformation}
    (habsent : g.has ref = false) (h : ¬ ∃ refusal, cause = .arena refusal) :
    g.Warranted store ref cause :=
  ⟨by simp [habsent, h], fun hrefusal => absurd hrefusal h⟩

/-- Where a placeholder is taken out, nothing is left under its reference. -/
theorem Coherent.has_discardPlaceholder_iff {g : TypeGraph} {store : Store} {ref other : Int}
    (hg : g.Coherent store) (hplaced : g.hasPlaceholder ref = true) :
    (g.discardPlaceholder ref).has other = true ↔ other ≠ ref ∧ g.has other = true := by
  constructor
  · intro h
    refine ⟨?_, has_of_discardPlaceholder h⟩
    rintro rfl
    rw [has_iff, discardPlaceholder_aliases, get?_discardPlaceholder, if_pos ⟨hplaced, rfl⟩] at h
    obtain ⟨target, htarget⟩ := h.resolve_right (by simp)
    obtain ⟨node, hnode, -⟩ := hasPlaceholder_iff.1 hplaced
    rw [hg.apart other target htarget] at hnode
    exact absurd hnode (by simp)
  · rintro ⟨hne, h⟩
    exact has_discardPlaceholder hne h

/-- What a graph can resolve is in it, and has no placeholder of its own. -/
theorem Coherent.of_resolve {g : TypeGraph} {store : Store} {ref : Int} {node : TypeNode}
    (hg : g.Coherent store) (h : g.resolve ref = .ok node) :
    g.has ref = true ∧ g.hasPlaceholder ref = false := by
  obtain ⟨hget, hreal⟩ := resolve_eq_ok.1 h
  obtain ⟨canonical, hcanonical, hnode⟩ := get_eq_ok hget
  obtain ⟨hchain, -⟩ := canonicalRef_eq_ok hcanonical
  rcases hchain.cases_head with rfl | ⟨target, htarget, -⟩
  · refine ⟨has_iff.2 (.inr ⟨node, hnode⟩), ?_⟩
    rw [hasPlaceholder, hnode]
    exact hreal
  · refine ⟨has_iff.2 (.inl ⟨target, htarget⟩), ?_⟩
    rw [hasPlaceholder, hg.apart ref target htarget]

end TypeGraph

-- ------------------------------------------------------------------------------------------------
-- What is known of the records
-- ------------------------------------------------------------------------------------------------

namespace BuildState

open TypeGraph

/-- What is known of malformed types throughout. It takes that the arrays in the graph could be
read, and that the underlying types of its enumerations are there for good. -/
structure Reported (store : Store) (s : BuildState) : Prop where
  warranted : ∀ ref cause, .malformed ref cause ∈ s.graph.faults → s.graph.Warranted store ref cause
  known : ∀ ref cause, .malformed ref cause ∈ s.graph.faults → (s.failures.get? ref).isSome = true
  readable : ∀ ref e, store.entry? ref = some e → e.tag = Tag.arrayType →
    s.graph.has ref = true → IsReadable e
  settled : ∀ type ref, store.Underlies type ref → s.graph.has ref = true →
    s.graph.has type = true ∧ s.graph.hasPlaceholder type = false

/-- Whether nothing went wrong between two states. -/
structure Quiet (s t : BuildState) : Prop where
  faults : t.graph.faults = s.graph.faults
  failures : t.failures = s.failures

variable {store : Store} {s t : BuildState} {e : Entry} {g : TypeGraph} {ref : Int}

theorem Quiet.refl (s : BuildState) : Quiet s s := ⟨rfl, rfl⟩

/-- Nothing goes wrong where nothing goes wrong in either of two parts. -/
theorem Quiet.trans {u : BuildState} (h : Quiet s t) (h' : Quiet t u) : Quiet s u :=
  ⟨h'.faults.trans h.faults, h'.failures.trans h.failures⟩

theorem quiet_begun : Quiet s (s.begun e) := ⟨by simp, by simp⟩

theorem quiet_ended : Quiet s (s.ended e) := ⟨by simp, by simp⟩

namespace Reported

/-- At the start no type is known to be malformed. -/
theorem start (store : Store) : Reported store .start where
  warranted _ _ h := absurd h (by simp [BuildState.start, empty])
  known _ _ h := absurd h (by simp [BuildState.start, empty])
  readable _ _ _ _ h := absurd h Bool.false_ne_true
  settled _ _ _ h := absurd h Bool.false_ne_true

/-- It does not matter which aliases are being followed. -/
theorem of_eq (hs : Reported store s) (hgraph : t.graph = s.graph)
    (hfailures : t.failures = s.failures) : Reported store t where
  warranted := hgraph ▸ hs.warranted
  known := hgraph ▸ hfailures ▸ hs.known
  readable := hgraph ▸ hs.readable
  settled := hgraph ▸ hs.settled

/-- To begin an entry says nothing of malformed types. -/
theorem begun (hs : Reported store s) : Reported store (s.begun e) :=
  hs.of_eq graph_begun failures_begun

theorem ended (hs : Reported store s) : Reported store (s.ended e) :=
  hs.of_eq graph_ended failures_ended

/-- To put a missing type on record says nothing of malformed types. -/
theorem noted (hs : Reported store s) (missing : Dangling) :
    Reported store (s.noted (.dangling missing)) := by
  have hmalformed : ∀ {ref cause},
      .malformed ref cause ∈ s.graph.faults ++ [TypeFault.dangling missing] →
      .malformed ref cause ∈ s.graph.faults := fun h => by simpa using h
  unfold BuildState.noted
  split
  · exact hs
  · exact ⟨fun ref cause h => ⟨(hs.warranted ref cause (hmalformed h)).present,
      (hs.warranted ref cause (hmalformed h)).reentered⟩,
      fun ref cause h => hs.known ref cause (hmalformed h), hs.readable, hs.settled⟩

/-- The reference of an entry may come to be there, with or without a placeholder, as long as the
entry was not left out before. -/
theorem extend (hs : Reported store s) (hunknown : s.failures.get? ref = none)
    (hfaults : g.faults = s.graph.faults)
    (hhas : ∀ other, g.has other = true ↔ ref = other ∨ s.graph.has other = true)
    (hplaceholder : ∀ other, g.hasPlaceholder other = true →
      s.graph.has other = false ∨ s.graph.hasPlaceholder other = true)
    (hreadable : ∀ e, store.entry? ref = some e → e.tag = Tag.arrayType → IsReadable e)
    (hsettled : ∀ type, store.Underlies type ref →
      s.graph.has type = true ∧ s.graph.hasPlaceholder type = false) :
    Reported store { s with graph := g } where
  warranted other cause h := by
    have hbefore := hs.warranted other cause (hfaults ▸ h)
    -- what is on record as malformed is known to have failed, and the new type is not
    have hne : ref ≠ other := by
      rintro rfl
      have hknown := hs.known _ _ (hfaults ▸ h)
      rw [hunknown] at hknown
      exact absurd hknown (by decide)
    exact ⟨by simpa [hhas, hne] using hbefore.present, hbefore.reentered⟩
  known other cause h := hs.known other cause (hfaults ▸ h)
  readable other e he htag h := by
    rcases (hhas other).1 h with rfl | h
    · exact hreadable e he htag
    · exact hs.readable other e he htag h
  settled type other hunderlies h := by
    have hbefore : s.graph.has type = true ∧ s.graph.hasPlaceholder type = false := by
      rcases (hhas other).1 h with rfl | h
      · exact hsettled type hunderlies
      · exact hs.settled type other hunderlies h
    refine ⟨(hhas type).2 (.inr hbefore.1), ?_⟩
    -- no placeholder is new under a reference that was there before
    by_contra hplaced
    rcases hplaceholder type (by simpa using hplaced) with h | h
    · rw [hbefore.1] at h
      exact absurd h (by decide)
    · rw [hbefore.2] at h
      exact absurd h (by decide)

/-- A composite with members is neither an array nor an enumeration. -/
theorem extend_body (hs : Reported store s) (hbody : store.IsBody ref)
    (hunknown : s.failures.get? ref = none) (hfaults : g.faults = s.graph.faults)
    (hhas : ∀ other, g.has other = true ↔ ref = other ∨ s.graph.has other = true)
    (hplaceholder : ∀ other, g.hasPlaceholder other = true →
      s.graph.has other = false ∨ s.graph.hasPlaceholder other = true) :
    Reported store { s with graph := g } := by
  obtain ⟨e, he, hcomposite, -⟩ := hbody
  refine hs.extend hunknown hfaults hhas hplaceholder (fun other hother htag => ?_) ?_
  · obtain rfl := Option.some.inj (he.symm.trans hother)
    rw [htag] at hcomposite
    exact absurd hcomposite (by decide)
  · rintro type ⟨other, hother, htag, -⟩
    obtain rfl := Option.some.inj (he.symm.trans hother)
    rw [htag] at hcomposite
    exact absurd hcomposite (by decide)

/-- The placeholder of a composite may be added as long as the composite is not known to be
malformed. -/
theorem addPlaceholder (hs : Reported store s) (hbody : store.IsBody ref)
    (hunknown : s.failures.get? ref = none) (h : s.graph.addPlaceholder ref = .ok g) :
    Reported store { s with graph := g } := by
  obtain ⟨hnew, rfl⟩ := addPlaceholder_eq_ok h
  refine hs.extend_body hbody hunknown rfl (fun other => has_insert_node _) fun other hother => ?_
  rw [hasPlaceholder_insert_node] at hother
  split at hother
  · rename_i heq
    exact .inl (heq ▸ hnew)
  · exact .inr hother

/-- The placeholder of a composite may be filled as long as the composite is not known to be
malformed. -/
theorem fillPlaceholder {node : TypeNode} (hs : Reported store s) (hbody : store.IsBody node.ref)
    (hunknown : s.failures.get? node.ref = none) (hreal : node.isPlaceholder = false)
    (h : s.graph.fillPlaceholder node = .ok g) : Reported store { s with graph := g } := by
  obtain ⟨-, rfl⟩ := fillPlaceholder_eq_ok h
  refine hs.extend_body hbody hunknown rfl (fun other => has_insert_node _) fun other hother => ?_
  rw [hasPlaceholder_insert_node] at hother
  split at hother
  · rw [hreal] at hother
    exact absurd hother (by decide)
  · exact .inr hother

/-- A composite that has a placeholder is not on record, and nothing relies on it. -/
theorem discardPlaceholder (hs : Reported store s) (hcoherent : s.Coherent store)
    (hbody : store.IsBody ref) (hplaced : s.graph.hasPlaceholder ref = true) :
    Reported store { s with graph := s.graph.discardPlaceholder ref } := by
  have hhas : ∀ {other}, (s.graph.discardPlaceholder ref).has other = true ↔
      other ≠ ref ∧ s.graph.has other = true :=
    hcoherent.graph.has_discardPlaceholder_iff hplaced
  refine ⟨fun other cause h => ?_, fun other cause h => ?_, fun other e he htag h => ?_,
    fun type other hunderlies h => ?_⟩
  · have hbefore := hs.warranted other cause (discardPlaceholder_faults ▸ h)
    -- a composite is never refused: its placeholder is its own
    have hne : other ≠ ref := by
      rintro rfl
      obtain ⟨node, hnode, -⟩ := hasPlaceholder_iff.1 hplaced
      have hrefused := hbefore.present.1 (has_iff.2 (.inr ⟨node, hnode⟩))
      exact (hbefore.reentered hrefused).1 hbody
    exact ⟨by simpa [hhas, hne] using hbefore.present, hbefore.reentered⟩
  · exact hs.known other cause (discardPlaceholder_faults ▸ h)
  · exact hs.readable other e he htag (hhas.1 h).2
  · obtain ⟨htype, hreal⟩ := hs.settled type other hunderlies (hhas.1 h).2
    -- an underlying type that is there has no placeholder
    have hne : type ≠ ref := by
      rintro rfl
      rw [hplaced] at hreal
      exact absurd hreal (by decide)
    refine ⟨hhas.2 ⟨hne, htype⟩, ?_⟩
    by_contra hother
    have hbefore := (hasPlaceholder_discardPlaceholder (by simpa using hother)).2
    rw [hreal] at hbefore
    exact absurd hbefore (by decide)

/-- An entry may be left out for a malformation that tells whether it is in the graph. -/
theorem leftOut {stop : BuildStop} (hs : Reported store s)
    (h : ∀ cause, stop = .cause cause → s.graph.Warranted store ref cause) :
    Reported store (s.leftOut ref stop) := by
  have hfailures : ∀ (fault : TypeFault) other, (s.failures.get? other).isSome = true →
      ((s.failures.insert ref fault).get? other).isSome = true := by
    intro fault other hother
    rw [OrderedMap.get?_insert]
    split
    · rfl
    · exact hother
  cases stop with
  | type fault =>
    exact ⟨hs.warranted, fun other cause h => hfailures fault other (hs.known other cause h),
      hs.readable, hs.settled⟩
  | cause reason =>
    -- the record grows by this one fault
    have hrecord : ∀ {other cause},
        .malformed other cause ∈ s.graph.faults ++ [TypeFault.malformed ref reason] →
        .malformed other cause ∈ s.graph.faults ∨ other = ref ∧ cause = reason := by
      intro other cause h
      simpa using h
    refine ⟨fun other cause hmem => ?_, fun other cause hmem => ?_, hs.readable, hs.settled⟩
    · rcases hrecord hmem with hmem | ⟨rfl, rfl⟩
      · exact ⟨(hs.warranted other cause hmem).present, (hs.warranted other cause hmem).reentered⟩
      · exact ⟨(h _ rfl).present, (h _ rfl).reentered⟩
    · rcases hrecord hmem with hmem | ⟨rfl, rfl⟩
      · exact hfailures _ other (hs.known other cause hmem)
      · show ((s.failures.insert other (.malformed other cause)).get? other).isSome = true
        rw [OrderedMap.get?_insert, if_pos rfl, Option.isSome_some]

end Reported

end BuildState

-- ------------------------------------------------------------------------------------------------
-- The building
-- ------------------------------------------------------------------------------------------------

namespace TypeGraph

open Build BuildState

variable {store : Store} {recurse : Recurse} {e : Entry} {s t : BuildState} {ref : Int}
  {result : Except BuildStop Unit × BuildState}

/-- What the building of a type comes to. If it ends, nothing went wrong, and if it did anything
then no enumeration with the type as underlying type is there yet. -/
inductive Account (store : Store) (ref : Int) (s : BuildState) :
    Except BuildStop Unit × BuildState → Prop
  | there : Account store ref s (.ok (), s)
  | built {t : BuildState} (ht : Reported store t) (hquiet : Quiet s t)
      (hfirst : ∀ other, store.Underlies ref other → t.graph.has other = false) :
      Account store ref s (.ok (), t)
  | leftOut {fault : TypeFault} {t : BuildState} (ht : Reported store t) :
      Account store ref s (.error (.type fault), t)
  | cut : Account store ref s (.error (.cause .endless), s)

/-- What is known of malformed types stays true, whatever the building of a type comes to. -/
theorem Account.reported (h : Account store ref s result) (hs : Reported store s) :
    Reported store result.2 := by
  cases h with
  | there | cut => exact hs
  | built ht | leftOut ht => exact ht

/-- Nothing went wrong in a building that has ended. -/
theorem Account.quiet {t : BuildState} (h : Account store ref s (.ok (), t)) : Quiet s t := by
  cases h with
  | there => exact .refl s
  | built _ hquiet => exact hquiet

/-- An entry is left out for a reason that is on record. -/
theorem account_leftOut {stop : BuildStop} (ht : Reported store t)
    (h : ∀ cause, stop = .cause cause → t.graph.Warranted store ref cause) :
    Account store ref s (concluded ref (.error stop, t)) :=
  .leftOut (ht.leftOut h)

/-- A fault of an entry's own is no refusal of the arena. -/
theorem not_refusal_of_isOwn {cause : Malformation} (h : cause.IsOwn) :
    ¬ ∃ refusal, cause = .arena refusal := by
  rintro ⟨refusal, rfl⟩
  exact h

/-- The end of an entry that is to blame only if it is not there, and that was re-entered if it
is. -/
theorem account_closing (ht : Reported store t) (hcoherent : t.Coherent store)
    (he : store.entry? e.ref = some e) (hbody : ¬ store.IsBody e.ref)
    (hunknown : s.failures.get? e.ref = none) (hquiet : Quiet s t)
    (hclash : t.graph.has e.ref = true → TransGen store.Needs e.ref e.ref)
    (hrefused : Refusable e → t.graph.has e.ref = false) (h : Closing e t result) :
    Account store e.ref s (concluded e.ref result) := by
  cases h with
  | refused hown hentry =>
    -- the entry is refused for a fault of its own, and is not there
    refine account_leftOut ht fun cause hcause => ?_
    subst hcause
    exact warranted_of_absent (hrefused (hentry cause rfl)) (not_refusal_of_isOwn hown)
  | noted missing => exact account_leftOut (ht.noted missing) fun cause hcause => by simp at hcause
  | @clash fault htaken =>
    refine account_leftOut ht fun cause hcause => ?_
    -- the reference was taken in the meantime, and only what contains itself can have done that
    obtain rfl := BuildStop.cause.inj hcause
    exact ⟨by simp [htaken], fun _ => ⟨hbody, hclash htaken⟩⟩
  | added hgains hsuits =>
    have hentry : ∀ other, store.entry? e.ref = some other → e = other := fun other hother =>
      Option.some.inj (he.symm.trans hother)
    have hsettled : ∀ type, store.Underlies type e.ref →
        t.graph.has type = true ∧ t.graph.hasPlaceholder type = false := by
      rintro type ⟨other, hother, htag, htype⟩
      obtain rfl := hentry other hother
      obtain ⟨node, hnode⟩ := hsuits.enum htag type htype
      exact hcoherent.graph.of_resolve hnode
    refine .built (ht.extend (hquiet.failures ▸ hunknown) hgains.faults hgains.has
      (fun other h => .inr (hgains.hasPlaceholder other h)) ?_ hsettled)
      (hquiet.trans ⟨hgains.faults, rfl⟩) fun other hunderlies => ?_
    · intro other hother htag
      obtain rfl := hentry other hother
      exact hsuits.array htag
    · -- otherwise the entry would have been there, without a placeholder
      by_contra hhas
      have hthere : t.graph.has e.ref = true ∧ t.graph.hasPlaceholder e.ref = false := by
        rcases (hgains.has other).1 (by simpa using hhas) with rfl | hhas
        · exact hsettled _ hunderlies
        · exact ht.settled _ other hunderlies hhas
      have hplaced := hgains.fresh hthere.1
      rw [hthere.2] at hplaced
      exact absurd hplaced (by decide)

/-- A way to build types that keeps to this. -/
def Reports (store : Store) (recurse : Recurse) : Prop :=
  ∀ ref usedBy s, s.Coherent store → s.Surrounds store ref → Reported store s →
    Account store ref s ((recurse ref usedBy).exec s)

/-- What was not there before the building of another type, and is there afterwards, is needed by
that type. -/
theorem needs_of_built {needed : Int} (hrun : BuildState.Run store needed s t)
    (hnew : s.graph.has ref = false) (hhas : t.graph.has ref = true) :
    ReflTransGen store.Needs needed ref := by
  by_contra hneeds
  have hknown := hrun.known hneeds
  simp only [BuildState.known, Prod.mk.injEq] at hknown
  rw [has_eq_false_iff, ← hknown.1, ← hknown.2.1, ← has_eq_false_iff, hhas] at hnew
  exact absurd hnew (by decide)

section Entry

variable (hreports : Reports store recurse) (hcoherent : s.Coherent store)
  (hsurrounds : s.Surrounds store e.ref) (hs : Reported store s)
include hreports hcoherent hsurrounds hs

/-- An entry that is no composite with members turns to the type that it needs. -/
theorem Reports.needed (he : store.entry? e.ref = some e) {needed : Int}
    (hpassage : store.passage? e = some needed) :
    Account store needed (s.begun e) ((recurse needed (some e.ref)).exec (s.begun e)) := by
  obtain ⟨hbegun, hwithin⟩ := hcoherent.passage hsurrounds he hpassage
  exact hreports needed (some e.ref) (s.begun e) hbegun hwithin hs.begun

/-- An entry whose needed type is left out is left out with it, for the same reason. -/
theorem Reports.failed (he : store.entry? e.ref = some e) (hnew : s.graph.has e.ref = false)
    {needed : Int} {stop : BuildStop} (hpassage : store.passage? e = some needed)
    (h : (recurse needed (some e.ref)).exec (s.begun e) = (.error stop, t)) :
    Account store e.ref s (concluded e.ref (.error stop, t.ended e)) := by
  have hnext := hreports.needed hcoherent hsurrounds hs he hpassage
  rw [h] at hnext
  cases hnext with
  | leftOut ht => exact account_leftOut ht.ended (by simp)
  | cut =>
    -- too deep a nesting is the one complaint that is not on record yet
    refine account_leftOut hs.begun.ended fun cause hcause => ?_
    obtain rfl := BuildStop.cause.inj hcause
    exact warranted_of_absent (by simpa using hnew) (by simp)

/-- An entry whose needed type is built is closed. If it is there by then, the needed type has led
back to it, and so it cannot be to blame for anything: an enumeration has its underlying type for
the first time, and an array that is there could be read. -/
theorem Reports.built (hrec : Builds store recurse) (he : store.entry? e.ref = some e)
    (hnew : s.graph.has e.ref = false) (hunknown : s.failures.get? e.ref = none) {needed : Int}
    (hpassage : store.passage? e = some needed)
    (h : (recurse needed (some e.ref)).exec (s.begun e) = (.ok (), t))
    (hclosing : Closing e (t.ended e) result) :
    Account store e.ref s (concluded e.ref result) := by
  have hneeds := Store.needs_of_passage? he hpassage
  have hbody := Store.not_isBody_of_passage? he hpassage
  obtain ⟨hbegun, hwithin⟩ := hcoherent.passage hsurrounds he hpassage
  have hnext := hreports.needed hcoherent hsurrounds hs he hpassage
  have hrun := (hrec needed (some e.ref) (s.begun e) hbegun hwithin trivial).1
  rw [h] at hnext hrun
  have ht := hnext.reported hs.begun
  have hended : (t.ended e).Coherent store :=
    (hrun.needed hneeds).ended hbody |>.coherent hcoherent
  refine account_closing ht.ended hended he hbody hunknown
    ((quiet_begun.trans hnext.quiet).trans quiet_ended) (fun hhas => ?_) (fun hentry => ?_)
    hclosing
  · rw [graph_ended] at hhas
    -- what took the reference is built for the type that the entry needs, and leads back to it
    exact .head' hneeds (needs_of_built hrun (by simpa using hnew) hhas)
  · rw [graph_ended]
    by_contra hhas
    cases hentry with
    | baseType htag =>
      -- a base type needs nothing
      rw [Store.passage?_of_baseType htag] at hpassage
      exact absurd hpassage (by simp)
    | enum htag =>
      cases hnext with
      | there => exact hhas (by simpa using hnew)
      | built _ _ hfirst =>
        -- an enumeration cannot come first: its underlying type would have been there before
        exact hhas (hfirst e.ref ⟨e, he, htag, Store.typeRef?_of_passage? htag hpassage⟩)
    | array htag hunreadable =>
      exact hunreadable (ht.readable e.ref e he htag (by simpa using hhas))

-- ---------------------------------------------------------------------------
-- Composites with members
-- ---------------------------------------------------------------------------

section Body

variable (hbody : store.IsBody e.ref) (hunknown : s.failures.get? e.ref = none)
  (hplaceholder : s.graph.addPlaceholder e.ref = .ok g) (hrec : Builds store recurse)
include hbody hunknown hplaceholder hrec

/-- A composite whose course stops is taken out of the graph again. What it stops for, unless it is
on record already, is a fault of the composite or too deep a nesting, and no refusal. -/
theorem Reports.abandoned {stop : BuildStop}
    (hcourse : Course recurse (store.Needs e.ref) { s with graph := g } (some stop) t) :
    Account store e.ref s
      (concluded e.ref (.error stop, { t with graph := t.graph.discardPlaceholder e.ref })) := by
  obtain ⟨hinner, hplaced⟩ := hcoherent.addPlaceholder hbody hplaceholder
  have hwithin := hsurrounds.addPlaceholder hplaceholder
  have hrun := hcourse.run hrec hinner hwithin
  -- a stop for a cause of another type is only passed on when depth ran out
  obtain ⟨ht, hstop⟩ := hcourse.keeps (Reported store)
    (fun stop => ∀ cause, stop = .cause cause → cause = .endless) hrec hinner hwithin
    (fun needed usedBy u _ hcoherent hsurrounds hu => by
      have hnext := hreports needed usedBy u hcoherent hsurrounds hu
      refine ⟨hnext.reported hu, fun stop hstop cause hcause => ?_⟩
      generalize (recurse needed usedBy).exec u = outcome at hnext hstop
      subst hcause
      cases hnext with
      | there | built => exact absurd hstop (by simp)
      | leftOut => exact absurd hstop (by simp)
      | cut => exact (BuildStop.cause.inj (Except.error.inj hstop)).symm)
    (hs.addPlaceholder hbody hunknown hplaceholder)
  have hcoherent := hrun.coherent hinner
  have hplaced := hrun.keepsPlaceholder hbody hplaced
  -- after its placeholder is discarded the composite is not there
  have habsent : (t.graph.discardPlaceholder e.ref).has e.ref = false := by
    by_contra hhas
    exact ((hcoherent.graph.has_discardPlaceholder_iff hplaced).1 (by simpa using hhas)).1 rfl
  refine account_leftOut (ht.discardPlaceholder hcoherent hbody hplaced)
    fun cause hcause => warranted_of_absent habsent ?_
  subst hcause
  rcases hstop _ rfl with hown | hcut
  · exact not_refusal_of_isOwn hown
  · rw [hcut cause rfl]
    simp

/-- A composite whose course ends takes the place of its placeholder. No enumeration over it can be
there: that would have found the placeholder and not the composite. -/
theorem Reports.filled {g' : TypeGraph} {node : TypeNode}
    (hcourse : Course recurse (store.Needs e.ref) { s with graph := g } none t)
    (hnode : node.ref = e.ref) (hreal : node.isPlaceholder = false)
    (hfill : t.graph.fillPlaceholder node = .ok g') :
    Account store e.ref s (concluded e.ref (.ok (), { t with graph := g' })) := by
  obtain ⟨hinner, -⟩ := hcoherent.addPlaceholder hbody hplaceholder
  have hbegun : Quiet s { s with graph := g } := by
    obtain ⟨-, rfl⟩ := addPlaceholder_eq_ok hplaceholder
    exact ⟨rfl, rfl⟩
  -- all members were built, and nothing went wrong with any of them
  obtain ⟨ht, hquiet⟩ := hcourse.keeps_ended (P := fun u => Reported store u ∧ Quiet s u) hrec
    hinner (hsurrounds.addPlaceholder hplaceholder)
    (fun needed usedBy u v _ hcoherent hsurrounds hu h => by
      have hnext := hreports needed usedBy u hcoherent hsurrounds hu.1
      rw [h] at hnext
      exact ⟨hnext.reported hu.1, hu.2.trans hnext.quiet⟩)
    ⟨hs.addPlaceholder hbody hunknown hplaceholder, hbegun⟩
  rw [← hnode] at hbody hunknown
  have hfilled := ht.fillPlaceholder hbody (hquiet.failures ▸ hunknown) hreal hfill
  obtain ⟨hplaced, rfl⟩ := fillPlaceholder_eq_ok hfill
  rw [hnode] at hplaced
  refine .built hfilled (hquiet.trans ⟨rfl, rfl⟩) fun other hunderlies => ?_
  by_contra hhas
  rcases (has_insert_node _).1 (by simpa using hhas) with rfl | hhas
  · -- the composite itself is no enumeration
    obtain ⟨enum, henum, htag, -⟩ := hunderlies
    obtain ⟨body, hfound, hcomposite, -⟩ := hbody
    obtain rfl := Option.some.inj (henum.symm.trans hfound)
    rw [htag] at hcomposite
    exact absurd hcomposite (by decide)
  · have hreal := (ht.settled _ other hunderlies hhas).2
    rw [hplaced] at hreal
    exact absurd hreal (by decide)

end Body

/-- Entries keep to it if what they need does. -/
theorem Reports.frame (hrec : Builds store recurse) (he : store.entry? e.ref = some e)
    (hnew : s.graph.has e.ref = false) (hunknown : s.failures.get? e.ref = none)
    (hframe : Frame store recurse e s result) :
    Account store e.ref s (concluded e.ref result) := by
  cases hframe with
  | alone hbody _ hclosing =>
    -- nothing was built in between, so that the entry is still not there
    refine account_closing hs hcoherent he hbody hunknown (.refl s) (fun hhas => ?_)
      (fun _ => hnew) hclosing
    rw [hnew] at hhas
    exact absurd hhas (by decide)
  | failed hpassage _ h => exact hreports.failed hcoherent hsurrounds hs he hnew hpassage h
  | built hpassage _ h hclosing =>
    exact hreports.built hcoherent hsurrounds hs hrec he hnew hunknown hpassage h hclosing
  | abandoned hbody hplaceholder hcourse =>
    exact hreports.abandoned hcoherent hsurrounds hs hbody hunknown hplaceholder hrec hcourse
  | filled hbody hplaceholder hcourse hnode hreal hfill =>
    exact hreports.filled hcoherent hsurrounds hs hbody hunknown hplaceholder hrec hcourse hnode
      hreal hfill

end Entry

/-- The building of one type keeps to it, in any depth. -/
theorem reports_buildRef (store : Store) (target : Target) (depth : Nat) :
    Reports store (buildRef store target depth) := by
  induction depth with
  | zero => exact fun ref usedBy s _ _ _ => .cut
  | succ depth ih =>
    intro ref usedBy s hcoherent hsurrounds hs
    generalize hresult : (buildRef store target (depth + 1) ref usedBy).exec s = result
    cases hresult ▸ turn_buildRef target depth usedBy hcoherent hsurrounds with
    | there => exact .there
    | known => exact .leftOut hs
    | missing => exact .leftOut (hs.noted _)
    | entry hnew hunknown he hframe =>
      obtain rfl := Store.entry?_ref he
      exact ih.frame hcoherent hsurrounds hs (runs_buildRef store target depth) he hnew hunknown
        hframe

-- ------------------------------------------------------------------------------------------------
-- The whole graph
-- ------------------------------------------------------------------------------------------------

/-- A type that is on record as malformed is in the graph exactly if the complaint is that it was
there already. Such a type is no composite with members, and contains itself by value. -/
theorem has_malformed_iff (target : Target) (store : Store) {ref : Int} {cause : Malformation}
    (h : .malformed ref cause ∈ (build target store).faults) :
    ((build target store).has ref = true ↔ ∃ refusal, cause = .arena refusal) ∧
      ((∃ refusal, cause = .arena refusal) →
        ¬ store.IsBody ref ∧ TransGen store.Needs ref ref) := by
  rw [build_eq] at h ⊢
  have hfinal : Reported store (finalState target store) := by
    refine (finalState_induction (P := fun _ s => Reported store s) target (.start store) ?_).2
    intro _ s p hidle _ hs
    unfold visit
    split
    · exact (reports_buildRef store target (depthBound store) _ _ s hidle.coherent
        (hidle.surrounds _) hs).reported hs
    · exact hs
  have hwarranted := hfinal.warranted ref cause h
  exact ⟨hwarranted.present, hwarranted.reentered⟩

/-- A typedef of a struct with a member of the typedef. -/
def reentryRoot : Entry :=
  .node 1 Tag.compileUnit (.ofList [(Attr.name, .text "a.c")])
    [.node 2 Tag.typedef (.ofList [(Attr.name, .text "t"), (Attr.type, .int 3)]) [],
      .node 3 Tag.structureType (.ofList [(Attr.name, .text "s"), (Attr.byteSize, .int 4)])
        [.node 4 Tag.member (.ofList [(Attr.name, .text "m"), (Attr.type, .int 2),
          (Attr.memberLocation, .int 0)]) []]]

def reentryStore : Store := (Store.empty.addRoot reentryRoot).1

/-- A typedef of a struct that contains it is in the graph and on record as refused. -/
theorem has_malformed_iff_reentry :
    .malformed 2 (.arena (.defined 2)) ∈ (build .standard reentryStore).faults ∧
      ((build .standard reentryStore).has 2 = true ↔
        ∃ refusal, Malformation.arena (.defined 2) = .arena refusal) ∧
      ¬ reentryStore.IsBody 2 ∧ TransGen reentryStore.Needs 2 2 := by
  have hmalformed :
      .malformed 2 (.arena (.defined 2)) ∈ (build .standard reentryStore).faults := by decide
  obtain ⟨hhas, hreentered⟩ := has_malformed_iff .standard reentryStore hmalformed
  exact ⟨hmalformed, hhas, hreentered ⟨_, rfl⟩⟩

/-- The typedef is in the graph and on record as malformed. -/
theorem typedef_usable_and_malformed :
    (build .standard reentryStore).isAlias 2 = true ∧
      (build .standard reentryStore).faults = [.malformed 2 (.arena (.defined 2))] := by
  decide

end TypeGraph

end DebugLayout
