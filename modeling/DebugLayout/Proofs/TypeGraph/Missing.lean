import DebugLayout.Proofs.TypeGraph.Descent

/-!
# DebugLayout — types that are missing

A type that is in a graph may still have parts that are not, or not yet. In a coherent graph these
are composites that contain themselves: one that is being built, or one that was given up after
types had been built on its placeholder.

A reference that cannot be resolved is thus one to a composite, whichever aliases lead to it, and
whatever asks for the node or for a size fails with that composite.

* `TypeGraph.Coherent.of_aliased`: what the aliases of a reference lead to;
* `TypeGraph.Coherent.get_eq_error`: what is missing without being built;
* `BuildState.Coherent.resolve_eq_error`, `byteSize_eq_error`: what is missing for a type that is
  being built.
-/

namespace DebugLayout

open Relation (ReflTransGen TransGen)

namespace TypeGraph

variable {g : TypeGraph} {store : Store} {ref canonical : Int}

/-- What aliases lead to is needed and accounted for. -/
theorem Coherent.of_aliased (hg : g.Coherent store) (h : g.Aliased ref canonical)
    (href : g.Accounted store ref) :
    ReflTransGen store.Needs ref canonical ∧ g.Accounted store canonical := by
  induction h with
  | refl => exact ⟨.refl, href⟩
  | tail _ hstep ih =>
    obtain ⟨hneeds, -⟩ := ih
    exact ⟨hneeds.tail (hg.needs _ _ (.inl hstep)), hg.grounded _ _ (.inl hstep)⟩

/-- Where a reference has a canonical one but no node, it is the canonical one that is missing. -/
theorem get_eq_error_of_canonicalRef {fault : Dangling}
    (hcanonical : g.canonicalRef ref = .ok canonical) (h : g.get ref = .error fault) :
    fault.ref = canonical ∧ g.nodes.get? canonical = none := by
  rw [get, hcanonical] at h
  simp only [bind, Except.bind] at h
  split at h
  · exact absurd h pure_ne_error
  · rename_i hnone
    rw [← Except.error.inj h]
    exact ⟨rfl, hnone⟩

/-- A type that is accounted for has a node, or leads to a composite that contains itself and is not
there. -/
theorem Coherent.get_eq_error {fault : Dangling} (hg : g.Coherent store)
    (href : g.Accounted store ref) (h : g.get ref = .error fault) :
    g.canonicalRef ref = .ok fault.ref ∧ g.has fault.ref = false ∧
      store.SelfContaining fault.ref := by
  obtain ⟨canonical, hcanonical⟩ := hg.ranked.exists_canonicalRef ref
  obtain ⟨rfl, hnode⟩ := get_eq_error_of_canonicalRef hcanonical h
  obtain ⟨hchain, hend⟩ := canonicalRef_eq_ok hcanonical
  have hmissing : g.has fault.ref = false := has_eq_false_iff.2 ⟨hend, hnode⟩
  refine ⟨hcanonical, hmissing, ?_⟩
  rcases (hg.of_aliased hchain href).2 with hhas | hself
  · rw [hmissing] at hhas
    exact absurd hhas (by decide)
  · exact hself

/-- What cannot be resolved has no node, or one that is a placeholder and is reported by its own
reference. -/
theorem resolve_eq_error_cases {fault : Dangling} (h : g.resolve ref = .error fault) :
    g.get ref = .error fault ∨
      ∃ node, g.get ref = .ok node ∧ node.isPlaceholder = true ∧ fault = ⟨node.ref, none⟩ := by
  rcases bind_eq_error.1 h with h | ⟨node, hnode, h⟩
  · exact .inl h
  · split at h
    · rename_i hplaceholder
      exact .inr ⟨node, hnode, hplaceholder, (Except.error.inj h).symm⟩
    · exact absurd h pure_ne_error

end TypeGraph

namespace BuildState

variable {store : Store} {s : BuildState} {root ref : Int} {fault : Dangling}

/-- What a type that is being built needs can be resolved, or leads to a composite that contains
itself. -/
theorem Coherent.resolve_eq_error (hs : s.Coherent store) (hroot : s.Surrounds store root)
    (hneeds : TransGen store.Needs root ref) (href : s.graph.Accounted store ref)
    (h : s.graph.resolve ref = .error fault) : store.SelfContaining fault.ref := by
  rcases TypeGraph.resolve_eq_error_cases h with h | ⟨node, hget, hplaceholder, rfl⟩
  · exact (hs.graph.get_eq_error href h).2.2
  · -- a placeholder is one of a composite around the type that needs it
    obtain ⟨canonical, hcanonical, hnode⟩ := TypeGraph.get_eq_ok hget
    obtain rfl := hs.graph.ownRef canonical node hnode
    have hbuilt : s.graph.hasPlaceholder node.ref = true :=
      TypeGraph.hasPlaceholder_iff.2 ⟨node, hnode, hplaceholder⟩
    obtain ⟨hchain, -⟩ := TypeGraph.canonicalRef_eq_ok hcanonical
    have hdown := (hs.graph.of_aliased hchain href).1
    exact ⟨hs.graph.placeholders _ hbuilt,
      TransGen.trans_left (TransGen.trans_right (hroot _ hbuilt) hneeds) hdown⟩

/-- The size of what a type that is being built needs can be told, or an array on the way leads to a
composite that contains itself. -/
theorem Coherent.byteSize_eq_error (hs : s.Coherent store) (hroot : s.Surrounds store root)
    (hneeds : TransGen store.Needs root ref) (href : s.graph.Accounted store ref)
    (h : s.graph.byteSize ref = .error fault) : store.SelfContaining fault.ref := by
  have hsize : s.graph.SizeOf ref (.error fault) := h ▸ hs.graph.ranked.sizeOf_byteSize ref
  clear h
  generalize houtcome : Except.error fault = outcome at hsize
  induction hsize with
  | unresolved hfault =>
    obtain rfl := Except.error.inj houtcome
    exact hs.resolve_eq_error hroot hneeds href hfault
  | given | strided => exact absurd houtcome (by simp)
  | @measured ref element node dims outcome hnode hbody _ ih =>
    obtain ⟨hget, -⟩ := TypeGraph.resolve_eq_ok.1 hnode
    obtain ⟨array, hcanonical, hfound⟩ := TypeGraph.get_eq_ok hget
    -- the elements are needed by the array, and the array by whatever leads to it
    have hdown := (hs.graph.of_aliased (TypeGraph.canonicalRef_eq_ok hcanonical).1 href).1
    have hrefers : s.graph.Refers array element :=
      .inr ⟨node, hfound, by rw [hbody]; exact List.mem_singleton_self element⟩
    have hinner : Except.error fault = outcome := (map_eq_error.1 houtcome.symm).symm
    exact ih ((hneeds.trans_left hdown).tail (hs.graph.needs _ _ hrefers))
      (hs.graph.grounded _ _ hrefers) hinner

end BuildState

end DebugLayout
