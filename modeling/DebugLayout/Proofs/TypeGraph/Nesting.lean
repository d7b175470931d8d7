import DebugLayout.Proofs.TypeGraph.Finished
import DebugLayout.Proofs.TypeGraph.Trail

/-!
# DebugLayout — how deep the building nests

Types are built within one another, and the depth of the nesting is limited. A graph is
**exhausted** if some type was given up because the limit was reached. Without endless types the
limit is never reached: under each of the placeholders, of which there are no more than entries, the
types that are being built for one another are on a trail, and trails are short. An endless type, on
the other hand, reaches every limit, because nothing that it comes to is ever in the graph.

Both directions are inductions on the depth, along the frames. Without endless types the depth that
is left is weighed against what may still be entered: the placeholders that are not there yet, and
the rest of the trail since the last one.

* `TypeGraph.Exhausted`: graphs for which the depth did not suffice;
* `TypeGraph.Suffices`, `TypeGraph.spares_buildRef`: without endless types, the depth suffices for
  every type;
* `TypeGraph.Circling`, `TypeGraph.circles_buildRef`: what is known of endless types throughout;
* `TypeGraph.exhausted_of_endless`, `exhausted_iff_endless`: when the depth suffices.
-/

namespace DebugLayout

open Relation (TransGen)

namespace TypeGraph

open Build

variable {store : Store} {recurse : Recurse} {e : Entry} {s t : BuildState} {ref : Int}
  {result : Except BuildStop Unit × BuildState}

/-- Whether some type was given up because it took more nested steps than allowed. -/
def Exhausted (g : TypeGraph) : Prop := ∃ ref, .malformed ref .endless ∈ g.faults

theorem exhausted_noted {missing : Dangling} :
    (s.noted (.dangling missing)).graph.Exhausted ↔ s.graph.Exhausted := by
  unfold BuildState.noted
  split
  · exact Iff.rfl
  · simp [Exhausted, BuildState.recorded]

/-- Leaving a type out gives one up if it is left out as endless. -/
theorem exhausted_leftOut {stop : BuildStop} :
    (s.leftOut ref stop).graph.Exhausted ↔ s.graph.Exhausted ∨ stop = .cause .endless := by
  cases stop with
  | type fault => simp [Exhausted, BuildState.leftOut, BuildState.remembering]
  | cause cause =>
    simp only [Exhausted, BuildState.leftOut, BuildState.remembering, BuildState.recorded,
      List.mem_append, List.mem_singleton, TypeFault.malformed.injEq, BuildStop.cause.injEq]
    constructor
    · rintro ⟨other, h | ⟨-, h⟩⟩
      · exact .inl ⟨other, h⟩
      · exact .inr h.symm
    · rintro (⟨other, h⟩ | rfl)
      · exact ⟨other, .inl h⟩
      · exact ⟨ref, .inr ⟨rfl, rfl⟩⟩

-- ------------------------------------------------------------------------------------------------
-- Without endless types
-- ------------------------------------------------------------------------------------------------

/-- A fault of an entry's own is not that the type is endless. -/
theorem ne_endless_of_isOwn {stop : BuildStop} (h : stop.IsOwn) : stop ≠ .cause .endless := by
  rintro rfl
  exact h

/-- The end of an entry does not take any depth. -/
theorem Closing.not_exhausted (h : Closing e s result) (hs : ¬ s.graph.Exhausted) :
    ¬ result.2.graph.Exhausted ∧ result.1 ≠ .error (.cause .endless) := by
  cases h with
  | refused hown =>
    refine ⟨hs, fun h => ne_endless_of_isOwn hown (Except.error.inj h)⟩
  | noted missing => exact ⟨fun h => hs (exhausted_noted.1 h), by simp⟩
  | clash => exact ⟨hs, by simp⟩
  | added hgains =>
    refine ⟨?_, by simp⟩
    rintro ⟨ref, href⟩
    exact hs ⟨ref, hgains.faults ▸ href⟩

/-- Where nothing was given up in the building of an entry, nothing is given up by what is made of
it. -/
theorem not_exhausted_concluded
    (h : ¬ result.2.graph.Exhausted ∧ result.1 ≠ .error (.cause .endless)) :
    ¬ (concluded ref result).2.graph.Exhausted := by
  obtain ⟨outcome, t⟩ := result
  cases outcome with
  | ok a => exact h.1
  | error stop =>
    intro hexhausted
    rcases exhausted_leftOut.1 hexhausted with hexhausted | rfl
    · exact h.1 hexhausted
    · exact h.2 rfl

/-- Composites with placeholders are entries of the store. -/
theorem placed_length_le {placed : List Int} (hcoherent : s.Coherent store) (hnodup : placed.Nodup)
    (hplaced : ∀ other ∈ placed, s.graph.hasPlaceholder other = true) :
    placed.length ≤ store.size := by
  have hlisted : placed ⊆ store.entries.map (·.entry.ref) := by
    intro other hother
    obtain ⟨e, he, -⟩ := hcoherent.graph.placeholders other (hplaced other hother)
    obtain ⟨p, hp, rfl⟩ := Store.exists_placed he
    exact List.mem_map.2 ⟨p, hp, Store.entry?_ref he⟩
  have hlength := (List.subperm_of_subset hnodup hlisted).length_le
  rwa [List.length_map] at hlength

/-- The depth that the building of a type takes at most, by the number of entries, that of the
placeholders around it, and the steps of its trail since the last of them. -/
def depthNeeded (size placed steps : Nat) : Nat :=
  (size - placed) * (2 * size + 2) + (2 * size + 1 - steps)

/-- A composite with members starts a new trail around which there is one more placeholder, and for
that there is depth enough. -/
theorem depthNeeded_body {size placed steps : Nat} (hplaced : placed < size)
    (hsteps : steps ≤ 2 * size) :
    depthNeeded size (placed + 1) 0 + 1 ≤ depthNeeded size placed steps := by
  obtain ⟨rest, rfl⟩ := Nat.exists_eq_add_of_lt hplaced
  have hbefore : placed + rest + 1 - placed = rest + 1 := by omega
  have hafter : placed + rest + 1 - (placed + 1) = rest := by omega
  unfold depthNeeded
  rw [hbefore, hafter, Nat.add_one_mul rest]
  omega

/-- The depth that is given at the start suffices for any type. -/
theorem depthNeeded_le_depthBound (store : Store) :
    depthNeeded store.size 0 0 ≤ depthBound store := by
  unfold depthNeeded depthBound
  rw [Nat.mul_comm (2 * store.size + 2), Nat.add_one_mul store.size, Nat.sub_zero]
  omega

/-- Whether a depth suffices for the building of a type in some state, as the placeholders around it
and the trail that leads to it tell. -/
def Suffices (store : Store) (depth : Nat) (s : BuildState) (ref : Int) : Prop :=
  ∃ (placed : List Int) (start : Int) (steps : Nat), store.walk start steps = ref ∧
    placed.Nodup ∧ (∀ other ∈ placed, s.graph.hasPlaceholder other = true) ∧
    store.Trail s.following start steps ∧ depthNeeded store.size placed.length steps ≤ depth

/-- Between two entries the depth that graphs are built with suffices for every type. -/
theorem suffices_of_depthBound {depth : Nat} (h : depthBound store ≤ depth) (s : BuildState)
    (ref : Int) : Suffices store depth s ref :=
  ⟨[], ref, 0, rfl, List.nodup_nil, by simp, store.trail_zero _ ref,
    (depthNeeded_le_depthBound store).trans h⟩

section Suffices

variable {depth : Nat} (hshort : store.Short ref)
include hshort

/-- A depth that suffices is not used up. -/
theorem Suffices.pos (h : Suffices store depth s ref) : 1 ≤ depth := by
  obtain ⟨placed, start, steps, hend, -, -, htrail, hdepth⟩ := h
  have hsteps := hshort _ _ _ htrail hend
  unfold depthNeeded at hdepth
  omega

/-- What an entry other than a composite with members turns to is the next step on the trail. -/
theorem Suffices.passage {needed : Int} (h : Suffices store (depth + 1) s ref)
    (he : store.entry? ref = some e) (hpassage : store.passage? e = some needed)
    (huncut : ¬ IsCut e s needed) : Suffices store depth (s.begun e) needed := by
  obtain ⟨placed, start, steps, rfl, hnodup, hplaced, htrail, hdepth⟩ := h
  have hsteps := hshort _ _ _ htrail rfl
  obtain ⟨hnext, htrail⟩ := htrail.extend he hpassage huncut
  refine ⟨placed, start, steps + 1, hnext, hnodup, ?_, htrail, ?_⟩
  · simpa using hplaced
  · unfold depthNeeded at hdepth ⊢
    omega

/-- What a composite turns to is the first step on a trail under another placeholder. -/
theorem Suffices.member {g : TypeGraph} {needed : Int} (h : Suffices store (depth + 1) s ref)
    (hcoherent : s.Coherent store) (hbody : store.IsBody ref)
    (hplaceholder : s.graph.addPlaceholder ref = .ok g)
    (hkept : ∀ other, g.hasPlaceholder other = true → t.graph.hasPlaceholder other = true) :
    Suffices store depth t needed := by
  obtain ⟨placed, start, steps, hend, hnodup, hplaced, htrail, hdepth⟩ := h
  obtain ⟨hinner, hown⟩ := hcoherent.addPlaceholder hbody hplaceholder
  -- the placeholder of the type is new, so that there is one more around the members
  have hothers := fun other hother =>
    BuildState.hasPlaceholder_addPlaceholder hplaceholder (hplaced other hother)
  have hnodup : (ref :: placed).Nodup :=
    List.nodup_cons.2 ⟨fun hmem => (hothers ref hmem).1 rfl, hnodup⟩
  have hall : ∀ other ∈ ref :: placed, g.hasPlaceholder other = true :=
    List.forall_mem_cons.2 ⟨hown, fun other hother => (hothers other hother).2⟩
  have hlength := placed_length_le hinner hnodup hall
  rw [List.length_cons] at hlength
  have hstep := depthNeeded_body (Nat.lt_of_succ_le hlength) (hshort _ _ _ htrail hend)
  refine ⟨ref :: placed, needed, 0, rfl, hnodup,
    fun other hother => hkept other (hall other hother), store.trail_zero _ needed, ?_⟩
  rw [List.length_cons]
  omega

end Suffices

/-- A way to build types that does not run out of depth where the depth suffices. -/
def Spares (store : Store) (depth : Nat) (recurse : Recurse) : Prop :=
  ∀ ref usedBy s, s.Coherent store → s.Surrounds store ref → Suffices store depth s ref →
    ¬ s.graph.Exhausted → ¬ ((recurse ref usedBy).exec s).2.graph.Exhausted ∧
      ∀ stop, ((recurse ref usedBy).exec s).1 = .error stop → stop ≠ .cause .endless

section Spares

variable {depth : Nat} (hspares : Spares store depth recurse)
  (hfinite : ∀ ref, ¬ store.Endless ref) (he : store.entry? e.ref = some e)
  (hcoherent : s.Coherent store) (hsurrounds : s.Surrounds store e.ref)
  (hdepth : Suffices store (depth + 1) s e.ref) (hs : ¬ s.graph.Exhausted)
include hspares hfinite hcoherent hsurrounds hdepth hs

include he in
/-- For the type that an entry needs the depth suffices. -/
theorem Spares.needed {needed : Int} (hpassage : store.passage? e = some needed)
    (huncut : ¬ IsCut e s needed) :
    ¬ ((recurse needed (some e.ref)).exec (s.begun e)).2.graph.Exhausted ∧
      ∀ stop, ((recurse needed (some e.ref)).exec (s.begun e)).1 = .error stop →
        stop ≠ .cause .endless := by
  obtain ⟨hbegun, hwithin⟩ := hcoherent.passage hsurrounds he hpassage
  have hshort := store.short_of_not_endless hfinite e.ref
  exact hspares _ _ _ hbegun hwithin (hdepth.passage hshort he hpassage huncut) (by simpa using hs)

/-- For the types that the members of a composite need the depth suffices. -/
theorem Spares.body (hrec : Builds store recurse) {g : TypeGraph} {stop? : Option BuildStop}
    {t : BuildState} (hbody : store.IsBody e.ref)
    (hplaceholder : s.graph.addPlaceholder e.ref = .ok g)
    (hcourse : Course recurse (store.Needs e.ref) { s with graph := g } stop? t) :
    ¬ t.graph.Exhausted ∧ ∀ stop, stop? = some stop → stop ≠ .cause .endless := by
  obtain ⟨hinner, -⟩ := hcoherent.addPlaceholder hbody hplaceholder
  -- a placeholder exhausts nothing
  have hbegun : ¬ g.Exhausted := by
    obtain ⟨-, rfl⟩ := addPlaceholder_eq_ok hplaceholder
    exact hs
  have hshort := store.short_of_not_endless hfinite e.ref
  obtain ⟨hkept, hstop⟩ := hcourse.keeps_placed (fun u => ¬ u.graph.Exhausted)
    (· ≠ .cause .endless) hrec hinner (hsurrounds.addPlaceholder hplaceholder)
    (fun needed usedBy u _ hcoherent' hsurrounds' hplaced hu =>
      hspares needed usedBy u hcoherent' hsurrounds'
        (hdepth.member hshort hcoherent hbody hplaceholder hplaced) hu)
    hbegun
  exact ⟨hkept, fun stop h => (hstop stop h).elim ne_endless_of_isOwn id⟩

include he in
/-- An entry takes one more step of depth than what it needs. -/
theorem Spares.frame (hrec : Builds store recurse) (hframe : Frame store recurse e s result) :
    ¬ result.2.graph.Exhausted ∧ result.1 ≠ .error (.cause .endless) := by
  cases hframe with
  | alone _ _ hclosing => exact hclosing.not_exhausted hs
  | failed hpassage huncut h =>
    -- the stop is that of the type that the entry needs
    have hnext := hspares.needed hfinite he hcoherent hsurrounds hdepth hs hpassage huncut
    rw [h] at hnext
    exact ⟨by simpa using hnext.1, fun hstop => hnext.2 _ rfl (Except.error.inj hstop)⟩
  | built hpassage huncut h hclosing =>
    have hnext := hspares.needed hfinite he hcoherent hsurrounds hdepth hs hpassage huncut
    rw [h] at hnext
    exact hclosing.not_exhausted (by simpa using hnext.1)
  | abandoned hbody hplaceholder hcourse =>
    obtain ⟨hkept, hstop⟩ :=
      hspares.body hfinite hcoherent hsurrounds hdepth hs hrec hbody hplaceholder hcourse
    refine ⟨?_, fun h => hstop _ rfl (Except.error.inj h)⟩
    rwa [Exhausted, discardPlaceholder_faults]
  | filled hbody hplaceholder hcourse _ _ hfill =>
    obtain ⟨hkept, -⟩ :=
      hspares.body hfinite hcoherent hsurrounds hdepth hs hrec hbody hplaceholder hcourse
    obtain ⟨-, rfl⟩ := fillPlaceholder_eq_ok hfill
    exact ⟨hkept, by simp⟩

end Spares

/-- Without endless types, no type is given up for want of depth. -/
theorem spares_buildRef (hfinite : ∀ ref, ¬ store.Endless ref) (target : Target) (depth : Nat) :
    Spares store depth (buildRef store target depth) := by
  induction depth with
  | zero =>
    intro ref usedBy s _ _ hdepth
    exact absurd (hdepth.pos (store.short_of_not_endless hfinite _)) (by decide)
  | succ depth ih =>
    intro ref usedBy s hcoherent hsurrounds hdepth hs
    refine ⟨?_, fun stop hstop hendless => ?_⟩
    · generalize hresult : (buildRef store target (depth + 1) ref usedBy).exec s = result
      cases hresult ▸ turn_buildRef target depth usedBy hcoherent hsurrounds with
      | there | known => exact hs
      | missing => exact fun h => hs (exhausted_noted.1 h)
      | entry _ _ he hframe =>
        obtain rfl := Store.entry?_ref he
        exact not_exhausted_concluded (ih.frame hfinite he hcoherent hsurrounds hdepth hs
          (runs_buildRef store target depth) hframe)
    · rw [hendless] at hstop
      exact absurd (buildRef_eq_cause hstop).1 (by simp)

-- ------------------------------------------------------------------------------------------------
-- Endless types
-- ------------------------------------------------------------------------------------------------

/-- What is known of endless types throughout: none of them is in the graph, and if it is known that
one is left out, then some type was given up for want of depth. This takes that nothing but aliases
is ever followed. -/
structure Circling (store : Store) (s : BuildState) : Prop where
  following : ∀ other ∈ s.following, store.IsAlias other
  absent : ∀ ref, store.Endless ref → s.graph.has ref = false
  exhausted : ∀ ref, store.Endless ref → (s.failures.get? ref).isSome = true → s.graph.Exhausted

theorem circling_start (store : Store) : Circling store .start where
  following _ h := absurd h (by simp [BuildState.start])
  absent _ _ := rfl
  exhausted _ _ h := absurd h (by simp [BuildState.start])

/-- A graph without any more endless types, and no fewer faults, is as good. -/
theorem Circling.withGraph {g : TypeGraph} (hs : Circling store s)
    (hfaults : g.faults = s.graph.faults)
    (hhas : ∀ other, store.Endless other → g.has other = true → s.graph.has other = true) :
    Circling store { s with graph := g } where
  following := hs.following
  absent ref hendless := by
    by_contra hhas'
    have hbefore := hhas ref hendless (by simpa using hhas')
    rw [hs.absent ref hendless] at hbefore
    exact absurd hbefore (by decide)
  exhausted ref hendless hfailed := by
    obtain ⟨other, hother⟩ := hs.exhausted ref hendless hfailed
    exact ⟨other, hfaults ▸ hother⟩

/-- A missing type on record tells nothing of endless types. -/
theorem Circling.noted (hs : Circling store s) (missing : Dangling) :
    Circling store (s.noted (.dangling missing)) := by
  unfold BuildState.noted
  split
  · exact hs
  · refine ⟨hs.following, hs.absent, fun ref hendless hfailed => ?_⟩
    obtain ⟨other, hother⟩ := hs.exhausted ref hendless hfailed
    exact ⟨other, List.mem_append_left _ hother⟩

theorem Circling.begun (hs : Circling store s) (he : store.entry? e.ref = some e) :
    Circling store (s.begun e) := by
  refine ⟨?_, by simpa using hs.absent, by simpa using hs.exhausted⟩
  unfold BuildState.begun
  split
  · rename_i htag
    intro other hother
    rcases List.mem_insert_iff.1 hother with rfl | hother
    · exact ⟨e, he, htag⟩
    · exact hs.following other hother
  · exact hs.following

theorem Circling.ended (hs : Circling store s) : Circling store (s.ended e) := by
  refine ⟨?_, by simpa using hs.absent, by simpa using hs.exhausted⟩
  unfold BuildState.ended
  split
  · exact fun other hother => hs.following other (List.mem_filter.1 hother).1
  · exact hs.following

/-- It may be remembered why a type is left out that is not endless, and that an endless one is if
the depth did not suffice. -/
theorem Circling.leftOut {stop : BuildStop} (hs : Circling store s)
    (h : store.Endless ref → s.graph.Exhausted ∨ stop = .cause .endless) :
    Circling store (s.leftOut ref stop) := by
  have hgraph : ∀ other, (s.leftOut ref stop).graph.has other = s.graph.has other := by
    cases stop <;> exact fun _ => rfl
  have hfailures : ∀ other, other ≠ ref →
      (s.leftOut ref stop).failures.get? other = s.failures.get? other := by
    intro other hne
    cases stop <;> exact (OrderedMap.get?_insert ..).trans (if_neg hne.symm)
  refine ⟨?_, fun other hendless => ?_, fun other hendless hfailed => ?_⟩
  · cases stop <;> exact hs.following
  · rw [hgraph]
    exact hs.absent other hendless
  · rw [exhausted_leftOut]
    -- of other types nothing new is known
    by_cases hother : other = ref
    · subst hother
      exact h hendless
    · rw [hfailures other hother] at hfailed
      exact .inl (hs.exhausted other hendless hfailed)

/-- The end of an entry that is not endless. -/
theorem Circling.closing (hs : Circling store s) (hfinite : ¬ store.Endless e.ref)
    (h : Closing e s result) : Circling store result.2 := by
  cases h with
  | refused | clash => exact hs
  | noted missing => exact hs.noted missing
  | added hgains =>
    refine hs.withGraph hgains.faults fun other hendless hhas => ?_
    rcases (hgains.has other).1 hhas with rfl | hhas
    · exact absurd hendless hfinite
    · exact hhas

/-- A way to build types that keeps to this, and after which the depth did not suffice if the type
was endless and is said to be left out. -/
def Circles (store : Store) (recurse : Recurse) : Prop :=
  ∀ ref usedBy s, s.Coherent store → s.Surrounds store ref → Circling store s →
    Circling store ((recurse ref usedBy).exec s).2 ∧
      ∀ stop, ((recurse ref usedBy).exec s).1 = .error stop → store.Endless ref →
        ((recurse ref usedBy).exec s).2.graph.Exhausted ∨ stop = .cause .endless

/-- An endless type turns to another one, which is endless too. -/
theorem exists_passage_of_endless (he : store.entry? e.ref = some e)
    (hfollowing : ∀ other ∈ s.following, store.IsAlias other) (h : store.Endless e.ref) :
    ∃ needed, store.passage? e = some needed ∧ ¬ IsCut e s needed ∧ store.Endless needed := by
  obtain ⟨needed, hstep, hneeded⟩ := h.step
  obtain ⟨hpassage, haliases⟩ := hstep.passage? he
  refine ⟨needed, hpassage, ?_, hneeded⟩
  rintro ⟨htag, hcut⟩
  refine haliases ⟨htag, ?_⟩
  rcases hcut with hcut | rfl
  · exact hfollowing needed hcut
  · exact ⟨e, he, htag⟩

section Entry

variable (hcircles : Circles store recurse) (he : store.entry? e.ref = some e)
  (hcoherent : s.Coherent store) (hsurrounds : s.Surrounds store e.ref) (hs : Circling store s)
include hcircles he hcoherent hsurrounds hs

/-- The type that an endless entry turns to is endless as well, and its building keeps to it. -/
theorem Circles.needed {needed : Int} (hpassage : store.passage? e = some needed) :
    (store.Endless e.ref → store.Endless needed) ∧
      Circling store ((recurse needed (some e.ref)).exec (s.begun e)).2 ∧
      ∀ stop, ((recurse needed (some e.ref)).exec (s.begun e)).1 = .error stop →
        store.Endless needed →
        ((recurse needed (some e.ref)).exec (s.begun e)).2.graph.Exhausted ∨
          stop = .cause .endless := by
  obtain ⟨hbegun, hwithin⟩ := hcoherent.passage hsurrounds he hpassage
  refine ⟨fun hendless => ?_, hcircles _ _ _ hbegun hwithin (hs.begun he)⟩
  obtain ⟨next, hnext, -, hneeded⟩ := exists_passage_of_endless he hs.following hendless
  obtain rfl := Option.some.inj (hpassage.symm.trans hnext)
  exact hneeded

/-- A composite with members turns to no type before it has its placeholder, and so it is not
endless. Its members keep to it. -/
theorem Circles.body (hrec : Builds store recurse) {g : TypeGraph} {stop? : Option BuildStop}
    {t : BuildState} (hbody : store.IsBody e.ref)
    (hplaceholder : s.graph.addPlaceholder e.ref = .ok g)
    (hcourse : Course recurse (store.Needs e.ref) { s with graph := g } stop? t) :
    Circling store t ∧ ¬ store.Endless e.ref := by
  -- an endless type turns to another one, and a composite with members to none
  have hfinite : ¬ store.Endless e.ref := by
    intro hendless
    obtain ⟨needed, hpassage, -⟩ := exists_passage_of_endless he hs.following hendless
    exact Store.not_isBody_of_passage? he hpassage hbody
  obtain ⟨hinner, -⟩ := hcoherent.addPlaceholder hbody hplaceholder
  have hbegun : Circling store { s with graph := g } := by
    obtain ⟨-, rfl⟩ := addPlaceholder_eq_ok hplaceholder
    refine hs.withGraph rfl fun other hendless hhas => ?_
    rcases (has_insert_node _).1 hhas with rfl | hhas
    · exact absurd hendless hfinite
    · exact hhas
  refine ⟨(hcourse.keeps (Circling store) (fun _ => True) hrec hinner
    (hsurrounds.addPlaceholder hplaceholder) (fun needed usedBy u _ hcoherent hsurrounds hu => ?_)
    hbegun).1, hfinite⟩
  exact ⟨(hcircles needed usedBy u hcoherent hsurrounds hu).1, fun _ _ => trivial⟩

/-- Entries keep to it if what they need does. -/
theorem Circles.frame (hrec : Builds store recurse) (hframe : Frame store recurse e s result) :
    Circling store result.2 ∧ (store.Endless e.ref →
      ∃ stop, result.1 = .error stop ∧ (result.2.graph.Exhausted ∨ stop = .cause .endless)) := by
  cases hframe with
  | alone _ hcut hclosing =>
    -- an endless entry would have turned to another type
    have hfinite : ¬ store.Endless e.ref := by
      intro hendless
      obtain ⟨needed, hpassage, huncut, -⟩ := exists_passage_of_endless he hs.following hendless
      exact huncut (hcut needed hpassage)
    exact ⟨hs.closing hfinite hclosing, fun h => absurd h hfinite⟩
  | @failed needed stop t hpassage _ h =>
    obtain ⟨hnext, hkept, hstop⟩ := hcircles.needed he hcoherent hsurrounds hs hpassage
    rw [h] at hkept hstop
    refine ⟨hkept.ended, fun hendless => ⟨stop, rfl, ?_⟩⟩
    rw [BuildState.graph_ended]
    exact hstop stop rfl (hnext hendless)
  | @built needed t _ hpassage _ h hclosing =>
    obtain ⟨hnext, hkept, -⟩ := hcircles.needed he hcoherent hsurrounds hs hpassage
    obtain ⟨hbegun, hwithin⟩ := hcoherent.passage hsurrounds he hpassage
    have hbuilt := (hrec needed (some e.ref) (s.begun e) hbegun hwithin trivial).2
    rw [h] at hkept hbuilt
    -- what was built is in the graph, and therefore not endless
    have hfinite : ¬ store.Endless e.ref := by
      intro hendless
      have habsent := hkept.absent needed (hnext hendless)
      have hbuilt : t.graph.has needed = true := hbuilt
      rw [habsent] at hbuilt
      exact absurd hbuilt (by decide)
    exact ⟨hkept.ended.closing hfinite hclosing, fun h => absurd h hfinite⟩
  | abandoned hbody hplaceholder hcourse =>
    -- without the placeholder there is less in the graph
    obtain ⟨hkept, hfinite⟩ :=
      hcircles.body he hcoherent hsurrounds hs hrec hbody hplaceholder hcourse
    exact ⟨hkept.withGraph discardPlaceholder_faults fun _ _ => has_of_discardPlaceholder,
      fun h => absurd h hfinite⟩
  | filled hbody hplaceholder hcourse hnode _ hfill =>
    -- the composite that takes the place of the placeholder is not endless
    obtain ⟨hkept, hfinite⟩ :=
      hcircles.body he hcoherent hsurrounds hs hrec hbody hplaceholder hcourse
    obtain ⟨hplaced, rfl⟩ := fillPlaceholder_eq_ok hfill
    refine ⟨hkept.withGraph rfl fun other hendless hhas => ?_, fun h => absurd h hfinite⟩
    rcases (has_insert_node _).1 hhas with rfl | hhas
    · rw [hnode] at hendless
      exact absurd hendless hfinite
    · exact hhas

end Entry

/-- Building references keeps to what is known of endless types. The induction is on the depth, and
its end is where a type is given up. -/
theorem circles_buildRef (store : Store) (target : Target) (depth : Nat) :
    Circles store (buildRef store target depth) := by
  induction depth with
  | zero => exact fun ref usedBy s _ _ hs => ⟨hs, fun stop h _ => .inr (Except.error.inj h).symm⟩
  | succ depth ih =>
    intro ref usedBy s hcoherent hsurrounds hs
    generalize hresult : (buildRef store target (depth + 1) ref usedBy).exec s = result
    cases hresult ▸ turn_buildRef target depth usedBy hcoherent hsurrounds with
    | there => exact ⟨hs, by simp⟩
    | known _ hfault =>
      refine ⟨hs, fun _ _ hendless => .inl (hs.exhausted ref hendless ?_)⟩
      rw [hfault]
      rfl
    | missing _ he =>
      refine ⟨hs.noted _, fun _ _ hendless => ?_⟩
      -- an endless type has an entry, and this one has none
      obtain ⟨next, hnext, -⟩ := hendless.step
      obtain ⟨e, he', -⟩ := hnext.exists_entry?
      rw [he] at he'
      exact absurd he' (by simp)
    | @entry e result _ _ he hframe =>
      obtain rfl := Store.entry?_ref he
      obtain ⟨hkept, hendless⟩ := ih.frame he hcoherent hsurrounds hs
        (runs_buildRef store target depth) hframe
      obtain ⟨outcome, t⟩ := result
      cases outcome with
      | ok a =>
        refine ⟨hkept, fun stop h => absurd h (by simp [concluded])⟩
      | error stop =>
        -- a stop of an endless type is one for want of depth
        have hstop : store.Endless e.ref → t.graph.Exhausted ∨ stop = .cause .endless := by
          intro h
          obtain ⟨other, hother, hexhausted⟩ := hendless h
          obtain rfl := Except.error.inj hother
          exact hexhausted
        exact ⟨hkept.leftOut hstop, fun _ _ h => .inl (exhausted_leftOut.2 (hstop h))⟩

-- ------------------------------------------------------------------------------------------------
-- The whole graph
-- ------------------------------------------------------------------------------------------------

/-- An endless type is not built in any depth: some type is given up for want of it. -/
theorem exhausted_of_endless (target : Target) (depth : Nat) (h : store.Endless ref) :
    (buildWithin (depth + 1) target store).Exhausted := by
  rw [buildWithin_eq]
  -- after the visits every type is there or known to be left out, and what is known of endless
  -- types is true
  have hfinal := stateWithin_induction
    (P := fun before s => Circling store s ∧
      ∀ q ∈ before, q.entry.tag.isType = true → Settled s q.entry.ref)
    (depth + 1) target ⟨circling_start store, by simp⟩ (by
      rintro before s p hidle hp ⟨hs, hbefore⟩
      have hrun := run_visit target (depth + 1) hidle p
      constructor
      · unfold visit
        split
        · exact (circles_buildRef store target (depth + 1) _ _ s hidle.coherent
            (hidle.surrounds _) hs).1
        · exact hs
      · intro other hother hothertype
        rcases List.mem_append.1 hother with hother | hother
        · exact (hbefore other hother hothertype).run hrun
        · obtain rfl := List.mem_singleton.1 hother
          exact settled_visit target depth hidle hp hothertype)
  obtain ⟨-, hcircling, hsettled⟩ := hfinal
  obtain ⟨next, hnext, -⟩ := h.step
  obtain ⟨e, he, htype⟩ := hnext.exists_entry?
  obtain ⟨p, hp, rfl⟩ := Store.exists_placed he
  obtain rfl := Store.entry?_ref he
  -- it is not there, so that it was left out, which takes that some type was given up
  rcases hsettled p hp htype with hhas | hfailed
  · rw [hcircling.absent _ h] at hhas
    exact absurd hhas (by decide)
  · exact hcircling.exhausted _ h hfailed

/-- The number of nested steps of a building is bounded in terms of the number of entries exactly if
no type is endless: with the bound or any greater one, some type is given up for want of depth if
and only if there is an endless type. -/
theorem exhausted_iff_endless (target : Target) (store : Store) {depth : Nat}
    (hdepth : depthBound store ≤ depth) :
    (buildWithin depth target store).Exhausted ↔ ∃ ref, store.Endless ref := by
  constructor
  · intro hexhausted
    by_contra hfinite
    rw [not_exists] at hfinite
    rw [buildWithin_eq] at hexhausted
    -- by induction over the visits: no type is given up in any of them
    refine (stateWithin_induction (P := fun _ s => ¬ s.graph.Exhausted) depth target
      (fun h => ?_) ?_).2 hexhausted
    · obtain ⟨ref, href⟩ := h
      exact absurd href (by simp [BuildState.start, empty])
    · intro before s p hidle _ hs
      unfold visit
      split
      · exact (spares_buildRef hfinite target depth _ _ s hidle.coherent (hidle.surrounds _)
          (suffices_of_depthBound hdepth s _) hs).1
      · exact hs
  · rintro ⟨ref, hendless⟩
    have hpos : depth = depth - 1 + 1 := by
      unfold depthBound at hdepth
      omega
    rw [hpos]
    exact exhausted_of_endless target (depth - 1) hendless

/-- An array whose elements are the array. -/
def ringRoot : Entry :=
  .node 1 Tag.compileUnit (.ofList [(Attr.name, .text "a.c")])
    [.node 2 Tag.arrayType (.ofList [(Attr.type, .int 2)])
      [.node 3 Tag.subrangeType (.ofList [(Attr.count, .int 3)]) []]]

def ringStore : Store := (Store.empty.addRoot ringRoot).1

/-- An array of itself is given up, and it is endless. -/
theorem exhausted_iff_endless_ring :
    depthBound ringStore ≤ 40 ∧ ((buildWithin 40 .standard ringStore).Exhausted ↔
      ∃ ref, ringStore.Endless ref) :=
  ⟨by decide, exhausted_iff_endless .standard ringStore (by decide)⟩

/-- No number of nested steps is enough for three entries. -/
theorem ring_nests_without_bound :
    ringStore.size = 3 ∧ ∀ depth, (buildWithin (depth + 1) .standard ringStore).Exhausted := by
  have hround : ringStore.Unchecked 2 2 := .element rfl rfl rfl
  exact ⟨rfl, fun depth => exhausted_of_endless .standard depth (.single hround)⟩

end TypeGraph

end DebugLayout
