import DebugLayout.Proofs.TypeGraph.Facts

/-!
# DebugLayout — building a type before and after others

The building of a type remembers what it comes to, so that it depends on what was built before.
Where no type contains itself the dependence does not show: a type comes to what it would come to in
a **fresh** state, and what is learned is what would be learned there.

This is shown for two states at a time. Two steps **agree** if, from two states in which the same
type may be built, they come to the same outcome and learn the same. The rules for agreement follow
the ways in which steps are put together, and a type that is needed is built in agreement if it
comes to what it would in a fresh state.

* `TypeGraph.fresh`, `BuildState.Faithful`: a fresh state, and what is remembered of it elsewhere;
* `BuildState.Ready`, `BuildState.Open`: states in which a type is, or may be, under construction;
* `Build.Agrees`: steps that agree, and the rules for them.
-/

namespace DebugLayout

open Relation (ReflTransGen TransGen)

/-- What becomes of a type that is the first to be built. -/
def TypeGraph.fresh (store : Store) (target : Target) (ref : Int) (usedBy : Option Int) :
    Except BuildStop Unit × BuildState :=
  Build.exec (buildRef store target (depthBound store) ref usedBy) .start

namespace BuildState

open TypeGraph (fresh)

variable {store : Store} {target : Target} {root ref needed : Int} {s s' t t' : BuildState}

/-- Whether a type stands is a matter of what is known of it. -/
theorem stands_of_known (hknown : t.known ref = s.known ref) (h : t.Stands ref) : s.Stands ref := by
  have hnodes : t.graph.nodes.get? ref = s.graph.nodes.get? ref := congrArg (·.1) hknown
  have haliases : t.graph.aliases.get? ref = s.graph.aliases.get? ref := congrArg (·.2.1) hknown
  rcases h with ⟨node, hnode, hreal⟩ | ⟨target, htarget⟩
  · exact .inl ⟨node, hnodes ▸ hnode, hreal⟩
  · exact .inr ⟨target, haliases.symm.trans htarget⟩

/-- Why a type was left out is a matter of what is known of it. -/
theorem failures_of_known (hknown : t.known ref = s.known ref) :
    t.failures.get? ref = s.failures.get? ref :=
  congrArg (·.2.2) hknown

/-- Whether a composite is being built is a matter of what is known of it. -/
theorem hasPlaceholder_of_known (hknown : t.known ref = s.known ref) :
    t.graph.hasPlaceholder ref = s.graph.hasPlaceholder ref := by
  have hnodes : t.graph.nodes.get? ref = s.graph.nodes.get? ref := congrArg (·.1) hknown
  rw [TypeGraph.hasPlaceholder, TypeGraph.hasPlaceholder, hnodes]

/-- A fault on record changes nothing of what is known of any type. -/
theorem known_noted (fault : TypeFault) : (s.noted fault).known ref = s.known ref := by
  unfold noted
  split <;> rfl

/-- To put a missing type on record is a run. -/
theorem run_noted (root : Int) {missing : Int} (usedBy : Option Int)
    (hmissing : store.entry? missing = none) :
    Run store root s (s.noted (.dangling ⟨missing, usedBy⟩)) := by
  unfold noted
  split
  · exact .refl root s
  · refine .record fun blamed hblamed => ?_
    obtain rfl := TypeFault.dangling.inj hblamed
    exact Store.not_isBody_of_missing hmissing

-- ---------------------------------------------------------------------------
-- States that hold what fresh ones do
-- ---------------------------------------------------------------------------

/-- Whether a state holds of a type only what would become of it in a fresh state, and with it all
that would be learned there. -/
structure Faithful (store : Store) (target : Target) (s : BuildState) (ref : Int) : Prop where
  standing : s.Stands ref → ∀ usedBy, (fresh store target ref usedBy).1 = .ok () ∧
    (fresh store target ref usedBy).2.facts ⊆ s.facts
  failed : ∀ fault, s.failures.get? ref = some fault → ∀ usedBy,
    (fresh store target ref usedBy).1 = .error (.type fault) ∧
      (fresh store target ref usedBy).2.facts ⊆ s.facts

/-- What is learned about other things does not matter. -/
theorem Faithful.mono (h : Faithful store target s ref) (hstands : t.Stands ref → s.Stands ref)
    (hfailures : t.failures.get? ref = s.failures.get? ref) (hsub : s.facts ⊆ t.facts) :
    Faithful store target t ref where
  standing href usedBy :=
    (h.standing (hstands href) usedBy).imp_right fun hfacts => hfacts.trans hsub
  failed fault hfault usedBy :=
    (h.failed fault (hfailures ▸ hfault) usedBy).imp_right fun hfacts => hfacts.trans hsub

/-- A state stays faithful about a type of which nothing new is known, whatever else is learned. -/
theorem Faithful.of_known (h : Faithful store target s ref) (hknown : t.known ref = s.known ref)
    (hsub : s.facts ⊆ t.facts) : Faithful store target t ref :=
  h.mono (stands_of_known hknown) (failures_of_known hknown) hsub

/-- What a state keeps to between the parts of a type. -/
structure Consistent (store : Store) (target : Target) (s : BuildState) : Prop where
  coherent : s.Coherent store
  tidy : s.Tidy
  faithful : ∀ ref, Faithful store target s ref

-- ---------------------------------------------------------------------------
-- Types that may be built
-- ---------------------------------------------------------------------------

/-- Whether a type may be built: it is not among those under construction, which all need it. -/
structure Open (store : Store) (target : Target) (ref : Int) (s : BuildState) : Prop where
  consistent : Consistent store target s
  surrounds : ∀ outer, s.graph.hasPlaceholder outer = true → TransGen store.Needs outer ref
  following : ∀ other ∈ s.following, TransGen store.Needs other ref

/-- Whether nothing is known yet of a type that may be built. -/
structure Due (store : Store) (target : Target) (ref : Int) (s : BuildState) : Prop extends
    Open store target ref s where
  unbuilt : ¬ s.Stands ref
  unfailed : s.failures.get? ref = none

/-- Whether a type is under construction, and so are only types that need it. The placeholder of a
composite is there. -/
structure Ready (store : Store) (target : Target) (root : Int) (s : BuildState) : Prop where
  consistent : Consistent store target s
  surrounds : s.Surrounds store root
  following : ∀ other ∈ s.following, ReflTransGen store.Needs other root
  unbuilt : ¬ s.Stands root
  unfailed : s.failures.get? root = none
  begun : store.IsBody root → s.graph.hasPlaceholder root = true

/-- A type that is needed by the one under construction may be built. -/
theorem Ready.open (h : Ready store target root s) (hneeds : store.Needs root needed) :
    Open store target needed s where
  consistent := h.consistent
  surrounds outer houter := TransGen.tail' (h.surrounds outer houter) hneeds
  following other hother := TransGen.tail' (h.following other hother) hneeds

/-- A type stays under construction as long as nothing becomes known of it. -/
theorem Ready.of_known (h : Ready store target root s) (hknown : t.known root = s.known root)
    (hrun : Run store ref s t) (ht : Consistent store target t) : Ready store target root t where
  consistent := ht
  surrounds := hrun.surrounds h.surrounds
  following other hother := h.following other (hrun.following other hother)
  unbuilt hstands := h.unbuilt (stands_of_known hknown hstands)
  unfailed := (failures_of_known hknown).trans h.unfailed
  begun hbody := (hasPlaceholder_of_known hknown).trans (h.begun hbody)

/-- A type that is needed may be built in between. -/
theorem Ready.after (hacyclic : store.Acyclic) (h : Ready store target root s)
    (hneeds : store.Needs root needed) (hrun : Run store needed s t)
    (ht : Consistent store target t) : Ready store target root t := by
  have hapart : ¬ ReflTransGen store.Needs needed root :=
    fun hback => hacyclic root (TransGen.head' hneeds hback)
  exact h.of_known (hrun.known hapart) hrun ht

/-- That a reference leads nowhere may be noted. -/
theorem Consistent.noted (h : Consistent store target s) {missing : Int} {usedBy : Option Int}
    (hmissing : store.entry? missing = none) :
    Consistent store target (s.noted (.dangling ⟨missing, usedBy⟩)) where
  coherent := (run_noted missing usedBy hmissing).coherent h.coherent
  tidy := h.tidy.noted _
  faithful ref := (h.faithful ref).of_known (known_noted _)
    (facts_noted s (.dangling ⟨missing, usedBy⟩) ▸ Set.subset_union_left)

/-- A type stays under construction while a missing type is put on record. -/
theorem Ready.noted (h : Ready store target root s) {missing : Int} {usedBy : Option Int}
    (hmissing : store.entry? missing = none) :
    Ready store target root (s.noted (.dangling ⟨missing, usedBy⟩)) :=
  h.of_known (known_noted _) (run_noted root usedBy hmissing) (h.consistent.noted hmissing)

/-- An alias under construction may be followed. -/
theorem Ready.withFollowing (h : Ready store target root s) (hbody : ¬ store.IsBody root)
    {following : List Int} (hsub : ∀ other ∈ following, other = root ∨ other ∈ s.following) :
    Ready store target root { s with following } := by
  have hcoherent : BuildState.Coherent { s with following } store := by
    refine ⟨h.consistent.coherent.graph, fun other hother => ?_, h.consistent.coherent.faults,
      h.consistent.coherent.failures⟩
    rcases hsub other hother with rfl | hother
    · exact hbody
    · exact h.consistent.coherent.following other hother
  refine ⟨⟨hcoherent, ⟨h.consistent.tidy.once, h.consistent.tidy.settled, h.consistent.tidy.named⟩,
    fun ref => (h.consistent.faithful ref).of_known rfl subset_rfl⟩, h.surrounds,
    fun other hother => ?_, h.unbuilt, h.unfailed, h.begun⟩
  rcases hsub other hother with rfl | hother
  · exact .refl
  · exact h.following other hother

/-- What was built of a type that does not contain itself is no placeholder. -/
theorem Open.stands (hacyclic : store.Acyclic) (h : Open store target ref s)
    (hhas : s.graph.has ref = true) : s.Stands ref := by
  refine stands_of_has hhas ?_
  by_contra hplaceholder
  exact hacyclic ref (h.surrounds ref (by simpa using hplaceholder))

/-- A type that is due is not in the graph, not even as a placeholder. -/
theorem Due.has_eq_false (hacyclic : store.Acyclic) (h : Due store target ref s) :
    s.graph.has ref = false := by
  by_contra hhas
  exact h.unbuilt (h.stands hacyclic (by simpa using hhas))

/-- The construction of a type that is no composite begins right away. -/
theorem Due.ready (h : Due store target ref s) (hbody : ¬ store.IsBody ref) :
    Ready store target ref s where
  consistent := h.consistent
  surrounds outer houter := (h.surrounds outer houter).to_reflTransGen
  following other hother := (h.following other hother).to_reflTransGen
  unbuilt := h.unbuilt
  unfailed := h.unfailed
  begun := fun h => absurd h hbody

/-- The construction of a composite begins with its placeholder. -/
theorem Due.begin (hacyclic : store.Acyclic) (h : Due store target ref s)
    (hbody : store.IsBody ref) :
    ∃ g, s.graph.addPlaceholder ref = .ok g ∧ Ready store target ref { s with graph := g } := by
  have hnew : s.graph.has ref = false := h.has_eq_false hacyclic
  obtain ⟨g, hg⟩ : ∃ g, s.graph.addPlaceholder ref = .ok g := by
    rw [TypeGraph.addPlaceholder, hnew]
    exact ⟨_, rfl⟩
  -- a placeholder tells nothing of any type
  have hfacts : ({ s with graph := g } : BuildState).facts = s.facts := facts_addPlaceholder hg
  have hsurrounds : s.Surrounds store ref :=
    fun outer houter => (h.surrounds outer houter).to_reflTransGen
  have hstands : ∀ other, ({ s with graph := g } : BuildState).Stands other → s.Stands other :=
    fun other hother => hother.mono hfacts.subset
  obtain ⟨-, hgraph⟩ := TypeGraph.addPlaceholder_eq_ok hg
  have hconsistent : Consistent store target { s with graph := g } :=
    { coherent := h.consistent.coherent.withGraph
        (h.consistent.coherent.graph.addPlaceholder hbody hg) (by rw [hgraph])
      tidy := h.consistent.tidy.withGraph (by rw [hgraph]) (by rw [hgraph]) (by rw [hgraph])
      faithful := fun other => (h.consistent.faithful other).mono (hstands other) rfl
        hfacts.symm.subset }
  refine ⟨g, hg, ?_⟩
  exact
    { consistent := hconsistent
      surrounds := hsurrounds.addPlaceholder hg
      following := fun other hother => (h.following other hother).to_reflTransGen
      unbuilt := fun hother => h.unbuilt (hstands ref hother)
      unfailed := h.unfailed
      begun := fun _ => by
        show g.hasPlaceholder ref = true
        rw [hgraph]
        exact TypeGraph.hasPlaceholder_iff.2 ⟨_, by rw [OrderedMap.get?_insert, if_pos rfl], rfl⟩ }

/-- A type under construction that is no composite has nothing in the graph. -/
theorem Ready.has_eq_false (h : Ready store target root s) (hbody : ¬ store.IsBody root) :
    s.graph.has root = false := by
  by_contra hhas
  have hhas : s.graph.has root = true := by simpa using hhas
  refine h.unbuilt (stands_of_has hhas ?_)
  by_contra hplaceholder
  exact hbody (h.consistent.coherent.graph.placeholders root (by simpa using hplaceholder))

-- ---------------------------------------------------------------------------
-- Learning the same
-- ---------------------------------------------------------------------------

/-- Whether two states have learned the same when they became two other ones. -/
def Learned (s s' t t' : BuildState) : Prop :=
  ∃ news : Set Fact, s'.facts = s.facts ∪ news ∧ t'.facts = t.facts ∪ news

theorem Learned.nothing (hs : s'.facts = s.facts) (ht : t'.facts = t.facts) : Learned s s' t t' :=
  ⟨∅, hs.trans (Set.union_empty _).symm, ht.trans (Set.union_empty _).symm⟩

/-- Who has learned the same twice has learned the same. -/
theorem Learned.trans {u v : BuildState} (h : Learned s s' t t') (h' : Learned s' u t' v) :
    Learned s u t v := by
  obtain ⟨news, hs, ht⟩ := h
  obtain ⟨more, hu, hv⟩ := h'
  refine ⟨news ∪ more, ?_, ?_⟩
  · rw [hu, hs, Set.union_assoc]
  · rw [hv, ht, Set.union_assoc]

theorem Learned.left (h : Learned s s' t t') : s.facts ⊆ s'.facts := by
  obtain ⟨news, hs, -⟩ := h
  exact hs ▸ Set.subset_union_left

theorem Learned.right (h : Learned s s' t t') : t.facts ⊆ t'.facts := by
  obtain ⟨news, -, ht⟩ := h
  exact ht ▸ Set.subset_union_left

end BuildState

-- ---------------------------------------------------------------------------
-- Steps that agree
-- ---------------------------------------------------------------------------

namespace Build

open BuildState (Consistent Faithful Learned Open Ready Run)

variable {α β : Type} {store : Store} {target : Target} {root : Int} {P : BuildState → Prop}
variable {Q : α → BuildState → Prop} {x y : Build α}

/-- Whether two results of steps from two states are the same, and leave something to hold. -/
structure Agree (I : Except BuildStop α → BuildState → Prop) (s t : BuildState)
    (left right : Except BuildStop α × BuildState) : Prop where
  outcome : left.1 = right.1
  learned : Learned s left.2 t right.2
  left : I left.1 left.2
  right : I right.1 right.2

/-- Two steps in the building of a type agree if their results do, from any two states in which the
type is under construction and some property holds. -/
def Agrees (store : Store) (target : Target) (root : Int) (P : BuildState → Prop) (x y : Build α)
    (I : Except BuildStop α → BuildState → Prop) : Prop :=
  ∀ s t, Ready store target root s → Ready store target root t → P s → P t →
    Agree I s t (x.exec s) (y.exec t)

/-- What holds after a step with which the building goes on: the type is still under construction,
and of a value something is claimed. -/
def Going (store : Store) (target : Target) (root : Int) (Q : α → BuildState → Prop)
    (outcome : Except BuildStop α) (s : BuildState) : Prop :=
  Ready store target root s ∧ ∀ a, outcome = .ok a → Q a s

/-- What holds after the last step: of all other types the state holds what it should, and if the
building stopped, the type is not there. -/
structure Ended (store : Store) (target : Target) (root : Int) (outcome : Except BuildStop Unit)
    (s : BuildState) : Prop where
  tidy : s.Tidy
  faithful : ∀ ref, ref ≠ root → Faithful store target s ref
  unfailed : s.failures.get? root = none
  unbuilt : ∀ stop, outcome = .error stop → ¬ s.Stands root

/-- What holds of a step that stops while the type is under construction. -/
class Tolerant (store : Store) (target : Target) (root : Int)
    (I : Except BuildStop α → BuildState → Prop) : Prop where
  stopped : ∀ stop s, Ready store target root s → I (.error stop) s

instance tolerantGoing : Tolerant store target root (Going store target root Q) where
  stopped _ _ hs := ⟨hs, fun _ ha => absurd ha (by simp)⟩

instance tolerantEnded : Tolerant store target root (Ended store target root) where
  stopped _ _ hs :=
    { tidy := hs.consistent.tidy
      faithful := fun ref _ => hs.consistent.faithful ref
      unfailed := hs.unfailed
      unbuilt := fun _ _ => hs.unbuilt }

variable {I : Except BuildStop β → BuildState → Prop}

/-- Steps that leave the state as it is, and always come to one outcome. -/
theorem agrees_still (outcome : Except BuildStop α)
    (hx : ∀ s, Ready store target root s → P s → x.exec s = (outcome, s))
    (hy : ∀ s, Ready store target root s → P s → y.exec s = (outcome, s))
    (hQ : ∀ a s, outcome = .ok a → P s → Q a s) :
    Agrees store target root P x y (Going store target root Q) := by
  intro s t hs ht hPs hPt
  rw [hx s hs hPs, hy t ht hPt]
  exact
    { outcome := rfl
      learned := .nothing rfl rfl
      left := ⟨hs, fun a ha => hQ a s ha hPs⟩
      right := ⟨ht, fun a ha => hQ a t ha hPt⟩ }

theorem agrees_pure {a : α} (h : ∀ s, P s → Q a s) :
    Agrees store target root P (pure a) (pure a) (Going store target root Q) := by
  refine agrees_still (.ok a) (fun _ _ _ => rfl) (fun _ _ _ => rfl) fun b s hb hs => ?_
  obtain rfl := Except.ok.inj hb
  exact h s hs

/-- A stop agrees with itself, where it is tolerated that steps stop. -/
theorem agrees_throw [Tolerant store target root I] (stop : BuildStop) :
    Agrees store target root P (throw stop) (throw stop) I := by
  intro s t hs ht _ _
  exact
    { outcome := rfl
      learned := .nothing rfl rfl
      left := Tolerant.stopped stop s hs
      right := Tolerant.stopped stop t ht }

theorem agrees_ofExcept (outcome : Except Malformation α) :
    Agrees store target root P (ofExcept outcome) (ofExcept outcome)
      (Going store target root fun _ => P) := by
  cases outcome with
  | ok a => exact agrees_pure fun _ hs => hs
  | error cause => exact agrees_throw (.cause cause)

/-- Steps that agree one after the other. -/
theorem Agrees.bind [Tolerant store target root I] {R : α → BuildState → Prop} {f g : α → Build β}
    (hx : Agrees store target root P x y (Going store target root R))
    (hf : ∀ a, Agrees store target root (R a) (f a) (g a) I) :
    Agrees store target root P (x >>= f) (y >>= g) I := by
  intro s t hs ht hPs hPt
  obtain ⟨houtcome, hlearned, hleft, hright⟩ := hx s t hs ht hPs hPt
  rw [exec_bind, exec_bind]
  rcases hxs : x.exec s with ⟨outcome, s'⟩
  rcases hyt : y.exec t with ⟨outcome', t'⟩
  rw [hxs, hyt] at houtcome hlearned
  rw [hxs] at hleft
  rw [hyt] at hright
  -- the first steps come to the same, so that both sides go on or both stop
  obtain rfl : outcome = outcome' := houtcome
  cases outcome with
  | error stop =>
    exact ⟨rfl, hlearned, Tolerant.stopped stop s' hleft.1, Tolerant.stopped stop t' hright.1⟩
  | ok a =>
    obtain ⟨houtcome', hlearned', hleft', hright'⟩ :=
      hf a s' t' hleft.1 hright.1 (hleft.2 a rfl) (hright.2 a rfl)
    exact ⟨houtcome', hlearned.trans hlearned', hleft', hright'⟩

/-- Whether something still holds when more is known. -/
def Kept (P : BuildState → Prop) : Prop := ∀ s t : BuildState, s.facts ⊆ t.facts → P s → P t

theorem kept_any : Kept fun _ => True := fun _ _ _ _ => trivial

/-- A type that stands still does so when more is known. -/
theorem kept_stands (ref : Int) : Kept fun s => s.Stands ref := fun _ _ hsub h => h.mono hsub

/-- What is kept still holds after steps that agree. -/
theorem Agrees.frame {R : α → BuildState → Prop} (hP : Kept P)
    (hx : Agrees store target root P x y (Going store target root R)) :
    Agrees store target root P x y (Going store target root fun a s => P s ∧ R a s) := by
  intro s t hs ht hPs hPt
  obtain ⟨houtcome, hlearned, hleft, hright⟩ := hx s t hs ht hPs hPt
  exact
    { outcome := houtcome
      learned := hlearned
      left := ⟨hleft.1, fun a ha => ⟨hP _ _ hlearned.left hPs, hleft.2 a ha⟩⟩
      right := ⟨hright.1, fun a ha => ⟨hP _ _ hlearned.right hPt, hright.2 a ha⟩⟩ }

/-- Steps of which the first one does not matter for what holds. -/
theorem Agrees.andThen [Tolerant store target root I] {R : α → BuildState → Prop}
    {f g : α → Build β} (hP : Kept P)
    (hx : Agrees store target root P x y (Going store target root R))
    (hf : ∀ a, Agrees store target root P (f a) (g a) I) :
    Agrees store target root P (x >>= f) (y >>= g) I :=
  .bind (hx.frame hP) fun a s t hs ht hPs hPt => hf a s t hs ht hPs.1 hPt.1

/-- Steps that agree from some states agree from fewer. -/
theorem Agrees.pre {P' : BuildState → Prop} {I : Except BuildStop α → BuildState → Prop}
    (h : Agrees store target root P' x y I) (hP : ∀ s, P s → P' s) :
    Agrees store target root P x y I :=
  fun s t hs ht hPs hPt => h s t hs ht (hP s hPs) (hP t hPt)

/-- Steps agree after a function has been applied to their values. -/
theorem Agrees.map {R : α → BuildState → Prop} (f : α → β) (hP : Kept P)
    (hx : Agrees store target root P x y (Going store target root R)) :
    Agrees store target root P (f <$> x) (f <$> y) (Going store target root fun _ => P) := by
  intro s t hs ht hPs hPt
  obtain ⟨houtcome, hlearned, hleft, hright⟩ := hx s t hs ht hPs hPt
  rw [exec_map, exec_map]
  exact
    { outcome := by rw [houtcome]
      learned := hlearned
      left := ⟨hleft.1, fun _ _ => hP _ _ hlearned.left hPs⟩
      right := ⟨hright.1, fun _ _ => hP _ _ hlearned.right hPt⟩ }

/-- A look-up in the graph with the same answer in all states. -/
theorem Agrees.lookup [Tolerant store target root I] {lookup : TypeGraph → Except Dangling α}
    {f g : α → Build β} (answer : Except Dangling α)
    (h : ∀ s, Ready store target root s → P s → lookup s.graph = answer)
    (hf : ∀ a, answer = .ok a → Agrees store target root P (f a) (g a) I) :
    Agrees store target root P (graph >>= fun own => ofDangling (lookup own) >>= f)
      (graph >>= fun own => ofDangling (lookup own) >>= g) I := by
  have hexec : ∀ (k : α → Build β) s, Ready store target root s → P s →
      (graph >>= fun own => ofDangling (lookup own) >>= k).exec s =
        (ofDangling answer >>= k).exec s := by
    intro k s hs hP
    rw [← h s hs hP]
    rfl
  intro s t hs ht hPs hPt
  rw [hexec f s hs hPs, hexec g t ht hPt]
  cases answer with
  | ok a => exact hf a rfl s t hs ht hPs hPt
  | error fault => exact agrees_throw (.type (.dangling fault)) s t hs ht hPs hPt

/-- To look up an entry agrees with itself, since the store is the same. -/
theorem agrees_entry {ref : Int} {usedBy : Option Int} :
    Agrees store target root P (entry store ref usedBy) (entry store ref usedBy)
      (Going store target root fun _ => P) := by
  intro s t hs ht hPs hPt
  rw [exec_entry, exec_entry]
  cases hentry : store.entry? ref with
  | some e =>
    exact
      { outcome := rfl
        learned := .nothing rfl rfl
        left := ⟨hs, fun _ _ => hPs⟩
        right := ⟨ht, fun _ _ => hPt⟩ }
  | none =>
    exact
      { outcome := rfl
        learned := ⟨_, BuildState.facts_noted s _, BuildState.facts_noted t _⟩
        left := Tolerant.stopped _ _ (hs.noted hentry)
        right := Tolerant.stopped _ _ (ht.noted hentry) }

end Build

end DebugLayout
