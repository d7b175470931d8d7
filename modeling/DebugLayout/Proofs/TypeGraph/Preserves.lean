import DebugLayout.Proofs.TypeGraph.Course

/-!
# DebugLayout — what steps keep and what they return

Many facts about the building of a graph are of one of three kinds. A property of the graph is
**preserved** by every step, whether it ends or stops, so that it holds of the graph in the end. The
value that a step **returns** has some property, whatever the state it started from. And a step may
**yield** a value of which something holds in the graph that it ends with. All of them pass from the
parts of a step to the whole, and there is a rule for each way of putting steps together.

A rule for a way of putting steps together says that whatever is kept by the parts is kept by the
whole. The rules are used with an invariant that is different each time, and so they are stated for
any.

* `Build.Preserves`: steps that keep a property of the graph, and the rules for them;
* `Build.Returns`: steps whose values have some property, and the rules for them;
* `Build.Yields`: steps whose values have some property in the graph that they end with;
* `Build.Preserves.bind_yields`, `bind_returns`: steps that go on with such a value.
-/

namespace DebugLayout

namespace Build

open TypeGraph (Course Courses Recurse)

variable {α β : Type} {store : Store} {I : TypeGraph → Prop} {x : Build α}

-- ---------------------------------------------------------------------------
-- Properties of the graph
-- ---------------------------------------------------------------------------

/-- A step that keeps a property of the graph, whether it ends or stops. -/
def Preserves (I : TypeGraph → Prop) (x : Build α) : Prop :=
  ∀ s : BuildState, I s.graph → I (x.exec s).2.graph

/-- Whether it makes no difference to a property of graphs what is on record. -/
def IgnoresFaults (I : TypeGraph → Prop) : Prop := ∀ g faults, I g → I { g with faults }

/-- A property that does not look at the record survives a new fault on it. -/
theorem IgnoresFaults.recorded (hI : IgnoresFaults I) {s : BuildState} (hs : I s.graph)
    (fault : TypeFault) : I (s.recorded fault).graph :=
  hI _ _ hs

/-- It survives one that is only noted if it is new. -/
theorem IgnoresFaults.noted (hI : IgnoresFaults I) {s : BuildState} (hs : I s.graph)
    (fault : TypeFault) : I (s.noted fault).graph := by
  unfold BuildState.noted
  split
  · exact hs
  · exact hI.recorded hs fault

/-- It survives that an entry is left out, for whatever reason. -/
theorem IgnoresFaults.leftOut (hI : IgnoresFaults I) {s : BuildState} (hs : I s.graph) (ref : Int)
    (stop : BuildStop) : I (s.leftOut ref stop).graph := by
  cases stop with
  | type fault => exact hs
  | cause cause => exact hI.recorded hs _

/-- Steps that only look preserve everything. -/
theorem preserves_of_glances (hx : Glances x) : Preserves I x := by
  intro s hs
  rcases hx s with ⟨a, ha⟩ | ⟨stop, hstop, -⟩
  · rwa [ha]
  · rwa [hstop]

/-- Looking entries up preserves what does not look at the record. -/
theorem preserves_of_looksUp (hI : IgnoresFaults I) (hx : LooksUp x) : Preserves I x := by
  intro s hs
  rcases hx s with ⟨a, ha⟩ | ⟨missing, hmissing⟩
  · rwa [ha]
  · rw [hmissing]
    exact hI.noted hs _

theorem preserves_pure (a : α) : Preserves I (pure a : Build α) := fun _ hs => hs

/-- A step that stops at once preserves everything. -/
theorem preserves_throw (stop : BuildStop) : Preserves I (throw stop : Build α) := fun _ hs => hs

theorem preserves_getThe : Preserves I (getThe BuildState) := fun _ hs => hs

/-- A dangling reference goes on record, and nothing else changes. -/
theorem preserves_dangling (hI : IgnoresFaults I) (ref : Int) (usedBy : Option Int) :
    Preserves I (dangling ref usedBy : Build α) := by
  intro s hs
  rw [exec_dangling]
  exact hI.noted hs _

/-- What each of two steps preserves, both together preserve. -/
theorem Preserves.bind {f : α → Build β} (hx : Preserves I x) (hf : ∀ a, Preserves I (f a)) :
    Preserves I (x >>= f) := by
  intro s hs
  have hafter := hx s hs
  rw [exec_bind]
  rcases hexec : x.exec s with ⟨outcome, t⟩
  rw [hexec] at hafter
  cases outcome with
  | ok a => exact hf a t hafter
  | error stop => exact hafter

/-- A step on the graph preserves a property if the graph that it gives has it. If it is refused the
graph stays as it is. -/
theorem holds_of_update {operation : TypeGraph → Except ArenaFault TypeGraph} {s : BuildState}
    (hs : I s.graph) (h : ∀ g, operation s.graph = .ok g → I g) :
    I ((update operation).exec s).2.graph := by
  rw [exec_update]
  cases hop : operation s.graph with
  | ok g => exact h g hop
  | error fault => exact hs

/-- A step on the graph preserves a property that the operation carries from any graph to the
next. -/
theorem preserves_update {operation : TypeGraph → Except ArenaFault TypeGraph}
    (h : ∀ g g', I g → operation g = .ok g' → I g') : Preserves I (update operation) :=
  fun _ hs => holds_of_update hs fun g' hop => h _ g' hs hop

/-- Steps that only look make no difference to what goes on after them. -/
theorem holds_of_glances {f : α → Build β} {s : BuildState} (hx : Glances x) (hs : I s.graph)
    (hf : ∀ a, I ((f a).exec s).2.graph) : I ((x >>= f).exec s).2.graph := by
  rw [exec_bind]
  rcases hx s with ⟨a, ha⟩ | ⟨stop, hstop, -⟩
  · rw [ha]
    exact hf a
  · rw [hstop]
    exact hs

/-- What a step and the handling of its stops preserve, the guarded step preserves. -/
theorem Preserves.tryCatch {handler : BuildStop → Build α} (hx : Preserves I x)
    (hcatch : ∀ stop, Preserves I (handler stop)) : Preserves I (tryCatch x handler) := by
  intro s hs
  have hafter := hx s hs
  rw [exec_tryCatch]
  rcases hexec : x.exec s with ⟨outcome, t⟩
  rw [hexec] at hafter
  cases outcome with
  | ok a => exact hafter
  | error stop => exact hcatch stop t hafter

/-- Marking a reference as being followed does not touch the graph. -/
theorem preserves_following {x f : Build Unit} (ref : Int) (hx : Preserves I x)
    (hf : Preserves I f) : Preserves I (do
      modify fun state => { state with following := state.following.insert ref }
      tryFinally x (modify fun state =>
        { state with following := state.following.filter (· ≠ ref) })
      f) := by
  intro s hs
  have hafter := hx (s.entering ref) hs
  rw [exec_following ref x (fun _ => f)]
  rcases hexec : x.exec (s.entering ref) with ⟨outcome, t⟩
  rw [hexec] at hafter
  cases outcome with
  | ok a => exact hf (t.leaving ref) hafter
  | error stop => exact hafter

/-- A step that builds types that are needed keeps what is kept by the building of each of them. -/
theorem preserves_of_courses {recurse : Recurse} {needs : Int → Prop}
    (hrec : ∀ ref usedBy, Preserves I (recurse ref usedBy)) (hx : Courses recurse needs x) :
    Preserves I x := by
  have hcourse : ∀ {s t : BuildState} {stop? : Option BuildStop},
      Course recurse needs s stop? t → I s.graph → I t.graph := by
    intro s t stop? h hs
    induction h with
    | ended | stopped => exact hs
    | @failed needed usedBy stop s t _ h =>
      have hafter := hrec needed usedBy s hs
      rwa [h] at hafter
    | @built needed usedBy s t u stop? _ h _ ih =>
      have hafter := hrec needed usedBy s hs
      rw [h] at hafter
      exact ih hafter
  exact fun s hs => hcourse (hx s) hs

/-- The building of every type keeps what the building of an entry keeps. -/
theorem preserves_buildRef (hI : IgnoresFaults I) (target : Target)
    (hentry : ∀ depth e,
      (∀ ref usedBy, Preserves I (TypeGraph.buildRef store target depth ref usedBy)) →
      store.entry? e.ref = some e →
      Preserves I (TypeGraph.buildEntry (TypeGraph.buildRef store target depth) store target e))
    (depth : Nat) :
    ∀ ref usedBy, Preserves I (TypeGraph.buildRef store target depth ref usedBy) := by
  induction depth with
  | zero => exact fun ref usedBy => preserves_throw _
  | succ depth ih =>
    intro ref usedBy s hs
    rw [TypeGraph.exec_buildRef]
    split
    · exact hs
    · split
      · exact hs
      · split
        · exact hI.noted hs _
        · rename_i e he
          obtain rfl := Store.entry?_ref he
          -- what the entry is built with is the building of references within one step less
          have hafter := hentry depth e ih he s hs
          rcases hexec : (TypeGraph.buildEntry (TypeGraph.buildRef store target depth) store target
            e).exec s with ⟨outcome, t⟩
          rw [hexec] at hafter
          cases outcome with
          | ok a => exact hafter
          | error stop => exact hI.leftOut hafter _ _

/-- What holds of the empty graph and is kept by the building of every type holds of the graph that
is built. -/
theorem buildWithin_induction {depth : Nat} {target : Target} (hstart : I .empty)
    (hkeeps : ∀ ref usedBy, Preserves I (TypeGraph.buildRef store target depth ref usedBy)) :
    I (TypeGraph.buildWithin depth target store) := by
  rw [TypeGraph.buildWithin_eq]
  refine (TypeGraph.stateWithin_induction (P := fun _ s => I s.graph) depth target hstart
    fun _ s p _ _ hs => ?_).2
  unfold TypeGraph.visit
  split
  · exact hkeeps _ _ s hs
  · exact hs

-- ---------------------------------------------------------------------------
-- Properties of values
-- ---------------------------------------------------------------------------

/-- A step whose value has some property, if it ends with one. -/
def Returns (x : Build α) (R : α → Prop) : Prop := ∀ s a t, x.exec s = (.ok a, t) → R a

/-- Any value will do where nothing is asked of it. -/
theorem returns_any : Returns x fun _ => True := fun _ _ _ _ => trivial

theorem returns_pure {R : α → Prop} {a : α} (h : R a) : Returns (pure a : Build α) R := by
  intro s b t hexec
  obtain rfl := Except.ok.inj (congrArg Prod.fst hexec)
  exact h

theorem returns_throw {R : α → Prop} {stop : BuildStop} : Returns (throw stop : Build α) R :=
  fun _ _ _ hexec => absurd (congrArg Prod.fst hexec) (by simp [exec])

/-- The value of a step that reports an operation is the one that the operation ended with. -/
theorem returns_ofExcept (x : Except Malformation α) : Returns (ofExcept x) fun a => x = .ok a := by
  cases x with
  | ok a => exact returns_pure rfl
  | error cause => exact returns_throw

/-- The entry that is found is the one of the reference. -/
theorem returns_entry (ref : Int) (usedBy : Option Int) :
    Returns (entry store ref usedBy) fun e => store.entry? ref = some e := by
  intro s e t hexec
  rw [exec_entry] at hexec
  cases he : store.entry? ref with
  | none =>
    rw [he] at hexec
    exact absurd (congrArg Prod.fst hexec) (by simp)
  | some found =>
    rw [he] at hexec
    rw [Except.ok.inj (congrArg Prod.fst hexec)]

/-- The value of two steps has what the second one guarantees for every value that the first one may
have. -/
theorem Returns.bind {R : α → Prop} {Q : β → Prop} {f : α → Build β} (hx : Returns x R)
    (hf : ∀ a, R a → Returns (f a) Q) : Returns (x >>= f) Q := by
  intro s b t hexec
  rw [exec_bind] at hexec
  rcases hstep : x.exec s with ⟨outcome, u⟩
  rw [hstep] at hexec
  cases outcome with
  | ok a => exact hf a (hx s a u hstep) u b t hexec
  | error stop => exact absurd (congrArg Prod.fst hexec) (by simp)

theorem Returns.and {R Q : α → Prop} (hR : Returns x R) (hQ : Returns x Q) :
    Returns x fun a => R a ∧ Q a :=
  fun s a t hexec => ⟨hR s a t hexec, hQ s a t hexec⟩

/-- Only the last step counts where nothing is known of the steps before it. -/
theorem returns_andThen {Q : β → Prop} {f : α → Build β} (hf : ∀ a, Returns (f a) Q) :
    Returns (x >>= f) Q :=
  returns_any.bind fun a _ => hf a

/-- The value of a step that is changed has what the change makes of its property. -/
theorem Returns.map {R : α → Prop} {Q : β → Prop} {f : α → β} (hx : Returns x R)
    (hf : ∀ a, R a → Q (f a)) : Returns (f <$> x) Q := by
  intro s b t hexec
  rw [exec_map] at hexec
  rcases hstep : x.exec s with ⟨outcome, u⟩
  rw [hstep] at hexec
  cases outcome with
  | ok a =>
    obtain rfl := Except.ok.inj (congrArg Prod.fst hexec)
    exact hf a (hx s a u hstep)
  | error stop => exact absurd (congrArg Prod.fst hexec) (by simp [Except.map])

-- ---------------------------------------------------------------------------
-- Properties of values in a graph
-- ---------------------------------------------------------------------------

/-- A step that, from a graph with some property, comes to a value and a graph of which another one
holds, if it ends. -/
def Yields (I : TypeGraph → Prop) (x : Build α) (R : α → TypeGraph → Prop) : Prop :=
  ∀ s a t, I s.graph → x.exec s = (.ok a, t) → R a t.graph

/-- A step that preserves a property yields it, whatever its value is. -/
theorem Preserves.yields (hx : Preserves I x) : Yields I x fun _ => I := by
  intro s a t hs hexec
  have hafter := hx s hs
  rwa [hexec] at hafter

/-- What holds of the value of a step holds beside any graph. -/
theorem Returns.yields {R : α → Prop} (hx : Returns x R) : Yields I x fun a _ => R a :=
  fun s a t _ hexec => hx s a t hexec

theorem yields_pure {R : α → TypeGraph → Prop} {a : α} (h : ∀ g, I g → R a g) :
    Yields I (pure a : Build α) R := by
  intro s b t hs hexec
  obtain ⟨hvalue, rfl⟩ := Prod.mk.inj hexec
  obtain rfl := Except.ok.inj hvalue
  exact h s.graph hs

/-- It is enough that the property follows from what is known of the graph before. -/
theorem Yields.pre {I' : TypeGraph → Prop} {R : α → TypeGraph → Prop} (hx : Yields I x R)
    (h : ∀ g, I' g → I g) : Yields I' x R :=
  fun s a t hs => hx s a t (h _ hs)

/-- What is yielded may be weakened. -/
theorem Yields.post {R Q : α → TypeGraph → Prop} (hx : Yields I x R) (h : ∀ a g, R a g → Q a g) :
    Yields I x Q :=
  fun s a t hs hexec => h a _ (hx s a t hs hexec)

theorem Yields.and {R Q : α → TypeGraph → Prop} (hR : Yields I x R) (hQ : Yields I x Q) :
    Yields I x fun a g => R a g ∧ Q a g :=
  fun s a t hs hexec => ⟨hR s a t hs hexec, hQ s a t hs hexec⟩

/-- Of two steps the second one starts with what the first one yields. -/
theorem Yields.bind {R : α → TypeGraph → Prop} {Q : β → TypeGraph → Prop} {f : α → Build β}
    (hx : Yields I x R) (hf : ∀ a, Yields (R a) (f a) Q) : Yields I (x >>= f) Q := by
  intro s b t hs hexec
  rw [exec_bind] at hexec
  rcases hstep : x.exec s with ⟨outcome, u⟩
  rw [hstep] at hexec
  cases outcome with
  | ok a => exact hf a u b t (hx s a u hs hstep) hexec
  | error stop => exact absurd (congrArg Prod.fst hexec) (by simp)

/-- Where only the value of a step counts, what goes on with it has the graph as before. -/
theorem Yields.value {R : α → Prop} {Q : β → TypeGraph → Prop} {f : α → Build β}
    (hx : Preserves I x) (hreturns : Returns x R) (hf : ∀ a, R a → Yields I (f a) Q) :
    Yields I (x >>= f) Q :=
  (hx.yields.and hreturns.yields).bind fun a s b t hs hexec => hf a hs.2 s b t hs.1 hexec

/-- What goes on with a value may rely on what holds of it then. -/
theorem Preserves.bind_yields {R : α → TypeGraph → Prop} {f : α → Build β} (hx : Preserves I x)
    (hyields : Yields I x R) (hf : ∀ a s, I s.graph → R a s.graph → I ((f a).exec s).2.graph) :
    Preserves I (x >>= f) := by
  intro s hs
  have hafter := hx s hs
  rw [exec_bind]
  rcases hexec : x.exec s with ⟨outcome, t⟩
  rw [hexec] at hafter
  cases outcome with
  | ok a => exact hf a t hafter (hyields s a t hs hexec)
  | error stop => exact hafter

/-- A step that preserves a property and is known to end with good values can be followed by any
that preserves it for those. -/
theorem Preserves.bind_returns {R : α → Prop} {f : α → Build β} (hx : Preserves I x)
    (hreturns : Returns x R) (hf : ∀ a, R a → Preserves I (f a)) : Preserves I (x >>= f) :=
  hx.bind_yields hreturns.yields fun a s hs ha => hf a ha s hs

end Build

end DebugLayout
