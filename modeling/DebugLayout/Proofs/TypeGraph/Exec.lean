import DebugLayout.Proofs.TypeGraph.Needs

/-!
# DebugLayout — the building, step by step

A step in the building of a type graph is a function of the state that may stop. Each way in which
steps are put together has an equation for that function, and so have the steps in which the state
changes.

The equations are used wherever two states are compared, or where the exact outcome of a step is
asked for. Where it is enough to know what a step keeps, the rules for runs and for preserved
properties are shorter.

* `Build.exec`: the function of a step;
* `Build.exec_bind`, `exec_tryCatch`, …: steps that are put together;
* `Build.exec_dangling`, `exec_entry`, `TypeGraph.exec_sizeSoFar`, `exec_settle`: single steps;
* `TypeGraph.exec_buildRef`, `exec_buildAll`: the building of one type, and of all.
-/

namespace DebugLayout

namespace BuildState

/-- The state before the building. -/
def start : BuildState := ⟨.empty, .empty, []⟩

/-- A state with another fault on record. -/
def recorded (s : BuildState) (fault : TypeFault) : BuildState :=
  { s with graph := { s.graph with faults := s.graph.faults ++ [fault] } }

/-- A state with a fault on record, if it was not there before. -/
def noted (s : BuildState) (fault : TypeFault) : BuildState :=
  if s.graph.faults.contains fault then s else s.recorded fault

/-- A state in which the reason is known why a type is left out. -/
def remembering (s : BuildState) (ref : Int) (fault : TypeFault) : BuildState :=
  { s with failures := s.failures.insert ref fault }

/-- What is remembered of a reference is the reason that was given last. -/
theorem failures_remembering (s : BuildState) (ref other : Int) (fault : TypeFault) :
    (s.remembering ref fault).failures.get? other =
      if ref = other then some fault else s.failures.get? other :=
  OrderedMap.get?_insert s.failures ref other fault

/-- A state in which an alias is being followed. -/
def entering (s : BuildState) (ref : Int) : BuildState :=
  { s with following := s.following.insert ref }

/-- A state in which an alias is no longer being followed. -/
def leaving (s : BuildState) (ref : Int) : BuildState :=
  { s with following := s.following.filter (· ≠ ref) }

end BuildState

/-- The fault for which an entry is left out if its building stops. -/
def BuildStop.fault (ref : Int) : BuildStop → TypeFault
  | .type known => known
  | .cause malformation => .malformed ref malformation

/-- A state after the building of an entry has stopped. -/
def BuildState.leftOut (s : BuildState) (ref : Int) : BuildStop → BuildState
  | .type fault => s.remembering ref fault
  | .cause reason => (s.recorded (.malformed ref reason)).remembering ref (.malformed ref reason)

-- ---------------------------------------------------------------------------
-- Steps that are put together
-- ---------------------------------------------------------------------------

namespace Build

variable {α β : Type}

/-- The outcome of a step in some state, and the state that it leaves behind. -/
def exec (x : Build α) (s : BuildState) : Except BuildStop α × BuildState := x.run.run s

/-- The second of two steps is taken from the state that the first one ended in, and not at all if
that stopped. -/
theorem exec_bind (x : Build α) (f : α → Build β) (s : BuildState) :
    (x >>= f).exec s =
      match x.exec s with
      | (.ok a, s') => (f a).exec s'
      | (.error stop, s') => (.error stop, s') := by
  show (ExceptT.bind x f).run.run s = _
  unfold exec
  simp only [ExceptT.run, ExceptT.bind, ExceptT.mk, ExceptT.bindCont, StateT.run, bind, StateT.bind]
  rcases hx : x s with ⟨outcome, s'⟩
  cases outcome <;> rfl

/-- Changing the value of a step does not change what it does. -/
theorem exec_map (f : α → β) (x : Build α) (s : BuildState) :
    (f <$> x).exec s = ((x.exec s).1.map f, (x.exec s).2) := by
  rcases hexec : x.exec s with ⟨outcome, t⟩
  have hx : x s = (outcome, t) := hexec
  unfold exec
  simp only [ExceptT.run, StateT.run, bind, StateT.bind, Functor.map, ExceptT.map, ExceptT.mk, hx]
  cases outcome <;> rfl

/-- An operation that is refused leaves the graph as it was. -/
theorem exec_update (operation : TypeGraph → Except ArenaFault TypeGraph) (s : BuildState) :
    (update operation).exec s =
      match operation s.graph with
      | .ok g => (.ok (), { s with graph := g })
      | .error fault => (.error (.cause (.arena fault)), s) := by
  unfold update
  rw [exec_bind]
  show exec (match operation s.graph with | .ok g => _ | .error fault => _) s = _
  cases operation s.graph <;> rfl

/-- A stop is handled in the state that the step stopped in: nothing is taken back. -/
theorem exec_tryCatch (x : Build α) (handler : BuildStop → Build α) (s : BuildState) :
    (tryCatch x handler).exec s =
      match x.exec s with
      | (.ok a, t) => (.ok a, t)
      | (.error stop, t) => (handler stop).exec t := by
  show (ExceptT.tryCatch x handler).run.run s = _
  unfold exec
  simp only [ExceptT.run, ExceptT.tryCatch, ExceptT.mk, StateT.run, bind, StateT.bind]
  rcases hx : x s with ⟨outcome, t⟩
  cases outcome <;> rfl

/-- What is done finally is done to whatever state the step ended or stopped in. -/
theorem exec_tryFinally (x : Build α) (f : BuildState → BuildState) (s : BuildState) :
    (tryFinally x (modify f)).exec s = ((x.exec s).1, f (x.exec s).2) := by
  rcases hexec : x.exec s with ⟨outcome, t⟩
  have hx : x s = (outcome, t) := hexec
  unfold exec tryFinally
  simp only [ExceptT.run, StateT.run, bind, StateT.bind, tryFinally', Functor.map, ExceptT.map,
    ExceptT.mk, hx]
  cases outcome <;> rfl

/-- A step in the course of which an alias is being followed. -/
theorem exec_following (ref : Int) (x : Build α) (f : α → Build β) (s : BuildState) :
    exec (do
      modify fun state : BuildState => { state with following := state.following.insert ref }
      let a ← tryFinally x (modify fun state : BuildState =>
        { state with following := state.following.filter (· ≠ ref) })
      f a) s =
      match x.exec (s.entering ref) with
      | (.ok a, t) => (f a).exec (t.leaving ref)
      | (.error stop, t) => (.error stop, t.leaving ref) := by
  rw [exec_bind]
  show exec (tryFinally x _ >>= f) (s.entering ref) = _
  rw [exec_bind, exec_tryFinally]
  rcases x.exec (s.entering ref) with ⟨outcome, t⟩
  cases outcome <;> rfl

-- ---------------------------------------------------------------------------
-- Single steps
-- ---------------------------------------------------------------------------

/-- A reference that leads nowhere is on record afterwards, once. -/
theorem exec_dangling (ref : Int) (usedBy : Option Int) (s : BuildState) :
    (dangling ref usedBy : Build α).exec s =
      (.error (.type (.dangling ⟨ref, usedBy⟩)), s.noted (.dangling ⟨ref, usedBy⟩)) := by
  unfold dangling BuildState.noted
  rw [exec_bind]
  show exec (if (!s.graph.faults.contains _) = true then _ else _) s = _
  cases s.graph.faults.contains (.dangling ⟨ref, usedBy⟩) <;> rfl

/-- Looking an entry up changes the state only if there is none. -/
theorem exec_entry (store : Store) (ref : Int) (usedBy : Option Int) (s : BuildState) :
    (entry store ref usedBy).exec s =
      match store.entry? ref with
      | some e => (.ok e, s)
      | none => (.error (.type (.dangling ⟨ref, usedBy⟩)), s.noted (.dangling ⟨ref, usedBy⟩)) := by
  unfold entry Store.entry?
  cases store.resolve? ref with
  | some placed => rfl
  | none => exact exec_dangling ref usedBy s

end Build

-- ---------------------------------------------------------------------------
-- The building
-- ---------------------------------------------------------------------------

namespace TypeGraph

open Build

/-- The size of a type as far as it is known, and why it may not be. -/
def sizeKnown (g : TypeGraph) (ref : Int) : Except Dangling (Option Int) := do
  let node ← g.get ref
  if node.isPlaceholder then return none
  g.byteSize ref

/-- Looking at a size never changes the state. -/
theorem exec_sizeSoFar (ref : Int) (s : BuildState) :
    (sizeSoFar ref).exec s =
      ((sizeKnown s.graph ref).mapError fun d => .type (.dangling d), s) := by
  unfold sizeSoFar sizeKnown
  rw [exec_bind]
  show exec (ofDangling (s.graph.get ref) >>= _) s = _
  cases s.graph.get ref with
  | error fault => rfl
  | ok node =>
    show exec (if node.isPlaceholder = true then _ else _) s = _
    simp only [bind, Except.bind]
    split
    · rfl
    · cases s.graph.byteSize ref <;> rfl

/-- An entry that stops is left out under its own reference. -/
theorem exec_settle (e : Entry) (stop : BuildStop) (s : BuildState) :
    (settle e stop).exec s = (.error (.type (stop.fault e.ref)), s.leftOut e.ref stop) := by
  cases stop <;> rfl

/-- What the building of a type makes of the building of its entry. -/
def concluded (ref : Int) :
    Except BuildStop Unit × BuildState → Except BuildStop Unit × BuildState
  | (.ok a, s) => (.ok a, s)
  | (.error stop, s) => (.error (.type (stop.fault ref)), s.leftOut ref stop)

/-- What the building of one type comes to: nothing if the type is in the graph or was left out
before, and otherwise what becomes of its entry. -/
theorem exec_buildRef (store : Store) (target : Target) (depth : Nat) (ref : Int)
    (usedBy : Option Int) (s : BuildState) :
    (buildRef store target (depth + 1) ref usedBy).exec s =
      if s.graph.has ref then (.ok (), s)
      else match s.failures.get? ref with
        | some fault => (.error (.type fault), s)
        | none => match store.entry? ref with
          | none =>
            (.error (.type (.dangling ⟨ref, usedBy⟩)), s.noted (.dangling ⟨ref, usedBy⟩))
          | some e => concluded e.ref
            ((buildEntry (buildRef store target depth) store target e).exec s) := by
  unfold buildRef
  rw [exec_bind]
  show exec (if s.graph.has ref then _ else _) s = _
  split
  · rfl
  · cases s.failures.get? ref with
    | some fault => rfl
    | none =>
      show exec (entry store ref usedBy >>= _) s = _
      rw [exec_bind, exec_entry]
      cases store.entry? ref with
      | none => rfl
      | some e =>
        show exec (tryCatch _ _) s = _
        rw [exec_tryCatch]
        dsimp only
        -- a stop of any kind settles what is known of the type
        rcases (buildEntry (buildRef store target depth) store target e).exec s with ⟨outcome, t⟩
        cases outcome with
        | ok a => rfl
        | error stop => exact exec_settle e stop t

/-- What is built for a type entry leaves behind, whether it ends or stops. -/
def visit (store : Store) (target : Target) (depth : Nat) (s : BuildState) (p : Placed) :
    BuildState :=
  if p.entry.tag.isType then ((buildRef store target depth p.entry.ref none).exec s).2 else s

/-- Building all types visits the entries one after the other. -/
theorem exec_buildAll (store : Store) (target : Target) (depth : Nat) (ps : List Placed)
    (s : BuildState) :
    (buildAll store target depth ps).exec s = (.ok (), ps.foldl (visit store target depth) s) := by
  induction ps generalizing s with
  | nil => rfl
  | cons p ps ih =>
    unfold buildAll
    extract_lets jp
    rw [List.foldl_cons, visit]
    split
    · -- whatever stops an entry, the next one is visited
      rw [exec_bind, exec_tryCatch]
      rcases (buildRef store target depth p.entry.ref none).exec s with ⟨outcome, t⟩
      cases outcome with
      | ok a => exact ih t
      | error stop => exact ih t
    · exact ih s

/-- The state in which the building of the graph of a store ends. -/
def finalState (target : Target) (store : Store) : BuildState :=
  store.entries.foldl (visit store target (depthBound store)) .start

/-- The graph of a store is that of the state in which the visits end. -/
theorem build_eq (target : Target) (store : Store) :
    build target store = (finalState target store).graph :=
  congrArg (fun result => result.2.graph)
    (exec_buildAll store target (depthBound store) store.entries .start)

end TypeGraph

end DebugLayout
