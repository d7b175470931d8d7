import DebugLayout.Proofs.Outcome
import DebugLayout.Proofs.TypeGraph.Exec
import DebugLayout.Proofs.TypeGraph.Missing
import Mathlib.Data.List.Induction

/-!
# DebugLayout — the building is a run

Every part of the building of a type graph is a run, whether it ends or stops. This is shown by
rules for the ways in which steps are put together, and then with one lemma for each kind of entry.
A type that was built is in the graph, which is what those that contain it rely on. A step that
stops for a fault has recorded it, unless the graph itself came to a composite that contains itself.

The rules and the lemmas for the kinds of entries are stated for an arbitrary way to build the types
that are needed, of which only this is known: that it is a run, and that a type it has built is
there. The recursion enters once, at the end, by induction on the depth.

* `Build.Runs`: steps that are runs, with what holds before them and after those that end;
* `Build.Runs.bind`, `runs_update`, `runs_tryCatch`, …: the rules;
* `TypeGraph.runs_buildRef`: the building of one type;
* `TypeGraph.stateWithin_induction`, `finalState_induction`: what the visits of all entries keep;
* `TypeGraph.sound_of_build`: what holds of the nodes of a graph.
-/

namespace DebugLayout

/-- Whether a stop leaves nothing to be recorded, or has recorded it. -/
def BuildStop.Explained (store : Store) : BuildStop → BuildState → Prop
  | .type fault, s => fault ∈ s.graph.faults ∨ fault.Unlisted store
  | .cause _, _ => True

-- ---------------------------------------------------------------------------
-- Steps
-- ---------------------------------------------------------------------------

namespace Build

open BuildState (Run)
open Relation (ReflTransGen TransGen)

variable {α β : Type} {store : Store} {ref : Int} {P : BuildState → Prop}
variable {Q : α → BuildState → Prop} {x : Build α}

/-- What holds after a step: if it ended, what is claimed of its value, and if it stopped, that the
stop is explained. -/
def After (store : Store) (Q : α → BuildState → Prop) : Except BuildStop α × BuildState → Prop
  | (.ok a, s) => Q a s
  | (.error stop, s) => stop.Explained store s

/-- A step in the building of a type is a run from every coherent state with some property; if it
ends, its value and the state after it have another one. -/
def Runs (store : Store) (ref : Int) (P : BuildState → Prop) (x : Build α)
    (Q : α → BuildState → Prop) : Prop :=
  ∀ s, s.Coherent store → s.Surrounds store ref → P s →
    Run store ref s (x.exec s).2 ∧ After store Q (x.exec s)

/-- What a run does not undo. -/
def Stable (store : Store) (P : BuildState → Prop) : Prop :=
  ∀ ref s t, Run store ref s t → P s → P t

theorem stable_any : Stable store fun _ => True := fun _ _ _ _ _ => trivial

/-- A type that is in the graph stays there. -/
theorem stable_has (other : Int) : Stable store fun s => s.graph.has other = true :=
  fun _ _ _ h => h.has

/-- A value without a step is a run, of which all holds that held before. -/
theorem runs_pure {a : α} (h : ∀ s, P s → Q a s) : Runs store ref P (Pure.pure a) Q :=
  fun s _ _ hs => ⟨.refl ref s, h s hs⟩

theorem runs_value {a : α} : Runs store ref P (pure a) fun _ _ => True :=
  runs_pure fun _ _ => trivial

/-- To stop is a run, provided that the stop is explained. -/
theorem runs_throw {stop : BuildStop} (h : ∀ s, P s → stop.Explained store s) :
    Runs store ref P (throw stop) Q :=
  fun s _ _ hs => ⟨.refl ref s, h s hs⟩

/-- To stop for a cause is a run: what comes of the cause is settled later. -/
theorem runs_cause (cause : Malformation) : Runs store ref P (throw (.cause cause)) Q :=
  runs_throw fun _ _ => trivial

/-- Steps in a row are a run, if what holds after the first is what the second needs. -/
theorem Runs.bind {R : α → BuildState → Prop} {Q : β → BuildState → Prop} {f : α → Build β}
    (hx : Runs store ref P x R) (hf : ∀ a, Runs store ref (R a) (f a) Q) :
    Runs store ref P (x >>= f) Q := by
  intro s hcoherent hsurrounds hs
  obtain ⟨hrun, hafter⟩ := hx s hcoherent hsurrounds hs
  rw [exec_bind]
  rcases hexec : x.exec s with ⟨outcome, t⟩
  rw [hexec] at hrun hafter
  cases outcome with
  | error stop => exact ⟨hrun, hafter⟩
  | ok a =>
    obtain ⟨hrun', hafter'⟩ :=
      hf a t (hrun.coherent hcoherent) (hrun.surrounds hsurrounds) hafter
    exact ⟨hrun.trans hrun', hafter'⟩

/-- What is built for a type that is needed is built for the one that needs it. -/
theorem Runs.needed {needed : Int} (hneeds : store.Needs ref needed)
    (h : Runs store needed P x Q) : Runs store ref P x Q := by
  intro s hcoherent hsurrounds hs
  obtain ⟨hrun, hafter⟩ := h s hcoherent (hsurrounds.needed hneeds) hs
  exact ⟨hrun.needed hneeds, hafter⟩

/-- Of a run less may be claimed. -/
theorem Runs.post {Q' : α → BuildState → Prop} (h : Runs store ref P x Q)
    (hQ : ∀ a s, Q a s → Q' a s) : Runs store ref P x Q' := by
  intro s hcoherent hsurrounds hs
  obtain ⟨hrun, hafter⟩ := h s hcoherent hsurrounds hs
  refine ⟨hrun, ?_⟩
  rcases hexec : x.exec s with ⟨outcome, t⟩
  rw [hexec] at hafter
  cases outcome with
  | error stop => exact hafter
  | ok a => exact hQ a t hafter

/-- What a run does not undo still holds after a step. -/
theorem Runs.frame (hP : Stable store P) (h : Runs store ref P x Q) :
    Runs store ref P x fun a s => P s ∧ Q a s := by
  intro s hcoherent hsurrounds hs
  obtain ⟨hrun, hafter⟩ := h s hcoherent hsurrounds hs
  have hkept : P (x.exec s).2 := hP ref s _ hrun hs
  refine ⟨hrun, ?_⟩
  rcases hexec : x.exec s with ⟨outcome, t⟩
  rw [hexec] at hafter hkept
  cases outcome with
  | error stop => exact hafter
  | ok a => exact ⟨hkept, hafter⟩

/-- What is a run from every state is one from the states with some property. -/
theorem Runs.of_any (h : Runs store ref (fun _ => True) x Q) : Runs store ref P x Q :=
  fun s hcoherent hsurrounds _ => h s hcoherent hsurrounds trivial

theorem Runs.any (h : Runs store ref P x Q) : Runs store ref P x fun _ _ => True :=
  h.post fun _ _ _ => trivial

/-- A step of which only the value counts. -/
theorem Runs.value {R : α → Prop} {Q : β → BuildState → Prop} {f : α → Build β}
    (hP : Stable store P) (hx : Runs store ref P x fun a _ => R a)
    (hf : ∀ a, R a → Runs store ref P (f a) Q) : Runs store ref P (x >>= f) Q :=
  .bind (hx.frame hP) fun a s hcoherent hsurrounds hs => hf a hs.2 s hcoherent hsurrounds hs.1

/-- A step of which not even the value counts. -/
theorem Runs.andThen {R : α → BuildState → Prop} {Q : β → BuildState → Prop} {f : α → Build β}
    (hP : Stable store P) (hx : Runs store ref P x R) (hf : ∀ a, Runs store ref P (f a) Q) :
    Runs store ref P (x >>= f) Q :=
  .value hP hx.any fun a _ => hf a

/-- To look at the graph is a run that changes nothing. -/
theorem runs_graph : Runs store ref P graph fun g s => g = s.graph ∧ P s :=
  fun s _ _ hs => ⟨.refl ref s, rfl, hs⟩

/-- Looking at the state, which is coherent. -/
theorem runs_getThe :
    Runs store ref P (getThe BuildState) fun a s => a = s ∧ a.Coherent store ∧ P s :=
  fun s hcoherent _ hs => ⟨.refl ref s, rfl, hcoherent, hs⟩

/-- A computation of its own is a run that changes nothing, and its value is what it computed. -/
theorem runs_ofExcept (x : Except Malformation α) :
    Runs store ref P (ofExcept x) fun a _ => x = .ok a := by
  cases x with
  | ok a => exact runs_pure fun _ _ => rfl
  | error cause => exact runs_cause _

/-- A look-up in the graph, whose faults are references to composites that contain themselves. -/
theorem runs_ofDangling (x : Except Dangling α)
    (h : ∀ s fault, s.Coherent store → s.Surrounds store ref → P s → x = .error fault →
      store.SelfContaining fault.ref) :
    Runs store ref P (ofDangling x) fun a s => P s ∧ x = .ok a := by
  intro s hcoherent hsurrounds hs
  cases x with
  | ok a => exact ⟨.refl ref s, hs, rfl⟩
  | error fault => exact ⟨.refl ref s, .inr ⟨fault, rfl, h s fault hcoherent hsurrounds hs rfl⟩⟩

/-- To look up a type in the graph is a run, if the graph can only miss composites that contain
themselves. -/
theorem Runs.lookup {Q : β → BuildState → Prop} {f : α → Build β}
    {lookup : TypeGraph → Except Dangling α}
    (h : ∀ s fault, s.Coherent store → s.Surrounds store ref → P s →
      lookup s.graph = .error fault → store.SelfContaining fault.ref)
    (hf : ∀ a, Runs store ref P (f a) Q) :
    Runs store ref P (graph >>= fun g => ofDangling (lookup g) >>= f) Q := by
  refine .bind runs_graph fun g => .bind (runs_ofDangling _ ?_) fun a => ?_
  · rintro s fault hcoherent hsurrounds ⟨rfl, hs⟩ hfault
    exact h s fault hcoherent hsurrounds hs hfault
  · exact fun s hcoherent hsurrounds hs => hf a s hcoherent hsurrounds hs.1.2

theorem runs_map (f : α → β) (h : Runs store ref P x Q) :
    Runs store ref P (f <$> x) fun _ _ => True := by
  intro s hcoherent hsurrounds hs
  obtain ⟨hrun, hafter⟩ := h s hcoherent hsurrounds hs
  rw [exec_map]
  refine ⟨hrun, ?_⟩
  rcases hexec : x.exec s with ⟨outcome, t⟩
  rw [hexec] at hafter
  cases outcome with
  | error stop => exact hafter
  | ok a => trivial

/-- An operation on the graph is a run, if the graph that it leaves is one that a run may leave. -/
theorem runs_update {operation : TypeGraph → Except ArenaFault TypeGraph}
    (h : ∀ s g, P s → operation s.graph = .ok g → Run store ref s { s with graph := g }) :
    Runs store ref P (update operation) fun _ t => ∃ g, operation g = .ok t.graph := by
  intro s _ _ hs
  rw [exec_update]
  cases hop : operation s.graph with
  | ok g => exact ⟨h s g hs hop, s.graph, hop⟩
  | error fault => exact ⟨.refl ref s, trivial⟩

/-- A run whose stops are handled is a run, if the handler can rely on their being explained. -/
theorem runs_tryCatch {handler : BuildStop → Build α} (hx : Runs store ref P x Q)
    (hcatch : ∀ stop, Runs store ref (stop.Explained store) (handler stop) Q) :
    Runs store ref P (tryCatch x handler) Q := by
  intro s hcoherent hsurrounds hs
  obtain ⟨hrun, hafter⟩ := hx s hcoherent hsurrounds hs
  rw [exec_tryCatch]
  rcases hexec : x.exec s with ⟨outcome, t⟩
  rw [hexec] at hrun hafter
  cases outcome with
  | ok a => exact ⟨hrun, hafter⟩
  | error stop =>
    obtain ⟨hrun', hafter'⟩ :=
      hcatch stop t (hrun.coherent hcoherent) (hrun.surrounds hsurrounds) hafter
    exact ⟨hrun.trans hrun', hafter'⟩

/-- A step in the course of which an alias is being followed. What is asked of the state before and
after it is a matter of the graph. -/
theorem runs_following {P R : TypeGraph → Prop} {x : Build Unit} {f : Build Unit}
    {Q : Unit → BuildState → Prop} (hbody : ¬ store.IsBody ref)
    (hx : Runs store ref (fun s => P s.graph) x fun _ s => R s.graph)
    (hf : Runs store ref (fun s => R s.graph) f Q) :
    Runs store ref (fun s => P s.graph) (do
      modify fun state => { state with following := state.following.insert ref }
      tryFinally x (modify fun state =>
        { state with following := state.following.filter (· ≠ ref) })
      f) Q := by
  intro s hcoherent hsurrounds hs
  have hentering : (s.entering ref).Coherent store := by
    refine ⟨hcoherent.graph, fun other hother => ?_, hcoherent.faults, hcoherent.failures⟩
    rcases List.mem_insert_iff.1 hother with rfl | hother
    · exact hbody
    · exact hcoherent.following other hother
  obtain ⟨hrun, hafter⟩ := hx (s.entering ref) hentering hsurrounds hs
  rw [exec_following ref x (fun _ => f)]
  rcases hexec : x.exec (s.entering ref) with ⟨outcome, t⟩
  rw [hexec] at hrun hafter
  -- the alias is followed no longer, whether its target was built or not
  have hfollowed : Run store ref s (t.leaving ref) := .followed hbody hrun
  cases outcome with
  | error stop =>
    refine ⟨hfollowed, ?_⟩
    cases stop with
    | cause cause => trivial
    | type fault => exact hafter
  | ok a =>
    obtain ⟨hrun', hafter'⟩ :=
      hf (t.leaving ref) (hfollowed.coherent hcoherent) (hfollowed.surrounds hsurrounds) hafter
    exact ⟨hfollowed.trans hrun', hafter'⟩

end Build

-- ---------------------------------------------------------------------------
-- The building
-- ---------------------------------------------------------------------------

namespace TypeGraph

open Build
open Relation (ReflTransGen TransGen)

/-- Whether a type is in the graph. -/
abbrev Built (ref : Int) (s : BuildState) : Prop := s.graph.has ref = true

/-- Whether a way to build types is a run that leaves them in the graph. -/
def Builds (store : Store) (recurse : Recurse) : Prop :=
  ∀ ref usedBy, Runs store ref (fun _ => True) (recurse ref usedBy) fun _ => Built ref

variable {store : Store} {ref part : Int} {e : Entry} {P : BuildState → Prop} {recurse : Recurse}

/-- A type that is needed is built for the one that needs it. -/
theorem Builds.needed (hrec : Builds store recurse) (hneeds : store.Needs ref part)
    (usedBy : Option Int) :
    Runs store ref (fun _ => True) (recurse part usedBy) fun _ => Built part :=
  Runs.needed hneeds (hrec part usedBy)

/-- Adding the node of a type is a run that leaves the type in the graph. -/
theorem runs_addNode {name : Option String} {body : TypeBody} (hbody : ¬ store.IsBody ref)
    (h : ∀ s, P s → s.graph.Admits store ref body) :
    Runs store ref P (update (·.addNode ⟨ref, name, body⟩)) fun _ => Built ref := by
  have hrun : ∀ s g, P s → s.graph.addNode ⟨ref, name, body⟩ = .ok g →
      BuildState.Run store ref s { s with graph := g } :=
    fun s g hs hg => @BuildState.Run.node store s ⟨ref, name, body⟩ g hbody (h s hs) hg
  refine (runs_update hrun).post ?_
  rintro - t ⟨g, hg⟩
  obtain ⟨-, -, heq⟩ := addNode_eq_ok hg
  rw [Built, heq]
  exact (has_insert_node _).2 (.inl rfl)

/-- Adding an alias to a type that is there is a run that leaves the alias in the graph. -/
theorem runs_addAlias {target : Int} {name : Option String} (hbody : ¬ store.IsBody ref)
    (hneeds : store.Needs ref target) :
    Runs store ref (Built target) (update (·.addAlias ref target name)) fun _ => Built ref := by
  refine (runs_update fun s g hs hg => .synonym hbody hneeds hs hg).post ?_
  rintro - t ⟨g, hg⟩
  exact (has_of_addAlias hg ref).2 (.inl rfl)

/-- To report a missing type is a run, provided that no composite is being blamed. -/
theorem runs_dangling {α : Type} {Q : α → BuildState → Prop} {missing : Int} {usedBy : Option Int}
    (h : ¬ store.IsBody missing) : Runs store ref P (dangling missing usedBy) Q := by
  unfold dangling
  refine .bind runs_graph fun g => ?_
  split
  · refine .bind (R := fun _ s => .dangling ⟨missing, usedBy⟩ ∈ s.graph.faults) ?_ fun _ =>
      runs_throw fun s hs => .inl hs
    intro s _ _ _
    refine ⟨.record ?_, List.mem_append_right _ (List.mem_singleton_self _)⟩
    rintro _ hfault
    obtain rfl := TypeFault.dangling.inj hfault
    exact h
  · -- it has been reported before
    rename_i hknown
    refine runs_throw ?_
    rintro s ⟨rfl, -⟩
    exact .inl (by simpa using hknown)

/-- The entry of a reference is found, and if there is none, that is recorded. -/
theorem runs_entry {usedBy : Option Int} (other : Int) :
    Runs store ref P (entry store other usedBy) fun e s => P s ∧ store.entry? other = some e := by
  unfold entry
  split
  · rename_i placed hplaced
    exact runs_pure fun s hs => ⟨hs, by rw [Store.entry?, hplaced]; rfl⟩
  · rename_i hmissing
    have hnone : store.entry? other = none := by rw [Store.entry?, hmissing]; rfl
    exact runs_dangling (Store.not_isBody_of_missing hnone)

/-- The size of a type that is needed, as far as it is known. -/
theorem runs_sizeSoFar (hneeds : store.Needs ref part) (hP : ∀ s, P s → Built part s) :
    Runs store ref P (sizeSoFar part) fun _ => P := by
  unfold sizeSoFar
  refine .bind runs_graph fun g => .bind (runs_ofDangling _ ?_) fun node => ?_
  · rintro s fault hcoherent - ⟨rfl, hs⟩ hfault
    exact (hcoherent.graph.get_eq_error (.inl (hP s hs)) hfault).2.2
  · split
    · exact runs_pure fun s hs => hs.1.2
    · refine (runs_ofDangling _ ?_).post fun size s hs => hs.1.1.2
      rintro s fault hcoherent hsurrounds ⟨⟨rfl, hs⟩, -⟩ hfault
      exact hcoherent.byteSize_eq_error hsurrounds (.single hneeds) (.inl (hP s hs)) hfault

-- ---------------------------------------------------------------------------
-- The kinds of types
-- ---------------------------------------------------------------------------

/-- Building a qualified or renamed type is a run that leaves it in the graph. -/
theorem runs_buildAlias (hrec : Builds store recurse) (he : store.entry? e.ref = some e)
    (htag : e.tag.isAlias = true) :
    Runs store e.ref (fun _ => True) (buildAlias recurse e) fun _ => Built e.ref := by
  have hbody : ¬ store.IsBody e.ref := Store.not_isBody he fun h => by
    rw [Tag.isComposite_of_isAlias htag] at h
    exact absurd h (by decide)
  unfold buildAlias
  extract_lets name
  cases htarget : e.typeRef? with
  | none => exact runs_addNode hbody fun _ _ => .void
  | some target =>
    have hneeds : store.Needs e.ref target := .target he htag htarget
    have hbuild : Runs store e.ref (fun _ => True) (do
        modify fun state => { state with following := state.following.insert e.ref }
        try recurse target (some e.ref)
        finally modify fun state => { state with following := state.following.filter (· ≠ e.ref) }
        update (·.addAlias e.ref target name)) fun _ => Built e.ref :=
      runs_following (P := fun _ => True) (R := fun g => g.has target = true) hbody
        (hrec.needed hneeds _) (runs_addAlias hbody hneeds)
    refine .bind runs_getThe fun s => ?_
    split
    · rename_i hround
      -- rounds go through aliases only
      refine .bind (R := fun _ _ => True) ?_ fun _ => hbuild.of_any
      rintro _ hcoherent hsurrounds ⟨rfl, hs, -⟩
      have hmissing : ¬ store.IsBody target := by
        rcases Bool.or_eq_true_iff.1 hround with hround | hround
        · exact hs.following target (by simpa using hround)
        · rw [of_decide_eq_true hround]
          exact hbody
      exact runs_dangling (P := fun _ => True) hmissing _ hcoherent hsurrounds trivial
    · exact hbuild.of_any

/-- Looking through names for a pointer's target is a run that changes nothing. -/
theorem runs_peel {steps : Nat} {visited : List Int} {other : Entry} :
    Runs store ref P (peel store steps visited other) fun _ => P := by
  induction steps generalizing visited other with
  | zero => exact runs_pure fun _ hs => hs
  | succ steps ih =>
    unfold peel
    split
    · exact runs_pure fun _ hs => hs
    · split
      · exact runs_pure fun _ hs => hs
      · split
        · exact runs_pure fun _ hs => hs
        · refine .bind (runs_entry _) fun next => ?_
          exact fun s hcoherent hsurrounds hs => ih s hcoherent hsurrounds hs.1

theorem runs_buildPointer (target : Target) (hbody : ¬ store.IsBody e.ref) :
    Runs store e.ref (fun _ => True) (buildPointer store target e) fun _ => Built e.ref := by
  have hadd : ∀ isFunction, Runs store e.ref (fun _ => True) (update (·.addNode ⟨e.ref, e.name?,
      .pointer e.typeRef? (e.byteSize?.getD target.pointerWidth) isFunction
        (e.tag ≠ Tag.pointerType)⟩)) fun _ => Built e.ref :=
    fun isFunction => runs_addNode hbody fun _ _ => .pointer ..
  unfold buildPointer
  extract_lets jp
  split
  · exact .andThen stable_any runs_value hadd
  · refine .andThen stable_any (runs_entry _) fun pointed => ?_
    refine .andThen stable_any runs_peel fun bare => ?_
    exact .andThen stable_any runs_value hadd

/-- Building a base type is a run that leaves it in the graph. -/
theorem runs_buildBaseType (hbody : ¬ store.IsBody e.ref) :
    Runs store e.ref (fun _ => True) (buildBaseType e) fun _ => Built e.ref := by
  unfold buildBaseType
  split
  · exact runs_cause _
  · exact .value stable_any (runs_ofExcept _) fun encoding _ =>
      runs_addNode hbody fun _ _ => .scalar ..

/-- A data type that is known has the size that it was found for. -/
theorem dataTypeOf_sized (encoding : Option Encoding) (size : Int) :
    dataTypeOf encoding size = .unknown ∨ ((dataTypeOf encoding size).byteSize : Int) = size := by
  by_cases hunknown : dataTypeOf encoding size = .unknown
  · exact .inl hunknown
  · exact .inr (dataTypeOf_byteSize hunknown)

/-- The data type of an enumeration, if it is known, has the size of the enumeration. -/
theorem enumDataType_sized {e : Entry} {underlying type : DataType} {size : Int}
    {enumerators : List (String × Int)}
    (h : enumDataType e underlying size enumerators = .ok type) :
    type = .unknown ∨ (type.byteSize : Int) = size := by
  unfold enumDataType at h
  split at h
  · rename_i hsame
    rw [Except.ok.injEq] at h
    rw [← h]
    -- the underlying type is taken over only if it has the size of the enumeration
    exact .inr hsame.2
  · obtain ⟨encoding, -, h⟩ := bind_eq_ok.1 h
    cases encoding with
    | some encoding =>
      rw [← pure_eq_ok.1 h]
      exact dataTypeOf_sized _ size
    | none =>
      rw [← pure_eq_ok.1 h]
      exact dataTypeOf_sized _ size

/-- Building an enumeration is a run that leaves it in the graph. -/
theorem runs_buildEnum (hrec : Builds store recurse) (he : store.entry? e.ref = some e)
    (htag : e.tag = Tag.enumerationType) (hbody : ¬ store.IsBody e.ref) :
    Runs store e.ref (fun _ => True) (buildEnum recurse e) fun _ => Built e.ref := by
  unfold buildEnum
  refine .andThen stable_any (runs_ofExcept _) fun enumerators => ?_
  extract_lets jp
  -- with or without an underlying type, the rest only adds the node
  have hjp : ∀ underlying,
      Runs store e.ref (fun _ => True) (jp underlying) fun _ => Built e.ref := by
    rintro ⟨underlying, size⟩
    dsimp only [jp]
    split
    · exact runs_cause _
    · refine .value stable_any (runs_ofExcept _) fun type htype => ?_
      exact runs_addNode hbody fun _ _ => .enum _ (enumDataType_sized htype)
  split
  · exact .andThen stable_any runs_value hjp
  · rename_i underlying hunderlying
    have hneeds : store.Needs e.ref underlying := .underlying he htag hunderlying
    refine .bind (hrec.needed hneeds _) fun _ => .lookup ?_ fun node => ?_
    · intro s fault hcoherent hsurrounds hs hfault
      exact hcoherent.resolve_eq_error hsurrounds (.single hneeds) (.inl hs) hfault
    · exact .of_any (.andThen stable_any runs_value hjp)

/-- An array has at least one dimension, since one is deduced where none is given. -/
theorem completeDims_ne_nil (dims : List Int) (stride size : Option Int) :
    completeDims dims stride size ≠ [] := by
  unfold completeDims
  split
  · split <;> simp
  · split <;> simp
  · simp
  · intro h
    simp_all

theorem runs_buildArray (hrec : Builds store recurse) (he : store.entry? e.ref = some e)
    (htag : e.tag = Tag.arrayType) (hbody : ¬ store.IsBody e.ref) :
    Runs store e.ref (fun _ => True) (buildArray recurse e) fun _ => Built e.ref := by
  unfold buildArray
  split
  · exact runs_cause _
  · rename_i element helement
    have hneeds : store.Needs e.ref element := .element he htag helement
    have hP : Stable store (Built element) := stable_has element
    -- the elements are in the graph by then, so that the node is admitted
    have hadd : ∀ dims explicit stride, Runs store e.ref (Built element)
        (update (·.addNode ⟨e.ref, e.name?,
          .array element (completeDims dims stride e.byteSize?) explicit e.byteSize?⟩))
        fun _ => Built e.ref :=
      fun dims explicit stride => runs_addNode hbody fun s hs =>
        .array _ _ hs hneeds (completeDims_ne_nil dims stride e.byteSize?)
    refine .bind (hrec.needed hneeds _) fun _ => ?_
    refine .andThen hP (runs_ofExcept _) fun dims => ?_
    extract_lets jp
    have hjp : ∀ explicit, Runs store e.ref (Built element) (jp explicit) fun _ => Built e.ref := by
      intro explicit
      cases explicit with
      | none => exact .bind (runs_sizeSoFar hneeds fun _ hs => hs) (hadd dims none)
      | some stride => exact .andThen hP runs_value (hadd dims (some stride))
    split
    · exact .andThen hP runs_value hjp
    · exact .andThen hP (runs_ofExcept _) hjp

theorem runs_parametersOf {es : List Entry} :
    Runs store ref (fun _ => True) (parametersOf store es) fun _ _ => True := by
  induction es with
  | nil => exact runs_value
  | cons c es ih =>
    unfold parametersOf
    split
    · split
      · exact ih
      · refine .andThen stable_any (runs_map _ (runs_entry _)) fun _ => ?_
        exact .andThen stable_any ih fun _ => runs_value
    · exact ih

/-- Building the type of a function is a run that leaves it in the graph. -/
theorem runs_buildSignature (hbody : ¬ store.IsBody e.ref) :
    Runs store e.ref (fun _ => True) (buildSignature store e) fun _ => Built e.ref := by
  unfold buildSignature
  extract_lets isVariadic jp
  have hjp : ∀ u, Runs store e.ref (fun _ => True) (jp u) fun _ => Built e.ref := by
    intro u
    exact .andThen stable_any runs_parametersOf fun _ =>
      runs_addNode hbody fun _ _ => .signature ..
  split
  · exact .andThen stable_any (runs_map _ (runs_entry _)) hjp
  · exact hjp ()

-- ---------------------------------------------------------------------------
-- Composites
-- ---------------------------------------------------------------------------

/-- Whether the type of a member is in the graph and needed by the composite. -/
def BuiltFor (store : Store) (ref : Int) (m : Member) (s : BuildState) : Prop :=
  Built m.typeRef s ∧ store.Needs ref m.typeRef

/-- Building a base class is a run; the type of the member that it becomes is in the graph. -/
theorem runs_buildBaseClass {c : Entry} (hrec : Builds store recurse)
    (hneeds : ∀ type, c.typeRef? = some type → store.Needs ref type) :
    Runs store ref P (buildBaseClass recurse c) fun member s =>
      ∀ m ∈ member, BuiltFor store ref m s := by
  unfold buildBaseClass
  split
  · exact runs_pure (by simp)
  · rename_i type htype
    have hneeds : store.Needs ref type := hneeds type htype
    have hP : Stable store (Built type) := stable_has type
    -- the member refers to the base class, which is in the graph
    have hmember : ∀ offset, Runs store ref (Built type)
        (pure (some ⟨none, type, offset, none, none, true⟩)) fun member s =>
          ∀ m ∈ member, BuiltFor store ref m s := by
      intro offset
      refine runs_pure fun s hs m hm => ?_
      obtain rfl := Option.some.inj hm
      exact ⟨hs, hneeds⟩
    refine .bind (hrec.needed hneeds _).of_any fun _ => .lookup ?_ fun node => ?_
    · intro s fault hcoherent _ hs hfault
      exact (hcoherent.graph.get_eq_error (.inl hs) hfault).2.2
    · split
      · exact .andThen hP (runs_ofExcept _) hmember
      · exact .andThen hP (runs_ofExcept _) hmember
      · exact runs_pure (by simp)

/-- Building a member is a run; its type is in the graph, unless the member is passed over. -/
theorem runs_buildMember {c : Entry} (hrec : Builds store recurse) (target : Target)
    (inUnion : Bool)
    (hneeds : ∀ type, c.isDeclaration = false → c.typeRef? = some type → store.Needs ref type) :
    Runs store ref P (buildMember recurse target inUnion c) fun member s =>
      ∀ m ∈ member, BuiltFor store ref m s := by
  unfold buildMember
  split
  · exact runs_pure (by simp)
  rename_i hdeclared
  split
  · exact runs_pure (by simp)
  rename_i type htype
  have hneeds : store.Needs ref type := hneeds type (by simpa using hdeclared) htype
  have hP : Stable store (Built type) := stable_has type
  -- whatever else is read of the member, it refers to its type, which is in the graph
  have hmember : ∀ name offset bitOffset bitSize, Runs store ref (Built type)
      (pure (some ⟨name, type, offset, bitOffset, bitSize, false⟩)) fun member s =>
        ∀ m ∈ member, BuiltFor store ref m s := by
    intro name offset bitOffset bitSize
    refine runs_pure fun s hs m hm => ?_
    obtain rfl := Option.some.inj hm
    exact ⟨hs, hneeds⟩
  refine .bind (hrec.needed hneeds _).of_any fun _ => ?_
  refine .andThen hP (runs_ofExcept _) fun offset => ?_
  extract_lets offset
  split
  · exact runs_pure (by simp)
  · refine .andThen hP (runs_ofExcept _) fun size => ?_
    extract_lets size jp
    have hjp : ∀ unitSize, Runs store ref (Built type) (jp unitSize) fun member s =>
        ∀ m ∈ member, BuiltFor store ref m s := by
      intro unitSize
      exact .andThen hP (runs_ofExcept _) fun place => hmember _ _ _ _
    split
    · exact .andThen hP runs_value hjp
    · exact .bind (runs_sizeSoFar hneeds fun _ hs => hs) hjp
  · exact hmember _ _ _ _
  · refine .lookup ?_ fun node => ?_
    · intro s fault hcoherent _ hs hfault
      -- the type was just built, so that only a composite that contains itself can be missing
      exact (hcoherent.graph.get_eq_error (.inl hs) hfault).2.2
    · split
      · exact hmember _ _ _ _
      · exact runs_pure (by simp)

/-- Types that were built for some members stay in the graph. -/
theorem stable_builtFor (ms : List Member) :
    Stable store fun s => ∀ m ∈ ms, BuiltFor store ref m s :=
  fun _ _ _ hrun h m hm => ⟨hrun.has (h m hm).1, (h m hm).2⟩

/-- Building the members of a composite is a run that leaves all their types in the graph. -/
theorem runs_buildMembers (hrec : Builds store recurse) (target : Target) (inUnion : Bool)
    (es : List Entry)
    (hneeds : ∀ c ∈ es, c.IsStored → ∀ type, c.typeRef? = some type → store.Needs ref type) :
    Runs store ref (fun _ => True) (buildMembers recurse target inUnion es) fun members s =>
      ∀ m ∈ members, BuiltFor store ref m s := by
  induction es with
  | nil => exact runs_pure (by simp)
  | cons c es ih =>
    unfold buildMembers
    extract_lets jp
    -- the types of this member stay in the graph while the others are built
    have hjp : ∀ member : Option Member, Runs store ref
        (fun s => ∀ m ∈ member, BuiltFor store ref m s) (jp member)
        fun members s => ∀ m ∈ members, BuiltFor store ref m s := by
      intro member
      have hP : Stable store fun s => ∀ m ∈ member, BuiltFor store ref m s :=
        fun _ _ _ hrun h m hm => ⟨hrun.has (h m hm).1, (h m hm).2⟩
      have hrest := ih fun c hc => hneeds c (List.mem_cons_of_mem _ hc)
      refine .bind (hrest.of_any.frame hP) fun members => runs_pure fun s hs m hm => ?_
      rcases List.mem_append.1 hm with hm | hm
      · exact hs.1 m (Option.mem_toList.1 hm)
      · exact hs.2 m hm
    split
    · rename_i hmember
      refine .bind (runs_buildMember hrec target inUnion fun type hstored => ?_) hjp
      exact hneeds c List.mem_cons_self (.inl ⟨hmember, hstored⟩) type
    · split
      · rename_i hbase
        refine .bind (runs_buildBaseClass hrec ?_) hjp
        exact hneeds c List.mem_cons_self (.inr hbase)
      · exact .bind (runs_pure (by simp)) hjp

/-- Finding where the members end is a run: their types are in the graph, so that the only sizes
that can be missing are those of composites that contain themselves. -/
theorem runs_endOfMembers {inUnion : Bool} {all : List Member} (members : List Member)
    (hsub : ∀ m ∈ members, m ∈ all) :
    Runs store ref (fun s => ∀ m ∈ all, BuiltFor store ref m s) (endOfMembers inUnion members)
      fun _ s => ∀ m ∈ all, BuiltFor store ref m s := by
  induction members with
  | nil => exact runs_pure fun _ hs => hs
  | cons m ms ih =>
    have hm : m ∈ all := hsub m List.mem_cons_self
    -- the types of all members have been built, and asking for their sizes changes nothing
    have hsize : Runs store ref (fun s => ∀ m ∈ all, BuiltFor store ref m s) (sizeSoFar m.typeRef)
        fun _ s => ∀ m ∈ all, BuiltFor store ref m s := by
      intro s hcoherent hsurrounds hs
      exact runs_sizeSoFar (hs m hm).2 (fun s hs => (hs m hm).1) s hcoherent hsurrounds hs
    unfold endOfMembers
    refine .bind hsize fun size => .bind (ih fun m hm => hsub m (List.mem_cons_of_mem _ hm))
      fun rest => ?_
    split
    · exact runs_pure fun _ hs => hs
    · exact runs_pure fun _ hs => hs

theorem runs_deducedSize {target : Target} {inUnion : Bool} {members : List Member} :
    Runs store ref (fun s => ∀ m ∈ members, BuiltFor store ref m s)
      (deducedSize target inUnion members) fun _ _ => True :=
  .bind (runs_endOfMembers members fun _ hm => hm) fun _ => runs_value

/-- What the building of a composite whose placeholder is there comes to, until it is filled. -/
inductive Filled (store : Store) (ref : Int) (s : BuildState) :
    Except BuildStop Unit × BuildState → Prop
  | stopped {t : BuildState} {stop : BuildStop} (hrun : BuildState.Run store ref s t)
      (h : stop.Explained store t) : Filled store ref s (.error stop, t)
  | filled {t : BuildState} {name : Option String} {kind : CompositeKind} {size : Option Int}
      {members : List Member} {isClass : Bool} {g : TypeGraph} (hrun : BuildState.Run store ref s t)
      (hmembers : ∀ m ∈ members, BuiltFor store ref m t)
      (h : t.graph.fillPlaceholder ⟨ref, name, .composite kind size members isClass⟩ = .ok g) :
      Filled store ref s (.ok (), { t with graph := g })

/-- If a step before the placeholder is filled is a run, it may be taken first. -/
theorem filled_bind {α : Type} {Q : α → BuildState → Prop} {x : Build α} {f : α → Build Unit}
    (hx : Runs store ref P x Q)
    (hf : ∀ a t, t.Coherent store → t.Surrounds store ref → Q a t →
      Filled store ref t ((f a).exec t)) (s : BuildState) (hcoherent : s.Coherent store)
    (hsurrounds : s.Surrounds store ref) (hs : P s) :
    Filled store ref s ((x >>= f).exec s) := by
  obtain ⟨hrun, hafter⟩ := hx s hcoherent hsurrounds hs
  rw [exec_bind]
  rcases hexec : x.exec s with ⟨outcome, t⟩
  rw [hexec] at hrun hafter
  cases outcome with
  | error stop => exact .stopped hrun hafter
  | ok a =>
    show Filled store ref s ((f a).exec t)
    generalize hresult : (f a).exec t = result
    cases hresult ▸ hf a t (hrun.coherent hcoherent) (hrun.surrounds hsurrounds) hafter with
    | stopped hrun' h => exact .stopped (hrun.trans hrun') h
    | filled hrun' hmembers h => exact .filled (hrun.trans hrun') hmembers h

/-- To fill the placeholder at once, with members whose types are there, is to fill it. -/
theorem filled_fillPlaceholder {name : Option String} {kind : CompositeKind} {size : Option Int}
    {members : List Member} {isClass : Bool} (s : BuildState)
    (hs : ∀ m ∈ members, BuiltFor store ref m s) :
    Filled store ref s ((update (·.fillPlaceholder
      ⟨ref, name, .composite kind size members isClass⟩)).exec s) := by
  rw [exec_update]
  cases hfill : s.graph.fillPlaceholder ⟨ref, name, .composite kind size members isClass⟩ with
  | error fault => exact .stopped (.refl ref s) trivial
  | ok g => exact .filled (.refl ref s) hs hfill

/-- Building the body of a composite is a run that leaves it in the graph: its placeholder is filled
in the end, or discarded if its building stops. -/
theorem runs_buildBody (hrec : Builds store recurse) (target : Target)
    (he : store.entry? e.ref = some e) (htag : e.tag.isComposite = true)
    (hcompletion : store.completion? e = none) :
    Runs store e.ref (fun _ => True) (buildBody recurse target e) fun _ => Built e.ref := by
  have hbody : store.IsBody e.ref := ⟨e, he, htag, hcompletion⟩
  unfold buildBody
  extract_lets inUnion kind
  intro s hcoherent hsurrounds _
  rw [exec_bind, exec_update]
  cases hplaceholder : s.graph.addPlaceholder e.ref with
  | error fault => exact ⟨.refl _ s, trivial⟩
  | ok g =>
    simp only [exec_tryCatch]
    generalize hresult : Build.exec (_ >>= _) _ = result
    -- from the placeholder on the building ends with its being filled, or stops before
    have hfilled : Filled store e.ref { s with graph := g } result := by
      have hfaults : g.faults = s.graph.faults := by rw [(addPlaceholder_eq_ok hplaceholder).2]
      rw [← hresult]
      refine filled_bind (runs_buildMembers hrec target inUnion e.children ?_) ?_ _
        (hcoherent.withGraph (hcoherent.graph.addPlaceholder hbody hplaceholder) hfaults)
        (hsurrounds.addPlaceholder hplaceholder) trivial
      · exact fun c hc hstored type htype => .member he htag hcompletion hc hstored htype
      · intro members t hcoherent hsurrounds ht
        have hP : Stable store fun s => ∀ m ∈ members, BuiltFor store e.ref m s :=
          stable_builtFor members
        -- the size is given, there are no members to deduce it from, or it is deduced
        split
        · exact filled_bind (runs_value.frame hP)
            (fun size t _ _ ht => filled_fillPlaceholder t ht.1) t hcoherent hsurrounds ht
        · split
          · exact filled_bind (runs_value.frame hP)
              (fun size t _ _ ht => filled_fillPlaceholder t ht.1) t hcoherent hsurrounds ht
          · exact filled_bind ((runs_map _ runs_deducedSize).frame hP)
              (fun size t _ _ ht => filled_fillPlaceholder t ht.1) t hcoherent hsurrounds ht
    cases hfilled with
    | @stopped t stop hrun h =>
      -- what was recorded stays so when the placeholder is discarded
      refine ⟨.abandoned hbody hplaceholder hrun, ?_⟩
      show stop.Explained store { t with graph := t.graph.discardPlaceholder e.ref }
      cases stop with
      | cause cause => trivial
      | type fault => exact h.imp_left fun h => discardPlaceholder_faults.symm ▸ h
    | filled hrun hmembers h =>
      refine ⟨.composite hbody hplaceholder hrun hmembers h, ?_⟩
      obtain ⟨-, rfl⟩ := fillPlaceholder_eq_ok h
      exact (has_insert_node _).2 (.inl rfl)

/-- Building a composite is a run that leaves it in the graph, through its body or as a name of what
completes it. -/
theorem runs_buildComposite (hrec : Builds store recurse) (target : Target)
    (he : store.entry? e.ref = some e) (htag : e.tag.isComposite = true) :
    Runs store e.ref (fun _ => True) (buildComposite recurse store target e)
      fun _ => Built e.ref := by
  unfold buildComposite
  split
  · rename_i definition hdefinition
    have hcompletion : store.completion? e = some definition := hdefinition
    have hbody : ¬ store.IsBody e.ref := Store.not_isBody he fun _ => by
      rw [hcompletion]
      simp
    have hneeds : store.Needs e.ref definition := .definition he htag hcompletion
    exact .bind (hrec.needed hneeds _) fun _ => runs_addAlias hbody hneeds
  · rename_i hcompletion
    exact runs_buildBody hrec target he htag hcompletion

/-- Building the entry of any kind of type is a run that leaves it in the graph. -/
theorem runs_buildEntry (hrec : Builds store recurse) (target : Target)
    (he : store.entry? e.ref = some e) :
    Runs store e.ref (fun _ => True) (buildEntry recurse store target e) fun _ => Built e.ref := by
  unfold buildEntry
  split
  · rename_i htag
    exact runs_buildAlias hrec he htag
  split
  · rename_i htag
    refine runs_buildPointer target (Store.not_isBody he fun h => ?_)
    rw [Tag.isComposite_of_isPointer htag] at h
    exact absurd h (by decide)
  split
  · rename_i htag
    exact runs_buildComposite hrec target he htag
  rename_i hcomposite
  -- all further kinds have no members
  have hbody : ¬ store.IsBody e.ref := Store.not_isBody he fun h => absurd h hcomposite
  split
  · exact runs_buildBaseType hbody
  split
  · rename_i htag
    exact runs_buildEnum hrec he htag hbody
  split
  · rename_i htag
    exact runs_buildArray hrec he htag hbody
  split
  · exact runs_buildSignature hbody
  · exact runs_addNode hbody fun _ _ => .unspecified _

-- ---------------------------------------------------------------------------
-- References
-- ---------------------------------------------------------------------------

/-- Why an entry is left out is remembered, and it is recorded. -/
theorem runs_settle {Q : Unit → BuildState → Prop} (e : Entry) (stop : BuildStop) :
    Runs store e.ref (stop.Explained store) (settle e stop) Q := by
  have hremember : ∀ fault : TypeFault, Runs store e.ref
      (fun s => fault ∈ s.graph.faults ∨ fault.Unlisted store)
      (remember e.ref fault >>= fun _ => throw (.type fault)) Q := by
    intro fault
    refine .bind (R := fun _ s => fault ∈ s.graph.faults ∨ fault.Unlisted store) ?_ fun _ =>
      runs_throw fun s hs => hs
    exact fun s _ _ hs => ⟨.remember hs, hs⟩
  cases stop with
  | type fault => exact hremember fault
  | cause cause =>
    refine .bind (R := fun _ s => .malformed e.ref cause ∈ s.graph.faults) ?_ fun _ => ?_
    · intro s _ _ _
      exact ⟨.record fun missing h => absurd h (by simp),
        List.mem_append_right _ (List.mem_singleton_self _)⟩
    · exact fun s hcoherent hsurrounds hs => hremember _ s hcoherent hsurrounds (.inl hs)

/-- Making sure that a type is in the graph is a run after which it is. -/
theorem runs_buildRef (store : Store) (target : Target) (depth : Nat) :
    Builds store (buildRef store target depth) := by
  induction depth with
  | zero => exact fun ref usedBy => runs_cause _
  | succ depth ih =>
    intro ref usedBy
    unfold buildRef
    refine .bind runs_getThe fun known => ?_
    -- known already, known to have failed, or to be built from its entry
    split
    · rename_i hhas
      refine runs_pure ?_
      rintro _ ⟨rfl, -, -⟩
      exact hhas
    · split
      · rename_i fault hfault
        refine runs_throw ?_
        rintro _ ⟨rfl, hcoherent, -⟩
        exact hcoherent.failures ref fault hfault
      · refine Runs.of_any (.value stable_any ((runs_entry ref).post fun e s hs => hs.2) ?_)
        intro e he
        obtain rfl := Store.entry?_ref he
        exact runs_tryCatch (runs_buildEntry ih target he) (runs_settle e)

-- ---------------------------------------------------------------------------
-- The visits of all entries
-- ---------------------------------------------------------------------------

/-- Whether a state is one between two entries: coherent, and nothing is being built. -/
structure Idle (store : Store) (s : BuildState) : Prop where
  coherent : s.Coherent store
  complete : ∀ ref, s.graph.hasPlaceholder ref = false

theorem idle_start (store : Store) : Idle store .start where
  coherent := BuildState.coherent_start store
  complete _ := rfl

/-- Where nothing is being built, everything may be. -/
theorem Idle.surrounds {s : BuildState} (h : Idle store s) (ref : Int) : s.Surrounds store ref := by
  intro outer houter
  rw [h.complete outer] at houter
  exact absurd houter (by decide)

/-- Between two entries nothing is being built, and a run leaves nothing in the making. -/
theorem Idle.run {s t : BuildState} (h : Idle store s) (hrun : BuildState.Run store ref s t) :
    Idle store t where
  coherent := hrun.coherent h.coherent
  complete other := by
    by_contra hplaceholder
    have hbefore := hrun.hasPlaceholder (by simpa using hplaceholder)
    rw [h.complete other] at hbefore
    exact absurd hbefore (by decide)

/-- The visit of an entry is a run. -/
theorem run_visit {s : BuildState} (target : Target) (depth : Nat) (hs : Idle store s)
    (p : Placed) :
    BuildState.Run store p.entry.ref s (visit store target depth s p) := by
  unfold visit
  split
  · have hruns := runs_buildRef store target depth p.entry.ref none
    exact (hruns s hs.coherent (hs.surrounds _) trivial).1
  · exact .refl _ s

/-- The state after the visits of all entries, in which no type takes more than so many nested
steps. -/
def stateWithin (depth : Nat) (target : Target) (store : Store) : BuildState :=
  store.entries.foldl (visit store target depth) .start

theorem buildWithin_eq (depth : Nat) (target : Target) (store : Store) :
    buildWithin depth target store = (stateWithin depth target store).graph :=
  congrArg (fun result => result.2.graph) (exec_buildAll store target depth store.entries .start)

/-- What holds before the first entry, and after every visit if it held before, holds in the end. It
may speak of the entries visited so far. -/
theorem stateWithin_induction {P : List Placed → BuildState → Prop} (depth : Nat) (target : Target)
    (hstart : P [] .start)
    (hstep : ∀ before s p, Idle store s → p ∈ store.entries → P before s →
      P (before ++ [p]) (visit store target depth s p)) :
    Idle store (stateWithin depth target store) ∧
      P store.entries (stateWithin depth target store) := by
  -- by induction from the end, since a visit comes after all those before it
  have hfold : ∀ ps : List Placed, (∀ p ∈ ps, p ∈ store.entries) →
      Idle store (ps.foldl (visit store target depth) .start) ∧
        P ps (ps.foldl (visit store target depth) .start) := by
    intro ps
    induction ps using List.reverseRecOn with
    | nil => exact fun _ => ⟨idle_start store, hstart⟩
    | append_singleton before p ih =>
      intro hsub
      obtain ⟨hidle, hbefore⟩ := ih fun q hq => hsub q (List.mem_append_left _ hq)
      have hp : p ∈ store.entries := hsub p (by simp)
      rw [List.foldl_append]
      exact ⟨hidle.run (run_visit target _ hidle p), hstep before _ p hidle hp hbefore⟩
  exact hfold store.entries fun _ hp => hp

/-- The same for the depth in which graphs are built. -/
theorem finalState_induction {P : List Placed → BuildState → Prop} (target : Target)
    (hstart : P [] .start)
    (hstep : ∀ before s p, Idle store s → p ∈ store.entries → P before s →
      P (before ++ [p]) (visit store target (depthBound store) s p)) :
    Idle store (finalState target store) ∧ P store.entries (finalState target store) :=
  stateWithin_induction (depthBound store) target hstart hstep

/-- After the last visit nothing is being built. -/
theorem idle_finalState (target : Target) (store : Store) : Idle store (finalState target store) :=
  (finalState_induction (P := fun _ _ => True) target trivial fun _ _ _ _ _ _ => trivial).1

/-- The graph that is built from a store is coherent. -/
theorem coherent_build (target : Target) (store : Store) : (build target store).Coherent store := by
  rw [build_eq]
  exact (idle_finalState target store).coherent.graph

/-- In the end no placeholder is left. -/
theorem hasPlaceholder_build (target : Target) (store : Store) (ref : Int) :
    (build target store).hasPlaceholder ref = false := by
  rw [build_eq]
  exact (idle_finalState target store).complete ref

/-- What is stored for a reference in the end is what the reference resolves to. -/
theorem resolve_of_get? {target : Target} {store : Store} {ref : Int} {node : TypeNode}
    (h : (build target store).nodes.get? ref = some node) :
    (build target store).resolve ref = .ok node := by
  have hcoherent := coherent_build target store
  -- whatever has a node is no alias, and no placeholder is left
  have hend : (build target store).aliases.get? ref = none := by
    by_contra hsome
    obtain ⟨aim, haim⟩ := Option.ne_none_iff_exists'.1 hsome
    rw [hcoherent.apart ref aim haim] at h
    exact absurd h (by simp)
  have hreal : node.isPlaceholder = false := by
    by_contra hplaceholder
    have hfound := hasPlaceholder_iff.2 ⟨node, h, by simpa using hplaceholder⟩
    rw [hasPlaceholder_build] at hfound
    exact absurd hfound (by decide)
  exact resolve_eq_ok.2
    ⟨get_of_canonicalRef (hcoherent.ranked.canonicalRef_eq .refl hend) h, hreal⟩

end TypeGraph

-- ---------------------------------------------------------------------------
-- Sound nodes
-- ---------------------------------------------------------------------------

/-- Whether the numbers of a type agree: a scalar of a known data type takes the bytes of the data
type, and an array has dimensions. -/
def TypeBody.Sound : TypeBody → Prop
  | .scalar _ size type | .enum size type _ => type = .unknown ∨ (type.byteSize : Int) = size
  | .array _ dims _ _ => dims ≠ []
  | _ => True

namespace TypeGraph

theorem Admits.sound {g : TypeGraph} {store : Store} {ref : Int} {body : TypeBody}
    (h : g.Admits store ref body) : body.Sound := by
  cases h with
  | scalar encoding size => exact dataTypeOf_sized encoding size
  | enum enumerators h => exact h
  | array stride size _ _ hdims => exact hdims
  | pointer | signature | void | unspecified => trivial

/-- The nodes of a graph that was built are sound. -/
theorem sound_of_get? {target : Target} {store : Store} {ref : Int} {node : TypeNode}
    (h : (build target store).nodes.get? ref = some node) : node.body.Sound := by
  rw [build_eq] at h
  have hfinal : ∀ ref node, (finalState target store).graph.nodes.get? ref = some node →
      node.body.Sound := by
    refine (finalState_induction
      (P := fun _ s => ∀ ref node, s.graph.nodes.get? ref = some node → node.body.Sound) target
      (fun ref node hnode => absurd hnode (by simp [BuildState.start, empty])) ?_).2
    intro _ s p hidle _ hs
    exact (run_visit target _ hidle p).forall_nodes trivial (fun _ _ _ _ => trivial)
      (fun _ _ _ => Admits.sound) hs
  exact hfinal ref node h

/-- The types of a graph that was built are sound. -/
theorem sound_of_build {target : Target} {store : Store} {ref : Int} {node : TypeNode}
    (h : (build target store).resolve ref = .ok node) : node.body.Sound := by
  obtain ⟨hget, -⟩ := resolve_eq_ok.1 h
  obtain ⟨canonical, -, hnode⟩ := get_eq_ok hget
  exact sound_of_get? hnode

end TypeGraph

end DebugLayout
