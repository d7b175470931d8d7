import DebugLayout.Proofs.TypeGraph.Build

/-!
# DebugLayout — the course of the building of a composite

Runs tell what the building of a type can do to the graph, but not why it stops nor when it turns to
another type. Most of its steps only look at the graph, and may stop for something that the entry
itself is to blame for. A composite turns to the types of its members one after the other, under its
placeholder: that is its **course**. It is the course of an arbitrary way to build the types that
are needed, so that what is known about that way carries over to the composite.

A course is a relation and not a function, since what the needed types come to is left open. It ends
in one of three ways: with all members, with a stop of one of the types that were needed, or with a
stop that the composite is itself to blame for.

* `Malformation.IsOwn`: what an entry itself is to blame for;
* `Build.Glances`, `Build.LooksUp`: steps that only look;
* `TypeGraph.Course`: the steps of a composite under its placeholder;
* `TypeGraph.courses_buildMembers`: the members take a course;
* `TypeGraph.Course.run`, `Course.keeps`, `Course.keeps_ended`: what courses keep.
-/

namespace DebugLayout

-- ------------------------------------------------------------------------------------------------
-- What an entry itself is to blame for
-- ------------------------------------------------------------------------------------------------

/-- Whether a malformation follows from what an entry says, and not from the state of the arena or
the depth of the nesting. -/
def Malformation.IsOwn : Malformation → Prop
  | .arena _ | .endless => False
  | _ => True

/-- Whether a stop is one for a malformation that the entry is to blame for, or because a type is
missing. -/
def BuildStop.IsOwn : BuildStop → Prop
  | .type _ => True
  | .cause malformation => malformation.IsOwn

/-- Whether an operation on an entry only finds faults that the entry itself is to blame for. -/
def Blames {α : Type} (x : Except Malformation α) : Prop :=
  ∀ cause, x = .error cause → cause.IsOwn

namespace Blames

variable {α β : Type}

/-- An operation that ends well finds no fault at all. -/
theorem ok (a : α) : Blames (.ok a) := fun _ h => absurd h (by simp)

/-- A single fault is the entry's own if it says so. -/
theorem error {cause : Malformation} (h : cause.IsOwn) : Blames (.error cause : Except _ α) := by
  intro other hother
  rw [← Except.error.inj hother]
  exact h

/-- Operations one after the other blame the entry if each of them does. The later one is asked for
whatever the earlier one may end with. -/
theorem bind {x : Except Malformation α} {f : α → Except Malformation β} (hx : Blames x)
    (hf : ∀ a, Blames (f a)) : Blames (x >>= f) := by
  intro cause hcause
  rcases bind_eq_error.1 hcause with hcause | ⟨a, -, hcause⟩
  · exact hx cause hcause
  · exact hf a cause hcause

theorem map {x : Except Malformation α} (f : α → β) (hx : Blames x) : Blames (x.map f) :=
  fun cause hcause => hx cause (map_eq_error.1 hcause)

/-- An operation on each of some values blames the entry if it does so for any value. -/
theorem mapM {f : α → Except Malformation β} (hf : ∀ a, Blames (f a)) (as : List α) :
    Blames (as.mapM f) := by
  induction as with
  | nil => exact .ok _
  | cons a as ih =>
    rw [List.mapM_cons]
    exact .bind (hf a) fun _ => .bind ih fun _ => .ok _

end Blames

/-- An attribute that is no integer is a fault of the entry that has it. -/
theorem Entry.blames_intAttr? (e : Entry) (name : String) : Blames (e.intAttr? name) := by
  unfold Entry.intAttr?
  split
  · exact .ok _
  · split
    · exact .ok _
    · exact .error trivial

/-- The position of a bitfield is a matter of the attributes of the member. -/
theorem Entry.blames_fieldPosition (e : Entry) : Blames e.fieldPosition := by
  unfold Entry.fieldPosition
  split
  · rename_i fault hfault
    exact .error (e.blames_intAttr? _ fault hfault)
  · exact .ok _
  · split
    · rename_i fault hfault
      exact .error (e.blames_intAttr? _ fault hfault)
    · exact .ok _

/-- So is its place in the storage unit, whatever the order of bytes and the unit are. -/
theorem Entry.blames_fieldPlace (e : Entry) (order : Endianness) (unitSize : Option Int)
    (byteOffset size : Int) : Blames (e.fieldPlace order unitSize byteOffset size) := by
  unfold Entry.fieldPlace
  split
  · exact .error trivial
  · exact .error trivial
  · split
    · rename_i fault hfault
      exact .error (e.blames_fieldPosition fault hfault)
    · dsimp only
      split
      · exact .error trivial
      · exact .ok _

namespace TypeGraph

/-- An unknown encoding is a fault of the base type. -/
theorem blames_encodingOf (e : Entry) : Blames (encodingOf e) := by
  unfold encodingOf
  split
  · exact .ok _
  · split
    · exact .ok _
    · exact .error trivial

/-- Enumerators without name or value are a fault of the enumeration around them. -/
theorem blames_enumeratorsOf (es : List Entry) : Blames (enumeratorsOf es) := by
  induction es with
  | nil => exact .ok _
  | cons e es ih =>
    unfold enumeratorsOf
    split
    · exact ih
    · split
      · split
        · exact .map _ ih
        · exact .error trivial
      · exact ih

/-- A data type that does not hold the enumerators is a fault of the enumeration. -/
theorem blames_enumDataType (e : Entry) (underlying : DataType) (size : Int)
    (enumerators : List (String × Int)) : Blames (enumDataType e underlying size enumerators) := by
  unfold enumDataType
  split
  · exact .ok _
  · refine .bind (blames_encodingOf e) fun encoding => ?_
    cases encoding <;> exact .ok _

/-- Bounds that cannot be read are a fault of the array. -/
theorem blames_dimensionsOf (e : Entry) : Blames (dimensionsOf e) := by
  refine .mapM (fun c => ?_) _
  unfold dimensionOf
  split
  · exact .ok _
  · split
    · exact .bind (c.blames_intAttr? _) fun _ => .ok _
    · split
      · exact .ok _
      · split
        · exact .ok _
        · exact .bind (c.blames_intAttr? _) fun _ => .bind (c.blames_intAttr? _) fun _ => .ok _

/-- An offset that cannot be read is a fault of the member. -/
theorem blames_byteOffsetOf (e : Entry) : Blames (byteOffsetOf e) := by
  unfold byteOffsetOf
  split
  · exact .ok _
  · split
    · exact .ok _
    · exact .error trivial

end TypeGraph

-- ------------------------------------------------------------------------------------------------
-- Steps that only look
-- ------------------------------------------------------------------------------------------------

namespace Build

variable {α β : Type} {store : Store}

/-- A step that leaves the state as it is, and stops for a malformation only if the entry itself is
to blame. -/
def Glances (x : Build α) : Prop :=
  ∀ s, (∃ a, x.exec s = (.ok a, s)) ∨ ∃ stop, x.exec s = (.error stop, s) ∧ stop.IsOwn

theorem glances_pure (a : α) : Glances (pure a : Build α) := fun _ => .inl ⟨a, rfl⟩

/-- A look at the graph changes nothing and does not stop. -/
theorem glances_graph : Glances graph := fun s => .inl ⟨s.graph, rfl⟩

/-- A step that reports what an operation finds stops for the entry's own faults only, if the
operation does. -/
theorem glances_ofExcept {x : Except Malformation α} (hx : Blames x) : Glances (ofExcept x) := by
  intro s
  cases x with
  | ok a => exact .inl ⟨a, rfl⟩
  | error cause => exact .inr ⟨.cause cause, rfl, hx cause rfl⟩

/-- A reference that dangles is no malformation, and so nobody is to blame for it. -/
theorem glances_ofDangling (x : Except Dangling α) : Glances (ofDangling x) := by
  intro s
  cases x with
  | ok a => exact .inl ⟨a, rfl⟩
  | error fault => exact .inr ⟨.type (.dangling fault), rfl, trivial⟩

/-- Looks one after the other are a look: the second one sees the state that the first one saw. -/
theorem Glances.bind {x : Build α} {f : α → Build β} (hx : Glances x) (hf : ∀ a, Glances (f a)) :
    Glances (x >>= f) := by
  intro s
  rw [exec_bind]
  rcases hx s with ⟨a, ha⟩ | ⟨stop, hstop, hown⟩
  · rw [ha]
    exact hf a s
  · rw [hstop]
    exact .inr ⟨stop, rfl, hown⟩

theorem Glances.map {x : Build α} (f : α → β) (hx : Glances x) : Glances (f <$> x) := by
  intro s
  rw [exec_map]
  rcases hx s with ⟨a, ha⟩ | ⟨stop, hstop, hown⟩
  · exact .inl ⟨f a, by rw [ha]; rfl⟩
  · exact .inr ⟨stop, by rw [hstop]; rfl, hown⟩

/-- A step that looks entries up: it leaves the state as it is, or stops for a reference that leads
nowhere, which is on record afterwards. -/
def LooksUp (x : Build α) : Prop :=
  ∀ s, (∃ a, x.exec s = (.ok a, s)) ∨
    ∃ missing, x.exec s = (.error (.type (.dangling missing)), s.noted (.dangling missing))

theorem looksUp_pure (a : α) : LooksUp (pure a : Build α) := fun _ => .inl ⟨a, rfl⟩

/-- An entry that is looked up is there, or its reference goes on record. -/
theorem looksUp_entry (ref : Int) (usedBy : Option Int) : LooksUp (entry store ref usedBy) := by
  intro s
  rw [exec_entry]
  cases store.entry? ref with
  | some e => exact .inl ⟨e, rfl⟩
  | none => exact .inr ⟨_, rfl⟩

/-- Looking up entries one after the other is looking up: as soon as one is missing, nothing else is
looked at. -/
theorem LooksUp.bind {x : Build α} {f : α → Build β} (hx : LooksUp x) (hf : ∀ a, LooksUp (f a)) :
    LooksUp (x >>= f) := by
  intro s
  rw [exec_bind]
  rcases hx s with ⟨a, ha⟩ | ⟨missing, hmissing⟩
  · rw [ha]
    exact hf a s
  · rw [hmissing]
    exact .inr ⟨missing, rfl⟩

theorem LooksUp.map {x : Build α} (f : α → β) (hx : LooksUp x) : LooksUp (f <$> x) := by
  intro s
  rw [exec_map]
  rcases hx s with ⟨a, ha⟩ | ⟨missing, hmissing⟩
  · exact .inl ⟨f a, by rw [ha]; rfl⟩
  · exact .inr ⟨missing, by rw [hmissing]; rfl⟩

end Build

namespace TypeGraph

open Build

variable {store : Store} {recurse : Recurse}

/-- The size that a type has in the unfinished graph is only looked at. -/
theorem glances_sizeSoFar (ref : Int) : Glances (sizeSoFar ref) := by
  refine glances_graph.bind fun g => (glances_ofDangling _).bind fun node => ?_
  split
  · exact glances_pure _
  · exact glances_ofDangling _

/-- The end of the last member takes a look at the size of each member. -/
theorem glances_endOfMembers (inUnion : Bool) (ms : List Member) :
    Glances (endOfMembers inUnion ms) := by
  induction ms with
  | nil => exact glances_pure _
  | cons m ms ih =>
    unfold endOfMembers
    refine (glances_sizeSoFar _).bind fun size => ih.bind fun rest => ?_
    split <;> exact glances_pure _

/-- A composite without a size of its own takes it from its members, by a look at their sizes. -/
theorem glances_deducedSize (target : Target) (inUnion : Bool) (ms : List Member) :
    Glances (deducedSize target inUnion ms) :=
  (glances_endOfMembers inUnion ms).bind fun _ => glances_pure _

/-- Taking qualifiers and typedefs off a type looks their targets up, one after the other. -/
theorem looksUp_peel (steps : Nat) (visited : List Int) (e : Entry) :
    LooksUp (peel store steps visited e) := by
  induction steps generalizing visited e with
  | zero => exact looksUp_pure _
  | succ steps ih =>
    unfold peel
    split
    · exact looksUp_pure _
    · split
      · exact looksUp_pure _
      · split
        · exact looksUp_pure _
        · exact (looksUp_entry _ _).bind fun next => ih _ next

/-- The parameters of a signature are looked up, and no type is built for them. -/
theorem looksUp_parametersOf (es : List Entry) : LooksUp (parametersOf store es) := by
  induction es with
  | nil => exact looksUp_pure _
  | cons e es ih =>
    unfold parametersOf
    split
    · split
      · exact ih
      · exact ((looksUp_entry _ _).map _).bind fun _ => ih.bind fun _ => looksUp_pure _
    · exact ih

-- ------------------------------------------------------------------------------------------------
-- The members of a composite
-- ------------------------------------------------------------------------------------------------

/-- The course of steps that look at the graph and turn to some of the types that are needed. It
ends, or it stops: for something that the entry is to blame for or for a type that is missing, or
because a type that is needed is left out. -/
inductive Course (recurse : Recurse) (needs : Int → Prop) :
    BuildState → Option BuildStop → BuildState → Prop
  | ended (s : BuildState) : Course recurse needs s none s
  | stopped {stop : BuildStop} (s : BuildState) (hown : stop.IsOwn) :
      Course recurse needs s (some stop) s
  | failed {needed : Int} {usedBy : Option Int} {stop : BuildStop} {s t : BuildState}
      (hneeds : needs needed) (h : (recurse needed usedBy).exec s = (.error stop, t)) :
      Course recurse needs s (some stop) t
  | built {needed : Int} {usedBy : Option Int} {s t u : BuildState} {stop? : Option BuildStop}
      (hneeds : needs needed) (h : (recurse needed usedBy).exec s = (.ok (), t))
      (hrest : Course recurse needs t stop? u) : Course recurse needs s stop? u

/-- The stop of an outcome, if it is one. -/
def stopOf {α : Type} : Except BuildStop α → Option BuildStop
  | .ok _ => none
  | .error stop => some stop

/-- A step that takes a course from every state. -/
def Courses {α : Type} (recurse : Recurse) (needs : Int → Prop) (x : Build α) : Prop :=
  ∀ s, Course recurse needs s (stopOf (x.exec s).1) (x.exec s).2

section Courses

variable {α β : Type} {needs : Int → Prop}

/-- A course that ends can be followed by another one. -/
theorem Course.trans {s t u : BuildState} {stop? : Option BuildStop}
    (h : Course recurse needs s none t) (h' : Course recurse needs t stop? u) :
    Course recurse needs s stop? u := by
  generalize hnone : (none : Option BuildStop) = first at h
  induction h with
  | ended => exact h'
  | stopped | failed => exact absurd hnone (by simp)
  | built hneeds h _ ih => exact .built hneeds h (ih h' hnone)

/-- A step that only looks takes a course in which no type is built. -/
theorem courses_of_glances {x : Build α} (hx : Glances x) : Courses recurse needs x := by
  intro s
  rcases hx s with ⟨a, ha⟩ | ⟨stop, hstop, hown⟩
  · rw [ha]
    exact .ended s
  · rw [hstop]
    exact .stopped s hown

/-- Turning to a type that is needed is a course of one step. -/
theorem courses_recurse {needed : Int} (hneeds : needs needed) (usedBy : Option Int) :
    Courses recurse needs (recurse needed usedBy) := by
  intro s
  rcases hexec : (recurse needed usedBy).exec s with ⟨outcome, t⟩
  cases outcome with
  | ok a => exact .built hneeds hexec (.ended t)
  | error stop => exact .failed hneeds hexec

/-- Steps one after the other take a course if each of them does. -/
theorem Courses.bind {x : Build α} {f : α → Build β} (hx : Courses recurse needs x)
    (hf : ∀ a, Courses recurse needs (f a)) : Courses recurse needs (x >>= f) := by
  intro s
  have hcourse := hx s
  rw [exec_bind]
  rcases hexec : x.exec s with ⟨outcome, t⟩
  rw [hexec] at hcourse
  cases outcome with
  | ok a => exact hcourse.trans (hf a t)
  | error stop => exact hcourse

theorem courses_pure (a : α) : Courses recurse needs (pure a : Build α) :=
  courses_of_glances (glances_pure a)

/-- A step that reports what an operation finds takes a course, if the operation blames the entry
alone. -/
theorem courses_ofExcept {x : Except Malformation α} (hx : Blames x) :
    Courses recurse needs (ofExcept x) :=
  courses_of_glances (glances_ofExcept hx)

/-- A base class takes a course through its type. -/
theorem courses_buildBaseClass {c : Entry} (hneeds : ∀ type, c.typeRef? = some type → needs type) :
    Courses recurse needs (buildBaseClass recurse c) := by
  unfold buildBaseClass
  split
  · exact courses_pure _
  · rename_i type htype
    refine (courses_recurse (hneeds type htype) _).bind fun _ => courses_of_glances ?_
    refine glances_graph.bind fun g => (glances_ofDangling _).bind fun node => ?_
    split
    · exact (glances_ofExcept (blames_byteOffsetOf c)).bind fun _ => glances_pure _
    · exact (glances_ofExcept (blames_byteOffsetOf c)).bind fun _ => glances_pure _
    · exact glances_pure _

/-- A member with storage takes a course through its type. Declarations have none and are passed
over. -/
theorem courses_buildMember {c : Entry} (target : Target) (inUnion : Bool)
    (hneeds : ∀ type, c.isDeclaration = false → c.typeRef? = some type → needs type) :
    Courses recurse needs (buildMember recurse target inUnion c) := by
  unfold buildMember
  split
  · exact courses_pure _
  rename_i hdeclared
  split
  · exact courses_pure _
  rename_i type htype
  refine (courses_recurse (hneeds type (by simpa using hdeclared) htype) _).bind fun _ => ?_
  refine (courses_ofExcept (blames_byteOffsetOf c)).bind fun offset => courses_of_glances ?_
  extract_lets offset
  split
  · exact glances_pure _
  · refine (glances_ofExcept (c.blames_intAttr? _)).bind fun size => ?_
    extract_lets size jp
    -- what comes after the unit is known only looks at the graph
    have hjp : ∀ unitSize, Glances (jp unitSize) := fun unitSize =>
      (glances_ofExcept (c.blames_fieldPlace _ _ _ _)).bind fun place => glances_pure _
    split
    · exact (glances_pure _).bind hjp
    · exact (glances_sizeSoFar _).bind hjp
  · exact glances_pure _
  · refine glances_graph.bind fun g => (glances_ofDangling _).bind fun node => ?_
    split <;> exact glances_pure _

/-- The members of a composite take a course through the types of those that are stored. -/
theorem courses_buildMembers (target : Target) (inUnion : Bool) (es : List Entry)
    (hneeds : ∀ c ∈ es, c.IsStored → ∀ type, c.typeRef? = some type → needs type) :
    Courses recurse needs (buildMembers recurse target inUnion es) := by
  induction es with
  | nil => exact courses_pure _
  | cons c es ih =>
    unfold buildMembers
    extract_lets jp
    -- each child contributes a member, a base class, or nothing
    have hjp : ∀ member : Option Member, Courses recurse needs (jp member) := fun member =>
      (ih fun c hc => hneeds c (List.mem_cons_of_mem _ hc)).bind fun _ => courses_pure _
    split
    · rename_i hmember
      refine (courses_buildMember target inUnion fun type hstored => ?_).bind hjp
      exact hneeds c List.mem_cons_self (.inl ⟨hmember, hstored⟩) type
    · split
      · rename_i hbase
        refine (courses_buildBaseClass ?_).bind hjp
        exact hneeds c List.mem_cons_self (.inr hbase)
      · exact (courses_pure _).bind hjp

end Courses

-- ------------------------------------------------------------------------------------------------
-- What courses keep
-- ------------------------------------------------------------------------------------------------

section Keeps

variable {ref : Int} {s t : BuildState} {stop? : Option BuildStop}

/-- A course through types that are needed is a run of the building, whatever it ends with. -/
theorem Course.run (hrec : Builds store recurse)
    (h : Course recurse (store.Needs ref) s stop? t) (hcoherent : s.Coherent store)
    (hsurrounds : s.Surrounds store ref) : BuildState.Run store ref s t := by
  induction h with
  | ended s | stopped s => exact .refl ref s
  | @failed _ usedBy _ _ _ hneeds h =>
    have hrun := (hrec.needed hneeds usedBy _ hcoherent hsurrounds trivial).1
    rwa [h] at hrun
  | @built _ usedBy _ _ _ _ hneeds h _ ih =>
    have hrun := (hrec.needed hneeds usedBy _ hcoherent hsurrounds trivial).1
    rw [h] at hrun
    exact hrun.trans (ih (hrun.coherent hcoherent) (hrun.surrounds hsurrounds))

/-- What holds through the building of every type that is needed holds through a course, and the
course stops for something that the entry is to blame for, or as one of these buildings did. -/
theorem Course.keeps (P : BuildState → Prop) (Q : BuildStop → Prop)
    (hrec : Builds store recurse) (h : Course recurse (store.Needs ref) s stop? t)
    (hcoherent : s.Coherent store) (hsurrounds : s.Surrounds store ref)
    (hstep : ∀ needed usedBy u, store.Needs ref needed → u.Coherent store →
      u.Surrounds store needed → P u → P ((recurse needed usedBy).exec u).2 ∧
        ∀ stop, ((recurse needed usedBy).exec u).1 = .error stop → Q stop)
    (hs : P s) : P t ∧ ∀ stop, stop? = some stop → stop.IsOwn ∨ Q stop := by
  -- each type that is built keeps the property, and a fault of another type is one of these
  induction h with
  | ended => exact ⟨hs, by simp⟩
  | stopped s hown =>
    refine ⟨hs, fun stop hstop => ?_⟩
    obtain rfl := Option.some.inj hstop
    exact .inl hown
  | @failed needed usedBy stop _ _ hneeds h =>
    have hkept := hstep needed usedBy _ hneeds hcoherent (hsurrounds.needed hneeds) hs
    rw [h] at hkept
    refine ⟨hkept.1, fun other hother => ?_⟩
    obtain rfl := Option.some.inj hother
    exact .inr (hkept.2 stop rfl)
  | @built needed usedBy _ _ _ _ hneeds h _ ih =>
    have hrun := (hrec.needed hneeds usedBy _ hcoherent hsurrounds trivial).1
    have hkept := hstep needed usedBy _ hneeds hcoherent (hsurrounds.needed hneeds) hs
    rw [h] at hrun hkept
    exact ih (hrun.coherent hcoherent) (hrun.surrounds hsurrounds) hkept.1

/-- What each building keeps as long as no placeholder is lost is kept through a course, which loses
none. -/
theorem Course.keeps_placed (P : BuildState → Prop) (Q : BuildStop → Prop)
    (hrec : Builds store recurse) (h : Course recurse (store.Needs ref) s stop? t)
    (hcoherent : s.Coherent store) (hsurrounds : s.Surrounds store ref)
    (hstep : ∀ needed usedBy u, store.Needs ref needed → u.Coherent store →
      u.Surrounds store needed →
      (∀ other, s.graph.hasPlaceholder other = true → u.graph.hasPlaceholder other = true) →
      P u → P ((recurse needed usedBy).exec u).2 ∧
        ∀ stop, ((recurse needed usedBy).exec u).1 = .error stop → Q stop)
    (hs : P s) : P t ∧ ∀ stop, stop? = some stop → stop.IsOwn ∨ Q stop := by
  let Placed (u : BuildState) : Prop :=
    ∀ other, s.graph.hasPlaceholder other = true → u.graph.hasPlaceholder other = true
  obtain ⟨⟨-, hkept⟩, hstop⟩ := h.keeps (fun u => Placed u ∧ P u) Q hrec hcoherent hsurrounds
    (fun needed usedBy u hneeds hcoherent' hsurrounds' hu => by
      have hrun := (hrec needed usedBy u hcoherent' hsurrounds' trivial).1
      have hnext := hstep needed usedBy u hneeds hcoherent' hsurrounds' hu.1 hu.2
      -- only composites have placeholders, and a run keeps those
      have hplaced : Placed ((recurse needed usedBy).exec u).2 := fun other hother =>
        hrun.keepsPlaceholder (hcoherent.graph.placeholders other hother) (hu.1 other hother)
      exact ⟨⟨hplaced, hnext.1⟩, hnext.2⟩)
    ⟨fun _ h => h, hs⟩
  exact ⟨hkept, hstop⟩

/-- What holds through every building that ends holds through a course that ends. -/
theorem Course.keeps_ended {P : BuildState → Prop} (hrec : Builds store recurse)
    (h : Course recurse (store.Needs ref) s none t)
    (hcoherent : s.Coherent store) (hsurrounds : s.Surrounds store ref)
    (hstep : ∀ needed usedBy u v, store.Needs ref needed → u.Coherent store →
      u.Surrounds store needed → P u → (recurse needed usedBy).exec u = (.ok (), v) → P v)
    (hs : P s) : P t := by
  generalize hnone : (none : Option BuildStop) = stop? at h
  induction h with
  | ended => exact hs
  | stopped | failed => exact absurd hnone (by simp)
  | @built needed usedBy _ _ _ _ hneeds h _ ih =>
    have hrun := (hrec.needed hneeds usedBy _ hcoherent hsurrounds trivial).1
    have hkept := hstep needed usedBy _ _ hneeds hcoherent (hsurrounds.needed hneeds) hs h
    rw [h] at hrun
    exact ih (hrun.coherent hcoherent) (hrun.surrounds hsurrounds) hkept hnone

end Keeps

end TypeGraph

end DebugLayout
