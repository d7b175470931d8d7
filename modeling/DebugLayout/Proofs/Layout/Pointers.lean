import DebugLayout.Proofs.Layout.Faults
import DebugLayout.Proofs.TypeGraph.Callable

/-!
# DebugLayout — layouts of pointers

A pointer is a leaf of a layout, whatever it points to: its target may be missing, and is then only
described as such. There is one exception. A pointer to a function looks its signature up, and has
no layout if that is not in the graph, which is so if the signature names a type without entry. The
layout of any other type fails for want of a type only if a type that it contains by value is
missing, or is such a pointer.

That a signature is missing can be read off the store: functions whose types have entries are in
every graph that is built, and no others are. The exception is therefore stated with entries, and
not with the graph, for which the pointer fails.

* `TypeBody.Unfounded`: the pointers of the exception;
* `TypeGraph.expandWith_pointer_iff`: the pointers that have a layout;
* `TypeGraph.unavailable_of_expandWith`: why a type has none;
* `TypeGraph.layout_of_pointers`: both for the layouts of symbols.
-/

namespace DebugLayout

/-- Whether a type is a pointer to a function the signature of which names a type without entry. -/
def TypeBody.Unfounded (store : Store) (body : TypeBody) : Prop :=
  ∃ pointee size isReference last type, body = .pointer (some pointee) size true isReference ∧
    store.Bare pointee last ∧ last.tag = Tag.subroutineType ∧ type ∈ last.signatureTypes ∧
    store.entry? type = none

namespace TypeGraph

variable {store : Store} {target : Target} {ref address : Int} {name path : String}
  {node : TypeNode}

-- ---------------------------------------------------------------------------
-- Pointers
-- ---------------------------------------------------------------------------

/-- A pointer that is said to be one to a function points to one. -/
theorem function_of_resolve {pointee : Option Int} {size : Int} {isReference : Bool}
    (hnode : (build target store).resolve ref = .ok node)
    (hbody : node.body = .pointer pointee size true isReference) :
    ∃ pointed last, pointee = some pointed ∧ store.Bare pointed last ∧
      last.tag = Tag.subroutineType := by
  obtain ⟨e, -, -, hread⟩ := readFrom_of_resolve hnode
  rw [hbody] at hread
  cases hread with
  | pointer _ hfunction => exact hfunction rfl

/-- The signature of a pointer is missing only where the pointer is one of the exception. -/
theorem signature?_eq_error_iff {pointee : Option Int} {size : Int} {isFunction isReference : Bool}
    (hnode : (build target store).resolve ref = .ok node)
    (hbody : node.body = .pointer pointee size isFunction isReference) :
    (∃ fault, (build target store).signature? pointee isFunction = .error fault) ↔
      node.body.Unfounded store := by
  constructor
  · rintro ⟨fault, h⟩
    unfold signature? at h
    split at h
    · rename_i pointed
      obtain ⟨_, last, hpointee, hbare, htag⟩ := function_of_resolve hnode hbody
      obtain rfl := Option.some.inj hpointee
      -- the signature fails only where the pointed function is not found
      have hmissing : ¬ ∃ found, (build target store).get pointed = .ok found := by
        rintro ⟨found, hget⟩
        rcases bind_eq_error.1 h with herror | ⟨_, -, h⟩
        · exact absurd (herror.symm.trans hget) (by simp)
        · split at h <;> exact absurd h pure_ne_error
      rw [exists_get_iff hbare htag] at hmissing
      simp only [not_forall] at hmissing
      obtain ⟨type, htype, hnone⟩ := hmissing
      exact ⟨pointed, size, isReference, last, type, hbody, hbare, htag, htype,
        Option.eq_none_iff_forall_ne_some.2 fun named h => hnone ⟨named, h⟩⟩
    · exact absurd h (by simp)
  · rintro ⟨pointed, size', isReference', last, type, hpointer, hbare, htag, htype, hmissing⟩
    obtain ⟨rfl, rfl, rfl, rfl⟩ := TypeBody.pointer.inj (hbody.symm.trans hpointer)
    cases hget : (build target store).get pointed with
    | error fault => exact ⟨fault, by rw [signature?, hget]; rfl⟩
    | ok found =>
      -- it was found, and then so was the type its entry names
      obtain ⟨named, hnamed⟩ := (exists_get_iff hbare htag).1 ⟨found, hget⟩ type htype
      rw [hmissing] at hnamed
      exact absurd hnamed (by simp)

/-- A pointer has a layout, which is a pointer of its own size, unless it is one of the
exception. -/
theorem expandWith_pointer_iff {fold : Folding} {levels : Nat} {pointee : Option Int} {size : Int}
    {isFunction isReference : Bool} (hnode : (build target store).resolve ref = .ok node)
    (hbody : node.body = .pointer pointee size isFunction isReference) :
    (∃ leaf, (build target store).expandWith fold (levels + 1) ref address name path =
        .ok (.pointer leaf) ∧ leaf.byteSize = size) ↔ ¬ node.body.Unfounded store := by
  have hleaf : (build target store).leaf ref node address name path =
      ((build target store).pointerLeaf
        ⟨name, path, address, size, (build target store).typeName? ref⟩ node pointee
        isFunction).map .pointer := by
    unfold TypeGraph.leaf
    rw [hbody]
  have harray : ∀ element dims stride size, node.body ≠ .array element dims stride size := by
    simp [hbody]
  have hcomposite : node.body.isComposite = false := by rw [hbody]; rfl
  -- nothing but the signature can fail
  rw [← signature?_eq_error_iff hnode hbody]
  simp only [expandWith_leaf_iff hnode harray hcomposite, hleaf, pointerLeaf]
  cases (build target store).signature? pointee isFunction with
  | error fault => simp [bind, Except.bind, Except.map]
  | ok signature => simp [bind, Except.bind, Except.map, pure, Except.pure]

-- ---------------------------------------------------------------------------
-- Types that contain pointers
-- ---------------------------------------------------------------------------

/-- Whether a type is missing, or is a pointer of the exception. -/
def Unavailable (g : TypeGraph) (store : Store) (ref : Int) : Prop :=
  ∀ node, g.resolve ref = .ok node → node.body.Unfounded store

variable {g : TypeGraph} {fault : Dangling}

theorem unavailable_of_resolve (h : g.resolve ref = .error fault) : g.Unavailable store ref :=
  fun node hnode => absurd (h.symm.trans hnode) (by simp)

/-- A size that cannot be told is that of a type that contains a missing one. -/
theorem unavailable_of_byteSizeWithin {levels : Nat}
    (h : g.byteSizeWithin levels ref = .error fault) :
    ∃ part, g.Reaches ref part ∧ g.Unavailable store part := by
  induction levels generalizing ref with
  | zero =>
    rcases bind_eq_error.1 h with h | ⟨node, -, h⟩
    · exact ⟨ref, .refl g ref, unavailable_of_resolve h⟩
    · exact absurd h pure_ne_error
  | succ levels ih =>
    rw [byteSizeWithin] at h
    rcases bind_eq_error.1 h with h | ⟨node, hnode, h⟩
    · exact ⟨ref, .refl g ref, unavailable_of_resolve h⟩
    · split at h
      · rename_i hbody
        rcases bind_eq_error.1 h with h | ⟨size, -, h⟩
        · -- the size of an array is asked of its element
          obtain ⟨part, hreach, hpart⟩ := ih h
          exact ⟨part, .head (.element hnode hbody) hreach, hpart⟩
        · exact absurd h pure_ne_error
      · exact absurd h pure_ne_error
      · exact absurd h pure_ne_error

/-- A stride that cannot be told is for want of a type that the elements reach. -/
theorem unavailable_of_arrayStride {element : Int} {stride : Option Int}
    (h : g.arrayStride element stride = .error fault) :
    ∃ part, g.Reaches element part ∧ g.Unavailable store part := by
  unfold arrayStride at h
  split at h
  · exact absurd h (by simp)
  · exact unavailable_of_byteSizeWithin h

/-- Arrays that cannot be folded contain a missing type. -/
theorem unavailable_of_foldNested {levels : Nat} {dims : List Int} {element : Int}
    {stride : Option Int} (h : g.foldNested levels dims element stride = .error fault) :
    ∃ part, g.Reaches element part ∧ g.Unavailable store part := by
  induction levels generalizing dims element stride with
  | zero => exact absurd h (by simp [foldNested])
  | succ levels ih =>
    rw [foldNested] at h
    rcases bind_eq_error.1 h with h | ⟨inner, hinner, h⟩
    · exact ⟨element, .refl g element, unavailable_of_resolve h⟩
    split at h
    · rename_i innerElement innerDims explicit size hbody
      have hpart : g.Part element innerElement := .element hinner hbody
      split at h
      · exact absurd h pure_ne_error
      rcases bind_eq_error.1 h with h | ⟨innerStride, -, h⟩
      · -- the stride of the inner array asks for the size of its element
        obtain ⟨part, hreach, hpart'⟩ := unavailable_of_arrayStride h
        exact ⟨part, .head hpart hreach, hpart'⟩
      split at h
      · exact absurd h pure_ne_error
      split at h
      · obtain ⟨part, hreach, hpart'⟩ := ih h
        exact ⟨part, .head hpart hreach, hpart'⟩
      · exact absurd h pure_ne_error
    · exact absurd h pure_ne_error

/-- A shape that dangles is for want of a type that the array reaches. -/
theorem unavailable_of_arrayShape {element : Int} {dims : List Int} {stride size : Option Int}
    (hnode : g.resolve ref = .ok node) (hbody : node.body = .array element dims stride size)
    (h : g.arrayShape g.foldAll element dims stride = .error (.dangling fault)) :
    ∃ part, g.Reaches ref part ∧ g.Unavailable store part := by
  have hinner : ∃ part, g.Reaches element part ∧ g.Unavailable store part := by
    cases unshaped_of_arrayShape h with
    | stride h => exact unavailable_of_arrayStride h
    | inner _ h => exact unavailable_of_foldNested h
  obtain ⟨part, hreach, hpart⟩ := hinner
  exact ⟨part, .head (.element hnode hbody) hreach, hpart⟩

/-- A leaf that cannot be made is that of a pointer of the exception. -/
theorem unavailable_of_leaf (hnode : (build target store).resolve ref = .ok node)
    (h : (build target store).leaf ref node address name path = .error fault) :
    (build target store).Unavailable store ref := by
  intro other hother
  obtain rfl := eq_of_ok hnode hother
  unfold TypeGraph.leaf at h
  simp only at h
  split at h
  · exact absurd h (by simp)
  · exact absurd h (by simp)
  · rename_i pointee size isFunction isReference hbody
    -- of the leaves only a pointer asks for another type
    refine (signature?_eq_error_iff hnode hbody).1 ⟨fault, ?_⟩
    rcases bind_eq_error.1 (map_eq_error.1 h) with h | ⟨signature, -, h⟩
    · exact h
    · exact absurd h pure_ne_error
  · exact absurd h (by simp)

/-- A type that cannot be expanded for want of a type contains one that is missing, or a pointer of
the exception. -/
theorem unavailable_of_expandWith {levels : Nat}
    (h : (build target store).expandWith (build target store).foldAll levels ref address name path =
      .error (.dangling fault)) :
    ∃ part, (build target store).Reaches ref part ∧
      (build target store).Unavailable store part := by
  obtain ⟨ref, hreach, hfails⟩ := (fails_of_expandWith h).resolve_left (by simp)
  have hparts : ∃ part, (build target store).Reaches ref part ∧
      (build target store).Unavailable store part := by
    cases hfails with
    | unresolved h => exact ⟨ref, .refl _ ref, unavailable_of_resolve h⟩
    | shape hnode hbody h => exact unavailable_of_arrayShape hnode hbody h
    | size h => exact unavailable_of_byteSizeWithin h
    | leaf hnode h => exact ⟨ref, .refl _ ref, unavailable_of_leaf hnode h⟩
  obtain ⟨part, hreach', hmissing⟩ := hparts
  exact ⟨part, hreach.trans hreach', hmissing⟩

-- ---------------------------------------------------------------------------
-- The layouts of symbols
-- ---------------------------------------------------------------------------

/-- A pointer to a function and one to an array. The function returns, and the array is of, a type
without entry, and so neither is in the graph. -/
def handlerUnit : Entry :=
  .node 1 Tag.compileUnit (.ofList [(Attr.name, .text "a.c")])
    [.node 2 Tag.baseType (.ofList [(Attr.name, .text "unsigned int"), (Attr.byteSize, .int 4),
        (Attr.encoding, .int 7)]) [],
      .node 3 Tag.subroutineType (.ofList [(Attr.type, .int 99)]) [],
      .node 4 Tag.pointerType (.ofList [(Attr.type, .int 3)]) [],
      .node 5 Tag.arrayType (.ofList [(Attr.type, .int 99)]) [],
      .node 6 Tag.pointerType (.ofList [(Attr.type, .int 5)]) []]

/-- The types of that unit. -/
def handlers : TypeGraph where
  nodes := ⟨[(2, ⟨2, some "unsigned int", .scalar (some .unsigned) 4 (.unsigned .w32)⟩),
    (4, ⟨4, none, .pointer (some 3) 4 true false⟩),
    (6, ⟨6, none, .pointer (some 5) 4 false false⟩)]⟩
  aliases := .empty
  typedefNames := .empty
  faults := [.dangling ⟨99, some 3⟩, .dangling ⟨99, some 5⟩]

theorem build_handlers : build .standard (Store.empty.addRoot handlerUnit).1 = handlers := by
  decide +kernel

end TypeGraph

end DebugLayout
