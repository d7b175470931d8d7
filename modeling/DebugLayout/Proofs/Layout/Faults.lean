import DebugLayout.Proofs.Layout.Folding
import DebugLayout.Proofs.Layout.Parts
import DebugLayout.Proofs.Layout.Tree
import DebugLayout.Proofs.TypeGraph.Build

/-!
# DebugLayout — what an expansion can go wrong with

The types of a graph that was built are sound. An expansion of such types ends with a tree whose
scalars take the bytes of their data types, so that they can be read, or it stops: the types that
the type contains go too deep, or it stops for one of them. It stops for the numbers of an array
only where they are negative: an array of the type has a dimension or a stride below zero.

The way to the failing type is kept: it is reached from the symbol's own type by value. A fault of
an array can only be blamed on negative numbers since the graph deduces dimensions where none are
given, and there is always one.

* `TypeGraph.ScalarOf`, `TypeGraph.allScalars_of_expandWith`: what holds of the scalars of an
  expansion;
* `LayoutNode.Sized`, `TypeGraph.sized_of_expandWith`: they take the bytes of their data types;
* `TypeGraph.Unshaped`, `TypeGraph.unshaped_of_arrayShape`: why an array has no shape;
* `TypeGraph.Fails`, `TypeGraph.fails_of_expandWith`: the types for which an expansion stops;
* `TypeGraph.Misshapen`, `TypeGraph.misshapen_of_layout`: why an expansion has no shape.
-/

namespace DebugLayout

/-- Whether a scalar takes the bytes of its data type, if that is known. -/
def ScalarLeaf.Sized (leaf : ScalarLeaf) : Prop :=
  leaf.dataType = .unknown ∨ (leaf.dataType.byteSize : Int) = leaf.byteSize

/-- Whether all scalars of a tree take the bytes of their data types. -/
def LayoutNode.Sized (n : LayoutNode) : Prop :=
  ∀ m ∈ n.nodes, ∀ leaf, m = .scalar leaf → leaf.Sized

/-- A tree is sized if its scalar is, or the trees under it are. -/
theorem LayoutNode.sized_iff {n : LayoutNode} :
    n.Sized ↔ (∀ leaf, n = .scalar leaf → leaf.Sized) ∧ ∀ c ∈ n.children, c.Sized :=
  allScalars_iff

/-- With a tree all trees under it are such. -/
theorem LayoutNode.Sized.of_mem_nodes {n m : LayoutNode} (h : n.Sized) (hm : m ∈ n.nodes) :
    m.Sized :=
  AllScalars.of_mem_nodes h hm

namespace TypeGraph

variable {g : TypeGraph} {levels : Nat} {ref address : Int} {name path : String} {n : LayoutNode}

-- ---------------------------------------------------------------------------
-- Scalars
-- ---------------------------------------------------------------------------

/-- Whether a scalar is what a type without parts comes to, by the name, the path and the address
that the scalar has. -/
structure ScalarOf (g : TypeGraph) (ref : Int) (node : TypeNode) (leaf : ScalarLeaf) : Prop where
  resolved : g.resolve ref = .ok node
  not_array : ∀ element dims stride size, node.body ≠ .array element dims stride size
  expanded : g.leaf ref node leaf.address leaf.name leaf.path = .ok (.scalar leaf)

/-- A type that expands to a scalar is a scalar type or an enumeration. -/
theorem scalarOf_of_expandWith {fold : Folding} {leaf : ScalarLeaf}
    (h : g.expandWith fold levels ref address name path = .ok (.scalar leaf)) :
    leaf.name = name ∧ ∃ node, g.ScalarOf ref node leaf := by
  cases levels with
  | zero => exact absurd h (by simp [expandWith])
  | succ levels =>
    cases expandWith_succ_iff.1 h with
    | leaf hnode harray _ hn =>
      obtain ⟨rfl, rfl, rfl, -⟩ := header_of_leaf hn
      exact ⟨rfl, _, hnode, harray, hn⟩

/-- What holds of the scalars that types without parts come to, also once they take their places as
bitfields, holds of all scalars of an expansion. -/
theorem allScalars_of_expandWith {fold : Folding} {P : ScalarLeaf → Prop}
    (hleaf : ∀ {ref node leaf}, g.ScalarOf ref node leaf → P leaf)
    (hfield : ∀ {ref node kind size members isClass m type leaf}, g.resolve ref = .ok node →
      node.body = .composite kind size members isClass → m ∈ members → m.isBitfield = true →
      m.name = some leaf.name → g.ScalarOf m.typeRef type leaf →
      P { leaf with bitOffset := m.bitOffset.getD 0, bitSize := m.bitSize })
    (h : g.expandWith fold levels ref address name path = .ok n) : n.AllScalars P := by
  induction levels generalizing ref address name path n with
  | zero => exact absurd h (by simp [expandWith])
  | succ levels ih =>
    -- a root that is a scalar comes from a node of the type itself
    have hroot : ∀ leaf, n = .scalar leaf → P leaf := by
      rintro leaf rfl
      obtain ⟨-, node, hscalar⟩ := scalarOf_of_expandWith h
      exact hleaf hscalar
    rw [LayoutNode.allScalars_iff]
    refine ⟨hroot, ?_⟩
    cases expandWith_succ_iff.1 h with
    | leaf _ _ _ hn =>
      rw [children_of_leaf hn]
      simp
    | array _ _ _ _ helements =>
      intro c hc
      obtain ⟨p, -, hcp⟩ := exists_of_mem_forall₂ helements hc
      exact ih hcp
    | composite hnode hbody hparts =>
      intro c hc
      obtain ⟨part, hpart, hc⟩ := List.mem_flatten.1 hc
      obtain ⟨m, hm, hmpart⟩ := exists_of_mem_forall₂ hparts hpart
      cases contribution_of_expandMember hmpart with
      | spliced _ hsub =>
        -- the members of an unnamed member are leaves of that member
        exact (LayoutNode.allScalars_iff.1 (ih hsub)).2 c (mem_children_of_splice hc)
      | @named _ own hname hsub =>
        rw [List.mem_singleton] at hc
        obtain ⟨hown, hchildren⟩ := LayoutNode.allScalars_iff.1 (ih hsub)
        rw [hc, LayoutNode.allScalars_iff, asMember_children]
        refine ⟨fun leaf hscalar => ?_, hchildren⟩
        -- a named member is the layout of its type, to which a bitfield adds its place
        cases own with
        | scalar own =>
          rw [asMember] at hscalar
          split at hscalar
          · rename_i hbitfield
            obtain rfl := LayoutNode.scalar.inj hscalar
            obtain ⟨rfl, type, htype⟩ := scalarOf_of_expandWith hsub
            exact hfield hnode hbody hm hbitfield hname htype
          · exact hown leaf hscalar
        | pointer | composite | array => exact absurd hscalar (by simp [asMember])

theorem sized_of_leaf {node : TypeNode} {leaf : ScalarLeaf} (hsound : node.body.Sound)
    (h : g.leaf ref node address name path = .ok (.scalar leaf)) : leaf.Sized := by
  unfold TypeGraph.leaf at h
  simp only at h
  split at h
  · rename_i hbody
    rw [hbody] at hsound
    obtain rfl := LayoutNode.scalar.inj (Except.ok.inj h)
    exact hsound
  · rename_i hbody
    rw [hbody] at hsound
    obtain rfl := LayoutNode.scalar.inj (Except.ok.inj h)
    exact hsound
  · obtain ⟨pointer, -, hpointer⟩ := map_eq_ok.1 h
    exact absurd hpointer (by simp)
  · obtain rfl := LayoutNode.scalar.inj (Except.ok.inj h)
    exact .inl rfl

/-- The scalars of an expansion of sound types take the bytes of their data types. -/
theorem sized_of_expandWith {fold : Folding}
    (hsound : ∀ {ref node}, g.resolve ref = .ok node → node.body.Sound)
    (h : g.expandWith fold levels ref address name path = .ok n) : n.Sized := by
  have hsized : ∀ {ref node leaf}, g.ScalarOf ref node leaf → leaf.Sized :=
    fun hscalar => sized_of_leaf (hsound hscalar.resolved) hscalar.expanded
  -- a place in a storage unit changes neither the data type nor the bytes
  exact allScalars_of_expandWith (P := ScalarLeaf.Sized) hsized
    (fun _ _ _ _ _ htype => (hsized htype :)) h

-- ---------------------------------------------------------------------------
-- Shapes
-- ---------------------------------------------------------------------------

/-- An array with a negative dimension or stride. -/
inductive Misshapen (g : TypeGraph) (ref : Int) : Prop
  | dimension {node : TypeNode} {element : Int} {dims : List Int} {stride size : Option Int}
      {d : Int} (hnode : g.resolve ref = .ok node)
      (hbody : node.body = .array element dims stride size) (hd : d ∈ dims) (hneg : d < 0)
  | stride {node : TypeNode} {element : Int} {dims : List Int} {stride size : Option Int}
      {step : Int} (hnode : g.resolve ref = .ok node)
      (hbody : node.body = .array element dims stride size)
      (hstep : g.arrayStride element stride = .ok (some step)) (hneg : step < 0)

/-- The elements of an array, once it is folded, are still contained in those it has. -/
theorem reaches_of_arrayShape {element inner : Int} {dims : List Int} {stride : Option Int}
    {shape : ArrayShape} (h : g.arrayShape g.foldAll element dims stride = .ok (shape, inner)) :
    g.Reaches element inner := by
  obtain ⟨_, _, _, -, hfold, -⟩ := arrayShape_iff.1 h
  exact foldNested_invariant (P := fun _ inner _ => g.Reaches element inner)
    (fun hnode hbody _ hreach => hreach.tail (.element hnode hbody)) (.refl g element) hfold

/-- An array that is folded from the arrays of a type is as misshapen as one of these. -/
theorem misshapen_of_foldNested {steps : Nat} {element inner : Int} {dims dims' : List Int}
    {explicit size stride stride' : Option Int} {node : TypeNode} (hnode : g.resolve ref = .ok node)
    (hbody : node.body = .array element dims explicit size)
    (hstride : g.arrayStride element explicit = .ok stride)
    (h : g.foldNested steps dims element stride = .ok (dims', inner, stride'))
    (hneg : (∃ d ∈ dims', d < 0) ∨ stride'.getD 0 < 0) :
    ∃ t, g.Reaches ref t ∧ g.Misshapen t := by
  have hstart : g.Reaches ref element ∧ ((∃ d ∈ dims, d < 0) ∨ stride.getD 0 < 0 →
      ∃ t, g.Reaches ref t ∧ g.Misshapen t) := by
    refine ⟨.head (.element hnode hbody) (.refl g element), ?_⟩
    rintro (⟨d, hd, hneg⟩ | hneg)
    · exact ⟨ref, .refl g ref, .dimension hnode hbody hd hneg⟩
    · cases stride with
      | none => exact absurd hneg (by simp)
      | some step => exact ⟨ref, .refl g ref, .stride hnode hbody hstride hneg⟩
  -- what is negative at the end was so in some type that was folded
  refine (foldNested_invariant (P := fun dims element stride => g.Reaches ref element ∧
    ((∃ d ∈ dims, d < 0) ∨ stride.getD 0 < 0 → ∃ t, g.Reaches ref t ∧ g.Misshapen t)) ?_
    hstart h).2 hneg
  intro dims innerDims element innerElement innerStride node explicit size hnode hbody hstride
  rintro ⟨hreach, hbad⟩
  refine ⟨hreach.tail (.element hnode hbody), ?_⟩
  rintro (⟨d, hd, hneg⟩ | hneg)
  · rcases List.mem_append.1 hd with hd | hd
    · exact hbad (.inl ⟨d, hd, hneg⟩)
    · exact ⟨element, hreach, .dimension hnode hbody hd hneg⟩
  · exact ⟨element, hreach, .stride hnode hbody hstride hneg⟩

/-- An expansion that stops at a look-up names what is missing. -/
theorem exists_of_orStop_eq_error {α : Type} {x : Except Dangling α} {stop : ExpandStop}
    (h : orStop x = .error stop) : ∃ fault, x = .error fault ∧ stop = .dangling fault := by
  cases x with
  | ok a => exact absurd h (by simp [orStop])
  | error fault => exact ⟨fault, rfl, (Except.error.inj h).symm⟩

/-- Why an array has no shape: its stride cannot be told, the arrays in it cannot be folded, or the
numbers of the folded array are none of a shape. -/
inductive Unshaped (g : TypeGraph) (element : Int) (dims : List Int) (stride : Option Int) :
    ExpandStop → Prop
  | stride {fault : Dangling} (h : g.arrayStride element stride = .error fault) :
      Unshaped g element dims stride (.dangling fault)
  | inner {outer : Option Int} {fault : Dangling}
      (houter : g.arrayStride element stride = .ok outer)
      (h : g.foldAll dims element outer = .error fault) :
      Unshaped g element dims stride (.dangling fault)
  | numbers {outer stride' : Option Int} {dims' : List Int} {inner : Int} {fault : ShapeFault}
      (houter : g.arrayStride element stride = .ok outer)
      (hfold : g.foldAll dims element outer = .ok (dims', inner, stride'))
      (h : ArrayShape.ofInts dims' (stride'.getD 0) = .error fault) :
      Unshaped g element dims stride (.shape fault)

theorem unshaped_of_arrayShape {element : Int} {dims : List Int} {stride : Option Int}
    {stop : ExpandStop} (h : g.arrayShape g.foldAll element dims stride = .error stop) :
    g.Unshaped element dims stride stop := by
  unfold arrayShape at h
  -- the stride, the arrays within, and the numbers, in the order of the program
  rcases bind_eq_error.1 h with h | ⟨outer, houter, h⟩
  · obtain ⟨fault, hfault, rfl⟩ := exists_of_orStop_eq_error h
    exact .stride hfault
  have houter := orStop_eq_ok.1 houter
  rcases bind_eq_error.1 h with h | ⟨⟨dims', inner, stride'⟩, hfold, h⟩
  · obtain ⟨fault, hfault, rfl⟩ := exists_of_orStop_eq_error h
    exact .inner houter hfault
  · simp only at h
    split at h
    · rename_i fault hfault
      obtain rfl : .shape fault = stop := Except.error.inj h
      exact .numbers houter (orStop_eq_ok.1 hfold) hfault
    · exact absurd h pure_ne_error

/-- An array that has no shape is misshapen, or one that is folded into it is. -/
theorem misshapen_of_arrayShape {element : Int} {dims : List Int} {stride size : Option Int}
    {node : TypeNode} {fault : ShapeFault} (hnode : g.resolve ref = .ok node)
    (hsound : node.body.Sound) (hbody : node.body = .array element dims stride size)
    (h : g.arrayShape g.foldAll element dims stride = .error (.shape fault)) :
    ∃ t, g.Reaches ref t ∧ g.Misshapen t := by
  cases unshaped_of_arrayShape h with
  | numbers houter hfold h =>
    rcases ArrayShape.ofInts_eq_error h with rfl | hneg
    · -- the dimensions of the outer array are still there, and there are some
      rw [hbody] at hsound
      exact absurd (List.prefix_nil.1 (foldNested_dims hfold)) hsound
    · exact misshapen_of_foldNested hnode hbody houter hfold hneg

-- ---------------------------------------------------------------------------
-- What an expansion stops for
-- ---------------------------------------------------------------------------

theorem expandElements_eq_error {expandType : Expansion} {shape : ArrayShape} {element : Int}
    {positions : List (List Nat)} {stop : ExpandStop}
    (h : expandElements expandType shape element address path positions = .error stop) :
    ∃ address name path, expandType element address name path = .error stop := by
  induction positions with
  | nil => exact absurd h (by simp [expandElements])
  | cons position positions ih =>
    rw [expandElements] at h
    rcases bind_eq_error.1 h with h | ⟨node, -, h⟩
    · exact ⟨_, _, _, h⟩
    · rcases bind_eq_error.1 h with h | ⟨nodes, -, h⟩
      · exact ih h
      · exact absurd h pure_ne_error

/-- The members of a composite stop at the first that does, after all members in front of it. -/
theorem expandMembers_eq_error_iff {expandType : Expansion} {isUnion : Bool}
    {members : List Member} {stop : ExpandStop} :
    expandMembers expandType isUnion address path members = .error stop ↔
      ∃ before m after, members = before ++ m :: after ∧
        (∀ m' ∈ before, ∃ part, expandMember expandType isUnion address path m' = .ok part) ∧
        expandMember expandType isUnion address path m = .error stop := by
  induction members with
  | nil => exact iff_of_false (by simp [expandMembers]) (by simp)
  | cons m ms ih =>
    rw [expandMembers, bind_eq_error]
    constructor
    · -- the first member that fails stops the others
      rintro (h | ⟨here, hhere, h⟩)
      · exact ⟨[], m, ms, rfl, by simp, h⟩
      rcases bind_eq_error.1 h with h | ⟨rest, -, h⟩
      · obtain ⟨before, m', after, rfl, hbefore, h⟩ := ih.1 h
        exact ⟨m :: before, m', after, rfl, List.forall_mem_cons.2 ⟨⟨here, hhere⟩, hbefore⟩, h⟩
      · exact absurd h pure_ne_error
    · rintro ⟨before, m', after, hsplit, hbefore, h⟩
      cases before with
      | nil =>
        obtain ⟨rfl, -⟩ := List.cons.inj hsplit
        exact .inl h
      | cons m'' before =>
        obtain ⟨rfl, rfl⟩ := List.cons.inj hsplit
        obtain ⟨⟨here, hhere⟩, hbefore⟩ := List.forall_mem_cons.1 hbefore
        exact .inr ⟨here, hhere, bind_eq_error.2 (.inl (ih.2 ⟨before, m', after, rfl, hbefore, h⟩))⟩

/-- What the expansion of a type itself can stop with: the type is missing, it is an array without
shape or without a size that can be told, or its leaf cannot be made. -/
inductive Fails (g : TypeGraph) (ref : Int) : ExpandStop → Prop
  | unresolved {fault : Dangling} (h : g.resolve ref = .error fault) : Fails g ref (.dangling fault)
  | shape {node : TypeNode} {element : Int} {dims : List Int} {stride size : Option Int}
      {stop : ExpandStop} (hnode : g.resolve ref = .ok node)
      (hbody : node.body = .array element dims stride size)
      (h : g.arrayShape g.foldAll element dims stride = .error stop) : Fails g ref stop
  | size {fault : Dangling} (h : g.byteSize ref = .error fault) : Fails g ref (.dangling fault)
  | leaf {node : TypeNode} {address : Int} {name path : String} {fault : Dangling}
      (hnode : g.resolve ref = .ok node)
      (h : g.leaf ref node address name path = .error fault) : Fails g ref (.dangling fault)

/-- No type is a question of depth by itself. -/
theorem Fails.ne_tooDeep {stop : ExpandStop} (h : g.Fails ref stop) : stop ≠ .tooDeep := by
  rintro rfl
  cases h with
  | shape _ _ h => cases unshaped_of_arrayShape h

/-- An expansion stops where the types go deeper than its levels, or for one of the types that are
contained by value. -/
theorem fails_of_expandWith {stop : ExpandStop}
    (h : g.expandWith g.foldAll levels ref address name path = .error stop) :
    stop = .tooDeep ∧ g.Nests levels ref ∨ ∃ part, g.Reaches ref part ∧ g.Fails part stop := by
  induction levels generalizing ref address name path with
  | zero => exact .inl ⟨(Except.error.inj h).symm, trivial⟩
  | succ levels ih =>
    -- a failure below a part is one below the whole, a level higher
    have hinner : ∀ {whole inner : Int}, g.Part ref whole → g.Reaches whole inner →
        (stop = .tooDeep ∧ g.Nests levels inner ∨
          ∃ part, g.Reaches inner part ∧ g.Fails part stop) →
        stop = .tooDeep ∧ g.Nests (levels + 1) ref ∨
          ∃ part, g.Reaches ref part ∧ g.Fails part stop := by
      rintro whole inner hwhole hreach (⟨hstop, hnests⟩ | ⟨part, hpart, hfails⟩)
      · exact .inl ⟨hstop, whole, hwhole, hnests.of_reaches hreach⟩
      · exact .inr ⟨part, .head hwhole (hreach.trans hpart), hfails⟩
    rw [expandWith] at h
    rcases bind_eq_error.1 h with h | ⟨node, hnode, h⟩
    · obtain ⟨fault, hfault, rfl⟩ := exists_of_orStop_eq_error h
      exact .inr ⟨ref, .refl g ref, .unresolved hfault⟩
    have hnode := orStop_eq_ok.1 hnode
    split at h
    · rename_i element dims stride size hbody
      rcases bind_eq_error.1 h with h | ⟨⟨shape, inner⟩, hshape, h⟩
      · exact .inr ⟨ref, .refl g ref, .shape hnode hbody h⟩
      · rcases bind_eq_error.1 h with h | ⟨size, -, h⟩
        · obtain ⟨fault, hfault, rfl⟩ := exists_of_orStop_eq_error h
          exact .inr ⟨ref, .refl g ref, .size hfault⟩
        · rcases bind_eq_error.1 h with h | ⟨elements, -, h⟩
          · obtain ⟨address, name, path, h⟩ := expandElements_eq_error h
            exact hinner (.element hnode hbody) (reaches_of_arrayShape hshape) (ih h)
          · exact absurd h pure_ne_error
    · rename_i kind size members isClass hbody
      rcases bind_eq_error.1 h with h | ⟨nodes, -, h⟩
      · -- the first member that fails ends the composite
        obtain ⟨before, m, after, rfl, -, h⟩ := expandMembers_eq_error_iff.1 h
        obtain ⟨start, name', path', contribute, hmap⟩ := expandMember_eq_map
          (g.expandWith g.foldAll levels) (kind = .union) address path m
        have hm : m ∈ before ++ m :: after := by simp
        exact hinner (.member hnode hbody hm) (.refl g _) (ih (map_eq_error.1 (hmap.symm.trans h)))
      · exact absurd h pure_ne_error
    · obtain ⟨fault, hfault, rfl⟩ := exists_of_orStop_eq_error h
      exact .inr ⟨ref, .refl g ref, .leaf hnode hfault⟩

/-- A type without shape contains a misshapen array. -/
theorem misshapen_of_expandWith {fault : ShapeFault}
    (hsound : ∀ {ref node}, g.resolve ref = .ok node → node.body.Sound)
    (h : g.expandWith g.foldAll levels ref address name path = .error (.shape fault)) :
    ∃ t, g.Reaches ref t ∧ g.Misshapen t := by
  obtain ⟨part, hreach, hfails⟩ := (fails_of_expandWith h).resolve_left (by simp)
  cases hfails with
  | shape hnode hbody h =>
    obtain ⟨t, hreach', hbad⟩ := misshapen_of_arrayShape hnode (hsound hnode) hbody h
    exact ⟨t, hreach.trans hreach', hbad⟩

/-- Where the layout of a type fails for a shape, a misshapen array is reached. -/
theorem misshapen_of_layout {depth : Nat} {fault : ShapeFault}
    (hsound : ∀ {ref node}, g.resolve ref = .ok node → node.body.Sound)
    (h : g.layout depth ref address name = .error (.shape fault)) :
    ∃ t, g.Reaches ref t ∧ g.Misshapen t := by
  unfold layout layoutWith at h
  split at h
  · exact absurd h (by simp)
  · exact absurd h (by simp)
  · exact absurd h (by simp)
  · rename_i hshape
    exact misshapen_of_expandWith hsound hshape

end TypeGraph

end DebugLayout
