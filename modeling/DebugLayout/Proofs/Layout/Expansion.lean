import DebugLayout.Layout.Resolve
import DebugLayout.Proofs.Outcome
import Mathlib.Data.List.Forall2

/-!
# DebugLayout — what an expansion is made of

The expansion of a type ends with a node in one of three ways: the type has no parts and is a
**leaf**, or it is an **array** whose elements were all expanded, or a **composite** whose members
were. This module states that once, so that nothing else has to look into the definition.

* `exists_of_mem_forall₂`, `pairwise_of_forall₂`: parts beside what they are expanded to;
* `TypeGraph.Expanded`, `expandWith_succ_iff`: the three ways;
* `expandWith_array_iff`, `expandWith_composite_iff`, `expandWith_leaf_iff`: each of them for a type
  that is known;
* `expandElements_iff`, `expandMembers_iff`: the parts of an array and of a composite;
* `TypeGraph.Contribution`: what a single member adds to them;
* `TypeGraph.header_of_expandWith`: where a node lies and what it is called;
* `TypeGraph.byteSize_of_expandWith`: a node takes the size of its type, if that is known.
-/

namespace DebugLayout

-- ---------------------------------------------------------------------------
-- Lists side by side
-- ---------------------------------------------------------------------------

theorem exists_of_mem_forall₂ {α β : Type} {R : α → β → Prop} {as : List α} {bs : List β}
    (h : List.Forall₂ R as bs) {b : β} (hb : b ∈ bs) : ∃ a ∈ as, R a b := by
  induction h with
  | nil => simp at hb
  | cons hab _ ih =>
    rcases List.mem_cons.1 hb with rfl | hb
    · exact ⟨_, List.mem_cons_self, hab⟩
    · obtain ⟨a, ha, hR⟩ := ih hb
      exact ⟨a, List.mem_cons_of_mem _ ha, hR⟩

/-- Each of some values has a counterpart exactly if there is a list of counterparts. -/
theorem exists_forall₂_iff {α β : Type} {R : α → β → Prop} {as : List α} :
    (∃ bs, List.Forall₂ R as bs) ↔ ∀ a ∈ as, ∃ b, R a b := by
  induction as with
  | nil => exact ⟨fun _ => by simp, fun _ => ⟨[], .nil⟩⟩
  | cons a as ih =>
    rw [List.forall_mem_cons, ← ih]
    simp only [List.forall₂_cons_left_iff]
    constructor
    · rintro ⟨_, b, bs, hb, hbs, -⟩
      exact ⟨⟨b, hb⟩, bs, hbs⟩
    · rintro ⟨⟨b, hb⟩, bs, hbs⟩
      exact ⟨b :: bs, b, bs, hb, hbs, rfl⟩

/-- A relation within one list carries over to the other one. -/
theorem pairwise_of_forall₂ {α β : Type} {P : α → β → Prop} {R : α → α → Prop} {S : β → β → Prop}
    {as : List α} {bs : List β} (h : List.Forall₂ P as bs) (hR : as.Pairwise R)
    (hstep : ∀ {a a' b b'}, R a a' → P a b → P a' b' → S b b') : bs.Pairwise S := by
  induction h with
  | nil => exact .nil
  | cons hab hrest ih =>
    obtain ⟨hhead, htail⟩ := List.pairwise_cons.1 hR
    refine List.pairwise_cons.2 ⟨fun b' hb' => ?_, ih htail⟩
    obtain ⟨a', ha', hP⟩ := exists_of_mem_forall₂ hrest hb'
    exact hstep (hhead a' ha') hab hP

namespace TypeGraph

theorem orStop_eq_ok {α : Type} {x : Except Dangling α} {a : α} :
    orStop x = .ok a ↔ x = .ok a := by
  cases x with
  | error fault => simp [orStop]
  | ok b => simp [orStop]

-- ---------------------------------------------------------------------------
-- Parts
-- ---------------------------------------------------------------------------

/-- The elements of an array are expanded when each of them is. -/
theorem expandElements_iff {expandType : Expansion} {shape : ArrayShape} {element address : Int}
    {path : String} {positions : List (List Nat)} {nodes : List LayoutNode} :
    expandElements expandType shape element address path positions = .ok nodes ↔
      List.Forall₂ (fun position node =>
        expandElement expandType shape element address path position = .ok node)
        positions nodes := by
  induction positions generalizing nodes with
  | nil => simp [expandElements, eq_comm]
  | cons position positions ih =>
    rw [expandElements, List.forall₂_cons_left_iff]
    simp only [bind_eq_ok, pure_eq_ok, ih]
    constructor
    · rintro ⟨node, hnode, rest, hrest, rfl⟩
      exact ⟨node, rest, hnode, hrest, rfl⟩
    · rintro ⟨node, rest, hnode, hrest, rfl⟩
      exact ⟨node, hnode, rest, hrest, rfl⟩

/-- What a member contributes to its composite: a node of its own, or, if it has no name, the
members of its type. -/
inductive Contribution (expandType : Expansion) (isUnion : Bool) (address : Int) (path : String)
    (m : Member) : List LayoutNode → Prop
  | spliced {n : LayoutNode} (hname : m.name = none)
      (h : expandType m.typeRef (if isUnion then address else address + m.byteOffset) "" path =
        .ok n) :
      Contribution expandType isUnion address path m (splice n)
  | named {name : String} {n : LayoutNode} (hname : m.name = some name)
      (h : expandType m.typeRef (if isUnion then address else address + m.byteOffset) name
        (path ++ "." ++ name) = .ok n) :
      Contribution expandType isUnion address path m [asMember m n]

/-- A member is expanded where it starts, under its name, and what it contributes is made of the
node that its type is expanded to. -/
theorem expandMember_eq_map (expandType : Expansion) (isUnion : Bool) (address : Int)
    (path : String) (m : Member) :
    ∃ start name path' contribute, expandMember expandType isUnion address path m =
      (expandType m.typeRef start name path').map contribute := by
  unfold expandMember
  cases m.name with
  | none => exact ⟨_, _, _, _, rfl⟩
  | some name => exact ⟨_, _, _, _, rfl⟩

/-- What a member comes to is a contribution to the composite. -/
theorem contribution_of_expandMember {expandType : Expansion} {isUnion : Bool} {address : Int}
    {path : String} {m : Member} {part : List LayoutNode}
    (h : expandMember expandType isUnion address path m = .ok part) :
    Contribution expandType isUnion address path m part := by
  unfold expandMember at h
  cases hname : m.name with
  | none =>
    simp only [hname] at h
    obtain ⟨n, hn, rfl⟩ := map_eq_ok.1 h
    exact .spliced hname hn
  | some name =>
    simp only [hname] at h
    obtain ⟨n, hn, rfl⟩ := map_eq_ok.1 h
    exact .named hname hn

theorem mem_children_of_splice {n c : LayoutNode} (h : c ∈ splice n) : c ∈ n.children := by
  cases n with
  | composite => exact h
  | scalar | pointer | array => simp [splice] at h

/-- The members of a composite are expanded when each of them is; the nodes are those of all members
one after the other. -/
theorem expandMembers_iff {expandType : Expansion} {isUnion : Bool} {address : Int} {path : String}
    {members : List Member} {nodes : List LayoutNode} :
    expandMembers expandType isUnion address path members = .ok nodes ↔
      ∃ parts, List.Forall₂ (fun m part =>
        expandMember expandType isUnion address path m = .ok part) members parts ∧
        nodes = parts.flatten := by
  induction members generalizing nodes with
  | nil => simp [expandMembers, eq_comm]
  | cons m ms ih =>
    rw [expandMembers]
    simp only [bind_eq_ok, pure_eq_ok, ih, List.forall₂_cons_left_iff]
    constructor
    · rintro ⟨here, hhere, rest, ⟨parts, hparts, rfl⟩, rfl⟩
      exact ⟨here :: parts, ⟨here, parts, hhere, hparts, rfl⟩, rfl⟩
    · rintro ⟨_, ⟨here, parts, hhere, hparts, rfl⟩, rfl⟩
      exact ⟨here, hhere, parts.flatten, ⟨parts, hparts, rfl⟩, rfl⟩

/-- The shape of an array is found in three steps: its stride, the folding, and the check of the
numbers. -/
theorem arrayShape_iff {g : TypeGraph} {fold : Folding} {element inner : Int} {dims : List Int}
    {stride : Option Int} {shape : ArrayShape} :
    g.arrayShape fold element dims stride = .ok (shape, inner) ↔
      ∃ outer dims' stride', g.arrayStride element stride = .ok outer ∧
        fold dims element outer = .ok (dims', inner, stride') ∧
        ArrayShape.ofInts dims' (stride'.getD 0) = .ok shape := by
  unfold arrayShape
  simp only [bind_eq_ok, orStop_eq_ok]
  constructor
  · rintro ⟨outer, houter, ⟨dims', inner', stride'⟩, hfold, h⟩
    split at h
    · -- numbers that make no shape
      exact absurd h throw_ne_ok
    · rename_i shape' hshape
      rw [pure_eq_ok, Prod.mk.injEq] at h
      obtain ⟨rfl, rfl⟩ := h
      exact ⟨outer, dims', stride', houter, hfold, hshape⟩
  · rintro ⟨outer, dims', stride', houter, hfold, hshape⟩
    refine ⟨outer, houter, (dims', inner, stride'), hfold, ?_⟩
    rw [hshape]
    rfl

-- ---------------------------------------------------------------------------
-- The three ways
-- ---------------------------------------------------------------------------

/-- Some nodes are the elements of an array, each expanded at its position. -/
def Elements (g : TypeGraph) (fold : Folding) (levels : Nat) (shape : ArrayShape)
    (element address : Int) (path : String) (nodes : List LayoutNode) : Prop :=
  List.Forall₂ (fun position n =>
    expandElement (g.expandWith fold levels) shape element address path position = .ok n)
    shape.positions nodes

/-- Some lists of nodes are what the members of a composite contribute to it. -/
def Contributions (g : TypeGraph) (fold : Folding) (levels : Nat) (isUnion : Bool) (address : Int)
    (path : String) (members : List Member) (parts : List (List LayoutNode)) : Prop :=
  List.Forall₂ (fun m part =>
    expandMember (g.expandWith fold levels) isUnion address path m = .ok part) members parts

/-- The node that a type is expanded to, with so many levels left for its parts. -/
inductive Expanded (g : TypeGraph) (fold : Folding) (levels : Nat) (ref address : Int)
    (name path : String) : LayoutNode → Prop
  | leaf {node : TypeNode} {n : LayoutNode} (hnode : g.resolve ref = .ok node)
      (harray : ∀ element dims stride size, node.body ≠ .array element dims stride size)
      (hcomposite : node.body.isComposite = false)
      (hleaf : g.leaf ref node address name path = .ok n) :
      Expanded g fold levels ref address name path n
  | array {node : TypeNode} {element inner : Int} {dims : List Int}
      {stride explicitSize size : Option Int} {shape : ArrayShape} {elements : List LayoutNode}
      (hnode : g.resolve ref = .ok node)
      (hbody : node.body = .array element dims stride explicitSize)
      (hshape : g.arrayShape fold element dims stride = .ok (shape, inner))
      (hsize : g.byteSize ref = .ok size)
      (helements : g.Elements fold levels shape inner address path elements) :
      Expanded g fold levels ref address name path
        (.array ⟨name, path, address, size.getD shape.byteSize, g.typeName? ref⟩ shape
          (g.describe inner) elements)
  | composite {node : TypeNode} {kind : CompositeKind} {size : Option Int} {members : List Member}
      {isClass : Bool} {parts : List (List LayoutNode)} (hnode : g.resolve ref = .ok node)
      (hbody : node.body = .composite kind size members isClass)
      (hparts : g.Contributions fold levels (kind = .union) address path members parts) :
      Expanded g fold levels ref address name path
        (.composite ⟨name, path, address, size.getD 0,
            some ((g.typeName? ref).getD (g.describe node.ref))⟩ (kind = .union)
          (if kind = .union then members.length else 0) parts.flatten)

/-- A type expands to a node exactly if it does so by the case of its kind, within one level less
for its parts. -/
theorem expandWith_succ_iff {g : TypeGraph} {fold : Folding} {levels : Nat} {ref address : Int}
    {name path : String} {n : LayoutNode} :
    g.expandWith fold (levels + 1) ref address name path = .ok n ↔
      g.Expanded fold levels ref address name path n := by
  rw [expandWith]
  simp only [bind_eq_ok, orStop_eq_ok]
  constructor
  · rintro ⟨node, hnode, h⟩
    split at h
    · rename_i element dims stride size hbody
      simp only [bind_eq_ok, orStop_eq_ok, expandElements_iff, pure_eq_ok] at h
      obtain ⟨⟨shape, inner⟩, hshape, size, hsize, elements, helements, rfl⟩ := h
      exact .array hnode hbody hshape hsize helements
    · rename_i kind size members isClass hbody
      simp only [bind_eq_ok, expandMembers_iff, pure_eq_ok] at h
      obtain ⟨_, ⟨parts, hparts, rfl⟩, rfl⟩ := h
      exact .composite hnode hbody hparts
    · rename_i harray hcomposite
      -- whatever is neither an array nor a composite is a leaf
      refine .leaf hnode harray ?_ (orStop_eq_ok.1 h)
      cases hbody : node.body with
      | composite kind size members isClass => exact absurd hbody (hcomposite _ _ _ _)
      | _ => rfl
  · rintro h
    cases h with
    | leaf hnode harray hcomposite hleaf =>
      rename_i node
      refine ⟨node, hnode, ?_⟩
      split
      · rename_i hbody
        exact absurd hbody (harray _ _ _ _)
      · rename_i hbody
        rw [hbody] at hcomposite
        exact absurd hcomposite (by simp [TypeBody.isComposite])
      · exact orStop_eq_ok.2 hleaf
    | array hnode hbody hshape hsize helements =>
      refine ⟨_, hnode, ?_⟩
      simp only [hbody, bind_eq_ok, orStop_eq_ok, expandElements_iff, pure_eq_ok]
      exact ⟨_, hshape, _, hsize, _, helements, rfl⟩
    | composite hnode hbody hparts =>
      refine ⟨_, hnode, ?_⟩
      simp only [hbody, bind_eq_ok, expandMembers_iff, pure_eq_ok]
      exact ⟨_, ⟨_, hparts, rfl⟩, rfl⟩

section Known

variable {g : TypeGraph} {fold : Folding} {levels : Nat} {ref address : Int} {name path : String}
  {n : LayoutNode} {node : TypeNode} (hnode : g.resolve ref = .ok node)
include hnode

/-- An array is expanded when it has a shape, a size that does not fault, and elements. -/
theorem expandWith_array_iff {element : Int} {dims : List Int} {stride explicitSize : Option Int}
    (hbody : node.body = .array element dims stride explicitSize) :
    g.expandWith fold (levels + 1) ref address name path = .ok n ↔
      ∃ shape inner size elements, g.arrayShape fold element dims stride = .ok (shape, inner) ∧
        g.byteSize ref = .ok size ∧ g.Elements fold levels shape inner address path elements ∧
        n = .array ⟨name, path, address, size.getD shape.byteSize, g.typeName? ref⟩ shape
          (g.describe inner) elements := by
  rw [expandWith_succ_iff]
  constructor
  · intro h
    cases h with
    | leaf hnode' harray =>
      -- the body of the node is that of an array, which the other ways of expansion exclude
      obtain rfl := eq_of_ok hnode hnode'
      exact absurd hbody (harray _ _ _ _)
    | array hnode' hbody' hshape hsize helements =>
      obtain rfl := eq_of_ok hnode hnode'
      rw [hbody, TypeBody.array.injEq] at hbody'
      obtain ⟨rfl, rfl, rfl, rfl⟩ := hbody'
      exact ⟨_, _, _, _, hshape, hsize, helements, rfl⟩
    | composite hnode' hbody' =>
      obtain rfl := eq_of_ok hnode hnode'
      rw [hbody] at hbody'
      exact absurd hbody' (by simp)
  · rintro ⟨shape, inner, size, elements, hshape, hsize, helements, rfl⟩
    exact .array hnode hbody hshape hsize helements

/-- An array of a known shape and size is expanded when its elements are. -/
theorem expandWith_array_iff_elements {element inner : Int} {dims : List Int}
    {stride explicitSize size : Option Int} {shape : ArrayShape}
    (hbody : node.body = .array element dims stride explicitSize)
    (hshape : g.arrayShape fold element dims stride = .ok (shape, inner))
    (hsize : g.byteSize ref = .ok size) :
    g.expandWith fold (levels + 1) ref address name path = .ok n ↔
      ∃ elements, g.Elements fold levels shape inner address path elements ∧
        n = .array ⟨name, path, address, size.getD shape.byteSize, g.typeName? ref⟩ shape
          (g.describe inner) elements := by
  rw [expandWith_array_iff hnode hbody]
  constructor
  · rintro ⟨shape', inner', size', elements, hshape', hsize', helements, rfl⟩
    obtain ⟨rfl, rfl⟩ := Prod.mk.inj (eq_of_ok hshape hshape')
    obtain rfl := eq_of_ok hsize hsize'
    exact ⟨elements, helements, rfl⟩
  · rintro ⟨elements, helements, rfl⟩
    exact ⟨shape, inner, size, elements, hshape, hsize, helements, rfl⟩

/-- A composite is expanded when its members are. -/
theorem expandWith_composite_iff {kind : CompositeKind} {size : Option Int} {members : List Member}
    {isClass : Bool} (hbody : node.body = .composite kind size members isClass) :
    g.expandWith fold (levels + 1) ref address name path = .ok n ↔
      ∃ parts, g.Contributions fold levels (kind = .union) address path members parts ∧
        n = .composite ⟨name, path, address, size.getD 0,
            some ((g.typeName? ref).getD (g.describe node.ref))⟩ (kind = .union)
          (if kind = .union then members.length else 0) parts.flatten := by
  rw [expandWith_succ_iff]
  constructor
  · intro h
    cases h with
    | leaf hnode' _ hcomposite =>
      -- the body of the node is that of a composite, which the other ways of expansion exclude
      obtain rfl := eq_of_ok hnode hnode'
      rw [hbody] at hcomposite
      exact absurd hcomposite (by simp [TypeBody.isComposite])
    | array hnode' hbody' =>
      obtain rfl := eq_of_ok hnode hnode'
      rw [hbody] at hbody'
      exact absurd hbody' (by simp)
    | composite hnode' hbody' hparts =>
      obtain rfl := eq_of_ok hnode hnode'
      rw [hbody, TypeBody.composite.injEq] at hbody'
      obtain ⟨rfl, rfl, rfl, rfl⟩ := hbody'
      exact ⟨_, hparts, rfl⟩
  · rintro ⟨parts, hparts, rfl⟩
    exact .composite hnode hbody hparts

/-- A type without parts is expanded to its leaf. -/
theorem expandWith_leaf_iff
    (harray : ∀ element dims stride size, node.body ≠ .array element dims stride size)
    (hcomposite : node.body.isComposite = false) :
    g.expandWith fold (levels + 1) ref address name path = .ok n ↔
      g.leaf ref node address name path = .ok n := by
  rw [expandWith_succ_iff]
  constructor
  · intro h
    cases h with
    | leaf hnode' _ _ hleaf =>
      obtain rfl := eq_of_ok hnode hnode'
      exact hleaf
    | array hnode' hbody =>
      obtain rfl := eq_of_ok hnode hnode'
      exact absurd hbody (harray _ _ _ _)
    | composite hnode' hbody =>
      obtain rfl := eq_of_ok hnode hnode'
      rw [hbody] at hcomposite
      exact absurd hcomposite (by simp [TypeBody.isComposite])
  · exact .leaf hnode harray hcomposite

end Known

/-- What is expanded has a node, and took a level. -/
theorem resolve_of_expandWith {g : TypeGraph} {fold : Folding} {levels : Nat} {ref address : Int}
    {name path : String} {n : LayoutNode}
    (h : g.expandWith fold levels ref address name path = .ok n) :
    ∃ levels' node, levels = levels' + 1 ∧ g.resolve ref = .ok node := by
  cases levels with
  | zero => exact absurd h (by simp [expandWith])
  | succ levels =>
    cases expandWith_succ_iff.1 h with
    | leaf hnode => exact ⟨levels, _, rfl, hnode⟩
    | array hnode => exact ⟨levels, _, rfl, hnode⟩
    | composite hnode => exact ⟨levels, _, rfl, hnode⟩

/-- The layout of a symbol is the expansion of its type under its name. -/
theorem layoutWith_eq_ok {g : TypeGraph} {fold : Folding} {depth : Nat} {ref address : Int}
    {name : String} {n : LayoutNode} :
    g.layoutWith fold depth ref address name = .ok n ↔
      g.expandWith fold (depth + 1) ref address name name = .ok n := by
  unfold layoutWith
  split
  · rename_i h
    rw [h, Except.ok.injEq, Except.ok.injEq]
  all_goals
    rename_i h
    rw [h]
    exact iff_of_false (by simp) (by simp)

-- ---------------------------------------------------------------------------
-- Headers
-- ---------------------------------------------------------------------------

/-- A type without parts is expanded to a scalar or a pointer. -/
theorem leaf_cases {g : TypeGraph} {ref address : Int} {node : TypeNode} {name path : String}
    {n : LayoutNode} (h : g.leaf ref node address name path = .ok n) :
    (∃ leaf, n = .scalar leaf) ∨ ∃ leaf, n = .pointer leaf := by
  unfold leaf at h
  simp only at h
  split at h
  · rw [Except.ok.injEq] at h
    exact .inl ⟨_, h.symm⟩
  · rw [Except.ok.injEq] at h
    exact .inl ⟨_, h.symm⟩
  · obtain ⟨pointer, -, rfl⟩ := map_eq_ok.1 h
    exact .inr ⟨pointer, rfl⟩
  · rw [Except.ok.injEq] at h
    exact .inl ⟨_, h.symm⟩

theorem asMember_header (m : Member) (n : LayoutNode) : (asMember m n).header = n.header := by
  cases n with
  | scalar leaf =>
    rw [asMember]
    split <;> rfl
  | pointer | composite | array => rfl

theorem asMember_children (m : Member) (n : LayoutNode) : (asMember m n).children = n.children := by
  cases n with
  | scalar leaf =>
    rw [asMember]
    split <;> rfl
  | pointer | composite | array => rfl

/-- A leaf has no children. -/
theorem children_of_leaf {g : TypeGraph} {ref address : Int} {node : TypeNode}
    {name path : String} {n : LayoutNode} (h : g.leaf ref node address name path = .ok n) :
    n.children = [] := by
  obtain ⟨leaf, rfl⟩ | ⟨leaf, rfl⟩ := leaf_cases h
  · rfl
  · rfl

/-- The header of a leaf but for its name: it lies at the address it was expanded at, and takes the
size of its type, or none. -/
theorem header_of_leaf {g : TypeGraph} {ref address : Int} {node : TypeNode} {name path : String}
    {n : LayoutNode} (h : g.leaf ref node address name path = .ok n) :
    n.name = name ∧ n.path = path ∧ n.address = address ∧
      n.byteSize = node.body.byteSize?.getD 0 := by
  unfold leaf at h
  simp only at h
  split at h
  · rename_i hbody
    rw [Except.ok.injEq] at h
    subst h
    exact ⟨rfl, rfl, rfl, by rw [hbody]; rfl⟩
  · rename_i hbody
    rw [Except.ok.injEq] at h
    subst h
    exact ⟨rfl, rfl, rfl, by rw [hbody]; rfl⟩
  · rename_i target size isFunction isReference hbody
    obtain ⟨pointer, hpointer, rfl⟩ := map_eq_ok.1 h
    -- a pointer may fail over its signature, on which the header does not depend
    unfold pointerLeaf at hpointer
    simp only [bind_eq_ok, pure_eq_ok] at hpointer
    obtain ⟨signature, -, rfl⟩ := hpointer
    exact ⟨rfl, rfl, rfl, by rw [hbody]; rfl⟩
  · rw [Except.ok.injEq] at h
    subst h
    exact ⟨rfl, rfl, rfl, rfl⟩

/-- A node lies at the address that its type was expanded at, under the name and path given. -/
theorem header_of_expandWith {g : TypeGraph} {fold : Folding} {levels : Nat} {ref address : Int}
    {name path : String} {n : LayoutNode}
    (h : g.expandWith fold levels ref address name path = .ok n) :
    n.name = name ∧ n.path = path ∧ n.address = address := by
  cases levels with
  | zero => exact absurd h (by simp [expandWith])
  | succ levels =>
    cases expandWith_succ_iff.1 h with
    | leaf _ _ _ hleaf =>
      obtain ⟨hname, hpath, haddress, -⟩ := header_of_leaf hleaf
      exact ⟨hname, hpath, haddress⟩
    | array => exact ⟨rfl, rfl, rfl⟩
    | composite => exact ⟨rfl, rfl, rfl⟩

/-- A type whose size does not depend on its elements has the size it gives. -/
theorem byteSize_of_resolve {g : TypeGraph} {ref : Int} {node : TypeNode}
    (hnode : g.resolve ref = .ok node)
    (harray : ∀ element dims stride size, node.body ≠ .array element dims stride size) :
    g.byteSize ref = .ok node.byteSize? := by
  rw [byteSize, byteSizeWithin, hnode]
  match hbody : node.body with
  | .array element dims stride size => exact absurd hbody (harray element dims stride size)
  | .scalar .. | .enum .. | .pointer .. | .composite .. | .signature .. | .void | .unspecified _
  | .placeholder => simp only [bind, Except.bind, hbody]; rfl

/-- A node has the size of its type, if the type has one. -/
theorem byteSize_of_expandWith {g : TypeGraph} {fold : Folding} {levels : Nat} {ref address : Int}
    {name path : String} {n : LayoutNode} {size : Int}
    (h : g.expandWith fold levels ref address name path = .ok n)
    (hsize : g.byteSize ref = .ok (some size)) : n.byteSize = size := by
  cases levels with
  | zero => exact absurd h (by simp [expandWith])
  | succ levels =>
    cases expandWith_succ_iff.1 h with
    | leaf hnode harray _ hleaf =>
      rw [byteSize_of_resolve hnode harray, Except.ok.injEq, TypeNode.byteSize?] at hsize
      rw [(header_of_leaf hleaf).2.2.2, hsize]
      rfl
    | array _ _ _ hsize' =>
      -- an array asks for its size itself
      obtain rfl := eq_of_ok hsize hsize'
      rfl
    | composite hnode hbody _ =>
      rw [byteSize_of_resolve hnode (by simp [hbody]), Except.ok.injEq, TypeNode.byteSize?, hbody]
        at hsize
      exact (congrArg (·.getD 0) hsize).trans (Option.getD_some ..)

end TypeGraph

end DebugLayout
