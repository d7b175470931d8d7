import DebugLayout.Layout.Node

/-!
# DebugLayout — layout trees by their children

The nodes of a tree are its root and the nodes of its children, and what holds of a node whenever it
holds of its children holds of all trees. Statements about all nodes of a tree are proved this way,
whatever the kinds of the nodes.

* `LayoutNode.childInduction`: induction over the children;
* `LayoutNode.nodes_eq`: the nodes by children;
* `LayoutNode.forall_nodes_iff`: what holds of all nodes;
* `LayoutNode.AllScalars`: what holds of all scalars.
-/

namespace DebugLayout

namespace LayoutNode

theorem sizeOf_lt_of_mem_children {n c : LayoutNode} (h : c ∈ n.children) :
    sizeOf c < sizeOf n := by
  cases n with
  | scalar leaf => simp [children] at h
  | pointer leaf => simp [children] at h
  | composite header isUnion alternatives members =>
    have hlt := List.sizeOf_lt_of_mem (show c ∈ members from h)
    rw [composite.sizeOf_spec]
    omega
  | array header shape elementTypeName elements =>
    have hlt := List.sizeOf_lt_of_mem (show c ∈ elements from h)
    rw [array.sizeOf_spec]
    omega

/-- What holds of each node whose children have it holds of every tree. -/
theorem childInduction {motive : LayoutNode → Prop}
    (node : ∀ n, (∀ c ∈ n.children, motive c) → motive n) (n : LayoutNode) : motive n :=
  node n fun c _ => childInduction node c
termination_by sizeOf n
decreasing_by exact sizeOf_lt_of_mem_children (by assumption)

/-- The nodes of a tree are itself and those of its children. -/
theorem nodes_eq (n : LayoutNode) : n.nodes = n :: n.children.flatMap nodes := by
  cases n <;> simp [nodes, children]

/-- All nodes of a tree have a property if its root has it and all nodes of its children do. -/
theorem forall_nodes_iff {P : LayoutNode → Prop} {n : LayoutNode} :
    (∀ m ∈ n.nodes, P m) ↔ P n ∧ ∀ c ∈ n.children, ∀ m ∈ c.nodes, P m := by
  rw [nodes_eq, List.forall_mem_cons]
  simp only [List.mem_flatMap, forall_exists_index, and_imp]
  constructor
  · rintro ⟨hn, hall⟩
    exact ⟨hn, fun c hc m hm => hall m c hc hm⟩
  · rintro ⟨hn, hall⟩
    exact ⟨hn, fun m c hc hm => hall c hc m hm⟩

/-- The nodes of a tree under a tree are nodes of that. -/
theorem nodes_subset_of_mem {n m : LayoutNode} (hm : m ∈ n.nodes) : ∀ l ∈ m.nodes, l ∈ n.nodes := by
  induction n using childInduction with
  | node n ih =>
    rw [nodes_eq] at hm
    rcases List.mem_cons.1 hm with rfl | hm
    · exact fun l hl => hl
    · rw [nodes_eq n]
      obtain ⟨c, hc, hm⟩ := List.mem_flatMap.1 hm
      exact fun l hl => List.mem_cons_of_mem n (List.mem_flatMap.2 ⟨c, hc, ih c hc hm l hl⟩)

/-- Whether all scalars of a tree have a property. -/
def AllScalars (P : ScalarLeaf → Prop) (n : LayoutNode) : Prop :=
  ∀ m ∈ n.nodes, ∀ leaf, m = .scalar leaf → P leaf

/-- Something holds of all scalars of a tree if it does of its own and of those of its children. -/
theorem allScalars_iff {P : ScalarLeaf → Prop} {n : LayoutNode} :
    n.AllScalars P ↔ (∀ leaf, n = .scalar leaf → P leaf) ∧ ∀ c ∈ n.children, c.AllScalars P :=
  forall_nodes_iff

/-- What holds of all scalars of a tree holds of those under any of its nodes. -/
theorem AllScalars.of_mem_nodes {P : ScalarLeaf → Prop} {n m : LayoutNode} (h : n.AllScalars P)
    (hm : m ∈ n.nodes) : m.AllScalars P :=
  fun l hl => h l (nodes_subset_of_mem hm l hl)

end LayoutNode

end DebugLayout
