import DebugLayout.Proofs.Layout.Order
import DebugLayout.Proofs.Layout.Path

/-!
# DebugLayout — every node is found at its path

The path of a node tells the **steps** from the root to it: the names of members and the positions
of elements. Whatever was spliced in or folded on the way, a node is one step below the node that it
is a child of. Where the members of a composite have different names, and all of them can be read
back, looking for the path of a node from the root therefore leads to that node, and no two nodes
have the same path.

Two facts about paths carry the proof. Paths are read back as the segments they were written from,
so that a path determines the steps. And two different children are told apart by steps of the same
length, so that no path of a node below the one can be that of a node below the other.

* `LayoutNode.steps`, `LayoutNode.Labelled`: the steps to the children, and trees with such paths;
* `TypeGraph.labelled_of_expandWith`: layouts are such trees;
* `LayoutNode.follow?_member`, `follow?_element`: one step;
* `LayoutNode.Named`, `exists_route`, `nodup_paths`: the nodes of a tree by their paths;
* `TypeGraph.find?_path_of_layout`: the nodes of a layout.
-/

namespace DebugLayout

open DebugLayout.Path (IsPlain IsIndexLike IsReadable render)

namespace LayoutNode

-- ---------------------------------------------------------------------------
-- Labels
-- ---------------------------------------------------------------------------

/-- The steps from a node to its children, in their order. -/
def steps : LayoutNode → List (List PathSegment)
  | scalar _ | pointer _ => []
  | composite _ _ _ members => members.map fun c => [.name c.name]
  | array _ shape _ _ => shape.positions.map fun p => p.map .index

/-- Whether the path of each child goes one step on from that of the node. -/
def LabelsChildren (n : LayoutNode) : Prop :=
  List.Forall₂ (fun step c => c.path = n.path ++ render step) n.steps n.children

/-- Whether the paths of all nodes of a tree go on from those above them. -/
def Labelled (n : LayoutNode) : Prop := ∀ m ∈ n.nodes, m.LabelsChildren

/-- A tree is labelled if its node labels the children and they are labelled. -/
theorem labelled_iff {n : LayoutNode} :
    n.Labelled ↔ n.LabelsChildren ∧ ∀ c ∈ n.children, c.Labelled := forall_nodes_iff

theorem labelsChildren_composite {header : NodeHeader} {isUnion : Bool} {alternatives : Nat}
    {members : List LayoutNode} :
    (composite header isUnion alternatives members).LabelsChildren ↔
      ∀ c ∈ members, c.path = header.path ++ "." ++ c.name := by
  rw [LabelsChildren, steps, List.forall₂_map_left_iff, children, List.forall₂_same]
  simp only [Path.render_name, String.append_assoc]
  exact Iff.rfl

/-- An array labels its elements by their positions in brackets. -/
theorem labelsChildren_array {header : NodeHeader} {shape : ArrayShape} {elementTypeName : String}
    {elements : List LayoutNode} :
    (array header shape elementTypeName elements).LabelsChildren ↔
      List.Forall₂ (fun p c => c.path = header.path ++ ArrayShape.brackets p) shape.positions
        elements := by
  rw [LabelsChildren, steps, List.forall₂_map_left_iff, children]
  simp only [Path.render_index]
  exact Iff.rfl

end LayoutNode

namespace TypeGraph

open LayoutNode (Labelled)

variable {g : TypeGraph}

theorem labelled_asMember {m : Member} {n : LayoutNode} (h : n.Labelled) :
    (asMember m n).Labelled := by
  cases n with
  | scalar leaf =>
    rw [asMember]
    split
    · exact LayoutNode.labelled_iff.2 ⟨.nil, by simp [LayoutNode.children]⟩
    · exact h
  | pointer | composite | array => exact h

/-- What a member contributes to a composite goes one step on from its path. -/
theorem labelled_of_expandMember {expandType : Expansion} {isUnion : Bool} {address : Int}
    {path : String} {m : Member} {part : List LayoutNode}
    (h : expandMember expandType isUnion address path m = .ok part)
    (hpath : ∀ {address name path n}, expandType m.typeRef address name path = .ok n →
      n.name = name ∧ n.path = path ∧ n.Labelled) :
    ∀ c ∈ part, c.path = path ++ "." ++ c.name ∧ c.Labelled := by
  cases contribution_of_expandMember h with
  | spliced hname hn =>
    rename_i n
    intro c hc
    obtain ⟨-, rfl, hlabelled⟩ := hpath hn
    obtain ⟨hlabels, hchildren⟩ := LayoutNode.labelled_iff.1 hlabelled
    refine ⟨?_, hchildren c (mem_children_of_splice hc)⟩
    cases n with
    | composite =>
      -- only a composite has members to be spliced in
      exact LayoutNode.labelsChildren_composite.1 hlabels c hc
    | scalar | pointer | array => simp [splice] at hc
  | named hname hn =>
    rename_i name n
    intro c hc
    rw [List.mem_singleton] at hc
    subst hc
    obtain ⟨rfl, hnpath, hlabelled⟩ := hpath hn
    refine ⟨?_, labelled_asMember hlabelled⟩
    unfold LayoutNode.path LayoutNode.name at *
    rw [asMember_header]
    exact hnpath

/-- In a layout, each path goes on from that of the node above. -/
theorem labelled_of_expandWith {fold : Folding} {levels : Nat} {ref address : Int}
    {name path : String} {n : LayoutNode}
    (h : g.expandWith fold levels ref address name path = .ok n) : n.Labelled := by
  induction levels generalizing ref address name path n with
  | zero => exact absurd h (by simp [expandWith])
  | succ levels ih =>
    rw [LayoutNode.labelled_iff]
    cases expandWith_succ_iff.1 h with
    | leaf _ _ _ hleaf =>
      obtain ⟨leaf, rfl⟩ | ⟨leaf, rfl⟩ := leaf_cases hleaf
      · exact ⟨.nil, by simp [LayoutNode.children]⟩
      · exact ⟨.nil, by simp [LayoutNode.children]⟩
    | array _ _ _ _ helements =>
      constructor
      · rw [LayoutNode.labelsChildren_array]
        exact helements.imp fun p c hc => (header_of_expandWith hc).2.1
      · intro c hc
        obtain ⟨p, -, hpc⟩ := exists_of_mem_forall₂ helements hc
        exact ih hpc
    | composite hnode hbody hparts =>
      rename_i parts
      -- the members are named below the path of the composite, those of unnamed members too
      have hchildren : ∀ c ∈ parts.flatten, c.path = path ++ "." ++ c.name ∧ c.Labelled := by
        intro c hc
        obtain ⟨part, hpart, hc⟩ := List.mem_flatten.1 hc
        obtain ⟨m, -, hmpart⟩ := exists_of_mem_forall₂ hparts hpart
        refine labelled_of_expandMember hmpart (fun hn => ?_) c hc
        exact ⟨(header_of_expandWith hn).1, (header_of_expandWith hn).2.1, ih hn⟩
      rw [LayoutNode.labelsChildren_composite]
      exact ⟨fun c hc => (hchildren c hc).1, fun c hc => (hchildren c hc).2⟩

end TypeGraph

namespace LayoutNode

-- ---------------------------------------------------------------------------
-- One step
-- ---------------------------------------------------------------------------

/-- The names of the members of a composite. -/
def memberNames : LayoutNode → List String
  | composite _ _ _ members => members.map name
  | _ => []

/-- Among members with different names each is found by its own. -/
theorem find?_name {members : List LayoutNode} (hdistinct : (members.map name).Nodup)
    {c : LayoutNode} (hc : c ∈ members) : members.find? (·.name = c.name) = some c := by
  induction members with
  | nil => simp at hc
  | cons m members ih =>
    rw [List.map_cons, List.nodup_cons] at hdistinct
    rcases List.mem_cons.1 hc with rfl | hc
    · exact List.find?_cons_of_pos (by simp)
    · have hne : m.name ≠ c.name := by
        intro heq
        exact hdistinct.1 (heq ▸ List.mem_map_of_mem hc)
      rw [List.find?_cons_of_neg (by simpa using hne)]
      exact ih hdistinct.2 hc

theorem follow?_nil (n : LayoutNode) : n.follow? [] = some n := by
  rw [follow?]

/-- The name of a member leads to the member. -/
theorem follow?_member {header : NodeHeader} {isUnion : Bool} {alternatives : Nat}
    {members : List LayoutNode} (hdistinct : (members.map name).Nodup) {c : LayoutNode}
    (hc : c ∈ members) (rest : List PathSegment) :
    (composite header isUnion alternatives members).follow? (.name c.name :: rest) =
      c.follow? rest := by
  rw [follow?, find?_name hdistinct hc]

theorem takeIndices_map (position : List Nat) (rest : List PathSegment) :
    takeIndices position.length (position.map .index ++ rest) = some (position, rest) := by
  induction position with
  | nil => rfl
  | cons i position ih =>
    rw [List.length_cons, List.map_cons, List.cons_append, takeIndices, ih]
    rfl

/-- The indices of a position lead to the element there. -/
theorem follow?_element {header : NodeHeader} {shape : ArrayShape} {elementTypeName : String}
    {elements : List LayoutNode} {p : List Nat} (hp : p ∈ shape.positions) {c : LayoutNode}
    (hc : elementAt? shape elements p = some c) (rest : List PathSegment) :
    (array header shape elementTypeName elements).follow? (p.map .index ++ rest) =
      c.follow? rest := by
  have hlength : p.length = shape.dims.length := ArrayShape.length_of_mem_positionsOf hp
  have htake := takeIndices_map p rest
  rw [hlength] at htake
  cases p with
  | nil =>
    -- an array has a dimension, so that a position has an index
    have hpos := List.length_pos_iff.2 shape.dims_ne_nil
    rw [List.length_nil] at hlength
    omega
  | cons i p =>
    rw [List.map_cons, List.cons_append] at htake ⊢
    rw [follow?]
    split
    · rename_i hnone
      rw [htake] at hnone
      exact absurd hnone (by simp)
    · rename_i position after hsome
      rw [htake, Option.some.injEq, Prod.mk.injEq] at hsome
      obtain ⟨rfl, rfl⟩ := hsome
      rw [hc]

/-- Elements in the order of their positions are those at these positions. -/
theorem forall₂_elementAt {R : List Nat → LayoutNode → Prop} {shape : ArrayShape}
    {elements : List LayoutNode} (h : List.Forall₂ R shape.positions elements) :
    List.Forall₂ (fun p c => R p c ∧ p ∈ shape.positions ∧ elementAt? shape elements p = some c)
      shape.positions elements := by
  rw [List.forall₂_iff_get] at h ⊢
  obtain ⟨hlength, hR⟩ := h
  refine ⟨hlength, fun i hi hi' => ⟨hR i hi hi', List.get_mem _ _, ?_⟩⟩
  have hindex : ArrayShape.rowMajor shape.dims (shape.positions.get ⟨i, hi⟩) = i :=
    ArrayShape.rowMajor_getElem hi
  rw [elementAt?, ArrayShape.indexOf_of_mem (List.get_mem _ _), hindex]
  exact List.getElem?_eq_getElem hi'

-- ---------------------------------------------------------------------------
-- All steps
-- ---------------------------------------------------------------------------

/-- What the paths of the children of a node need so that these can be told apart. An index of more
digits than a numeral may have cannot be read, but it takes more than `numeralBound` elements to
come to one. -/
structure Named (n : LayoutNode) : Prop where
  labels : n.LabelsChildren
  plain : ∀ name ∈ n.memberNames, IsPlain name ∧ ¬IsIndexLike name
  distinct : n.memberNames.Nodup
  count : n.children.length ≤ Text.numeralBound

/-- A step leads to the child that it labels. -/
theorem Named.forall₂_follow {n : LayoutNode} (h : n.Named) :
    List.Forall₂ (fun step c => c.path = n.path ++ render step ∧
      ∀ rest, n.follow? (step ++ rest) = c.follow? rest) n.steps n.children := by
  cases n with
  | scalar leaf => exact .nil
  | pointer leaf => exact .nil
  | composite header isUnion alternatives members =>
    rw [steps, List.forall₂_map_left_iff, children, List.forall₂_same]
    intro c hc
    constructor
    · rw [Path.render_name, ← String.append_assoc]
      exact labelsChildren_composite.1 h.labels c hc
    · exact follow?_member h.distinct hc
  | array header shape elementTypeName elements =>
    rw [steps, List.forall₂_map_left_iff, children]
    refine (forall₂_elementAt (labelsChildren_array.1 h.labels)).imp ?_
    -- an element is reached by its indices
    rintro p c ⟨hpath, hp, hc⟩
    constructor
    · rw [Path.render_index]
      exact hpath
    · exact follow?_element hp hc

/-- The steps of a tree with proper names can be read back. -/
theorem Named.readable {n : LayoutNode} (h : n.Named) :
    ∀ step ∈ n.steps, step ≠ [] ∧ ∀ s ∈ step, IsReadable s := by
  cases n with
  | scalar leaf => simp [steps]
  | pointer leaf => simp [steps]
  | composite header isUnion alternatives members =>
    intro step hstep
    obtain ⟨c, hc, rfl⟩ := List.mem_map.1 hstep
    refine ⟨by simp, fun s hs => ?_⟩
    rw [List.mem_singleton] at hs
    subst hs
    exact h.plain c.name (List.mem_map_of_mem hc)
  | array header shape elementTypeName elements =>
    intro step hstep
    obtain ⟨p, hp, rfl⟩ := List.mem_map.1 hstep
    have hlength : p.length = shape.dims.length := ArrayShape.length_of_mem_positionsOf hp
    have hpos := List.length_pos_iff.2 shape.dims_ne_nil
    -- an index stays below the number of elements, which are as many as the children
    have hcount : ArrayShape.countOf shape.dims ≤ Text.numeralBound := by
      rw [← ArrayShape.length_positionsOf]
      exact (labelsChildren_array.1 h.labels).length_eq ▸ h.count
    constructor
    · rw [ne_eq, List.map_eq_nil_iff, ← List.length_eq_zero_iff]
      omega
    · intro s hs
      obtain ⟨i, hi, rfl⟩ := List.mem_map.1 hs
      exact Nat.lt_of_lt_of_le (ArrayShape.lt_countOf_of_mem hp hi) hcount

/-- The steps from a node are different, and of one length. -/
theorem Named.pairwise_steps {n : LayoutNode} (h : n.Named) :
    n.steps.Pairwise fun step step' => step ≠ step' ∧ step.length = step'.length := by
  cases n with
  | scalar leaf => exact .nil
  | pointer leaf => exact .nil
  | composite header isUnion alternatives members =>
    rw [steps, List.pairwise_map]
    refine (List.pairwise_map.1 h.distinct).imp fun hne => ?_
    simpa using hne
  | array header shape elementTypeName elements =>
    rw [steps, List.pairwise_map]
    refine (ArrayShape.pairwise_rowMajor shape.dims).imp_of_mem fun {p q} hp hq hlt => ?_
    constructor
    · -- positions in ascending order are distinct
      intro heq
      have hpq : p = q := List.map_injective_iff.2 (fun _ _ h => PathSegment.index.inj h) heq
      rw [hpq] at hlt
      exact Nat.lt_irrefl _ hlt
    · rw [List.length_map, List.length_map, ArrayShape.length_of_mem_positionsOf hp,
        ArrayShape.length_of_mem_positionsOf hq]

-- ---------------------------------------------------------------------------
-- All nodes
-- ---------------------------------------------------------------------------

/-- To every node of a tree there is a route, and it can be read off its path. -/
theorem exists_route {n : LayoutNode} (h : ∀ m ∈ n.nodes, m.Named) :
    ∀ m ∈ n.nodes, ∃ route, (∀ s ∈ route, IsReadable s) ∧ m.path = n.path ++ render route ∧
      n.follow? route = some m := by
  induction n using childInduction with
  | node n ih =>
    rw [forall_nodes_iff] at h ⊢
    obtain ⟨hn, hchildren⟩ := h
    constructor
    · exact ⟨[], by simp, String.append_empty.symm, follow?_nil n⟩
    · intro c hc m hm
      obtain ⟨route, hreadable, hpath, hfollow⟩ := ih c hc (hchildren c hc) m hm
      -- to every child leads one step, which a reader follows to it
      have hsteps := (List.forall₂_and_left _ _).2 ⟨fun step hstep => hstep, hn.forall₂_follow⟩
      obtain ⟨step, -, hstep, hcpath, hcfollow⟩ := exists_of_mem_forall₂ hsteps hc
      -- the step to the child, and then the way below it
      refine ⟨step ++ route, ?_, ?_, ?_⟩
      · intro s hs
        rcases List.mem_append.1 hs with hs | hs
        · exact (hn.readable step hstep).2 s hs
        · exact hreadable s hs
      · rw [hpath, hcpath, Path.render_append, String.append_assoc]
      · rw [hcfollow, hfollow]

/-- The path of a node under another one, by the step to the child above it. -/
theorem exists_path_of_child {n c m : LayoutNode} {step : List PathSegment} (hn : n.Named)
    (hc : ∀ m ∈ c.nodes, m.Named) (hstep : step ∈ n.steps) (hpath : c.path = n.path ++ render step)
    (hm : m ∈ c.nodes) :
    ∃ route, (∀ s ∈ step ++ route, IsReadable s) ∧ m.path = n.path ++ render (step ++ route) := by
  obtain ⟨route, hreadable, hmpath, -⟩ := exists_route hc m hm
  refine ⟨route, fun s hs => ?_, ?_⟩
  · rcases List.mem_append.1 hs with hs | hs
    · exact (hn.readable step hstep).2 s hs
    · exact hreadable s hs
  · rw [hmpath, hpath, Path.render_append, String.append_assoc]

/-- No two nodes of a tree have the same path. -/
theorem nodup_paths {n : LayoutNode} (h : ∀ m ∈ n.nodes, m.Named) : (n.nodes.map path).Nodup := by
  induction n using childInduction with
  | node n ih =>
    rw [forall_nodes_iff] at h
    obtain ⟨hn, hchildren⟩ := h
    have hsteps := (List.forall₂_and_left _ _).2 ⟨fun step hstep => hstep, hn.labels⟩
    rw [nodes_eq, List.map_cons, List.nodup_cons, List.map_flatMap]
    constructor
    · -- below the root there is at least one step
      intro hmem
      obtain ⟨c, hc, hmem⟩ := List.mem_flatMap.1 hmem
      obtain ⟨m, hm, hpath⟩ := List.mem_map.1 hmem
      obtain ⟨step, -, hstep, hcpath⟩ := exists_of_mem_forall₂ hsteps hc
      obtain ⟨route, hreadable, hmpath⟩ :=
        exists_path_of_child hn (hchildren c hc) hstep hcpath hm
      have hempty : render (step ++ route) = render [] := by
        rw [hmpath] at hpath
        exact (String.append_right_inj n.path).1 (hpath.trans String.append_empty.symm)
      have hnil := render_injective hreadable (by simp) hempty
      exact (hn.readable step hstep).1 (List.append_eq_nil_iff.1 hnil).1
    · -- two children are told apart by the steps to them
      refine List.pairwise_flatMap.2 ⟨fun c hc => ih c hc (hchildren c hc), ?_⟩
      have hdiffer : n.children.Pairwise fun c c' => (∀ m ∈ c.nodes, m.Named) →
          (∀ m ∈ c'.nodes, m.Named) → ∀ x ∈ c.nodes.map path, ∀ y ∈ c'.nodes.map path, x ≠ y := by
        refine pairwise_of_forall₂ hsteps hn.pairwise_steps ?_
        rintro step step' c c' ⟨hne, hlength⟩ ⟨hstep, hcpath⟩ ⟨hstep', hcpath'⟩ hc hc' x hx y hy rfl
        obtain ⟨m, hm, hmx⟩ := List.mem_map.1 hx
        obtain ⟨m', hm', hmy⟩ := List.mem_map.1 hy
        obtain ⟨route, hreadable, hpath⟩ := exists_path_of_child hn hc hstep hcpath hm
        obtain ⟨route', hreadable', hpath'⟩ := exists_path_of_child hn hc' hstep' hcpath' hm'
        have hrender : render (step ++ route) = render (step' ++ route') := by
          rw [← String.append_right_inj n.path, ← hpath, ← hpath', hmx, hmy]
        have hroutes := render_injective hreadable hreadable' hrender
        exact hne (List.append_inj_left hroutes hlength)
      exact hdiffer.imp_of_mem fun hc hc' h => h (hchildren _ hc) (hchildren _ hc')

end LayoutNode

namespace TypeGraph

/-- In the layout of a symbol, the path of every node after that of the symbol leads back to the
node, and no two nodes have the same path. That an index has too many digits to be read would take
an array of more than `numeralBound` elements, which no memory holds. -/
theorem find?_path_of_layout {g : TypeGraph} {depth : Nat} {ref address : Int} {name : String}
    {n : LayoutNode} (h : g.layout depth ref address name = .ok n)
    (hplain : ∀ m ∈ n.nodes, ∀ name ∈ m.memberNames, IsPlain name ∧ ¬IsIndexLike name)
    (hdistinct : ∀ m ∈ n.nodes, m.memberNames.Nodup)
    (hcount : ∀ m ∈ n.nodes, m.children.length ≤ Text.numeralBound) :
    (∀ m ∈ n.nodes, ∃ relative, m.path = n.path ++ relative ∧ n.find? relative = .ok (some m)) ∧
      (n.nodes.map LayoutNode.path).Nodup := by
  have hlabelled := labelled_of_expandWith (layoutWith_eq_ok.1 h)
  have hnamed : ∀ m ∈ n.nodes, m.Named := fun m hm =>
    ⟨hlabelled m hm, hplain m hm, hdistinct m hm, hcount m hm⟩
  refine ⟨fun m hm => ?_, LayoutNode.nodup_paths hnamed⟩
  obtain ⟨route, hreadable, hpath, hfollow⟩ := LayoutNode.exists_route hnamed m hm
  refine ⟨render route, hpath, ?_⟩
  rw [LayoutNode.find?, splitPath_render hreadable, Except.map, hfollow]

/-- The layout of the record of bitfields, spliced numbers and a folded table. -/
def recordTree : LayoutNode :=
  .composite ⟨"record", "record", 0x1000, 16, some "record"⟩ false 0
    [.scalar ⟨⟨"mode", "record.mode", 0x1000, 4, some "unsigned"⟩, .unsigned .w32, 0, some 3, none⟩,
      .scalar ⟨⟨"state", "record.state", 0x1000, 4, some "unsigned"⟩, .unsigned .w32, 3, some 5,
        none⟩,
      .scalar ⟨⟨"low", "record.low", 0x1004, 2, some "short"⟩, .signed .w16, 0, none, none⟩,
      .scalar ⟨⟨"high", "record.high", 0x1006, 2, some "short"⟩, .signed .w16, 0, none, none⟩,
      .array ⟨"table", "record.table", 0x1008, 8, none⟩ ⟨[2, 2], 2, by simp⟩ "short"
        [.scalar ⟨⟨"[0][0]", "record.table[0][0]", 0x1008, 2, some "short"⟩, .signed .w16, 0,
            none, none⟩,
          .scalar ⟨⟨"[0][1]", "record.table[0][1]", 0x100A, 2, some "short"⟩, .signed .w16, 0,
            none, none⟩,
          .scalar ⟨⟨"[1][0]", "record.table[1][0]", 0x100C, 2, some "short"⟩, .signed .w16, 0,
            none, none⟩,
          .scalar ⟨⟨"[1][1]", "record.table[1][1]", 0x100E, 2, some "short"⟩, .signed .w16, 0,
            none, none⟩]]

theorem recordTree_names :
    ∀ m ∈ recordTree.nodes, m.memberNames ∈ [[], ["mode", "state", "low", "high", "table"]] := by
  simp [recordTree, LayoutNode.nodes, LayoutNode.memberNames, LayoutNode.name, LayoutNode.header]

theorem recordTree_children : ∀ m ∈ recordTree.nodes, m.children.length ≤ 5 := by
  simp [recordTree, LayoutNode.nodes, LayoutNode.children]

/-- Every node of the layout of a record is found by its path. -/
theorem find?_path_of_layout_record :
    records.layout defaultDepth 11 0x1000 "record" = .ok recordTree ∧
      (∀ m ∈ recordTree.nodes, ∃ relative, m.path = recordTree.path ++ relative ∧
        recordTree.find? relative = .ok (some m)) ∧
      (recordTree.nodes.map LayoutNode.path).Nodup := by
  have h : records.layout defaultDepth 11 0x1000 "record" = .ok recordTree := rfl
  refine ⟨h, find?_path_of_layout h (fun m hm name hname => ?_) (fun m hm => ?_) (fun m hm => ?_)⟩
  · have hnames : ∀ names ∈ [[], ["mode", "state", "low", "high", "table"]], ∀ name ∈ names,
        Path.isIdentifier name = true ∧ name.toList.head? ≠ some '_' := by decide
    obtain ⟨hidentifier, hhead⟩ := hnames _ (recordTree_names m hm) name hname
    exact ⟨Path.isPlain_of_isIdentifier hidentifier, Path.not_isIndexLike_of_head hhead⟩
  · have hnames : ∀ names ∈ [[], ["mode", "state", "low", "high", "table"]], names.Nodup := by
      decide
    exact hnames _ (recordTree_names m hm)
  · have hfive : 5 ≤ Text.numeralBound := Nat.le_trans (by decide) Text.ten_le_numeralBound
    exact Nat.le_trans (recordTree_children m hm) hfive

end TypeGraph

end DebugLayout
