import DebugLayout.Proofs.Layout.Folding
import DebugLayout.Proofs.Layout.Parts

/-!
# DebugLayout — how deep an expansion may go

The limit of the depth decides whether a type is expanded, and never what it is expanded to. An
expansion that stops before its levels run out, be it with a tree or with a fault, comes to the same
within more levels. A type that lies in each value of itself is expanded within no number of levels,
since the tree would have to go on for ever.

The number of levels is the only bound of the recursion, so that a statement about the limit is one
about all numbers of levels at once. Persistence is shown along the definition, for each way in
which the expansions of parts are put together.

* `Persists`: an outcome that more levels do not change;
* `TypeGraph.expandWith_persists`: the levels of an expansion;
* `TypeGraph.Embeds`, `TypeGraph.EmbedsItself`: types that are expanded wherever another one is;
* `TypeGraph.Bottomless`, `Bottomless.not_expanded`: types within types without end;
* `TypeGraph.layout_limit`: both for the layout of a symbol.
-/

namespace DebugLayout

-- ---------------------------------------------------------------------------
-- Outcomes within more levels
-- ---------------------------------------------------------------------------

section Persists

variable {α β : Type} {x x' : Except ExpandStop α}

/-- An outcome is the same within more levels, unless the levels did not suffice. -/
def Persists (x x' : Except ExpandStop α) : Prop := x = .error .tooDeep ∨ x' = x

theorem Persists.refl (x : Except ExpandStop α) : Persists x x := .inr rfl

theorem Persists.bind {f f' : α → Except ExpandStop β} (hx : Persists x x')
    (hf : ∀ a, Persists (f a) (f' a)) : Persists (x >>= f) (x' >>= f') := by
  rcases hx with rfl | rfl
  · exact .inl rfl
  · cases x' with
    | error stop => exact .refl _
    | ok a => exact hf a

/-- An outcome persists after a function has been applied to it. -/
theorem Persists.map (f : α → β) (hx : Persists x x') : Persists (x.map f) (x'.map f) := by
  rcases hx with rfl | rfl
  · exact .inl rfl
  · exact .refl _

end Persists

namespace TypeGraph

variable {g : TypeGraph}

/-- Whatever one way to expand types comes to, the other one comes to as well, unless the levels did
not suffice. -/
def Deepens (expand expand' : Expansion) : Prop :=
  ∀ ref address name path, Persists (expand ref address name path) (expand' ref address name path)

section Parts

variable {expand expand' : Expansion} (h : Deepens expand expand') (address : Int) (path : String)
include h

/-- The elements of an array are the same within more levels. -/
theorem Deepens.expandElements (shape : ArrayShape) (element : Int)
    (positions : List (List Nat)) :
    Persists (TypeGraph.expandElements expand shape element address path positions)
      (TypeGraph.expandElements expand' shape element address path positions) := by
  induction positions with
  | nil => exact .refl _
  | cons position positions ih =>
    rw [TypeGraph.expandElements, TypeGraph.expandElements]
    exact .bind (h ..) fun node => .bind ih fun nodes => .refl _

theorem Deepens.expandMember (isUnion : Bool) (m : Member) :
    Persists (TypeGraph.expandMember expand isUnion address path m)
      (TypeGraph.expandMember expand' isUnion address path m) := by
  unfold TypeGraph.expandMember
  cases m.name with
  | none => exact .map _ (h ..)
  | some name => exact .map _ (h ..)

/-- The members of a composite are the same within more levels. -/
theorem Deepens.expandMembers (isUnion : Bool) (members : List Member) :
    Persists (TypeGraph.expandMembers expand isUnion address path members)
      (TypeGraph.expandMembers expand' isUnion address path members) := by
  induction members with
  | nil => exact .refl _
  | cons m ms ih =>
    rw [TypeGraph.expandMembers, TypeGraph.expandMembers]
    exact .bind (h.expandMember address path isUnion m) fun here => .bind ih fun rest => .refl _

end Parts

/-- With more levels a type is expanded to the same tree, or stops for the same reason, unless the
levels did not suffice. -/
theorem expandWith_persists (fold : Folding) {levels levels' : Nat} (hle : levels ≤ levels') :
    Deepens (g.expandWith fold levels) (g.expandWith fold levels') := by
  induction levels generalizing levels' with
  | zero => exact fun _ _ _ _ => .inl rfl
  | succ levels ih =>
    intro ref address name path
    obtain ⟨levels', rfl⟩ : ∃ k, levels' = k + 1 := ⟨levels' - 1, by omega⟩
    -- both expansions take the same steps, and use up one level each
    have hparts : Deepens (g.expandWith fold levels) (g.expandWith fold levels') := ih (by omega)
    rw [expandWith, expandWith]
    refine .bind (.refl _) fun node => ?_
    cases node.body with
    | array element dims stride size =>
      refine .bind (.refl _) fun folded => .bind (.refl _) fun size => ?_
      exact .bind (hparts.expandElements address path folded.1 folded.2 _) fun elements => .refl _
    | composite kind size members isClass =>
      exact .bind (hparts.expandMembers address path _ members) fun nodes => .refl _
    | _ => exact .refl _

-- ---------------------------------------------------------------------------
-- Types that contain themselves
-- ---------------------------------------------------------------------------

/-- Whether a type lies in each value of another one: as the elements of an array that has some, or
as a member of a composite. -/
inductive Embeds (g : TypeGraph) (whole : Int) : Int → Prop
  | element {node : TypeNode} {element : Int} {dims : List Int} {stride size : Option Int}
      (hnode : g.resolve whole = .ok node) (hbody : node.body = .array element dims stride size)
      (hsome : 0 ∉ dims) : Embeds g whole element
  | member {node : TypeNode} {kind : CompositeKind} {size : Option Int} {members : List Member}
      {isClass : Bool} {m : Member} (hnode : g.resolve whole = .ok node)
      (hbody : node.body = .composite kind size members isClass) (hm : m ∈ members) :
      Embeds g whole m.typeRef

/-- What lies in a type is a matter of its node, whatever the reference to it. -/
theorem Embeds.of_resolve_eq {whole whole' part : Int} (h : g.Embeds whole part)
    (hsame : g.resolve whole' = g.resolve whole) : g.Embeds whole' part := by
  cases h with
  | element hnode hbody hsome => exact .element (hsame.trans hnode) hbody hsome
  | member hnode hbody hm => exact .member (hsame.trans hnode) hbody hm

/-- Whether a type is another one or lies in each value of it, through any number of types. -/
abbrev EmbedsAmong (g : TypeGraph) : Int → Int → Prop := Relation.ReflTransGen g.Embeds

/-- Whether a type lies in itself, through any number of types, and under whatever reference. -/
def EmbedsItself (g : TypeGraph) (ref : Int) : Prop :=
  ∃ inner, Relation.TransGen g.Embeds ref inner ∧ g.resolve inner = g.resolve ref

/-- Whether a type lies in itself, or has such a type in it. -/
def Bottomless (g : TypeGraph) (ref : Int) : Prop :=
  ∃ cyclic, g.EmbedsAmong ref cyclic ∧ g.EmbedsItself cyclic

/-- A bottomless type embeds another one. -/
theorem Bottomless.exists_part {ref : Int} (h : g.Bottomless ref) :
    ∃ part, g.Embeds ref part ∧ g.Bottomless part := by
  obtain ⟨cyclic, hamong, hcyclic⟩ := h
  rcases Relation.ReflTransGen.cases_head hamong with rfl | ⟨part, hpart, hrest⟩
  · -- round the cycle once: what is met at the end has the same parts as the start
    obtain ⟨inner, hround, hsame⟩ := hcyclic
    obtain ⟨part, hpart, hrest⟩ := Relation.TransGen.head'_iff.1 hround
    have hinner : g.EmbedsItself inner := ⟨inner, .head' (hpart.of_resolve_eq hsame) hrest, rfl⟩
    exact ⟨part, hpart, inner, hrest, hinner⟩
  · exact ⟨part, hpart, cyclic, hrest, hcyclic⟩

/-- An array that is bottomless has elements, and they are bottomless too. -/
theorem Bottomless.element {ref element : Int} {node : TypeNode} {dims : List Int}
    {stride size : Option Int} (h : g.Bottomless ref) (hnode : g.resolve ref = .ok node)
    (hbody : node.body = .array element dims stride size) : 0 ∉ dims ∧ g.Bottomless element := by
  obtain ⟨part, hpart, hrest⟩ := h.exists_part
  cases hpart with
  | element hnode' hbody' hsome =>
    obtain rfl := eq_of_ok hnode hnode'
    rw [hbody, TypeBody.array.injEq] at hbody'
    obtain ⟨rfl, rfl, -, -⟩ := hbody'
    exact ⟨hsome, hrest⟩
  | member hnode' hbody' =>
    obtain rfl := eq_of_ok hnode hnode'
    exact absurd (hbody.symm.trans hbody') (by simp)

/-- Folding leads from bottomless elements to bottomless ones, and leaves the array some. -/
theorem Bottomless.inner {element inner : Int} {dims : List Int} {stride : Option Int}
    {shape : ArrayShape} (h : g.Bottomless element) (hsome : 0 ∉ dims)
    (hshape : g.arrayShape g.foldAll element dims stride = .ok (shape, inner)) :
    g.Bottomless inner ∧ ∃ position, position ∈ shape.positions := by
  obtain ⟨_, dims', _, -, hfold, hshape⟩ := arrayShape_iff.1 hshape
  have hfolded : 0 ∉ dims' ∧ g.Bottomless inner := by
    refine foldNested_invariant (P := fun dims element _ => 0 ∉ dims ∧ g.Bottomless element) ?_
      ⟨hsome, h⟩ hfold
    rintro dims innerDims element innerElement _ node _ _ hnode hbody - ⟨hsome, helement⟩
    obtain ⟨hsome', hinner⟩ := helement.element hnode hbody
    exact ⟨by simp [hsome, hsome'], hinner⟩
  have hne : shape.positions ≠ [] := fun hnil =>
    hfolded.1 ((ArrayShape.positions_eq_nil hshape).1 hnil)
  exact ⟨hfolded.2, List.exists_mem_of_ne_nil _ hne⟩

/-- What is bottomless is expanded within no number of levels. -/
theorem Bottomless.not_expanded {levels : Nat} {ref address : Int} {name path : String}
    {n : LayoutNode} (href : g.Bottomless ref) :
    g.expandWith g.foldAll levels ref address name path ≠ .ok n := by
  induction levels generalizing ref address name path n with
  | zero => simp [expandWith]
  | succ levels ih =>
    intro h
    -- an expansion comes to the part, or to one that is folded from it, with a level less
    obtain ⟨part, hpart, hrest⟩ := href.exists_part
    cases hpart with
    | element hnode hbody hsome =>
      obtain ⟨shape, inner, _, elements, hshape, -, helements, -⟩ :=
        (expandWith_array_iff hnode hbody).1 h
      obtain ⟨hinner, position, hposition⟩ := hrest.inner hsome hshape
      obtain ⟨element, -, helement⟩ := exists_of_mem_forall₂ helements.flip hposition
      exact ih hinner helement
    | member hnode hbody hm =>
      obtain ⟨parts, hparts, -⟩ := (expandWith_composite_iff hnode hbody).1 h
      obtain ⟨nodes, -, hnodes⟩ := exists_of_mem_forall₂ hparts.flip hm
      cases contribution_of_expandMember hnodes with
      | spliced _ hsub => exact ih hrest hsub
      | named _ hsub => exact ih hrest hsub

-- ---------------------------------------------------------------------------
-- The layout of a symbol
-- ---------------------------------------------------------------------------

/-- A layout goes too deep when the expansion does, and the fault names the symbol and the limit. -/
theorem layout_eq_tooDeep_iff {depth limit : Nat} {ref address : Int} {name own : String} :
    g.layout depth ref address name = .error (.tooDeep own limit) ↔
      g.expandWith g.foldAll (depth + 1) ref address name name = .error .tooDeep ∧
        own = name ∧ limit = depth := by
  unfold layout layoutWith
  cases g.expandWith g.foldAll (depth + 1) ref address name name with
  | ok n => simp
  | error stop =>
    cases stop with
    | tooDeep => simp [eq_comm]
    | dangling | shape => simp

/-- Where the limit does not stop it, a layout is the same under a higher one. -/
theorem layout_of_le {depth depth' : Nat} {ref address : Int} {name : String} (hle : depth ≤ depth')
    (h : ∀ own limit, g.layout depth ref address name ≠ .error (.tooDeep own limit)) :
    g.layout depth' ref address name = g.layout depth ref address name := by
  have hnot : g.expandWith g.foldAll (depth + 1) ref address name name ≠ .error .tooDeep :=
    fun hdeep => h name depth (layout_eq_tooDeep_iff.2 ⟨hdeep, rfl, rfl⟩)
  -- an expansion that did not run out of levels does not change with more of them
  have hsame : g.expandWith g.foldAll (depth' + 1) ref address name name =
      g.expandWith g.foldAll (depth + 1) ref address name name :=
    (expandWith_persists g.foldAll (Nat.succ_le_succ hle) ref address name name).resolve_left hnot
  unfold layout layoutWith
  rw [hsame]
  cases hout : g.expandWith g.foldAll (depth + 1) ref address name name with
  | ok n => rfl
  | error stop =>
    cases stop with
    | tooDeep => exact absurd hout hnot
    | dangling | shape => rfl

/-- A limit that is raised changes no outcome but the fault of the limit itself, which names the
symbol and the limit. A symbol whose type lies in itself, or has such a type in it, has no layout
under any limit. -/
theorem layout_limit (g : TypeGraph) (ref address : Int) (name : String) :
    (∀ depth depth', depth ≤ depth' →
      (∀ own limit, g.layout depth ref address name ≠ .error (.tooDeep own limit)) →
      g.layout depth' ref address name = g.layout depth ref address name) ∧
    (∀ depth own limit, g.layout depth ref address name = .error (.tooDeep own limit) →
      own = name ∧ limit = depth) ∧
    (∀ cyclic, g.EmbedsAmong ref cyclic → g.EmbedsItself cyclic →
      ∀ depth n, g.layout depth ref address name ≠ .ok n) := by
  refine ⟨fun depth depth' hle h => layout_of_le hle h,
    fun depth own limit h => (layout_eq_tooDeep_iff.1 h).2,
    fun cyclic hamong hcyclic depth n h => ?_⟩
  exact Bottomless.not_expanded ⟨cyclic, hamong, hcyclic⟩ (layoutWith_eq_ok.1 h)

/-- A unit with a structure whose `children` are two of the structure itself, under the name of a
typedef, and with a text of three characters. -/
def cycleUnit : Entry :=
  .node 1 Tag.compileUnit (.ofList [(Attr.name, .text "a.c")])
    [.node 2 Tag.structureType (.ofList [(Attr.name, .text "node"), (Attr.byteSize, .int 8)])
        [.node 3 Tag.member (.ofList [(Attr.name, .text "children"), (Attr.type, .int 4)]) []],
      .node 4 Tag.arrayType (.ofList [(Attr.type, .int 6)])
        [.node 5 Tag.subrangeType (.ofList [(Attr.count, .int 2)]) []],
      .node 6 Tag.typedef (.ofList [(Attr.name, .text "node_t"), (Attr.type, .int 2)]) [],
      .node 7 Tag.baseType
        (.ofList [(Attr.name, .text "char"), (Attr.byteSize, .int 1), (Attr.encoding, .int 6)]) [],
      .node 8 Tag.arrayType (.ofList [(Attr.type, .int 7)])
        [.node 9 Tag.subrangeType (.ofList [(Attr.count, .int 3)]) []]]

/-- The types of that unit. -/
def cycles : TypeGraph where
  nodes := ⟨[(2, ⟨2, some "node",
      .composite .struct (some 8) [⟨some "children", 4, 0, none, none, false⟩] false⟩),
    (4, ⟨4, none, .array 6 [2] none none⟩),
    (7, ⟨7, some "char", .scalar (some .signedChar) 1 (.signed .w8)⟩),
    (8, ⟨8, none, .array 7 [3] none none⟩)]⟩
  aliases := ⟨[(6, 2)]⟩
  typedefNames := ⟨[(6, "node_t")]⟩
  faults := []

theorem build_cycleUnit : build .standard (Store.empty.addRoot cycleUnit).1 = cycles := by
  decide +kernel

/-- The struct lies in itself. -/
theorem cycles_embedsItself : cycles.EmbedsItself 2 := by
  have hchildren : cycles.Embeds 2 4 :=
    .member (m := ⟨some "children", 4, 0, none, none, false⟩) rfl rfl (List.mem_singleton.2 rfl)
  have hchild : cycles.Embeds 4 6 := .element rfl rfl (by decide)
  exact ⟨6, .head hchildren (.single hchild), rfl⟩

/-- A text is laid out within any limit, and a struct that lies in itself within none. -/
theorem layout_limit_cycle :
    build .standard (Store.empty.addRoot cycleUnit).1 = cycles ∧
      (∀ depth, 1 ≤ depth →
        cycles.layout depth 8 0x1000 "text" = cycles.layout 1 8 0x1000 "text") ∧
      (∃ n, cycles.layout 1 8 0x1000 "text" = .ok n) ∧
      cycles.layout 2 2 0x2000 "root" = .error (.tooDeep "root" 2) ∧
      ∀ depth n, cycles.layout depth 2 0x2000 "root" ≠ .ok n := by
  have htext : cycles.layout 1 8 0x1000 "text" = .ok _ := rfl
  obtain ⟨hsame, -, -⟩ := layout_limit cycles 8 0x1000 "text"
  obtain ⟨-, -, hnone⟩ := layout_limit cycles 2 0x2000 "root"
  refine ⟨build_cycleUnit, fun depth hle => hsame 1 depth hle ?_, ⟨_, htext⟩, rfl,
    hnone 2 .refl cycles_embedsItself⟩
  intro own limit h
  exact absurd (htext.symm.trans h) (by simp)

end TypeGraph

end DebugLayout
