import DebugLayout.Proofs.TypeGraph.Arena
import DebugLayout.Proofs.TypeGraph.Contents

/-!
# DebugLayout — the storage units of bitfields

A bitfield gets its place while its composite is being read: in a storage unit of the size that its
entry gives or, if it gives none, of the size of its type. The type is in the graph by then, but the
rest of the members is not, nor is the composite. What makes the place last is that the graph only
grows from then on, so that the type goes on to be what it is. In a graph that was built every
bitfield thus lies inside the storage unit that its entry and its type speak of.

The condition on a field is one that lasts as the graph grows, and it is established when the member
is read. Between the two stands the rest of the composite, which may be given up: then the field is
lost with it, and there is nothing left to show.

* `TypeGraph.Later`, `Lasting`: graphs that grew from others, and what lasts as they do;
* `TypeGraph.Grows`, `grows_buildRef`: the building of types makes a graph grow;
* `Member.InUnit`, `yields_buildMembers`: bitfields in their storage units;
* `TypeGraph.FieldsInUnits`, `fieldsInUnits_buildWithin`: all those of a graph that was built.
-/

namespace DebugLayout

namespace TypeGraph

open Build

variable {store : Store} {target : Target} {recurse : Recurse} {e c : Entry}
variable {g g' g'' : TypeGraph} {α : Type}

-- ---------------------------------------------------------------------------
-- Growing graphs
-- ---------------------------------------------------------------------------

/-- A graph and what it may have become by operations on it. -/
structure Later (g g' : TypeGraph) : Prop where
  first : g.Keyed
  last : g'.Keyed
  grown : g'.Extends g

theorem Later.refl (h : g.Keyed) : Later g g := ⟨h, h, .refl g⟩

theorem Later.apply (h : Later g g') (operation : Operation) (hop : g'.apply operation = .ok g'') :
    Later g g'' :=
  ⟨h.first, h.last.apply hop, h.grown.trans (extends_apply hop)⟩

/-- What is put on record makes no difference to what a graph has become. -/
theorem ignoresFaults_later : IgnoresFaults (Later g) :=
  fun _ _ h => ⟨h.first, ⟨h.last.own, h.last.apart⟩, ⟨h.grown.aliases, h.grown.size, h.grown.nodes⟩⟩

/-- Whether something goes on to hold of a graph as it grows. -/
def Lasting (P : TypeGraph → Prop) : Prop := ∀ {g g'}, Later g g' → P g → P g'

/-- Whether graphs grow by a step, if at all. -/
def Grows (x : Build α) : Prop := ∀ g, Preserves (Later g) x

/-- A step by which graphs grow keeps what lasts. -/
theorem Grows.preserves {x : Build α} {P : TypeGraph → Prop} (hx : Grows x) (hP : Lasting P) :
    Preserves (fun g => g.Keyed ∧ P g) x := by
  rintro s ⟨hkeyed, hs⟩
  have hlater := hx s.graph s (.refl hkeyed)
  exact ⟨hlater.last, hP hlater hs⟩

theorem Grows.keyed {x : Build α} (hx : Grows x) : Preserves Keyed x :=
  fun s hs => (hx s.graph s (.refl hs)).last

/-- Every operation makes a graph grow, and so does the building of every type. -/
theorem grows_buildRef (store : Store) (target : Target) (depth : Nat) (ref : Int)
    (usedBy : Option Int) : Grows (buildRef store target depth ref usedBy) := by
  intro g
  refine preserves_buildRef ignoresFaults_later target (fun depth e hrec he => ?_) depth ref usedBy
  have hallows : Allows (Later g) store target e :=
    { faults := ignoresFaults_later
      node := fun hg _ hadd => hg.apply (.addNode _) hadd
      synonym := fun hg _ hadd => hg.apply (.addAlias _ _ _) hadd }
  refine preserves_buildEntry hallows hrec fun _ _ => ?_
  exact preserves_buildBody hrec (preserves_buildMembers hrec _ _ _).yields
    (fun hg hadd => hg.apply (.addPlaceholder _) hadd)
    (fun hg _ hfill => hg.apply (.fillPlaceholder _) hfill)
    (fun hg => hg.apply (.discardPlaceholder _) rfl)

-- ---------------------------------------------------------------------------
-- Members
-- ---------------------------------------------------------------------------

/-- Whether a type is of some size by itself, unless it is an array. -/
def SizedAs (g : TypeGraph) (ref size : Int) : Prop :=
  ∃ node, g.resolve ref = .ok node ∧
    ((∀ element dims stride size, node.body ≠ .array element dims stride size) →
      node.byteSize? = some size)

/-- A type that has a size keeps it. -/
theorem lasting_sizedAs (ref size : Int) : Lasting fun g => g.SizedAs ref size := by
  rintro g g' hlater ⟨node, hnode, hsize⟩
  exact ⟨node, (hlater.grown.resolve hlater.first hlater.last hnode).1, hsize⟩

/-- A type whose size is known so far has it by itself. -/
theorem sizedAs_of_sizeKnown {ref size : Int} (h : sizeKnown g ref = .ok (some size)) :
    g.SizedAs ref size := by
  obtain ⟨node, hget, hrest⟩ := bind_eq_ok.1 h
  split at hrest
  · exact absurd (Except.ok.inj hrest) (by simp)
  · rename_i hreal
    have hnode : g.resolve ref = .ok node := resolve_eq_ok.2 ⟨hget, by simpa using hreal⟩
    refine ⟨node, hnode, fun harray => ?_⟩
    rw [byteSize_of_resolve hnode harray] at hrest
    exact Except.ok.inj hrest

/-- A size that is found while the graph grows is the size of the type. -/
theorem yields_sizeSoFar (ref : Int) :
    Yields Keyed (sizeSoFar ref) fun found g => g.Keyed ∧ ∀ size ∈ found, g.SizedAs ref size := by
  intro s found t hs hexec
  rw [exec_sizeSoFar] at hexec
  obtain ⟨hknown, rfl⟩ := Prod.mk.inj hexec
  refine ⟨hs, fun size hsize => sizedAs_of_sizeKnown ?_⟩
  cases hfound : sizeKnown s.graph ref with
  | ok known =>
    rw [hfound] at hknown
    rw [Except.ok.inj hknown, hsize]
  | error fault =>
    rw [hfound] at hknown
    exact absurd hknown (by simp [Except.mapError])

end TypeGraph

/-- Whether a member is no bitfield or has as many bits as its entry gives, inside a storage unit of
the size that the entry gives or, if it gives none, of the size of the type. -/
def Member.InUnit (m : Member) (g : TypeGraph) (c : Entry) : Prop :=
  ∀ size, m.bitSize = some size → c.intAttr? Attr.bitSize = .ok (some size) ∧ 0 < size ∧
    ∃ offset unit, m.bitOffset = some offset ∧ 0 ≤ offset ∧ offset + size ≤ unit * 8 ∧
      (c.byteSize? = some unit ∨ c.byteSize? = none ∧ g.SizedAs m.typeRef unit)

/-- Of a member that is no bitfield nothing is asked. -/
theorem Member.inUnit_of_not_bitfield {m : Member} {g : TypeGraph} {c : Entry}
    (h : m.bitSize = none) : m.InUnit g c := by
  intro size hsize
  rw [h] at hsize
  exact absurd hsize (by simp)

/-- A bitfield with a place lies in the storage unit in which it got that. -/
theorem Member.inUnit_of_fieldPlace {g : TypeGraph} {c : Entry} {order : Endianness}
    {name : Option String} {type byteOffset : Int} {given unit? : Option Int} {place : Int × Int}
    (hgiven : c.intAttr? Attr.bitSize = .ok given)
    (hplace : c.fieldPlace order unit? byteOffset (given.getD 0) = .ok place)
    (hunit : ∀ unit ∈ unit?, c.byteSize? = some unit ∨ c.byteSize? = none ∧ g.SizedAs type unit) :
    Member.InUnit ⟨name, type, place.1, some place.2, some (given.getD 0), false⟩ g c := by
  rintro _ ⟨⟩
  obtain ⟨unit, hsome, hstart, hpos, hend⟩ := Entry.within_of_fieldPlace hplace
  refine ⟨?_, hpos, place.2, unit, rfl, hstart, hend, hunit unit hsome⟩
  cases given with
  | none => exact absurd hpos (by simp)
  | some given => exact hgiven

/-- Whether all members of a type are read from entries inside its own and lie in the storage units
of these, if the type is a composite. -/
def TypeNode.FieldsInUnits (node : TypeNode) (store : Store) (target : Target) (g : TypeGraph) :
    Prop :=
  ∀ kind size members isClass, node.body = .composite kind size members isClass →
    ∀ m ∈ members, ∃ e, store.entry? node.ref = some e ∧
      ∃ c ∈ e.children, m.ReadFrom target (e.tag = Tag.unionType) c ∧ m.InUnit g c

theorem TypeNode.FieldsInUnits.of_not_composite {node : TypeNode} {store : Store} {target : Target}
    {g : TypeGraph} (h : node.body.isComposite = false) : node.FieldsInUnits store target g := by
  intro kind size members isClass hbody
  rw [hbody] at h
  exact absurd h (by simp [TypeBody.isComposite])

/-- A base class is no bitfield. -/
theorem Member.ReadFrom.bitSize_of_inheritance {m : Member} {target : Target} {inUnion : Bool}
    {c : Entry} (h : m.ReadFrom target inUnion c) (htag : c.tag = Tag.inheritance) :
    m.bitSize = none := by
  cases h with
  | baseClass | whole => rfl
  | field hmember =>
    rw [htag] at hmember
    exact absurd hmember (by decide)

namespace TypeGraph

open Build

variable {store : Store} {target : Target} {recurse : Recurse} {e c : Entry}
variable {g g' : TypeGraph}

/-- A bitfield that lies in its storage unit goes on doing so: the size of its type stays what it
is. -/
theorem lasting_inUnit (m : Member) (c : Entry) : Lasting fun g => m.InUnit g c := by
  intro g g' hlater h size hsize
  obtain ⟨hbits, hpos, offset, unit, hoffset, hstart, hend, hunit⟩ := h size hsize
  refine ⟨hbits, hpos, offset, unit, hoffset, hstart, hend, hunit.imp_right fun hunit => ?_⟩
  exact ⟨hunit.1, lasting_sizedAs m.typeRef unit hlater hunit.2⟩

/-- The bitfields of a composite go on lying in their storage units. -/
theorem lasting_fieldsInUnits (node : TypeNode) :
    Lasting fun g => node.FieldsInUnits store target g := by
  intro g g' hlater h kind size members isClass hbody m hm
  obtain ⟨e, he, c, hc, hread, hunit⟩ := h kind size members isClass hbody m hm
  exact ⟨e, he, c, hc, hread, lasting_inUnit m c hlater hunit⟩

section Members

variable (hrec : ∀ ref usedBy, Grows (recurse ref usedBy))

include hrec in
/-- A base class becomes a member that is no bitfield. -/
theorem yields_buildBaseClass (inUnion : Bool) (htag : c.tag = Tag.inheritance) :
    Yields Keyed (buildBaseClass recurse c) fun found g =>
      g.Keyed ∧ ∀ m ∈ found, m.ReadFrom target inUnion c ∧ m.InUnit g c := by
  have hcourse : Courses recurse (fun _ => True) (buildBaseClass recurse c) :=
    courses_buildBaseClass fun _ _ => trivial
  have hkeyed := preserves_of_courses (fun ref usedBy => (hrec ref usedBy).keyed) hcourse
  have hread : Returns (buildBaseClass recurse c) fun found =>
      ∀ m ∈ found, m.ReadFrom target inUnion c := returns_buildBaseClass inUnion htag
  refine (hkeyed.yields.and hread.yields).post fun found g h => ⟨h.1, fun m hm => ⟨h.2 m hm, ?_⟩⟩
  exact Member.inUnit_of_not_bitfield ((h.2 m hm).bitSize_of_inheritance htag)

include hrec in
/-- The member that an entry describes lies in the storage unit that the entry gives. -/
theorem yields_buildMember (inUnion : Bool) :
    Yields Keyed (buildMember recurse target inUnion c) fun found g =>
      g.Keyed ∧ ∀ m ∈ found, m.InUnit g c := by
  have hnone : Yields Keyed (pure none : Build (Option Member)) fun found g =>
      g.Keyed ∧ ∀ m ∈ found, m.InUnit g c :=
    yields_pure fun g hg => ⟨hg, by simp⟩
  -- only bitfields have a unit to lie in
  have hwhole : ∀ m : Member, m.bitSize = none →
      Yields Keyed (pure (some m) : Build (Option Member)) fun found g =>
        g.Keyed ∧ ∀ m ∈ found, m.InUnit g c := by
    refine fun m hm => yields_pure fun g hg => ⟨hg, ?_⟩
    rintro _ ⟨⟩
    exact Member.inUnit_of_not_bitfield hm
  unfold buildMember
  split
  · exact hnone
  split
  · exact hnone
  rename_i type htype
  refine (hrec _ _).keyed.yields.bind fun _ => ?_
  refine .value (preserves_of_glances (glances_ofExcept (blames_byteOffsetOf c))) returns_any
    fun offset _ => ?_
  extract_lets start
  split
  · exact hnone
  · refine .value (preserves_of_glances (glances_ofExcept (c.blames_intAttr? _)))
      (returns_ofExcept _) fun given hgiven => ?_
    extract_lets size jp
    -- the unit is that of the entry, or has the size of the type as the graph knows it by then
    have hjp : ∀ unit? : Option Int, Yields
        (fun g => g.Keyed ∧ ∀ unit ∈ unit?,
          c.byteSize? = some unit ∨ c.byteSize? = none ∧ g.SizedAs type unit)
        (jp unit?) fun found g => g.Keyed ∧ ∀ m ∈ found, m.InUnit g c := by
      intro unit?
      refine .value (preserves_of_glances (glances_ofExcept (c.blames_fieldPlace _ _ _ _)))
        (returns_ofExcept _) fun place hplace => yields_pure ?_
      rintro g ⟨hg, hunit⟩
      refine ⟨hg, ?_⟩
      rintro _ ⟨⟩
      exact Member.inUnit_of_fieldPlace hgiven hplace hunit
    split
    · rename_i unit hunit
      refine (yields_pure fun g hg => ⟨hg, ?_⟩).bind hjp
      rintro _ ⟨⟩
      exact .inl hunit
    · rename_i hunit
      exact ((yields_sizeSoFar type).post fun unit? g hg =>
        ⟨hg.1, fun unit h => .inr ⟨hunit, hg.2 unit h⟩⟩).bind hjp
  · exact hwhole _ rfl
  · refine (preserves_of_glances glances_graph).yields.bind fun g => ?_
    refine (preserves_of_glances (glances_ofDangling _)).yields.bind fun node => ?_
    split
    · exact hwhole _ rfl
    · exact hnone

include hrec in
/-- Each member of a composite is read from one of its children and lies in the storage unit of that
child. -/
theorem yields_buildMembers (inUnion : Bool) (es : List Entry) :
    Yields Keyed (buildMembers recurse target inUnion es) fun members g =>
      g.Keyed ∧ ∀ m ∈ members, ∃ c ∈ es, m.ReadFrom target inUnion c ∧ m.InUnit g c := by
  induction es with
  | nil => exact yields_pure fun g hg => ⟨hg, by simp⟩
  | cons c es ih =>
    unfold buildMembers
    extract_lets jp
    have hjp : ∀ found : Option Member, Yields
        (fun g => g.Keyed ∧ ∀ m ∈ found, m.ReadFrom target inUnion c ∧ m.InUnit g c) (jp found)
        fun members g => g.Keyed ∧
          ∀ m ∈ members, ∃ c' ∈ c :: es, m.ReadFrom target inUnion c' ∧ m.InUnit g c' := by
      intro found
      -- the graph grows while the rest of the members is read, which keeps this one in its unit
      have hlasting : Lasting fun g =>
          ∀ m ∈ found, m.ReadFrom target inUnion c ∧ m.InUnit g c :=
        fun hlater h m hm => ⟨(h m hm).1, lasting_inUnit m c hlater (h m hm).2⟩
      have hrest := (preserves_buildMembers
        (fun ref usedBy => (hrec ref usedBy).preserves hlasting) target inUnion es).yields.and
          (ih.pre fun g hg => hg.1)
      refine hrest.bind fun rest => yields_pure ?_
      rintro g ⟨⟨hg, hfound⟩, -, hrest⟩
      refine ⟨hg, fun m hm => ?_⟩
      rcases List.mem_append.1 hm with hm | hm
      · exact ⟨c, List.mem_cons_self, hfound m (Option.mem_toList.1 hm)⟩
      · obtain ⟨c', hc', hm⟩ := hrest m hm
        exact ⟨c', List.mem_cons_of_mem _ hc', hm⟩
    split
    · rename_i htag
      -- that the member is read from the entry and that it lies in its unit are known separately
      refine (((yields_buildMember hrec inUnion).and
        (returns_buildMember inUnion htag).yields).post ?_).bind hjp
      rintro found g ⟨⟨hg, hunit⟩, hread⟩
      exact ⟨hg, fun m hm => ⟨hread m hm, hunit m hm⟩⟩
    · split
      · rename_i htag
        exact (yields_buildBaseClass hrec inUnion htag).bind hjp
      · exact (yields_pure fun g hg => ⟨hg, by simp⟩).bind hjp

end Members

-- ---------------------------------------------------------------------------
-- Graphs
-- ---------------------------------------------------------------------------

/-- Whether all members of all composites in a graph lie in their storage units. -/
structure FieldsInUnits (store : Store) (target : Target) (g : TypeGraph) : Prop where
  keyed : g.Keyed
  node : ∀ {ref node}, g.nodes.get? ref = some node → node.FieldsInUnits store target g

theorem fieldsInUnits_empty : empty.FieldsInUnits store target where
  keyed := keyed_empty
  node h := by cases h

/-- A graph that has grown keeps its bitfields in their units if the new nodes do. -/
theorem FieldsInUnits.grow (h : g.FieldsInUnits store target) (hlater : Later g g')
    (hnew : ∀ ref node, g'.nodes.get? ref = some node →
      g.nodes.get? ref = some node ∨ node.FieldsInUnits store target g') :
    g'.FieldsInUnits store target where
  keyed := hlater.last
  node hnode := (hnew _ _ hnode).elim
    (fun hold => lasting_fieldsInUnits _ hlater (h.node hold)) id

/-- One more node keeps the bitfields in their units if its own are. -/
theorem FieldsInUnits.insert (h : g.FieldsInUnits store target) (node : TypeNode)
    (hlater : Later g { g with nodes := g.nodes.insert node.ref node })
    (hnode : node.FieldsInUnits store target { g with nodes := g.nodes.insert node.ref node }) :
    ({ g with nodes := g.nodes.insert node.ref node } : TypeGraph).FieldsInUnits store target := by
  refine h.grow hlater fun ref found hfound => ?_
  rw [OrderedMap.get?_insert] at hfound
  split at hfound
  · obtain rfl := Option.some.inj hfound
    exact .inr hnode
  · exact .inl hfound

theorem ignoresFaults_fieldsInUnits : IgnoresFaults (FieldsInUnits store target) :=
  fun g _ hg => hg.grow (ignoresFaults_later g _ (.refl hg.keyed)) fun _ _ => .inl

/-- Whatever an entry adds, but for a composite with members, has no bitfields. -/
theorem allows_fieldsInUnits (e : Entry) :
    Allows (FieldsInUnits store target) store target e where
  faults := ignoresFaults_fieldsInUnits
  node hg hadds hadd := by
    have hlater := (Later.refl hg.keyed).apply (.addNode _) hadd
    obtain ⟨-, -, rfl⟩ := addNode_eq_ok hadd
    exact hg.insert _ hlater (.of_not_composite hadds.not_composite)
  synonym hg _ hadd := by
    refine hg.grow ((Later.refl hg.keyed).apply (.addAlias _ _ _) hadd) ?_
    obtain ⟨-, hnodes, -⟩ := addAlias_eq_ok hadd
    exact fun _ _ hnode => .inl (hnodes ▸ hnode)

theorem FieldsInUnits.discardPlaceholder (hg : g.FieldsInUnits store target) (ref : Int) :
    (g.discardPlaceholder ref).FieldsInUnits store target := by
  refine hg.grow ((Later.refl hg.keyed).apply (.discardPlaceholder ref) rfl) ?_
  intro other node hnode
  rw [get?_discardPlaceholder] at hnode
  split at hnode
  · cases hnode
  · exact .inl hnode

/-- The body of a composite puts its bitfields into their units and leaves all others there. -/
theorem fieldsInUnits_buildBody (hrec : ∀ ref usedBy, Grows (recurse ref usedBy))
    (hkeeps : ∀ ref usedBy, Preserves (FieldsInUnits store target) (recurse ref usedBy))
    (he : store.entry? e.ref = some e) :
    Preserves (FieldsInUnits store target) (buildBody recurse target e) := by
  refine preserves_buildBody hkeeps
    ((yields_buildMembers hrec _ e.children).pre fun g hg => hg.keyed)
    (fun {g g'} hg hadd => ?_) (fun {g g' size members} hg hmembers hfill => ?_)
    (fun hg => hg.discardPlaceholder e.ref)
  · have hlater := (Later.refl hg.keyed).apply (.addPlaceholder _) hadd
    obtain ⟨-, rfl⟩ := addPlaceholder_eq_ok hadd
    exact hg.insert (placeholder e.ref) hlater (.of_not_composite rfl)
  · have hlater := (Later.refl hg.keyed).apply (.fillPlaceholder _) hfill
    obtain ⟨-, rfl⟩ := fillPlaceholder_eq_ok hfill
    refine hg.insert _ hlater (lasting_fieldsInUnits _ hlater ?_)
    rintro _ _ _ _ ⟨⟩ m hm
    exact ⟨e, he, hmembers.2 m hm⟩

/-- In a graph that was built all bitfields lie in their storage units. -/
theorem fieldsInUnits_buildWithin (store : Store) (depth : Nat) (target : Target) :
    (buildWithin depth target store).FieldsInUnits store target := by
  -- that graphs grow is known of all depths by now, so that the induction is on the fields alone
  refine buildWithin_induction fieldsInUnits_empty
    (preserves_buildRef ignoresFaults_fieldsInUnits target (fun depth e hkeeps he => ?_) depth)
  exact preserves_buildEntry (allows_fieldsInUnits e) hkeeps fun _ _ =>
    fieldsInUnits_buildBody (grows_buildRef store target depth) hkeeps he

/-- Every member of a composite that a reference resolves to is read from an entry and lies in the
storage unit of that, if it is a bitfield. -/
theorem inUnit_of_resolve {ref : Int} {node : TypeNode} {kind : CompositeKind} {size : Option Int}
    {members : List Member} {isClass : Bool} {m : Member}
    (h : (build target store).resolve ref = .ok node)
    (hbody : node.body = .composite kind size members isClass) (hm : m ∈ members) :
    ∃ e, store.entry? e.ref = some e ∧ ∃ c ∈ e.children,
      m.ReadFrom target (e.tag = Tag.unionType) c ∧ m.InUnit (build target store) c := by
  obtain ⟨hget, -⟩ := resolve_eq_ok.1 h
  obtain ⟨canonical, -, hnode⟩ := get_eq_ok hget
  obtain ⟨e, he, hread⟩ :=
    (fieldsInUnits_buildWithin store _ target).node hnode kind size members isClass hbody m hm
  rw [← Store.entry?_ref he] at he
  exact ⟨e, he, hread⟩

end TypeGraph

end DebugLayout
