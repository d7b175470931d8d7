import DebugLayout.Proofs.TypeGraph.Chain
import DebugLayout.Proofs.TypeGraph.Preserves

/-!
# DebugLayout — what types are read as

The node of a type says what its entry says. This module tells for every kind of entry what the node
is, as far as it does not depend on the state of the graph: the members of a composite are those of
its entry, and bitfields have a place in their storage unit; a pointer to a function has a target
that is one, once typedefs and qualifiers are taken off; and the types that a signature names are
there as entries.

This is also all that an invariant of the building has to allow for: the nodes and aliases that an
entry **adds**, and a composite that is filled with its members.

* `Store.Bare`: types without their typedefs and qualifiers;
* `Member.ReadFrom`, `TypeBody.ReadFrom`: members and types, and the entries they are read from;
* `TypeGraph.returns_buildMembers`, `returns_parametersOf`, `returns_peel`: what the parts of the
  building return;
* `TypeGraph.Adds`, `Allows`, `preserves_buildEntry`: what an entry adds, and what the building of
  it keeps;
* `TypeGraph.ReadFrom`, `readFrom_buildWithin`: every type of a graph that was built has been read
  from its entry.
-/

namespace DebugLayout

/-- The types that the entry of a signature names: that of the result, and those of the
parameters. -/
def Entry.signatureTypes (e : Entry) : List Int :=
  e.typeRef?.toList ++ (e.children.filter (·.tag = Tag.formalParameter)).filterMap Entry.typeRef?

/-- What is left of a type once typedefs and qualifiers are taken off. -/
inductive Store.Bare (store : Store) : Int → Entry → Prop
  | last {ref : Int} {e : Entry} (he : store.entry? ref = some e) (htag : e.tag.isAlias = false) :
      Bare store ref e
  | step {ref target : Int} {e last : Entry} (he : store.entry? ref = some e)
      (htag : e.tag.isAlias = true) (htype : e.typeRef? = some target)
      (hrest : Bare store target last) : Bare store ref last

/-- How a member is read from an entry inside a composite. -/
inductive Member.ReadFrom (target : Target) (inUnion : Bool) (c : Entry) : Member → Prop
  | baseClass {type offset : Int} (htag : c.tag = Tag.inheritance) (htype : c.typeRef? = some type)
      (hoffset : TypeGraph.byteOffsetOf c = .ok offset) :
      ReadFrom target inUnion c ⟨none, type, offset, none, none, true⟩
  | whole {type offset : Int} (htag : c.tag = Tag.member) (htype : c.typeRef? = some type)
      (hoffset : TypeGraph.byteOffsetOf c = .ok offset) :
      ReadFrom target inUnion c
        ⟨c.name?, type, if inUnion then 0 else offset, none, none, false⟩
  | field {type offset size : Int} {unitSize : Option Int} {place : Int × Int}
      (htag : c.tag = Tag.member) (htype : c.typeRef? = some type)
      (hoffset : TypeGraph.byteOffsetOf c = .ok offset)
      (hplace : c.fieldPlace target.endianness unitSize (if inUnion then 0 else offset) size =
        .ok place) :
      ReadFrom target inUnion c ⟨c.name?, type, place.1, some place.2, some size, false⟩

/-- How a type is read from an entry. -/
inductive TypeBody.ReadFrom (store : Store) (target : Target) (e : Entry) : TypeBody → Prop
  | void (htag : e.tag.isAlias = true) (htype : e.typeRef? = none) : ReadFrom store target e .void
  | pointer {isFunction : Bool} (htag : e.tag.isPointer = true)
      (hfunction : isFunction = true → ∃ pointee last, e.typeRef? = some pointee ∧
        store.Bare pointee last ∧ last.tag = Tag.subroutineType) :
      ReadFrom store target e (.pointer e.typeRef? (e.byteSize?.getD target.pointerWidth) isFunction
        (e.tag ≠ Tag.pointerType))
  | composite {size : Option Int} {members : List Member} (htag : e.tag.isComposite = true)
      (hcompletion : store.completion? e = none)
      (hmembers : ∀ m ∈ members, ∃ c ∈ e.children,
        m.ReadFrom target (e.tag = Tag.unionType) c) :
      ReadFrom store target e (.composite (if e.tag = Tag.unionType then .union else .struct) size
        members (e.tag = Tag.classType))
  | scalar {encoding : Option Encoding} {size : Int} (htag : e.tag = Tag.baseType)
      (hsize : e.byteSize? = some size) (hencoding : TypeGraph.encodingOf e = .ok encoding) :
      ReadFrom store target e (.scalar encoding size (dataTypeOf encoding size))
  | enum {size : Int} {type : DataType} {enumerators : List (String × Int)}
      (htag : e.tag = Tag.enumerationType)
      (henumerators : TypeGraph.enumeratorsOf e.children = .ok enumerators) :
      ReadFrom store target e (.enum size type enumerators)
  | array {element : Int} {dims : List Int} {stride : Option Int} (htag : e.tag = Tag.arrayType)
      (helement : e.typeRef? = some element) :
      ReadFrom store target e (.array element dims stride e.byteSize?)
  | signature (htag : e.tag = Tag.subroutineType)
      (hnamed : ∀ type ∈ e.signatureTypes, ∃ named, store.entry? type = some named) :
      ReadFrom store target e (.signature e.typeRef?
        ((e.children.filter (·.tag = Tag.formalParameter)).filterMap Entry.typeRef?)
        (e.children.any (·.tag = Tag.unspecifiedParameters)))
  | unspecified (halias : e.tag.isAlias = false) (hcomposite : e.tag.isComposite = false)
      (hsignature : e.tag ≠ Tag.subroutineType) :
      ReadFrom store target e (.unspecified e.byteSize?)

/-- Where a bitfield has a place, its unit has a size and holds all of its bits. -/
theorem Entry.within_of_fieldPlace {c : Entry} {order : Endianness} {unitSize : Option Int}
    {byteOffset size : Int} {place : Int × Int}
    (h : c.fieldPlace order unitSize byteOffset size = .ok place) :
    ∃ unit, unitSize = some unit ∧ 0 ≤ place.2 ∧ 0 < size ∧ place.2 + size ≤ unit * 8 := by
  unfold fieldPlace at h
  split at h
  · exact absurd h (by simp)
  · exact absurd h (by simp)
  · rename_i unit _
    split at h
    · exact absurd h (by simp)
    · dsimp only at h
      split at h
      · exact absurd h (by simp)
      · obtain rfl := Except.ok.inj h
        exact ⟨unit, rfl, by omega, by omega, by omega⟩

/-- A bitfield that was read takes some bits, and has a place. -/
theorem Member.ReadFrom.field_place {target : Target} {inUnion : Bool} {c : Entry} {m : Member}
    {size : Int} (h : m.ReadFrom target inUnion c) (hsize : m.bitSize = some size) :
    0 < size ∧ ∃ offset, m.bitOffset = some offset ∧ 0 ≤ offset := by
  cases h with
  | baseClass | whole => exact absurd hsize (by simp)
  | @field _ _ _ _ place _ _ _ hplace =>
    obtain rfl := Option.some.inj hsize
    obtain ⟨-, -, hoffset, hpos, -⟩ := Entry.within_of_fieldPlace hplace
    exact ⟨hpos, place.2, rfl, hoffset⟩

/-- What an entry for a typedef or a qualified type is read as is no type that it stands for. -/
theorem TypeBody.ReadFrom.typeRef?_of_isAlias {store : Store} {target : Target} {e : Entry}
    {body : TypeBody} (h : body.ReadFrom store target e) (halias : e.tag.isAlias = true) :
    e.typeRef? = none := by
  cases h with
  | void _ htype => exact htype
  | pointer htag =>
    -- each body belongs to its own tags
    rw [Tag.isAlias_of_isPointer htag] at halias
    exact absurd halias (by decide)
  | composite htag =>
    rw [Tag.isAlias_of_isComposite htag] at halias
    exact absurd halias (by decide)
  | scalar htag | enum htag | array htag | signature htag =>
    rw [htag] at halias
    exact absurd halias (by decide)
  | unspecified hother =>
    rw [hother] at halias
    exact absurd halias (by decide)

/-- The entry of a function is read as a signature, so that all types that it names have entries. -/
theorem TypeBody.ReadFrom.exists_named {store : Store} {target : Target} {e : Entry}
    {body : TypeBody} (h : body.ReadFrom store target e) (htag : e.tag = Tag.subroutineType) :
    ∀ type ∈ e.signatureTypes, ∃ named, store.entry? type = some named := by
  cases h with
  | signature _ hnamed => exact hnamed
  | void hother | pointer hother | composite hother | scalar hother | enum hother | array hother =>
    rw [htag] at hother
    exact absurd hother (by decide)
  | unspecified _ _ hother => exact absurd htag hother

namespace TypeGraph

open Build

variable {store : Store} {target : Target} {e : Entry} {recurse : Recurse} {g g' : TypeGraph}

-- ---------------------------------------------------------------------------
-- What the parts of the building return
-- ---------------------------------------------------------------------------

/-- The member that a base class becomes is read from the entry of the base class. -/
theorem returns_buildBaseClass {c : Entry} (inUnion : Bool) (htag : c.tag = Tag.inheritance) :
    Returns (buildBaseClass recurse c) fun found => ∀ m ∈ found, m.ReadFrom target inUnion c := by
  unfold buildBaseClass
  split
  · exact returns_pure (by simp)
  · rename_i type htype
    refine returns_andThen fun _ => returns_andThen fun g => returns_andThen fun node => ?_
    split
    · refine (returns_ofExcept _).bind fun offset hoffset => returns_pure ?_
      rintro _ ⟨⟩
      exact .baseClass htag htype hoffset
    · refine (returns_ofExcept _).bind fun offset hoffset => returns_pure ?_
      rintro _ ⟨⟩
      exact .baseClass htag htype hoffset
    · exact returns_pure (by simp)

/-- The member that an entry describes is read from that entry. -/
theorem returns_buildMember {c : Entry} (inUnion : Bool) (htag : c.tag = Tag.member) :
    Returns (buildMember recurse target inUnion c) fun found =>
      ∀ m ∈ found, m.ReadFrom target inUnion c := by
  unfold buildMember
  split
  · exact returns_pure (by simp)
  split
  · exact returns_pure (by simp)
  rename_i type htype
  refine returns_andThen fun _ => (returns_ofExcept _).bind fun offset hoffset => ?_
  extract_lets start
  split
  · exact returns_pure (by simp)
  · rename_i name hname
    refine returns_andThen fun size => ?_
    extract_lets size jp
    -- the storage unit only decides whether there is a place, and the member is read from the place
    have hjp : ∀ unitSize, Returns (jp unitSize) fun found =>
        ∀ m ∈ found, m.ReadFrom target inUnion c := by
      refine fun unitSize => (returns_ofExcept _).bind fun place hplace => returns_pure ?_
      rintro _ ⟨⟩
      rw [← hname]
      exact .field htag htype hoffset hplace
    split
    · exact returns_andThen hjp
    · exact returns_andThen hjp
  · rename_i name hname
    refine returns_pure ?_
    rintro _ ⟨⟩
    rw [← hname]
    exact .whole htag htype hoffset
  · rename_i hname
    refine returns_andThen fun g => returns_andThen fun node => ?_
    split
    · refine returns_pure ?_
      rintro _ ⟨⟩
      rw [← hname]
      exact .whole htag htype hoffset
    · exact returns_pure (by simp)

/-- Every member is read from one of the entries. -/
theorem returns_buildMembers (inUnion : Bool) (es : List Entry) :
    Returns (buildMembers recurse target inUnion es) fun members =>
      ∀ m ∈ members, ∃ c ∈ es, m.ReadFrom target inUnion c := by
  induction es with
  | nil => exact returns_pure (by simp)
  | cons c es ih =>
    unfold buildMembers
    extract_lets jp
    -- the first member is read from the first child and the others from the others
    have hjp : ∀ found : Option Member, (∀ m ∈ found, m.ReadFrom target inUnion c) →
        Returns (jp found) fun members =>
          ∀ m ∈ members, ∃ c' ∈ c :: es, m.ReadFrom target inUnion c' := by
      refine fun found hfound => ih.bind fun rest hrest => returns_pure fun m hm => ?_
      rcases List.mem_append.1 hm with hm | hm
      · exact ⟨c, List.mem_cons_self, hfound m (Option.mem_toList.1 hm)⟩
      · obtain ⟨c', hc', hread⟩ := hrest m hm
        exact ⟨c', List.mem_cons_of_mem _ hc', hread⟩
    split
    · rename_i htag
      exact (returns_buildMember inUnion htag).bind hjp
    · split
      · rename_i htag
        exact (returns_buildBaseClass inUnion htag).bind hjp
      · exact (returns_pure (R := fun found => ∀ m ∈ found, m.ReadFrom target inUnion c)
          (by simp)).bind hjp

/-- The types of the parameters are those that the entries name, and they all exist. -/
theorem returns_parametersOf (es : List Entry) :
    Returns (parametersOf store es) fun types =>
      types = (es.filter (·.tag = Tag.formalParameter)).filterMap Entry.typeRef? ∧
        ∀ type ∈ types, ∃ named, store.entry? type = some named := by
  induction es with
  | nil => exact returns_pure ⟨rfl, by simp⟩
  | cons c es ih =>
    unfold parametersOf
    split
    · rename_i htag
      rw [List.filter_cons_of_pos (by simpa using htag)]
      split
      · rename_i htype
        -- a parameter without a type is passed over
        rw [List.filterMap_cons_none htype]
        exact ih
      · rename_i type htype
        rw [List.filterMap_cons_some htype]
        have hfound : Returns (discard (entry store type (some c.ref))) fun _ =>
            ∃ named, store.entry? type = some named :=
          (returns_entry type _).map fun named hnamed => ⟨named, hnamed⟩
        refine hfound.bind fun _ hnamed => ih.bind fun types htypes => returns_pure ?_
        obtain ⟨rfl, hrest⟩ := htypes
        exact ⟨rfl, List.forall_mem_cons.2 ⟨hnamed, hrest⟩⟩
    · rename_i htag
      rw [List.filter_cons_of_neg (by simpa using htag)]
      exact ih

/-- Looking through the names of an entry comes to an entry that is bare of them. -/
theorem returns_peel (steps : Nat) {visited : List Int} {ref : Int}
    (he : store.entry? ref = some e) :
    Returns (peel store steps visited e) fun bare => ∀ last ∈ bare, store.Bare ref last := by
  -- each step looks through one name
  induction steps generalizing visited e ref with
  | zero => exact returns_pure (by simp)
  | succ steps ih =>
    unfold peel
    split
    · rename_i halias
      refine returns_pure ?_
      rintro _ ⟨⟩
      exact .last he (by simpa using halias)
    · rename_i halias
      split
      · exact returns_pure (by simp)
      · split
        · exact returns_pure (by simp)
        · rename_i pointee htype
          refine (returns_entry pointee _).bind fun next hnext => ?_
          intro s bare t hexec last hlast
          exact .step he (by simpa using halias) htype (ih hnext s bare t hexec last hlast)

/-- What is left of a type is a function if the chain from it leads to one. -/
theorem returns_peel_leads {pointee : Int} {pointed : Entry}
    (hpointed : store.entry? pointee = some pointed) :
    Returns (peel store (store.size + 1) [] pointed) fun bare => store.Distinct →
      ∀ passed last, store.Leads pointee passed last →
        (bare.any (·.tag = Tag.subroutineType) = true ↔ last.tag = Tag.subroutineType) :=
  fun _ _ _ hexec hdistinct _ _ hleads => any_bare_iff hdistinct hleads hpointed hexec

-- ---------------------------------------------------------------------------
-- What the building keeps
-- ---------------------------------------------------------------------------

/-- What is added to a graph as the node of an entry, other than that of a composite with members:
what is read from the entry, under its name if that is a typedef. In a store without references that
are given twice, a pointer is one to a function exactly if the chain from its target leads to
one. -/
structure Adds (store : Store) (target : Target) (e : Entry) (name : Option String)
    (body : TypeBody) : Prop where
  read : body.ReadFrom store target e
  not_composite : body.isComposite = false
  name : ∀ own, e.typedefName? = some own → name = some own
  function : store.Distinct → ∀ pointee size isFunction isReference,
    body = .pointer (some pointee) size isFunction isReference →
    ∀ passed last, store.Leads pointee passed last →
      (isFunction = true ↔ last.tag = Tag.subroutineType)

/-- An entry other than a typedef and a pointer adds what is read from it. -/
theorem Adds.of_ordinary {name : Option String} {body : TypeBody}
    (hread : body.ReadFrom store target e) (halias : e.tag.isAlias = false)
    (hcomposite : body.isComposite = false)
    (hpointer : ∀ pointee size isFunction isReference,
      body ≠ .pointer pointee size isFunction isReference) :
    Adds store target e name body where
  read := hread
  not_composite := hcomposite
  name own h := by
    rw [Entry.typedefName?_of_isAlias halias] at h
    exact absurd h (by simp)
  function _ _ _ _ _ h := absurd h (hpointer _ _ _ _)

/-- Whether a property of graphs allows for what an entry adds, be it a node or an alias. -/
structure Allows (I : TypeGraph → Prop) (store : Store) (target : Target) (e : Entry) : Prop where
  faults : IgnoresFaults I
  node : ∀ {g g' : TypeGraph} {name : Option String} {body : TypeBody}, I g →
    Adds store target e name body → g.addNode ⟨e.ref, name, body⟩ = .ok g' → I g'
  synonym : ∀ {g g' : TypeGraph} {aim : Int}, I g → store.standsFor? e = some aim →
    g.addAlias e.ref aim e.typedefName? = .ok g' → I g'

section Builders

variable {I : TypeGraph → Prop}
variable (hI : Allows I store target e) (hrec : ∀ ref usedBy, Preserves I (recurse ref usedBy))

include hI in
/-- What allows for the node of an entry is kept when the node is added. -/
theorem preserves_addNode {name : Option String} {body : TypeBody}
    (hadds : Adds store target e name body) :
    Preserves I (update (·.addNode ⟨e.ref, name, body⟩)) :=
  preserves_update fun _ _ hg hadd => hI.node hg hadds hadd

include hI in
/-- What allows for the alias of an entry is kept when the alias is added. -/
theorem preserves_addAlias {aim : Int} (hstands : store.standsFor? e = some aim) :
    Preserves I (update (·.addAlias e.ref aim e.typedefName?)) :=
  preserves_update fun _ _ hg hadd => hI.synonym hg hstands hadd

include hI hrec in
theorem preserves_buildAlias (htag : e.tag.isAlias = true) :
    Preserves I (buildAlias recurse e) := by
  unfold buildAlias
  extract_lets name
  split
  · rename_i htype
    refine preserves_addNode hI
      { read := .void htag htype
        not_composite := rfl
        name := fun own hown => ?_
        function := fun _ _ _ _ _ h => absurd h (by simp) }
    have hname : name = some own := hown
    rw [hname]
    rfl
  · rename_i aim htype
    have hstands : store.standsFor? e = some aim := (Store.standsFor?_of_isAlias htag).trans htype
    -- the alias is added in the end, whether or not the round was noticed before
    have hbuild : Preserves I _ :=
      preserves_following e.ref (hrec aim (some e.ref)) (preserves_addAlias hI hstands)
    refine preserves_getThe.bind fun s => ?_
    split
    · exact (preserves_dangling hI.faults _ _).bind fun _ => hbuild
    · exact hbuild

include hI in
theorem preserves_buildPointer (htag : e.tag.isPointer = true) :
    Preserves I (buildPointer store target e) := by
  have hunnamed : e.typedefName? = none :=
    Entry.typedefName?_of_isAlias (Tag.isAlias_of_isPointer htag)
  unfold buildPointer
  extract_lets size jp
  -- what is left is whether the pointer is one to a function, and both sides of that are asked for
  have hjp : ∀ isFunction : Bool,
      (isFunction = true → ∃ pointee last,
        e.typeRef? = some pointee ∧ store.Bare pointee last ∧ last.tag = Tag.subroutineType) →
      (store.Distinct → ∀ pointee, e.typeRef? = some pointee → ∀ passed last,
        store.Leads pointee passed last → (isFunction = true ↔ last.tag = Tag.subroutineType)) →
      Preserves I (jp isFunction) := by
    refine fun isFunction hfunction hleads => preserves_addNode hI
      { read := .pointer htag hfunction
        not_composite := rfl
        name := fun own h => absurd (hunnamed.symm.trans h) (by simp)
        function := fun hdistinct pointee _ _ _ h => ?_ }
    obtain ⟨htype, -, rfl, -⟩ := TypeBody.pointer.inj h
    exact hleads hdistinct pointee htype
  split
  · rename_i htype
    -- a pointer to nothing is none to a function
    refine (preserves_pure false).bind_returns (returns_pure rfl) fun isFunction hfalse =>
      hjp _ ?_ ?_
    · exact fun htrue => absurd (hfalse.trans htrue) (by decide)
    · exact fun _ pointee h => absurd (htype.symm.trans h) (by simp)
  · rename_i pointee htype
    refine (preserves_of_looksUp hI.faults (looksUp_entry _ _)).bind_returns
      (returns_entry pointee _) fun pointed hpointed => ?_
    refine (preserves_of_looksUp hI.faults (looksUp_peel _ _ _)).bind_returns
      ((returns_peel _ hpointed).and (returns_peel_leads hpointed)) fun bare hbare => ?_
    refine (preserves_pure _).bind_returns (returns_pure rfl) fun isFunction hany => hjp _ ?_ ?_
    · intro htrue
      rw [← hany, Option.any_eq_true] at htrue
      obtain ⟨last, hlast, hlastTag⟩ := htrue
      exact ⟨pointee, last, htype, hbare.1 last hlast, by simpa using hlastTag⟩
    · intro hdistinct other hother passed last hleads
      obtain rfl := Option.some.inj (htype.symm.trans hother)
      rw [← hany]
      exact hbare.2 hdistinct passed last hleads

include hI in
/-- What allows for base types is kept by the building of one. -/
theorem preserves_buildBaseType (htag : e.tag = Tag.baseType) : Preserves I (buildBaseType e) := by
  unfold buildBaseType
  split
  · exact preserves_throw _
  · rename_i size hsize
    refine (preserves_of_glances (glances_ofExcept (blames_encodingOf e))).bind_returns
      (returns_ofExcept _) fun encoding hencoding => ?_
    exact preserves_addNode hI
      (.of_ordinary (.scalar htag hsize hencoding) (by rw [htag]; decide) rfl (by simp))

include hI hrec in
/-- What allows for enumerations is kept by the building of one. -/
theorem preserves_buildEnum (htag : e.tag = Tag.enumerationType) :
    Preserves I (buildEnum recurse e) := by
  unfold buildEnum
  refine (preserves_of_glances (glances_ofExcept (blames_enumeratorsOf _))).bind_returns
    (returns_ofExcept _) fun enumerators henumerators => ?_
  extract_lets jp
  -- the node is the same whatever the underlying type is found to be
  have hjp : ∀ underlying, Preserves I (jp underlying) := by
    rintro ⟨underlying, size⟩
    dsimp only [jp]
    split
    · exact preserves_throw _
    · refine (preserves_of_glances (glances_ofExcept (blames_enumDataType _ _ _ _))).bind
        fun type => ?_
      exact preserves_addNode hI
        (.of_ordinary (.enum htag henumerators) (by rw [htag]; decide) rfl (by simp))
  split
  · exact (preserves_pure _).bind hjp
  · refine (hrec _ _).bind fun _ => (preserves_of_glances glances_graph).bind fun g => ?_
    exact (preserves_of_glances (glances_ofDangling _)).bind fun node => (preserves_pure _).bind hjp

include hI hrec in
theorem preserves_buildArray (htag : e.tag = Tag.arrayType) :
    Preserves I (buildArray recurse e) := by
  unfold buildArray
  split
  · exact preserves_throw _
  · rename_i element htype
    refine (hrec _ _).bind fun _ => ?_
    refine (preserves_of_glances (glances_ofExcept (blames_dimensionsOf e))).bind fun dims => ?_
    extract_lets jp
    -- the node refers to the element type of the entry
    have hadd : ∀ explicit stride, Preserves I (update (·.addNode ⟨e.ref, e.name?,
        .array element (completeDims dims stride e.byteSize?) explicit e.byteSize?⟩)) :=
      fun explicit stride => preserves_addNode hI
        (.of_ordinary (.array htag htype) (by rw [htag]; decide) rfl (by simp))
    have hjp : ∀ explicit, Preserves I (jp explicit) := by
      intro explicit
      cases explicit with
      | none => exact (preserves_of_glances (glances_sizeSoFar _)).bind (hadd none)
      | some stride => exact (preserves_pure _).bind (hadd (some stride))
    split
    · exact (preserves_pure _).bind hjp
    · exact (preserves_of_glances (glances_ofExcept (e.blames_intAttr? _))).bind hjp

include hI in
/-- What allows for types of functions is kept by the building of one. -/
theorem preserves_buildSignature (htag : e.tag = Tag.subroutineType) :
    Preserves I (buildSignature store e) := by
  unfold buildSignature
  extract_lets isVariadic jp
  -- the parameters are looked up after the result, and all of them have entries
  have hjp : ∀ u, (∀ type ∈ e.typeRef?, ∃ named, store.entry? type = some named) →
      Preserves I (jp u) := by
    intro u hresult
    refine (preserves_of_looksUp hI.faults (looksUp_parametersOf _)).bind_returns
      (returns_parametersOf _) fun parameters hparameters => ?_
    obtain ⟨rfl, hparameters⟩ := hparameters
    refine preserves_addNode hI (.of_ordinary (.signature htag fun type htype => ?_)
      (by rw [htag]; decide) rfl (by simp))
    rcases List.mem_append.1 htype with htype | htype
    · exact hresult type (Option.mem_toList.1 htype)
    · exact hparameters type htype
  split
  · rename_i result hresult
    refine (preserves_of_looksUp hI.faults ((looksUp_entry _ _).map _)).bind_returns
      ((returns_entry result _).map (f := fun _ => ()) (Q := fun _ => ∃ named,
        store.entry? result = some named) fun named hnamed => ⟨named, hnamed⟩) fun u hnamed => ?_
    refine hjp u ?_
    rw [hresult]
    rintro _ ⟨⟩
    exact hnamed
  · rename_i hresult
    exact hjp () fun type htype => (hresult type htype).elim

include hrec in
/-- What the building of any type keeps is kept by that of the members of a composite. -/
theorem preserves_buildMembers (target : Target) (inUnion : Bool) (es : List Entry) :
    Preserves I (buildMembers recurse target inUnion es) := by
  have hcourse : Courses recurse (fun _ => True) (buildMembers recurse target inUnion es) :=
    courses_buildMembers target inUnion es fun _ _ _ _ _ => trivial
  exact preserves_of_courses hrec hcourse

include hrec in
/-- A composite keeps what its placeholder keeps and what it keeps to be filled with the members
that are read. -/
theorem preserves_buildBody {R : List Member → TypeGraph → Prop}
    (hmembers : Yields I (buildMembers recurse target (e.tag = Tag.unionType) e.children) R)
    (hplace : ∀ {g g'}, I g → g.addPlaceholder e.ref = .ok g' → I g')
    (hfill : ∀ {g g' size members}, I g → R members g → g.fillPlaceholder ⟨e.ref, e.name?,
      .composite (if e.tag = Tag.unionType then .union else .struct) size members
        (e.tag = Tag.classType)⟩ = .ok g' → I g')
    (hdiscard : ∀ {g}, I g → I (g.discardPlaceholder e.ref)) :
    Preserves I (buildBody recurse target e) := by
  unfold buildBody
  extract_lets inUnion kind
  refine (preserves_update fun g g' hg hadd => hplace hg hadd).bind fun _ => ?_
  refine .tryCatch ?_ fun stop => .bind (fun s hs => hdiscard hs) fun _ => preserves_throw stop
  refine (preserves_buildMembers hrec target _ e.children).bind_yields hmembers
    fun members s hs hread => ?_
  -- the size is looked up without a change, and then the placeholder is filled
  have hfilled : ∀ size, I ((update (·.fillPlaceholder
      ⟨e.ref, e.name?, .composite kind size members (e.tag = Tag.classType)⟩)).exec s).2.graph :=
    fun size => holds_of_update hs fun _ hadd => hfill hs hread hadd
  split
  · exact holds_of_glances (glances_pure _) hs hfilled
  · split
    · exact holds_of_glances (glances_pure _) hs hfilled
    · exact holds_of_glances ((glances_deducedSize _ _ _).map _) hs hfilled

include hI hrec in
/-- The building of an entry keeps what allows for what is read from it, if a composite whose
members are read does. -/
theorem preserves_buildEntry
    (hbody : e.tag.isComposite = true → store.completion? e = none →
      Preserves I (buildBody recurse target e)) :
    Preserves I (buildEntry recurse store target e) := by
  unfold buildEntry
  split
  · exact preserves_buildAlias hI hrec ‹_›
  rename_i halias
  split
  · exact preserves_buildPointer hI ‹_›
  split
  · rename_i htag
    unfold buildComposite
    split
    · rename_i definition hcompletion
      -- a declared composite is added as an alias of its definition
      have hadd := preserves_addAlias hI
        ((Store.standsFor?_of_isComposite htag).trans hcompletion)
      rw [Entry.typedefName?_of_isAlias (Tag.isAlias_of_isComposite htag)] at hadd
      exact (hrec _ _).bind fun _ => hadd
    · rename_i hcompletion
      exact hbody htag hcompletion
  rename_i hcomposite
  split
  · exact preserves_buildBaseType hI ‹_›
  split
  · exact preserves_buildEnum hI hrec ‹_›
  split
  · exact preserves_buildArray hI hrec ‹_›
  split
  · exact preserves_buildSignature hI ‹_›
  · have halias : e.tag.isAlias = false := by simpa using halias
    exact preserves_addNode hI (.of_ordinary
      (.unspecified halias (by simpa using hcomposite) ‹_›) halias rfl (by simp))

end Builders

-- ---------------------------------------------------------------------------
-- Graphs
-- ---------------------------------------------------------------------------

/-- Whether every alias of a graph and every type, other than a placeholder, has been read from its
entry. -/
structure ReadFrom (store : Store) (target : Target) (g : TypeGraph) : Prop where
  synonym : ∀ ref aim, g.aliases.get? ref = some aim →
    ∃ e, store.entry? ref = some e ∧ store.standsFor? e = some aim
  node : ∀ ref node, g.nodes.get? ref = some node → node.isPlaceholder = false →
    ∃ e, store.entry? ref = some e ∧ node.body.ReadFrom store target e

/-- All of an empty graph has been read from the store, there being nothing in it. -/
theorem readFrom_empty : ReadFrom store target .empty where
  synonym _ _ h := absurd h (by simp [empty])
  node _ _ h := absurd h (by simp [empty])

/-- Nodes may go away, and what is on record does not count. -/
theorem ReadFrom.of_nodes (hg : g.ReadFrom store target) (haliases : g'.aliases = g.aliases)
    (hnodes : ∀ ref node, g'.nodes.get? ref = some node → g.nodes.get? ref = some node) :
    g'.ReadFrom store target where
  synonym ref aim h := hg.synonym ref aim (haliases ▸ h)
  node ref node hnode := hg.node ref node (hnodes ref node hnode)

/-- Faults on record are no part of what is read from the entries. -/
theorem ignoresFaults_readFrom : IgnoresFaults (ReadFrom store target) :=
  fun _ _ hg => hg.of_nodes rfl fun _ _ hnode => hnode

/-- A node that is read from its entry may be put into the graph, and so may any placeholder. -/
theorem ReadFrom.insert_node {node : TypeNode} (hg : g.ReadFrom store target)
    (hnode : node.isPlaceholder = false →
      ∃ e, store.entry? node.ref = some e ∧ node.body.ReadFrom store target e) :
    ({ g with nodes := g.nodes.insert node.ref node } : TypeGraph).ReadFrom store target where
  synonym := hg.synonym
  node ref found hfound hreal := by
    rw [OrderedMap.get?_insert] at hfound
    split at hfound
    · rename_i href
      obtain rfl := Option.some.inj hfound
      rw [← href]
      exact hnode hreal
    · exact hg.node ref found hfound hreal

/-- A placeholder may be added: nothing is said of placeholders. -/
theorem ReadFrom.addPlaceholder {ref : Int} (hg : g.ReadFrom store target)
    (h : g.addPlaceholder ref = .ok g') : g'.ReadFrom store target := by
  obtain ⟨-, rfl⟩ := addPlaceholder_eq_ok h
  exact @insert_node _ _ _ (placeholder ref) hg nofun

theorem ReadFrom.discardPlaceholder (hg : g.ReadFrom store target) (ref : Int) :
    (g.discardPlaceholder ref).ReadFrom store target := by
  refine hg.of_nodes discardPlaceholder_aliases fun other node hnode => ?_
  rw [get?_discardPlaceholder] at hnode
  split at hnode
  · exact absurd hnode (by simp)
  · exact hnode

/-- An alias may be added for an entry that stands for its target. -/
theorem ReadFrom.addAlias {ref aim : Int} {name : Option String} (hg : g.ReadFrom store target)
    (he : store.entry? ref = some e) (hstands : store.standsFor? e = some aim)
    (h : g.addAlias ref aim name = .ok g') : g'.ReadFrom store target := by
  obtain ⟨-, hnodes, haliases, -⟩ := addAlias_eq_ok h
  refine ⟨fun other found hfound => ?_, fun other node hnode => hg.node other node (hnodes ▸ hnode)⟩
  rw [haliases, OrderedMap.get?_insert] at hfound
  split at hfound
  · rename_i hsame
    obtain rfl := Option.some.inj hfound
    exact ⟨e, hsame ▸ he, hstands⟩
  · exact hg.synonym other found hfound

/-- Graphs read from the store allow for whatever an entry of the store adds. -/
theorem allows_readFrom (he : store.entry? e.ref = some e) :
    Allows (ReadFrom store target) store target e where
  faults := ignoresFaults_readFrom
  node hg hadds hadd := by
    obtain ⟨-, -, rfl⟩ := addNode_eq_ok hadd
    exact hg.insert_node fun _ => ⟨e, he, hadds.read⟩
  synonym hg hstands hadd := hg.addAlias he hstands hadd

/-- The body of a composite is read from its entry, down to each of its members. -/
theorem readsFrom_buildBody
    (hrec : ∀ ref usedBy, Preserves (ReadFrom store target) (recurse ref usedBy))
    (he : store.entry? e.ref = some e) (htag : e.tag.isComposite = true)
    (hcompletion : store.completion? e = none) :
    Preserves (ReadFrom store target) (buildBody recurse target e) := by
  refine preserves_buildBody hrec (returns_buildMembers _ e.children).yields
    (fun hg hadd => hg.addPlaceholder hadd) (fun {g g' size members} hg hread hfill => ?_)
    (fun hg => hg.discardPlaceholder e.ref)
  obtain ⟨-, rfl⟩ := fillPlaceholder_eq_ok hfill
  exact hg.insert_node fun _ => ⟨e, he, .composite htag hcompletion hread⟩

/-- Every type of a graph that was built has been read from its entry. -/
theorem readFrom_buildWithin (store : Store) (depth : Nat) (target : Target) :
    (buildWithin depth target store).ReadFrom store target :=
  buildWithin_induction readFrom_empty
    (preserves_buildRef ignoresFaults_readFrom target (fun _ _ hrec he =>
      preserves_buildEntry (allows_readFrom he) hrec (readsFrom_buildBody hrec he)) depth)

/-- The node behind every reference that can be resolved has been read from the entry at the end of
its aliases. -/
theorem readFrom_of_resolve {ref : Int} {node : TypeNode}
    (h : (build target store).resolve ref = .ok node) :
    ∃ e, (build target store).canonicalRef ref = .ok e.ref ∧ store.entry? e.ref = some e ∧
      node.body.ReadFrom store target e := by
  obtain ⟨hget, hreal⟩ := resolve_eq_ok.1 h
  obtain ⟨canonical, hcanonical, hnode⟩ := get_eq_ok hget
  obtain ⟨e, he, hread⟩ := (readFrom_buildWithin store _ target).node canonical node hnode hreal
  obtain rfl := Store.entry?_ref he
  exact ⟨e, hcanonical, he, hread⟩

end TypeGraph

end DebugLayout
