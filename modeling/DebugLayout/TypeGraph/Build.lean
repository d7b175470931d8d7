import DebugLayout.Entry.Store
import DebugLayout.Target
import DebugLayout.TypeGraph.Basic
import DebugLayout.TypeGraph.Bitfield

/-!
# DebugLayout — building the type graph

The type graph of a store is built by visiting every type entry in document order. A type is built
when it is first needed, after the types that it contains **by value**: what an alias stands for,
the elements of an array, the underlying type of an enumeration, the members of a composite. A
pointer does not need the type it points to; it is enough that an entry for it exists.

A composite has a placeholder while its members are built, which ends every round of references
through a composite. Rounds of aliases are noticed by keeping track of the aliases that are being
followed. What is left are arrays and enumerations that contain themselves. They have no end, and
are given up at a depth that no other type needs.

A type that cannot be built is left out, together with all that contain it. Why is recorded once in
the faults of the graph, and remembered so that the type is not tried again.

* `TypeGraph.buildRef`: makes sure that one type is in the graph;
* `TypeGraph.buildWithin`, `TypeGraph.build`: the graph of a store.
-/

namespace DebugLayout

/-- Why the building of a type stopped: the type or one that it needs is left out, or its entry
describes no type. -/
inductive BuildStop
  | type (fault : TypeFault)
  | cause (cause : Malformation)
  deriving DecidableEq

/-- What is known while a graph is being built. -/
structure BuildState where
  graph : TypeGraph
  failures : OrderedMap Int TypeFault
  following : List Int

/-- A step of the building, which may stop and then leaves its effects behind. -/
abbrev Build (α : Type) := ExceptT BuildStop (StateM BuildState) α

namespace Build

/-- Looks at the graph. -/
def graph : Build TypeGraph := do return (← get).graph

/-- Stops for a malformation. -/
def ofExcept {α : Type} : Except Malformation α → Build α
  | .ok a => pure a
  | .error cause => throw (.cause cause)

/-- Stops for a reference that leads nowhere, without recording it. -/
def ofDangling {α : Type} : Except Dangling α → Build α
  | .ok a => pure a
  | .error fault => throw (.type (.dangling fault))

/-- Puts the outcome of an operation on the arena in the place of the graph. -/
def update (operation : TypeGraph → Except ArenaFault TypeGraph) : Build Unit := do
  let state ← get
  match operation state.graph with
  | .ok graph => set { state with graph }
  | .error fault => throw (.cause (.arena fault))

/-- Records a fault in the graph. -/
def record (fault : TypeFault) : Build Unit :=
  modify fun state =>
    { state with graph := { state.graph with faults := state.graph.faults ++ [fault] } }

/-- Remembers why a type is left out. -/
def remember (ref : Int) (fault : TypeFault) : Build Unit :=
  modify fun state => { state with failures := state.failures.insert ref fault }

/-- Stops for a reference of an entry that leads nowhere, and records it if it is new. -/
def dangling {α : Type} (ref : Int) (usedBy : Option Int) : Build α := do
  let fault : TypeFault := .dangling ⟨ref, usedBy⟩
  if !(← graph).faults.contains fault then record fault
  throw (.type fault)

/-- The entry of a reference. -/
def entry (store : Store) (ref : Int) (usedBy : Option Int) : Build Entry := do
  match store.resolve? ref with
  | some placed => return placed.entry
  | none => dangling ref usedBy

end Build

namespace TypeGraph

open Build

/-- The size of a type, unless it is unknown or the type is still being read. -/
def sizeSoFar (ref : Int) : Build (Option Int) := do
  let g ← graph
  let node ← ofDangling (g.get ref)
  if node.isPlaceholder then return none
  ofDangling (g.byteSize ref)

/-- How a type that is needed is built: by its reference and the entry that needs it. -/
abbrev Recurse := Int → Option Int → Build Unit

-- ---------------------------------------------------------------------------
-- Aliases and pointers
-- ---------------------------------------------------------------------------

/-- Builds a typedef or a qualified type. One that stands for nothing is void. -/
def buildAlias (recurse : Recurse) (e : Entry) : Build Unit := do
  let name := if e.tag = Tag.typedef then e.name? else none
  match e.typeRef? with
  | none => update (·.addNode ⟨e.ref, some (name.getD "void"), .void⟩)
  | some target =>
    if (← getThe BuildState).following.contains target || target = e.ref then
      dangling target (some e.ref)
    modify fun state => { state with following := state.following.insert e.ref }
    try recurse target (some e.ref)
    finally modify fun state => { state with following := state.following.filter (· ≠ e.ref) }
    update (·.addAlias e.ref target name)

/-- The entry that an entry stands for once typedefs and qualifiers are taken off, in at most so
many steps; none if they stand for nothing or go round. -/
def peel (store : Store) : Nat → List Int → Entry → Build (Option Entry)
  | 0, _, _ => return none
  | steps + 1, visited, e =>
    if !e.tag.isAlias then return some e
    else if visited.contains e.ref then return none
    else match e.typeRef? with
      | none => return none
      | some target => do
        let next ← entry store target (some e.ref)
        peel store steps (e.ref :: visited) next

/-- Builds a pointer or a reference. -/
def buildPointer (store : Store) (target : Target) (e : Entry) : Build Unit := do
  let isFunction ← match e.typeRef? with
    | none => pure false
    | some pointee => do
      let pointed ← entry store pointee (some e.ref)
      let bare ← peel store (store.size + 1) [] pointed
      pure (bare.any (·.tag = Tag.subroutineType))
  let size := e.byteSize?.getD target.pointerWidth
  update (·.addNode ⟨e.ref, e.name?,
    .pointer e.typeRef? size isFunction (e.tag ≠ Tag.pointerType)⟩)

-- ---------------------------------------------------------------------------
-- Base types and enumerations
-- ---------------------------------------------------------------------------

/-- The encoding that an entry gives, if it is a known one. -/
def encodingOf (e : Entry) : Except Malformation (Option Encoding) :=
  match e.attr? Attr.encoding with
  | none => .ok none
  | some v =>
    match v.toInt with
    | .ok code => .ok (Encoding.ofCode? code)
    | .error fault => .error (.notAnInteger fault)

/-- Builds a base type. -/
def buildBaseType (e : Entry) : Build Unit := do
  match e.byteSize? with
  | none => throw (.cause (.noByteSize e.label))
  | some size =>
    let encoding ← ofExcept (encodingOf e)
    update (·.addNode ⟨e.ref, e.name?, .scalar encoding size (dataTypeOf encoding size)⟩)

/-- The enumerators of an enumeration. Those without name or value are passed over. -/
def enumeratorsOf : List Entry → Except Malformation (List (String × Int))
  | [] => .ok []
  | e :: es =>
    if e.tag ≠ Tag.enumerator then enumeratorsOf es
    else match e.name?, e.attr? Attr.constValue with
      | some name, some v =>
        match v.toInt with
        | .ok value => (enumeratorsOf es).map ((name, value) :: ·)
        | .error fault => .error (.notAnInteger fault)
      | _, _ => enumeratorsOf es

/-- The data type of an enumeration of a size. The underlying type decides if it has that size, or
else the encoding of the entry, or else whether negative values occur. -/
def enumDataType (e : Entry) (underlying : DataType) (size : Int)
    (enumerators : List (String × Int)) : Except Malformation DataType :=
  if underlying ≠ .unknown ∧ (underlying.byteSize : Int) = size then .ok underlying
  else do
    match ← encodingOf e with
    | some encoding => return dataTypeOf (some encoding) size
    | none =>
      let isSigned :=
        if underlying ≠ .unknown then underlying.isSigned
        else enumerators.any (·.2 < 0)
      return dataTypeOf (some (if isSigned then .signed else .unsigned)) size

/-- The data type and the size that an underlying type gives to an enumeration. -/
def underlyingOf : TypeBody → DataType × Option Int
  | .scalar _ size type | .enum size type _ => (type, some size)
  | _ => (.unknown, none)

/-- Builds an enumeration. -/
def buildEnum (recurse : Recurse) (e : Entry) : Build Unit := do
  let enumerators ← ofExcept (enumeratorsOf e.children)
  let (underlying, underlyingSize) ← match e.typeRef? with
    | none => pure (DataType.unknown, none)
    | some ref => do
      recurse ref (some e.ref)
      let node ← ofDangling ((← graph).resolve ref)
      pure (underlyingOf node.body)
  match e.byteSize?.or underlyingSize with
  | none => throw (.cause (.noEnumSize e.label))
  | some size =>
    let type ← ofExcept (enumDataType e underlying size enumerators)
    update (·.addNode ⟨e.ref, e.name?, .enum size type enumerators⟩)

-- ---------------------------------------------------------------------------
-- Arrays and signatures
-- ---------------------------------------------------------------------------

/-- Whether an upper bound stands for an unknown one: all bits of its word are set. -/
def isUnknownBound (v : Value) : Bool :=
  v.equalsInt 0xFFFFFFFF || v.equalsInt 0xFFFFFFFFFFFFFFFF || v.equalsInt (-1)

/-- The dimension of an array that an entry gives: a count, or bounds, or the enumerators of an
enumeration that is used as an index. Without any it is zero. -/
def dimensionOf (e : Entry) : Except Malformation Int :=
  if e.tag = Tag.enumerationType then
    .ok (e.children.filter (·.tag = Tag.enumerator)).length
  else if (e.attr? Attr.count).isSome then do
    let count ← e.intAttr? Attr.count
    return max (count.getD 0) 0
  else match e.attr? Attr.upperBound with
    | none => .ok 0
    | some upper =>
      if isUnknownBound upper then .ok 0
      else do
        let lower ← e.intAttr? Attr.lowerBound
        let upper ← e.intAttr? Attr.upperBound
        return max (upper.getD 0 - lower.getD 0 + 1) 0

/-- The dimensions that the children of an array give. -/
def dimensionsOf (e : Entry) : Except Malformation (List Int) :=
  (e.children.filter fun c => c.tag = Tag.subrangeType || c.tag = Tag.enumerationType).mapM
    dimensionOf

/-- The dimensions of an array. Without any there is one of unknown bound, and a single dimension of
unknown bound follows from the size of the array when the stride is known. -/
def completeDims (dims : List Int) (stride byteSize : Option Int) : List Int :=
  match dims, stride, byteSize with
  | [], some stride, some size | [0], some stride, some size =>
    if stride = 0 then [0] else [size.fdiv stride]
  | [], _, _ => [0]
  | dims, _, _ => dims

/-- Builds an array. -/
def buildArray (recurse : Recurse) (e : Entry) : Build Unit := do
  match e.typeRef? with
  | none => throw (.cause (.noElementType e.label))
  | some element =>
    recurse element (some e.ref)
    let dims ← ofExcept (dimensionsOf e)
    let explicit ← match e.attr? Attr.byteStride with
      | none => pure none
      | some _ => ofExcept (e.intAttr? Attr.byteStride)
    let stride ← match explicit with
      | some stride => pure (some stride)
      | none => sizeSoFar element
    let dims := completeDims dims stride e.byteSize?
    update (·.addNode ⟨e.ref, e.name?, .array element dims explicit e.byteSize?⟩)

/-- The types of the parameters of a function, which must all exist. -/
def parametersOf (store : Store) : List Entry → Build (List Int)
  | [] => return []
  | e :: es =>
    if e.tag = Tag.formalParameter then
      match e.typeRef? with
      | none => parametersOf store es
      | some ref => do
        discard (entry store ref (some e.ref))
        return ref :: (← parametersOf store es)
    else parametersOf store es

/-- Builds the signature of a function. Its types need only exist. -/
def buildSignature (store : Store) (e : Entry) : Build Unit := do
  if let some result := e.typeRef? then
    discard (entry store result (some e.ref))
  let parameters ← parametersOf store e.children
  let isVariadic := e.children.any (·.tag = Tag.unspecifiedParameters)
  update (·.addNode ⟨e.ref, e.name?, .signature e.typeRef? parameters isVariadic⟩)

-- ---------------------------------------------------------------------------
-- Composites
-- ---------------------------------------------------------------------------

/-- The first complete definition of the family and name of a declared composite. -/
def definition? (store : Store) (e : Entry) : Option Int :=
  match e.name? with
  | none => none
  | some name =>
    (store.entries.find? fun p =>
      p.entry.tag.isComposite && !p.entry.isDeclaration &&
        p.entry.tag.family = e.tag.family && p.entry.name? = some name).map (·.entry.ref)

/-- The offset of a member from the start of its composite; one that gives none starts with it. -/
def byteOffsetOf (e : Entry) : Except Malformation Int :=
  match e.attr? Attr.memberLocation with
  | none => .ok 0
  | some v =>
    match v.int? with
    | some offset => .ok offset
    | none => .error (.unreadableLocation e.label)

/-- The member that a base class is, unless what is inherited from is no struct. -/
def buildBaseClass (recurse : Recurse) (e : Entry) : Build (Option Member) := do
  match e.typeRef? with
  | none => return none
  | some ref =>
    recurse ref (some e.ref)
    let node ← ofDangling ((← graph).get ref)
    match node.body with
    | .composite .struct .. | .placeholder =>
      let offset ← ofExcept (byteOffsetOf e)
      return some ⟨none, ref, offset, none, none, true⟩
    | _ => return none

/-- The member that an entry describes. Static members, members without type, padding and unnamed
members that are no aggregates are passed over. The members of a union all start with it. -/
def buildMember (recurse : Recurse) (target : Target) (inUnion : Bool) (e : Entry) :
    Build (Option Member) := do
  if e.isDeclaration then return none
  match e.typeRef? with
  | none => return none
  | some ref =>
    recurse ref (some e.ref)
    let offset ← ofExcept (byteOffsetOf e)
    let offset := if inUnion then 0 else offset
    match e.attr? Attr.bitSize, e.name? with
    | some _, none => return none
    | some _, some name => do
      let size ← ofExcept (e.intAttr? Attr.bitSize)
      let size := size.getD 0
      let unitSize ← match e.byteSize? with
        | some size => pure (some size)
        | none => sizeSoFar ref
      let (offset, bitOffset) ← ofExcept (e.fieldPlace target.endianness unitSize offset size)
      return some ⟨some name, ref, offset, some bitOffset, some size, false⟩
    | none, some name => return some ⟨some name, ref, offset, none, none, false⟩
    | none, none => do
      let node ← ofDangling ((← graph).get ref)
      if node.body.isComposite || node.isPlaceholder then
        return some ⟨none, ref, offset, none, none, false⟩
      else return none

/-- The members that the children of a composite describe, in order. -/
def buildMembers (recurse : Recurse) (target : Target) (inUnion : Bool) :
    List Entry → Build (List Member)
  | [] => return []
  | e :: es => do
    let member ←
      if e.tag = Tag.member then buildMember recurse target inUnion e
      else if e.tag = Tag.inheritance then buildBaseClass recurse e
      else pure none
    return member.toList ++ (← buildMembers recurse target inUnion es)

/-- Where the last of some members ends, as far as their sizes are known. -/
def endOfMembers (inUnion : Bool) : List Member → Build Int
  | [] => return 0
  | m :: ms => do
    let size ← sizeSoFar m.typeRef
    let rest ← endOfMembers inUnion ms
    match size with
    | none => return rest
    | some size => return max ((if inUnion then 0 else m.byteOffset) + size) rest

/-- The size of a composite that does not give one: the end of its members, aligned. -/
def deducedSize (target : Target) (inUnion : Bool) (members : List Member) : Build Int := do
  let size ← endOfMembers inUnion members
  return if size = 0 then 0 else target.align size

/-- Builds a composite whose members are to be read, under a placeholder, which goes away again if
the composite cannot be built. -/
def buildBody (recurse : Recurse) (target : Target) (e : Entry) : Build Unit := do
  let inUnion := e.tag = Tag.unionType
  update (·.addPlaceholder e.ref)
  try
    let members ← buildMembers recurse target inUnion e.children
    let size ← match e.byteSize? with
      | some size => pure (some size)
      | none =>
        if e.isDeclaration then pure none
        else some <$> deducedSize target inUnion members
    let kind : CompositeKind := if inUnion then .union else .struct
    update (·.fillPlaceholder ⟨e.ref, e.name?,
      .composite kind size members (e.tag = Tag.classType)⟩)
  catch stop =>
    modify fun state => { state with graph := state.graph.discardPlaceholder e.ref }
    throw stop

/-- Builds a composite. A declaration becomes an alias of the definition, if there is one. -/
def buildComposite (recurse : Recurse) (store : Store) (target : Target) (e : Entry) :
    Build Unit := do
  match if e.isDeclaration then definition? store e else none with
  | some definition =>
    recurse definition (some e.ref)
    update (·.addAlias e.ref definition none)
  | none => buildBody recurse target e

-- ---------------------------------------------------------------------------
-- The whole graph
-- ---------------------------------------------------------------------------

/-- Builds the type that an entry describes. What is no known type is one of which only the size is
known. -/
def buildEntry (recurse : Recurse) (store : Store) (target : Target) (e : Entry) : Build Unit :=
  if e.tag.isAlias then buildAlias recurse e
  else if e.tag.isPointer then buildPointer store target e
  else if e.tag.isComposite then buildComposite recurse store target e
  else if e.tag = Tag.baseType then buildBaseType e
  else if e.tag = Tag.enumerationType then buildEnum recurse e
  else if e.tag = Tag.arrayType then buildArray recurse e
  else if e.tag = Tag.subroutineType then buildSignature store e
  else update (·.addNode ⟨e.ref, e.name?, .unspecified e.byteSize?⟩)

/-- Remembers why the building of an entry stopped. A malformation is recorded first. -/
def settle (e : Entry) : BuildStop → Build Unit
  | .type fault => do
    remember e.ref fault
    throw (.type fault)
  | .cause cause => do
    let fault : TypeFault := .malformed e.ref cause
    record fault
    remember e.ref fault
    throw (.type fault)

/-- Makes sure that a type is in the graph, in at most so many nested steps. An entry that needs
more describes no type. -/
def buildRef (store : Store) (target : Target) : Nat → Int → Option Int → Build Unit
  | 0, _, _ => throw (.cause .endless)
  | depth + 1, ref, usedBy => do
    let state ← getThe BuildState
    if state.graph.has ref then return
    match state.failures.get? ref with
    | some fault => throw (.type fault)
    | none =>
      let e ← entry store ref usedBy
      try buildEntry (buildRef store target depth) store target e
      catch stop => settle e stop

/-- Builds all types among some entries, passing over those that are left out. -/
def buildAll (store : Store) (target : Target) (depth : Nat) : List Placed → Build Unit
  | [] => return
  | p :: ps => do
    if p.entry.tag.isType then
      try buildRef store target depth p.entry.ref none
      catch _ => pure ()
    buildAll store target depth ps

/-- The graph of a store, in which no type takes more than so many nested steps. -/
def buildWithin (depth : Nat) (target : Target) (store : Store) : TypeGraph :=
  ((buildAll store target depth store.entries).run.run ⟨.empty, .empty, []⟩).2.graph

/-- A number of nested steps that suffices unless the references have no end. Between two
placeholders no entry comes up more than twice, for then the aliases on the way are noticed, and
there are no more placeholders than entries. -/
def depthBound (store : Store) : Nat := (2 * store.size + 2) * (store.size + 1) + 1

/-- The graph of a store. -/
def build (target : Target) (store : Store) : TypeGraph :=
  buildWithin (depthBound store) target store

end TypeGraph

end DebugLayout
