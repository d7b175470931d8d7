import DebugLayout.OrderedMap
import DebugLayout.TypeGraph.Fault
import DebugLayout.TypeGraph.Node

/-!
# DebugLayout — the type graph

The **type graph** is an arena of type nodes by reference. Typedefs and qualifiers have no node of
their own: their reference is an **alias** of another one, and a typedef also leaves its name with
the alias. A reference has a node or is an alias, and once it is defined it stays as it is; only a
placeholder may be replaced, or taken out again.

* `TypeGraph.addNode`, `addPlaceholder`, `fillPlaceholder`, `discardPlaceholder`, `addAlias`: the
  operations;
* `TypeGraph.canonicalRef`, `get`, `resolve`: from a reference to a node;
* `TypeGraph.typeName?`, `describe`: what a type is called;
* `TypeGraph.byteSize`, `arrayStride`: how large it is.
-/

namespace DebugLayout

/-- The types of a program, and what is wrong with those that are left out. -/
structure TypeGraph where
  nodes : OrderedMap Int TypeNode
  aliases : OrderedMap Int Int
  typedefNames : OrderedMap Int String
  faults : List TypeFault
  deriving DecidableEq

namespace TypeGraph

/-- The graph without types. -/
def empty : TypeGraph := ⟨.empty, .empty, .empty, []⟩

/-- Whether a reference is an alias. -/
def isAlias (g : TypeGraph) (ref : Int) : Bool := g.aliases.contains ref

/-- Whether a reference has a node or is an alias. -/
def has (g : TypeGraph) (ref : Int) : Bool := g.isAlias ref || g.nodes.contains ref

/-- Whether a reference has a placeholder. -/
def hasPlaceholder (g : TypeGraph) (ref : Int) : Bool :=
  match g.nodes.get? ref with
  | some node => node.isPlaceholder
  | none => false

-- ---------------------------------------------------------------------------
-- Operations
-- ---------------------------------------------------------------------------

/-- Adds a node, perhaps in place of a placeholder. -/
def addNode (g : TypeGraph) (node : TypeNode) : Except ArenaFault TypeGraph :=
  if g.nodes.contains node.ref && !g.hasPlaceholder node.ref then .error (.defined node.ref)
  else if g.isAlias node.ref then .error (.aliased node.ref)
  else .ok { g with nodes := g.nodes.insert node.ref node }

/-- The node that stands for a type while it is being read. -/
def placeholder (ref : Int) : TypeNode := ⟨ref, none, .placeholder⟩

/-- Adds a placeholder. -/
def addPlaceholder (g : TypeGraph) (ref : Int) : Except ArenaFault TypeGraph :=
  if g.has ref then .error (.defined ref)
  else .ok { g with nodes := g.nodes.insert ref (placeholder ref) }

/-- Replaces a placeholder by its node, in the same place. -/
def fillPlaceholder (g : TypeGraph) (node : TypeNode) : Except ArenaFault TypeGraph :=
  if g.hasPlaceholder node.ref then .ok { g with nodes := g.nodes.insert node.ref node }
  else .error (.noPlaceholder node.ref)

/-- Takes a placeholder out. What is no placeholder stays. -/
def discardPlaceholder (g : TypeGraph) (ref : Int) : TypeGraph :=
  if g.hasPlaceholder ref then { g with nodes := g.nodes.erase ref } else g

/-- Makes a reference an alias of another one, under a name if it is a typedef. -/
def addAlias (g : TypeGraph) (ref target : Int) (name : Option String) :
    Except ArenaFault TypeGraph :=
  if g.has ref then .error (.defined ref)
  else .ok { g with
    aliases := g.aliases.insert ref target
    typedefNames := match name with
      | some name => g.typedefNames.insert ref name
      | none => g.typedefNames }

-- ---------------------------------------------------------------------------
-- From references to nodes
-- ---------------------------------------------------------------------------

/-- Follows aliases from a reference, `visited` being those already seen. Each step sees one more
alias, so that one step more than there are aliases always suffices. -/
def follow (aliases : OrderedMap Int Int) : Nat → List Int → Int → Except Dangling Int
  | 0, _, ref => .error ⟨ref, none⟩
  | steps + 1, visited, ref =>
    match aliases.get? ref with
    | none => .ok ref
    | some target =>
      if visited.contains ref then .error ⟨ref, none⟩
      else follow aliases steps (ref :: visited) target

/-- The reference at the end of the aliases of a reference. Aliases that go round lead nowhere. -/
def canonicalRef (g : TypeGraph) (ref : Int) : Except Dangling Int :=
  follow g.aliases (g.aliases.size + 1) [] ref

/-- The node behind a reference, if only a placeholder. -/
def get (g : TypeGraph) (ref : Int) : Except Dangling TypeNode := do
  let canonical ← g.canonicalRef ref
  match g.nodes.get? canonical with
  | some node => return node
  | none => throw ⟨canonical, if canonical = ref then none else some ref⟩

/-- The node behind a reference, other than a placeholder. -/
def resolve (g : TypeGraph) (ref : Int) : Except Dangling TypeNode := do
  let node ← g.get ref
  if node.isPlaceholder then throw ⟨node.ref, none⟩ else return node

-- ---------------------------------------------------------------------------
-- Names
-- ---------------------------------------------------------------------------

/-- The name under which a reference is known, in at most so many steps along its aliases. -/
def nameAlong (g : TypeGraph) : Nat → List Int → Int → Option String
  | 0, _, _ => none
  | steps + 1, visited, ref =>
    match g.aliases.get? ref with
    | none => (g.nodes.get? ref).bind TypeNode.name
    | some target =>
      match g.typedefNames.get? ref with
      | some name => some name
      | none => if visited.contains ref then none else nameAlong g steps (ref :: visited) target

/-- The name under which a reference is known: that of the first typedef along its aliases, or else
that of its node. -/
def typeName? (g : TypeGraph) (ref : Int) : Option String :=
  g.nameAlong (g.aliases.size + 1) [] ref

/-- The levels of nested types that a description spells out before it gives up. -/
def nameDepth : Nat := 16

/-- The description of a type within so many levels. -/
def describeWithin (g : TypeGraph) : Nat → Int → String
  | 0, ref => (g.typeName? ref).getD "..."
  | levels + 1, ref =>
    match g.typeName? ref with
    | some name => name
    | none =>
      match g.get ref with
      | .error _ => "<unresolved>"
      | .ok node =>
        match node.body with
        | .pointer target _ isFunction _ =>
          let pointee := match target with
            | some t => describeWithin g levels t
            | none => "void"
          if isFunction then pointee else pointee ++ "*"
        | .array element dims _ _ =>
          describeWithin g levels element ++ String.join (dims.map fun d => s!"[{d}]")
        | .signature result parameters isVariadic =>
          let given := String.intercalate ", " (parameters.map (describeWithin g levels))
          let all :=
            if !isVariadic then given else if given = "" then "..." else given ++ ", ..."
          let returned := match result with
            | some t => describeWithin g levels t
            | none => "void"
          returned ++ " (*)(" ++ all ++ ")"
        | .composite .union .. => "union <anonymous>"
        | .composite .struct .. => "struct <anonymous>"
        | .enum .. => "enum <anonymous>"
        | .void => "void"
        | .scalar .. | .unspecified _ | .placeholder => "<unknown>"

/-- A spelling of a type, for display and for the targets of pointers. -/
def describe (g : TypeGraph) (ref : Int) : String := g.describeWithin (nameDepth + 1) ref

/-- A spelling of a type that may be missing, which then is nothing. -/
def describe? (g : TypeGraph) (ref : Option Int) : String :=
  match ref with
  | some ref => g.describe ref
  | none => "void"

-- ---------------------------------------------------------------------------
-- Sizes
-- ---------------------------------------------------------------------------

/-- The number of elements of an array of some dimensions. -/
def elementCount (dims : List Int) : Int := dims.foldr (· * ·) 1

/-- The size of a type, looking through so many arrays. -/
def byteSizeWithin (g : TypeGraph) : Nat → Int → Except Dangling (Option Int)
  | 0, ref => do
    let node ← g.resolve ref
    return node.byteSize?
  | levels + 1, ref => do
    let node ← g.resolve ref
    match node.body with
    | .array element dims none none =>
      let size ← byteSizeWithin g levels element
      return size.map (elementCount dims * ·)
    | .array _ dims (some stride) none => return some (elementCount dims * stride)
    | _ => return node.byteSize?

/-- The size of a type, unless it is unknown. An array takes the size it gives, or else its stride
as often as it has elements. Arrays of arrays are looked through; there are no more of them than
nodes unless an array contains itself, and then it has no size. -/
def byteSize (g : TypeGraph) (ref : Int) : Except Dangling (Option Int) :=
  g.byteSizeWithin (g.nodes.size + 1) ref

/-- The distance between the elements of an array: what the array gives, or else their size. -/
def arrayStride (g : TypeGraph) (element : Int) (stride : Option Int) :
    Except Dangling (Option Int) :=
  match stride with
  | some s => .ok (some s)
  | none => g.byteSize element

end TypeGraph

end DebugLayout
