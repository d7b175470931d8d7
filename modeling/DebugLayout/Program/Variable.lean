import DebugLayout.Entry.Store

/-!
# DebugLayout — variables and their names

Every variable entry with a name describes a **variable**. Its scoped name has the namespaces and
types around it; a definition that refers to a declaration elsewhere is scoped like the declaration.
A variable inside a function counts only if it has storage of its own, that is a location.

Scoped names are not unique. The variables of one scoped name are sorted out like this:

* definitions at the same address are one variable, and definitions without location count only when
  there are no others;
* declarations count only when there are no definitions;
* a name that is left with one variable at file scope means it; several of them, and all static
  variables of functions, go by **qualified** names, with the function and the compile unit in
  braces.

* `Variable`, `Variable.ofEntry?`: the variables;
* `indexVariables`: the variables of a store by name.
-/

namespace DebugLayout

/-- A variable of the program. The link name is the one that the symbol table would use, and a
qualified variable is one that its scoped name does not tell apart. -/
structure Variable where
  name : String
  entry : Entry
  function : Option String
  unit : Option String
  linkName : Option String
  isQualified : Bool

namespace Store

/-- The entry that declares what an entry defines, or that it is an instance of. The first of the
two references that is given decides, even if it leads nowhere. -/
def origin? (s : Store) (e : Entry) : Option Placed :=
  match (e.attr? Attr.specification).or (e.attr? Attr.abstractOrigin) with
  | some v => v.int?.bind s.resolve?
  | none => none

/-- The name of an entry, or else of the entry that declares it. -/
def entryName? (s : Store) (e : Entry) : Option String :=
  e.name?.or ((s.origin? e).bind fun p => p.entry.name?)

/-- The link name that an entry gives by itself. -/
def ownLinkageName? (e : Entry) : Option String :=
  ((e.attr? Attr.linkageName).bind Value.text?).or
    ((e.attr? Attr.mipsLinkageName).bind Value.text?)

/-- The link name of an entry, or else of the entry that declares it. -/
def linkageName? (s : Store) (e : Entry) : Option String :=
  (ownLinkageName? e).or ((s.origin? e).bind fun p => ownLinkageName? p.entry)

/-- The type of a variable, or else of the entry that declares it. -/
def variableType? (s : Store) (e : Entry) : Option Int :=
  e.typeRef?.or ((s.origin? e).bind fun p => p.entry.typeRef?)

/-- The function around an entry that gives static variables their qualified names: the innermost
one with a name. -/
def enclosingFunction? (s : Store) : List Entry → Option String
  | [] => none
  | e :: outer =>
    if e.tag = Tag.subprogram then (s.entryName? e).or (enclosingFunction? s outer)
    else enclosingFunction? s outer

end Store

/-- The names of the scopes among some entries, from the outermost in. -/
def scopeNames (ancestors : List Entry) : List String :=
  ((ancestors.filter (·.tag.isNamedScope)).map fun e => e.name?.getD "(anonymous)").reverse

/-- The last part of a path, with either kind of slash. -/
def lastPart (path : List Char) : List Char :=
  (path.reverse.takeWhile fun c => c ≠ '/' && c ≠ '\\').reverse

/-- The short name of a compile unit: the last part of its path, with underscores for dots. -/
def shortUnitName (path : String) : String :=
  String.ofList ((lastPart path.toList).map fun c => if c = '.' then '_' else c)

/-- The short name of the compile unit around an entry. -/
def unitName? (p : Placed) : Option String :=
  if p.root.tag.isUnit then p.root.name?.map shortUnitName else none

namespace Variable

/-- The location that the debug information gives. -/
def location? (v : Variable) : Option Int := v.entry.location?

/-- The name with the function and the compile unit. -/
def qualifiedName (v : Variable) : String :=
  v.name ++ (v.function.elim "" fun f => "\x7bFunction:" ++ f ++ "\x7d") ++
    v.unit.elim "" fun u => "\x7bCompileUnit:" ++ u ++ "\x7d"

/-- The variable that an entry describes, if it has a name and, inside a function, storage. -/
def ofEntry? (s : Store) (p : Placed) : Option Variable :=
  match s.entryName? p.entry with
  | none => none
  | some name =>
    let inFunction := p.ancestors.any (·.tag.isFunctionScope)
    if inFunction && (p.entry.isDeclaration || p.entry.location?.isNone) then none
    else
      let function :=
        if inFunction then some ((s.enclosingFunction? p.ancestors).getD "<anonymous>") else none
      let scopes := scopeNames ((s.origin? p.entry).getD p).ancestors
      let ownName := if !inFunction && scopes.isEmpty then some name else none
      some {
        name := String.intercalate "::" (scopes ++ [name])
        entry := p.entry
        function
        unit := unitName? p
        linkName := (s.linkageName? p.entry).or ownName
        isQualified := false }

end Variable

-- ---------------------------------------------------------------------------
-- Variables of one name
-- ---------------------------------------------------------------------------

/-- The located ones of some definitions, one for each location, the first. -/
def distinctLocated (seen : List Int) : List Variable → List Variable
  | [] => []
  | v :: vs =>
    match v.location? with
    | none => distinctLocated seen vs
    | some location =>
      if seen.contains location then distinctLocated seen vs
      else v :: distinctLocated (location :: seen) vs

/-- The distinct definitions among some variables of one name. -/
def uniqueDefinitions (vs : List Variable) : List Variable :=
  let definitions := vs.filter fun v => !v.entry.isDeclaration
  match distinctLocated [] definitions with
  | [] => (definitions.filter (·.location?.isNone)).take 1
  | located => located

/-- The variables of one name at file scope: its definitions, or else its first declaration. -/
def fileScopeVariables (vs : List Variable) : List Variable :=
  match uniqueDefinitions vs with
  | [] => vs.take 1
  | definitions => definitions

/-- Variables by name. -/
abbrev Variables := OrderedMap String Variable

/-- Adds a variable under its qualified name, unless that is taken. -/
def addQualified (known : Variables) (v : Variable) : Variables :=
  known.insertNew v.qualifiedName { v with isQualified := true }

/-- Adds the variables of one scoped name. -/
def addGroup (known : Variables) (name : String) (group : List Variable) : Variables :=
  let fileScope := fileScopeVariables (group.filter (·.function.isNone))
  let statics := uniqueDefinitions (group.filter (·.function.isSome))
  match fileScope with
  | [v] => statics.foldl addQualified (known.insert name v)
  | fileScope => (fileScope ++ statics).foldl addQualified known

/-- Puts a variable with the others of its scoped name. -/
def addToGroup (groups : OrderedMap String (List Variable)) (v : Variable) :
    OrderedMap String (List Variable) :=
  groups.insert v.name ((groups.get? v.name).getD [] ++ [v])

/-- The variables of a store, by scoped name. -/
def groupVariables (s : Store) : OrderedMap String (List Variable) :=
  ((s.entries.filter (·.entry.tag = Tag.variable_)).filterMap (Variable.ofEntry? s)).foldl
    addToGroup .empty

/-- The variables of a store by the names under which they are known. -/
def indexVariables (s : Store) : Variables :=
  (groupVariables s).entries.foldl (fun known group => addGroup known group.1 group.2) .empty

end DebugLayout
