import DebugLayout.Layout.Node
import DebugLayout.Text.Numeral

/-!
# DebugLayout — paths in layouts

A **path** names a node relative to another one: `a.b[1][2]`, or with the indices in the other
spelling `a.b._1_._2_`. It is read from the left, token by token:

* digits in brackets are an index;
* digits between underscores, perhaps after a dot, are an index if a dot, a bracket or the end
  follows;
* any other run of characters but dots and brackets, perhaps after a dot, is a name.

An array is entered by as many indices as it has dimensions.

* `splitPath`: the segments of a path;
* `LayoutNode.find?`: the node at a path.
-/

namespace DebugLayout

/-- One step of a path. -/
inductive PathSegment
  | name (text : String)
  | index (n : Nat)
  deriving DecidableEq, Repr

/-- Why a text is no path. -/
inductive PathFault
  | invalid (path : String)
  | numeral (fault : Text.NumeralFault)
  deriving DecidableEq, Repr

/-- The wording of a fault. -/
def PathFault.message : PathFault → String
  | invalid path => "Invalid path \"" ++ path ++ "\""
  | numeral fault => fault.message

namespace Path

/-- A token of a path: a name, or the digits of an index. -/
inductive Token
  | name (text : List Char)
  | index (digits : List Char)
  deriving DecidableEq

/-- Whether a character has a meaning of its own in a path. -/
def isSpecial (c : Char) : Bool := c = '.' || c = '[' || c = ']'

/-- Some digits and the character that closes them, with what follows. -/
def digitsThen (close : Char) (cs : List Char) : Option (List Char × List Char) :=
  match cs.dropWhile Text.isDecimalDigit with
  | [] => none
  | c :: rest =>
    if c = close ∧ cs.takeWhile Text.isDecimalDigit ≠ [] then
      some (cs.takeWhile Text.isDecimalDigit, rest)
    else none

/-- What is left after a dot that may be there. -/
def dropDot : List Char → List Char
  | '.' :: cs => cs
  | cs => cs

/-- Whether a token may end here: before a dot or an opening bracket, or at the end. -/
def atBoundary : List Char → Bool
  | [] => true
  | c :: _ => c = '.' || c = '['

/-- An index in brackets. -/
def bracketed : List Char → Option (Token × List Char)
  | '[' :: cs => (digitsThen ']' cs).map fun (digits, rest) => (.index digits, rest)
  | _ => none

/-- An index between underscores. -/
def underscored (cs : List Char) : Option (Token × List Char) :=
  match dropDot cs with
  | '_' :: cs =>
    match digitsThen '_' cs with
    | some (digits, rest) => if atBoundary rest then some (.index digits, rest) else none
    | none => none
  | _ => none

/-- A name. -/
def named (cs : List Char) : Option (Token × List Char) :=
  match (dropDot cs).takeWhile fun c => !isSpecial c with
  | [] => none
  | text => some (.name text, (dropDot cs).dropWhile fun c => !isSpecial c)

/-- The first token of a path, with what follows. -/
def nextToken (cs : List Char) : Option (Token × List Char) :=
  (bracketed cs).or ((underscored cs).or (named cs))

theorem dropDot_length (cs : List Char) : (dropDot cs).length ≤ cs.length := by
  unfold dropDot
  split <;> simp

theorem dropWhile_length (p : Char → Bool) (cs : List Char) :
    (cs.dropWhile p).length ≤ cs.length :=
  (List.dropWhile_sublist p).length_le

/-- Digits and the character after them take something of the text. -/
theorem digitsThen_length {close : Char} {cs digits rest : List Char}
    (h : digitsThen close cs = some (digits, rest)) : rest.length < cs.length := by
  unfold digitsThen at h
  split at h
  · simp at h
  · rename_i c tail hdrop
    split at h
    · simp only [Option.some.injEq, Prod.mk.injEq] at h
      obtain ⟨-, rfl⟩ := h
      have := dropWhile_length Text.isDecimalDigit cs
      rw [hdrop, List.length_cons] at this
      omega
    · simp at h

theorem named_length {cs rest : List Char} {token : Token}
    (h : named cs = some (token, rest)) : rest.length < cs.length := by
  unfold named at h
  split at h
  · simp at h
  · rename_i text hne
    simp only [Option.some.injEq, Prod.mk.injEq] at h
    obtain ⟨-, rfl⟩ := h
    have hsplit := List.takeWhile_append_dropWhile (p := fun c => !isSpecial c) (l := dropDot cs)
    have hlen := congrArg List.length hsplit
    rw [List.length_append] at hlen
    have hpos : 0 < ((dropDot cs).takeWhile fun c => !isSpecial c).length :=
      List.length_pos_iff.2 hne
    have := dropDot_length cs
    omega

/-- Every token takes something off the path. -/
theorem nextToken_length {cs rest : List Char} {token : Token}
    (h : nextToken cs = some (token, rest)) : rest.length < cs.length := by
  unfold nextToken at h
  rcases Option.or_eq_some_iff.1 h with h | ⟨-, h⟩
  · -- one token after the other, each with the length of what it takes
    unfold bracketed at h
    split at h
    · obtain ⟨⟨d, r⟩, hr, heq⟩ := Option.map_eq_some_iff.1 h
      simp only [Prod.mk.injEq] at heq
      obtain ⟨-, rfl⟩ := heq
      have := digitsThen_length hr
      simp only [List.length_cons]
      omega
    · simp at h
  · rcases Option.or_eq_some_iff.1 h with h | ⟨-, h⟩
    · unfold underscored at h
      split at h
      · rename_i tail hdot
        split at h
        · rename_i digits after hr
          split at h
          · simp only [Option.some.injEq, Prod.mk.injEq] at h
            obtain ⟨-, rfl⟩ := h
            have := digitsThen_length hr
            have hle := dropDot_length cs
            rw [hdot] at hle
            simp only [List.length_cons] at hle
            omega
          · simp at h
        · simp at h
      · simp at h
    · exact named_length h

/-- The segment that a token stands for. -/
def Token.segment : Token → Except PathFault PathSegment
  | name text => .ok (.name (String.ofList text))
  | index digits =>
    match Text.readNatural (String.ofList digits) digits with
    | .ok n => .ok (.index n)
    | .error fault => .error (.numeral fault)

/-- The segments of the rest of a path; `path` is what a fault repeats. -/
def segmentsOf (path : String) (cs : List Char) : Except PathFault (List PathSegment) :=
  match cs with
  | [] => .ok []
  | c :: rest =>
    match _h : nextToken (c :: rest) with
    | none => .error (.invalid path)
    | some (token, after) =>
      match token.segment with
      | .error fault => .error fault
      | .ok segment =>
        match segmentsOf path after with
        | .error fault => .error fault
        | .ok segments => .ok (segment :: segments)
termination_by cs.length
decreasing_by exact nextToken_length (by assumption)

end Path

/-- The segments of a path. The blanks around it do not count. -/
def splitPath (path : String) : Except PathFault (List PathSegment) :=
  let path := Text.stripped path
  Path.segmentsOf path path.toList

namespace LayoutNode

/-- So many indices at the start of a path, with the segments after them. -/
def takeIndices : Nat → List PathSegment → Option (List Nat × List PathSegment)
  | 0, segments => some ([], segments)
  | n + 1, .index i :: segments =>
    (takeIndices n segments).map fun (indices, rest) => (i :: indices, rest)
  | _ + 1, _ => none

theorem takeIndices_length {n : Nat} {segments rest : List PathSegment} {indices : List Nat}
    (h : takeIndices n segments = some (indices, rest)) :
    rest.length + n = segments.length := by
  induction n generalizing segments indices with
  | zero => simp_all [takeIndices]
  | succ n ih =>
    match segments with
    | [] => simp [takeIndices] at h
    | .name _ :: _ => simp [takeIndices] at h
    | .index i :: tail =>
      rw [takeIndices] at h
      obtain ⟨⟨is, r⟩, hr, heq⟩ := Option.map_eq_some_iff.1 h
      simp only [Prod.mk.injEq] at heq
      obtain ⟨-, rfl⟩ := heq
      have := ih hr
      simp only [List.length_cons]
      omega

/-- The element of an array at a position. -/
def elementAt? (shape : ArrayShape) (elements : List LayoutNode) (position : List Nat) :
    Option LayoutNode :=
  match shape.indexOf (position.map Int.ofNat) with
  | .ok i => elements[i]?
  | .error _ => none

/-- The node at the end of some segments. -/
def follow? (n : LayoutNode) (segments : List PathSegment) : Option LayoutNode :=
  match segments with
  | [] => some n
  | .name text :: rest =>
    match n with
    | composite _ _ _ members =>
      match members.find? (·.name = text) with
      | some m => follow? m rest
      | none => none
    | _ => none
  | .index i :: rest =>
    match n with
    | array _ shape _ elements =>
      match _h : takeIndices shape.dims.length (.index i :: rest) with
      | none => none
      | some (position, after) =>
        match elementAt? shape elements position with
        | some m => follow? m after
        | none => none
    | _ => none
termination_by segments.length
decreasing_by
  · simp
  · have hlen := takeIndices_length (by assumption)
    have hpos := List.length_pos_iff.2 shape.dims_ne_nil
    omega

/-- The node at a path relative to this one, if there is one. -/
def find? (n : LayoutNode) (path : String) : Except PathFault (Option LayoutNode) :=
  (splitPath path).map n.follow?

end LayoutNode

end DebugLayout
