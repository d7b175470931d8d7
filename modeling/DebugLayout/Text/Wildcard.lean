/-!
# DebugLayout — wildcard patterns

Compile units are selected by **wildcard patterns** over their whole name. A `*` stands for any
text, slashes and line ends included, a `?` for one character, and a bracketed set for one
character in it, or outside it after `!`. A set takes a `]` that comes first literally, and a
bracket that is never closed stands for itself.

Inside a set, hyphens split the members into **chunks**; the last character of a chunk and the
first of the next one are the ends of a range. A range whose ends are in the wrong order is
dropped together with its ends. A set that is left without members matches no character, and its
complement matches every one.

* `WildcardPiece`: what a pattern is a sequence of;
* `wildcardPieces`: the reading of a pattern;
* `matchesWildcard`: whether a pattern matches a text.
-/

namespace DebugLayout.Text

/-- One piece of a pattern. -/
inductive WildcardPiece
  | anyText
  | anyChar
  | literal (c : Char)
  | oneOf (complement : Bool) (ranges : List (Char × Char))

/-- The members of a set up to the bracket that closes it, and what follows that bracket. -/
def splitAtClosing : List Char → Option (List Char × List Char)
  | [] => none
  | c :: cs =>
    if c = ']' then some ([], cs)
    else (splitAtClosing cs).map fun (inner, rest) => (c :: inner, rest)

theorem splitAtClosing_length {cs inner rest : List Char}
    (h : splitAtClosing cs = some (inner, rest)) : rest.length < cs.length := by
  induction cs generalizing inner with
  | nil => simp [splitAtClosing] at h
  | cons c cs ih =>
    rw [splitAtClosing] at h
    split at h
    · simp_all
    · obtain ⟨⟨i, r⟩, hr, heq⟩ := Option.map_eq_some_iff.1 h
      simp only [Prod.mk.injEq] at heq
      obtain ⟨-, rfl⟩ := heq
      have := ih hr
      simp only [List.length_cons]
      omega

/-- The text of a set, from the character after `[`: an optional `!`, then at least one
character. -/
def splitSet : List Char → Option (List Char × List Char)
  | '!' :: ']' :: cs => (splitAtClosing cs).map fun (inner, rest) => ('!' :: ']' :: inner, rest)
  | '!' :: cs => (splitAtClosing cs).map fun (inner, rest) => ('!' :: inner, rest)
  | ']' :: cs => (splitAtClosing cs).map fun (inner, rest) => (']' :: inner, rest)
  | cs => splitAtClosing cs

theorem splitSet_length {cs inner rest : List Char}
    (h : splitSet cs = some (inner, rest)) : rest.length < cs.length := by
  unfold splitSet at h
  split at h
  all_goals first
    | exact splitAtClosing_length h
    | (obtain ⟨⟨i, r⟩, hr, heq⟩ := Option.map_eq_some_iff.1 h
       simp only [Prod.mk.injEq] at heq
       obtain ⟨-, rfl⟩ := heq
       have := splitAtClosing_length hr
       simp only [List.length_cons]
       omega)

/-- The chunks of a set. A hyphen ends the current chunk once it is old enough: `wait` counts the
characters that must still come first, one at the start of a set and two after a hyphen. A hyphen
at the very end belongs to the last chunk. -/
def setChunks (wait : Nat) (current : List Char) : List Char → List (List Char)
  | [] => [current.reverse]
  | ['-'] => [('-' :: current).reverse]
  | c :: cs =>
    if c = '-' ∧ wait = 0 then current.reverse :: setChunks 2 [] cs
    else setChunks (wait - 1) (c :: current) cs

/-- Drops the ranges whose ends are in the wrong order, from the last one back: the two chunks
around such a range become one, without the ends. -/
def dropEmptyRanges : List (List Char) → List (List Char)
  | [] => []
  | chunk :: chunks =>
    match dropEmptyRanges chunks with
    | [] => [chunk]
    | next :: others =>
      match chunk.getLast?, next.head? with
      | some last, some first =>
        if first < last then (chunk.dropLast ++ next.tail) :: others
        else chunk :: next :: others
      | _, _ => chunk :: next :: others

/-- The ranges between neighbouring chunks. -/
def rangesBetween : List (List Char) → List (Char × Char)
  | chunk :: next :: chunks =>
    (match chunk.getLast?, next.head? with
      | some last, some first => [(last, first)]
      | _, _ => []) ++ rangesBetween (next :: chunks)
  | _ => []

/-- The set that a bracketed text denotes. -/
def readSet (inner : List Char) : WildcardPiece :=
  let (complement, members) := match inner with
    | '!' :: cs => (true, cs)
    | cs => (false, cs)
  let chunks := dropEmptyRanges (setChunks 1 [] members)
  .oneOf complement (chunks.flatten.map (fun c => (c, c)) ++ rangesBetween chunks)

/-- The pieces of a pattern. -/
def wildcardPieces : List Char → List WildcardPiece
  | [] => []
  | '*' :: cs => .anyText :: wildcardPieces cs
  | '?' :: cs => .anyChar :: wildcardPieces cs
  | '[' :: cs =>
    match _h : splitSet cs with
    | some (inner, rest) => readSet inner :: wildcardPieces rest
    | none => .literal '[' :: wildcardPieces cs
  | c :: cs => .literal c :: wildcardPieces cs
termination_by cs => cs.length
decreasing_by
  · simp
  · simp
  · have hlen := splitSet_length (by assumption)
    simp only [List.length_cons]
    omega
  · simp
  · simp

/-- Whether some suffix of a text passes a test. -/
def someSuffix (test : List Char → Bool) : List Char → Bool
  | [] => test []
  | c :: cs => test (c :: cs) || someSuffix test cs

/-- Whether a piece that stands for one character stands for this one. -/
def WildcardPiece.admits : WildcardPiece → Char → Bool
  | anyText, _ => true
  | anyChar, _ => true
  | literal d, c => c = d
  | oneOf complement ranges, c => complement != ranges.any fun r => r.1 ≤ c && c ≤ r.2

/-- Whether a sequence of pieces matches the whole of a text. -/
def matchPieces : List WildcardPiece → List Char → Bool
  | [], cs => cs.isEmpty
  | .anyText :: ps, cs => someSuffix (matchPieces ps) cs
  | _ :: _, [] => false
  | p :: ps, c :: cs => p.admits c && matchPieces ps cs

/-- Whether a wildcard pattern matches the whole of a text. -/
def matchesWildcard (pattern text : String) : Bool :=
  matchPieces (wildcardPieces pattern.toList) text.toList

end DebugLayout.Text
