import DebugLayout.Regex.Basic

/-!
# DebugLayout — the notation of regular expressions

The **notation** has literal characters, `.`, the anchors `^` and `$`, alternatives with `|`,
groups in parentheses, the repetitions `?`, `*` and `+` (a `?` after one of them changes nothing
here, since any match will do), `\d` for a decimal digit, a backslash before any other character
but a letter or digit for that character itself, and sets in brackets with ranges, complemented
by a leading `^`, in which a `]` that comes first is a member.

This is the core of the usual notation and not all of it. A group that starts with `(?` is refused,
as is a letter or digit after a backslash other than `d`, and a bound such as `{2,3}` stands for
itself; the usual libraries read more there. What is proved of configurations and of axes is proved
for every library of expressions, so that no result depends on where this notation stops.

A pattern is read in one pass, token by token. The open groups are kept as a stack of frames and
an open set as a set in progress, so that the position of whatever is left open at the end is
known.

* `Regex.parse`: the expression that a pattern denotes, or the first fault in it;
* `RegexFault`: the faults, with their positions.
-/

namespace DebugLayout

/-- What is wrong with a pattern. -/
inductive RegexFaultKind
  | unclosedGroup
  | unclosedSet
  | nothingToRepeat
  | repeatedRepeat
  | unopenedGroup
  | badRange (text : String)
  | badEscape (text : String)
  | loneBackslash
  deriving DecidableEq, Repr

/-- A fault of a pattern, at the position of the character that it concerns. -/
structure RegexFault where
  kind : RegexFaultKind
  position : Nat
  deriving DecidableEq, Repr

namespace RegexFaultKind

/-- The wording of a kind of fault. -/
def message : RegexFaultKind → String
  | unclosedGroup => "missing ), unterminated subpattern"
  | unclosedSet => "unterminated character set"
  | nothingToRepeat => "nothing to repeat"
  | repeatedRepeat => "multiple repeat"
  | unopenedGroup => "unbalanced parenthesis"
  | badRange text => "bad character range " ++ text
  | badEscape text => "bad escape " ++ text
  | loneBackslash => "bad escape (end of pattern)"

end RegexFaultKind

/-- The wording of a fault of a pattern. The position counts characters; in a pattern of several
lines it is also given as line and column. -/
def RegexFault.message (pattern : String) (fault : RegexFault) : String :=
  let before := pattern.toList.take fault.position
  let line := before.count '\n' + 1
  let column := (before.reverse.takeWhile (· ≠ '\n')).length + 1
  s!"{fault.kind.message} at position {fault.position}" ++
    if pattern.toList.contains '\n' then s!" (line {line}, column {column})" else ""

namespace Regex

/-- A token: a character at a position, perhaps after a backslash. -/
structure Token where
  position : Nat
  char : Char
  escaped : Bool

/-- How a token is spelled in a message. -/
def Token.text (t : Token) : String :=
  if t.escaped then String.ofList ['\\', t.char] else String.ofList [t.char]

/-- The tokens of a pattern. -/
def tokens (position : Nat) : List Char → Except RegexFault (List Token)
  | [] => .ok []
  | ['\\'] => .error ⟨.loneBackslash, position⟩
  | '\\' :: c :: cs => (tokens (position + 2) cs).map (⟨position, c, true⟩ :: ·)
  | c :: cs => (tokens (position + 1) cs).map (⟨position, c, false⟩ :: ·)

/-- What may be done with the last item of a sequence when a repetition follows it. -/
inductive Repeatable
  | once
  | no
  | repeated
  | justRepeated
  deriving DecidableEq

/-- A group in progress: where it was opened, the alternatives that are complete, and the items of
the current one, the last first. -/
structure Frame where
  position : Nat
  done : List Regex
  items : List (Regex × Repeatable)

/-- A set in progress: where it was opened, whether it is complemented, its members so far, the
last first, the token that a hyphen would make the start of a range, and whether it did. -/
structure SetInProgress where
  position : Nat
  complement : Bool
  isFresh : Bool
  items : List CharSetItem
  pending : Option (Token × CharSetItem)
  afterHyphen : Bool

/-- The state of the reader: the innermost frame, those around it, and a set if one is open. -/
structure Reader where
  frame : Frame
  outer : List Frame
  set : Option SetInProgress

/-- The sequence of some items, the last first. -/
def sequence (items : List (Regex × Repeatable)) : Regex :=
  match items with
  | [] => .empty
  | (e, _) :: rest => rest.foldl (fun acc item => .seq item.1 acc) e

/-- The expression of a complete frame: its alternatives, the last one included. -/
def Frame.close (f : Frame) : Regex :=
  f.done.foldl (fun acc e => .alt e acc) (sequence f.items)

/-- A reader whose current sequence has one more item. -/
def Reader.push (r : Reader) (e : Regex) (repeatable : Repeatable) : Reader :=
  { r with frame := { r.frame with items := (e, repeatable) :: r.frame.items } }

/-- The expression of an escaped token: a class for `\d`, else the character itself. -/
def escapedItem (t : Token) : Except RegexFault CharSetItem :=
  if t.char = 'd' then .ok .decimalDigit
  else if t.char.isAlphanum then .error ⟨.badEscape t.text, t.position⟩
  else .ok (.range t.char t.char)

/-- The member that a token of a set stands for. -/
def setItem (t : Token) : Except RegexFault CharSetItem :=
  if t.escaped then escapedItem t else .ok (.range t.char t.char)

/-- A repetition of the last item of the current sequence. -/
def Reader.repeatLast (r : Reader) (t : Token) (build : Regex → Regex) :
    Except RegexFault Reader :=
  match r.frame.items with
  | [] => .error ⟨.nothingToRepeat, t.position⟩
  | (_, .no) :: _ => .error ⟨.nothingToRepeat, t.position⟩
  | (e, .once) :: rest =>
    .ok { r with frame := { r.frame with items := (build e, .justRepeated) :: rest } }
  | (e, .justRepeated) :: rest =>
    if t.char = '?' then
      .ok { r with frame := { r.frame with items := (e, .repeated) :: rest } }
    else .error ⟨.repeatedRepeat, t.position⟩
  | (_, .repeated) :: _ => .error ⟨.repeatedRepeat, t.position⟩

/-- One token outside a set. -/
def Reader.readOutside (r : Reader) (t : Token) : Except RegexFault Reader :=
  if t.escaped then do
    let item ← escapedItem t
    return r.push (.oneOf false [item]) .once
  else match t.char with
    | '.' => .ok (r.push .anyChar .once)
    | '^' => .ok (r.push .textStart .no)
    | '$' => .ok (r.push .textEnd .no)
    | '|' => .ok { r with frame := { r.frame with
        done := sequence r.frame.items :: r.frame.done, items := [] } }
    | '(' => .ok { r with frame := ⟨t.position, [], []⟩, outer := r.frame :: r.outer }
    | ')' =>
      match r.outer with
      | [] => .error ⟨.unopenedGroup, t.position⟩
      | f :: fs => .ok (Reader.push { r with frame := f, outer := fs } r.frame.close .once)
    | '[' => .ok { r with set := some ⟨t.position, false, true, [], none, false⟩ }
    | '?' => r.repeatLast t .optional
    | '*' => r.repeatLast t .star
    | '+' => r.repeatLast t .plus
    | c => .ok (r.push (.literal c) .once)

/-- A reader whose open set is complete. -/
def Reader.closeSet (r : Reader) (s : SetInProgress) (items : List CharSetItem) : Reader :=
  Reader.push { r with set := none } (.oneOf s.complement items.reverse) .once

/-- The range between two tokens of a set. -/
def rangeItem (first : Token × CharSetItem) (last : Token × CharSetItem) :
    Except RegexFault CharSetItem :=
  let fault := ⟨.badRange (first.1.text ++ "-" ++ last.1.text), first.1.position⟩
  match first.2, last.2 with
  | .range lo _, .range hi _ => if hi < lo then .error fault else .ok (.range lo hi)
  | _, _ => .error fault

/-- One token inside a set. -/
def Reader.readInside (r : Reader) (s : SetInProgress) (t : Token) : Except RegexFault Reader :=
  let plain := !t.escaped
  match s.pending, s.afterHyphen with
  | some (first, item), true =>
    if plain && t.char = ']' then .ok (r.closeSet s (.range '-' '-' :: item :: s.items))
    else do
      let last ← setItem t
      let range ← rangeItem (first, item) (t, last)
      let items := range :: s.items
      return { r with set := some { s with items, pending := none, afterHyphen := false } }
  | some (_, item), false =>
    if plain && t.char = '-' then .ok { r with set := some { s with afterHyphen := true } }
    else if plain && t.char = ']' then .ok (r.closeSet s (item :: s.items))
    else do
      let next ← setItem t
      return { r with set := some { s with items := item :: s.items, pending := some (t, next) } }
  | none, _ =>
    if plain && t.char = '^' && s.isFresh then
      .ok { r with set := some { s with complement := true, isFresh := false } }
    else if plain && t.char = ']' && !s.items.isEmpty then .ok (r.closeSet s s.items)
    else do
      let next ← setItem t
      return { r with set := some { s with isFresh := false, pending := some (t, next) } }

/-- One token. -/
def Reader.read (r : Reader) (t : Token) : Except RegexFault Reader :=
  match r.set with
  | some s => r.readInside s t
  | none => r.readOutside t

/-- The expression at the end of a pattern, provided that nothing is left open. -/
def Reader.finish (r : Reader) : Except RegexFault Regex :=
  match r.set, r.outer with
  | some s, _ => .error ⟨.unclosedSet, s.position⟩
  | none, _ :: _ => .error ⟨.unclosedGroup, r.frame.position⟩
  | none, [] => .ok r.frame.close

/-- The expression that a pattern denotes. -/
def parse (pattern : String) : Except RegexFault Regex := do
  let ts ← tokens 0 pattern.toList
  let r ← ts.foldlM Reader.read ⟨⟨0, [], []⟩, [], none⟩
  r.finish

end Regex

end DebugLayout
