import DebugLayout.Text.Digit

/-!
# DebugLayout — regular expressions

Names of symbols are selected by **regular expressions** that may match anywhere in the name. An
expression is understood as a relation between positions of a text: from a position it leads to
every position where a match of it that starts there may end. Sets of positions are enough,
because only the existence of a match counts and not which one is found first.

* `Regex`: the expressions;
* `Regex.ends`: the positions that an expression leads to;
* `Regex.search`: whether an expression matches somewhere in a text.
-/

namespace DebugLayout

/-- A member of a character set: a range of characters, or the decimal digits of every script. -/
inductive CharSetItem
  | range (first last : Char)
  | decimalDigit
  deriving DecidableEq, Repr

/-- A regular expression. -/
inductive Regex
  | empty
  | anyChar
  | oneOf (complement : Bool) (items : List CharSetItem)
  | textStart
  | textEnd
  | seq (first second : Regex)
  | alt (first second : Regex)
  | star (body : Regex)
  deriving DecidableEq, Repr

/-- Whether a character is a member. -/
def CharSetItem.admits : CharSetItem → Char → Bool
  | range first last, c => first ≤ c && c ≤ last
  | decimalDigit, c => Text.isDecimalDigit c

namespace Regex

/-- A single character that stands for itself. -/
def literal (c : Char) : Regex := oneOf false [.range c c]

/-- One or more times. -/
def plus (body : Regex) : Regex := seq body (star body)

/-- Once or not at all. -/
def optional (body : Regex) : Regex := alt body empty

/-- Whether a position is the end of the text, or lies before a line feed that ends it. -/
def isTextEnd (text : Array Char) (i : Nat) : Bool :=
  i = text.size || (i + 1 = text.size && text[i]? = some '\n')

/-- The positions reached from a list of positions by any number of steps. Every step leads
forward, so as many rounds as there are characters left find them all. -/
def reach (step : Nat → List Nat) : Nat → List Nat → List Nat
  | 0, from_ => from_
  | rounds + 1, from_ => from_ ++ reach step rounds (from_.flatMap step).eraseDups

/-- The positions that an expression leads to from a position of a text. -/
def ends (text : Array Char) : Regex → Nat → List Nat
  | empty, i => [i]
  | anyChar, i =>
    match text[i]? with
    | some c => if c = '\n' then [] else [i + 1]
    | none => []
  | oneOf complement items, i =>
    match text[i]? with
    | some c => if complement != items.any (·.admits c) then [i + 1] else []
    | none => []
  | textStart, i => if i = 0 then [i] else []
  | textEnd, i => if isTextEnd text i then [i] else []
  | seq first second, i => ((ends text first i).flatMap (ends text second)).eraseDups
  | alt first second, i => (ends text first i ++ ends text second i).eraseDups
  | star body, i =>
    (reach (fun j => (ends text body j).filter (j < ·)) (text.size - i) [i]).eraseDups

/-- Whether an expression matches somewhere in a text. -/
def search (e : Regex) (text : String) : Bool :=
  let chars := text.toList.toArray
  (List.range (chars.size + 1)).any fun i => !(e.ends chars i).isEmpty

end Regex

end DebugLayout
