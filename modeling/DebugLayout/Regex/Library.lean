import DebugLayout.Regex.Parser

/-!
# DebugLayout — libraries of regular expressions

The patterns of a configuration are spelt in the notation of some **library** of regular
expressions. Two things are asked of a library: whether it accepts a spelling, and, where it does,
whether the expression is found in a name. Which spellings it accepts, what they mean and how a
refusal is worded is its own business, so everything that is said about configurations and about the
search for axes holds whatever the library: nothing is assumed but that it treats one spelling
always alike.

The engine of this development, `Regex.library`, is one such library. It reads the part of the usual
notation that `DebugLayout.Regex.Parser` describes, and stands in where one is needed to run.

* `RegexLibrary`: the libraries;
* `RegexLibrary.Accepts`, `RegexLibrary.finds`: what a library makes of a spelling;
* `Regex.library`: the engine as a library.
-/

namespace DebugLayout

/-- A library of regular expressions: it makes a search out of a spelling, or says what is wrong
with it. -/
structure RegexLibrary where
  compile : String → Except String (String → Bool)

namespace RegexLibrary

/-- Whether a text spells an expression. -/
def Accepts (library : RegexLibrary) (source : String) : Prop :=
  ∃ search, library.compile source = .ok search

/-- Whether the expression that a text spells is found in another text. Where it spells none,
nothing is found. -/
def finds (library : RegexLibrary) (source text : String) : Bool :=
  match library.compile source with
  | .ok search => search text
  | .error _ => false

/-- A spelling that is accepted becomes the search for its expression. -/
theorem compile_of_accepts {library : RegexLibrary} {source : String}
    (h : library.Accepts source) : library.compile source = .ok (library.finds source) := by
  obtain ⟨search, hsearch⟩ := h
  have hfinds : library.finds source = search := by
    funext text
    rw [finds, hsearch]
  rw [hsearch, hfinds]

end RegexLibrary

/-- The engine as a library. -/
def Regex.library : RegexLibrary where
  compile source :=
    match parse source with
    | .ok regex => .ok regex.search
    | .error fault => .error (fault.message source)

end DebugLayout
