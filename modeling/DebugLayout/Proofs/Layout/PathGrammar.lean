import DebugLayout.Proofs.Layout.Path
import Mathlib.Data.List.Forall2

/-!
# DebugLayout — which texts are paths

A text is a path if it can be **cut** into pieces: digits in brackets, and runs of characters
without meaning, each perhaps after a dot and as long as it can be. Digits in brackets are an index,
and so is a run of digits between two underscores; any other run is a name. A path is read as the
segments that its pieces mean, unless an index has more digits than a numeral may have, and a text
that is no path is refused.

Segments can be **spelled** in many ways, for each index with brackets or with underscores, and the
dot before a name can be left out at the start and behind a bracket. All spellings are read as the
segments that they spell.

* `Path.Piece`, `Path.Cuts`: pieces, and texts that are cut into them;
* `Path.Piece.HasDigits`, `Means`: the digits of an index, and the segment that a piece means;
* `nextToken_cases`, `nextToken_underscored`: how pieces are read;
* `segmentsOf_eq_ok_iff`: what a text is read as;
* `Path.Spells`, `cuts_of_spells`: the spellings of segments, and that they are paths;
* `splitPath_of_spells`: spellings are read back, and the texts that are refused.
-/

namespace DebugLayout

namespace Path

-- ---------------------------------------------------------------------------
-- Pieces
-- ---------------------------------------------------------------------------

/-- A piece of a path as it is written: digits in brackets, or a run of characters, perhaps after a
dot. -/
inductive Piece
  | bracketed (digits : List Char)
  | run (dotted : Bool) (text : String)

/-- Whether a text consists of some pieces, one after the other. A run ends only before a character
that has a meaning in a path. -/
inductive Cuts : List Piece → List Char → Prop
  | nil : Cuts [] []
  | bracketed {digits rest : List Char} {pieces : List Piece} (hne : digits ≠ [])
      (hdigits : ∀ c ∈ digits, Text.isDecimalDigit c = true) (h : Cuts pieces rest) :
      Cuts (.bracketed digits :: pieces) ('[' :: digits ++ ']' :: rest)
  | run {dotted : Bool} {text : String} {rest : List Char} {pieces : List Piece} (hne : text ≠ "")
      (hchars : ∀ c ∈ text.toList, isSpecial c = false)
      (hend : ∀ c ∈ rest.head?, isSpecial c = true) (h : Cuts pieces rest) :
      Cuts (.run dotted text :: pieces) (dot dotted ++ text.toList ++ rest)

namespace Piece

/-- Whether a piece is an index with some digits. -/
inductive HasDigits : Piece → List Char → Prop
  | bracketed {digits : List Char} : HasDigits (.bracketed digits) digits
  | run {dotted : Bool} {text : String} {digits : List Char} (hne : digits ≠ [])
      (hdigits : ∀ c ∈ digits, Text.isDecimalDigit c = true)
      (htext : text.toList = '_' :: digits ++ ['_']) : HasDigits (.run dotted text) digits

/-- Whether a piece has no more digits than a numeral may have, if it is an index. -/
def IsShort (p : Piece) : Prop := ∀ digits, p.HasDigits digits → digits.length ≤ Text.maxDigits

/-- Whether a piece means a segment. -/
inductive Means : Piece → PathSegment → Prop
  | index {p : Piece} {digits : List Char} (h : p.HasDigits digits)
      (hshort : digits.length ≤ Text.maxDigits) :
      Means p (.index (Text.digitsValue (digits.filterMap Text.digitValue?)))
  | name {dotted : Bool} {text : String} (h : ¬IsIndexLike text) :
      Means (.run dotted text) (.name text)

/-- A piece has its digits in one way. -/
theorem HasDigits.unique {p : Piece} {digits digits' : List Char} (h : p.HasDigits digits)
    (h' : p.HasDigits digits') : digits = digits' := by
  cases h with
  | bracketed =>
    cases h' with
    | bracketed => rfl
  | run _ _ htext =>
    cases h' with
    | run _ _ htext' =>
      rw [htext] at htext'
      exact List.append_cancel_right (List.cons.inj htext').2

/-- A text looks like an index if it has digits between its underscores. -/
theorem isIndexLike_iff {dotted : Bool} {text : String} :
    IsIndexLike text ↔ ∃ digits, (run dotted text).HasDigits digits := by
  constructor
  · rintro ⟨digits, hne, hdigits, htext⟩
    exact ⟨digits, .run hne hdigits htext⟩
  · rintro ⟨digits, h⟩
    cases h with
    | run hne hdigits htext => exact ⟨digits, hne, hdigits, htext⟩

/-- A piece means a segment unless it is an index of too many digits. -/
theorem exists_means_iff {p : Piece} : (∃ s, p.Means s) ↔ p.IsShort := by
  constructor
  · rintro ⟨s, hs⟩ digits h
    cases hs with
    | index h' hshort =>
      rw [h.unique h']
      exact hshort
    | name hname => exact absurd (isIndexLike_iff.2 ⟨digits, h⟩) hname
  · intro hshort
    -- a piece with digits is an index, and any other one a name
    by_cases h : ∃ digits, p.HasDigits digits
    · obtain ⟨digits, h⟩ := h
      exact ⟨_, .index h (hshort digits h)⟩
    · cases p with
      | bracketed digits => exact absurd ⟨digits, .bracketed⟩ h
      | run dotted text => exact ⟨_, .name fun hindex => h (isIndexLike_iff.1 hindex)⟩

/-- Pieces mean something if none of their numerals is too long. -/
theorem exists_forall₂_means_iff {pieces : List Piece} :
    (∃ segments, List.Forall₂ Means pieces segments) ↔ ∀ p ∈ pieces, p.IsShort := by
  induction pieces with
  | nil => exact iff_of_true ⟨[], .nil⟩ (by simp)
  | cons p pieces ih =>
    rw [List.forall_mem_cons, ← ih, ← exists_means_iff]
    constructor
    · rintro ⟨_, hp | ⟨hp, hpieces⟩⟩
      exact ⟨⟨_, hp⟩, _, hpieces⟩
    · rintro ⟨⟨s, hp⟩, segments, hpieces⟩
      exact ⟨s :: segments, .cons hp hpieces⟩

end Piece

-- ---------------------------------------------------------------------------
-- Reading
-- ---------------------------------------------------------------------------

variable {cs rest digits : List Char} {token : Token} {pieces : List Piece}

/-- What is behind a run starts like a token, so the run may end there. -/
theorem Cuts.atBoundary (h : Cuts pieces rest) (hend : ∀ c ∈ rest.head?, isSpecial c = true) :
    atBoundary rest = true := by
  cases h with
  | nil => rfl
  | bracketed => rfl
  | @run dotted text after more hne hchars =>
    cases dotted with
    | true => rfl
    | false =>
      have hhead : ((dot false ++ text.toList ++ after).head?) = (text.toList ++ after).head? := rfl
      cases hfirst : (text.toList ++ after).head? with
      | none =>
        rw [List.head?_eq_none_iff, List.append_eq_nil_iff] at hfirst
        exact absurd (String.toList_inj.1 hfirst.1) hne
      | some c =>
        -- a run without a dot would go on with the run before it
        have hspecial := hend c (hhead.trans hfirst)
        exact absurd hfirst (head?_name_append hne hchars hspecial)

/-- A run of digits between underscores is read as an index. -/
theorem nextToken_underscored {dotted : Bool} {text : String} (hne : text ≠ "")
    (hchars : ∀ c ∈ text.toList, isSpecial c = false)
    (h : (Piece.run dotted text).HasDigits digits) (hrest : atBoundary rest = true) :
    nextToken (dot dotted ++ text.toList ++ rest) = some (.index digits, rest) := by
  cases h with
  | run hdigitsNe hdigits htext =>
    have hclose : Text.isDecimalDigit '_' = false := Text.not_isDecimalDigit_of_mem (by simp)
    have hdot : dropDot (dot dotted ++ text.toList ++ rest) = '_' :: (digits ++ '_' :: rest) := by
      rw [List.append_assoc, dropDot_dot dotted (head?_name_append hne hchars (by decide)), htext]
      simp
    have hindex : underscored (dot dotted ++ text.toList ++ rest) = some (.index digits, rest) := by
      rw [underscored, hdot]
      simp only [digitsThen_append hclose hdigitsNe hdigits, hrest, if_true]
    rw [nextToken, bracketed_name hne hchars, hindex]
    rfl

/-- Whether a text starts with a run, perhaps after a dot, that is as long as it can be. -/
structure StartsWith (dotted : Bool) (text : String) (cs rest : List Char) : Prop where
  nonempty : text ≠ ""
  chars : ∀ c ∈ text.toList, isSpecial c = false
  ends : ∀ c ∈ rest.head?, isSpecial c = true
  split : cs = dot dotted ++ text.toList ++ rest

/-- A text may start with a dot. -/
theorem exists_dot (cs : List Char) : ∃ dotted, cs = dot dotted ++ dropDot cs := by
  unfold dropDot
  split
  · exact ⟨true, rfl⟩
  · exact ⟨false, rfl⟩

/-- An index between underscores that is read stands at the start. -/
theorem startsWith_of_underscored (h : underscored cs = some (token, rest)) :
    ∃ dotted text digits, StartsWith dotted text cs rest ∧
      (Piece.run dotted text).HasDigits digits ∧ token = .index digits := by
  obtain ⟨dotted, hdotted⟩ := exists_dot cs
  unfold underscored at h
  split at h
  · rename_i tail htail
    split at h
    · rename_i digits after hdigits
      split at h
      · rename_i hboundary
        rw [Option.some.injEq, Prod.mk.injEq] at h
        obtain ⟨rfl, rfl⟩ := h
        obtain ⟨rfl, hne, hall⟩ := eq_of_digitsThen hdigits
        have htext : (String.ofList ('_' :: digits ++ ['_'])).toList = '_' :: digits ++ ['_'] :=
          String.toList_ofList
        -- the text of the piece is the underscored numeral itself
        refine ⟨dotted, String.ofList ('_' :: digits ++ ['_']), digits, ⟨?_, ?_, ?_, ?_⟩,
          .run hne hall htext, rfl⟩
        · intro hempty
          rw [hempty] at htext
          exact absurd htext (by simp)
        · rw [htext]
          exact isSpecial_underscored hall
        · exact isSpecial_of_mem_head? hboundary
        · rw [hdotted, htail, htext]
          simp
      · exact absurd h (by simp)
    · exact absurd h (by simp)
  · exact absurd h (by simp)

theorem startsWith_of_named (h : named cs = some (token, rest)) :
    ∃ dotted text, StartsWith dotted text cs rest ∧ token = .name text.toList := by
  obtain ⟨dotted, hdotted⟩ := exists_dot cs
  unfold named at h
  split at h
  · exact absurd h (by simp)
  · rename_i hne
    rw [Option.some.injEq, Prod.mk.injEq] at h
    obtain ⟨rfl, rfl⟩ := h
    refine ⟨dotted, String.ofList ((dropDot cs).takeWhile fun c => !isSpecial c),
      ⟨?_, ?_, ?_, ?_⟩, by rw [String.toList_ofList]⟩
    · intro hempty
      exact hne (by simpa using congrArg String.toList hempty)
    · intro c hc
      rw [String.toList_ofList] at hc
      simpa using List.mem_takeWhile_imp hc
    · -- the run ends where a special character stands, or with the text
      intro c hc
      have hstop := List.head?_dropWhile_not (fun c => !isSpecial c) (dropDot cs)
      rw [hc] at hstop
      simpa using hstop
    · rw [String.toList_ofList, List.append_assoc, List.takeWhile_append_dropWhile, ← hdotted]

/-- A token is read from digits in brackets or from a run. -/
theorem nextToken_cases (h : nextToken cs = some (token, rest)) :
    (∃ digits, digits ≠ [] ∧ (∀ c ∈ digits, Text.isDecimalDigit c = true) ∧
      cs = '[' :: digits ++ ']' :: rest ∧ token = .index digits) ∨
    ∃ dotted text, StartsWith dotted text cs rest ∧
      ((∃ digits, (Piece.run dotted text).HasDigits digits ∧ token = .index digits) ∨
        token = .name text.toList) := by
  rw [nextToken] at h
  -- the brackets are tried first, then the underscores, and a name last
  rcases Option.or_eq_some_iff.1 h with h | ⟨-, h⟩
  · left
    unfold bracketed at h
    split at h
    · obtain ⟨⟨digits, after⟩, hdigits, heq⟩ := Option.map_eq_some_iff.1 h
      obtain ⟨rfl, rfl⟩ := Prod.mk.inj heq
      obtain ⟨rfl, hne, hall⟩ := eq_of_digitsThen hdigits
      exact ⟨digits, hne, hall, rfl, rfl⟩
    · exact absurd h (by simp)
  · right
    rcases Option.or_eq_some_iff.1 h with h | ⟨-, h⟩
    · obtain ⟨dotted, text, digits, hstarts, hdigits, htoken⟩ := startsWith_of_underscored h
      exact ⟨dotted, text, hstarts, .inl ⟨digits, hdigits, htoken⟩⟩
    · obtain ⟨dotted, text, hstarts, htoken⟩ := startsWith_of_named h
      exact ⟨dotted, text, hstarts, .inr htoken⟩

/-- Digits are the index that they denote, unless they are too many. -/
theorem segment_index_eq_ok_iff {s : PathSegment} (hne : digits ≠ [])
    (hdigits : ∀ c ∈ digits, Text.isDecimalDigit c = true) :
    (Token.index digits).segment = .ok s ↔ digits.length ≤ Text.maxDigits ∧
      s = .index (Text.digitsValue (digits.filterMap Text.digitValue?)) := by
  rw [Token.segment, Text.readNatural_of_isDecimalDigit hdigits hne]
  by_cases hlong : Text.maxDigits < digits.length
  · rw [if_pos hlong]
    exact iff_of_false (by simp) fun h => absurd h.1 (Nat.not_le.2 hlong)
  · rw [if_neg hlong]
    simp [Nat.not_lt.1 hlong, eq_comm]

/-- The digits of a piece are decimal digits, and there is at least one. -/
theorem Piece.HasDigits.valid {dotted : Bool} {text : String}
    (h : (Piece.run dotted text).HasDigits digits) :
    digits ≠ [] ∧ ∀ c ∈ digits, Text.isDecimalDigit c = true := by
  cases h with
  | run hne hdigits => exact ⟨hne, hdigits⟩

/-- A text that is cut into pieces is read as the segments that they mean. -/
theorem segmentsOf_of_cuts {segments : List PathSegment} (h : Cuts pieces cs)
    (hmeans : List.Forall₂ Piece.Means pieces segments) (path : String) :
    segmentsOf path cs = .ok segments := by
  induction h generalizing segments with
  | nil =>
    cases hmeans
    rw [segmentsOf]
  | @bracketed digits rest pieces hne hdigits h ih =>
    cases hmeans with
    | cons hp hrest =>
      refine segmentsOf_cons (nextToken_bracketed hne hdigits) ?_ (ih hrest)
      cases hp with
      | index hhas hshort =>
        cases hhas
        exact (segment_index_eq_ok_iff hne hdigits).2 ⟨hshort, rfl⟩
  | @run dotted text rest pieces hne hchars hend h ih =>
    have hboundary := h.atBoundary hend
    cases hmeans with
    | cons hp hrest =>
      -- at the boundary an index is read as one, whatever else the text could be
      cases hp with
      | index hhas hshort =>
        refine segmentsOf_cons (nextToken_underscored hne hchars hhas hboundary) ?_ (ih hrest)
        exact (segment_index_eq_ok_iff hhas.valid.1 hhas.valid.2).2 ⟨hshort, rfl⟩
      | name hindex =>
        refine segmentsOf_cons (nextToken_name hne hchars hindex hboundary dotted) ?_ (ih hrest)
        rw [Token.segment, String.ofList_toList]

/-- Segments that are read start with a token, and the others are read from the rest. -/
theorem segmentsOf_inv {path : String} {segments : List PathSegment} (hne : cs ≠ [])
    (h : segmentsOf path cs = .ok segments) :
    ∃ token rest segment others, nextToken cs = some (token, rest) ∧ token.segment = .ok segment ∧
      segmentsOf path rest = .ok others ∧ segments = segment :: others := by
  cases hnext : nextToken cs with
  | none =>
    -- without a token a text that is not empty is refused
    cases cs with
    | nil => exact absurd rfl hne
    | cons c cs =>
      rw [segmentsOf] at h
      split at h
      · exact absurd h (by simp)
      · rename_i hsome
        rw [hnext] at hsome
        exact absurd hsome (by simp)
  | some next =>
    obtain ⟨token, rest⟩ := next
    rw [segmentsOf_eq hnext] at h
    obtain ⟨segment, hsegment, h⟩ := bind_eq_ok.1 h
    obtain ⟨others, hothers, heq⟩ := map_eq_ok.1 h
    exact ⟨token, rest, segment, others, rfl, hsegment, hothers, heq.symm⟩

/-- A text is read as some segments if it is cut into pieces that mean them, and only then. -/
theorem segmentsOf_eq_ok_iff {path : String} {segments : List PathSegment} :
    segmentsOf path cs = .ok segments ↔
      ∃ pieces, Cuts pieces cs ∧ List.Forall₂ Piece.Means pieces segments := by
  constructor
  · intro h
    induction hlength : cs.length using Nat.strongRecOn generalizing cs segments with
    | ind length ih =>
      by_cases hne : cs = []
      · subst hne
        rw [segmentsOf] at h
        obtain rfl := Except.ok.inj h
        exact ⟨[], .nil, .nil⟩
      · obtain ⟨token, rest, segment, others, hnext, hsegment, hothers, rfl⟩ := segmentsOf_inv hne h
        have hshorter := nextToken_length hnext
        obtain ⟨pieces, hpieces, hmeans⟩ := ih rest.length (by omega) hothers rfl
        -- by induction over the length, as each token takes something away
        rcases nextToken_cases hnext with
          ⟨digits, hdigitsNe, hdigits, rfl, rfl⟩ | ⟨dotted, text, hstarts, htoken⟩
        · obtain ⟨hshort, rfl⟩ := (segment_index_eq_ok_iff hdigitsNe hdigits).1 hsegment
          exact ⟨_, .bracketed hdigitsNe hdigits hpieces, .cons (.index .bracketed hshort) hmeans⟩
        · obtain ⟨htextNe, hchars, hends, rfl⟩ := hstarts
          refine ⟨.run dotted text :: pieces, .run htextNe hchars hends hpieces, .cons ?_ hmeans⟩
          have hboundary := hpieces.atBoundary hends
          rcases htoken with ⟨digits, hhas, rfl⟩ | rfl
          · obtain ⟨hshort, rfl⟩ :=
              (segment_index_eq_ok_iff hhas.valid.1 hhas.valid.2).1 hsegment
            exact .index hhas hshort
          · rw [Token.segment, String.ofList_toList] at hsegment
            obtain rfl := Except.ok.inj hsegment
            refine .name fun hindex => ?_
            -- a run that looks like an index is a name only before a closing bracket
            obtain ⟨digits, hhas⟩ := Piece.isIndexLike_iff.1 hindex
            rw [nextToken_underscored htextNe hchars hhas hboundary] at hnext
            exact absurd hnext (by simp)
  · rintro ⟨pieces, hpieces, hmeans⟩
    exact segmentsOf_of_cuts hpieces hmeans path

-- ---------------------------------------------------------------------------
-- Spellings
-- ---------------------------------------------------------------------------

/-- Whether a name can be given in a path: it has characters, none with a meaning there and no
blanks at its ends, and is not made of digits between two underscores. -/
structure IsName (name : String) : Prop where
  nonempty : name ≠ ""
  chars : ∀ c ∈ name.toList, isSpecial c = false
  trimmed : Text.Trimmed name.toList
  notIndex : ¬IsIndexLike name

/-- Whether a text has the characters of a name, and no blanks at its ends. -/
def hasNameChars (name : String) : Bool :=
  name ≠ "" && name.toList.all (fun c => !isSpecial c) &&
    name.toList.head?.all (fun c => !Text.isBlank c) &&
    name.toList.getLast?.all (fun c => !Text.isBlank c)

/-- Characters of names make a name, unless they look like an index. -/
theorem isName_of_hasNameChars {name : String} (h : hasNameChars name = true)
    (hindex : ¬IsIndexLike name) : IsName name := by
  simp only [hasNameChars, Bool.and_eq_true, decide_eq_true_eq, List.all_eq_true,
    Option.all_eq_true, Bool.not_eq_true'] at h
  obtain ⟨⟨⟨hne, hchars⟩, hhead⟩, hlast⟩ := h
  exact ⟨hne, hchars, ⟨hhead, hlast⟩, hindex⟩

/-- Whether a segment can be given in a path: as a name, or by an index without more digits than a
numeral may have. -/
def IsSpellable : PathSegment → Prop
  | .name name => IsName name
  | .index i => i < Text.numeralBound

/-- What stands before a segment in a path. -/
inductive Before
  | nothing | bracket | run
  deriving DecidableEq

/-- Whether a text spells some segments, behind something else. An index is in brackets, or between
underscores and after a dot unless it comes first; the dot before a name can be left out at the
start and behind a bracket. -/
inductive Spells : Before → List PathSegment → List Char → Prop
  | nil {before : Before} : Spells before [] []
  | bracketed {before : Before} {i : Nat} {segments : List PathSegment} {rest : List Char}
      (h : Spells .bracket segments rest) :
      Spells before (.index i :: segments) ('[' :: Nat.toDigits 10 i ++ ']' :: rest)
  | underscored {before : Before} {i : Nat} {segments : List PathSegment} {rest : List Char}
      (h : Spells .run segments rest) :
      Spells before (.index i :: segments)
        (dot (before ≠ .nothing) ++ ('_' :: Nat.toDigits 10 i ++ ['_']) ++ rest)
  | name {before : Before} {dotted : Bool} {name : String} {segments : List PathSegment}
      {rest : List Char} (hdot : dotted = true ∨ before ≠ .run) (h : Spells .run segments rest) :
      Spells before (.name name :: segments) (dot dotted ++ name.toList ++ rest)

section Spells

variable {before : Before} {segments : List PathSegment}

/-- What is spelled behind a run starts with a dot or a bracket. -/
theorem Spells.head_special (h : Spells .run segments cs) : ∀ c ∈ cs.head?, isSpecial c = true := by
  cases h with
  | nil => simp
  | bracketed =>
    intro c hc
    obtain rfl := Option.some.inj hc
    decide
  | underscored =>
    intro c hc
    obtain rfl := Option.some.inj hc
    decide
  | name hdot =>
    obtain rfl := hdot.resolve_right fun h => h rfl
    intro c hc
    obtain rfl := Option.some.inj hc
    decide

/-- The spelling of segments is cut into pieces that mean them. -/
theorem cuts_of_spells (h : Spells before segments cs) (hs : ∀ s ∈ segments, IsSpellable s) :
    ∃ pieces, Cuts pieces cs ∧ List.Forall₂ Piece.Means pieces segments := by
  induction h with
  | nil => exact ⟨[], .nil, .nil⟩
  | @bracketed before i segments rest h ih =>
    obtain ⟨hi, hs⟩ := List.forall_mem_cons.1 hs
    obtain ⟨pieces, hpieces, hmeans⟩ := ih hs
    have hindex := Piece.Means.index .bracketed (Text.length_toDigits_le hi)
    rw [Text.digitsValue_toDigits] at hindex
    exact ⟨_, .bracketed Nat.toDigits_ne_nil Text.isDecimalDigit_of_mem_toDigits hpieces,
      .cons hindex hmeans⟩
  | @underscored before i segments rest h ih =>
    obtain ⟨hi, hs⟩ := List.forall_mem_cons.1 hs
    obtain ⟨pieces, hpieces, hmeans⟩ := ih hs
    -- the underscored index, as a text of its own
    have htext : (String.ofList ('_' :: Nat.toDigits 10 i ++ ['_'])).toList =
        '_' :: Nat.toDigits 10 i ++ ['_'] := String.toList_ofList
    have hne : String.ofList ('_' :: Nat.toDigits 10 i ++ ['_']) ≠ "" := by
      intro hempty
      rw [hempty] at htext
      exact absurd htext (by simp)
    have hchars := isSpecial_underscored (@Text.isDecimalDigit_of_mem_toDigits i)
    rw [← htext] at hchars ⊢
    have hdigits : (Piece.run (decide (before ≠ .nothing))
        (String.ofList ('_' :: Nat.toDigits 10 i ++ ['_']))).HasDigits (Nat.toDigits 10 i) :=
      .run Nat.toDigits_ne_nil Text.isDecimalDigit_of_mem_toDigits htext
    have hindex := Piece.Means.index hdigits (Text.length_toDigits_le hi)
    rw [Text.digitsValue_toDigits] at hindex
    exact ⟨_, .run hne hchars h.head_special hpieces, .cons hindex hmeans⟩
  | name hdot h ih =>
    obtain ⟨hname, hs⟩ := List.forall_mem_cons.1 hs
    obtain ⟨pieces, hpieces, hmeans⟩ := ih hs
    exact ⟨_, .run hname.nonempty hname.chars h.head_special hpieces,
      .cons (.name hname.notIndex) hmeans⟩

theorem trimmed_dot (dotted : Bool) : Text.Trimmed (dot dotted) := by
  cases dotted with
  | true =>
    have hdot : Text.isBlank '.' = false := by decide
    exact ⟨by simpa [dot] using hdot, by simpa [dot] using hdot⟩
  | false => exact ⟨by simp [dot], by simp [dot]⟩

/-- A text has no blanks at its ends if its first and last characters are none. -/
theorem trimmed_of_ends {first last : Char} (inside : List Char)
    (hfirst : Text.isBlank first = false) (hlast : Text.isBlank last = false) :
    Text.Trimmed (first :: inside ++ [last]) := by
  constructor
  · intro c hc
    obtain rfl := Option.some.inj hc
    exact hfirst
  · intro c hc
    rw [List.getLast?_append, List.getLast?_singleton, Option.some_or, Option.mem_some_iff] at hc
    rw [← hc]
    exact hlast

/-- There are no blanks around what is spelled. -/
theorem trimmed_of_spells (h : Spells before segments cs) (hs : ∀ s ∈ segments, IsSpellable s) :
    Text.Trimmed cs := by
  induction h with
  | nil => exact ⟨by simp, by simp⟩
  | bracketed h ih =>
    rw [List.append_cons]
    exact Text.Trimmed.append (trimmed_of_ends _ (by decide) (by decide))
      (ih (List.forall_mem_cons.1 hs).2)
  | underscored h ih =>
    refine ((trimmed_dot _).append ?_).append (ih (List.forall_mem_cons.1 hs).2)
    exact trimmed_of_ends _ (by decide) (by decide)
  | name hdot h ih =>
    obtain ⟨hname, hs⟩ := List.forall_mem_cons.1 hs
    exact ((trimmed_dot _).append hname.trimmed).append (ih hs)

end Spells

end Path

/-- All spellings of segments are read as these. A text is read as some segments exactly if it can
be cut into pieces that mean them, once the blanks around it are gone, and it is refused exactly if
it cannot be cut into pieces or an index among them has more digits than a numeral may have. -/
theorem splitPath_of_spells :
    (∀ {segments : List PathSegment} {cs : List Char}, Path.Spells .nothing segments cs →
      (∀ s ∈ segments, Path.IsSpellable s) → splitPath (String.ofList cs) = .ok segments) ∧
    ∀ path : String,
      (∀ segments, splitPath path = .ok segments ↔
        ∃ pieces, Path.Cuts pieces (Text.stripped path).toList ∧
          List.Forall₂ Path.Piece.Means pieces segments) ∧
      ((∃ fault, splitPath path = .error fault) ↔
        ¬∃ pieces, Path.Cuts pieces (Text.stripped path).toList ∧ ∀ p ∈ pieces, p.IsShort) := by
  refine ⟨?_, fun path => ⟨fun segments => Path.segmentsOf_eq_ok_iff, ?_⟩⟩
  · intro segments cs h hs
    have hstripped : Text.stripped (String.ofList cs) = String.ofList cs := by
      rw [Text.stripped, String.toList_ofList, (Path.trimmed_of_spells h hs).stripBlanks_eq]
    rw [splitPath, hstripped, String.toList_ofList]
    exact Path.segmentsOf_eq_ok_iff.2 (Path.cuts_of_spells h hs)
  · -- every text is cut in one way only, so that it is refused if a numeral in it is too long
    have hok : (∃ segments, splitPath path = .ok segments) ↔
        ∃ pieces, Path.Cuts pieces (Text.stripped path).toList ∧ ∀ p ∈ pieces, p.IsShort := by
      simp only [← Path.Piece.exists_forall₂_means_iff]
      constructor
      · rintro ⟨segments, h⟩
        obtain ⟨pieces, hpieces, hmeans⟩ := Path.segmentsOf_eq_ok_iff.1 h
        exact ⟨pieces, hpieces, segments, hmeans⟩
      · rintro ⟨pieces, hpieces, segments, hmeans⟩
        exact ⟨segments, Path.segmentsOf_eq_ok_iff.2 ⟨pieces, hpieces, hmeans⟩⟩
    rw [← hok]
    cases splitPath path with
    | error fault => simp
    | ok segments => simp

/-- Segments with all ways of spelling, and a name that begins like an index. -/
def mixedSegments : List PathSegment :=
  [.name "_1_x", .index 7, .name "in front", .index 0, .name "b"]

/-- A path with indices in both spellings and blanks inside a name is read back. -/
theorem splitPath_of_spells_mixed :
    Path.Spells .nothing mixedSegments "_1_x[7]in front._0_.b".toList ∧
      (∀ s ∈ mixedSegments, Path.IsSpellable s) ∧
      splitPath "_1_x[7]in front._0_.b" = .ok mixedSegments := by
  have hspells : Path.Spells .nothing mixedSegments "_1_x[7]in front._0_.b".toList :=
    @Path.Spells.name _ false _ _ _ (.inr (by decide)) <| .bracketed <|
      @Path.Spells.name _ false _ _ _ (.inr (by decide)) <| .underscored <|
        @Path.Spells.name _ true _ _ _ (.inl rfl) .nil
  -- the first name has an index for a beginning but not for the whole
  have hlast : ¬Path.IsIndexLike "_1_x" := by
    rintro ⟨digits, -, -, hname⟩
    have := congrArg List.getLast? hname
    rw [List.getLast?_concat] at this
    exact absurd this (by decide)
  have hs : ∀ s ∈ mixedSegments, Path.IsSpellable s := by
    simp only [mixedSegments, List.forall_mem_cons]
    refine ⟨Path.isName_of_hasNameChars (by decide) hlast, ?_,
      Path.isName_of_hasNameChars (by decide) (Path.not_isIndexLike_of_head (by decide)), ?_,
      Path.isName_of_hasNameChars (by decide) (Path.not_isIndexLike_of_head (by decide)), by simp⟩
    · exact Nat.lt_of_lt_of_le (by decide) Text.ten_le_numeralBound
    · exact Nat.lt_of_lt_of_le (by decide) Text.ten_le_numeralBound
  exact ⟨hspells, hs, splitPath_of_spells.1 hspells hs⟩

/-- An index of more digits than a numeral may have. -/
def longIndex : List Char := '[' :: List.replicate (Text.maxDigits + 1) '0' ++ [']']

/-- A path whose index has too many digits is refused, although it can be cut into pieces. -/
theorem long_index_refused :
    (∃ pieces, Path.Cuts pieces (Text.stripped (String.ofList longIndex)).toList) ∧
      ∃ fault, splitPath (String.ofList longIndex) = .error fault := by
  have hdigits : ∀ c ∈ List.replicate (Text.maxDigits + 1) '0', Text.isDecimalDigit c = true := by
    intro c hc
    rw [List.eq_of_mem_replicate hc]
    decide
  have hne : List.replicate (Text.maxDigits + 1) '0' ≠ [] := by simp
  have hstripped : Text.stripped (String.ofList longIndex) = String.ofList longIndex := by
    have htrimmed : Text.Trimmed longIndex := Path.trimmed_of_ends _ (by decide) (by decide)
    rw [Text.stripped, String.toList_ofList, htrimmed.stripBlanks_eq]
  rw [splitPath, hstripped, String.toList_ofList]
  refine ⟨⟨_, .bracketed hne hdigits .nil⟩, ?_⟩
  -- one digit more than a numeral may have
  have hsegment : (Path.Token.index (List.replicate (Text.maxDigits + 1) '0')).segment =
      .error (.numeral (.tooManyDigits (Text.maxDigits + 1))) := by
    rw [Path.Token.segment, Text.readNatural_of_isDecimalDigit hdigits hne, List.length_replicate,
      if_pos (Nat.lt_succ_self _)]
  refine ⟨.numeral (.tooManyDigits (Text.maxDigits + 1)), ?_⟩
  rw [longIndex, Path.segmentsOf_eq (Path.nextToken_bracketed hne hdigits), hsegment]
  rfl

end DebugLayout
