import DebugLayout.Layout.Path
import DebugLayout.Proofs.ArrayShape
import DebugLayout.Proofs.Outcome
import DebugLayout.Proofs.Text.Numeral

/-!
# DebugLayout — paths are read back

A path is **written** from segments in one way: a dot before each name, brackets around each index.
Read again, it gives the same segments, provided that its names are **plain** and none has the form
of an index, digits between two underscores, and that no index has more digits than a numeral may
have. So two routes never have one path.

* `Path.IsPlain`, `Path.IsIndexLike`: what a name must be and what it must not be;
* `Path.isIdentifier`: the identifiers of programming languages are plain;
* `Path.render`: how segments are written;
* `nextToken_bracketed`, `nextToken_name`: how each is read;
* `splitPath_render`: the segments are read back.
-/

namespace DebugLayout

namespace Path

/-- Whether a name has characters, and none that has a meaning in a path or is a blank. -/
def IsPlain (name : String) : Prop :=
  name ≠ "" ∧ ∀ c ∈ name.toList, isSpecial c = false ∧ Text.isBlank c = false

/-- Whether a name is made of digits between two underscores. -/
def IsIndexLike (name : String) : Prop :=
  ∃ digits, digits ≠ [] ∧ (∀ c ∈ digits, Text.isDecimalDigit c = true) ∧
    name.toList = '_' :: digits ++ ['_']

/-- Whether a name is an identifier: letters, digits and underscores, without a digit in front. -/
def isIdentifier (name : String) : Bool :=
  match name.toList with
  | [] => false
  | c :: cs => (c.isAlpha || c = '_') && cs.all fun c => c.isAlphanum || c = '_'

/-- Only what starts with an underscore looks like an index. -/
theorem not_isIndexLike_of_head {name : String} (h : name.toList.head? ≠ some '_') :
    ¬IsIndexLike name := by
  rintro ⟨digits, -, -, hname⟩
  exact h (by rw [hname]; rfl)

theorem isSpecial_eq_true {c : Char} : isSpecial c = true ↔ c = '.' ∨ c = '[' ∨ c = ']' := by
  simp [isSpecial, or_assoc]

/-- What has the form of an index between underscores has no character with a meaning. -/
theorem isSpecial_underscored {digits : List Char}
    (h : ∀ c ∈ digits, Text.isDecimalDigit c = true) :
    ∀ c ∈ '_' :: digits ++ ['_'], isSpecial c = false := by
  have hunderscore : isSpecial '_' = false := by decide
  intro c hc
  rcases List.mem_append.1 hc with hc | hc
  · rcases List.mem_cons.1 hc with rfl | hc
    · exact hunderscore
    · rw [Bool.eq_false_iff]
      intro hspecial
      have hdigit := h c hc
      -- none of the special characters is a digit
      rw [Text.not_isDecimalDigit_of_mem] at hdigit
      · exact absurd hdigit (by decide)
      · rw [isSpecial_eq_true] at hspecial
        rcases hspecial with rfl | rfl | rfl <;> simp
  · rw [List.mem_singleton] at hc
    rw [hc]
    exact hunderscore

/-- A letter, a digit or an underscore neither has a meaning in a path nor is a blank. -/
theorem plain_of_isAlphanum {c : Char} (h : (c.isAlphanum || c = '_') = true) :
    isSpecial c = false ∧ Text.isBlank c = false := by
  have hcodes : (Text.blankCodes.map Char.ofNat).all
      (fun d => !(d.isAlphanum || d = '_')) = true := by decide
  constructor
  · rw [Bool.eq_false_iff]
    intro hspecial
    rw [isSpecial_eq_true] at hspecial
    rcases hspecial with rfl | rfl | rfl
    all_goals exact absurd h (by decide)
  · rw [Bool.eq_false_iff]
    intro hblank
    -- the blank characters are finitely many, and none of them is alphanumeric
    have hmem : c ∈ Text.blankCodes.map Char.ofNat :=
      List.mem_map.2 ⟨c.toNat, List.contains_iff_mem.1 hblank, Char.ofNat_toNat c⟩
    have hother := List.all_eq_true.1 hcodes c hmem
    rw [h] at hother
    exact absurd hother (by decide)

/-- An identifier can stand in a path as it is. -/
theorem isPlain_of_isIdentifier {name : String} (h : isIdentifier name = true) : IsPlain name := by
  unfold isIdentifier at h
  split at h
  · exact absurd h (by decide)
  · rename_i c cs hname
    rw [Bool.and_eq_true, List.all_eq_true] at h
    constructor
    · rintro rfl
      exact absurd hname (by simp)
    · rw [hname]
      intro d hd
      refine plain_of_isAlphanum ?_
      -- the first character may not be a digit, the others may
      rcases List.mem_cons.1 hd with rfl | hd
      · have hfirst := h.1
        rw [Bool.or_eq_true] at hfirst ⊢
        rcases hfirst with halpha | hunderscore
        · exact .inl (by rw [Char.isAlphanum, halpha]; rfl)
        · exact .inr hunderscore
      · exact h.2 d hd

-- ---------------------------------------------------------------------------
-- Writing
-- ---------------------------------------------------------------------------

/-- The dot before a name or an index, or none. -/
def dot : Bool → List Char
  | true => ['.']
  | false => []

/-- How a segment is written. -/
def text : PathSegment → String
  | .name name => "." ++ name
  | .index i => s!"[{i}]"

/-- How segments are written. -/
def render (segments : List PathSegment) : String := String.join (segments.map text)

theorem render_append (segments rest : List PathSegment) :
    render (segments ++ rest) = render segments ++ render rest := by
  rw [render, List.map_append, String.join_append]
  rfl

theorem render_name (name : String) : render [.name name] = "." ++ name := by
  rw [render, List.map_singleton, String.join_cons]
  exact String.append_empty

/-- The indices of a position are written as in the name of an element. -/
theorem render_index (position : List Nat) :
    render (position.map .index) = ArrayShape.brackets position := by
  rw [render, ArrayShape.brackets, List.map_map]
  rfl

/-- Whether a segment can be read back. -/
def IsReadable : PathSegment → Prop
  | .name name => IsPlain name ∧ ¬IsIndexLike name
  | .index i => i < Text.numeralBound

theorem toList_text_name (name : String) :
    (text (.name name)).toList = dot true ++ name.toList := by
  rw [text, String.toList_append]
  rfl

/-- The characters of an index in a path: its digits between brackets. -/
theorem toList_text_index (i : Nat) :
    (text (.index i)).toList = '[' :: Nat.toDigits 10 i ++ [']'] := by
  show (toString "[" ++ toString i ++ toString "]").toList = _
  rw [String.toList_append, String.toList_append, Nat.toString_eq_ofList_toDigits,
    String.toList_ofList]
  rfl

/-- The characters of segments are those of the first and then those of the others. -/
theorem toList_render_cons (segment : PathSegment) (segments : List PathSegment) :
    (render (segment :: segments)).toList = (text segment).toList ++ (render segments).toList := by
  rw [render, List.map_cons, String.join_cons, String.toList_append]
  rfl

/-- What is written of a segment starts with a dot or a bracket. -/
theorem atBoundary_render (segments : List PathSegment) :
    atBoundary (render segments).toList = true := by
  cases segments with
  | nil => rfl
  | cons segment segments =>
    rw [toList_render_cons]
    cases segment with
    | name name =>
      rw [toList_text_name]
      rfl
    | index i =>
      rw [toList_text_index]
      rfl

-- ---------------------------------------------------------------------------
-- Reading
-- ---------------------------------------------------------------------------

/-- Digits are read up to the character that closes them. -/
theorem digitsThen_append {close : Char} {digits rest : List Char}
    (hclose : Text.isDecimalDigit close = false) (hne : digits ≠ [])
    (hdigits : ∀ c ∈ digits, Text.isDecimalDigit c = true) :
    digitsThen close (digits ++ close :: rest) = some (digits, rest) := by
  rw [digitsThen, List.dropWhile_append_of_pos hdigits, List.takeWhile_append_of_pos hdigits,
    List.dropWhile_cons_of_neg (by simp [hclose]), List.takeWhile_cons_of_neg (by simp [hclose])]
  simp [hne]

/-- Only digits and the character that closes them are read. -/
theorem eq_of_digitsThen {close : Char} {cs digits rest : List Char}
    (h : digitsThen close cs = some (digits, rest)) :
    cs = digits ++ close :: rest ∧ digits ≠ [] ∧
      ∀ c ∈ digits, Text.isDecimalDigit c = true := by
  unfold digitsThen at h
  split at h
  · exact absurd h (by simp)
  · rename_i c after hdrop
    split at h
    · rename_i hclose
      rw [Option.some.injEq, Prod.mk.injEq] at h
      obtain ⟨rfl, rfl⟩ := h
      obtain ⟨rfl, hne⟩ := hclose
      refine ⟨?_, hne, fun d hd => List.mem_takeWhile_imp hd⟩
      rw [← hdrop, List.takeWhile_append_dropWhile]
    · exact absurd h (by simp)

/-- Digits in brackets are read as an index. -/
theorem nextToken_bracketed {digits rest : List Char} (hne : digits ≠ [])
    (hdigits : ∀ c ∈ digits, Text.isDecimalDigit c = true) :
    nextToken ('[' :: digits ++ ']' :: rest) = some (.index digits, rest) := by
  have hclose : Text.isDecimalDigit ']' = false := Text.not_isDecimalDigit_of_mem (by simp)
  have hbracketed : bracketed ('[' :: digits ++ ']' :: rest) = some (.index digits, rest) := by
    rw [List.cons_append, bracketed, digitsThen_append hclose hne hdigits]
    rfl
  rw [nextToken, hbracketed]
  rfl

/-- A character at which a token may end has a meaning in a path. -/
theorem isSpecial_of_atBoundary {c : Char} {cs : List Char} (h : atBoundary (c :: cs) = true) :
    isSpecial c = true := by
  simp only [atBoundary, Bool.or_eq_true, decide_eq_true_eq] at h
  rw [isSpecial_eq_true]
  rcases h with h | h
  · exact .inl h
  · exact .inr (.inl h)

theorem isSpecial_of_mem_head? {cs : List Char} (h : atBoundary cs = true) :
    ∀ c ∈ cs.head?, isSpecial c = true := by
  cases cs with
  | nil => simp
  | cons first cs =>
    intro c hc
    obtain rfl := Option.some.inj hc
    exact isSpecial_of_atBoundary h

section Names

variable {name : String} {rest : List Char}

theorem dropDot_dot (dotted : Bool) {cs : List Char} (h : cs.head? ≠ some '.') :
    dropDot (dot dotted ++ cs) = cs := by
  cases dotted with
  | true => rfl
  | false =>
    rw [dot, List.nil_append]
    unfold dropDot
    split
    · exact absurd rfl h
    · rfl

variable (hne : name ≠ "") (hchars : ∀ c ∈ name.toList, isSpecial c = false)
include hne hchars

theorem head?_name_append {c : Char} (hspecial : isSpecial c = true) :
    (name.toList ++ rest).head? ≠ some c := by
  cases hname : name.toList with
  | nil => exact absurd (String.toList_inj.1 hname) hne
  | cons first more =>
    rintro heq
    obtain rfl := Option.some.inj heq
    rw [hchars first (by rw [hname]; exact List.mem_cons_self)] at hspecial
    exact absurd hspecial (by decide)

/-- No index in brackets starts with a name. -/
theorem bracketed_name (dotted : Bool) : bracketed (dot dotted ++ name.toList ++ rest) = none := by
  cases dotted with
  | true => rfl
  | false =>
    rw [dot, List.nil_append]
    unfold bracketed
    split
    · rename_i cs hcs
      exact absurd (congrArg List.head? hcs) (head?_name_append hne hchars (by decide))
    · rfl

/-- A name before the end of a token is read as an index only if it has the form of one. -/
theorem underscored_eq_none (hindex : ¬IsIndexLike name) (hrest : atBoundary rest = true)
    (dotted : Bool) : underscored (dot dotted ++ name.toList ++ rest) = none := by
  have hdot : dropDot (dot dotted ++ name.toList ++ rest) = name.toList ++ rest := by
    rw [List.append_assoc]
    exact dropDot_dot dotted (head?_name_append hne hchars (by decide))
  unfold underscored
  rw [hdot]
  split
  · rename_i cs hcs
    split
    · rename_i digits after hdigitsThen
      rw [if_neg]
      intro hafter
      obtain ⟨rfl, hne, hdigits⟩ := eq_of_digitsThen hdigitsThen
      have hsplit : name.toList ++ rest = ('_' :: digits ++ ['_']) ++ after := by
        rw [hcs, List.append_assoc]
        rfl
      rcases List.append_eq_append_iff.1 hsplit with ⟨more, hmore, rfl⟩ | ⟨more, hmore, rfl⟩
      · -- the index ends after the name, so what follows the name would start with a part of it
        cases more with
        | nil =>
          rw [List.append_nil] at hmore
          exact hindex ⟨digits, hne, hdigits, hmore.symm⟩
        | cons c more =>
          have hspecial := isSpecial_of_atBoundary hrest
          rw [isSpecial_underscored hdigits c (by rw [hmore]; simp)] at hspecial
          exact absurd hspecial (by decide)
      · -- the name ends after the index, and would have a special character within it
        cases more with
        | nil =>
          rw [List.append_nil] at hmore
          exact hindex ⟨digits, hne, hdigits, hmore⟩
        | cons c more =>
          have hspecial := isSpecial_of_atBoundary hafter
          rw [hchars c (by simp [hmore])] at hspecial
          exact absurd hspecial (by decide)
    · rfl
  · rfl

/-- A name is read up to the next special character. -/
theorem named_name (hrest : ∀ c ∈ rest.head?, isSpecial c = true) (dotted : Bool) :
    named (dot dotted ++ name.toList ++ rest) = some (.name name.toList, rest) := by
  have hall : ∀ c ∈ name.toList, (!isSpecial c) = true := by
    intro c hc
    rw [hchars c hc]
    rfl
  -- what follows is at once at its end, or begins with a special character
  have hstop : rest.takeWhile (fun c => !isSpecial c) = [] ∧
      rest.dropWhile (fun c => !isSpecial c) = rest := by
    cases rest with
    | nil => exact ⟨rfl, rfl⟩
    | cons c cs =>
      have hspecial := hrest c rfl
      exact ⟨List.takeWhile_cons_of_neg (by simp [hspecial]),
        List.dropWhile_cons_of_neg (by simp [hspecial])⟩
  have hdot : dropDot (dot dotted ++ name.toList ++ rest) = name.toList ++ rest := by
    rw [List.append_assoc]
    exact dropDot_dot dotted (head?_name_append hne hchars (by decide))
  rw [named, hdot, List.takeWhile_append_of_pos hall, List.dropWhile_append_of_pos hall,
    hstop.1, hstop.2, List.append_nil]
  split
  · rename_i hnil
    exact absurd (String.toList_inj.1 hnil) hne
  · rfl

/-- A name is read as it was written. -/
theorem nextToken_name (hindex : ¬IsIndexLike name) (hrest : atBoundary rest = true)
    (dotted : Bool) :
    nextToken (dot dotted ++ name.toList ++ rest) = some (.name name.toList, rest) := by
  rw [nextToken, bracketed_name hne hchars, underscored_eq_none hne hchars hindex hrest,
    named_name hne hchars (isSpecial_of_mem_head? hrest)]
  rfl

end Names

/-- The segment of the first token comes before those of the rest. -/
theorem segmentsOf_eq {cs rest : List Char} {token : Token}
    (h : nextToken cs = some (token, rest)) (path : String) :
    segmentsOf path cs =
      token.segment >>= fun segment => (segmentsOf path rest).map (segment :: ·) := by
  cases cs with
  | nil => exact absurd h (by simp [nextToken, bracketed, underscored, named, dropDot])
  | cons c cs =>
    rw [segmentsOf]
    split
    · rename_i hnone
      rw [h] at hnone
      exact absurd hnone (by simp)
    · rename_i hsome
      rw [h, Option.some.injEq, Prod.mk.injEq] at hsome
      obtain ⟨rfl, rfl⟩ := hsome
      cases token.segment with
      | error fault => rfl
      | ok segment => cases segmentsOf path rest <;> rfl

theorem segmentsOf_cons {path : String} {cs rest : List Char} {token : Token}
    {segment : PathSegment} {segments : List PathSegment} (hcs : nextToken cs = some (token, rest))
    (htoken : token.segment = .ok segment) (hrest : segmentsOf path rest = .ok segments) :
    segmentsOf path cs = .ok (segment :: segments) := by
  rw [segmentsOf_eq hcs, htoken, hrest]
  rfl

/-- Readable segments are read back from their spelling. -/
theorem segmentsOf_render {segments : List PathSegment} (h : ∀ s ∈ segments, IsReadable s)
    (path : String) : segmentsOf path (render segments).toList = .ok segments := by
  induction segments with
  | nil =>
    show segmentsOf path [] = .ok []
    rw [segmentsOf]
  | cons segment segments ih =>
    have hsegment := h segment List.mem_cons_self
    have hrest := ih fun s hs => h s (List.mem_cons_of_mem segment hs)
    rw [toList_render_cons]
    cases segment with
    | name name =>
      obtain ⟨hplain, hindex⟩ := hsegment
      have hchars := fun c hc => (hplain.2 c hc).1
      rw [toList_text_name]
      refine segmentsOf_cons
        (nextToken_name hplain.1 hchars hindex (atBoundary_render segments) true) ?_ hrest
      rw [Token.segment, String.ofList_toList]
    | index i =>
      -- the numeral of the index is short enough to be read back
      have hdigits := @Text.isDecimalDigit_of_mem_toDigits i
      rw [toList_text_index, List.append_assoc]
      refine segmentsOf_cons (nextToken_bracketed Nat.toDigits_ne_nil hdigits) ?_ hrest
      rw [Token.segment, Text.readNatural_of_isDecimalDigit hdigits Nat.toDigits_ne_nil,
        if_neg (Nat.not_lt.2 (Text.length_toDigits_le hsegment)), Text.digitsValue_toDigits]

/-- Nothing that is written is a blank. -/
theorem isBlank_render {segments : List PathSegment} (h : ∀ s ∈ segments, IsReadable s) :
    ∀ c ∈ (render segments).toList, Text.isBlank c = false := by
  induction segments with
  | nil => simp [render]
  | cons segment segments ih =>
    rw [toList_render_cons]
    intro c hc
    rcases List.mem_append.1 hc with hc | hc
    · cases segment with
      | name name =>
        rw [toList_text_name] at hc
        rcases List.mem_cons.1 hc with rfl | hc
        · decide
        · exact ((h _ List.mem_cons_self).1.2 c hc).2
      | index i =>
        rw [toList_text_index] at hc
        simp only [List.cons_append, List.mem_cons, List.mem_append, List.not_mem_nil,
          or_false] at hc
        -- an opening bracket, a digit, a closing bracket
        rcases hc with rfl | hc | rfl
        · decide
        · have hdigit := Nat.isDigit_of_mem_toDigits (by decide) (by decide) hc
          refine (plain_of_isAlphanum ?_).2
          rw [Char.isAlphanum, hdigit, Bool.or_true]
          rfl
        · decide
    · exact ih (fun s hs => h s (List.mem_cons_of_mem segment hs)) c hc

end Path

/-- Whether there are no blanks at the ends of a text. -/
structure Text.Trimmed (cs : List Char) : Prop where
  head : ∀ c ∈ cs.head?, Text.isBlank c = false
  last : ∀ c ∈ cs.getLast?, Text.isBlank c = false

/-- Texts without blanks at their ends have none when they are put together. -/
theorem Text.Trimmed.append {cs cs' : List Char} (h : Text.Trimmed cs) (h' : Text.Trimmed cs') :
    Text.Trimmed (cs ++ cs') := by
  constructor
  · intro c hc
    rw [List.head?_append, Option.mem_def, Option.or_eq_some_iff] at hc
    rcases hc with hc | ⟨-, hc⟩
    · exact h.head c hc
    · exact h'.head c hc
  · intro c hc
    rw [List.getLast?_append, Option.mem_def, Option.or_eq_some_iff] at hc
    rcases hc with hc | ⟨-, hc⟩
    · exact h'.last c hc
    · exact h.last c hc

/-- A text without blanks at its ends keeps all its characters. -/
theorem Text.Trimmed.stripBlanks_eq {cs : List Char} (h : Text.Trimmed cs) :
    Text.stripBlanks cs = cs := by
  have hdrop : ∀ cs : List Char, (∀ c ∈ cs.head?, Text.isBlank c = false) →
      cs.dropWhile Text.isBlank = cs := by
    intro cs hcs
    cases cs with
    | nil => rfl
    | cons c cs => exact List.dropWhile_cons_of_neg (by simp [hcs c rfl])
  rw [Text.stripBlanks, hdrop _ h.head, hdrop _ (by simpa using h.last), List.reverse_reverse]

/-- A text without blanks keeps all its characters. -/
theorem Text.stripped_eq_self {s : String} (h : ∀ c ∈ s.toList, Text.isBlank c = false) :
    Text.stripped s = s := by
  have htrimmed : Text.Trimmed s.toList :=
    ⟨fun c hc => h c (List.mem_of_mem_head? hc), fun c hc => h c (List.mem_of_mem_getLast? hc)⟩
  rw [Text.stripped, htrimmed.stripBlanks_eq, String.ofList_toList]

/-- The segments of a path are those that it was written from. -/
theorem splitPath_render {segments : List PathSegment}
    (h : ∀ s ∈ segments, Path.IsReadable s) : splitPath (Path.render segments) = .ok segments := by
  rw [splitPath, Text.stripped_eq_self (Path.isBlank_render h)]
  exact Path.segmentsOf_render h _

/-- Two routes never have one path. -/
theorem render_injective {segments segments' : List PathSegment}
    (h : ∀ s ∈ segments, Path.IsReadable s) (h' : ∀ s ∈ segments', Path.IsReadable s)
    (heq : Path.render segments = Path.render segments') : segments = segments' := by
  refine eq_of_ok (splitPath_render h) ?_
  rw [heq]
  exact splitPath_render h'

end DebugLayout
