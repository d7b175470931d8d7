import DebugLayout.Proofs.Calibration.Faults
import DebugLayout.Proofs.Calibration.Soundness
import DebugLayout.Proofs.Text.Numeral

/-!
# DebugLayout — classifications come to an end

The layouts of a graph that was built can be classified whatever the memory holds: their scalars
take the bytes of their data types, so that every axis can be checked. Their siblings have shapes.
What is left are the names that the positional policy puts in their natural order. In ASCII such a
name is cut into numerals and text without digits, and a numeral is read unless it has more digits
than any may have.

The default pattern for axes does not bound the number of digits, so that such a name can occur: an
axis that is numbered with one digit too many ends the classification of the curve beside it. That
the pattern admits every number is shown on its matches, for digits of any count.

* `IsRun`, `isRun_of_mem_naturalRuns`: the pieces that a name is cut into;
* `tooMany_of_naturalKey`: names in ASCII that are no natural keys;
* `TypeGraph.LaysOut`: the layouts that a graph has;
* `Classifier.classify_of_laysOut`: what a classification of such layouts ends with;
* `Classifier.numbered_axis_ends_classification`: a numeral that is too long.
-/

namespace DebugLayout

open Text

-- ---------------------------------------------------------------------------
-- Digits in ASCII
-- ---------------------------------------------------------------------------

/-- Whether a text is written in ASCII. -/
def IsAscii (text : List Char) : Prop := ∀ c ∈ text, c.toNat < 128

instance (text : List Char) : Decidable (IsAscii text) :=
  List.decidableBAll (fun c : Char => c.toNat < 128) text

/-- The decimal digits of ASCII are those of decimal notation. -/
theorem isDecimalDigit_of_ascii {c : Char} (h : c.toNat < 128) : isDecimalDigit c = c.isDigit := by
  cases hdigit : c.isDigit with
  | true => exact isDecimalDigit_of_isDigit hdigit
  | false =>
    -- all runs of digits but one lie beyond ASCII
    have hzeros : ∀ z ∈ zeroCodes, z = 48 ∨ 128 ≤ z := by decide
    have hnone : zeroCodes.find? (fun z => z ≤ c.toNat && c.toNat < z + 10) = none := by
      refine List.find?_eq_none.2 fun z hz hrun => ?_
      rw [Bool.and_eq_true, decide_eq_true_eq, decide_eq_true_eq] at hrun
      rcases hzeros z hz with rfl | hz
      · have hdigit' : c.isDigit = true := isDigit_iff.2 ⟨hrun.1, by omega⟩
        rw [hdigit] at hdigit'
        exact absurd hdigit' (by simp)
      · omega
    rw [isDecimalDigit, digitValue?, hnone]
    rfl

/-- In ASCII no other characters have a digit value. -/
theorem isDigitLike_of_ascii {c : Char} (h : c.toNat < 128) :
    isDigitLike c = isDecimalDigit c := by
  have hruns : ∀ run ∈ otherDigitRuns, 128 ≤ run.1 := by decide
  have hnone : otherDigitRuns.any (fun run => run.1 ≤ c.toNat && c.toNat ≤ run.2) = false := by
    refine List.any_eq_false.2 fun run hrun => ?_
    have hfirst := hruns run hrun
    simp only [Bool.and_eq_true, decide_eq_true_eq]
    omega
  rw [isDigitLike, hnone, Bool.or_false]

-- ---------------------------------------------------------------------------
-- The pieces of a name
-- ---------------------------------------------------------------------------

/-- A piece of a text that consists of decimal digits, one at least, or has none. -/
structure IsRun (text : List Char) (run : Bool × List Char) : Prop where
  digits : ∀ c ∈ run.2, isDecimalDigit c = run.1
  ne_nil : run.1 = true → run.2 ≠ []
  within : run.2 <:+: text

/-- The characters that were read since a piece began, the last first, are a piece. -/
theorem isRun_reverse {run : List Char} {isNumber : Bool}
    (hdigits : ∀ c ∈ run, isDecimalDigit c = isNumber) (hne : isNumber = true → run ≠ [])
    (rest : List Char) : IsRun (run.reverse ++ rest) (isNumber, run.reverse) where
  digits c hc := hdigits c (List.mem_reverse.1 hc)
  ne_nil hnumber := by simpa using hne hnumber
  within := (List.prefix_append _ _).isInfix

/-- A name is cut into such pieces. -/
theorem isRun_of_mem_naturalRuns {run cs : List Char} {isNumber : Bool}
    (hdigits : ∀ c ∈ run, isDecimalDigit c = isNumber) (hne : isNumber = true → run ≠ [])
    {r : Bool × List Char} (h : r ∈ naturalRuns run isNumber cs) :
    IsRun (run.reverse ++ cs) r := by
  induction cs generalizing run isNumber with
  | nil =>
    rw [naturalRuns] at h
    split at h
    · rename_i hnumber
      subst hnumber
      rcases List.mem_cons.1 h with rfl | h
      · exact isRun_reverse hdigits hne []
      · obtain rfl := List.mem_singleton.1 h
        exact ⟨by simp, by simp, List.nil_infix⟩
    · rename_i hnumber
      rw [Bool.not_eq_true] at hnumber
      subst hnumber
      obtain rfl := List.mem_singleton.1 h
      exact isRun_reverse hdigits hne []
  | cons c cs ih =>
    rw [naturalRuns] at h
    split at h
    · -- the character goes on with the run
      rename_i heq
      have hdigits' : ∀ d ∈ c :: run, isDecimalDigit d = isNumber := by
        intro d hd
        rcases List.mem_cons.1 hd with rfl | hd
        · exact heq
        · exact hdigits d hd
      have hr := ih hdigits' (by simp) h
      rwa [List.reverse_cons, List.append_assoc, List.singleton_append] at hr
    · rename_i heq
      rcases List.mem_cons.1 h with rfl | h
      · exact isRun_reverse hdigits hne (c :: cs)
      · -- a character of the other kind ends the run and begins the next one
        have hother : isDecimalDigit c = !isNumber := by
          cases isNumber <;> simpa using heq
        have hsingle : ∀ d ∈ [c], isDecimalDigit d = !isNumber := by simpa using hother
        have hr := ih hsingle (by simp) h
        exact ⟨hr.digits, hr.ne_nil, hr.within.trans (List.suffix_append _ _).isInfix⟩

/-- What a piece goes on with is added to it. -/
theorem naturalRuns_append {part : List Char} {isNumber : Bool}
    (h : ∀ c ∈ part, isDecimalDigit c = isNumber) (run rest : List Char) :
    naturalRuns run isNumber (part ++ rest) = naturalRuns (part.reverse ++ run) isNumber rest := by
  induction part generalizing run with
  | nil => rfl
  | cons c cs ih =>
    rw [List.cons_append, naturalRuns, if_pos (h c List.mem_cons_self),
      ih fun d hd => h d (List.mem_cons_of_mem c hd), List.reverse_cons, List.append_assoc,
      List.singleton_append]

/-- A piece of a text in ASCII is read unless it has too many digits. -/
theorem tooMany_of_naturalPart {text : List Char} {run : Bool × List Char} {fault : NumeralFault}
    (hrun : IsRun text run) (hascii : IsAscii text) (h : naturalPart run = .error fault) :
    (∀ c ∈ run.2, c.isDigit = true) ∧ maxDigits < run.2.length ∧
      fault = .tooManyDigits run.2.length := by
  obtain ⟨isNumber, cs⟩ := run
  have hascii : IsAscii cs := fun c hc => hascii c (hrun.within.subset hc)
  have hdigits : ∀ c ∈ cs, isDecimalDigit c = isNumber := hrun.digits
  cases isNumber with
  | true =>
    have hdigit : ∀ c ∈ cs, c.isDigit = true := by
      intro c hc
      rw [← isDecimalDigit_of_ascii (hascii c hc)]
      exact hdigits c hc
    -- a run of digits is a numeral, which is refused by its length alone
    have h : (readNatural _ cs).map NaturalPart.number = .error fault := h
    rw [map_eq_error, readNatural_of_isDigit hdigit (hrun.ne_nil rfl)] at h
    split at h
    · rename_i hlength
      exact ⟨hdigit, hlength, (Except.error.inj h).symm⟩
    · exact absurd h (by simp)
  | false =>
    -- there is no other digit in ASCII that text could be taken for a number by
    have hall : (!cs.isEmpty && cs.all isDigitLike) = false := by
      cases cs with
      | nil => rfl
      | cons c cs =>
        have hc : isDigitLike c = false := by
          rw [isDigitLike_of_ascii (hascii c List.mem_cons_self)]
          exact hdigits c List.mem_cons_self
        simp [hc]
    simp only [naturalPart, hall] at h
    exact absurd h (by simp)

/-- A name in ASCII that is no natural key has a run of too many digits. -/
theorem tooMany_of_naturalKey {name : String} {fault : NumeralFault} (hascii : IsAscii name.toList)
    (h : naturalKey name = .error fault) :
    ∃ digits, digits <:+: name.toList ∧ (∀ c ∈ digits, c.isDigit = true) ∧
      maxDigits < digits.length ∧ fault = .tooManyDigits digits.length := by
  obtain ⟨run, hmem, hpart⟩ := exists_of_mapM_eq_error h
  have hrun : IsRun name.toList run := isRun_of_mem_naturalRuns (by simp) (by simp) hmem
  exact ⟨run.2, hrun.within, tooMany_of_naturalPart hrun hascii hpart⟩

-- ---------------------------------------------------------------------------
-- Matches of regular expressions
-- ---------------------------------------------------------------------------

namespace Regex

/-- A sequence matches where its second part matches after the first. -/
theorem mem_ends_seq {text : Array Char} {first second : Regex} {i j k : Nat}
    (hj : j ∈ ends text first i) (hk : k ∈ ends text second j) :
    k ∈ ends text (seq first second) i := by
  rw [ends, List.mem_eraseDups]
  exact List.mem_flatMap.2 ⟨j, hj, hk⟩

/-- Steps that each lead one position further reach a position as far away as there are rounds. -/
theorem mem_reach {step : Nat → List Nat} {starts : List Nat} {rounds i distance : Nat}
    (hi : i ∈ starts) (hrounds : distance ≤ rounds)
    (hstep : ∀ k, i ≤ k → k < i + distance → k + 1 ∈ step k) :
    i + distance ∈ reach step rounds starts := by
  induction distance generalizing starts rounds i with
  | zero =>
    cases rounds with
    | zero => exact hi
    | succ rounds => exact List.mem_append_left _ hi
  | succ distance ih =>
    cases rounds with
    | zero => omega
    | succ rounds =>
      -- one round takes the start to its successor
      have hnext : i + 1 ∈ (starts.flatMap step).eraseDups := by
        rw [List.mem_eraseDups]
        exact List.mem_flatMap.2 ⟨i, hi, hstep i (Nat.le_refl i) (by omega)⟩
      have hreach : i + 1 + distance ∈ reach step rounds _ :=
        ih hnext (by omega) fun k hk hlt => hstep k (by omega) (by omega)
      rw [Nat.add_right_comm, Nat.add_assoc] at hreach
      exact List.mem_append_right _ hreach

/-- A repetition matches over any distance that its body covers character by character. -/
theorem mem_ends_star {text : Array Char} {body : Regex} {i distance : Nat}
    (hdistance : i + distance ≤ text.size)
    (hstep : ∀ k, i ≤ k → k < i + distance → k + 1 ∈ ends text body k) :
    i + distance ∈ ends text (star body) i := by
  rw [ends, List.mem_eraseDups]
  refine mem_reach List.mem_cons_self (by omega) fun k hk hlt => ?_
  exact List.mem_filter.2 ⟨hstep k hk hlt, by simp⟩

/-- Decimal digits up to the end of a text are matched to that end. -/
theorem mem_ends_digits {text : Array Char} {i : Nat} (hi : i < text.size)
    (hdigits : ∀ k, i ≤ k → ∀ hk : k < text.size, Text.isDecimalDigit text[k] = true) :
    text.size ∈ ends text (plus (oneOf false [.decimalDigit])) i := by
  have hdigit : ∀ k, i ≤ k → k < text.size →
      k + 1 ∈ ends text (oneOf false [.decimalDigit]) k := by
    intro k hik hk
    simp [ends, hk, CharSetItem.admits, hdigits k hik hk]
  refine mem_ends_seq (hdigit i (Nat.le_refl i) hi) ?_
  have hstar : i + 1 + (text.size - (i + 1)) ∈
      ends text (star (oneOf false [.decimalDigit])) (i + 1) :=
    mem_ends_star (by omega) fun k hik hk => hdigit k (by omega) (by omega)
  rwa [Nat.add_sub_cancel' (by omega)] at hstar

/-- A word and what comes after it. -/
def word (cs : List Char) (rest : Regex) : Regex := cs.foldr (fun c e => seq (literal c) e) rest

/-- A word matches where its characters stand. -/
theorem mem_ends_word {text : Array Char} {cs : List Char} {rest : Regex} {i j : Nat}
    (hword : cs <+: text.toList.drop i) (hrest : j ∈ ends text rest (i + cs.length)) :
    j ∈ ends text (word cs rest) i := by
  induction cs generalizing i with
  | nil => exact hrest
  | cons c cs ih =>
    obtain ⟨after, hafter⟩ := hword
    have hc : text[i]? = some c := by
      rw [← Array.getElem?_toList, ← List.head?_drop, ← hafter]
      rfl
    have hcs : cs <+: text.toList.drop (i + 1) := by
      refine ⟨after, ?_⟩
      rw [← List.drop_drop, ← hafter]
      rfl
    -- one letter, and then the rest of the word
    have hliteral : i + 1 ∈ ends text (literal c) i := by
      simp [literal, ends, hc, CharSetItem.admits]
    refine mem_ends_seq hliteral (ih hcs ?_)
    rwa [Nat.add_assoc, Nat.add_comm 1]

theorem search_of_mem_ends {e : Regex} {text : String} {i : Nat}
    (h : i ∈ e.ends text.toList.toArray 0) : e.search text = true := by
  refine List.any_eq_true.2 ⟨0, by simp, ?_⟩
  rw [Bool.not_eq_true', List.isEmpty_eq_false_iff]
  exact List.ne_nil_of_mem h

end Regex

-- ---------------------------------------------------------------------------
-- Layouts of a graph
-- ---------------------------------------------------------------------------

/-- Whether a tree is the layout of some type of a graph, at some address and under some name. -/
def TypeGraph.LaysOut (g : TypeGraph) (n : LayoutNode) : Prop :=
  ∃ depth ref address name, g.layout depth ref address name = .ok n

/-- The layouts of a graph that was built have scalars that can be read. -/
theorem TypeGraph.LaysOut.sized {target : Target} {store : Store} {n : LayoutNode}
    (h : (build target store).LaysOut n) : n.Sized := by
  obtain ⟨depth, ref, address, name, h⟩ := h
  exact sized_of_expandWith sound_of_build (layoutWith_eq_ok.1 h)

theorem Siblings.mem_of_findLayout {layouts : List (String × LayoutNode)} {name : String}
    {layout : LayoutNode} (h : findLayout name layouts = some layout) :
    (name, layout) ∈ layouts := by
  induction layouts with
  | nil => exact absurd h (by simp [findLayout])
  | cons e rest ih =>
    obtain ⟨other, own⟩ := e
    rw [findLayout] at h
    split at h
    · rename_i heq
      subst heq
      obtain rfl := Option.some.inj h
      exact List.mem_cons_self
    · exact List.mem_cons_of_mem _ (ih h)

namespace Classifier

variable {c : Classifier} {name : String}

/-- In a graph that was built the scalars take the bytes of their data types, the content of every
array in the layouts of the graph can be checked, and these layouts can be classified among each
other under names in ASCII, unless the positional policy takes a name with too many digits in a row
for an axis. -/
theorem classify_of_laysOut {target : Target} {store : Store} {layout : LayoutNode}
    {layouts : List (String × LayoutNode)} (hlayout : (TypeGraph.build target store).LaysOut layout)
    (hlayouts : ∀ e ∈ layouts, (TypeGraph.build target store).LaysOut e.2)
    (hascii : ∀ e ∈ layouts, IsAscii e.1.toList) :
    (∀ ref node, (TypeGraph.build target store).nodes.get? ref = some node → node.body.Sound) ∧
    (∀ root ∈ layout :: layouts.map (·.2), ∀ n ∈ root.nodes,
      ∃ monotonic, c.isMonotonic n.children = .ok monotonic) ∧
    ((∃ verdict, c.classify name layout (.ofList layouts) = .ok verdict) ∨
      ∃ e ∈ layouts, e.1 ≠ name ∧ .positional ∈ c.config.policies ∧
        c.config.namesValue name = true ∧
        c.config.namesAxis e.1 = true ∧
        ∃ digits, digits <:+: e.1.toList ∧ (∀ d ∈ digits, d.isDigit = true) ∧
          maxDigits < digits.length ∧
          c.classify name layout (.ofList layouts) =
            .error (.numeral (.tooManyDigits digits.length))) := by
  have hsized : ∀ e ∈ layouts, e.2.Sized := fun e he => (hlayouts e he).sized
  refine ⟨fun ref node hnode => TypeGraph.sound_of_get? hnode, ?_, ?_⟩
  · intro root hroot n hn
    have hroot : root.Sized := by
      rcases List.mem_cons.1 hroot with rfl | hroot
      · exact hlayout.sized
      · obtain ⟨e, he, rfl⟩ := List.mem_map.1 hroot
        exact hsized e he
    exact c.exists_isMonotonic (LayoutNode.sized_iff.1 (hroot.of_mem_nodes hn)).2
  · cases hclassify : c.classify name layout (.ofList layouts) with
    | ok verdict => exact .inl ⟨verdict, rfl⟩
    | error fault =>
      right
      have hsiblings : ∀ {n layout}, (Siblings.ofList layouts).layout? n = .ok (some layout) →
          layout.Sized := by
        intro n layout hfind
        exact hsized _ (Siblings.mem_of_findLayout (Except.ok.inj hfind))
      -- the siblings are layouts, so that only a numeral can stop it
      cases impeded_of_classify hsiblings hlayout.sized hclassify with
      | sibling hfault => exact absurd hfault (by simp [Siblings.ofList])
      | numeral hpolicy hvalue hn haxis hne hkey =>
        obtain ⟨e, he, rfl⟩ := List.mem_map.1 hn
        obtain ⟨digits, hwithin, hdigits, hlength, rfl⟩ :=
          tooMany_of_naturalKey (hascii e he) hkey
        exact ⟨e, he, hne, hpolicy, hvalue, haxis, digits, hwithin, hdigits, hlength, rfl⟩

/-- A unit with an array type of three numbers of two bytes. -/
def shortsUnit : Entry :=
  .node 1 Tag.compileUnit (.ofList [(Attr.name, .text "a.c")])
    [.node 2 Tag.baseType
        (.ofList [(Attr.name, .text "short"), (Attr.byteSize, .int 2), (Attr.encoding, .int 5)]) [],
      .node 3 Tag.arrayType (.ofList [(Attr.type, .int 2)])
        [.node 4 Tag.subrangeType (.ofList [(Attr.count, .int 3)]) []]]

/-- The graph of that unit alone. -/
def shortsGraph : TypeGraph := .build .standard (Store.empty.addRoot shortsUnit).1

/-- A curve and an axis of that type, with some content of the axis, can be classified: no number in
the name of the axis is too long. -/
theorem classify_of_laysOut_shorts :
    ∃ memory curve axis, Memory.empty.add 0x2000 [1, 0, 2, 0, 3, 0] = .ok memory ∧
      shortsGraph.LaysOut curve ∧ shortsGraph.LaysOut axis ∧ IsAscii "Axis_0".toList ∧
      (∀ n ∈ axis.nodes, ∃ monotonic,
        (Classifier.mk Config.default (some memory.reader) .little).isMonotonic n.children =
          .ok monotonic) ∧
      ∃ verdict, (Classifier.mk Config.default (some memory.reader) .little).classify "Curve" curve
        (.ofList [("Axis_0", axis)]) = .ok verdict := by
  obtain ⟨memory, hmemory⟩ : ∃ memory, Memory.empty.add 0x2000 [1, 0, 2, 0, 3, 0] = .ok memory :=
    ⟨_, rfl⟩
  have hcurve : ∃ curve, shortsGraph.LaysOut curve := ⟨_, 64, 3, 0x1000, "Curve", rfl⟩
  have haxis : ∃ axis, shortsGraph.LaysOut axis := ⟨_, 64, 3, 0x2000, "Axis_0", rfl⟩
  obtain ⟨curve, hcurve⟩ := hcurve
  obtain ⟨axis, haxis⟩ := haxis
  have hascii : IsAscii "Axis_0".toList := by decide
  refine ⟨memory, curve, axis, hmemory, hcurve, haxis, hascii, ?_⟩
  have hlayouts : ∀ e ∈ [("Axis_0", axis)], shortsGraph.LaysOut e.2 :=
    List.forall_mem_singleton.2 haxis
  obtain ⟨-, hmonotonic, hverdict⟩ :=
    @classify_of_laysOut ⟨Config.default, some memory.reader, .little⟩ "Curve" _ _ curve
      [("Axis_0", axis)] hcurve hlayouts (List.forall_mem_singleton.2 hascii)
  refine ⟨fun n hn => hmonotonic axis (by simp) n hn, hverdict.resolve_right ?_⟩
  rintro ⟨e, he, -, -, -, -, digits, hwithin, -, hlength, -⟩
  obtain rfl := List.mem_singleton.1 he
  -- the only sibling has too short a name to hold such a number
  have hshort : "Axis_0".toList.length ≤ maxDigits := by decide
  exact absurd (hlength.trans_le hwithin.length_le) (Nat.not_lt.2 hshort)

-- ---------------------------------------------------------------------------
-- A numeral that is too long
-- ---------------------------------------------------------------------------

/-- A name that the positional policy takes for an axis by default. -/
def axisName (digits : List Char) : String := String.ofList (['A', 'x', 'i', 's', '_'] ++ digits)

/-- A policy that proposes nothing is passed over. -/
theorem axesByPolicies_of_none {siblings : Siblings} {dims : List Nat} {q : Policy}
    (h : q.axes c.config name dims siblings = .ok none) (qs : List Policy) :
    c.axesByPolicies name siblings dims (q :: qs) = c.axesByPolicies name siblings dims qs := by
  rw [axesByPolicies, h]
  rfl

/-- A symbol cannot be classified when the search for the axes of its array goes wrong. -/
theorem classify_eq_error {layout : LayoutNode} {siblings : Siblings} {value : ArrayView}
    {fault : ClassifyFault} (hrule : valueRule name layout = none)
    (hmembers : c.hasEmbeddedAxis layout = false) (hvalue : anyValue layout = some value)
    (hbytes : value.isBytes = false) (hdims : value.dims.length ≤ 2)
    (haxes : c.externalAxes name siblings value.dims = .error fault) :
    c.classify name layout siblings = .error fault := by
  have hblock : c.valueBlockRule name layout siblings = .error fault := by
    simp only [valueBlockRule, hmembers, hvalue, hbytes, hdims, haxes]
    rfl
  rw [classify, hrule, hblock]
  rfl

section AxisName

variable {digits : List Char} (hdigits : ∀ d ∈ digits, d.isDigit = true)
include hdigits

/-- The default pattern finds an axis with any run of digits. -/
theorem search_axisName (hne : digits ≠ []) :
    Config.default.namesAxis (axisName digits) = true := by
  have hregex : Config.default.namesAxis = Regex.search (.seq .textStart (Regex.word
      ['A', 'x', 'i', 's', '_'] (.seq (.plus (.oneOf false [.decimalDigit])) .textEnd))) := rfl
  generalize htext : (axisName digits).toList.toArray = text
  have hlist : text.toList = ['A', 'x', 'i', 's', '_'] ++ digits := by
    rw [← htext, axisName, String.toList_ofList]
  have hsize : text.size = 5 + digits.length := by
    rw [← Array.length_toList, hlist, List.length_append]
    rfl
  have hafter : ∀ k, 5 ≤ k → ∀ hk : k < text.size, isDecimalDigit text[k] = true := by
    intro k hk hlt
    have hget : text[k] = digits[k - 5] := by
      simp only [← Array.getElem_toList, hlist]
      rw [List.getElem_append_right hk]
      rfl
    rw [hget]
    exact isDecimalDigit_of_isDigit (hdigits _ (List.getElem_mem _))
  have hdigitsEnd : text.size ∈ Regex.ends text (.plus (.oneOf false [.decimalDigit])) 5 := by
    have hpos : 0 < digits.length := List.length_pos_of_ne_nil hne
    exact Regex.mem_ends_digits (by omega) hafter
  have hend : text.size ∈ Regex.ends text .textEnd text.size := by
    simp [Regex.ends, Regex.isTextEnd]
  have hword : ['A', 'x', 'i', 's', '_'] <+: text.toList.drop 0 := by
    rw [List.drop_zero, hlist]
    exact List.prefix_append _ _
  have hstart : 0 ∈ Regex.ends text .textStart 0 := List.mem_singleton_self 0
  -- the letters, then the digits up to the end, from the beginning of the text
  have hmatch := Regex.mem_ends_seq hstart
    (Regex.mem_ends_word hword (Regex.mem_ends_seq hdigitsEnd hend))
  rw [← htext] at hmatch
  rw [hregex]
  exact Regex.search_of_mem_ends hmatch

/-- A run of more digits than a numeral may have has no natural key. -/
theorem naturalKey_axisName (hlength : maxDigits < digits.length) :
    naturalKey (axisName digits) = .error (.tooManyDigits digits.length) := by
  have hne : digits ≠ [] := by
    rintro rfl
    simp at hlength
  have hdecimal : ∀ d ∈ digits, isDecimalDigit d = true :=
    fun d hd => isDecimalDigit_of_isDigit (hdigits d hd)
  have hletters : ∀ c ∈ ['A', 'x', 'i', 's', '_'], isDecimalDigit c = false := by
    simp only [List.forall_mem_cons, List.not_mem_nil, false_implies, implies_true, and_true]
    decide
  -- the letters, the digits, and the empty run that is always last
  have hruns : naturalRuns [] false (axisName digits).toList =
      [(false, ['A', 'x', 'i', 's', '_']), (true, digits), (false, [])] := by
    rw [axisName, String.toList_ofList, naturalRuns_append hletters]
    obtain ⟨d, ds, rfl⟩ := List.exists_cons_of_ne_nil hne
    have hd : ¬isDecimalDigit d = false := by simp [hdecimal d List.mem_cons_self]
    have hds := naturalRuns_append (fun d' hd' => hdecimal d' (List.mem_cons_of_mem d hd')) [d] []
    rw [List.append_nil] at hds
    rw [naturalRuns, if_neg hd, Bool.not_false, hds, naturalRuns, if_pos rfl]
    simp
  have hnumber : naturalPart (true, digits) = .error (.tooManyDigits digits.length) := by
    show (readNatural _ digits).map NaturalPart.number = _
    rw [readNatural_of_isDigit hdigits hne, if_pos hlength]
    rfl
  rw [naturalKey, hruns, List.mapM_cons, List.mapM_cons, hnumber]
  rfl

omit hdigits in
/-- A text that begins with another letter is not the name of the axis. -/
theorem axisName_ne {s : String} (hs : s.toList.head? ≠ some 'A') : axisName digits ≠ s := by
  rintro rfl
  rw [axisName, String.toList_ofList] at hs
  exact hs rfl

omit hdigits in
/-- The axis is not found by an affix, since its name begins with neither of the two. -/
theorem affixAxes_axisName (axis : LayoutNode) (dims : List Nat) :
    Policy.affix.axes Config.default "Curve" dims (.ofList [(axisName digits, axis)]) =
      .ok none := by
  have haffixed : Policy.affixed "Curve" Config.default.xSuffixes Config.default.xPrefixes
      (.ofList [(axisName digits, axis)]) = none := by
    refine List.find?_eq_none.2 fun candidate hcandidate => ?_
    have hcandidate : candidate = "Curve_x" ∨ candidate = "x_Curve" := by
      simpa [Config.default, Settings.compiled, Settings.default, eq_comm] using hcandidate
    have hs : candidate.toList.head? ≠ some 'A' := by
      rcases hcandidate with rfl | rfl <;> decide
    have habsent : (Siblings.ofList [(axisName digits, axis)]).contains candidate = false := by
      show (Siblings.findLayout _ _).isSome = false
      rw [Siblings.findLayout, if_neg (axisName_ne hs)]
      rfl
    simp [habsent]
  simp only [Policy.axes, Policy.affixAxes, haffixed]

/-- By its position the axis would be found, but its number cannot be read. -/
theorem positionalAxes_axisName (hlength : maxDigits < digits.length) (axis : LayoutNode)
    (dims : List Nat) :
    Policy.positional.axes Config.default "Curve" dims (.ofList [(axisName digits, axis)]) =
      .error (.numeral (.tooManyDigits digits.length)) := by
  have hne : digits ≠ [] := by
    rintro rfl
    simp at hlength
  have hcandidates : (Siblings.ofList [(axisName digits, axis)]).names.filter
      (fun n => Config.default.namesAxis n && n ≠ "Curve") = [axisName digits] := by
    have hcurve : axisName digits ≠ "Curve" := axisName_ne (by decide)
    refine List.filter_eq_self.2 fun n hn => ?_
    obtain rfl := List.mem_singleton.1 hn
    simp [search_axisName hdigits hne, hcurve]
  have hvalue : Config.default.namesValue "Curve" = true := by decide
  have hsort : naturalSort [axisName digits] = .error (.tooManyDigits digits.length) := by
    rw [naturalSort, List.mapM_cons, withKey, naturalKey_axisName hdigits hlength]
    rfl
  rw [Policy.axes, Policy.positionalAxes, hvalue, hcandidates]
  show ((naturalSort [axisName digits]).mapError ClassifyFault.numeral >>= _) = _
  rw [hsort]
  rfl

/-- Only the positional policy finds such an axis for a curve, and it cannot put it in order. -/
theorem externalAxes_axisName (hlength : maxDigits < digits.length) (axis : LayoutNode)
    (dims : List Nat) :
    plainClassifier.externalAxes "Curve" (.ofList [(axisName digits, axis)]) dims =
      .error (.numeral (.tooManyDigits digits.length)) := by
  show plainClassifier.axesByPolicies _ _ _ [.explicit, .affix, .positional] = _
  rw [axesByPolicies_of_none rfl, axesByPolicies_of_none (affixAxes_axisName axis dims),
    axesByPolicies]
  show (Policy.positional.axes Config.default "Curve" dims _ >>= _) = _
  rw [positionalAxes_axisName hdigits hlength]
  rfl

end AxisName

/-- The number of an axis, of as many digits as no numeral may have. -/
def longNumber : List Char := List.replicate 4301 '1'

/-- By default a curve cannot be classified beside an axis whose number is too long. -/
theorem numbered_axis_ends_classification :
    IsAscii (axisName longNumber).toList ∧ ∃ curve axis,
      shortsGraph.layout 64 3 0x1000 "Curve" = .ok curve ∧
      shortsGraph.layout 64 3 0x2000 (axisName longNumber) = .ok axis ∧
      plainClassifier.classify "Curve" curve (.ofList [(axisName longNumber, axis)]) =
        .error (.numeral (.tooManyDigits 4301)) := by
  have hdigits : ∀ d ∈ longNumber, d.isDigit = true := by
    intro d hd
    obtain rfl := List.eq_of_mem_replicate hd
    rfl
  have hlength : longNumber.length = 4301 := List.length_replicate
  have hlong : maxDigits < longNumber.length := by
    rw [hlength]
    decide
  have hletters : IsAscii ['A', 'x', 'i', 's', '_'] := by decide
  constructor
  · intro c hc
    rw [axisName, String.toList_ofList, List.mem_append] at hc
    rcases hc with hc | hc
    · exact hletters c hc
    · have hdigit := isDigit_iff.1 (hdigits c hc)
      omega
  · refine ⟨_, _, rfl, rfl, ?_⟩
    refine classify_eq_error rfl rfl rfl rfl (Nat.le_succ 1) ?_
    rw [externalAxes_axisName hdigits hlong, hlength]

end Classifier

end DebugLayout
