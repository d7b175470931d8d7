import DebugLayout.Proofs.Calibration.Faults
import DebugLayout.Proofs.Calibration.Relevance

/-!
# DebugLayout — siblings in another order

The siblings of a symbol come in the order in which the program lists its symbols, which should not
decide what the symbol is. It does not for most policies, and the positional policy puts the
candidates in their natural order first. But names with equal keys, such as `Axis_1` and `Axis_01`,
stay in the order in which they came, and of names without key the first is reported. The answer of
the policy depends on the order exactly if it is **ambiguous** in one of these ways.

That an ambiguous answer does change is shown by listing one name first: among names that nothing
precedes, the one that is listed first wins. That no other answer changes needs the converse, that
what is taken from a sorted list is foremost in it, whatever the order before the sort was.

* `Siblings.Reordered`: the same siblings in another order;
* `Foremost`: a name that none comes before;
* `Policy.Ambiguous`: how an answer can depend on the order;
* `Policy.axes_reordered_iff`: policies answer alike in every order unless the answer is ambiguous;
* `Classifier.classify_reordered`: the same for the classification.
-/

namespace DebugLayout

namespace Siblings

/-- The same siblings, listed in another order. -/
structure Reordered (siblings siblings' : Siblings) : Prop where
  names : siblings.names.Perm siblings'.names
  contains : ∀ n, siblings.contains n = siblings'.contains n
  layout : ∀ n, siblings.layout? n = siblings'.layout? n

/-- The siblings with one of them listed first. -/
def withFirst (siblings : Siblings) (n : String) : Siblings :=
  { siblings with names := n :: siblings.names.erase n }

/-- Among siblings with different names the order makes no difference to which is found. -/
theorem findLayout_perm {layouts layouts' : List (String × LayoutNode)} (h : layouts.Perm layouts')
    (hnames : (layouts.map Prod.fst).Nodup) (n : String) :
    findLayout n layouts = findLayout n layouts' := by
  induction h with
  | nil => rfl
  | cons e _ ih =>
    obtain ⟨other, layout⟩ := e
    rw [findLayout, findLayout, ih (List.nodup_cons.1 hnames).2]
  | swap e e' layouts =>
    obtain ⟨other, layout⟩ := e
    obtain ⟨other', layout'⟩ := e'
    -- the names are distinct, so that at most one of the two is sought
    have hne : other' ≠ other := by
      rintro rfl
      exact (List.nodup_cons.1 hnames).1 List.mem_cons_self
    simp only [findLayout]
    by_cases hn : other = n
    · subst hn
      rw [if_neg hne, if_pos rfl, if_pos rfl]
    · rw [if_neg hn, if_neg hn]
  | trans h₁ _ ih₁ ih₂ =>
    exact (ih₁ hnames).trans (ih₂ ((h₁.map Prod.fst).nodup_iff.1 hnames))

/-- Layouts of different names are the same siblings in every order. -/
theorem reordered_ofList {layouts layouts' : List (String × LayoutNode)}
    (h : layouts.Perm layouts') (hnames : (layouts.map Prod.fst).Nodup) :
    (ofList layouts).Reordered (ofList layouts') := by
  refine ⟨h.map Prod.fst, fun n => ?_, fun n => ?_⟩
  · exact congrArg Option.isSome (findLayout_perm h hnames n)
  · exact congrArg Except.ok (findLayout_perm h hnames n)

theorem reordered_withFirst {siblings : Siblings} {n : String} (hn : n ∈ siblings.names) :
    siblings.Reordered (siblings.withFirst n) :=
  ⟨List.perm_cons_erase hn, fun _ => rfl, fun _ => rfl⟩

end Siblings

-- ---------------------------------------------------------------------------
-- Foremost names
-- ---------------------------------------------------------------------------

/-- A name of some kind is foremost if no other one of the kind has to come before it. -/
structure Foremost (kind : String → Prop) (n : String) : Prop where
  mem : kind n
  inOrder : ∀ m, kind m → inNaturalOrder n m = true

/-- Which name is foremost depends only on which names are of the kind. -/
theorem Foremost.congr {kind kind' : String → Prop} (h : ∀ m, kind m ↔ kind' m) {n : String}
    (hn : Foremost kind n) : Foremost kind' n :=
  ⟨(h n).1 hn.mem, fun m hm => hn.inOrder m ((h m).2 hm)⟩

theorem inNaturalOrder_self (n : String) : inNaturalOrder n n = true := by
  simpa using inNaturalOrder_total n n

/-- The first one of a kind in sorted names is foremost. -/
theorem foremost_of_mergeSort {names before after : List String} {n : String}
    {kind : String → Prop} (hsplit : names.mergeSort inNaturalOrder = before ++ n :: after)
    (hn : kind n) (hbefore : ∀ m ∈ before, ¬kind m) :
    Foremost (fun m => m ∈ names ∧ kind m) n := by
  have hsorted := List.pairwise_mergeSort inNaturalOrder_trans inNaturalOrder_total names
  have hmem : ∀ m, m ∈ names ↔ m ∈ before ++ n :: after := fun m => by
    rw [← hsplit, List.mem_mergeSort]
  rw [hsplit] at hsorted
  have hafter := (List.pairwise_cons.1 (List.pairwise_append.1 hsorted).2.1).1
  refine ⟨⟨(hmem n).2 (by simp), hn⟩, fun m ⟨hm, hkind⟩ => ?_⟩
  rcases List.mem_append.1 ((hmem m).1 hm) with hm | hm
  · exact absurd hkind (hbefore m hm)
  · rcases List.mem_cons.1 hm with rfl | hm
    · exact inNaturalOrder_self m
    · exact hafter m hm

/-- A foremost name that comes first is still the first one of its kind after sorting. -/
theorem mergeSort_cons_of_foremost {names : List String} {n : String} (kind : String → Prop)
    (hn : ∀ m ∈ names, kind m → inNaturalOrder n m = true) :
    ∃ before after, (n :: names).mergeSort inNaturalOrder = before ++ n :: after ∧
      ∀ m ∈ before, ¬kind m := by
  refine ⟨_, _, mergeSort_cons_eq inNaturalOrder_trans inNaturalOrder_total n names, ?_⟩
  intro m hm hkind
  obtain ⟨hm, hbefore⟩ := List.mem_filter.1 hm
  rw [hn m ((List.mem_mergeSort).1 hm) hkind] at hbefore
  exact absurd hbefore (by simp)

namespace Policy

variable {c : Config} {name : String} {dims : List Nat} {siblings siblings' : Siblings}

/-- The first name without layout in sorted names is foremost among those. -/
theorem foremost_of_shapeFault {names before after : List String} {m : String} {fault : ShapeFault}
    (hsplit : names.mergeSort inNaturalOrder = before ++ m :: after)
    (hbefore : ∀ x ∈ before, ∃ layout, siblings.layout? x = .ok layout)
    (hm : siblings.layout? m = .error fault) :
    Foremost (fun x => x ∈ names ∧ ∃ fault, siblings.layout? x = .error fault) m := by
  refine foremost_of_mergeSort hsplit ⟨fault, hm⟩ fun x hx ⟨_, hfault⟩ => ?_
  obtain ⟨layout, hlayout⟩ := hbefore x hx
  rw [hlayout] at hfault
  exact absurd hfault (by simp)

-- ---------------------------------------------------------------------------
-- Axes that fit
-- ---------------------------------------------------------------------------

section Fitting

variable {lengths lengths' : List (String × Nat)}

/-- For a table of as many rows as columns the only two axes of that length fit. -/
theorem fitting_square (lengths : List (String × Nat)) (n : Nat) :
    fitting lengths [n, n] =
      if (ofLength lengths n).length = 2 then some (ofLength lengths n) else none := by
  rw [fitting]
  rcases ofLength lengths n with _ | ⟨x, _ | ⟨y, _ | ⟨z, rest⟩⟩⟩ <;> simp

/-- For another table the only axes of both lengths fit. -/
theorem fitting_table (lengths : List (String × Nat)) {rows columns : Nat} (h : rows ≠ columns) :
    fitting lengths [rows, columns] =
      if (ofLength lengths columns).length = 1 ∧ (ofLength lengths rows).length = 1 then
        some (ofLength lengths columns ++ ofLength lengths rows) else none := by
  rw [fitting]
  rcases ofLength lengths columns with _ | ⟨x, _ | ⟨x', _ | ⟨x'', rest⟩⟩⟩ <;>
    rcases ofLength lengths rows with _ | ⟨y, _ | ⟨y', rest'⟩⟩ <;> simp [h]

/-- The same axes fit if those of each length are the same, and come in the same order where two of
them are told apart by it. -/
theorem fitting_congr (hperm : ∀ n, (ofLength lengths n).Perm (ofLength lengths' n))
    (hfirst : ∀ n, dims = [n] → (ofLength lengths n).head? = (ofLength lengths' n).head?)
    (hpair : ∀ n, dims = [n, n] → (ofLength lengths n).length = 2 →
      ofLength lengths n = ofLength lengths' n) :
    fitting lengths dims = fitting lengths' dims := by
  match dims with
  | [] => rfl
  | [n] => rw [fitting, fitting, hfirst n rfl]
  | [rows, columns] =>
    -- a square takes both axes from one list, where their order counts; a table does not
    by_cases hsquare : rows = columns
    · subst hsquare
      rw [fitting_square, fitting_square, ← (hperm rows).length_eq]
      by_cases htwo : (ofLength lengths rows).length = 2
      · rw [if_pos htwo, if_pos htwo, hpair rows rfl htwo]
      · rw [if_neg htwo, if_neg htwo]
    · rw [fitting_table lengths hsquare, fitting_table lengths' hsquare,
        ← (hperm rows).length_eq, ← (hperm columns).length_eq]
      by_cases hone : (ofLength lengths columns).length = 1 ∧ (ofLength lengths rows).length = 1
      · -- a list of one name is its own only rearrangement
        have hsame : ∀ n, (ofLength lengths n).length = 1 →
            ofLength lengths n = ofLength lengths' n := by
          intro n hn
          obtain ⟨x, hx⟩ := List.length_eq_one_iff.1 hn
          have hperm := hperm n
          rw [hx] at hperm ⊢
          exact (List.singleton_perm.1 hperm)
        rw [if_pos hone, if_pos hone, hsame columns hone.1, hsame rows hone.2]
      · rw [if_neg hone, if_neg hone]
  | _ :: _ :: _ :: _ => rfl

end Fitting

-- ---------------------------------------------------------------------------
-- Ambiguous answers
-- ---------------------------------------------------------------------------

/-- The answer of the positional policy depends on the order of the siblings: two names without key
have different faults, two foremost candidates without layout have different faults, two candidates
of the length sought are foremost, or the only two candidates for a square table have equal keys. -/
inductive Ambiguous (c : Config) (name : String) (dims : List Nat) (siblings : Siblings) : Prop
  | numeral {m n : String} {fault fault' : Text.NumeralFault}
      (hvalue : c.namesValue name = true)
      (hm : m ∈ candidates c name siblings) (hn : n ∈ candidates c name siblings)
      (hkey : naturalKey m = .error fault) (hkey' : naturalKey n = .error fault')
      (hne : fault ≠ fault') : Ambiguous c name dims siblings
  | shape {m n : String} {fault fault' : ShapeFault}
      (hvalue : c.namesValue name = true)
      (hkeys : ∀ x ∈ candidates c name siblings, ∃ key, naturalKey x = .ok key)
      (hm : Foremost (fun x => x ∈ candidates c name siblings ∧
        ∃ fault, siblings.layout? x = .error fault) m)
      (hn : Foremost (fun x => x ∈ candidates c name siblings ∧
        ∃ fault, siblings.layout? x = .error fault) n)
      (hfault : siblings.layout? m = .error fault) (hfault' : siblings.layout? n = .error fault')
      (hne : fault ≠ fault') : Ambiguous c name dims siblings
  | first {m n : String} {length : Nat}
      (hvalue : c.namesValue name = true)
      (hkeys : ∀ x ∈ candidates c name siblings, ∃ key, naturalKey x = .ok key)
      (hlayouts : ∀ x ∈ candidates c name siblings, ∃ layout, siblings.layout? x = .ok layout)
      (hdims : dims = [length])
      (hm : Foremost (fun x => x ∈ candidates c name siblings ∧
        axisLength? siblings x = some length) m)
      (hn : Foremost (fun x => x ∈ candidates c name siblings ∧
        axisLength? siblings x = some length) n)
      (hne : m ≠ n) : Ambiguous c name dims siblings
  | pair {m n : String} {length : Nat}
      (hvalue : c.namesValue name = true)
      (hkeys : ∀ x ∈ candidates c name siblings, ∃ key, naturalKey x = .ok key)
      (hlayouts : ∀ x ∈ candidates c name siblings, ∃ layout, siblings.layout? x = .ok layout)
      (hdims : dims = [length, length])
      (hpair : ((candidates c name siblings).filter
        fun x => axisLength? siblings x = some length).Perm [m, n])
      (hmn : inNaturalOrder m n = true) (hnm : inNaturalOrder n m = true)
      (hne : m ≠ n) : Ambiguous c name dims siblings

-- ---------------------------------------------------------------------------
-- Without ambiguity
-- ---------------------------------------------------------------------------

/-- Reordered siblings have the same candidates in another order. -/
theorem candidates_perm (c : Config) (name : String) (h : siblings.Reordered siblings') :
    (candidates c name siblings).Perm (candidates c name siblings') :=
  h.names.filter _

/-- The length of a sibling as an axis does not depend on the order. -/
theorem axisLength?_reordered (h : siblings.Reordered siblings') (n : String) :
    axisLength? siblings n = axisLength? siblings' n := by
  rw [axisLength?, axisLength?, h.layout]

/-- The answer of the positional policy when nothing goes wrong. -/
theorem positionalAxes_of_layouts (hvalue : c.namesValue name = true)
    (hkeys : ∀ n ∈ candidates c name siblings, ∃ key, naturalKey n = .ok key)
    (hlayouts : ∀ n ∈ candidates c name siblings, ∃ layout, siblings.layout? n = .ok layout) :
    positionalAxes c name dims siblings =
      .ok (fitting (((candidates c name siblings).mergeSort inNaturalOrder).filterMap
        fun n => (axisLength? siblings n).map (n, ·)) dims) := by
  rw [positionalAxes_of_match hvalue, naturalSort_eq hkeys]
  show (axisLengths siblings _ >>= _) = _
  rw [axisLengths_of_layouts fun n hn => hlayouts n (List.mem_mergeSort.1 hn)]
  rfl

/-- The answer of the positional policy when the first candidate without layout is met. -/
theorem positionalAxes_of_shapeFault (hvalue : c.namesValue name = true)
    (hkeys : ∀ n ∈ candidates c name siblings, ∃ key, naturalKey n = .ok key)
    {before after : List String} {n : String} {fault : ShapeFault}
    (hsplit : (candidates c name siblings).mergeSort inNaturalOrder = before ++ n :: after)
    (hbefore : ∀ m ∈ before, ∃ layout, siblings.layout? m = .ok layout)
    (hn : siblings.layout? n = .error fault) :
    positionalAxes c name dims siblings = .error (.sibling fault) := by
  rw [positionalAxes_of_match hvalue, naturalSort_eq hkeys, hsplit]
  show (axisLengths siblings _ >>= _) = _
  rw [axisLengths_append hbefore hn]
  rfl

/-- The answer of the positional policy when there are names without key. -/
theorem positionalAxes_of_numeralFault (hvalue : c.namesValue name = true)
    {fault : Text.NumeralFault}
    (h : naturalSort (candidates c name siblings) = .error fault) :
    positionalAxes c name dims siblings = .error (.numeral fault) := by
  rw [positionalAxes_of_match hvalue, h]
  rfl

/-- The candidates of a length, in their natural order. -/
def sortedOfLength (c : Config) (name : String) (siblings : Siblings) (n : Nat) : List String :=
  ((candidates c name siblings).mergeSort inNaturalOrder).filter
    fun m => axisLength? siblings m = some n

/-- Sorting the candidates of a length only changes their order. -/
theorem sortedOfLength_perm (c : Config) (name : String) (siblings : Siblings) (n : Nat) :
    (sortedOfLength c name siblings n).Perm
      ((candidates c name siblings).filter fun m => axisLength? siblings m = some n) :=
  (List.mergeSort_perm _ _).filter _

theorem sortedOfLength_pairwise (c : Config) (name : String) (siblings : Siblings) (n : Nat) :
    (sortedOfLength c name siblings n).Pairwise (inNaturalOrder · · = true) :=
  (List.pairwise_mergeSort inNaturalOrder_trans inNaturalOrder_total _).filter _

/-- The first candidate of a length is foremost among them. -/
theorem foremost_of_sortedOfLength {n : Nat} {m : String} {rest : List String}
    (h : sortedOfLength c name siblings n = m :: rest) :
    Foremost (fun x => x ∈ candidates c name siblings ∧ axisLength? siblings x = some n) m := by
  obtain ⟨before, after, hsplit, hbefore, hm, -⟩ := List.filter_eq_cons_iff.1 h
  exact foremost_of_mergeSort hsplit (of_decide_eq_true hm)
    fun x hx hlength => hbefore x hx (decide_eq_true hlength)

/-- The candidates of a length are the same in every order. -/
theorem sortedOfLength_reordered (c : Config) (name : String)
    (h : siblings.Reordered siblings') (n : Nat) :
    (sortedOfLength c name siblings n).Perm (sortedOfLength c name siblings' n) := by
  refine (sortedOfLength_perm c name siblings n).trans ?_
  refine List.Perm.trans ?_ (sortedOfLength_perm c name siblings' n).symm
  simp only [← axisLength?_reordered h]
  exact (candidates_perm c name h).filter _

section Unambiguous

variable (h : siblings.Reordered siblings') (hnot : ¬Ambiguous c name dims siblings)
  (hvalue : c.namesValue name = true)
  (hkeys : ∀ n ∈ candidates c name siblings, ∃ key, naturalKey n = .ok key)
include h hnot hvalue hkeys

section Layouts

variable (hlayouts : ∀ n ∈ candidates c name siblings, ∃ layout, siblings.layout? n = .ok layout)
include hlayouts

/-- The candidate that is taken for a list is the same in every order. -/
theorem head?_reordered {n : Nat} (hdims : dims = [n]) :
    (sortedOfLength c name siblings n).head? = (sortedOfLength c name siblings' n).head? := by
  have hperm := sortedOfLength_reordered c name h n
  cases hsorted : sortedOfLength c name siblings n with
  | nil =>
    rw [hsorted] at hperm
    rw [hperm.symm.eq_nil]
  | cons m rest =>
    cases hsorted' : sortedOfLength c name siblings' n with
    | nil =>
      rw [hsorted, hsorted'] at hperm
      exact absurd hperm.eq_nil (by simp)
    | cons m' rest' =>
      -- both heads are foremost, and no two foremost ones of different name are there
      have hm := foremost_of_sortedOfLength hsorted
      have hm' : Foremost (fun x => x ∈ candidates c name siblings ∧
          axisLength? siblings x = some n) m' := by
        refine (foremost_of_sortedOfLength hsorted').congr fun x => ?_
        rw [(candidates_perm c name h).mem_iff, axisLength?_reordered h]
      by_contra hne
      exact hnot (.first hvalue hkeys hlayouts hdims hm hm' fun heq => hne (by rw [heq]; rfl))

/-- The two candidates that are taken for a square table are the same in every order. -/
theorem pair_reordered {n : Nat} (hdims : dims = [n, n])
    (htwo : (sortedOfLength c name siblings n).length = 2) :
    sortedOfLength c name siblings n = sortedOfLength c name siblings' n := by
  have hperm := sortedOfLength_reordered c name h n
  obtain ⟨x, y, hsorted⟩ := List.length_eq_two.1 htwo
  obtain ⟨x', y', hsorted'⟩ := List.length_eq_two.1 (hperm.length_eq ▸ htwo)
  have hxy : inNaturalOrder x y = true := by
    simpa [hsorted] using sortedOfLength_pairwise c name siblings n
  have hxy' : inNaturalOrder x' y' = true := by
    simpa [hsorted'] using sortedOfLength_pairwise c name siblings' n
  rw [hsorted, hsorted'] at hperm ⊢
  by_cases hx : x = x'
  · subst hx
    rw [List.singleton_perm.1 (List.Perm.cons_inv hperm)]
  · -- in the other order the two have changed places, so that their keys are equal
    have hx' : x = y' := by simpa [hx] using hperm.subset (List.mem_cons_self (a := x))
    have hy' : y = x' := by
      have hmem := hperm.symm.subset (List.mem_cons_self (a := x'))
      simpa [Ne.symm hx, eq_comm] using hmem
    subst hx' hy'
    have hpair := (sortedOfLength_perm c name siblings n).symm
    rw [hsorted] at hpair
    exact absurd (.pair hvalue hkeys hlayouts hdims hpair hxy hxy' hx) hnot

end Layouts

/-- Candidates with keys lead to the same answer in every order. -/
theorem positionalAxes_reordered_of_keys :
    positionalAxes c name dims siblings = positionalAxes c name dims siblings' := by
  have hcandidates := candidates_perm c name h
  have hkeys' : ∀ n ∈ candidates c name siblings', ∃ key, naturalKey n = .ok key :=
    fun n hn => hkeys n (hcandidates.mem_iff.2 hn)
  -- either all candidates have a layout, in both orders, or the first failure decides in both
  rcases forall_layout_or siblings ((candidates c name siblings).mergeSort inNaturalOrder) with
    hlayouts | ⟨before, m, after, fault, hsplit, hbefore, hm⟩
  · have hlayouts : ∀ n ∈ candidates c name siblings, ∃ layout, siblings.layout? n = .ok layout :=
      fun n hn => hlayouts n (List.mem_mergeSort.2 hn)
    have hlayouts' : ∀ n ∈ candidates c name siblings',
        ∃ layout, siblings'.layout? n = .ok layout :=
      fun n hn => h.layout n ▸ hlayouts n (hcandidates.mem_iff.2 hn)
    rw [positionalAxes_of_layouts hvalue hkeys hlayouts,
      positionalAxes_of_layouts hvalue hkeys' hlayouts']
    refine congrArg Except.ok (fitting_congr (fun n => ?_) (fun n hdims => ?_)
      fun n hdims htwo => ?_)
    · rw [ofLength_filterMap, ofLength_filterMap]
      exact sortedOfLength_reordered c name h n
    · rw [ofLength_filterMap, ofLength_filterMap]
      exact head?_reordered h hnot hvalue hkeys hlayouts hdims
    · rw [ofLength_filterMap] at htwo ⊢
      rw [ofLength_filterMap]
      exact pair_reordered h hnot hvalue hkeys hlayouts hdims htwo
  · rcases forall_layout_or siblings' ((candidates c name siblings').mergeSort inNaturalOrder) with
      hlayouts' | ⟨before', m', after', fault', hsplit', hbefore', hm'⟩
    · -- the same names have layouts in both orders
      have hmem : m ∈ (candidates c name siblings).mergeSort inNaturalOrder := by
        rw [hsplit]
        simp
      obtain ⟨layout, hlayout⟩ := hlayouts' m
        (List.mem_mergeSort.2 (hcandidates.mem_iff.1 (List.mem_mergeSort.1 hmem)))
      rw [← h.layout, hm] at hlayout
      exact absurd hlayout (by simp)
    · rw [positionalAxes_of_shapeFault hvalue hkeys hsplit hbefore hm,
        positionalAxes_of_shapeFault hvalue hkeys' hsplit' hbefore' hm']
      have hforemost := foremost_of_shapeFault hsplit hbefore hm
      have hforemost' : Foremost (fun x => x ∈ candidates c name siblings ∧
          ∃ fault, siblings.layout? x = .error fault) m' :=
        (foremost_of_shapeFault hsplit' hbefore' hm').congr fun x => by
          rw [hcandidates.mem_iff, h.layout]
      rw [← h.layout] at hm'
      by_contra hne
      exact hnot (.shape hvalue hkeys hforemost hforemost' hm hm' fun heq => hne (by rw [heq]))

end Unambiguous

/-- An answer that is not ambiguous is the same in every order. -/
theorem positionalAxes_reordered (h : siblings.Reordered siblings')
    (hnot : ¬Ambiguous c name dims siblings) :
    positionalAxes c name dims siblings = positionalAxes c name dims siblings' := by
  -- a name that the patterns leave aside has no axes in either order
  cases hvalue : c.namesValue name with
  | false => rw [positionalAxes_of_not_match hvalue, positionalAxes_of_not_match hvalue]
  | true =>
    by_cases hkeys : ∀ n ∈ candidates c name siblings, ∃ key, naturalKey n = .ok key
    · exact positionalAxes_reordered_of_keys h hnot hvalue hkeys
    · have hcandidates := candidates_perm c name h
      -- a name without a key fails both sorts, and the faults are the same since nothing is
      -- ambiguous
      obtain ⟨n, hn, hkey⟩ : ∃ n ∈ candidates c name siblings,
          ∀ key, naturalKey n ≠ .ok key := by
        push Not at hkeys
        exact hkeys
      cases hfault : naturalKey n with
      | ok key => exact absurd hfault (hkey key)
      | error own =>
        obtain ⟨fault, hsort⟩ := naturalSort_eq_error hn hfault
        obtain ⟨fault', hsort'⟩ := naturalSort_eq_error (hcandidates.mem_iff.1 hn) hfault
        obtain ⟨m, hm, hm_key⟩ := Classifier.exists_of_naturalSort hsort
        obtain ⟨m', hm', hm'_key⟩ := Classifier.exists_of_naturalSort hsort'
        rw [positionalAxes_of_numeralFault hvalue hsort,
          positionalAxes_of_numeralFault hvalue hsort']
        by_contra hne
        exact hnot (.numeral hvalue hm (hcandidates.mem_iff.2 hm') hm_key hm'_key
          fun heq => hne (by rw [heq]))

/-- The explicit policy does not look at the siblings, and the affix policy looks its names up. -/
theorem axes_reordered (h : siblings.Reordered siblings') (q : Policy)
    (hnot : q = .positional → ¬Ambiguous c name dims siblings) :
    q.axes c name dims siblings = q.axes c name dims siblings' := by
  cases q with
  | explicit => rfl
  | affix =>
    have hcontains : siblings.contains = siblings'.contains := funext h.contains
    simp only [axes, affixAxes, affixed, hcontains]
  | positional => exact positionalAxes_reordered h (hnot rfl)

-- ---------------------------------------------------------------------------
-- With ambiguity
-- ---------------------------------------------------------------------------

/-- A candidate that is listed first is the first candidate. -/
theorem candidates_withFirst {n : String} (hn : n ∈ candidates c name siblings) :
    ∃ rest, candidates c name (siblings.withFirst n) = n :: rest := by
  obtain ⟨-, haxis, hne⟩ := mem_candidates.1 hn
  exact ⟨_, List.filter_cons_of_pos (by simp [haxis, hne])⟩

/-- What holds of all candidates holds of them in another order. -/
theorem forall_candidates_withFirst {n : String} (hn : n ∈ candidates c name siblings)
    {P : String → Prop} (h : ∀ x ∈ candidates c name siblings, P x) :
    ∀ x ∈ candidates c name (siblings.withFirst n), P x := fun x hx =>
  h x ((candidates_perm c name (Siblings.reordered_withFirst (mem_candidates.1 hn).1)).mem_iff.2 hx)

/-- If a name without key is listed first, its fault is reported. -/
theorem positionalAxes_withFirst_numeral (hvalue : c.namesValue name = true)
    {n : String} (hn : n ∈ candidates c name siblings) {fault : Text.NumeralFault}
    (hkey : naturalKey n = .error fault) :
    positionalAxes c name dims (siblings.withFirst n) = .error (.numeral fault) := by
  obtain ⟨rest, hrest⟩ := candidates_withFirst hn
  refine positionalAxes_of_numeralFault hvalue ?_
  rw [hrest]
  exact naturalSort_cons_eq_error hkey

/-- If a foremost candidate of a length is listed first, it is the first one of that length. -/
theorem sortedOfLength_withFirst {n : String} {length : Nat}
    (hn : Foremost (fun x => x ∈ candidates c name siblings ∧
      axisLength? siblings x = some length) n) :
    ∃ rest, sortedOfLength c name (siblings.withFirst n) length = n :: rest := by
  have hmem := forall_candidates_withFirst hn.mem.1 (P := (· ∈ candidates c name siblings))
    fun _ hx => hx
  obtain ⟨rest, hrest⟩ := candidates_withFirst hn.mem.1
  rw [hrest] at hmem
  obtain ⟨before, after, hsplit, hbefore⟩ := mergeSort_cons_of_foremost
    (fun x => axisLength? siblings x = some length)
    fun x hx hkind => hn.inOrder x ⟨hmem x (List.mem_cons_of_mem n hx), hkind⟩
  refine ⟨_, List.filter_eq_cons_iff.2 ⟨before, after, ?_, fun x hx => ?_, ?_, rfl⟩⟩
  · rw [hrest, hsplit]
  · rw [decide_eq_true_eq]
    exact hbefore x hx
  · exact decide_eq_true hn.mem.2

section Keys

variable (hvalue : c.namesValue name = true)
  (hkeys : ∀ x ∈ candidates c name siblings, ∃ key, naturalKey x = .ok key)
include hvalue hkeys

/-- If a foremost candidate without layout is listed first, its fault is reported. -/
theorem positionalAxes_withFirst_shape {n : String} {fault : ShapeFault}
    (hn : Foremost (fun x => x ∈ candidates c name siblings ∧
      ∃ fault, siblings.layout? x = .error fault) n)
    (hfault : siblings.layout? n = .error fault) :
    positionalAxes c name dims (siblings.withFirst n) = .error (.sibling fault) := by
  have hkeys' := forall_candidates_withFirst hn.mem.1 hkeys
  have hmem := forall_candidates_withFirst hn.mem.1 (P := (· ∈ candidates c name siblings))
    fun _ hx => hx
  obtain ⟨rest, hrest⟩ := candidates_withFirst hn.mem.1
  rw [hrest] at hmem
  -- put first among its equals, the name comes before all others of its kind
  obtain ⟨before, after, hsplit, hbefore⟩ := mergeSort_cons_of_foremost
    (fun x => ∃ fault, siblings.layout? x = .error fault)
    fun x hx hkind => hn.inOrder x ⟨hmem x (List.mem_cons_of_mem n hx), hkind⟩
  rw [← hrest] at hsplit
  refine positionalAxes_of_shapeFault hvalue hkeys' hsplit (fun x hx => ?_) hfault
  show ∃ layout, siblings.layout? x = .ok layout
  cases hlayout : siblings.layout? x with
  | ok layout => exact ⟨layout, rfl⟩
  | error fault' => exact absurd ⟨fault', hlayout⟩ (hbefore x hx)

section Layouts

variable (hlayouts : ∀ x ∈ candidates c name siblings, ∃ layout, siblings.layout? x = .ok layout)
  {n : String} {length : Nat}
  (hn : Foremost (fun x => x ∈ candidates c name siblings ∧
    axisLength? siblings x = some length) n)
include hlayouts hn

/-- If a foremost candidate of the length of a list comes first, it is taken. -/
theorem positionalAxes_withFirst_list :
    positionalAxes c name [length] (siblings.withFirst n) = .ok (some [n]) := by
  obtain ⟨rest, hrest⟩ := sortedOfLength_withFirst hn
  rw [positionalAxes_of_layouts hvalue (forall_candidates_withFirst hn.mem.1 hkeys)
    (forall_candidates_withFirst hn.mem.1 hlayouts), fitting, ofLength_filterMap]
  show Except.ok ((sortedOfLength c name (siblings.withFirst n) length).head?.map _) = _
  rw [hrest]
  rfl

/-- If one of the only two candidates for a square table comes first and is foremost, it is the
first axis. -/
theorem positionalAxes_withFirst_square {other : String}
    (hpair : ((candidates c name siblings).filter
      fun x => axisLength? siblings x = some length).Perm [n, other]) :
    positionalAxes c name [length, length] (siblings.withFirst n) = .ok (some [n, other]) := by
  obtain ⟨rest, hrest⟩ := sortedOfLength_withFirst hn
  have hreordered := Siblings.reordered_withFirst (mem_candidates.1 hn.mem.1).1
  have hperm := ((sortedOfLength_reordered c name hreordered length).symm.trans
    (sortedOfLength_perm c name siblings length)).trans hpair
  rw [hrest] at hperm
  obtain rfl := List.perm_singleton.1 hperm.cons_inv
  rw [positionalAxes_of_layouts hvalue (forall_candidates_withFirst hn.mem.1 hkeys)
    (forall_candidates_withFirst hn.mem.1 hlayouts), fitting_square, ofLength_filterMap]
  show Except.ok (if (sortedOfLength c name (siblings.withFirst n) length).length = 2 then
    some (sortedOfLength c name (siblings.withFirst n) length) else none) = _
  rw [hrest]
  rfl

end Layouts

end Keys

/-- An answer is not the same in every order if it is not the same in two of them. -/
theorem exists_reordered_of_ne {m n : String} (hm : m ∈ siblings.names) (hn : n ∈ siblings.names)
    (hne : positionalAxes c name dims (siblings.withFirst m) ≠
      positionalAxes c name dims (siblings.withFirst n)) :
    ∃ siblings', siblings.Reordered siblings' ∧
      positionalAxes c name dims siblings' ≠ positionalAxes c name dims siblings := by
  by_cases hsame : positionalAxes c name dims (siblings.withFirst m) =
      positionalAxes c name dims siblings
  · exact ⟨_, Siblings.reordered_withFirst hn, fun heq => hne (hsame.trans heq.symm)⟩
  · exact ⟨_, Siblings.reordered_withFirst hm, hsame⟩

/-- An ambiguous answer is another one in another order. -/
theorem exists_reordered_of_ambiguous (h : Ambiguous c name dims siblings) :
    ∃ siblings', siblings.Reordered siblings' ∧
      positionalAxes c name dims siblings' ≠ positionalAxes c name dims siblings := by
  cases h with
  | @numeral m n fault fault' hvalue hm hn hkey hkey' hne =>
    refine exists_reordered_of_ne (mem_candidates.1 hm).1 (mem_candidates.1 hn).1 ?_
    rw [positionalAxes_withFirst_numeral hvalue hm hkey,
      positionalAxes_withFirst_numeral hvalue hn hkey']
    simpa using hne
  | @shape m n fault fault' hvalue hkeys hm hn hfault hfault' hne =>
    refine exists_reordered_of_ne (mem_candidates.1 hm.mem.1).1 (mem_candidates.1 hn.mem.1).1 ?_
    rw [positionalAxes_withFirst_shape hvalue hkeys hm hfault,
      positionalAxes_withFirst_shape hvalue hkeys hn hfault']
    simpa using hne
  | @first m n length hvalue hkeys hlayouts hdims hm hn hne =>
    refine exists_reordered_of_ne (mem_candidates.1 hm.mem.1).1 (mem_candidates.1 hn.mem.1).1 ?_
    rw [hdims, positionalAxes_withFirst_list hvalue hkeys hlayouts hm,
      positionalAxes_withFirst_list hvalue hkeys hlayouts hn]
    simpa using hne
  | @pair m n length hvalue hkeys hlayouts hdims hpair hmn hnm hne =>
    -- of this length are the two alone, and each of them is foremost since their keys are equal
    have hkind : ∀ x, x ∈ candidates c name siblings ∧ axisLength? siblings x = some length ↔
        x = m ∨ x = n := fun x => by
      have hmem := hpair.mem_iff (a := x)
      simpa [List.mem_filter] using hmem
    have hm : Foremost (fun x => x ∈ candidates c name siblings ∧
        axisLength? siblings x = some length) m := by
      refine ⟨(hkind m).2 (.inl rfl), fun x hx => ?_⟩
      rcases (hkind x).1 hx with rfl | rfl
      · exact inNaturalOrder_self x
      · exact hmn
    have hn : Foremost (fun x => x ∈ candidates c name siblings ∧
        axisLength? siblings x = some length) n := by
      refine ⟨(hkind n).2 (.inr rfl), fun x hx => ?_⟩
      rcases (hkind x).1 hx with rfl | rfl
      · exact hnm
      · exact inNaturalOrder_self x
    refine exists_reordered_of_ne (mem_candidates.1 hm.mem.1).1 (mem_candidates.1 hn.mem.1).1 ?_
    rw [hdims, positionalAxes_withFirst_square hvalue hkeys hlayouts hm hpair,
      positionalAxes_withFirst_square hvalue hkeys hlayouts hn
        (hpair.trans (List.Perm.swap n m []))]
    simp [hne]

/-- Candidates that have keys and layouts and are told apart by their keys are not ambiguous. -/
theorem not_ambiguous_of_separated
    (hkeys : ∀ x ∈ candidates c name siblings, ∃ key, naturalKey x = .ok key)
    (hlayouts : ∀ x ∈ candidates c name siblings, ∃ layout, siblings.layout? x = .ok layout)
    (hseparated : ∀ m ∈ candidates c name siblings, ∀ n ∈ candidates c name siblings,
      inNaturalOrder m n = true → inNaturalOrder n m = true → m = n) :
    ¬Ambiguous c name dims siblings := by
  intro h
  cases h with
  | @numeral m _ _ _ _ hm _ hkey _ _ =>
    -- a name without a key, or a candidate without a layout, is excluded
    obtain ⟨key, hok⟩ := hkeys m hm
    rw [hkey] at hok
    exact absurd hok (by simp)
  | @shape m _ _ _ _ _ hm _ hfault _ _ =>
    obtain ⟨layout, hok⟩ := hlayouts m hm.mem.1
    rw [hfault] at hok
    exact absurd hok (by simp)
  | @first m n _ _ _ _ _ hm hn hne =>
    -- two that stand before each other are one
    exact hne (hseparated m hm.mem.1 n hn.mem.1 (hm.inOrder n hn.mem) (hn.inOrder m hm.mem))
  | @pair m n _ _ _ _ _ hpair hmn hnm hne =>
    have hm := List.mem_of_mem_filter (hpair.mem_iff.2 (List.mem_cons_self (a := m)))
    have hn := List.mem_of_mem_filter (hpair.mem_iff.2 (by simp : n ∈ [m, n]))
    exact hne (hseparated m hm n hn hmn hnm)

/-- All policies answer alike in every order of the siblings exactly if the answer of the positional
policy is not ambiguous. -/
theorem axes_reordered_iff (c : Config) (name : String) (dims : List Nat) (siblings : Siblings) :
    (∀ siblings', siblings.Reordered siblings' → ∀ q : Policy,
      q.axes c name dims siblings' = q.axes c name dims siblings) ↔
        ¬Ambiguous c name dims siblings := by
  constructor
  · intro hsame hambiguous
    obtain ⟨siblings', hreordered, hne⟩ := exists_reordered_of_ambiguous hambiguous
    exact hne (hsame siblings' hreordered .positional)
  · intro hnot siblings' hreordered q
    exact (axes_reordered hreordered q fun _ => hnot).symm

end Policy

namespace Classifier

/-- The order of the siblings decides neither what the policies propose nor what a symbol is, except
where the answer of the positional policy is ambiguous: there it does. -/
theorem classify_reordered (c : Classifier) (name : String) (siblings : Siblings) :
    (∀ dims, (∀ siblings', siblings.Reordered siblings' → ∀ q : Policy,
      q.axes c.config name dims siblings' = q.axes c.config name dims siblings) ↔
        ¬Policy.Ambiguous c.config name dims siblings) ∧
    ∀ layout siblings', siblings.Reordered siblings' →
      (∀ value, c.sought layout = some value → .positional ∈ c.config.policies →
        ¬Policy.Ambiguous c.config name value.dims siblings) →
      c.classify name layout siblings' = c.classify name layout siblings := by
  refine ⟨fun dims => Policy.axes_reordered_iff c.config name dims siblings, ?_⟩
  intro layout siblings' hreordered hnot
  refine Eq.symm ((classify_eq_iff siblings siblings').2 fun value hvalue => ?_)
  refine axesByPolicies_congr (fun q hq => Policy.axes_reordered hreordered q ?_)
    fun q _ axisNames _ n _ => hreordered.layout n
  rintro rfl
  exact hnot value hvalue hq

-- ---------------------------------------------------------------------------
-- A curve beside numbered axes
-- ---------------------------------------------------------------------------

/-- Three numbers without axis of their own. -/
def bareCurve : ArrayView := shortArray "Curve" 0x1000 torqueX.shape

def numberedAxis (n : String) : ArrayView := shortArray n 0x2000 torqueX.shape

/-- Axes of the same length, in order. -/
def numberedAxes (names : List String) : Siblings :=
  .ofList (names.map fun n => (n, (numberedAxis n).toNode))

/-- The curve over an axis. -/
def curveOver (n : String) : CalibrationObject :=
  .curve "Curve" bareCurve.toNode bareCurve ⟨numberedAxis n, .symbol n⟩

theorem numberedAxes_reordered {names names' : List String} (h : names.Perm names')
    (hnames : names.Nodup) : (numberedAxes names).Reordered (numberedAxes names') := by
  refine Siblings.reordered_ofList (h.map _) ?_
  rw [List.map_map]
  exact (List.map_id' names).symm ▸ hnames

/-- The curve is one over the axis that the positional policy proposes, unless another policy finds
one. -/
theorem classify_bareCurve {names : List String} {n : String}
    (hothers : plainClassifier.axesByPolicies "Curve" (numberedAxes names) [3]
      [.explicit, .affix] = .ok none)
    (hpositional : Policy.positional.axes Config.default "Curve" [3] (numberedAxes names) =
      .ok (some [n]))
    (hvalid : plainClassifier.validAxes "Curve" (numberedAxes names) [3] [n] =
      .ok (some [(n, numberedAxis n)])) :
    plainClassifier.classify "Curve" bareCurve.toNode (numberedAxes names) =
      .ok (some (curveOver n)) := by
  have hfound : plainClassifier.externalAxes "Curve" (numberedAxes names) bareCurve.dims =
      .ok (some [(n, numberedAxis n)]) := by
    refine (axesByPolicies_append hothers [.positional]).trans ?_
    rw [axesByPolicies, show plainClassifier.config = Config.default from rfl, hpositional]
    show (plainClassifier.validAxes "Curve" (numberedAxes names) [3] [n] >>= _) = _
    rw [hvalid]
    rfl
  have hsought : plainClassifier.sought bareCurve.toNode = some bareCurve := rfl
  rw [classify_of_sought hsought, hfound]
  rfl

/-- `Axis_2` and `Axis_10` have different keys, so that their order does not matter. -/
theorem classify_reordered_numbered :
    (numberedAxes ["Axis_10", "Axis_2"]).Reordered (numberedAxes ["Axis_2", "Axis_10"]) ∧
      ¬Policy.Ambiguous Config.default "Curve" [3] (numberedAxes ["Axis_10", "Axis_2"]) ∧
      plainClassifier.classify "Curve" bareCurve.toNode (numberedAxes ["Axis_2", "Axis_10"]) =
        plainClassifier.classify "Curve" bareCurve.toNode
          (numberedAxes ["Axis_10", "Axis_2"]) := by
  have hreordered := numberedAxes_reordered (.swap "Axis_2" "Axis_10" []) (by decide)
  have hcandidates : Policy.candidates Config.default "Curve"
      (numberedAxes ["Axis_10", "Axis_2"]) = ["Axis_10", "Axis_2"] := by decide
  -- the two numbers differ, so that their order is settled
  have hnot : ¬Policy.Ambiguous Config.default "Curve" [3]
      (numberedAxes ["Axis_10", "Axis_2"]) := by
    refine Policy.not_ambiguous_of_separated ?_ (fun _ _ => ⟨_, rfl⟩) ?_
    · rw [hcandidates]
      simp only [List.forall_mem_cons]
      exact ⟨⟨_, rfl⟩, ⟨_, rfl⟩, by simp⟩
    · rw [hcandidates]
      decide
  obtain ⟨-, hclassify⟩ := classify_reordered plainClassifier "Curve"
    (numberedAxes ["Axis_10", "Axis_2"])
  refine ⟨hreordered, hnot, hclassify bareCurve.toNode _ hreordered fun value hvalue _ => ?_⟩
  obtain rfl : bareCurve = value := Option.some.inj hvalue
  exact hnot

/-- `Axis_1` and `Axis_01` have equal keys, and the one that is listed first becomes the axis. -/
theorem axis_by_order_of_siblings :
    (numberedAxes ["Axis_1", "Axis_01"]).Reordered (numberedAxes ["Axis_01", "Axis_1"]) ∧
      Policy.positional.axes Config.default "Curve" [3] (numberedAxes ["Axis_1", "Axis_01"]) =
        .ok (some ["Axis_1"]) ∧
      Policy.positional.axes Config.default "Curve" [3] (numberedAxes ["Axis_01", "Axis_1"]) =
        .ok (some ["Axis_01"]) ∧
      plainClassifier.classify "Curve" bareCurve.toNode (numberedAxes ["Axis_1", "Axis_01"]) =
        .ok (some (curveOver "Axis_1")) ∧
      plainClassifier.classify "Curve" bareCurve.toNode (numberedAxes ["Axis_01", "Axis_1"]) =
        .ok (some (curveOver "Axis_01")) := by
  -- equal numbers: the stable sort keeps the order of the siblings
  have hanswer : Policy.positional.axes Config.default "Curve" [3]
      (numberedAxes ["Axis_1", "Axis_01"]) = .ok (some ["Axis_1"]) := by
    have hcandidates : Policy.candidates Config.default "Curve"
        (numberedAxes ["Axis_1", "Axis_01"]) = ["Axis_1", "Axis_01"] := by decide
    rw [Policy.axes, Policy.positionalAxes_of_match (by decide), hcandidates,
      naturalSort_of_pairwise (by simpa using ⟨⟨_, rfl⟩, ⟨_, rfl⟩⟩) (by decide)]
    rfl
  have hanswer' : Policy.positional.axes Config.default "Curve" [3]
      (numberedAxes ["Axis_01", "Axis_1"]) = .ok (some ["Axis_01"]) := by
    have hcandidates : Policy.candidates Config.default "Curve"
        (numberedAxes ["Axis_01", "Axis_1"]) = ["Axis_01", "Axis_1"] := by decide
    rw [Policy.axes, Policy.positionalAxes_of_match (by decide), hcandidates,
      naturalSort_of_pairwise (by simpa using ⟨⟨_, rfl⟩, ⟨_, rfl⟩⟩) (by decide)]
    rfl
  exact ⟨numberedAxes_reordered (.swap "Axis_01" "Axis_1" []) (by decide), hanswer, hanswer',
    classify_bareCurve rfl hanswer rfl, classify_bareCurve rfl hanswer' rfl⟩

end Classifier

end DebugLayout
