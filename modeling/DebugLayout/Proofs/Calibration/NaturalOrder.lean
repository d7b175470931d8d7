import DebugLayout.Calibration.NaturalOrder
import DebugLayout.Proofs.Outcome
import Mathlib.Data.String.Basic

/-!
# DebugLayout — leaving names out of the natural order

Names are sorted by a **total preorder** on their keys, and names with equal keys keep the order
they had. Leaving some names out before sorting is therefore the same as leaving them out
afterwards, provided that none of them has a fault of its own to report.

The keys of names are compared piece by piece, and two keys neither of which comes before the other
are equal up to the shorter one. All that the sort needs is that whatever stands between two names
comes after the one or before the other (`keyBefore_cotrans`).

* `keyBefore_asymm`, `keyBefore_cotrans`: keys are in a strict weak order;
* `filter_mergeSort`: leaving out commutes with a stable sort;
* `naturalSort_filter`: leaving out commutes with the natural order.
-/

namespace DebugLayout

-- ---------------------------------------------------------------------------
-- The order of keys
-- ---------------------------------------------------------------------------

namespace NaturalPart

/-- Of two parts at most one comes before the other. -/
theorem before_asymm {p q : NaturalPart} (h : p.before q = true) : q.before p = false := by
  cases p with
  | text s =>
    cases q with
    | text t =>
      simp only [before, decide_eq_true_eq, decide_eq_false_iff_not] at *
      exact lt_asymm h
    | number n =>
      -- texts come before numbers
      rfl
  | number m =>
    cases q with
    | text t => exact absurd h (by simp [before])
    | number n =>
      simp only [before, decide_eq_true_eq, decide_eq_false_iff_not] at *
      omega

/-- A piece that comes before another has any third one after it or before the other. -/
theorem before_cotrans {p r : NaturalPart} (h : p.before r = true) (q : NaturalPart) :
    p.before q = true ∨ q.before r = true := by
  cases p <;> cases q <;> cases r <;>
    simp only [before, decide_eq_true_eq, reduceCtorEq, or_true, true_or, or_false] at *
  · rename_i s t u
    rcases lt_or_ge s t with hst | hts
    · exact .inl hst
    · exact .inr (lt_of_le_of_lt hts h)
  · omega

/-- Parts neither of which comes before the other are the same. -/
theorem eq_of_not_before {p q : NaturalPart} (hpq : p.before q = false)
    (hqp : q.before p = false) : p = q := by
  cases p with
  | text s =>
    cases q with
    | text t =>
      simp only [before, decide_eq_false_iff_not, not_lt] at *
      rw [le_antisymm hqp hpq]
    | number n => exact absurd hpq (by simp [before])
  | number m =>
    cases q with
    | text t => exact absurd hqp (by simp [before])
    | number n =>
      simp only [before, decide_eq_false_iff_not, not_lt] at *
      rw [le_antisymm hqp hpq]

end NaturalPart

theorem keyBefore_asymm {a b : NaturalKey} (h : keyBefore a b = true) : keyBefore b a = false := by
  induction a generalizing b with
  | nil =>
    cases b with
    | nil => exact absurd h (by simp [keyBefore])
    | cons q qs => rfl
  | cons p ps ih =>
    cases b with
    | nil => exact absurd h (by simp [keyBefore])
    | cons q qs =>
      rw [keyBefore, Bool.or_eq_true, Bool.and_eq_true, Bool.not_eq_true'] at h
      rw [keyBefore, Bool.or_eq_false_iff, Bool.and_eq_false_iff, Bool.not_eq_false']
      -- the first pieces decide, or do not differ
      rcases h with h | ⟨hqp, h⟩
      · exact ⟨NaturalPart.before_asymm h, .inl h⟩
      · exact ⟨hqp, .inr (ih h)⟩

/-- A key that comes before another has any third one after it or before the other. -/
theorem keyBefore_cotrans {a c : NaturalKey} (h : keyBefore a c = true) (b : NaturalKey) :
    keyBefore a b = true ∨ keyBefore b c = true := by
  induction a generalizing b c with
  | nil =>
    cases c with
    | nil => exact absurd h (by simp [keyBefore])
    | cons r rs =>
      cases b with
      | nil => exact .inr rfl
      | cons q qs => exact .inl rfl
  | cons p ps ih =>
    cases c with
    | nil => exact absurd h (by simp [keyBefore])
    | cons r rs =>
      cases b with
      | nil => exact .inr rfl
      | cons q qs =>
        simp only [keyBefore, Bool.or_eq_true, Bool.and_eq_true, Bool.not_eq_true'] at h ⊢
        cases hpq : p.before q with
        | true => exact .inl (.inl rfl)
        | false =>
          cases hqr : q.before r with
          | true => exact .inr (.inl rfl)
          | false =>
            rcases h with h | ⟨hrp, h⟩
            · rcases NaturalPart.before_cotrans h q with h' | h'
              · rw [hpq] at h'
                exact absurd h' (by simp)
              · rw [hqr] at h'
                exact absurd h' (by simp)
            · -- the first pieces are equal, since none of the three comes before another
              cases hqp : q.before p with
              | true =>
                rcases NaturalPart.before_cotrans hqp r with h' | h'
                · rw [hqr] at h'
                  exact absurd h' (by simp)
                · rw [hrp] at h'
                  exact absurd h' (by simp)
              | false =>
                have hq : p = q := NaturalPart.eq_of_not_before hpq hqp
                subst hq
                rcases ih h qs with h' | h'
                · exact .inl (.inr ⟨rfl, h'⟩)
                · exact .inr (.inr ⟨hrp, h'⟩)

-- ---------------------------------------------------------------------------
-- Leaving out
-- ---------------------------------------------------------------------------

section StableSort

variable {α : Type} {le : α → α → Bool}
  (trans : ∀ a b c, le a b = true → le b c = true → le a c = true)
  (total : ∀ a b, (le a b || le b a) = true)
include trans total

/-- The first element of a list goes between the others that it may not precede and those it may. -/
theorem mergeSort_cons_eq (a : α) (l : List α) :
    (a :: l).mergeSort le =
      (l.mergeSort le).filter (!le a ·) ++ a :: (l.mergeSort le).filter (le a ·) := by
  obtain ⟨l₁, l₂, hcons, hl, hbefore⟩ := List.mergeSort_cons trans total a l
  have hsorted := List.pairwise_mergeSort trans total (a :: l)
  rw [hcons] at hsorted
  have hafter : ∀ b ∈ l₂, le a b = true :=
    (List.pairwise_cons.1 (List.pairwise_append.1 hsorted).2.1).1
  have hnone : l₁.filter (le a ·) = [] :=
    List.filter_eq_nil_iff.2 fun b hb => by simpa using hbefore b hb
  have hnone' : l₂.filter (!le a ·) = [] :=
    List.filter_eq_nil_iff.2 fun b hb => by simp [hafter b hb]
  rw [hcons, hl, List.filter_append, List.filter_append, List.filter_eq_self.2 hbefore,
    List.filter_eq_self.2 hafter, hnone, hnone', List.append_nil, List.nil_append]

/-- Leaving elements out commutes with a stable sort. -/
theorem filter_mergeSort (keep : α → Bool) (l : List α) :
    (l.filter keep).mergeSort le = (l.mergeSort le).filter keep := by
  induction l with
  | nil => simp
  | cons a l ih =>
    cases hk : keep a with
    | true =>
      rw [List.filter_cons_of_pos hk, mergeSort_cons_eq trans total, mergeSort_cons_eq trans total,
        ih, List.filter_append, List.filter_cons_of_pos hk, List.filter_comm,
        List.filter_comm (le a ·)]
    | false =>
      -- what the left-out element stands between is put together again
      obtain ⟨l₁, l₂, hcons, hl, -⟩ := List.mergeSort_cons trans total a l
      have hk : ¬keep a = true := by simp [hk]
      rw [List.filter_cons_of_neg hk, hcons, List.filter_append, List.filter_cons_of_neg hk,
        ← List.filter_append, ← hl, ih]

end StableSort

/-- Leaving names out commutes with finding their keys, if those left out have one. -/
theorem mapM_withKey_filter {names : List String} {keep : String → Bool}
    (h : ∀ n ∈ names, keep n = false → ∃ key, naturalKey n = .ok key) :
    (names.filter keep).mapM withKey = (names.mapM withKey).map (·.filter (keep ·.2)) := by
  induction names with
  | nil => rfl
  | cons n names ih =>
    have ih := ih fun m hm => h m (List.mem_cons_of_mem n hm)
    rw [List.mapM_cons, withKey]
    cases hk : keep n with
    | true =>
      rw [List.filter_cons_of_pos hk, List.mapM_cons, withKey, ih]
      cases naturalKey n with
      | error fault => rfl
      | ok key =>
        cases names.mapM withKey with
        | error fault => rfl
        | ok keyed =>
          have hcons : ((key, n) :: keyed).filter (keep ·.2) = _ := List.filter_cons_of_pos hk
          exact congrArg Except.ok hcons.symm
    | false =>
      have hk : ¬keep n = true := by simp [hk]
      -- a name that is left out has a key, so that it could not have failed the whole
      obtain ⟨key, hkey⟩ := h n List.mem_cons_self (by simpa using hk)
      rw [List.filter_cons_of_neg hk, hkey, ih]
      cases names.mapM withKey with
      | error fault => rfl
      | ok keyed =>
        have hcons : ((key, n) :: keyed).filter (keep ·.2) = _ := List.filter_cons_of_neg hk
        exact congrArg Except.ok hcons.symm

/-- Leaving names out commutes with the natural order, if those left out have a key. -/
theorem naturalSort_filter {names : List String} {keep : String → Bool}
    (h : ∀ n ∈ names, keep n = false → ∃ key, naturalKey n = .ok key) :
    naturalSort (names.filter keep) = (naturalSort names).map (·.filter keep) := by
  rw [naturalSort, naturalSort, mapM_withKey_filter h]
  cases names.mapM withKey with
  | error fault => rfl
  | ok keyed =>
    refine congrArg Except.ok ?_
    show List.map _ (List.mergeSort (List.filter _ keyed) _) = List.filter keep (List.map _ _)
    -- a stable sort commutes with a filter, given an order that is transitive and total
    rw [filter_mergeSort, List.filter_map]
    · rfl
    · intro a b c hab hbc
      rw [Bool.not_eq_true'] at *
      by_contra hca
      rw [Bool.not_eq_false] at hca
      -- whatever stands between the two comes after the one or before the other
      rcases keyBefore_cotrans hca b.1 with hcb | hba
      · rw [hbc] at hcb
        exact absurd hcb (by simp)
      · rw [hab] at hba
        exact absurd hba (by simp)
    · intro a b
      cases hba : keyBefore b.1 a.1 with
      | false => rfl
      | true =>
        rw [keyBefore_asymm hba]
        rfl

/-- Names cannot be put in order for the first of them that has no key. -/
theorem naturalSort_eq_error_iff {names : List String} {fault : Text.NumeralFault} :
    naturalSort names = .error fault ↔
      ∃ before n after, names = before ++ n :: after ∧
        (∀ m ∈ before, ∃ key, naturalKey m = .ok key) ∧ naturalKey n = .error fault := by
  simp only [naturalSort, map_eq_error, mapM_eq_error_iff, withKey, exists_map_eq_ok]

/-- A name without key cannot be put in order with any others. -/
theorem naturalSort_eq_error {names : List String} {n : String} {fault : Text.NumeralFault}
    (hn : n ∈ names) (h : naturalKey n = .error fault) :
    ∃ fault', naturalSort names = .error fault' := by
  -- the keys are made in turn, and the first fault ends it
  have hkeyed : ∃ fault', names.mapM withKey = .error fault' := by
    induction names with
    | nil => simp at hn
    | cons m names ih =>
      rw [List.mapM_cons, withKey]
      cases hkey : naturalKey m with
      | error fault' => exact ⟨fault', rfl⟩
      | ok key =>
        rcases List.mem_cons.1 hn with rfl | hn
        · rw [h] at hkey
          exact absurd hkey (by simp)
        · obtain ⟨fault', hrest⟩ := ih hn
          rw [hrest]
          exact ⟨fault', rfl⟩
  obtain ⟨fault', hkeyed⟩ := hkeyed
  rw [naturalSort, hkeyed]
  exact ⟨fault', rfl⟩

end DebugLayout
