import DebugLayout.Proofs.Outcome
import DebugLayout.Value.Check

/-!
# DebugLayout — what checks establish

A check lets exactly those values pass that it is meant to let pass, and hands back what they hold.

The texts of the faults name the value that was checked and the kind that was expected. They do not
decide whether a check passes, so that none of these lemmas depends on them.

* `Value.check_eq_ok`, `checkInt_eq_ok`, `checkText_eq_ok`, `checkStrings_eq_ok`,
  `checkField_eq_ok`: the values that pass;
* `Value.exists_field?_iff`, `field?_eq_none_iff`: the fields of a dictionary.
-/

namespace DebugLayout.Value

variable {fields : List (Key × Value)} {label context key : String} {v value : Value}

/-- A value passes if its kind is one of those asked for. -/
theorem check_eq_ok {kinds : List Kind} : v.check label kinds = .ok () ↔ v.kind ∈ kinds := by
  rw [check]
  split
  · rename_i h
    exact iff_of_true rfl (List.contains_iff_mem.1 h)
  · rename_i h
    exact iff_of_false (by simp) (fun hmem => h (List.contains_iff_mem.2 hmem))

theorem checkInt_eq_ok {n : Int} : v.checkInt label = .ok n ↔ v = .int n := by
  cases v <;> simp [checkInt]

theorem checkText_eq_ok {s : String} : v.checkText label = .ok s ↔ v = .text s := by
  cases v <;> simp [checkText]

theorem checkItems_eq_ok {place : Nat} {items : List Value} {texts : List String} :
    checkItems label place items = .ok texts ↔ items = texts.map .text := by
  induction items generalizing place texts with
  | nil => cases texts <;> simp [checkItems]
  | cons item items ih =>
    rw [checkItems, bind_eq_ok]
    simp only [bind_eq_ok, pure_eq_ok, checkText_eq_ok, ih]
    constructor
    · rintro ⟨s, rfl, rest, rfl, rfl⟩
      rfl
    · intro h
      cases texts with
      | nil => simp at h
      | cons s rest =>
        obtain ⟨hitem, hitems⟩ := List.cons.inj h
        exact ⟨s, hitem, rest, hitems, rfl⟩

/-- Lists and tuples of texts pass, and nothing else. -/
theorem checkStrings_eq_ok {texts : List String} :
    v.checkStrings label = .ok texts ↔
      v = .list (texts.map .text) ∨ v = .tuple (texts.map .text) := by
  cases v <;> simp [checkStrings, checkItems_eq_ok]

/-- A field passes if it is there and of a kind that is asked for. -/
theorem checkField_eq_ok {kinds : List Kind} :
    (dict fields).checkField context key kinds = .ok value ↔
      field? fields key = some value ∧ value.kind ∈ kinds := by
  rw [checkField]
  split
  · rename_i h
    exact iff_of_false (by simp) (by simp [h])
  · rename_i held h
    rw [map_eq_ok, h, Option.some.injEq]
    constructor
    · rintro ⟨⟨⟩, hcheck, rfl⟩
      exact ⟨rfl, check_eq_ok.1 hcheck⟩
    · rintro ⟨rfl, hkind⟩
      exact ⟨(), check_eq_ok.2 hkind, rfl⟩

theorem field?_eq_none_iff : field? fields key = none ↔ .text key ∉ fields.map (·.1) := by
  simp only [field?, Option.map_eq_none_iff, List.find?_eq_none, decide_eq_true_eq, List.mem_map,
    not_exists, not_and]

theorem exists_field?_iff :
    (∃ v, field? fields key = some v) ↔ .text key ∈ fields.map (·.1) := by
  rw [← Option.ne_none_iff_exists', Ne, field?_eq_none_iff, Decidable.not_not]

/-- Changing the values of a dictionary changes its fields, and nothing else. -/
theorem field?_map (change : Value → Value) :
    field? (fields.map fun e => (e.1, change e.2)) key = (field? fields key).map change := by
  rw [field?, field?, List.find?_map, Option.map_map, Option.map_map]
  rfl

end DebugLayout.Value
