/-!
# DebugLayout — outcomes

Most operations of the library end with a value or with a fault. These lemmas take an operation
apart: if it ended with a value, each of its steps did so too, and if it ended with a fault, one of
them did.

* `isOk_iff`, `eq_of_ok`: what ends with a value;
* `bind_eq_ok`, `map_eq_ok`, `mapError_eq_ok`: one step of what ends with a value;
* `bind_eq_error`, `map_eq_error`, `mapError_eq_error`: one step of what ends with a fault;
* `mapM_eq_error_iff`: the step of a sequence that a fault comes from;
* `map_injective`, `mapError_injective`: outcomes that stay different when they are translated;
* what is asked of the value that an operation may end with can be decided.
-/

namespace DebugLayout

variable {ε ε' α β : Type}

/-- An operation ends with one value. -/
theorem eq_of_ok {x : Except ε α} {a b : α} (ha : x = .ok a) (hb : x = .ok b) : a = b := by
  rw [ha, Except.ok.injEq] at hb
  exact hb

theorem isOk_iff {x : Except ε α} : x.isOk = true ↔ ∃ a, x = .ok a := by
  cases x with
  | error fault => simp [Except.isOk, Except.toBool]
  | ok a => simp [Except.isOk, Except.toBool]

/-- Two operations in a row succeed if the first does and the second does with its value. -/
theorem bind_eq_ok {x : Except ε α} {f : α → Except ε β} {b : β} :
    x >>= f = .ok b ↔ ∃ a, x = .ok a ∧ f a = .ok b := by
  cases x with
  | error fault => simp [bind, Except.bind]
  | ok a => simp [bind, Except.bind]

theorem map_eq_ok {x : Except ε α} {f : α → β} {b : β} :
    x.map f = .ok b ↔ ∃ a, x = .ok a ∧ f a = b := by
  cases x with
  | error fault => simp [Except.map]
  | ok a => simp [Except.map]

theorem exists_map_eq_ok {x : Except ε α} {f : α → β} :
    (∃ b, x.map f = .ok b) ↔ ∃ a, x = .ok a := by
  constructor
  · rintro ⟨b, hb⟩
    obtain ⟨a, ha, -⟩ := map_eq_ok.1 hb
    exact ⟨a, ha⟩
  · rintro ⟨a, ha⟩
    exact ⟨f a, map_eq_ok.2 ⟨a, ha, rfl⟩⟩

theorem mapError_eq_ok {x : Except ε α} {f : ε → ε'} {a : α} :
    x.mapError f = .ok a ↔ x = .ok a := by
  cases x with
  | error fault =>
    show Except.error (f fault) = Except.ok a ↔ Except.error fault = Except.ok a
    exact iff_of_false (by simp) (by simp)
  | ok b =>
    show Except.ok b = Except.ok a ↔ Except.ok b = Except.ok a
    rw [Except.ok.injEq, Except.ok.injEq]

theorem pure_eq_ok {a b : α} : (pure a : Except ε α) = .ok b ↔ a = b := by
  simp [pure, Except.pure]

theorem pure_ne_error {a : α} {fault : ε} : (pure a : Except ε α) ≠ .error fault := by
  simp [pure, Except.pure]

theorem throw_ne_ok {a : α} {fault : ε} : (throw fault : Except ε α) ≠ .ok a := by
  simp [throw, throwThe, MonadExceptOf.throw]

/-- Two operations in a row fail if the first does, or if the second does with its value. -/
theorem bind_eq_error {x : Except ε α} {f : α → Except ε β} {fault : ε} :
    x >>= f = .error fault ↔ x = .error fault ∨ ∃ a, x = .ok a ∧ f a = .error fault := by
  cases x with
  | error fault' => simp [bind, Except.bind]
  | ok a => simp [bind, Except.bind]

theorem map_eq_error {x : Except ε α} {f : α → β} {fault : ε} :
    x.map f = .error fault ↔ x = .error fault := by
  cases x with
  | error fault' => simp [Except.map]
  | ok a => simp [Except.map]

theorem mapError_eq_error {x : Except ε α} {f : ε → ε'} {fault : ε'} :
    x.mapError f = .error fault ↔ ∃ own, x = .error own ∧ f own = fault := by
  cases x with
  | error own =>
    show Except.error (f own) = Except.error fault ↔ _
    simp
  | ok a =>
    show Except.ok a = Except.error fault ↔ _
    exact iff_of_false (by simp) (by simp)

/-- An operation that ends well on each of some values gives what it gives for each. -/
theorem mapM_eq_ok {f : α → Except ε β} {g : α → β} {as : List α}
    (h : ∀ a ∈ as, f a = .ok (g a)) : as.mapM f = .ok (as.map g) := by
  induction as with
  | nil => rfl
  | cons a as ih =>
    have hlater := ih fun a' ha' => h a' (List.mem_cons_of_mem a ha')
    rw [List.mapM_cons, h a List.mem_cons_self, hlater]
    rfl

/-- An operation on each of some values ends with the fault of the first that has one. -/
theorem mapM_eq_error_iff {f : α → Except ε β} {as : List α} {fault : ε} :
    as.mapM f = .error fault ↔
      ∃ before a after, as = before ++ a :: after ∧ (∀ a' ∈ before, ∃ b, f a' = .ok b) ∧
        f a = .error fault := by
  induction as with
  | nil => exact iff_of_false pure_ne_error (by simp)
  | cons a as ih =>
    rw [List.mapM_cons, bind_eq_error]
    constructor
    · -- the first fault ends it, at this element or at a later one
      rintro (h | ⟨b, hb, h⟩)
      · exact ⟨[], a, as, rfl, by simp, h⟩
      rcases bind_eq_error.1 h with h | ⟨bs, -, h⟩
      · obtain ⟨before, a', after, rfl, hbefore, h⟩ := ih.1 h
        exact ⟨a :: before, a', after, rfl, List.forall_mem_cons.2 ⟨⟨b, hb⟩, hbefore⟩, h⟩
      · exact absurd h pure_ne_error
    · rintro ⟨before, a', after, hsplit, hbefore, h⟩
      cases before with
      | nil =>
        obtain ⟨rfl, -⟩ := List.cons.inj hsplit
        exact .inl h
      | cons a'' before =>
        obtain ⟨rfl, rfl⟩ := List.cons.inj hsplit
        obtain ⟨⟨b, hb⟩, hbefore⟩ := List.forall_mem_cons.1 hbefore
        exact .inr ⟨b, hb, bind_eq_error.2 (.inl (ih.2 ⟨before, a', after, rfl, hbefore, h⟩))⟩

/-- A sequence of operations fails with one of them. -/
theorem exists_of_mapM_eq_error {f : α → Except ε β} {as : List α} {fault : ε}
    (h : as.mapM f = .error fault) : ∃ a ∈ as, f a = .error fault := by
  obtain ⟨before, a, after, rfl, -, h⟩ := mapM_eq_error_iff.1 h
  exact ⟨a, by simp, h⟩

-- ---------------------------------------------------------------------------
-- Questions about values that may be missing
-- ---------------------------------------------------------------------------

section Decidable

variable {P : α → Prop} [DecidablePred P]

instance decidableForallOk (x : Except ε α) : Decidable (∀ a, x = .ok a → P a) :=
  match x with
  | .error _ => isTrue (by simp)
  | .ok a => decidable_of_iff (P a) (by simp)

instance decidableExistsSome (x : Option α) : Decidable (∃ a, x = some a ∧ P a) :=
  match x with
  | none => isFalse (by simp)
  | some a => decidable_of_iff (P a) (by simp)

instance decidableForallSome (x : Option α) : Decidable (∀ a, x = some a → P a) :=
  match x with
  | none => isTrue (by simp)
  | some a => decidable_of_iff (P a) (by simp)

instance decidableExistsOkSome (x : Except ε (Option α)) :
    Decidable (∃ a, x = .ok (some a) ∧ P a) :=
  match x with
  | .error _ | .ok none => isFalse (by simp)
  | .ok (some a) => decidable_of_iff (P a) (by simp)

instance decidableForallOkSome (x : Except ε (Option α)) :
    Decidable (∀ a, x = .ok (some a) → P a) :=
  match x with
  | .error _ | .ok none => isTrue (by simp)
  | .ok (some a) => decidable_of_iff (P a) (by simp)

end Decidable

-- ---------------------------------------------------------------------------
-- Translations
-- ---------------------------------------------------------------------------

/-- Outcomes that are mapped to the same by an injective function are the same. -/
theorem map_injective {f : α → β} (hf : ∀ a a', f a = f a' → a = a') {x y : Except ε α}
    (h : x.map f = y.map f) : x = y := by
  cases x with
  | error fault =>
    cases y with
    | error fault' => exact congrArg Except.error (Except.error.inj h)
    | ok b => exact absurd h (by simp [Except.map])
  | ok a =>
    cases y with
    | error fault' => exact absurd h (by simp [Except.map])
    | ok b => exact congrArg Except.ok (hf a b (Except.ok.inj h))

/-- Outcomes whose faults are reworded to the same by an injective function are the same. -/
theorem mapError_injective {f : ε → ε'} (hf : ∀ e e', f e = f e' → e = e') {x y : Except ε α}
    (h : x.mapError f = y.mapError f) : x = y := by
  cases x with
  | error fault =>
    cases y with
    | error fault' => exact congrArg Except.error (hf fault fault' (Except.error.inj h))
    | ok b =>
      have h : Except.error (f fault) = Except.ok b := h
      exact absurd h (by simp)
  | ok a =>
    cases y with
    | error fault' =>
      have h : Except.ok a = Except.error (f fault') := h
      exact absurd h (by simp)
    | ok b => exact congrArg Except.ok (Except.ok.inj h)

end DebugLayout
