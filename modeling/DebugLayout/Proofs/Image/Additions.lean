/-!
# DebugLayout — runs of additions

Symbols, regions and segments of memory are **added** one after the other, and an addition that is
refused changes nothing. What a run of additions leads to is therefore known from the additions that
were accepted, each at its turn.

The tables themselves differ, but the argument does not: a property of a table and of the additions
accepted so far, which every accepted addition keeps, holds in the end. The symbol table, the
memory, the regions and the arena of types all take their induction from here.

* `addEach`: what some additions lead to;
* `accepted`: those of them that were not refused;
* `addEach_induction`: what every accepted addition keeps holds after all of them;
* `foldlM_eq_addEach`: additions none of which can be refused.
-/

namespace DebugLayout

variable {σ ι ε : Type}

/-- What an addition leads to, or what was there if it is refused. -/
def addOne (add : σ → ι → Except ε σ) (s : σ) (item : ι) : σ :=
  match add s item with
  | .ok s' => s'
  | .error _ => s

/-- What some additions lead to. -/
def addEach (add : σ → ι → Except ε σ) (s : σ) (items : List ι) : σ := items.foldl (addOne add) s

/-- The additions among some that are accepted, each after those before it. -/
def accepted (add : σ → ι → Except ε σ) (s : σ) : List ι → List ι
  | [] => []
  | item :: rest =>
    match add s item with
    | .ok s' => item :: accepted add s' rest
    | .error _ => accepted add s rest

variable {add : σ → ι → Except ε σ}

/-- An item that is added is accepted, and the others are added after it. -/
theorem addEach_cons_of_ok {s s' : σ} {item : ι} (h : add s item = .ok s') (rest : List ι) :
    addEach add s (item :: rest) = addEach add s' rest ∧
      accepted add s (item :: rest) = item :: accepted add s' rest := by
  simp only [addEach, List.foldl_cons, addOne, accepted, h, and_self]

/-- An item that is refused changes nothing. -/
theorem addEach_cons_of_error {s : σ} {item : ι} {fault : ε} (h : add s item = .error fault)
    (rest : List ι) :
    addEach add s (item :: rest) = addEach add s rest ∧
      accepted add s (item :: rest) = accepted add s rest := by
  simp only [addEach, List.foldl_cons, addOne, accepted, h, and_self]

/-- The accepted additions are among those that were made, in their order. -/
theorem accepted_sublist (s : σ) (items : List ι) : (accepted add s items).Sublist items := by
  induction items generalizing s with
  | nil => exact List.Sublist.refl []
  | cons item rest ih =>
    cases hadd : add s item with
    | ok s' =>
      rw [(addEach_cons_of_ok hadd rest).2]
      exact (ih s').cons_cons item
    | error fault =>
      rw [(addEach_cons_of_error hadd rest).2]
      exact (ih s).cons item

/-- What holds at the start and is kept by every accepted addition holds after all of them. It may
tell of the additions accepted so far. -/
theorem addEach_induction (add : σ → ι → Except ε σ) (P : σ → List ι → Prop) {s : σ} (h : P s [])
    (hstep : ∀ s done item s', P s done → add s item = .ok s' → P s' (done ++ [item]))
    (items : List ι) : P (addEach add s items) (accepted add s items) := by
  -- stated for any list that was accepted before, so that the induction can go on from there
  have hrun : ∀ s done, P s done → P (addEach add s items) (done ++ accepted add s items) := by
    induction items with
    | nil =>
      intro s done h
      simpa [addEach, accepted] using h
    | cons item rest ih =>
      intro s done h
      cases hadd : add s item with
      | ok s' =>
        obtain ⟨heach, haccepted⟩ := addEach_cons_of_ok hadd rest
        rw [heach, haccepted, List.append_cons]
        exact ih s' (done ++ [item]) (hstep s done item s' h hadd)
      | error fault =>
        obtain ⟨heach, haccepted⟩ := addEach_cons_of_error hadd rest
        rw [heach, haccepted]
        exact ih s done h
  exact hrun s [] h

/-- Additions that are accepted whatever was added before lead to what is left without stopping at
a refused one. -/
theorem foldlM_eq_addEach {items : List ι} (h : ∀ s, ∀ item ∈ items, ∃ s', add s item = .ok s')
    (s : σ) :
    items.foldlM add s = .ok (addEach add s items) ∧ accepted add s items = items := by
  induction items generalizing s with
  | nil => exact ⟨rfl, rfl⟩
  | cons item rest ih =>
    obtain ⟨s', hadd⟩ := h s item List.mem_cons_self
    obtain ⟨heach, haccepted⟩ := addEach_cons_of_ok hadd rest
    obtain ⟨hfold, hrest⟩ := ih (fun s item hitem => h s item (List.mem_cons_of_mem _ hitem)) s'
    rw [heach, haccepted, hrest, List.foldlM_cons, hadd]
    exact ⟨hfold, rfl⟩

end DebugLayout
