import DebugLayout.Proofs.Image.SymbolTable
import Mathlib.Tactic.ByContra

/-!
# DebugLayout — which addresses a symbol table knows

A symbol covers the addresses from its own up to its size. The walk back from an address, however,
never goes beyond the **nearest** address at or below it at which some symbol begins: a symbol that
reaches over the beginning of another one is not found behind it.

So a name is found exactly where a covering symbol begins nearest, and an address that is covered
only by symbols that begin before another one is taken for an unknown one.

The walk was meant to go back until it meets a symbol that covers the address. It goes back over the
symbols that begin at one address only, because it breaks off at the first address below. What is
hidden by that is stated in terms of the symbols, without reference to the walk.

* `SymbolTable.Reachable.at?_eq`: only what begins nearest is looked at;
* `SymbolTable.Reachable.at?_isSome_iff`: where a name is found;
* `SymbolTable.finds_covered_iff_not_hidden`: the addresses at which a covering symbol is found.
-/

namespace DebugLayout

namespace SymbolTable

-- ---------------------------------------------------------------------------
-- Addresses on record
-- ---------------------------------------------------------------------------

/-- Something begins at every address on record. -/
theorem Reachable.here_ne_nil {t : SymbolTable} (h : t.Reachable) {start : Int}
    {here : List (String × Int)} (hmem : (start, here) ∈ t.byAddress.entries) : here ≠ [] := by
  induction h with
  | empty => exact absurd hmem List.not_mem_nil
  | add _ hadd ih =>
    rcases add_cases hadd with ⟨-, rfl⟩ | ⟨-, -, haddress⟩
    · exact ih hmem
    · rw [haddress] at hmem
      rcases AddressMap.mem_insertIn hmem with hnew | hold
      · obtain ⟨-, rfl⟩ := Prod.mk.inj hnew
        simp
      · exact ih hold

-- ---------------------------------------------------------------------------
-- Symbols that cover an address
-- ---------------------------------------------------------------------------

/-- Some symbol of a name begins at an address and covers another one. -/
def CoversFrom (t : SymbolTable) (name : String) (start a : Int) : Prop :=
  ∃ size, (start, size) ∈ t.lookupAll name ∧ covers start size a = true

/-- Some symbol of a table covers an address. -/
def Covered (t : SymbolTable) (a : Int) : Prop := ∃ name start, t.CoversFrom name start a

/-- Some symbol begins beyond an address, at or below another one. -/
def BeginsWithin (t : SymbolTable) (start a : Int) : Prop :=
  ∃ name start' size, (start', size) ∈ t.lookupAll name ∧ start < start' ∧ start' ≤ a

/-- An address is hidden when symbols cover it, and each of them begins before another symbol that
begins at or below the address. -/
def Hidden (t : SymbolTable) (a : Int) : Prop :=
  t.Covered a ∧ ∀ name start, t.CoversFrom name start a → t.BeginsWithin start a

/-- A symbol covers no address before its start. -/
theorem le_of_covers {start size a : Int} (h : covers start size a = true) : start ≤ a := by
  simp only [covers, Bool.and_eq_true, decide_eq_true_eq] at h
  exact h.1

/-- A symbol covers its own address, whatever its size. -/
theorem covers_self (a size : Int) : covers a size a = true := by
  simp only [covers, Bool.and_eq_true, decide_eq_true_eq]
  omega

/-- A symbol of a table is listed under its address. -/
theorem Coherent.exists_entry {t : SymbolTable} (h : t.Coherent) {name : String} {start size : Int}
    (hlisted : (start, size) ∈ t.lookupAll name) :
    ∃ here, (start, here) ∈ t.byAddress.entries ∧ (name, size) ∈ here := by
  have hat := (h.indexed name start size).2 hlisted
  unfold symbolsAt at hat
  match hget : t.byAddress.get? start with
  | none => simp [hget] at hat
  | some here =>
    rw [hget, Option.getD_some] at hat
    exact ⟨here, AddressMap.mem_of_get? hget, hat⟩

/-- What is listed under an address is a symbol of the table. -/
theorem Coherent.mem_lookupAll {t : SymbolTable} (h : t.Coherent) {start : Int}
    {here : List (String × Int)} (hmem : (start, here) ∈ t.byAddress.entries)
    {name : String} {size : Int} (hlisted : (name, size) ∈ here) :
    (start, size) ∈ t.lookupAll name := by
  refine (h.indexed name start size).1 ?_
  rw [symbolsAt, h.sorted.mem_entries_iff.1 hmem]
  exact hlisted

-- ---------------------------------------------------------------------------
-- The walk back
-- ---------------------------------------------------------------------------

/-- The first symbol that covers an address, of those that begin at one place. -/
def coveringOf (a : Int) (entry : Int × List (String × Int)) : Option String :=
  (entry.2.find? fun symbol => covers entry.1 symbol.2 a).map (·.1)

/-- The name that is found at a start is that of a symbol there that covers the address. -/
theorem coveringOf_eq_some {a : Int} {entry : Int × List (String × Int)} {name : String}
    (h : coveringOf a entry = some name) :
    ∃ size, (name, size) ∈ entry.2 ∧ covers entry.1 size a = true := by
  obtain ⟨symbol, hfind, rfl⟩ := Option.map_eq_some_iff.1 h
  have hcovers := List.find?_some hfind
  exact ⟨symbol.2, List.mem_of_find?_eq_some hfind, hcovers⟩

/-- A name is found at a start exactly if a symbol there covers the address. -/
theorem coveringOf_isSome_iff {a : Int} {entry : Int × List (String × Int)} :
    (coveringOf a entry).isSome = true ↔
      ∃ name size, (name, size) ∈ entry.2 ∧ covers entry.1 size a = true := by
  rw [coveringOf, Option.isSome_map, List.find?_isSome]
  constructor
  · rintro ⟨symbol, hmem, hcovers⟩
    exact ⟨symbol.1, symbol.2, hmem, hcovers⟩
  · rintro ⟨name, size, hmem, hcovers⟩
    exact ⟨(name, size), hmem, hcovers⟩

/-- The walk back stops at the first place it comes to. What begins at the address itself covers
it, and anything else that begins below it ends the walk. -/
theorem findCovering_cons {a start : Int} {here : List (String × Int)}
    {lower : List (Int × List (String × Int))} (hle : start ≤ a) (hne : here ≠ []) :
    findCovering a ((start, here) :: lower) = coveringOf a (start, here) := by
  rw [findCovering]
  unfold coveringOf
  cases hfind : here.find? fun symbol => covers start symbol.2 a with
  | some symbol => rfl
  | none =>
    have hlt : start < a := by
      refine Int.lt_iff_le_and_ne.2 ⟨hle, ?_⟩
      rintro rfl
      obtain ⟨symbol, hmem⟩ := List.exists_mem_of_ne_nil here hne
      exact List.find?_eq_none.1 hfind symbol hmem (covers_self start symbol.2)
    exact if_pos hlt

/-- Only what begins nearest to an address is looked at. -/
theorem Reachable.at?_eq {t : SymbolTable} (h : t.Reachable) (a : Int) :
    t.at? a = (t.byAddress.floor? a).bind (coveringOf a) := by
  unfold at? AddressMap.floor?
  match hup : t.byAddress.upTo a with
  | [] => rfl
  | entry :: lower =>
    obtain ⟨hmem, hle⟩ := AddressMap.mem_upTo (hup ▸ List.mem_cons_self : entry ∈ _)
    exact findCovering_cons hle (h.here_ne_nil hmem)

-- ---------------------------------------------------------------------------
-- Where a name is found
-- ---------------------------------------------------------------------------

/-- Nothing begins beyond the nearest beginning. -/
theorem Coherent.not_beginsWithin {t : SymbolTable} (h : t.Coherent) {a : Int}
    {nearest : Int × List (String × Int)} (hfloor : t.byAddress.floor? a = some nearest) :
    ¬t.BeginsWithin nearest.1 a := by
  rintro ⟨name, start, size, hlisted, hlt, hle⟩
  obtain ⟨here, hmem, -⟩ := h.exists_entry hlisted
  obtain ⟨n, hn, hle'⟩ := h.sorted.le_floor? hmem hle
  rw [hfloor, Option.some.injEq] at hn
  subst hn
  exact absurd hlt (by simpa using hle')

/-- A place beyond which nothing begins is the nearest one. -/
theorem Reachable.floor?_eq {t : SymbolTable} (h : t.Reachable) {a start : Int}
    {here : List (String × Int)} (hmem : (start, here) ∈ t.byAddress.entries) (hle : start ≤ a)
    (hlast : ¬t.BeginsWithin start a) : t.byAddress.floor? a = some (start, here) := by
  obtain ⟨n, hn, hle'⟩ := h.coherent.sorted.le_floor? hmem hle
  obtain ⟨hnmem, hna⟩ := AddressMap.floor?_eq_some hn
  obtain ⟨symbol, hsymbol⟩ := List.exists_mem_of_ne_nil n.2 (h.here_ne_nil hnmem)
  have hlisted := h.coherent.mem_lookupAll hnmem hsymbol
  have hstart : start = n.1 := by
    by_contra hne
    exact hlast ⟨symbol.1, n.1, symbol.2, hlisted, Int.lt_iff_le_and_ne.2 ⟨hle', hne⟩, hna⟩
  have hhere := h.coherent.sorted.mem_entries_iff.1 hmem
  rw [hstart, h.coherent.sorted.mem_entries_iff.1 hnmem, Option.some.injEq] at hhere
  rw [hn, hstart, ← hhere]

/-- A name that is found has a symbol that covers the address and begins nearest to it. -/
theorem Reachable.coversFrom_of_at? {t : SymbolTable} (h : t.Reachable) {a : Int} {name : String}
    (hat : t.at? a = some name) : ∃ start, t.CoversFrom name start a ∧ ¬t.BeginsWithin start a := by
  rw [h.at?_eq] at hat
  obtain ⟨nearest, hfloor, hcovering⟩ := Option.bind_eq_some_iff.1 hat
  obtain ⟨size, hlisted, hcovers⟩ := coveringOf_eq_some hcovering
  have hmem := (AddressMap.floor?_eq_some hfloor).1
  exact ⟨nearest.1, ⟨size, h.coherent.mem_lookupAll hmem hlisted, hcovers⟩,
    h.coherent.not_beginsWithin hfloor⟩

/-- A name is found exactly where a symbol that covers the address begins nearest to it. -/
theorem Reachable.at?_isSome_iff {t : SymbolTable} (h : t.Reachable) {a : Int} :
    (t.at? a).isSome = true ↔
      ∃ name start, t.CoversFrom name start a ∧ ¬t.BeginsWithin start a := by
  constructor
  · intro hsome
    obtain ⟨name, hat⟩ := Option.isSome_iff_exists.1 hsome
    exact ⟨name, h.coversFrom_of_at? hat⟩
  · rintro ⟨name, start, ⟨size, hlisted, hcovers⟩, hlast⟩
    obtain ⟨here, hmem, hhere⟩ := h.coherent.exists_entry hlisted
    rw [h.at?_eq, h.floor?_eq hmem (le_of_covers hcovers) hlast, Option.bind_some,
      coveringOf_isSome_iff]
    exact ⟨name, size, hhere, hcovers⟩

/-- After any additions, a name that is found at an address has a symbol that covers it. A name is
found exactly when some symbol covers the address, unless the address is hidden. -/
theorem finds_covered_iff_not_hidden (additions : List (String × Symbol)) (a : Int) :
    (∀ name, (empty.addAll additions).at? a = some name →
      ∃ start, (empty.addAll additions).CoversFrom name start a) ∧
    ((((empty.addAll additions).at? a).isSome = true ↔ (empty.addAll additions).Covered a) ↔
      ¬(empty.addAll additions).Hidden a) := by
  have h := reachable_addAll additions
  constructor
  · intro name hat
    obtain ⟨start, hfrom, -⟩ := h.coversFrom_of_at? hat
    exact ⟨start, hfrom⟩
  -- found is whatever lies in a symbol that no later start comes before
  rw [h.at?_isSome_iff]
  constructor
  · rintro hiff ⟨hcovered, hall⟩
    obtain ⟨name, start, hfrom, hlast⟩ := hiff.2 hcovered
    exact hlast (hall name start hfrom)
  · intro hopen
    constructor
    · rintro ⟨name, start, hfrom, -⟩
      exact ⟨name, start, hfrom⟩
    · intro hcovered
      by_contra hnone
      refine hopen ⟨hcovered, fun name start hfrom => ?_⟩
      by_contra hlast
      exact hnone ⟨name, start, hfrom, hlast⟩

/-- A block of sixteen bytes, then a symbol for its second word. -/
def overlaid : List (String × Symbol) :=
  [("block", ⟨0x1000, 16, false⟩), ("field", ⟨0x1004, 4, false⟩)]

/-- The second word is found under the name of its own symbol; the words behind it are hidden. -/
theorem finds_covered_iff_not_hidden_overlaid :
    (empty.addAll overlaid).at? 0x1004 = some "field" ∧
      (∃ start, (empty.addAll overlaid).CoversFrom "field" start 0x1004) ∧
      (empty.addAll overlaid).Hidden 0x1008 := by
  have hfield : (empty.addAll overlaid).at? 0x1004 = some "field" := by decide
  obtain ⟨hcovers, -⟩ := finds_covered_iff_not_hidden overlaid 0x1004
  obtain ⟨-, hexact⟩ := finds_covered_iff_not_hidden overlaid 0x1008
  refine ⟨hfield, hcovers "field" hfield, not_not.1 fun hopen => ?_⟩
  have hcovered : (empty.addAll overlaid).Covered 0x1008 :=
    ⟨"block", 0x1000, 16, by decide, by decide⟩
  exact absurd ((hexact.2 hopen).2 hcovered) (by decide)

/-- The words of a block behind one that has a symbol of its own are not found. -/
theorem block_lost_behind_field :
    (empty.addAll overlaid).Covered 0x1008 ∧ (empty.addAll overlaid).at? 0x1008 = none :=
  ⟨⟨"block", 0x1000, 16, by decide, by decide⟩, by decide⟩

end SymbolTable

end DebugLayout
