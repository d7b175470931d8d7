import DebugLayout.Image.SymbolTable

/-!
# DebugLayout — symbol tables built by additions

A symbol table has two indexes, by name and by address, and every symbol is listed in both. This
module says what an addition does to them, and what holds of every table that additions lead to:
the two indexes hold the **same** symbols, no name has the same stretch of memory twice, and at most
one symbol of a name is global.

Coherence is an invariant of additions, whether they are accepted, ignored because the symbol is
known, or refused. All later statements about symbol tables rest on it and on `add_cases`, and none
of them opens the definition of an addition again.

* `SymbolTable.Reachable`: the tables that additions lead to, refused ones aside;
* `SymbolTable.add_cases`: everything that an addition can do;
* `SymbolTable.Coherent`, `Reachable.coherent`: what holds of every such table;
* `SymbolTable.addAll`, `reachable_addAll`: runs of additions, in which refused ones change nothing;
* `SymbolTable.lookup_of_global`, `lookup_of_only`, `lookup_of_none`: what a name
  means;
* `SymbolTable.at?_eq_some`: a name that is found at an address has a symbol there.
-/

namespace DebugLayout

namespace SymbolTable

/-- The tables that additions lead to. A refused addition leaves no table behind and the old one as
it is. -/
inductive Reachable : SymbolTable → Prop
  | empty : Reachable .empty
  | add {t t' : SymbolTable} {name : String} {new : Symbol} :
      Reachable t → t.add name new = .ok t' → Reachable t'

/-- What starts at an address: names, each with the size of its symbol. -/
def symbolsAt (t : SymbolTable) (start : Int) : List (String × Int) :=
  (t.byAddress.get? start).getD []

-- ---------------------------------------------------------------------------
-- One addition
-- ---------------------------------------------------------------------------

/-- Whether two symbols are the same stretch of memory. -/
def SamePlace (s s' : Symbol) : Prop := s.address = s'.address ∧ s.size = s'.size

/-- A symbol is known when its name has the same stretch of memory already. -/
theorem samePlace_of_known {new : Symbol} {olds : List Symbol}
    (h : admission new olds = .known) : ∃ old ∈ olds, SamePlace old new := by
  induction olds with
  | nil => simp [admission] at h
  | cons old rest ih =>
    rw [admission] at h
    split at h
    · rename_i hsame
      exact ⟨old, List.mem_cons_self, hsame⟩
    · split at h
      · exact absurd h (by simp)
      · obtain ⟨s, hs, hsame⟩ := ih h
        exact ⟨s, List.mem_cons_of_mem _ hs, hsame⟩

/-- A symbol is welcome when its name has no such stretch of memory and it is no second global
symbol of the name. -/
theorem admission_eq_welcome_iff {new : Symbol} {olds : List Symbol} :
    admission new olds = .welcome ↔
      ∀ old ∈ olds, ¬SamePlace old new ∧ (old.isLocal = true ∨ new.isLocal = true) := by
  induction olds with
  | nil => simp [admission]
  | cons old rest ih =>
    rw [admission, List.forall_mem_cons, ← ih]
    by_cases hsame : old.address = new.address ∧ old.size = new.size
    · simp [hsame, SamePlace]
    · rw [if_neg hsame]
      cases hold : old.isLocal <;> cases hnew : new.isLocal <;> simp [SamePlace, hsame]

/-- Everything that an addition can do: the symbol was there, or it joins both indexes at the end of
the symbols of its name and of its address. -/
theorem add_cases {t t' : SymbolTable} {name : String} {new : Symbol}
    (h : t.add name new = .ok t') :
    ((∃ old ∈ t.symbolsOf name, SamePlace old new) ∧ t' = t) ∨
      (admission new (t.symbolsOf name) = .welcome ∧
        t'.byName = t.byName.insert name (t.symbolsOf name ++ [new]) ∧
        t'.byAddress =
          t.byAddress.insert new.address (t.symbolsAt new.address ++ [(name, new.size)])) := by
  unfold add at h
  split at h
  · exact absurd h (by simp)
  · split at h
    · rename_i hknown
      rw [Except.ok.injEq] at h
      exact .inl ⟨samePlace_of_known hknown, h.symm⟩
    · exact absurd h (by simp)
    · rename_i hwelcome
      rw [Except.ok.injEq] at h
      subst h
      exact .inr ⟨hwelcome, rfl, rfl⟩

theorem symbolsOf_of_insert {t t' : SymbolTable} {name : String} {symbols : List Symbol}
    (h : t'.byName = t.byName.insert name symbols) (other : String) :
    t'.symbolsOf other = if name = other then symbols else t.symbolsOf other := by
  rw [symbolsOf, h, OrderedMap.get?_insert]
  split <;> rfl

theorem symbolsAt_of_insert {t t' : SymbolTable} {start : Int} {here : List (String × Int)}
    (h : t'.byAddress = t.byAddress.insert start here) (other : Int) :
    t'.symbolsAt other = if start = other then here else t.symbolsAt other := by
  rw [symbolsAt, h, AddressMap.get?_insert]
  split <;> rfl

-- ---------------------------------------------------------------------------
-- What every addition keeps
-- ---------------------------------------------------------------------------

/-- The two indexes of a table agree. -/
structure Coherent (t : SymbolTable) : Prop where
  /-- The addresses are in order. -/
  sorted : t.byAddress.Sorted
  /-- The indexes hold the same symbols. -/
  indexed : ∀ name start size, (name, size) ∈ t.symbolsAt start ↔ (start, size) ∈ t.lookupAll name
  /-- No name has a stretch of memory twice. -/
  distinct : ∀ name, (t.lookupAll name).Nodup
  /-- Two global symbols of a name are the same. -/
  oneGlobal : ∀ name, (t.symbolsOf name).Pairwise fun s s' =>
    s.isLocal = true ∨ s'.isLocal = true

theorem coherent_empty : Coherent .empty where
  sorted := AddressMap.sorted_empty
  indexed _ _ _ := by
    simp [symbolsAt, lookupAll, symbolsOf, empty, AddressMap.get?, AddressMap.empty]
  distinct _ := List.nodup_nil
  oneGlobal _ := List.Pairwise.nil

/-- An addition keeps the two indexes in agreement. -/
theorem Coherent.add {t t' : SymbolTable} {name : String} {new : Symbol} (h : t.Coherent)
    (hadd : t.add name new = .ok t') : t'.Coherent := by
  rcases add_cases hadd with ⟨-, rfl⟩ | ⟨hwelcome, hname, haddress⟩
  · exact h
  have hof := symbolsOf_of_insert hname
  have hat := symbolsAt_of_insert haddress
  rw [admission_eq_welcome_iff] at hwelcome
  refine ⟨?_, ?_, ?_, ?_⟩
  · rw [haddress]
    exact AddressMap.sorted_insert h.sorted _ _
  · intro other start size
    rw [hat, lookupAll, hof]
    have hold := h.indexed other start size
    rw [lookupAll] at hold
    -- the new symbol shows at its own address under its own name, and nowhere else
    by_cases ha : new.address = start <;> by_cases hn : name = other
    · subst ha hn
      simp [hold]
    · subst ha
      simp [hn, Ne.symm hn, hold]
    · subst hn
      simp [ha, Ne.symm ha, hold]
    · simp [ha, hn, hold]
  · intro other
    rw [lookupAll, hof]
    split
    · rename_i hn
      rw [List.map_append, List.nodup_append]
      refine ⟨h.distinct name, List.pairwise_singleton _ _, ?_⟩
      intro place hplace last hlast
      obtain ⟨old, hmem, rfl⟩ := List.mem_map.1 hplace
      rw [List.map_singleton, List.mem_singleton] at hlast
      rintro rfl
      -- the new symbol was not known, hence its place is none of the old ones
      obtain ⟨ha, hs⟩ := Prod.mk.inj hlast
      exact (hwelcome old hmem).1 ⟨ha, hs⟩
    · exact h.distinct other
  · intro other
    rw [hof]
    split
    · rw [List.pairwise_append]
      refine ⟨h.oneGlobal name, List.pairwise_singleton _ _, ?_⟩
      intro old hold last hlast
      rw [List.mem_singleton] at hlast
      rw [hlast]
      -- a second global symbol of the name would have been refused
      exact (hwelcome old hold).2
    · exact h.oneGlobal other

/-- The two indexes of every table that additions lead to agree. -/
theorem Reachable.coherent {t : SymbolTable} (h : t.Reachable) : t.Coherent := by
  induction h with
  | empty => exact coherent_empty
  | add _ hadd ih => exact ih.add hadd

-- ---------------------------------------------------------------------------
-- Runs of additions
-- ---------------------------------------------------------------------------

/-- A table after the addition of a symbol under a name, or as it was if the addition is refused. -/
def tryAdd (t : SymbolTable) (named : String × Symbol) : SymbolTable :=
  match t.add named.1 named.2 with
  | .ok t' => t'
  | .error _ => t

/-- A table after some additions. -/
def addAll (t : SymbolTable) (additions : List (String × Symbol)) : SymbolTable :=
  additions.foldl tryAdd t

/-- One more addition, refused or not, leads to a table that additions lead to. -/
theorem Reachable.tryAdd {t : SymbolTable} (h : t.Reachable) (named : String × Symbol) :
    (t.tryAdd named).Reachable := by
  unfold SymbolTable.tryAdd
  split
  · rename_i t' hadd
    exact h.add hadd
  · exact h

/-- Additions lead from a table that additions lead to to another one. -/
theorem Reachable.addAll {t : SymbolTable} (h : t.Reachable)
    (additions : List (String × Symbol)) : (t.addAll additions).Reachable := by
  unfold SymbolTable.addAll
  induction additions generalizing t with
  | nil => exact h
  | cons named rest ih => exact ih (h.tryAdd named)

/-- Additions to the empty table lead to tables that additions lead to. -/
theorem reachable_addAll (additions : List (String × Symbol)) :
    (empty.addAll additions).Reachable :=
  Reachable.empty.addAll additions

-- ---------------------------------------------------------------------------
-- What a name means
-- ---------------------------------------------------------------------------

/-- The global symbols of a name. -/
def globalsOf (t : SymbolTable) (name : String) : List Symbol :=
  (t.symbolsOf name).filter fun s => !s.isLocal

/-- A name has no second global symbol. -/
theorem Coherent.globalsOf_eq {t : SymbolTable} (h : t.Coherent) {name : String} {s : Symbol}
    (hs : s ∈ t.symbolsOf name) (hglobal : s.isLocal = false) : t.globalsOf name = [s] := by
  have hpair := (h.oneGlobal name).filter fun s => !s.isLocal
  have hmem : s ∈ t.globalsOf name := List.mem_filter.2 ⟨hs, by simp [hglobal]⟩
  have hall : ∀ s ∈ t.globalsOf name, s.isLocal = false := fun s hs => by
    simpa using (List.mem_filter.1 hs).2
  unfold globalsOf at *
  match hg : (t.symbolsOf name).filter fun s => !s.isLocal with
  | [] => simp [hg] at hmem
  | [s'] => simpa [hg, eq_comm] using hmem
  | s₁ :: s₂ :: rest =>
    -- a name has no two global symbols
    rw [hg] at hpair hall
    have h₁ := hall s₁ (by simp)
    have h₂ := hall s₂ (by simp)
    have := (List.pairwise_cons.1 hpair).1 s₂ (by simp)
    simp [h₁, h₂] at this

/-- A name has one global symbol at most. -/
theorem Coherent.eq_of_global {t : SymbolTable} (h : t.Coherent) {name : String} {s s' : Symbol}
    (hs : s ∈ t.symbolsOf name) (hglobal : s.isLocal = false) (hs' : s' ∈ t.symbolsOf name)
    (hglobal' : s'.isLocal = false) : s' = s := by
  have hone := (h.globalsOf_eq hs' hglobal').symm.trans (h.globalsOf_eq hs hglobal)
  exact (List.cons.inj hone).1

/-- A name with a global symbol means it. -/
theorem Coherent.lookup_of_global {t : SymbolTable} (h : t.Coherent) {name : String} {s : Symbol}
    (hs : s ∈ t.symbolsOf name) (hglobal : s.isLocal = false) :
    t.lookup name = some (s.address, s.size) := by
  have hg := h.globalsOf_eq hs hglobal
  unfold globalsOf at hg
  simp only [lookup, hg]

/-- A name means its only symbol, whether it is global or local. -/
theorem lookup_of_only {t : SymbolTable} {name : String} {s : Symbol}
    (h : t.symbolsOf name = [s]) : t.lookup name = some (s.address, s.size) := by
  rw [lookup, h]
  cases hlocal : s.isLocal <;> simp [hlocal]

/-- Local symbols that a name shares with others, or with none, leave it without a meaning. -/
theorem lookup_of_none {t : SymbolTable} {name : String}
    (hlocal : ∀ s ∈ t.symbolsOf name, s.isLocal = true)
    (honly : (t.symbolsOf name).length ≠ 1) : t.lookup name = none := by
  have hglobals : (t.symbolsOf name).filter (fun s => !s.isLocal) = [] := by
    rw [List.filter_eq_nil_iff]
    intro s hs
    simp [hlocal s hs]
  rw [lookup, hglobals]
  match h : t.symbolsOf name with
  | [] | _ :: _ :: _ => rfl
  | [_] => exact absurd (by rw [h]; rfl) honly

-- ---------------------------------------------------------------------------
-- What is found at an address
-- ---------------------------------------------------------------------------

/-- What a walk over the addresses finds is listed at one of them, and covers the address. -/
theorem findCovering_eq_some {a : Int} {entries : List (Int × List (String × Int))} {name : String}
    (h : findCovering a entries = some name) :
    ∃ start here size, (start, here) ∈ entries ∧ (name, size) ∈ here ∧
      covers start size a = true := by
  induction entries with
  | nil => simp [findCovering] at h
  | cons e lower ih =>
    obtain ⟨start, here⟩ := e
    rw [findCovering] at h
    split at h
    · rename_i symbol hfind
      rw [Option.some.injEq] at h
      subst h
      -- the first symbol at a start that covers the address
      have hcovers := List.find?_some hfind
      exact ⟨start, here, symbol.2, List.mem_cons_self, List.mem_of_find?_eq_some hfind, hcovers⟩
    · split at h
      · exact absurd h (by simp)
      · obtain ⟨start', here', size, hmem, hsize, hcovers⟩ := ih h
        exact ⟨start', here', size, List.mem_cons_of_mem _ hmem, hsize, hcovers⟩

/-- A name that is found at an address has a symbol that covers it. -/
theorem Coherent.at?_eq_some {t : SymbolTable} (h : t.Coherent) {a : Int} {name : String}
    (hat : t.at? a = some name) :
    ∃ start size, (start, size) ∈ t.lookupAll name ∧ covers start size a = true := by
  obtain ⟨start, here, size, hmem, hsize, hcovers⟩ := findCovering_eq_some hat
  have hget := h.sorted.mem_entries_iff.1 (AddressMap.mem_upTo hmem).1
  refine ⟨start, size, (h.indexed name start size).1 ?_, hcovers⟩
  rw [symbolsAt, hget]
  exact hsize

end SymbolTable

end DebugLayout
