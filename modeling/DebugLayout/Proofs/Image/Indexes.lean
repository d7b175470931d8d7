import DebugLayout.Proofs.Image.Additions
import DebugLayout.Proofs.Image.SymbolTable
import Mathlib.Data.List.Nodup

/-!
# DebugLayout — what a symbol table lists, and what its names mean

The two indexes of a symbol table list the **same** symbols, each of them once. A name lists its
symbols in the order in which they were accepted, and means its global one, or else its only one.

Whether a symbol is known already is asked for its stretch of memory alone. A global symbol in the
place of a local one of its name is thus accepted and dropped: it is **absorbed**. The name then
does not mean it, unless the local symbol is the only one of the name.

* `SymbolTable.listedByName`, `listedByAddress`: what each of the two indexes lists;
* `SymbolTable.Reachable.listedByName_perm`: they list the same;
* `SymbolTable.Coherent.lookup_eq_some_iff`: what a name means;
* `SymbolTable.lookupAll_addAll`: the symbols of a name in their order;
* `SymbolTable.indexes_addAll`: all of this after a run of additions;
* `SymbolTable.lookup_of_add_global_iff`: when a name means the global symbol that it was given.
-/

namespace DebugLayout

namespace SymbolTable

-- ---------------------------------------------------------------------------
-- What the indexes list
-- ---------------------------------------------------------------------------

/-- The names, addresses and sizes of the symbols that are listed by their names. -/
def listedByName (t : SymbolTable) : List (String × Int × Int) :=
  t.byName.entries.flatMap fun e => e.2.map fun s => (e.1, s.address, s.size)

/-- The names, addresses and sizes of the symbols that are listed by their addresses. -/
def listedByAddress (t : SymbolTable) : List (String × Int × Int) :=
  t.byAddress.entries.flatMap fun e => e.2.map fun symbol => (symbol.1, e.1, symbol.2)

/-- No name and no address of a table is listed twice, and no symbol at an address. -/
structure Tidy (t : SymbolTable) : Prop where
  names : t.byName.Distinct
  here : ∀ start, (t.symbolsAt start).Nodup

theorem tidy_empty : Tidy .empty where
  names := OrderedMap.distinct_empty
  here _ := List.nodup_nil

/-- An addition lists nothing twice. -/
theorem Tidy.add {t t' : SymbolTable} {name : String} {new : Symbol} (h : t.Tidy)
    (hcoherent : t.Coherent) (hadd : t.add name new = .ok t') : t'.Tidy := by
  rcases add_cases hadd with ⟨-, rfl⟩ | ⟨hwelcome, hname, haddress⟩
  · exact h
  refine ⟨?_, fun start => ?_⟩
  · rw [hname]
    exact h.names.insert _ _
  · rw [symbolsAt_of_insert haddress]
    split
    · -- a symbol of this name and size at this address would have made the new one a known one
      have hfresh : (name, new.size) ∉ t.symbolsAt new.address := by
        rw [hcoherent.indexed, lookupAll, List.mem_map]
        rintro ⟨old, hold, hplace⟩
        exact (admission_eq_welcome_iff.1 hwelcome old hold).1 (Prod.mk.inj hplace)
      rw [List.nodup_append]
      refine ⟨h.here new.address, List.pairwise_singleton _ _, ?_⟩
      intro symbol hsymbol last hlast
      rw [List.mem_singleton] at hlast
      rintro rfl
      exact hfresh (hlast ▸ hsymbol)
    · exact h.here start

/-- Every table that is made by additions is tidy. -/
theorem Reachable.tidy {t : SymbolTable} (h : t.Reachable) : t.Tidy := by
  induction h with
  | empty => exact tidy_empty
  | add hreachable hadd ih => exact ih.add hreachable.coherent hadd

/-- The index of names lists exactly the symbols of the names. -/
theorem Tidy.mem_listedByName {t : SymbolTable} (h : t.Tidy) {name : String} {start size : Int} :
    (name, start, size) ∈ t.listedByName ↔ (start, size) ∈ t.lookupAll name := by
  simp only [listedByName, lookupAll, symbolsOf, List.mem_flatMap, List.mem_map, Prod.exists,
    h.names.mem_entries_iff, Prod.mk.injEq]
  constructor
  · rintro ⟨other, symbols, hget, s, hs, rfl, hplace⟩
    exact ⟨s, by simpa [hget] using hs, hplace⟩
  · rintro ⟨s, hs, hplace⟩
    cases hget : t.byName.get? name with
    | none => simp [hget] at hs
    | some symbols => exact ⟨name, symbols, hget, s, by simpa [hget] using hs, rfl, hplace⟩

/-- The index of addresses lists exactly what begins at the addresses. -/
theorem Coherent.mem_listedByAddress {t : SymbolTable} (h : t.Coherent) {name : String}
    {start size : Int} :
    (name, start, size) ∈ t.listedByAddress ↔ (name, size) ∈ t.symbolsAt start := by
  simp only [listedByAddress, symbolsAt, List.mem_flatMap, List.mem_map, Prod.exists,
    h.sorted.mem_entries_iff, Prod.mk.injEq]
  constructor
  · rintro ⟨a, here, hget, other, n, hmem, rfl, rfl, rfl⟩
    simpa [hget] using hmem
  · intro hmem
    cases hget : t.byAddress.get? start with
    | none => simp [hget] at hmem
    | some here => exact ⟨start, here, hget, name, size, by simpa [hget] using hmem, rfl, rfl, rfl⟩

theorem Tidy.nodup_listedByName {t : SymbolTable} (h : t.Tidy) (hcoherent : t.Coherent) :
    t.listedByName.Nodup := by
  refine List.nodup_flatMap.2 ⟨?_, ?_⟩
  · rintro ⟨name, symbols⟩ hmem
    have hget := h.names.mem_entries_iff.1 hmem
    have hdistinct := hcoherent.distinct name
    rw [lookupAll, symbolsOf, hget, Option.getD_some] at hdistinct
    -- within a name the places differ, and between two names the names do
    have hmap : symbols.map (fun s => (name, s.address, s.size)) =
        (symbols.map fun s => (s.address, s.size)).map (Prod.mk name) := by
      rw [List.map_map]
      rfl
    rw [hmap]
    exact hdistinct.map fun place place' heq => (Prod.mk.inj heq).2
  · refine (List.pairwise_map.1 h.names).imp fun {e e'} hne => ?_
    rintro x hx hx'
    obtain ⟨s, -, rfl⟩ := List.mem_map.1 hx
    obtain ⟨s', -, hx'⟩ := List.mem_map.1 hx'
    exact hne (Prod.mk.inj hx').1.symm

theorem Tidy.nodup_listedByAddress {t : SymbolTable} (h : t.Tidy) (hcoherent : t.Coherent) :
    t.listedByAddress.Nodup := by
  refine List.nodup_flatMap.2 ⟨?_, ?_⟩
  · rintro ⟨start, here⟩ hmem
    have hget := hcoherent.sorted.mem_entries_iff.1 hmem
    have hhere := h.here start
    rw [symbolsAt, hget, Option.getD_some] at hhere
    refine hhere.map fun symbol symbol' heq => ?_
    obtain ⟨hname, hrest⟩ := Prod.mk.inj heq
    exact Prod.ext hname (Prod.mk.inj hrest).2
  · refine hcoherent.sorted.imp fun {e e'} hlt => ?_
    rintro x hx hx'
    obtain ⟨symbol, -, rfl⟩ := List.mem_map.1 hx
    obtain ⟨symbol', -, hx'⟩ := List.mem_map.1 hx'
    have hstart : e'.1 = e.1 := (Prod.mk.inj (Prod.mk.inj hx').2).1
    exact Int.lt_irrefl _ (hstart ▸ hlt)

/-- The two indexes list the same symbols, each as often as the other one. -/
theorem Reachable.listedByName_perm {t : SymbolTable} (h : t.Reachable) :
    t.listedByName.Perm t.listedByAddress := by
  have hcoherent := h.coherent
  rw [List.perm_ext_iff_of_nodup (h.tidy.nodup_listedByName hcoherent)
    (h.tidy.nodup_listedByAddress hcoherent)]
  rintro ⟨name, start, size⟩
  rw [h.tidy.mem_listedByName, hcoherent.mem_listedByAddress, hcoherent.indexed]

-- ---------------------------------------------------------------------------
-- The symbols of a name in their order
-- ---------------------------------------------------------------------------

/-- A table with one more symbol, given with its name. -/
def addNamed (t : SymbolTable) (named : String × Symbol) : Except SymbolFault SymbolTable :=
  t.add named.1 named.2

theorem addAll_eq_addEach (t : SymbolTable) (additions : List (String × Symbol)) :
    t.addAll additions = addEach addNamed t additions := by
  have hstep : tryAdd = addOne addNamed := by
    funext t named
    unfold tryAdd addOne addNamed
    cases t.add named.1 named.2 <;> rfl
  rw [addAll, addEach, hstep]

/-- The stretches of memory that some additions give to a name. -/
def placesOf (name : String) (additions : List (String × Symbol)) : List (Int × Int) :=
  (additions.filter fun named => named.1 = name).map fun named => (named.2.address, named.2.size)

/-- The last addition adds to the places of its own name only. -/
theorem placesOf_concat (name : String) (additions : List (String × Symbol))
    (named : String × Symbol) :
    placesOf name (additions ++ [named]) =
      if named.1 = name then placesOf name additions ++ [(named.2.address, named.2.size)]
      else placesOf name additions := by
  unfold placesOf
  split
  · rename_i hname
    simp [hname]
  · rename_i hname
    simp [hname]

section

variable {α : Type} [BEq α] [LawfulBEq α] {l : List α} {a : α}

theorem eraseDups_concat_of_mem (h : a ∈ l) : (l ++ [a]).eraseDups = l.eraseDups := by
  rw [List.eraseDups_append]
  simp [List.removeAll, h]

theorem eraseDups_concat_of_not_mem (h : a ∉ l) :
    (l ++ [a]).eraseDups = l.eraseDups ++ [a] := by
  rw [List.eraseDups_append]
  simp [List.removeAll, h, List.eraseDups_cons]

end

/-- A name lists the stretches of memory that it was given, each when it first came. -/
theorem lookupAll_addAll (additions : List (String × Symbol)) (name : String) :
    (empty.addAll additions).lookupAll name =
      (placesOf name (accepted addNamed empty additions)).eraseDups := by
  rw [addAll_eq_addEach]
  refine addEach_induction addNamed
    (fun t done => ∀ name, t.lookupAll name = (placesOf name done).eraseDups)
    (fun _ => rfl) ?_ additions name
  · intro t done named t' h hadd other
    have hmem : (named.2.address, named.2.size) ∈ placesOf named.1 done ↔
        ∃ old ∈ t.symbolsOf named.1, SamePlace old named.2 := by
      rw [← List.mem_eraseDups, ← h, lookupAll, List.mem_map]
      simp only [Prod.mk.injEq, SamePlace]
    -- only the places under the name of the new symbol can change
    rw [placesOf_concat]
    by_cases hname : named.1 = other
    · subst hname
      rw [if_pos rfl]
      rcases add_cases hadd with ⟨hknown, rfl⟩ | ⟨hwelcome, hbyName, -⟩
      · rw [eraseDups_concat_of_mem (hmem.2 hknown), h]
      · have hfresh : ¬∃ old ∈ t.symbolsOf named.1, SamePlace old named.2 := by
          rintro ⟨old, hold, hsame⟩
          exact (admission_eq_welcome_iff.1 hwelcome old hold).1 hsame
        rw [eraseDups_concat_of_not_mem (mt hmem.1 hfresh), ← h, lookupAll,
          symbolsOf_of_insert hbyName, if_pos rfl, List.map_append]
        rfl
    · rw [if_neg hname, ← h]
      rcases add_cases hadd with ⟨-, rfl⟩ | ⟨-, hbyName, -⟩
      · rfl
      · rw [lookupAll, symbolsOf_of_insert hbyName, if_neg hname]
        rfl

-- ---------------------------------------------------------------------------
-- What a name means
-- ---------------------------------------------------------------------------

/-- A name means its global symbol, or its only one if that is local. -/
theorem Coherent.lookup_eq_some_iff {t : SymbolTable} (h : t.Coherent) {name : String}
    {place : Int × Int} :
    t.lookup name = some place ↔
      (∃ s ∈ t.symbolsOf name, s.isLocal = false ∧ (s.address, s.size) = place) ∨
        (∀ s ∈ t.symbolsOf name, s.isLocal = true) ∧ t.lookupAll name = [place] := by
  by_cases hglobal : ∃ s ∈ t.symbolsOf name, s.isLocal = false
  · obtain ⟨s, hs, hglobal⟩ := hglobal
    rw [h.lookup_of_global hs hglobal, Option.some.injEq]
    constructor
    · intro hplace
      exact .inl ⟨s, hs, hglobal, hplace⟩
    · rintro (⟨s', hs', hglobal', rfl⟩ | ⟨hlocal, -⟩)
      · rw [h.eq_of_global hs hglobal hs' hglobal']
      · exact absurd (hlocal s hs) (by simp [hglobal])
  · have hlocal : ∀ s ∈ t.symbolsOf name, s.isLocal = true := by
      intro s hs
      by_contra hnot
      exact hglobal ⟨s, hs, by simpa using hnot⟩
    -- without a global symbol a name means its only one
    have honly : t.lookup name = some place ↔ t.lookupAll name = [place] := by
      by_cases hone : (t.symbolsOf name).length = 1
      · obtain ⟨s, hone⟩ := List.length_eq_one_iff.1 hone
        simp [lookup_of_only hone, lookupAll, hone]
      · rw [lookup_of_none hlocal hone]
        refine iff_of_false (by simp) fun hplace => hone ?_
        rw [← List.length_map, ← lookupAll, hplace]
        rfl
    rw [honly]
    constructor
    · exact fun hplace => .inr ⟨hlocal, hplace⟩
    · rintro (⟨s, hs, hnot, -⟩ | ⟨-, hplace⟩)
      · exact absurd ⟨s, hs, hnot⟩ hglobal
      · exact hplace

/-- A name has one global symbol at most. -/
theorem Coherent.length_globalsOf {t : SymbolTable} (h : t.Coherent) (name : String) :
    (t.globalsOf name).length ≤ 1 := by
  cases hg : t.globalsOf name with
  | nil => simp
  | cons s rest =>
    have hs : s ∈ t.globalsOf name := hg ▸ List.mem_cons_self
    obtain ⟨hmem, hglobal⟩ := List.mem_filter.1 hs
    have hone := h.globalsOf_eq hmem (by simpa using hglobal)
    rw [← hg, hone]
    simp

/-- After any additions, refused ones aside, the two indexes hold the same names, addresses and
sizes, each as often as the other one. No name has a stretch of memory twice or two global symbols;
it means the global one, or else the only one; and it lists all of them as they were accepted. -/
theorem indexes_addAll (additions : List (String × Symbol)) :
    (empty.addAll additions).listedByName.Perm (empty.addAll additions).listedByAddress ∧
    ∀ name,
      ((empty.addAll additions).lookupAll name).Nodup ∧
      ((empty.addAll additions).globalsOf name).length ≤ 1 ∧
      (∀ place, (empty.addAll additions).lookup name = some place ↔
        (∃ s ∈ (empty.addAll additions).symbolsOf name,
          s.isLocal = false ∧ (s.address, s.size) = place) ∨
        (∀ s ∈ (empty.addAll additions).symbolsOf name, s.isLocal = true) ∧
          (empty.addAll additions).lookupAll name = [place]) ∧
      (empty.addAll additions).lookupAll name =
        (placesOf name (accepted addNamed empty additions)).eraseDups := by
  have h := reachable_addAll additions
  exact ⟨h.listedByName_perm, fun name => ⟨h.coherent.distinct name,
    h.coherent.length_globalsOf name, fun place => h.coherent.lookup_eq_some_iff,
    lookupAll_addAll additions name⟩⟩

-- ---------------------------------------------------------------------------
-- Global symbols in the place of local ones
-- ---------------------------------------------------------------------------

/-- A name absorbs a global symbol if it has a local one in its place, and others besides. -/
def Absorbs (t : SymbolTable) (name : String) (address size : Int) : Prop :=
  ⟨address, size, true⟩ ∈ t.symbolsOf name ∧ t.symbolsOf name ≠ [⟨address, size, true⟩]

instance decidableAbsorbs (t : SymbolTable) (name : String) (address size : Int) :
    Decidable (t.Absorbs name address size) := by
  unfold Absorbs
  infer_instance

/-- Symbols of a name that are the same stretch of memory are the same. -/
theorem Coherent.eq_of_samePlace {t : SymbolTable} (h : t.Coherent) {name : String}
    {s s' : Symbol} (hs : s ∈ t.symbolsOf name) (hs' : s' ∈ t.symbolsOf name)
    (hsame : SamePlace s s') : s = s' :=
  List.inj_on_of_nodup_map (h.distinct name) hs hs' (Prod.ext hsame.1 hsame.2)

/-- A name with a local symbol means it exactly if it has no other one. -/
theorem Coherent.lookup_eq_local_iff {t : SymbolTable} (h : t.Coherent) {name : String}
    {address size : Int} (hs : ⟨address, size, true⟩ ∈ t.symbolsOf name) :
    t.lookup name = some (address, size) ↔ t.symbolsOf name = [⟨address, size, true⟩] := by
  rw [h.lookup_eq_some_iff]
  constructor
  · rintro (⟨s, hmem, hglobal, hplace⟩ | ⟨-, hplace⟩)
    · -- no global symbol is in the place of a local one
      obtain rfl := h.eq_of_samePlace hmem hs (Prod.mk.inj hplace)
      exact absurd hglobal (by simp)
    · obtain ⟨s, hone⟩ : ∃ s, t.symbolsOf name = [s] := by
        have hlength := congrArg List.length hplace
        rw [lookupAll, List.length_map] at hlength
        exact List.length_eq_one_iff.1 hlength
      rw [hone, List.mem_singleton] at hs
      rw [hone, hs]
  · intro hone
    refine .inr ⟨?_, ?_⟩
    · simp [hone]
    · simp [lookupAll, hone]

/-- A name means the global symbol that was just accepted for it, unless it absorbed it. The table
is then as it was. -/
theorem Coherent.lookup_of_add_global {t t' : SymbolTable} (h : t.Coherent) {name : String}
    {address size : Int} (hadd : t.add name ⟨address, size, false⟩ = .ok t') :
    (t'.lookup name = some (address, size) ↔ ¬t.Absorbs name address size) ∧
      (t.Absorbs name address size → t' = t) := by
  rcases add_cases hadd with ⟨⟨⟨a, n, isLocal⟩, hold, rfl, rfl⟩, rfl⟩ | ⟨hwelcome, hbyName, -⟩
  · cases isLocal with
    | false =>
      have hnot : ¬t'.Absorbs name a n := by
        rintro ⟨hlocal, -⟩
        exact absurd (h.eq_of_samePlace hlocal hold ⟨rfl, rfl⟩) (by simp)
      exact ⟨iff_of_true (h.lookup_of_global hold rfl) hnot, fun _ => rfl⟩
    | true =>
      -- the known symbol is local, and the global one is dropped in its favour
      refine ⟨?_, fun _ => rfl⟩
      rw [h.lookup_eq_local_iff hold, Absorbs, not_and, not_not]
      exact ⟨fun hone _ => hone, fun hone => hone hold⟩
  · have hnot : ¬t.Absorbs name address size := by
      rintro ⟨hlocal, -⟩
      exact (admission_eq_welcome_iff.1 hwelcome _ hlocal).1 ⟨rfl, rfl⟩
    have hnew : ⟨address, size, false⟩ ∈ t'.symbolsOf name := by
      rw [symbolsOf_of_insert hbyName, if_pos rfl]
      exact List.mem_append_right _ (List.mem_singleton_self _)
    exact ⟨iff_of_true ((h.add hadd).lookup_of_global hnew rfl) hnot, fun habsorbs =>
      absurd habsorbs hnot⟩

/-- After any additions, a name means the global symbol that it is then given without a fault,
exactly unless it absorbs it: unless it has a local symbol in the same place and others besides. -/
theorem lookup_of_add_global_iff (additions : List (String × Symbol)) {t' : SymbolTable}
    {name : String} {address size : Int}
    (hadd : (empty.addAll additions).add name ⟨address, size, false⟩ = .ok t') :
    (t'.lookup name = some (address, size) ↔
        ¬(empty.addAll additions).Absorbs name address size) ∧
      ((empty.addAll additions).Absorbs name address size → t' = empty.addAll additions) :=
  (reachable_addAll additions).coherent.lookup_of_add_global hadd

/-- Two static variables of one name. -/
def statics : List (String × Symbol) :=
  [("state", ⟨0x1000, 4, true⟩), ("state", ⟨0x2000, 8, true⟩)]

/-- A global variable in a place of its own wins over the static ones. -/
theorem lookup_of_add_global_iff_statics :
    ∃ t', (empty.addAll statics).add "state" ⟨0x3000, 4, false⟩ = .ok t' ∧
      ¬(empty.addAll statics).Absorbs "state" 0x3000 4 ∧
      t'.lookup "state" = some (0x3000, 4) := by
  have hnot : ¬(empty.addAll statics).Absorbs "state" 0x3000 4 := by decide
  refine ⟨_, rfl, hnot, (lookup_of_add_global_iff statics rfl).1.2 hnot⟩

/-- A global variable in the place of a static one is accepted, and the name still means nothing. -/
theorem global_absorbed_by_static :
    ∃ t', (empty.addAll statics).add "state" ⟨0x1000, 4, false⟩ = .ok t' ∧
      t'.lookup "state" = none :=
  ⟨_, rfl, by decide⟩

end SymbolTable

end DebugLayout
