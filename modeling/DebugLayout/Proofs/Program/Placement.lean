import DebugLayout.Proofs.Layout.Expansion
import DebugLayout.Proofs.Program.Index

/-!
# DebugLayout — where a variable is placed

Several **places** may be known of one variable: the location that the debug information gives, and
the symbols that the symbol table lists under its link name. A program places the variable at one
of them. It prefers the symbol that the link name means, without a look at the location, and so a
static variable goes where a global one of the same name is that has no debug information.

This module says exactly when that happens, both for a variable that is asked for by name and for
one that is found at an address.

* `Program.Preferred`, `locate_eq_iff_preferred`: the place that is preferred;
* `Program.addressOf_eq_ok`, `layoutOf_eq_ok`, `resolve_eq_ok`: what a symbol is resolved to;
* `Program.addressOf_eq_location_iff`: when a variable is placed at its own location;
* `Program.Place`: the places known of a variable;
* `Program.covers_iff_not_displaced`: when a symbol that is found at an address covers it.
-/

namespace DebugLayout

namespace Program

variable {p : Program}

-- ---------------------------------------------------------------------------
-- The chosen place
-- ---------------------------------------------------------------------------

/-- A qualified variable is where the debug information says. -/
theorem locate_of_isQualified {v : Variable} (h : v.isQualified = true) :
    p.locate v = (v.location?, 0) := by
  rw [locate, h]
  rfl

/-- Any other variable is where its link name is, if that means anything. -/
theorem locate_of_linkName {v : Variable} {linkName : String} (h : v.isQualified = false)
    (hlink : v.linkName = some linkName) :
    p.locate v = match p.symbols.lookup linkName with
      | some (address, size) => (some address, size)
      | none => (v.location?, 0) := by
  rw [locate, h, hlink]
  rfl

/-- A variable without link name is where the debug information says. -/
theorem locate_of_no_linkName {v : Variable} (h : v.linkName = none) :
    p.locate v = (v.location?, 0) := by
  rw [locate, h]
  cases v.isQualified <;> rfl

/-- The place that is preferred for a variable that goes by its scoped name: the global symbol of
its link name, or else the only symbol of that name, or else, where there is none or the local ones
cannot be told apart, the location that the debug information gives. -/
inductive Preferred (p : Program) (v : Variable) : Int → Int → Prop
  | global {linkName : String} {s : Symbol} (hlink : v.linkName = some linkName)
      (hs : s ∈ p.symbols.symbolsOf linkName) (hglobal : s.isLocal = false) :
      Preferred p v s.address s.size
  | only {linkName : String} {s : Symbol} (hlink : v.linkName = some linkName)
      (honly : p.symbols.symbolsOf linkName = [s]) : Preferred p v s.address s.size
  | location {start : Int} (hsymbols : ∀ linkName, v.linkName = some linkName →
        (∀ s ∈ p.symbols.symbolsOf linkName, s.isLocal = true) ∧
          (p.symbols.symbolsOf linkName).length ≠ 1)
      (hlocation : v.location? = some start) : Preferred p v start 0

/-- A variable that goes by its scoped name is placed where it is preferred. -/
theorem locate_eq_iff_preferred (hp : p.Loaded) {v : Variable} (hq : v.isQualified = false)
    {start size : Int} : p.locate v = (some start, size) ↔ p.Preferred v start size := by
  constructor
  · intro h
    cases hlink : v.linkName with
    | none =>
      rw [locate_of_no_linkName hlink, Prod.mk.injEq] at h
      obtain ⟨hlocation, rfl⟩ := h
      refine .location (fun linkName hother => ?_) hlocation
      rw [hlink] at hother
      exact absurd hother (by simp)
    | some linkName =>
      rw [locate_of_linkName hq hlink] at h
      -- the order of the table: a global symbol, the only local one, the location of the entry
      by_cases hglobal : ∃ s ∈ p.symbols.symbolsOf linkName, s.isLocal = false
      · obtain ⟨s, hs, hglobal⟩ := hglobal
        simp only [hp.coherent.lookup_of_global hs hglobal, Prod.mk.injEq, Option.some.injEq] at h
        obtain ⟨rfl, rfl⟩ := h
        exact .global hlink hs hglobal
      · have hlocal : ∀ s ∈ p.symbols.symbolsOf linkName, s.isLocal = true := by
          simpa using hglobal
        by_cases honly : (p.symbols.symbolsOf linkName).length = 1
        · obtain ⟨s, honly⟩ := List.length_eq_one_iff.1 honly
          simp only [SymbolTable.lookup_of_only honly, Prod.mk.injEq, Option.some.injEq] at h
          obtain ⟨rfl, rfl⟩ := h
          exact .only hlink honly
        · simp only [SymbolTable.lookup_of_none hlocal honly, Prod.mk.injEq] at h
          obtain ⟨hlocation, rfl⟩ := h
          refine .location (fun other hother => ?_) hlocation
          obtain rfl := Option.some.inj (hlink.symm.trans hother)
          exact ⟨hlocal, honly⟩
  · intro h
    cases h with
    | global hlink hs hglobal =>
      rw [locate_of_linkName hq hlink, hp.coherent.lookup_of_global hs hglobal]
    | only hlink honly => rw [locate_of_linkName hq hlink, SymbolTable.lookup_of_only honly]
    | location hsymbols hlocation =>
      cases hlink : v.linkName with
      | none => rw [locate_of_no_linkName hlink, hlocation]
      | some linkName =>
        obtain ⟨hlocal, honly⟩ := hsymbols linkName hlink
        rw [locate_of_linkName hq hlink, SymbolTable.lookup_of_none hlocal honly, hlocation]

/-- A symbol has an address when its variable is placed in the regions, other than at zero. -/
theorem addressOf_eq_ok {name : String} {a : Int} :
    p.addressOf name = .ok a ↔
      ∃ v size, p.variableIndex.get? name = some v ∧ p.locate v = (some a, size) ∧ a ≠ 0 ∧
        p.regions.all (·.contain a size) = true := by
  unfold addressOf
  constructor
  · intro h
    split at h
    · exact absurd h (by simp)
    · rename_i v hv
      split at h
      · exact absurd h (by simp)
      · exact absurd h (by simp)
      · rename_i address size hzero hlocate
        split at h
        · rename_i hregions
          rw [Except.ok.injEq] at h
          subst h
          refine ⟨v, size, hv, hlocate, ?_, hregions⟩
          -- the address zero stands for a variable without storage
          rintro rfl
          exact hzero rfl
        · exact absurd h (by simp)
  · rintro ⟨v, size, hv, hlocate, hzero, hregions⟩
    rw [hv]
    simp only [hlocate]
    rw [if_pos hregions]

-- ---------------------------------------------------------------------------
-- A shared name
-- ---------------------------------------------------------------------------

/-- A unit with a static variable `x` at `0x1000`. -/
def staticUnit : Entry :=
  .node 1 Tag.compileUnit (.ofList [(Attr.name, .text "a.c")])
    [.node 2 Tag.baseType
        (.ofList [(Attr.name, .text "int"), (Attr.byteSize, .int 4), (Attr.encoding, .int 5)]) [],
      .node 3 Tag.variable_
        (.ofList [(Attr.name, .text "x"), (Attr.type, .int 2), (Attr.location, .int 0x1000)]) []]

/-- The symbol of the static variable. -/
def staticSymbols : SymbolTable :=
  ⟨⟨[("x", [⟨0x1000, 4, true⟩])]⟩, ⟨[(0x1000, [("x", 4)])]⟩⟩

/-- The symbol of the static variable, and that of a global `x` at `0x2000`. -/
def sharedSymbols : SymbolTable :=
  ⟨⟨[("x", [⟨0x1000, 4, true⟩, ⟨0x2000, 4, false⟩])]⟩,
    ⟨[(0x1000, [("x", 4)]), (0x2000, [("x", 4)])]⟩⟩

theorem staticSymbols_reachable : staticSymbols.Reachable := by
  have hstatic : SymbolTable.empty.add "x" ⟨0x1000, 4, true⟩ = .ok staticSymbols := rfl
  exact .add .empty hstatic

theorem sharedSymbols_reachable : sharedSymbols.Reachable := by
  have hshared : staticSymbols.add "x" ⟨0x2000, 4, false⟩ = .ok sharedSymbols := rfl
  exact .add staticSymbols_reachable hshared

/-- The program of the static variable alone. -/
def unshared : Program :=
  .load (Store.empty.addRoot staticUnit).1 staticSymbols .standard none none .default defaultDepth

/-- The program of the static variable, linked with a unit that has no debug information and defines
the global one. -/
def shadowed : Program :=
  .load (Store.empty.addRoot staticUnit).1 sharedSymbols .standard none none .default defaultDepth

theorem unshared_loaded : unshared.Loaded := .load staticSymbols_reachable ..

theorem shadowed_loaded : shadowed.Loaded := .load sharedSymbols_reachable ..

-- ---------------------------------------------------------------------------
-- By name
-- ---------------------------------------------------------------------------

/-- A variable at a location that the symbol table lists under its link name is placed there unless
a global symbol of the name lies elsewhere. A qualified variable is always placed there. -/
theorem addressOf_eq_location_iff (hp : p.Loaded) {name linkName : String} {v : Variable}
    {location size a : Int} (hv : p.variableIndex.get? name = some v)
    (hlocation : v.location? = some location) (hlink : v.linkName = some linkName)
    (hlisted : (location, size) ∈ p.symbols.lookupAll linkName)
    (h : p.addressOf name = .ok a) :
    a = location ↔ v.isQualified = true ∨
      ∀ s ∈ p.symbols.symbolsOf linkName, s.isLocal = false → s.address = location := by
  obtain ⟨v', size', hv', hlocate, -, -⟩ := addressOf_eq_ok.1 h
  rw [hv, Option.some.injEq] at hv'
  subst hv'
  cases hq : v.isQualified with
  | true =>
    rw [locate_of_isQualified hq, hlocation] at hlocate
    simp [Option.some.inj (congrArg Prod.fst hlocate)]
  | false =>
    have hsame : ∀ {other}, v.linkName = some other → other = linkName := fun hother =>
      Option.some.inj (hother.symm.trans hlink)
    cases (locate_eq_iff_preferred hp hq).1 hlocate with
    | global hother hs hglobal =>
      obtain rfl := hsame hother
      refine ⟨fun heq => .inr fun s' hs' hglobal' => ?_, fun h => ?_⟩
      · -- a name has no second global symbol
        rw [hp.coherent.eq_of_global hs hglobal hs' hglobal', heq]
      · exact (h.resolve_left (by simp)) _ hs hglobal
    | only hother honly =>
      -- the only symbol of the name is the one that is listed at the location
      obtain rfl := hsame hother
      rw [SymbolTable.lookupAll, honly, List.map_singleton, List.mem_singleton,
        Prod.mk.injEq] at hlisted
      refine iff_of_true hlisted.1.symm (.inr fun s' hs' _ => ?_)
      rw [honly, List.mem_singleton] at hs'
      rw [hs', hlisted.1]
    | location hsymbols hplaced =>
      refine iff_of_true (Option.some.inj (hplaced.symm.trans hlocation))
        (.inr fun s hs hglobal => ?_)
      rw [(hsymbols linkName hlink).1 s hs] at hglobal
      exact absurd hglobal (by simp)

/-- The static variable is placed at its location as long as there is no global one. -/
theorem addressOf_eq_location_iff_static :
    (unshared.addressOf "x" = .ok 0x1000 ∧
      ∃ v, unshared.variableIndex.get? "x" = some v ∧ v.location? = some 0x1000 ∧
        (v.isQualified = true ∨
          ∀ s ∈ unshared.symbols.symbolsOf "x", s.isLocal = false → s.address = 0x1000)) ∧
      shadowed.addressOf "x" = .ok 0x2000 ∧
      ∃ v, shadowed.variableIndex.get? "x" = some v ∧ v.location? = some 0x1000 ∧
        ¬(v.isQualified = true ∨
          ∀ s ∈ shadowed.symbols.symbolsOf "x", s.isLocal = false → s.address = 0x1000) := by
  have hunshared : unshared.addressOf "x" = .ok 0x1000 := rfl
  have hshadowed : shadowed.addressOf "x" = .ok 0x2000 := rfl
  have hlisted : (0x1000, 4) ∈ unshared.symbols.lookupAll "x" := by decide
  have hlisted' : (0x1000, 4) ∈ shadowed.symbols.lookupAll "x" := by decide
  refine ⟨⟨hunshared, _, rfl, rfl, ?_⟩, hshadowed, _, rfl, rfl, fun hplaced => ?_⟩
  · exact (addressOf_eq_location_iff unshared_loaded rfl rfl rfl hlisted hunshared).1 rfl
  · have heq : (0x2000 : Int) = 0x1000 :=
      (addressOf_eq_location_iff shadowed_loaded rfl rfl rfl hlisted' hshadowed).2 hplaced
    exact absurd heq (by decide)

/-- The static variable is placed at the global one, although the symbol table lists its location
under its link name. -/
theorem static_placed_at_global :
    shadowed.Loaded ∧ ∃ v, shadowed.variableIndex.get? "x" = some v ∧
      v.location? = some 0x1000 ∧ v.linkName = some "x" ∧
      (0x1000, 4) ∈ shadowed.symbols.lookupAll "x" ∧ shadowed.addressOf "x" = .ok 0x2000 :=
  ⟨shadowed_loaded, _, rfl, rfl, rfl, by decide, rfl⟩

-- ---------------------------------------------------------------------------
-- Resolved symbols
-- ---------------------------------------------------------------------------

/-- A symbol has a layout when its variable has a type that can be expanded at its address. -/
theorem layoutOf_eq_ok {name : String} {n : LayoutNode} :
    p.layoutOf name = .ok n ↔
      ∃ v type a, p.variableIndex.get? name = some v ∧
        p.store.variableType? v.entry = some type ∧ p.addressOf name = .ok a ∧
        p.graph.layout p.depth type a name = .ok n := by
  unfold layoutOf
  constructor
  · intro h
    split at h
    · exact absurd h (by simp)
    · rename_i type htype
      obtain ⟨v, hv, htype⟩ := Option.bind_eq_some_iff.1 htype
      obtain ⟨a, ha, h⟩ := bind_eq_ok.1 h
      exact ⟨v, type, a, hv, htype, ha, mapError_eq_ok.1 h⟩
  · rintro ⟨v, type, a, hv, htype, ha, h⟩
    rw [Option.bind_eq_some_iff.2 ⟨v, hv, htype⟩]
    exact bind_eq_ok.2 ⟨a, ha, mapError_eq_ok.2 h⟩

/-- A symbol is resolved when it has a layout and can be classified. -/
theorem resolve_eq_ok {name : String} {r : Resolved} :
    p.resolve name = .ok r ↔
      r.name = name ∧ p.layoutOf name = .ok r.layout ∧
        p.classifier.classify name r.layout (p.siblings name) = .ok r.calibration := by
  unfold resolve
  simp only [bind_eq_ok, mapError_eq_ok, pure_eq_ok]
  constructor
  · rintro ⟨layout, hlayout, calibration, hcalibration, rfl⟩
    exact ⟨rfl, hlayout, hcalibration⟩
  · rintro ⟨rfl, hlayout, hcalibration⟩
    exact ⟨r.layout, hlayout, r.calibration, hcalibration, rfl⟩

-- ---------------------------------------------------------------------------
-- By address
-- ---------------------------------------------------------------------------

/-- The size that the symbol table gives for the link name of a symbol, or zero. -/
def tableSize (p : Program) (name : String) : Int :=
  match ((p.variableIndex.get? name).bind Variable.linkName).bind p.symbols.lookup with
  | some (_, size) => size
  | none => 0

/-- Whether an address lies in the storage of a resolved symbol, which takes at least one byte, and
as many as its layout or the symbol table says. -/
def Covers (p : Program) (r : Resolved) (a : Int) : Prop :=
  r.layout.address ≤ a ∧
    a < r.layout.address + max 1 (max r.layout.byteSize (p.tableSize r.name))

/-- The places known of a variable that takes so many bytes: the symbols of its link name, each
with its own size, and the location that the debug information gives. -/
inductive Place (p : Program) (v : Variable) (byteSize : Int) : Int → Int → Prop
  | symbol {linkName : String} {start size : Int} (hlink : v.linkName = some linkName)
      (hlisted : (start, size) ∈ p.symbols.lookupAll linkName) : Place p v byteSize start size
  | location {start : Int} (hlocation : v.location? = some start) :
      Place p v byteSize start byteSize

/-- An address is displaced when it is at one place known of the variable, while another one, which
does not reach it, is preferred. This can only happen to a variable that goes by its scoped name,
since the symbol table has no say about the others. -/
def Displaced (p : Program) (r : Resolved) (a : Int) : Prop :=
  ∃ v start size other otherSize, p.variableIndex.get? r.name = some v ∧ v.isQualified = false ∧
    p.Place v r.layout.byteSize start size ∧ covers start size a = true ∧
    p.Preferred v other otherSize ∧ covers other (max r.layout.byteSize otherSize) a = false

/-- A symbol covers the addresses from its start to its end, and its start even if it has no
size. -/
theorem covers_iff {start size a : Int} :
    covers start size a = true ↔ start ≤ a ∧ a < start + max size 1 := by
  simp [covers]

/-- A symbol with a layout lies where its variable is placed, which is in the regions. -/
theorem locate_of_layoutOf {name : String} {n : LayoutNode} (h : p.layoutOf name = .ok n) :
    ∃ v size, p.variableIndex.get? name = some v ∧ p.locate v = (some n.address, size) ∧
      p.regions.all (·.contain n.address size) = true := by
  obtain ⟨v, type, a, hv, -, ha, hlayout⟩ := layoutOf_eq_ok.1 h
  obtain ⟨v', size, hv', hlocate, -, hregions⟩ := addressOf_eq_ok.1 ha
  rw [hv, Option.some.injEq] at hv'
  subst hv'
  have haddress : n.address = a :=
    (TypeGraph.header_of_expandWith (TypeGraph.layoutWith_eq_ok.1 hlayout)).2.2
  rw [← haddress] at hlocate hregions
  exact ⟨v, size, hv, hlocate, hregions⟩

/-- A resolved symbol lies where its variable is placed. -/
theorem locate_of_resolve {name : String} {r : Resolved} (h : p.resolve name = .ok r) :
    ∃ v size, p.variableIndex.get? r.name = some v ∧
      p.locate v = (some r.layout.address, size) := by
  obtain ⟨rfl, hlayout, -⟩ := resolve_eq_ok.1 h
  obtain ⟨v, size, hv, hlocate, -⟩ := locate_of_layoutOf hlayout
  exact ⟨v, size, hv, hlocate⟩

/-- The size with which a variable is placed is the one that the symbol table gives, as far as it
has a say. -/
theorem tableSize_eq {name : String} {v : Variable} (hv : p.variableIndex.get? name = some v)
    (hq : v.isQualified = false) : p.tableSize name = (p.locate v).2 := by
  rw [tableSize, hv, Option.bind_some]
  cases hlink : v.linkName with
  | none =>
    rw [locate_of_no_linkName hlink]
    rfl
  | some linkName =>
    rw [locate_of_linkName hq hlink, Option.bind_some]
    cases p.symbols.lookup linkName <;> rfl

/-- A resolved symbol takes the size of its type, if the type has one. -/
theorem layout_byteSize_eq {name : String} {r : Resolved} {v : Variable} {type size : Int}
    (h : p.resolve name = .ok r) (hv : p.variableIndex.get? name = some v)
    (htype : p.store.variableType? v.entry = some type)
    (hsize : (p.graph.byteSize type).toOption.bind id = some size) : r.layout.byteSize = size := by
  obtain ⟨rfl, hlayout, -⟩ := resolve_eq_ok.1 h
  obtain ⟨v', type', a, hv', htype', -, hlayout⟩ := layoutOf_eq_ok.1 hlayout
  rw [hv, Option.some.injEq] at hv'
  subst hv'
  rw [htype, Option.some.injEq] at htype'
  subst htype'
  have hsize : p.graph.byteSize type = .ok (some size) := by
    match hb : p.graph.byteSize type with
    | .error fault => simp [hb, Except.toOption] at hsize
    | .ok size' =>
      rw [hb] at hsize
      exact congrArg Except.ok hsize
  exact TypeGraph.byteSize_of_expandWith (TypeGraph.layoutWith_eq_ok.1 hlayout) hsize

/-- The name that is found at an address belongs to a variable with a place there. A name that the
symbol table leads to is a scoped one. -/
theorem place_of_nameAt? (hp : p.Loaded) {a : Int} {name : String} (h : p.nameAt? a = some name)
    {r : Resolved} (hr : p.resolve name = .ok r) :
    ∃ v start size, p.variableIndex.get? name = some v ∧
      p.Place v r.layout.byteSize start size ∧ covers start size a = true ∧
      (v.isQualified = true → v.location? = some start ∧ size = r.layout.byteSize) := by
  unfold nameAt? at h
  rcases Option.or_eq_some_iff.1 h with h | ⟨-, h⟩
  · obtain ⟨linkName, hat, hname⟩ := Option.bind_eq_some_iff.1 h
    obtain ⟨start, size, hlisted, hcovers⟩ := hp.coherent.at?_eq_some hat
    obtain ⟨v, hv, hlink, hq⟩ := hp.of_byLinkName hname
    refine ⟨v, start, size, hv, .symbol hlink hlisted, hcovers, fun hq' => ?_⟩
    -- a link name is indexed for unqualified variables alone
    rw [hq] at hq'
    exact absurd hq' (by simp)
  · unfold nameByLocation? at h
    split at h
    · exact absurd h (by simp)
    · rename_i location found hfloor
      obtain ⟨hmem, hle⟩ := AddressMap.floor?_eq_some hfloor
      obtain ⟨v, hv, hlocation⟩ := hp.of_byLocation hmem
      simp only at hle
      split at h
      · rename_i heq
        rw [Option.some.injEq] at h
        subst h heq
        exact ⟨v, a, _, hv, .location hlocation, covers_iff.2 (by omega),
          fun _ => ⟨hlocation, rfl⟩⟩
      · simp only at h
        split at h
        · rename_i size hsize
          split at h
          · rename_i hlt
            rw [Option.some.injEq] at h
            subst h
            obtain ⟨v', hv', hsize⟩ := Option.bind_eq_some_iff.1 hsize
            rw [hv, Option.some.injEq] at hv'
            subst hv'
            obtain ⟨type, htype, hsize⟩ := Option.bind_eq_some_iff.1 hsize
            have hbytes := layout_byteSize_eq hr hv htype hsize
            exact ⟨v, location, _, hv, .location hlocation, covers_iff.2 (by omega),
              fun _ => ⟨hlocation, rfl⟩⟩
          · exact absurd h (by simp)
        · exact absurd h (by simp)

/-- A symbol that is found at an address covers it, unless the address is displaced. -/
theorem covers_iff_not_displaced (hp : p.Loaded) {a : Int} {r : Resolved}
    (h : p.resolveAt a = .ok r) : p.Covers r a ↔ ¬p.Displaced r a := by
  unfold resolveAt at h
  split at h
  · exact absurd h (by simp)
  · rename_i name hname
    obtain ⟨v, start, size, hv, hplace, hcovers, hqualified⟩ := place_of_nameAt? hp hname h
    obtain ⟨v', otherSize, hv', hlocate⟩ := locate_of_resolve h
    obtain ⟨rfl, -, -⟩ := resolve_eq_ok.1 h
    rw [hv, Option.some.injEq] at hv'
    subst hv'
    constructor
    · -- the place that is preferred is the one that was resolved, and it misses the address
      rintro ⟨hle, hlt⟩ ⟨w, -, -, other, wSize, hw, hq, -, -, hpreferred, hmiss⟩
      rw [hv, Option.some.injEq] at hw
      subst hw
      have hother := (locate_eq_iff_preferred hp hq).2 hpreferred
      rw [tableSize_eq hv hq, hother] at hlt
      rw [hother, Prod.mk.injEq, Option.some.injEq] at hlocate
      rw [hlocate.1, ← Bool.not_eq_true, covers_iff] at hmiss
      simp only at hlt
      omega
    · intro hdisplaced
      cases hq : v.isQualified with
      | true =>
        obtain ⟨hstart, rfl⟩ := hqualified hq
        rw [locate_of_isQualified hq, hstart, Prod.mk.injEq, Option.some.injEq] at hlocate
        rw [hlocate.1, covers_iff] at hcovers
        constructor <;> omega
      | false =>
        by_contra hmiss
        -- what covers the address is a place of the variable, though not the preferred one
        refine hdisplaced ⟨v, start, size, r.layout.address, otherSize, hv, hq, hplace, hcovers,
          (locate_eq_iff_preferred hp hq).1 hlocate, ?_⟩
        rw [Covers, tableSize_eq hv hq, hlocate] at hmiss
        rw [← Bool.not_eq_true, covers_iff]
        simp only at hmiss
        omega

/-- The address of the global variable is covered by what is found there, and that of the static one
is displaced. -/
theorem covers_iff_not_displaced_shadowed :
    (∃ r, shadowed.resolveAt 0x2000 = .ok r ∧ shadowed.Covers r 0x2000 ∧
      ¬shadowed.Displaced r 0x2000) ∧
      ∃ r, shadowed.resolveAt 0x1000 = .ok r ∧ ¬shadowed.Covers r 0x1000 ∧
        shadowed.Displaced r 0x1000 := by
  have hglobal : ∃ r, shadowed.resolveAt 0x2000 = .ok r ∧ shadowed.Covers r 0x2000 :=
    ⟨_, rfl, Int.le_refl _, by decide⟩
  have hstatic : ∃ r, shadowed.resolveAt 0x1000 = .ok r ∧ ¬shadowed.Covers r 0x1000 :=
    ⟨_, rfl, fun hcovers => absurd hcovers.1 (by decide)⟩
  obtain ⟨r, hr, hcovers⟩ := hglobal
  obtain ⟨r', hr', hmiss⟩ := hstatic
  refine ⟨⟨r, hr, hcovers, (covers_iff_not_displaced shadowed_loaded hr).1 hcovers⟩,
    r', hr', hmiss, ?_⟩
  by_contra hnot
  exact hmiss ((covers_iff_not_displaced shadowed_loaded hr').2 hnot)

/-- What is found at the static variable is a symbol at the global one. -/
theorem resolveAt_finds_elsewhere :
    shadowed.Loaded ∧ ∃ r, shadowed.resolveAt 0x1000 = .ok r ∧ ¬shadowed.Covers r 0x1000 := by
  refine ⟨shadowed_loaded, _, rfl, ?_⟩
  rintro ⟨hle, -⟩
  exact absurd hle (by decide)

end Program

end DebugLayout
