import DebugLayout.ObjectFile.Load
import DebugLayout.Proofs.Entry.Store
import DebugLayout.Proofs.Outcome
import Mathlib.Data.List.Forall2

/-!
# DebugLayout — which entries of a file are kept

The entries of a file are decoded one inside the other, and one that cannot be decoded is left out.
What is kept is therefore known of each entry by itself: it and all entries around it can be read.
The store holds exactly these, in the order of the file, each under its offset, inside the entry
that it is in and around those inside it that can be read. An entry that cannot be read takes the
entries inside it with it and no other ones.

The decoding goes down the trees of the file and gives trees, which the store then lists. The
comparison is made between the two listings: dropping what does not survive from the listing of the
file leaves, one by one, the entries that the listing of the decoded trees has.

* `Die.isReadable`: whether an entry can be decoded by itself;
* `PlacedDie`, `ObjectFile.dies`: the entries of a file with the entries around them;
* `PlacedDie.survives`: whether one is kept;
* `Mirrors`: an entry of a store that stands for one of the file;
* `Die.mirrors_listedAll`: the entries that some trees are decoded to;
* `ObjectFile.addUnits_eq`: the entries that a store lists;
* `ObjectFile.load_entries`: the entries of a file that was loaded.
-/

namespace DebugLayout

-- ---------------------------------------------------------------------------
-- The entries of a file
-- ---------------------------------------------------------------------------

namespace Die

/-- Where the entry is in the file. -/
def offset : Die → Int
  | node offset _ _ _ => offset

/-- The tag of the entry, if it has one. -/
def tag? : Die → Option String
  | node _ tag _ _ => tag

/-- The entries inside the entry. -/
def children : Die → List Die
  | node _ _ _ children => children

/-- Whether the entry is one and its attributes can be decoded. -/
def isReadable (ctx : DecodingContext) (d : Die) : Bool :=
  d.tag?.isSome && (d.decodeAttributes ctx).isOk

/-- A DIE is readable if it has a tag and all its attributes can be decoded. -/
theorem isReadable_iff {ctx : DecodingContext} {d : Die} :
    d.isReadable ctx = true ↔
      ∃ tag decoded, d.tag? = some tag ∧ d.decodeAttributes ctx = .ok decoded := by
  rw [isReadable, Bool.and_eq_true, Option.isSome_iff_exists, isOk_iff]
  constructor
  · rintro ⟨⟨tag, htag⟩, decoded, hdecoded⟩
    exact ⟨tag, decoded, htag, hdecoded⟩
  · rintro ⟨tag, decoded, htag, hdecoded⟩
    exact ⟨⟨tag, htag⟩, decoded, hdecoded⟩

end Die

/-- An entry of a file with the entries around it, the innermost first, and what the decoding of its
unit depends on. -/
structure PlacedDie where
  context : DecodingContext
  die : Die
  ancestors : List Die

/-- Whether an entry of a file is kept: it can be read, and so can all entries around it. -/
def PlacedDie.survives (p : PlacedDie) : Bool :=
  (p.die :: p.ancestors).all (·.isReadable p.context)

namespace Die

mutual

/-- An entry and the entries inside it, in the order of the file. -/
def listed (ctx : DecodingContext) (ancestors : List Die) : Die → List PlacedDie
  | node offset tag attributes children =>
    ⟨ctx, node offset tag attributes children, ancestors⟩ ::
      listedAll ctx (node offset tag attributes children :: ancestors) children

/-- Some entries, each with the entries inside it. -/
def listedAll (ctx : DecodingContext) (ancestors : List Die) : List Die → List PlacedDie
  | [] => []
  | d :: ds => listed ctx ancestors d ++ listedAll ctx ancestors ds

end

end Die

namespace ObjectFile

/-- What the decoding of a unit depends on. -/
def context (f : ObjectFile) (u : CompileUnit) : DecodingContext :=
  ⟨f.endianness, f.addressSize.toNat, u.offset⟩

/-- The units that are not ignored. -/
def readUnits (f : ObjectFile) (ignored : List String) : List CompileUnit :=
  f.units.filter fun u => !isIgnored ignored u

/-- The entries of some units of a file, unit by unit. -/
def diesOf (f : ObjectFile) (us : List CompileUnit) : List PlacedDie :=
  us.flatMap fun u => u.die.listed (f.context u) []

/-- The entries of a file, but for the units that are ignored. -/
def dies (f : ObjectFile) (ignored : List String) : List PlacedDie :=
  f.diesOf (f.readUnits ignored)

end ObjectFile

-- ---------------------------------------------------------------------------
-- Entries that stand for entries of a file
-- ---------------------------------------------------------------------------

/-- Whether an entry is what an entry of a file is decoded to: it has its offset for a reference,
its tag, its attributes, and the entries inside it that can be read. -/
structure Converts (ctx : DecodingContext) (d : Die) (e : Entry) : Prop where
  ref : e.ref = d.offset
  tag : d.tag? = some e.tag.name
  attributes : d.decodeAttributes ctx = .ok e.attributes
  children : e.children.map Entry.ref = (d.children.filter (·.isReadable ctx)).map Die.offset

/-- Whether an entry of a store stands for an entry of a file, and the entries around it for those
around that one. -/
structure Mirrors (p : PlacedDie) (e : Placed) : Prop where
  entry : Converts p.context p.die e.entry
  ancestors : List.Forall₂ (Converts p.context) p.ancestors e.ancestors

namespace Die

variable {ctx : DecodingContext} {d : Die} {e : Entry}

/-- An entry that can be read is decoded, whatever is inside it. -/
theorem toEntry_of_isReadable (h : d.isReadable ctx = true) :
    ∃ tag decoded, d.tag? = some tag ∧ d.decodeAttributes ctx = .ok decoded ∧
      d.toEntry ctx = .ok (some (.node d.offset ⟨tag⟩ decoded (toEntries ctx d.children))) := by
  obtain ⟨tag, decoded, htag, hdecoded⟩ := isReadable_iff.1 h
  refine ⟨tag, decoded, htag, hdecoded, ?_⟩
  obtain ⟨offset, tag?, attributes, children⟩ := d
  obtain rfl : tag? = some tag := htag
  rw [toEntry, hdecoded]
  rfl

theorem isReadable_of_toEntry (h : d.toEntry ctx = .ok (some e)) : d.isReadable ctx = true := by
  obtain ⟨offset, tag, attributes, children⟩ := d
  cases tag with
  | none => exact absurd h (by simp [toEntry])
  | some tag =>
    rw [toEntry] at h
    split at h
    · exact absurd h (by simp)
    · rename_i decoded hdecoded
      exact isReadable_iff.2 ⟨tag, decoded, rfl, hdecoded⟩

theorem toEntries_cons (h : d.toEntry ctx = .ok (some e)) (ds : List Die) :
    toEntries ctx (d :: ds) = e :: toEntries ctx ds := by
  rw [toEntries, h]

/-- A DIE that is not readable is passed over with all below it. -/
theorem toEntries_cons_of_not (h : ¬d.isReadable ctx = true) (ds : List Die) :
    toEntries ctx (d :: ds) = toEntries ctx ds := by
  rw [toEntries]
  split
  · rename_i e he
    exact absurd (isReadable_of_toEntry he) h
  · rfl

/-- The entries that some entries are decoded to are those that can be read. -/
theorem map_ref_toEntries (ds : List Die) :
    (toEntries ctx ds).map Entry.ref = (ds.filter (·.isReadable ctx)).map offset := by
  induction ds with
  | nil => rw [toEntries]; rfl
  | cons d ds ih =>
    by_cases hread : d.isReadable ctx = true
    · obtain ⟨tag, decoded, -, -, hentry⟩ := toEntry_of_isReadable hread
      rw [toEntries_cons hentry, List.filter_cons_of_pos hread, List.map_cons, List.map_cons, ih]
      rfl
    · rw [toEntries_cons_of_not hread, List.filter_cons_of_neg hread, ih]

/-- The entry of a DIE has its offset, tag and decoded attributes, and the entries of its children
below it. -/
theorem converts_of_toEntry (h : d.toEntry ctx = .ok (some e)) :
    Converts ctx d e ∧ e.children = toEntries ctx d.children := by
  obtain ⟨tag, decoded, htag, hdecoded, hentry⟩ :=
    toEntry_of_isReadable (isReadable_of_toEntry h)
  rw [h, Except.ok.injEq, Option.some.injEq] at hentry
  subst hentry
  exact ⟨⟨rfl, htag, hdecoded, map_ref_toEntries d.children⟩, rfl⟩

-- ---------------------------------------------------------------------------
-- What is kept
-- ---------------------------------------------------------------------------

/-- Some entries and the entries inside them have around them what is around them all. The recursion
goes into the first of them and along the others. -/
theorem subset_of_mem_listedAll {p : PlacedDie} : ∀ (ds : List Die) (ancestors : List Die),
    p ∈ listedAll ctx ancestors ds → p.context = ctx ∧ ancestors ⊆ p.die :: p.ancestors
  | [], ancestors => by
    intro h
    exact absurd h (by simp [listedAll])
  | node offset tag attributes children :: ds, ancestors => by
    intro h
    rw [listedAll, listed] at h
    rcases List.mem_append.1 h with h | h
    · rcases List.mem_cons.1 h with rfl | h
      · exact ⟨rfl, List.subset_cons_self _ ancestors⟩
      · obtain ⟨hctx, hsubset⟩ := subset_of_mem_listedAll children _ h
        exact ⟨hctx, List.Subset.trans (List.subset_cons_self _ ancestors) hsubset⟩
    · exact subset_of_mem_listedAll ds ancestors h

/-- The entries inside an entry have it around them. -/
theorem mem_of_mem_listed {p : PlacedDie} {ancestors : List Die} (h : p ∈ d.listed ctx ancestors) :
    p.context = ctx ∧ d ∈ p.die :: p.ancestors := by
  cases d with
  | node offset tag attributes children =>
    rw [listed] at h
    rcases List.mem_cons.1 h with rfl | h
    · exact ⟨rfl, List.mem_cons_self⟩
    · obtain ⟨hctx, hsubset⟩ := subset_of_mem_listedAll children _ h
      exact ⟨hctx, hsubset List.mem_cons_self⟩

/-- Nothing is kept inside an entry that cannot be read. -/
theorem filter_listed_of_not (h : ¬d.isReadable ctx = true) (ancestors : List Die) :
    (d.listed ctx ancestors).filter PlacedDie.survives = [] := by
  refine List.filter_eq_nil_iff.2 fun p hp hsurvives => h ?_
  obtain ⟨hctx, hmem⟩ := mem_of_mem_listed hp
  rw [PlacedDie.survives, List.all_eq_true, hctx] at hsurvives
  exact hsurvives d hmem

end Die

namespace Die

/-- What some entries are decoded to stands, entry by entry, for what is kept of them. The recursion
goes into the first of them and along the others. -/
theorem mirrors_listedAll : ∀ (ds : List Die) {ancestors : List Die} {around : List Entry},
    (∀ a ∈ ancestors, a.isReadable ctx = true) →
    List.Forall₂ (Converts ctx) ancestors around →
    List.Forall₂ Mirrors ((listedAll ctx ancestors ds).filter PlacedDie.survives)
      (Entry.listedAll around (toEntries ctx ds))
  | [], ancestors, around => by
    intro _ _
    rw [listedAll, toEntries, Entry.listedAll]
    exact .nil
  | node offset tag attributes children :: ds, ancestors, around => by
    intro hread haround
    have hrest := mirrors_listedAll ds hread haround
    rw [listedAll, List.filter_append]
    by_cases hd : (node offset tag attributes children).isReadable ctx = true
    · obtain ⟨_, _, -, -, hentry⟩ := toEntry_of_isReadable hd
      obtain ⟨hconverts, hchildren⟩ := converts_of_toEntry hentry
      have hall : ∀ a ∈ node offset tag attributes children :: ancestors,
          a.isReadable ctx = true := List.forall_mem_cons.2 ⟨hd, hread⟩
      have hsurvives : PlacedDie.survives ⟨ctx, node offset tag attributes children, ancestors⟩ =
          true := List.all_eq_true.2 hall
      rw [toEntries_cons hentry, Entry.listedAll]
      refine List.rel_append ?_ hrest
      rw [listed, List.filter_cons_of_pos hsurvives, Entry.listed_eq, hchildren]
      refine .cons ⟨hconverts, haround⟩ ?_
      exact mirrors_listedAll children hall (.cons hconverts haround)
    · -- an entry that cannot be read takes all that is below it along
      rw [toEntries_cons_of_not hd, filter_listed_of_not hd, List.nil_append]
      exact hrest

end Die

-- ---------------------------------------------------------------------------
-- What is stored
-- ---------------------------------------------------------------------------

/-- Entries that mirror DIEs have their offsets as references. -/
theorem map_ref_of_mirrors {ps : List PlacedDie} {es : List Placed}
    (h : List.Forall₂ Mirrors ps es) : es.map (·.entry.ref) = ps.map (·.die.offset) := by
  induction h with
  | nil => rfl
  | cons hmirrors _ ih => rw [List.map_cons, List.map_cons, hmirrors.entry.ref, ih]

namespace ObjectFile

variable {f : ObjectFile}

/-- The entries that a unit is decoded to. -/
def entriesOf (f : ObjectFile) (u : CompileUnit) : List Placed :=
  Entry.listedAll [] (Die.toEntries (f.context u) [u.die])

/-- The entries of some units stand for what is kept of them. -/
theorem mirrors_entriesOf (us : List CompileUnit) :
    List.Forall₂ Mirrors ((f.diesOf us).filter PlacedDie.survives) (us.flatMap f.entriesOf) := by
  induction us with
  | nil => exact .nil
  | cons u us ih =>
    rw [diesOf, List.flatMap_cons, List.flatMap_cons, List.filter_append]
    refine List.rel_append ?_ ih
    have hunit := @Die.mirrors_listedAll (f.context u) [u.die] [] [] (by simp) .nil
    rwa [Die.listedAll, Die.listedAll, List.append_nil] at hunit

/-- A unit whose outermost entry has attributes that can be decoded adds its entries, none if that
entry is none. -/
theorem addUnits_cons {u : CompileUnit} {s : Store}
    (hroot : ∃ decoded, u.die.decodeAttributes (f.context u) = .ok decoded)
    (hnodup : ((s.entries ++ f.entriesOf u).map (·.entry.ref)).Nodup) (us : List CompileUnit) :
    ∃ t, t.entries = s.entries ++ f.entriesOf u ∧ f.addUnits s (u :: us) = f.addUnits t us := by
  obtain ⟨decoded, hdecoded⟩ := hroot
  cases htag : u.die.tag? with
  | none =>
    -- the end of a list gives no entry, and nothing is added
    have hentry : u.die.toEntry (f.context u) = .ok none := by
      revert htag
      cases u.die with
      | node offset tag? attributes children =>
        rintro rfl
        rw [Die.toEntry]
    have hnone : f.entriesOf u = [] := by
      rw [entriesOf, Die.toEntries, hentry]
      simp only [Die.toEntries, Entry.listedAll]
    refine ⟨s, by rw [hnone, List.append_nil], ?_⟩
    rw [context] at hentry
    rw [addUnits, hentry]
  | some tag =>
    have hread : u.die.isReadable (f.context u) = true :=
      Die.isReadable_iff.2 ⟨tag, decoded, htag, hdecoded⟩
    obtain ⟨root, hentry⟩ : ∃ root, u.die.toEntry (f.context u) = .ok (some root) := by
      obtain ⟨_, _, -, -, hentry⟩ := Die.toEntry_of_isReadable hread
      exact ⟨_, hentry⟩
    have hroot : f.entriesOf u = root.listed [] := by
      rw [entriesOf, Die.toEntries_cons hentry, Die.toEntries, Entry.listedAll, Entry.listedAll,
        List.append_nil]
    rw [hroot] at hnodup ⊢
    obtain ⟨t, hadd, ht⟩ := Store.addRoot_eq hnodup
    refine ⟨t, ht, ?_⟩
    rw [context] at hentry
    rw [addUnits, hentry]
    simp only [hadd]

/-- Units with new references are added one after the other. -/
theorem addUnits_eq {us : List CompileUnit} {s : Store}
    (hroots : ∀ u ∈ us, ∃ decoded, u.die.decodeAttributes (f.context u) = .ok decoded)
    (hnodup : ((s.entries ++ us.flatMap f.entriesOf).map (·.entry.ref)).Nodup) :
    ∃ t, f.addUnits s us = .ok t ∧ t.entries = s.entries ++ us.flatMap f.entriesOf := by
  induction us generalizing s with
  | nil => exact ⟨s, rfl, (List.append_nil _).symm⟩
  | cons u us ih =>
    rw [List.flatMap_cons, ← List.append_assoc] at hnodup ⊢
    have hfirst : ((s.entries ++ f.entriesOf u).map (·.entry.ref)).Nodup := by
      rw [List.map_append] at hnodup
      exact (List.nodup_append.1 hnodup).1
    obtain ⟨t, ht, hstep⟩ := addUnits_cons (hroots u List.mem_cons_self) hfirst us
    rw [← ht] at hnodup
    rw [hstep, ← ht]
    exact ih (fun v hv => hroots v (List.mem_cons_of_mem u hv)) hnodup

/-- Whether everything else in a file can be loaded: it has debug information, a target, symbols and
regions. -/
structure Opens (f : ObjectFile) : Prop where
  debug : f.hasDebugSection = true
  target : ∃ target, Target.make f.addressSize f.endianness f.addressSize = .ok target
  symbols : ∃ symbols, f.symbolTable = .ok symbols
  regions : ∃ regions, f.regions = .ok regions

/-- The store of a file is made of its units, once everything else is loaded. -/
theorem load_eq_ok {ignored : List String} {loaded : LoadedFile} :
    f.load ignored = .ok loaded ↔
      f.hasDebugSection = true ∧ ∃ target symbols regions store,
        Target.make f.addressSize f.endianness f.addressSize = .ok target ∧
        f.symbolTable = .ok symbols ∧ f.regions = .ok regions ∧
        f.addUnits .empty (f.readUnits ignored) = .ok store ∧
        loaded = ⟨target, symbols, regions, f.memory, store⟩ := by
  rw [load]
  cases hdebug : f.hasDebugSection with
  | false => exact iff_of_false (fun h => by cases h) (by simp)
  | true =>
    simp only [Bool.not_true, Bool.false_eq_true, if_false, bind_eq_ok, mapError_eq_ok, pure_eq_ok,
      true_and]
    constructor
    · rintro ⟨target, htarget, symbols, hsymbols, regions, hregions, store, hstore, rfl⟩
      exact ⟨target, symbols, regions, store, htarget, hsymbols, hregions, hstore, rfl⟩
    · rintro ⟨target, symbols, regions, store, htarget, hsymbols, hregions, hstore, rfl⟩
      exact ⟨target, htarget, symbols, hsymbols, regions, hregions, store, hstore, rfl⟩

/-- The entries of a file that was loaded are those that can be read with all entries around them,
in the order of the file. If the outermost entries can be read and no two offsets are equal, the
entries cannot keep the file from being loaded. -/
theorem load_entries {ignored : List String}
    (hroots : ∀ u ∈ f.readUnits ignored,
      ∃ decoded, u.die.decodeAttributes (f.context u) = .ok decoded)
    (hoffsets : ((f.dies ignored).map (·.die.offset)).Nodup) :
    ((∃ loaded, f.load ignored = .ok loaded) ↔ f.Opens) ∧
    ∀ loaded, f.load ignored = .ok loaded →
      List.Forall₂ Mirrors ((f.dies ignored).filter PlacedDie.survives) loaded.store.entries ∧
        (loaded.store.entries.map (·.entry.ref)).Nodup := by
  have hmirrors := f.mirrors_entriesOf (f.readUnits ignored)
  -- the references are the offsets of the entries that survive
  have hrefs : (((f.readUnits ignored).flatMap f.entriesOf).map (·.entry.ref)).Nodup := by
    rw [map_ref_of_mirrors hmirrors]
    exact (List.filter_sublist.map _).nodup hoffsets
  obtain ⟨store, hstore, hentries⟩ := @addUnits_eq f _ .empty hroots hrefs
  have hentries : store.entries = (f.readUnits ignored).flatMap f.entriesOf := hentries
  constructor
  · constructor
    · rintro ⟨loaded, hloaded⟩
      obtain ⟨hdebug, target, symbols, regions, -, htarget, hsymbols, hregions, -⟩ :=
        load_eq_ok.1 hloaded
      exact ⟨hdebug, ⟨target, htarget⟩, ⟨symbols, hsymbols⟩, ⟨regions, hregions⟩⟩
    · rintro ⟨hdebug, ⟨target, htarget⟩, ⟨symbols, hsymbols⟩, ⟨regions, hregions⟩⟩
      exact ⟨_, load_eq_ok.2 ⟨hdebug, target, symbols, regions, store, htarget, hsymbols, hregions,
        hstore, rfl⟩⟩
  · intro loaded hloaded
    obtain ⟨-, target, symbols, regions, store', -, -, -, hstore', rfl⟩ := load_eq_ok.1 hloaded
    obtain rfl := eq_of_ok hstore hstore'
    rw [hentries]
    exact ⟨hmirrors, hrefs⟩

/-- A file with a unit whose third entry has a member location that cannot be decoded, before the
end of a list and another entry, then a unit that is ignored, and one with a variable. -/
def damagedFile : ObjectFile where
  hasDebugInfo := true
  isLittleEndian := true
  elfClass := 32
  sections := [⟨".debug_info", 0, 0, 0, "SHT_PROGBITS", [], none⟩]
  units :=
    [⟨4, 0, .node 1 (some "DW_TAG_compile_unit") []
      [.node 2 (some "DW_TAG_structure_type") [named "s"]
        [.node 3 (some "DW_TAG_member")
            [⟨some "DW_AT_data_member_location", "DW_FORM_exprloc", .block [0x91, 0]⟩]
            [.node 4 (some "DW_TAG_base_type") [named "t"] []],
          .node 5 none [] [],
          .node 6 (some "DW_TAG_member") [named "m"] []],
        .node 7 (some "DW_TAG_variable") [named "x"] []]⟩,
      ⟨4, 8, .node 9 (some "DW_TAG_compile_unit") [named "skip.c"] []⟩,
      ⟨4, 16, .node 17 (some "DW_TAG_compile_unit") []
        [.node 18 (some "DW_TAG_variable") [named "y"] []]⟩]
where
  named (name : String) : FormAttribute :=
    ⟨some "DW_AT_name", "DW_FORM_string", .bytes (name.toList.map fun c => .ofNat c.toNat)⟩

/-- Of a file with unreadable and ignored parts the others are loaded in order. -/
theorem load_entries_damaged :
    (∀ u ∈ damagedFile.readUnits ["skip.c"],
      ∃ decoded, u.die.decodeAttributes (damagedFile.context u) = .ok decoded) ∧
    ((damagedFile.dies ["skip.c"]).map (·.die.offset)).Nodup ∧
    ∃ loaded, damagedFile.load ["skip.c"] = .ok loaded ∧
      loaded.store.entries.map (·.entry.ref) = [1, 2, 6, 7, 17, 18] := by
  have hroots : ∀ u ∈ damagedFile.readUnits ["skip.c"],
      ∃ decoded, u.die.decodeAttributes (damagedFile.context u) = .ok decoded := by
    have hall : (damagedFile.readUnits ["skip.c"]).all
        (fun u => (u.die.decodeAttributes (damagedFile.context u)).isOk) = true := rfl
    exact fun u hu => isOk_iff.1 (List.all_eq_true.1 hall u hu)
  have hoffsets : ((damagedFile.dies ["skip.c"]).map (·.die.offset)).Nodup := by
    have : (damagedFile.dies ["skip.c"]).map (·.die.offset) = [1, 2, 3, 4, 5, 6, 7, 17, 18] := rfl
    rw [this]
    decide
  have hopens : damagedFile.Opens := ⟨rfl, ⟨_, rfl⟩, ⟨_, rfl⟩, ⟨_, rfl⟩⟩
  obtain ⟨hload, hentries⟩ := load_entries hroots hoffsets
  obtain ⟨loaded, hloaded⟩ := hload.2 hopens
  refine ⟨hroots, hoffsets, loaded, hloaded, ?_⟩
  rw [map_ref_of_mirrors (hentries loaded hloaded).1]
  rfl

end ObjectFile

end DebugLayout
