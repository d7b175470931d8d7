import DebugLayout.Proofs.Entry.Store
import DebugLayout.Proofs.Layout.Expansion
import DebugLayout.Proofs.TypeGraph.Exec
import Mathlib.Data.List.Nodup

/-!
# DebugLayout — stores with the same entries

Two stores hold the **same entries** if their entries agree one by one, though perhaps in another
order, and every reference leads to the same entry in both. The entries inside an entry count only
if it describes a type. Nothing else is ever read of a type, so that types are built in the same way
from both stores. The one thing that is searched in document order is the definition of a declared
composite, which is the same if there is only one.

The building asks a store for entries by reference, and for definitions by name. Both questions have
the same answer in the two stores, and by induction on the depth so does every question that is put
to the builder.

* `Entry.Alike`, `Store.SameEntries`: entries that are the same, and stores that hold the same;
* `Store.SameEntries.of_distinct`, `Store.distinct_ofRoots`: references need no thought if they are
  distinct, as in every store that was read from trees;
* `Store.UniqueDefinitions`: no declared composite has two definitions;
* `TypeGraph.buildRef_eq`: types are built in the same way.
-/

namespace DebugLayout

-- ---------------------------------------------------------------------------
-- Entries
-- ---------------------------------------------------------------------------

/-- Whether two entries are the same, with the entries inside them if they describe a type. -/
inductive Entry.Alike : Entry → Entry → Prop
  | node {ref : Int} {tag : Tag} {attributes attributes' : Attributes}
      {children children' : List Entry}
      (hattributes : ∀ name, attributes.get? name = attributes'.get? name)
      (hchildren : tag.isType = true → List.Forall₂ Alike children children') :
      Alike (.node ref tag attributes children) (.node ref tag attributes' children')

namespace Entry.Alike

variable {e e' : Entry} (h : e.Alike e')
include h

theorem ref : e'.ref = e.ref := by
  cases h
  rfl

theorem tag : e'.tag = e.tag := by
  cases h
  rfl

/-- Attributes may be listed in another order, but each of them has the same value. -/
theorem get? : e'.attributes.get? = e.attributes.get? := by
  cases h with
  | node hattributes hchildren => exact funext fun name => (hattributes name).symm

/-- Only the entries inside an entry that describes a type have a say, and they are the same ones in
the same order. -/
theorem children (htype : e.tag.isType = true) : List.Forall₂ Alike e.children e'.children := by
  cases h with
  | node hattributes hchildren => exact hchildren htype

theorem attr? : e'.attr? = e.attr? := by
  funext name
  rw [Entry.attr?, Entry.attr?, h.get?]

theorem intAttr? : e'.intAttr? = e.intAttr? := by
  funext name
  rw [Entry.intAttr?, Entry.intAttr?, h.get?]

theorem name? : e'.name? = e.name? := by
  rw [Entry.name?, Entry.name?, h.attr?]

theorem typeRef? : e'.typeRef? = e.typeRef? := by
  rw [Entry.typeRef?, Entry.typeRef?, h.attr?]

theorem byteSize? : e'.byteSize? = e.byteSize? := by
  rw [Entry.byteSize?, Entry.byteSize?, h.attr?]

theorem isDeclaration : e'.isDeclaration = e.isDeclaration := by
  rw [Entry.isDeclaration, Entry.isDeclaration, h.attr?]

theorem label : e'.label = e.label := by
  rw [Entry.label, Entry.label, h.tag, h.ref, h.name?]

/-- The place of a bitfield is read from the attributes alone. -/
theorem fieldPlace : e'.fieldPlace = e.fieldPlace := by
  funext order unitSize byteOffset size
  simp only [Entry.fieldPlace, Entry.fieldPosition, h.label, h.intAttr?]

end Entry.Alike

/-- Every entry is the same as itself, down to the entries inside it. -/
theorem Entry.alike_refl (e : Entry) : e.Alike e := by
  obtain ⟨ref, tag, attributes, children⟩ := e
  refine .node (fun _ => rfl) fun _ => List.forall₂_same.2 fun c hc => ?_
  exact alike_refl c
termination_by sizeOf e
decreasing_by
  have hlt := List.sizeOf_lt_of_mem hc
  simp only [Entry.node.sizeOf_spec]
  omega

namespace TypeGraph

open Build
open Entry (Alike)

variable {e e' : Entry} {es es' : List Entry} {recurse : Recurse} {target : Target}

/-- The same entries have the same enumerators, or the same fault. -/
theorem enumeratorsOf_eq (h : List.Forall₂ Alike es es') :
    enumeratorsOf es' = enumeratorsOf es := by
  induction h with
  | nil => rfl
  | cons hc _ ih => simp only [enumeratorsOf, hc.tag, hc.name?, hc.attr?, ih]

theorem encodingOf_eq (h : e.Alike e') : encodingOf e' = encodingOf e := by
  rw [encodingOf, encodingOf, h.attr?]

theorem enumDataType_eq (h : e.Alike e') : enumDataType e' = enumDataType e := by
  funext underlying size enumerators
  simp only [enumDataType, encodingOf_eq h]

/-- Entries of some tags among alike ones are alike. -/
theorem forall₂_filter_tag {p : Tag → Bool} (h : List.Forall₂ Alike es es') :
    List.Forall₂ Alike (es.filter fun c => p c.tag) (es'.filter fun c => p c.tag) := by
  refine List.rel_filter (fun c c' hc => ?_) h
  show p c.tag = true ↔ p c'.tag = true
  rw [hc.tag]

theorem dimensionOf_eq (h : e.Alike e') : dimensionOf e' = dimensionOf e := by
  unfold dimensionOf
  rw [h.tag, h.attr?, h.intAttr?]
  by_cases htag : e.tag = Tag.enumerationType
  · have hchildren := h.children (by rw [htag]; decide)
    have hlength := (forall₂_filter_tag (p := (· = Tag.enumerator)) hchildren).length_eq
    rw [if_pos htag, if_pos htag, hlength]
  · rw [if_neg htag, if_neg htag]

/-- The same entries have the same dimensions, or the same fault. -/
theorem dimensionsOf_eq (h : List.Forall₂ Alike e.children e'.children) :
    dimensionsOf e' = dimensionsOf e := by
  have hmap : ∀ {cs cs' : List Entry}, List.Forall₂ Alike cs cs' →
      cs'.mapM dimensionOf = cs.mapM dimensionOf := by
    intro cs cs' hcs
    induction hcs with
    | nil => rfl
    | cons hc _ ih => rw [List.mapM_cons, List.mapM_cons, dimensionOf_eq hc, ih]
  exact hmap (forall₂_filter_tag (p := fun t => t = Tag.subrangeType || t = Tag.enumerationType) h)

/-- A member that is the same has the same offset, or the same fault. -/
theorem byteOffsetOf_eq (h : e.Alike e') : byteOffsetOf e' = byteOffsetOf e := by
  rw [byteOffsetOf, byteOffsetOf, h.attr?, h.label]

-- ---------------------------------------------------------------------------
-- Kinds of types that only need other types
-- ---------------------------------------------------------------------------

/-- An alias is built from its name and its target, which are the same. -/
theorem buildAlias_eq (h : e.Alike e') : buildAlias recurse e' = buildAlias recurse e := by
  simp only [buildAlias, h.ref, h.tag, h.name?, h.typeRef?]

/-- A base type is built from its attributes alone. -/
theorem buildBaseType_eq (h : e.Alike e') : buildBaseType e' = buildBaseType e := by
  simp only [buildBaseType, h.ref, h.name?, h.byteSize?, h.label, encodingOf_eq h]

/-- An enumeration is built from its attributes and its enumerators. -/
theorem buildEnum_eq (h : e.Alike e') (htag : e.tag = Tag.enumerationType) :
    buildEnum recurse e' = buildEnum recurse e := by
  have hchildren := h.children (by rw [htag]; decide)
  simp only [buildEnum, h.ref, h.name?, h.typeRef?, h.byteSize?, h.label, enumDataType_eq h,
    enumeratorsOf_eq hchildren]

/-- An array is built from its attributes and its bounds. -/
theorem buildArray_eq (h : e.Alike e') (htag : e.tag = Tag.arrayType) :
    buildArray recurse e' = buildArray recurse e := by
  have hchildren := h.children (by rw [htag]; decide)
  simp only [buildArray, h.ref, h.name?, h.typeRef?, h.byteSize?, h.label, h.attr?, h.intAttr?,
    dimensionsOf_eq hchildren]

theorem buildBaseClass_eq (h : e.Alike e') :
    buildBaseClass recurse e' = buildBaseClass recurse e := by
  simp only [buildBaseClass, h.ref, h.typeRef?, byteOffsetOf_eq h]

/-- A member is built from its attributes, whatever is inside it. -/
theorem buildMember_eq (h : e.Alike e') (inUnion : Bool) :
    buildMember recurse target inUnion e' = buildMember recurse target inUnion e := by
  simp only [buildMember, h.ref, h.typeRef?, h.isDeclaration, h.name?, h.attr?, h.intAttr?,
    h.byteSize?, h.fieldPlace, byteOffsetOf_eq h]

/-- The same members are built in the same order. -/
theorem buildMembers_eq (inUnion : Bool) (h : List.Forall₂ Alike es es') :
    buildMembers recurse target inUnion es' = buildMembers recurse target inUnion es := by
  induction h with
  | nil => rfl
  | cons hc _ ih => simp only [buildMembers, hc.tag, buildMember_eq hc, buildBaseClass_eq hc, ih]

/-- A composite with members is built from its attributes and its members. -/
theorem buildBody_eq (h : e.Alike e') (htag : e.tag.isComposite = true) :
    buildBody recurse target e' = buildBody recurse target e := by
  have htype : e.tag.isType = true := by simp [Tag.isType, htag]
  simp only [buildBody, h.ref, h.tag, h.name?, h.byteSize?, h.isDeclaration,
    buildMembers_eq _ (h.children htype)]

end TypeGraph

-- ---------------------------------------------------------------------------
-- Stores
-- ---------------------------------------------------------------------------

namespace Store

open Entry (Alike)

variable {s t : Store} {e e' : Entry} {ref : Int}

/-- Whether two stores list the same entries, perhaps in another order. -/
def Relisted (s t : Store) : Prop :=
  ∃ placed, placed.Perm t.entries ∧
    List.Forall₂ (fun p q => p.entry.Alike q.entry) s.entries placed

/-- Whether two stores hold the same entries: they list the same ones, and every reference leads to
the same one. -/
structure SameEntries (s t : Store) : Prop where
  listed : s.Relisted t
  found : ∀ ref, Option.Rel Alike (s.entry? ref) (t.entry? ref)

namespace Relisted

variable (h : s.Relisted t)
include h

/-- Two stores that list the same entries hold equally many. -/
theorem size_eq : t.size = s.size := by
  obtain ⟨placed, hperm, hplaced⟩ := h
  rw [size, size, ← hperm.length_eq, ← hplaced.length_eq]

/-- Every entry of the one store has its like in the other. -/
theorem exists_alike {p : Placed} (hp : p ∈ s.entries) :
    ∃ q ∈ t.entries, p.entry.Alike q.entry := by
  obtain ⟨placed, hperm, hplaced⟩ := h
  obtain ⟨q, hq, halike⟩ := exists_of_mem_forall₂ hplaced.flip hp
  exact ⟨q, hperm.mem_iff.1 hq, halike⟩

/-- And every entry of the other store has its like in the one. -/
theorem exists_alike' {q : Placed} (hq : q ∈ t.entries) :
    ∃ p ∈ s.entries, p.entry.Alike q.entry := by
  obtain ⟨placed, hperm, hplaced⟩ := h
  exact exists_of_mem_forall₂ hplaced (hperm.mem_iff.2 hq)

/-- Both list the same references, perhaps in another order. -/
theorem refs_perm : (s.entries.map (·.entry.ref)).Perm (t.entries.map (·.entry.ref)) := by
  obtain ⟨placed, hperm, hplaced⟩ := h
  have hrefs : ∀ {ps qs : List Placed}, List.Forall₂ (fun p q => p.entry.Alike q.entry) ps qs →
      ps.map (·.entry.ref) = qs.map (·.entry.ref) := by
    intro ps qs hps
    induction hps with
    | nil => rfl
    | cons hp _ ih => rw [List.map_cons, List.map_cons, hp.ref, ih]
  rw [hrefs hplaced]
  exact hperm.map _

end Relisted

-- ---------------------------------------------------------------------------
-- Distinct references
-- ---------------------------------------------------------------------------

/-- Whether no two entries of a store have the same reference. -/
def Distinct (s : Store) : Prop := (s.entries.map (·.entry.ref)).Nodup

/-- A tree that was added without trouble brought no reference a second time. -/
theorem distinct_addRoot {root : Entry} (hs : s.Distinct) (h : s.addRoot root = (t, none)) :
    t.Distinct := by
  obtain rfl := congrArg Prod.fst h
  exact nodup_addRoot hs root

/-- References are distinct in every store that was read from trees. -/
theorem distinct_ofRoots {roots : List Entry} (h : ofRoots roots = .ok s) : s.Distinct := by
  unfold ofRoots at h
  have hbefore : empty.Distinct := List.nodup_nil
  -- over the roots, from any store without shared references
  generalize empty = before at h hbefore
  induction roots generalizing before with
  | nil =>
    obtain rfl := Except.ok.inj h
    exact hbefore
  | cons root roots ih =>
    rw [List.foldlM_cons] at h
    obtain ⟨after, hafter, hrest⟩ := bind_eq_ok.1 h
    split at hafter
    · rename_i more hadd
      obtain rfl := Except.ok.inj hafter
      exact ih more hrest (distinct_addRoot hbefore hadd)
    · exact absurd hafter (by simp)

/-- If no other entry has its reference, that is where the reference of an entry leads. -/
theorem entry?_of_mem (hdistinct : s.Distinct) {p : Placed} (hp : p ∈ s.entries) :
    s.entry? p.entry.ref = some p.entry := by
  have hfound := (resolve?_eq_some_iff hdistinct).2 ⟨hp, rfl⟩
  exact Option.map_eq_some_iff.2 ⟨p, hfound, rfl⟩

/-- Stores that list the same entries hold the same ones if no two have one reference. -/
theorem SameEntries.of_distinct (h : s.Relisted t)
    (hdistinct : s.Distinct) : s.SameEntries t where
  listed := h
  found ref := by
    have hdistinct' : t.Distinct := h.refs_perm.nodup_iff.1 hdistinct
    cases hs : s.entry? ref with
    | none =>
      cases ht : t.entry? ref with
      | none => exact .none
      | some e' =>
        obtain ⟨q, hq, rfl⟩ := exists_placed ht
        obtain ⟨p, hp, halike⟩ := h.exists_alike' hq
        -- where references are not shared, what is listed is what is found
        have hfound := entry?_of_mem hdistinct hp
        rw [← halike.ref, entry?_ref ht, hs] at hfound
        exact absurd hfound (by simp)
    | some e =>
      obtain ⟨p, hp, rfl⟩ := exists_placed hs
      obtain ⟨q, hq, halike⟩ := h.exists_alike hp
      have hfound := entry?_of_mem hdistinct' hq
      rw [halike.ref, entry?_ref hs] at hfound
      rw [hfound]
      exact .some halike

/-- A reference leads nowhere in either store, or to alike entries. -/
theorem SameEntries.entry?_cases (h : s.SameEntries t) (ref : Int) :
    s.entry? ref = none ∧ t.entry? ref = none ∨
      ∃ p ∈ s.entries, ∃ e', s.entry? ref = some p.entry ∧ t.entry? ref = some e' ∧
        p.entry.Alike e' := by
  have hfound := h.found ref
  cases hs : s.entry? ref with
  | none =>
    rw [hs] at hfound
    cases ht : t.entry? ref with
    | none => exact .inl ⟨rfl, rfl⟩
    | some e' =>
      rw [ht] at hfound
      cases hfound
  | some e =>
    obtain ⟨p, hp, rfl⟩ := exists_placed hs
    rw [hs] at hfound
    cases ht : t.entry? ref with
    | none =>
      rw [ht] at hfound
      cases hfound
    | some e' =>
      rw [ht] at hfound
      cases hfound with
      | some halike => exact .inr ⟨p, hp, e', rfl, rfl, halike⟩

/-- Whether an entry is a complete definition of the family and name of another one. -/
def Completes (store : Store) (e : Entry) (ref : Int) : Prop :=
  ∃ p ∈ store.entries, p.entry.ref = ref ∧ p.entry.tag.isComposite = true ∧
    p.entry.isDeclaration = false ∧ p.entry.tag.family = e.tag.family ∧
    ∃ name, e.name? = some name ∧ p.entry.name? = some name

/-- Whether no declared composite has two complete definitions. -/
def UniqueDefinitions (store : Store) : Prop :=
  ∀ p ∈ store.entries, p.entry.tag.isComposite = true → p.entry.isDeclaration = true →
    ∀ ref ref', store.Completes p.entry ref → store.Completes p.entry ref' → ref = ref'

/-- The definition that is found is one of the family and name of the declaration. -/
theorem completes_of_definition? (h : TypeGraph.definition? s e = some ref) :
    s.Completes e ref := by
  unfold TypeGraph.definition? at h
  split at h
  · exact absurd h (by simp)
  · rename_i name hname
    obtain ⟨p, hp, rfl⟩ := Option.map_eq_some_iff.1 h
    have hfound := List.find?_some hp
    simp only [Bool.and_eq_true, Bool.not_eq_true', decide_eq_true_eq] at hfound
    obtain ⟨⟨⟨htag, hcomplete⟩, hfamily⟩, hsame⟩ := hfound
    exact ⟨p, List.mem_of_find?_eq_some hp, rfl, htag, hcomplete, hfamily, name, hname, hsame⟩

/-- Where there is a definition, one is found. -/
theorem exists_definition? (h : s.Completes e ref) :
    ∃ ref', TypeGraph.definition? s e = some ref' := by
  obtain ⟨p, hp, -, htag, hcomplete, hfamily, name, hname, hsame⟩ := h
  unfold TypeGraph.definition?
  rw [hname]
  refine Option.isSome_iff_exists.1 ?_
  rw [Option.isSome_map, List.find?_isSome]
  exact ⟨p, hp, by simp [htag, hcomplete, hfamily, hsame]⟩

namespace SameEntries

variable (h : s.SameEntries t)
include h

/-- The definitions of a composite are the same in both stores. -/
theorem completes_iff (he : e.Alike e') : t.Completes e' ref ↔ s.Completes e ref := by
  constructor
  · rintro ⟨q, hq, href, htag, hcomplete, hfamily, name, hname, hsame⟩
    obtain ⟨p, hp, halike⟩ := h.listed.exists_alike' hq
    rw [halike.tag, he.tag] at hfamily
    exact ⟨p, hp, halike.ref ▸ href, halike.tag ▸ htag, halike.isDeclaration ▸ hcomplete, hfamily,
      name, he.name? ▸ hname, halike.name? ▸ hsame⟩
  · rintro ⟨p, hp, href, htag, hcomplete, hfamily, name, hname, hsame⟩
    obtain ⟨q, hq, halike⟩ := h.listed.exists_alike hp
    rw [← halike.tag, ← he.tag] at hfamily
    exact ⟨q, hq, halike.ref.trans href, halike.tag.symm ▸ htag,
      halike.isDeclaration.trans hcomplete, hfamily, name, he.name?.trans hname,
      halike.name?.trans hsame⟩

/-- The only definition of a composite is the first one in both stores. -/
theorem completion?_eq (hunique : s.UniqueDefinitions) {p : Placed} (hp : p ∈ s.entries)
    (htag : p.entry.tag.isComposite = true) (he : p.entry.Alike e') :
    t.completion? e' = s.completion? p.entry := by
  unfold completion?
  rw [he.isDeclaration]
  -- a definition is looked for on behalf of declarations only
  split
  · rename_i hdeclared
    cases hs : TypeGraph.definition? s p.entry with
    | none =>
      cases ht : TypeGraph.definition? t e' with
      | none => rfl
      | some ref =>
        have hcompletes := (h.completes_iff he).1 (completes_of_definition? ht)
        obtain ⟨ref', href'⟩ := exists_definition? hcompletes
        rw [hs] at href'
        exact absurd href' (by simp)
    | some ref =>
      have hcompletes := completes_of_definition? hs
      obtain ⟨ref', href'⟩ := exists_definition? ((h.completes_iff he).2 hcompletes)
      have hcompletes' := (h.completes_iff he).1 (completes_of_definition? href')
      -- both are definitions that complete the declaration, of which there is one
      rw [href', hunique p hp htag hdeclared ref ref' hcompletes hcompletes']
  · rfl

end SameEntries

end Store

-- ---------------------------------------------------------------------------
-- The building
-- ---------------------------------------------------------------------------

namespace TypeGraph

open Build
open Entry (Alike)

variable {s t : Store} {e e' : Entry} {es es' : List Entry} {recurse : Recurse} {target : Target}
variable {α : Type} {ref : Int} {usedBy : Option Int}

/-- Two steps are the same if they do the same from every state. -/
theorem build_ext {x y : Build α} (h : ∀ state, x.exec state = y.exec state) : x = y := funext h

/-- What is done with an entry is the same if it is for alike ones. -/
theorem entry_bind_eq (h : s.SameEntries t) {f f' : Entry → Build α}
    (hf : ∀ e e', e.Alike e' → f' e' = f e) :
    (entry t ref usedBy >>= f') = (entry s ref usedBy >>= f) := by
  refine build_ext fun state => ?_
  rw [exec_bind, exec_bind, exec_entry, exec_entry]
  rcases h.entry?_cases ref with ⟨hs, ht⟩ | ⟨p, -, e', hs, ht, halike⟩
  · rw [hs, ht]
  · rw [hs, ht]
    exact congrArg (Build.exec · state) (hf p.entry e' halike)

/-- Whether there is an entry of a reference does not depend on the order of the store. -/
theorem discard_entry_eq (h : s.SameEntries t) :
    (discard (entry t ref usedBy) : Build Unit) = discard (entry s ref usedBy) := by
  have hmap : ∀ u : Store, (discard (entry u ref usedBy) : Build Unit) =
      entry u ref usedBy >>= fun _ => pure () := by
    intro u
    refine build_ext fun state => ?_
    show Build.exec (_ <$> _) state = _
    rw [exec_map, exec_bind]
    rcases (entry u ref usedBy).exec state with ⟨outcome, state'⟩
    cases outcome <;> rfl
  rw [hmap, hmap, entry_bind_eq h fun _ _ _ => rfl]

/-- What is left of a type without qualifiers and typedefs is the same in both stores, for
everything that only looks at the entry. -/
theorem peel_bind_eq (h : s.SameEntries t) {f f' : Option Entry → Build α}
    (hnone : f' none = f none) (hsome : ∀ e e', e.Alike e' → f' (some e') = f (some e))
    (steps : Nat) (visited : List Int) (he : e.Alike e') :
    (peel t steps visited e' >>= f') = (peel s steps visited e >>= f) := by
  induction steps generalizing visited e e' with
  | zero => exact hnone
  | succ steps ih =>
    unfold peel
    rw [he.tag, he.ref, he.typeRef?]
    split
    · exact hsome e e' he
    · split
      · exact hnone
      · split
        · exact hnone
        · rw [bind_assoc, bind_assoc]
          exact entry_bind_eq h fun next next' hnext => ih _ hnext

/-- A pointer is the same in both stores: all that it asks them for is whether its target is a
function. -/
theorem buildPointer_eq (h : s.SameEntries t) (he : e.Alike e') :
    buildPointer t target e' = buildPointer s target e := by
  unfold buildPointer
  rw [he.typeRef?, he.byteSize?, he.ref, he.name?, he.tag, h.listed.size_eq]
  extract_lets size jp
  split
  · rfl
  · refine entry_bind_eq h fun pointed pointed' hpointed => ?_
    refine peel_bind_eq h rfl (fun bare bare' hbare => ?_) _ _ hpointed
    simp only [Option.any_some, hbare.tag]

/-- The parameters of a signature are the same in both stores. -/
theorem parametersOf_eq (h : s.SameEntries t) (hes : List.Forall₂ Alike es es') :
    parametersOf t es' = parametersOf s es := by
  induction hes with
  | nil => rfl
  | cons hc _ ih => simp only [parametersOf, hc.tag, hc.typeRef?, hc.ref, discard_entry_eq h, ih]

theorem isVariadic_eq (hes : List.Forall₂ Alike es es') :
    es'.any (·.tag = Tag.unspecifiedParameters) = es.any (·.tag = Tag.unspecifiedParameters) := by
  induction hes with
  | nil => rfl
  | cons hc _ ih => rw [List.any_cons, List.any_cons, hc.tag, ih]

/-- A signature is the same in both stores. -/
theorem buildSignature_eq (h : s.SameEntries t) (he : e.Alike e')
    (htag : e.tag = Tag.subroutineType) : buildSignature t e' = buildSignature s e := by
  have hchildren := he.children (by rw [htag]; decide)
  simp only [buildSignature, he.typeRef?, he.ref, he.name?, discard_entry_eq h,
    parametersOf_eq h hchildren, isVariadic_eq hchildren]

/-- A declared composite is completed alike in both stores, since there is only one definition to
find. -/
theorem buildComposite_eq (h : s.SameEntries t) (hunique : s.UniqueDefinitions) {p : Placed}
    (hp : p ∈ s.entries) (htag : p.entry.tag.isComposite = true) (he : p.entry.Alike e') :
    buildComposite recurse t target e' = buildComposite recurse s target p.entry := by
  have hcompletion : (if e'.isDeclaration then definition? t e' else none) =
      if p.entry.isDeclaration then definition? s p.entry else none :=
    h.completion?_eq hunique hp htag he
  unfold buildComposite
  rw [hcompletion, he.ref, buildBody_eq he htag]

/-- Any entry is built alike in both stores, whatever the way to build the types that it needs
is. -/
theorem buildEntry_eq (h : s.SameEntries t) (hunique : s.UniqueDefinitions) {p : Placed}
    (hp : p ∈ s.entries) (he : p.entry.Alike e') :
    buildEntry recurse t target e' = buildEntry recurse s target p.entry := by
  unfold buildEntry
  rw [he.tag]
  split
  · exact buildAlias_eq he
  split
  · exact buildPointer_eq h he
  split
  · rename_i htag
    exact buildComposite_eq h hunique hp htag he
  split
  · exact buildBaseType_eq he
  split
  · rename_i htag
    exact buildEnum_eq he htag
  split
  · rename_i htag
    exact buildArray_eq he htag
  split
  · rename_i htag
    exact buildSignature_eq h he htag
  · rw [he.ref, he.name?, he.byteSize?]

/-- Types are built in the same way from stores that hold the same entries. -/
theorem buildRef_eq (h : s.SameEntries t) (hunique : s.UniqueDefinitions) (target : Target)
    (depth : Nat) : buildRef t target depth = buildRef s target depth := by
  induction depth with
  | zero => rfl
  | succ depth ih =>
    funext ref usedBy
    refine build_ext fun state => ?_
    rw [exec_buildRef, exec_buildRef, ih]
    split
    · rfl
    · cases state.failures.get? ref with
      | some fault => rfl
      | none =>
        -- neither store has an entry, or both have one and the entries are alike
        rcases h.entry?_cases ref with ⟨hs, ht⟩ | ⟨p, hp, e', hs, ht, halike⟩
        · rw [hs, ht]
        · rw [hs, ht]
          show concluded e'.ref _ = concluded p.entry.ref _
          rw [halike.ref, buildEntry_eq h hunique hp halike]

end TypeGraph

end DebugLayout
