import DebugLayout.Entry.Basic

/-!
# DebugLayout — stores of debug entries

A **store** holds the entries of a program in document order, each with the entries around it, and
an **index**, by which it finds an entry by its reference. References are unique: adding a tree
stops at the first entry whose reference is taken, and the entries before it stay.

A tree is walked with a **stack** of the entries that are still to be added. The entry on top is
added, and the entries inside it take its place, the first of them on top.

* `Placed`: an entry with the entries around it;
* `Store.addEntry`, `addPending`: one entry, and the entries on a stack;
* `Store.addRoot`: a store with one more tree, as far as it went;
* `Store.resolve?`: the entry of a reference.
-/

namespace DebugLayout

/-- An entry with the entries around it, the innermost first. -/
structure Placed where
  entry : Entry
  ancestors : List Entry

/-- Why an entry or a tree of entries is refused. -/
inductive StoreFault
  | badReference
  | duplicate (ref : Int)
  deriving DecidableEq, Repr

/-- The wording of a fault. -/
def StoreFault.message : StoreFault → String
  | badReference => "ref_id must be an integer"
  | duplicate ref => "Duplicate ref-id <" ++ Text.hexLower ref ++ ">"

/-- The reference that a value is, which only an integer can be. -/
def readReference (v : Value) : Except StoreFault Int :=
  match v.int? with
  | some ref => .ok ref
  | none => .error .badReference

namespace Entry

mutual

/-- The number of entries in a tree. -/
def count : Entry → Nat
  | node _ _ _ children => countAll children + 1

/-- The number of entries in some trees. -/
def countAll : List Entry → Nat
  | [] => 0
  | e :: es => count e + countAll es

end

theorem countAll_append (front back : List Entry) :
    countAll (front ++ back) = countAll front + countAll back := by
  induction front with
  | nil => simp [countAll]
  | cons e es ih => rw [List.cons_append, countAll, countAll, ih, Nat.add_assoc]

theorem count_eq (e : Entry) : e.count = countAll e.children + 1 := by
  obtain ⟨ref, tag, attributes, children⟩ := e
  rw [count]
  rfl

end Entry

namespace Placed

/-- The reference of the entry around this one. -/
def parent? (p : Placed) : Option Int := p.ancestors.head?.map Entry.ref

/-- The outermost entry around this one, or the entry itself. -/
def root (p : Placed) : Entry := p.ancestors.getLast?.getD p.entry

/-- The entries directly inside this one, in document order. -/
def inside (p : Placed) : List Placed := p.entry.children.map fun e => ⟨e, p.entry :: p.ancestors⟩

theorem map_entry_inside (p : Placed) : p.inside.map Placed.entry = p.entry.children := by
  rw [inside, List.map_map]
  exact List.map_id p.entry.children

end Placed

/-- The entry of a reference in a list of entries. -/
def findRef (ref : Int) (entries : List Placed) : Option Placed :=
  entries.find? fun p => p.entry.ref = ref

/-- The entries of a program in document order, and the index of them by reference. -/
structure Store where
  roots : List Entry
  entries : List Placed
  index : OrderedMap Int Placed
  /-- The index finds what a search of the entries finds. -/
  indexed : ∀ ref, index.get? ref = findRef ref entries

/-- An entry with a reference of its own that is listed and indexed is found by both. -/
theorem indexed_insert {entries : List Placed} {index : OrderedMap Int Placed} {p : Placed}
    (h : ∀ ref, index.get? ref = findRef ref entries) (hfree : ¬index.contains p.entry.ref = true)
    (ref : Int) : (index.insert p.entry.ref p).get? ref = findRef ref (entries ++ [p]) := by
  have hnone : findRef p.entry.ref entries = none := by
    rw [← h]
    exact Option.not_isSome_iff_eq_none.1 hfree
  rw [OrderedMap.get?_insert, findRef, List.find?_append]
  by_cases href : p.entry.ref = ref
  · subst href
    rw [if_pos rfl, ← findRef, hnone]
    simp
  · rw [if_neg href, h, findRef]
    simp [href]

namespace Store

/-- The store without entries. -/
def empty : Store := ⟨[], [], .empty, fun _ => rfl⟩

/-- A store with one more entry, the last one in order, unless its reference is taken. -/
def addEntry (s : Store) (p : Placed) : Except StoreFault Store :=
  if h : s.index.contains p.entry.ref = true then .error (.duplicate p.entry.ref)
  else .ok ⟨s.roots, s.entries ++ [p], s.index.insert p.entry.ref p, indexed_insert s.indexed h⟩

/-- A store with the entries on a stack and those inside them, the top of the stack first, and the
fault that stopped it, if any. -/
@[semireducible]
def addPending (s : Store) (stack : List Placed) : Store × Option StoreFault :=
  match stack with
  | [] => (s, none)
  | p :: rest =>
    match s.addEntry p with
    | .ok t => addPending t (p.inside ++ rest)
    | .error fault => (s, some fault)
-- every round takes one entry off the stack, and leaves those inside it
termination_by Entry.countAll (stack.map Placed.entry)
decreasing_by
  rw [List.map_append, Placed.map_entry_inside, Entry.countAll_append, List.map_cons,
    Entry.countAll, Entry.count_eq]
  omega

/-- A store with one more tree, and the fault that stopped it, if any. The root counts as a root in
either case. -/
def addRoot (s : Store) (root : Entry) : Store × Option StoreFault :=
  addPending { s with roots := s.roots ++ [root] } [⟨root, []⟩]

/-- The store of some trees, if all their references differ. -/
def ofRoots (roots : List Entry) : Except StoreFault Store :=
  roots.foldlM (fun s root =>
    match s.addRoot root with
    | (s, none) => .ok s
    | (_, some fault) => .error fault) empty

/-- The entry of a reference. -/
def resolve? (s : Store) (ref : Int) : Option Placed := s.index.get? ref

/-- A reference leads to the first entry that has it. -/
theorem resolve?_eq (s : Store) (ref : Int) : s.resolve? ref = findRef ref s.entries :=
  s.indexed ref

/-- The number of entries. -/
def size (s : Store) : Nat := s.entries.length

end Store

end DebugLayout
