import DebugLayout.Program.Variable
import DebugLayout.Proofs.ObjectFile.Entries
import DebugLayout.Proofs.Scalar.Decode

/-!
# DebugLayout — where variables of a file are

The location of a variable is an **expression**, a list of operations with their operands. It gives
a static address if it is a single operation, the one that pushes an absolute address: any operation
behind that makes another place of it, a piece of the variable, an offset, or an offset into the
storage of a thread. The decoding looks at the first operation alone and takes its address even if
the expression runs on behind it.

The location is an attribute of the entry like any other, and so it has to be known what becomes of
an attribute when an entry is decoded: those that cannot be represented are left out, and a name
stands for one attribute only.

* `FormValue.expression`, `staticAddress?`: expressions and their static addresses;
* `decodeLocation_expression`: what the decoding of an expression looks at;
* `RunsOn`, `staticAddress?_take_eq_iff`: the expressions of which that is too little;
* `get?_of_converts`, `location?_of_converts`: the decoded attributes and location of an entry;
* `location?_eq_staticAddress?_iff`: the location of a variable.
-/

namespace DebugLayout

-- ---------------------------------------------------------------------------
-- Expressions
-- ---------------------------------------------------------------------------

/-- The value of an attribute that is an expression, by its bytes. -/
def FormValue.expression (data : List UInt8) : FormValue :=
  .block (data.map fun b => (b.toNat : Int))

/-- The address that an expression stands for: that of its only operation, if it is the one that
pushes an absolute address and has exactly the bytes of an address for operands. -/
def staticAddress? (order : Endianness) (addressSize : Nat) : List UInt8 → Option Int
  | [] => none
  | operation :: operands =>
    if (operation.toNat : Int) = opAddress ∧ operands.length = addressSize then
      some (denoted order operands)
    else none

/-- Whether an expression goes on behind an operation that pushes an absolute address. -/
def RunsOn (addressSize : Nat) (data : List UInt8) : Prop :=
  ∃ operation operands rest, data = operation :: (operands ++ rest) ∧
    (operation.toNat : Int) = opAddress ∧ operands.length = addressSize ∧ rest ≠ []

/-- Bytes that are given as numbers are read as bytes. -/
theorem toBytes?_map (data : List UInt8) :
    toBytes? (data.map fun b => (b.toNat : Int)) = some data := by
  have hall : (data.map fun b => (b.toNat : Int)).all (fun n => 0 ≤ n && n < 256) = true := by
    simp only [List.all_map, List.all_eq_true, Function.comp_apply, Bool.and_eq_true,
      decide_eq_true_eq]
    intro b _
    have := b.toNat_lt
    omega
  rw [toBytes?, if_pos hall, List.map_map]
  simp [Function.comp_def]

/-- The decoding of an expression takes the static address of its first bytes, as many as an
operation with an address has. -/
theorem decodeLocation_expression (order : Endianness) (addressSize : Nat) (data : List UInt8) :
    decodeLocation order addressSize (.expression data) =
      .ok (staticAddress? order addressSize (data.take (addressSize + 1))) := by
  cases data with
  | nil => rfl
  | cons operation operands =>
    rw [FormValue.expression, List.map_cons, decodeLocation, List.length_map, List.take_succ_cons,
      staticAddress?, List.length_take, ← List.map_take, toBytes?_map]
    by_cases hshort : operands.length < addressSize
    · have hlength : ¬min addressSize operands.length = addressSize := by omega
      simp [hshort, hlength]
    · have hlength : min addressSize operands.length = addressSize := by omega
      by_cases hoperation : (operation.toNat : Int) = opAddress
      · simp [hshort, hlength, hoperation, unsignedValue_eq_denoted]
      · simp [hoperation]

/-- The first bytes of an expression have another static address than the whole of it exactly if it
runs on. -/
theorem staticAddress?_take_eq_iff (order : Endianness) (addressSize : Nat) (data : List UInt8) :
    staticAddress? order addressSize (data.take (addressSize + 1)) =
      staticAddress? order addressSize data ↔ ¬RunsOn addressSize data := by
  cases data with
  | nil =>
    refine iff_of_true rfl ?_
    rintro ⟨operation, operands, rest, hdata, -⟩
    exact absurd hdata (by simp)
  | cons operation operands =>
    rw [List.take_succ_cons, staticAddress?, staticAddress?, List.length_take]
    -- the two readings differ only where there is more than an address behind the operation
    by_cases hfits : operands.length ≤ addressSize
    · rw [List.take_of_length_le hfits, Nat.min_eq_right hfits]
      refine iff_of_true rfl ?_
      rintro ⟨operation', operands', rest, hdata, -, hlength, hrest⟩
      obtain ⟨-, rfl⟩ := List.cons.inj hdata
      have hpos := List.length_pos_iff.2 hrest
      rw [List.length_append] at hfits
      omega
    · have hlength : min addressSize operands.length = addressSize := by omega
      have hlong : ¬operands.length = addressSize := by omega
      by_cases hoperation : (operation.toNat : Int) = opAddress
      · rw [if_pos ⟨hoperation, hlength⟩, if_neg fun h => hlong h.2]
        refine iff_of_false (by simp) fun hends => hends ?_
        refine ⟨operation, operands.take addressSize, operands.drop addressSize, ?_, hoperation,
          by rw [List.length_take, hlength], ?_⟩
        · rw [List.take_append_drop]
        · rw [Ne, List.drop_eq_nil_iff]
          exact hfits
      · rw [if_neg fun h => hoperation h.1, if_neg fun h => hoperation h.1]
        refine iff_of_true rfl ?_
        rintro ⟨operation', operands', rest, hdata, hoperation', -⟩
        obtain ⟨rfl, -⟩ := List.cons.inj hdata
        exact hoperation hoperation'

-- ---------------------------------------------------------------------------
-- Attributes of decoded entries
-- ---------------------------------------------------------------------------

/-- Decoding adds no attribute. -/
theorem keys_of_decodeEach {ctx : DecodingContext} {label : String}
    {attributes : List (String × FormAttribute)} {decoded : List (String × Value)}
    (h : decodeEach ctx label attributes = .ok decoded) :
    decoded.map (·.1) ⊆ attributes.map (·.1) := by
  induction attributes generalizing decoded with
  | nil =>
    obtain rfl := Except.ok.inj h
    exact List.Subset.refl _
  | cons first attributes ih =>
    obtain ⟨name, a⟩ := first
    rw [decodeEach] at h
    obtain ⟨value, -, h⟩ := bind_eq_ok.1 h
    obtain ⟨others, hothers, h⟩ := bind_eq_ok.1 h
    obtain rfl := pure_eq_ok.1 h
    have hrest : others.map (·.1) ⊆ ((name, a) :: attributes).map (·.1) :=
      List.Subset.trans (ih hothers) (List.subset_cons_self _ _)
    cases value with
    | none => exact hrest
    | some v => exact List.cons_subset.2 ⟨List.mem_cons_self, hrest⟩

/-- Each attribute of a name of its own is decoded by itself. -/
theorem get?_of_decodeEach {ctx : DecodingContext} {label : String}
    {attributes : List (String × FormAttribute)} {decoded : List (String × Value)}
    (h : decodeEach ctx label attributes = .ok decoded) (hnodup : (attributes.map (·.1)).Nodup)
    {name : String} {a : FormAttribute} (ha : (name, a) ∈ attributes) :
    decodeAttribute ctx label name a = .ok (OrderedMap.lookupIn name decoded) := by
  induction attributes generalizing decoded with
  | nil => exact absurd ha List.not_mem_nil
  | cons first attributes ih =>
    obtain ⟨name', a'⟩ := first
    rw [decodeEach] at h
    obtain ⟨value, hvalue, h⟩ := bind_eq_ok.1 h
    obtain ⟨others, hothers, h⟩ := bind_eq_ok.1 h
    obtain rfl := pure_eq_ok.1 h
    rw [List.map_cons, List.nodup_cons] at hnodup
    rcases List.mem_cons.1 ha with heq | ha
    · obtain ⟨rfl, rfl⟩ := Prod.mk.inj heq
      rw [hvalue]
      cases value with
      | some v => simp [OrderedMap.lookupIn]
      | none =>
        -- the attribute has been left out, and no later one has its name
        have hnone : OrderedMap.lookupIn name others = none := by
          rw [← Option.not_isSome_iff_eq_none, OrderedMap.lookupIn_isSome]
          exact fun hmem => hnodup.1 (keys_of_decodeEach hothers hmem)
        simp [hnone]
    · have hne : name' ≠ name := by
        rintro rfl
        exact hnodup.1 (List.mem_map.2 ⟨_, ha, rfl⟩)
      rw [ih hothers hnodup.2 ha]
      cases value <;> simp [OrderedMap.lookupIn, hne]

/-- What an entry has for an attribute is what the attribute of the file is decoded to. -/
theorem get?_of_converts {ctx : DecodingContext} {offset : Int} {tag : Option String}
    {attributes : List FormAttribute} {children : List Die} {e : Entry}
    (h : Converts ctx (.node offset tag attributes children) e) {name : String} {a : FormAttribute}
    (ha : (Die.namedAttributes attributes).get? name = some a) :
    decodeAttribute ctx (Die.label (.node offset tag attributes children)) name a =
      .ok (e.attributes.get? name) := by
  have hdecoded := h.attributes
  rw [Die.decodeAttributes] at hdecoded
  obtain ⟨decoded, hdecoded, heq⟩ := map_eq_ok.1 hdecoded
  rw [← heq]
  exact get?_of_decodeEach hdecoded (OrderedMap.distinct_ofList _) (OrderedMap.mem_of_lookupIn ha)

/-- The location of an entry is what its expression is decoded to. -/
theorem location?_of_converts {ctx : DecodingContext} {offset : Int} {tag : Option String}
    {attributes : List FormAttribute} {children : List Die} {e : Entry}
    (h : Converts ctx (.node offset tag attributes children) e) {a : FormAttribute}
    (ha : (Die.namedAttributes attributes).get? Attr.location = some a) :
    decodeLocation ctx.order ctx.addressSize a.value = .ok e.location? := by
  have hdecoded : (decodeLocation ctx.order ctx.addressSize a.value).map (Option.map .int) =
      .ok (e.attributes.get? Attr.location) := get?_of_converts h ha
  obtain ⟨location, hlocation, heq⟩ := map_eq_ok.1 hdecoded
  rw [hlocation, Entry.location?, Entry.attr?, ← heq]
  cases location <;> rfl

-- ---------------------------------------------------------------------------
-- Locations of variables
-- ---------------------------------------------------------------------------

/-- An expression is decoded to the static address of its first bytes, and this is the static
address that it stands for exactly if it does not run on behind it. The same holds of the location
of a variable whose entry in the file has that expression. -/
theorem location?_eq_staticAddress?_iff (order : Endianness) (addressSize : Nat)
    (data : List UInt8) :
    decodeLocation order addressSize (.expression data) =
        .ok (staticAddress? order addressSize (data.take (addressSize + 1))) ∧
      (decodeLocation order addressSize (.expression data) =
          .ok (staticAddress? order addressSize data) ↔ ¬RunsOn addressSize data) ∧
      ∀ {unitOffset offset : Int} {tag : Option String} {attributes : List FormAttribute}
        {children : List Die} {v : Variable} {form : String},
        Converts ⟨order, addressSize, unitOffset⟩ (.node offset tag attributes children) v.entry →
        (Die.namedAttributes attributes).get? Attr.location =
          some ⟨some Attr.location, form, .expression data⟩ →
        (v.location? = staticAddress? order addressSize data ↔ ¬RunsOn addressSize data) := by
  have hdecode := decodeLocation_expression order addressSize data
  refine ⟨hdecode, ?_, ?_⟩
  · rw [hdecode, Except.ok.injEq]
    exact staticAddress?_take_eq_iff order addressSize data
  · intro unitOffset offset tag attributes children v form hconverts ha
    have hlocation : decodeLocation order addressSize (.expression data) = .ok v.location? :=
      location?_of_converts hconverts ha
    rw [eq_of_ok hlocation hdecode]
    exact staticAddress?_take_eq_iff order addressSize data

/-- The entry of a variable whose location is an expression. -/
def locatedDie (data : List UInt8) : Die :=
  .node 7 (some "DW_TAG_variable")
    [⟨some Attr.name, "DW_FORM_string", .bytes [0x78]⟩,
      ⟨some Attr.location, "DW_FORM_exprloc", .expression data⟩] []

/-- An address operation with all its bytes is the location of the variable. -/
theorem location?_eq_staticAddress?_iff_global :
    ∃ e, (locatedDie [0x03, 0x00, 0x10, 0x00, 0x00]).toEntry ⟨.little, 4, 0⟩ = .ok (some e) ∧
      ∀ v : Variable, v.entry = e → v.location? = some 0x1000 := by
  obtain ⟨e, he⟩ : ∃ e, (locatedDie [0x03, 0x00, 0x10, 0x00, 0x00]).toEntry ⟨.little, 4, 0⟩ =
      .ok (some e) := ⟨_, rfl⟩
  refine ⟨e, he, fun v hv => ?_⟩
  have hconverts := (Die.converts_of_toEntry he).1
  rw [← hv] at hconverts
  obtain ⟨-, -, hvariable⟩ :=
    location?_eq_staticAddress?_iff .little 4 [0x03, 0x00, 0x10, 0x00, 0x00]
  have hends : ¬RunsOn 4 [0x03, 0x00, 0x10, 0x00, 0x00] := by
    rintro ⟨operation, operands, rest, hdata, -, hlength, hrest⟩
    have hpos := List.length_pos_iff.2 hrest
    have hlengths := congrArg List.length hdata
    simp only [List.length_cons, List.length_append, List.length_nil] at hlengths
    omega
  rw [(hvariable hconverts rfl).2 hends]
  decide

/-- A variable at an offset into the storage of its thread is located at that offset, as if this
were an address. -/
theorem thread_offset_taken_for_address :
    staticAddress? .little 4 [0x03, 0x10, 0x00, 0x00, 0x00, 0x9b] = none ∧
      decodeLocation .little 4 (.expression [0x03, 0x10, 0x00, 0x00, 0x00, 0x9b]) =
        .ok (some 0x10) ∧
      ∃ e, (locatedDie [0x03, 0x10, 0x00, 0x00, 0x00, 0x9b]).toEntry ⟨.little, 4, 0⟩ =
        .ok (some e) ∧ e.location? = some 0x10 :=
  ⟨by decide, rfl, _, rfl, rfl⟩

end DebugLayout
