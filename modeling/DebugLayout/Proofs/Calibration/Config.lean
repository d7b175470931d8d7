import DebugLayout.Calibration.AxisPolicy
import DebugLayout.Proofs.Value.Check
import Mathlib.Data.List.Nodup

/-!
# DebugLayout — settings and their dictionaries

Settings are read field by field, and each field is what the dictionary has for its key, or else the
default. A dictionary of known fields is therefore read as some settings exactly if these **agree**
with it, and it is read at all exactly if each of its fields holds what the field **permits**.

Reading keeps the axes of a value in what they come in, a list or a tuple, and writing puts them in
lists. So there are two ways to look at the fields of some settings. The fields as they are *given*
determine the settings: they are what is compared with a dictionary that is read. The fields as they
are *written* are those that are given after all axes are put in lists, so that what is read back
are the settings `listed`; these are the same ones exactly if there was no tuple.

That a pattern is accepted is up to the library of regular expressions. Nothing is assumed of it:
whichever patterns it accepts, they stay accepted when they are read back and when the policies are
made. The default patterns are no exception, which is why what a field holds (`held`) counts them
in.

* `stringsField_eq_ok`, `policiesField_eq_ok`, `patternField_eq_ok`, `axesField_eq_ok`,
  `boolField_eq_ok`: how one field is read;
* `Settings.Agrees`, `Settings.Valid`, `ofValue_eq_ok_iff`: the settings that are read;
* `Settings.ofValue_given`, `Settings.ofValue_toValue`: settings are read back from what they are
  given as, and with lists for tuples from what they are written as;
* `Settings.Permits`, `exists_ofValue_eq_ok_iff`: the dictionaries that are read at all;
* `Settings.axisPolicies_eq`, `AxisPolicy.findAxes_ofPolicy`: the policies of some settings.
-/

namespace DebugLayout

-- ---------------------------------------------------------------------------
-- Names of policies
-- ---------------------------------------------------------------------------

namespace Policy

theorem ofName?_name (p : Policy) : ofName? p.name = some p := by
  cases p <;> rfl

theorem ofName?_eq_some {text : String} {p : Policy} : ofName? text = some p ↔ text = p.name := by
  constructor
  · intro h
    rw [ofName?] at h
    have hname := List.find?_some h
    exact (of_decide_eq_true hname).symm
  · rintro rfl
    exact ofName?_name p

/-- No two policies have the same name. -/
theorem name_injective : Function.Injective name := by
  intro p q h
  have hp := ofName?_name p
  rw [h, ofName?_name, Option.some.injEq] at hp
  exact hp.symm

theorem mem_all (p : Policy) : p ∈ all := by
  cases p <;> decide

/-- Names of policies are the names of some policies. -/
theorem exists_map_name {names : List String} (h : ∀ text ∈ names, text ∈ all.map name) :
    ∃ policies : List Policy, policies.map name = names := by
  induction names with
  | nil => exact ⟨[], rfl⟩
  | cons text names ih =>
    obtain ⟨htext, hnames⟩ := List.forall_mem_cons.1 h
    obtain ⟨p, -, rfl⟩ := List.mem_map.1 htext
    obtain ⟨policies, rfl⟩ := ih hnames
    exact ⟨p :: policies, rfl⟩

end Policy

-- ---------------------------------------------------------------------------
-- Axes in lists and in tuples
-- ---------------------------------------------------------------------------

theorem stringsValue_injective : Function.Injective stringsValue := by
  intro texts texts' h
  exact List.map_injective_iff.2 (fun _ _ => Value.text.inj) (Value.list.inj h)

namespace AxisNames

theorem kind_value (axes : AxisNames) :
    axes.value.kind = if axes.isTuple then .tuple else .list := by
  rw [value]
  split <;> rfl

/-- Axes are read from exactly the list or the tuple that they come in. -/
theorem ofValue_eq_ok {label : String} {v : Value} {axes : AxisNames} :
    ofValue label v = .ok axes ↔ v = axes.value := by
  rw [ofValue, map_eq_ok]
  simp only [Value.checkStrings_eq_ok]
  constructor
  · rintro ⟨names, rfl | rfl, rfl⟩ <;> rfl
  · rintro rfl
    obtain ⟨names, isTuple⟩ := axes
    cases isTuple with
    | false => exact ⟨names, .inl rfl, rfl⟩
    | true => exact ⟨names, .inr rfl, rfl⟩

/-- Only a tuple of names changes when it is written as a list. -/
theorem listed_eq_self_iff {axes : AxisNames} : axes.listed = axes ↔ axes.isTuple = false := by
  obtain ⟨names, isTuple⟩ := axes
  simp [listed, ofList, eq_comm]

end AxisNames

namespace Value

/-- A tuple as a list of the same items. -/
def asList : Value → Value
  | tuple items => list items
  | v => v

/-- A value with lists for the tuples in a dictionary. -/
def listed : Value → Value
  | dict fields => dict (fields.map fun e => (e.1, e.2.asList))
  | v => v

theorem asList_value (axes : AxisNames) : axes.value.asList = axes.listed.value := by
  obtain ⟨names, isTuple⟩ := axes
  cases isTuple <;> rfl

end Value

namespace Settings

variable {fields : List (Key × Value)} {key : String} {v : Value} {library : RegexLibrary}

-- ---------------------------------------------------------------------------
-- Fields
-- ---------------------------------------------------------------------------

/-- A field with names is read as those that it lists, or else its default. That it is a list and no
tuple is established before, with the kinds of all fields. -/
theorem stringsField_eq_ok {default items : List String}
    (hkind : ∀ v, Value.field? fields key = some v → v.kind = .list) :
    stringsField fields key default = .ok items ↔
      (Value.field? fields key).or (some (stringsValue default)) = some (stringsValue items) := by
  rw [stringsField]
  cases hv : Value.field? fields key with
  | none =>
    rw [Except.ok.injEq, Option.none_or, Option.some.injEq, stringsValue_injective.eq_iff]
  | some v =>
    rw [mapError_eq_ok, Value.checkStrings_eq_ok, Option.some_or, Option.some.injEq]
    refine ⟨fun h => h.resolve_right ?_, .inl⟩
    rintro rfl
    exact absurd (hkind _ hv) (by simp [Value.kind])

/-- Policies are read from their names, and from nothing else. -/
theorem readPolicies_eq_ok {names : List String} {policies : List Policy} :
    readPolicies names = .ok policies ↔ names = policies.map Policy.name := by
  induction names generalizing policies with
  | nil => cases policies <;> simp [readPolicies]
  | cons name names ih =>
    rw [readPolicies]
    split
    · rename_i h
      -- a name that is none of a policy is no name of the policies either
      refine iff_of_false (by simp) fun hnames => ?_
      cases policies with
      | nil => simp at hnames
      | cons p policies =>
        rw [(List.cons.inj hnames).1, Policy.ofName?_name] at h
        exact absurd h (by simp)
    · rename_i p h
      rw [map_eq_ok]
      constructor
      · rintro ⟨rest, hrest, rfl⟩
        rw [List.map_cons, ← ih.1 hrest, Policy.ofName?_eq_some.1 h]
      · intro hnames
        cases policies with
        | nil => simp at hnames
        | cons q policies =>
          obtain ⟨hname, hnames⟩ := List.cons.inj hnames
          rw [hname, Policy.ofName?_name, Option.some.injEq] at h
          exact ⟨policies, ih.2 hnames, by rw [h]⟩

/-- The order of the policies is the one that is named, or else the default, if it names none
twice. -/
theorem policiesField_eq_ok {default policies : List Policy} (hdefault : default.Nodup)
    (hkind : ∀ v, Value.field? fields "policy_order" = some v → v.kind = .list) :
    policiesField fields default = .ok policies ↔
      (Value.field? fields "policy_order").or (some (stringsValue (default.map Policy.name))) =
        some (stringsValue (policies.map Policy.name)) ∧ policies.Nodup := by
  rw [policiesField]
  cases hv : Value.field? fields "policy_order" with
  | none =>
    rw [pure_eq_ok, Option.none_or, Option.some.injEq, stringsValue_injective.eq_iff,
      (List.map_injective_iff.2 Policy.name_injective).eq_iff]
    constructor
    · rintro rfl
      exact ⟨rfl, hdefault⟩
    · exact And.left
  | some v =>
    -- the kinds have been checked, so that the names are in a list
    have htuple : ∀ items, v ≠ .tuple items := by
      rintro items rfl
      exact absurd (hkind _ hv) (by simp [Value.kind])
    simp only [bind_eq_ok, mapError_eq_ok, Value.checkStrings_eq_ok, readPolicies_eq_ok, htuple,
      or_false, Option.some_or, Option.some.injEq]
    constructor
    · rintro ⟨names, rfl, read, rfl, h⟩
      split at h
      · rename_i hnodup
        obtain rfl := pure_eq_ok.1 h
        exact ⟨rfl, hnodup⟩
      · exact absurd h throw_ne_ok
    · rintro ⟨rfl, hnodup⟩
      exact ⟨_, rfl, policies, rfl, by rw [if_pos hnodup, pure_eq_ok]⟩

/-- A text is read as it is given, and the default where it is not. -/
theorem textField_eq_ok {default text : String} :
    textField fields key default = .ok text ↔
      (Value.field? fields key).or (some (.text default)) = some (.text text) := by
  rw [textField]
  cases Value.field? fields key with
  | none => rw [Except.ok.injEq, Option.none_or, Option.some.injEq, Value.text.injEq]
  | some v =>
    rw [mapError_eq_ok, Value.checkText_eq_ok, Option.some_or, Option.some.injEq]

/-- A pattern is the text that is given, or else the default, if the library accepts it. -/
theorem patternField_eq_ok {default source : String} :
    patternField library fields key default = .ok source ↔
      (Value.field? fields key).or (some (.text default)) = some (.text source) ∧
        library.Accepts source := by
  simp only [patternField, bind_eq_ok, textField_eq_ok]
  constructor
  · rintro ⟨text, htext, h⟩
    split at h
    · rename_i search hsearch
      obtain rfl := pure_eq_ok.1 h
      exact ⟨htext, search, hsearch⟩
    · exact absurd h throw_ne_ok
  · rintro ⟨htext, search, hsearch⟩
    exact ⟨source, htext, by rw [hsearch, pure_eq_ok]⟩

/-- The dictionary of some axes that are given explicitly. -/
def axesValue (axes : List (String × AxisNames)) : Value :=
  .dict (axes.map fun e => (.text e.1, e.2.value))

/-- Whether there are one or two axes for each value. -/
def AxesFit (axes : List (String × AxisNames)) : Prop :=
  ∀ e ∈ axes, e.2.names.length = 1 ∨ e.2.names.length = 2

theorem axesFit_cons {value : String} {names : AxisNames} {axes : List (String × AxisNames)} :
    AxesFit ((value, names) :: axes) ↔
      (names.names.length = 1 ∨ names.names.length = 2) ∧ AxesFit axes :=
  List.forall_mem_cons

/-- Axes are read from exactly the entries that give them, which have texts for keys. -/
theorem readAxes_eq_ok {entries : List (Key × Value)} {axes : List (String × AxisNames)} :
    readAxes entries = .ok axes ↔ .dict entries = axesValue axes ∧ AxesFit axes := by
  rw [axesValue, Value.dict.injEq]
  induction entries generalizing axes with
  | nil => cases axes <;> simp [readAxes, AxesFit]
  | cons entry entries ih =>
    obtain ⟨value | ⟨kind, shown, hkind⟩, v⟩ := entry
    · simp only [readAxes, bind_eq_ok, mapError_eq_ok, AxisNames.ofValue_eq_ok]
      constructor
      · rintro ⟨names, rfl, h⟩
        -- one or two names are needed
        split at h
        · rename_i hlength
          obtain ⟨others, hothers, h⟩ := bind_eq_ok.1 h
          obtain ⟨hentries, hfit⟩ := ih.1 hothers
          obtain rfl := pure_eq_ok.1 h
          exact ⟨by rw [hentries]; rfl, axesFit_cons.2 ⟨hlength, hfit⟩⟩
        · exact absurd h throw_ne_ok
      · rintro ⟨hentries, hfit⟩
        cases axes with
        | nil => simp at hentries
        | cons first axes =>
          obtain ⟨name, names⟩ := first
          obtain ⟨hentry, hrest⟩ := List.cons.inj hentries
          obtain ⟨hkey, rfl⟩ := Prod.mk.inj hentry
          obtain rfl := Key.text.inj hkey
          obtain ⟨hlength, hfit⟩ := axesFit_cons.1 hfit
          refine ⟨names, rfl, ?_⟩
          rw [if_pos hlength, bind_eq_ok]
          exact ⟨axes, ih.2 ⟨hrest, hfit⟩, rfl⟩
    · -- a key that is no text is refused, and no axes are written under such a key
      refine iff_of_false (by simp [readAxes]) ?_
      rintro ⟨hentries, -⟩
      cases axes with
      | nil => simp at hentries
      | cons first axes =>
        obtain ⟨hentry, -⟩ := List.cons.inj hentries
        exact absurd (Prod.mk.inj hentry).1 (by simp)

/-- The keys of a dict of axes are the names of the values. -/
theorem keys_axesValue {entries : List (Key × Value)} {axes : List (String × AxisNames)}
    (h : .dict entries = axesValue axes) :
    entries.map (·.1) = (axes.map (·.1)).map Key.text := by
  rw [axesValue, Value.dict.injEq] at h
  rw [h, List.map_map, List.map_map]
  rfl

/-- Whether no value is listed twice in the dictionary of the explicit axes, as in no dictionary. -/
def KeysDistinct (fields : List (Key × Value)) : Prop :=
  ∀ entries, Value.field? fields "explicit_axes" = some (.dict entries) →
    (entries.map (·.1)).Nodup

/-- Axes that are given for different values are all read, in their order. -/
theorem axesField_eq_ok {m : OrderedMap String AxisNames} (hkeys : KeysDistinct fields) :
    axesField fields .empty = .ok m ↔
      (Value.field? fields "explicit_axes").or (some (axesValue [])) =
        some (axesValue m.entries) ∧ m.Distinct ∧ AxesFit m.entries := by
  rw [axesField]
  cases hfield : Value.field? fields "explicit_axes" with
  | none =>
    rw [Except.ok.injEq, Option.none_or, Option.some.injEq]
    constructor
    · rintro rfl
      exact ⟨rfl, OrderedMap.distinct_empty, by simp [AxesFit]⟩
    · rintro ⟨hvalue, -, -⟩
      -- nothing is given, so that there are no axes
      have hentries : m.entries = [] := by
        simpa using (keys_axesValue hvalue).symm
      exact congrArg OrderedMap.mk hentries.symm
  | some v =>
    rw [Option.some_or, Option.some.injEq]
    cases v with
    | dict entries =>
      simp only [map_eq_ok, readAxes_eq_ok]
      have hnodup := hkeys entries hfield
      constructor
      · rintro ⟨axes, ⟨hvalue, hfit⟩, rfl⟩
        rw [keys_axesValue hvalue] at hnodup
        rw [OrderedMap.entries_ofList (hnodup.of_map _)]
        exact ⟨hvalue, OrderedMap.distinct_ofList axes, hfit⟩
      · rintro ⟨hvalue, hdistinct, hfit⟩
        have hm : OrderedMap.ofList m.entries = m :=
          congrArg OrderedMap.mk (OrderedMap.entries_ofList hdistinct)
        exact ⟨m.entries, ⟨hvalue, hfit⟩, hm⟩
    | null | bool | int | float | text | list | tuple => simp [axesValue]

/-- A flag is read as it is given, and the default where it is not. -/
theorem boolField_eq_ok {default b : Bool} :
    boolField fields key default = .ok b ↔
      (Value.field? fields key).or (some (.bool default)) = some (.bool b) := by
  rw [boolField]
  cases Value.field? fields key with
  | none => simp
  | some v => cases v <;> simp

-- ---------------------------------------------------------------------------
-- Dictionaries
-- ---------------------------------------------------------------------------

/-- Settings are read from a dictionary exactly if each of their fields is. -/
theorem ofFields_eq_ok {s : Settings} :
    ofFields library fields = .ok s ↔
      stringsField fields "x_axis_member_names" default.xAxisMembers = .ok s.xAxisMembers ∧
      stringsField fields "y_axis_member_names" default.yAxisMembers = .ok s.yAxisMembers ∧
      stringsField fields "value_member_names" default.valueMembers = .ok s.valueMembers ∧
      stringsField fields "x_suffixes" default.xSuffixes = .ok s.xSuffixes ∧
      stringsField fields "y_suffixes" default.ySuffixes = .ok s.ySuffixes ∧
      stringsField fields "x_prefixes" default.xPrefixes = .ok s.xPrefixes ∧
      stringsField fields "y_prefixes" default.yPrefixes = .ok s.yPrefixes ∧
      policiesField fields default.policies = .ok s.policies ∧
      patternField library fields "positional_axis_pattern" default.axisPattern =
        .ok s.axisPattern ∧
      patternField library fields "positional_value_pattern" default.valuePattern =
        .ok s.valuePattern ∧
      axesField fields default.explicitAxes = .ok s.explicitAxes ∧
      boolField fields "check_monotonic" default.checkMonotonic = .ok s.checkMonotonic := by
  simp only [ofFields, bind_eq_ok, pure_eq_ok]
  constructor
  · rintro ⟨_, h₁, _, h₂, _, h₃, _, h₄, _, h₅, _, h₆, _, h₇, _, h₈, _, h₉, _, h₁₀, _, h₁₁, _, h₁₂,
      rfl⟩
    exact ⟨h₁, h₂, h₃, h₄, h₅, h₆, h₇, h₈, h₉, h₁₀, h₁₁, h₁₂⟩
  · rintro ⟨h₁, h₂, h₃, h₄, h₅, h₆, h₇, h₈, h₉, h₁₀, h₁₁, h₁₂⟩
    exact ⟨_, h₁, _, h₂, _, h₃, _, h₄, _, h₅, _, h₆, _, h₇, _, h₈, _, h₉, _, h₁₀, _, h₁₁, _, h₁₂,
      rfl⟩

/-- What a field holds: the value that a dictionary has for it, or else the default. -/
def held (fields : List (Key × Value)) (key : String) : Option Value :=
  (Value.field? fields key).or (Value.field? default.given key)

/-- Whether each field of some settings is as it is given, or else the default. -/
def Agrees (fields : List (Key × Value)) (s : Settings) : Prop :=
  ∀ key, Value.field? s.given key = held fields key

/-- Whether no policy is repeated, the library accepts the patterns, and one or two axes are given
for different values. -/
structure Valid (library : RegexLibrary) (s : Settings) : Prop where
  policies : s.policies.Nodup
  axisPattern : library.Accepts s.axisPattern
  valuePattern : library.Accepts s.valuePattern
  distinct : s.explicitAxes.Distinct
  axes : AxesFit s.explicitAxes.entries

/-- Whether all keys of a dictionary are those of fields. -/
def Known (fields : List (Key × Value)) : Prop := ∀ key ∈ fields.map (·.1), key ∈ keys.map Key.text

theorem text_mem_keys_iff : Key.text key ∈ keys.map Key.text ↔ key ∈ keys :=
  List.mem_map_of_injective fun _ _ => Key.text.inj

theorem keys_given (s : Settings) : s.given.map (·.1) = keys.map Key.text := rfl

theorem field?_given_of_not_mem {s : Settings} (h : key ∉ keys) :
    Value.field? s.given key = none := by
  rw [Value.field?_eq_none_iff, keys_given, text_mem_keys_iff]
  exact h

/-- A property of all keys of fields, one by one. -/
theorem forall_keys_iff {P : String → Prop} :
    (∀ key ∈ keys, P key) ↔
      P "x_axis_member_names" ∧ P "y_axis_member_names" ∧ P "value_member_names" ∧
      P "policy_order" ∧ P "x_suffixes" ∧ P "y_suffixes" ∧ P "x_prefixes" ∧ P "y_prefixes" ∧
      P "positional_axis_pattern" ∧ P "positional_value_pattern" ∧ P "explicit_axes" ∧
      P "check_monotonic" := by
  simp only [keys, fieldKinds, List.map_cons, List.map_nil, List.forall_mem_cons,
    List.not_mem_nil, false_implies, implies_true, and_true]

/-- Settings agree with some fields if they hold under each key what the fields hold there, or the
default. -/
theorem agrees_iff {s : Settings} (hknown : Known fields) :
    Agrees fields s ↔ ∀ key ∈ keys, Value.field? s.given key = held fields key := by
  refine ⟨fun h key _ => h key, fun h key => ?_⟩
  by_cases hkey : key ∈ keys
  · exact h key hkey
  · have hfields : Value.field? fields key = none :=
      Value.field?_eq_none_iff.2 fun hmem => hkey (text_mem_keys_iff.1 (hknown _ hmem))
    rw [held, field?_given_of_not_mem hkey, field?_given_of_not_mem hkey, hfields]
    rfl

/-- No key is unsupported if all of them are known. -/
theorem unsupported?_eq_none_iff : unsupported? fields = none ↔ Known fields := by
  simp only [unsupported?, Known, List.find?_eq_none, Bool.not_eq_true', Bool.not_eq_false,
    List.contains_iff_mem]

/-- The kinds are right if each field that is there has the kind that is asked of it. -/
theorem checkKinds_eq_ok {kinds : List (String × Kind)} :
    checkKinds fields kinds = .ok () ↔
      ∀ e ∈ kinds, ∀ v, Value.field? fields e.1 = some v → v.kind = e.2 := by
  induction kinds with
  | nil => simp [checkKinds]
  | cons e kinds ih =>
    obtain ⟨key, kind⟩ := e
    rw [checkKinds, List.forall_mem_cons]
    -- a field that is missing passes
    split
    · rename_i h
      simp [h, ih]
    · rename_i v h
      have hcheck : v.check key [kind] = .ok () ↔ v.kind = kind := by
        rw [Value.check_eq_ok, List.mem_singleton]
      split
      · rename_i fault hfault
        refine iff_of_false (by simp) fun hkinds => ?_
        rw [hcheck.2 (hkinds.1 v h)] at hfault
        exact absurd hfault (by simp)
      · rename_i hpass
        simp [h, ih, hcheck.1 hpass]

/-- What agrees with some settings is of the right kinds. -/
theorem checkKinds_of_agrees {s : Settings} (h : Agrees fields s) :
    checkKinds fields fieldKinds = .ok () := by
  have hgiven : checkKinds s.given fieldKinds = .ok () := rfl
  rw [checkKinds_eq_ok] at hgiven ⊢
  intro e he v hv
  refine hgiven e he v ?_
  rw [h, held, hv, Option.some_or]

/-- The fields of the right kinds that settings are read from are those that agree with them. -/
theorem ofFields_eq_ok_iff_agrees {s : Settings} (hknown : Known fields)
    (hkinds : checkKinds fields fieldKinds = .ok ()) (hkeys : KeysDistinct fields) :
    ofFields library fields = .ok s ↔ Agrees fields s ∧ s.Valid library := by
  have hlist : ∀ key, (key, Kind.list) ∈ fieldKinds →
      ∀ v, Value.field? fields key = some v → v.kind = .list :=
    fun key hkey => checkKinds_eq_ok.1 hkinds (key, .list) hkey
  have hdefault : default.policies.Nodup := by decide
  -- The kinds are checked in the order of the keys, but the policies are read after the affixes.
  rw [ofFields_eq_ok, agrees_iff hknown, forall_keys_iff, stringsField_eq_ok (hlist _ (by decide)),
    stringsField_eq_ok (hlist _ (by decide)), stringsField_eq_ok (hlist _ (by decide)),
    stringsField_eq_ok (hlist _ (by decide)), stringsField_eq_ok (hlist _ (by decide)),
    stringsField_eq_ok (hlist _ (by decide)), stringsField_eq_ok (hlist _ (by decide)),
    policiesField_eq_ok hdefault (hlist _ (by decide))]
  simp only [patternField_eq_ok, boolField_eq_ok]
  constructor
  · rintro ⟨h₁, h₂, h₃, h₄, h₅, h₆, h₇, ⟨h₈, hnodup⟩, ⟨h₉, haxis⟩, ⟨h₁₀, hvalue⟩, haxes, h₁₂⟩
    obtain ⟨h₁₁, hdistinct, hfit⟩ := (axesField_eq_ok hkeys).1 haxes
    exact ⟨⟨h₁.symm, h₂.symm, h₃.symm, h₈.symm, h₄.symm, h₅.symm, h₆.symm, h₇.symm, h₉.symm,
      h₁₀.symm, h₁₁.symm, h₁₂.symm⟩, hnodup, haxis, hvalue, hdistinct, hfit⟩
  · rintro ⟨⟨h₁, h₂, h₃, h₈, h₄, h₅, h₆, h₇, h₉, h₁₀, h₁₁, h₁₂⟩, hvalid⟩
    have haxes := (axesField_eq_ok hkeys).2 ⟨h₁₁.symm, hvalid.distinct, hvalid.axes⟩
    exact ⟨h₁.symm, h₂.symm, h₃.symm, h₄.symm, h₅.symm, h₆.symm, h₇.symm,
      ⟨h₈.symm, hvalid.policies⟩, ⟨h₉.symm, hvalid.axisPattern⟩, ⟨h₁₀.symm, hvalid.valuePattern⟩,
      haxes, h₁₂.symm⟩

/-- Settings are read from exactly the dictionaries of known fields that agree with them. -/
theorem ofValue_eq_ok_iff {s : Settings} (hkeys : KeysDistinct fields) :
    ofValue library (.dict fields) = .ok s ↔
      Known fields ∧ Agrees fields s ∧ s.Valid library := by
  rw [ofValue]
  split
  · rename_i key h
    -- an unknown key is refused before anything is read
    refine iff_of_false (by simp) fun hread => ?_
    rw [unsupported?_eq_none_iff.2 hread.1] at h
    exact absurd h (by simp)
  · rename_i h
    have hknown := unsupported?_eq_none_iff.1 h
    rw [bind_eq_ok]
    constructor
    · rintro ⟨⟨⟩, hkinds, hfields⟩
      exact ⟨hknown, (ofFields_eq_ok_iff_agrees hknown hkinds hkeys).1 hfields⟩
    · rintro ⟨-, hagrees, hvalid⟩
      have hkinds := checkKinds_of_agrees hagrees
      exact ⟨(), hkinds, (ofFields_eq_ok_iff_agrees hknown hkinds hkeys).2 ⟨hagrees, hvalid⟩⟩

-- ---------------------------------------------------------------------------
-- Reading back
-- ---------------------------------------------------------------------------

/-- Valid settings are read back from the dictionary that they are given as. -/
theorem ofValue_given {s : Settings} (h : s.Valid library) :
    ofValue library (.dict s.given) = .ok s := by
  rw [ofValue_eq_ok_iff]
  · have hknown : Known s.given := by
      rw [Known, keys_given]
      exact fun key hkey => hkey
    refine ⟨hknown, (agrees_iff hknown).2 fun key hkey => ?_, h⟩
    -- every field is given, so that no default comes in
    rw [← text_mem_keys_iff, ← keys_given s] at hkey
    obtain ⟨v, hv⟩ := Value.exists_field?_iff.2 hkey
    rw [held, hv, Option.some_or]
  · intro entries hentries
    rw [keys_axesValue (Option.some.inj hentries).symm]
    exact h.distinct.map fun _ _ => Key.text.inj

theorem entries_listed (s : Settings) :
    s.listed.explicitAxes.entries = s.explicitAxes.entries.map fun e => (e.1, e.2.listed) := rfl

/-- Putting the axes in lists changes nothing that is checked. -/
theorem Valid.listed {s : Settings} (h : s.Valid library) : s.listed.Valid library where
  policies := h.policies
  axisPattern := h.axisPattern
  valuePattern := h.valuePattern
  distinct := by
    have hkeys : s.listed.explicitAxes.keys = s.explicitAxes.keys := by
      rw [OrderedMap.keys, entries_listed, List.map_map]
      rfl
    rw [OrderedMap.Distinct, hkeys]
    exact h.distinct
  axes := by
    rw [AxesFit, entries_listed, List.forall_mem_map]
    exact h.axes

/-- Valid settings are read back, with lists for tuples, from the dictionary that they are written
as. -/
theorem ofValue_toValue {s : Settings} (h : s.Valid library) :
    ofValue library s.toValue = .ok s.listed :=
  ofValue_given h.listed

/-- What is written has lists where tuples were given, and is otherwise what was given. -/
theorem written_eq (s : Settings) : s.written = s.given.map fun e => (e.1, e.2.listed) := by
  have haxes : Value.dict (s.listed.explicitAxes.entries.map fun e => (.text e.1, e.2.value)) =
      (Value.dict (s.explicitAxes.entries.map fun e => (.text e.1, e.2.value))).listed := by
    simp only [Value.listed, entries_listed, List.map_map, Function.comp_def, Value.asList_value]
  simp only [written, given, haxes]
  rfl

/-- What is written under a key is what is given there, with its tuples as lists. -/
theorem field?_written (s : Settings) :
    Value.field? s.written key = (Value.field? s.given key).map Value.listed := by
  rw [written_eq, Value.field?_map]

/-- Settings have all axes in lists exactly if they have no tuple. -/
theorem listed_eq_self_iff {s : Settings} :
    s.listed = s ↔ ∀ e ∈ s.explicitAxes.entries, e.2.isTuple = false := by
  have hentries : s.listed = s ↔ s.listed.explicitAxes.entries = s.explicitAxes.entries.map id := by
    rw [List.map_id]
    constructor
    · intro h
      rw [h]
    · intro h
      exact congrArg (fun axes => { s with explicitAxes := axes }) (congrArg OrderedMap.mk h)
  rw [hentries, entries_listed, List.map_inj_left]
  simp only [id, Prod.ext_iff, true_and, AxisNames.listed_eq_self_iff]

/-- Whether the axes of no value come in a tuple. -/
def TupleFree (fields : List (Key × Value)) : Prop :=
  ∀ entries, Value.field? fields "explicit_axes" = some (.dict entries) →
    ∀ e ∈ entries, e.2.kind ≠ .tuple

/-- The settings of a dictionary have all axes in lists exactly if the dictionary has. -/
theorem Agrees.listed_eq_self_iff {s : Settings} (h : Agrees fields s) :
    s.listed = s ↔ TupleFree fields := by
  have hheld : held fields "explicit_axes" = some (axesValue s.explicitAxes.entries) :=
    (h "explicit_axes").symm
  have htuple : ∀ axes : AxisNames, axes.value.kind ≠ .tuple ↔ axes.isTuple = false := by
    intro axes
    rw [AxisNames.kind_value]
    cases axes.isTuple <;> simp
  rw [Settings.listed_eq_self_iff, TupleFree]
  cases hfield : Value.field? fields "explicit_axes" with
  | none =>
    -- nothing is given, and the default is the dictionary without entries
    rw [held, hfield, Option.none_or] at hheld
    have hentries : s.explicitAxes.entries = [] := by
      simpa [default, OrderedMap.empty] using (keys_axesValue (Option.some.inj hheld)).symm
    simp [hentries]
  | some v =>
    rw [held, hfield, Option.some_or, Option.some.injEq] at hheld
    subst hheld
    simp only [axesValue, Option.some.injEq, Value.dict.injEq, forall_eq', List.forall_mem_map,
      htuple]

-- ---------------------------------------------------------------------------
-- What is permitted
-- ---------------------------------------------------------------------------

/-- The fields that list names of members, or affixes. -/
def nameKeys : List String :=
  ["x_axis_member_names", "y_axis_member_names", "value_member_names", "x_suffixes", "y_suffixes",
    "x_prefixes", "y_prefixes"]

/-- The fields that hold a pattern. -/
def patternKeys : List String := ["positional_axis_pattern", "positional_value_pattern"]

/-- Whether a field may hold a value: names of members and affixes any texts in a list, the order of
policies different names of policies in a list, a pattern a text that the library accepts, the
explicit axes one or two texts for each key, in a list or in a tuple, and the check of the order of
axes a truth value. -/
inductive Permits (library : RegexLibrary) (key : String) : Value → Prop
  | names {texts : List String} (hkey : key ∈ nameKeys) : Permits library key (stringsValue texts)
  | policies {texts : List String} (hkey : key = "policy_order")
      (known : ∀ text ∈ texts, text ∈ Policy.all.map Policy.name) (distinct : texts.Nodup) :
      Permits library key (stringsValue texts)
  | pattern {text : String} (hkey : key ∈ patternKeys) (accepted : library.Accepts text) :
      Permits library key (.text text)
  | axes {axes : List (String × AxisNames)} (hkey : key = "explicit_axes") (fit : AxesFit axes) :
      Permits library key (axesValue axes)
  | monotonic {b : Bool} (hkey : key = "check_monotonic") : Permits library key (.bool b)

theorem Permits.mem_keys (h : Permits library key v) : key ∈ keys := by
  have hnames : ∀ key ∈ nameKeys, key ∈ keys := by decide
  have hpatterns : ∀ key ∈ patternKeys, key ∈ keys := by decide
  cases h with
  | names hkey => exact hnames key hkey
  | pattern hkey => exact hpatterns key hkey
  | policies hkey | axes hkey | monotonic hkey =>
    subst hkey
    decide

/-- What valid settings give is permitted. -/
theorem permits_given {s : Settings} (h : s.Valid library)
    (hv : Value.field? s.given key = some v) : Permits library key v := by
  have hkey : key ∈ keys := by
    rw [← text_mem_keys_iff, ← keys_given s]
    exact Value.exists_field?_iff.1 ⟨v, hv⟩
  have hpolicies : Permits library "policy_order" (stringsValue (s.policies.map Policy.name)) := by
    refine .policies rfl (fun text htext => ?_) (h.policies.map Policy.name_injective)
    obtain ⟨p, -, rfl⟩ := List.mem_map.1 htext
    exact List.mem_map_of_mem p.mem_all
  -- to be permitted is said of one value after the other
  have hone : ∀ {key w}, Permits library key w → ∀ v, some w = some v →
      Permits library key v := by
    rintro key w hw v hv
    rw [← Option.some.inj hv]
    exact hw
  have hall : ∀ key ∈ keys, ∀ v, Value.field? s.given key = some v → Permits library key v := by
    rw [forall_keys_iff]
    exact ⟨hone (.names (by decide)), hone (.names (by decide)), hone (.names (by decide)),
      hone hpolicies, hone (.names (by decide)), hone (.names (by decide)),
      hone (.names (by decide)), hone (.names (by decide)),
      hone (.pattern (by decide) h.axisPattern), hone (.pattern (by decide) h.valuePattern),
      hone (.axes rfl h.axes), hone (.monotonic rfl)⟩
  exact hall key hkey v hv

section Exists

variable (h : ∀ key v, held fields key = some v → Permits library key v)
include h

/-- What a dictionary has for a key is held by the field, so that it is permitted. -/
theorem permits_of_field? (hv : Value.field? fields key = some v) : Permits library key v := by
  refine h key v ?_
  rw [held, hv, Option.some_or]

/-- Names that are permitted can be read. -/
theorem exists_stringsField (key : String) {default : List String} (hkey : key ∈ nameKeys) :
    ∃ texts, stringsField fields key default = .ok texts := by
  rw [stringsField]
  cases hv : Value.field? fields key with
  | none => exact ⟨default, rfl⟩
  | some v =>
    cases permits_of_field? h hv with
    | @names texts => exact ⟨texts, mapError_eq_ok.2 (Value.checkStrings_eq_ok.2 (.inl rfl))⟩
    | pattern hpattern =>
      have hdisjoint : ∀ key ∈ nameKeys, key ∉ patternKeys := by decide
      exact absurd hpattern (hdisjoint key hkey)
    | policies hother | axes hother | monotonic hother =>
      subst hother
      exact absurd hkey (by decide)

/-- The pattern that a field holds is accepted, whether it is given or the default. -/
theorem exists_patternField (key : String) {default : String} (hkey : key ∈ patternKeys)
    (hdefault : Value.field? Settings.default.given key = some (.text default)) :
    ∃ source, patternField library fields key default = .ok source := by
  simp only [patternField_eq_ok, ← hdefault]
  obtain ⟨v, hv⟩ : ∃ v, held fields key = some v := by
    rw [held, hdefault]
    cases Value.field? fields key with
    | none => exact ⟨_, rfl⟩
    | some v => exact ⟨v, rfl⟩
  cases h key v hv with
  | @pattern text _ haccepted => exact ⟨text, hv, haccepted⟩
  | names hname =>
    -- the field is none of the others
    have hdisjoint : ∀ key ∈ nameKeys, key ∉ patternKeys := by decide
    exact absurd hkey (hdisjoint key hname)
  | policies hother | axes hother | monotonic hother =>
    subst hother
    exact absurd hkey (by decide)

theorem exists_policiesField :
    ∃ policies, policiesField fields default.policies = .ok policies := by
  rw [policiesField]
  cases hv : Value.field? fields "policy_order" with
  | none => exact ⟨default.policies, rfl⟩
  | some v =>
    cases permits_of_field? h hv with
    | policies _ hknown hdistinct =>
      obtain ⟨policies, rfl⟩ := Policy.exists_map_name hknown
      refine ⟨policies, bind_eq_ok.2 ⟨policies.map Policy.name, ?_, ?_⟩⟩
      · exact mapError_eq_ok.2 (Value.checkStrings_eq_ok.2 (.inl rfl))
      · exact bind_eq_ok.2 ⟨policies, readPolicies_eq_ok.2 rfl, by
          rw [if_pos (hdistinct.of_map _), pure_eq_ok]⟩
    | names hkey | pattern hkey | axes hkey | monotonic hkey => exact absurd hkey (by decide)

theorem exists_axesField : ∃ m, axesField fields .empty = .ok m := by
  rw [axesField]
  cases hv : Value.field? fields "explicit_axes" with
  | none => exact ⟨_, rfl⟩
  | some v =>
    cases permits_of_field? h hv with
    | axes _ hfit => exact ⟨_, map_eq_ok.2 ⟨_, readAxes_eq_ok.2 ⟨rfl, hfit⟩, rfl⟩⟩
    | names hkey | pattern hkey | policies hkey | monotonic hkey => exact absurd hkey (by decide)

theorem exists_boolField {default : Bool} :
    ∃ b, boolField fields "check_monotonic" default = .ok b := by
  simp only [boolField_eq_ok]
  cases hv : Value.field? fields "check_monotonic" with
  | none => exact ⟨default, rfl⟩
  | some v =>
    cases permits_of_field? h hv with
    | monotonic => exact ⟨_, rfl⟩
    | names hkey | pattern hkey | policies hkey | axes hkey => exact absurd hkey (by decide)

/-- Fields that hold what they permit are read as some settings. -/
theorem exists_ofFields : ∃ s, ofFields library fields = .ok s := by
  obtain ⟨xAxisMembers, h₁⟩ := exists_stringsField h "x_axis_member_names" (by decide)
  obtain ⟨yAxisMembers, h₂⟩ := exists_stringsField h "y_axis_member_names" (by decide)
  obtain ⟨valueMembers, h₃⟩ := exists_stringsField h "value_member_names" (by decide)
  obtain ⟨xSuffixes, h₄⟩ := exists_stringsField h "x_suffixes" (by decide)
  obtain ⟨ySuffixes, h₅⟩ := exists_stringsField h "y_suffixes" (by decide)
  obtain ⟨xPrefixes, h₆⟩ := exists_stringsField h "x_prefixes" (by decide)
  obtain ⟨yPrefixes, h₇⟩ := exists_stringsField h "y_prefixes" (by decide)
  obtain ⟨policies, h₈⟩ := exists_policiesField h
  obtain ⟨axisPattern, h₉⟩ :=
    exists_patternField h "positional_axis_pattern" (by decide) rfl
  obtain ⟨valuePattern, h₁₀⟩ :=
    exists_patternField h "positional_value_pattern" (by decide) rfl
  obtain ⟨explicitAxes, h₁₁⟩ := exists_axesField h
  obtain ⟨checkMonotonic, h₁₂⟩ := exists_boolField h
  exact ⟨⟨xAxisMembers, yAxisMembers, valueMembers, policies, xSuffixes, ySuffixes, xPrefixes,
    yPrefixes, axisPattern, valuePattern, explicitAxes, checkMonotonic⟩,
    ofFields_eq_ok.2 ⟨h₁, h₂, h₃, h₄, h₅, h₆, h₇, h₈, h₉, h₁₀, h₁₁, h₁₂⟩⟩

end Exists

/-- What is permitted is of the kind that its field asks for. -/
theorem Permits.kind_eq (h : Permits library key v) :
    ∀ e ∈ fieldKinds, e.1 = key → v.kind = e.2 := by
  have hnames : ∀ e ∈ fieldKinds, e.1 ∈ nameKeys → e.2 = .list := by decide
  have hpatterns : ∀ e ∈ fieldKinds, e.1 ∈ patternKeys → e.2 = .text := by decide
  have hothers : ∀ e ∈ fieldKinds, (e.1 = "policy_order" → e.2 = .list) ∧
      (e.1 = "explicit_axes" → e.2 = .dict) ∧ (e.1 = "check_monotonic" → e.2 = .bool) := by
    decide
  rintro e he rfl
  cases h with
  | names hkey => exact (hnames e he hkey).symm
  | pattern hkey => exact (hpatterns e he hkey).symm
  | policies hkey => exact ((hothers e he).1 hkey).symm
  | axes hkey => exact ((hothers e he).2.1 hkey).symm
  | monotonic hkey => exact ((hothers e he).2.2 hkey).symm

/-- Settings are read from exactly the dictionaries whose keys are texts and whose fields hold what
they permit. -/
theorem exists_ofValue_eq_ok_iff (hkeys : KeysDistinct fields) :
    (∃ s, ofValue library (.dict fields) = .ok s) ↔
      (∀ key ∈ fields.map (·.1), key.kind = .text) ∧
      ∀ key v, held fields key = some v → Permits library key v := by
  constructor
  · rintro ⟨s, hs⟩
    obtain ⟨hknown, hagrees, hvalid⟩ := (ofValue_eq_ok_iff hkeys).1 hs
    refine ⟨fun key hkey => ?_, fun key v hv => permits_given hvalid ((hagrees key).trans hv)⟩
    obtain ⟨text, -, rfl⟩ := List.mem_map.1 (hknown key hkey)
    rfl
  · rintro ⟨htexts, h⟩
    -- a key that is not known is not permitted, whatever is under it
    have hknown : Known fields := by
      intro key hkey
      cases key with
      | text key =>
        obtain ⟨v, hv⟩ := Value.exists_field?_iff.2 hkey
        exact text_mem_keys_iff.2 (permits_of_field? h hv).mem_keys
      | other kind shown hkind => exact absurd (htexts _ hkey) hkind
    have hkinds : checkKinds fields fieldKinds = .ok () :=
      checkKinds_eq_ok.2 fun e he v hv => (permits_of_field? h hv).kind_eq e he rfl
    obtain ⟨s, hs⟩ := exists_ofFields h
    exact ⟨s, (ofValue_eq_ok_iff hkeys).2
      ⟨hknown, (ofFields_eq_ok_iff_agrees hknown hkinds hkeys).1 hs⟩⟩

end Settings

-- ---------------------------------------------------------------------------
-- Policies
-- ---------------------------------------------------------------------------

namespace AxisPolicy

/-- A policy with what it needs of some settings. -/
def ofPolicy (library : RegexLibrary) (s : Settings) : Policy → AxisPolicy
  | .explicit => .explicit (s.explicitAxes.mapValues AxisNames.names)
  | .affix => .affix s.xSuffixes s.ySuffixes s.xPrefixes s.yPrefixes
  | .positional => .positional (library.finds s.axisPattern) (library.finds s.valuePattern)

theorem name_ofPolicy (library : RegexLibrary) (s : Settings) (p : Policy) :
    (ofPolicy library s p).name = p.name := by
  cases p <;> rfl

/-- A policy that was made for some settings proposes what it proposes in a search with all of
them. -/
theorem findAxes_ofPolicy (library : RegexLibrary) (s : Settings) (p : Policy) (name : String)
    (dims : List Nat) (siblings : Siblings) :
    (ofPolicy library s p).findAxes name dims siblings =
      p.axes (s.compiled library) name dims siblings := by
  cases p with
  | explicit =>
    -- the policy has no tuples, but the names in them
    have hnames : (((s.explicitAxes.mapValues AxisNames.names).mapValues AxisNames.ofList).get?
        name).map AxisNames.names = (s.explicitAxes.get? name).map AxisNames.names := by
      rw [OrderedMap.get?_mapValues, OrderedMap.get?_mapValues, Option.map_map, Option.map_map]
      rfl
    exact congrArg (fun axes => Except.ok (axes.filter fun names => names.length = dims.length))
      hnames
  | affix | positional => rfl

end AxisPolicy

namespace Settings

variable {library : RegexLibrary} {s : Settings}

/-- Under valid settings the policy of a name is made, since its patterns compile. -/
theorem axisPolicy_name (h : s.Valid library) (p : Policy) :
    s.axisPolicy library p.name = .ok (AxisPolicy.ofPolicy library s p) := by
  rw [axisPolicy, Policy.ofName?_name]
  cases p with
  | explicit | affix => rfl
  | positional =>
    simp only [compilePattern, RegexLibrary.compile_of_accepts h.axisPattern,
      RegexLibrary.compile_of_accepts h.valuePattern]
    rfl

/-- Valid settings have their policies made, in their order. -/
theorem axisPolicies_eq (h : s.Valid library) :
    s.axisPolicies library = .ok (s.policies.map (AxisPolicy.ofPolicy library s)) := by
  rw [axisPolicies]
  induction s.policies with
  | nil => rfl
  | cons p policies ih =>
    rw [List.map_cons, List.mapM_cons, axisPolicy_name h, ih]
    rfl

end Settings

end DebugLayout
