import DebugLayout.Proofs.Calibration.Config
import DebugLayout.Target

/-!
# DebugLayout — settings are read back

The settings of a program, its target and those of the classifier, are read from dictionaries and
written as dictionaries. What was accepted once is accepted again, whatever library of regular
expressions decides about the patterns: the settings are written as the dictionary that they were
read from, with the defaults for what was left out, and reading what is written gives the same
settings. Whatever is accepted can be used: all of its policies can be made, and they propose what
the search for axes goes by.

There is one exception, and it is by design. The axes that are given for a value may come in a
tuple, as the check of texts lets a tuple pass for a list. They are kept in it, but written in a
list, and so they are not read back as they were. Documents have no tuples; it takes a caller that
builds the dictionary itself.

* `Target.ofValue_toValue`: targets are read back;
* `settings_read_back`: settings and targets;
* `tuple_read_back_as_list`: the exception.
-/

namespace DebugLayout

namespace Endianness

theorem ofText_toText (order : Endianness) : ofText order.toText = .ok order := by
  cases order <;> decide +kernel

end Endianness

namespace Target

theorem make_widths (t : Target) : make t.pointerWidth t.endianness t.alignment = .ok t := by
  have hpointerWidth := t.pointerWidth_bounds
  have halignment := t.alignment_bounds
  unfold make
  rw [dif_neg (by omega), dif_neg (by omega), dif_neg (by omega), dif_neg (by omega)]
  rfl

/-- Every target is read back from its description. -/
theorem ofValue_toValue (t : Target) : ofValue t.toValue = .ok t := by
  have hwidth : t.toValue.checkField "" "pointer_width_bytes" [.int] = .ok (.int t.pointerWidth) :=
    Value.checkField_eq_ok.2 ⟨rfl, List.mem_singleton_self _⟩
  have horder : t.toValue.checkField "" "endianness" [.text] = .ok (.text t.endianness.toText) :=
    Value.checkField_eq_ok.2 ⟨rfl, List.mem_singleton_self _⟩
  have halignment :
      t.toValue.checkField "" "default_alignment_bytes" [.int] = .ok (.int t.alignment) :=
    Value.checkField_eq_ok.2 ⟨rfl, List.mem_singleton_self _⟩
  simp only [ofValue, bind_eq_ok, mapError_eq_ok, hwidth, horder, halignment, Except.ok.injEq,
    exists_eq_left', Value.checkInt_eq_ok, Value.checkText_eq_ok, Value.int.injEq,
    Value.text.injEq, Endianness.ofText_toText, make_widths]

end Target

/-- Settings are read from exactly the dictionaries whose keys are texts and whose fields, given or
default, hold what they permit. They are written as a dictionary that agrees with the one they were
read from, with lists for tuples and with the defaults for what was left out. From this they are
read back with their axes in lists, which makes them the same exactly if there was no tuple. Their
policies are made, in the order that they name them, and propose what the search for axes goes by.
Targets are read back as well. -/
theorem settings_read_back (library : RegexLibrary) {fields : List (Key × Value)}
    (hkeys : Settings.KeysDistinct fields) :
    ((∃ s, Settings.ofValue library (.dict fields) = .ok s) ↔
        (∀ key ∈ fields.map (·.1), key.kind = .text) ∧
        ∀ key v, Settings.held fields key = some v → Settings.Permits library key v) ∧
      (∀ s, Settings.ofValue library (.dict fields) = .ok s →
        (s.toValue = .dict s.written ∧ ∀ key, Value.field? s.written key =
          ((Value.field? fields key).map Value.listed).or
            (Value.field? Settings.default.written key)) ∧
        Settings.ofValue library s.toValue = .ok s.listed ∧
        (s.listed = s ↔ Settings.TupleFree fields) ∧
        ∃ made, s.axisPolicies library = .ok made ∧
          Value.field? s.written "policy_order" =
            some (stringsValue (made.map AxisPolicy.name)) ∧
          made.Forall₂ (fun m p => ∀ name dims siblings,
            m.findAxes name dims siblings = p.axes (s.compiled library) name dims siblings)
            s.policies) ∧
      ∀ t : Target, Target.ofValue t.toValue = .ok t := by
  refine ⟨Settings.exists_ofValue_eq_ok_iff hkeys, fun s hs => ?_, Target.ofValue_toValue⟩
  obtain ⟨-, hagrees, hvalid⟩ := (Settings.ofValue_eq_ok_iff hkeys).1 hs
  have hnames : (s.policies.map (AxisPolicy.ofPolicy library s)).map AxisPolicy.name =
      s.policies.map Policy.name := by
    rw [List.map_map]
    exact List.map_congr_left fun p _ => AxisPolicy.name_ofPolicy library s p
  refine ⟨⟨rfl, fun key => ?_⟩, Settings.ofValue_toValue hvalid, hagrees.listed_eq_self_iff, _,
    Settings.axisPolicies_eq hvalid, ?_, ?_⟩
  · rw [Settings.field?_written, hagrees, Settings.held, Option.map_or, Settings.field?_written]
  · rw [hnames]
    rfl
  · rw [List.forall₂_map_left_iff, List.forall₂_same]
    exact fun p _ => AxisPolicy.findAxes_ofPolicy library s p

/-- A dictionary that gives some of the settings of a classifier. -/
def someSettings : List (Key × Value) :=
  [("x_axis_member_names", .list [.text "bp_x"]),
    ("policy_order", .list [.text "positional", .text "affix"]),
    ("positional_axis_pattern", .text "^bp_[0-9]+"),
    ("explicit_axes", .dict [("Gain", .list [.text "Gain_bp"]),
      ("Map", .list [.text "Map_x", .text "Map_y"])]),
    ("check_monotonic", .bool false)]

/-- Settings without tuples are the same when they are read back. -/
theorem settings_read_back_some :
    Settings.KeysDistinct someSettings ∧ Settings.TupleFree someSettings ∧
    ∃ s, Settings.ofValue Regex.library (.dict someSettings) = .ok s ∧
      Settings.ofValue Regex.library s.toValue = .ok s ∧
      ∃ made, s.axisPolicies Regex.library = .ok made ∧
        made.map AxisPolicy.name = ["positional", "affix"] := by
  have hkeys : Settings.KeysDistinct someSettings := by
    intro entries hentries
    rw [← Value.dict.inj (Option.some.inj hentries)]
    decide
  have hlists : Settings.TupleFree someSettings := by
    intro entries hentries
    rw [← Value.dict.inj (Option.some.inj hentries)]
    simp [Value.kind]
  have haccepted : (Settings.ofValue Regex.library (.dict someSettings)).isOk = true := by
    decide +kernel
  obtain ⟨s, hs⟩ := isOk_iff.1 haccepted
  obtain ⟨-, hread, -⟩ := settings_read_back Regex.library hkeys
  obtain ⟨⟨-, hwritten⟩, hback, hsame, made, hmade, hnames, -⟩ := hread s hs
  rw [hsame.2 hlists] at hback
  have hgiven : (Value.field? someSettings "policy_order").map Value.listed =
      some (stringsValue ["positional", "affix"]) := rfl
  rw [hwritten, hgiven, Option.some_or, Option.some.injEq] at hnames
  exact ⟨hkeys, hlists, s, hs, hback, made, hmade, (stringsValue_injective hnames).symm⟩

/-- A dictionary with an axis in a tuple. -/
def tupleSettings : List (Key × Value) :=
  [("explicit_axes", .dict [("Gain", .tuple [.text "Gain_bp"])])]

/-- Axes in a tuple are accepted, and are read back in a list. -/
theorem tuple_read_back_as_list :
    ∃ s t, Settings.ofValue Regex.library (.dict tupleSettings) = .ok s ∧
      Settings.ofValue Regex.library s.toValue = .ok t ∧ t ≠ s :=
  ⟨{ Settings.default with explicitAxes := ⟨[("Gain", ⟨["Gain_bp"], true⟩)]⟩ },
    { Settings.default with explicitAxes := ⟨[("Gain", ⟨["Gain_bp"], false⟩)]⟩ },
    rfl, rfl, by decide⟩

end DebugLayout
