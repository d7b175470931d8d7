import DebugLayout.ObjectFile.Convert
import Mathlib.Tactic.Ring

/-!
# DebugLayout — offsets of members

The offset of a member is a number, or an expression that adds a constant to the address of the
composite. The constant is **encoded** in groups of seven bits, the lowest first, one group a byte,
and the high bit of a byte tells that another group follows. Groups of zeros may stand above those
that count, so a number has one encoding of each length from its shortest on. The decoding puts the
groups together with shifts and stops behind the last one, whatever comes after it.

The decoding keeps what it has read so far and the place of the next group. The lemma that goes
through by induction is therefore one about any number that was read already, as long as it stays
below that place.

* `Uleb128`: the encodings of a number;
* `uleb128Groups`, `uleb128_iff_groups`: there is one of each length that is long enough;
* `uleb128_append`: the decoding of the groups that are left, with those before at hand;
* `decodeMemberLocation_encoded`: the offset that an expression gives.
-/

namespace DebugLayout

-- ---------------------------------------------------------------------------
-- Encodings
-- ---------------------------------------------------------------------------

/-- Whether some bytes encode a number: its groups of seven bits, the lowest first, and the high bit
set in all bytes but the last. -/
inductive Uleb128 : Nat → List Int → Prop
  | last {n : Nat} (h : n < 128) : Uleb128 n [(n : Int)]
  | more {group n : Nat} {bytes : List Int} (h : group < 128) (rest : Uleb128 n bytes) :
      Uleb128 (group + 128 * n) ((128 + group : Nat) :: bytes)

/-- The encoding of a number in one group and some more. -/
def uleb128Groups : Nat → Nat → List Int
  | 0, n => [(n : Int)]
  | more + 1, n => (128 + n % 128 : Nat) :: uleb128Groups more (n / 128)

/-- A number is encoded by its groups of seven bits, with as many groups as one likes from some
number on. -/
theorem uleb128_groups {more n : Nat} (h : n < 128 ^ (more + 1)) :
    Uleb128 n (uleb128Groups more n) := by
  induction more generalizing n with
  | zero => exact .last (by omega)
  | succ more ih =>
    have hrest : n / 128 < 128 ^ (more + 1) := by
      rw [Nat.div_lt_iff_lt_mul (by decide), ← Nat.pow_succ]
      exact h
    have hmore := Uleb128.more (Nat.mod_lt n (by decide)) (ih hrest)
    rwa [Nat.mod_add_div] at hmore

/-- The encodings of a number are those in as many groups as it needs or more. -/
theorem uleb128_iff_groups {n : Nat} {bytes : List Int} :
    Uleb128 n bytes ↔ ∃ more, n < 128 ^ (more + 1) ∧ bytes = uleb128Groups more n := by
  constructor
  · intro h
    induction h with
    | last h => exact ⟨0, by omega, rfl⟩
    | @more group n bytes h _ ih =>
      obtain ⟨more, hn, rfl⟩ := ih
      have hlow : (group + 128 * n) % 128 = group := by omega
      have hhigh : (group + 128 * n) / 128 = n := by omega
      refine ⟨more + 1, ?_, by rw [uleb128Groups, hlow, hhigh]⟩
      rw [Nat.pow_succ]
      omega
  · rintro ⟨more, hn, rfl⟩
    exact uleb128_groups hn

-- ---------------------------------------------------------------------------
-- The decoding
-- ---------------------------------------------------------------------------

/-- A group goes above the groups before it, which together are less than its place. -/
theorem or_shiftLeft {result shift : Nat} (h : result < 2 ^ shift) (group : Nat) :
    result ||| group <<< shift = result + group * 2 ^ shift := by
  rw [Nat.or_comm, ← Nat.shiftLeft_add_eq_or_of_lt h, Nat.shiftLeft_eq, Nat.add_comm]

/-- The groups that are left are added above those that were read, and what follows them is not
looked at. -/
theorem uleb128_append {n : Nat} {bytes : List Int} (h : Uleb128 n bytes) (trailing : List Int)
    {result shift : Nat} (hresult : result < 2 ^ shift) :
    uleb128 result shift (bytes ++ trailing) = result + n * 2 ^ shift := by
  induction h generalizing result shift with
  | @last n h =>
    have hgroup : ((n : Int) % 128).toNat = n := by omega
    have hends : (n : Int) / 128 % 2 = 0 := by omega
    rw [List.singleton_append, uleb128, hgroup, if_pos hends, or_shiftLeft hresult]
  | @more group n bytes h _ ih =>
    have hgroup : (((128 + group : Nat) : Int) % 128).toNat = group := by omega
    have hgoes : ¬((128 + group : Nat) : Int) / 128 % 2 = 0 := by omega
    -- the bits read so far stay below the next shift
    have hnext : result + group * 2 ^ shift < 2 ^ (shift + 7) :=
      calc result + group * 2 ^ shift
          < (group + 1) * 2 ^ shift := by
            rw [Nat.succ_mul, Nat.add_comm]
            exact Nat.add_lt_add_left hresult _
        _ ≤ 128 * 2 ^ shift := Nat.mul_le_mul_right _ h
        _ = 2 ^ (shift + 7) := by ring
    rw [List.cons_append, uleb128, hgroup, if_neg hgoes, or_shiftLeft hresult, ih hnext]
    ring

/-- An expression that adds a constant gives its value for an offset, in whichever of its encodings
the constant comes, and whatever follows. There is one encoding in each number of groups that is
large enough. -/
theorem decodeMemberLocation_encoded (label : String) (n : Nat) :
    (∀ e, Uleb128 n e ↔ ∃ more, n < 128 ^ (more + 1) ∧ e = uleb128Groups more n) ∧
    ∀ e trailing, Uleb128 n e →
      decodeMemberLocation label (.block ([opPlusConstant] ++ e ++ trailing)) = .ok (.int n) := by
  refine ⟨fun e => uleb128_iff_groups, fun e trailing he => ?_⟩
  have hvalue : uleb128 0 0 (e ++ trailing) = n := by
    rw [uleb128_append he trailing (Nat.two_pow_pos 0)]
    simp
  -- an encoding has a byte at least, so that the expression is long enough
  obtain ⟨first, rest, rfl⟩ : ∃ first rest, e = first :: rest := by
    cases he with
    | last h => exact ⟨_, _, rfl⟩
    | more h rest => exact ⟨_, _, rfl⟩
  rw [List.singleton_append, List.cons_append, List.cons_append, decodeMemberLocation, if_pos rfl,
    ← List.cons_append, hvalue]

/-- An encoding with two groups more than the number needs, before another operation. -/
theorem decodeMemberLocation_encoded_padded :
    Uleb128 624485 [0xe5, 0x8e, 0xa6, 0x80, 0x00] ∧
      decodeMemberLocation "DW_TAG_member <7> \"m\""
        (.block [0x23, 0xe5, 0x8e, 0xa6, 0x80, 0x00, 0x06, 0x80]) = .ok (.int 624485) := by
  obtain ⟨hencodings, hdecode⟩ :=
    decodeMemberLocation_encoded "DW_TAG_member <7> \"m\"" 624485
  have hpadded : Uleb128 624485 [0xe5, 0x8e, 0xa6, 0x80, 0x00] :=
    (hencodings _).2 ⟨4, by decide, by decide⟩
  exact ⟨hpadded, hdecode _ [0x06, 0x80] hpadded⟩

end DebugLayout
