/-!
# DebugLayout — lossy UTF-8

Names in an object file are bytes, and nothing guarantees that they are UTF-8. They are read
**lossily**: every maximal subpart of an ill-formed sequence is replaced by one U+FFFD. A subpart
is maximal when no further byte could have continued it, so the byte that breaks a sequence is
read again as the start of the next one.

* `decodeLossy`: the text of any sequence of bytes.
-/

namespace DebugLayout.Text

/-- A sequence that has begun: how many bytes are to follow the next one, the range in which the
next byte must lie, and the bits gathered so far. -/
structure Utf8Pending where
  later : Nat
  low : Nat
  high : Nat
  bits : Nat

/-- The character that stands for an ill-formed subpart. -/
def replacement : Char := Char.ofNat 0xFFFD

/-- What a byte at the start of a sequence gives: a character at once, or a sequence that has
begun. -/
def startUtf8 (byte : UInt8) : Char ⊕ Utf8Pending :=
  let b := byte.toNat
  if b < 0x80 then .inl (Char.ofNat b)
  else if b < 0xC2 then .inl replacement
  else if b < 0xE0 then .inr ⟨0, 0x80, 0xBF, b - 0xC0⟩
  else if b = 0xE0 then .inr ⟨1, 0xA0, 0xBF, 0⟩
  else if b = 0xED then .inr ⟨1, 0x80, 0x9F, 0xD⟩
  else if b < 0xF0 then .inr ⟨1, 0x80, 0xBF, b - 0xE0⟩
  else if b = 0xF0 then .inr ⟨2, 0x90, 0xBF, 0⟩
  else if b < 0xF4 then .inr ⟨2, 0x80, 0xBF, b - 0xF0⟩
  else if b = 0xF4 then .inr ⟨2, 0x80, 0x8F, 4⟩
  else .inl replacement

/-- The characters of a sequence of bytes, after what has begun before it. -/
def decodeFrom : Option Utf8Pending → List UInt8 → List Char
  | none, [] => []
  | some _, [] => [replacement]
  | none, byte :: rest =>
    match startUtf8 byte with
    | .inl c => c :: decodeFrom none rest
    | .inr pending => decodeFrom (some pending) rest
  | some p, byte :: rest =>
    if p.low ≤ byte.toNat ∧ byte.toNat ≤ p.high then
      let bits := p.bits * 64 + (byte.toNat - 0x80)
      match p.later with
      | 0 => Char.ofNat bits :: decodeFrom none rest
      | later + 1 => decodeFrom (some ⟨later, 0x80, 0xBF, bits⟩) rest
    else
      replacement :: match startUtf8 byte with
        | .inl c => c :: decodeFrom none rest
        | .inr pending => decodeFrom (some pending) rest

/-- The text of a sequence of bytes, one U+FFFD for each maximal ill-formed subpart. -/
def decodeLossy (bytes : List UInt8) : String := String.ofList (decodeFrom none bytes)

end DebugLayout.Text
