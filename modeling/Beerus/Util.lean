import Beerus.Field
import Beerus.Outcome

/-!
The bit codec of `src/util.rs`.

A key is walked along the 251 low bits of its 32 bytes, most significant first.
`feltFromBits` reads such a bit string back with its first `mask` bits cleared.
-/

namespace Beerus

open Beerus.Lib

/-- `view_bits::<Msb0>()`: the bits of each byte, most significant first. -/
def viewBits (bs : List Byte) : List Bool := bs.flatMap fun b => binary.numeral 8 b.val

/-- The `n` bytes whose bits are given. -/
def packBits : Nat → List Bool → List Byte
  | 0, _ => []
  | n + 1, bits => bytes.digit (binary.value (bits.take 8)) :: packBits n (bits.drop 8)

/-- `felt_to_bits`. -/
def feltToBits (felt : List Byte) : List Bool := (viewBits felt).drop 5

/-- `felt_from_bits`. -/
def feltFromBits (bits : List Bool) (mask : Option Nat) : Res String FieldElement := do
  if bits.length ≠ 251 then
    Res.err "expecting 251 bits"
  else
    let mask ← match mask with
      | some x => if x > 251 then Res.err "Mask cannot be bigger than 251" else pure x
      | none => pure 0
    -- The view of the zeroed buffer, overwritten from bit `5 + mask` on.
    let view := List.replicate (5 + mask) false ++ bits.drop mask
    pure (FieldElement.fromBytesBe (packBits 32 view))

/-! ### What the codec computes -/

theorem viewBits_toBytesBe (x : FieldElement) :
    viewBits x.toBytesBe = binary.numeral 256 x.val := by
  have pow : bytes.base = binary.base ^ 8 := rfl
  exact binary.flatMap_numeral pow 32 x.val

/-- The walk's bits are the low 251 bits of the number. -/
theorem feltToBits_toBytesBe (x : FieldElement) :
    feltToBits x.toBytesBe = binary.numeral 251 x.val := by
  rw [feltToBits, viewBits_toBytesBe]
  exact binary.drop_numeral x.val (by decide)

@[simp] theorem length_feltToBits (x : FieldElement) : (feltToBits x.toBytesBe).length = 251 := by
  simp [feltToBits_toBytesBe]

@[simp] theorem length_packBits (n : Nat) (bits : List Bool) : (packBits n bits).length = n := by
  induction n generalizing bits with
  | zero => rfl
  | succ n ih => rw [packBits, List.length_cons, ih]

/-- Packing keeps the number the bits denote. -/
theorem value_packBits {n : Nat} {bits : List Bool} (len : bits.length = 8 * n) :
    bytes.value (packBits n bits) = binary.value bits := by
  induction n generalizing bits with
  | zero => simp [packBits, List.length_eq_zero_iff.mp len]
  | succ n ih =>
      have rest : (bits.drop 8).length = 8 * n := by rw [List.length_drop]; omega
      have top : binary.value (bits.take 8) < 256 := by
        have := binary.value_lt (bits.take 8)
        rw [List.length_take, Nat.min_eq_left (by omega)] at this
        simpa using this
      have split := binary.value_append (bits.take 8) (bits.drop 8)
      rw [List.take_append_drop, rest, Nat.pow_mul] at split
      rw [packBits, bytes.value_cons, bytes.val_digit _ top, ih rest, length_packBits, split]
      rfl

/-- Reading back a 251-bit string with `m` bits cleared is the number its other
bits denote. -/
theorem feltFromBits_some {bits : List Bool} {m : Nat} (len : bits.length = 251) (low : m ≤ 251) :
    feltFromBits bits (some m) = .ok (FieldElement.ofNat (binary.value (bits.drop m))) := by
  have view : (List.replicate (5 + m) false ++ bits.drop m).length = 8 * 32 := by
    simp [len]; omega
  have zeros := binary.value_replicate_zero (5 + m) (bits.drop m)
  have packed := value_packBits view
  rw [show (false : Bool) = binary.digit 0 from rfl, zeros] at packed
  simp only [feltFromBits, len, ne_eq, not_true_eq_false, if_false, Nat.not_lt.mpr low,
    Res.pure_eq_ok, Res.ok_bind, FieldElement.fromBytesBe]
  exact congrArg (fun n => Except.ok (FieldElement.ofNat n)) packed

/-- A mask above 251 is refused. -/
theorem feltFromBits_of_gt {bits : List Bool} {m : Nat} (len : bits.length = 251) (high : 251 < m) :
    feltFromBits bits (some m) = Res.err "Mask cannot be bigger than 251" := by
  simp [feltFromBits, len, high]

/-- No mask is the mask zero. -/
theorem feltFromBits_none (bits : List Bool) :
    feltFromBits bits none = feltFromBits bits (some 0) := by
  simp [feltFromBits]

/-! ### Laws of the codec -/

/-- A walk's bits, read back with a mask, are the low bits of the number. -/
theorem feltFromBits_feltToBits {x : FieldElement} (small : x.val < 2 ^ 251) {m : Nat}
    (low : m ≤ 251) :
    ∃ y, feltFromBits (feltToBits x.toBytesBe) (some m) = .ok y ∧
      y.val = x.val % 2 ^ (251 - m) := by
  refine ⟨_, feltFromBits_some (length_feltToBits x) low, ?_⟩
  have kept : binary.value ((feltToBits x.toBytesBe).drop m) = x.val % 2 ^ (251 - m) := by
    rw [binary.value_drop, length_feltToBits, feltToBits_toBytesBe,
      binary.value_numeral_of_lt small]
    rfl
  have fits : x.val % 2 ^ (251 - m) < PRIME := (Nat.mod_le _ _).trans_lt x.isLt
  rw [kept, FieldElement.ofNat_val_of_lt fits]

/-- Reading back with a mask and walking again clears the masked bits. -/
theorem feltToBits_feltFromBits {bits : List Bool} (len : bits.length = 251) {m : Nat}
    (low : m ≤ 251) :
    ∃ y, feltFromBits bits (some m) = .ok y ∧
      feltToBits y.toBytesBe = List.replicate m false ++ bits.drop m := by
  refine ⟨_, feltFromBits_some len low, ?_⟩
  have rest : (bits.drop m).length = 251 - m := by rw [List.length_drop, len]
  have small : binary.value (bits.drop m) < 2 ^ (251 - m) := by
    simpa [rest] using binary.value_lt (bits.drop m)
  have fits : binary.value (bits.drop m) < PRIME :=
    small.trans_le ((Nat.pow_le_pow_right (by decide) (Nat.sub_le _ _)).trans
      two_pow_251_lt_prime.le)
  have pad := binary.numeral_pad m small
  rw [Nat.add_sub_cancel' low, ← rest, binary.numeral_value] at pad
  rw [feltToBits_toBytesBe, FieldElement.ofNat_val_of_lt fits, pad]
  rfl

/-- What is refused is a string of another length, or a mask beyond it. -/
theorem feltFromBits_eq_err {bits : List Bool} {mask : Option Nat} :
    (∃ e, feltFromBits bits mask = Res.err e) ↔ bits.length ≠ 251 ∨ ∃ m ∈ mask, 251 < m := by
  by_cases len : bits.length = 251
  · cases mask with
    | none =>
        rw [feltFromBits_none, feltFromBits_some len (Nat.zero_le _)]
        simp [len, Res.err]
    | some m =>
        by_cases high : 251 < m
        · simp [feltFromBits_of_gt len high, high]
        · rw [feltFromBits_some len (Nat.not_lt.mp high)]
          simp [len, high, Res.err]
  · simp [feltFromBits, len]

/-- Below two to the 251 the two functions undo each other, up to the masked
bits. -/
theorem bitCodec_laws :
    (∀ x : FieldElement, x.val < 2 ^ 251 →
      feltFromBits (feltToBits x.toBytesBe) none = .ok x ∧
      ∀ m, m ≤ 251 → ∃ y, feltFromBits (feltToBits x.toBytesBe) (some m) = .ok y ∧
        y.val = x.val % 2 ^ (251 - m)) ∧
    (∀ bits : List Bool, bits.length = 251 → ∀ m, m ≤ 251 →
      ∃ y, feltFromBits bits (some m) = .ok y ∧
        feltToBits y.toBytesBe = List.replicate m false ++ bits.drop m) ∧
    ∀ (bits : List Bool) (mask : Option Nat),
      (∃ e, feltFromBits bits mask = Res.err e) ↔ bits.length ≠ 251 ∨ ∃ m ∈ mask, 251 < m := by
  refine ⟨fun x small => ⟨?_, fun m low => feltFromBits_feltToBits small low⟩,
    fun bits len m low => feltToBits_feltFromBits len low, fun bits mask => feltFromBits_eq_err⟩
  obtain ⟨y, ok, value⟩ := feltFromBits_feltToBits small (Nat.zero_le 251)
  rw [Nat.sub_zero, Nat.mod_eq_of_lt small] at value
  rw [feltFromBits_none, ok, Fin.ext value]

/-- The laws at the number five, with all but the two low bits masked. -/
theorem bitCodec_five :
    (∃ y, feltFromBits (feltToBits (FieldElement.ofNat 5).toBytesBe) (some 249) = .ok y ∧
      y.val = 5 % 2 ^ 2) ∧
    ∃ y, feltFromBits (binary.numeral 251 5) (some 249) = .ok y ∧
      feltToBits y.toBytesBe = List.replicate 249 false ++ (binary.numeral 251 5).drop 249 :=
  ⟨(bitCodec_laws.1 (.ofNat 5) (by decide)).2 249 (by decide),
    bitCodec_laws.2.1 (binary.numeral 251 5) (binary.length_numeral 251 5) 249 (by decide)⟩

end Beerus
