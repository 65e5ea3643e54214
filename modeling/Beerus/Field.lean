import Beerus.Lib.Hex

/-!
Field elements and the third-party functions the code calls.

A field element is its number below the Stark prime. The crates are not part
of the repository, so what the code uses of them is a parameter, `Crates`,
with the documented behaviour it relies on as the structure's laws: the
decoders read at most 64 hexadecimal digits in either case behind `0x`,
`from_hex` fails on anything else that begins so, and the formatters write
lower-case digits. Texts without the prefix never reach the decoders, and
nothing is assumed of them, nor of the two hash functions.
-/

namespace Beerus

open Beerus.Lib

/-- The Stark prime. -/
def PRIME : Nat := 2 ^ 251 + 17 * 2 ^ 192 + 1

instance : NeZero PRIME := ⟨by decide⟩

theorem two_pow_251_lt_prime : 2 ^ 251 < PRIME := by decide

theorem prime_lt_two_pow_252 : PRIME < 2 ^ 252 := by decide

/-- `starknet_crypto::Felt`, the type the sources also name `StarkFelt`. -/
abbrev FieldElement := Fin PRIME

abbrev StarkFelt := FieldElement

/-- A byte, by its value. -/
abbrev Byte := Fin 256

/-- The alphabet of bytes. -/
abbrev bytes : Radix Byte := ofFin 256

/-- `alloy_primitives::U256`. -/
abbrev U256 := BitVec 256

namespace FieldElement

/-- The element a number denotes. -/
def ofNat (n : Nat) : FieldElement := Fin.ofNat PRIME n

/-- `to_bytes_be`: 32 bytes, most significant first. -/
def toBytesBe (x : FieldElement) : List Byte := bytes.numeral 32 x.val

/-- `from_bytes_be`. -/
def fromBytesBe (bs : List Byte) : FieldElement := ofNat (bytes.value bs)

@[simp] theorem ofNat_val (n : Nat) : (ofNat n).val = n % PRIME := rfl

theorem ofNat_val_of_lt {n : Nat} (h : n < PRIME) : (ofNat n).val = n := Nat.mod_eq_of_lt h

@[simp] theorem ofNat_self (x : FieldElement) : ofNat x.val = x :=
  Fin.ext (Nat.mod_eq_of_lt x.isLt)

theorem ofNat_mod (n : Nat) : ofNat (n % PRIME) = ofNat n := Fin.ext (Nat.mod_mod n PRIME)

theorem val_lt_hex (x : FieldElement) : x.val < 16 ^ 63 :=
  x.isLt.trans (prime_lt_two_pow_252.trans_eq (by norm_num))

/-- Numbers below two to the 251 are told apart by their elements. -/
theorem ofNat_inj {m n : Nat} (hm : m < 2 ^ 251) (hn : n < 2 ^ 251) (h : ofNat m = ofNat n) :
    m = n := by
  have := congrArg Fin.val h
  rwa [ofNat_val_of_lt (hm.trans two_pow_251_lt_prime),
    ofNat_val_of_lt (hn.trans two_pow_251_lt_prime)] at this

end FieldElement

/-- `hex::encode`: two lower-case digits for each byte. -/
def hexEncode (bs : List Byte) : Text :=
  (bs.flatMap fun b => nibbles.numeral 2 b.val).map hexChar

theorem hexEncode_toBytesBe (x : FieldElement) : hexEncode x.toBytesBe = fixedHex 64 x.val := by
  have pow : bytes.base = nibbles.base ^ 2 := rfl
  rw [hexEncode, FieldElement.toBytesBe, fixedHex]
  exact congrArg _ (nibbles.flatMap_numeral pow 32 x.val)

/-- The literals of the decoders: `0x` and 1 to 64 hexadecimal digits. -/
def hexLiteral : Text → Option Nat
  | '0' :: 'x' :: ds =>
      if ds ≠ [] ∧ ds.length ≤ 64 ∧ ds.all isHexDigit = true then some (hexNumber ds) else none
  | _ => none

theorem hexLiteral_prefixed {ds : Text} (nonempty : ds ≠ []) (short : ds.length ≤ 64)
    (digits : ∀ c ∈ ds, isHexDigit c = true) :
    hexLiteral ('0' :: 'x' :: ds) = some (hexNumber ds) := by
  have all : ds.all isHexDigit = true := List.all_eq_true.mpr digits
  simp only [hexLiteral, ne_eq, nonempty, not_false_eq_true, short, all, and_self, if_true]

/-- A literal's number fits into 256 bits. -/
theorem hexLiteral_lt {s : Text} {n : Nat} (h : hexLiteral s = some n) : n < 2 ^ 256 := by
  unfold hexLiteral at h
  split at h
  · next ds =>
      split at h
      · next fits =>
          obtain rfl : hexNumber ds = n := by simpa using h
          calc hexNumber ds < 16 ^ ds.length := hexNumber_lt ds
            _ ≤ 16 ^ 64 := Nat.pow_le_pow_right (by decide) fits.2.1
            _ = 2 ^ 256 := by norm_num
      · simp at h
  · simp at h

/-- Literals are prefixed. -/
theorem exists_of_hexLiteral {s : Text} {n : Nat} (h : hexLiteral s = some n) :
    ∃ ds, s = '0' :: 'x' :: ds := by
  unfold hexLiteral at h
  split at h
  · exact ⟨_, rfl⟩
  · simp at h

/-- The third-party functions the code calls. -/
structure Crates where
  /-- `starknet_crypto::pedersen_hash`. -/
  pedersenHash : FieldElement → FieldElement → FieldElement
  /-- `starknet_crypto::poseidon_hash_many`. -/
  poseidonHashMany : List FieldElement → FieldElement
  /-- `starknet_crypto::Felt::from_hex`. -/
  fromHex : Text → Option FieldElement
  /-- `starknet_types_core::felt::Felt::from_hex_unchecked`. -/
  fromHexUnchecked : Text → StarkFelt
  /-- `format!("{:x}", felt)`. -/
  lowerHex : FieldElement → Text
  /-- `StorageKey::to_string` of `starknet_api`. -/
  storageKeyToString : FieldElement → Text
  /-- `str::parse::<U256>`. -/
  parseU256 : Text → Option U256
  fromHex_eq : ∀ ds,
    fromHex ('0' :: 'x' :: ds) = (hexLiteral ('0' :: 'x' :: ds)).map FieldElement.ofNat
  fromHexUnchecked_eq : ∀ s n, hexLiteral s = some n → fromHexUnchecked s = FieldElement.ofNat n
  lowerHex_eq : ∀ x, lowerHex x = shortHex 64 x.val
  storageKeyToString_eq : ∀ x, storageKeyToString x = '0' :: 'x' :: fixedHex 64 x.val
  parseU256_eq : ∀ s n, hexLiteral s = some n → parseU256 s = some (BitVec.ofNat 256 n)

/-- `from_hex` reads literals. -/
theorem Crates.fromHex_of_literal (crates : Crates) {s : Text} {n : Nat}
    (literal : hexLiteral s = some n) : crates.fromHex s = some (.ofNat n) := by
  obtain ⟨ds, rfl⟩ := exists_of_hexLiteral literal
  rw [crates.fromHex_eq, literal, Option.map_some]

/-- The crates with given hash functions, which read nothing but literals. -/
def Crates.ofHashes (pedersen : FieldElement → FieldElement → FieldElement)
    (poseidon : List FieldElement → FieldElement) : Crates where
  pedersenHash := pedersen
  poseidonHashMany := poseidon
  fromHex s := (hexLiteral s).map FieldElement.ofNat
  fromHexUnchecked s := FieldElement.ofNat ((hexLiteral s).getD 0)
  lowerHex x := shortHex 64 x.val
  storageKeyToString x := '0' :: 'x' :: fixedHex 64 x.val
  parseU256 s := (hexLiteral s).map (BitVec.ofNat 256)
  fromHex_eq _ := rfl
  fromHexUnchecked_eq s n h := by rw [h]; rfl
  lowerHex_eq _ := rfl
  storageKeyToString_eq _ := rfl
  parseU256_eq s n h := by rw [h]; rfl

/-- The crates with hash functions given on listed inputs, and zero elsewhere. -/
def Crates.ofTables (pedersen : List ((Nat × Nat) × Nat)) (poseidon : List (List Nat × Nat)) :
    Crates :=
  Crates.ofHashes (fun a b => .ofNat ((pedersen.lookup (a.val, b.val)).getD 0))
    (fun inputs => .ofNat ((poseidon.lookup (inputs.map Fin.val)).getD 0))

end Beerus
