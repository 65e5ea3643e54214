import Beerus.Proof.Verify

/-!
Which key the path of a walk identifies.

`parseProof` walks the 251 low bits of its key and turns away keys that are
wider. It compares the number of bits it has kept, though, and that is always
251: a key of two to the 251 or more is walked along the path of a smaller one
(`parseProof_alias`). Such keys reach it, since a storage key may be anything
behind `0x0`, and an address is any felt.
-/

namespace Beerus

open Beerus.Lib

/-- Numbers below two to the 251 are told apart by their paths. -/
theorem pathOf_inj {m n : Nat} (hm : m < 2 ^ 251) (hn : n < 2 ^ 251) (same : pathOf m = pathOf n) :
    m = n := by
  have value := congrArg binary.value same
  rwa [pathOf, pathOf, binary.value_numeral_of_lt hm, binary.value_numeral_of_lt hn] at value

namespace GetProofResult

variable {crates : Crates} {profile : Profile} {key key' : Text} {value : Felt} {nodes : Proof}

/-- Whenever a list is accepted for a key, the key denotes a number below two to
the 251, and no other such number has the path that was walked. -/
def PathIdentifies (crates : Crates) (profile : Profile) (key : Text) : Prop :=
  ∀ value nodes root, parseProof crates profile key value nodes = .ok (some root) →
    ∃ n, hexLiteral key = some n ∧ n < 2 ^ 251 ∧
      ∀ k, crates.fromHex key = some k →
        ∀ m, m < 2 ^ 251 → (feltToBits k.toBytesBe = pathOf m ↔ m = n)

/-- The empty list is accepted for every key that is read. -/
theorem parseProof_nil {n : Nat} (literal : hexLiteral key = some n) (value : Felt) :
    parseProof crates profile key value [] = .ok (some (.ofField value.field)) := by
  exact parseProof_eq_some.mpr ⟨.ofNat n, crates.fromHex_of_literal literal, trivial, rfl⟩

/-- A wider key is not identified. -/
theorem not_pathIdentifies {n : Nat} (literal : hexLiteral key = some n) (wide : 2 ^ 251 ≤ n) :
    ¬ PathIdentifies crates profile key := by
  intro identifies
  obtain ⟨n', literal', small, -⟩ := identifies (.ofNat 0) [] _ (parseProof_nil literal _)
  obtain rfl : n = n' := Option.some.inj (literal.symm.trans literal')
  exact absurd small (Nat.not_lt.mpr wide)

/-- A key's path identifies it exactly where its number is below two to the 251.
The texts of storage keys and addresses begin with `0x`. -/
theorem pathIdentifies_iff {ds : Text} :
    PathIdentifies crates profile ('0' :: 'x' :: ds) ↔
      ∀ n, hexLiteral ('0' :: 'x' :: ds) = some n → n < 2 ^ 251 := by
  constructor
  · intro identifies n literal
    by_contra wide
    exact not_pathIdentifies literal (Nat.not_lt.mp wide) identifies
  · intro narrow value nodes root accepted
    obtain ⟨k, read, -⟩ := parseProof_eq_some.mp accepted
    rw [crates.fromHex_eq] at read
    obtain ⟨n, literal, rfl⟩ := Option.map_eq_some_iff.mp read
    have small := narrow n literal
    refine ⟨n, literal, small, ?_⟩
    intro k read' m bound
    obtain rfl := Option.some.inj ((crates.fromHex_of_literal literal).symm.trans read')
    rw [feltToBits_ofNat small]
    constructor
    · intro same
      exact (pathOf_inj small bound same).symm
    · rintro rfl
      rfl

/-- Keys are checked alike where the 251 low bits of their elements agree. -/
theorem parseProof_alias {n n' : Nat} (literal : hexLiteral key = some n)
    (literal' : hexLiteral key' = some n') (low : n % PRIME % 2 ^ 251 = n' % PRIME % 2 ^ 251) :
    parseProof crates profile key value nodes = parseProof crates profile key' value nodes := by
  have path : feltToBits (FieldElement.ofNat n).toBytesBe =
      feltToBits (FieldElement.ofNat n').toBytesBe := by
    apply binary.value_inj (by simp)
    rw [feltToBits_toBytesBe, feltToBits_toBytesBe, binary.value_numeral, binary.value_numeral]
    exact low
  simp only [parseProof, fieldElement, crates.fromHex_of_literal literal,
    crates.fromHex_of_literal literal', Res.okOr_some, Res.ok_bind, path]

end GetProofResult

/-- The key `2 ^ 251 + 0x5`, behind `0x0`. -/
def highKey : StorageKey :=
  ⟨'0' :: 'x' :: '0' :: '8' :: (List.replicate 61 '0' ++ ['5']), rfl⟩

/-- The address `2 ^ 251 + 0x1234`. -/
def highAddress : Address :=
  ⟨⟨'0' :: 'x' :: '8' :: (List.replicate 58 '0' ++ ['1', '2', '3', '4']), by decide +kernel⟩⟩

/-- The proof of the slot at `0x5` is accepted for a key that has another number,
and the contract's for an address that has another one. -/
theorem highKey_accepted :
    hexLiteral highKey.text = some (2 ^ 251 + 0x5) ∧
      sampleProof.verify sampleHashes .release (.ofField (sampleState.root sampleHashes))
        sampleAddress highKey (.ofNat 0x2a) = .ok () ∧
      ¬ GetProofResult.PathIdentifies sampleHashes .release highKey.text ∧
    hexLiteral highAddress.felt.text = some (2 ^ 251 + 0x1234) ∧
      sampleProof.verify sampleHashes .release (.ofField (sampleState.root sampleHashes))
        highAddress sampleKey (.ofNat 0x2a) = .ok () ∧
      ¬ GetProofResult.PathIdentifies sampleHashes .release highAddress.felt.text := by
  have key : hexLiteral highKey.text = some (2 ^ 251 + 0x5) := by decide +kernel
  have address : hexLiteral highAddress.felt.text = some (2 ^ 251 + 0x1234) := by decide +kernel
  refine ⟨key, by decide +kernel, ?_, address, by decide +kernel, ?_⟩
  · exact GetProofResult.not_pathIdentifies key (Nat.le_add_right _ _)
  · exact GetProofResult.not_pathIdentifies address (Nat.le_add_right _ _)

end Beerus
