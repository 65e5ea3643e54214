import Beerus.Exe

/-!
Felts as text: what the encoders write and what the decoders read.

A felt exists only where `fix` and the pattern have let it through, so it is a
literal that every decoder reads. The three decoders agree up to the field
prime, and both encoders write the one spelling that the decoder maps back.
-/

namespace Beerus

open Beerus.Lib

/-- Both encoders write a felt of the element's number, in its canonical
spelling, and the decoder maps it back. Any other felt is read as its number
modulo the prime, so that writing it again is canonical from then on. -/
theorem encoders_agree (crates : Crates) :
    (∀ x : StarkFelt, ∃ f : Felt, asFelt x.toBytesBe = .ok f ∧ Felt.tryFromStarkFelt x = .ok f ∧
      f.toStarkFelt crates = x) ∧
    ∀ g : Felt, ∃ f : Felt, asFelt (g.toStarkFelt crates).toBytesBe = .ok f ∧
      Felt.tryFromStarkFelt (g.toStarkFelt crates) = .ok f ∧
      f.text = '0' :: 'x' :: shortHex 64 (g.number % PRIME) ∧
      Felt.tryFromStarkFelt (f.toStarkFelt crates) = .ok f := by
  constructor
  · intro x
    refine ⟨.ofField x, asFelt_toBytesBe x, Felt.tryFromStarkFelt_eq x, ?_⟩
    rw [Felt.toStarkFelt_eq, Felt.field_ofField]
  · intro g
    have read : g.toStarkFelt crates = .ofNat g.number := g.toStarkFelt_eq crates
    rw [read]
    refine ⟨.ofNat g.number, asFelt_toBytesBe _, Felt.tryFromStarkFelt_eq _, rfl, ?_⟩
    rw [Felt.toStarkFelt_eq, Felt.ofNat, Felt.field_ofField, Felt.tryFromStarkFelt_eq]

/-- Whatever the constructor lets through is a literal that every decoder reads,
and they read one number. -/
theorem felt_decodes (crates : Crates) {value : Text} {f : Felt}
    (accepted : Felt.tryNew value = .ok f ∨ Felt.tryFromString value = .ok f) :
    (∃ digits, f.text = Felt.fix value ∧ Felt.fix value = '0' :: 'x' :: digits ∧ digits ≠ [] ∧
      digits.length ≤ 64 ∧ (∀ c ∈ digits, isHexDigit c = true) ∧ hexNumber digits < 2 ^ 256) ∧
    (∀ (cache : CacheKind) (args : cache.Args), ∃ key, cache.key crates f args = .ok key) ∧
    ∃ n : U256, crates.parseU256 f.text = some n ∧
      f.toStarkFelt crates = .ofNat (n.toNat % PRIME) ∧
      fieldElement crates f.text = .ok (.ofNat (n.toNat % PRIME)) := by
  have repaired : Felt.fix value = f.text := by
    rcases accepted with ok | ok
    · exact Felt.tryNew_eq_ok.mp ok
    · exact Felt.tryNew_eq_ok.mp (Res.mapErr_eq_ok.mp ok)
  refine ⟨?_, fun cache args => cache.key_ok crates f args, BitVec.ofNat 256 f.number, ?_, ?_, ?_⟩
  · obtain ⟨d, ds, text, len, digits, -⟩ := f.cases_text
    have literal : hexLiteral f.text = some (hexNumber (d :: ds)) := by
      rw [text, hexLiteral_prefixed (List.cons_ne_nil _ _) (by omega) digits]
    exact ⟨d :: ds, repaired.symm, repaired.trans text, List.cons_ne_nil _ _, by omega, digits,
      hexLiteral_lt literal⟩
  · exact crates.parseU256_eq _ _ f.hexLiteral_text
  · rw [Felt.toStarkFelt_eq, f.toNat_u256, FieldElement.ofNat_mod, Felt.field]
  · rw [fieldElement_felt, f.toNat_u256, FieldElement.ofNat_mod, Felt.field]

/-- Crates whose hashes are zero. -/
def plainCrates : Crates := .ofTables [] []

theorem felt_decodes_zeros :
    (∃ digits, (Felt.ofNat 0x2a).text = Felt.fix "0x002a".toList ∧
      Felt.fix "0x002a".toList = '0' :: 'x' :: digits ∧ digits ≠ [] ∧ digits.length ≤ 64 ∧
      (∀ c ∈ digits, isHexDigit c = true) ∧ hexNumber digits < 2 ^ 256) ∧
    (∀ (cache : CacheKind) (args : cache.Args),
      ∃ key, cache.key plainCrates (.ofNat 0x2a) args = .ok key) ∧
    ∃ n : U256, plainCrates.parseU256 (Felt.ofNat 0x2a).text = some n ∧
      (Felt.ofNat 0x2a).toStarkFelt plainCrates = .ofNat (n.toNat % PRIME) ∧
      fieldElement plainCrates (Felt.ofNat 0x2a).text = .ok (.ofNat (n.toNat % PRIME)) :=
  felt_decodes plainCrates (.inl (by decide +kernel))

/-! ### Letter case -/

namespace Felt

/-- Which characters of a felt are in upper case. -/
def casing (f : Felt) : List Bool := f.text.map Char.isUpper

/-- A felt without upper case. -/
def IsLower (f : Felt) : Prop := ∀ upper ∈ f.casing, upper = false

instance (f : Felt) : Decidable f.IsLower :=
  List.decidableBAll _ f.casing

variable {f g : Felt}

/-- The spellings of one number have the same digit values. -/
theorem map_hexVal_of_number (same : f.number = g.number) :
    (f.text.drop 2).map hexVal = (g.text.drop 2).map hexVal := by
  obtain ⟨d, ds, text, -, digits, lone⟩ := f.cases_text
  obtain ⟨e, es, text', -, digits', lone'⟩ := g.cases_text
  simp only [number, text, text', List.drop_succ_cons, List.drop_zero] at same ⊢
  have first := digits d List.mem_cons_self
  have first' := digits' e List.mem_cons_self
  by_cases zero : d = '0'
  · by_cases zero' : e = '0'
    · rw [zero, zero', lone zero, lone' zero']
    · rw [zero, lone zero] at same
      exact absurd same.symm (hexNumber_pos first' zero').ne'
  · by_cases zero' : e = '0'
    · rw [zero', lone' zero'] at same
      exact absurd same (hexNumber_pos first zero).ne'
    · exact map_hexVal_eq first zero first' zero' same

/-- A felt is its number and the case of its letters. -/
theorem eq_iff_number_casing : f = g ↔ f.number = g.number ∧ f.casing = g.casing := by
  constructor
  · rintro rfl
    exact ⟨rfl, rfl⟩
  · rintro ⟨same, casing⟩
    have values := map_hexVal_of_number same
    obtain ⟨d, ds, text, -, digits, -⟩ := f.cases_text
    obtain ⟨e, es, text', -, digits', -⟩ := g.cases_text
    apply Felt.text_inj.mp
    simp only [Felt.casing, text, text', List.map_cons, List.cons.injEq, true_and] at casing
    simp only [text, text', List.drop_succ_cons, List.drop_zero] at values
    have run := eq_of_map_hexVal digits digits' values (by simp [casing])
    rw [text, text', run]

/-- Of the spellings of a number, one is in lower case. -/
theorem eq_of_isLower (lower : f.IsLower) (lower' : g.IsLower) (same : f.number = g.number) :
    f = g := by
  refine eq_iff_number_casing.mpr ⟨same, ?_⟩
  have len : f.casing.length = g.casing.length := by
    have values := congrArg List.length (map_hexVal_of_number same)
    obtain ⟨d, ds, text, -⟩ := f.cases_text
    obtain ⟨e, es, text', -⟩ := g.cases_text
    simpa [casing, text, text'] using values
  exact (List.eq_replicate_iff.mpr ⟨len, lower⟩).trans
    (List.eq_replicate_iff.mpr ⟨rfl, lower'⟩).symm

theorem isLower_ofField (x : FieldElement) : (ofField x).IsLower := by
  have digit : ∀ d : Fin 16, (hexChar d).isUpper = false := by decide
  have run : ∀ c ∈ shortHex 64 x.val, c.isUpper = false := by
    intro c mem
    unfold shortHex at mem
    split at mem
    · obtain rfl : c = '0' := List.mem_singleton.mp mem
      rfl
    · next stripped =>
        have listed := (List.dropWhile_suffix _).subset (stripped ▸ mem)
        obtain ⟨d, -, rfl⟩ := List.mem_map.mp listed
        exact digit d
  intro upper mem
  simp only [casing, ofField_text, List.map_cons, List.mem_cons] at mem
  rcases mem with rfl | rfl | mem
  · rfl
  · rfl
  · obtain ⟨c, listed, rfl⟩ := List.mem_map.mp mem
    exact run c listed

/-- The canonical spelling is the one in lower case. -/
theorem eq_ofField_iff {x : FieldElement} : f = ofField x ↔ f.number = x.val ∧ f.IsLower := by
  constructor
  · rintro rfl
    exact ⟨number_ofField x, isLower_ofField x⟩
  · rintro ⟨same, lower⟩
    exact eq_of_isLower lower (isLower_ofField x) (same.trans (number_ofField x).symm)

end Felt

end Beerus
