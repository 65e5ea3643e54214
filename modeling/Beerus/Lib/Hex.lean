import Beerus.Lib.Radix

/-!
Hexadecimal text: digits in either case, read as numbers, and the lower-case
spellings of a number, one padded to a fixed width and one without leading
zeros.

`hexNumber` is total; `isHexDigit` says where it means something. The two
spellings read back as the number they were written from
(`hexNumber_fixedHex`, `hexNumber_shortHex`), and `shortHex` starts with a zero
only when it is the single digit zero (`shortHex_cases`).
-/

namespace Beerus.Lib

/-- Text as the list of its characters. -/
abbrev Text := List Char

/-- The alphabet of hexadecimal digit values. -/
abbrev nibbles : Radix (Fin 16) := ofFin 16

/-- `[0-9a-fA-F]`. -/
def isHexDigit (c : Char) : Bool :=
  ('0' ≤ c && c ≤ '9') || ('a' ≤ c && c ≤ 'f') || ('A' ≤ c && c ≤ 'F')

/-- The value of a hexadecimal digit in either case. -/
def hexVal (c : Char) : Fin 16 :=
  if 'a' ≤ c then Fin.ofNat 16 (c.toNat - 'a'.toNat + 10)
  else if 'A' ≤ c then Fin.ofNat 16 (c.toNat - 'A'.toNat + 10)
  else Fin.ofNat 16 (c.toNat - '0'.toNat)

/-- The lower-case digit of a value. -/
def hexChar (d : Fin 16) : Char :=
  if d < 10 then Char.ofNat ('0'.toNat + d) else Char.ofNat ('a'.toNat + (d - 10))

/-- The number a run of hexadecimal digits denotes. -/
def hexNumber (ds : Text) : Nat := nibbles.value (ds.map hexVal)

@[simp] theorem isHexDigit_hexChar (d : Fin 16) : isHexDigit (hexChar d) = true := by
  revert d; decide

@[simp] theorem hexVal_hexChar (d : Fin 16) : hexVal (hexChar d) = d := by
  revert d; decide

@[simp] theorem hexNumber_nil : hexNumber [] = 0 := rfl

theorem hexNumber_cons (c : Char) (ds : Text) :
    hexNumber (c :: ds) = (hexVal c).val * 16 ^ ds.length + hexNumber ds := by
  simp [hexNumber]

/-- Leading zeros do not change the number. -/
@[simp] theorem hexNumber_zero_cons (ds : Text) : hexNumber ('0' :: ds) = hexNumber ds := by
  rw [hexNumber_cons]
  have : (hexVal '0').val = 0 := by decide
  simp [this]

theorem hexNumber_lt (ds : Text) : hexNumber ds < 16 ^ ds.length := by
  simpa [hexNumber] using nibbles.value_lt (ds.map hexVal)

@[simp] theorem hexNumber_map_hexChar (ds : List (Fin 16)) :
    hexNumber (ds.map hexChar) = nibbles.value ds := by
  simp [hexNumber, Function.comp_def]

theorem hexNumber_dropWhile_zero (ds : Text) :
    hexNumber (ds.dropWhile (· == '0')) = hexNumber ds := by
  induction ds with
  | nil => rfl
  | cons c ds ih =>
      by_cases zero : c = '0'
      · subst zero
        rw [List.dropWhile_cons_of_pos (by rfl), ih, hexNumber_zero_cons]
      · rw [List.dropWhile_cons_of_neg (by simpa using zero)]

/-- What holds of the digits among the ASCII characters holds of all digits. -/
theorem forall_hexDigit {p : Char → Prop}
    (ascii : ∀ n < 128, isHexDigit (Char.ofNat n) = true → p (Char.ofNat n)) {c : Char}
    (digit : isHexDigit c = true) : p c := by
  have small : c.toNat < 128 := by
    simp only [isHexDigit, Bool.or_eq_true, Bool.and_eq_true, decide_eq_true_eq, Char.le_def,
      UInt32.le_iff_toNat_le] at digit
    have bounds : ('9'.val.toNat, 'f'.val.toNat, 'F'.val.toNat) = (57, 102, 70) := rfl
    simp only [Prod.mk.injEq] at bounds
    have number : c.toNat = c.val.toNat := rfl
    omega
  have here := ascii c.toNat small
  rw [Char.ofNat_toNat] at here
  exact here digit

/-- Only the digit `0` has the value zero. -/
theorem hexVal_eq_zero {c : Char} (digit : isHexDigit c = true) : hexVal c = 0 ↔ c = '0' :=
  @forall_hexDigit (fun c => hexVal c = 0 ↔ c = '0') (by decide) c digit

/-- The digit of a value in upper or lower case. -/
def recase (upper : Bool) (d : Fin 16) : Char :=
  if upper then (hexChar d).toUpper else hexChar d

/-- A digit is its value, in its case. -/
theorem recase_hexVal {c : Char} (digit : isHexDigit c = true) :
    recase c.isUpper (hexVal c) = c :=
  @forall_hexDigit (fun c => recase c.isUpper (hexVal c) = c) (by decide) c digit

/-- Two runs of the same values in the same cases are one. -/
theorem eq_of_map_hexVal {xs ys : Text} (digits : ∀ c ∈ xs, isHexDigit c = true)
    (digits' : ∀ c ∈ ys, isHexDigit c = true) (values : xs.map hexVal = ys.map hexVal)
    (casing : xs.map Char.isUpper = ys.map Char.isUpper) : xs = ys := by
  have spelled : ∀ zs : Text, (∀ c ∈ zs, isHexDigit c = true) →
      List.zipWith recase (zs.map Char.isUpper) (zs.map hexVal) = zs := by
    intro zs all
    induction zs with
    | nil => rfl
    | cons c zs ih =>
        obtain ⟨here, rest⟩ := List.forall_mem_cons.mp all
        rw [List.map_cons, List.map_cons, List.zipWith_cons_cons, recase_hexVal here, ih rest]
  rw [← spelled xs digits, values, casing, spelled ys digits']

/-- Without a leading zero, every digit counts. -/
theorem pow_le_hexNumber {d : Char} {ds : Text} (digit : isHexDigit d = true) (nonzero : d ≠ '0') :
    16 ^ ds.length ≤ hexNumber (d :: ds) := by
  have positive : 0 < (hexVal d).val := by
    refine Nat.pos_of_ne_zero fun zero => nonzero ((hexVal_eq_zero digit).mp ?_)
    exact Fin.ext zero
  rw [hexNumber_cons]
  exact (Nat.le_mul_of_pos_left _ positive).trans (Nat.le_add_right _ _)

theorem hexNumber_pos {d : Char} {ds : Text} (digit : isHexDigit d = true) (nonzero : d ≠ '0') :
    0 < hexNumber (d :: ds) := by
  have power : 0 < 16 ^ ds.length := Nat.pow_pos (by decide)
  exact power.trans_le (pow_le_hexNumber digit nonzero)

/-- Runs without a leading zero that denote one number have the same values. -/
theorem map_hexVal_eq {d e : Char} {ds es : Text} (digit : isHexDigit d = true)
    (nonzero : d ≠ '0') (digit' : isHexDigit e = true) (nonzero' : e ≠ '0')
    (same : hexNumber (d :: ds) = hexNumber (e :: es)) :
    (d :: ds).map hexVal = (e :: es).map hexVal := by
  have shorter : ∀ {a b : Char} {as bs : Text}, isHexDigit a = true → a ≠ '0' →
      hexNumber (a :: as) = hexNumber (b :: bs) → as.length ≤ bs.length := by
    intro a b as bs first leading number
    have room := (pow_le_hexNumber first leading).trans_lt (number ▸ hexNumber_lt (b :: bs))
    exact Nat.le_of_lt_succ ((Nat.pow_lt_pow_iff_right (by decide)).mp room)
  have len := le_antisymm (shorter digit nonzero same) (shorter digit' nonzero' same.symm)
  exact nibbles.value_inj (by simp [len]) same

/-! ### Spellings of a number -/

/-- `n` in exactly `w` lower-case digits. -/
def fixedHex (w n : Nat) : Text := (nibbles.numeral w n).map hexChar

/-- `n` in lower-case digits without leading zeros, for `n` below `16 ^ w`. -/
def shortHex (w n : Nat) : Text :=
  match (fixedHex w n).dropWhile (· == '0') with
  | [] => ['0']
  | d :: ds => d :: ds

@[simp] theorem length_fixedHex (w n : Nat) : (fixedHex w n).length = w := by
  simp [fixedHex]

theorem fixedHex_all (w n : Nat) : ∀ c ∈ fixedHex w n, isHexDigit c = true := by
  intro c mem
  obtain ⟨d, -, rfl⟩ := List.mem_map.mp mem
  exact isHexDigit_hexChar d

theorem hexNumber_fixedHex {w n : Nat} (h : n < 16 ^ w) : hexNumber (fixedHex w n) = n := by
  rw [fixedHex, hexNumber_map_hexChar]
  exact nibbles.value_numeral_of_lt h

/-- Padding writes zeros in front. -/
theorem fixedHex_pad {w n : Nat} (a : Nat) (h : n < 16 ^ w) :
    fixedHex (a + w) n = List.replicate a '0' ++ fixedHex w n := by
  rw [fixedHex, nibbles.numeral_pad a h, List.map_append, List.map_replicate]
  rfl

theorem dropWhile_zero_replicate (a : Nat) (ds : Text) :
    (List.replicate a '0' ++ ds).dropWhile (· == '0') = ds.dropWhile (· == '0') := by
  induction a with
  | zero => rfl
  | succ a ih =>
      rw [List.replicate_succ, List.cons_append, List.dropWhile_cons_of_pos (by rfl), ih]

/-- The short spelling does not depend on how much room it was given. -/
theorem shortHex_pad {w n : Nat} (a : Nat) (h : n < 16 ^ w) :
    shortHex (a + w) n = shortHex w n := by
  unfold shortHex
  rw [fixedHex_pad a h, dropWhile_zero_replicate]

/-- A short spelling is the digit zero or a run of digits without a leading zero. -/
theorem shortHex_cases {w n : Nat} (h : n < 16 ^ w) :
    (n = 0 ∧ shortHex w n = ['0']) ∨
      ∃ d ds, shortHex w n = d :: ds ∧ d ≠ '0' ∧ (d :: ds).length ≤ w ∧
        ∀ c ∈ d :: ds, isHexDigit c = true := by
  have number := hexNumber_dropWhile_zero (fixedHex w n)
  rw [hexNumber_fixedHex h] at number
  cases run : (fixedHex w n).dropWhile (· == '0') with
  | nil =>
      rw [run, hexNumber_nil] at number
      exact .inl ⟨number.symm, by simp [shortHex, run]⟩
  | cons d ds =>
      have suffix : d :: ds <:+ fixedHex w n := run ▸ List.dropWhile_suffix _
      refine .inr ⟨d, ds, by simp [shortHex, run], ?_, ?_, ?_⟩
      · have head := @List.head_dropWhile_not _ (· == '0') (fixedHex w n) (by simp [run])
        simpa [run] using head
      · simpa using suffix.length_le
      · intro c mem
        exact fixedHex_all w n c (suffix.subset mem)

theorem hexNumber_shortHex {w n : Nat} (h : n < 16 ^ w) : hexNumber (shortHex w n) = n := by
  have number := hexNumber_dropWhile_zero (fixedHex w n)
  rw [hexNumber_fixedHex h] at number
  unfold shortHex
  split
  · next run => rw [run] at number; rw [hexNumber_zero_cons]; exact number
  · next run => rw [run] at number; exact number

end Beerus.Lib
