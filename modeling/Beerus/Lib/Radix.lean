import Mathlib

/-!
Fixed-width positional numerals, most significant digit first, over an
arbitrary digit alphabet.

A `Radix δ` names the digits of a base by their values. `value` reads a list
of digits as a number and `numeral w n` writes the `w` low digits of `n`.
Bits, bytes and hexadecimal digits are three instances of one alphabet, and
`flatMap_numeral` refines a numeral of a coarse base (bytes) into one of a
finer base (bits) when the coarse base is a power of the fine one.
-/

namespace Beerus.Lib

/-- A digit alphabet: each digit has a value below the base, and every number
below the base is the value of exactly one digit. -/
structure Radix (δ : Type) where
  base : Nat
  val : δ → Nat
  digit : Nat → δ
  base_pos : 0 < base
  val_lt : ∀ d, val d < base
  digit_val : ∀ d, digit (val d) = d
  val_digit : ∀ n, n < base → val (digit n) = n

namespace Radix

variable {δ : Type} (R : Radix δ)

/-- The number a digit list denotes, most significant digit first. -/
def value : List δ → Nat
  | [] => 0
  | d :: ds => R.val d * R.base ^ ds.length + value ds

/-- The `w` low digits of `n`, most significant first. -/
def numeral : Nat → Nat → List δ
  | 0, _ => []
  | w + 1, n => R.digit (n / R.base ^ w % R.base) :: numeral w n

@[simp] theorem value_nil : R.value [] = 0 := rfl

@[simp] theorem value_cons (d : δ) (ds : List δ) :
    R.value (d :: ds) = R.val d * R.base ^ ds.length + R.value ds := rfl

@[simp] theorem numeral_zero (n : Nat) : R.numeral 0 n = [] := rfl

theorem numeral_succ (w n : Nat) :
    R.numeral (w + 1) n = R.digit (n / R.base ^ w % R.base) :: R.numeral w n := rfl

@[simp] theorem length_numeral (w n : Nat) : (R.numeral w n).length = w := by
  induction w with
  | zero => rfl
  | succ w ih => rw [numeral_succ, List.length_cons, ih]

theorem pow_pos (w : Nat) : 0 < R.base ^ w := Nat.pow_pos R.base_pos

theorem val_digit_mod (n : Nat) : R.val (R.digit (n % R.base)) = n % R.base :=
  R.val_digit _ (Nat.mod_lt _ R.base_pos)

/-- A digit list denotes a number below the power its length allows. -/
theorem value_lt (ds : List δ) : R.value ds < R.base ^ ds.length := by
  induction ds with
  | nil => simp
  | cons d ds ih =>
      have step : R.val d * R.base ^ ds.length + R.base ^ ds.length ≤
          R.base * R.base ^ ds.length := by
        rw [← Nat.succ_mul]
        exact Nat.mul_le_mul_right _ (R.val_lt d)
      rw [value_cons, List.length_cons, Nat.pow_succ, Nat.mul_comm _ R.base]
      omega

theorem value_append (xs ys : List δ) :
    R.value (xs ++ ys) = R.value xs * R.base ^ ys.length + R.value ys := by
  induction xs with
  | nil => simp
  | cons d xs ih =>
      rw [List.cons_append, value_cons, value_cons, ih, List.length_append, Nat.pow_add]
      ring

/-- Writing and reading back keeps the low digits. -/
theorem value_numeral (w n : Nat) : R.value (R.numeral w n) = n % R.base ^ w := by
  induction w with
  | zero => simp [Nat.mod_one]
  | succ w ih =>
      rw [numeral_succ, value_cons, length_numeral, val_digit_mod, ih, Nat.pow_succ,
        Nat.mod_mul]
      ring

theorem value_numeral_of_lt {w n : Nat} (h : n < R.base ^ w) : R.value (R.numeral w n) = n := by
  rw [value_numeral, Nat.mod_eq_of_lt h]

/-- The low digits of `n` do not see what is added above them. -/
theorem numeral_add_mul (w n k : Nat) : R.numeral w (n + k * R.base ^ w) = R.numeral w n := by
  induction w generalizing k with
  | zero => rfl
  | succ w ih =>
      have split : n + k * R.base ^ (w + 1) = n + (k * R.base) * R.base ^ w := by ring
      rw [numeral_succ, numeral_succ, split, ih, Nat.add_mul_div_right _ _ (R.pow_pos w),
        Nat.add_mul_mod_self_right]

/-- Reading and writing back is the identity on digit lists. -/
theorem numeral_value (ds : List δ) : R.numeral ds.length (R.value ds) = ds := by
  induction ds with
  | nil => rfl
  | cons d ds ih =>
      have low := R.value_lt ds
      have top : (R.val d * R.base ^ ds.length + R.value ds) / R.base ^ ds.length = R.val d := by
        rw [Nat.add_comm, Nat.add_mul_div_right _ _ (R.pow_pos _), Nat.div_eq_of_lt low,
          Nat.zero_add]
      rw [List.length_cons, numeral_succ, value_cons, top, Nat.mod_eq_of_lt (R.val_lt d),
        R.digit_val, Nat.add_comm, numeral_add_mul, ih]

/-- Two digit lists of one length that denote the same number are equal. -/
theorem value_inj {xs ys : List δ} (len : xs.length = ys.length) (h : R.value xs = R.value ys) :
    xs = ys := by
  rw [← R.numeral_value xs, ← R.numeral_value ys, len, h]

/-- A wide numeral is its high part followed by its low part. -/
theorem numeral_add (a b n : Nat) :
    R.numeral (a + b) n = R.numeral a (n / R.base ^ b) ++ R.numeral b n := by
  induction a with
  | zero => simp
  | succ a ih =>
      rw [Nat.succ_add, numeral_succ, numeral_succ, ih, List.cons_append, Nat.div_div_eq_div_mul,
        ← Nat.pow_add, Nat.add_comm b a]

theorem drop_numeral {a w : Nat} (n : Nat) (h : a ≤ w) :
    (R.numeral w n).drop a = R.numeral (w - a) n := by
  obtain ⟨b, rfl⟩ := Nat.exists_eq_add_of_le h
  rw [numeral_add, List.drop_append_of_le_length (by simp), List.drop_of_length_le (by simp),
    List.nil_append, Nat.add_sub_cancel_left]

/-- Dropping leading digits reduces the value modulo the power that is left. -/
theorem value_drop (ds : List δ) (a : Nat) :
    R.value (ds.drop a) = R.value ds % R.base ^ (ds.length - a) := by
  have split := R.value_append (ds.take a) (ds.drop a)
  have low := R.value_lt (ds.drop a)
  rw [List.take_append_drop, List.length_drop] at split
  rw [List.length_drop] at low
  rw [split, Nat.mul_comm, Nat.mul_add_mod, Nat.mod_eq_of_lt low]

@[simp] theorem value_replicate_zero (n : Nat) (ds : List δ) :
    R.value (List.replicate n (R.digit 0) ++ ds) = R.value ds := by
  induction n with
  | zero => simp
  | succ n ih =>
      rw [List.replicate_succ, List.cons_append, value_cons, R.val_digit 0 R.base_pos, ih]
      simp

/-- Writing a number into more digits than it needs pads it with zeros. -/
theorem numeral_pad {w n : Nat} (a : Nat) (h : n < R.base ^ w) :
    R.numeral (a + w) n = List.replicate a (R.digit 0) ++ R.numeral w n := by
  apply R.value_inj (by simp)
  rw [value_replicate_zero, value_numeral_of_lt R h]
  exact R.value_numeral_of_lt (h.trans_le (Nat.pow_le_pow_right R.base_pos (by omega)))

section Refine

variable {ε : Type} {S : Radix ε} {k : Nat}

/-- Spelling every coarse digit in `k` fine digits turns a coarse numeral into
the fine numeral of the same number. -/
theorem flatMap_numeral (pow : S.base = R.base ^ k) (w n : Nat) :
    (S.numeral w n).flatMap (fun d => R.numeral k (S.val d)) = R.numeral (w * k) n := by
  induction w with
  | zero => simp
  | succ w ih =>
      have low : R.numeral k (n / S.base ^ w % S.base) = R.numeral k (n / S.base ^ w) := by
        conv_rhs => rw [← Nat.mod_add_div' (n / S.base ^ w) (R.base ^ k), numeral_add_mul]
        rw [pow]
      rw [numeral_succ, List.flatMap_cons, ih, S.val_digit_mod, low, Nat.succ_mul,
        Nat.add_comm (w * k) k, numeral_add, pow, ← Nat.pow_mul, Nat.mul_comm k w]

end Refine

end Radix

/-! ### Bits and bytes -/

/-- The binary alphabet. -/
def binary : Radix Bool where
  base := 2
  val := Bool.toNat
  digit n := n == 1
  base_pos := by decide
  val_lt d := d.toNat_lt
  digit_val d := by cases d <;> rfl
  val_digit n h := by
    match n, h with
    | 0, _ => rfl
    | 1, _ => rfl

/-- The alphabet whose digits are the numbers below `b` themselves. -/
def ofFin (b : Nat) [NeZero b] : Radix (Fin b) where
  base := b
  val := Fin.val
  digit := Fin.ofNat b
  base_pos := NeZero.pos b
  val_lt := Fin.isLt
  digit_val d := by simp
  val_digit n h := by simp [Nat.mod_eq_of_lt h]

@[simp] theorem binary_base : binary.base = 2 := rfl

@[simp] theorem ofFin_base (b : Nat) [NeZero b] : (ofFin b).base = b := rfl

@[simp] theorem ofFin_val (b : Nat) [NeZero b] (d : Fin b) : (ofFin b).val d = d.val := rfl

end Beerus.Lib
