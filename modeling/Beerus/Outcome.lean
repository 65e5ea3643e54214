import Mathlib

/-!
What a Rust function hands back, and the machine arithmetic it does on the way.

A computation returns a value, returns an error of its own type or panics.
Unsigned subtraction and signed addition follow the build profile: with
overflow checks (`debug`) they panic where the result does not fit, without
them (`release`) they wrap. `usize` is 64 bits wide.
-/

namespace Beerus

/-- Why a computation has no value: it returned an error, or it panicked. -/
inductive Fault (ε : Type) where
  | error (e : ε)
  | panic
deriving DecidableEq, Repr

/-- `Result<α, ε>`, with panics alongside. -/
abbrev Res (ε α : Type) := Except (Fault ε) α

namespace Res

variable {ε ε' α β : Type}

/-- `Err(e)`. -/
def err (e : ε) : Res ε α := .error (.error e)

/-- A panic: an index out of range, an overflow check, an `unwrap` of nothing. -/
def panic : Res ε α := .error .panic

/-- `Option::ok_or`. -/
def okOr (e : ε) : Option α → Res ε α
  | some a => .ok a
  | none => err e

/-- `Result::map_err`; a panic passes through. -/
def mapErr (f : ε → ε') : Res ε α → Res ε' α
  | .ok a => .ok a
  | .error (.error e) => err (f e)
  | .error .panic => panic

/-- Indexing, which panics out of range. -/
def index (xs : List α) (i : Nat) : Res ε α :=
  match xs[i]? with
  | some a => .ok a
  | none => panic

@[simp] theorem okOr_some (e : ε) (a : α) : okOr e (some a) = .ok a := rfl

@[simp] theorem okOr_none (e : ε) : okOr e (none : Option α) = err e := rfl

@[simp] theorem mapErr_ok (f : ε → ε') (a : α) : mapErr f (.ok a) = .ok a := rfl

@[simp] theorem err_ne_ok (e : ε) (a : α) : (err e : Res ε α) ≠ .ok a := by
  simp [err]

@[simp] theorem panic_ne_ok (a : α) : (panic : Res ε α) ≠ .ok a := by
  simp [panic]

@[simp] theorem ok_ne_panic (a : α) : (.ok a : Res ε α) ≠ panic := by
  simp [panic]

@[simp] theorem err_ne_panic (e : ε) : (err e : Res ε α) ≠ panic := by
  simp [err, panic]

@[simp] theorem pure_eq_ok (a : α) : (pure a : Res ε α) = .ok a := rfl

@[simp] theorem ok_bind (a : α) (f : α → Res ε β) : ((.ok a : Res ε α) >>= f) = f a := rfl

@[simp] theorem err_bind (e : ε) (f : α → Res ε β) : ((err e : Res ε α) >>= f) = err e := rfl

@[simp] theorem panic_bind (f : α → Res ε β) : ((panic : Res ε α) >>= f) = panic := rfl

/-- A sequence returns a value exactly when both its parts do. -/
theorem bind_eq_ok {x : Res ε α} {f : α → Res ε β} {b : β} :
    x >>= f = .ok b ↔ ∃ a, x = .ok a ∧ f a = .ok b := by
  cases x with
  | ok a => simp
  | error e => simp [bind, Except.bind]

@[simp] theorem okOr_eq_ok {e : ε} {o : Option α} {a : α} : okOr e o = .ok a ↔ o = some a := by
  cases o <;> simp

@[simp] theorem mapErr_eq_ok {f : ε → ε'} {x : Res ε α} {a : α} :
    mapErr f x = .ok a ↔ x = .ok a := by
  match x with
  | .ok b => simp
  | .error (.error e) => simp [mapErr]
  | .error .panic => simp [mapErr]

theorem mapError_eq_ok {δ δ' : Type} {f : δ → δ'} {x : Except δ α} {a : α} :
    x.mapError f = .ok a ↔ x = .ok a := by
  cases x <;> simp [Except.mapError]

@[simp] theorem index_eq_ok {xs : List α} {i : Nat} {a : α} :
    (index xs i : Res ε α) = .ok a ↔ xs[i]? = some a := by
  unfold index
  split <;> simp_all

theorem mapErr_eq_err {f : ε → ε'} {x : Res ε α} {e : ε'} :
    mapErr f x = err e ↔ ∃ e', x = err e' ∧ f e' = e := by
  match x with
  | .ok b => simp [err]
  | .error (.error e') => simp [mapErr, err]
  | .error .panic => simp [mapErr, err, panic]

/-- A sequence returns an error where its first part does, or goes on to what
does. -/
theorem bind_eq_err {x : Res ε α} {f : α → Res ε β} {e : ε} :
    x >>= f = err e ↔ x = err e ∨ ∃ a, x = .ok a ∧ f a = err e := by
  match x with
  | .ok a => simp [err]
  | .error (.error e') => simp [bind, Except.bind, err]
  | .error .panic => simp [bind, Except.bind, err]

/-- A computation returns no error of its own: where it has no value, it has
panicked. -/
def NeverErrs (x : Res ε α) : Prop := ∀ e, x ≠ err e

theorem neverErrs_ok (a : α) : NeverErrs (.ok a : Res ε α) := nofun

theorem neverErrs_panic : NeverErrs (panic : Res ε α) := nofun

theorem NeverErrs.bind {x : Res ε α} {f : α → Res ε β} (quiet : x.NeverErrs)
    (rest : ∀ a, NeverErrs (f a)) : NeverErrs (x >>= f) := by
  match x with
  | .ok a => exact rest a
  | .error .panic => exact neverErrs_panic
  | .error (.error e) => exact absurd rfl (quiet e)

theorem NeverErrs.ne_panic_iff {x : Res ε α} (quiet : x.NeverErrs) :
    x ≠ panic ↔ ∃ a, x = .ok a := by
  match x with
  | .ok a => exact iff_of_true nofun ⟨a, rfl⟩
  | .error .panic => exact iff_of_false (fun other => other rfl) nofun
  | .error (.error e) => exact absurd rfl (quiet e)

/-- A sequence panics where its first part does, or goes on to what does. -/
theorem bind_ne_panic {x : Res ε α} {f : α → Res ε β} :
    x >>= f ≠ panic ↔ x ≠ panic ∧ ∀ a, x = .ok a → f a ≠ panic := by
  match x with
  | .ok a =>
      refine ⟨fun rest => ⟨nofun, ?_⟩, fun both => both.2 a rfl⟩
      rintro _ ⟨⟩
      exact rest
  | .error .panic => exact iff_of_false (fun other => other rfl) fun both => both.1 rfl
  | .error (.error e) => exact iff_of_true nofun ⟨nofun, nofun⟩

/-- Without a panic there is a value or an error. -/
theorem ne_panic_iff {x : Res ε α} : x ≠ panic ↔ (∃ a, x = .ok a) ∨ ∃ e, x = err e := by
  match x with
  | .ok a => exact iff_of_true nofun (.inl ⟨a, rfl⟩)
  | .error (.error e) => exact iff_of_true nofun (.inr ⟨e, rfl⟩)
  | .error .panic =>
      refine iff_of_false (fun other => other rfl) ?_
      rintro (⟨a, ok⟩ | ⟨e, failed⟩)
      · exact nomatch ok
      · exact nomatch failed

theorem neverErrs_index (xs : List α) (i : Nat) : (index xs i : Res ε α).NeverErrs := by
  unfold index
  split
  · exact neverErrs_ok _
  · exact neverErrs_panic

end Res

/-! ### Machine arithmetic -/

/-- How arithmetic that does not fit behaves. -/
inductive Profile where
  | debug
  | release
deriving DecidableEq, Repr

variable {ε : Type}

/-- `x as u64` and `x as usize` of an `i64`: two's complement. -/
def asU64 (x : Int64) : Nat := (x.toInt % 2 ^ 64).toNat

/-- `n as i64` of a `u64`. -/
def asI64 (n : Nat) : Int64 := Int64.ofInt n

/-- `a - b` on `usize`. -/
def usizeSub (p : Profile) (a b : Nat) : Res ε Nat :=
  if b ≤ a then .ok (a - b)
  else match p with
    | .debug => Res.panic
    | .release => .ok (a + 2 ^ 64 - b)

/-- `a + b` on `i64`. -/
def i64Add (p : Profile) (a b : Int64) : Res ε Int64 :=
  if -2 ^ 63 ≤ a.toInt + b.toInt ∧ a.toInt + b.toInt < 2 ^ 63 then .ok (a + b)
  else match p with
    | .debug => Res.panic
    | .release => .ok (a + b)

theorem neverErrs_usizeSub (p : Profile) (a b : Nat) :
    (usizeSub p a b : Res ε Nat).NeverErrs := by
  unfold usizeSub
  split
  · exact Res.neverErrs_ok _
  · cases p with
    | debug => exact Res.neverErrs_panic
    | release => exact Res.neverErrs_ok _

theorem neverErrs_i64Add (p : Profile) (a b : Int64) :
    (i64Add p a b : Res ε Int64).NeverErrs := by
  unfold i64Add
  split
  · exact Res.neverErrs_ok _
  · cases p with
    | debug => exact Res.neverErrs_panic
    | release => exact Res.neverErrs_ok _

theorem asU64_lt (x : Int64) : asU64 x < 2 ^ 64 := by
  unfold asU64
  omega

theorem asU64_of_nonneg {x : Int64} (h : 0 ≤ x.toInt) : (asU64 x : Int) = x.toInt := by
  have := x.toInt_lt
  unfold asU64
  omega

/-- Below two to the 63 the cast keeps the number, so a cast result there came
from that very number. -/
theorem asU64_eq_iff {x : Int64} {n : Nat} (small : n < 2 ^ 63) :
    asU64 x = n ↔ x.toInt = n := by
  have := x.toInt_lt
  have := x.le_toInt
  unfold asU64
  omega

theorem toInt_asI64 {n : Nat} (fits : n < 2 ^ 64) :
    (asI64 n).toInt = if n < 2 ^ 63 then (n : Int) else n - 2 ^ 64 := by
  have wrapped : (asI64 n).toInt = (n : Int).bmod (2 ^ 64) := Int64.toInt_ofInt
  rw [wrapped, Int.bmod_def]
  split <;> split <;> omega

theorem usizeSub_of_le {p : Profile} {a b : Nat} (h : b ≤ a) :
    (usizeSub p a b : Res ε Nat) = .ok (a - b) := by
  simp [usizeSub, h]

theorem usizeSub_debug_of_lt {a b : Nat} (h : a < b) :
    (usizeSub .debug a b : Res ε Nat) = Res.panic := by
  simp [usizeSub, h]

theorem usizeSub_release_of_lt {a b : Nat} (h : a < b) :
    (usizeSub .release a b : Res ε Nat) = .ok (a + 2 ^ 64 - b) := by
  simp [usizeSub, h]

theorem toInt_add_of_fits {a b : Int64} (low : -2 ^ 63 ≤ a.toInt + b.toInt)
    (high : a.toInt + b.toInt < 2 ^ 63) : (a + b).toInt = a.toInt + b.toInt := by
  rw [Int64.toInt_add]
  exact Int.bmod_eq_of_le (by omega) (by omega)

end Beerus
