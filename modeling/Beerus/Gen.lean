import Beerus.Field
import Beerus.Outcome

/-!
The generated RPC types (`src/gen.rs`), as far as the verified paths read them.

The string types check a pattern once, in their constructor, so each carries
the matched pattern as a field. `Felt` repairs its input first (`fix`) and its
pattern is anchored at both ends. The pattern of `StorageKey` closes its second
branch only: after `0x0` anything is accepted. `BlockNumber` is a non-negative
`i64`.
-/

namespace Beerus

open Beerus.Lib

/-- `iamgroot::jsonrpc::Error`. -/
structure JsonRpcError where
  code : Int
  message : String
deriving DecidableEq, Repr

/-- Text inside a message. -/
def Lib.Text.asString (t : Text) : String := String.ofList t

/-! ### Felt -/

/-- `^0x(0|[a-fA-F1-9]{1}[a-fA-F0-9]{0,62})$`. -/
def feltRegex : Text → Bool
  | '0' :: 'x' :: d :: ds =>
      (d == '0' && ds.isEmpty) ||
        (d != '0' && isHexDigit d && ds.all isHexDigit && decide (ds.length ≤ 62))
  | _ => false

/-- A hexadecimal number in the spelling the RPC specification asks for. -/
structure Felt where
  text : Text
  matched : feltRegex text = true
deriving DecidableEq

namespace Felt

/-- `fix`: supply a missing digit, drop leading zeros. -/
def fix (value : Text) : Text :=
  let unprefixed := match value with
    | '0' :: 'x' :: rest => rest
    | _ => value
  if unprefixed = [] then ['0', 'x', '0']
  else if unprefixed = ['0'] then value
  else if unprefixed.head? = some '0' then '0' :: 'x' :: unprefixed.dropWhile (· == '0')
  else value

/-- `Felt::try_new`. -/
def tryNew (value : Text) : Res JsonRpcError Felt :=
  let value := fix value
  if h : feltRegex value = true then .ok ⟨value, h⟩
  else Res.err ⟨1001, "Felt value does not match regex: " ++ Text.asString value⟩

/-- `TryFrom<String> for Felt`, by which it is deserialised. -/
def tryFromString (value : Text) : Res String Felt := Res.mapErr (·.message) (tryNew value)

/-- The number a felt spells. -/
def number (f : Felt) : Nat := hexNumber (f.text.drop 2)

/-- The field element a felt spells. -/
def field (f : Felt) : FieldElement := FieldElement.ofNat f.number

theorem text_inj {a b : Felt} : a.text = b.text ↔ a = b := by
  cases a
  cases b
  simp

/-- The digits behind the prefix: a lone zero, or a run without a leading zero. -/
theorem cases_text (f : Felt) :
    ∃ d ds, f.text = '0' :: 'x' :: d :: ds ∧ (d :: ds).length ≤ 63 ∧
      (∀ c ∈ d :: ds, isHexDigit c = true) ∧ (d = '0' → ds = []) := by
  obtain ⟨text, matched⟩ := f
  unfold feltRegex at matched
  split at matched
  · next d ds =>
      refine ⟨d, ds, rfl, ?_⟩
      simp only [Bool.or_eq_true, Bool.and_eq_true, beq_iff_eq, bne_iff_ne, List.isEmpty_iff,
        List.all_eq_true, decide_eq_true_eq] at matched
      rcases matched with ⟨rfl, rfl⟩ | ⟨⟨⟨nonzero, first⟩, rest⟩, len⟩
      · exact ⟨by simp, by simp; decide, fun _ => rfl⟩
      · refine ⟨Nat.succ_le_succ len, ?_, fun zero => absurd zero nonzero⟩
        intro c mem
        rcases List.mem_cons.mp mem with rfl | mem
        · exact first
        · exact rest c mem
  · simp at matched

/-- Every felt is a literal the decoders accept. -/
theorem hexLiteral_text (f : Felt) : hexLiteral f.text = some f.number := by
  obtain ⟨d, ds, text, len, digits, -⟩ := f.cases_text
  have number : f.number = hexNumber (d :: ds) := by simp [Felt.number, text]
  rw [text, number]
  exact hexLiteral_prefixed (by simp) (by omega) digits

/-- A felt's number fits into the caches' integers. -/
theorem toNat_u256 (f : Felt) : (BitVec.ofNat 256 f.number).toNat = f.number := by
  rw [BitVec.toNat_ofNat, Nat.mod_eq_of_lt (hexLiteral_lt f.hexLiteral_text)]

@[simp] theorem fromHex_text (crates : Crates) (f : Felt) :
    crates.fromHex f.text = some f.field := by
  rw [crates.fromHex_of_literal f.hexLiteral_text, field]

/-- The canonical digits of an element match the pattern. -/
theorem feltRegex_shortHex (x : FieldElement) :
    feltRegex ('0' :: 'x' :: shortHex 64 x.val) = true := by
  rw [show (64 : Nat) = 1 + 63 from rfl, shortHex_pad 1 x.val_lt_hex]
  rcases shortHex_cases x.val_lt_hex with ⟨-, zero⟩ | ⟨d, ds, run, nonzero, len, digits⟩
  · rw [zero]; decide
  · have rest : ds.all isHexDigit = true :=
      List.all_eq_true.mpr fun c mem => digits c (List.mem_cons_of_mem _ mem)
    have short : ds.length ≤ 62 := Nat.le_of_succ_le_succ len
    rw [run]
    simp [feltRegex, nonzero, digits d List.mem_cons_self, rest, short]

/-- The canonical lower-case spelling of an element. -/
def ofField (x : FieldElement) : Felt := ⟨'0' :: 'x' :: shortHex 64 x.val, feltRegex_shortHex x⟩

/-- The canonical spelling of a number below the prime. -/
def ofNat (n : Nat) : Felt := ofField (.ofNat n)

@[simp] theorem ofField_text (x : FieldElement) :
    (ofField x).text = '0' :: 'x' :: shortHex 64 x.val := rfl

theorem val_lt_room (x : FieldElement) : x.val < 16 ^ 64 :=
  x.val_lt_hex.trans (Nat.pow_lt_pow_right (by decide) (by decide))

@[simp] theorem number_ofField (x : FieldElement) : (ofField x).number = x.val := by
  simp [number, hexNumber_shortHex (val_lt_room x)]

@[simp] theorem field_ofField (x : FieldElement) : (ofField x).field = x := by
  simp [field]

/-- A felt is left as it is. -/
theorem fix_text (f : Felt) : fix f.text = f.text := by
  obtain ⟨d, ds, text, -, -, lone⟩ := f.cases_text
  by_cases zero : d = '0'
  · simp [text, zero, lone zero, fix]
  · simp [text, zero, fix]

/-- The constructor gives back what it has repaired. -/
theorem tryNew_eq_ok {value : Text} {f : Felt} : tryNew value = .ok f ↔ fix value = f.text := by
  obtain ⟨text, matched⟩ := f
  unfold tryNew
  by_cases accepted : feltRegex (fix value) = true
  · simp [accepted]
  · simp only [accepted, Bool.false_eq_true, dite_false, Res.err_ne_ok, false_iff]
    rintro rfl
    exact accepted matched

theorem tryNew_eq_err {value : Text} (refused : ¬ feltRegex (fix value) = true) :
    tryNew value =
      Res.err ⟨1001, "Felt value does not match regex: " ++ Text.asString (fix value)⟩ :=
  dif_neg refused

theorem tryNew_text (f : Felt) : tryNew f.text = .ok f := tryNew_eq_ok.mpr f.fix_text

/-- `Felt::try_new(&format!("0x{:x}", x))` is the canonical spelling of `x`. -/
theorem tryNew_lowerHex (crates : Crates) (x : FieldElement) :
    tryNew ('0' :: 'x' :: crates.lowerHex x) = .ok (ofField x) := by
  rw [crates.lowerHex_eq]
  exact tryNew_text (ofField x)

/-- Zero has one spelling. -/
theorem number_eq_zero {f : Felt} : f.number = 0 ↔ f.text = "0x0".toList := by
  obtain ⟨d, ds, text, -, digits, lone⟩ := f.cases_text
  have number : f.number = hexNumber (d :: ds) := by simp [Felt.number, text]
  rw [number, text]
  by_cases zero : d = '0'
  · subst zero
    rw [lone rfl]
    exact iff_of_true rfl rfl
  · have positive : 0 < hexNumber (d :: ds) := hexNumber_pos (digits d List.mem_cons_self) zero
    refine iff_of_false positive.ne' ?_
    rintro ⟨⟩
    exact zero rfl

/-! ### What the constructor accepts -/

/-- Behind the prefix, leading zeros are dropped from all but a lone zero. -/
theorem fix_prefixed {ds : Text} (nonempty : ds ≠ []) :
    fix ('0' :: 'x' :: ds) =
      if ds = ['0'] then "0x0".toList else '0' :: 'x' :: ds.dropWhile (· == '0') := by
  by_cases zero : ds = ['0']
  · subst zero
    rfl
  · obtain ⟨d, rest, rfl⟩ := List.exists_cons_of_ne_nil nonempty
    by_cases leading : d = '0'
    · subst leading
      simp [fix, zero]
    · simp [fix, zero, leading]

/-- A run without a leading zero is accepted up to 63 digits, which is up to two
to the 252. -/
theorem feltRegex_run {d : Char} {ds : Text} (digits : ∀ c ∈ d :: ds, isHexDigit c = true)
    (nonzero : d ≠ '0') :
    feltRegex ('0' :: 'x' :: d :: ds) = true ↔ hexNumber (d :: ds) < 2 ^ 252 := by
  obtain ⟨first, rest⟩ := List.forall_mem_cons.mp digits
  have all : ds.all isHexDigit = true := List.all_eq_true.mpr rest
  have room : (2 : Nat) ^ 252 = 16 ^ 63 := by norm_num
  have matched : feltRegex ('0' :: 'x' :: d :: ds) = true ↔ ds.length ≤ 62 := by
    simp [feltRegex, nonzero, first, all]
  rw [matched, room]
  constructor
  · intro short
    exact (hexNumber_lt _).trans_le (Nat.pow_le_pow_right (by decide) (Nat.succ_le_succ short))
  · intro small
    have room := (pow_le_hexNumber first nonzero).trans_lt small
    exact Nat.le_of_lt_succ ((Nat.pow_lt_pow_iff_right (by decide)).mp room)

/-- A spelling is normalised: a number below two to the 252 comes out as a felt
that denotes it, without leading zeros and as `0x0` where it is zero, and a
larger one is refused. -/
structure Normalises (ds : Text) : Prop where
  small : hexNumber ds < 2 ^ 252 → ∃ f, tryNew ('0' :: 'x' :: ds) = .ok f ∧
    f.number = hexNumber ds ∧ (∀ rest, f.text = '0' :: 'x' :: '0' :: rest → rest = []) ∧
    (f.text = "0x0".toList ↔ hexNumber ds = 0)
  large : 2 ^ 252 ≤ hexNumber ds → ∃ e, tryNew ('0' :: 'x' :: ds) = Res.err e

theorem normalises_zero : Normalises ['0'] := by
  refine ⟨fun _ => ⟨⟨"0x0".toList, rfl⟩, rfl, rfl, ?_, ?_⟩, ?_⟩
  · rintro _ ⟨⟩
    rfl
  · exact iff_of_true rfl rfl
  · intro large
    exact absurd large (by decide)

/-- Digits that are not all zero are normalised, however many zeros lead. -/
theorem normalises_run {ds run : Text} {d : Char} (digits : ∀ c ∈ ds, isHexDigit c = true)
    (stripped : ds.dropWhile (· == '0') = d :: run) : Normalises ds := by
  have number := hexNumber_dropWhile_zero ds
  rw [stripped] at number
  have suffix : d :: run <:+ ds := stripped ▸ List.dropWhile_suffix _
  have nonzero : d ≠ '0' := by
    have head := @List.head_dropWhile_not _ (· == '0') ds (by simp [stripped])
    simpa [stripped] using head
  have repaired : fix ('0' :: 'x' :: ds) = '0' :: 'x' :: d :: run := by
    have several : ds ≠ ['0'] := by
      rintro rfl
      exact nomatch stripped
    rw [fix_prefixed (List.ne_nil_of_mem (suffix.subset List.mem_cons_self)), if_neg several,
      stripped]
  have digits' : ∀ c ∈ d :: run, isHexDigit c = true := fun c mem => digits c (suffix.subset mem)
  have accepted := feltRegex_run digits' nonzero
  rw [number] at accepted
  constructor
  · intro small
    refine ⟨⟨_, accepted.mpr small⟩, tryNew_eq_ok.mpr repaired, number, ?_, ?_⟩
    · rintro rest ⟨⟩
      exact absurd rfl nonzero
    · have positive : 0 < hexNumber (d :: run) :=
        hexNumber_pos (digits' d List.mem_cons_self) nonzero
      refine iff_of_false ?_ (by omega)
      rintro ⟨⟩
      exact nonzero rfl
  · intro large
    have refused : ¬ feltRegex ('0' :: 'x' :: d :: run) = true := by
      rw [accepted]
      exact Nat.not_lt.mpr large
    rw [← repaired] at refused
    exact ⟨_, tryNew_eq_err refused⟩

/-- Two or more zeros are stripped to nothing, which is not a number. -/
theorem tryNew_zeros {ds : Text} (zeros : ∀ c ∈ ds, c = '0') (several : 2 ≤ ds.length) :
    tryNew ('0' :: 'x' :: ds) = Res.err ⟨1001, "Felt value does not match regex: 0x"⟩ := by
  have stripped : ds.dropWhile (· == '0') = [] := by
    apply List.dropWhile_eq_nil_iff.mpr
    intro c mem
    simp [zeros c mem]
  have nonempty : ds ≠ [] := by
    rintro rfl
    exact absurd several (by decide)
  have notLone : ds ≠ ['0'] := by
    rintro rfl
    exact absurd several (by decide)
  have repaired : fix ('0' :: 'x' :: ds) = ['0', 'x'] := by
    rw [fix_prefixed nonempty, if_neg notLone, stripped]
  rw [tryNew_eq_err (by rw [repaired]; decide), repaired]
  rfl

/-- The constructor normalises all spellings but the zeros of two or more
digits, and leaves every felt as it is. -/
theorem tryNew_normalises_iff {ds : Text} (nonempty : ds ≠ [])
    (digits : ∀ c ∈ ds, isHexDigit c = true) :
    (Normalises ds ∧ ∀ f : Felt, tryNew f.text = .ok f) ↔
      ¬ (2 ≤ ds.length ∧ ∀ c ∈ ds, c = '0') := by
  rw [and_iff_left tryNew_text]
  constructor
  · rintro normalises ⟨several, zeros⟩
    have zero : hexNumber ds = 0 := by
      have number := hexNumber_dropWhile_zero ds
      rw [List.dropWhile_eq_nil_iff.mpr fun c mem => by simp [zeros c mem]] at number
      exact number.symm
    obtain ⟨f, ok, -⟩ := normalises.small (by rw [zero]; decide)
    rw [tryNew_zeros zeros several] at ok
    exact nomatch ok
  · intro other
    cases stripped : ds.dropWhile (· == '0') with
    | cons d run => exact normalises_run digits stripped
    | nil =>
        have zeros : ∀ c ∈ ds, c = '0' := fun c mem => by
          simpa using List.dropWhile_eq_nil_iff.mp stripped c mem
        match ds, nonempty, zeros, other with
        | [c], _, zeros, _ =>
            rw [zeros c List.mem_cons_self]
            exact normalises_zero
        | c :: c' :: rest, _, zeros, other =>
            exact absurd ⟨by simp, zeros⟩ other

theorem tryNew_normalises_padded :
    Normalises ['0', '0', '2', 'A'] ∧ ∀ f : Felt, tryNew f.text = .ok f :=
  (tryNew_normalises_iff (by decide) (List.all_eq_true.mp (by decide))).mpr (by simp)

theorem tryNew_zeros_refused : ¬ Normalises ['0', '0'] := by
  intro normalises
  obtain ⟨f, ok, -⟩ := normalises.small (by decide)
  rw [tryNew_zeros (by simp) (by decide)] at ok
  exact nomatch ok

end Felt

/-- `TryFrom<gen::Felt> for StarkFelt`. -/
def Felt.toStarkFelt (crates : Crates) (felt : Felt) : StarkFelt :=
  crates.fromHexUnchecked felt.text

@[simp] theorem Felt.toStarkFelt_eq (crates : Crates) (felt : Felt) :
    felt.toStarkFelt crates = felt.field :=
  crates.fromHexUnchecked_eq _ _ felt.hexLiteral_text

/-! ### StorageKey and Address -/

/-- `^0x(0|[0-7]{1}[a-fA-F0-9]{0,62}$)`: only the second branch is anchored. -/
def storageKeyRegex : Text → Bool
  | '0' :: 'x' :: d :: ds =>
      d == '0' || ('0' ≤ d && d ≤ '7' && ds.all isHexDigit && decide (ds.length ≤ 62))
  | _ => false

/-- A storage key as text. -/
structure StorageKey where
  text : Text
  matched : storageKeyRegex text = true
deriving DecidableEq

/-- What passes the pattern is prefixed. -/
theorem StorageKey.exists_text (key : StorageKey) : ∃ ds, key.text = '0' :: 'x' :: ds := by
  obtain ⟨text, matched⟩ := key
  unfold storageKeyRegex at matched
  split at matched
  · exact ⟨_, rfl⟩
  · simp at matched

/-- So `from_hex` reads it where it is a literal, and nowhere else. -/
theorem StorageKey.fromHex_text (crates : Crates) (key : StorageKey) :
    crates.fromHex key.text = (hexLiteral key.text).map FieldElement.ofNat := by
  obtain ⟨ds, text⟩ := key.exists_text
  rw [text, crates.fromHex_eq]

/-- `StorageKey::try_new`. -/
def StorageKey.tryNew (value : Text) : Res JsonRpcError StorageKey :=
  if h : storageKeyRegex value = true then .ok ⟨value, h⟩
  else Res.err ⟨1001, "StorageKey value does not match regex: " ++ Text.asString value⟩

/-- `gen::Address`. -/
structure Address where
  felt : Felt
deriving DecidableEq

/-! ### Blocks -/

/-- `gen::BlockHash`. -/
structure BlockHash where
  felt : Felt
deriving DecidableEq

/-- `gen::BlockNumber`: an `i64` between its bounds. -/
structure BlockNumber where
  val : Int64
  nonneg : 0 ≤ val.toInt
deriving DecidableEq

/-- `BlockNumber::try_new`; the upper bound is `i64::MAX` and never fails. -/
def BlockNumber.tryNew (value : Int64) : Res JsonRpcError BlockNumber :=
  if below : value.toInt < 0 then
    Res.err ⟨1001, "BlockNumber value " ++ toString value ++ " must be > 0"⟩
  else if value.toInt > 9223372036854775807 then
    Res.err ⟨1001, "BlockNumber value " ++ toString value ++ " must be < 9223372036854775807"⟩
  else .ok ⟨value, Int.not_lt.mp below⟩

/-- A `u64` number is taken as it is or, from two to the 63 on, refused. -/
theorem BlockNumber.tryNew_asI64 {n : Nat} {m : BlockNumber} (fits : n < 2 ^ 64) :
    BlockNumber.tryNew (asI64 n) = .ok m ↔ m.val.toInt = n := by
  have cast := toInt_asI64 fits
  unfold BlockNumber.tryNew
  by_cases small : n < 2 ^ 63
  · rw [if_pos small] at cast
    rw [dif_neg (by omega), if_neg (by omega)]
    constructor
    · rintro ⟨⟩
      exact cast
    · intro exact'
      obtain ⟨val, nonneg⟩ := m
      obtain rfl : asI64 n = val := Int64.toInt_inj.mp (cast.trans exact'.symm)
      rfl
  · rw [if_neg small] at cast
    rw [dif_pos (by omega)]
    have := m.val.toInt_lt
    exact ⟨nofun, fun exact' => absurd exact' (by omega)⟩

/-- `gen::BlockTag`. -/
inductive BlockTag where
  | latest
  | pending
deriving DecidableEq, Repr

/-- `gen::BlockId`. -/
inductive BlockId where
  | blockHash (blockHash : BlockHash)
  | blockNumber (blockNumber : BlockNumber)
  | blockTag (tag : BlockTag)
deriving DecidableEq

/-- `gen::BlockHeader`, the fields that are read. -/
structure BlockHeader where
  blockHash : BlockHash
  blockNumber : BlockNumber
  newRoot : Felt
deriving DecidableEq

/-- `gen::GetBlockWithTxHashesResult`. -/
inductive GetBlockWithTxHashesResult where
  | blockWithTxHashes (blockHeader : BlockHeader)
  | pendingBlockWithTxHashes
deriving DecidableEq

/-! ### Proofs -/

/-- `gen::EdgeNodePath`. -/
structure EdgeNodePath where
  len : Int64
  value : Felt
deriving DecidableEq

/-- `gen::Node`: a binary node or an edge node. -/
inductive Node where
  | binaryNode (left right : Felt)
  | edgeNode (child : Felt) (path : EdgeNodePath)
deriving DecidableEq

/-- `gen::Proof`. -/
abbrev Proof := List Node

/-- `gen::ContractData`. -/
structure ContractData where
  classHash : Felt
  nonce : Felt
  root : Felt
  storageProofs : Option (List Proof)
deriving DecidableEq

/-- `gen::GetProofResult`. -/
structure GetProofResult where
  classCommitment : Option Felt
  contractData : Option ContractData
  contractProof : Proof
  stateCommitment : Option Felt
deriving DecidableEq

end Beerus
