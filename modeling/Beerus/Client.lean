import Beerus.Gen

/-!
The head the client keeps (`src/client.rs`), the requests it sends to a
Starknet RPC provider, and how it spells the data that an execution returns.
-/

namespace Beerus

open Beerus.Lib

/-- `client::State`. Its equality compares the three fields. -/
structure State where
  blockNumber : Nat
  blockHash : Felt
  root : Felt
  fits : blockNumber < 2 ^ 64
deriving DecidableEq

/-- `PartialEq<State> for State`. -/
def State.eq (self other : State) : Bool :=
  self.blockNumber == other.blockNumber && self.root.text == other.root.text &&
    self.blockHash.text == other.blockHash.text

theorem State.eq_iff {self other : State} : self.eq other = true ↔ self = other := by
  cases self
  cases other
  simp only [State.eq, Bool.and_eq_true, beq_iff_eq, Felt.text_inj, State.mk.injEq]
  constructor
  · rintro ⟨⟨number, root⟩, hash⟩
    exact ⟨number, hash, root⟩
  · rintro ⟨number, hash, root⟩
    exact ⟨⟨number, root⟩, hash⟩

/-- A request of `gen::Rpc`. -/
inductive Call where
  | getBlockWithTxHashes (blockId : BlockId)
  | getStorageAt (contractAddress : Address) (key : StorageKey) (blockId : BlockId)
  | getProof (blockId : BlockId) (contractAddress : Address) (keys : List StorageKey)
  | getNonce (blockId : BlockId) (contractAddress : Address)
  | getClassHashAt (blockId : BlockId) (contractAddress : Address)
  | getClass (blockId : BlockId) (classHash : Felt)

/-- What a request returns; `GetClassResult` stands for the class formats. -/
abbrev Call.Result (GetClassResult : Type) : Call → Type
  | .getBlockWithTxHashes _ => GetBlockWithTxHashesResult
  | .getStorageAt _ _ _ => Felt
  | .getProof _ _ _ => GetProofResult
  | .getNonce _ _ => Felt
  | .getClassHashAt _ _ => Felt
  | .getClass _ _ => GetClassResult

/-- What a provider answers: a result, or an error of its own or of the
transport. -/
abbrev Call.Answer (GetClassResult : Type) (call : Call) : Type :=
  Except JsonRpcError (call.Result GetClassResult)

/-- `as_felt`: the digits without leading zeros, of zero none at all. -/
def asFelt (bytes : List Byte) : Res JsonRpcError Felt :=
  let hex := (hexEncode bytes).dropWhile (· == '0')
  Felt.tryNew ('0' :: 'x' :: hex)

/-- What `Client::execute` makes of the returned data. -/
def executeResult (retdata : List StarkFelt) : Res JsonRpcError (List Felt) :=
  retdata.mapM fun felt => asFelt felt.toBytesBe

/-- The encoder spells an element canonically: what it leaves of zero is
repaired. -/
@[simp] theorem asFelt_toBytesBe (x : FieldElement) : asFelt x.toBytesBe = .ok (.ofField x) := by
  rw [asFelt, hexEncode_toBytesBe, Felt.tryNew_eq_ok, Felt.ofField_text]
  cases run : (fixedHex 64 x.val).dropWhile (· == '0') with
  | nil =>
      have zero : shortHex 64 x.val = ['0'] := by simp [shortHex, run]
      rw [zero]
      rfl
  | cons d ds =>
      have short : shortHex 64 x.val = d :: ds := by simp [shortHex, run]
      rw [← short]
      exact Felt.fix_text (.ofField x)

/-- An execution's data is returned whole, canonically spelled, and never
fails to be. -/
theorem executeResult_eq (retdata : List StarkFelt) :
    executeResult retdata = .ok (retdata.map .ofField) := by
  induction retdata with
  | nil => rfl
  | cons felt retdata ih =>
      rw [executeResult] at ih ⊢
      rw [List.mapM_cons, asFelt_toBytesBe, ih]
      rfl

end Beerus
