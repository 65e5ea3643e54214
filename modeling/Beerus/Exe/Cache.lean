import Beerus.Client
import Beerus.Lib.Memo

/-!
The read caches of `src/exe/cache.rs`.

Three process-wide caches hold storage values, class hashes and contract
classes, keyed by the number that the block hash spells together with the
arguments of the read. `CachedState` wraps any state reader: it reads through
the caches and passes everything else on.

Blockifier's two traits are one family of calls here, `StateCall`, so that a
state reader is a program for each call.
-/

namespace Beerus

open Beerus.Lib

/-! ### Blockifier's state interface -/

/-- `starknet_api::PatriciaKey`: a field element below two to the 251. Contract
addresses and storage keys are such keys. -/
@[ext] structure PatriciaKey where
  key : FieldElement
  low : key.val < 2 ^ 251
deriving DecidableEq

/-- `blockifier::StateError`, as far as it is raised: a `StateReadError` with the
text of `Error::IamGroot(e)`, one with the text `Failed to verify merkle proof`
and the verifier's error, and `UndeclaredClassHash`. -/
inductive StateError where
  | iamGroot (e : JsonRpcError)
  | unverified (e : JsonRpcError)
  | undeclaredClassHash (classHash : StarkFelt)
deriving DecidableEq

/-- The methods of `StateReader` and `State`. -/
inductive StateCall (ContractClass : Type) where
  | getStorageAt (contractAddress storageKey : PatriciaKey)
  | getNonceAt (contractAddress : PatriciaKey)
  | getClassHashAt (contractAddress : PatriciaKey)
  | getCompiledContractClass (classHash : StarkFelt)
  | getCompiledClassHash (classHash : StarkFelt)
  | setStorageAt (contractAddress storageKey : PatriciaKey) (value : StarkFelt)
  | incrementNonce (contractAddress : PatriciaKey)
  | setClassHashAt (contractAddress : PatriciaKey) (classHash : StarkFelt)
  | setContractClass (classHash : StarkFelt) (contractClass : ContractClass)
  | setCompiledClassHash (classHash compiledClassHash : StarkFelt)
  | addVisitedPcs (classHash : StarkFelt) (pcs : List Nat)

namespace StateCall

variable {ContractClass : Type}

/-- What a method returns. -/
def Result : StateCall ContractClass → Type
  | .getStorageAt _ _ => StarkFelt
  | .getNonceAt _ => StarkFelt
  | .getClassHashAt _ => StarkFelt
  | .getCompiledContractClass _ => ContractClass
  | .getCompiledClassHash _ => StarkFelt
  | _ => Unit

instance [DecidableEq ContractClass] : (call : StateCall ContractClass) → DecidableEq call.Result
  | .getStorageAt _ _ => inferInstanceAs (DecidableEq StarkFelt)
  | .getNonceAt _ => inferInstanceAs (DecidableEq StarkFelt)
  | .getClassHashAt _ => inferInstanceAs (DecidableEq StarkFelt)
  | .getCompiledContractClass _ => inferInstanceAs (DecidableEq ContractClass)
  | .getCompiledClassHash _ => inferInstanceAs (DecidableEq StarkFelt)
  | .setStorageAt _ _ _ => inferInstanceAs (DecidableEq Unit)
  | .incrementNonce _ => inferInstanceAs (DecidableEq Unit)
  | .setClassHashAt _ _ => inferInstanceAs (DecidableEq Unit)
  | .setContractClass _ _ => inferInstanceAs (DecidableEq Unit)
  | .setCompiledClassHash _ _ => inferInstanceAs (DecidableEq Unit)
  | .addVisitedPcs _ _ => inferInstanceAs (DecidableEq Unit)

/-- Whether a method is one of `State`'s, which change it. -/
def isWrite : StateCall ContractClass → Bool
  | .setStorageAt _ _ _ => true
  | .incrementNonce _ => true
  | .setClassHashAt _ _ => true
  | .setContractClass _ _ => true
  | .setCompiledClassHash _ _ => true
  | .addVisitedPcs _ _ => true
  | _ => false

end StateCall

/-- A state reader: a program over some actions for each method. -/
abbrev StateReader (O : Type) (R : O → Type) (ContractClass : Type) :=
  (call : StateCall ContractClass) → Prog O R (Fault StateError) call.Result

/-! ### The three caches -/

/-- The modules `storage`, `class_hash` and `contract_class`. -/
inductive CacheKind where
  | storage
  | classHash
  | contractClass
deriving DecidableEq

namespace CacheKind

/-- The numbers an entry is stored under, the block hash first. -/
abbrev Key : CacheKind → Type
  | .storage => U256 × U256 × U256
  | .classHash => U256 × U256
  | .contractClass => U256 × U256

instance : (c : CacheKind) → DecidableEq c.Key
  | .storage => inferInstanceAs (DecidableEq (U256 × U256 × U256))
  | .classHash => inferInstanceAs (DecidableEq (U256 × U256))
  | .contractClass => inferInstanceAs (DecidableEq (U256 × U256))

/-- The values of a cache. -/
abbrev Value (ContractClass : Type) : CacheKind → Type
  | .storage => StarkFelt
  | .classHash => StarkFelt
  | .contractClass => ContractClass

/-- What a cached read is asked for, besides the block. -/
abbrev Args : CacheKind → Type
  | .storage => PatriciaKey × PatriciaKey
  | .classHash => PatriciaKey
  | .contractClass => StarkFelt

end CacheKind

/-- `U256::from_be_bytes`. -/
def U256.fromBeBytes (bs : List Byte) : U256 := BitVec.ofNat 256 (bytes.value bs)

/-- `block_hash.as_ref().parse().unwrap()`. -/
def parseBlockHash (crates : Crates) (blockHash : Felt) : Except (Fault StateError) U256 :=
  match crates.parseU256 blockHash.text with
  | some n => .ok n
  | none => Res.panic

/-- `key` of the three modules. -/
def CacheKind.key (crates : Crates) (blockHash : Felt) :
    (c : CacheKind) → c.Args → Except (Fault StateError) c.Key
  | .storage, (contractAddress, storageKey) => do
      let block ← parseBlockHash crates blockHash
      pure (block, .fromBeBytes contractAddress.key.toBytesBe,
        .fromBeBytes storageKey.key.toBytesBe)
  | .classHash, contractAddress => do
      let block ← parseBlockHash crates blockHash
      pure (block, .fromBeBytes contractAddress.key.toBytesBe)
  | .contractClass, hash => do
      let block ← parseBlockHash crates blockHash
      pure (block, .fromBeBytes hash.toBytesBe)

/-! ### CachedState -/

section CachedState

variable {O : Type} {R : O → Type} {ContractClass : Type}

/-- What the caches hold. -/
abbrev ReadCaches (ContractClass : Type) := Caches CacheKind.Key (CacheKind.Value ContractClass)

/-- An action of a cached reader. -/
abbrev CachedOp (O ContractClass : Type) :=
  CacheOp CacheKind.Key (CacheKind.Value ContractClass) O

/-- `CachedState`, around a reader for the block with the given hash. -/
def CachedState (crates : Crates) (blockHash : Felt) (inner : StateReader O R ContractClass) :
    StateReader (CachedOp O ContractClass) (CacheOp.Answer R) ContractClass
  | .getStorageAt contractAddress storageKey =>
      memoised CacheKind.storage
        (CacheKind.storage.key crates blockHash (contractAddress, storageKey))
        (inner (.getStorageAt contractAddress storageKey)).embed
  | .getNonceAt contractAddress => (inner (.getNonceAt contractAddress)).embed
  | .getClassHashAt contractAddress =>
      memoised CacheKind.classHash (CacheKind.classHash.key crates blockHash contractAddress)
        (inner (.getClassHashAt contractAddress)).embed
  | .getCompiledContractClass classHash =>
      memoised CacheKind.contractClass (CacheKind.contractClass.key crates blockHash classHash)
        (inner (.getCompiledContractClass classHash)).embed
  | .getCompiledClassHash classHash => (inner (.getCompiledClassHash classHash)).embed
  | .setStorageAt contractAddress storageKey value =>
      (inner (.setStorageAt contractAddress storageKey value)).embed
  | .incrementNonce contractAddress => (inner (.incrementNonce contractAddress)).embed
  | .setClassHashAt contractAddress classHash =>
      (inner (.setClassHashAt contractAddress classHash)).embed
  | .setContractClass classHash contractClass =>
      (inner (.setContractClass classHash contractClass)).embed
  | .setCompiledClassHash classHash compiledClassHash =>
      (inner (.setCompiledClassHash classHash compiledClassHash)).embed
  | .addVisitedPcs classHash pcs => (inner (.addVisitedPcs classHash pcs)).embed

end CachedState

/-! ### Keys -/

theorem U256.fromBeBytes_toBytesBe (x : FieldElement) :
    fromBeBytes x.toBytesBe = BitVec.ofNat 256 x.val := by
  have small : x.val < bytes.base ^ 32 := x.isLt.trans (by decide)
  rw [fromBeBytes, FieldElement.toBytesBe, bytes.value_numeral_of_lt small]

theorem U256.fromBeBytes_inj {x y : FieldElement}
    (same : fromBeBytes x.toBytesBe = fromBeBytes y.toBytesBe) : x = y := by
  rw [fromBeBytes_toBytesBe, fromBeBytes_toBytesBe] at same
  have lt : ∀ z : FieldElement, z.val < 2 ^ 256 := fun z => z.isLt.trans (by decide)
  have nat := congrArg BitVec.toNat same
  rw [BitVec.toNat_ofNat, BitVec.toNat_ofNat, Nat.mod_eq_of_lt (lt x),
    Nat.mod_eq_of_lt (lt y)] at nat
  exact Fin.ext nat

/-- A block hash never makes the parser panic. -/
theorem parseBlockHash_eq (crates : Crates) (blockHash : Felt) :
    parseBlockHash crates blockHash = .ok (BitVec.ofNat 256 blockHash.number) := by
  simp [parseBlockHash, crates.parseU256_eq _ _ blockHash.hexLiteral_text]

theorem CacheKind.key_ok (crates : Crates) (blockHash : Felt) (c : CacheKind) (args : c.Args) :
    ∃ k, c.key crates blockHash args = .ok k := by
  cases c with
  | storage =>
      rw [CacheKind.key, parseBlockHash_eq]
      exact ⟨_, rfl⟩
  | classHash =>
      rw [CacheKind.key, parseBlockHash_eq]
      exact ⟨_, rfl⟩
  | contractClass =>
      rw [CacheKind.key, parseBlockHash_eq]
      exact ⟨_, rfl⟩

theorem ofNat_number_inj {a b : Felt}
    (same : BitVec.ofNat 256 a.number = BitVec.ofNat 256 b.number) : a.number = b.number := by
  rw [← a.toNat_u256, same, b.toNat_u256]

/-- Reads that share an entry ask for the same thing of the same block, however
its hash is spelled. -/
theorem CacheKind.key_inj {crates : Crates} {c : CacheKind} {h h' : Felt} {args args' : c.Args}
    {k : c.Key} (here : c.key crates h args = .ok k) (there : c.key crates h' args' = .ok k) :
    h.number = h'.number ∧ args = args' := by
  have same := here.trans there.symm
  cases c with
  | storage =>
      simp only [CacheKind.key, parseBlockHash_eq, Res.ok_bind, Res.pure_eq_ok, Except.ok.injEq,
        Prod.mk.injEq] at same
      obtain ⟨block, address, slot⟩ := same
      refine ⟨ofNat_number_inj block, Prod.ext ?_ ?_⟩
      · exact PatriciaKey.ext (U256.fromBeBytes_inj address)
      · exact PatriciaKey.ext (U256.fromBeBytes_inj slot)
  | classHash =>
      simp only [CacheKind.key, parseBlockHash_eq, Res.ok_bind, Res.pure_eq_ok, Except.ok.injEq,
        Prod.mk.injEq] at same
      exact ⟨ofNat_number_inj same.1, PatriciaKey.ext (U256.fromBeBytes_inj same.2)⟩
  | contractClass =>
      simp only [CacheKind.key, parseBlockHash_eq, Res.ok_bind, Res.pure_eq_ok, Except.ok.injEq,
        Prod.mk.injEq] at same
      exact ⟨ofNat_number_inj same.1, U256.fromBeBytes_inj same.2⟩

end Beerus
