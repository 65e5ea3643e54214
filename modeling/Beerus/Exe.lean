import Beerus.Exe.Cache
import Beerus.Exe.Map
import Beerus.Proof

/-!
The state that a call executes on (`src/exe/mod.rs`).

`StateProxy` answers Blockifier's reads from the RPC provider, for the block of
one head. Of these only storage reads are checked, against the head's root, and
a storage read of zero is not checked either. Writes are accepted and dropped.
`callState` is what `exe::call` hands to Blockifier: the proxy behind the read
caches.

The provider's answers and the runs of `verify` are actions, so that a run
shows which checks were made.
-/

namespace Beerus

open Beerus.Lib

/-- An action of the proxy: a request to the provider, or a run of
`GetProofResult::verify`. -/
inductive ProxyOp where
  | rpc (call : Call)
  | verify (proof : GetProofResult) (globalRoot : Felt) (contractAddress : Address)
      (key : StorageKey) (value : Felt)

/-- How an action of the proxy is answered. -/
def ProxyOp.Answer (GetClassResult : Type) : ProxyOp → Type
  | .rpc call => call.Answer GetClassResult
  | .verify _ _ _ _ _ => Res JsonRpcError Unit

variable {GetClassResult ContractClass : Type}

/-- A program of the proxy. -/
abbrev ProxyProg (GetClassResult α : Type) :=
  Prog ProxyOp (ProxyOp.Answer GetClassResult) (Fault StateError) α

/-- A conversion, with its error as a state error. -/
def orFail {α : Type} (x : Res JsonRpcError α) : ProxyProg GetClassResult α :=
  .done (Res.mapErr .iamGroot x)

/-- A request, with its error as a state error. -/
def ask (call : Call) : ProxyProg GetClassResult (call.Result GetClassResult) :=
  .act (.rpc call) fun answer => .done (answer.mapError fun e => .error (.iamGroot e))

/-- A run of `verify`, with its error as a state error. -/
def check (proof : GetProofResult) (globalRoot : Felt) (contractAddress : Address)
    (key : StorageKey) (value : Felt) : ProxyProg GetClassResult Unit :=
  .act (.verify proof globalRoot contractAddress key value) fun answer =>
    .done (Res.mapErr .unverified answer)

namespace StateProxy

variable (crates : Crates) (state : State)

/-- `get_storage_at`. -/
def getStorageAt (contractAddress storageKey : PatriciaKey) :
    ProxyProg GetClassResult StarkFelt := do
  let felt ← orFail (Felt.tryFromStarkFelt contractAddress.key)
  let address : Address := ⟨felt⟩
  let key ← orFail (StorageKey.tryNew (crates.storageKeyToString storageKey.key))
  let blockId : BlockId := .blockHash ⟨state.blockHash⟩
  let ret ← ask (.getStorageAt address key blockId)
  if ret.text = "0x0".toList then
    -- No proof is asked for where the value is zero.
    pure (ret.toStarkFelt crates)
  else do
    let proof ← ask (.getProof blockId address [key])
    check proof state.root address key ret
    pure (ret.toStarkFelt crates)

/-- `get_nonce_at`. -/
def getNonceAt (contractAddress : PatriciaKey) : ProxyProg GetClassResult StarkFelt := do
  let blockId : BlockId := .blockHash ⟨state.blockHash⟩
  let felt ← orFail (Felt.tryFromStarkFelt contractAddress.key)
  let ret ← ask (.getNonce blockId ⟨felt⟩)
  pure (Felt.toStarkFelt crates ret)

/-- `get_class_hash_at`. -/
def getClassHashAt (contractAddress : PatriciaKey) : ProxyProg GetClassResult StarkFelt := do
  let blockId : BlockId := .blockHash ⟨state.blockHash⟩
  let felt ← orFail (Felt.tryFromStarkFelt contractAddress.key)
  let ret ← ask (.getClassHashAt blockId ⟨felt⟩)
  pure (Felt.toStarkFelt crates ret)

/-- `get_compiled_contract_class`; `tryInto` converts the class formats. -/
def getCompiledContractClass (tryInto : GetClassResult → Except (Fault StateError) ContractClass)
    (classHash : StarkFelt) : ProxyProg GetClassResult ContractClass := do
  let blockId : BlockId := .blockHash ⟨state.blockHash⟩
  let classHash ← orFail (Felt.tryFromStarkFelt classHash)
  let ret ← ask (.getClass blockId classHash)
  tryInto ret

end StateProxy

/-- `StateProxy`. -/
def StateProxy (crates : Crates)
    (tryInto : GetClassResult → Except (Fault StateError) ContractClass) (state : State) :
    StateReader ProxyOp (ProxyOp.Answer GetClassResult) ContractClass
  | .getStorageAt contractAddress storageKey =>
      StateProxy.getStorageAt crates state contractAddress storageKey
  | .getNonceAt contractAddress => StateProxy.getNonceAt crates state contractAddress
  | .getClassHashAt contractAddress => StateProxy.getClassHashAt crates state contractAddress
  | .getCompiledContractClass classHash =>
      StateProxy.getCompiledContractClass state tryInto classHash
  | .getCompiledClassHash classHash => .done (Res.err (.undeclaredClassHash classHash))
  | .setStorageAt _ _ _ => .done (.ok ())
  | .incrementNonce _ => .done (.ok ())
  | .setClassHashAt _ _ => .done (.ok ())
  | .setContractClass _ _ => .done (.ok ())
  | .setCompiledClassHash _ _ => .done (.ok ())
  | .addVisitedPcs _ _ => .done (.ok ())

/-- The state object of `exe::call`: `CachedState::new(StateProxy { client, state })`. -/
def callState (crates : Crates)
    (tryInto : GetClassResult → Except (Fault StateError) ContractClass) (state : State) :
    StateReader (CachedOp ProxyOp ContractClass)
      (CacheOp.Answer (ProxyOp.Answer GetClassResult)) ContractClass :=
  CachedState crates state.blockHash (StateProxy crates tryInto state)

/-! ### Addresses and keys on their way to the provider -/

namespace PatriciaKey

/-- The key as the RPC's address type spells it. -/
def asAddress (k : PatriciaKey) : Address := ⟨.ofField k.key⟩

theorem fixedHex_key (k : PatriciaKey) :
    fixedHex 64 k.key.val = '0' :: fixedHex 63 k.key.val :=
  fixedHex_pad 1 k.key.val_lt_hex

theorem storageKeyRegex_key (k : PatriciaKey) :
    storageKeyRegex ('0' :: 'x' :: fixedHex 64 k.key.val) = true := by
  rw [fixedHex_key]
  rfl

/-- The key as the RPC's storage key type spells it. -/
def asStorageKey (k : PatriciaKey) : StorageKey :=
  ⟨'0' :: 'x' :: fixedHex 64 k.key.val, k.storageKeyRegex_key⟩

theorem tryNew_storageKeyToString (crates : Crates) (k : PatriciaKey) :
    StorageKey.tryNew (crates.storageKeyToString k.key) = .ok k.asStorageKey := by
  simp only [StorageKey.tryNew, crates.storageKeyToString_eq, k.storageKeyRegex_key, dite_true]
  rfl

theorem hexLiteral_asStorageKey (k : PatriciaKey) :
    hexLiteral k.asStorageKey.text = some k.key.val := by
  have digits := fixedHex_all 64 k.key.val
  have nonempty : fixedHex 64 k.key.val ≠ [] := by
    rw [fixedHex_key]
    exact List.cons_ne_nil _ _
  rw [asStorageKey, hexLiteral_prefixed nonempty (length_fixedHex _ _).le digits,
    hexNumber_fixedHex (Felt.val_lt_room _)]

@[simp] theorem number_asAddress (k : PatriciaKey) : k.asAddress.felt.number = k.key.val :=
  Felt.number_ofField _

end PatriciaKey

/-- The second half of a storage read: the check of what was answered, unless it
is zero. -/
def StateProxy.checked (state : State) (address : Address) (key : StorageKey) (ret : Felt) :
    ProxyProg GetClassResult StarkFelt :=
  if ret.text = "0x0".toList then
    pure ret.field
  else do
    let proof ← ask (.getProof (.blockHash ⟨state.blockHash⟩) address [key])
    check proof state.root address key ret
    pure ret.field

/-- A storage read once its arguments are converted. -/
def StateProxy.readAt (state : State) (address : Address) (key : StorageKey) :
    ProxyProg GetClassResult StarkFelt := do
  let ret ← ask (.getStorageAt address key (.blockHash ⟨state.blockHash⟩))
  StateProxy.checked state address key ret

theorem StateProxy.getStorageAt_eq (crates : Crates) (state : State)
    (contractAddress storageKey : PatriciaKey) :
    (StateProxy.getStorageAt crates state contractAddress storageKey :
        ProxyProg GetClassResult StarkFelt) =
      StateProxy.readAt state contractAddress.asAddress storageKey.asStorageKey := by
  simp only [StateProxy.getStorageAt, StateProxy.readAt, StateProxy.checked, orFail,
    Felt.tryFromStarkFelt_eq, PatriciaKey.tryNew_storageKeyToString, Res.mapErr_ok, Prog.ok_bind,
    Felt.toStarkFelt_eq]
  rfl

/-- A call reads storage through the cache. -/
theorem callState_getStorageAt (crates : Crates)
    (tryInto : GetClassResult → Except (Fault StateError) ContractClass) (state : State)
    (contractAddress storageKey : PatriciaKey) :
    callState crates tryInto state (.getStorageAt contractAddress storageKey) =
      @memoised CacheKind CacheKind.Key (CacheKind.Value ContractClass) ProxyOp
        (ProxyOp.Answer GetClassResult) _ .storage
        (CacheKind.storage.key crates state.blockHash (contractAddress, storageKey))
        (StateProxy.readAt state contractAddress.asAddress storageKey.asStorageKey).embed := by
  rw [← StateProxy.getStorageAt_eq crates]
  rfl

/-! ### Calls -/

/-- How actions are answered: requests as the provider may answer them, `verify`
as it computes. -/
def ProxyOp.Answered
    (verify : GetProofResult → Felt → Address → StorageKey → Felt → Res JsonRpcError Unit)
    (provider : (call : Call) → call.Answer GetClassResult → Prop) :
    (op : ProxyOp) → op.Answer GetClassResult → Prop
  | .rpc call, answer => provider call answer
  | .verify proof globalRoot contractAddress key value, answer =>
      answer = verify proof globalRoot contractAddress key value

/-- The state objects of calls that run on the given heads in one process: each
serves one method after another, and all share the read caches. -/
def calls {ι : Type} (crates : Crates) (profile : Profile)
    (tryInto : GetClassResult → Except (Fault StateError) ContractClass)
    (provider : (call : Call) → call.Answer GetClassResult → Prop) (heads : ι → State) :
    System ι (ReadCaches ContractClass) (CachedOp ProxyOp ContractClass)
      (CacheOp.Answer (ProxyOp.Answer GetClassResult)) (StateCall ContractClass)
      (Fault StateError) StateCall.Result :=
  memoSystem (fun i call => callState crates tryInto (heads i) call)
    fun _ => ProxyOp.Answered (GetProofResult.verify crates profile) provider

/-- An event of a call. -/
abbrev CallEvent (ι GetClassResult ContractClass : Type) :=
  CacheEvent ι CacheKind.Key (CacheKind.Value ContractClass) ProxyOp
    (ProxyOp.Answer GetClassResult)

/-- A configuration of calls. -/
abbrev CallConfig (ι GetClassResult ContractClass : Type) :=
  Config ι (ReadCaches ContractClass) (CachedOp ProxyOp ContractClass)
    (CacheOp.Answer (ProxyOp.Answer GetClassResult)) (StateCall ContractClass)
    (Fault StateError) StateCall.Result

end Beerus
