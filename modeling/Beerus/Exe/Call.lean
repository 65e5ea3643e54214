import Beerus.Exe
import Beerus.Exe.Err
import Beerus.Lib.Handler

/-!
Calls (`exe::call` of `src/exe/mod.rs`, `Client::execute` of `src/client.rs`).

A call converts its arguments, sets up one fixed context, and leaves the rest to
Blockifier, which is not part of the repository: it is any program whose actions
are the methods of the state object that it is given. Those are carried out by
`callState`. An error of a method is an answer, which Blockifier may react to; a
panic ends the call.
-/

namespace Beerus

open Beerus.Lib

/-! ### What Blockifier is given -/

/-- `starknet_api::EntryPointType`. -/
inductive EntryPointType where
  | construct
  | external
  | l1Handler
deriving DecidableEq

/-- `blockifier::CallType`. -/
inductive CallType where
  | call
  | delegate
deriving DecidableEq

/-- `blockifier::ExecutionMode`. -/
inductive ExecutionMode where
  | execute
  | validate
deriving DecidableEq

/-- `starknet_api::ChainId`. -/
inductive BlockifierChainId where
  | mainnet
  | sepolia
  | integrationSepolia
  | other (name : String)
deriving DecidableEq

/-- `NonZeroU128`. -/
abbrev NonZeroU128 := { n : Nat // 0 < n }

/-- `NonZeroU128::new`. -/
def NonZeroU128.new (n : Nat) : Option NonZeroU128 := if h : 0 < n then some ⟨n, h⟩ else none

/-- The default of `ContractAddress`. -/
instance : Inhabited PatriciaKey := ⟨⟨0, by decide⟩⟩

/-- `blockifier::GasPrices`. -/
structure GasPrices where
  ethL1GasPrice : NonZeroU128
  strkL1GasPrice : NonZeroU128
  ethL1DataGasPrice : NonZeroU128
  strkL1DataGasPrice : NonZeroU128

/-- `blockifier::BlockInfo`. -/
structure BlockInfo where
  blockNumber : Nat
  blockTimestamp : Nat
  sequencerAddress : PatriciaKey
  gasPrices : GasPrices
  useKzgDa : Bool

/-- `blockifier::ChainInfo`. -/
structure ChainInfo where
  chainId : BlockifierChainId
  strkFeeTokenAddress : PatriciaKey
  ethFeeTokenAddress : PatriciaKey

/-- `blockifier::DeprecatedTransactionInfo`. -/
structure DeprecatedTransactionInfo where
  transactionHash : StarkFelt
  version : StarkFelt
  signature : List StarkFelt
  nonce : StarkFelt
  senderAddress : PatriciaKey
  onlyQuery : Bool
  maxFee : Nat

/-- `blockifier::TransactionContext`; versioned constants and bouncer
configuration are Blockifier's own. -/
structure TransactionContext where
  blockInfo : BlockInfo
  chainInfo : ChainInfo
  txInfo : DeprecatedTransactionInfo

/-- `blockifier::CallEntryPoint`. -/
structure CallEntryPoint where
  classHash : Option StarkFelt
  codeAddress : Option PatriciaKey
  entryPointType : EntryPointType
  entryPointSelector : StarkFelt
  calldata : List StarkFelt
  storageAddress : PatriciaKey
  callerAddress : PatriciaKey
  callType : CallType
  initialGas : Nat

/-- `blockifier::CallInfo`, the part that is returned. -/
structure CallInfo where
  retdata : List StarkFelt
deriving DecidableEq

/-- How a method of the state object is answered. -/
abbrev StateCall.Answer {ContractClass : Type} (call : StateCall ContractClass) : Type :=
  Except StateError call.Result

/-- A program that runs on a state object. -/
abbrev StateProg (ContractClass ε α : Type) :=
  Prog (StateCall ContractClass) StateCall.Answer (Fault ε) α

/-- The crates that a call hands over to. Their errors are given by their
`Debug` texts. -/
structure Blockifier (ContractClass : Type) where
  /-- `EntryPointExecutionContext`. -/
  Context : Type
  /-- `EntryPointExecutionContext::new`. -/
  newContext : TransactionContext → ExecutionMode → Bool → Res String Context
  /-- `CallEntryPoint::execute`. -/
  execute : CallEntryPoint → Context → StateProg ContractClass String CallInfo
  /-- `StarknetApiError::OutOfRange`, as `PatriciaKey::try_from` raises it. -/
  outOfRange : String

variable {ContractClass GetClassResult : Type}

/-- `TryFrom<StarkHash> for PatriciaKey`. -/
def Blockifier.tryPatriciaKey (blockifier : Blockifier ContractClass) (hash : StarkFelt) :
    Res String PatriciaKey :=
  if low : hash.val < 2 ^ 251 then .ok ⟨hash, low⟩ else Res.err blockifier.outOfRange

/-- `gen::FunctionCall`. -/
structure FunctionCall where
  calldata : List Felt
  contractAddress : Address
  entryPointSelector : Felt
deriving DecidableEq

/-! ### The call -/

namespace Exe

/-- The context of every call: a query on Mainnet, in block zero. -/
def txContext (one : NonZeroU128) : TransactionContext where
  blockInfo :=
    { blockNumber := 0
      blockTimestamp := 0
      sequencerAddress := default
      gasPrices := ⟨one, one, one, one⟩
      useKzgDa := false }
  chainInfo := ⟨.mainnet, default, default⟩
  txInfo :=
    { transactionHash := 0
      version := 1
      signature := [0, 0]
      nonce := 0
      senderAddress := default
      onlyQuery := true
      maxFee := 0 }

/-- `call`, up to the execution. -/
def enter (crates : Crates) (blockifier : Blockifier ContractClass) (functionCall : FunctionCall) :
    Res Error (CallEntryPoint × blockifier.Context) := do
  let calldata := functionCall.calldata.map (Felt.toStarkFelt crates)
  let contractAddress := functionCall.contractAddress.felt.toStarkFelt crates
  let entryPointSelector := functionCall.entryPointSelector.toStarkFelt crates
  let one ← Res.okOr (.custom "NonZeroU128 is zero") (NonZeroU128.new 1)
  let context ←
    Res.mapErr .transaction (blockifier.newContext (txContext one) .execute false)
  let storageAddress ← Res.mapErr .starknetApi (blockifier.tryPatriciaKey contractAddress)
  pure
    ({ classHash := none
       codeAddress := none
       entryPointType := .external
       entryPointSelector
       calldata
       storageAddress
       callerAddress := default
       callType := .call
       initialGas := 2 ^ 64 - 1 }, context)

/-- What a call executes, whatever state it is given. -/
def execution (crates : Crates) (blockifier : Blockifier ContractClass)
    (functionCall : FunctionCall) : StateProg ContractClass Error CallInfo := do
  let (entryPoint, context) ← enter crates blockifier functionCall
  (blockifier.execute entryPoint context).mapResult (Res.mapErr .entryPoint)

/-- A method's error is an answer. A panic is not. -/
def attempt {ε α : Type} : Res StateError α → Res ε (Except StateError α)
  | .ok a => .ok (.ok a)
  | .error (.error e) => .ok (.error e)
  | .error .panic => Res.panic

/-- `exe::call`. -/
def call (crates : Crates) (tryInto : GetClassResult → Except (Fault StateError) ContractClass)
    (blockifier : Blockifier ContractClass) (functionCall : FunctionCall) (state : State) :
    Prog (CachedOp ProxyOp ContractClass) (CacheOp.Answer (ProxyOp.Answer GetClassResult))
      (Fault Error) CallInfo :=
  (execution crates blockifier functionCall).interp fun call =>
    (callState crates tryInto state call).mapResult attempt

end Exe

/-! ### The client -/

/-- The errors of `Client::execute`. -/
inductive ClientError where
  | exe (e : Error)
  | felt (e : JsonRpcError)
deriving DecidableEq

/-- `Client::execute`. -/
def Client.execute (crates : Crates)
    (tryInto : GetClassResult → Except (Fault StateError) ContractClass)
    (blockifier : Blockifier ContractClass) (request : FunctionCall) (state : State) :
    Prog (CachedOp ProxyOp ContractClass) (CacheOp.Answer (ProxyOp.Answer GetClassResult))
      (Fault ClientError) (List Felt) := do
  let callInfo ←
    (Exe.call crates tryInto blockifier request state).mapResult (Res.mapErr .exe)
  (Res.mapErr .felt (executeResult callInfo.retdata) : Res ClientError (List Felt))

/-! ### What a call can end with -/

/-- How methods are answered that end as is said. -/
def StateCall.Answers (ends : (call : StateCall ContractClass) → Res StateError call.Result → Prop)
    (call : StateCall ContractClass) (answer : call.Answer) : Prop :=
  ends call (answer.mapError .error)

/-- How they end a call: they panic. -/
def StateCall.Panics {ε : Type}
    (ends : (call : StateCall ContractClass) → Res StateError call.Result → Prop)
    (call : StateCall ContractClass) (fault : Fault ε) : Prop :=
  fault = .panic ∧ ends call Res.panic

theorem attempt_gives {ε : Type}
    {ends : (call : StateCall ContractClass) → Res StateError call.Result → Prop}
    {call : StateCall ContractClass} {result : Res StateError call.Result}
    (ended : ends call result) :
    Prog.Gives (StateCall.Answers ends) (StateCall.Panics ends) call
      (Exe.attempt result : Res ε call.Answer) := by
  match result with
  | .ok v => exact ended
  | .error (.error e) => exact ended
  | .error .panic => exact ⟨rfl, ended⟩

/-- The errors that an execution raises are its own. What the provider answers
with is at most a text in one of them. -/
theorem Exe.execution_own {crates : Crates} {blockifier : Blockifier ContractClass}
    {functionCall : FunctionCall}
    {allowed : (call : StateCall ContractClass) → call.Answer → Prop} :
    (Exe.execution crates blockifier functionCall).Yields allowed fun result =>
      ∀ e, result = Res.err e → e.IsOwn := by
  have entered : ∀ e, Exe.enter crates blockifier functionCall = Res.err e → e.IsOwn := by
    intro e failed
    rcases Res.bind_eq_err.mp failed with zero | ⟨one, -, failed⟩
    · exact nomatch zero
    rcases Res.bind_eq_err.mp failed with refused | ⟨context, -, failed⟩
    · obtain ⟨text, -, rfl⟩ := Res.mapErr_eq_err.mp refused
      trivial
    rcases Res.bind_eq_err.mp failed with high | ⟨address, -, done⟩
    · obtain ⟨text, -, rfl⟩ := Res.mapErr_eq_err.mp high
      trivial
    · exact nomatch done
  unfold Exe.execution
  cases run : Exe.enter crates blockifier functionCall with
  | error fault =>
      rintro e ⟨⟩
      exact entered e run
  | ok pair =>
      refine Prog.yields_mapResult.mpr ((Prog.yields_trivial _).weaken ?_)
      rintro result - e failed
      obtain ⟨text, -, rfl⟩ := Res.mapErr_eq_err.mp failed
      trivial

/-- So are those of a call. -/
theorem Exe.call_own {crates : Crates}
    {tryInto : GetClassResult → Except (Fault StateError) ContractClass}
    {blockifier : Blockifier ContractClass} {functionCall : FunctionCall} {state : State} :
    (Exe.call crates tryInto blockifier functionCall state).Yields (fun _ _ => True) fun result =>
      ∀ e, result = Res.err e → e.IsOwn := by
  have gives : ∀ call (result : Res StateError call.Result),
      Prog.Gives (StateCall.Answers fun (_ : StateCall ContractClass) _ => True)
        (StateCall.Panics fun (_ : StateCall ContractClass) _ => True) call
        (Exe.attempt result : Res Error call.Answer) := fun call result => attempt_gives trivial
  refine (Prog.yields_interp (fun call => Prog.yields_mapResult.mpr
    ((Prog.yields_trivial _).weaken fun result _ => gives call result)) _).weaken ?_
  intro result ends
  refine ends.of_yields Exe.execution_own ?_
  rintro call fault ⟨rfl, -⟩
  exact nofun

section Told

variable {ι : Type} {crates : Crates}
  {tells : Nat → (call : StateCall ContractClass) → Res StateError call.Result → Prop}

/-- What every entry of the read caches has behind it: it is what a method may
be told of the block. -/
def Told (crates : Crates)
    (tells : Nat → (call : StateCall ContractClass) → Res StateError call.Result → Prop) :
    (c : CacheKind) → c.Key → c.Value ContractClass → Prop
  | .storage, k, v => ∀ h contractAddress storageKey,
      CacheKind.storage.key crates h (contractAddress, storageKey) = .ok k →
        tells h.number (.getStorageAt contractAddress storageKey) (.ok v)
  | .classHash, k, v => ∀ h contractAddress,
      CacheKind.classHash.key crates h contractAddress = .ok k →
        tells h.number (.getClassHashAt contractAddress) (.ok v)
  | .contractClass, k, v => ∀ h classHash,
      CacheKind.contractClass.key crates h classHash = .ok k →
        tells h.number (.getCompiledContractClass classHash) (.ok v)

theorem told_storage_iff {h : Felt} {contractAddress storageKey : PatriciaKey}
    {k : CacheKind.storage.Key} {v : StarkFelt}
    (here : CacheKind.storage.key crates h (contractAddress, storageKey) = .ok k) :
    Told crates tells .storage k v ↔
      tells h.number (.getStorageAt contractAddress storageKey) (.ok v) := by
  constructor
  · intro told
    exact told h contractAddress storageKey here
  · intro told h' a s there
    obtain ⟨block, same⟩ := CacheKind.key_inj there here
    obtain ⟨rfl, rfl⟩ := Prod.mk.inj same
    rwa [block]

theorem told_classHash_iff {h : Felt} {contractAddress : PatriciaKey}
    {k : CacheKind.classHash.Key} {v : StarkFelt}
    (here : CacheKind.classHash.key crates h contractAddress = .ok k) :
    Told crates tells .classHash k v ↔ tells h.number (.getClassHashAt contractAddress) (.ok v) := by
  constructor
  · intro told
    exact told h contractAddress here
  · intro told h' a there
    obtain ⟨block, rfl⟩ := CacheKind.key_inj there here
    rwa [block]

theorem told_contractClass_iff {h : Felt} {classHash : StarkFelt}
    {k : CacheKind.contractClass.Key} {v : ContractClass}
    (here : CacheKind.contractClass.key crates h classHash = .ok k) :
    Told crates tells .contractClass k v ↔
      tells h.number (.getCompiledContractClass classHash) (.ok v) := by
  constructor
  · intro told
    exact told h classHash here
  · intro told h' hash there
    obtain ⟨block, rfl⟩ := CacheKind.key_inj there here
    rwa [block]

variable {O : Type} {R : O → Type} {answers : ι → (op : O) → R op → Prop} {i : ι}
  {seen : Set (CacheEvent ι CacheKind.Key (CacheKind.Value ContractClass) O R)} {blockHash : Felt}

/-- A cached method is told what the wrapped one is told. -/
theorem safe_told {inner : StateReader O R ContractClass} {call : StateCall ContractClass}
    (safe : ∀ past, (inner call).embed.Safe i (May (Told crates tells) answers seen)
      (Owes (Told crates tells) False) (fun _ result => tells blockHash.number call result) past)
    (past : List (CacheEvent ι CacheKind.Key (CacheKind.Value ContractClass) O R)) :
    (CachedState crates blockHash inner call).Safe i (May (Told crates tells) answers seen)
      (Owes (Told crates tells) False) (fun _ result => tells blockHash.number call result)
      past := by
  -- Keys are always found, so that a cached read ends as a read or with an entry.
  have through : ∀ (c : CacheKind) (args : c.Args)
      {read : Prog (CachedOp O ContractClass) (CacheOp.Answer R) (Fault StateError)
        (c.Value ContractClass)}
      {post : Res StateError (c.Value ContractClass) → Prop},
      (∀ k v, c.key crates blockHash args = .ok k →
        (Told crates tells c k v ↔ post (.ok v))) →
      (∀ past, read.Safe i (May (Told crates tells) answers seen)
        (Owes (Told crates tells) False) (fun _ result => post result) past) →
      (memoised c (c.key crates blockHash args) read).Safe i
        (May (Told crates tells) answers seen) (Owes (Told crates tells) False)
        (fun _ result => post result) past := by
    intro c args read post told safe
    refine safe_memoised_from id ?_ (fun k v here => (told k v here).mp) ?_ past
    · intro e failed
      obtain ⟨k, found⟩ := CacheKind.key_ok crates blockHash c args
      rw [found] at failed
      exact nomatch failed
    · intro past
      refine (safe past).weaken fun past result ends => ⟨ends, ?_⟩
      rintro v rfl k here
      exact (told k v here).mpr ends
  cases call with
  | getStorageAt contractAddress storageKey =>
      exact through .storage (contractAddress, storageKey) (fun k v => told_storage_iff) safe
  | getClassHashAt contractAddress =>
      exact through .classHash contractAddress (fun k v => told_classHash_iff) safe
  | getCompiledContractClass classHash =>
      exact through .contractClass classHash (fun k v => told_contractClass_iff) safe
  | _ => exact safe past

/-- A call ends as its execution can, where every method is answered with what it
may be told of the call's block. -/
theorem Exe.safe_call {seen : Set (CallEvent ι GetClassResult ContractClass)}
    {answers : ι → (op : ProxyOp) → op.Answer GetClassResult → Prop}
    {tryInto : GetClassResult → Except (Fault StateError) ContractClass}
    {blockifier : Blockifier ContractClass} {functionCall : FunctionCall} {state : State}
    (safe : ∀ call past, (StateProxy crates tryInto state call).embed.Safe i
      (May (Told crates tells) answers seen) (Owes (Told crates tells) False)
      (fun _ result => tells state.blockHash.number call result) past)
    (past : List (CallEvent ι GetClassResult ContractClass)) :
    (Exe.call crates tryInto blockifier functionCall state).Safe i
      (May (Told crates tells) answers seen) (Owes (Told crates tells) False)
      (fun _ result => (Exe.execution crates blockifier functionCall).EndsOr
        (StateCall.Answers (tells state.blockHash.number))
        (StateCall.Panics (tells state.blockHash.number)) result) past := by
  refine Prog.Safe.weaken (fun past result ends => ends.2)
    (Prog.safe_interp (fun _ => True) (fun call past _ => ?_) _ trivial)
  refine Prog.safe_mapResult.mpr ((safe_told (safe call) past).weaken ?_)
  intro past result told
  exact ⟨trivial, attempt_gives told⟩

end Told

end Beerus
