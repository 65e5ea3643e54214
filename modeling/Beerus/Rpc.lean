import Beerus.Exe
import Beerus.Feeder

/-!
The RPC server (`src/rpc.rs`) and the poll loop of `main` (`src/bin/beerus.rs`).

The server holds one head behind a read-write lock. A `getStorageAt` request
resolves its block id under the read lock, to an id to send and a state root to
verify against, and then asks the provider for the value and its proof. The
poll loop replaces the head whenever the gateway has another one.

The programs that run for one head, between taking the lock and giving it back,
only talk to the provider. `lift` makes them part of the server.
-/

namespace Beerus

open Beerus.Lib

variable {GetClassResult : Type}

/-! ### Resolution of block ids -/

/-- A program of a request that runs for one head. -/
abbrev ContextProg (GetClassResult α : Type) :=
  Prog ProxyOp (ProxyOp.Answer GetClassResult) (Fault JsonRpcError) α

namespace Context

/-- A request to the provider. -/
def ask (call : Call) : ContextProg GetClassResult (call.Result GetClassResult) :=
  .act (.rpc call) fun answer => .done (answer.mapError .error)

/-- A run of `verify`. -/
def check (proof : GetProofResult) (globalRoot : Felt) (contractAddress : Address)
    (key : StorageKey) (value : Felt) : ContextProg GetClassResult Unit :=
  .act (.verify proof globalRoot contractAddress key value) .done

/-- `get_state`. -/
def getState (blockId : BlockId) : ContextProg GetClassResult State := do
  let block ← ask (.getBlockWithTxHashes blockId)
  match (block : GetBlockWithTxHashesResult) with
  | .pendingBlockWithTxHashes => .done (Res.err ⟨-1, "Pending block received"⟩)
  | .blockWithTxHashes header =>
      pure ⟨asU64 header.blockNumber.val, header.blockHash.felt, header.newRoot, asU64_lt _⟩

/-- `resolve_block_by_number`. -/
def resolveBlockByNumber (blockNumber : BlockNumber) (currentState : State) :
    ContextProg GetClassResult (BlockId × Felt) := do
  let reqBlockNumber := asU64 blockNumber.val
  if reqBlockNumber ≥ currentState.blockNumber then do
    let blockNumber ← BlockNumber.tryNew (asI64 currentState.blockNumber)
    pure (.blockNumber blockNumber, currentState.root)
  else do
    let state ← getState (.blockNumber blockNumber)
    if state.blockNumber ≠ reqBlockNumber then
      .done (Res.err ⟨-1, "Failed to verify requested block by number"⟩)
    else
      pure (.blockNumber blockNumber, state.root)

/-- `resolve_block_by_hash`. -/
def resolveBlockByHash (blockHash : BlockHash) (currentState : State) :
    ContextProg GetClassResult (BlockId × Felt) :=
  if blockHash.felt.text = currentState.blockHash.text then
    pure (.blockHash blockHash, currentState.root)
  else do
    let state ← getState (.blockHash blockHash)
    if blockHash.felt.text ≠ state.blockHash.text ∨
        state.blockNumber ≥ currentState.blockNumber then
      .done (Res.err ⟨-1, "Failed to verify requested block by hash"⟩)
    else
      pure (.blockHash blockHash, state.root)

/-- What `resolve_block_id` does under the lock. -/
def resolveAt (state : State) : BlockId → ContextProg GetClassResult (BlockId × Felt)
  | .blockNumber blockNumber => resolveBlockByNumber blockNumber state
  | .blockHash blockHash => resolveBlockByHash blockHash state
  | .blockTag .latest => do
      let blockNumber ← BlockNumber.tryNew (asI64 state.blockNumber)
      pure (.blockNumber blockNumber, state.root)
  | .blockTag .pending => .done (Res.err ⟨-1, "Pending block is not supported"⟩)

/-- What `getStorageAt` does with a resolved id and its root. -/
def getVerified (contractAddress : Address) (key : StorageKey) (blockId : BlockId)
    (stateRoot : Felt) : ContextProg GetClassResult Felt := do
  let result ← ask (.getStorageAt contractAddress key blockId)
  let proof ← ask (.getProof blockId contractAddress [key])
  check proof stateRoot contractAddress key result
  pure result

end Context

/-! ### What ids are resolved to -/

/-- An id and the root of a head, by its number or by its hash. -/
inductive OfHead (state : State) : BlockId → Felt → Prop where
  | number (n : BlockNumber) (same : n.val.toInt = state.blockNumber) :
      OfHead state (.blockNumber n) state.root
  | hash (h : BlockHash) (same : h.felt.text = state.blockHash.text) :
      OfHead state (.blockHash h) state.root

/-- Ids that are resolved to the head without a request. -/
def IsOwn (state : State) : BlockId → Prop
  | .blockNumber n => (state.blockNumber : Int) ≤ n.val.toInt
  | .blockHash h => h.felt.text = state.blockHash.text
  | .blockTag .latest => True
  | .blockTag .pending => False

instance (state : State) : (blockId : BlockId) → Decidable (IsOwn state blockId)
  | .blockNumber n => inferInstanceAs (Decidable ((state.blockNumber : Int) ≤ n.val.toInt))
  | .blockHash h => inferInstanceAs (Decidable (h.felt.text = state.blockHash.text))
  | .blockTag .latest => inferInstanceAs (Decidable True)
  | .blockTag .pending => inferInstanceAs (Decidable False)

/-- The provider's header is for the block that was asked for. -/
def Echoes : BlockId → BlockHeader → Prop
  | .blockNumber n, header => header.blockNumber.val.toInt = n.val.toInt
  | .blockHash h, header => header.blockHash.felt.text = h.felt.text
  | .blockTag _, _ => False

namespace Context

variable {state : State}

/-- The head's own number and root, where the number can be sent. -/
def ownNumber (state : State) : Res JsonRpcError (BlockId × Felt) := do
  let blockNumber ← BlockNumber.tryNew (asI64 state.blockNumber)
  pure (.blockNumber blockNumber, state.root)

theorem ownNumber_eq_ok {sent : BlockId} {root : Felt} :
    ownNumber state = .ok (sent, root) ↔
      root = state.root ∧ ∃ m, sent = .blockNumber m ∧ m.val.toInt = state.blockNumber := by
  constructor
  · intro ok
    obtain ⟨m, tried, same⟩ := Res.bind_eq_ok.mp ok
    obtain ⟨rfl, rfl⟩ := Prod.mk.inj (Except.ok.inj same)
    exact ⟨rfl, m, rfl, (BlockNumber.tryNew_asI64 state.fits).mp tried⟩
  · rintro ⟨rfl, m, rfl, same⟩
    rw [ownNumber, (BlockNumber.tryNew_asI64 state.fits).mpr same]
    rfl

theorem resolveAt_latest :
    (resolveAt state (.blockTag .latest) : ContextProg GetClassResult _) =
      .done (ownNumber state) :=
  Prog.done_bind_done (BlockNumber.tryNew (asI64 state.blockNumber))
    fun m => .ok (BlockId.blockNumber m, state.root)

/-- A number from the head's on, or its hash, or `latest`. -/
theorem resolveAt_own {blockId : BlockId} (own : IsOwn state blockId) :
    ∃ result, (resolveAt state blockId : ContextProg GetClassResult _) = .done result ∧
      ∀ sent root, result = .ok (sent, root) → OfHead state sent root ∧
        ∀ n, blockId = .blockNumber n → ∃ m, sent = .blockNumber m := by
  cases blockId with
  | blockNumber n =>
      have number := asU64_of_nonneg n.nonneg
      have high : asU64 n.val ≥ state.blockNumber := by
        unfold IsOwn at own
        omega
      have branch : (resolveAt state (.blockNumber n) : ContextProg GetClassResult _) =
          resolveAt state (.blockTag .latest) := if_pos high
      refine ⟨ownNumber state, branch.trans resolveAt_latest, fun sent root ok => ?_⟩
      obtain ⟨rfl, m, rfl, same⟩ := ownNumber_eq_ok.mp ok
      exact ⟨.number m same, fun _ _ => ⟨m, rfl⟩⟩
  | blockHash h =>
      refine ⟨_, if_pos own, ?_⟩
      rintro _ _ ⟨⟩
      exact ⟨.hash h own, nofun⟩
  | blockTag tag =>
      cases tag with
      | pending => exact own.elim
      | latest =>
          refine ⟨ownNumber state, resolveAt_latest, fun sent root ok => ?_⟩
          obtain ⟨rfl, m, rfl, same⟩ := ownNumber_eq_ok.mp ok
          exact ⟨.number m same, nofun⟩

/-- What the answer for an older block is taken for. -/
def olderResult (accepted : BlockHeader → Bool) (refusal : String) (blockId : BlockId) :
    Except JsonRpcError GetBlockWithTxHashesResult → Res JsonRpcError (BlockId × Felt)
  | .ok (.blockWithTxHashes header) =>
      if accepted header then .ok (blockId, header.newRoot) else Res.err ⟨-1, refusal⟩
  | .ok .pendingBlockWithTxHashes => Res.err ⟨-1, "Pending block received"⟩
  | .error e => Res.err e

theorem olderResult_eq_ok {accepted : BlockHeader → Bool} {refusal : String} {blockId : BlockId}
    {answer : Except JsonRpcError GetBlockWithTxHashesResult} {sent : BlockId} {root : Felt} :
    olderResult accepted refusal blockId answer = .ok (sent, root) ↔
      ∃ header, answer = .ok (.blockWithTxHashes header) ∧ accepted header = true ∧
        sent = blockId ∧ root = header.newRoot := by
  constructor
  · intro ok
    match answer, ok with
    | .ok (.blockWithTxHashes header), ok =>
        rw [olderResult] at ok
        by_cases good : accepted header = true
        · rw [if_pos good] at ok
          obtain ⟨rfl, rfl⟩ := Prod.mk.inj (Except.ok.inj ok)
          exact ⟨header, rfl, good, rfl, rfl⟩
        · rw [if_neg good] at ok
          exact nomatch ok
  · rintro ⟨header, rfl, good, rfl, rfl⟩
    exact if_pos good

/-- A program that goes on from `get_state` to one of two ends. -/
theorem getState_bind (blockId : BlockId) (accepted : State → Prop) [DecidablePred accepted]
    (refusal : String) :
    (do
      let state ← getState blockId
      if accepted state then pure (blockId, state.root) else .done (Res.err ⟨-1, refusal⟩) :
        ContextProg GetClassResult (BlockId × Felt)) =
      .act (.rpc (.getBlockWithTxHashes blockId)) fun answer =>
        .done (olderResult (fun header => accepted
          ⟨asU64 header.blockNumber.val, header.blockHash.felt, header.newRoot, asU64_lt _⟩)
            refusal blockId answer) := by
  refine congrArg (Prog.act _) (funext fun answer => ?_)
  match answer with
  | .error e => rfl
  | .ok .pendingBlockWithTxHashes => rfl
  | .ok (.blockWithTxHashes header) =>
      by_cases good : accepted
          ⟨asU64 header.blockNumber.val, header.blockHash.felt, header.newRoot, asU64_lt _⟩
      · exact (if_pos good).trans (congrArg Prog.done (if_pos (decide_eq_true good))).symm
      · exact (if_neg good).trans
          (congrArg Prog.done (if_neg (mt of_decide_eq_true good))).symm

/-- Any other id but `pending` is resolved by the header that the provider
presents for it, where that is for a block below the head. -/
theorem resolveAt_older {blockId : BlockId} (older : ¬ IsOwn state blockId)
    (supported : blockId ≠ .blockTag .pending) :
    ∃ result : Except JsonRpcError GetBlockWithTxHashesResult →
        Res JsonRpcError (BlockId × Felt),
      (resolveAt state blockId : ContextProg GetClassResult _) =
        .act (.rpc (.getBlockWithTxHashes blockId)) (fun answer => .done (result answer)) ∧
      ∀ answer sent root, result answer = .ok (sent, root) ↔
        ∃ header, answer = .ok (.blockWithTxHashes header) ∧
          (Echoes blockId header ∧ header.blockNumber.val.toInt < state.blockNumber) ∧
          sent = blockId ∧ root = header.newRoot := by
  cases blockId with
  | blockNumber n =>
      have number := asU64_of_nonneg n.nonneg
      have low : ¬ asU64 n.val ≥ state.blockNumber := by
        unfold IsOwn at older
        omega
      have branch := @getState_bind GetClassResult (.blockNumber n)
        (fun other => other.blockNumber = asU64 n.val) _
        "Failed to verify requested block by number"
      refine ⟨_, ((if_neg low).trans ?_).trans branch, ?_⟩
      · simp only [ite_not]
      · intro answer sent root
        rw [olderResult_eq_ok]
        refine exists_congr fun header => and_congr_right fun _ => and_congr_left' ?_
        have echo := asU64_of_nonneg header.blockNumber.nonneg
        simp only [decide_eq_true_iff, Echoes]
        omega
  | blockHash h =>
      have branch := @getState_bind GetClassResult (.blockHash h)
        (fun other => h.felt.text = other.blockHash.text ∧ other.blockNumber < state.blockNumber) _
        "Failed to verify requested block by hash"
      refine ⟨_, ((if_neg older).trans ?_).trans branch, ?_⟩
      · simp only [ge_iff_le, ← not_lt, ne_eq, ← not_and_or, ite_not]
      · intro answer sent root
        rw [olderResult_eq_ok]
        refine exists_congr fun header => and_congr_right fun _ => and_congr_left' ?_
        have echo := asU64_of_nonneg header.blockNumber.nonneg
        simp only [decide_eq_true_iff, Echoes]
        exact and_congr eq_comm (by omega)
  | blockTag tag =>
      cases tag with
      | latest => exact absurd trivial older
      | pending => exact absurd rfl supported

end Context

/-! ### The server -/

/-- An action of the server: taking the read lock, giving it back, cloning the
head under it, replacing the head under the write lock, a request to the
gateway, or an action of a request. -/
inductive ServerOp where
  | lock
  | unlock
  | snapshot
  | publish (update : State)
  | gateway
  | inner (op : ProxyOp)

/-- How an action of the server is answered. -/
def ServerOp.Answer (GetClassResult : Type) : ServerOp → Type
  | .lock => State
  | .unlock => Unit
  | .snapshot => State
  | .publish _ => Unit
  | .gateway => GatewayAnswer
  | .inner op => op.Answer GetClassResult

/-- A program of the server. -/
abbrev ServerProg (GetClassResult α : Type) :=
  Prog ServerOp (ServerOp.Answer GetClassResult) (Fault JsonRpcError) α

/-- A program of a request, as part of the server. -/
def Lib.Prog.lift {α : Type} : ContextProg GetClassResult α → ServerProg GetClassResult α
  | .done result => .done result
  | .act op next => .act (.inner op) fun answer => (next answer).lift

/-- `resolve_block_id`. The lock is held to the end, on every way out. -/
def Context.resolveBlockId (blockId : BlockId) : ServerProg GetClassResult (BlockId × Felt) :=
  .act .lock fun state => (resolveAt state blockId).lift.andFinally .unlock

/-- `Context::getStorageAt`. -/
def Context.getStorageAt (contractAddress : Address) (key : StorageKey) (blockId : BlockId) :
    ServerProg GetClassResult Felt := do
  let (blockId, stateRoot) ← resolveBlockId blockId
  (getVerified contractAddress key blockId stateRoot).lift

/-- The loop of the polling task, for a number of ticks. -/
def poll.loop : Nat → State → ServerProg GetClassResult Unit
  | 0, _ => pure ()
  | ticks + 1, current =>
      .act .gateway fun response =>
        match GatewayClient.getState response with
        | .ok update =>
            if update ≠ current then
              .act (.publish update) fun _ => loop ticks update
            else
              loop ticks current
        | .error _ => loop ticks current

/-- The polling task. -/
def poll (ticks : Nat) : ServerProg GetClassResult Unit := .act .snapshot (poll.loop ticks)

/-- What the server's tasks are asked to do. -/
inductive ServerJob where
  | getStorageAt (contractAddress : Address) (key : StorageKey) (blockId : BlockId)
  | poll (ticks : Nat)

/-- What they return. -/
def ServerJob.Result : ServerJob → Type
  | .getStorageAt _ _ _ => Felt
  | .poll _ => Unit

instance : (job : ServerJob) → DecidableEq job.Result
  | .getStorageAt _ _ _ => inferInstanceAs (DecidableEq Felt)
  | .poll _ => inferInstanceAs (DecidableEq Unit)

/-- The code of a task. -/
def ServerJob.code : (job : ServerJob) → ServerProg GetClassResult job.Result
  | .getStorageAt contractAddress key blockId => Context.getStorageAt contractAddress key blockId
  | .poll ticks => Beerus.poll ticks

/-- The head, and the tasks that hold the read lock. -/
structure Server (ι : Type) where
  head : State
  readers : Finset ι

variable {ι : Type} [DecidableEq ι]

/-- What the actions of a task do. The head is replaced only while nobody holds
the read lock; the provider and the gateway answer as they like. -/
def serverExec
    (verify : GetProofResult → Felt → Address → StorageKey → Felt → Res JsonRpcError Unit)
    (i : ι) : (op : ServerOp) → op.Answer GetClassResult → Server ι → Server ι → Prop
  | .lock, answer, s, s' => answer = s.head ∧ s' = { s with readers := insert i s.readers }
  | .unlock, _, s, s' => s' = { s with readers := s.readers.erase i }
  | .snapshot, answer, s, s' => answer = s.head ∧ s' = s
  | .publish update, _, s, s' => s.readers = ∅ ∧ s' = { s with head := update }
  | .gateway, _, s, s' => s' = s
  | .inner op, answer, s, s' => op.Answered verify (fun _ _ => True) answer ∧ s' = s

/-- The same as a function, where the provider answers by one and the gateway
always alike. -/
def serverRun (provider : (op : ProxyOp) → op.Answer GetClassResult) (response : GatewayAnswer)
    (i : ι) : (op : ServerOp) → Server ι → op.Answer GetClassResult × Server ι
  | .lock, s => (s.head, { s with readers := insert i s.readers })
  | .unlock, s => ((), { s with readers := s.readers.erase i })
  | .snapshot, s => (s.head, s)
  | .publish update, s => ((), { s with head := update })
  | .gateway, s => (response, s)
  | .inner op, s => (provider op, s)

/-- Whether an action can be done: publishing waits for the readers. -/
def ServerOp.enabled (s : Server ι) : ServerOp → Bool
  | .publish _ => s.readers = ∅
  | _ => true

theorem serverRun_does
    {verify : GetProofResult → Felt → Address → StorageKey → Felt → Res JsonRpcError Unit}
    {provider : (op : ProxyOp) → op.Answer GetClassResult}
    (answers : ∀ op, ProxyOp.Answered verify (fun _ _ => True) op (provider op))
    (response : GatewayAnswer) (i : ι) {op : ServerOp} {s : Server ι}
    (enabled : op.enabled s = true) :
    serverExec verify i op (serverRun provider response i op s).1 s
      (serverRun provider response i op s).2 := by
  cases op with
  | lock => exact ⟨rfl, rfl⟩
  | unlock => rfl
  | snapshot => exact ⟨rfl, rfl⟩
  | publish update => exact ⟨of_decide_eq_true enabled, rfl⟩
  | gateway => rfl
  | inner op => exact ⟨answers op, rfl⟩

/-- An event of the server. -/
abbrev ServerEvent (ι GetClassResult : Type) :=
  Prog.Event ι (Server ι) ServerOp (ServerOp.Answer GetClassResult)

/-- A configuration of the server. -/
abbrev ServerConfig (ι GetClassResult : Type) :=
  Config ι (Server ι) ServerOp (ServerOp.Answer GetClassResult) ServerJob (Fault JsonRpcError)
    ServerJob.Result

end Beerus
