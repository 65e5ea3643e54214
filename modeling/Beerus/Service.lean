import Beerus.Exe.Call
import Beerus.Rpc.Pairing

/-!
The service: all that runs in the one process of `src/bin/beerus.rs`.

Its tasks read storage, run calls and poll the gateway. They share the head,
behind its lock, and the read caches. `Context::call` copies the head and works
on the copy without the lock, in a thread of its own, so that heads are
published under it; a panic in there comes back as an error.

`service_keeps` is the invariant that the results on the service rest on. It is
generic in what the methods of a state object may end with for a block.
-/

namespace Beerus

open Beerus.Lib

variable {GetClassResult ContractClass : Type}

/-! ### Actions -/

/-- An action of the service: one of the server's, or one on the read caches. -/
abbrev ServiceOp (ContractClass : Type) := CachedOp ServerOp ContractClass

/-- A program of the service. -/
abbrev ServiceProg (GetClassResult ContractClass α : Type) :=
  Prog (ServiceOp ContractClass) (CacheOp.Answer (ServerOp.Answer GetClassResult))
    (Fault JsonRpcError) α

/-- A call's action, as one of the service. -/
def CallOp.name : CachedOp ProxyOp ContractClass → ServiceOp ContractClass
  | .get c k => .get c k
  | .set c k v => .set c k v
  | .inner op => .inner (.inner op)

/-- It is answered alike. -/
def CallOp.back : (op : CachedOp ProxyOp ContractClass) →
    CacheOp.Answer (ServerOp.Answer GetClassResult) (CallOp.name op) →
      CacheOp.Answer (ProxyOp.Answer GetClassResult) op
  | .get _ _, answer => answer
  | .set _ _ _, answer => answer
  | .inner _, answer => answer

/-- A call's program, as part of the service. -/
abbrev Lib.Prog.inService {ε α : Type}
    (p : Prog (CachedOp ProxyOp ContractClass) (CacheOp.Answer (ProxyOp.Answer GetClassResult))
      ε α) :
    Prog (ServiceOp ContractClass) (CacheOp.Answer (ServerOp.Answer GetClassResult)) ε α :=
  p.relabel CallOp.name CallOp.back

/-- A program of the server, as part of the service. -/
abbrev Lib.Prog.ofServer {α : Type} (p : ServerProg GetClassResult α) :
    ServiceProg GetClassResult ContractClass α :=
  p.relabel (fun op => .inner op) fun _ answer => answer

/-! ### Calls -/

/-- What the service is linked with. -/
structure Linked (GetClassResult ContractClass : Type) where
  crates : Crates
  profile : Profile
  tryInto : GetClassResult → Except (Fault StateError) ContractClass
  blockifier : Blockifier ContractClass
  /-- The text of a `JoinError` of `tokio`. -/
  joinError : String

namespace Linked

variable (linked : Linked GetClassResult ContractClass)

/-- `verify`. -/
def verify : GetProofResult → Felt → Address → StorageKey → Felt → Res JsonRpcError Unit :=
  GetProofResult.verify linked.crates linked.profile

/-- What becomes of a thread's result: `spawn_blocking(..).await.map_err(..)??`. -/
def joined {α : Type} : Res Error α → Res JsonRpcError α
  | .ok a => .ok a
  | .error (.error e) => Res.err e.toJsonRpc
  | .error .panic => Res.err ⟨500, "join error: " ++ linked.joinError⟩

end Linked

/-- The felts that `Context::call` returns. -/
def callResult (retdata : List StarkFelt) : Res JsonRpcError (List Felt) :=
  Res.mapErr Error.toJsonRpc
    (retdata.mapM fun e => Res.mapErr Error.iamGroot (Felt.tryFromStarkFelt e))

/-- `Context::call`. The block id is only logged. -/
def Context.call (linked : Linked GetClassResult ContractClass) (request : FunctionCall)
    (_blockId : BlockId) : ServiceProg GetClassResult ContractClass (List Felt) :=
  .act (.inner .snapshot) fun state => do
    let callInfo ←
      (Exe.call linked.crates linked.tryInto linked.blockifier request state).inService.mapResult
        linked.joined
    (callResult callInfo.retdata : Res JsonRpcError (List Felt))

/-- What a call that ends so is answered with. -/
def Linked.answer (linked : Linked GetClassResult ContractClass) (outcome : Res Error CallInfo) :
    Res JsonRpcError (List Felt) :=
  (linked.joined outcome).map fun callInfo => callInfo.retdata.map .ofField

theorem callResult_eq (retdata : List StarkFelt) :
    callResult retdata = .ok (retdata.map .ofField) := by
  have converted : (retdata.mapM fun e => Res.mapErr Error.iamGroot (Felt.tryFromStarkFelt e) :
      Res Error (List Felt)) = .ok (retdata.map .ofField) := by
    induction retdata with
    | nil => rfl
    | cons felt retdata ih =>
        rw [List.mapM_cons, Felt.tryFromStarkFelt_eq, ih]
        rfl
  rw [callResult, converted, Res.mapErr_ok]

theorem Context.call_eq (linked : Linked GetClassResult ContractClass) (request : FunctionCall)
    (blockId : BlockId) :
    (Context.call linked request blockId : ServiceProg GetClassResult ContractClass _) =
      .act (.inner .snapshot) fun state =>
        (Exe.call linked.crates linked.tryInto linked.blockifier request state).inService.mapResult
          linked.answer := by
  refine congrArg (Prog.act _) (funext fun state => ?_)
  generalize (Exe.call linked.crates linked.tryInto linked.blockifier request state).inService = p
  induction p with
  | act op next ih => exact congrArg (Prog.act op) (funext ih)
  | done outcome =>
      match outcome with
      | .ok callInfo => exact congrArg Prog.done (callResult_eq callInfo.retdata)
      | .error (.error e) => rfl
      | .error .panic => rfl

/-- What `Context::call` answers where `Client::execute` ends so. -/
def Linked.served (linked : Linked GetClassResult ContractClass) :
    Res ClientError (List Felt) → Res JsonRpcError (List Felt)
  | .ok felts => .ok felts
  | .error (.error (.exe e)) => Res.err e.toJsonRpc
  | .error (.error (.felt e)) => Res.err e
  | .error .panic => Res.err ⟨500, "join error: " ++ linked.joinError⟩

theorem Client.execute_eq {crates : Crates}
    {tryInto : GetClassResult → Except (Fault StateError) ContractClass}
    {blockifier : Blockifier ContractClass} (request : FunctionCall) (state : State) :
    Client.execute crates tryInto blockifier request state =
      (Exe.call crates tryInto blockifier request state).mapResult fun outcome =>
        Res.mapErr ClientError.exe (outcome.map fun callInfo => callInfo.retdata.map .ofField) := by
  have executed : Client.execute crates tryInto blockifier request state =
      ((Exe.call crates tryInto blockifier request state).mapResult (Res.mapErr .exe) >>=
        fun callInfo => .done (Res.mapErr ClientError.felt (executeResult callInfo.retdata))) :=
    rfl
  rw [executed, Prog.bind_done, Prog.mapResult_mapResult]
  congr 1
  funext outcome
  match outcome with
  | .ok callInfo => exact congrArg (Res.mapErr ClientError.felt) (executeResult_eq callInfo.retdata)
  | .error (.error e) => rfl
  | .error .panic => rfl

/-- A call on the service is what a client executes on a copy of the head: it
performs the same actions and answers with the same felts, although each spells
them by an encoder of its own. Their errors differ in form alone. -/
theorem contextCall_executes (linked : Linked GetClassResult ContractClass)
    (request : FunctionCall) (blockId : BlockId) :
    (Context.call linked request blockId : ServiceProg GetClassResult ContractClass _) =
      .act (.inner .snapshot) fun state =>
        (Client.execute linked.crates linked.tryInto linked.blockifier request
          state).inService.mapResult linked.served := by
  rw [Context.call_eq]
  refine congrArg (Prog.act _) (funext fun (state : State) => ?_)
  unfold Lib.Prog.inService
  rw [Client.execute_eq, Prog.relabel_mapResult, Prog.mapResult_mapResult]
  congr 1
  funext outcome
  match outcome with
  | .ok callInfo => rfl
  | .error (.error e) => rfl
  | .error .panic => rfl

/-! ### The system -/

/-- What the service's tasks are asked to do. -/
inductive ServiceJob where
  | server (job : ServerJob)
  | call (request : FunctionCall) (blockId : BlockId)

/-- What they return. -/
def ServiceJob.Result : ServiceJob → Type
  | .server job => job.Result
  | .call _ _ => List Felt

instance : (job : ServiceJob) → DecidableEq job.Result
  | .server job => inferInstanceAs (DecidableEq job.Result)
  | .call _ _ => inferInstanceAs (DecidableEq (List Felt))

/-- The code of a task. -/
def ServiceJob.code (linked : Linked GetClassResult ContractClass) :
    (job : ServiceJob) → ServiceProg GetClassResult ContractClass job.Result
  | .server job => job.code.ofServer
  | .call request blockId => Context.call linked request blockId

/-- What the tasks share. -/
structure Service (ι ContractClass : Type) where
  server : Server ι
  caches : ReadCaches ContractClass

/-- Which answers the world outside gives: the provider to requests, the gateway
to polls. -/
structure World (GetClassResult : Type) where
  provider : (call : Call) → call.Answer GetClassResult → Prop
  gateway : GatewayAnswer → Prop

/-- Whether the world allows an answer. -/
def World.Allows (world : World GetClassResult) : (op : ServerOp) → op.Answer GetClassResult → Prop
  | .gateway, response => world.gateway response
  | .inner (.rpc call), answer => world.provider call answer
  | _, _ => True

variable {ι : Type}

/-- A service that starts with a head. -/
def Service.initial (head : State) : Service ι ContractClass := ⟨⟨head, ∅⟩, Caches.empty⟩

/-- An event of the service. -/
abbrev ServiceEvent (ι GetClassResult ContractClass : Type) :=
  Prog.Event ι (Service ι ContractClass) (ServiceOp ContractClass)
    (CacheOp.Answer (ServerOp.Answer GetClassResult))

/-- A configuration of the service. -/
abbrev ServiceConfig (ι GetClassResult ContractClass : Type) :=
  Config ι (Service ι ContractClass) (ServiceOp ContractClass)
    (CacheOp.Answer (ServerOp.Answer GetClassResult)) ServiceJob (Fault JsonRpcError)
    ServiceJob.Result

/-- A task of the service that is under way. -/
abbrev ServiceTask (ι GetClassResult ContractClass : Type) :=
  Running ι (Service ι ContractClass) (ServiceOp ContractClass)
    (CacheOp.Answer (ServerOp.Answer GetClassResult)) ServiceJob (Fault JsonRpcError)
    ServiceJob.Result

/-- A service's event as the server sees it. -/
def serverEvent :
    ServiceEvent ι GetClassResult ContractClass → Option (ServerEvent ι GetClassResult)
  | ⟨i, before, .inner op, answer⟩ => some ⟨i, before.server, op, answer⟩
  | _ => none

/-- A service's event as calls see it. -/
def callEvent : ServiceEvent ι GetClassResult ContractClass →
    Option (CallEvent ι GetClassResult ContractClass)
  | ⟨i, before, .get c k, answer⟩ => some ⟨i, before.caches, .get c k, answer⟩
  | ⟨i, before, .set c k v, answer⟩ => some ⟨i, before.caches, .set c k v, answer⟩
  | ⟨i, before, .inner (.inner op), answer⟩ => some ⟨i, before.caches, .inner op, answer⟩
  | _ => none

theorem callEvent_name (i : ι) (before : Service ι ContractClass)
    (op : CachedOp ProxyOp ContractClass)
    (answer : CacheOp.Answer (ServerOp.Answer GetClassResult) (CallOp.name op)) :
    callEvent ⟨i, before, CallOp.name op, answer⟩ =
      some ⟨i, before.caches, op, CallOp.back op answer⟩ := by
  cases op with
  | get => rfl
  | set => rfl
  | inner => rfl

section System

variable [DecidableEq ι]

/-- What the actions of a task do. -/
def serviceExec (linked : Linked GetClassResult ContractClass) (world : World GetClassResult)
    (i : ι) : (op : ServiceOp ContractClass) →
      CacheOp.Answer (ServerOp.Answer GetClassResult) op →
        Service ι ContractClass → Service ι ContractClass → Prop
  | .get c k, answer, s, s' => answer = s.caches c k ∧ s' = s
  | .set c k v, answer, s, s' => answer = s.caches c k ∧ s' = { s with caches := s.caches.put c k v }
  | .inner op, answer, s, s' => world.Allows op answer ∧
      ∃ server, serverExec linked.verify i op answer s.server server ∧ s' = { s with server }

/-- The service. Cached entries vanish at any time, and a task that is dropped
gives its lock back. -/
def serviceSystem (linked : Linked GetClassResult ContractClass) (world : World GetClassResult) :
    System ι (Service ι ContractClass) (ServiceOp ContractClass)
      (CacheOp.Answer (ServerOp.Answer GetClassResult)) ServiceJob (Fault JsonRpcError)
      ServiceJob.Result where
  code _ job := job.code linked
  exec := serviceExec linked world
  env s s' := ∃ caches, s.caches.Evicts caches ∧ s' = { s with caches }
  release i s := { s with server := { s.server with readers := s.server.readers.erase i } }

/-- What the actions of a task do as a function, where the provider answers by
one and the gateway always alike. -/
def serviceRun (provider : (op : ProxyOp) → op.Answer GetClassResult) (response : GatewayAnswer)
    (i : ι) : (op : ServiceOp ContractClass) → Service ι ContractClass →
      CacheOp.Answer (ServerOp.Answer GetClassResult) op × Service ι ContractClass
  | .get c k, s => (s.caches c k, s)
  | .set c k v, s => (s.caches c k, { s with caches := s.caches.put c k v })
  | .inner op, s =>
      let (answer, server) := serverRun provider response i op s.server
      (answer, { s with server })

/-- Whether an action can be done. -/
def ServiceOp.enabled (s : Service ι ContractClass) : ServiceOp ContractClass → Bool
  | .inner op => op.enabled s.server
  | _ => true

theorem serviceRun_does {linked : Linked GetClassResult ContractClass}
    {world : World GetClassResult} {provider : (op : ProxyOp) → op.Answer GetClassResult}
    {response : GatewayAnswer}
    (answers : ∀ op, ProxyOp.Answered linked.verify world.provider op (provider op))
    (responds : world.gateway response) (i : ι) {op : ServiceOp ContractClass}
    {s : Service ι ContractClass} (enabled : ServiceOp.enabled s op = true) :
    serviceExec linked world i op (serviceRun provider response i op s).1 s
      (serviceRun provider response i op s).2 := by
  cases op with
  | get => exact ⟨rfl, rfl⟩
  | set => exact ⟨rfl, rfl⟩
  | inner op =>
      have any : ∀ op, ProxyOp.Answered linked.verify (fun _ _ => True) op (provider op) := by
        intro op
        cases op with
        | rpc call => trivial
        | verify => exact answers (.verify ..)
      refine ⟨?_, _, serverRun_does any response i enabled, rfl⟩
      cases op with
      | gateway => exact responds
      | inner op =>
          cases op with
          | rpc call => exact answers (.rpc call)
          | verify => trivial
      | _ => trivial

end System

/-! ### What holds of every run -/

/-- The block id of a request. -/
def Call.blockId : Call → BlockId
  | .getBlockWithTxHashes blockId => blockId
  | .getStorageAt _ _ blockId => blockId
  | .getProof blockId _ _ => blockId
  | .getNonce blockId _ => blockId
  | .getClassHashAt blockId _ => blockId
  | .getClass blockId _ => blockId

/-- The number of the block that an entry is stored under. -/
def CacheKind.block : (c : CacheKind) → c.Key → U256
  | .storage, (block, _, _) => block
  | .classHash, (block, _) => block
  | .contractClass, (block, _) => block

/-- Requests for the block of a head, and checks against its root. -/
def ProxyOp.For (head : State) : ProxyOp → Prop
  | .rpc call => call.blockId = .blockHash ⟨head.blockHash⟩
  | .verify _ globalRoot _ _ _ => globalRoot = head.root

/-- Actions for the block of a head, on its cached entries as well. Locks and
heads are not among them. -/
def ServiceOp.For (head : State) : ServiceOp ContractClass → Prop
  | .get c k => c.block k = BitVec.ofNat 256 head.blockHash.number
  | .set c k _ => c.block k = BitVec.ofNat 256 head.blockHash.number
  | .inner (.inner op) => op.For head
  | .inner _ => False

/-- The heads that the gateway has shown. -/
def Published (boot : GatewayAnswer) (seen : Set (ServiceEvent ι GetClassResult ContractClass))
    (head : State) : Prop :=
  Gathered boot {e | ∃ e' ∈ seen, serverEvent e' = some e} head

section Keeps

variable {linked : Linked GetClassResult ContractClass} {world : World GetClassResult}
  {tells : Nat → (call : StateCall ContractClass) → Res StateError call.Result → Prop}
  {boot : GatewayAnswer} {seen : Set (ServiceEvent ι GetClassResult ContractClass)} {i : ι}

/-- What an event of the service shows. -/
def ServiceShows (linked : Linked GetClassResult ContractClass) (world : World GetClassResult)
    (tells : Nat → (call : StateCall ContractClass) → Res StateError call.Result → Prop)
    (known : State → Prop) : ServiceEvent ι GetClassResult ContractClass → Prop
  | ⟨_, _, .get c k, answer⟩ => ∀ v, answer = some v → Told linked.crates tells c k v
  | ⟨_, _, .set _ _ _, _⟩ => True
  | ⟨i, before, .inner op, answer⟩ =>
      world.Allows op answer ∧ ServerShows linked.verify known ⟨i, before.server, op, answer⟩

/-- What events of the run show. -/
def ServiceMay (linked : Linked GetClassResult ContractClass) (world : World GetClassResult)
    (tells : Nat → (call : StateCall ContractClass) → Res StateError call.Result → Prop)
    (boot : GatewayAnswer) (seen : Set (ServiceEvent ι GetClassResult ContractClass))
    (e : ServiceEvent ι GetClassResult ContractClass) : Prop :=
  e ∈ seen ∧ ServiceShows linked world tells (Published boot seen) e

/-- What is owed before an action: entries hold what may be told, and heads that
are published were shown. -/
def ServiceOwes (linked : Linked GetClassResult ContractClass)
    (tells : Nat → (call : StateCall ContractClass) → Res StateError call.Result → Prop)
    (known : State → Prop) : ServiceOp ContractClass → Prop
  | .set c k v => Told linked.crates tells c k v
  | .inner (.publish update) => known update
  | _ => True

/-- What a call that has ended leaves: the one head that it has worked on, and
how it was answered by what may be told of its block. -/
structure CallEnds (linked : Linked GetClassResult ContractClass)
    (tells : Nat → (call : StateCall ContractClass) → Res StateError call.Result → Prop)
    (request : FunctionCall) (past : List (ServiceEvent ι GetClassResult ContractClass))
    (result : Res JsonRpcError (List Felt)) (head : State) : Prop where
  /-- The head was published at a moment of the call. -/
  moment : ∃ e ∈ past, e.op = .inner .snapshot ∧ e.before.server.head = head
  actions : ∀ e ∈ past, e.op = .inner .snapshot ∨ ServiceOp.For head e.op
  outcome : ∃ outcome, (Exe.execution linked.crates linked.blockifier request).EndsOr
      (StateCall.Answers (tells head.blockHash.number))
      (StateCall.Panics (tells head.blockHash.number)) outcome ∧
    result = linked.answer outcome

/-- What holds at the end of a task. -/
def ServicePost (linked : Linked GetClassResult ContractClass)
    (tells : Nat → (call : StateCall ContractClass) → Res StateError call.Result → Prop)
    (known : State → Prop) : (job : ServiceJob) →
      List (ServiceEvent ι GetClassResult ContractClass) →
        Except (Fault JsonRpcError) job.Result → Prop
  | .server job, past, result =>
      RequestPaired linked.verify job (past.filterMap serverEvent) result
  | .call request _, past, result =>
      ∃ head, known head ∧ CallEnds linked tells request past result head

theorem safe_ofServer (job : ServerJob) :
    (job.code.ofServer : ServiceProg GetClassResult ContractClass _).Safe i
      (ServiceMay linked world tells boot seen)
      (fun _ => ServiceOwes linked tells (Published boot seen))
      (ServicePost linked tells (Published boot seen) (.server job)) [] := by
  have alone := @safe_code ι GetClassResult linked.verify (Published boot seen)
    {e | ∃ e' ∈ seen, serverEvent e' = some e} i job
  refine (Prog.safe_relabel (fun past' past => past'.filterMap serverEvent = past)
    ?_ ?_ rfl alone).weaken ?_
  · intro past past' op _ owed
    cases op with
    | publish update =>
        obtain ⟨before, response, older, -, received, shows⟩ := owed
        exact .inr ⟨i, before, response, received, shows⟩
    | _ => trivial
  · intro past past' before op answer read shown
    exact ⟨before.server, ⟨⟨_, shown.1, rfl⟩, shown.2.2⟩, congrArg (List.cons _) read⟩
  · rintro past' result ⟨past, rfl, paired⟩
    exact paired

/-- What calls see of events of the run. -/
def callsSeen (seen : Set (ServiceEvent ι GetClassResult ContractClass)) :
    Set (CallEvent ι GetClassResult ContractClass) :=
  {e | ∃ e' ∈ seen, callEvent e' = some e}

theorem safe_inService {ε α : Type} {post : Except ε α → Prop}
    {past' : List (ServiceEvent ι GetClassResult ContractClass)}
    {p : Prog (CachedOp ProxyOp ContractClass) (CacheOp.Answer (ProxyOp.Answer GetClassResult)) ε α}
    (alone : p.Safe i (May (Told linked.crates tells)
        (fun _ => ProxyOp.Answered linked.verify world.provider) (callsSeen seen))
      (Owes (Told linked.crates tells) False) (fun _ => post) (past'.filterMap callEvent)) :
    p.inService.Safe i (ServiceMay linked world tells boot seen)
      (fun _ => ServiceOwes linked tells (Published boot seen)) (fun _ => post) past' := by
  refine (Prog.safe_relabel (fun past' past => past'.filterMap callEvent = past)
    ?_ ?_ rfl alone).weaken fun past' result ⟨past, _, ends⟩ => ends
  · intro past past' op _ owed
    cases op with
    | get => trivial
    | set => exact owed.1
    | inner op => trivial
  · intro past past' before op answer read shown
    refine ⟨before.caches, ⟨⟨_, shown.1, callEvent_name ..⟩, ?_⟩, ?_⟩
    · cases op with
      | get => exact shown.2
      | set => trivial
      | inner op =>
          cases op with
          | rpc call => exact shown.2.1
          | verify => exact shown.2.2
    · rw [List.filterMap_cons_some (callEvent_name ..), read]

theorem CacheKind.block_key {crates : Crates} {h : Felt} {c : CacheKind} {args : c.Args} {k : c.Key}
    (here : c.key crates h args = .ok k) : c.block k = BitVec.ofNat 256 h.number := by
  cases c with
  | storage =>
      rw [CacheKind.key, parseBlockHash_eq] at here
      obtain rfl := Except.ok.inj here
      rfl
  | classHash =>
      rw [CacheKind.key, parseBlockHash_eq] at here
      obtain rfl := Except.ok.inj here
      rfl
  | contractClass =>
      rw [CacheKind.key, parseBlockHash_eq] at here
      obtain rfl := Except.ok.inj here
      rfl

/-- The proxy of a head asks for its block and checks against its root. -/
theorem performs_stateProxy {crates : Crates}
    {tryInto : GetClassResult → Except (Fault StateError) ContractClass} (head : State)
    (call : StateCall ContractClass) :
    (StateProxy crates tryInto head call).Performs (ProxyOp.For head) := by
  cases call with
  | getStorageAt contractAddress storageKey =>
      rw [StateProxy, StateProxy.getStorageAt_eq]
      refine ⟨rfl, fun answer => ?_⟩
      cases answer with
      | error e => trivial
      | ok ret =>
          show (StateProxy.checked head contractAddress.asAddress storageKey.asStorageKey
            ret).Performs _
          unfold StateProxy.checked
          by_cases zero : ret.text = "0x0".toList
          · rw [if_pos zero]
            trivial
          · rw [if_neg zero]
            refine ⟨rfl, fun answer => ?_⟩
            cases answer with
            | error e => trivial
            | ok proof =>
                refine ⟨rfl, fun answer => ?_⟩
                match answer with
                | .ok () => trivial
                | .error (.error e) => trivial
                | .error .panic => trivial
  | getNonceAt contractAddress =>
      rw [StateProxy, StateProxy.getNonceAt, Felt.tryFromStarkFelt_eq]
      refine ⟨rfl, fun answer => ?_⟩
      cases answer <;> trivial
  | getClassHashAt contractAddress =>
      rw [StateProxy, StateProxy.getClassHashAt, Felt.tryFromStarkFelt_eq]
      refine ⟨rfl, fun answer => ?_⟩
      cases answer <;> trivial
  | getCompiledContractClass classHash =>
      show (StateProxy.getCompiledContractClass head tryInto classHash).Performs _
      rw [StateProxy.getCompiledContractClass, Felt.tryFromStarkFelt_eq]
      refine ⟨rfl, fun answer => ?_⟩
      cases answer <;> trivial
  | _ => trivial

/-- So does its state object, which looks at entries of the block alone. -/
theorem performs_callState {crates : Crates}
    {tryInto : GetClassResult → Except (Fault StateError) ContractClass} (head : State)
    (call : StateCall ContractClass) :
    (callState crates tryInto head call).Performs
      fun op : CachedOp ProxyOp ContractClass => ServiceOp.For head (CallOp.name op) := by
  have proxy := @performs_stateProxy GetClassResult _ crates tryInto head
  have direct : (StateProxy crates tryInto head call).embed.Performs
      fun op : CachedOp ProxyOp ContractClass => ServiceOp.For head (CallOp.name op) :=
    performs_embed (proxy call)
  have through : ∀ (c : CacheKind) (args : c.Args)
      {read : ProxyProg GetClassResult (c.Value ContractClass)},
      read.Performs (ProxyOp.For head) →
      (memoised c (c.key crates head.blockHash args) read.embed).Performs
        fun op : CachedOp ProxyOp ContractClass => ServiceOp.For head (CallOp.name op) := by
    intro c args read reads
    exact performs_memoised (fun k here => CacheKind.block_key here)
      (fun k v here => CacheKind.block_key here) (performs_embed reads)
  cases call with
  | getStorageAt contractAddress storageKey =>
      exact through .storage (contractAddress, storageKey) (proxy _)
  | getClassHashAt contractAddress => exact through .classHash contractAddress (proxy _)
  | getCompiledContractClass classHash => exact through .contractClass classHash (proxy _)
  | _ => exact direct

/-- A call's actions are for the block of the head it is given. -/
theorem Exe.performs_call {crates : Crates}
    {tryInto : GetClassResult → Except (Fault StateError) ContractClass}
    {blockifier : Blockifier ContractClass} (request : FunctionCall) (head : State) :
    (Exe.call crates tryInto blockifier request head).Performs
      fun op : CachedOp ProxyOp ContractClass => ServiceOp.For head (CallOp.name op) :=
  Prog.performs_interp (fun call => (performs_callState head call).mapResult _) _

theorem performs_call (linked : Linked GetClassResult ContractClass) (request : FunctionCall)
    (head : State) :
    (Exe.call linked.crates linked.tryInto linked.blockifier request head).inService.Performs
      (ServiceOp.For head) := by
  refine (Exe.performs_call request head).relabel ?_
  intro op here
  exact here

/-- A call, where the state object of each head keeps to what may be told. -/
theorem safe_contextCall (request : FunctionCall) (blockId : BlockId)
    (safe : ∀ head, Published boot seen head → ∀ call past,
      (StateProxy linked.crates linked.tryInto head call).embed.Safe i
        (May (Told linked.crates tells)
          (fun _ => ProxyOp.Answered linked.verify world.provider) (callsSeen seen))
        (Owes (Told linked.crates tells) False)
        (fun _ result => tells head.blockHash.number call result) past) :
    (Context.call linked request blockId : ServiceProg GetClassResult ContractClass _).Safe i
      (ServiceMay linked world tells boot seen)
      (fun _ => ServiceOwes linked tells (Published boot seen))
      (ServicePost linked tells (Published boot seen) (.call request blockId)) [] := by
  rw [Context.call_eq]
  refine ⟨trivial, fun before head shown => Prog.safe_mapResult.mpr ?_⟩
  obtain ⟨mem, -, rfl, known⟩ := shown
  have alone := @safe_inService _ _ _ linked world tells boot seen i _ _ _
    [⟨i, before, .inner .snapshot, before.server.head⟩] _
    (@Exe.safe_call _ _ ι linked.crates tells i _ _ linked.tryInto linked.blockifier request
      before.server.head (safe _ known) _)
  have performs := (performs_call linked request before.server.head).weaken
    fun op => @Or.inr (op = .inner .snapshot) _
  refine ((alone.performs performs (List.forall_mem_singleton.mpr (.inl rfl))).suffix).weaken ?_
  rintro past outcome ⟨⟨ends, actions⟩, more⟩
  refine ⟨before.server.head, known, ⟨?_, actions, ⟨outcome, ends, rfl⟩⟩⟩
  exact ⟨_, more.subset List.mem_cons_self, rfl, rfl⟩

/-- One action keeps heads published and entries told, and shows what it may. -/
theorem serviceExec_keeps [DecidableEq ι] {op : ServiceOp ContractClass}
    {answer : CacheOp.Answer (ServerOp.Answer GetClassResult) op} {s s' : Service ι ContractClass}
    (published : Published boot seen s.server.head)
    (holds : s.caches.Holds (Told linked.crates tells))
    (owed : ServiceOwes linked tells (Published boot seen) op)
    (does : serviceExec linked world i op answer s s')
    (mem : (⟨i, s, op, answer⟩ : ServiceEvent ι GetClassResult ContractClass) ∈ seen) :
    ServiceMay linked world tells boot seen ⟨i, s, op, answer⟩ ∧
      Published boot seen s'.server.head ∧ s'.caches.Holds (Told linked.crates tells) := by
  cases op with
  | get c k =>
      obtain ⟨rfl, rfl⟩ := does
      exact ⟨⟨mem, fun v entry => holds c k v entry⟩, published, holds⟩
  | set c k v =>
      obtain ⟨rfl, rfl⟩ := does
      exact ⟨⟨mem, trivial⟩, published, holds.put owed⟩
  | inner op =>
      obtain ⟨allowed, server, does, rfl⟩ := does
      cases op with
      | lock =>
          obtain ⟨rfl, rfl⟩ := does
          exact ⟨⟨mem, allowed, rfl, published⟩, published, holds⟩
      | snapshot =>
          obtain ⟨rfl, rfl⟩ := does
          exact ⟨⟨mem, allowed, rfl, published⟩, published, holds⟩
      | unlock =>
          obtain rfl := does
          exact ⟨⟨mem, allowed, trivial⟩, published, holds⟩
      | publish update =>
          obtain ⟨-, rfl⟩ := does
          exact ⟨⟨mem, allowed, trivial⟩, owed, holds⟩
      | gateway =>
          obtain rfl := does
          exact ⟨⟨mem, allowed, trivial⟩, published, holds⟩
      | inner op =>
          obtain ⟨answered, rfl⟩ := does
          exact ⟨⟨mem, allowed, answered⟩, published, holds⟩

/-- In every run, heads are ones that the gateway has shown, entries are what may
be told, and tasks end accordingly. -/
theorem service_keeps [DecidableEq ι] {head : State}
    (started : GatewayClient.getState boot = .ok head)
    {c : ServiceConfig ι GetClassResult ContractClass}
    (reach : (serviceSystem linked world).Reach (Service.initial head) c)
    (inside : ∀ e ∈ c.trace, e ∈ seen)
    (safe : ∀ i head, Published boot seen head → ∀ call past,
      (StateProxy linked.crates linked.tryInto head call).embed.Safe i
        (May (Told linked.crates tells)
          (fun _ => ProxyOp.Answered linked.verify world.provider) (callsSeen seen))
        (Owes (Told linked.crates tells) False)
        (fun _ result => tells head.blockHash.number call result) past) :
    System.Keeps
      (fun s => Published boot seen s.server.head ∧ s.caches.Holds (Told linked.crates tells))
      (ServiceMay linked world tells boot seen)
      (fun _ _ _ => ServiceOwes linked tells (Published boot seen))
      (fun _ => ServicePost linked tells (Published boot seen)) c := by
  refine reach.keeps (fun i job => ?_) ?_ ?_ (fun _ _ kept => kept) ?_ inside
  · cases job with
    | server job => exact safe_ofServer job
    | call request blockId => exact safe_contextCall request blockId (safe i)
  · intro i job past op answer s s' kept owed does mem
    exact serviceExec_keeps kept.1 kept.2 owed does mem
  · rintro s _ ⟨published, holds⟩ ⟨caches, evicts, rfl⟩
    exact ⟨published, holds.evicts evicts⟩
  · exact ⟨.inl started, Caches.holds_empty⟩

end Keeps

end Beerus
