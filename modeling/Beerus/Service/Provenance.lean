import Beerus.Exe.Provenance
import Beerus.Service

/-!
What a call on the service rests on.

However requests, polls and calls interleave, a call works on the one head that
was published when it began, even if others are published meanwhile. A storage
value other than zero reaches it only after `verify` has accepted it, against the
root of a head with the same block hash: its own, or that of the call whose entry
it has found in the cache, which is kept under the hash alone. Where it ends, it
is answered, and an error that it is answered with is one of its own.
-/

namespace Beerus

open Beerus.Lib

variable {GetClassResult ContractClass ι : Type}
  {linked : Linked GetClassResult ContractClass} {world : World GetClassResult}
  {boot : GatewayAnswer} {seen : Set (ServiceEvent ι GetClassResult ContractClass)}

/-! ### Values that calls are told -/

/-- Among the events, `verify` has accepted a value for a contract and a key,
against the root of a published head whose block hash is the given number. -/
def AcceptedFor (linked : Linked GetClassResult ContractClass) (boot : GatewayAnswer)
    (seen : Set (ServiceEvent ι GetClassResult ContractClass)) (block : Nat)
    (contractAddress storageKey : PatriciaKey) (v : StarkFelt) : Prop :=
  ∃ head i before proof ret, Published boot seen head ∧ head.blockHash.number = block ∧
    (⟨i, before, .inner (.inner (.verify proof head.root contractAddress.asAddress
        storageKey.asStorageKey ret)), (.ok () : Res JsonRpcError Unit)⟩ :
      ServiceEvent ι GetClassResult ContractClass) ∈ seen ∧
    linked.verify proof head.root contractAddress.asAddress storageKey.asStorageKey ret = .ok () ∧
    Felt.field ret = v

/-- What calls are told of storage: zero, or what was accepted. -/
def Vouched (linked : Linked GetClassResult ContractClass) (boot : GatewayAnswer)
    (seen : Set (ServiceEvent ι GetClassResult ContractClass)) (block : Nat) :
    (call : StateCall ContractClass) → Res StateError call.Result → Prop
  | .getStorageAt contractAddress storageKey, result => ∀ v : StarkFelt, result = .ok v → v ≠ 0 →
      AcceptedFor linked boot seen block contractAddress storageKey v
  | _, _ => True

theorem mem_of_mem_callsSeen {i : ι} {before : ReadCaches ContractClass} {op : ProxyOp}
    {answer : op.Answer GetClassResult}
    (mem : (⟨i, before, .inner op, answer⟩ : CallEvent ι GetClassResult ContractClass) ∈
      callsSeen seen) :
    ∃ before', (⟨i, before', .inner (.inner op), answer⟩ :
      ServiceEvent ι GetClassResult ContractClass) ∈ seen := by
  obtain ⟨⟨i', before', op', answer'⟩, mem, same⟩ := mem
  cases op' with
  | get => exact nomatch same
  | set => exact nomatch same
  | inner op' =>
      cases op' with
      | inner op' =>
          cases Option.some.inj same
          exact ⟨before', mem⟩
      | _ => exact nomatch same

/-- The state object of a published head tells what was accepted. -/
theorem safe_vouched {i : ι} {head : State} (published : Published boot seen head)
    (call : StateCall ContractClass) (past : List (CallEvent ι GetClassResult ContractClass)) :
    (StateProxy linked.crates linked.tryInto head call).embed.Safe i
      (May (Told linked.crates (Vouched linked boot seen))
        (fun _ => ProxyOp.Answered linked.verify world.provider) (callsSeen seen))
      (Owes (Told linked.crates (Vouched linked boot seen)) False)
      (fun _ result => Vouched linked boot seen head.blockHash.number call result) past := by
  cases call with
  | getStorageAt contractAddress storageKey =>
      rw [StateProxy, StateProxy.getStorageAt_eq]
      refine ⟨owes_inner, fun before answer _ => ?_⟩
      cases answer with
      | error e => rintro v ⟨⟩
      | ok ret =>
          show (StateProxy.checked head contractAddress.asAddress storageKey.asStorageKey
            ret).embed.Safe i _ _ _ _
          unfold StateProxy.checked
          by_cases zero : Felt.text ret = "0x0".toList
          · rw [if_pos zero]
            rintro v ⟨⟩ nonzero
            refine absurd ?_ nonzero
            rw [Felt.field, Felt.number_eq_zero.mpr zero]
            rfl
          · rw [if_neg zero]
            refine ⟨owes_inner, fun before answer _ => ?_⟩
            cases answer with
            | error e => rintro v ⟨⟩
            | ok proof =>
                refine ⟨owes_inner, fun before answer shown => ?_⟩
                cases answer with
                | error fault => cases fault <;> rintro v ⟨⟩
                | ok accepted =>
                    obtain ⟨before', event⟩ := mem_of_mem_callsSeen shown.1
                    rintro v ⟨⟩ -
                    exact ⟨head, i, before', proof, ret, published, rfl, event, shown.2.symm, rfl⟩
  | _ => exact safe_embed_from ((Prog.yields_trivial _).weaken fun _ _ => trivial)

/-- Every call that has ended worked on one published head, and was told nothing of
storage but zeros and values that `verify` has accepted in the run, against the
root of a published head with the same block hash, which need not be the call's
own. -/
theorem service_calls_verified [DecidableEq ι] {head : State}
    (started : GatewayClient.getState boot = .ok head)
    {c : ServiceConfig ι GetClassResult ContractClass}
    (reach : (serviceSystem linked world).Reach (Service.initial head) c) :
    ∀ i request blockId past result, ⟨i, .call request blockId, past, result⟩ ∈ c.finished →
      ∃ head, Published boot {e | e ∈ c.trace} head ∧
        CallEnds linked (Vouched linked boot {e | e ∈ c.trace}) request past result head := by
  intro i request blockId past result mem
  have kept := service_keeps started reach
    (fun _ => id : ∀ e ∈ c.trace, e ∈ {e | e ∈ c.trace})
    fun i head published call past => safe_vouched published call past
  exact kept.finished _ mem

/-! ### A call on the sample state -/

/-- A Blockifier that reads the slot at `0x5` and returns its value. -/
def sampleBlockifier : Blockifier Unit where
  Context := Unit
  newContext _ _ _ := .ok ()
  execute entryPoint _ := .act (.getStorageAt entryPoint.storageAddress sampleSlot) fun answer =>
    .done (match answer with
      | .ok v => .ok ⟨[v]⟩
      | .error _ => Res.err "EntryPointExecutionError")
  outOfRange := "OutOfRange"

/-- A service that checks against the sample state. -/
def sampleLinked : Linked Unit Unit where
  crates := sampleHashes
  profile := .release
  tryInto _ := .ok ()
  blockifier := sampleBlockifier
  joinError := "panic"

abbrev sampleWorld : World Unit := ⟨fun _ _ => True, fun _ => True⟩

abbrev sampleService := @serviceSystem Unit Unit Bool _ sampleLinked sampleWorld

/-- A call of the sample contract. -/
def sampleCall : FunctionCall := ⟨[], sampleContractKey.asAddress, .ofNat 0x1⟩

theorem sampleService_does {i : Bool} {p : List (ServiceEvent Bool Unit Unit)}
    (enabled : p.all (fun e => ServiceOp.enabled e.before e.op) = true) :
    ∀ e ∈ p, sampleService.exec i e.op
      (serviceRun sampleProvider laterResponse i e.op e.before).1 e.before
      (serviceRun sampleProvider laterResponse i e.op e.before).2 := by
  intro e mem
  refine serviceRun_does (fun op => ?_) trivial i (List.all_eq_true.mp enabled e mem)
  cases op with
  | rpc call => trivial
  | verify => rfl

/-- A poll, then a call of it. -/
theorem sampleCall_runs :
    ∃ c past, sampleService.Reach (Service.initial bootHead) c ∧
      ⟨false, .call sampleCall (.blockTag .latest), past, .ok [.ofNat 0x2a]⟩ ∈ c.finished := by
  have polled := sampleService.reach_first (Service.initial bootHead) true (.server (.poll 1))
    (serviceRun sampleProvider laterResponse true) (sampleService_does (by decide +kernel)) rfl
  have called := polled.solo false (.call sampleCall (.blockTag .latest)) rfl
    (serviceRun sampleProvider laterResponse false) (sampleService_does (by decide +kernel))
    (show _ = .ok [.ofNat 0x2a] by decide +kernel)
  exact ⟨_, _, called, List.mem_cons_self⟩

theorem sampleCall_verified :
    ∃ c past, sampleService.Reach (Service.initial bootHead) c ∧
      ⟨false, .call sampleCall (.blockTag .latest), past, .ok [.ofNat 0x2a]⟩ ∈ c.finished ∧
      ∃ head, Published bootResponse {e | e ∈ c.trace} head ∧
        CallEnds sampleLinked (Vouched sampleLinked bootResponse {e | e ∈ c.trace}) sampleCall past
          (.ok [.ofNat 0x2a]) head := by
  obtain ⟨c, past, reach, mem⟩ := sampleCall_runs
  exact ⟨c, past, reach, mem, service_calls_verified (by decide +kernel) reach _ _ _ _ _ mem⟩

/-! ### How calls are answered -/

/-- A call is answered: with felts, or with an error under code 500. -/
theorem contextCall_yields (request : FunctionCall) (blockId : BlockId) :
    (Context.call linked request blockId : ServiceProg GetClassResult ContractClass _).Yields
      (fun _ _ => True) fun result =>
        (∃ felts, result = .ok felts) ∨ ∃ message, result = Res.err ⟨500, message⟩ := by
  rw [Context.call_eq]
  intro state _
  have inService : (Exe.call linked.crates linked.tryInto linked.blockifier request
      state).inService.Yields (fun _ _ => True) fun result => ∀ e, result = Res.err e → e.IsOwn := by
    refine Exe.call_own.relabel ?_
    intros
    trivial
  refine Prog.yields_mapResult.mpr (inService.weaken ?_)
  intro outcome own
  match outcome with
  | .ok callInfo => exact .inl ⟨_, rfl⟩
  | .error .panic => exact .inr ⟨_, rfl⟩
  | .error (.error e) =>
      obtain ⟨message, same⟩ := Error.toJsonRpc_own (own e rfl)
      exact .inr ⟨message, congrArg Res.err same⟩

/-- What a task ends with: a call is answered. -/
def ServiceJob.Answered : (job : ServiceJob) → Except (Fault JsonRpcError) job.Result → Prop
  | .call _ _, result =>
      (∃ felts : List Felt, result = .ok felts) ∨ ∃ message, result = Res.err ⟨500, message⟩
  | .server _, _ => True

/-- Whatever the provider, the gateway and Blockifier do, no call takes its
request down with it, and no error code of the provider comes through. -/
theorem service_calls_answered [DecidableEq ι] {start : Service ι ContractClass}
    {c : ServiceConfig ι GetClassResult ContractClass}
    (reach : (serviceSystem linked world).Reach start c) :
    ∀ i request blockId past result, ⟨i, .call request blockId, past, result⟩ ∈ c.finished →
      (∃ felts, result = .ok felts) ∨ ∃ message, result = Res.err ⟨500, message⟩ := by
  intro i request blockId past result mem
  have code : ∀ (_ : ι) (job : ServiceJob),
      (job.code linked : ServiceProg GetClassResult ContractClass _).Yields (fun _ _ => True)
        job.Answered := by
    intro _ job
    cases job with
    | server job => exact Prog.yields_trivial _
    | call request blockId => exact contextCall_yields request blockId
  exact reach.finished_yields code _ mem

theorem sampleCall_answered :
    ∃ c past result, sampleService.Reach (Service.initial bootHead) c ∧
      ⟨false, .call sampleCall (.blockTag .latest), past, result⟩ ∈ c.finished ∧
      ((∃ felts, result = .ok felts) ∨ ∃ message, result = Res.err ⟨500, message⟩) := by
  obtain ⟨c, past, reach, mem⟩ := sampleCall_runs
  exact ⟨c, past, _, reach, mem, service_calls_answered reach _ _ _ _ _ mem⟩

end Beerus
