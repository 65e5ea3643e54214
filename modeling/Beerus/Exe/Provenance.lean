import Beerus.Exe
import Beerus.Proof.Verify

/-!
Where the storage values come from that calls execute on.

Any number of `exe::call` runs, each on its own head, read storage through the
shared caches, from providers that answer as they like. A value other than zero
reaches a call only after `verify` has accepted it for the contract and the
key, against the root of a head with the call's block hash: its own, or the one
of the call that filled the cache. Zero reaches a call on the provider's word
(`storage_read_unverified`).
-/

namespace Beerus

open Beerus.Lib

variable {ι GetClassResult ContractClass : Type}

/-- Among the events, `verify` has accepted a value for a contract and a key,
against the root of a head whose block hash is the given number. -/
def Accepted (heads : ι → State) (events : Set (CallEvent ι GetClassResult ContractClass))
    (block : Nat) (contractAddress storageKey : PatriciaKey) (v : StarkFelt) : Prop :=
  ∃ i before proof ret,
    (⟨i, before, .inner (.verify proof (heads i).root contractAddress.asAddress
        storageKey.asStorageKey ret), (.ok () : Res JsonRpcError Unit)⟩ :
      CallEvent ι GetClassResult ContractClass) ∈ events ∧
    (heads i).blockHash.number = block ∧ Felt.field ret = v

/-- What every entry of the storage cache has behind it. -/
def Proven (crates : Crates) (heads : ι → State)
    (events : Set (CallEvent ι GetClassResult ContractClass)) :
    (c : CacheKind) → c.Key → c.Value ContractClass → Prop
  | .storage, k, v => v ≠ (0 : StarkFelt) → ∀ h contractAddress storageKey,
      CacheKind.storage.key crates h (contractAddress, storageKey) = .ok k →
        Accepted heads events h.number contractAddress storageKey v
  | _, _, _ => True

/-- What every storage read that returns has behind it. -/
def ReadProven (heads : ι → State) (events : Set (CallEvent ι GetClassResult ContractClass))
    (i : ι) : (call : StateCall ContractClass) →
      List (CallEvent ι GetClassResult ContractClass) →
      Except (Fault StateError) call.Result → Prop
  | .getStorageAt contractAddress storageKey, _, result =>
      ∀ v : StarkFelt, result = .ok v → v ≠ 0 →
        Accepted heads events (heads i).blockHash.number contractAddress storageKey v
  | _, _, _ => True

variable {crates : Crates} {profile : Profile} {heads : ι → State}
  {tryInto : GetClassResult → Except (Fault StateError) ContractClass}
  {provider : (call : Call) → call.Answer GetClassResult → Prop}
  {events : Set (CallEvent ι GetClassResult ContractClass)}

/-- A read past the caches returns zero or what it has had verified. -/
theorem safe_readAt (i : ι) (contractAddress storageKey : PatriciaKey) {quiet : Prop}
    {past : List (CallEvent ι GetClassResult ContractClass)} :
    (StateProxy.readAt (heads i) contractAddress.asAddress storageKey.asStorageKey).embed.Safe i
      (May (Proven crates heads events)
        (fun _ => ProxyOp.Answered (GetProofResult.verify crates profile) provider) events)
      (Owes (Proven crates heads events) quiet)
      (fun _ result => ∀ v : StarkFelt, result = .ok v → v ≠ 0 →
        Accepted heads events (heads i).blockHash.number contractAddress storageKey v) past := by
  refine ⟨owes_inner, fun before answer _ => ?_⟩
  cases answer with
  | error e => exact nofun
  | ok ret =>
      show (StateProxy.checked (heads i) contractAddress.asAddress storageKey.asStorageKey
        ret).embed.Safe i _ _ _ _
      unfold StateProxy.checked
      by_cases zero : Felt.text ret = "0x0".toList
      · rw [if_pos zero]
        rintro v ⟨⟩ nonzero
        refine absurd ?_ nonzero
        rw [Felt.field, Felt.number, zero]
        rfl
      · rw [if_neg zero]
        refine ⟨owes_inner, fun before answer _ => ?_⟩
        cases answer with
        | error e => exact nofun
        | ok proof =>
            refine ⟨owes_inner, fun before answer shown => ?_⟩
            cases answer with
            | ok =>
                rintro v ⟨⟩ -
                exact ⟨i, before, proof, ret, shown.1, rfl, rfl⟩
            | error fault =>
                -- An error and a panic both end the read.
                cases fault <;> rintro v ⟨⟩

/-- Every storage read returns zero or what has been verified for its block. -/
theorem safe_callState (i : ι) (call : StateCall ContractClass) :
    (callState crates tryInto (heads i) call).Safe i
      (May (Proven crates heads events)
        (fun _ => ProxyOp.Answered (GetProofResult.verify crates profile) provider) events)
      (Owes (Proven crates heads events) (call.isWrite = true))
      (ReadProven heads events i call) [] := by
  -- Reads through the other two caches only have to keep their failures quiet.
  have other : ∀ (kind : CacheKind) (args : kind.Args)
      (read : ProxyProg GetClassResult (kind.Value ContractClass)),
      (∀ k v, Proven crates heads events kind k v) → call.isWrite = false →
        (memoised kind (kind.key crates (heads i).blockHash args) read.embed).Safe i
          (May (Proven crates heads events)
            (fun _ => ProxyOp.Answered (GetProofResult.verify crates profile) provider) events)
          (Owes (Proven crates heads events) (call.isWrite = true)) (fun _ _ => True) [] := by
    intro kind args read free loud
    have silent : ¬ call.isWrite = true := by simp [loud]
    refine (safe_memoised silent fun past quiet =>
      (safe_embed (Prog.yields_trivial _) quiet).weaken ?_).weaken fun _ _ _ => trivial
    intro past result quiet
    exact ⟨fun v _ k _ => free k v, quiet.2⟩
  cases call with
  | getStorageAt contractAddress storageKey =>
      rw [callState_getStorageAt]
      refine Prog.Safe.weaken (fun past result (reads : Reads (Proven crates heads events)
        CacheKind.storage (CacheKind.storage.key crates (heads i).blockHash
          (contractAddress, storageKey)) past result) => ?_)
        (safe_memoised Bool.false_ne_true fun past quiet =>
          ((safe_readAt i contractAddress storageKey).and
            (safe_embed (Prog.yields_trivial _) quiet)).weaken ?_)
      · intro v ok nonzero
        obtain ⟨k, here⟩ := CacheKind.key_ok crates (heads i).blockHash .storage
          (contractAddress, storageKey)
        exact reads.1 v ok k here nonzero _ _ _ here
      · rintro past result ⟨value, -, quiet⟩
        refine ⟨?_, quiet⟩
        intro v ok k here nonzero h a s there
        obtain ⟨block, same⟩ := CacheKind.key_inj there here
        obtain ⟨rfl, rfl⟩ := Prod.mk.inj same
        rw [block]
        exact value v ok nonzero
  | getClassHashAt contractAddress =>
      exact other .classHash contractAddress _ (fun _ _ => trivial) rfl
  | getCompiledContractClass classHash =>
      exact other .contractClass classHash _ (fun _ _ => trivial) rfl
  | _ => exact (safe_embed (Prog.yields_trivial _) noSets_nil).weaken fun _ _ _ => trivial

/-- An execution of `verify` on the trace has accepted a value for a contract and
a key, against the root of a head whose block hash is the given number. -/
def VerifiedOn (crates : Crates) (profile : Profile) (heads : ι → State)
    (trace : List (CallEvent ι GetClassResult ContractClass)) (block : Nat)
    (contractAddress storageKey : PatriciaKey) (v : StarkFelt) : Prop :=
  ∃ j before proof ret,
    (⟨j, before, .inner (.verify proof (heads j).root contractAddress.asAddress
        storageKey.asStorageKey ret), (.ok () : Res JsonRpcError Unit)⟩ :
      CallEvent ι GetClassResult ContractClass) ∈ trace ∧
    proof.verify crates profile (heads j).root contractAddress.asAddress storageKey.asStorageKey
      ret = .ok () ∧
    (heads j).blockHash.number = block ∧ Felt.field ret = v

/-- No value other than zero reaches a call without an execution of `verify`
that has accepted it for the contract and the key, against the root of a head
with the call's block hash. -/
theorem storage_read_verified [DecidableEq ι]
    {c : CallConfig ι GetClassResult ContractClass}
    (reach : (calls crates profile tryInto provider heads).Reach Caches.empty c) {i : ι}
    {contractAddress storageKey : PatriciaKey} {past} {v : StarkFelt}
    (returned : ⟨i, .getStorageAt contractAddress storageKey, past, .ok v⟩ ∈ c.finished)
    (nonzero : v ≠ 0) :
    VerifiedOn crates profile heads c.trace (heads i).blockHash.number contractAddress storageKey
      v := by
  have kept := memo_keeps safe_callState reach
    (fun _ mem => mem : ∀ e ∈ c.trace, e ∈ {e | e ∈ c.trace})
  obtain ⟨j, before, proof, ret, event, block, value⟩ := kept.finished _ returned v rfl nonzero
  obtain ⟨after, answered, -⟩ := System.Reach.trace_exec reach _ event
  exact ⟨j, before, proof, ret, event, answered.symm, block, value⟩

/-! ### Reads of a sample state -/

/-- A provider that serves the slot at `0x5` of the sample state with its proof. -/
def sampleProvider : (op : ProxyOp) → op.Answer Unit
  | .rpc (.getStorageAt _ _ _) => .ok (.ofNat 0x2a)
  | .rpc (.getProof _ _ _) => .ok sampleProof
  | .rpc _ => .error ⟨-1, "not served"⟩
  | .verify proof globalRoot contractAddress key value =>
      proof.verify sampleHashes .release globalRoot contractAddress key value

/-- A provider that answers every storage read with zero. -/
def zeroProvider : (op : ProxyOp) → op.Answer Unit
  | .rpc (.getStorageAt _ _ _) => .ok (.ofNat 0x0)
  | op => sampleProvider op

/-- Two heads with one block hash. Only the second one has the root of the
sample state. -/
def sampleHead (first : Bool) : State where
  blockNumber := 7
  blockHash := .ofNat 0xab
  root := if first then .ofNat 0x1 else .ofField (sampleState.root sampleHashes)
  fits := by norm_num

/-- The contract of the sample state, and its slot at `0x5`. -/
def sampleContractKey : PatriciaKey := ⟨.ofNat 0x1234, by decide⟩

def sampleSlot : PatriciaKey := ⟨.ofNat 0x5, by decide⟩

/-- Calls on the two heads. -/
abbrev sampleCalls := @calls Unit Unit Bool sampleHashes .release (fun _ => .ok ())
  (fun _ _ => True) sampleHead

theorem sampleProvider_does (i : Bool) (op : CachedOp ProxyOp Unit) (s : ReadCaches Unit) :
    sampleCalls.exec i op (cacheRun sampleProvider op s).1 s (cacheRun sampleProvider op s).2 := by
  refine cacheRun_does (fun op => ?_) op s
  cases op with
  | rpc call => trivial
  | verify => rfl

theorem zeroProvider_does (i : Bool) (op : CachedOp ProxyOp Unit) (s : ReadCaches Unit) :
    sampleCalls.exec i op (cacheRun zeroProvider op s).1 s (cacheRun zeroProvider op s).2 := by
  refine cacheRun_does (fun op => ?_) op s
  cases op with
  | rpc call => trivial
  | verify => rfl

theorem sampleRead_verified :
    ∃ c past, sampleCalls.Reach Caches.empty c ∧
      ⟨false, .getStorageAt sampleContractKey sampleSlot, past, .ok (.ofNat 0x2a)⟩ ∈
        c.finished ∧
      VerifiedOn sampleHashes .release sampleHead c.trace (sampleHead false).blockHash.number
        sampleContractKey sampleSlot (.ofNat 0x2a) := by
  have read := sampleCalls.reach_first Caches.empty false
    (.getStorageAt sampleContractKey sampleSlot) (cacheRun sampleProvider)
    (fun e _ => sampleProvider_does _ e.op e.before)
    (show _ = .ok (.ofNat 0x2a) by decide +kernel)
  exact ⟨_, _, read, List.mem_cons_self,
    storage_read_verified read List.mem_cons_self (by decide)⟩

/-! ### Values that were not verified against the call's own root -/

/-- `verify` has accepted a value for a contract and a key, against a root. -/
def AcceptedAgainst (trace : List (CallEvent ι GetClassResult ContractClass)) (globalRoot : Felt)
    (contractAddress storageKey : PatriciaKey) (v : StarkFelt) : Prop :=
  ∃ j before proof ret,
    (⟨j, before, .inner (.verify proof globalRoot contractAddress.asAddress
        storageKey.asStorageKey ret), (.ok () : Res JsonRpcError Unit)⟩ :
      CallEvent ι GetClassResult ContractClass) ∈ trace ∧ Felt.field ret = v

/-- Whether an action is a run of `verify` against a root. -/
def runsVerify (globalRoot : Felt) : CachedOp ProxyOp ContractClass → Bool
  | .inner (.verify _ root _ _ _) => root = globalRoot
  | _ => false

theorem not_acceptedAgainst {trace : List (CallEvent ι GetClassResult ContractClass)}
    {globalRoot : Felt} {contractAddress storageKey : PatriciaKey} {v : StarkFelt}
    (none : trace.all (fun event => !runsVerify globalRoot event.op) = true) :
    ¬ AcceptedAgainst trace globalRoot contractAddress storageKey v := by
  rintro ⟨j, before, proof, ret, event, -⟩
  have runs := List.all_eq_true.mp none _ event
  simp [runsVerify] at runs

/-- A call can be given a value that was verified against the root of another
head with its block hash, and it can be given zero with no check at all. -/
theorem storage_read_unverified :
    (∃ c past, sampleCalls.Reach Caches.empty c ∧
      ⟨true, .getStorageAt sampleContractKey sampleSlot, past, .ok (.ofNat 0x2a)⟩ ∈ c.finished ∧
      ¬ AcceptedAgainst c.trace (sampleHead true).root sampleContractKey sampleSlot
        (.ofNat 0x2a)) ∧
    (∃ c past, sampleCalls.Reach Caches.empty c ∧
      ⟨false, .getStorageAt sampleContractKey sampleSlot, past, .ok (.ofNat 0)⟩ ∈ c.finished ∧
      ¬ AcceptedAgainst c.trace (sampleHead false).root sampleContractKey sampleSlot
        (.ofNat 0)) := by
  constructor
  · have first := sampleCalls.reach_first Caches.empty false
      (.getStorageAt sampleContractKey sampleSlot) (cacheRun sampleProvider)
      (fun e _ => sampleProvider_does _ e.op e.before) rfl
    have second := first.solo true (.getStorageAt sampleContractKey sampleSlot) rfl
      (cacheRun sampleProvider) (fun e _ => sampleProvider_does _ e.op e.before)
      (show _ = .ok (.ofNat 0x2a) by decide +kernel)
    exact ⟨_, _, second, List.mem_cons_self, not_acceptedAgainst (by decide +kernel)⟩
  · have read := sampleCalls.reach_first Caches.empty false
      (.getStorageAt sampleContractKey sampleSlot) (cacheRun zeroProvider)
      (fun e _ => zeroProvider_does _ e.op e.before)
      (show _ = .ok (.ofNat 0) by decide +kernel)
    exact ⟨_, _, read, List.mem_cons_self, not_acceptedAgainst (by decide +kernel)⟩

end Beerus
