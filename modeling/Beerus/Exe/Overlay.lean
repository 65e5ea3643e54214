import Beerus.Exe.Provenance
import Beerus.Exe.Transparency

/-!
What one call sees of its own writes.

A `View` is what a state object shows, and `View.after` what it would show after
a write. The state object of `exe::call` does not keep to it: `StateProxy`
accepts writes and drops them, so that its reads show the view that the provider
serves for the block, before a write and after it.
-/

namespace Beerus

open Beerus.Lib

variable {ι GetClassResult ContractClass : Type}

/-- What a state object shows. -/
structure View (ContractClass : Type) where
  storage : PatriciaKey → PatriciaKey → StarkFelt
  nonce : PatriciaKey → StarkFelt
  classHash : PatriciaKey → StarkFelt
  contractClass : StarkFelt → ContractClass

namespace View

/-- What is to be shown after an operation. -/
def after (view : View ContractClass) : StateCall ContractClass → View ContractClass
  | .setStorageAt contractAddress storageKey value =>
      { view with
        storage := Function.update view.storage contractAddress
          (Function.update (view.storage contractAddress) storageKey value) }
  | .incrementNonce contractAddress =>
      { view with
        nonce := Function.update view.nonce contractAddress (view.nonce contractAddress + 1) }
  | .setClassHashAt contractAddress classHash =>
      { view with classHash := Function.update view.classHash contractAddress classHash }
  | .setContractClass classHash contractClass =>
      { view with contractClass := Function.update view.contractClass classHash contractClass }
  | _ => view

/-- The value of a read is the one that is shown. -/
def Shows (view : View ContractClass) : (call : StateCall ContractClass) → call.Result → Prop
  | .getStorageAt contractAddress storageKey, v => v = view.storage contractAddress storageKey
  | .getNonceAt contractAddress, v => v = view.nonce contractAddress
  | .getClassHashAt contractAddress, v => v = view.classHash contractAddress
  | .getCompiledContractClass classHash, v => v = view.contractClass classHash
  | _, _ => True

/-- Answers of a provider that serves one view for each block hash, where it
does not fail. -/
def Served (tryInto : GetClassResult → Except (Fault StateError) ContractClass)
    (committed : Nat → View ContractClass) :
    (call : Call) → call.Answer GetClassResult → Prop
  | .getStorageAt address key (.blockHash h), answer =>
      ∀ contractAddress storageKey ret, address = contractAddress.asAddress →
        key = storageKey.asStorageKey → answer = .ok ret →
          ret.field = (committed h.felt.number).storage contractAddress storageKey
  | .getNonce (.blockHash h) address, answer =>
      ∀ contractAddress ret, address = contractAddress.asAddress → answer = .ok ret →
        ret.field = (committed h.felt.number).nonce contractAddress
  | .getClassHashAt (.blockHash h) address, answer =>
      ∀ contractAddress ret, address = contractAddress.asAddress → answer = .ok ret →
        ret.field = (committed h.felt.number).classHash contractAddress
  | .getClass (.blockHash h) hash, answer =>
      ∀ classHash ret contractClass, hash = .ofField classHash → answer = .ok ret →
        tryInto ret = .ok contractClass →
          contractClass = (committed h.felt.number).contractClass classHash
  | _, _ => True

/-- The part of the views that is cached. -/
def cached (committed : Nat → View ContractClass) : Committed ContractClass where
  storage block := (committed block).storage
  classHash block := (committed block).classHash
  contractClass block := (committed block).contractClass

end View

variable {crates : Crates} {profile : Profile} {heads : ι → State}
  {tryInto : GetClassResult → Except (Fault StateError) ContractClass}
  {committed : Nat → View ContractClass}

/-- Past the caches, reads show what is served for the block of the head. -/
theorem stateProxy_yields (state : State) (call : StateCall ContractClass) :
    (StateProxy crates tryInto state call).Yields
      (ProxyOp.Answered (GetProofResult.verify crates profile) (View.Served tryInto committed))
      fun result => ∀ v, result = .ok v →
        (committed state.blockHash.number).Shows call v := by
  cases call with
  | getStorageAt contractAddress storageKey =>
      rw [StateProxy, StateProxy.getStorageAt_eq]
      intro answer served
      cases answer with
      | error e => exact nofun
      | ok ret =>
          have value := served contractAddress storageKey ret rfl rfl rfl
          show (StateProxy.checked state contractAddress.asAddress storageKey.asStorageKey
            ret).Yields _ _
          unfold StateProxy.checked
          by_cases zero : ret.text = "0x0".toList
          · rw [if_pos zero]
            rintro v ⟨⟩
            exact value
          · rw [if_neg zero]
            intro answer _
            cases answer with
            | error e => exact nofun
            | ok proof =>
                intro answer _
                match answer with
                | .ok () =>
                    rintro v ⟨⟩
                    exact value
                | .error (.error e) => exact nofun
                | .error .panic => exact nofun
  | getNonceAt contractAddress =>
      rw [StateProxy, StateProxy.getNonceAt, Felt.tryFromStarkFelt_eq]
      intro answer served
      cases answer with
      | error e => exact nofun
      | ok ret =>
          rintro v ⟨⟩
          rw [Felt.toStarkFelt_eq]
          exact served contractAddress ret rfl rfl
  | getClassHashAt contractAddress =>
      rw [StateProxy, StateProxy.getClassHashAt, Felt.tryFromStarkFelt_eq]
      intro answer served
      cases answer with
      | error e => exact nofun
      | ok ret =>
          rintro v ⟨⟩
          rw [Felt.toStarkFelt_eq]
          exact served contractAddress ret rfl rfl
  | getCompiledContractClass classHash =>
      show (StateProxy.getCompiledContractClass state tryInto classHash).Yields _ _
      rw [StateProxy.getCompiledContractClass, Felt.tryFromStarkFelt_eq]
      intro answer served
      cases answer with
      | error e => exact nofun
      | ok ret =>
          intro v converted
          exact served classHash ret v rfl rfl converted
  | getCompiledClassHash classHash => exact nofun
  | _ =>
      intro _ _
      trivial

/-- What a finished operation leaves: a write has succeeded without any action,
and a read shows what is served. -/
def Unwritten (committed : Nat → View ContractClass) (heads : ι → State) (i : ι)
    (call : StateCall ContractClass) (past : List (CallEvent ι GetClassResult ContractClass))
    (result : Except (Fault StateError) call.Result) : Prop :=
  (call.isWrite = true → past = [] ∧ ∃ v, result = .ok v) ∧
    ∀ v, result = .ok v → (committed (heads i).blockHash.number).Shows call v

theorem safe_unwritten {seen : Set (CallEvent ι GetClassResult ContractClass)} (i : ι)
    (call : StateCall ContractClass) :
    (callState crates tryInto (heads i) call).Safe i
      (May ((View.cached committed).Good crates)
        (fun _ => ProxyOp.Answered (GetProofResult.verify crates profile)
          (View.Served tryInto committed)) seen)
      (Owes ((View.cached committed).Good crates) (call.isWrite = true))
      (Unwritten committed heads i call) [] := by
  have yields := @stateProxy_yields _ _ crates profile tryInto committed (heads i)
  have cached := @safe_cachedState ContractClass ι ProxyOp (ProxyOp.Answer GetClassResult) crates
    (heads i).blockHash (View.cached committed)
    (fun _ => ProxyOp.Answered (GetProofResult.verify crates profile)
      (View.Served tryInto committed)) seen i
    (StateProxy crates tryInto (heads i))
  cases call with
  | getStorageAt contractAddress storageKey =>
      exact (@cached (.getStorageAt contractAddress storageKey) (yields _)).weaken
        fun past result kept => ⟨nofun, kept.1⟩
  | getClassHashAt contractAddress =>
      exact (@cached (.getClassHashAt contractAddress) (yields _)).weaken
        fun past result kept => ⟨nofun, kept.1⟩
  | getCompiledContractClass classHash =>
      exact (@cached (.getCompiledContractClass classHash) (yields _)).weaken
        fun past result kept => ⟨nofun, kept.1⟩
  | getNonceAt contractAddress =>
      refine Prog.Safe.weaken (fun past result kept => ⟨nofun, kept.1⟩)
        (safe_embed (yields (.getNonceAt contractAddress)) noSets_nil)
  | getCompiledClassHash classHash => exact ⟨nofun, nofun⟩
  | _ => exact ⟨fun _ => ⟨rfl, _, rfl⟩, fun _ _ => trivial⟩

/-- The writes of a call have no effect: every write succeeds without any
action on the caches or the provider, and every read that succeeds shows what
the provider serves for the call's block, whatever the call wrote before. -/
theorem calls_unwritten [DecidableEq ι] {c : CallConfig ι GetClassResult ContractClass}
    (reach : (calls crates profile tryInto (View.Served tryInto committed) heads).Reach
      Caches.empty c) :
    ∀ f ∈ c.finished, Unwritten committed heads f.thread f.job f.past f.result :=
  (memo_keeps safe_unwritten reach
    (fun _ mem => mem : ∀ e ∈ c.trace, e ∈ {e | e ∈ c.trace})).finished

/-! ### Reading what was written -/

/-- The view of a call over its own finished operations, the last one first. -/
def View.over [DecidableEq ι] (view : View ContractClass) (i : ι) :
    List (Finished ι (ReadCaches ContractClass) (CachedOp ProxyOp ContractClass)
      (CacheOp.Answer (ProxyOp.Answer GetClassResult)) (StateCall ContractClass)
      (Fault StateError) StateCall.Result) → View ContractClass
  | [] => view
  | f :: older => if f.thread = i then (view.over i older).after f.job else view.over i older

/-- Every read of a call shows what the call has written before it. -/
def ReadsOwnWrites [DecidableEq ι] (committed : Nat → View ContractClass) (heads : ι → State)
    (c : CallConfig ι GetClassResult ContractClass) : Prop :=
  ∀ newer f older, c.finished = newer ++ f :: older → ∀ v, f.result = .ok v →
    ((committed (heads f.thread).blockHash.number).over f.thread older).Shows f.job v

/-- A block with `0x2a` in every slot and no contract. -/
def sampleView : View Unit := ⟨fun _ _ => .ofNat 0x2a, fun _ => 0, fun _ => 0, fun _ => ()⟩

/-- Calls on the two sample heads, from a provider that serves this view. -/
abbrev writingCalls := @calls Unit Unit Bool sampleHashes .release (fun _ => .ok ())
  (View.Served (fun _ => .ok ()) fun _ => sampleView) sampleHead

theorem sampleProvider_serves (op : CachedOp ProxyOp Unit) (s : ReadCaches Unit) :
    writingCalls.exec false op (cacheRun sampleProvider op s).1 s
      (cacheRun sampleProvider op s).2 := by
  refine cacheRun_does (fun op => ?_) op s
  cases op with
  | verify => rfl
  | rpc call =>
      cases call with
      | getStorageAt address key blockId =>
          cases blockId with
          | blockHash h =>
              rintro contractAddress storageKey ret - - ⟨⟩
              rfl
          | blockNumber => trivial
          | blockTag => trivial
      | getNonce blockId => cases blockId <;> simp [ProxyOp.Answered, View.Served, sampleProvider]
      | getClassHashAt blockId =>
          cases blockId <;> simp [ProxyOp.Answered, View.Served, sampleProvider]
      | getClass blockId => cases blockId <;> simp [ProxyOp.Answered, View.Served, sampleProvider]
      | getBlockWithTxHashes => trivial
      | getProof => trivial

/-- A call writes `0x7` to a slot and reads it. -/
theorem writingCalls_run :
    ∃ c past, writingCalls.Reach Caches.empty c ∧
      c.finished = [⟨false, .getStorageAt sampleContractKey sampleSlot, past, .ok (.ofNat 0x2a)⟩,
        ⟨false, .setStorageAt sampleContractKey sampleSlot (.ofNat 0x7), [], .ok ()⟩] := by
  have write := writingCalls.reach_first Caches.empty false
    (.setStorageAt sampleContractKey sampleSlot (.ofNat 0x7)) (cacheRun sampleProvider)
    (fun e _ => sampleProvider_serves e.op e.before) rfl
  have read := write.solo false (.getStorageAt sampleContractKey sampleSlot) rfl
    (cacheRun sampleProvider) (fun e _ => sampleProvider_serves e.op e.before)
    (show _ = .ok (.ofNat 0x2a) by decide +kernel)
  exact ⟨_, _, read, rfl⟩

theorem writingCalls_unwritten :
    ∃ c, writingCalls.Reach Caches.empty c ∧ c.finished.length = 2 ∧
      ∀ f ∈ c.finished, Unwritten (fun _ => sampleView) sampleHead f.thread f.job f.past
        f.result := by
  obtain ⟨c, past, reach, finished⟩ := writingCalls_run
  exact ⟨c, reach, by rw [finished]; rfl, calls_unwritten reach⟩

/-- The value read is not the one written. -/
theorem writingCalls_unread :
    ∃ c, writingCalls.Reach Caches.empty c ∧
      ¬ ReadsOwnWrites (fun _ => sampleView) sampleHead c := by
  obtain ⟨c, past, reach, finished⟩ := writingCalls_run
  refine ⟨c, reach, fun reads => ?_⟩
  have shown : FieldElement.ofNat 0x2a =
      (sampleView.after (.setStorageAt sampleContractKey sampleSlot (.ofNat 0x7))).storage
        sampleContractKey sampleSlot := reads [] _ _ finished (.ofNat 0x2a) rfl
  exact absurd shown (by decide +kernel)

end Beerus
