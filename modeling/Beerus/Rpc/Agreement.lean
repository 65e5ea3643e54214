import Beerus.Proof.Absence
import Beerus.Rpc.Binding
import Beerus.Rpc.Spelling

/-!
Where the two verified reads of a slot agree.

`Context::getStorageAt` for the latest block and `StateProxy::get_storage_at`
read a slot of one head. They name the block by its number and by its hash, and
spell the address and the key differently, but ask `verify` about the same
numbers. They come apart because the proxy returns a zero without asking
`verify`: what it refuses fails on the server only. That is so for every key
that is not written, unless the trie is empty, and for any zero where the head's
root is not the block's. A block number that cannot be sent fails on the server
only as well (`reads_agree_iff`).
-/

namespace Beerus

open Beerus.Lib

variable {GetClassResult : Type}

/-! ### The two reads -/

/-- What actions come to where the provider answers by a function. -/
def ProxyOp.answerBy (crates : Crates) (profile : Profile)
    (provider : (call : Call) → call.Answer GetClassResult) :
    (op : ProxyOp) → op.Answer GetClassResult
  | .rpc call => provider call
  | .verify proof globalRoot contractAddress key value =>
      proof.verify crates profile globalRoot contractAddress key value

/-- What `Context::getStorageAt` returns for the latest block. -/
def latestRead (crates : Crates) (profile : Profile)
    (provider : (call : Call) → call.Answer GetClassResult) (head : State)
    (contractAddress : Address) (key : StorageKey) : Except (Fault JsonRpcError) Felt :=
  (Context.getStorageAt contractAddress key (.blockTag .latest)).eval
    (ServerOp.answerOn (ProxyOp.answerBy crates profile provider) head)

/-- What `StateProxy::get_storage_at` returns. -/
def proxyRead (crates : Crates) (profile : Profile)
    (provider : (call : Call) → call.Answer GetClassResult) (head : State)
    (contractAddress storageKey : PatriciaKey) : Except (Fault StateError) StarkFelt :=
  (StateProxy.getStorageAt crates head contractAddress storageKey).eval
    (ProxyOp.answerBy crates profile provider)

/-- Both reads succeed with one number, or both fail. -/
def ReadsAgree (server : Except (Fault JsonRpcError) Felt)
    (proxy : Except (Fault StateError) StarkFelt) : Prop :=
  (∃ v, server = .ok v ∧ proxy = .ok v.field) ∨ (∀ v, server ≠ .ok v) ∧ ∀ x, proxy ≠ .ok x

/-- Where both reads can only return one value, they agree where both do or
neither does. -/
theorem readsAgree_iff {server : Except (Fault JsonRpcError) Felt}
    {proxy : Except (Fault StateError) StarkFelt} {value : Felt} {p q : Prop}
    (serves : ∀ v, server = .ok v ↔ v = value ∧ p)
    (proxies : ∀ x, proxy = .ok x ↔ x = value.field ∧ q) :
    ReadsAgree server proxy ↔ (p ↔ q) := by
  constructor
  · rintro (⟨v, ok, ok'⟩ | ⟨none, none'⟩)
    · exact iff_of_true ((serves v).mp ok).2 ((proxies _).mp ok').2
    · refine iff_of_false ?_ ?_
      · intro served
        exact none value ((serves value).mpr ⟨rfl, served⟩)
      · intro proxied
        exact none' value.field ((proxies _).mpr ⟨rfl, proxied⟩)
  · intro together
    by_cases served : p
    · exact .inl ⟨value, (serves value).mpr ⟨rfl, served⟩,
        (proxies _).mpr ⟨rfl, together.mp served⟩⟩
    · refine .inr ⟨fun v ok => served ((serves v).mp ok).2, fun x ok => ?_⟩
      exact served (together.mpr ((proxies x).mp ok).2)

section Reads

variable {crates : Crates} {profile : Profile} {head : State}

/-- A request's program comes to the same on the server. -/
@[simp] theorem eval_lift {α : Type} (answer : (op : ProxyOp) → op.Answer GetClassResult)
    (head : State) (p : ContextProg GetClassResult α) :
    p.lift.eval (ServerOp.answerOn answer head) = p.eval answer := by
  induction p with
  | done result => rfl
  | act op next ih => exact ih (answer op)

variable {provider : (call : Call) → call.Answer GetClassResult}

theorem eval_getVerified {contractAddress : Address} {key : StorageKey} {blockId : BlockId}
    {stateRoot v : Felt} :
    (Context.getVerified contractAddress key blockId stateRoot).eval
        (ProxyOp.answerBy crates profile provider) = .ok v ↔
      provider (.getStorageAt contractAddress key blockId) = .ok v ∧
        ∃ proof, provider (.getProof blockId contractAddress [key]) = .ok proof ∧
          proof.verify crates profile stateRoot contractAddress key v = .ok () := by
  simp only [Context.getVerified, Context.ask, Context.check, Prog.eval_bind, Prog.eval_act,
    Prog.eval_done, Prog.eval_pure, ProxyOp.answerBy, Res.bind_eq_ok, Res.mapError_eq_ok]
  constructor
  · rintro ⟨w, value, proof, proved, _, verified, ⟨⟩⟩
    exact ⟨value, proof, proved, verified⟩
  · rintro ⟨value, proof, proved, verified⟩
    exact ⟨v, value, proof, proved, (), verified, rfl⟩

/-- The server returns a value where the head's number can be sent and the value
is verified. -/
theorem latestRead_eq_ok {contractAddress : Address} {key : StorageKey} {v : Felt} :
    latestRead crates profile provider head contractAddress key = .ok v ↔
      ∃ m : BlockNumber, m.val.toInt = head.blockNumber ∧
        provider (.getStorageAt contractAddress key (.blockNumber m)) = .ok v ∧
        ∃ proof, provider (.getProof (.blockNumber m) contractAddress [key]) = .ok proof ∧
          proof.verify crates profile head.root contractAddress key v = .ok () := by
  simp only [latestRead, Context.getStorageAt, Context.resolveBlockId, Prog.eval_bind,
    Prog.eval_act, Prog.eval_andFinally, eval_lift, ServerOp.answerOn, Context.resolveAt_latest,
    Prog.eval_done, Res.bind_eq_ok, eval_getVerified]
  constructor
  · rintro ⟨⟨sent, root⟩, own, value, proof, proved, verified⟩
    obtain ⟨rfl, m, rfl, same⟩ := Context.ownNumber_eq_ok.mp own
    exact ⟨m, same, value, proof, proved, verified⟩
  · rintro ⟨m, same, value, proof, proved, verified⟩
    exact ⟨_, Context.ownNumber_eq_ok.mpr ⟨rfl, m, rfl, same⟩, value, proof, proved, verified⟩

/-- The proxy returns a value that is zero or verified. -/
theorem proxyRead_eq_ok {contractAddress storageKey : PatriciaKey} {x : StarkFelt} :
    proxyRead crates profile provider head contractAddress storageKey = .ok x ↔
      ∃ v, provider (.getStorageAt contractAddress.asAddress storageKey.asStorageKey
          (.blockHash ⟨head.blockHash⟩)) = .ok v ∧ x = Felt.field v ∧
        (Felt.number v = 0 ∨
          ∃ proof, provider (.getProof (.blockHash ⟨head.blockHash⟩) contractAddress.asAddress
              [storageKey.asStorageKey]) = .ok proof ∧
            proof.verify crates profile head.root contractAddress.asAddress
              storageKey.asStorageKey v = .ok ()) := by
  rw [proxyRead, StateProxy.getStorageAt_eq, StateProxy.readAt]
  simp only [ask, Prog.eval_bind, Prog.eval_act, Prog.eval_done, ProxyOp.answerBy, Res.bind_eq_ok,
    Res.mapError_eq_ok]
  refine exists_congr fun v => and_congr_right fun _ => ?_
  rw [StateProxy.checked, Felt.number_eq_zero]
  by_cases zero : Felt.text v = "0x0".toList
  · rw [if_pos zero, Prog.eval_pure, Except.ok.injEq]
    exact ⟨fun same => ⟨same.symm, .inl zero⟩, fun read => read.1.symm⟩
  · rw [if_neg zero]
    simp only [ask, check, Prog.eval_bind, Prog.eval_act, Prog.eval_done, Prog.eval_pure,
      ProxyOp.answerBy, Res.bind_eq_ok, Res.mapErr_eq_ok, Res.mapError_eq_ok]
    constructor
    · rintro ⟨proof, proved, _, verified, ⟨⟩⟩
      exact ⟨rfl, .inr ⟨proof, proved, verified⟩⟩
    · rintro ⟨rfl, skipped | ⟨proof, proved, verified⟩⟩
      · exact absurd skipped zero
      · exact ⟨proof, proved, (), verified, rfl⟩

end Reads

/-! ### An honest provider -/

/-- A provider is honest about a slot of the head's block: it answers with the
slot's value and with the nodes on the two paths, whether the block is named by
its number or by its hash, and however the address and the key are spelled. It
spells its own numbers as it likes. -/
structure HonestAt (crates : Crates) (network : StarknetState) (head : State)
    (contract : Contract) (address key : Nat)
    (provider : (call : Call) → call.Answer GetClassResult) (value : Felt)
    (proof : GetProofResult) : Prop where
  spellsValue : value.number = (contract.valueAt key).val
  spellsProof : ∃ others, (network.proofOf crates contract address key others).Respells proof
  answersValue : ∀ blockId contractAddress storageKey, OfHead head blockId head.root →
    contractAddress.felt.number = address → hexLiteral storageKey.text = some key →
      provider (.getStorageAt contractAddress storageKey blockId) = .ok value
  answersProof : ∀ blockId contractAddress storageKey, OfHead head blockId head.root →
    contractAddress.felt.number = address → hexLiteral storageKey.text = some key →
      provider (.getProof blockId contractAddress [storageKey]) = .ok proof

section Honest

variable {crates : Crates} {profile : Profile} {network : StarknetState} {contract : Contract}

/-- By its numbers, the honest proof of a slot checks out for the root of the
state, where the key is written or no key is. -/
theorem checksOut_proofOf_iff {contractAddress : Address} {key : StorageKey} {k : Nat}
    {globalRoot value : Felt} (others : List Proof)
    (low : contractAddress.felt.number < 2 ^ 251)
    (deployed : network.contractAt contractAddress.felt.number = some contract)
    (literal : hexLiteral key.text = some k) (small : k < 2 ^ 251)
    (spelled : value.number = (contract.valueAt k).val)
    (free : NodeCollisionFree crates.pedersenHash (contract.slotInputs crates k)) :
    (network.proofOf crates contract contractAddress.felt.number k others).ChecksOut crates profile
        globalRoot contractAddress key value ↔
      globalRoot.number = (network.root crates).val ∧ contract.Shows k := by
  have field : value.field = contract.valueAt k := by
    rw [Felt.field, spelled, FieldElement.ofNat_self]
  have slot := @proves_slot_iff crates profile _ _ small free
  have leaf := network.leaf_proofOf crates contract contractAddress.felt.number k others
  have contracts := @proves_contract crates profile _ _ _ low deployed
  have fromHex := crates.fromHex_of_literal literal
  constructor
  · rintro ⟨data, nodes, others', k', storageRoot, classCommitment, root, stateCommitment, present,
      listed, literal', storage, number, declared, contract', -, -, global⟩
    obtain rfl := Option.some.inj present
    obtain ⟨rfl, rfl⟩ := List.cons.inj (Option.some.inj listed)
    obtain rfl := Option.some.inj declared
    obtain rfl := Option.some.inj (fromHex.symm.trans literal')
    rw [Felt.number_ofField] at number
    obtain rfl : contract.storageRoot crates = storageRoot := Fin.ext number
    rw [field] at storage
    rw [leaf _ rfl] at contract'
    obtain rfl := contracts.arrives.symm.trans contract'.arrives
    refine ⟨?_, slot.mp storage⟩
    rw [global, Felt.field_ofField]
    rfl
  · rintro ⟨global, shown⟩
    refine ⟨_, _, others, _, contract.storageRoot crates, _, rootOf (nodeHash crates)
      (network.contractTrie crates), _, rfl, rfl, fromHex, field ▸ slot.mpr shown,
      Felt.number_ofField _, rfl, leaf _ rfl ▸ contracts, rfl, ?_, ?_⟩
    · rw [Felt.number_ofField, Felt.field_ofField]
      rfl
    · rw [global, Felt.field_ofField]
      rfl

/-! ### Agreement -/

/-- The head's root is the state's, and the roots that `verify` compares as text
are spelled in lower case. -/
def Anchored (crates : Crates) (network : StarknetState) (head : State)
    (proof : GetProofResult) : Prop :=
  head.root.number = (network.root crates).val ∧ proof.RootsLower head.root

/-- Block numbers are the numbers that fit into an `i64`. -/
theorem exists_blockNumber_iff {n : Nat} :
    (∃ m : BlockNumber, m.val.toInt = n) ↔ n < 2 ^ 63 := by
  constructor
  · rintro ⟨m, same⟩
    have := m.val.toInt_lt
    omega
  · intro small
    have same : (Int64.ofNat n).toInt = n := Int64.toInt_ofNat_of_lt small
    exact ⟨⟨.ofNat n, by omega⟩, same⟩

section Agreement

variable {head : State} {provider : (call : Call) → call.Answer GetClassResult}
  {contractAddress storageKey : PatriciaKey} {address : Address} {key : StorageKey}
  {value : Felt} {proof : GetProofResult}

/-- `verify` accepts the honest answers where the head is anchored in the state
and the path is a proof. -/
theorem verify_honest_iff (sameAddress : address.felt.number = contractAddress.key.val)
    (sameKey : hexLiteral key.text = some storageKey.key.val)
    (deployed : network.contractAt contractAddress.key.val = some contract)
    (honest : HonestAt crates network head contract contractAddress.key.val storageKey.key.val
      provider value proof)
    (free : NodeCollisionFree crates.pedersenHash
      (contract.slotInputs crates storageKey.key.val)) :
    proof.verify crates profile head.root address key value = .ok () ↔
      Anchored crates network head proof ∧ contract.Shows storageKey.key.val := by
  obtain ⟨others, respelled⟩ := honest.spellsProof
  have checks := @checksOut_proofOf_iff crates profile network contract address key _ head.root
    value others (sameAddress ▸ contractAddress.low) (sameAddress ▸ deployed) sameKey
    storageKey.low honest.spellsValue free
  rw [sameAddress] at checks
  rw [verify_eq_ok_iff, ← ChecksOut.respelled_iff respelled rfl rfl rfl, checks, Anchored,
    and_right_comm]

/-- What the server returns of honest answers. -/
theorem latestRead_honest_iff (sameAddress : address.felt.number = contractAddress.key.val)
    (sameKey : hexLiteral key.text = some storageKey.key.val)
    (deployed : network.contractAt contractAddress.key.val = some contract)
    (honest : HonestAt crates network head contract contractAddress.key.val storageKey.key.val
      provider value proof)
    (free : NodeCollisionFree crates.pedersenHash
      (contract.slotInputs crates storageKey.key.val)) (v : Felt) :
    latestRead crates profile provider head address key = .ok v ↔
      v = value ∧ head.blockNumber < 2 ^ 63 ∧ Anchored crates network head proof ∧
        contract.Shows storageKey.key.val := by
  rw [latestRead_eq_ok, ← verify_honest_iff sameAddress sameKey deployed honest free,
    ← exists_blockNumber_iff]
  constructor
  · rintro ⟨m, same, answered, sent, proved, verified⟩
    have named : OfHead head (.blockNumber m) head.root := .number m same
    have value' := honest.answersValue _ _ _ named sameAddress sameKey
    have proof' := honest.answersProof _ _ _ named sameAddress sameKey
    obtain rfl : value = v := Except.ok.inj (value'.symm.trans answered)
    obtain rfl : proof = sent := Except.ok.inj (proof'.symm.trans proved)
    exact ⟨rfl, ⟨m, same⟩, verified⟩
  · rintro ⟨rfl, ⟨m, same⟩, verified⟩
    have named : OfHead head (.blockNumber m) head.root := .number m same
    exact ⟨m, same, honest.answersValue _ _ _ named sameAddress sameKey, proof,
      honest.answersProof _ _ _ named sameAddress sameKey, verified⟩

/-- What the proxy returns of honest answers. -/
theorem proxyRead_honest_iff
    (deployed : network.contractAt contractAddress.key.val = some contract)
    (honest : HonestAt crates network head contract contractAddress.key.val storageKey.key.val
      provider value proof)
    (free : NodeCollisionFree crates.pedersenHash
      (contract.slotInputs crates storageKey.key.val)) (x : StarkFelt) :
    proxyRead crates profile provider head contractAddress storageKey = .ok x ↔
      x = value.field ∧ (contract.valueAt storageKey.key.val = 0 ∨
        Anchored crates network head proof ∧ contract.Shows storageKey.key.val) := by
  have number := contractAddress.number_asAddress
  have literal := storageKey.hexLiteral_asStorageKey
  have named : OfHead head (.blockHash ⟨head.blockHash⟩) head.root := .hash _ rfl
  have value' := honest.answersValue _ _ _ named number literal
  have proof' := honest.answersProof _ _ _ named number literal
  have zero : value.number = 0 ↔ contract.valueAt storageKey.key.val = 0 := by
    rw [honest.spellsValue]
    exact ⟨fun same => Fin.ext same, fun same => congrArg Fin.val same⟩
  rw [proxyRead_eq_ok, ← verify_honest_iff number literal deployed honest free, ← zero]
  constructor
  · rintro ⟨v, answered, rfl, verified⟩
    obtain rfl : value = v := Except.ok.inj (value'.symm.trans answered)
    refine ⟨rfl, verified.imp_right ?_⟩
    rintro ⟨sent, proved, verified⟩
    obtain rfl : proof = sent := Except.ok.inj (proof'.symm.trans proved)
    exact verified
  · rintro ⟨rfl, verified⟩
    exact ⟨value, value', rfl, verified.imp_right fun verified => ⟨proof, proof', verified⟩⟩

/-- The two reads of a slot agree exactly where both succeed, since the head's
number can be sent, its root is anchored in the state and the path is a proof,
or both fail, since its root is not anchored and the value is not zero. -/
theorem reads_agree_iff (sameAddress : address.felt.number = contractAddress.key.val)
    (sameKey : hexLiteral key.text = some storageKey.key.val)
    (deployed : network.contractAt contractAddress.key.val = some contract)
    (honest : HonestAt crates network head contract contractAddress.key.val storageKey.key.val
      provider value proof)
    (free : NodeCollisionFree crates.pedersenHash
      (contract.slotInputs crates storageKey.key.val)) :
    ReadsAgree (latestRead crates profile provider head address key)
        (proxyRead crates profile provider head contractAddress storageKey) ↔
      (head.blockNumber < 2 ^ 63 ∧ Anchored crates network head proof ∧
          contract.Shows storageKey.key.val) ∨
        (contract.valueAt storageKey.key.val ≠ 0 ∧ ¬ Anchored crates network head proof) := by
  refine (readsAgree_iff
    (latestRead_honest_iff sameAddress sameKey deployed honest free)
    (proxyRead_honest_iff deployed honest free)).trans ?_
  by_cases blank : contract.valueAt storageKey.key.val = 0
  · -- The proxy returns zero, so the server has to.
    simp only [blank, true_or, iff_true, ne_eq, not_true_eq_false, false_and, or_false]
  · -- The key is written, so that both rest on the roots.
    have shown := contract.shows_of_valueAt blank
    simp only [blank, shown, and_true, false_or, ne_eq, not_false_eq_true, true_and]
    tauto

end Agreement

end Honest

/-! ### A provider of one state -/

/-- The contract and the number that an address and a key denote. -/
def StarknetState.slot (network : StarknetState) (contractAddress : Address) (key : StorageKey) :
    Option (Contract × Nat) := do
  let contract ← network.contractAt contractAddress.felt.number
  let key ← hexLiteral key.text
  pure (contract, key)

/-- A provider that knows one state, and answers for it whatever block is
named. -/
def StarknetState.serve (crates : Crates) (network : StarknetState) :
    (call : Call) → call.Answer Unit
  | .getStorageAt contractAddress key _ =>
      match network.slot contractAddress key with
      | some (contract, k) => .ok (.ofField (contract.valueAt k))
      | none => .error ⟨20, "Contract not found"⟩
  | .getProof _ contractAddress [key] =>
      match network.slot contractAddress key with
      | some (contract, k) =>
          .ok (network.proofOf crates contract contractAddress.felt.number k [])
      | none => .error ⟨20, "Contract not found"⟩
  | _ => .error ⟨-32601, "Method not found"⟩

/-- It is honest about every slot, for every head. -/
theorem serve_honest (crates : Crates) (network : StarknetState) (head : State)
    {contract : Contract} {address : Nat} (key : Nat)
    (deployed : network.contractAt address = some contract) :
    HonestAt crates network head contract address key (network.serve crates)
      (.ofField (contract.valueAt key)) (network.proofOf crates contract address key []) := by
  have slot : ∀ (contractAddress : Address) (storageKey : StorageKey),
      contractAddress.felt.number = address → hexLiteral storageKey.text = some key →
        network.slot contractAddress storageKey = some (contract, key) := by
    intro contractAddress storageKey number literal
    simp [StarknetState.slot, number, literal, deployed]
  constructor
  case spellsValue => exact Felt.number_ofField _
  case spellsProof => exact ⟨[], GetProofResult.respells_refl _⟩
  case answersValue =>
    intro blockId contractAddress storageKey _ number literal
    simp only [StarknetState.serve, slot contractAddress storageKey number literal]
  case answersProof =>
    intro blockId contractAddress storageKey _ number literal
    simp only [StarknetState.serve, slot contractAddress storageKey number literal, number]

/-- The sample hashes, and Pedersen of pairs that begin with zero. -/
def slotHashes : Crates :=
  { sampleHashes with
    pedersenHash := fun a b =>
      if a = 0 then
        .ofNat (0x20c4e73b1d95a6f80e2b4c6d7f91a3b5c7d9ebfd0f21436587a9cbed0f21436 + 0x1000 * b.val)
      else sampleHashes.pedersenHash a b }

/-- A key that the contract of the sample state has not written. -/
def unwrittenKey : PatriciaKey := ⟨.ofNat 0x6, by decide +kernel⟩

theorem sampleContractKey_deployed :
    sampleState.contractAt sampleContractKey.key.val = some sampleContract :=
  sampleContract_deployed

/-- The server's read of a slot of that contract. -/
abbrev sampleLatest (key : StorageKey) : Except (Fault JsonRpcError) Felt :=
  latestRead slotHashes .release (sampleState.serve slotHashes) (sampleHead false)
    sampleContractKey.asAddress key

/-- The proxy's read of it. -/
abbrev sampleProxied (key : PatriciaKey) : Except (Fault StateError) StarkFelt :=
  proxyRead slotHashes .release (sampleState.serve slotHashes) (sampleHead false)
    sampleContractKey key

/-- The proof that is served of it. -/
abbrev servedProof (key : Nat) : GetProofResult :=
  sampleState.proofOf slotHashes sampleContract sampleContractKey.key.val key []

theorem servedProof_anchored (key : Nat) :
    Anchored slotHashes sampleState (sampleHead false) (servedProof key) := by
  refine ⟨by decide +kernel, ?_, ?_, Felt.isLower_ofField _⟩
  · rintro _ ⟨⟩
    exact Felt.isLower_ofField _
  · rintro _ ⟨⟩
    exact Felt.isLower_ofField _

/-- The two reads of a written key agree. -/
theorem written_agree : ReadsAgree (sampleLatest sampleKey) (sampleProxied sampleSlot) := by
  refine (reads_agree_iff sampleContractKey.number_asAddress (by decide +kernel)
    sampleContractKey_deployed (serve_honest _ _ _ _ sampleContractKey_deployed)
    (.of_spaced (by decide +kernel))).mpr (.inl ?_)
  exact ⟨by decide, servedProof_anchored _, .inr (by decide +kernel)⟩

/-- Of a key that the contract has not written, the proxy returns zero and the
server fails. -/
theorem unwritten_disagree :
    NodeCollisionFree slotHashes.pedersenHash
        (sampleContract.slotInputs slotHashes unwrittenKey.key.val) ∧
      HonestAt slotHashes sampleState (sampleHead false) sampleContract sampleContractKey.key.val
        unwrittenKey.key.val (sampleState.serve slotHashes)
        (.ofField (sampleContract.valueAt unwrittenKey.key.val))
        (servedProof unwrittenKey.key.val) ∧
      Anchored slotHashes sampleState (sampleHead false) (servedProof unwrittenKey.key.val) ∧
      ¬ ReadsAgree (sampleLatest unwrittenKey.asStorageKey) (sampleProxied unwrittenKey) := by
  have refused : (sampleLatest unwrittenKey.asStorageKey).isOk = false := by decide +kernel
  have skipped : sampleProxied unwrittenKey = .ok 0 := by decide +kernel
  refine ⟨.of_spaced (by decide +kernel), serve_honest _ _ _ _ sampleContractKey_deployed,
    servedProof_anchored _, ?_⟩
  rintro (⟨v, ok, -⟩ | ⟨-, none⟩)
  · rw [ok] at refused
    exact nomatch refused
  · exact none 0 skipped

end Beerus
