import Beerus.Rpc.Agreement
import Beerus.Service.Provenance

/-!
The service of an honest network.

A `Network` has a state for each block, and says what the methods of a state
object come to on it. Its provider may spell numbers as it likes, and name any
further proofs. Where the gateway shows heads with the roots of their states,
the service adds nothing to the network and takes nothing away: a call ends as
the execution does on the state of one published head. Neither the caches, nor
the checks, nor anything that runs beside the call can be told from outside.
-/

namespace Beerus

open Beerus.Lib

variable {GetClassResult ContractClass ι : Type}

/-! ### Networks -/

/-- A network. Its blocks are named by the numbers that their hashes denote. -/
structure Network (GetClassResult : Type) where
  state : Nat → StarknetState
  getClass : Nat → StarkFelt → Except JsonRpcError GetClassResult
  /-- What is answered about a contract that is not deployed. -/
  notFound : JsonRpcError

namespace Network

/-- What a read of a contract comes to. -/
def readContract {α : Type} (network : Network GetClassResult) (block : Nat)
    (contractAddress : PatriciaKey) (read : Contract → α) : Res StateError α :=
  match (network.state block).contractAt contractAddress.key.val with
  | some contract => .ok (read contract)
  | none => Res.err (.iamGroot network.notFound)

/-- What the methods of a state object come to in a block. What is written is
dropped. -/
def read (network : Network GetClassResult)
    (tryInto : GetClassResult → Except (Fault StateError) ContractClass) (block : Nat) :
    (call : StateCall ContractClass) → Res StateError call.Result
  | .getStorageAt contractAddress storageKey =>
      network.readContract block contractAddress fun contract => contract.valueAt storageKey.key.val
  | .getNonceAt contractAddress => network.readContract block contractAddress Contract.nonce
  | .getClassHashAt contractAddress => network.readContract block contractAddress Contract.classHash
  | .getCompiledContractClass classHash =>
      (network.getClass block classHash).mapError (fun e => .error (.iamGroot e)) >>= tryInto
  | .getCompiledClassHash classHash => Res.err (.undeclaredClassHash classHash)
  | .setStorageAt _ _ _ => .ok ()
  | .incrementNonce _ => .ok ()
  | .setClassHashAt _ _ => .ok ()
  | .setContractClass _ _ => .ok ()
  | .setCompiledClassHash _ _ => .ok ()
  | .addVisitedPcs _ _ => .ok ()

/-- So a method ends in a block. -/
def Reads (network : Network GetClassResult)
    (tryInto : GetClassResult → Except (Fault StateError) ContractClass) (block : Nat)
    (call : StateCall ContractClass) (result : Res StateError call.Result) : Prop :=
  result = network.read tryInto block call

/-- An answer about the contract at an address. -/
def Answers {α : Type} (network : Network GetClassResult) (block address : Nat)
    (about : Contract → α → Prop) (answer : Except JsonRpcError α) : Prop :=
  match (network.state block).contractAt address with
  | some contract => ∃ a, answer = .ok a ∧ about contract a
  | none => answer = .error network.notFound

/-- What an honest provider may answer to requests that name a block by its
hash. Nothing is said of other requests. -/
def Tells (crates : Crates) (network : Network GetClassResult) :
    (call : Call) → call.Answer GetClassResult → Prop
  | .getStorageAt contractAddress key (.blockHash h), answer =>
      ∀ k, hexLiteral key.text = some k →
        network.Answers h.felt.number contractAddress.felt.number
          (fun contract (v : Felt) => v.number = (contract.valueAt k).val) answer
  | .getProof (.blockHash h) contractAddress [key], answer =>
      ∀ k, hexLiteral key.text = some k →
        network.Answers h.felt.number contractAddress.felt.number
          (fun contract (proof : GetProofResult) =>
            (∃ others, ((network.state h.felt.number).proofOf crates contract
              contractAddress.felt.number k others).Respells proof) ∧
            ∀ root : Felt, root.IsLower → proof.RootsLower root) answer
  | .getNonce (.blockHash h) contractAddress, answer =>
      network.Answers h.felt.number contractAddress.felt.number
        (fun contract (v : Felt) => v.field = contract.nonce) answer
  | .getClassHashAt (.blockHash h) contractAddress, answer =>
      network.Answers h.felt.number contractAddress.felt.number
        (fun contract (v : Felt) => v.field = contract.classHash) answer
  | .getClass (.blockHash h) classHash, answer =>
      answer = network.getClass h.felt.number classHash.field
  | _, _ => True

/-- A head of the network: its root is that of its block's state. -/
structure IsHead (crates : Crates) (network : Network GetClassResult) (head : State) : Prop where
  root : head.root.number = ((network.state head.blockHash.number).root crates).val
  lower : head.root.IsLower

/-- Responses of an honest gateway show heads of the network, if any. -/
def Shows (crates : Crates) (network : Network GetClassResult) (response : GatewayAnswer) : Prop :=
  ∀ head, GatewayClient.getState response = .ok head → network.IsHead crates head

/-- A world in which the provider and the gateway are honest. -/
structure Honest (crates : Crates) (network : Network GetClassResult)
    (world : World GetClassResult) : Prop where
  provider : ∀ call answer, world.provider call answer → network.Tells crates call answer
  gateway : ∀ response, world.gateway response → network.Shows crates response

end Network

/-! ### Honest answers are accepted -/

section Accepted

variable {crates : Crates} {profile : Profile} {state : StarknetState} {globalRoot : Felt}
  {contractAddress : Address} {key : StorageKey} {k : Nat}

/-- The honest proof of a value other than zero checks out, and is accepted. -/
theorem verify_honest {contract : Contract} {proof : GetProofResult} {value : Felt}
    {others : List Proof} (root : globalRoot.number = (state.root crates).val)
    (low : contractAddress.felt.number < 2 ^ 251)
    (deployed : state.contractAt contractAddress.felt.number = some contract)
    (literal : hexLiteral key.text = some k) (small : k < 2 ^ 251)
    (spelled : value.number = (contract.valueAt k).val) (nonzero : value.number ≠ 0)
    (respelled : (state.proofOf crates contract contractAddress.felt.number k others).Respells
      proof)
    (lower : proof.RootsLower globalRoot) :
    proof.verify crates profile globalRoot contractAddress key value = .ok () := by
  have field : value.field = contract.valueAt k := by
    rw [Felt.field, spelled, FieldElement.ofNat_self]
  obtain ⟨v, stored⟩ : ∃ v, lookupIn contract.storage (pathOf k) = some v := by
    rcases Option.eq_none_or_eq_some (lookupIn contract.storage (pathOf k)) with absent | found
    · rw [Contract.valueAt, absent, Option.getD_none] at spelled
      exact absurd spelled nonzero
    · exact found
  have value' : contract.valueAt k = v := by
    rw [Contract.valueAt, stored, Option.getD_some]
  have slot := @proves_of_lookupIn crates profile _ _ _ contract.tall small stored
  have contracts := @proves_contract crates profile state _ contractAddress low deployed
  refine verify_eq_ok_iff.mpr ⟨(ChecksOut.respelled_iff respelled rfl rfl rfl).mp ?_, lower⟩
  refine ⟨_, _, others, .ofNat k, contract.storageRoot crates, _,
    rootOf (nodeHash crates) (state.contractTrie crates), _, rfl, rfl, ?_, ?_,
    Felt.number_ofField _, rfl, ?_, rfl, ?_, ?_⟩
  · exact crates.fromHex_of_literal literal
  · rw [field, value']
    exact slot
  · rw [state.leaf_proofOf crates contract contractAddress.felt.number k others _ rfl]
    exact contracts
  · rw [Felt.number_ofField, Felt.field_ofField]
    rfl
  · rw [root, Felt.field_ofField]
    rfl

end Accepted

/-! ### What calls are told -/

section Told

variable {network : Network GetClassResult} {linked : Linked GetClassResult ContractClass}
  {world : World GetClassResult} {head : State}

theorem Network.Answers.cases {α : Type} {block address : Nat} {about : Contract → α → Prop}
    {answer : Except JsonRpcError α} (answers : network.Answers block address about answer) :
    (∃ contract a, (network.state block).contractAt address = some contract ∧ answer = .ok a ∧
        about contract a) ∨
      (network.state block).contractAt address = none ∧ answer = .error network.notFound := by
  unfold Network.Answers at answers
  cases found : (network.state block).contractAt address with
  | none =>
      rw [found] at answers
      exact .inr ⟨rfl, answers⟩
  | some contract =>
      rw [found] at answers
      obtain ⟨a, same, holds⟩ := answers
      exact .inl ⟨contract, a, rfl, same, holds⟩

/-- What a call comes to in a block. -/
def Network.call (network : Network GetClassResult) (linked : Linked GetClassResult ContractClass)
    (request : FunctionCall) (block : Nat) : Res JsonRpcError (List Felt) :=
  linked.answer ((Exe.execution linked.crates linked.blockifier request).evalOr fun call =>
    Exe.attempt (network.read linked.tryInto block call))

variable {boot : GatewayAnswer}

/-- What the gateway's responses show, every published head is. -/
theorem published_shown [DecidableEq ι] {start : Service ι ContractClass}
    {c : ServiceConfig ι GetClassResult ContractClass}
    (reach : (serviceSystem linked world).Reach start c) {IsHead : State → Prop}
    (shown : ∀ head, GatewayClient.getState boot = .ok head → IsHead head)
    (shows : ∀ response, world.gateway response →
      ∀ head, GatewayClient.getState response = .ok head → IsHead head) :
    ∀ head, Published boot {e | e ∈ c.trace} head → IsHead head := by
  rintro head (first | ⟨i, before, response, ⟨e, mem, same⟩, received⟩)
  · exact shown head first
  · obtain ⟨after, does⟩ := reach.trace_exec e mem
    obtain ⟨i', before', op, answer⟩ := e
    cases op with
    | get => exact nomatch same
    | set => exact nomatch same
    | inner op =>
        cases Option.some.inj same
        exact shows response does.1 head received

end Told

/-! ### An honest provider -/

namespace Network

variable {crates : Crates} {network : Network GetClassResult}

/-- An answer about a contract, where it is deployed. -/
def serveContract {α : Type} (network : Network GetClassResult) (block address : Nat)
    (about : Contract → α) : Except JsonRpcError α :=
  match (network.state block).contractAt address with
  | some contract => .ok (about contract)
  | none => .error network.notFound

/-- A provider that knows the network. -/
def serve (crates : Crates) (network : Network GetClassResult) :
    (call : Call) → call.Answer GetClassResult
  | .getStorageAt contractAddress key (.blockHash h) =>
      network.serveContract h.felt.number contractAddress.felt.number fun contract =>
        .ofField (contract.valueAt ((hexLiteral key.text).getD 0))
  | .getProof (.blockHash h) contractAddress [key] =>
      network.serveContract h.felt.number contractAddress.felt.number fun contract =>
        (network.state h.felt.number).proofOf crates contract contractAddress.felt.number
          ((hexLiteral key.text).getD 0) []
  | .getNonce (.blockHash h) contractAddress =>
      network.serveContract h.felt.number contractAddress.felt.number fun contract =>
        .ofField contract.nonce
  | .getClassHashAt (.blockHash h) contractAddress =>
      network.serveContract h.felt.number contractAddress.felt.number fun contract =>
        .ofField contract.classHash
  | .getClass (.blockHash h) classHash => network.getClass h.felt.number classHash.field
  | _ => .error ⟨-32601, "Method not found"⟩

theorem answers_serveContract {α : Type} {block address : Nat} {about : Contract → α → Prop}
    {f : Contract → α} (right : ∀ contract, about contract (f contract)) :
    network.Answers block address about (network.serveContract block address f) := by
  unfold Answers serveContract
  cases (network.state block).contractAt address with
  | none => rfl
  | some contract => exact ⟨_, rfl, right contract⟩

/-- It is honest. -/
theorem serve_tells (call : Call) : network.Tells crates call (network.serve crates call) := by
  match call with
  | .getStorageAt contractAddress key (.blockHash h) =>
      intro k literal
      refine answers_serveContract fun contract => ?_
      rw [Felt.number_ofField, literal, Option.getD_some]
  | .getProof (.blockHash h) contractAddress [key] =>
      intro k literal
      refine answers_serveContract fun contract => ?_
      rw [literal, Option.getD_some]
      refine ⟨⟨[], GetProofResult.respells_refl _⟩, fun root lower => ⟨?_, ?_, lower⟩⟩
      · rintro _ ⟨⟩
        exact Felt.isLower_ofField _
      · rintro _ ⟨⟩
        exact Felt.isLower_ofField _
  | .getNonce (.blockHash h) contractAddress =>
      exact answers_serveContract fun contract => Felt.field_ofField _
  | .getClassHashAt (.blockHash h) contractAddress =>
      exact answers_serveContract fun contract => Felt.field_ofField _
  | .getClass (.blockHash h) classHash => rfl
  | .getBlockWithTxHashes _ => trivial
  | .getStorageAt _ _ (.blockNumber _) => trivial
  | .getStorageAt _ _ (.blockTag _) => trivial
  | .getProof (.blockNumber _) _ _ => trivial
  | .getProof (.blockTag _) _ _ => trivial
  | .getProof (.blockHash _) _ [] => trivial
  | .getProof (.blockHash _) _ (_ :: _ :: _) => trivial
  | .getNonce (.blockNumber _) _ => trivial
  | .getNonce (.blockTag _) _ => trivial
  | .getClassHashAt (.blockNumber _) _ => trivial
  | .getClassHashAt (.blockTag _) _ => trivial
  | .getClass (.blockNumber _) _ => trivial
  | .getClass (.blockTag _) _ => trivial

end Network

/-- A network that is always in the sample state. -/
def sampleNetwork : Network Unit where
  state _ := sampleState
  getClass _ _ := .error ⟨28, "Class hash not found"⟩
  notFound := ⟨20, "Contract not found"⟩

theorem laterResponse_shows : sampleNetwork.Shows sampleHashes laterResponse := by
  have head : GatewayClient.getState laterResponse = .ok (sampleHead false) := by decide +kernel
  intro _ received
  obtain rfl := Except.ok.inj (head.symm.trans received)
  exact ⟨by decide +kernel, Felt.isLower_ofField _⟩

end Beerus
