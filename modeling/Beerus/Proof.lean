import Beerus.Gen
import Beerus.Util

/-!
The Merkle proof check of `src/proof.rs`.

`parseProof` walks a node list from the leaf to the root with two
accumulators: `hold`, the hash the next node up should commit to, and
`pathLen`, the number of levels walked. A binary node is compared with `hold`
on the side its key bit selects. An edge is compared with the value and the
masked key only where it is the first node walked; an edge further up replaces
`hold` by its own hash. Nothing compares the final `pathLen` with the height of
the trie.
-/

namespace Beerus

open Beerus.Lib

/-- `Direction`. -/
inductive Direction where
  | left
  | right
deriving DecidableEq, Repr

/-- `From<bool> for Direction`. -/
def Direction.ofBool (flag : Bool) : Direction :=
  if flag then .right else .left

/-- `FieldElement::from_hex(..).map_err(..)`. -/
def fieldElement (crates : Crates) (text : Text) : Res JsonRpcError FieldElement :=
  Res.okOr ⟨-32701, "Failed to create Field Element"⟩ (crates.fromHex text)

@[simp] theorem fieldElement_felt (crates : Crates) (f : Felt) :
    fieldElement crates f.text = .ok f.field := by
  simp [fieldElement]

/-- `Felt::try_new(&format!("0x{:x}", hash))`. -/
def formatFelt (crates : Crates) (hash : FieldElement) : Res JsonRpcError Felt :=
  Felt.tryNew ('0' :: 'x' :: crates.lowerHex hash)

@[simp] theorem formatFelt_eq (crates : Crates) (hash : FieldElement) :
    formatFelt crates hash = .ok (Felt.ofField hash) :=
  Felt.tryNew_lowerHex crates hash

namespace GetProofResult

section Walk

variable (crates : Crates) (profile : Profile) (key : List Bool) (value : FieldElement)

/-- Whether the edge next to the leaf hashes like the value below the masked
key. A mask out of range is a failed check. -/
def leafEdgeMatches (providedHash : FieldElement) (path : EdgeNodePath) :
    Res JsonRpcError Bool := do
  let mask ← usizeSub profile 251 (asU64 path.len)
  match feltFromBits key (some mask) with
  | .ok maskedKey =>
      let computedHash :=
        crates.pedersenHash value maskedKey + FieldElement.ofNat (asU64 path.len)
      pure (providedHash == computedHash)
  | .error (.error _) => pure false
  | .error .panic => Res.panic

/-- The hash of a binary node that holds `hold` in the given direction. -/
def expectedHash (direction : Direction) (hold left right : FieldElement) : FieldElement :=
  match direction with
  | .left => crates.pedersenHash hold right
  | .right => crates.pedersenHash left hold

/-- One round of the loop: `none` is the early `return Ok(None)`. -/
def walkStep (i : Nat) (hold : FieldElement) (pathLen : Int64) :
    Node → Res JsonRpcError (Option (FieldElement × Int64))
  | .edgeNode child path => do
      let childFelt ← fieldElement crates child.text
      let pathValue ← fieldElement crates path.value.text
      let providedHash :=
        crates.pedersenHash childFelt pathValue + FieldElement.ofNat (asU64 path.len)
      let passes ← if i = 0 then leafEdgeMatches crates profile key value providedHash path
        else pure true
      if passes then
        let pathLen ← i64Add profile pathLen path.len
        pure (some (providedHash, pathLen))
      else pure none
  | .binaryNode left right => do
      let pathLen ← i64Add profile pathLen 1
      let left ← fieldElement crates left.text
      let right ← fieldElement crates right.text
      let index ← usizeSub profile 251 (asU64 pathLen)
      let bit ← Res.index key index
      let expected := expectedHash crates (.ofBool bit) hold left right
      let hold := crates.pedersenHash left right
      if hold = expected then pure (some (hold, pathLen)) else pure none

/-- The loop, over the reversed node list. -/
def walk : Nat → FieldElement → Int64 → List Node →
    Res JsonRpcError (Option (FieldElement × Int64))
  | _, hold, pathLen, [] => pure (some (hold, pathLen))
  | i, hold, pathLen, node :: rest => do
      match ← walkStep crates profile key value i hold pathLen node with
      | none => pure none
      | some (hold, pathLen) => walk (i + 1) hold pathLen rest

end Walk

/-- `GetProofResult::parse_proof`. -/
def parseProof (crates : Crates) (profile : Profile) (key : Text) (value : Felt)
    (proof : Proof) : Res JsonRpcError (Option Felt) := do
  let key ← fieldElement crates key
  let key := feltToBits key.toBytesBe
  if key.length ≠ 251 then
    pure none
  else
    let value ← fieldElement crates value.text
    match ← walk crates profile key value 0 value 0 proof.reverse with
    | none => pure none
    | some (hold, _) =>
        let root ← formatFelt crates hold
        pure (some root)

/-- `calculate_contract_state_hash`: `H(H(H(class_hash, root), nonce), 0)`. -/
def calculateContractStateHash (crates : Crates) (contractData : ContractData) :
    Res JsonRpcError Felt := do
  let classHash ← fieldElement crates contractData.classHash.text
  let root ← fieldElement crates contractData.root.text
  let hash := crates.pedersenHash classHash root
  let nonce ← fieldElement crates contractData.nonce.text
  let hash := crates.pedersenHash hash nonce
  let hash := crates.pedersenHash hash 0
  formatFelt crates hash

/-- `FieldElement::from_bytes_be_slice(b"STARKNET_STATE_V0")`. -/
def globalStateVersion : FieldElement :=
  FieldElement.fromBytesBe ("STARKNET_STATE_V0".toList.map fun c => bytes.digit c.toNat)

/-- `calculate_global_root`. -/
def calculateGlobalRoot (crates : Crates) (classCommitment storageCommitment : Felt) :
    Res JsonRpcError Felt := do
  let storageCommitment ← fieldElement crates storageCommitment.text
  let classCommitment ← fieldElement crates classCommitment.text
  formatFelt crates
    (crates.poseidonHashMany [globalStateVersion, storageCommitment, classCommitment])

/-- `verify_storage_proofs`. -/
def verifyStorageProofs (crates : Crates) (profile : Profile) (contractData : ContractData)
    (key : StorageKey) (value : Felt) : Res JsonRpcError Unit := do
  let root := contractData.root
  let storageProofs ← Res.okOr ⟨-32700, "No storage proof found"⟩ contractData.storageProofs
  let storageProof ← Res.index storageProofs 0
  match ← parseProof crates profile key.text value storageProof with
  | some computedRoot =>
      if computedRoot.text = root.text then pure ()
      else Res.err ⟨-32700, "Proof invalid:\nprovided-root -> " ++ Text.asString root.text ++
        "\ncomputed-root -> " ++ Text.asString computedRoot.text ++ "\n"⟩
  | none => Res.err ⟨-32700, "Proof invalid for root -> " ++ Text.asString root.text ++ "\n"⟩

/-- `verify_contract_proof`. -/
def verifyContractProof (crates : Crates) (profile : Profile) (self : GetProofResult)
    (contractData : ContractData) (globalRoot : Felt) (contractAddress : Address) :
    Res JsonRpcError Unit := do
  let stateHash ← calculateContractStateHash crates contractData
  match ← parseProof crates profile contractAddress.felt.text stateHash self.contractProof with
  | some storageCommitment =>
      let classCommitment ← Res.okOr ⟨-32700, "No class commitment"⟩ self.classCommitment
      let parsedGlobalRoot ← Res.mapErr (fun _ => ⟨-32700, "Failed to calculate global root"⟩)
        (calculateGlobalRoot crates classCommitment storageCommitment)
      let stateCommitment ← Res.okOr ⟨-32700, "No state commitment"⟩ self.stateCommitment
      if stateCommitment.text = parsedGlobalRoot.text ∧
          globalRoot.text = parsedGlobalRoot.text then pure ()
      else Res.err ⟨-32700, "Proof invalid:\nstate commitment -> " ++
        Text.asString stateCommitment.text ++ "\nparsed global root -> " ++
        Text.asString parsedGlobalRoot.text ++ "\n global root -> " ++
        Text.asString globalRoot.text⟩
  | none => Res.err ⟨-32700, "Could not parse global root for root: " ++
      Text.asString globalRoot.text⟩

/-- `GetProofResult::verify`. -/
def verify (crates : Crates) (profile : Profile) (self : GetProofResult) (globalRoot : Felt)
    (contractAddress : Address) (key : StorageKey) (value : Felt) : Res JsonRpcError Unit := do
  let contractData ← Res.okOr ⟨-32700, "No contract data found"⟩ self.contractData
  verifyStorageProofs crates profile contractData key value
  verifyContractProof crates profile self contractData globalRoot contractAddress

end GetProofResult

end Beerus
