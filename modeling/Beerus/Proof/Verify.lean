import Beerus.Proof.Starknet

/-!
What `verify` accepts.

`verify_eq_ok` reads the whole of `verify` as two walks and three equalities.
From it, the honest proof of a stored value is accepted, whatever the shape of
the two tries (`verify_proofOf`). Nothing is assumed of the hash functions for
that. The walk takes the beginning of such a proof as well, for the hash of the
node that it stops at (`proves_beginning`).
-/

namespace Beerus

open Beerus.Lib

/-- The leaf that the claimed data of a contract hashes to. -/
def ContractData.leaf (crates : Crates) (contractData : ContractData) : FieldElement :=
  contractHash crates contractData.classHash.field contractData.root.field
    contractData.nonce.field

namespace GetProofResult

variable {crates : Crates} {profile : Profile}

/-! ### The parts of the check -/

theorem calculateContractStateHash_eq (contractData : ContractData) :
    calculateContractStateHash crates contractData = .ok (.ofField (contractData.leaf crates)) := by
  simp [calculateContractStateHash, ContractData.leaf, contractHash]

/-- The root a contract trie and a class commitment make. -/
def globalRootOf (crates : Crates) (storageCommitment classCommitment : FieldElement) :
    FieldElement :=
  crates.poseidonHashMany [globalStateVersion, storageCommitment, classCommitment]

theorem calculateGlobalRoot_eq (classCommitment storageCommitment : Felt) :
    calculateGlobalRoot crates classCommitment storageCommitment =
      .ok (.ofField (globalRootOf crates storageCommitment.field classCommitment.field)) := by
  simp [calculateGlobalRoot, globalRootOf]

/-- The list passes the walk of a key down to a value, and the walk arrives at
`root`. -/
structure Proves (crates : Crates) (profile : Profile) (key : FieldElement) (value : FieldElement)
    (nodes : List Node) (root : FieldElement) : Prop where
  passes : Passes crates profile (feltToBits key.toBytesBe) value nodes
  arrives : commitment crates value nodes = root

theorem verifyStorageProofs_eq_ok {contractData : ContractData} {key : StorageKey} {value : Felt} :
    verifyStorageProofs crates profile contractData key value = .ok () ↔
      ∃ nodes others k root, contractData.storageProofs = some (nodes :: others) ∧
        crates.fromHex key.text = some k ∧ Proves crates profile k value.field nodes root ∧
        contractData.root = .ofField root := by
  simp only [verifyStorageProofs, Res.bind_eq_ok, Res.okOr_eq_ok, Res.index_eq_ok]
  constructor
  · rintro ⟨proofs, present, nodes, first, parsed, parse, done⟩
    cases parsed with
    | none => simp at done
    | some computed =>
        obtain ⟨k, literal, passes, rfl⟩ := parseProof_eq_some.mp parse
        obtain ⟨others, rfl⟩ : ∃ others, proofs = nodes :: others := by
          cases proofs with
          | nil => simp at first
          | cons head others => exact ⟨others, by simpa using first⟩
        refine ⟨nodes, others, k, _, present, literal, ⟨passes, rfl⟩, ?_⟩
        by_cases same : (Felt.ofField (commitment crates value.field nodes)).text =
            contractData.root.text
        · exact (Felt.text_inj.mp same).symm
        · simp only [same, if_false, Res.err_ne_ok] at done
  · rintro ⟨nodes, others, k, root, present, literal, ⟨passes, rfl⟩, top⟩
    refine ⟨_, present, nodes, rfl, _, parseProof_eq_some.mpr ⟨k, literal, passes, rfl⟩, ?_⟩
    simp [top]

theorem verifyContractProof_eq_ok {self : GetProofResult} {contractData : ContractData}
    {globalRoot : Felt} {contractAddress : Address} :
    verifyContractProof crates profile self contractData globalRoot contractAddress = .ok () ↔
      ∃ classCommitment root, self.classCommitment = some classCommitment ∧
        Proves crates profile contractAddress.felt.field (contractData.leaf crates)
          self.contractProof root ∧
        self.stateCommitment = some (.ofField (globalRootOf crates root classCommitment.field)) ∧
        globalRoot = .ofField (globalRootOf crates root classCommitment.field) := by
  simp only [verifyContractProof, calculateContractStateHash_eq, Res.ok_bind, Res.bind_eq_ok]
  constructor
  · rintro ⟨parsed, parse, done⟩
    cases parsed with
    | none => simp at done
    | some commitment =>
        obtain ⟨a, literal, passes, rfl⟩ := parseProof_eq_some.mp parse
        obtain rfl : contractAddress.felt.field = a := by simpa using literal
        rw [Felt.field_ofField] at passes
        simp only [Res.bind_eq_ok, Res.okOr_eq_ok, calculateGlobalRoot_eq, Res.mapErr_ok,
          Except.ok.injEq, exists_eq_left', Felt.field_ofField] at done
        obtain ⟨classCommitment, declared, stateCommitment, committed, done⟩ := done
        refine ⟨classCommitment, _, declared, ⟨passes, rfl⟩, ?_⟩
        split at done
        · next same =>
            obtain ⟨state, global⟩ := same
            exact ⟨committed.trans (congrArg some (Felt.text_inj.mp state)),
              Felt.text_inj.mp global⟩
        · simp at done
  · rintro ⟨classCommitment, root, declared, ⟨passes, rfl⟩, committed, rfl⟩
    refine ⟨_, parseProof_eq_some.mpr ⟨contractAddress.felt.field, by simp, ?_, rfl⟩, ?_⟩
    · rwa [Felt.field_ofField]
    · simp [declared, committed, calculateGlobalRoot_eq]

/-- `verify` accepts a value exactly when one list leads from it to the
contract's storage root along the key, another one leads from the contract's
leaf along the address to a trie root, and that root and the class commitment
make the global root. -/
theorem verify_eq_ok {self : GetProofResult} {globalRoot : Felt} {contractAddress : Address}
    {key : StorageKey} {value : Felt} :
    verify crates profile self globalRoot contractAddress key value = .ok () ↔
      ∃ contractData nodes others k storageRoot classCommitment root,
        self.contractData = some contractData ∧
        contractData.storageProofs = some (nodes :: others) ∧
        crates.fromHex key.text = some k ∧
        Proves crates profile k value.field nodes storageRoot ∧
        contractData.root = .ofField storageRoot ∧
        self.classCommitment = some classCommitment ∧
        Proves crates profile contractAddress.felt.field (contractData.leaf crates)
          self.contractProof root ∧
        self.stateCommitment = some (.ofField (globalRootOf crates root classCommitment.field)) ∧
        globalRoot = .ofField (globalRootOf crates root classCommitment.field) := by
  simp only [verify, Res.bind_eq_ok, Res.okOr_eq_ok, verifyContractProof_eq_ok]
  constructor
  · rintro ⟨contractData, present, _, checked, classCommitment, root, declared, contract,
      committed, global⟩
    obtain ⟨nodes, others, k, storageRoot, listed, literal, storage, top⟩ :=
      verifyStorageProofs_eq_ok.mp checked
    exact ⟨contractData, nodes, others, k, storageRoot, classCommitment, root, present, listed,
      literal, storage, top, declared, contract, committed, global⟩
  · rintro ⟨contractData, nodes, others, k, storageRoot, classCommitment, root, present, listed,
      literal, storage, top, declared, contract, committed, global⟩
    have checked := verifyStorageProofs_eq_ok.mpr
      ⟨nodes, others, k, storageRoot, listed, literal, storage, top⟩
    exact ⟨contractData, present, (), checked, classCommitment, root, declared, contract,
      committed, global⟩

end GetProofResult

/-! ### The honest proof -/

/-- The proof of a key of a contract: the nodes on the two paths, from the root
down, and the data they are hashed with. Further storage proofs are ignored. -/
def StarknetState.proofOf (crates : Crates) (state : StarknetState) (contract : Contract)
    (address key : Nat) (others : List Proof) : GetProofResult where
  classCommitment := some (.ofField state.classCommitment)
  contractData := some
    { classHash := .ofField contract.classHash
      nonce := .ofField contract.nonce
      root := .ofField (contract.storageRoot crates)
      storageProofs := some
        ((pathIn (nodeHash crates) contract.storage (pathOf key)).map Node.ofPathNode :: others) }
  contractProof :=
    (pathIn (nodeHash crates) (state.contractTrie crates) (pathOf address)).map Node.ofPathNode
  stateCommitment := some (.ofField (state.root crates))

open GetProofResult

/-- The nodes on the path of a stored number pass the walk of any key that
denotes it. -/
theorem proves_of_lookupIn {crates : Crates} {profile : Profile}
    {t : Option (Patricia FieldElement)} {n : Nat} {v : FieldElement}
    (tall : ∀ u ∈ t, u.HasHeight 251) (small : n < 2 ^ 251)
    (stored : lookupIn t (pathOf n) = some v) :
    Proves crates profile (.ofNat n) v
      ((pathIn (nodeHash crates) t (pathOf n)).map Node.ofPathNode)
      (rootOf (nodeHash crates) t) := by
  cases t with
  | none => simp [lookupIn] at stored
  | some u =>
      have shape : u.HasHeight (pathOf n).length := by
        rw [length_pathOf]
        exact tall u rfl
      have opens := @Patricia.opens_pathNodes _ (nodeHash crates) u (pathOf n) v shape stored
      obtain ⟨passes, arrives, -⟩ :=
        @passes_of_opens crates profile _ [] (pathOf n) v _ (length_pathOf n) opens
      refine ⟨?_, arrives⟩
      rw [feltToBits_ofNat small]
      exact passes

/-- The nodes above any other one on the path of a stored number prove the hash of
that node, for the number that the bits they lead along denote, though they do
not cover the path of it. -/
theorem proves_beginning {crates : Crates} {profile : Profile} {t : Patricia FieldElement}
    {n : Nat} {v : FieldElement} {above below : List (PathNode FieldElement)}
    {next : PathNode FieldElement} (tall : t.HasHeight 251)
    (stored : t.lookup (pathOf n) = some v)
    (split : t.pathNodes (nodeHash crates) (pathOf n) = above ++ next :: below) :
    ∃ front, front <+: pathOf n ∧
      Proves crates profile (.ofNat (binary.value front)) (nodeHash crates next)
        (above.map Node.ofPathNode) (t.root (nodeHash crates)) ∧
      ¬ CoversPath crates (pathOf (binary.value front)) (nodeHash crates next)
        (above.map Node.ofPathNode) := by
  have shape : t.HasHeight (pathOf n).length := (length_pathOf n).symm ▸ tall
  have opens := @Patricia.opens_pathNodes _ (nodeHash crates) t (pathOf n) v shape stored
  rw [split] at opens
  obtain ⟨front, rest, mid, key, upper, lower⟩ := opens.split
  obtain ⟨rfl, long⟩ := lower.of_cons
  have count : front.length + rest.length = 251 := by
    rw [← List.length_append, ← key, length_pathOf]
  have short : front.length ≤ 251 := by omega
  have small : binary.value front < 2 ^ 251 :=
    (binary.value_lt front).trans_le (Nat.pow_le_pow_right (by decide) short)
  have full : (List.replicate (251 - front.length) false ++ front).length = 251 := by
    rw [← pathOf_value short, length_pathOf]
  obtain ⟨passes, arrives, -⟩ := @passes_of_opens crates profile _ _ _ _ _ full upper
  obtain ⟨-, total, -⟩ := @chain_of_opens crates _ _ _ _ _ full upper
  refine ⟨front, ⟨rest, key.symm⟩, ⟨?_, arrives⟩, fun covers => ?_⟩
  · rw [feltToBits_ofNat small, pathOf_value short]
    exact passes
  · have := covers.total
    omega

/-- The nodes on the path of a deployed contract prove its leaf. -/
theorem proves_contract {crates : Crates} {profile : Profile} {state : StarknetState}
    {contract : Contract} {address : Address} (low : address.felt.number < 2 ^ 251)
    (deployed : state.contractAt address.felt.number = some contract) :
    Proves crates profile address.felt.field (contract.leaf crates)
      ((pathIn (nodeHash crates) (state.contractTrie crates) (pathOf address.felt.number)).map
        Node.ofPathNode)
      (rootOf (nodeHash crates) (state.contractTrie crates)) := by
  apply proves_of_lookupIn state.tall_contractTrie low
  rw [StarknetState.lookupIn_contractTrie, deployed, Option.map_some]

theorem StarknetState.leaf_proofOf (crates : Crates) (state : StarknetState) (contract : Contract)
    (address key : Nat) (others : List Proof) :
    ∀ data ∈ (state.proofOf crates contract address key others).contractData,
      data.leaf crates = contract.leaf crates := by
  rintro _ ⟨⟩
  simp [ContractData.leaf, Contract.leaf]

/-- Every stored value is accepted with its honest proof. -/
theorem verify_proofOf (crates : Crates) (profile : Profile) (state : StarknetState)
    {contract : Contract} {address : Address} {key : StorageKey} {value : Felt} {k : Nat}
    (others : List Proof) (low : address.felt.number < 2 ^ 251)
    (literal : hexLiteral key.text = some k) (small : k < 2 ^ 251)
    (deployed : state.contractAt address.felt.number = some contract)
    (stored : lookupIn contract.storage (pathOf k) = some value.field) :
    verify crates profile (state.proofOf crates contract address.felt.number k others)
      (.ofField (state.root crates)) address key value = .ok () := by
  have storage := @proves_of_lookupIn crates profile _ _ _ contract.tall small stored
  have contracts := @proves_contract crates profile _ _ _ low deployed
  refine verify_eq_ok.mpr ⟨_, _, others, .ofNat k, contract.storageRoot crates,
    .ofField state.classCommitment, rootOf (nodeHash crates) (state.contractTrie crates), rfl, rfl,
    ?_, storage, rfl, rfl, ?_, ?_, ?_⟩
  · exact crates.fromHex_of_literal literal
  · rw [state.leaf_proofOf crates contract address.felt.number k others _ rfl]
    exact contracts
  · simp [StarknetState.proofOf, StarknetState.root, globalRootOf]
  · simp [StarknetState.root, globalRootOf]

/-- A contract with two slots: `0x2a` at `0x5`, and `0x7` at `2 ^ 250 + 0x3`. -/
def sampleContract : Contract where
  classHash := .ofNat 0x11
  nonce := .ofNat 0x1
  storage := some (.binary (.edge (binary.numeral 250 0x5) (.leaf (.ofNat 0x2a)))
    (.edge (binary.numeral 250 0x3) (.leaf (.ofNat 0x7))))
  tall := by
    rintro t ⟨⟩
    decide +kernel

/-- A state with this one contract, at address `0x1234`. -/
def sampleState : StarknetState where
  contracts := some (.edge (pathOf 0x1234) (.leaf sampleContract))
  tall := by
    rintro t ⟨⟩
    decide +kernel
  classCommitment := .ofNat 0x99

/-- The hashes that make up the root of the state, and Pedersen of `(0xbad, 0)`. -/
def sampleHashes : Crates := Crates.ofTables
  [((0x2a, 0x5), 0x6c26432ba65d1be87779446587b2ed93a235f90a6b83c2b0da3996fb164805),
    ((0x7, 0x3), 0x30b45a940d62f6fba1ff07ce51896247274f2b6e0db70b386e80f96d9ccf598),
    ((0x6c26432ba65d1be87779446587b2ed93a235f90a6b83c2b0da3996fb1648ff,
        0x30b45a940d62f6fba1ff07ce51896247274f2b6e0db70b386e80f96d9ccf692),
      0x362c78389536c7e041bdac6084090f529cd695c7ce7b7eae3160d336a868808),
    ((0x11, 0x362c78389536c7e041bdac6084090f529cd695c7ce7b7eae3160d336a868808),
      0x75fce4458b2cc5974910fcfb936a6d71ca79df8705b8f7f3a09d4cdcddd172b),
    ((0x75fce4458b2cc5974910fcfb936a6d71ca79df8705b8f7f3a09d4cdcddd172b, 0x1),
      0x7cae1c9243ee1ebf7166cc52a94f1fa8352def1faabb083f81bfc27b9fa94c6),
    ((0x7cae1c9243ee1ebf7166cc52a94f1fa8352def1faabb083f81bfc27b9fa94c6, 0x0),
      0x1b7aa3f5b3419dde194c51b34fa0513043790b2e0354d3439ae43171270a905),
    ((0x1b7aa3f5b3419dde194c51b34fa0513043790b2e0354d3439ae43171270a905, 0x1234),
      0x1602a9de6c02eb97f42c8351e488ffba92a1ed52420231149c8f18473966c11),
    ((0xbad, 0x0), 0x4347c6d741e478ee8592e8b446a6430584e0aacb46570355081bc8f920e6148)]
  [([0x535441524b4e45545f53544154455f5630,
      0x1602a9de6c02eb97f42c8351e488ffba92a1ed52420231149c8f18473966d0c, 0x99],
    0x2295816bec83ce7aec976c9be48fde42377f09c859ac8e66dae96fd21b9eac3)]

/-- The address of the contract. -/
def sampleAddress : Address := ⟨.ofNat 0x1234⟩

/-- The key `0x5`. -/
def sampleKey : StorageKey := ⟨"0x05".toList, rfl⟩

/-- The honest proof of the state's slot at `0x5`. -/
def sampleProof : GetProofResult :=
  sampleState.proofOf sampleHashes sampleContract sampleAddress.felt.number 0x5 []

theorem sampleContract_deployed :
    sampleState.contractAt sampleAddress.felt.number = some sampleContract := by
  have address : sampleAddress.felt.number = 0x1234 := by decide +kernel
  rw [address]
  simp [StarknetState.contractAt, sampleState, lookupIn, Patricia.lookup]

theorem sample_verify_proofOf :
    verify sampleHashes .release sampleProof (.ofField (sampleState.root sampleHashes))
      sampleAddress sampleKey (.ofNat 0x2a) = .ok () :=
  verify_proofOf sampleHashes .release sampleState [] (by decide +kernel) (by decide +kernel)
    (by norm_num) sampleContract_deployed (by decide +kernel)

end Beerus
