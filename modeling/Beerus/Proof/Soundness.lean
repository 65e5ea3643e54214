import Beerus.Proof.Verify

/-!
What an accepted proof says about the state.

Where the hash functions have no collision among what is hashed, the only value
that `verify` can accept at the root of a state is the stored one, provided
that both node lists are chains over the whole path (`verify_sound`). The walk
itself does not ensure that: `forgedProof_accepted` is a proof of an arbitrary value
for a key that stores another one.
-/

namespace Beerus

open Beerus.Lib

/-! ### Collisions of node hashes -/

/-- Collision-freeness on finitely many inputs, as node hashes need it: adding
edge lengths does not bring the hashes of two inputs together, nor one to
zero. -/
structure NodeCollisionFree (hash : FieldElement → FieldElement → FieldElement)
    (inputs : List (FieldElement × FieldElement)) : Prop where
  apart : ∀ a ∈ inputs, ∀ b ∈ inputs, ∀ m n, m ≤ 251 → n ≤ 251 →
    hash a.1 a.2 + .ofNat m = hash b.1 b.2 + .ofNat n → a = b
  nonzero : ∀ a ∈ inputs, ∀ m, m ≤ 251 → hash a.1 a.2 + .ofNat m ≠ 0

namespace NodeCollisionFree

variable {hash : FieldElement → FieldElement → FieldElement}
  {xs ys : List (FieldElement × FieldElement)}

theorem mono (free : NodeCollisionFree hash ys) (sub : ∀ a ∈ xs, a ∈ ys) :
    NodeCollisionFree hash xs where
  apart a ha b hb := free.apart a (sub a ha) b (sub b hb)
  nonzero a ha := free.nonzero a (sub a ha)

theorem collisionFree (free : NodeCollisionFree hash xs) : CollisionFree hash xs := by
  intro a ha b hb same
  apply free.apart a ha b hb 0 0 (Nat.zero_le _) (Nat.zero_le _)
  rw [same]

theorem val_sub_le {x y : FieldElement} {m n : Nat} (high : n ≤ 251) (le : m ≤ n)
    (same : x + .ofNat m = y + .ofNat n) : (x - y).val ≤ 251 := by
  have split : FieldElement.ofNat n = .ofNat (n - m) + .ofNat m := by
    apply Fin.ext
    simp only [FieldElement.ofNat_val, Fin.val_add, ← Nat.add_mod]
    rw [Nat.sub_add_cancel le]
  have gap : x - y = .ofNat (n - m) := by
    rw [split, ← add_assoc] at same
    rw [add_right_cancel same, add_sub_cancel_left]
  rw [gap, FieldElement.ofNat_val]
  exact (Nat.mod_le _ _).trans (by omega)

/-- Whether the hashes of the inputs lie more than an edge length apart, and
more than one below zero. -/
def spaced (hash : FieldElement → FieldElement → FieldElement)
    (inputs : List (FieldElement × FieldElement)) : Bool :=
  inputs.all fun a => decide (251 < (0 - hash a.1 a.2).val) &&
    inputs.all fun b => a == b || decide (251 < (hash a.1 a.2 - hash b.1 b.2).val)

theorem of_spaced (far : spaced hash xs = true) : NodeCollisionFree hash xs := by
  simp only [spaced, List.all_eq_true, Bool.and_eq_true, Bool.or_eq_true, beq_iff_eq,
    decide_eq_true_eq] at far
  constructor
  · intro a ha b hb m n hm hn same
    rcases Nat.le_total m n with le | le
    · have near := val_sub_le hn le same
      exact ((far a ha).2 b hb).resolve_right (by omega)
    · have near := val_sub_le hm le same.symm
      exact (((far b hb).2 a ha).resolve_right (by omega)).symm
  · intro a ha m hm zero
    have near : (0 - hash a.1 a.2).val ≤ 251 := by
      apply @val_sub_le _ _ 0 m hm (Nat.zero_le _)
      rw [zero]
      rfl
    have := (far a ha).1
    omega

end NodeCollisionFree

/-- The length that a node hash adds. -/
def nodeTag : PathNode FieldElement → Nat
  | .binary _ _ => 0
  | .edge _ path => path.length

section Nodes

variable {crates : Crates} {profile : Profile} {inputs : List (FieldElement × FieldElement)}

theorem nodeHash_eq (n : PathNode FieldElement) :
    nodeHash crates n =
      crates.pedersenHash (nodeInput n).1 (nodeInput n).2 + .ofNat (nodeTag n) := by
  cases n with
  | binary left right => exact (add_zero _).symm
  | edge child path => rfl

theorem nodeTag_le {n : PathNode FieldElement} (fits : n.Fits 251) : nodeTag n ≤ 251 := by
  cases n with
  | binary left right => exact Nat.zero_le _
  | edge child path => exact fits.2

/-- Nodes that fit into a trie and hash the listed inputs have different
hashes. -/
theorem nodeHash_injOn (free : NodeCollisionFree crates.pedersenHash inputs) :
    Set.InjOn (nodeHash crates) {n | n.Fits 251 ∧ nodeInput n ∈ inputs} := by
  rintro a ⟨fitsA, inA⟩ b ⟨fitsB, inB⟩ same
  rw [nodeHash_eq, nodeHash_eq] at same
  have input := free.apart _ inA _ inB _ _ (nodeTag_le fitsA) (nodeTag_le fitsB) same
  rw [input] at same
  have tag : nodeTag a = nodeTag b := by
    refine FieldElement.ofNat_inj ?_ ?_ (add_left_cancel same)
    · exact (nodeTag_le fitsA).trans_lt (by norm_num)
    · exact (nodeTag_le fitsB).trans_lt (by norm_num)
  cases a with
  | binary left right =>
      cases b with
      | binary left' right' => simpa [nodeInput] using input
      | edge child path => exact absurd (List.length_eq_zero_iff.mp tag.symm) fitsB.1
  | edge child path =>
      cases b with
      | binary left right => exact absurd (List.length_eq_zero_iff.mp tag) fitsA.1
      | edge child' path' =>
          simp only [nodeInput, Prod.mk.injEq] at input
          have small : ∀ p : List Bool, p.length ≤ 251 → binary.value p < 2 ^ 251 := fun p short =>
            (binary.value_lt p).trans_le (Nat.pow_le_pow_right (by decide) short)
          have value := FieldElement.ofNat_inj (small path fitsA.2) (small path' fitsB.2) input.2
          rw [input.1, binary.value_inj tag value]

open GetProofResult

/-- A list that passes the walk is a chain over the whole path. -/
def Whole (crates : Crates) (profile : Profile) (n : Nat) (value : FieldElement)
    (nodes : List Node) : Prop :=
  Passes crates profile (pathOf n) value nodes →
    SpansPath nodes ∧ InnerEdgesCommit crates (pathOf n) nodes

/-- A chain over the whole path that arrives at the root of a trie leads to the
stored value. -/
theorem lookupIn_of_proves (free : NodeCollisionFree crates.pedersenHash inputs)
    {t : Option (Patricia FieldElement)} {n : Nat} {v : FieldElement} {nodes : List Node}
    (tall : ∀ u ∈ t, u.HasHeight 251) (small : n < 2 ^ 251)
    (proves : Proves crates profile (.ofNat n) v nodes (rootOf (nodeHash crates) t))
    (whole : Whole crates profile n v nodes)
    (inTrie : ∀ a ∈ (nodesIn (nodeHash crates) t).map nodeInput, a ∈ inputs)
    (inWalk : ∀ a ∈ pedersenInputs crates (pathOf n) v nodes, a ∈ inputs) :
    lookupIn t (pathOf n) = some v := by
  obtain ⟨passes, arrives⟩ := proves
  rw [feltToBits_ofNat small] at passes
  obtain ⟨⟨total, positive⟩, inner⟩ := whole passes
  have freeWalk := free.collisionFree.mono inWalk
  have chain := linkedChain_of_passes (length_pathOf n) freeWalk passes inner
  obtain ⟨list, opens, known⟩ := opens_of_chain (length_pathOf n) chain positive total.le
  have start : (pathOf n).drop (251 - levels nodes).toNat = pathOf n := by
    rw [total]
    rfl
  rw [start, arrives] at opens
  refine lookupIn_of_opens (nodeHash_injOn free) ?_ opens (by simp) ?_ ?_ ?_
  · rintro node ⟨fits, known⟩
    rw [nodeHash_eq]
    exact free.nonzero _ known _ (nodeTag_le fits)
  · rw [length_pathOf]
    exact tall
  · intro node mem
    refine ⟨?_, inTrie _ (List.mem_map_of_mem mem)⟩
    cases t with
    | none => simp [nodesIn] at mem
    | some u => exact Patricia.fits_of_mem_allNodes (tall u rfl) mem
  · intro node mem
    obtain ⟨fits, input⟩ := known node mem
    obtain ⟨sent, mem, same⟩ := List.mem_map.mp input
    exact ⟨fits, same ▸ inWalk _ (Node.input_mem mem)⟩

/-- The nodes on the path of a stored number are a chain over the whole path,
whatever value they are checked for. -/
theorem whole_pathIn {t : Option (Patricia FieldElement)} {n : Nat} {v value : FieldElement}
    (tall : ∀ u ∈ t, u.HasHeight 251) (stored : lookupIn t (pathOf n) = some v) :
    Whole crates profile n value ((pathIn (nodeHash crates) t (pathOf n)).map Node.ofPathNode) := by
  intro _
  cases t with
  | none => simp [lookupIn] at stored
  | some u =>
      have shape : u.HasHeight (pathOf n).length := by
        rw [length_pathOf]
        exact tall u rfl
      have opens := @Patricia.opens_pathNodes _ (nodeHash crates) u (pathOf n) v shape stored
      obtain ⟨chain, total, positive⟩ :=
        @chain_of_opens crates _ [] (pathOf n) v _ (length_pathOf n) opens
      rw [length_pathOf] at total
      exact ⟨⟨total, positive⟩, chain.innerEdges⟩

end Nodes

/-! ### The whole check -/

/-- What hashing a contract's leaf applies Pedersen to. -/
def contractInputs (crates : Crates) (classHash storageRoot nonce : FieldElement) :
    List (FieldElement × FieldElement) :=
  [(classHash, storageRoot), (crates.pedersenHash classHash storageRoot, nonce),
    (crates.pedersenHash (crates.pedersenHash classHash storageRoot) nonce, 0)]

/-- What hashing a state down to one contract's storage applies Pedersen to. -/
def StarknetState.inputs (crates : Crates) (state : StarknetState) (address : Nat) :
    List (FieldElement × FieldElement) :=
  (nodesIn (nodeHash crates) (state.contractTrie crates)).map nodeInput ++
    (state.contractAt address).elim [] fun contract =>
      contractInputs crates contract.classHash (contract.storageRoot crates) contract.nonce ++
        (nodesIn (nodeHash crates) contract.storage).map nodeInput

/-- What the check of a proof applies Pedersen to. -/
def GetProofResult.inputs (crates : Crates) (self : GetProofResult) (address key : Nat)
    (value : FieldElement) : List (FieldElement × FieldElement) :=
  self.contractData.elim [] fun contractData =>
    contractInputs crates contractData.classHash.field contractData.root.field
        contractData.nonce.field ++
      (pedersenInputs crates (pathOf key) value
          ((contractData.storageProofs.bind List.head?).getD []) ++
        pedersenInputs crates (pathOf address) (contractData.leaf crates) self.contractProof)

/-- The hash functions have no collision between what a state and the check of
a proof hash. -/
structure HashesFree (crates : Crates) (state : StarknetState) (proof : GetProofResult)
    (address key : Nat) (value : FieldElement) : Prop where
  pedersen : NodeCollisionFree crates.pedersenHash
    (state.inputs crates address ++ proof.inputs crates address key value)
  poseidon : ∀ contractData ∈ proof.contractData, ∀ classCommitment ∈ proof.classCommitment,
    GetProofResult.globalRootOf crates
        (commitment crates (contractData.leaf crates) proof.contractProof) classCommitment.field =
      state.root crates →
    commitment crates (contractData.leaf crates) proof.contractProof =
        rootOf (nodeHash crates) (state.contractTrie crates) ∧
      classCommitment.field = state.classCommitment

/-- The first storage list, where it passes the walk, is a chain over the whole
path, and where it proves the value under the contract's root, so is the list of
the contract. -/
def GetProofResult.WholeLists (crates : Crates) (profile : Profile) (self : GetProofResult)
    (address key : Nat) (value : FieldElement) : Prop :=
  ∀ contractData ∈ self.contractData, ∀ nodes others,
    contractData.storageProofs = some (nodes :: others) →
      Whole crates profile key value nodes ∧
        ∀ root, Proves crates profile (.ofNat key) value nodes root →
          contractData.root = .ofField root →
            Whole crates profile address (contractData.leaf crates) self.contractProof

section Verify

variable {crates : Crates} {profile : Profile}

theorem contractHash_inj {inputs : List (FieldElement × FieldElement)}
    (free : CollisionFree crates.pedersenHash inputs) {c r n c' r' n' : FieldElement}
    (listed : ∀ a ∈ contractInputs crates c r n, a ∈ inputs)
    (listed' : ∀ a ∈ contractInputs crates c' r' n', a ∈ inputs)
    (same : contractHash crates c r n = contractHash crates c' r' n') :
    c = c' ∧ r = r' ∧ n = n' := by
  simp only [contractInputs, List.forall_mem_cons] at listed listed'
  obtain ⟨first, second, third, -⟩ := listed
  obtain ⟨first', second', third', -⟩ := listed'
  have outer := free _ third _ third' same
  have middle := free _ second _ second' (congrArg Prod.fst outer)
  have inmost := free _ first _ first' (congrArg Prod.fst middle)
  exact ⟨congrArg Prod.fst inmost, congrArg Prod.snd inmost, congrArg Prod.snd middle⟩

/-- An accepted value is the stored one, where both node lists are chains over
the whole path. -/
theorem verify_sound {state : StarknetState} {self : GetProofResult} {globalRoot value : Felt}
    {address : Address} {key : StorageKey} {k : Nat} (low : address.felt.number < 2 ^ 251)
    (literal : hexLiteral key.text = some k) (small : k < 2 ^ 251)
    (committed : globalRoot.field = state.root crates)
    (free : HashesFree crates state self address.felt.number k value.field)
    (whole : self.WholeLists crates profile address.felt.number k value.field)
    (accepted : GetProofResult.verify crates profile self globalRoot address key value = .ok ()) :
    state.storedAt address.felt.number k = some value.field := by
  obtain ⟨data, nodes, others, k', storageRoot, classCommitment, root, present, listed, literal',
    storage, top, declared, contracts, -, global⟩ := GetProofResult.verify_eq_ok.mp accepted
  obtain rfl := Option.some.inj ((crates.fromHex_of_literal literal).symm.trans literal')
  obtain ⟨wholeStorage, wholeContracts⟩ := whole data present nodes others listed
  have inputs : ∀ {a}, a ∈ contractInputs crates data.classHash.field data.root.field
        data.nonce.field ++ (pedersenInputs crates (pathOf k) value.field nodes ++
          pedersenInputs crates (pathOf address.felt.number) (data.leaf crates)
            self.contractProof) →
      a ∈ state.inputs crates address.felt.number ++
        self.inputs crates address.felt.number k value.field := by
    intro a mem
    apply List.mem_append_right
    simpa [GetProofResult.inputs, present, listed] using mem
  -- The global root fixes the root of the contract trie, so the list opens it.
  have roots := (free.poseidon data present classCommitment declared (by
    rw [contracts.arrives, ← committed, global, Felt.field_ofField])).1
  rw [contracts.arrives] at roots
  subst roots
  have leaf := lookupIn_of_proves free.pedersen state.tall_contractTrie low contracts
    (wholeContracts storageRoot storage top)
    (fun a mem => List.mem_append_left _ (List.mem_append_left _ mem))
    (fun a mem => inputs (List.mem_append_right _ (List.mem_append_right _ mem)))
  rw [StarknetState.lookupIn_contractTrie] at leaf
  obtain ⟨contract, deployed, same⟩ := Option.map_eq_some_iff.mp leaf
  have contractSide : ∀ {a}, a ∈ contractInputs crates contract.classHash
        (contract.storageRoot crates) contract.nonce ++
          (nodesIn (nodeHash crates) contract.storage).map nodeInput →
      a ∈ state.inputs crates address.felt.number ++
        self.inputs crates address.felt.number k value.field := by
    intro a mem
    refine List.mem_append_left _ (List.mem_append_right _ ?_)
    rwa [deployed]
  -- The leaf fixes the contract's storage root, so the other list opens that.
  obtain ⟨-, storageRoots, -⟩ := contractHash_inj free.pedersen.collisionFree
    (fun a mem => contractSide (List.mem_append_left _ mem))
    (fun a mem => inputs (List.mem_append_left _ mem)) same
  rw [top, Felt.field_ofField] at storageRoots
  subst storageRoots
  have value := lookupIn_of_proves free.pedersen contract.tall small storage wholeStorage
    (fun a mem => contractSide (List.mem_append_right _ mem))
    (fun a mem => inputs (List.mem_append_right _ (List.mem_append_left _ mem)))
  rw [StarknetState.storedAt, deployed]
  exact value

end Verify

theorem sampleProof_hashesFree :
    HashesFree sampleHashes sampleState sampleProof sampleAddress.felt.number 0x5
      (Felt.ofNat 0x2a).field := by
  constructor
  · exact .of_spaced (by decide +kernel)
  · rintro _ ⟨⟩ _ ⟨⟩ -
    constructor
    · decide +kernel
    · decide +kernel

theorem sampleProof_wholeLists :
    sampleProof.WholeLists sampleHashes .release sampleAddress.felt.number 0x5
      (Felt.ofNat 0x2a).field := by
  have leaf : lookupIn (sampleState.contractTrie sampleHashes)
      (pathOf sampleAddress.felt.number) = some (sampleContract.leaf sampleHashes) := by
    rw [StarknetState.lookupIn_contractTrie, sampleContract_deployed, Option.map_some]
  have slot : lookupIn sampleContract.storage (pathOf 0x5) = some (.ofNat 0x2a) := by
    decide +kernel
  rintro _ ⟨⟩ _ _ ⟨⟩
  refine ⟨whole_pathIn sampleContract.tall slot, fun _ _ _ => ?_⟩
  exact whole_pathIn sampleState.tall_contractTrie leaf

theorem sampleProof_sound :
    sampleState.storedAt sampleAddress.felt.number 0x5 = some (Felt.ofNat 0x2a).field :=
  verify_sound (by decide +kernel) (by decide +kernel : hexLiteral sampleKey.text = some 0x5)
    (by norm_num) (Felt.field_ofField _) sampleProof_hashesFree sampleProof_wholeLists
    (by decide +kernel)

/-- The same proof with one more node below the edge that holds the value: an
edge of no length, which commits to any value. -/
def forgedProof : GetProofResult :=
  { sampleProof with
    contractData := sampleProof.contractData.map fun contractData =>
      { contractData with
        storageProofs := some
          [(pathIn (nodeHash sampleHashes) sampleContract.storage (pathOf 0x5)).map
              Node.ofPathNode ++ [.edgeNode (.ofNat 0xbad) ⟨0, .ofNat 0x0⟩]] } }

theorem forgedProof_accepted :
    HashesFree sampleHashes sampleState forgedProof sampleAddress.felt.number 0x5
        (Felt.ofNat 0xbad).field ∧
      GetProofResult.verify sampleHashes .release forgedProof
          (.ofField (sampleState.root sampleHashes)) sampleAddress sampleKey (.ofNat 0xbad) =
        .ok () ∧
      sampleState.storedAt sampleAddress.felt.number 0x5 ≠ some (Felt.ofNat 0xbad).field := by
  refine ⟨⟨.of_spaced (by decide +kernel), ?_⟩, by decide +kernel, ?_⟩
  · rintro _ ⟨⟩ _ ⟨⟩ -
    constructor
    · decide +kernel
    · decide +kernel
  · have stored : sampleState.storedAt sampleAddress.felt.number 0x5 =
        some (Felt.ofNat 0x2a).field := by
      rw [StarknetState.storedAt, sampleContract_deployed]
      decide +kernel
    rw [stored]
    decide +kernel

end Beerus
