import Beerus.Lib.Patricia
import Beerus.Proof.Chain

/-!
The state that a proof is about.

A Starknet state is a trie of contracts of height 251, each contract with a
storage trie of height 251 of its own, and a commitment to the declared
classes. It is stated here in its own terms, apart from the code: tries are
`Patricia` tries, and `nodeHash` is the hash they are built with.

The two directions between tries and the node lists of the RPC:

* `passes_of_opens`: the nodes of a path, in the RPC's form, pass the walk.
* `opens_of_chain`: a linked chain of positive lengths opens the key bits it
  covers.
-/

namespace Beerus

open Beerus.Lib

/-! ### The state -/

/-- The path of a number in a trie of height 251. -/
def pathOf (n : Nat) : List Bool := binary.numeral 251 n

@[simp] theorem length_pathOf (n : Nat) : (pathOf n).length = 251 := binary.length_numeral 251 n

/-- The path of the number that some bits denote. -/
theorem pathOf_value {bits : List Bool} (short : bits.length ≤ 251) :
    pathOf (binary.value bits) = List.replicate (251 - bits.length) false ++ bits := by
  have pad := binary.numeral_pad (251 - bits.length) (binary.value_lt bits)
  rw [Nat.sub_add_cancel short, binary.numeral_value] at pad
  exact pad

/-- The walk of a key follows its path. -/
theorem feltToBits_ofNat {n : Nat} (small : n < 2 ^ 251) :
    feltToBits (FieldElement.ofNat n).toBytesBe = pathOf n := by
  rw [feltToBits_toBytesBe, FieldElement.ofNat_val_of_lt (small.trans two_pow_251_lt_prime),
    pathOf]

/-- The hash of a trie node. -/
def nodeHash (crates : Crates) : PathNode FieldElement → FieldElement
  | .binary left right => crates.pedersenHash left right
  | .edge child path =>
      crates.pedersenHash child (.ofNat (binary.value path)) + .ofNat path.length

/-- What a contract's leaf commits to. -/
def contractHash (crates : Crates) (classHash storageRoot nonce : FieldElement) : FieldElement :=
  crates.pedersenHash (crates.pedersenHash (crates.pedersenHash classHash storageRoot) nonce) 0

/-- A deployed contract. -/
structure Contract where
  classHash : FieldElement
  nonce : FieldElement
  storage : Option (Patricia FieldElement)
  tall : ∀ t ∈ storage, t.HasHeight 251

/-- The root of a contract's storage trie. -/
def Contract.storageRoot (crates : Crates) (contract : Contract) : FieldElement :=
  rootOf (nodeHash crates) contract.storage

/-- The leaf of a contract. -/
def Contract.leaf (crates : Crates) (contract : Contract) : FieldElement :=
  contractHash crates contract.classHash (contract.storageRoot crates) contract.nonce

/-- A state of the network. -/
structure StarknetState where
  contracts : Option (Patricia Contract)
  tall : ∀ t ∈ contracts, t.HasHeight 251
  classCommitment : FieldElement

namespace StarknetState

/-- The trie of the contracts' leaves. -/
def contractTrie (crates : Crates) (state : StarknetState) : Option (Patricia FieldElement) :=
  state.contracts.map (·.map (Contract.leaf crates))

/-- The root that commits to a state. -/
def root (crates : Crates) (state : StarknetState) : FieldElement :=
  crates.poseidonHashMany [GetProofResult.globalStateVersion,
    rootOf (nodeHash crates) (state.contractTrie crates), state.classCommitment]

/-- The contract at an address. -/
def contractAt (state : StarknetState) (address : Nat) : Option Contract :=
  lookupIn state.contracts (pathOf address)

/-- The value that the storage trie of a contract holds at a key. -/
def storedAt (state : StarknetState) (address key : Nat) : Option FieldElement :=
  (state.contractAt address).bind fun contract => lookupIn contract.storage (pathOf key)

theorem tall_contractTrie {crates : Crates} {state : StarknetState} :
    ∀ t ∈ state.contractTrie crates, t.HasHeight 251 := by
  intro t mem
  obtain ⟨u, stored, rfl⟩ := Option.map_eq_some_iff.mp mem
  exact (Patricia.hasHeight_map _).mpr (state.tall u stored)

theorem lookupIn_contractTrie (crates : Crates) (state : StarknetState) (address : Nat) :
    lookupIn (state.contractTrie crates) (pathOf address) =
      (state.contractAt address).map (Contract.leaf crates) :=
  lookupIn_map _ _ _

end StarknetState

/-! ### Nodes of a trie as the RPC sends them -/

/-- A trie node in the RPC's form, its numbers in canonical spelling. -/
def Node.ofPathNode : PathNode FieldElement → Node
  | .binary left right => .binaryNode (.ofField left) (.ofField right)
  | .edge child path =>
      .edgeNode (.ofField child) ⟨.ofNat path.length, .ofNat (binary.value path)⟩

theorem toInt_ofNat_length {path : List Bool} (short : path.length ≤ 251) :
    (Int64.ofNat path.length).toInt = path.length :=
  Int64.toInt_ofNat_of_lt (by omega)

theorem asU64_ofNat_length {path : List Bool} (short : path.length ≤ 251) :
    asU64 (Int64.ofNat path.length) = path.length :=
  (asU64_eq_iff (by omega)).mpr (toInt_ofNat_length short)

theorem Node.hash_ofPathNode {crates : Crates} {n : PathNode FieldElement} (fits : n.Fits 251) :
    (Node.ofPathNode n).hash crates = nodeHash crates n := by
  cases n with
  | binary left right => simp [Node.ofPathNode, Node.hash, nodeHash]
  | edge child path =>
      simp [Node.ofPathNode, Node.hash, nodeHash, Felt.ofNat, asU64_ofNat_length fits.2]

variable {crates : Crates} {profile : Profile}

open GetProofResult

/-- The nodes that lead along the end of a key to a value pass the walk of the
whole key, and the walk arrives with the digest they lead from. -/
theorem passes_of_opens {nodes : List (PathNode FieldElement)} {pre key : List Bool}
    {v root : FieldElement} (full : (pre ++ key).length = 251)
    (opens : Opens (nodeHash crates) nodes key v root) :
    Passes crates profile (pre ++ key) v (nodes.map Node.ofPathNode) ∧
      commitment crates v (nodes.map Node.ofPathNode) = root ∧
      (walked (nodes.map Node.ofPathNode)).toInt = key.length := by
  induction opens generalizing pre with
  | leaf v => exact ⟨trivial, rfl, rfl⟩
  | @binary nodes key v left right b below ih =>
      have split : pre ++ b :: key = (pre ++ [b]) ++ key := by simp
      rw [List.length_append, List.length_cons] at full
      obtain ⟨passes, holds, length⟩ := @ih (pre ++ [b]) (by rw [← split]; simp; omega)
      rw [← split] at passes
      have one : (1 : Int64).toInt = 1 := rfl
      have total : (walked (nodes.map Node.ofPathNode) + 1).toInt = key.length + 1 := by
        rw [toInt_add_of_fits (by omega) (by omega), length, one]
      refine ⟨⟨⟨fun _ => by omega, by omega, by omega, b, ?_, ?_⟩, passes⟩, ?_, ?_⟩
      · have depth : 251 - ((key.length : Int) + 1).toNat = pre.length := by omega
        rw [keyBit, total, depth]
        simp
      · rw [holds]
        cases b with
        | false => simp [expectedHash, Direction.ofBool]
        | true => simp [expectedHash, Direction.ofBool]
      · exact Node.hash_ofPathNode (n := .binary left right) trivial
      · exact total
  | @edge nodes key v child path nonempty below ih =>
      have split : pre ++ (path ++ key) = (pre ++ path) ++ key := by simp
      rw [List.length_append, List.length_append] at full
      obtain ⟨passes, holds, length⟩ := @ih (pre ++ path) (by simp; omega)
      rw [← split] at passes
      have short : path.length ≤ 251 := by omega
      have len := toInt_ofNat_length short
      refine ⟨⟨⟨?_, fun _ => by dsimp only; omega⟩, passes⟩, ?_, ?_⟩
      · intro empty
        obtain rfl : nodes = [] := List.map_eq_nil_iff.mp empty
        cases below
        have rest : (pre ++ (path ++ [])).drop (251 - path.length) = path := by
          have front : 251 - path.length = pre.length := by
            simp only [List.length_nil] at full
            omega
          rw [front, List.append_nil, List.drop_left]
        refine ⟨by dsimp only; omega, by dsimp only; omega, ?_⟩
        have low : maskedKey (pre ++ (path ++ [])) (Int64.ofNat path.length) =
            .ofNat (binary.value path) := by
          rw [maskedKey, len, Int.toNat_natCast, rest]
        rw [low]
        simp [Felt.ofNat]
      · exact Node.hash_ofPathNode (n := .edge child path) ⟨nonempty, short⟩
      · show (walked (nodes.map Node.ofPathNode) + Int64.ofNat path.length).toInt = _
        rw [toInt_add_of_fits (by omega) (by omega), length, len, List.length_append]
        push_cast
        ring

/-- They are a chain over the levels they lead along. -/
theorem chain_of_opens {nodes : List (PathNode FieldElement)} {pre key : List Bool}
    {v root : FieldElement} (full : (pre ++ key).length = 251)
    (opens : Opens (nodeHash crates) nodes key v root) :
    LinkedChain crates (pre ++ key) v (nodes.map Node.ofPathNode) ∧
      levels (nodes.map Node.ofPathNode) = key.length ∧
      ∀ node ∈ nodes.map Node.ofPathNode, 0 < node.len.toInt := by
  induction opens generalizing pre with
  | leaf v => exact ⟨trivial, rfl, by simp⟩
  | @binary nodes key v left right b below ih =>
      have split : pre ++ b :: key = (pre ++ [b]) ++ key := by simp
      rw [List.length_append, List.length_cons] at full
      have rest : ((pre ++ [b]) ++ key).length = 251 := by
        rw [← split]
        simp
        omega
      obtain ⟨chain, length, positive⟩ := ih rest
      obtain ⟨-, holds, -⟩ := @passes_of_opens crates .release _ (pre ++ [b]) key _ _ rest below
      rw [← split] at chain
      have unit : (Node.ofPathNode (.binary left right)).len.toInt = 1 := rfl
      refine ⟨⟨⟨by omega, b, ?_, ?_⟩, chain⟩, ?_, ?_⟩
      · have depth : (251 - ((key.length : Int) + 1)).toNat = pre.length := by omega
        rw [length, depth]
        simp
      · rw [holds]
        cases b with
        | false => exact Felt.field_ofField left
        | true => exact Felt.field_ofField right
      · rw [List.map_cons, levels, length, unit]
        rfl
      · exact List.forall_mem_cons.mpr ⟨by omega, positive⟩
  | @edge nodes key v child path nonempty below ih =>
      have split : pre ++ (path ++ key) = (pre ++ path) ++ key := by simp
      rw [List.length_append, List.length_append] at full
      have rest : ((pre ++ path) ++ key).length = 251 := by
        simp
        omega
      obtain ⟨chain, length, positive⟩ := ih rest
      obtain ⟨-, holds, -⟩ := @passes_of_opens crates .release _ (pre ++ path) key _ _ rest below
      rw [← split] at chain
      have covered := @toInt_ofNat_length path (by omega)
      have long : 0 < path.length := List.length_pos_iff.mpr nonempty
      refine ⟨⟨⟨?_, ?_, ?_, ?_⟩, chain⟩, ?_, ?_⟩
      · dsimp only
        omega
      · dsimp only
        omega
      · rw [holds]
        exact Felt.field_ofField child
      · have depth : (251 - ((key.length : Int) + path.length)).toNat = pre.length := by omega
        rw [length, covered, depth, Int.toNat_natCast, List.drop_left, List.take_left]
        exact Felt.field_ofField _
      · rw [List.map_cons, levels, length]
        show _ + (Int64.ofNat path.length).toInt = _
        rw [covered, List.length_append]
        push_cast
        ring
      · refine List.forall_mem_cons.mpr ⟨?_, positive⟩
        show 0 < (Int64.ofNat path.length).toInt
        omega

/-! ### Trie nodes behind a chain -/

/-- What the node hash applies Pedersen to. -/
def nodeInput : PathNode FieldElement → FieldElement × FieldElement
  | .binary left right => (left, right)
  | .edge child path => (child, .ofNat (binary.value path))

/-- What the walk applies Pedersen to, to get the hash of a node. -/
def Node.input : Node → FieldElement × FieldElement
  | .binaryNode left right => (left.field, right.field)
  | .edgeNode child path => (child.field, path.value.field)

theorem Node.input_mem {key : List Bool} {value : FieldElement} {nodes : List Node} {node : Node}
    (mem : node ∈ nodes) : node.input ∈ pedersenInputs crates key value nodes := by
  induction nodes with
  | nil => simp at mem
  | cons top below ih =>
      rcases List.mem_cons.mp mem with rfl | mem
      · apply List.mem_append_left
        cases node <;> exact List.mem_cons_self
      · exact List.mem_append_right _ (ih mem)

/-- A chain of positive lengths leads along the key bits it covers, through
trie nodes that hash what its own nodes hash. -/
theorem opens_of_chain {key : List Bool} {value : FieldElement} {nodes : List Node}
    (full : key.length = 251) (chain : LinkedChain crates key value nodes)
    (positive : ∀ node ∈ nodes, 0 < node.len.toInt) (fits : levels nodes ≤ 251) :
    ∃ list, Opens (nodeHash crates) list (key.drop (251 - levels nodes).toNat) value
        (commitment crates value nodes) ∧
      ∀ n ∈ list, n.Fits 251 ∧ nodeInput n ∈ nodes.map Node.input := by
  induction nodes with
  | nil =>
      have whole : key.drop (251 - levels []).toNat = [] := List.drop_of_length_le full.le
      rw [whole]
      exact ⟨[], .leaf _, by simp⟩
  | cons node below ih =>
      have rest : ∀ n ∈ below, 0 < n.len.toInt :=
        fun n mem => positive n (List.mem_cons_of_mem _ mem)
      have here := positive node List.mem_cons_self
      have low := levels_nonneg rest
      simp only [levels] at fits
      obtain ⟨list, opens, known⟩ := ih chain.2 rest (by omega)
      have known' : ∀ n ∈ list, n.Fits 251 ∧ nodeInput n ∈ (node :: below).map Node.input :=
        fun n mem => ⟨(known n mem).1, List.mem_cons_of_mem _ (known n mem).2⟩
      cases node with
      | binaryNode left right =>
          obtain ⟨high, bit, selected, holds⟩ := chain.1
          have unit : (Node.binaryNode left right).len.toInt = 1 := rfl
          have next : (251 - (levels below + 1)).toNat + 1 = (251 - levels below).toNat := by omega
          obtain ⟨inside, eq⟩ := List.getElem?_eq_some_iff.mp selected
          have split : key.drop (251 - levels (.binaryNode left right :: below)).toNat =
              bit :: key.drop (251 - levels below).toNat := by
            rw [levels, unit, List.drop_eq_getElem_cons inside, eq, next]
          rw [← holds] at opens
          refine ⟨.binary left.field right.field :: list, ?_, ?_⟩
          · rw [split]
            exact .binary bit opens
          · intro n mem
            rcases List.mem_cons.mp mem with rfl | mem
            · exact ⟨trivial, List.mem_cons_self⟩
            · exact known' n mem
      | edgeNode child path =>
          obtain ⟨nonneg, high, holds, bits⟩ := chain.1
          have len : (Node.edgeNode child path).len = path.len := rfl
          rw [len] at here fits
          generalize run : (key.drop (251 - (levels below + path.len.toInt)).toNat).take
            path.len.toInt.toNat = covered at bits
          have count : covered.length = path.len.toInt.toNat := by
            rw [← run, List.length_take, List.length_drop, full]
            omega
          have split : key.drop (251 - levels (.edgeNode child path :: below)).toNat =
              covered ++ key.drop (251 - levels below).toNat := by
            have next : (251 - (levels below + path.len.toInt)).toNat + path.len.toInt.toNat =
                (251 - levels below).toNat := by omega
            rw [levels, len, ← run, ← next, ← List.drop_drop, List.take_append_drop]
          have short : covered.length ≤ 251 := by omega
          have nonempty : covered ≠ [] := by
            rintro rfl
            simp only [List.length_nil] at count
            omega
          have cast : asU64 path.len = covered.length := by
            have := asU64_of_nonneg nonneg
            omega
          have hash : Node.hash crates (.edgeNode child path) =
              nodeHash crates (.edge child.field covered) := by
            rw [Node.hash, nodeHash, bits, cast]
          refine ⟨.edge child.field covered :: list, ?_, ?_⟩
          · rw [split, commitment, hash]
            exact .edge nonempty (holds ▸ opens)
          · intro n mem
            rcases List.mem_cons.mp mem with rfl | mem
            · refine ⟨⟨nonempty, short⟩, List.mem_cons.mpr (.inl ?_)⟩
              rw [nodeInput, Node.input, bits]
            · exact known' n mem

end Beerus
