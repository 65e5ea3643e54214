import Beerus.Exe.Decoders
import Beerus.Exe.Provenance
import Beerus.Exe.Transparency
import Beerus.Rpc

/-!
Where the spelling of a number decides.

A number has several felts, which differ in the case of their letters
(`Felt.Respells`). Most of what is checked is decoded first, and is blind to
that. Four comparisons are made on the text: `verify` compares the contract's
storage root, the state commitment and the global root with what it has just
formatted in lower case, `resolve_block_by_hash` compares block hashes, and so
does the equality of heads, together with their roots. Each of the three
statements below says exactly when two spellings of one input are told apart.
-/

namespace Beerus

open Beerus.Lib

/-! ### Inputs up to spelling -/

/-- Two felts denote one number. -/
def Felt.Respells (f g : Felt) : Prop := f.number = g.number

inductive Node.Respells : Node → Node → Prop where
  | binaryNode {left right left' right' : Felt} :
      left.Respells left' → right.Respells right' →
      Node.Respells (.binaryNode left right) (.binaryNode left' right')
  | edgeNode {child value child' value' : Felt} (len : Int64) :
      child.Respells child' → value.Respells value' →
      Node.Respells (.edgeNode child ⟨len, value⟩) (.edgeNode child' ⟨len, value'⟩)

structure ContractData.Respells (data data' : ContractData) : Prop where
  classHash : data.classHash.Respells data'.classHash
  nonce : data.nonce.Respells data'.nonce
  root : data.root.Respells data'.root
  storageProofs : Option.Rel (List.Forall₂ (List.Forall₂ Node.Respells)) data.storageProofs
    data'.storageProofs

structure GetProofResult.Respells (proof proof' : GetProofResult) : Prop where
  classCommitment : Option.Rel Felt.Respells proof.classCommitment proof'.classCommitment
  contractData : Option.Rel ContractData.Respells proof.contractData proof'.contractData
  contractProof : List.Forall₂ Node.Respells proof.contractProof proof'.contractProof
  stateCommitment : Option.Rel Felt.Respells proof.stateCommitment proof'.stateCommitment

structure State.Respells (state state' : State) : Prop where
  blockNumber : state.blockNumber = state'.blockNumber
  blockHash : state.blockHash.Respells state'.blockHash
  root : state.root.Respells state'.root

structure BlockHeader.Respells (header header' : BlockHeader) : Prop where
  blockHash : header.blockHash.felt.Respells header'.blockHash.felt
  blockNumber : header.blockNumber = header'.blockNumber
  newRoot : header.newRoot.Respells header'.newRoot

/-- Answers for a block that differ in spelling only. -/
inductive RespelledBlocks : Except JsonRpcError GetBlockWithTxHashesResult →
    Except JsonRpcError GetBlockWithTxHashesResult → Prop where
  | block {header header' : BlockHeader} : header.Respells header' →
      RespelledBlocks (.ok (.blockWithTxHashes header)) (.ok (.blockWithTxHashes header'))
  | pending : RespelledBlocks (.ok .pendingBlockWithTxHashes) (.ok .pendingBlockWithTxHashes)
  | error (e : JsonRpcError) : RespelledBlocks (.error e) (.error e)

theorem Felt.Respells.field {f g : Felt} (same : f.Respells g) : f.field = g.field :=
  congrArg FieldElement.ofNat same

/-- What corresponds to something is something. -/
theorem exists_of_rel_some {α β : Type} {R : α → β → Prop} {a : α} {o : Option β}
    (rel : Option.Rel R (some a) o) : ∃ b, o = some b ∧ R a b := by
  cases rel with
  | some same => exact ⟨_, rfl, same⟩

instance symm_optionRel {α : Type} {R : α → α → Prop} [Std.Symm R] : Std.Symm (Option.Rel R) where
  symm o o' rel := by
    cases rel with
    | none => exact .none
    | some same => exact .some (symm same)

instance symm_forall₂ {α : Type} {R : α → α → Prop} [Std.Symm R] : Std.Symm (List.Forall₂ R) where
  symm xs ys all := by
    induction all with
    | nil => exact .nil
    | cons here _ ih => exact .cons (symm here) ih

instance : Std.Symm Felt.Respells where
  symm _ _ := Eq.symm

instance : Std.Symm Node.Respells where
  symm node node' same := by
    cases same with
    | binaryNode left right => exact .binaryNode (symm left) (symm right)
    | edgeNode len child value => exact .edgeNode len (symm child) (symm value)

instance : Std.Symm ContractData.Respells where
  symm _ _ same :=
    { classHash := symm same.classHash
      nonce := symm same.nonce
      root := symm same.root
      storageProofs := symm same.storageProofs }

instance : Std.Symm GetProofResult.Respells where
  symm _ _ same :=
    { classCommitment := symm same.classCommitment
      contractData := symm same.contractData
      contractProof := symm same.contractProof
      stateCommitment := symm same.stateCommitment }

instance : Std.Symm State.Respells where
  symm _ _ same := ⟨same.blockNumber.symm, symm same.blockHash, symm same.root⟩

theorem State.Respells.trans {a b c : State} (ab : a.Respells b) (bc : b.Respells c) :
    a.Respells c :=
  ⟨ab.blockNumber.trans bc.blockNumber, Eq.trans ab.blockHash bc.blockHash,
    Eq.trans ab.root bc.root⟩

/-! ### The walk is blind to spelling -/

section Walk

variable {crates : Crates} {profile : Profile} {key : List Bool} {value : FieldElement}

open GetProofResult

theorem Node.Respells.hash {node node' : Node} (same : node.Respells node') :
    node.hash crates = node'.hash crates := by
  cases same with
  | binaryNode left right => rw [Node.hash, Node.hash, left.field, right.field]
  | edgeNode len child value => rw [Node.hash, Node.hash, child.field, value.field]

theorem Node.Respells.len {node node' : Node} (same : node.Respells node') :
    node.len = node'.len := by
  cases same <;> rfl

/-- Respelled lists pass together, with the same accumulators. -/
theorem passes_respelled {nodes nodes' : List Node}
    (same : List.Forall₂ Node.Respells nodes nodes')
    (passes : Passes crates profile key value nodes) :
    Passes crates profile key value nodes' ∧
      commitment crates value nodes = commitment crates value nodes' ∧
      walked nodes = walked nodes' ∧ (nodes' = [] → nodes = []) := by
  induction same with
  | nil => exact ⟨trivial, rfl, rfl, id⟩
  | @cons node node' below below' here rest ih =>
      obtain ⟨passesBelow, hold, length, bare⟩ := ih passes.2
      refine ⟨⟨?_, passesBelow⟩, here.hash, ?_, nofun⟩
      · have first := passes.1
        cases here with
        | binaryNode left right =>
            obtain ⟨fits, low, high, bit, selected, matches'⟩ := first
            rw [length] at fits low high selected
            refine ⟨fits, low, high, bit, selected, ?_⟩
            rw [← left.field, ← right.field, ← hold]
            exact matches'
        | edgeNode len child value =>
            obtain ⟨leaf, fits⟩ := first
            rw [length] at fits
            refine ⟨fun empty => ?_, fits⟩
            have edge := leaf (bare empty)
            unfold LeafEdgePasses at edge ⊢
            rwa [← child.field, ← value.field]
      · rw [walked, walked, length, here.len]

theorem proves_respelled {k root : FieldElement} {nodes nodes' : List Node}
    (same : List.Forall₂ Node.Respells nodes nodes')
    (proves : Proves crates profile k value nodes root) :
    Proves crates profile k value nodes' root := by
  obtain ⟨passes, hold, -⟩ := passes_respelled same proves.passes
  exact ⟨passes, hold.symm.trans proves.arrives⟩

end Walk

/-! ### verify -/

section Verify

variable {crates : Crates} {profile : Profile}

open GetProofResult

/-- What `verify` checks, with the three roots compared as numbers. -/
def GetProofResult.ChecksOut (crates : Crates) (profile : Profile) (self : GetProofResult)
    (globalRoot : Felt) (contractAddress : Address) (key : StorageKey) (value : Felt) : Prop :=
  ∃ contractData nodes others k storageRoot classCommitment root stateCommitment,
    self.contractData = some contractData ∧
    contractData.storageProofs = some (nodes :: others) ∧
    crates.fromHex key.text = some k ∧
    Proves crates profile k value.field nodes storageRoot ∧
    contractData.root.number = storageRoot.val ∧
    self.classCommitment = some classCommitment ∧
    Proves crates profile contractAddress.felt.field (contractData.leaf crates)
      self.contractProof root ∧
    self.stateCommitment = some stateCommitment ∧
    stateCommitment.number = (globalRootOf crates root classCommitment.field).val ∧
    globalRoot.number = (globalRootOf crates root classCommitment.field).val

/-- The three roots that are compared as text are in lower case. -/
structure GetProofResult.RootsLower (proof : GetProofResult) (global : Felt) : Prop where
  root : ∀ contractData ∈ proof.contractData, contractData.root.IsLower
  stateCommitment : ∀ stateCommitment ∈ proof.stateCommitment, stateCommitment.IsLower
  globalRoot : global.IsLower

/-- `verify` accepts what checks out by its numbers and has its roots in lower
case. -/
theorem verify_eq_ok_iff {self : GetProofResult} {globalRoot : Felt} {contractAddress : Address}
    {key : StorageKey} {value : Felt} :
    verify crates profile self globalRoot contractAddress key value = .ok () ↔
      self.ChecksOut crates profile globalRoot contractAddress key value ∧
        self.RootsLower globalRoot := by
  rw [verify_eq_ok]
  constructor
  · rintro ⟨contractData, nodes, others, k, storageRoot, classCommitment, root, present, listed,
      literal, storage, top, declared, contract, committed, rfl⟩
    obtain ⟨number, lower⟩ := Felt.eq_ofField_iff.mp top
    refine ⟨⟨contractData, nodes, others, k, storageRoot, classCommitment, root, _, present, listed,
      literal, storage, number, declared, contract, committed, Felt.number_ofField _,
      Felt.number_ofField _⟩, ?_, ?_, Felt.isLower_ofField _⟩
    · rintro data mem
      obtain rfl : contractData = data := Option.some.inj (present.symm.trans mem)
      exact lower
    · rintro stateCommitment mem
      obtain rfl := Option.some.inj (committed.symm.trans mem)
      exact Felt.isLower_ofField _
  · rintro ⟨⟨contractData, nodes, others, k, storageRoot, classCommitment, root, stateCommitment,
      present, listed, literal, storage, number, declared, contract, committed, state, global⟩,
      lower⟩
    have top := Felt.eq_ofField_iff.mpr ⟨number, lower.root contractData present⟩
    have commitment := Felt.eq_ofField_iff.mpr ⟨state, lower.stateCommitment _ committed⟩
    exact ⟨contractData, nodes, others, k, storageRoot, classCommitment, root, present, listed,
      literal, storage, top, declared, contract, commitment ▸ committed,
      Felt.eq_ofField_iff.mpr ⟨global, lower.globalRoot⟩⟩

variable {self self' : GetProofResult} {globalRoot globalRoot' value value' : Felt}
  {address address' : Address} {key : StorageKey}

/-- By numbers, respelled inputs check out together. -/
theorem ChecksOut.respelled (same : self.Respells self') (roots : globalRoot.Respells globalRoot')
    (addresses : address.felt.Respells address'.felt) (values : value.Respells value')
    (checks : self.ChecksOut crates profile globalRoot address key value) :
    self'.ChecksOut crates profile globalRoot' address' key value' := by
  obtain ⟨contractData, nodes, others, k, storageRoot, classCommitment, root, stateCommitment,
    present, listed, literal, storage, number, declared, contract, committed, state, global⟩ :=
    checks
  obtain ⟨contractData', present', data⟩ := exists_of_rel_some (present ▸ same.contractData)
  obtain ⟨classCommitment', declared', classes⟩ :=
    exists_of_rel_some (declared ▸ same.classCommitment)
  obtain ⟨stateCommitment', committed', commitments⟩ :=
    exists_of_rel_some (committed ▸ same.stateCommitment)
  obtain ⟨_, listed', lists⟩ := exists_of_rel_some (listed ▸ data.storageProofs)
  obtain ⟨nodes', others', first, -, rfl⟩ := List.forall₂_cons_left_iff.mp lists
  have leaf : contractData.leaf crates = contractData'.leaf crates := by
    rw [ContractData.leaf, ContractData.leaf, data.classHash.field, data.root.field,
      data.nonce.field]
  refine ⟨contractData', nodes', others', k, storageRoot, classCommitment', root, stateCommitment',
    present', listed', literal, ?_, ?_, declared', ?_, committed', ?_, ?_⟩
  · rw [← values.field]
    exact proves_respelled first storage
  · exact Eq.trans (Eq.symm data.root) number
  · rw [← addresses.field, ← leaf]
    exact proves_respelled same.contractProof contract
  · rw [← classes.field]
    exact Eq.trans (Eq.symm commitments) state
  · rw [← classes.field]
    exact Eq.trans (Eq.symm roots) global

theorem ChecksOut.respelled_iff (same : self.Respells self')
    (roots : globalRoot.Respells globalRoot') (addresses : address.felt.Respells address'.felt)
    (values : value.Respells value') :
    self.ChecksOut crates profile globalRoot address key value ↔
      self'.ChecksOut crates profile globalRoot' address' key value' := by
  constructor
  · exact ChecksOut.respelled same roots addresses values
  · exact ChecksOut.respelled (symm same) (symm roots) (symm addresses) (symm values)

/-- Respelled inputs are told apart by `verify` exactly where they check out and
only one of them has its roots in lower case. -/
theorem verify_respelled_iff (same : self.Respells self')
    (roots : globalRoot.Respells globalRoot') (addresses : address.felt.Respells address'.felt)
    (values : value.Respells value') :
    (verify crates profile self globalRoot address key value = .ok () ↔
        verify crates profile self' globalRoot' address' key value' = .ok ()) ↔
      (self.ChecksOut crates profile globalRoot address key value →
        (self.RootsLower globalRoot ↔ self'.RootsLower globalRoot')) := by
  rw [verify_eq_ok_iff, verify_eq_ok_iff, ← ChecksOut.respelled_iff same roots addresses values]
  exact and_congr_right_iff

end Verify

/-! ### Heads -/

/-- Two heads are spelled in the same cases. -/
def State.CasedAlike (state other : State) : Prop :=
  state.blockHash.casing = other.blockHash.casing ∧ state.root.casing = other.root.casing

/-- Heads are equal where their numbers are, and the cases of their letters. -/
theorem State.eq_iff_respells {state other : State} :
    state.eq other = true ↔ state.Respells other ∧ state.CasedAlike other := by
  rw [State.eq_iff]
  constructor
  · rintro rfl
    exact ⟨⟨rfl, rfl, rfl⟩, rfl, rfl⟩
  · rintro ⟨⟨number, hash, root⟩, hashCase, rootCase⟩
    have hashes := Felt.eq_iff_number_casing.mpr ⟨hash, hashCase⟩
    have roots := Felt.eq_iff_number_casing.mpr ⟨root, rootCase⟩
    cases state
    cases other
    simp only [State.mk.injEq]
    exact ⟨number, hashes, roots⟩

/-- Respelled heads are told apart by their equality exactly where their numbers
are equal and only one pair is spelled in the same cases. -/
theorem State.eq_respelled_iff {state state' other other' : State}
    (same : state.Respells state') (sameOther : other.Respells other') :
    (state.eq other = true ↔ state'.eq other' = true) ↔
      (state.Respells other → (state.CasedAlike other ↔ state'.CasedAlike other')) := by
  have together : state.Respells other ↔ state'.Respells other' := by
    constructor
    · intro respells
      exact (State.Respells.trans (symm same) respells).trans sameOther
    · intro respells
      exact (same.trans respells).trans (symm sameOther)
  rw [State.eq_iff_respells, State.eq_iff_respells, ← together]
  exact and_congr_right_iff

/-! ### Block hashes -/

inductive BlockId.Respells : BlockId → BlockId → Prop where
  | blockHash {h h' : BlockHash} : h.felt.Respells h'.felt →
      BlockId.Respells (.blockHash h) (.blockHash h')
  | blockNumber (n : BlockNumber) : BlockId.Respells (.blockNumber n) (.blockNumber n)
  | blockTag (tag : BlockTag) : BlockId.Respells (.blockTag tag) (.blockTag tag)

/-- Two resolutions come to the same, up to spelling, or both come to nothing. -/
def ResolvedAlike (result result' : Except (Fault JsonRpcError) (BlockId × Felt)) : Prop :=
  (∃ id root id' root', result = .ok (id, root) ∧ result' = .ok (id', root') ∧ id.Respells id' ∧
      root.Respells root') ∨
    (∀ pair, result ≠ .ok pair) ∧ ∀ pair, result' ≠ .ok pair

/-- The answer presents a block below the head, with the very text of the hash,
and a root. -/
def Presented (state : State) (h : BlockHash)
    (block : Except JsonRpcError GetBlockWithTxHashesResult) (root : Felt) : Prop :=
  ∃ header, block = .ok (.blockWithTxHashes header) ∧ Echoes (.blockHash h) header ∧
    header.blockNumber.val.toInt < state.blockNumber ∧ root = header.newRoot

variable {GetClassResult : Type}

/-- What `resolve_block_by_hash` comes to, where the provider answers by a
function. -/
def resolvedByHash (answer : (op : ProxyOp) → op.Answer GetClassResult) (h : BlockHash)
    (state : State) : Except (Fault JsonRpcError) (BlockId × Felt) :=
  (Context.resolveBlockByHash h state).eval answer

variable {answer answer' : (op : ProxyOp) → op.Answer GetClassResult} {state state' : State}
  {h h' : BlockHash}

theorem resolvedByHash_own (own : IsOwn state (.blockHash h)) :
    resolvedByHash answer h state = .ok (.blockHash h, state.root) := by
  have program : (Context.resolveBlockByHash h state : ContextProg GetClassResult _) =
      pure (.blockHash h, state.root) := if_pos own
  exact congrArg (Prog.eval answer) program

theorem resolvedByHash_older (older : ¬ IsOwn state (.blockHash h)) {sent : BlockId} {root : Felt} :
    resolvedByHash answer h state = .ok (sent, root) ↔
      sent = .blockHash h ∧
        Presented state h (answer (.rpc (.getBlockWithTxHashes (.blockHash h)))) root := by
  obtain ⟨result, program, spec⟩ := @Context.resolveAt_older GetClassResult _ _ older nofun
  have ends : resolvedByHash answer h state =
      result (answer (.rpc (.getBlockWithTxHashes (.blockHash h)))) :=
    congrArg (Prog.eval answer) program
  rw [ends]
  apply (spec _ _ _).trans
  constructor
  · rintro ⟨header, block, ⟨echo, low⟩, rfl, rfl⟩
    exact ⟨rfl, header, block, echo, low, rfl⟩
  · rintro ⟨rfl, header, block, echo, low, rfl⟩
    exact ⟨header, block, ⟨echo, low⟩, rfl, rfl⟩

/-- The comparisons of hashes come out alike, or the block that one side is
presented with has the root of the head that the other side takes it for. -/
def HashesComparedAlike (state state' : State) (h h' : BlockHash)
    (block block' : Except JsonRpcError GetBlockWithTxHashesResult) : Prop :=
  ((IsOwn state (.blockHash h) ↔ IsOwn state' (.blockHash h')) ∧
      (¬ IsOwn state (.blockHash h) →
        ((∃ root, Presented state h block root) ↔ ∃ root, Presented state' h' block' root))) ∨
    (IsOwn state (.blockHash h) ∧
      ∃ root, Presented state' h' block' root ∧ state.root.Respells root) ∨
    (IsOwn state' (.blockHash h') ∧
      ∃ root, Presented state h block root ∧ state'.root.Respells root)

theorem presented_respelled {block block' : Except JsonRpcError GetBlockWithTxHashesResult}
    (blocks : RespelledBlocks block block') {root root' : Felt}
    (presented : Presented state h block root) (presented' : Presented state' h' block' root') :
    root.Respells root' := by
  obtain ⟨header, rfl, -, -, rfl⟩ := presented
  obtain ⟨header', rfl, -, -, rfl⟩ := presented'
  cases blocks with
  | block headers => exact headers.newRoot

/-- One side takes the hash for the head's, the other one asks for its block. -/
theorem resolvedAlike_own (hashes : h.felt.Respells h'.felt)
    (own : IsOwn state (.blockHash h)) (older : ¬ IsOwn state' (.blockHash h')) :
    ResolvedAlike (resolvedByHash answer h state) (resolvedByHash answer' h' state') ↔
      ∃ root, Presented state' h' (answer' (.rpc (.getBlockWithTxHashes (.blockHash h')))) root ∧
        state.root.Respells root := by
  have here := @resolvedByHash_own _ answer state h own
  constructor
  · rintro (⟨id, root, id', root', ok, ok', -, roots⟩ | ⟨none, -⟩)
    · obtain ⟨-, presented⟩ := (resolvedByHash_older older).mp ok'
      obtain ⟨rfl, rfl⟩ := Prod.mk.inj (Except.ok.inj (here.symm.trans ok))
      exact ⟨root', presented, roots⟩
    · exact absurd here (none _)
  · rintro ⟨root, presented, roots⟩
    exact .inl ⟨_, _, _, root, here, (resolvedByHash_older older).mpr ⟨rfl, presented⟩,
      .blockHash hashes, roots⟩

instance : Std.Symm ResolvedAlike where
  symm result result' alike := by
    rcases alike with ⟨id, root, id', root', ok, ok', ids, roots⟩ | ⟨none, none'⟩
    · refine .inl ⟨id', root', id, root, ok', ok, ?_, symm roots⟩
      cases ids with
      | blockHash hashes => exact .blockHash (symm hashes)
      | blockNumber n => exact .blockNumber n
      | blockTag tag => exact .blockTag tag
    · exact .inr ⟨none', none⟩

/-- Respelled hashes are resolved apart exactly where the comparisons do not come
out alike. -/
theorem resolvedByHash_respelled_iff (same : state.Respells state')
    (hashes : h.felt.Respells h'.felt)
    (blocks : RespelledBlocks (answer (.rpc (.getBlockWithTxHashes (.blockHash h))))
      (answer' (.rpc (.getBlockWithTxHashes (.blockHash h'))))) :
    ResolvedAlike (resolvedByHash answer h state) (resolvedByHash answer' h' state') ↔
      HashesComparedAlike state state' h h' (answer (.rpc (.getBlockWithTxHashes (.blockHash h))))
        (answer' (.rpc (.getBlockWithTxHashes (.blockHash h')))) := by
  unfold HashesComparedAlike
  by_cases own : IsOwn state (.blockHash h)
  · by_cases own' : IsOwn state' (.blockHash h')
    · refine iff_of_true ?_ (.inl ⟨iff_of_true own own', fun other => absurd own other⟩)
      exact .inl ⟨_, _, _, _, resolvedByHash_own own, resolvedByHash_own own', .blockHash hashes,
        same.root⟩
    · rw [resolvedAlike_own hashes own own']
      simp only [own, own', iff_false, not_true_eq_false, false_and, false_or, or_false, true_and]
  · by_cases own' : IsOwn state' (.blockHash h')
    · have swap : ResolvedAlike (resolvedByHash answer h state) (resolvedByHash answer' h' state') ↔
          ResolvedAlike (resolvedByHash answer' h' state') (resolvedByHash answer h state) :=
        ⟨symm, symm⟩
      rw [swap, resolvedAlike_own (symm hashes) own' own]
      simp only [own, own', false_iff, not_true_eq_false, false_and, false_or, true_and]
    · simp only [own, own', true_and, false_and, or_false, not_false_eq_true, forall_const]
      constructor
      · rintro (⟨id, root, id', root', ok, ok', -, -⟩ | ⟨none, none'⟩)
        · have presented := ((resolvedByHash_older own).mp ok).2
          have presented' := ((resolvedByHash_older own').mp ok').2
          exact iff_of_true ⟨root, presented⟩ ⟨root', presented'⟩
        · refine iff_of_false ?_ ?_
          · rintro ⟨root, presented⟩
            exact none _ ((resolvedByHash_older own).mpr ⟨rfl, presented⟩)
          · rintro ⟨root, presented⟩
            exact none' _ ((resolvedByHash_older own').mpr ⟨rfl, presented⟩)
      · intro together
        by_cases found : ∃ root,
            Presented state h (answer (.rpc (.getBlockWithTxHashes (.blockHash h)))) root
        · obtain ⟨root', presented'⟩ := together.mp found
          obtain ⟨root, presented⟩ := found
          exact .inl ⟨_, root, _, root', (resolvedByHash_older own).mpr ⟨rfl, presented⟩,
            (resolvedByHash_older own').mpr ⟨rfl, presented'⟩, .blockHash hashes,
            presented_respelled blocks presented presented'⟩
        · refine .inr ⟨?_, ?_⟩
          · rintro ⟨sent, root⟩ ok
            exact found ⟨root, ((resolvedByHash_older own).mp ok).2⟩
          · rintro ⟨sent, root⟩ ok
            exact found (together.mpr ⟨root, ((resolvedByHash_older own').mp ok).2⟩)

/-! ### All three -/

/-- Inputs that differ in spelling only are told apart exactly as follows: by
`verify` where they check out by their numbers and one has a compared root that
is not in lower case, by `resolve_block_by_hash` where the texts of the hashes
do not compare alike, and by the equality of heads where the numbers are equal
and the cases of their letters do not compare alike. -/
theorem decisions_respelled_iff {crates : Crates} {profile : Profile} {self self' : GetProofResult}
    {globalRoot globalRoot' value value' : Felt} {address address' : Address} {key : StorageKey}
    {other other' : State} (proofs : self.Respells self') (roots : globalRoot.Respells globalRoot')
    (addresses : address.felt.Respells address'.felt) (values : value.Respells value')
    (heads : state.Respells state') (others : other.Respells other')
    (hashes : h.felt.Respells h'.felt)
    (blocks : RespelledBlocks (answer (.rpc (.getBlockWithTxHashes (.blockHash h))))
      (answer' (.rpc (.getBlockWithTxHashes (.blockHash h'))))) :
    ((self.verify crates profile globalRoot address key value = .ok () ↔
        self'.verify crates profile globalRoot' address' key value' = .ok ()) ↔
      (self.ChecksOut crates profile globalRoot address key value →
        (self.RootsLower globalRoot ↔ self'.RootsLower globalRoot'))) ∧
    (ResolvedAlike (resolvedByHash answer h state) (resolvedByHash answer' h' state') ↔
      HashesComparedAlike state state' h h' (answer (.rpc (.getBlockWithTxHashes (.blockHash h))))
        (answer' (.rpc (.getBlockWithTxHashes (.blockHash h'))))) ∧
    ((state.eq other = true ↔ state'.eq other' = true) ↔
      (state.Respells other → (state.CasedAlike other ↔ state'.CasedAlike other'))) :=
  ⟨verify_respelled_iff proofs roots addresses values,
    resolvedByHash_respelled_iff heads hashes blocks, State.eq_respelled_iff heads others⟩

instance : Std.Refl Node.Respells where
  refl node := by
    cases node with
    | binaryNode left right => exact .binaryNode rfl rfl
    | edgeNode child path => exact .edgeNode path.len rfl rfl

theorem GetProofResult.respells_refl (proof : GetProofResult) : proof.Respells proof := by
  have lists : ∀ nodes : Proof, List.Forall₂ Node.Respells nodes nodes := List.forall₂_refl
  obtain ⟨classCommitment, contractData, contractProof, stateCommitment⟩ := proof
  refine ⟨?_, ?_, lists _, ?_⟩
  · cases classCommitment with
    | none => exact .none
    | some _ => exact .some rfl
  · cases contractData with
    | none => exact .none
    | some data =>
        refine .some ⟨rfl, rfl, rfl, ?_⟩
        cases data.storageProofs with
        | none => exact .none
        | some proofs => exact .some (List.forall₂_same.mpr fun nodes _ => lists nodes)
  · cases stateCommitment with
    | none => exact .none
    | some _ => exact .some rfl

/-- The sample proof with the letters of its storage root in upper case. -/
def shoutedProof : GetProofResult :=
  { sampleProof with
    contractData := sampleProof.contractData.map fun contractData =>
      { contractData with
        root := ⟨"0x362C78389536C7E041BDAC6084090F529CD695C7CE7B7EAE3160D336A868808".toList,
          by decide +kernel⟩ } }

theorem shoutedProof_respells : sampleProof.Respells shoutedProof where
  classCommitment := .some rfl
  contractData := .some
    { classHash := rfl
      nonce := rfl
      root := (by decide +kernel :
        Felt.number (.ofField (sampleContract.storageRoot sampleHashes)) = Felt.number _)
      storageProofs := .some (List.forall₂_same.mpr fun nodes _ => List.forall₂_refl nodes) }
  contractProof := List.forall₂_refl _
  stateCommitment := .some rfl

/-- A head with its hash in one of two spellings. -/
def spelledState (upper : Bool) : State :=
  { sampleHead true with blockHash := sampleSpelling upper }

/-- A provider that presents the block with the head's hash, in lower case. -/
def presentingHead : (op : ProxyOp) → op.Answer Unit
  | .rpc (.getBlockWithTxHashes _) =>
      .ok (.blockWithTxHashes ⟨⟨sampleSpelling false⟩, ⟨7, by decide⟩, .ofNat 0x1⟩)
  | op => sampleProvider op

theorem presentingHead_respelled (h h' : BlockHash) :
    RespelledBlocks (presentingHead (.rpc (.getBlockWithTxHashes (.blockHash h))))
      (presentingHead (.rpc (.getBlockWithTxHashes (.blockHash h')))) :=
  .block ⟨rfl, rfl, rfl⟩

theorem sampleSpelling_respells (upper upper' : Bool) :
    (sampleSpelling upper).Respells (sampleSpelling upper') := by
  have number : ∀ upper, (sampleSpelling upper).number = 0xab := by decide +kernel
  exact (number upper).trans (number upper').symm

theorem spelledState_respells (upper upper' : Bool) :
    (spelledState upper).Respells (spelledState upper') :=
  ⟨rfl, sampleSpelling_respells upper upper', rfl⟩

/-- A value in either case is accepted with its proof, and a head whose hash is
respelled together with the request's, or with the other head's, is found again. -/
theorem respelled_together :
    (sampleProof.verify sampleHashes .release (.ofField (sampleState.root sampleHashes))
          sampleAddress sampleKey (.ofNat 0x2a) = .ok () ↔
        sampleProof.verify sampleHashes .release (.ofField (sampleState.root sampleHashes))
          sampleAddress sampleKey ⟨"0x2A".toList, rfl⟩ = .ok ()) ∧
      ResolvedAlike (resolvedByHash presentingHead ⟨sampleSpelling false⟩ (spelledState false))
        (resolvedByHash presentingHead ⟨sampleSpelling true⟩ (spelledState true)) ∧
      ((spelledState false).eq (spelledState false) = true ↔
        (spelledState true).eq (spelledState true) = true) := by
  have all := @decisions_respelled_iff _ presentingHead presentingHead _ _ ⟨sampleSpelling false⟩
    ⟨sampleSpelling true⟩ sampleHashes .release _ _ (.ofField (sampleState.root sampleHashes)) _
    (.ofNat 0x2a) ⟨"0x2A".toList, rfl⟩ sampleAddress _ sampleKey _ _
    sampleProof.respells_refl rfl rfl (by decide +kernel : Felt.number _ = Felt.number _)
    (spelledState_respells false true) (spelledState_respells false true)
    (sampleSpelling_respells false true) (presentingHead_respelled _ _)
  refine ⟨all.1.mpr fun _ => Iff.rfl, all.2.1.mpr (.inl ⟨iff_of_true rfl rfl, ?_⟩),
    all.2.2.mpr fun _ => iff_of_true ⟨rfl, rfl⟩ ⟨rfl, rfl⟩⟩
  intro other
  exact absurd rfl other

/-- The upper case of a storage root, of a requested hash and of a head's hash
each change what is decided. -/
theorem spelling_decides :
    (sampleProof.Respells shoutedProof ∧
      sampleProof.verify sampleHashes .release (.ofField (sampleState.root sampleHashes))
          sampleAddress sampleKey (.ofNat 0x2a) = .ok () ∧
      shoutedProof.verify sampleHashes .release (.ofField (sampleState.root sampleHashes))
          sampleAddress sampleKey (.ofNat 0x2a) ≠ .ok ()) ∧
    ((sampleSpelling false).Respells (sampleSpelling true) ∧
      ¬ ResolvedAlike (resolvedByHash presentingHead ⟨sampleSpelling false⟩ (spelledState false))
          (resolvedByHash presentingHead ⟨sampleSpelling true⟩ (spelledState false))) ∧
    (spelledState false).Respells (spelledState true) ∧
      (spelledState false).eq (spelledState false) = true ∧
      (spelledState true).eq (spelledState false) = false := by
  refine ⟨⟨shoutedProof_respells, by decide +kernel, by decide +kernel⟩,
    ⟨sampleSpelling_respells _ _, ?_⟩, spelledState_respells _ _, rfl, rfl⟩
  have refused : resolvedByHash presentingHead ⟨sampleSpelling true⟩ (spelledState false) =
      Res.err ⟨-1, "Failed to verify requested block by hash"⟩ := by decide +kernel
  rw [refused]
  rintro (⟨id, root, id', root', -, ok', -⟩ | ⟨none, -⟩)
  · exact nomatch ok'
  · exact none _ (resolvedByHash_own rfl)

end Beerus
