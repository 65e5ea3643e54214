import Beerus.Proof.Verify

/-!
When `verify` panics.

The provider chooses the node lists and their lengths, and the walk computes an
index and a mask from them. It returns no error of its own: a node is met in
range (`NodeInRange`) or the walk panics there. A list is walked from the leaf,
and a node that does not pass ends the walk, so only what lies above nodes that
all pass is met at all (`WalkInRange`).
-/

namespace Beerus

open Beerus.Lib

namespace GetProofResult

variable {crates : Crates} {profile : Profile} {key : List Bool} {value : FieldElement}

/-- A node is met in range: the running length selects a bit of the key, the
first edge leaves a mask within it, and no sum overflows. Without overflow
checks only the selected bit matters. -/
def NodeInRange (profile : Profile) (below : List Node) : Node → Prop
  | .edgeNode _ path =>
      Fits profile (walked below) path.len ∧
        (below = [] → profile = .debug → 0 ≤ path.len.toInt ∧ path.len.toInt ≤ 251)
  | .binaryNode _ _ =>
      Fits profile (walked below) 1 ∧ 1 ≤ (walked below + 1).toInt ∧
        (walked below + 1).toInt ≤ 251

/-- Every node that the walk comes to is met in range. -/
def WalkInRange (crates : Crates) (profile : Profile) (key : List Bool) (value : FieldElement) :
    List Node → Prop
  | [] => True
  | node :: below =>
      WalkInRange crates profile key value below ∧
        (Passes crates profile key value below → NodeInRange profile below node)

/-! ### One round of the loop -/

theorem leafEdgeMatches_returns (full : key.length = 251) {providedHash : FieldElement}
    {path : EdgeNodePath} :
    (∃ b, leafEdgeMatches crates profile key value providedHash path = .ok b) ↔
      (profile = .debug → 0 ≤ path.len.toInt ∧ path.len.toInt ≤ 251) := by
  have range : asU64 path.len ≤ 251 ↔ 0 ≤ path.len.toInt ∧ path.len.toInt ≤ 251 := by
    have := path.len.toInt_lt
    have := path.len.le_toInt
    unfold asU64
    omega
  unfold leafEdgeMatches
  by_cases fits : asU64 path.len ≤ 251
  · refine iff_of_true ?_ fun _ => range.mp fits
    rw [usizeSub_of_le fits, Res.ok_bind, feltFromBits_some full (Nat.sub_le _ _)]
    exact ⟨_, rfl⟩
  · have high := Nat.not_le.mp fits
    have bound := asU64_lt path.len
    cases profile with
    | debug =>
        rw [usizeSub_debug_of_lt high, Res.panic_bind]
        refine iff_of_false ?_ fun inRange => fits (range.mpr (inRange rfl))
        rintro ⟨b, returned⟩
        exact Res.panic_ne_ok b returned
    | release =>
        rw [usizeSub_release_of_lt high, Res.ok_bind, feltFromBits_of_gt full (by omega)]
        exact iff_of_true ⟨false, rfl⟩ nofun

theorem neverErrs_leafEdgeMatches (providedHash : FieldElement) (path : EdgeNodePath) :
    (leafEdgeMatches crates profile key value providedHash path).NeverErrs := by
  apply (neverErrs_usizeSub _ _ _).bind
  intro mask
  split
  · exact Res.neverErrs_ok _
  · exact Res.neverErrs_ok _
  · exact Res.neverErrs_panic

theorem neverErrs_walkStep (i : Nat) (hold : FieldElement) (pathLen : Int64) (node : Node) :
    (walkStep crates profile key value i hold pathLen node).NeverErrs := by
  cases node with
  | binaryNode left right =>
      apply (neverErrs_i64Add _ _ _).bind
      intro pathLen
      simp only [fieldElement_felt, Res.ok_bind]
      apply (neverErrs_usizeSub _ _ _).bind
      intro index
      apply (Res.neverErrs_index _ _).bind
      intro bit
      split
      · exact Res.neverErrs_ok _
      · exact Res.neverErrs_ok _
  | edgeNode child path =>
      simp only [walkStep, fieldElement_felt, Res.ok_bind]
      have rest : ∀ passes : Bool, Res.NeverErrs (if passes = true then do
            let pathLen ← i64Add profile pathLen path.len
            pure (some (crates.pedersenHash child.field path.value.field +
              FieldElement.ofNat (asU64 path.len), pathLen))
          else pure none : Res JsonRpcError (Option (FieldElement × Int64))) := by
        intro passes
        split
        · exact (neverErrs_i64Add _ _ _).bind fun _ => Res.neverErrs_ok _
        · exact Res.neverErrs_ok _
      split
      · exact (neverErrs_leafEdgeMatches _ _).bind rest
      · exact (Res.neverErrs_ok true).bind rest

theorem fits_zero (profile : Profile) (len : Int64) : Fits profile 0 len := by
  intro _
  have zero : (0 : Int64).toInt = 0 := rfl
  have := len.toInt_lt
  have := len.le_toInt
  omega

/-- A round returns exactly where its node is met in range. -/
theorem walkStep_returns (full : key.length = 251) {below : List Node} {hold : FieldElement}
    {node : Node} :
    (∃ next, walkStep crates profile key value below.length hold (walked below) node = .ok next) ↔
      NodeInRange profile below node := by
  cases node with
  | binaryNode left right =>
      simp only [walkStep, fieldElement_felt, Res.ok_bind, Res.bind_eq_ok, i64Add_eq_ok_iff,
        Res.index_eq_ok, NodeInRange]
      constructor
      · rintro ⟨next, _, ⟨fits, rfl⟩, index, sub, bit, at_index, -⟩
        obtain ⟨low, high, -⟩ := (index_usizeSub full).mp ⟨index, sub, at_index⟩
        exact ⟨fits, low, high⟩
      · rintro ⟨fits, low, high⟩
        have inside : 251 - (walked below + 1).toInt.toNat < key.length := by omega
        obtain ⟨index, sub, at_index⟩ := (@index_usizeSub profile key full _ _).mpr
          ⟨low, high, List.getElem?_eq_getElem inside⟩
        exact ⟨_, _, ⟨fits, rfl⟩, index, sub, _, at_index, (apply_ite Except.ok _ _ _).symm⟩
  | edgeNode child path =>
      simp only [walkStep, fieldElement_felt, Res.ok_bind, NodeInRange]
      cases below with
      | nil =>
          simp only [List.length_nil, if_true, Res.bind_eq_ok, forall_const]
          rw [← @leafEdgeMatches_returns crates profile key value full
            (Node.hash crates (.edgeNode child path)) path]
          constructor
          · rintro ⟨next, b, matched, -⟩
            exact ⟨fits_zero profile path.len, b, matched⟩
          · rintro ⟨-, b, matched⟩
            cases b with
            | false => exact ⟨none, false, matched, rfl⟩
            | true =>
                have added : (i64Add profile (walked []) path.len : Res JsonRpcError Int64) =
                    .ok (walked [] + path.len) :=
                  i64Add_eq_ok_iff.mpr ⟨fits_zero profile path.len, rfl⟩
                refine ⟨some (Node.hash crates (.edgeNode child path), walked [] + path.len), true,
                  matched, ?_⟩
                rw [if_pos rfl, added]
                rfl
      | cons node below =>
          simp only [List.length_cons, Nat.add_eq_zero_iff, one_ne_zero, and_false, if_false,
            reduceCtorEq, false_imp_iff, and_true, Res.pure_eq_ok, Except.ok.injEq,
            exists_eq_left', if_true, Res.bind_eq_ok, i64Add_eq_ok_iff]
          constructor
          · rintro ⟨next, _, ⟨fits, -⟩, -⟩
            exact fits
          · intro fits
            exact ⟨_, _, ⟨fits, rfl⟩, rfl⟩

/-! ### The whole loop -/

theorem neverErrs_walk (i : Nat) (hold : FieldElement) (pathLen : Int64) (nodes : List Node) :
    (walk crates profile key value i hold pathLen nodes).NeverErrs := by
  induction nodes generalizing i hold pathLen with
  | nil => exact Res.neverErrs_ok _
  | cons node nodes ih =>
      apply (neverErrs_walkStep i hold pathLen node).bind
      intro next
      cases next with
      | none => exact Res.neverErrs_ok _
      | some reached => exact ih _ _ _

/-- The walk returns exactly where every node that it comes to is met in
range. -/
theorem walk_returns (full : key.length = 251) {nodes : List Node} :
    (∃ result, walk crates profile key value 0 value 0 nodes.reverse = .ok result) ↔
      WalkInRange crates profile key value nodes := by
  induction nodes with
  | nil => exact iff_of_true ⟨_, rfl⟩ trivial
  | cons node below ih =>
      simp only [List.reverse_cons, walk_append, walk_singleton, Nat.zero_add,
        List.length_reverse, Res.bind_eq_ok]
      constructor
      · rintro ⟨result, reached, run, done⟩
        refine ⟨ih.mp ⟨reached, run⟩, fun passes => ?_⟩
        have arrived := run.symm.trans ((walk_reverse full).mpr ⟨passes, rfl⟩)
        obtain rfl := Except.ok.inj arrived
        exact (walkStep_returns full).mp ⟨result, done⟩
      · rintro ⟨rest, here⟩
        obtain ⟨reached, run⟩ := ih.mpr rest
        cases reached with
        | none => exact ⟨none, none, run, rfl⟩
        | some next =>
            obtain ⟨passes, rfl⟩ := (walk_reverse full).mp run
            obtain ⟨result, done⟩ := (walkStep_returns full).mpr (here passes)
            exact ⟨result, _, run, done⟩

/-! ### The whole check -/

/-- A key that is not read is an error; for one that is, the walk decides. -/
theorem parseProof_ne_panic {key : Text} {value : Felt} {nodes : Proof} :
    parseProof crates profile key value nodes ≠ Res.panic ↔
      ∀ k, crates.fromHex key = some k →
        WalkInRange crates profile (feltToBits k.toBytesBe) value.field nodes := by
  cases read : crates.fromHex key with
  | none =>
      simp only [parseProof, fieldElement, read, Res.okOr_none, Res.err_bind]
      refine iff_of_true (Res.err_ne_panic _) ?_
      rintro k ⟨⟩
  | some k =>
      have full := length_feltToBits k
      simp only [parseProof, fieldElement, read, Res.okOr_some, Res.ok_bind, full, ne_eq,
        not_true_eq_false, if_false, Felt.fromHex_text]
      rw [← ne_eq, Res.bind_ne_panic, (neverErrs_walk _ _ _ _).ne_panic_iff, walk_returns full]
      constructor
      · rintro ⟨inRange, -⟩ _ ⟨⟩
        exact inRange
      · intro inRange
        refine ⟨inRange k rfl, fun reached _ => ?_⟩
        cases reached with
        | none => exact Res.ok_ne_panic _
        | some reached =>
            dsimp only
            rw [formatFelt_eq]
            exact Res.ok_ne_panic _

/-- Only the first list is looked at; there has to be one. -/
theorem verifyStorageProofs_ne_panic {contractData : ContractData} {key : StorageKey}
    {value : Felt} :
    verifyStorageProofs crates profile contractData key value ≠ Res.panic ↔
      ∀ lists ∈ contractData.storageProofs, ∃ nodes others, lists = nodes :: others ∧
        ∀ k, crates.fromHex key.text = some k →
          WalkInRange crates profile (feltToBits k.toBytesBe) value.field nodes := by
  cases listed : contractData.storageProofs with
  | none =>
      simp only [verifyStorageProofs, listed, Res.okOr_none, Res.err_bind]
      refine iff_of_true (Res.err_ne_panic _) ?_
      rintro lists ⟨⟩
  | some lists =>
      cases lists with
      | nil =>
          simp only [verifyStorageProofs, listed, Res.okOr_some, Res.ok_bind]
          refine iff_of_false (fun other => other rfl) fun inRange => ?_
          obtain ⟨nodes, others, split, -⟩ := inRange [] rfl
          exact List.cons_ne_nil _ _ split.symm
      | cons nodes others =>
          have first : (Res.index (nodes :: others) 0 : Res JsonRpcError Proof) = .ok nodes := rfl
          simp only [verifyStorageProofs, listed, Res.okOr_some, Res.ok_bind, first,
            Res.bind_ne_panic, parseProof_ne_panic]
          constructor
          · rintro ⟨inRange, -⟩ _ ⟨⟩
            exact ⟨nodes, others, rfl, inRange⟩
          · intro inRange
            obtain ⟨_, _, split, walk⟩ := inRange _ rfl
            obtain ⟨rfl, rfl⟩ := List.cons.inj split
            refine ⟨walk, fun parsed _ => ?_⟩
            cases parsed with
            | none => exact Res.err_ne_panic _
            | some computedRoot =>
                dsimp only
                split
                · exact Res.ok_ne_panic _
                · exact Res.err_ne_panic _

theorem verifyContractProof_ne_panic {self : GetProofResult} {contractData : ContractData}
    {globalRoot : Felt} {contractAddress : Address} :
    verifyContractProof crates profile self contractData globalRoot contractAddress ≠ Res.panic ↔
      WalkInRange crates profile (feltToBits contractAddress.felt.field.toBytesBe)
        (contractData.leaf crates) self.contractProof := by
  simp only [verifyContractProof, calculateContractStateHash_eq, Res.ok_bind, Res.bind_ne_panic,
    parseProof_ne_panic, Felt.fromHex_text, Option.some.injEq, forall_eq', Felt.field_ofField]
  apply and_iff_left_of_imp
  intro _ parsed _
  cases parsed with
  | none => exact Res.err_ne_panic _
  | some storageCommitment =>
      cases self.classCommitment with
      | none => exact Res.err_ne_panic _
      | some classCommitment =>
          simp only [Res.okOr_some, Res.ok_bind, calculateGlobalRoot_eq, Res.mapErr_ok]
          cases self.stateCommitment with
          | none => exact Res.err_ne_panic _
          | some stateCommitment =>
              simp only [Res.okOr_some, Res.ok_bind]
              split
              · exact Res.ok_ne_panic _
              · exact Res.err_ne_panic _

/-- What `verify` comes to is in range: there is a storage proof, its walk is in
range, and where it proves the value under the contract's root, so is the walk of
the contract proof. -/
def InRange (crates : Crates) (profile : Profile) (self : GetProofResult)
    (contractAddress : Address) (key : StorageKey) (value : Felt) : Prop :=
  ∀ contractData ∈ self.contractData, ∀ lists ∈ contractData.storageProofs,
    ∃ nodes others, lists = nodes :: others ∧ ∀ k, crates.fromHex key.text = some k →
      WalkInRange crates profile (feltToBits k.toBytesBe) value.field nodes ∧
        ∀ root, Proves crates profile k value.field nodes root →
          contractData.root = .ofField root →
            WalkInRange crates profile (feltToBits contractAddress.felt.field.toBytesBe)
              (contractData.leaf crates) self.contractProof

/-- `verify` returns `Ok` or `Err` exactly where what it comes to is in range. -/
theorem verify_returns_iff {self : GetProofResult} {globalRoot : Felt} {contractAddress : Address}
    {key : StorageKey} {value : Felt} :
    (verify crates profile self globalRoot contractAddress key value = .ok () ∨
        ∃ e, verify crates profile self globalRoot contractAddress key value = Res.err e) ↔
      self.InRange crates profile contractAddress key value := by
  have returns : (verify crates profile self globalRoot contractAddress key value = .ok () ∨
      ∃ e, verify crates profile self globalRoot contractAddress key value = Res.err e) ↔
      verify crates profile self globalRoot contractAddress key value ≠ Res.panic := by
    rw [Res.ne_panic_iff]
    exact or_congr_left ⟨fun ok => ⟨(), ok⟩, fun ⟨_, ok⟩ => ok⟩
  rw [returns]
  cases present : self.contractData with
  | none =>
      simp only [verify, InRange, present, Res.okOr_none, Res.err_bind]
      refine iff_of_true (Res.err_ne_panic _) ?_
      rintro contractData ⟨⟩
  | some contractData =>
      simp only [verify, present, Res.okOr_some, Res.ok_bind, Res.bind_ne_panic,
        verifyStorageProofs_ne_panic, verifyContractProof_ne_panic]
      constructor
      · rintro ⟨storage, contracts⟩ data mem lists listed
        obtain rfl : contractData = data := Option.some.inj (present.symm.trans mem)
        obtain ⟨nodes, others, rfl, walk⟩ := storage lists listed
        refine ⟨nodes, others, rfl, fun k read => ⟨walk k read, fun root proves top => ?_⟩⟩
        exact contracts () (verifyStorageProofs_eq_ok.mpr
          ⟨nodes, others, k, root, listed, read, proves, top⟩)
      · intro inRange
        constructor
        · intro lists listed
          obtain ⟨nodes, others, rfl, walk⟩ := inRange contractData present lists listed
          exact ⟨nodes, others, rfl, fun k read => (walk k read).1⟩
        · rintro ⟨⟩ accepted
          obtain ⟨nodes, others, k, root, listed, read, proves, top⟩ :=
            verifyStorageProofs_eq_ok.mp accepted
          obtain ⟨_, _, split, walk⟩ := inRange contractData present _ listed
          obtain ⟨rfl, rfl⟩ := List.cons.inj split
          exact (walk k read).2 root proves top

end GetProofResult

/-- The sample proof with an empty list of storage proofs. -/
def unlistedProof : GetProofResult :=
  { sampleProof with
    contractData := sampleProof.contractData.map fun contractData =>
      { contractData with storageProofs := some [] } }

/-- The sample proof with a binary node above an edge over the whole path. -/
def overlongProof : GetProofResult :=
  { sampleProof with
    contractData := sampleProof.contractData.map fun contractData =>
      { contractData with
        storageProofs := some
          [[.binaryNode (.ofNat 0) (.ofNat 0), .edgeNode (.ofNat 0x2a) ⟨251, .ofNat 0x5⟩]] } }

/-- Without a storage proof `verify` panics, and with a list that is too long, with
overflow checks or without. -/
theorem verify_panics :
    (unlistedProof.verify sampleHashes .debug (.ofField (sampleState.root sampleHashes))
        sampleAddress sampleKey (.ofNat 0x2a) = Res.panic ∧
      unlistedProof.verify sampleHashes .release (.ofField (sampleState.root sampleHashes))
        sampleAddress sampleKey (.ofNat 0x2a) = Res.panic) ∧
    overlongProof.verify sampleHashes .debug (.ofField (sampleState.root sampleHashes))
        sampleAddress sampleKey (.ofNat 0x2a) = Res.panic ∧
      overlongProof.verify sampleHashes .release (.ofField (sampleState.root sampleHashes))
        sampleAddress sampleKey (.ofNat 0x2a) = Res.panic := by
  refine ⟨⟨?_, ?_⟩, ?_, ?_⟩ <;> decide +kernel

end Beerus
