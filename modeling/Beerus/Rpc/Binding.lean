import Beerus.Exe.Provenance
import Beerus.Exe.Transparency
import Beerus.Rpc

/-!
What a provider can choose about a storage value.

A value that `getStorageAt` returns was verified against a root. For the head's
own ids that is the head's root, and where `verify` is sound nothing is left to
choose. For an older block it is the root of a header that the same provider
presents, and two providers can have two values accepted.
-/

namespace Beerus

open Beerus.Lib

variable {GetClassResult : Type}

/-- How a request's actions are answered while the server holds one head. -/
def ServerOp.AnsweredOn
    (verify : GetProofResult → Felt → Address → StorageKey → Felt → Res JsonRpcError Unit)
    (provider : (call : Call) → call.Answer GetClassResult → Prop) (head : State) :
    (op : ServerOp) → op.Answer GetClassResult → Prop
  | .lock, answer => answer = head
  | .snapshot, answer => answer = head
  | .inner op, answer => op.Answered verify provider answer
  | _, _ => True

/-- The answers of functions. -/
def ServerOp.answerOn (answer : (op : ProxyOp) → op.Answer GetClassResult) (head : State) :
    (op : ServerOp) → op.Answer GetClassResult
  | .lock => head
  | .unlock => ()
  | .snapshot => head
  | .publish _ => ()
  | .gateway => Res.err (.report "failed to send gateway request")
  | .inner op => answer op

theorem ServerOp.answerOn_answers
    {verify : GetProofResult → Felt → Address → StorageKey → Felt → Res JsonRpcError Unit}
    {provider : (call : Call) → call.Answer GetClassResult → Prop}
    {answer : (op : ProxyOp) → op.Answer GetClassResult}
    (answers : ∀ op, ProxyOp.Answered verify provider op (answer op)) (head : State)
    (op : ServerOp) : op.AnsweredOn verify provider head (op.answerOn answer head) := by
  cases op with
  | lock => rfl
  | snapshot => rfl
  | inner op => exact answers op
  | _ => trivial

/-- The roots that a requested id can come with: the head's, or one that the
provider presents for it. -/
def RootFor (provider : (call : Call) → call.Answer GetClassResult → Prop) (head : State)
    (requested : BlockId) (root : Felt) : Prop :=
  (IsOwn head requested ∧ root = head.root) ∨
    (¬ IsOwn head requested ∧ ∃ header, root = header.newRoot ∧
      provider (.getBlockWithTxHashes requested) (.ok (.blockWithTxHashes header)))

variable {verify : GetProofResult → Felt → Address → StorageKey → Felt → Res JsonRpcError Unit}
  {provider : (call : Call) → call.Answer GetClassResult → Prop} {head : State}
  {requested : BlockId}

/-- Resolution yields a root for the requested id. -/
theorem resolveBlockId_yields :
    (Context.resolveBlockId requested).Yields (ServerOp.AnsweredOn verify provider head)
      fun result => ∀ sent root, result = .ok (sent, root) →
        RootFor provider head requested root := by
  rintro state rfl
  refine Prog.Yields.andFinally ?_ _
  by_cases supported : requested = .blockTag .pending
  · subst supported
    exact nofun
  by_cases own : IsOwn state requested
  · obtain ⟨result, eq, spec⟩ := @Context.resolveAt_own GetClassResult _ _ own
    rw [eq]
    intro sent root ok
    obtain ⟨ofHead, -⟩ := spec sent root ok
    cases ofHead <;> exact .inl ⟨own, rfl⟩
  · obtain ⟨result, eq, spec⟩ := @Context.resolveAt_older GetClassResult _ _ own supported
    rw [eq]
    intro answer answered sent root ok
    obtain ⟨header, rfl, -, rfl, rfl⟩ := (spec answer sent root).mp ok
    exact .inr ⟨own, header, rfl, answered⟩

/-- A value that is returned is the one under its root, where `verify` is
sound. -/
theorem getStorageAt_yields {slot : Felt → Address → StorageKey → FieldElement}
    (sound : ∀ proof root contractAddress key v,
      verify proof root contractAddress key v = .ok () → v.field = slot root contractAddress key)
    (contractAddress : Address) (key : StorageKey) :
    (Context.getStorageAt contractAddress key requested).Yields
      (ServerOp.AnsweredOn verify provider head)
      fun result => ∀ v : Felt, result = .ok v → ∃ root,
        RootFor provider head requested root ∧ v.field = slot root contractAddress key := by
  refine Prog.yields_bind.mpr (resolveBlockId_yields.weaken ?_)
  intro result resolved
  cases result with
  | error e => exact nofun
  | ok pair =>
      obtain ⟨sent, root⟩ := pair
      intro answer _
      cases answer with
      | error e => exact nofun
      | ok v =>
          intro answer _
          cases answer with
          | error e => exact nofun
          | ok proof =>
              intro answer answered
              match answer, answered with
              | .error (.error e), _ => exact nofun
              | .error .panic, _ => exact nofun
              | .ok (), answered =>
                  rintro _ ⟨⟩
                  exact ⟨root, resolved sent root rfl, sound proof root _ _ v answered.symm⟩

/-- Two providers get the same value accepted for the head's own ids, and for an
older block where they present one root for it. -/
theorem getStorageAt_agree {slot : Felt → Address → StorageKey → FieldElement}
    (sound : ∀ proof root contractAddress key v,
      verify proof root contractAddress key v = .ok () → v.field = slot root contractAddress key)
    {provider₁ provider₂ : (call : Call) → call.Answer GetClassResult → Prop}
    {contractAddress : Address} {key : StorageKey} {v₁ v₂ : Felt}
    (one : (Context.getStorageAt contractAddress key requested).Ends
      (ServerOp.AnsweredOn verify provider₁ head) (.ok v₁))
    (two : (Context.getStorageAt contractAddress key requested).Ends
      (ServerOp.AnsweredOn verify provider₂ head) (.ok v₂))
    (bound : IsOwn head requested ∨ ∃ root, ∀ header,
      provider₁ (.getBlockWithTxHashes requested) (.ok (.blockWithTxHashes header)) ∨
        provider₂ (.getBlockWithTxHashes requested) (.ok (.blockWithTxHashes header)) →
          header.newRoot = root) :
    v₁.field = v₂.field := by
  obtain ⟨root₁, from₁, value₁⟩ := (getStorageAt_yields sound _ _).of_ends one v₁ rfl
  obtain ⟨root₂, from₂, value₂⟩ := (getStorageAt_yields sound _ _).of_ends two v₂ rfl
  have same : root₁ = root₂ := by
    rcases from₁ with ⟨own, rfl⟩ | ⟨older, header₁, rfl, presented₁⟩
    · rcases from₂ with ⟨-, rfl⟩ | ⟨older, -⟩
      · rfl
      · exact absurd own older
    · rcases from₂ with ⟨own, -⟩ | ⟨-, header₂, rfl, presented₂⟩
      · exact absurd own older
      · rcases bound with own | ⟨root, all⟩
        · exact absurd own older
        · rw [all header₁ (.inl presented₁), all header₂ (.inr presented₂)]
  rw [value₁, value₂, same]

/-! ### Two providers -/

/-- A verifier for states that hold their root in every slot. -/
def rootVerify (_ : GetProofResult) (globalRoot : Felt) (_ : Address) (_ : StorageKey)
    (value : Felt) : Res JsonRpcError Unit :=
  if value.field = globalRoot.field then .ok () else Res.err ⟨-1, "another value"⟩

theorem rootVerify_sound (proof : GetProofResult) (globalRoot : Felt) (contractAddress : Address)
    (key : StorageKey) (v : Felt)
    (ok : rootVerify proof globalRoot contractAddress key v = .ok ()) :
    v.field = globalRoot.field := by
  by_contra other
  rw [rootVerify, if_neg other] at ok
  exact nomatch ok

/-- A provider that presents a root for the third block, and answers with a
value. -/
def presenting (root value : Felt) : (op : ProxyOp) → op.Answer Unit
  | .rpc (.getBlockWithTxHashes _) =>
      .ok (.blockWithTxHashes ⟨⟨.ofNat 0x3⟩, ⟨3, by decide⟩, root⟩)
  | .rpc (.getStorageAt _ _ _) => .ok value
  | .rpc (.getProof _ _ _) => .ok sampleProof
  | .rpc _ => .error ⟨-1, "not served"⟩
  | .verify proof globalRoot contractAddress key v =>
      rootVerify proof globalRoot contractAddress key v

/-- How it answers requests. -/
def Presents (root value : Felt) (call : Call) (answer : call.Answer Unit) : Prop :=
  answer = presenting root value (.rpc call)

/-- A head with the root `0xab`. -/
def spelledHead : State := { sampleHead true with root := sampleSpelling false }

/-- What a request to such a provider comes to. -/
def served (root value : Felt) (requested : BlockId) : Except (Fault JsonRpcError) Felt :=
  (Context.getStorageAt sampleContractKey.asAddress sampleSlot.asStorageKey requested).eval
    (ServerOp.answerOn (presenting root value) spelledHead)

theorem served_ends {root value : Felt} {requested : BlockId} {v : Felt}
    (ok : served root value requested = .ok v) :
    (Context.getStorageAt sampleContractKey.asAddress sampleSlot.asStorageKey requested).Ends
      (ServerOp.AnsweredOn rootVerify (Presents root value) spelledHead) (.ok v) := by
  rw [← ok]
  refine Prog.ends_eval (ServerOp.answerOn_answers (fun op => ?_) _) _
  cases op with
  | rpc call => rfl
  | verify => rfl

/-- For the latest block, only the spelling is left to choose. -/
theorem latest_agree :
    served (.ofNat 0x1) (sampleSpelling false) (.blockTag .latest) = .ok (sampleSpelling false) ∧
      served (.ofNat 0x2) (sampleSpelling true) (.blockTag .latest) = .ok (sampleSpelling true) ∧
      sampleSpelling false ≠ sampleSpelling true ∧
      (sampleSpelling false).field = (sampleSpelling true).field := by
  have one : served (.ofNat 0x1) (sampleSpelling false) (.blockTag .latest) =
      .ok (sampleSpelling false) := by decide +kernel
  have two : served (.ofNat 0x2) (sampleSpelling true) (.blockTag .latest) =
      .ok (sampleSpelling true) := by decide +kernel
  exact ⟨one, two, by decide,
    getStorageAt_agree rootVerify_sound (served_ends one) (served_ends two) (.inl trivial)⟩

/-- The third block, which is below the head. -/
abbrev thirdBlock : BlockId := .blockNumber ⟨3, by decide⟩

/-- For an older block, two providers that present different roots have different
values accepted. -/
theorem older_disagree :
    (Context.getStorageAt sampleContractKey.asAddress sampleSlot.asStorageKey thirdBlock).Ends
        (ServerOp.AnsweredOn rootVerify (Presents (.ofNat 0x1) (.ofNat 0x1)) spelledHead)
        (.ok (.ofNat 0x1)) ∧
      (Context.getStorageAt sampleContractKey.asAddress sampleSlot.asStorageKey thirdBlock).Ends
        (ServerOp.AnsweredOn rootVerify (Presents (.ofNat 0x2) (.ofNat 0x2)) spelledHead)
        (.ok (.ofNat 0x2)) ∧
      (Felt.ofNat 0x1).field ≠ (Felt.ofNat 0x2).field ∧
      ∀ proof globalRoot contractAddress key v,
        rootVerify proof globalRoot contractAddress key v = .ok () → v.field = globalRoot.field :=
  ⟨served_ends (by decide +kernel), served_ends (by decide +kernel), by decide +kernel,
    rootVerify_sound⟩

end Beerus
