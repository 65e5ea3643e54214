import Beerus.Service.Honest

/-!
Storage requests on an honest chain.

A chain numbers the blocks of a network. Where the provider and the gateway are
honest about it, every storage request of every run of the service reads its
slot in the block that its id resolves to, for the head that it finds: no value
but the slot's is returned, and that of a slot that is not zero always is
(`service_reads_honest`).
-/

namespace Beerus

open Beerus.Lib

variable {GetClassResult ContractClass ι : Type}

/-! ### A chain -/

/-- A network with its blocks in order, up to a last one. -/
structure Chain (GetClassResult : Type) extends Network GetClassResult where
  /-- The numbers that the hashes of the blocks spell. -/
  hash : Nat → Nat
  height : Nat
  fits : height < 2 ^ 63
  inj : ∀ m ≤ height, ∀ n ≤ height, hash m = hash n → m = n

namespace Chain

/-- The block of a number, or of a hash, however that is spelled. -/
def Names (chain : Chain GetClassResult) : BlockId → Nat → Prop
  | .blockNumber n, m => n.val.toInt = m
  | .blockHash h, m => h.felt.number = chain.hash m
  | .blockTag _, _ => False

/-- A header that is right about a block. -/
structure Describes (crates : Crates) (chain : Chain GetClassResult) (m : Nat)
    (header : BlockHeader) : Prop where
  number : header.blockNumber.val.toInt = m
  hash : header.blockHash.felt.number = chain.hash m
  lowerHash : header.blockHash.felt.IsLower
  root : header.newRoot.number = ((chain.state (chain.hash m)).root crates).val
  lower : header.newRoot.IsLower

/-- What an honest provider may answer to requests that name a block of the
chain, by its number or its hash, or that name none by a hash. -/
def Tells (crates : Crates) (chain : Chain GetClassResult) :
    (call : Call) → call.Answer GetClassResult → Prop
  | .getBlockWithTxHashes blockId, answer =>
      (∀ m ≤ chain.height, chain.Names blockId m → ∃ header,
        answer = .ok (.blockWithTxHashes header) ∧ chain.Describes crates m header) ∧
      ∀ h, blockId = .blockHash h → (∀ m ≤ chain.height, ¬ chain.Names blockId m) →
        ∃ e, answer = .error e
  | .getStorageAt contractAddress key (.blockNumber n), answer =>
      ∀ m ≤ chain.height, n.val.toInt = (m : Nat) → ∀ k, hexLiteral key.text = some k →
        chain.Answers (chain.hash m) contractAddress.felt.number
          (fun contract (v : Felt) => v.number = (contract.valueAt k).val) answer
  | .getProof (.blockNumber n) contractAddress [key], answer =>
      ∀ m ≤ chain.height, n.val.toInt = (m : Nat) → ∀ k, hexLiteral key.text = some k →
        chain.Answers (chain.hash m) contractAddress.felt.number
          (fun contract (proof : GetProofResult) =>
            (∃ others, ((chain.state (chain.hash m)).proofOf crates contract
              contractAddress.felt.number k others).Respells proof) ∧
            ∀ root : Felt, root.IsLower → proof.RootsLower root) answer
  | call, answer => chain.toNetwork.Tells crates call answer

/-- A head of the chain. -/
structure IsHead (crates : Crates) (chain : Chain GetClassResult) (head : State) : Prop
    extends chain.toNetwork.IsHead crates head where
  number : head.blockHash.number = chain.hash head.blockNumber
  known : head.blockNumber ≤ chain.height

/-- Responses of an honest gateway show heads of the chain, if any. -/
def Shows (crates : Crates) (chain : Chain GetClassResult) (response : GatewayAnswer) : Prop :=
  ∀ head, GatewayClient.getState response = .ok head → chain.IsHead crates head

/-- A world in which the provider and the gateway are honest. -/
structure Honest (crates : Crates) (chain : Chain GetClassResult) (world : World GetClassResult) :
    Prop where
  provider : ∀ call answer, world.provider call answer → chain.Tells crates call answer
  gateway : ∀ response, world.gateway response → chain.Shows crates response

/-! ### What requests come to -/

/-- The block that an id stands for, where a request finds this head. -/
inductive Resolves (chain : Chain GetClassResult) (head : State) : BlockId → Nat → Prop where
  | latest : Resolves chain head (.blockTag .latest) head.blockNumber
  | later (n : BlockNumber) :
      (head.blockNumber : Int) ≤ n.val.toInt →
      Resolves chain head (.blockNumber n) head.blockNumber
  | older (n : BlockNumber) (m : Nat) :
      n.val.toInt = m →
      m < head.blockNumber →
      Resolves chain head (.blockNumber n) m
  | headHash (h : BlockHash) :
      h.felt.text = head.blockHash.text →
      Resolves chain head (.blockHash h) head.blockNumber
  | olderHash (h : BlockHash) (m : Nat) :
      h.felt.number = chain.hash m →
      h.felt.IsLower →
      m < head.blockNumber →
      Resolves chain head (.blockHash h) m

/-- How a slot of a block is read. -/
structure Reads (chain : Chain GetClassResult) (m : Nat) (contractAddress : Address)
    (key : StorageKey) (result : Res JsonRpcError Felt) : Prop where
  right : ∀ v, result = .ok v → ∃ contract k, hexLiteral key.text = some k ∧
    (chain.state (chain.hash m)).contractAt contractAddress.felt.number = some contract ∧
    v.number = (contract.valueAt k).val
  complete : ∀ contract k, contractAddress.felt.number < 2 ^ 251 →
    hexLiteral key.text = some k → k < 2 ^ 251 →
    (chain.state (chain.hash m)).contractAt contractAddress.felt.number = some contract →
    contract.valueAt k ≠ 0 → ∃ v, result = .ok v

/-- How a request is served that finds this head. -/
structure Serves (chain : Chain GetClassResult) (head : State) (contractAddress : Address)
    (key : StorageKey) (blockId : BlockId) (result : Res JsonRpcError Felt) : Prop where
  reads : ∀ m, chain.Resolves head blockId m → chain.Reads m contractAddress key result
  refuses : (∀ m, ¬ chain.Resolves head blockId m) → ∃ fault, result = .error fault

section Resolution

variable {crates : Crates} {chain : Chain GetClassResult} {head : State} {blockId : BlockId}
  {m : Nat}

/-- An id stands for one block. -/
theorem Resolves.unique (isHead : chain.IsHead crates head) {n : Nat}
    (resolves : chain.Resolves head blockId m) (resolves' : chain.Resolves head blockId n) :
    m = n := by
  have known := isHead.known
  have ofText : ∀ {h : BlockHash} {m : Nat}, h.felt.text = head.blockHash.text →
      h.felt.number = chain.hash m → m < head.blockNumber → head.blockNumber = m := by
    intro h m same named below
    rw [Felt.text_inj.mp same] at named
    exact chain.inj _ known m (below.le.trans known) (isHead.number.symm.trans named)
  cases resolves with
  | latest =>
      cases resolves'
      rfl
  | later n from' =>
      cases resolves' with
      | later => rfl
      | older _ _ same below => omega
  | older n m same below =>
      cases resolves' with
      | later _ from' => omega
      | older _ _ same' => omega
  | headHash h same =>
      cases resolves' with
      | headHash => rfl
      | olderHash _ _ named _ below => exact ofText same named below
  | olderHash h m named lower below =>
      cases resolves' with
      | headHash _ same => exact (ofText same named below).symm
      | olderHash _ _ named' _ below' =>
          exact chain.inj m (below.le.trans known) n (below'.le.trans known)
            (named.symm.trans named')

/-- An id that is not the head's own stands for an older block, whose header
echoes it. -/
theorem Resolves.of_older (older : ¬ IsOwn head blockId)
    (resolves : chain.Resolves head blockId m) :
    chain.Names blockId m ∧ m < head.blockNumber ∧
      ∀ header, chain.Describes crates m header → Echoes blockId header := by
  cases resolves with
  | latest => exact absurd trivial older
  | later n from' => exact absurd from' older
  | older n m same below =>
      exact ⟨same, below, fun header describes => describes.number.trans same.symm⟩
  | headHash h same => exact absurd same older
  | olderHash h m named lower below =>
      refine ⟨named, below, fun header describes => ?_⟩
      exact congrArg Felt.text (Felt.eq_of_isLower describes.lowerHash lower
        (describes.hash.trans named.symm))

/-- An id and a root of a block. -/
structure Rooted (crates : Crates) (chain : Chain GetClassResult) (sent : BlockId)
    (stateRoot : Felt) (m : Nat) : Prop where
  names : chain.Names sent m
  known : m ≤ chain.height
  root : stateRoot.number = ((chain.state (chain.hash m)).root crates).val
  lower : stateRoot.IsLower

theorem IsHead.rooted (isHead : chain.IsHead crates head) {sent : BlockId}
    (names : chain.Names sent head.blockNumber) :
    chain.Rooted crates sent head.root head.blockNumber :=
  ⟨names, isHead.known, isHead.number ▸ isHead.root, isHead.lower⟩

/-- What an id is resolved to: one of the block that it stands for. -/
def Resolution (crates : Crates) (chain : Chain GetClassResult) (head : State)
    (blockId : BlockId) : Res JsonRpcError (BlockId × Felt) → Prop
  | .ok (sent, root) => ∃ m, chain.Resolves head blockId m ∧ chain.Rooted crates sent root m
  | .error _ => ∀ m, ¬ chain.Resolves head blockId m

theorem resolution_ownNumber (isHead : chain.IsHead crates head)
    (resolves : chain.Resolves head blockId head.blockNumber) :
    chain.Resolution crates head blockId (Context.ownNumber head) := by
  obtain ⟨m, same⟩ := exists_blockNumber_iff.mpr (isHead.known.trans_lt chain.fits)
  rw [Context.ownNumber_eq_ok.mpr ⟨rfl, m, rfl, same⟩]
  exact ⟨_, resolves, isHead.rooted same⟩

variable {linked : Linked GetClassResult ContractClass} {world : World GetClassResult}

/-- An honest header resolves an id to the block that it stands for. -/
theorem resolveAt_honest (honest : chain.Honest linked.crates world)
    (isHead : chain.IsHead linked.crates head) (blockId : BlockId) :
    (Context.resolveAt head blockId).Yields (ProxyOp.Answered linked.verify world.provider)
      (chain.Resolution linked.crates head blockId) := by
  by_cases supported : blockId = .blockTag .pending
  · subst supported
    exact nofun
  by_cases own : IsOwn head blockId
  · cases blockId with
    | blockTag tag =>
        cases tag with
        | latest =>
            rw [Context.resolveAt_latest]
            exact resolution_ownNumber isHead .latest
        | pending => exact absurd rfl supported
    | blockNumber n =>
        have high : asU64 n.val ≥ head.blockNumber := by
          have number := asU64_of_nonneg n.nonneg
          unfold IsOwn at own
          omega
        have branch : (Context.resolveAt head (.blockNumber n) : ContextProg GetClassResult _) =
            Context.resolveAt head (.blockTag .latest) := if_pos high
        rw [branch, Context.resolveAt_latest]
        exact resolution_ownNumber isHead (.later n own)
    | blockHash h =>
        have branch : (Context.resolveAt head (.blockHash h) : ContextProg GetClassResult _) =
            pure (.blockHash h, head.root) := if_pos own
        have named : chain.Names (.blockHash h) head.blockNumber := by
          have same : h.felt = head.blockHash := Felt.text_inj.mp own
          exact (congrArg Felt.number same).trans isHead.number
        rw [branch]
        exact ⟨_, .headHash h own, isHead.rooted named⟩
  · obtain ⟨result, eq, spec⟩ := @Context.resolveAt_older GetClassResult _ _ own supported
    rw [eq]
    intro answer told
    obtain ⟨headers, unknown⟩ := honest.provider _ _ told
    show chain.Resolution linked.crates head blockId (result answer)
    cases ends : result answer with
    | error fault =>
        intro m resolves
        obtain ⟨names, below, echoes⟩ := resolves.of_older own
        obtain ⟨header, rfl, describes⟩ := headers m (below.le.trans isHead.known) names
        have below' : header.blockNumber.val.toInt < head.blockNumber := by
          rw [describes.number]
          exact Int.ofNat_lt.mpr below
        have ok := (spec _ blockId header.newRoot).mpr
          ⟨header, rfl, ⟨echoes header describes, below'⟩, rfl, rfl⟩
        exact nomatch ends.symm.trans ok
    | ok pair =>
        obtain ⟨sent, root⟩ := pair
        obtain ⟨header, rfl, ⟨echoes, below⟩, rfl, rfl⟩ := (spec _ _ _).mp ends
        have named : ∃ m ≤ chain.height, chain.Names sent m := by
          cases sent with
          | blockNumber n =>
              have echo : header.blockNumber.val.toInt = n.val.toInt := echoes
              have known := isHead.known
              have nonneg := n.nonneg
              exact ⟨n.val.toInt.toNat, by omega, (Int.toNat_of_nonneg nonneg).symm⟩
          | blockHash h =>
              by_contra none
              obtain ⟨e, refused⟩ := unknown h rfl fun m known names => none ⟨m, known, names⟩
              exact nomatch refused
          | blockTag tag => exact echoes.elim
        obtain ⟨m, known, names⟩ := named
        obtain ⟨header', same, describes⟩ := headers m known names
        cases same
        have below : m < head.blockNumber := by
          have number := describes.number
          omega
        refine ⟨m, ?_, names, known, describes.root, describes.lower⟩
        cases sent with
        | blockNumber n => exact .older n m names below
        | blockHash h =>
            have same : header.blockHash.felt = h.felt := Felt.text_inj.mp echoes
            exact .olderHash h m names (same ▸ describes.lowerHash) below
        | blockTag tag => exact echoes.elim

end Resolution

section Requests

variable {crates : Crates} {chain : Chain GetClassResult} {sent : BlockId} {m : Nat}
  {contractAddress : Address} {key : StorageKey} {k : Nat}

/-- An honest value, by whichever id of the block. -/
theorem Tells.value {answer : Except JsonRpcError Felt}
    (told : chain.Tells crates (.getStorageAt contractAddress key sent) answer)
    (names : chain.Names sent m) (known : m ≤ chain.height)
    (literal : hexLiteral key.text = some k) :
    chain.Answers (chain.hash m) contractAddress.felt.number
      (fun contract (v : Felt) => v.number = (contract.valueAt k).val) answer := by
  cases sent with
  | blockNumber n => exact told m known names k literal
  | blockHash h =>
      have named : h.felt.number = chain.hash m := names
      exact named ▸ told k literal
  | blockTag tag => exact names.elim

/-- An honest proof. -/
theorem Tells.proof {answer : Except JsonRpcError GetProofResult}
    (told : chain.Tells crates (.getProof sent contractAddress [key]) answer)
    (names : chain.Names sent m) (known : m ≤ chain.height)
    (literal : hexLiteral key.text = some k) :
    chain.Answers (chain.hash m) contractAddress.felt.number
      (fun contract (proof : GetProofResult) =>
        (∃ others, ((chain.state (chain.hash m)).proofOf crates contract
          contractAddress.felt.number k others).Respells proof) ∧
        ∀ root : Felt, root.IsLower → proof.RootsLower root) answer := by
  cases sent with
  | blockNumber n => exact told m known names k literal
  | blockHash h =>
      have named : h.felt.number = chain.hash m := names
      exact named ▸ told k literal
  | blockTag tag => exact names.elim

/-- What is refused about a deployed contract is not told honestly. -/
theorem not_refused {α : Type} {block address : Nat} {about : Contract → α → Prop}
    {contract : Contract} {e : JsonRpcError}
    (deployed : (chain.state block).contractAt address = some contract) :
    ¬ chain.Answers block address about (.error e) := by
  intro answers
  rcases answers.cases with ⟨_, _, _, ⟨⟩, _⟩ | ⟨undeployed, _⟩
  exact Option.some_ne_none contract (deployed.symm.trans undeployed)

variable {linked : Linked GetClassResult ContractClass} {world : World GetClassResult}
  {stateRoot : Felt}

/-- With an id and the root of a block, the slot in that block is read. -/
theorem getVerified_honest (honest : chain.Honest linked.crates world)
    (rooted : chain.Rooted linked.crates sent stateRoot m) (contractAddress : Address)
    (key : StorageKey) :
    (Context.getVerified contractAddress key sent stateRoot).Yields
      (ProxyOp.Answered linked.verify world.provider) (chain.Reads m contractAddress key) := by
  intro answer told
  have told : chain.Tells linked.crates (.getStorageAt contractAddress key sent) answer :=
    honest.provider _ _ told
  cases answer with
  | error e =>
      refine ⟨nofun, fun contract k low literal small deployed nonzero => ?_⟩
      exact absurd (told.value rooted.names rooted.known literal) (not_refused deployed)
  | ok v =>
      intro answer told'
      have told' : chain.Tells linked.crates (.getProof sent contractAddress [key]) answer :=
        honest.provider _ _ told'
      cases answer with
      | error e =>
          refine ⟨nofun, fun contract k low literal small deployed nonzero => ?_⟩
          exact absurd (told'.proof rooted.names rooted.known literal) (not_refused deployed)
      | ok proof =>
          intro answer checked
          have checked : answer =
              linked.verify proof stateRoot contractAddress key v := checked
          cases answer with
          | ok =>
              refine ⟨?_, fun _ _ _ _ _ _ _ => ⟨v, rfl⟩⟩
              rintro _ ⟨⟩
              obtain ⟨⟨_, _, _, _, _, _, _, _, -, -, parsed, -⟩, -⟩ :=
                verify_eq_ok_iff.mp checked.symm
              rw [key.fromHex_text] at parsed
              obtain ⟨k, literal, -⟩ := Option.map_eq_some_iff.mp parsed
              rcases (told.value rooted.names rooted.known literal).cases with
                ⟨contract, _, deployed, ⟨⟩, spelled⟩ | ⟨-, ⟨⟩⟩
              exact ⟨contract, k, literal, deployed, spelled⟩
          | error fault =>
              refine ⟨nofun, fun contract k low literal small deployed nonzero => ?_⟩
              rcases (told.value rooted.names rooted.known literal).cases with
                ⟨contract', _, deployed', ⟨⟩, spelled⟩ | ⟨-, ⟨⟩⟩
              obtain rfl := Option.some.inj (deployed.symm.trans deployed')
              rcases (told'.proof rooted.names rooted.known literal).cases with
                ⟨contract', _, deployed', ⟨⟩, ⟨others, respelled⟩, lower⟩ | ⟨-, ⟨⟩⟩
              obtain rfl := Option.some.inj (deployed.symm.trans deployed')
              have accepted : linked.verify proof stateRoot contractAddress key v = .ok () :=
                verify_honest rooted.root low deployed literal small spelled
                  (fun zero => nonzero (Fin.ext (spelled.symm.trans zero))) respelled
                  (lower _ rooted.lower)
              exact nomatch checked.trans accepted

end Requests

end Chain

/-! ### Requests of the service -/

section Runs

variable {chain : Chain GetClassResult} {linked : Linked GetClassResult ContractClass}
  {world : World GetClassResult} {boot : GatewayAnswer}

/-- How a request's actions are answered once it has found a head. -/
def ServerOp.Answered
    (verify : GetProofResult → Felt → Address → StorageKey → Felt → Res JsonRpcError Unit)
    (provider : (call : Call) → call.Answer GetClassResult → Prop) :
    (op : ServerOp) → op.Answer GetClassResult → Prop
  | .inner op, answer => op.Answered verify provider answer
  | _, _ => True

/-- How they are answered as actions of the service. -/
def ServiceOp.Answered
    (verify : GetProofResult → Felt → Address → StorageKey → Felt → Res JsonRpcError Unit)
    (provider : (call : Call) → call.Answer GetClassResult → Prop) :
    (op : ServiceOp ContractClass) → CacheOp.Answer (ServerOp.Answer GetClassResult) op → Prop
  | .inner op, answer => ServerOp.Answered verify provider op answer
  | _, _ => True

theorem yields_lift {α : Type}
    {verify : GetProofResult → Felt → Address → StorageKey → Felt → Res JsonRpcError Unit}
    {provider : (call : Call) → call.Answer GetClassResult → Prop} {post : Res JsonRpcError α → Prop}
    {p : ContextProg GetClassResult α} (yields : p.Yields (ProxyOp.Answered verify provider) post) :
    p.lift.Yields (ServerOp.Answered verify provider) post := by
  induction p with
  | done result => exact yields
  | act op next ih =>
      intro answer answered
      exact ih answer (yields answer answered)

/-- `getStorageAt`, for the head that it finds under the lock. -/
def Context.getStorageFrom (contractAddress : Address) (key : StorageKey) (blockId : BlockId)
    (head : State) : ServerProg GetClassResult Felt := do
  let (sent, stateRoot) ← (resolveAt head blockId).lift.andFinally .unlock
  (getVerified contractAddress key sent stateRoot).lift

theorem getStorageFrom_honest (honest : chain.Honest linked.crates world) {head : State}
    (isHead : chain.IsHead linked.crates head) (contractAddress : Address) (key : StorageKey)
    (blockId : BlockId) :
    (Context.getStorageFrom contractAddress key blockId head).Yields
      (ServerOp.Answered linked.verify world.provider)
      (chain.Serves head contractAddress key blockId) := by
  have resolution := (yields_lift (chain.resolveAt_honest honest isHead blockId)).andFinally .unlock
  refine Prog.yields_bind.mpr (resolution.weaken fun result resolved => ?_)
  cases result with
  | error fault => exact ⟨fun m resolves => absurd resolves (resolved m), fun _ => ⟨fault, rfl⟩⟩
  | ok pair =>
      obtain ⟨sent, stateRoot⟩ := pair
      obtain ⟨m, resolves, rooted⟩ := resolved
      have read := yields_lift (chain.getVerified_honest honest rooted contractAddress key)
      refine read.weaken fun result reads => ⟨fun m' resolves' => ?_, fun none => ?_⟩
      · exact resolves.unique isHead resolves' ▸ reads
      · exact absurd resolves (none m)

/-- How a task ends on an honest chain, as far as it reads storage. -/
def ServiceJob.ReadsOn (chain : Chain GetClassResult) (boot : GatewayAnswer)
    (seen : Set (ServiceEvent ι GetClassResult ContractClass)) :
    (job : ServiceJob) → List (ServiceEvent ι GetClassResult ContractClass) →
      Res JsonRpcError job.Result → Prop
  | .server (.getStorageAt contractAddress key blockId), past, result =>
      ∃ e ∈ past, e.op = .inner .lock ∧ Published boot seen e.before.server.head ∧
        chain.Serves e.before.server.head contractAddress key blockId result
  | _, _, _ => True

theorem safe_readsOn (honest : chain.Honest linked.crates world)
    {seen : Set (ServiceEvent ι GetClassResult ContractClass)}
    (heads : ∀ head, Published boot seen head → chain.IsHead linked.crates head)
    {tells : Nat → (call : StateCall ContractClass) → Res StateError call.Result → Prop} (i : ι)
    (job : ServiceJob) :
    (job.code linked).Safe i (ServiceMay linked world tells boot seen) (fun _ _ => True)
      (job.ReadsOn chain boot seen) [] := by
  cases job with
  | call request blockId => exact (Prog.yields_trivial _).safe
  | server job =>
      cases job with
      | poll ticks => exact (Prog.yields_trivial _).safe
      | getStorageAt contractAddress key blockId =>
          refine ⟨trivial, fun before head shown => ?_⟩
          obtain ⟨mem, -, rfl, known⟩ := shown
          have serves : ((Context.getStorageFrom contractAddress key blockId
              before.server.head).ofServer : ServiceProg GetClassResult ContractClass _).Yields
                (ServiceOp.Answered linked.verify world.provider)
                (chain.Serves before.server.head contractAddress key blockId) := by
            refine Prog.Yields.relabel ?_
              (getStorageFrom_honest honest (heads _ known) contractAddress key blockId)
            intro op answer answered
            exact answered
          refine (serves.safe_allowed ?_).suffix.weaken ?_
          · intro before op answer shown
            cases op with
            | get => trivial
            | set => trivial
            | inner op =>
                cases op with
                | inner op =>
                    cases op with
                    | rpc call => exact shown.2.1
                    | verify => exact shown.2.2
                | _ => trivial
          · rintro past result ⟨served, more⟩
            exact ⟨_, more.subset List.mem_cons_self, rfl, known, served⟩

/-- In every run of the service on an honest chain, a storage request reads its
slot in the block that its id stands for, for the head that it finds. -/
theorem service_reads_honest [DecidableEq ι] (honest : chain.Honest linked.crates world)
    {head : State} (started : GatewayClient.getState boot = .ok head)
    (shown : chain.Shows linked.crates boot) {c : ServiceConfig ι GetClassResult ContractClass}
    (reach : (serviceSystem linked world).Reach (Service.initial head) c) :
    ∀ i contractAddress key blockId past result,
      ⟨i, .server (.getStorageAt contractAddress key blockId), past, result⟩ ∈ c.finished →
        ∃ e ∈ past, e.op = .inner .lock ∧
          Published boot {e | e ∈ c.trace} e.before.server.head ∧
          chain.Serves e.before.server.head contractAddress key blockId result := by
  have heads := published_shown reach shown honest.gateway
  have kept := @service_keeps _ _ _ linked world (fun _ _ _ => True) boot _ _ _ started c reach
    (fun _ => id : ∀ e ∈ c.trace, e ∈ {e | e ∈ c.trace}) fun i head _ call past =>
      safe_embed_from (Prog.yields_trivial _)
  intro i contractAddress key blockId past result mem
  exact (reach.keeps_shown (safe_readsOn honest heads) kept.events).finished _ mem

end Runs

/-! ### An honest provider -/

namespace Chain

variable {crates : Crates} {chain : Chain GetClassResult}

instance decidableNames (chain : Chain GetClassResult) :
    (blockId : BlockId) → (m : Nat) → Decidable (chain.Names blockId m)
  | .blockNumber n, m => inferInstanceAs (Decidable (n.val.toInt = m))
  | .blockHash h, m => inferInstanceAs (Decidable (h.felt.number = chain.hash m))
  | .blockTag _, _ => inferInstanceAs (Decidable False)

/-- The block that an id names, if any. -/
def find (chain : Chain GetClassResult) (blockId : BlockId) : Option Nat :=
  (List.range (chain.height + 1)).find? fun m => chain.Names blockId m

/-- The header of a block. -/
def header (crates : Crates) (chain : Chain GetClassResult) (m : Nat) : BlockHeader where
  blockHash := ⟨.ofNat (chain.hash m)⟩
  blockNumber := ⟨.ofNat (m % 2 ^ 63), by
    rw [Int64.toInt_ofNat_of_lt (Nat.mod_lt m (by decide))]
    exact Int.natCast_nonneg _⟩
  newRoot := .ofField ((chain.state (chain.hash m)).root crates)

/-- A provider that knows the chain. -/
def serve (crates : Crates) (chain : Chain GetClassResult) :
    (call : Call) → call.Answer GetClassResult
  | .getBlockWithTxHashes blockId =>
      match chain.find blockId with
      | some m => .ok (.blockWithTxHashes (chain.header crates m))
      | none => .error ⟨24, "Block not found"⟩
  | .getStorageAt contractAddress key (.blockNumber n) =>
      chain.toNetwork.serve crates
        (.getStorageAt contractAddress key (.blockHash ⟨.ofNat (chain.hash n.val.toInt.toNat)⟩))
  | .getProof (.blockNumber n) contractAddress [key] =>
      chain.toNetwork.serve crates
        (.getProof (.blockHash ⟨.ofNat (chain.hash n.val.toInt.toNat)⟩) contractAddress [key])
  | call => chain.toNetwork.serve crates call

theorem find_eq_some {blockId : BlockId} {m : Nat} (known : m ≤ chain.height)
    (names : chain.Names blockId m) : chain.find blockId = some m := by
  cases found : chain.find blockId with
  | none =>
      have no := List.find?_eq_none.mp found m (List.mem_range.mpr (by omega))
      exact absurd (decide_eq_true names) no
  | some n =>
      have names' : chain.Names blockId n := of_decide_eq_true (List.find?_some found :)
      have known' : n < chain.height + 1 := List.mem_range.mp (List.mem_of_find?_eq_some found)
      refine congrArg some ?_
      cases blockId with
      | blockNumber k =>
          have same : k.val.toInt = m := names
          have same' : k.val.toInt = n := names'
          omega
      | blockHash h => exact chain.inj n (by omega) m known (names'.symm.trans names)
      | blockTag tag => exact names.elim

theorem find_eq_none {blockId : BlockId} (unknown : ∀ m ≤ chain.height, ¬ chain.Names blockId m) :
    chain.find blockId = none := by
  refine List.find?_eq_none.mpr fun m mem => ?_
  have known : m < chain.height + 1 := List.mem_range.mp mem
  simpa using unknown m (by omega)

section Serves

variable (small : ∀ m ≤ chain.height, chain.hash m < PRIME)

include small

theorem number_hash {m : Nat} (known : m ≤ chain.height) :
    (Felt.ofNat (chain.hash m)).number = chain.hash m :=
  (Felt.number_ofField _).trans (FieldElement.ofNat_val_of_lt (small m known))

theorem describes_header {m : Nat} (known : m ≤ chain.height) :
    chain.Describes crates m (chain.header crates m) where
  number := by
    have fits := chain.fits
    rw [header, Int64.toInt_ofNat_of_lt (Nat.mod_lt m (by decide)), Nat.mod_eq_of_lt (by omega)]
  hash := number_hash small known
  lowerHash := Felt.isLower_ofField _
  root := Felt.number_ofField _
  lower := Felt.isLower_ofField _

/-- It is honest. -/
theorem serve_tells (call : Call) : chain.Tells crates call (chain.serve crates call) := by
  have byHash := @Network.serve_tells _ crates chain.toNetwork
  have number : ∀ {n : BlockNumber} {m : Nat}, m ≤ chain.height → n.val.toInt = m →
      (Felt.ofNat (chain.hash n.val.toInt.toNat)).number = chain.hash m := by
    intro n m known same
    rw [same, Int.toNat_natCast, number_hash small known]
  match call with
  | .getBlockWithTxHashes blockId =>
      refine ⟨fun m known names => ?_, fun h _ unknown => ?_⟩
      · refine ⟨chain.header crates m, ?_, describes_header small known⟩
        rw [serve, find_eq_some known names]
      · refine ⟨⟨24, "Block not found"⟩, ?_⟩
        rw [serve, find_eq_none unknown]
  | .getStorageAt contractAddress key (.blockNumber n) =>
      intro m known same k literal
      rw [← number known same]
      exact byHash (.getStorageAt contractAddress key (.blockHash _)) k literal
  | .getProof (.blockNumber n) contractAddress [key] =>
      intro m known same k literal
      rw [← number known same]
      exact byHash (.getProof (.blockHash _) contractAddress [key]) k literal
  | .getStorageAt contractAddress key (.blockHash h) =>
      exact byHash (.getStorageAt contractAddress key (.blockHash h))
  | .getProof (.blockHash h) contractAddress keys =>
      exact byHash (.getProof (.blockHash h) contractAddress keys)
  | .getNonce blockId contractAddress => exact byHash (.getNonce blockId contractAddress)
  | .getClassHashAt blockId contractAddress =>
      exact byHash (.getClassHashAt blockId contractAddress)
  | .getClass blockId classHash => exact byHash (.getClass blockId classHash)
  | .getStorageAt _ _ (.blockTag _) => trivial
  | .getProof (.blockTag _) _ _ => trivial
  | .getProof (.blockNumber _) _ [] => trivial
  | .getProof (.blockNumber _) _ (_ :: _ :: _) => trivial

end Serves

end Chain

/-! ### A sample -/

/-- Eight blocks, all in the sample state. -/
def sampleChain : Chain Unit where
  toNetwork := sampleNetwork
  hash m := 0xa4 + m
  height := 7
  fits := by decide
  inj _ _ _ _ same := Nat.add_left_cancel same

/-- What is honest about it. -/
abbrev chainWorld : World Unit :=
  ⟨sampleChain.Tells sampleHashes, sampleChain.Shows sampleHashes⟩

abbrev chainService := @serviceSystem Unit Unit Bool _ sampleLinked chainWorld

theorem laterResponse_onChain : sampleChain.Shows sampleHashes laterResponse := by
  have head : GatewayClient.getState laterResponse = .ok (sampleHead false) := by decide +kernel
  intro _ received
  obtain rfl := Except.ok.inj (head.symm.trans received)
  exact ⟨laterResponse_shows _ head, by decide +kernel, by decide⟩

/-- What actions come to on it. -/
abbrev chainRun := @serviceRun Unit Unit Bool _
  (ProxyOp.answerBy sampleHashes .release (sampleChain.serve sampleHashes)) laterResponse

theorem chainService_does {i : Bool} {p : List (ServiceEvent Bool Unit Unit)}
    (enabled : p.all (fun e => ServiceOp.enabled e.before e.op) = true) :
    ∀ e ∈ p, chainService.exec i e.op (chainRun i e.op e.before).1 e.before
      (chainRun i e.op e.before).2 := by
  intro e mem
  refine serviceRun_does (fun op => ?_) laterResponse_onChain i (List.all_eq_true.mp enabled e mem)
  cases op with
  | rpc call => exact Chain.serve_tells (by decide) call
  | verify => rfl

/-- A request for the slot at `0x5` in the block before the head. -/
abbrev sampleOlderRead : ServerJob :=
  .getStorageAt sampleContractKey.asAddress sampleSlot.asStorageKey (.blockNumber ⟨6, by decide⟩)

theorem sampleOlderRead_honest :
    ∃ c past, chainService.Reach (Service.initial (sampleHead false)) c ∧
      ⟨false, .server sampleOlderRead, past, .ok (.ofNat 0x2a)⟩ ∈ c.finished ∧
      ∃ e ∈ past, e.op = .inner .lock ∧
        Published laterResponse {e | e ∈ c.trace} e.before.server.head ∧
        sampleChain.Serves e.before.server.head sampleContractKey.asAddress
          sampleSlot.asStorageKey (.blockNumber ⟨6, by decide⟩) (.ok (.ofNat 0x2a)) := by
  have served := chainService.reach_first (Service.initial (sampleHead false)) false
    (.server sampleOlderRead) (chainRun false)
    (chainService_does (by decide +kernel)) (show _ = .ok (.ofNat 0x2a) by decide +kernel)
  exact ⟨_, _, served, List.mem_cons_self, service_reads_honest ⟨fun _ _ => id, fun _ => id⟩
    (by decide +kernel) laterResponse_onChain served _ _ _ _ _ _ List.mem_cons_self⟩

end Beerus
