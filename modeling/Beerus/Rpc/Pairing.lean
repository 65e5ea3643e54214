import Beerus.Exe.Provenance
import Beerus.Rpc

/-!
Block ids and state roots stay paired.

Heads may be replaced between any two steps of a request. A request still sends
one block id to the provider, and verifies against a root that belongs to it:
the root of a head that was published while the request ran, or the root in the
provider's own header for an older block. A head is always one response of the
gateway.
-/

namespace Beerus

open Beerus.Lib

variable {ι GetClassResult : Type}

/-! ### Ids and roots -/

/-- The id under which an action asks for a value or its proof. -/
def ServerOp.sentId : ServerOp → Option BlockId
  | .inner (.rpc (.getStorageAt _ _ blockId)) => some blockId
  | .inner (.rpc (.getProof blockId _ _)) => some blockId
  | _ => none

/-- The ids that a request has sent so far. -/
def sentIds (past : List (ServerEvent ι GetClassResult)) : List BlockId :=
  past.filterMap fun e => e.op.sentId

/-- How an id that is sent and a root belong together, for a requested id: they
are the head's own, or the requested id and the root of a block below the head
that the provider has presented for it. -/
inductive Binding (head : State) (requested : BlockId)
    (past : List (ServerEvent ι GetClassResult)) : BlockId → Felt → Prop where
  | own {sent : BlockId} {root : Felt} (ofHead : OfHead head sent root) :
      Binding head requested past sent root
  | older (i : ι) (before : Server ι) (header : BlockHeader)
      (presented : (⟨i, before, .inner (.rpc (.getBlockWithTxHashes requested)),
        (.ok (.blockWithTxHashes header) : Except JsonRpcError GetBlockWithTxHashesResult)⟩ :
          ServerEvent ι GetClassResult) ∈ past)
      (echoes : Echoes requested header)
      (below : header.blockNumber.val.toInt < head.blockNumber) :
      Binding head requested past requested header.newRoot

/-- What resolution comes to. -/
structure Resolved (head : State) (requested : BlockId)
    (past : List (ServerEvent ι GetClassResult)) (sent : BlockId) (root : Felt) : Prop where
  binding : Binding head requested past sent root
  /-- A number from the head's on becomes the head's. -/
  clamped : ∀ n, requested = .blockNumber n → head.blockNumber ≤ n.val.toInt →
    OfHead head sent root ∧ ∃ m, sent = .blockNumber m
  supported : requested ≠ .blockTag .pending

theorem Resolved.mono {head : State} {requested : BlockId}
    {past past' : List (ServerEvent ι GetClassResult)} (more : past ⊆ past') {sent : BlockId}
    {root : Felt} (resolved : Resolved head requested past sent root) :
    Resolved head requested past' sent root := by
  obtain ⟨binding, clamped, supported⟩ := resolved
  refine ⟨?_, clamped, supported⟩
  cases binding with
  | own ofHead => exact .own ofHead
  | older i before header presented echoes below =>
      exact .older i before header (more presented) echoes below

/-! ### What the server may see -/

variable {verify : GetProofResult → Felt → Address → StorageKey → Felt → Res JsonRpcError Unit}

/-- A head that one response of the gateway has shown: the one the server
started with, or one that was received. -/
def Gathered (boot : GatewayAnswer) (events : Set (ServerEvent ι GetClassResult))
    (head : State) : Prop :=
  GatewayClient.getState boot = .ok head ∨
    ∃ i before response, (⟨i, before, .gateway, response⟩ : ServerEvent ι GetClassResult) ∈ events ∧
      GatewayClient.getState response = .ok head

/-- What an event of the server shows. -/
def ServerShows
    (verify : GetProofResult → Felt → Address → StorageKey → Felt → Res JsonRpcError Unit)
    (known : State → Prop) : ServerEvent ι GetClassResult → Prop
  | ⟨_, before, .lock, answer⟩ => answer = before.head ∧ known before.head
  | ⟨_, before, .snapshot, answer⟩ => answer = before.head ∧ known before.head
  | ⟨_, _, .inner op, answer⟩ => op.Answered verify (fun _ _ => True) answer
  | _ => True

/-- What events of the run show. -/
def ServerMay (verify : GetProofResult → Felt → Address → StorageKey → Felt → Res JsonRpcError Unit)
    (known : State → Prop) (events : Set (ServerEvent ι GetClassResult))
    (e : ServerEvent ι GetClassResult) : Prop :=
  e ∈ events ∧ ServerShows verify known e

/-- What is owed before an action: a head is published right after the response
that shows it. -/
def ServerOwes (events : Set (ServerEvent ι GetClassResult)) (i : ι)
    (past : List (ServerEvent ι GetClassResult)) : ServerOp → Prop
  | .publish update => ∃ before response older, past = ⟨i, before, .gateway, response⟩ :: older ∧
      (⟨i, before, .gateway, response⟩ : ServerEvent ι GetClassResult) ∈ events ∧
      GatewayClient.getState response = .ok update
  | _ => True

variable {known : State → Prop} {events : Set (ServerEvent ι GetClassResult)} {i : ι}

/-! ### Requests -/

/-- What holds once a block id is resolved, or has failed to be. -/
def AfterResolution (head : State) (requested : BlockId)
    (past past' : List (ServerEvent ι GetClassResult))
    (result : Except (Fault JsonRpcError) (BlockId × Felt)) : Prop :=
  past ⊆ past' ∧ sentIds past' = [] ∧
    ∀ sent root, result = .ok (sent, root) → Resolved head requested past' sent root

/-- Resolution under the lock. -/
theorem safe_resolveAt (head : State) (requested : BlockId)
    {past : List (ServerEvent ι GetClassResult)} (unsent : sentIds past = []) :
    (Context.resolveAt head requested).lift.Safe i (ServerMay verify known events)
      (ServerOwes events i) (AfterResolution head requested past) past := by
  by_cases supported : requested = .blockTag .pending
  · subst supported
    exact ⟨fun _ => id, unsent, nofun⟩
  by_cases own : IsOwn head requested
  · obtain ⟨result, eq, spec⟩ := @Context.resolveAt_own GetClassResult _ _ own
    rw [eq]
    refine ⟨fun _ => id, unsent, ?_⟩
    rintro sent root ok
    obtain ⟨ofHead, number⟩ := spec sent root ok
    exact ⟨.own ofHead, fun n here _ => ⟨ofHead, number n here⟩, supported⟩
  · obtain ⟨result, eq, spec⟩ := @Context.resolveAt_older GetClassResult _ _ own supported
    rw [eq]
    refine ⟨trivial, fun before answer _ => ⟨fun _ => List.mem_cons_of_mem _, unsent, ?_⟩⟩
    rintro sent root ok
    obtain ⟨header, rfl, ⟨echoes, below⟩, rfl, rfl⟩ := (spec answer sent root).mp ok
    refine ⟨.older i before header List.mem_cons_self echoes below, ?_, supported⟩
    rintro n rfl high
    exact absurd high own

/-- What a request that returns has behind it: the head it saw, the id that it
sent and the root that it verified against. -/
structure Paired
    (verify : GetProofResult → Felt → Address → StorageKey → Felt → Res JsonRpcError Unit)
    (contractAddress : Address) (key : StorageKey) (requested : BlockId)
    (past : List (ServerEvent ι GetClassResult)) (v : Felt) (head : State) (sent : BlockId)
    (root : Felt) : Prop where
  /-- The head was published at a moment of the request. -/
  moment : ∃ e ∈ past, e.op = .lock ∧ e.before.head = head
  resolved : Resolved head requested past sent root
  /-- The id is sent twice, and no other one. -/
  ids : sentIds past = [sent, sent]
  value : ∃ i before, (⟨i, before, .inner (.rpc (.getStorageAt contractAddress key sent)),
    (.ok v : Except JsonRpcError Felt)⟩ : ServerEvent ι GetClassResult) ∈ past
  /-- The value was verified with the proof that was fetched, against the root. -/
  checked : ∃ i before proof,
    (⟨i, before, .inner (.rpc (.getProof sent contractAddress [key])),
      (.ok proof : Except JsonRpcError GetProofResult)⟩ : ServerEvent ι GetClassResult) ∈ past ∧
    .inner (.verify proof root contractAddress key v) ∈ past.map (fun e => e.op) ∧
    verify proof root contractAddress key v = .ok ()

/-- What holds at the end of a task. -/
def RequestPaired
    (verify : GetProofResult → Felt → Address → StorageKey → Felt → Res JsonRpcError Unit) :
    (job : ServerJob) → List (ServerEvent ι GetClassResult) →
      Except (Fault JsonRpcError) job.Result → Prop
  | .getStorageAt contractAddress key requested, past, result =>
      ∀ v : Felt, result = .ok v → ∃ head sent root,
        Paired verify contractAddress key requested past v head sent root
  | .poll _, _, _ => True

/-- The rest of a request, once the id is resolved. -/
theorem safe_getVerified {contractAddress : Address} {key : StorageKey} {requested sent : BlockId}
    {root : Felt} {head : State} {past : List (ServerEvent ι GetClassResult)}
    (moment : ∃ e ∈ past, e.op = .lock ∧ e.before.head = head) (unsent : sentIds past = [])
    (resolved : Resolved head requested past sent root) :
    (Context.getVerified contractAddress key sent root).lift.Safe i
      (ServerMay verify known events) (ServerOwes events i)
      (RequestPaired verify (.getStorageAt contractAddress key requested)) past := by
  refine ⟨trivial, fun before₁ answer _ => ?_⟩
  cases answer with
  | error e => exact nofun
  | ok v =>
      refine ⟨trivial, fun before₂ answer _ => ?_⟩
      cases answer with
      | error e => exact nofun
      | ok proof =>
          refine ⟨trivial, fun before₃ answer shown => ?_⟩
          match answer, shown with
          | .error (.error e), _ => exact nofun
          | .error .panic, _ => exact nofun
          | .ok (), shown =>
              have accepted : .ok () = verify proof root contractAddress key v := shown.2
              rintro _ ⟨⟩
              refine ⟨head, sent, root, ?_⟩
              constructor
              case moment =>
                obtain ⟨e, mem, lock, same⟩ := moment
                exact ⟨e, by simp [mem], lock, same⟩
              case resolved =>
                exact resolved.mono fun e mem => by simp [mem]
              case ids =>
                show sent :: sent :: sentIds past = [sent, sent]
                rw [unsent]
              case value => exact ⟨i, before₁, by simp⟩
              case checked => exact ⟨i, before₂, proof, by simp, by simp, accepted.symm⟩

/-- A request, from the first step to the last. -/
theorem safe_getStorageAt (contractAddress : Address) (key : StorageKey) (requested : BlockId) :
    (Context.getStorageAt contractAddress key requested).Safe i (ServerMay verify known events)
      (ServerOwes events i)
      (RequestPaired verify (.getStorageAt contractAddress key requested)) [] := by
  refine ⟨trivial, fun before head shown => Prog.safe_bind.mpr (Prog.safe_andFinally.mpr ?_)⟩
  apply (safe_resolveAt head requested rfl).weaken
  rintro past result ⟨more, unsent, resolved⟩
  refine ⟨trivial, fun before' _ _ => ?_⟩
  cases result with
  | error e => exact nofun
  | ok pair =>
      obtain ⟨sent, root⟩ := pair
      refine safe_getVerified ?_ unsent ((resolved sent root rfl).mono ?_)
      · exact ⟨_, List.mem_cons_of_mem _ (more List.mem_cons_self), rfl, shown.2.1.symm⟩
      · intro e mem
        exact List.mem_cons_of_mem _ mem

/-! ### The poll loop -/

/-- The loop publishes what the gateway has just shown, and nothing after a
response that it cannot use. -/
theorem safe_loop (ticks : Nat) (current : State) (past : List (ServerEvent ι GetClassResult)) :
    (poll.loop ticks current).Safe i (ServerMay verify known events) (ServerOwes events i)
      (fun _ _ => True) past := by
  induction ticks generalizing current past with
  | zero => trivial
  | succ ticks ih =>
      refine ⟨trivial, fun before response shown => ?_⟩
      cases received : GatewayClient.getState response with
      | error e => simpa only [received] using ih current _
      | ok update =>
          simp only [received]
          by_cases new : update ≠ current
          · rw [if_pos new]
            exact ⟨⟨before, response, past, rfl, shown.1, received⟩, fun _ _ _ => ih update _⟩
          · rw [if_neg new]
            exact ih current _

theorem safe_code (job : ServerJob) :
    job.code.Safe i (ServerMay verify known events) (ServerOwes events i)
      (RequestPaired verify job) [] := by
  cases job with
  | getStorageAt contractAddress key requested =>
      exact safe_getStorageAt contractAddress key requested
  | poll ticks => exact ⟨trivial, fun before head _ => safe_loop ticks head _⟩

/-! ### Runs of the server -/

/-- Only tasks that publish replace the head, and only with what they publish. -/
theorem serverExec_head [DecidableEq ι] {op : ServerOp} {answer : op.Answer GetClassResult}
    {s s' : Server ι} (does : serverExec verify i op answer s s') (changed : s'.head ≠ s.head) :
    op = .publish s'.head := by
  cases op with
  | publish update =>
      obtain ⟨-, rfl⟩ := does
      rfl
  | lock => exact absurd (congrArg Server.head does.2) changed
  | snapshot => exact absurd (congrArg Server.head does.2) changed
  | unlock => exact absurd (congrArg Server.head does) changed
  | gateway => exact absurd (congrArg Server.head does) changed
  | inner op => exact absurd (congrArg Server.head does.2) changed

/-- A response of the gateway for a block. -/
def gatewayBlock (number : UInt64) (hash root : Felt) : GatewayAnswer :=
  .ok ⟨some "ACCEPTED_ON_L2".toList, some number, some hash.text, some root.text⟩

/-- The response a server starts with, and the one that it receives later. -/
abbrev bootResponse : GatewayAnswer := gatewayBlock 6 (.ofNat 0xaa) (.ofNat 0x1)

abbrev laterResponse : GatewayAnswer := gatewayBlock 7 (.ofNat 0xab) (sampleHead false).root

/-- The head of the first response. -/
abbrev bootHead : State := ⟨6, .ofNat 0xaa, .ofNat 0x1, by norm_num⟩

end Beerus
