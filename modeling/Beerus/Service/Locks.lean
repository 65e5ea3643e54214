import Beerus.Lib.Progress
import Beerus.Service.Provenance

/-!
The lock on the head.

Only `resolve_block_id` holds the read lock over other actions, of which there
is at most one, the request for a header. It gives the lock back on every way
out, and nothing else waits while it is held but the writer of the next head. So
the tasks of the service cannot block each other for good: from every
configuration, they can all be brought to their ends by their own actions
(`service_drains`).
-/

namespace Beerus

open Beerus.Lib

variable {GetClassResult ContractClass ι : Type}

/-! ### Who holds the lock -/

/-- Whether the lock is held after some actions, the last one first. -/
def holding : List ServerOp → Bool
  | [] => false
  | .lock :: _ => true
  | .unlock :: _ => false
  | _ :: ops => holding ops

/-- An action of the service that is one of the server's. -/
def ServiceOp.server? : ServiceOp ContractClass → Option ServerOp
  | .inner op => some op
  | _ => none

/-- The actions on the server among some events. -/
def serverOps (past : List (ServiceEvent ι GetClassResult ContractClass)) : List ServerOp :=
  past.filterMap fun e => ServiceOp.server? e.op

/-- A task with these events holds the lock. -/
def HoldsLock (past : List (ServiceEvent ι GetClassResult ContractClass)) : Prop :=
  holding (serverOps past) = true

instance (past : List (ServiceEvent ι GetClassResult ContractClass)) :
    Decidable (HoldsLock past) := inferInstanceAs (Decidable (_ = true))

/-- Taking the lock, or giving it back. -/
def ServerOp.Locks : ServerOp → Prop
  | .lock => True
  | .unlock => True
  | _ => False

theorem holding_cons {op : ServerOp} (free : ¬ op.Locks) (ops : List ServerOp) :
    holding (op :: ops) = holding ops := by
  cases op with
  | lock => exact absurd trivial free
  | unlock => exact absurd trivial free
  | _ => rfl

/-- What a task does about the lock: while it holds it, it gives it back, or asks
for the header first; otherwise it gives nothing back. -/
def LockOwes (requested : Option BlockId) (ops : List ServerOp) (op : ServerOp) : Prop :=
  if holding ops = true then
    ∃ blockId ∈ requested, op = .unlock ∨
      op = .inner (.rpc (.getBlockWithTxHashes blockId)) ∧ ∃ older, ops = .lock :: older
  else
    op ≠ .unlock

theorem lockOwes_free {requested : Option BlockId} {ops : List ServerOp} {op : ServerOp}
    (free : holding ops = false) (keeps : op ≠ .unlock) : LockOwes requested ops op := by
  rw [LockOwes, if_neg (by rw [free]; exact Bool.false_ne_true)]
  exact keeps

/-- The block id that a task resolves under the lock. -/
def ServiceJob.requested : ServiceJob → Option BlockId
  | .server (.getStorageAt _ _ blockId) => some blockId
  | _ => none

/-- The same of an action of the service. -/
def ServiceLockOwes (job : ServiceJob)
    (past : List (ServiceEvent ι GetClassResult ContractClass)) :
    ServiceOp ContractClass → Prop
  | .inner op => LockOwes job.requested (serverOps past) op
  | _ => ¬ HoldsLock past

section Tasks

variable {i : ι}

/-- A program that leaves the lock alone does nothing about it. -/
theorem safe_unlocked {α : Type} {job : ServiceJob}
    {past : List (ServiceEvent ι GetClassResult ContractClass)} (free : ¬ HoldsLock past)
    {p : ServiceProg GetClassResult ContractClass α}
    (performs : p.Performs fun op => ∀ op' ∈ ServiceOp.server? op, ¬ op'.Locks) :
    p.Safe i (fun _ => True) (ServiceLockOwes job) (fun past _ => ¬ HoldsLock past) past := by
  induction p generalizing past with
  | done result => exact free
  | act op next ih =>
      cases op with
      | get => exact ⟨free, fun before answer _ => ih answer free (performs.2 answer)⟩
      | set => exact ⟨free, fun before answer _ => ih answer free (performs.2 answer)⟩
      | inner op =>
          have alone := performs.1 op rfl
          refine ⟨lockOwes_free (Bool.eq_false_iff.mpr free) ?_, fun before answer _ =>
            ih answer ?_ (performs.2 answer)⟩
          · rintro rfl
            exact alone trivial
          · show ¬ holding (op :: serverOps past) = true
            rw [holding_cons alone]
            exact free

/-- What a request does alone: the actions of its events, last first. -/
def opsOf (past : List (ServerEvent ι GetClassResult)) : List ServerOp := past.map Prog.Event.op

/-- Once the lock is given back, a request does nothing about it. -/
theorem safe_lift {α : Type} {requested : Option BlockId}
    {past : List (ServerEvent ι GetClassResult)}
    (free : holding (opsOf past) = false) (p : ContextProg GetClassResult α) :
    p.lift.Safe i (fun _ => True) (fun past op => LockOwes requested (opsOf past) op)
      (fun past _ => holding (opsOf past) = false) past := by
  induction p generalizing past with
  | done result => exact free
  | act op next ih =>
      refine ⟨lockOwes_free free nofun, fun before answer _ => ih answer ?_⟩
      exact (holding_cons id _).trans free

/-- The lock is given back right after it is taken, or after one header. -/
theorem safe_resolveBlockId (blockId : BlockId) :
    (Context.resolveBlockId blockId : ServerProg GetClassResult _).Safe i (fun _ => True)
      (fun past op => LockOwes (some blockId) (opsOf past) op)
      (fun past _ => holding (opsOf past) = false) [] := by
  refine ⟨lockOwes_free rfl nofun, fun before head _ => Prog.safe_andFinally.mpr ?_⟩
  by_cases pending : blockId = .blockTag .pending
  · subst pending
    exact ⟨⟨_, rfl, .inl rfl⟩, fun _ _ _ => rfl⟩
  by_cases own : IsOwn head blockId
  · obtain ⟨result, eq, -⟩ := @Context.resolveAt_own GetClassResult _ _ own
    rw [eq]
    exact ⟨⟨blockId, rfl, .inl rfl⟩, fun _ _ _ => rfl⟩
  · obtain ⟨result, eq, -⟩ := @Context.resolveAt_older GetClassResult _ _ own pending
    rw [eq]
    exact ⟨⟨blockId, rfl, .inr ⟨rfl, [], rfl⟩⟩, fun _ _ _ =>
      ⟨⟨blockId, rfl, .inl rfl⟩, fun _ _ _ => rfl⟩⟩

theorem safe_requestLocks (contractAddress : Address) (key : StorageKey) (blockId : BlockId) :
    (Context.getStorageAt contractAddress key blockId : ServerProg GetClassResult _).Safe i
      (fun _ => True) (fun past op => LockOwes (some blockId) (opsOf past) op)
      (fun past _ => holding (opsOf past) = false) [] := by
  refine Prog.safe_bind.mpr ((safe_resolveBlockId blockId).weaken fun past result free => ?_)
  cases result with
  | error e => exact free
  | ok pair => exact safe_lift free _

theorem performs_poll (ticks : Nat) :
    (poll ticks : ServerProg GetClassResult Unit).Performs fun op => ¬ op.Locks := by
  refine ⟨id, fun head => ?_⟩
  induction ticks generalizing head with
  | zero => trivial
  | succ ticks ih =>
      refine ⟨id, fun response => ?_⟩
      cases received : GatewayClient.getState response with
      | error e => simpa only [received] using ih head
      | ok update =>
          simp only [received]
          by_cases new : update ≠ head
          · rw [if_pos new]
            exact ⟨id, fun _ => ih update⟩
          · rw [if_neg new]
            exact ih head

theorem performs_contextCall (linked : Linked GetClassResult ContractClass)
    (request : FunctionCall) (blockId : BlockId) :
    (Context.call linked request blockId : ServiceProg GetClassResult ContractClass _).Performs
      fun op => op = .inner .snapshot ∨ ∃ head, ServiceOp.For head op := by
  rw [Context.call_eq]
  refine ⟨.inl rfl, fun head => ?_⟩
  exact (Prog.Performs.mapResult ((performs_call linked request head).weaken fun op here =>
    .inr ⟨head, here⟩) _)

/-- Every task gives the lock back. -/
theorem safe_serviceLocks (linked : Linked GetClassResult ContractClass) (job : ServiceJob) :
    (job.code linked).Safe i (fun _ => True) (ServiceLockOwes job)
      (fun past _ => ¬ HoldsLock past) [] := by
  have unheld : ¬ HoldsLock ([] : List (ServiceEvent ι GetClassResult ContractClass)) :=
    Bool.false_ne_true
  cases job with
  | call request blockId =>
      refine safe_unlocked unheld ((performs_contextCall linked request blockId).weaken ?_)
      rintro op (rfl | ⟨head, here⟩) op' mem
      · obtain rfl := Option.some.inj mem
        exact id
      · cases op with
        | get => exact nomatch mem
        | set => exact nomatch mem
        | inner op =>
            obtain rfl := Option.some.inj mem
            cases op with
            | inner op => exact id
            | _ => exact here.elim
  | server job =>
      cases job with
      | poll ticks =>
          refine safe_unlocked unheld (Prog.Performs.relabel ?_ (performs_poll ticks))
          rintro op free _ ⟨⟩
          exact free
      | getStorageAt contractAddress key blockId =>
          refine (Prog.safe_relabel (fun past' past => serverOps past' = opsOf past) ?_ ?_ rfl
            (safe_requestLocks contractAddress key blockId)).weaken ?_
          · intro past past' op read owes
            show LockOwes _ (serverOps past') op
            rw [read]
            exact owes
          · intro past past' before op answer read _
            exact ⟨before.server, trivial, congrArg (List.cons op) read⟩
          · rintro past' result ⟨past, read, free⟩
            rw [HoldsLock, read, free]
            exact Bool.false_ne_true

end Tasks

/-! ### What holds of every run -/

section Runs

variable {linked : Linked GetClassResult ContractClass} {world : World GetClassResult}
  {head : State} {c : ServiceConfig ι GetClassResult ContractClass}

/-- The readers are the tasks that hold the lock by their own events. -/
def ReadersHold (s : Service ι ContractClass)
    (threads : ι → Option (ServiceTask ι GetClassResult ContractClass)) : Prop :=
  ∀ i, i ∈ s.server.readers ↔ ∃ run, threads i = some run ∧ HoldsLock run.past

/-- A task that holds the lock is a request, and what it does next is to give it
back, or to ask for the one header that it needs. -/
structure Holder (run : ServiceTask ι GetClassResult ContractClass) (contractAddress : Address)
    (key : StorageKey) (blockId : BlockId) : Prop where
  job : run.job = .server (.getStorageAt contractAddress key blockId)
  next : (∃ next, run.rest = .act (.inner .unlock) next) ∨
    ∃ next older, run.rest = .act (.inner (.inner (.rpc (.getBlockWithTxHashes blockId)))) next ∧
      serverOps run.past = .lock :: older

/-- A configuration in which the lock is held by none but such tasks. -/
structure LockKept (c : ServiceConfig ι GetClassResult ContractClass) : Prop where
  readers : ReadersHold c.shared c.threads
  holders : ∀ i run, c.threads i = some run → HoldsLock run.past →
    ∃ contractAddress key blockId, Holder run contractAddress key blockId
  finished : ∀ f ∈ c.finished, ¬ HoldsLock f.past

/-- A task that gives the lock back is such a holder while it holds it. -/
theorem holder_of_safe {i : ι} {run : ServiceTask ι GetClassResult ContractClass}
    (safe : run.rest.Safe i (fun _ => True) (ServiceLockOwes run.job)
      (fun past _ => ¬ HoldsLock past) run.past)
    (held : HoldsLock run.past) : ∃ contractAddress key blockId,
      Holder run contractAddress key blockId := by
  obtain ⟨job, past, rest⟩ := run
  cases rest with
  | done result => exact absurd held safe
  | act op next =>
      cases op with
      | get => exact absurd held safe.1
      | set => exact absurd held safe.1
      | inner op =>
          have owes : LockOwes job.requested (serverOps past) op := safe.1
          have held : holding (serverOps past) = true := held
          rw [LockOwes, if_pos held] at owes
          obtain ⟨blockId, resolves, owes⟩ := owes
          cases job with
          | call => exact nomatch resolves
          | server job =>
              cases job with
              | poll => exact nomatch resolves
              | getStorageAt contractAddress key requested =>
                  obtain rfl := Option.some.inj resolves
                  refine ⟨contractAddress, key, requested, rfl, ?_⟩
                  rcases owes with rfl | ⟨rfl, older, after⟩
                  · exact .inl ⟨next, rfl⟩
                  · exact .inr ⟨next, older, rfl, after⟩

variable [DecidableEq ι]

theorem service_safeLocks (reach : (serviceSystem linked world).Reach (Service.initial head) c) :
    System.Keeps (fun _ => True) (fun _ => True) (fun _ => ServiceLockOwes)
      (fun _ _ past _ => ¬ HoldsLock past) c :=
  reach.keeps_shown (fun _ job => safe_serviceLocks linked job) fun _ _ => trivial

/-- An action of a task changes its own place among the readers only, as its
events say. -/
theorem serviceExec_readers {i : ι} {op : ServiceOp ContractClass}
    {answer : CacheOp.Answer (ServerOp.Answer GetClassResult) op} {s s' : Service ι ContractClass}
    {past : List (ServiceEvent ι GetClassResult ContractClass)}
    (does : serviceExec linked world i op answer s s')
    (here : i ∈ s.server.readers ↔ HoldsLock past) (k : ι) :
    k ∈ s'.server.readers ↔
      if k = i then HoldsLock (⟨i, s, op, answer⟩ :: past) else k ∈ s.server.readers := by
  have same : ∀ {past' : List (ServiceEvent ι GetClassResult ContractClass)},
      (HoldsLock past' ↔ HoldsLock past) →
      (k ∈ s.server.readers ↔ if k = i then HoldsLock past' else k ∈ s.server.readers) := by
    intro past' unchanged
    by_cases own : k = i
    · subst own
      rw [if_pos rfl, unchanged, here]
    · rw [if_neg own]
  cases op with
  | get =>
      obtain ⟨-, rfl⟩ := does
      exact same Iff.rfl
  | set =>
      obtain ⟨-, rfl⟩ := does
      exact same Iff.rfl
  | inner op =>
      obtain ⟨-, server, does, rfl⟩ := does
      cases op with
      | lock =>
          obtain ⟨-, rfl⟩ := does
          by_cases own : k = i
          · subst own
            rw [if_pos rfl]
            exact iff_of_true (Finset.mem_insert_self ..) rfl
          · rw [if_neg own]
            exact (Finset.mem_insert).trans (or_iff_right own)
      | unlock =>
          obtain rfl := does
          by_cases own : k = i
          · subst own
            rw [if_pos rfl]
            exact iff_of_false (Finset.notMem_erase k _) Bool.false_ne_true
          · rw [if_neg own]
            exact Finset.mem_erase.trans (and_iff_right own)
      | snapshot =>
          obtain ⟨-, rfl⟩ := does
          exact same Iff.rfl
      | publish update =>
          obtain ⟨-, rfl⟩ := does
          exact same Iff.rfl
      | gateway =>
          obtain rfl := does
          exact same Iff.rfl
      | inner op =>
          obtain ⟨-, rfl⟩ := does
          exact same Iff.rfl

/-- A thread that does not hold the lock may be replaced by another such one. -/
theorem ReadersHold.update {s : Service ι ContractClass} {threads} {i : ι}
    {new : Option (ServiceTask ι GetClassResult ContractClass)} {s' : Service ι ContractClass}
    (readers : ReadersHold s threads)
    (changed : ∀ k, k ∈ s'.server.readers ↔
      if k = i then ∃ run, new = some run ∧ HoldsLock run.past else k ∈ s.server.readers) :
    ReadersHold s' (Function.update threads i new) := by
  intro k
  rw [changed k]
  by_cases own : k = i
  · subst own
    rw [if_pos rfl, Function.update_self]
  · rw [if_neg own, Function.update_of_ne own]
    exact readers k

/-- In every run of the service, the readers are the tasks that hold the lock,
and each of these waits for one header at most. -/
theorem service_lockKept (reach : (serviceSystem linked world).Reach (Service.initial head) c) :
    LockKept c := by
  refine ⟨?_, ?_, (service_safeLocks reach).finished⟩
  · induction reach with
    | refl => exact fun i => iff_of_false (Finset.notMem_empty i) nofun
    | tail reach step ih =>
        cases step with
        | start i job idle =>
            refine ih.update fun k => ?_
            by_cases own : k = i
            · subst own
              rw [if_pos rfl]
              refine iff_of_false ?_ ?_
              · rw [ih k, idle]
                exact nofun
              · rintro ⟨_, ⟨⟩, held⟩
                exact Bool.false_ne_true held
            · rw [if_neg own]
        | advance goes =>
            cases goes with
            | act i job past op next answer after here does =>
                have own := ih i
                simp only [here, Option.some.injEq, exists_eq_left'] at own
                refine ih.update fun k => (serviceExec_readers does own k).trans ?_
                simp
            | finish i job past result here =>
                have free := (service_safeLocks reach).threads i _ here
                refine ih.update fun k => ?_
                by_cases own : k = i
                · subst own
                  rw [if_pos rfl, ih k, here]
                  simpa using free
                · rw [if_neg own]
        | env after moves =>
            obtain ⟨caches, -, rfl⟩ := moves
            exact ih
        | abandon i =>
            refine ih.update fun k => ?_
            by_cases own : k = i
            · subst own
              rw [if_pos rfl]
              exact iff_of_false (Finset.notMem_erase k _) nofun
            · rw [if_neg own]
              exact Finset.mem_erase.trans (and_iff_right own)
  · exact fun i run here => holder_of_safe ((service_safeLocks reach).threads i run here)

end Runs

/-- A request that has just taken the lock. -/
abbrev sampleRequest : ServiceJob :=
  .server (.getStorageAt sampleContractKey.asAddress sampleSlot.asStorageKey (.blockTag .latest))

theorem sampleRequest_reach :
    ∃ c, sampleService.Reach (Service.initial bootHead) c ∧ false ∈ c.shared.server.readers := by
  let after : Service Bool Unit := ⟨⟨bootHead, {false}⟩, Caches.empty⟩
  have does : sampleService.exec false (.inner .lock) bootHead (Service.initial bootHead) after :=
    ⟨trivial, _, ⟨rfl, rfl⟩, rfl⟩
  obtain ⟨next, code⟩ : ∃ next, sampleService.code false sampleRequest = .act (.inner .lock) next :=
    ⟨_, rfl⟩
  have begun : sampleService.Reach (Service.initial bootHead) _ :=
    .single (.start (Config.initial (Service.initial bootHead)) false sampleRequest rfl)
  refine ⟨_, begun.tail (.advance (.act _ false sampleRequest [] (.inner .lock) next bootHead
    after ?_ does)), Finset.mem_singleton_self false⟩
  rw [← code]
  rfl

theorem sampleRequest_lockKept :
    ∃ c, sampleService.Reach (Service.initial bootHead) c ∧ false ∈ c.shared.server.readers ∧
      LockKept c := by
  obtain ⟨c, reach, held⟩ := sampleRequest_reach
  exact ⟨c, reach, held, service_lockKept reach⟩

/-! ### Every task can be brought to its end -/

section Drains

variable {i : ι}

/-- Replacing the head. -/
def ServiceOp.Publishes : ServiceOp ContractClass → Prop
  | .inner (.publish _) => True
  | _ => False

/-- Taking the lock, or giving it back. -/
def ServiceOp.Locks : ServiceOp ContractClass → Prop
  | .inner op => op.Locks
  | _ => False

/-- The polling task takes no lock, and the other tasks publish nothing. -/
def ServiceJob.Tidy : (job : ServiceJob) →
    ServiceProg GetClassResult ContractClass job.Result → Prop
  | .server (.poll _), p => p.Performs fun op => ¬ ServiceOp.Locks op
  | .server (.getStorageAt _ _ _), p => p.Performs fun op => ¬ ServiceOp.Publishes op
  | .call _ _, p => p.Performs fun op => ¬ ServiceOp.Publishes op

theorem performs_lift {α : Type} (p : ContextProg GetClassResult α) :
    p.lift.Performs fun op => ∃ op', op = .inner op' := by
  induction p with
  | done result => trivial
  | act op next ih => exact ⟨⟨op, rfl⟩, ih⟩

theorem tidy_code (linked : Linked GetClassResult ContractClass) (job : ServiceJob) :
    job.Tidy (job.code linked) := by
  cases job with
  | call request blockId =>
      unfold ServiceJob.Tidy
      refine (performs_contextCall linked request blockId).weaken ?_
      rintro op (rfl | ⟨head, here⟩) publishes
      · exact publishes
      · cases op with
        | get => exact publishes
        | set => exact publishes
        | inner op =>
            cases op with
            | publish update => exact here
            | _ => exact publishes
  | server job =>
      cases job with
      | poll ticks =>
          unfold ServiceJob.Tidy
          refine (performs_poll ticks).relabel fun op free => ?_
          exact free
      | getStorageAt contractAddress key blockId =>
          have quiet : ∀ {α : Type} (p : ContextProg GetClassResult α),
              p.lift.Performs fun op => ∀ update, op ≠ .publish update := by
            intro α p
            refine (performs_lift p).weaken ?_
            rintro _ ⟨op, rfl⟩ update
            exact nofun
          have alone : (Context.getStorageAt contractAddress key blockId :
              ServerProg GetClassResult Felt).Performs fun op => ∀ update, op ≠ .publish update := by
            have lock : ∀ update, ServerOp.lock ≠ .publish update := fun _ => nofun
            have unlock : ∀ update, ServerOp.unlock ≠ .publish update := fun _ => nofun
            refine ⟨lock, fun head => ?_⟩
            exact ((quiet _).andFinally unlock).bind fun pair => quiet _
          unfold ServiceJob.Tidy
          refine alone.relabel fun op none => ?_
          cases op with
          | publish update => exact absurd rfl (none update)
          | _ => exact id

/-- What is left of a task is tidy as well. -/
theorem ServiceJob.Tidy.next {job : ServiceJob} {op : ServiceOp ContractClass}
    {next : CacheOp.Answer (ServerOp.Answer GetClassResult) op →
      ServiceProg GetClassResult ContractClass job.Result} (tidy : job.Tidy (.act op next))
    (answer : CacheOp.Answer (ServerOp.Answer GetClassResult) op) : job.Tidy (next answer) := by
  cases job with
  | call request blockId => exact tidy.2 answer
  | server job => cases job <;> exact tidy.2 answer

variable [DecidableEq ι] {linked : Linked GetClassResult ContractClass}
  {world : World GetClassResult} {provider : (op : ProxyOp) → op.Answer GetClassResult}
  {response : GatewayAnswer} {head : State} {c : ServiceConfig ι GetClassResult ContractClass}

/-- Where no lock is held and none is taken, all that a task does alone can be
done. -/
theorem enabled_unlocked {α : Type} {p : ServiceProg GetClassResult ContractClass α}
    (performs : p.Performs fun op => ¬ ServiceOp.Locks op) {s : Service ι ContractClass}
    (none : s.server.readers = ∅) :
    ∀ e ∈ p.eventsIn i (serviceRun provider response i) s,
      ServiceOp.enabled e.before e.op = true := by
  induction p generalizing s with
  | done result => exact nofun
  | act op next ih =>
      have still : (serviceRun provider response i op s).2.server.readers = ∅ := by
        cases op with
        | get => exact none
        | set => exact none
        | inner op =>
            cases op with
            | lock => exact absurd trivial performs.1
            | unlock => exact absurd trivial performs.1
            | _ => exact none
      intro e mem
      rcases List.mem_append.mp mem with later | first
      · exact ih _ (performs.2 _) still e later
      · obtain rfl := List.mem_singleton.mp first
        cases op with
        | get => rfl
        | set => rfl
        | inner op =>
            cases op with
            | publish update => exact decide_eq_true none
            | _ => rfl

theorem enabled_quiet {op : ServiceOp ContractClass} (quiet : ¬ ServiceOp.Publishes op)
    (s : Service ι ContractClass) : ServiceOp.enabled s op = true := by
  cases op with
  | get => rfl
  | set => rfl
  | inner op =>
      cases op with
      | publish update => exact absurd trivial quiet
      | _ => rfl

/-- A task that is run to its end alone gives its lock back and leaves the other
readers. -/
theorem runIn_readers {α : Type} {job : ServiceJob}
    {p : ServiceProg GetClassResult ContractClass α} {s : Service ι ContractClass}
    {past : List (ServiceEvent ι GetClassResult ContractClass)}
    (safe : p.Safe i (fun _ => True) (ServiceLockOwes job) (fun past _ => ¬ HoldsLock past) past)
    (does : ∀ e ∈ p.eventsIn i (serviceRun provider response i) s,
      serviceExec linked world i e.op (serviceRun provider response i e.op e.before).1 e.before
        (serviceRun provider response i e.op e.before).2)
    (here : i ∈ s.server.readers ↔ HoldsLock past) :
    (p.runIn (serviceRun provider response i) s).2.server.readers = s.server.readers.erase i := by
  induction p generalizing s past with
  | done result =>
      have free : ¬ HoldsLock past := safe
      exact (Finset.erase_eq_of_notMem (mt here.mp free)).symm
  | act op next ih =>
      have now := does _ (List.mem_append_right _ List.mem_cons_self)
      have moved := serviceExec_readers now here
      have later := ih _ (safe.2 s _ trivial)
        (fun e mem => does e (List.mem_append_left _ mem))
        ((moved i).trans (by rw [if_pos rfl]))
      refine later.trans (Finset.ext fun k => ?_)
      rw [Finset.mem_erase, Finset.mem_erase]
      refine and_congr_right fun other => ?_
      rw [moved k, if_neg other]

/-- What is known of tasks under way: they hold the lock by their events, give it
back, and are tidy. -/
structure Tasks (s : Service ι ContractClass)
    (threads : ι → Option (ServiceTask ι GetClassResult ContractClass)) : Prop where
  readers : ReadersHold s threads
  safe : ∀ i run, threads i = some run → run.rest.Safe i (fun _ => True)
    (ServiceLockOwes run.job) (fun past _ => ¬ HoldsLock past) run.past
  tidy : ∀ i run, threads i = some run → run.job.Tidy run.rest

/-- One of them can be run to its end alone: a request that holds the lock, or
any task where none does. -/
theorem Tasks.offers {s : Service ι ContractClass} {threads} (tasks : Tasks s threads)
    (some' : ∃ i run, threads i = some run) :
    ∃ i run, threads i = some run ∧
      ∀ e ∈ run.rest.eventsIn i (serviceRun provider response i) s,
        ServiceOp.enabled e.before e.op = true := by
  by_cases held : ∃ i run, threads i = some run ∧ HoldsLock run.past
  · obtain ⟨i, run, here, held⟩ := held
    obtain ⟨contractAddress, key, blockId, holder⟩ := holder_of_safe (tasks.safe i run here) held
    have tidy := tasks.tidy i run here
    obtain ⟨job, past, rest⟩ := run
    obtain rfl : job = _ := holder.job
    refine ⟨i, _, here, fun e mem => enabled_quiet ?_ _⟩
    exact Prog.Performs.eventsIn tidy e mem
  · have none : s.server.readers = ∅ := by
      refine Finset.eq_empty_of_forall_notMem fun i mem => held ⟨i, ?_⟩
      exact (tasks.readers i).mp mem
    obtain ⟨i, run, here⟩ := some'
    have tidy := tasks.tidy i run here
    obtain ⟨job, past, rest⟩ := run
    refine ⟨i, _, here, ?_⟩
    cases job with
    | call request blockId => exact fun e mem => enabled_quiet (Prog.Performs.eventsIn tidy e mem) _
    | server job =>
        cases job with
        | poll ticks => exact enabled_unlocked tidy none
        | getStorageAt contractAddress key blockId =>
            exact fun e mem => enabled_quiet (Prog.Performs.eventsIn tidy e mem) _

/-- That leaves the other tasks as they are known to be. -/
theorem Tasks.alone
    (provides : ∀ op, ProxyOp.Answered linked.verify world.provider op (provider op))
    (responds : world.gateway response) {s : Service ι ContractClass} {threads}
    (tasks : Tasks s threads) (under : ∃ i run, threads i = some run) :
    ∃ i run, threads i = some run ∧
      (∀ e ∈ run.rest.eventsIn i (serviceRun provider response i) s,
        (serviceSystem linked world).exec i e.op
          (serviceRun provider response i e.op e.before).1 e.before
          (serviceRun provider response i e.op e.before).2) ∧
      Tasks (run.rest.runIn (serviceRun provider response i) s).2
        (Function.update threads i none) := by
  obtain ⟨i, run, here, enabled⟩ := tasks.offers under
  have does : ∀ e ∈ run.rest.eventsIn i (serviceRun provider response i) s,
      serviceExec linked world i e.op (serviceRun provider response i e.op e.before).1 e.before
        (serviceRun provider response i e.op e.before).2 :=
    fun e mem => serviceRun_does provides responds i (enabled e mem)
  have own := tasks.readers i
  simp only [here, Option.some.injEq, exists_eq_left'] at own
  have readers := runIn_readers (tasks.safe i run here) does own
  have old : ∀ k run', Function.update threads i none k = some run' → threads k = some run' := by
    intro k run' under
    by_cases same : k = i
    · subst same
      rw [Function.update_self] at under
      exact nomatch under
    · rwa [Function.update_of_ne same] at under
  refine ⟨i, run, here, does, tasks.readers.update fun k => ?_, ?_, ?_⟩
  · rw [readers, Finset.mem_erase]
    by_cases same : k = i
    · simp [same]
    · simp [same]
  · exact fun k run' under => tasks.safe k run' (old k run' under)
  · exact fun k run' under => tasks.tidy k run' (old k run' under)

/-- From every configuration of the service, all the tasks that are under way can
be brought to their ends by going on alone: no task is started or abandoned, and no
entry of a cache is lost. -/
theorem service_drains (answers : ∀ call, ∃ answer, world.provider call answer)
    (responds : ∃ response, world.gateway response)
    (reach : (serviceSystem linked world).Reach (Service.initial head) c) :
    ∃ c', (serviceSystem linked world).Advances c c' ∧ (∀ i, c'.threads i = none) ∧
      c'.shared.server.readers = ∅ ∧
      ∀ i run, c.threads i = some run →
        ∃ f ∈ c'.finished, f.thread = i ∧ f.job = run.job ∧ run.past <:+ f.past := by
  obtain ⟨response, responds⟩ := responds
  choose answer answers using answers
  have provides : ∀ op, ∃ answer, ProxyOp.Answered linked.verify world.provider op answer := by
    intro op
    cases op with
    | rpc call => exact ⟨answer call, answers call⟩
    | verify => exact ⟨_, rfl⟩
  choose provider provides using provides
  have tidy : ∀ i run, c.threads i = some run → run.job.Tidy run.rest :=
    reach.rest (fun i job => tidy_code linked job) fun job op next => ServiceJob.Tidy.next
  have tasks : Tasks c.shared c.threads :=
    ⟨(service_lockKept reach).readers, (service_safeLocks reach).threads, tidy⟩
  obtain ⟨c', goes, kept, idle, done⟩ := System.drains (serviceRun provider response)
    (fun s threads tasks under => tasks.alone provides responds under) reach.finite tasks
  refine ⟨c', goes, idle, ?_, done⟩
  refine Finset.eq_empty_of_forall_notMem fun i mem => ?_
  obtain ⟨run, here, -⟩ := (kept.readers i).mp mem
  exact nomatch (idle i).symm.trans here

end Drains

theorem sampleRequest_drains :
    ∃ c c', sampleService.Reach (Service.initial bootHead) c ∧ false ∈ c.shared.server.readers ∧
      sampleService.Advances c c' ∧ (∀ i, c'.threads i = none) ∧ c'.shared.server.readers = ∅ ∧
      ∀ i run, c.threads i = some run →
        ∃ f ∈ c'.finished, f.thread = i ∧ f.job = run.job ∧ run.past <:+ f.past := by
  obtain ⟨c, reach, held⟩ := sampleRequest_reach
  obtain ⟨c', drained⟩ :=
    service_drains (fun call => ⟨sampleProvider (.rpc call), trivial⟩) ⟨laterResponse, trivial⟩ reach
  exact ⟨c, c', reach, held, drained⟩

end Beerus
