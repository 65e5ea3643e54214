import Beerus.Service.Locks
import Mathlib.Data.List.Destutter

/-!
The heads that a service works on.

A poll publishes what the gateway shows it, without repetitions
(`service_polls`). Where all polls are made by one task, as `main` starts it,
and the gateway does not go back to earlier blocks, the head does not either:
no two reads of it, in whichever tasks, are in the wrong order
(`service_heads_rise`).
-/

namespace Beerus

open Beerus.Lib

variable {GetClassResult ContractClass ι : Type}

/-! ### What a poll publishes -/

/-- The head that an event of the server shows: a response that is accepted. -/
def shownHead : ServerEvent ι GetClassResult → Option State
  | ⟨_, _, .gateway, response⟩ => (GatewayClient.getState response).toOption
  | _ => none

/-- The head that it publishes. -/
def publishedHead : ServerEvent ι GetClassResult → Option State
  | ⟨_, _, .publish update, _⟩ => some update
  | _ => none

/-- Whether it asks the gateway. -/
def asksGateway : ServerEvent ι GetClassResult → Bool
  | ⟨_, _, .gateway, _⟩ => true
  | _ => false

/-- What a poll has behind it that began with a head: it has asked at every tick,
and has published what it was shown whenever that was another head. Responses
that are refused count for nothing. -/
structure Polled (ticks : Nat) (past : List (ServerEvent ι GetClassResult)) (first : State) :
    Prop where
  begins : ∃ i before, past.getLast? = some ⟨i, before, .snapshot, first⟩
  asked : past.countP asksGateway = ticks
  published : first :: past.reverse.filterMap publishedHead =
    (past.reverse.filterMap shownHead).destutter' (· ≠ ·) first

/-- A head is published where it is the last one that was shown. -/
def PublishesShown (past : List (ServerEvent ι GetClassResult)) : ServerOp → Prop
  | .publish update => ∃ older, past.filterMap shownHead = update :: older
  | _ => True

/-- What a stretch of a poll adds to its events, the last one first. -/
structure Polls (ticks : Nat) (current : State) (new : List (ServerEvent ι GetClassResult)) :
    Prop where
  asked : new.countP asksGateway = ticks
  published : current :: new.reverse.filterMap publishedHead =
    (new.reverse.filterMap shownHead).destutter' (· ≠ ·) current

variable {i : ι} {before before' : Server ι} {response : GatewayAnswer} {ticks : Nat}
  {current update : State} {new : List (ServerEvent ι GetClassResult)}

theorem shownHead_error {e : Fault GatewayError}
    (received : GatewayClient.getState response = .error e) :
    shownHead (⟨i, before, .gateway, response⟩ : ServerEvent ι GetClassResult) = none :=
  congrArg Except.toOption received

theorem shownHead_ok (received : GatewayClient.getState response = .ok update) :
    shownHead (⟨i, before, .gateway, response⟩ : ServerEvent ι GetClassResult) = some update :=
  congrArg Except.toOption received

/-- A response that is refused adds nothing. -/
theorem Polls.refused {e : Fault GatewayError}
    (received : GatewayClient.getState response = .error e) (polls : Polls ticks current new) :
    Polls (ticks + 1) current (new ++ [⟨i, before, .gateway, response⟩]) := by
  constructor
  · rw [List.countP_append, polls.asked]
    rfl
  · rw [List.reverse_append, List.reverse_singleton, List.singleton_append,
      List.filterMap_cons_none rfl, List.filterMap_cons_none (shownHead_error received)]
    exact polls.published

/-- Neither does the head that is known. -/
theorem Polls.known (received : GatewayClient.getState response = .ok current)
    (polls : Polls ticks current new) :
    Polls (ticks + 1) current (new ++ [⟨i, before, .gateway, response⟩]) := by
  constructor
  · rw [List.countP_append, polls.asked]
    rfl
  · rw [List.reverse_append, List.reverse_singleton, List.singleton_append,
      List.filterMap_cons_none rfl, List.filterMap_cons_some (shownHead_ok received),
      List.destutter'_cons_neg _ (not_not_intro rfl)]
    exact polls.published

/-- Another head is published. -/
theorem Polls.updated {answer : Unit} (received : GatewayClient.getState response = .ok update)
    (other : current ≠ update) (polls : Polls ticks update new) :
    Polls (ticks + 1) current
      (new ++ [⟨i, before', .publish update, answer⟩, ⟨i, before, .gateway, response⟩]) := by
  have published : publishedHead
      (⟨i, before', .publish update, answer⟩ : ServerEvent ι GetClassResult) = some update := rfl
  constructor
  · rw [List.countP_append, polls.asked]
    rfl
  · rw [List.reverse_append]
    show _ :: List.filterMap _ (_ :: _ :: new.reverse) =
      List.destutter' _ _ (List.filterMap _ (_ :: _ :: new.reverse))
    rw [List.filterMap_cons_none rfl, List.filterMap_cons_some published,
      List.filterMap_cons_some (shownHead_ok received), List.filterMap_cons_none rfl,
      List.destutter'_cons_pos _ other, polls.published]

theorem safe_polling (ticks : Nat) (current : State) (past : List (ServerEvent ι GetClassResult)) :
    (poll.loop ticks current).Safe i (fun _ => True) PublishesShown
      (fun past' _ => ∃ new, past' = new ++ past ∧ Polls ticks current new) past := by
  induction ticks generalizing current past with
  | zero => exact ⟨[], rfl, rfl, rfl⟩
  | succ ticks ih =>
      refine ⟨trivial, fun before response _ => ?_⟩
      cases received : GatewayClient.getState response with
      | error e =>
          simp only [received]
          refine (ih current _).weaken ?_
          rintro _ _ ⟨new, rfl, polls⟩
          exact ⟨_, List.append_cons _ _ _, polls.refused received⟩
      | ok update =>
          simp only [received]
          by_cases new : update ≠ current
          · rw [if_pos new]
            refine ⟨⟨_, List.filterMap_cons_some (shownHead_ok received)⟩,
              fun before' answer _ => ?_⟩
            refine (ih update _).weaken ?_
            rintro _ _ ⟨more, rfl, polls⟩
            exact ⟨_, (List.append_assoc more [_, _] past).symm, polls.updated received new.symm⟩
          · rw [if_neg new]
            obtain rfl : update = current := not_not.mp new
            refine (ih update _).weaken ?_
            rintro _ _ ⟨more, rfl, polls⟩
            exact ⟨_, List.append_cons _ _ _, polls.known received⟩

theorem safe_poll (ticks : Nat) :
    (poll ticks : ServerProg GetClassResult Unit).Safe i (fun _ => True) PublishesShown
      (fun past _ => ∃ first, Polled ticks past first) [] := by
  refine ⟨trivial, fun before first _ => (safe_polling ticks first _).weaken ?_⟩
  rintro _ _ ⟨new, rfl, asked, published⟩
  refine ⟨first, ⟨i, before, by simp⟩, ?_, ?_⟩
  · rw [List.countP_append, asked]
    rfl
  · rw [List.reverse_append, List.reverse_singleton, List.singleton_append,
      List.filterMap_cons_none rfl, List.filterMap_cons_none rfl]
    exact published

/-! ### Polls of the service -/

/-- What a task of the service owes before an action. -/
def ServicePublishes (past : List (ServiceEvent ι GetClassResult ContractClass)) :
    ServiceOp ContractClass → Prop
  | .inner op => PublishesShown (past.filterMap serverEvent) op
  | _ => True

/-- What holds at the end of a poll. -/
def PollEnds : ServiceJob → List (ServiceEvent ι GetClassResult ContractClass) → Prop
  | .server (.poll ticks), past => ∃ first, Polled ticks (past.filterMap serverEvent) first
  | _, _ => True

theorem safe_servicePolls (linked : Linked GetClassResult ContractClass) (job : ServiceJob) :
    (job.code linked).Safe i (fun _ => True) ServicePublishes (fun past _ => PollEnds job past)
      [] := by
  have quiet : ∀ (past : List (ServiceEvent ι GetClassResult ContractClass)) op,
      ¬ ServiceOp.Publishes op → ServicePublishes past op := by
    intro past op none
    cases op with
    | get => trivial
    | set => trivial
    | inner op =>
        cases op with
        | publish update => exact absurd trivial none
        | _ => trivial
  have tidy := tidy_code linked job
  cases job with
  | call request blockId =>
      exact Prog.Performs.safe (fun op => ¬ ServiceOp.Publishes op) tidy quiet
  | server job =>
      cases job with
      | getStorageAt contractAddress key blockId =>
          exact Prog.Performs.safe (fun op => ¬ ServiceOp.Publishes op) tidy quiet
      | poll ticks =>
          refine (Prog.safe_relabel (fun past' past => past'.filterMap serverEvent = past) ?_ ?_ rfl
            (safe_poll ticks)).weaken ?_
          · intro past past' op read owes
            show PublishesShown (past'.filterMap serverEvent) op
            rw [read]
            exact owes
          · intro past past' before op answer read _
            exact ⟨before.server, trivial, congrArg (List.cons _) read⟩
          · rintro past' result ⟨past, rfl, ends⟩
            exact ends

section Runs

variable [DecidableEq ι] {linked : Linked GetClassResult ContractClass}
  {world : World GetClassResult} {start : Service ι ContractClass}
  {c : ServiceConfig ι GetClassResult ContractClass}

theorem service_safePolls (reach : (serviceSystem linked world).Reach start c) :
    System.Keeps (fun _ => True) (fun _ => True) (fun _ _ => ServicePublishes)
      (fun _ job past _ => PollEnds job past) c :=
  reach.keeps_shown (fun _ job => safe_servicePolls linked job) fun _ _ => trivial

/-- In every run of the service, a poll that has ended has asked the gateway at
every tick, and has published the heads that it was shown, without those that
repeat the one before. -/
theorem service_polls (reach : (serviceSystem linked world).Reach start c) :
    ∀ i ticks past result, ⟨i, .server (.poll ticks), past, result⟩ ∈ c.finished →
      ∃ first, Polled ticks (past.filterMap serverEvent) first := by
  intro i ticks past result mem
  exact (service_safePolls reach).finished _ mem

end Runs

/-! ### The order of heads -/

/-- The heads that the gateway has shown among events, the last one first. -/
def shownHeads (events : List (ServiceEvent ι GetClassResult ContractClass)) : List State :=
  (events.filterMap serverEvent).filterMap shownHead

/-- All polls are made by one task. -/
def PolledBy (p : ι) (events : List (ServiceEvent ι GetClassResult ContractClass)) : Prop :=
  ∀ e ∈ events, e.op = .inner .gateway → e.thread = p

/-- Nothing is shown without asking. -/
theorem asks_of_shownHeads {events : List (ServiceEvent ι GetClassResult ContractClass)}
    {head : State} {older : List State} (shown : shownHeads events = head :: older) :
    ∃ e ∈ events, e.op = .inner .gateway := by
  have mem : head ∈ shownHeads events := shown ▸ List.mem_cons_self
  obtain ⟨e', seen, shows⟩ := List.mem_filterMap.mp mem
  obtain ⟨⟨i, before, op, answer⟩, mem, same⟩ := List.mem_filterMap.mp seen
  clear seen
  cases op with
  | get => exact absurd same (Option.some_ne_none _).symm
  | set => exact absurd same (Option.some_ne_none _).symm
  | inner op =>
      obtain rfl := Option.some.inj same
      cases op with
      | gateway => exact ⟨⟨i, before, .inner .gateway, answer⟩, mem, rfl⟩
      | _ => exact absurd shows (Option.some_ne_none _).symm

theorem shownHeads_cons_sublist (e : ServiceEvent ι GetClassResult ContractClass)
    (events : List (ServiceEvent ι GetClassResult ContractClass)) :
    (shownHeads events).Sublist (shownHeads (e :: events)) :=
  ((List.sublist_cons_self e events).filterMap _).filterMap _

/-- What keeps heads in order: the head is one that was shown, and no event has
seen a later one. -/
structure Rising (head : State) (c : ServiceConfig ι GetClassResult ContractClass) : Prop where
  current : c.shared.server.head ∈ shownHeads c.trace ++ [head]
  above : ∀ e ∈ c.trace, e.before.server.head.blockNumber ≤ c.shared.server.head.blockNumber
  order : c.trace.Pairwise fun later earlier =>
    earlier.before.server.head.blockNumber ≤ later.before.server.head.blockNumber

theorem Rising.still {head : State} {c c' : ServiceConfig ι GetClassResult ContractClass}
    (rising : Rising head c) (trace : c'.trace = c.trace)
    (same : c'.shared.server.head = c.shared.server.head) : Rising head c' := by
  refine ⟨?_, ?_, trace ▸ rising.order⟩
  · rw [same, trace]
    exact rising.current
  · rw [same, trace]
    exact rising.above

/-- An event on the last head keeps them in order, where the next head is not an
earlier one. -/
theorem Rising.event {head : State} {c c' : ServiceConfig ι GetClassResult ContractClass}
    (rising : Rising head c) {e : ServiceEvent ι GetClassResult ContractClass}
    (before : e.before = c.shared) (trace : c'.trace = e :: c.trace)
    (current : c'.shared.server.head ∈ shownHeads c'.trace ++ [head])
    (up : c.shared.server.head.blockNumber ≤ c'.shared.server.head.blockNumber) :
    Rising head c' := by
  refine ⟨current, ?_, ?_⟩
  · rw [trace]
    refine List.forall_mem_cons.mpr ⟨?_, fun e' mem => (rising.above e' mem).trans up⟩
    rwa [before]
  · rw [trace]
    refine List.pairwise_cons.mpr ⟨fun e' mem => ?_, rising.order⟩
    rw [before]
    exact rising.above e' mem

section Order

variable [DecidableEq ι] {linked : Linked GetClassResult ContractClass}
  {world : World GetClassResult} {start : Service ι ContractClass} {head : State} {p : ι}
  {c : ServiceConfig ι GetClassResult ContractClass}

/-- What is shown is shown to that task. -/
theorem shownHeads_filter {events : List (ServiceEvent ι GetClassResult ContractClass)}
    (polled : PolledBy p events) :
    shownHeads (events.filter fun e => e.thread = p) = shownHeads events := by
  induction events with
  | nil => rfl
  | cons e events ih =>
      have rest := ih fun e mem => polled e (List.mem_cons_of_mem _ mem)
      by_cases own : e.thread = p
      · rw [List.filter_cons_of_pos (by simpa using own)]
        unfold shownHeads at rest ⊢
        cases seen : serverEvent e with
        | none => rwa [List.filterMap_cons_none seen, List.filterMap_cons_none seen]
        | some e' =>
            rw [List.filterMap_cons_some seen, List.filterMap_cons_some seen]
            cases shown : shownHead e' with
            | none => rwa [List.filterMap_cons_none shown, List.filterMap_cons_none shown]
            | some head =>
                rw [List.filterMap_cons_some shown, List.filterMap_cons_some shown, rest]
      · rw [List.filter_cons_of_neg (by simpa using own), rest]
        have elsewhere : e.op ≠ .inner .gateway := fun gateway =>
          own (polled e List.mem_cons_self gateway)
        obtain ⟨i, before, op, answer⟩ := e
        cases op with
        | get => rfl
        | set => rfl
        | inner op =>
            cases op with
            | gateway => exact absurd rfl elsewhere
            | _ => rfl

/-- Before a task publishes a head, it is the last one that the gateway has
shown. -/
theorem service_publishes_last (reach : (serviceSystem linked world).Reach start c)
    (polled : PolledBy p c.trace) {i : ι} {task : ServiceTask ι GetClassResult ContractClass}
    (here : c.threads i = some task) {update : State} {next}
    (publishes : task.rest = .act (.inner (.publish update)) next) :
    ∃ older, shownHeads c.trace = update :: older := by
  have safe := (service_safePolls reach).threads i task here
  rw [publishes] at safe
  obtain ⟨older, shown⟩ := safe.1
  have latest := reach.past_prefix i task here
  obtain ⟨e, mem, asks⟩ := asks_of_shownHeads shown
  have mem := List.mem_filter.mp (latest.subset mem)
  obtain rfl : p = i := (polled e mem.1 asks).symm.trans (of_decide_eq_true mem.2)
  obtain ⟨later, same⟩ := latest
  refine ⟨older ++ shownHeads later, ?_⟩
  rw [← shownHeads_filter polled, ← same]
  unfold shownHeads
  rw [List.filterMap_append, List.filterMap_append, shown, List.cons_append]

/-- Only publishing changes the head. -/
theorem serviceExec_head {i : ι} {op : ServiceOp ContractClass}
    {answer : CacheOp.Answer (ServerOp.Answer GetClassResult) op} {s s' : Service ι ContractClass}
    (does : serviceExec linked world i op answer s s') :
    (∃ update, op = .inner (.publish update) ∧ s'.server.head = update) ∨
      s'.server.head = s.server.head := by
  cases op with
  | get => exact .inr (congrArg (fun s => s.server.head) does.2)
  | set => exact .inr (congrArg (fun s => s.server.head) does.2)
  | inner op =>
      obtain ⟨-, server, does, rfl⟩ := does
      by_cases changed : server.head = s.server.head
      · exact .inr changed
      · obtain rfl := serverExec_head does changed
        exact .inl ⟨server.head, rfl, rfl⟩

/-- Where one task makes all polls and the gateway never shows an earlier block
than before, no task sees an earlier block than one that was seen before. -/
theorem service_heads_rise (reach : (serviceSystem linked world).Reach (Service.initial head) c)
    (polled : PolledBy p c.trace)
    (rising : (shownHeads c.trace ++ [head]).Pairwise fun later earlier =>
      earlier.blockNumber ≤ later.blockNumber) :
    c.trace.Pairwise fun later earlier =>
      earlier.before.server.head.blockNumber ≤ later.before.server.head.blockNumber := by
  suffices kept : Rising head c from kept.order
  induction reach with
  | refl => exact ⟨List.mem_singleton_self head, nofun, .nil⟩
  | @tail c c' reach step ih =>
      cases step with
      | advance goes =>
          cases goes with
          | act i job past op next answer after here does =>
              let e : ServiceEvent ι GetClassResult ContractClass := ⟨i, c.shared, op, answer⟩
              have more := (shownHeads_cons_sublist e c.trace).append_right [head]
              have earlier : PolledBy p c.trace :=
                fun e mem => polled e (List.mem_cons_of_mem _ mem)
              have kept := ih earlier (rising.sublist more)
              rcases serviceExec_head does with ⟨update, rfl, rfl⟩ | same
              · obtain ⟨older, last⟩ := service_publishes_last reach earlier here rfl
                have mem : after.server.head ∈ shownHeads c.trace ++ [head] := by
                  rw [last]
                  exact List.mem_cons_self
                refine kept.event rfl rfl (more.subset mem) ?_
                have below := rising.sublist more
                rw [last] at below
                have current := kept.current
                rw [last] at current
                rcases List.mem_cons.mp current with same | other
                · exact (congrArg State.blockNumber same).le
                · exact (List.pairwise_cons.mp below).1 _ other
              · refine kept.event rfl rfl ?_ (congrArg State.blockNumber same).ge
                exact same ▸ more.subset kept.current
          | finish => exact (ih polled rising).still rfl rfl
      | start => exact (ih polled rising).still rfl rfl
      | env after moves =>
          obtain ⟨caches, -, rfl⟩ := moves
          exact (ih polled rising).still rfl rfl
      | abandon => exact (ih polled rising).still rfl rfl

end Order

/-! ### A poll of the sample service -/

/-- The events of one tick. -/
abbrev samplePoll : List (ServiceEvent Bool Unit Unit) :=
  (sampleService.code true (.server (.poll 1))).eventsIn true
    (serviceRun sampleProvider laterResponse true) (Service.initial bootHead)

theorem samplePoll_reach :
    ∃ c, sampleService.Reach (Service.initial bootHead) c ∧ c.trace = samplePoll ∧
      ⟨true, .server (.poll 1), samplePoll, .ok ()⟩ ∈ c.finished := by
  have polled := sampleService.reach_first (Service.initial bootHead) true (.server (.poll 1))
    (serviceRun sampleProvider laterResponse true) (sampleService_does (by decide +kernel))
    (show _ = .ok () by decide +kernel)
  exact ⟨_, polled, rfl, List.mem_cons_self⟩

theorem samplePoll_polls :
    ∃ first, Polled 1 (samplePoll.filterMap serverEvent) first := by
  obtain ⟨c, reach, -, mem⟩ := samplePoll_reach
  exact service_polls reach true 1 _ _ mem

theorem samplePoll_rises :
    samplePoll.Pairwise fun later earlier =>
      earlier.before.server.head.blockNumber ≤ later.before.server.head.blockNumber := by
  obtain ⟨c, reach, trace, -⟩ := samplePoll_reach
  have own : samplePoll.all (fun e => e.thread) = true := by decide +kernel
  have rising : (shownHeads samplePoll ++ [bootHead]).Pairwise fun later earlier =>
      earlier.blockNumber ≤ later.blockNumber := by decide +kernel
  have kept := service_heads_rise reach
    (fun e mem _ => List.all_eq_true.mp own e (trace ▸ mem)) (trace ▸ rising)
  rwa [trace] at kept

end Beerus
