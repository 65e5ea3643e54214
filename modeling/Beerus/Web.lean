import Beerus.Service.Provenance

/-!
The client in a browser (`web/beerus-web/src/lib.rs`).

A `Beerus` object keeps the head that it was shown last. `get_state` asks the
gateway for a new one; `execute` does so only where there is none yet, and runs
its call on the head that there is. Calls of one object take turns, since each
borrows it; several objects share the read caches.

So all that a session asks of the provider is for the block of the head that its
last accepted response has shown, and a session that never calls `get_state`
works on one block for good (`web_follows_head`).
-/

namespace Beerus

open Beerus.Lib

variable {GetClassResult ContractClass ι : Type}

/-! ### Actions -/

/-- An action of an object: a request to the gateway, or an action of a call. -/
inductive WebOp (ContractClass : Type) where
  | gateway
  | call (op : CachedOp ProxyOp ContractClass)

/-- How it is answered. -/
def WebOp.Answer (GetClassResult : Type) : WebOp ContractClass → Type
  | .gateway => GatewayAnswer
  | .call op => CacheOp.Answer (ProxyOp.Answer GetClassResult) op

/-- What can end an object: a panic in a call, one in the gateway client, or
`unwrap` where there is no head. -/
inductive Trap where
  | call
  | gateway
  | unwrap
deriving DecidableEq

/-- A program of an object. -/
abbrev WebProg (GetClassResult ContractClass α : Type) :=
  Prog (WebOp ContractClass) (WebOp.Answer GetClassResult) Trap α

/-- What an object is linked with. Errors are shown as their `Debug` texts. -/
structure WebLinked (GetClassResult ContractClass : Type) where
  crates : Crates
  tryInto : GetClassResult → Except (Fault StateError) ContractClass
  blockifier : Blockifier ContractClass
  /-- `serde_json::from_str` of a `FunctionCall`. -/
  functionCall : String → Except String FunctionCall
  showGateway : GatewayError → String
  showClient : ClientError → String

/-! ### The object -/

/-- `dto::State`. -/
structure dto.State where
  len : Int64
  hash : Text
  root : Text
deriving DecidableEq

/-- `serde_json::to_string` of it. -/
def dto.State.toJson (state : dto.State) : String :=
  "\x7b\"len\":" ++ toString state.len.toInt ++ ",\"hash\":\"" ++ state.hash.asString ++
    "\",\"root\":\"" ++ state.root.asString ++ "\"\x7d"

/-- `serde_json::to_string` of felts. -/
def feltsToJson (felts : List Felt) : String :=
  "[" ++ ",".intercalate (felts.map fun felt => "\"" ++ felt.text.asString ++ "\"") ++ "]"

/-- What a call of an object returns, a text or an error, and the head that it
leaves. -/
abbrev WebResult := Except String String × Option State

namespace Web

variable (linked : WebLinked GetClassResult ContractClass)

/-- `Beerus::get_state`. -/
def getState (state : Option State) : WebProg GetClassResult ContractClass WebResult :=
  .act .gateway fun response =>
    match GatewayClient.getState response with
    | .ok head =>
        let dto : dto.State := ⟨asI64 head.blockNumber, head.blockHash.text, head.root.text⟩
        pure (.ok dto.toJson, some head)
    | .error (.error e) => pure (.error ("failed to get state: " ++ linked.showGateway e), state)
    | .error .panic => .done (.error .gateway)

/-- What is made of an execution. -/
def executed (head : State) : Res ClientError (List Felt) → Except Trap WebResult
  | .ok felts => .ok (.ok (feltsToJson felts), some head)
  | .error (.error e) => .ok (.error ("failed to execute call: " ++ linked.showClient e), some head)
  | .error .panic => .error .call

/-- `Beerus::execute`, once there is a head. -/
def executeOn (request : String) (head : State) : WebProg GetClassResult ContractClass WebResult :=
  match linked.functionCall request with
  | .error e => pure (.error ("failed to parse request: " ++ e), some head)
  | .ok request =>
      ((Client.execute linked.crates linked.tryInto linked.blockifier request head).relabel
        .call fun _ answer => answer).mapResult (executed linked head)

/-- `Beerus::execute`. -/
def execute (request : String) (state : Option State) :
    WebProg GetClassResult ContractClass WebResult := do
  let (fetched, state) ←
    if state.isNone then getState linked state else pure (.ok "", state)
  match fetched with
  | .error e => pure (.error e, state)
  | .ok _ =>
      match state with
      | some head => executeOn linked request head
      | none => .done (.error .unwrap)

end Web

/-- The calls that an object takes. -/
inductive WebCall where
  | getState
  | execute (request : String)
deriving DecidableEq

/-- The code of a call. -/
def WebCall.code (linked : WebLinked GetClassResult ContractClass) :
    WebCall → Option State → WebProg GetClassResult ContractClass WebResult
  | .getState, state => Web.getState linked state
  | .execute request, state => Web.execute linked request state

/-- Calls of one object, one after another. -/
def WebCall.session (linked : WebLinked GetClassResult ContractClass) :
    List WebCall → Option State →
      WebProg GetClassResult ContractClass (List (Except String String) × Option State)
  | [], state => pure ([], state)
  | call :: calls, state => do
      let (answer, state) ← call.code linked state
      let (answers, state) ← WebCall.session linked calls state
      pure (answer :: answers, state)

/-! ### A page -/

/-- An event of a page. -/
abbrev WebEvent (ι GetClassResult ContractClass : Type) :=
  Prog.Event ι (ReadCaches ContractClass) (WebOp ContractClass) (WebOp.Answer GetClassResult)

/-- What actions do. The gateway and the provider may answer anything. -/
def webExec (linked : WebLinked GetClassResult ContractClass) (profile : Profile) (i : ι) :
    (op : WebOp ContractClass) → op.Answer GetClassResult → ReadCaches ContractClass →
      ReadCaches ContractClass → Prop
  | .gateway, _, s, s' => s' = s
  | .call op, answer, s, s' =>
      cacheExec (fun _ op answer => ProxyOp.Answered
        (GetProofResult.verify linked.crates profile) (fun _ _ => True) op answer) i op answer s s'

/-- Objects on a page, each with the calls it takes. New objects have no head. -/
def webSystem (linked : WebLinked GetClassResult ContractClass) (profile : Profile) :
    System ι (ReadCaches ContractClass) (WebOp ContractClass) (WebOp.Answer GetClassResult)
      (List WebCall) Trap (fun _ => List (Except String String) × Option State) where
  code _ calls := WebCall.session linked calls none
  exec := webExec linked profile
  env s s' := s.Evicts s'
  release _ s := s

/-! ### The head of a session -/

/-- The head that an event has shown: that of an accepted response. -/
def WebEvent.shows : WebEvent ι GetClassResult ContractClass → Option State
  | ⟨_, _, .gateway, response⟩ => (GatewayClient.getState response).toOption
  | _ => none

/-- The head that was shown last. -/
def latestHead (past : List (WebEvent ι GetClassResult ContractClass)) : Option State :=
  past.findSome? WebEvent.shows

/-- What an object with a head may do: calls are for the block of the head, and
the gateway is asked by `get_state`, or where there is no head. -/
def WebOp.Follows (fetches : Prop) (head : Option State) : WebOp ContractClass → Prop
  | .gateway => fetches ∨ head = none
  | .call op => ∃ h, head = some h ∧ ServiceOp.For h (CallOp.name op)

/-- All events of a session follow the head that was shown last before them. -/
def FollowsHead (fetches : Prop) : List (WebEvent ι GetClassResult ContractClass) → Prop
  | [] => True
  | e :: older => e.op.Follows fetches (latestHead older) ∧ FollowsHead fetches older

/-- What holds of a session, after each of its calls: it has followed the head,
has the one that was shown last, and has not unwrapped nothing. -/
structure KeepsHead {α : Type} (fetches : Prop)
    (past : List (WebEvent ι GetClassResult ContractClass))
    (result : Except Trap (α × Option State)) : Prop where
  follows : FollowsHead fetches past
  head : ∀ answer state, result = .ok (answer, state) → latestHead past = state
  trap : result ≠ .error .unwrap

section Session

variable {linked : WebLinked GetClassResult ContractClass} {fetches : Prop} {i : ι}
  {may : WebEvent ι GetClassResult ContractClass → Prop}
  {past : List (WebEvent ι GetClassResult ContractClass)}

theorem latestHead_ok {before : ReadCaches ContractClass} {response : GatewayAnswer} {head : State}
    (received : GatewayClient.getState response = .ok head) :
    latestHead ((⟨i, before, .gateway, response⟩ : WebEvent ι GetClassResult ContractClass) ::
      past) = some head := by
  simp [latestHead, WebEvent.shows, received, Except.toOption]

theorem latestHead_error {before : ReadCaches ContractClass} {response : GatewayAnswer}
    {fault : Fault GatewayError} (received : GatewayClient.getState response = .error fault) :
    latestHead ((⟨i, before, .gateway, response⟩ : WebEvent ι GetClassResult ContractClass) ::
      past) = latestHead past := by
  simp [latestHead, WebEvent.shows, received, Except.toOption]

/-- A response is taken over where it is accepted, and leaves the head where it
is not. -/
theorem safe_webGetState {state : Option State} (follows : FollowsHead fetches past)
    (latest : latestHead past = state) (asks : fetches ∨ state = none) :
    (Web.getState linked state).Safe i may (fun _ _ => True)
      (fun past result => KeepsHead fetches past result ∧
        ∀ text state, result = .ok (.ok text, state) → state ≠ none) past := by
  refine ⟨trivial, fun before response _ => ?_⟩
  have followed : FollowsHead fetches
      ((⟨i, before, .gateway, response⟩ : WebEvent ι GetClassResult ContractClass) :: past) :=
    ⟨latest ▸ asks, follows⟩
  cases received : GatewayClient.getState response with
  | ok head =>
      simp only [received]
      refine ⟨⟨followed, ?_, nofun⟩, ?_⟩
      · rintro answer state ⟨⟩
        exact latestHead_ok received
      · rintro text state ⟨⟩
        exact Option.some_ne_none head
  | error fault =>
      simp only [received]
      cases fault with
      | panic => exact ⟨⟨followed, nofun, nofun⟩, nofun⟩
      | error e =>
          refine ⟨⟨followed, ?_, nofun⟩, nofun⟩
          rintro answer state ⟨⟩
          exact (latestHead_error received).trans latest

/-- A call runs on the head that there is. -/
theorem safe_webExecuteOn {head : State} (request : String) (follows : FollowsHead fetches past)
    (latest : latestHead past = some head) :
    (Web.executeOn linked request head).Safe i may (fun _ _ => True)
      (fun past result => KeepsHead fetches past result) past := by
  unfold Web.executeOn
  cases linked.functionCall request with
  | error e =>
      refine ⟨follows, ?_, nofun⟩
      rintro answer state ⟨⟩
      exact latest
  | ok request =>
      have performs : ((Client.execute linked.crates linked.tryInto linked.blockifier request
          head).relabel WebOp.call fun _ answer => answer :
            Prog (WebOp ContractClass) (WebOp.Answer GetClassResult) (Fault ClientError)
              (List Felt)).Performs fun op => ∃ call,
              op = .call call ∧ ServiceOp.For head (CallOp.name call) := by
        rw [Client.execute_eq]
        exact ((Exe.performs_call request head).mapResult _).relabel fun op here => ⟨op, rfl, here⟩
      refine Prog.safe_mapResult.mpr ((performs.keeps
        (fun past => FollowsHead fetches past ∧ latestHead past = some head)
        ?_ ⟨follows, latest⟩).weaken ?_)
      · rintro past before op answer ⟨call, rfl, here⟩ ⟨follows, latest⟩
        exact ⟨⟨⟨head, latest, here⟩, follows⟩, latest⟩
      · rintro past result ⟨follows, latest⟩
        have leaves : ∀ answer state, Web.executed linked head result = .ok (answer, state) →
            some head = state := by
          intro answer state ends
          match result with
          | .ok felts => exact (Prod.mk.inj (Except.ok.inj ends)).2
          | .error (.error e) => exact (Prod.mk.inj (Except.ok.inj ends)).2
        refine ⟨follows, fun answer state ends => latest.trans (leaves answer state ends), ?_⟩
        match result with
        | .ok felts => exact nofun
        | .error (.error e) => exact nofun
        | .error .panic => exact nofun

/-- So an execution asks for a head where there is none, and not otherwise. -/
theorem safe_webExecute {state : Option State} (request : String)
    (follows : FollowsHead fetches past) (latest : latestHead past = state) :
    (Web.execute linked request state).Safe i may (fun _ _ => True)
      (fun past result => KeepsHead fetches past result) past := by
  unfold Web.execute
  cases state with
  | some head => exact safe_webExecuteOn request follows latest
  | none =>
      refine Prog.safe_bind.mpr ((safe_webGetState follows latest (.inr rfl)).weaken ?_)
      rintro past result ⟨⟨follows, latest, trap⟩, shown⟩
      match result with
      | .error trapped => exact ⟨follows, nofun, trap⟩
      | .ok (.error e, state) =>
          refine ⟨follows, ?_, nofun⟩
          rintro answer _ ⟨⟩
          exact latest _ _ rfl
      | .ok (.ok text, none) => exact absurd rfl (shown _ _ rfl)
      | .ok (.ok text, some head) => exact safe_webExecuteOn request follows (latest _ _ rfl)

/-- A session, one call after another. -/
theorem safe_webSession (calls : List WebCall) (asks : .getState ∈ calls → fetches)
    {state : Option State} (follows : FollowsHead fetches past) (latest : latestHead past = state) :
    (WebCall.session linked calls state).Safe i may (fun _ _ => True)
      (fun past result => KeepsHead fetches past result) past := by
  induction calls generalizing state past with
  | nil =>
      refine ⟨follows, ?_, nofun⟩
      rintro answers _ ⟨⟩
      exact latest
  | cons call calls ih =>
      have called : (call.code linked state).Safe i may (fun _ _ => True)
          (fun past result => KeepsHead fetches past result) past := by
        cases call with
        | execute request => exact safe_webExecute request follows latest
        | getState =>
            exact (safe_webGetState follows latest (.inl (asks List.mem_cons_self))).weaken
              fun _ _ kept => kept.1
      refine Prog.safe_bind.mpr (called.weaken ?_)
      rintro past result ⟨follows, latest, trap⟩
      match result with
      | .error trapped =>
          refine ⟨follows, nofun, ?_⟩
          rintro ⟨⟩
          exact trap rfl
      | .ok (answer, state) =>
          refine Prog.safe_bind.mpr ((ih (fun mem => asks (List.mem_cons_of_mem _ mem)) follows
            (latest _ _ rfl)).weaken ?_)
          rintro past result ⟨follows, latest, trap⟩
          match result with
          | .error trapped =>
              refine ⟨follows, nofun, ?_⟩
              rintro ⟨⟩
              exact trap rfl
          | .ok (answers, state) =>
              refine ⟨follows, ?_, nofun⟩
              rintro _ _ ⟨⟩
              exact latest _ _ rfl

end Session

/-- Where the gateway is asked only for a first head, all calls are for one. -/
theorem FollowsHead.pinned {fetches : Prop} (never : ¬ fetches)
    {past : List (WebEvent ι GetClassResult ContractClass)} (follows : FollowsHead fetches past) :
    ∀ e ∈ past, ∀ op, e.op = .call op →
      ∃ head, latestHead past = some head ∧ ServiceOp.For head (CallOp.name op) := by
  induction past with
  | nil => exact nofun
  | cons first older ih =>
      obtain ⟨here, before⟩ := follows
      obtain ⟨j, caches, firstOp, answer⟩ := first
      intro e mem op asks
      cases firstOp with
      | gateway =>
          rcases List.mem_cons.mp mem with rfl | mem
          · exact nomatch asks
          · obtain ⟨head, latest, -⟩ := ih before e mem op asks
            exact absurd (latest.symm.trans (here.resolve_left never)) (Option.some_ne_none head)
      | call firstCall =>
          rcases List.mem_cons.mp mem with rfl | mem
          · cases asks
            exact here
          · exact ih before e mem op asks

/-- In every run, each object has the head that it was shown last, calls for no
other block, and never unwraps a head that is missing. One that takes no
`get_state` works on one head for good. -/
theorem web_follows_head [DecidableEq ι] {linked : WebLinked GetClassResult ContractClass}
    {profile : Profile} {start : ReadCaches ContractClass}
    {c : Config ι (ReadCaches ContractClass) (WebOp ContractClass) (WebOp.Answer GetClassResult)
      (List WebCall) Trap fun _ => List (Except String String) × Option State}
    (reach : (webSystem linked profile).Reach start c) :
    ∀ i calls past result, ⟨i, calls, past, result⟩ ∈ c.finished →
      KeepsHead (.getState ∈ calls) past result ∧
        (.getState ∉ calls → ∀ e ∈ past, ∀ op, e.op = .call op →
          ∃ head, latestHead past = some head ∧ ServiceOp.For head (CallOp.name op)) := by
  intro i calls past result mem
  have kept : System.Keeps (fun _ => True) (fun _ => True) (fun _ _ _ _ => True)
      (fun _ calls past result => KeepsHead (.getState ∈ calls) past result) c := by
    refine reach.keeps_shown (fun i calls => ?_) fun _ _ => trivial
    have follows : FollowsHead (.getState ∈ calls)
        ([] : List (WebEvent ι GetClassResult ContractClass)) := trivial
    exact safe_webSession calls id follows rfl
  have here : KeepsHead (.getState ∈ calls) past result := kept.finished _ mem
  exact ⟨here, fun never => here.follows.pinned never⟩

/-- A page that calls the sample contract. -/
def samplePage : WebLinked Unit Unit where
  crates := sampleHashes
  tryInto _ := .ok ()
  blockifier := sampleBlockifier
  functionCall _ := .ok sampleCall
  showGateway _ := "error"
  showClient _ := "error"

def samplePageRun : (op : WebOp Unit) → ReadCaches Unit → op.Answer Unit × ReadCaches Unit
  | .gateway, s => (laterResponse, s)
  | .call op, s => cacheRun sampleProvider op s

theorem samplePage_does (i : Bool) (op : WebOp Unit) (s : ReadCaches Unit) :
    webExec samplePage .release i op (samplePageRun op s).1 s (samplePageRun op s).2 := by
  cases op with
  | gateway => rfl
  | call op => exact sampleProvider_does i op s

/-- The head that it is shown. -/
abbrev samplePageHead : State := ⟨7, .ofNat 0xab, (sampleHead false).root, by decide⟩

/-- Two calls on it. -/
abbrev samplePageResult : Except Trap (List (Except String String) × Option State) :=
  .ok ([.ok "[\"0x2a\"]", .ok "[\"0x2a\"]"], some samplePageHead)

theorem samplePage_follows :
    ∃ c past, (webSystem samplePage .release).Reach Caches.empty c ∧
      ⟨false, [.execute "call", .execute "call"], past, samplePageResult⟩ ∈ c.finished ∧
      KeepsHead (.getState ∈ [WebCall.execute "call", .execute "call"]) past samplePageResult ∧
      ∀ e ∈ past, ∀ op, e.op = .call op →
        ∃ head, latestHead past = some head ∧ ServiceOp.For head (CallOp.name op) := by
  have run := (webSystem samplePage .release).reach_first Caches.empty false
    [.execute "call", .execute "call"] samplePageRun (fun e _ => samplePage_does _ e.op e.before)
    (show _ = samplePageResult by decide +kernel)
  obtain ⟨keeps, pinned⟩ := web_follows_head run _ _ _ _ List.mem_cons_self
  exact ⟨_, _, run, List.mem_cons_self, keeps, pinned (by decide)⟩

end Beerus
