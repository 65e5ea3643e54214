import Beerus.Rpc.Forward
import Beerus.Service.Provenance

/-!
Requests over HTTP (`handle_request` of `src/rpc.rs` on the service).

This is the server as it is reached from outside: requests, alone and in
batches, are read, dispatched to the methods of `Context`, run part after part,
and answered, while other requests and polls go on. Methods that are passed on
post to the provider; `starknet_call` and `starknet_getStorageAt` are run by the
service.

However they interleave, each part of a request is served by the events of its
own, which follow on those of the part before it (`http_requests_served`): what
is known of calls and reads on the service holds of every response that carries
their results. Only a read can take its request down with it
(`http_requests_answered`).
-/

namespace Beerus

open Beerus.Lib

variable {Id Value GetClassResult ContractClass ι : Type}

/-! ### The server -/

/-- What `serde_json` makes of arguments and results, with the types that the
server's own methods take and return. -/
structure ServiceWire (Id Value : Type) extends Wire Id Value where
  callArgs : Args .call → FunctionCall × BlockId
  callRet : List Felt → Ret (.withParams .call)
  getStorageAtArgs : Args .getStorageAt → Address × StorageKey × BlockId
  getStorageAtRet : Felt → Ret (.withParams .getStorageAt)

/-- An action of the server: a request that is passed on, or an action of the
service. -/
abbrev HttpOp (Id Value ContractClass : Type) := ContextOp Id Value (ServiceOp ContractClass)

/-- How it is answered. -/
abbrev HttpOp.Answer (GetClassResult : Type) : HttpOp Id Value ContractClass → Type :=
  ContextOp.Answer (CacheOp.Answer (ServerOp.Answer GetClassResult))

/-- A program of the server. -/
abbrev HttpProg (Id Value GetClassResult ContractClass α : Type) :=
  Prog (HttpOp Id Value ContractClass) (HttpOp.Answer GetClassResult) (Fault JsonRpcError) α

/-- A program of the service, as part of the server. -/
abbrev Lib.Prog.inHttp {α : Type} (p : ServiceProg GetClassResult ContractClass α) :
    HttpProg Id Value GetClassResult ContractClass α :=
  p.relabel .own fun _ answer => answer

/-- `Context::call` and `Context::getStorageAt`. -/
def Context.own (linked : Linked GetClassResult ContractClass) (wire : ServiceWire Id Value) :
    OwnMethods wire.toWire (ServiceOp ContractClass)
      (CacheOp.Answer (ServerOp.Answer GetClassResult)) where
  call args :=
    (Context.call linked (wire.callArgs args).1 (wire.callArgs args).2).mapResult
      (Except.map wire.callRet)
  getStorageAt args :=
    let (contractAddress, key, blockId) := wire.getStorageAtArgs args
    (Context.getStorageAt contractAddress key blockId).ofServer.mapResult
      (Except.map wire.getStorageAtRet)

/-- The methods of `Context`. -/
abbrev Context.methods (linked : Linked GetClassResult ContractClass) (wire : ServiceWire Id Value) :
    Rpc Value (HttpOp Id Value ContractClass) (HttpOp.Answer GetClassResult) :=
  (Context.impl (Context.own linked wire)).rpc

/-- What the server's tasks are asked to do. -/
inductive HttpJob (Id Value : Type) where
  | request (req : Request Id Value)
  | poll (ticks : Nat)

/-- What they return. -/
def HttpJob.Result : HttpJob Id Value → Type
  | .request _ => Response Id Value
  | .poll _ => Unit

deriving instance DecidableEq for JsonRpc.Response
deriving instance DecidableEq for Response

instance HttpJob.Result.decidableEq [DecidableEq Id] [DecidableEq Value] :
    (job : HttpJob Id Value) → DecidableEq job.Result
  | .request _ => inferInstanceAs (DecidableEq (Response Id Value))
  | .poll _ => inferInstanceAs (DecidableEq Unit)

/-- The code of a task. -/
def HttpJob.code [Inhabited Value] (linked : Linked GetClassResult ContractClass)
    (wire : ServiceWire Id Value) :
    (job : HttpJob Id Value) → HttpProg Id Value GetClassResult ContractClass job.Result
  | .request req => handleRequest (Context.methods linked wire) req
  | .poll ticks => (ServiceJob.code linked (.server (.poll ticks))).inHttp

/-- An event of the server. -/
abbrev HttpEvent (ι Id Value GetClassResult ContractClass : Type) :=
  Prog.Event ι (Service ι ContractClass) (HttpOp Id Value ContractClass)
    (HttpOp.Answer GetClassResult)

/-- A configuration of the server. -/
abbrev HttpConfig (ι Id Value GetClassResult ContractClass : Type) :=
  Config ι (Service ι ContractClass) (HttpOp Id Value ContractClass)
    (HttpOp.Answer GetClassResult) (HttpJob Id Value) (Fault JsonRpcError) HttpJob.Result

/-- An event as the service sees it. -/
def ownEvent : HttpEvent ι Id Value GetClassResult ContractClass →
    Option (ServiceEvent ι GetClassResult ContractClass)
  | ⟨i, before, .own op, answer⟩ => some ⟨i, before, op, answer⟩
  | _ => none

/-- The server. To what is passed on, the provider may answer anything. -/
def httpSystem [DecidableEq ι] [Inhabited Value] (linked : Linked GetClassResult ContractClass)
    (world : World GetClassResult) (wire : ServiceWire Id Value) :
    System ι (Service ι ContractClass) (HttpOp Id Value ContractClass)
      (HttpOp.Answer GetClassResult) (HttpJob Id Value) (Fault JsonRpcError) HttpJob.Result where
  code _ job := job.code linked wire
  exec
    | i, .own op, answer, s, s' => serviceExec linked world i op answer s s'
    | _, .post _, _, s, s' => s' = s
  env := (serviceSystem linked world).env
  release := (serviceSystem linked world).release

/-! ### How requests are served -/

section Served

variable [Inhabited Value] (linked : Linked GetClassResult ContractClass)
  (wire : ServiceWire Id Value)
  (tells : Nat → (call : StateCall ContractClass) → Res StateError call.Result → Prop)
  (known : State → Prop)

/-- A method that is passed on: one request is posted, and its response read. -/
inductive Relayed (handler : Handler) (params : Except String Value) :
    List (HttpEvent ι Id Value GetClassResult ContractClass) →
      Res JsonRpcError (wire.Ret handler) → Prop where
  | posted (i : ι) (before : Service ι ContractClass) (value : Value) (answer : Posted Value) :
      params = .ok value →
      Relayed handler params
        [⟨i, before, .post ⟨handler.name, some value, some wire.one⟩, answer⟩]
        (gen.Client.read wire.toWire handler answer)
  | unwritten (e : String) :
      params = .error e →
      Relayed handler params [] (Res.err ⟨4001, "Invalid params: " ++ e ++ "."⟩)

/-- A method with parameters: after its events it ends with its result. -/
def MethodServed : (method : Method) → wire.Args method →
    List (HttpEvent ι Id Value GetClassResult ContractClass) →
      Res JsonRpcError (wire.Ret (.withParams method)) → Prop
  | .call, args, past, result => ∃ felts : Res JsonRpcError (List Felt),
      ServicePost linked tells known (.call (wire.callArgs args).1 (wire.callArgs args).2)
        (past.filterMap ownEvent) felts ∧ result = Except.map wire.callRet felts
  | .getStorageAt, args, past, result => ∃ v : Res JsonRpcError Felt,
      ServicePost linked tells known
        (.server (.getStorageAt (wire.getStorageAtArgs args).1 (wire.getStorageAtArgs args).2.1
          (wire.getStorageAtArgs args).2.2)) (past.filterMap ownEvent) v ∧
        result = Except.map wire.getStorageAtRet v
  | method, args, past, result =>
      Relayed wire (.withParams method) (wire.argsToValue method args) past result

/-- How a part of a request is answered, after its events. -/
inductive PartServed (req : JsonRpc.Request Id Value) :
    List (HttpEvent ι Id Value GetClassResult ContractClass) → JsonRpc.Response Id Value → Prop where
  | unknown :
      Handler.ofName req.method = none →
      PartServed req [] (JsonRpc.Response.under req.id (.error (-32601) "Method not found"))
  | unread (method : Method) :
      Handler.ofName req.method = some (.withParams method) →
      wire.readArgs method (req.params.getD default) = none →
      PartServed req [] (JsonRpc.Response.under req.id (.error (-32602) "Invalid params"))
  | withParams (method : Method) (args : wire.Args method)
      (past : List (HttpEvent ι Id Value GetClassResult ContractClass))
      (result : Res JsonRpcError (wire.Ret (.withParams method)))
      (res : JsonRpc.Response Id Value) :
      Handler.ofName req.method = some (.withParams method) →
      wire.readArgs method (req.params.getD default) = some args →
      MethodServed linked wire tells known method args past result →
      respond (fun _ => .error (-32603) "Internal error")
        (Except.map (wire.retToValue (.withParams method)) result) = .ok res →
      PartServed req past (res.under req.id)
  | plain (method : PlainMethod)
      (past : List (HttpEvent ι Id Value GetClassResult ContractClass))
      (result : Res JsonRpcError (wire.Ret (.plain method))) (res : JsonRpc.Response Id Value) :
      Handler.ofName req.method = some (.plain method) →
      Relayed wire (.plain method) (.ok wire.noParams) past result →
      respond (fun e => .error 1003 e)
        (Except.map (wire.retToValue (.plain method)) result) = .ok res →
      PartServed req past (res.under req.id)

/-- How the parts of a request are answered: one after another, each after its
own events. -/
inductive PartsServed : List (JsonRpc.Request Id Value) →
    List (HttpEvent ι Id Value GetClassResult ContractClass) →
      List (JsonRpc.Response Id Value) → Prop where
  | nil : PartsServed [] [] []
  | cons {req : JsonRpc.Request Id Value} {reqs : List (JsonRpc.Request Id Value)}
      {first later : List (HttpEvent ι Id Value GetClassResult ContractClass)}
      {res : JsonRpc.Response Id Value} {ress : List (JsonRpc.Response Id Value)} :
      PartServed linked wire tells known req first res →
      PartsServed reqs later ress →
      PartsServed (req :: reqs) (later ++ first) (res :: ress)

end Served

/-! ### Runs of the server -/

section Keeps

variable {linked : Linked GetClassResult ContractClass} {world : World GetClassResult}
  {wire : ServiceWire Id Value}
  {tells : Nat → (call : StateCall ContractClass) → Res StateError call.Result → Prop}
  {boot : GatewayAnswer} {seen : Set (HttpEvent ι Id Value GetClassResult ContractClass)} {i : ι}

/-- What the service sees of events of the run. -/
def ownSeen (seen : Set (HttpEvent ι Id Value GetClassResult ContractClass)) :
    Set (ServiceEvent ι GetClassResult ContractClass) :=
  {e | ∃ e' ∈ seen, ownEvent e' = some e}

/-- What events of the run show. -/
def HttpMay (linked : Linked GetClassResult ContractClass) (world : World GetClassResult)
    (tells : Nat → (call : StateCall ContractClass) → Res StateError call.Result → Prop)
    (boot : GatewayAnswer) (seen : Set (HttpEvent ι Id Value GetClassResult ContractClass))
    (e : HttpEvent ι Id Value GetClassResult ContractClass) : Prop :=
  ∀ own, ownEvent e = some own → ServiceMay linked world tells boot (ownSeen seen) own

/-- What is owed before an action. -/
def HttpOwes (linked : Linked GetClassResult ContractClass)
    (tells : Nat → (call : StateCall ContractClass) → Res StateError call.Result → Prop)
    (known : State → Prop) : HttpOp Id Value ContractClass → Prop
  | .own op => ServiceOwes linked tells known op
  | .post _ => True

/-- What holds at the end of a task. -/
def HttpPost [Inhabited Value] (linked : Linked GetClassResult ContractClass)
    (wire : ServiceWire Id Value)
    (tells : Nat → (call : StateCall ContractClass) → Res StateError call.Result → Prop)
    (known : State → Prop) : (job : HttpJob Id Value) →
      List (HttpEvent ι Id Value GetClassResult ContractClass) →
        Except (Fault JsonRpcError) job.Result → Prop
  | .request req, past, result => ∀ response : Response Id Value, result = .ok response →
      ∃ results, PartsServed linked wire tells known req.requests past results ∧
        response.responses = answered req.requests results
  | .poll _, _, _ => True

/-- What is safe on the service is safe in the server. -/
theorem safe_inHttp {α : Type}
    {post : List (ServiceEvent ι GetClassResult ContractClass) → Res JsonRpcError α → Prop}
    {p : ServiceProg GetClassResult ContractClass α}
    (alone : p.Safe i (ServiceMay linked world tells boot (ownSeen seen))
      (fun _ => ServiceOwes linked tells (Published boot (ownSeen seen))) post []) :
    p.inHttp.Safe i (HttpMay linked world tells boot seen)
      (fun _ => HttpOwes linked tells (Published boot (ownSeen seen)))
      (fun past result => post (past.filterMap ownEvent) result) [] := by
  refine (Prog.safe_relabel (fun past' past => past'.filterMap ownEvent = past)
    ?_ ?_ rfl alone).weaken ?_
  · intro past past' op _ owed
    exact owed
  · intro past past' before op answer read shown
    exact ⟨before, shown _ rfl, congrArg (List.cons _) read⟩
  · rintro past' result ⟨past, rfl, ends⟩
    exact ends

/-- So it is where a function is applied to the result. -/
theorem safe_mapInHttp {α β : Type} (f : α → β)
    {post : List (ServiceEvent ι GetClassResult ContractClass) → Res JsonRpcError α → Prop}
    {p : ServiceProg GetClassResult ContractClass α}
    (alone : p.Safe i (ServiceMay linked world tells boot (ownSeen seen))
      (fun _ => ServiceOwes linked tells (Published boot (ownSeen seen))) post []) :
    (p.mapResult (Except.map f)).inHttp.Safe i (HttpMay linked world tells boot seen)
      (fun _ => HttpOwes linked tells (Published boot (ownSeen seen)))
      (fun past result => ∃ ended, post (past.filterMap ownEvent) ended ∧
        result = Except.map f ended) [] := by
  refine @safe_inHttp _ _ _ _ _ linked world tells boot seen i _
    (fun past result => ∃ ended, post past ended ∧ result = Except.map f ended) _
    (Prog.safe_mapResult.mpr (alone.weaken ?_))
  intro past ended here
  exact ⟨ended, here, rfl⟩

theorem safe_relayed (handler : Handler) (params : Except String Value) :
    (Context.forward wire.toWire (CacheOp.Answer (ServerOp.Answer GetClassResult)) handler
      params).Safe i (HttpMay linked world tells boot seen)
      (fun _ => HttpOwes linked tells (Published boot (ownSeen seen)))
      (Relayed wire handler params) [] := by
  cases params with
  | error e => exact .unwritten e rfl
  | ok value => exact ⟨trivial, fun before answer _ => .posted i before value answer rfl⟩

variable (safe : ∀ i head, Published boot (ownSeen seen) head → ∀ call past,
  (StateProxy linked.crates linked.tryInto head call).embed.Safe i
    (May (Told linked.crates tells)
      (fun _ => ProxyOp.Answered linked.verify world.provider) (callsSeen (ownSeen seen)))
    (Owes (Told linked.crates tells) False)
    (fun _ result => tells head.blockHash.number call result) past)

include safe

theorem safe_method (method : Method) (args : wire.Args method) :
    ((Context.impl (Context.own linked wire)).withParams method args).Safe i
      (HttpMay linked world tells boot seen)
      (fun _ => HttpOwes linked tells (Published boot (ownSeen seen)))
      (MethodServed linked wire tells (Published boot (ownSeen seen)) method args) [] := by
  cases method with
  | call => exact safe_mapInHttp wire.callRet (safe_contextCall _ _ (safe i))
  | getStorageAt => exact safe_mapInHttp wire.getStorageAtRet (safe_ofServer (.getStorageAt ..))
  | _ => exact safe_relayed _ _

variable [Inhabited Value]

/-- A part of a request is served by its own events. -/
theorem safe_part (req : JsonRpc.Request Id Value) :
    (handle (Context.methods linked wire) req).Safe i (HttpMay linked world tells boot seen)
      (fun _ => HttpOwes linked tells (Published boot (ownSeen seen)))
      (fun past result => ∀ res, result = .ok res →
        PartServed linked wire tells (Published boot (ownSeen seen)) req past res) [] := by
  have dispatched : (dispatch (Context.methods linked wire) req.method
      (req.params.getD default)).Safe i (HttpMay linked world tells boot seen)
      (fun _ => HttpOwes linked tells (Published boot (ownSeen seen)))
      (fun past result => ∀ res : JsonRpc.Response Id Value, result = .ok res →
        PartServed linked wire tells (Published boot (ownSeen seen)) req past
          (res.under req.id)) [] := by
    unfold dispatch
    cases named : Handler.ofName req.method with
    | none =>
        rintro res ⟨⟩
        exact .unknown named
    | some handler =>
        cases handler with
        | plain method =>
            dsimp only
            rw [handlePlain_eq]
            refine Prog.safe_mapResult.mpr
              ((safe_relayed (.plain method) (.ok wire.noParams)).weaken ?_)
            intro past result relayed res ends
            exact .plain method past result res named relayed ends
        | withParams method =>
            dsimp only
            cases read : wire.readArgs method (req.params.getD default) with
            | none =>
                rw [handleWithParams_none read]
                rintro res ⟨⟩
                exact .unread method named read
            | some args =>
                rw [handleWithParams_some read]
                refine Prog.safe_mapResult.mpr ((safe_method safe method args).weaken ?_)
                intro past result served res ends
                exact .withParams method args past result res named read served ends
  rw [handle_eq_mapResult]
  refine Prog.safe_mapResult.mpr (dispatched.weaken ?_)
  intro past result served res ends
  cases result with
  | error fault => exact nomatch ends
  | ok response =>
      obtain rfl := Except.ok.inj ends
      exact served response rfl

/-- So are the parts of a batch, one after another. -/
theorem safe_parts (reqs : List (JsonRpc.Request Id Value))
    (ret : List (JsonRpc.Response Id Value)) :
    (handleBatch (Context.methods linked wire) reqs ret).Safe i
      (HttpMay linked world tells boot seen)
      (fun _ => HttpOwes linked tells (Published boot (ownSeen seen)))
      (fun past result => ∀ responses, result = .ok responses → ∃ results,
        PartsServed linked wire tells (Published boot (ownSeen seen)) reqs past results ∧
          responses = ret ++ answered reqs results) [] := by
  induction reqs generalizing ret with
  | nil =>
      rintro responses ⟨⟩
      exact ⟨[], .nil, (List.append_nil ret).symm⟩
  | cons req reqs ih =>
      refine Prog.safe_bind.mpr ((safe_part safe req).weaken ?_)
      intro past result served
      cases result with
      | error fault => exact nofun
      | ok res =>
          refine ((ih _).behind past).weaken ?_
          rintro _ result ⟨later, rfl, rest⟩ responses ends
          obtain ⟨results, parts, same⟩ := rest responses ends
          refine ⟨res :: results, .cons (served res rfl) parts, ?_⟩
          rw [same, answered]
          cases req.id.isSome <;> simp

theorem safe_httpCode (job : HttpJob Id Value) :
    (job.code linked wire).Safe i (HttpMay linked world tells boot seen)
      (fun _ => HttpOwes linked tells (Published boot (ownSeen seen)))
      (HttpPost linked wire tells (Published boot (ownSeen seen)) job) [] := by
  cases job with
  | poll ticks => exact (safe_inHttp (safe_ofServer (.poll ticks))).weaken fun _ _ _ => trivial
  | request req =>
      cases req with
      | batch reqs =>
          refine Prog.safe_bind.mpr ((safe_parts safe reqs []).weaken ?_)
          intro past result served
          cases result with
          | error fault => exact nofun
          | ok ret =>
              rintro response ⟨⟩
              exact served ret rfl
      | single req =>
          refine Prog.safe_bind.mpr ((safe_part safe req).weaken ?_)
          intro past result served
          cases result with
          | error fault => exact nofun
          | ok res =>
              have parts : PartsServed linked wire tells (Published boot (ownSeen seen)) [req]
                  ([] ++ past) [res] := .cons (served res rfl) .nil
              have kept := responses_single req res
              cases named : req.id.isSome with
              | false =>
                  rw [named] at kept
                  rintro response ⟨⟩
                  exact ⟨[res], parts, kept⟩
              | true =>
                  rw [named] at kept
                  rintro response ⟨⟩
                  exact ⟨[res], parts, kept⟩

/-- What is kept in every run of the server. -/
theorem http_keeps [DecidableEq ι] {head : State}
    (started : GatewayClient.getState boot = .ok head)
    {c : HttpConfig ι Id Value GetClassResult ContractClass}
    (reach : (httpSystem linked world wire).Reach (Service.initial head) c)
    (inside : ∀ e ∈ c.trace, e ∈ seen) :
    System.Keeps
      (fun s => Published boot (ownSeen seen) s.server.head ∧
        s.caches.Holds (Told linked.crates tells))
      (HttpMay linked world tells boot seen)
      (fun _ _ _ => HttpOwes linked tells (Published boot (ownSeen seen)))
      (fun _ => HttpPost linked wire tells (Published boot (ownSeen seen))) c := by
  refine reach.keeps (fun i => safe_httpCode safe) ?_ ?_ (fun _ _ kept => kept) ?_ inside
  · intro i job past op answer s s' kept owed does mem
    cases op with
    | post req =>
        obtain rfl : s' = s := does
        exact ⟨nofun, kept⟩
    | own op =>
        obtain ⟨shown, after⟩ := serviceExec_keeps kept.1 kept.2 owed does ⟨_, mem, rfl⟩
        refine ⟨?_, after⟩
        rintro own ⟨⟩
        exact shown
  · rintro s _ ⟨published, holds⟩ ⟨caches, evicts, rfl⟩
    exact ⟨published, holds.evicts evicts⟩
  · exact ⟨.inl started, Caches.holds_empty⟩

end Keeps

/-! ### That requests are answered -/

theorem respond_eq_ok {α : Type} {result : Res JsonRpcError α} (calm : result ≠ Res.panic)
    (internal : String → JsonRpc.Response Id Value) (f : α → Except String Value) :
    ∃ res, respond internal (Except.map f result) = .ok res := by
  match result with
  | .error (.error e) => exact ⟨_, rfl⟩
  | .error .panic => exact absurd rfl calm
  | .ok ret =>
      cases written : f ret with
      | ok v => exact ⟨.result v, by simp [Except.map, written, respond]⟩
      | error e => exact ⟨internal e, by simp [Except.map, written, respond]⟩

section Answered

variable {linked : Linked GetClassResult ContractClass} {wire : ServiceWire Id Value}

theorem forward_yields (handler : Handler) (params : Except String Value) :
    (Context.forward wire.toWire (CacheOp.Answer (ServerOp.Answer GetClassResult)) handler params :
      HttpProg Id Value GetClassResult ContractClass _).Yields (fun _ _ => True)
        (· ≠ Res.panic) := by
  cases params with
  | error e => exact Res.err_ne_panic _
  | ok value =>
      intro answer _
      exact gen.Client.read_ne_panic answer

/-- No method but `getStorageAt` panics. -/
theorem method_yields {method : Method} (other : method ≠ .getStorageAt) (args : wire.Args method) :
    ((Context.impl (Context.own linked wire)).withParams method args :
      HttpProg Id Value GetClassResult ContractClass _).Yields (fun _ _ => True)
        (· ≠ Res.panic) := by
  cases method with
  | getStorageAt => exact absurd rfl other
  | call =>
      refine Prog.Yields.relabel (fun _ _ _ => trivial)
        (Prog.yields_mapResult.mpr ((contextCall_yields _ _).weaken ?_))
      rintro result (⟨felts, rfl⟩ | ⟨message, rfl⟩)
      · exact Res.ok_ne_panic _
      · exact Res.err_ne_panic _
  | _ => exact forward_yields _ _

variable [Inhabited Value]

/-- So each part that is not for it is answered, under its id. -/
theorem part_yields {req : JsonRpc.Request Id Value}
    (other : Handler.ofName req.method ≠ some (.withParams .getStorageAt)) :
    (handle (Context.methods linked wire) req :
      HttpProg Id Value GetClassResult ContractClass _).Yields (fun _ _ => True) fun result =>
        ∃ res, result = .ok res ∧ (req.id.isSome → res.id = req.id) := by
  have dispatched : (dispatch (Context.methods linked wire) req.method (req.params.getD default) :
      HttpProg Id Value GetClassResult ContractClass (JsonRpc.Response Id Value)).Yields
        (fun _ _ => True) fun result => ∃ res, result = .ok res := by
    unfold dispatch
    cases named : Handler.ofName req.method with
    | none => exact ⟨_, rfl⟩
    | some handler =>
        cases handler with
        | plain method =>
            dsimp only
            rw [handlePlain_eq]
            exact Prog.yields_mapResult.mpr ((forward_yields _ _).weaken fun result calm =>
              respond_eq_ok calm _ _)
        | withParams method =>
            dsimp only
            cases read : wire.readArgs method (req.params.getD default) with
            | none =>
                rw [handleWithParams_none read]
                exact ⟨_, rfl⟩
            | some args =>
                have calm : method ≠ .getStorageAt := by
                  rintro rfl
                  exact other named
                rw [handleWithParams_some read]
                exact Prog.yields_mapResult.mpr ((method_yields calm args).weaken
                  fun result calm => respond_eq_ok calm _ _)
  rw [handle_eq_mapResult]
  refine Prog.yields_mapResult.mpr (dispatched.weaken ?_)
  rintro _ ⟨res, rfl⟩
  refine ⟨res.under req.id, rfl, ?_⟩
  cases req.id with
  | none => exact nofun
  | some id => exact fun _ => rfl

/-- The ids that answers are owed for. -/
def askedIds (reqs : List (JsonRpc.Request Id Value)) : List (Option Id) :=
  (reqs.filter (·.id.isSome)).map (·.id)

theorem parts_yield {reqs : List (JsonRpc.Request Id Value)}
    (other : ∀ req ∈ reqs, Handler.ofName req.method ≠ some (.withParams .getStorageAt))
    (ret : List (JsonRpc.Response Id Value)) :
    (handleBatch (Context.methods linked wire) reqs ret :
      HttpProg Id Value GetClassResult ContractClass _).Yields (fun _ _ => True) fun result =>
        ∃ responses, result = .ok responses ∧
          responses.map (·.id) = ret.map (·.id) ++ askedIds reqs := by
  induction reqs generalizing ret with
  | nil => exact ⟨ret, rfl, (List.append_nil _).symm⟩
  | cons req reqs ih =>
      refine Prog.yields_bind.mpr ((part_yields (other req List.mem_cons_self)).weaken ?_)
      rintro _ ⟨res, rfl, own⟩
      refine (ih (fun r mem => other r (List.mem_cons_of_mem _ mem)) _).weaken ?_
      rintro _ ⟨responses, rfl, same⟩
      refine ⟨responses, rfl, same.trans ?_⟩
      cases named : req.id with
      | none => simp [askedIds, named]
      | some id =>
          rw [named] at own
          simp [askedIds, named, own rfl]

/-- A request of which no part is a read of storage is answered, under the ids of
its parts. -/
theorem request_yields {req : Request Id Value}
    (other : ∀ r ∈ req.requests, Handler.ofName r.method ≠ some (.withParams .getStorageAt)) :
    (handleRequest (Context.methods linked wire) req :
      HttpProg Id Value GetClassResult ContractClass _).Yields (fun _ _ => True) fun result =>
        ∃ response, result = .ok response ∧
          response.responses.map (·.id) = askedIds req.requests := by
  cases req with
  | batch reqs =>
      refine Prog.yields_bind.mpr ((parts_yield other []).weaken ?_)
      rintro _ ⟨responses, rfl, same⟩
      exact ⟨.batch responses, rfl, same⟩
  | single req =>
      refine Prog.yields_bind.mpr ((part_yields (other req List.mem_cons_self)).weaken ?_)
      rintro _ ⟨res, rfl, own⟩
      cases named : req.id with
      | none =>
          refine ⟨.empty, rfl, ?_⟩
          simp [Response.responses, askedIds, Request.requests, named]
      | some id =>
          rw [named] at own
          refine ⟨.single res, rfl, ?_⟩
          simp [Response.responses, askedIds, Request.requests, named, own rfl]

/-- What a task ends with: a request is answered, if no part of it reads
storage. -/
def HttpJob.Answered : (job : HttpJob Id Value) → Except (Fault JsonRpcError) job.Result → Prop
  | .request req, result =>
      (∀ r ∈ req.requests, Handler.ofName r.method ≠ some (.withParams .getStorageAt)) →
        ∃ response : Response Id Value, result = .ok response ∧
          response.responses.map (·.id) = askedIds req.requests
  | .poll _, _ => True

theorem httpJob_yields (job : HttpJob Id Value) :
    (job.code linked wire : HttpProg Id Value GetClassResult ContractClass _).Yields
      (fun _ _ => True) job.Answered := by
  cases job with
  | poll ticks => exact Prog.yields_trivial _
  | request req =>
      by_cases other : ∀ r ∈ req.requests,
          Handler.ofName r.method ≠ some (.withParams .getStorageAt)
      · exact (request_yields other).weaken fun result ends _ => ends
      · exact (Prog.yields_trivial _).weaken fun result _ also => absurd also other

end Answered

section Requests

variable [Inhabited Value] [DecidableEq ι] {linked : Linked GetClassResult ContractClass}
  {world : World GetClassResult} {wire : ServiceWire Id Value} {boot : GatewayAnswer}

/-- Every request that is answered is answered part by part, one response for
each part with an id. A part is served by events of its own: a call by one
published head and what `verify` has accepted of its block, a read by a value
that was verified, and another method by the response to the one request that is
posted for it. -/
theorem http_requests_served {head : State} (started : GatewayClient.getState boot = .ok head)
    {c : HttpConfig ι Id Value GetClassResult ContractClass}
    (reach : (httpSystem linked world wire).Reach (Service.initial head) c) :
    ∀ i req past response, ⟨i, .request req, past, .ok response⟩ ∈ c.finished →
      ∃ results,
        PartsServed linked wire (Vouched linked boot (ownSeen {e | e ∈ c.trace}))
          (Published boot (ownSeen {e | e ∈ c.trace})) req.requests past results ∧
        response.responses = answered req.requests results := by
  intro i req past response mem
  have kept := http_keeps (fun i head published call past =>
    safe_vouched published call past) started reach (fun _ => id)
  exact kept.finished _ mem response rfl

/-- Whatever the provider, the gateway and Blockifier do, a request that ends is
answered, with one response for each id and in order, if no part of it reads
storage. -/
theorem http_requests_answered {start : Service ι ContractClass}
    {c : HttpConfig ι Id Value GetClassResult ContractClass}
    (reach : (httpSystem linked world wire).Reach start c) :
    ∀ i req past result, ⟨i, .request req, past, result⟩ ∈ c.finished →
      (∀ r ∈ req.requests, Handler.ofName r.method ≠ some (.withParams .getStorageAt)) →
        ∃ response : Response Id Value, result = .ok response ∧
          response.responses.map (·.id) = askedIds req.requests := by
  intro i req past result mem
  exact reach.finished_yields (fun _ job => httpJob_yields job) _ mem

end Requests

/-! ### A batch on the sample state -/

/-- Lists of felts on the wire. Whatever the arguments, the sample contract is
called. -/
def sampleServiceWire : ServiceWire Nat (Option (List Felt)) where
  Args _ := Unit
  Ret _ := List Felt
  argByName _ params := params.map fun _ => ()
  argByPos _ _ := none
  argsToValue _ _ := .ok (some [])
  retToValue _ ret := .ok (some ret)
  retOfValue _ value := value.elim (.error "null") .ok
  noParams := some []
  one := 1
  callArgs _ := (sampleCall, .blockTag .latest)
  callRet felts := felts
  getStorageAtArgs _ :=
    (sampleContractKey.asAddress, sampleSlot.asStorageKey, .blockTag .latest)
  getStorageAtRet v := [v]

/-- A call, a request that is passed on, and one that is not known. -/
def sampleHttpBatch : Request Nat (Option (List Felt)) :=
  .batch [⟨"starknet_call", some (some []), some 7⟩, ⟨"starknet_getNonce", some (some []), none⟩,
    ⟨"starknet_unknown", none, some 8⟩]

abbrev sampleHttp := @httpSystem Nat (Option (List Felt)) Unit Unit Bool _ _ sampleLinked
  sampleWorld sampleServiceWire

/-- What actions do as a function, where `null` comes back for what is passed
on. -/
def sampleHttpRun (i : Bool) : (op : HttpOp Nat (Option (List Felt)) Unit) → Service Bool Unit →
    HttpOp.Answer Unit op × Service Bool Unit
  | .post _, s => (.ok ⟨none, none⟩, s)
  | .own op, s => serviceRun sampleProvider laterResponse i op s

theorem sampleHttp_does {i : Bool} {p : List (HttpEvent Bool Nat (Option (List Felt)) Unit Unit)}
    (enabled : (p.filterMap ownEvent).all (fun e => ServiceOp.enabled e.before e.op) = true) :
    ∀ e ∈ p, sampleHttp.exec i e.op (sampleHttpRun i e.op e.before).1 e.before
      (sampleHttpRun i e.op e.before).2 := by
  rintro ⟨j, before, op, answer⟩ mem
  cases op with
  | post req => rfl
  | own op =>
      exact sampleService_does enabled ⟨j, before, op, answer⟩
        (List.mem_filterMap.mpr ⟨_, mem, rfl⟩)

/-- A poll, then the batch. -/
theorem sampleHttp_runs :
    ∃ c past, sampleHttp.Reach (Service.initial bootHead) c ∧
      ⟨false, .request sampleHttpBatch, past, .ok (Response.batch
        [⟨.ok (some [.ofNat 0x2a]), some 7⟩, ⟨.error ⟨-32601, "Method not found"⟩, some 8⟩])⟩ ∈
          c.finished := by
  have polled := sampleHttp.reach_first (Service.initial bootHead) true (.poll 1)
    (sampleHttpRun true) (sampleHttp_does (by decide +kernel)) rfl
  have called := polled.solo false (.request sampleHttpBatch) rfl
    (sampleHttpRun false) (sampleHttp_does (by decide +kernel))
    (show _ = .ok (Response.batch [⟨.ok (some [.ofNat 0x2a]), some 7⟩,
      ⟨.error ⟨-32601, "Method not found"⟩, some 8⟩]) by decide +kernel)
  exact ⟨_, _, called, List.mem_cons_self⟩

theorem sampleHttp_served :
    ∃ c past response results, sampleHttp.Reach (Service.initial bootHead) c ∧
      ⟨false, .request sampleHttpBatch, past, .ok response⟩ ∈ c.finished ∧
      PartsServed sampleLinked sampleServiceWire
        (Vouched sampleLinked bootResponse (ownSeen {e | e ∈ c.trace}))
        (Published bootResponse (ownSeen {e | e ∈ c.trace})) sampleHttpBatch.requests past results ∧
      response.responses = answered sampleHttpBatch.requests results := by
  obtain ⟨c, past, reach, mem⟩ := sampleHttp_runs
  have started : GatewayClient.getState bootResponse = .ok bootHead := by decide +kernel
  obtain ⟨results, served⟩ := http_requests_served started reach _ _ _ _ mem
  exact ⟨c, past, _, results, reach, mem, served⟩

theorem sampleHttp_answered :
    ∃ c past result, sampleHttp.Reach (Service.initial bootHead) c ∧
      ⟨false, .request sampleHttpBatch, past, result⟩ ∈ c.finished ∧
      ∃ response : Response Nat (Option (List Felt)), result = .ok response ∧
        response.responses.map (·.id) = askedIds sampleHttpBatch.requests := by
  obtain ⟨c, past, reach, mem⟩ := sampleHttp_runs
  exact ⟨c, past, _, reach, mem, http_requests_answered reach _ _ _ _ mem (by decide)⟩

end Beerus
