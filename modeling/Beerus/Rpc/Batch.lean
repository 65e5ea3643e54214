import Beerus.Gen
import Beerus.Lib.Threads

/-!
Requests of the server, alone and in batches (`handle_request` of `src/rpc.rs`,
`handle` of `src/gen.rs`).

`handle` finds the method, reads its arguments, runs it and wraps up what comes
back. It is generic in the methods, and so is the model: an `Rpc` has a program
for each of them, over any actions. A method that returns an error is answered
with it; a method that panics takes the whole request with it.

A batch is handled one request after another (`Evaluates`), and what is kept of
it is one response for each request with an id (`answered`).
-/

namespace Beerus

open Beerus.Lib

namespace JsonRpc

variable (Id Value : Type)

/-- `iamgroot::jsonrpc::Request`. -/
structure Request where
  method : String
  params : Option Value
  id : Option Id
deriving DecidableEq

/-- `iamgroot::jsonrpc::Response`: a result or an error. -/
structure Response where
  outcome : Except JsonRpcError Value
  id : Option Id

variable {Id Value}

/-- `Response::result`. -/
def Response.result (value : Value) : Response Id Value := ⟨.ok value, none⟩

/-- `Response::error`. -/
def Response.error (code : Int) (message : String) : Response Id Value :=
  ⟨.error ⟨code, message⟩, none⟩

/-- `Response::with_id`. -/
def Response.withId (response : Response Id Value) (id : Id) : Response Id Value :=
  { response with id := some id }

end JsonRpc

/-! ### Methods -/

/-- The methods that take parameters. -/
inductive Method where
  | getProof
  | getTxStatus
  | addDeclareTransaction
  | addDeployAccountTransaction
  | addInvokeTransaction
  | call
  | estimateFee
  | estimateMessageFee
  | getBlockTransactionCount
  | getBlockWithReceipts
  | getBlockWithTxHashes
  | getBlockWithTxs
  | getClass
  | getClassAt
  | getClassHashAt
  | getEvents
  | getNonce
  | getStateUpdate
  | getStorageAt
  | getTransactionByBlockIdAndIndex
  | getTransactionByHash
  | getTransactionReceipt
  | getTransactionStatus
  | simulateTransactions
  | traceBlockTransactions
  | traceTransaction
deriving DecidableEq

/-- The methods that take none. -/
inductive PlainMethod where
  | version
  | blockHashAndNumber
  | blockNumber
  | chainId
  | specVersion
  | syncing
deriving DecidableEq

/-- What `handle` dispatches a method name to. -/
inductive Handler where
  | withParams (method : Method)
  | plain (method : PlainMethod)
deriving DecidableEq

/-- The table of `handle`. -/
def Handler.ofName : String → Option Handler
  | "pathfinder_getProof" => some (.withParams .getProof)
  | "pathfinder_getTxStatus" => some (.withParams .getTxStatus)
  | "pathfinder_version" => some (.plain .version)
  | "starknet_addDeclareTransaction" => some (.withParams .addDeclareTransaction)
  | "starknet_addDeployAccountTransaction" => some (.withParams .addDeployAccountTransaction)
  | "starknet_addInvokeTransaction" => some (.withParams .addInvokeTransaction)
  | "starknet_blockHashAndNumber" => some (.plain .blockHashAndNumber)
  | "starknet_blockNumber" => some (.plain .blockNumber)
  | "starknet_call" => some (.withParams .call)
  | "starknet_chainId" => some (.plain .chainId)
  | "starknet_estimateFee" => some (.withParams .estimateFee)
  | "starknet_estimateMessageFee" => some (.withParams .estimateMessageFee)
  | "starknet_getBlockTransactionCount" => some (.withParams .getBlockTransactionCount)
  | "starknet_getBlockWithReceipts" => some (.withParams .getBlockWithReceipts)
  | "starknet_getBlockWithTxHashes" => some (.withParams .getBlockWithTxHashes)
  | "starknet_getBlockWithTxs" => some (.withParams .getBlockWithTxs)
  | "starknet_getClass" => some (.withParams .getClass)
  | "starknet_getClassAt" => some (.withParams .getClassAt)
  | "starknet_getClassHashAt" => some (.withParams .getClassHashAt)
  | "starknet_getEvents" => some (.withParams .getEvents)
  | "starknet_getNonce" => some (.withParams .getNonce)
  | "starknet_getStateUpdate" => some (.withParams .getStateUpdate)
  | "starknet_getStorageAt" => some (.withParams .getStorageAt)
  | "starknet_getTransactionByBlockIdAndIndex" =>
      some (.withParams .getTransactionByBlockIdAndIndex)
  | "starknet_getTransactionByHash" => some (.withParams .getTransactionByHash)
  | "starknet_getTransactionReceipt" => some (.withParams .getTransactionReceipt)
  | "starknet_getTransactionStatus" => some (.withParams .getTransactionStatus)
  | "starknet_simulateTransactions" => some (.withParams .simulateTransactions)
  | "starknet_specVersion" => some (.plain .specVersion)
  | "starknet_syncing" => some (.plain .syncing)
  | "starknet_traceBlockTransactions" => some (.withParams .traceBlockTransactions)
  | "starknet_traceTransaction" => some (.withParams .traceTransaction)
  | _ => none

/-- `gen::Rpc`: a program for each method, which ends with what
`serde_json::to_value` makes of its result, and the two readings of its
arguments by `serde_json::from_value`. -/
structure Rpc (Value O : Type) (R : O → Type) where
  Args : Method → Type
  argByName : (method : Method) → Value → Option (Args method)
  argByPos : (method : Method) → Value → Option (Args method)
  run : (method : Method) → Args method → Prog O R (Fault JsonRpcError) (Except String Value)
  runPlain : PlainMethod → Prog O R (Fault JsonRpcError) (Except String Value)

variable {Id Value O : Type} {R : O → Type}

/-- What a method's `Result` is answered with. A panic is not a `Result`. -/
def wrapUp (internal : String → JsonRpc.Response Id Value) :
    Prog O R (Fault JsonRpcError) (Except String Value) →
      Prog O R (Fault JsonRpcError) (JsonRpc.Response Id Value)
  | .done (.ok (.ok ret)) => pure (.result ret)
  | .done (.ok (.error error)) => pure (internal error)
  | .done (.error (.error e)) => pure (.error e.code e.message)
  | .done (.error .panic) => .done Res.panic
  | .act op next => .act op fun answer => wrapUp internal (next answer)

/-- The `handle_` functions of the methods with parameters. -/
def handleWithParams (rpc : Rpc Value O R) (method : Method) (params : Value) :
    Prog O R (Fault JsonRpcError) (JsonRpc.Response Id Value) :=
  match (rpc.argByName method params).orElse fun _ => rpc.argByPos method params with
  | none => pure (.error (-32602) "Invalid params")
  | some args => wrapUp (fun _ => .error (-32603) "Internal error") (rpc.run method args)

/-- The `handle_` functions of the methods without. -/
def handlePlain (rpc : Rpc Value O R) (method : PlainMethod) :
    Prog O R (Fault JsonRpcError) (JsonRpc.Response Id Value) :=
  wrapUp (fun e => .error 1003 e) (rpc.runPlain method)

/-- The `match` of `handle`. -/
def dispatch (rpc : Rpc Value O R) (method : String) (params : Value) :
    Prog O R (Fault JsonRpcError) (JsonRpc.Response Id Value) :=
  match Handler.ofName method with
  | some (.withParams method) => handleWithParams rpc method params
  | some (.plain method) => handlePlain rpc method
  | none => pure (.error (-32601) "Method not found")

/-- `handle`. -/
def handle [Inhabited Value] (rpc : Rpc Value O R) (req : JsonRpc.Request Id Value) :
    Prog O R (Fault JsonRpcError) (JsonRpc.Response Id Value) := do
  let response ← dispatch rpc req.method (req.params.getD default)
  match req.id with
  | some id => pure (response.withId id)
  | none => pure response

/-! ### The server's requests -/

/-- `rpc::Request`. -/
inductive Request (Id Value : Type) where
  | single (req : JsonRpc.Request Id Value)
  | batch (reqs : List (JsonRpc.Request Id Value))

/-- `rpc::Response`. -/
inductive Response (Id Value : Type) where
  | empty
  | single (res : JsonRpc.Response Id Value)
  | batch (ret : List (JsonRpc.Response Id Value))

/-- The loop over a batch, with the responses that are kept so far. -/
def handleBatch [Inhabited Value] (rpc : Rpc Value O R) :
    List (JsonRpc.Request Id Value) → List (JsonRpc.Response Id Value) →
      Prog O R (Fault JsonRpcError) (List (JsonRpc.Response Id Value))
  | [], ret => pure ret
  | req :: reqs, ret => do
      let res ← handle rpc req
      handleBatch rpc reqs (if req.id.isSome then ret ++ [res] else ret)

/-- `handle_request`. -/
def handleRequest [Inhabited Value] (rpc : Rpc Value O R) :
    Request Id Value → Prog O R (Fault JsonRpcError) (Response Id Value)
  | .single req => do
      let res ← handle rpc req
      if req.id.isSome then pure (.single res) else pure .empty
  | .batch reqs => do
      let ret ← handleBatch rpc reqs []
      pure (.batch ret)

/-- The requests that are sent, in order. -/
def Request.requests : Request Id Value → List (JsonRpc.Request Id Value)
  | .single req => [req]
  | .batch reqs => reqs

/-- The responses that are given, in order. -/
def Response.responses : Response Id Value → List (JsonRpc.Response Id Value)
  | .empty => []
  | .single res => [res]
  | .batch ret => ret

section Expected

variable [Inhabited Value] (rpc : Rpc Value O R) {σ : Type} (exec : (op : O) → σ → R op × σ)

/-- Requests are evaluated exactly once each and in order: each in the state that
the one before it has left. -/
inductive Evaluates : List (JsonRpc.Request Id Value) → σ →
    List (JsonRpc.Response Id Value) → σ → Prop where
  | nil (s : σ) : Evaluates [] s [] s
  | cons {req : JsonRpc.Request Id Value} {reqs : List (JsonRpc.Request Id Value)} {s t u : σ}
      {res : JsonRpc.Response Id Value} {ress : List (JsonRpc.Response Id Value)} :
      (handle rpc req).runIn exec s = (.ok res, t) → Evaluates reqs t ress u →
      Evaluates (req :: reqs) s (res :: ress) u

/-- No method that the requests come to panics. -/
def NoPanic : List (JsonRpc.Request Id Value) → σ → Prop
  | [], _ => True
  | req :: reqs, s =>
      ((handle rpc req).runIn exec s).1 ≠ Res.panic ∧ NoPanic reqs ((handle rpc req).runIn exec s).2

end Expected

/-! ### What is expected of them -/

/-- Of the responses, those to requests with an id. -/
def answered : List (JsonRpc.Request Id Value) → List (JsonRpc.Response Id Value) →
    List (JsonRpc.Response Id Value)
  | req :: reqs, res :: ress =>
      if req.id.isSome then res :: answered reqs ress else answered reqs ress
  | _, _ => []

/-- What is expected of a request: its parts are evaluated once each and in
order, and the answer is one response for each part with an id, in order and
with that id. Where no part has an id the answer is empty, and a batch of one is
answered as its part alone. -/
def Answers [Inhabited Value] (rpc : Rpc Value O R) {σ : Type} (exec : (op : O) → σ → R op × σ)
    (req : Request Id Value) (s : σ) : Prop :=
  ∃ results u response, Evaluates rpc exec req.requests s results u ∧
    (handleRequest rpc req).runIn exec s = (.ok response, u) ∧
    response.responses = answered req.requests results ∧
    response.responses.map (·.id) = (req.requests.filter (·.id.isSome)).map (·.id) ∧
    ((∀ r ∈ req.requests, r.id = none) → response = .empty) ∧
    ∀ r, req = .batch [r] → ∃ alone,
      (handleRequest rpc (.single r)).runIn exec s = (.ok alone, u) ∧
        alone.responses = response.responses

/-- The single form gives what a list of one keeps. -/
theorem responses_single (req : JsonRpc.Request Id Value) (res : JsonRpc.Response Id Value) :
    (if req.id.isSome then Response.single res else .empty).responses = answered [req] [res] := by
  cases named : req.id with
  | none => simp [answered, Response.responses, named]
  | some id => simp [answered, Response.responses, named]

/-! ### One request -/

variable {rpc : Rpc Value O R} {σ : Type} {exec : (op : O) → σ → R op × σ}

/-- Whatever a method does, it is answered, unless it panics. -/
theorem wrapUp_yields (internal : String → JsonRpc.Response Id Value)
    (p : Prog O R (Fault JsonRpcError) (Except String Value)) :
    (wrapUp internal p).Yields (fun _ _ => True) fun result =>
      result = Res.panic ∨ ∃ res, result = .ok res := by
  induction p with
  | act op next ih =>
      intro answer _
      exact ih answer
  | done result =>
      match result with
      | .ok (.ok ret) => exact .inr ⟨_, rfl⟩
      | .ok (.error e) => exact .inr ⟨_, rfl⟩
      | .error (.error e) => exact .inr ⟨_, rfl⟩
      | .error .panic => exact .inl rfl

theorem dispatch_yields (method : String) (params : Value) :
    (dispatch rpc method params : Prog O R _ (JsonRpc.Response Id Value)).Yields (fun _ _ => True)
      fun result => result = Res.panic ∨ ∃ res, result = .ok res := by
  unfold dispatch
  cases Handler.ofName method with
  | none => exact .inr ⟨_, rfl⟩
  | some handler =>
      cases handler with
      | plain method => exact wrapUp_yields _ _
      | withParams method =>
          dsimp only
          unfold handleWithParams
          split
          · exact .inr ⟨_, rfl⟩
          · exact wrapUp_yields _ _

variable [Inhabited Value]

/-- A request is answered under its own id, unless its method panics. -/
theorem handle_yields (req : JsonRpc.Request Id Value) :
    (handle rpc req).Yields (fun _ _ => True) fun result =>
      result = Res.panic ∨ ∃ res, result = .ok res ∧ ∀ id, req.id = some id → res.id = some id := by
  refine Prog.yields_bind.mpr ((dispatch_yields _ _).weaken ?_)
  rintro result (rfl | ⟨res, rfl⟩)
  · exact .inl rfl
  · dsimp only
    cases named : req.id with
    | none => exact .inr ⟨res, rfl, nofun⟩
    | some id =>
        refine .inr ⟨res.withId id, rfl, ?_⟩
        rintro _ ⟨⟩
        rfl

theorem handle_runIn (req : JsonRpc.Request Id Value) (s : σ) :
    ((handle rpc req).runIn exec s).1 = Res.panic ∨
      ∃ res, ((handle rpc req).runIn exec s).1 = .ok res ∧
        ∀ id, req.id = some id → res.id = some id :=
  (handle_yields req).runIn (fun _ _ => trivial) s

/-! ### A batch -/

/-- Requests can be evaluated in order exactly where no method panics. -/
theorem noPanic_iff {reqs : List (JsonRpc.Request Id Value)} {s : σ} :
    NoPanic rpc exec reqs s ↔ ∃ results u, Evaluates rpc exec reqs s results u := by
  constructor
  · intro quiet
    induction reqs generalizing s with
    | nil => exact ⟨[], s, .nil s⟩
    | cons req reqs ih =>
        obtain ⟨here, rest⟩ := quiet
        obtain ⟨res, ok, -⟩ := (handle_runIn req s).resolve_left here
        obtain ⟨results, u, evaluates⟩ := ih rest
        exact ⟨res :: results, u, .cons (Prod.ext ok rfl) evaluates⟩
  · rintro ⟨results, u, evaluates⟩
    induction evaluates with
    | nil s => trivial
    | cons here _ ih =>
        rw [NoPanic, here]
        exact ⟨nofun, ih⟩

/-- The loop keeps the responses to the requests with an id, behind those it
has. -/
theorem handleBatch_runIn {reqs : List (JsonRpc.Request Id Value)} {s u : σ}
    {results : List (JsonRpc.Response Id Value)} (evaluates : Evaluates rpc exec reqs s results u)
    (ret : List (JsonRpc.Response Id Value)) :
    (handleBatch rpc reqs ret).runIn exec s = (.ok (ret ++ answered reqs results), u) := by
  induction evaluates generalizing ret with
  | nil s => simp [handleBatch, answered]
  | @cons req reqs s t u res ress here _ ih =>
      rw [handleBatch, Prog.runIn_bind, here]
      dsimp only
      rw [ih, answered]
      cases req.id.isSome with
      | false => rfl
      | true => simp

theorem handleRequest_single {req : JsonRpc.Request Id Value} {s u : σ}
    {res : JsonRpc.Response Id Value} (here : (handle rpc req).runIn exec s = (.ok res, u)) :
    (handleRequest rpc (.single req)).runIn exec s =
      (.ok (if req.id.isSome then .single res else .empty), u) := by
  rw [handleRequest, Prog.runIn_bind, here]
  dsimp only
  cases req.id.isSome <;> rfl

/-- The responses that are kept carry the ids of their requests. -/
theorem map_id_answered {reqs : List (JsonRpc.Request Id Value)} {s u : σ}
    {results : List (JsonRpc.Response Id Value)} (evaluates : Evaluates rpc exec reqs s results u) :
    (answered reqs results).map (·.id) = (reqs.filter (·.id.isSome)).map (·.id) := by
  induction evaluates with
  | nil s => rfl
  | @cons req reqs s t u res ress here _ ih =>
      cases named : req.id with
      | none => simp [answered, named, ih]
      | some id =>
          have own : res.id = some id := by
            have result : ((handle rpc req).runIn exec s).1 = Res.panic ∨ _ := handle_runIn req s
            rw [here] at result
            rcases result with panicked | ⟨res', ok, same⟩
            · exact nomatch panicked
            · obtain rfl : res = res' := Except.ok.inj ok
              exact same id named
          simp [answered, named, own, ih]

/-- A batch is answered by the responses that its loop keeps. -/
theorem handleRequest_batch {reqs : List (JsonRpc.Request Id Value)} {s u : σ}
    {results : List (JsonRpc.Response Id Value)} (evaluates : Evaluates rpc exec reqs s results u) :
    (handleRequest rpc (.batch reqs)).runIn exec s = (.ok (.batch (answered reqs results)), u) := by
  rw [handleRequest, Prog.runIn_bind, handleBatch_runIn evaluates]
  rfl

theorem evaluates_singleton {req : JsonRpc.Request Id Value} {s u : σ}
    {results : List (JsonRpc.Response Id Value)}
    (evaluates : Evaluates rpc exec [req] s results u) :
    ∃ res, results = [res] ∧ (handle rpc req).runIn exec s = (.ok res, u) := by
  cases evaluates with
  | cons here rest =>
      cases rest
      exact ⟨_, rfl, here⟩

/-- A single request is answered as expected, unless its method panics. -/
theorem single_answers {req : JsonRpc.Request Id Value} {s : σ}
    (quiet : NoPanic rpc exec [req] s) : Answers rpc exec (.single req) s := by
  obtain ⟨_, u, evaluates⟩ := noPanic_iff.mp quiet
  obtain ⟨res, rfl, here⟩ := evaluates_singleton evaluates
  have kept := responses_single req res
  refine ⟨[res], u, _, evaluates, handleRequest_single here, kept, ?_, ?_, nofun⟩
  · rw [kept]
    exact map_id_answered evaluates
  · intro silent
    have unnamed : req.id = none := silent req List.mem_cons_self
    rw [unnamed]
    rfl

/-- So is a batch in which a request has an id. -/
theorem batch_answers {reqs : List (JsonRpc.Request Id Value)} {s : σ}
    (quiet : NoPanic rpc exec reqs s) (spoken : ¬ ∀ r ∈ reqs, r.id = none) :
    Answers rpc exec (.batch reqs) s := by
  obtain ⟨results, u, evaluates⟩ := noPanic_iff.mp quiet
  refine ⟨results, u, _, evaluates, handleRequest_batch evaluates, rfl,
    map_id_answered evaluates, ?_, ?_⟩
  · intro silent
    exact absurd silent spoken
  · rintro req ⟨⟩
    obtain ⟨res, rfl, here⟩ := evaluates_singleton evaluates
    exact ⟨_, handleRequest_single here, responses_single req res⟩

/-- A request is answered as expected exactly where no method panics and it is
not a batch without ids. -/
theorem handleRequest_answers_iff {req : Request Id Value} {s : σ} :
    Answers rpc exec req s ↔
      NoPanic rpc exec req.requests s ∧
        ¬ ∃ reqs, req = .batch reqs ∧ ∀ r ∈ reqs, r.id = none := by
  constructor
  · rintro ⟨results, u, response, evaluates, runs, -, -, silent, -⟩
    refine ⟨noPanic_iff.mpr ⟨results, u, evaluates⟩, ?_⟩
    rintro ⟨reqs, rfl, unnamed⟩
    have answer := (handleRequest_batch evaluates).symm.trans runs
    rw [silent unnamed] at answer
    exact nomatch answer
  · rintro ⟨quiet, spoken⟩
    cases req with
    | single req => exact single_answers quiet
    | batch reqs =>
        apply batch_answers quiet
        intro silent
        exact spoken ⟨reqs, rfl, silent⟩

/-- Methods that all return at once. -/
def promptRpc : Rpc Unit Empty (fun _ => Unit) where
  Args _ := Unit
  argByName _ _ := some ()
  argByPos _ _ := some ()
  run _ _ := .done (.ok (.ok ()))
  runPlain _ := .done (.ok (.ok ()))

/-- A request without an id. -/
def notification : JsonRpc.Request Nat Unit := ⟨"starknet_blockNumber", none, none⟩

/-- A notification is answered with nothing where it is sent alone, and with an
empty batch where it is sent as one. -/
theorem notifications_answered :
    (handleRequest promptRpc (.single notification)).runIn (fun op => op.elim) () =
        (.ok .empty, ()) ∧
      (handleRequest promptRpc (.batch [notification])).runIn (fun op => op.elim) () =
        (.ok (.batch []), ()) ∧
      ¬ Answers promptRpc (fun op => op.elim) (.batch [notification]) () := by
  have empty : (handleRequest promptRpc (.batch [notification])).runIn (fun op => op.elim) () =
      (.ok (.batch []), ()) := rfl
  refine ⟨rfl, empty, ?_⟩
  rintro ⟨results, u, response, -, runs, -, -, silent, -⟩
  have unnamed : ∀ r ∈ (Request.batch [notification]).requests, r.id = none := by
    intro r mem
    obtain rfl : r = notification := List.mem_singleton.mp mem
    rfl
  have answer := empty.symm.trans runs
  rw [silent unnamed] at answer
  exact nomatch answer

end Beerus
