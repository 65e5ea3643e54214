import Beerus.Lib.Handler
import Beerus.Rpc.Batch

/-!
Methods that are passed on (`mod client` of `src/gen.rs`, `Context` of
`src/rpc.rs`).

`Context` implements all methods but two by the generated client, which sends
the arguments to the provider and reads its response. A server that does so
cannot be told from the one behind it: requests for these methods, alone and in
batches, make the server behind run what they would make it run if they were
sent there, and are answered alike, under their own ids. So are any number of
such servers in a row (`proxies_transparent`).
-/

namespace Beerus

open Beerus.Lib

variable {Id Value O O' : Type} {R : O → Type} {R' : O' → Type}

/-! ### The wire -/

/-- The name that a method is asked for by. -/
def Handler.name : Handler → String
  | .withParams .getProof => "pathfinder_getProof"
  | .withParams .getTxStatus => "pathfinder_getTxStatus"
  | .plain .version => "pathfinder_version"
  | .withParams .addDeclareTransaction => "starknet_addDeclareTransaction"
  | .withParams .addDeployAccountTransaction => "starknet_addDeployAccountTransaction"
  | .withParams .addInvokeTransaction => "starknet_addInvokeTransaction"
  | .plain .blockHashAndNumber => "starknet_blockHashAndNumber"
  | .plain .blockNumber => "starknet_blockNumber"
  | .withParams .call => "starknet_call"
  | .plain .chainId => "starknet_chainId"
  | .withParams .estimateFee => "starknet_estimateFee"
  | .withParams .estimateMessageFee => "starknet_estimateMessageFee"
  | .withParams .getBlockTransactionCount => "starknet_getBlockTransactionCount"
  | .withParams .getBlockWithReceipts => "starknet_getBlockWithReceipts"
  | .withParams .getBlockWithTxHashes => "starknet_getBlockWithTxHashes"
  | .withParams .getBlockWithTxs => "starknet_getBlockWithTxs"
  | .withParams .getClass => "starknet_getClass"
  | .withParams .getClassAt => "starknet_getClassAt"
  | .withParams .getClassHashAt => "starknet_getClassHashAt"
  | .withParams .getEvents => "starknet_getEvents"
  | .withParams .getNonce => "starknet_getNonce"
  | .withParams .getStateUpdate => "starknet_getStateUpdate"
  | .withParams .getStorageAt => "starknet_getStorageAt"
  | .withParams .getTransactionByBlockIdAndIndex => "starknet_getTransactionByBlockIdAndIndex"
  | .withParams .getTransactionByHash => "starknet_getTransactionByHash"
  | .withParams .getTransactionReceipt => "starknet_getTransactionReceipt"
  | .withParams .getTransactionStatus => "starknet_getTransactionStatus"
  | .withParams .simulateTransactions => "starknet_simulateTransactions"
  | .plain .specVersion => "starknet_specVersion"
  | .plain .syncing => "starknet_syncing"
  | .withParams .traceBlockTransactions => "starknet_traceBlockTransactions"
  | .withParams .traceTransaction => "starknet_traceTransaction"

theorem Handler.ofName_name (handler : Handler) : ofName handler.name = some handler := by
  cases handler with
  | withParams method => cases method <;> rfl
  | plain method => cases method <;> rfl

/-- What `serde_json` makes of the arguments and results of the methods. -/
structure Wire (Id Value : Type) where
  Args : Method → Type
  Ret : Handler → Type
  argByName : (method : Method) → Value → Option (Args method)
  argByPos : (method : Method) → Value → Option (Args method)
  argsToValue : (method : Method) → Args method → Except String Value
  retToValue : (handler : Handler) → Ret handler → Except String Value
  retOfValue : (handler : Handler) → Value → Except String (Ret handler)
  /-- `Value::Array(vec![])`. -/
  noParams : Value
  /-- `Id::Number(1)`. -/
  one : Id

/-- How a method reads its arguments. -/
def Wire.readArgs (wire : Wire Id Value) (method : Method) (params : Value) :
    Option (wire.Args method) :=
  (wire.argByName method params).orElse fun _ => wire.argByPos method params

/-- What is read can be written, and is then read again: arguments as they were,
and results as something that is written alike. No result is written as `null`. -/
structure Wire.Faithful [Inhabited Value] (wire : Wire Id Value) : Prop where
  args : ∀ method params args, wire.readArgs method params = some args →
    ∃ v, wire.argsToValue method args = .ok v ∧ wire.readArgs method v = some args
  ret : ∀ handler ret v, wire.retToValue handler ret = .ok v → v ≠ default ∧
    ∃ ret', wire.retOfValue handler v = .ok ret' ∧ wire.retToValue handler ret' = .ok v

/-- An implementation of `gen::Rpc`. -/
structure RpcImpl (wire : Wire Id Value) (O : Type) (R : O → Type) where
  withParams : (method : Method) → wire.Args method →
    Prog O R (Fault JsonRpcError) (wire.Ret (.withParams method))
  plain : (method : PlainMethod) → Prog O R (Fault JsonRpcError) (wire.Ret (.plain method))

variable {wire : Wire Id Value}

/-- An implementation as `handle` uses it. -/
def RpcImpl.rpc (impl : RpcImpl wire O R) : Rpc Value O R where
  Args := wire.Args
  argByName := wire.argByName
  argByPos := wire.argByPos
  run method args :=
    (impl.withParams method args).mapResult (Except.map (wire.retToValue (.withParams method)))
  runPlain method :=
    (impl.plain method).mapResult (Except.map (wire.retToValue (.plain method)))

/-! ### The client -/

/-- `jsonrpc::Response`, as it is received. -/
structure JsonRpc.Received (Value : Type) where
  error : Option JsonRpcError
  result : Option Value

/-- What becomes of a response that is sent: `null` is no result. -/
def JsonRpc.Response.received [Inhabited Value] [DecidableEq Value]
    (res : JsonRpc.Response Id Value) : JsonRpc.Received Value :=
  match res.outcome with
  | .ok value => ⟨none, if value = default then none else some value⟩
  | .error e => ⟨some e, none⟩

/-- What `HttpClient::post` returns. -/
abbrev Posted (Value : Type) := Except JsonRpcError (JsonRpc.Received Value)

/-- The second half of a client's method: reading the response. -/
def gen.Client.read (wire : Wire Id Value) (handler : Handler) :
    Posted Value → Res JsonRpcError (wire.Ret handler)
  | .error e => Res.err e
  | .ok res =>
      match res.error with
      | some err => Res.err err
      | none =>
          match res.result with
          | some value => Res.mapErr (fun e => ⟨5002, "Invalid response object: " ++ e ++ "."⟩)
              ((wire.retOfValue handler value).mapError .error)
          | none => Res.err ⟨5003, "Response missing"⟩

/-- Whatever is received, reading it does not panic. -/
theorem gen.Client.read_ne_panic {wire : Wire Id Value} {handler : Handler}
    (posted : Posted Value) : gen.Client.read wire handler posted ≠ Res.panic := by
  match posted with
  | .error e => exact Res.err_ne_panic e
  | .ok ⟨some err, _⟩ => exact Res.err_ne_panic err
  | .ok ⟨none, none⟩ => exact Res.err_ne_panic _
  | .ok ⟨none, some value⟩ =>
      show Res.mapErr _ ((wire.retOfValue handler value).mapError .error) ≠ _
      cases wire.retOfValue handler value with
      | ok ret => exact Res.ok_ne_panic ret
      | error e => exact Res.err_ne_panic _

/-- A method of the client. Requests are its actions. -/
def gen.Client.request (wire : Wire Id Value) (handler : Handler) (params : Except String Value) :
    Prog (JsonRpc.Request Id Value) (fun _ => Posted Value) (Fault JsonRpcError)
      (wire.Ret handler) := do
  let params ← (Res.mapErr (fun e => ⟨4001, "Invalid params: " ++ e ++ "."⟩)
    (params.mapError .error) : Res JsonRpcError Value)
  .act ⟨handler.name, some params, some wire.one⟩ fun res => .done (gen.Client.read wire handler res)

/-! ### The server -/

/-- An action of the server: a request to the provider by the client, or an
action of one of its own methods. -/
inductive ContextOp (Id Value O : Type) where
  | post (req : JsonRpc.Request Id Value)
  | own (op : O)

/-- How it is answered. -/
def ContextOp.Answer (R : O → Type) : ContextOp Id Value O → Type
  | .post _ => Posted Value
  | .own op => R op

/-- The methods that `Context` does not pass on. -/
structure OwnMethods (wire : Wire Id Value) (O : Type) (R : O → Type) where
  call : wire.Args .call → Prog O R (Fault JsonRpcError) (wire.Ret (.withParams .call))
  getStorageAt : wire.Args .getStorageAt →
    Prog O R (Fault JsonRpcError) (wire.Ret (.withParams .getStorageAt))

/-- A method that is passed on. -/
def Context.forward (wire : Wire Id Value) (R : O → Type) (handler : Handler)
    (params : Except String Value) :
    Prog (ContextOp Id Value O) (ContextOp.Answer R) (Fault JsonRpcError) (wire.Ret handler) :=
  (gen.Client.request wire handler params).relabel .post fun _ res => res

/-- `impl gen::Rpc for Context`. -/
def Context.impl (own : OwnMethods wire O R) :
    RpcImpl wire (ContextOp Id Value O) (ContextOp.Answer R) where
  withParams
    | .call, args => (own.call args).relabel .own fun _ answer => answer
    | .getStorageAt, args => (own.getStorageAt args).relabel .own fun _ answer => answer
    | method, args => Context.forward wire R (.withParams method) (wire.argsToValue method args)
  plain method := Context.forward wire R (.plain method) (.ok wire.noParams)

/-! ### Before another server -/

section Proxied

variable [Inhabited Value] [DecidableEq Value]

/-- What the client's `post` makes of what a server does: where the server
panics, the connection is lost. -/
def connect (lost : JsonRpcError) : Except (Fault JsonRpcError) (JsonRpc.Response Id Value) →
    Except (Fault JsonRpcError) (Posted Value)
  | .ok res => .ok (.ok res.received)
  | .error _ => .ok (.error lost)

/-- The provider is a server, and the actions of the own methods are carried out
by a handler. -/
def connected (lost : JsonRpcError) (upstream : RpcImpl wire O' R')
    (handler : (op : O) → Prog O' R' (Fault JsonRpcError) (R op)) :
    (op : ContextOp Id Value O) → Prog O' R' (Fault JsonRpcError) (ContextOp.Answer R op)
  | .post req => (handle upstream.rpc req).mapResult (connect lost)
  | .own op => handler op

/-- `Context` before a server. -/
def proxied (own : OwnMethods wire O R) (lost : JsonRpcError)
    (handler : (op : O) → Prog O' R' (Fault JsonRpcError) (R op)) (upstream : RpcImpl wire O' R') :
    RpcImpl wire O' R' where
  withParams method args :=
    ((Context.impl own).withParams method args).interp (connected lost upstream handler)
  plain method := ((Context.impl own).plain method).interp (connected lost upstream handler)

/-- A response under the id of its request. -/
def JsonRpc.Response.under (id : Option Id) (res : JsonRpc.Response Id Value) :
    JsonRpc.Response Id Value :=
  match id with
  | some id => res.withId id
  | none => res

/-- What is answered in place of a panic, where the connection is lost. -/
def orLost (lost : JsonRpcError) (id : Option Id) :
    Except (Fault JsonRpcError) (JsonRpc.Response Id Value) →
      Except (Fault JsonRpcError) (JsonRpc.Response Id Value)
  | .ok res => .ok res
  | .error _ => .ok (JsonRpc.Response.under id ⟨.error lost, none⟩)

end Proxied

/-- Whether a request is for a method that is passed on, or for none. -/
def Forwarded (req : JsonRpc.Request Id Value) : Prop :=
  Handler.ofName req.method ≠ some (.withParams .call) ∧
    Handler.ofName req.method ≠ some (.withParams .getStorageAt)

instance Forwarded.decidable (req : JsonRpc.Request Id Value) : Decidable (Forwarded req) :=
  inferInstanceAs (Decidable (_ ∧ _))

/-! ### One request -/

/-- The response to what a method ends with. -/
def respond (internal : String → JsonRpc.Response Id Value) :
    Except (Fault JsonRpcError) (Except String Value) →
      Except (Fault JsonRpcError) (JsonRpc.Response Id Value)
  | .ok (.ok ret) => .ok (.result ret)
  | .ok (.error error) => .ok (internal error)
  | .error (.error e) => .ok (.error e.code e.message)
  | .error .panic => Res.panic

theorem wrapUp_eq_mapResult (internal : String → JsonRpc.Response Id Value)
    (p : Prog O R (Fault JsonRpcError) (Except String Value)) :
    wrapUp internal p = p.mapResult (respond internal) := by
  induction p with
  | act op next ih => exact congrArg (Prog.act op) (funext ih)
  | done result =>
      match result with
      | .ok (.ok ret) => rfl
      | .ok (.error error) => rfl
      | .error (.error e) => rfl
      | .error .panic => rfl

theorem handle_eq_mapResult [Inhabited Value] (rpc : Rpc Value O R)
    (req : JsonRpc.Request Id Value) :
    handle rpc req =
      (dispatch rpc req.method (req.params.getD default)).mapResult
        (Except.map (·.under req.id)) := by
  have under : handle rpc req = dispatch rpc req.method (req.params.getD default) >>=
      fun res => .done (.ok (res.under req.id)) := by
    unfold handle JsonRpc.Response.under
    cases req.id <;> rfl
  rw [under, Prog.bind_done]
  congr 1

theorem dispatch_withParams (rpc : Rpc Value O R) (method : Method) (params : Value) :
    (dispatch rpc (Handler.name (.withParams method)) params :
      Prog O R (Fault JsonRpcError) (JsonRpc.Response Id Value)) =
        handleWithParams rpc method params := by
  unfold dispatch
  rw [Handler.ofName_name]

theorem dispatch_plain (rpc : Rpc Value O R) (method : PlainMethod) (params : Value) :
    (dispatch rpc (Handler.name (.plain method)) params :
      Prog O R (Fault JsonRpcError) (JsonRpc.Response Id Value)) = handlePlain rpc method := by
  unfold dispatch
  rw [Handler.ofName_name]

theorem handleWithParams_none {impl : RpcImpl wire O R} {method : Method} {params : Value}
    (unread : wire.readArgs method params = none) :
    (handleWithParams impl.rpc method params :
      Prog O R (Fault JsonRpcError) (JsonRpc.Response Id Value)) =
        .done (.ok (.error (-32602) "Invalid params")) := by
  have unread' : (impl.rpc.argByName method params).orElse
      (fun _ => impl.rpc.argByPos method params) = none := unread
  unfold handleWithParams
  rw [unread']
  rfl

theorem handleWithParams_some {impl : RpcImpl wire O R} {method : Method} {params : Value}
    {args : wire.Args method} (read : wire.readArgs method params = some args) :
    (handleWithParams impl.rpc method params :
      Prog O R (Fault JsonRpcError) (JsonRpc.Response Id Value)) =
        (impl.withParams method args).mapResult fun result =>
          respond (fun _ => .error (-32603) "Internal error")
            (Except.map (wire.retToValue (.withParams method)) result) := by
  have read' : (impl.rpc.argByName method params).orElse
      (fun _ => impl.rpc.argByPos method params) = some args := read
  unfold handleWithParams
  rw [read']
  exact (wrapUp_eq_mapResult _ _).trans (Prog.mapResult_mapResult _ _ _)

theorem handlePlain_eq (impl : RpcImpl wire O R) (method : PlainMethod) :
    (handlePlain impl.rpc method : Prog O R (Fault JsonRpcError) (JsonRpc.Response Id Value)) =
      (impl.plain method).mapResult fun result =>
        respond (fun e => .error 1003 e) (Except.map (wire.retToValue (.plain method)) result) :=
  (wrapUp_eq_mapResult _ _).trans (Prog.mapResult_mapResult _ _ _)

/-- All methods but two are passed on. -/
theorem impl_withParams {own : OwnMethods wire O R} {method : Method} (other : method ≠ .call)
    (other' : method ≠ .getStorageAt) (args : wire.Args method) :
    (Context.impl own).withParams method args =
      Context.forward wire R (.withParams method) (wire.argsToValue method args) := by
  cases method <;> first | rfl | exact absurd rfl other | exact absurd rfl other'

/-- What is lost on the way is lost once. -/
theorem orLost_comp_orLost (lost : JsonRpcError) (id : Option Id) :
    orLost lost id ∘ orLost lost id = (orLost lost id : Except (Fault JsonRpcError)
      (JsonRpc.Response Id Value) → Except (Fault JsonRpcError) (JsonRpc.Response Id Value)) := by
  funext result
  cases result <;> rfl

section Forwarding

variable [Inhabited Value] [DecidableEq Value] {own : OwnMethods wire O R} {lost : JsonRpcError}
  {handler : (op : O) → Prog O' R' (Fault JsonRpcError) (R op)} {upstream : RpcImpl wire O' R'}

/-- A response is read as it is sent, whatever its id. -/
theorem read_connected (method : Handler) (id : Option Id) (res : JsonRpc.Response Id Value) :
    connect lost (Except.map (·.under id) (.ok res)) >>= gen.Client.read wire method =
      gen.Client.read wire method (.ok res.received) := by
  cases id <;> rfl

theorem read_error (method : Handler) (e : JsonRpcError) :
    gen.Client.read wire method
      (.ok (JsonRpc.Response.received (⟨.error e, none⟩ : JsonRpc.Response Id Value))) =
        Res.err e := rfl

theorem read_result (method : Handler) {v : Value} (some : v ≠ default)
    {ret : wire.Ret method} (reads : wire.retOfValue method v = .ok ret) :
    gen.Client.read wire method
      (.ok (JsonRpc.Response.received (.result v : JsonRpc.Response Id Value))) = .ok ret := by
  simp [JsonRpc.Response.received, JsonRpc.Response.result, some, gen.Client.read, reads,
    Except.mapError]

/-- What a method ends with comes back as something that is answered alike,
unless it panics. -/
theorem respond_read (faithful : wire.Faithful) (method : Handler) (code : Int)
    (text : String → String) (id : Option Id)
    (result : Except (Fault JsonRpcError) (wire.Ret method)) :
    let answer result := (respond (fun e => .error code (text e))
      (Except.map (wire.retToValue method) result) :
        Except (Fault JsonRpcError) (JsonRpc.Response Id Value))
    answer (connect lost (Except.map (·.under id) (answer result)) >>= gen.Client.read wire method) =
      orLost lost none (answer result) := by
  intro answer
  match result with
  | .error .panic => rfl
  | .error (.error e) =>
      have given : answer (.error (.error e)) = .ok ⟨.error e, none⟩ := rfl
      rw [given, read_connected, read_error]
      rfl
  | .ok ret =>
      cases written : wire.retToValue method ret with
      | error e =>
          have given : answer (.ok ret) = .ok ⟨.error ⟨code, text e⟩, none⟩ := by
            simp only [answer, Except.map, written, respond, JsonRpc.Response.error]
          rw [given, read_connected, read_error]
          rfl
      | ok v =>
          obtain ⟨some, ret', reads, alike⟩ := faithful.ret method ret v written
          have given : answer (.ok ret) = .ok (.result v) := by
            simp only [answer, Except.map, written, respond]
          rw [given, read_connected, read_result method some reads]
          simp only [answer, Except.map, alike, respond, orLost]

/-- A method that is passed on runs what the server behind runs for the request
that is sent to it. -/
theorem forward_interp (method : Handler) (params : Value) :
    (Context.forward wire R method (.ok params)).interp (connected lost upstream handler) =
      (dispatch upstream.rpc method.name params).mapResult fun result =>
        connect lost (Except.map (·.under (some wire.one)) result) >>=
          gen.Client.read wire method := by
  have sent : (Context.forward wire R method (.ok params)).interp
      (connected lost upstream handler) =
        (handle upstream.rpc ⟨method.name, some params, some wire.one⟩).mapResult (connect lost) >>=
          fun answer => .done (gen.Client.read wire method answer) := rfl
  rw [sent, Prog.bind_done, handle_eq_mapResult, Prog.mapResult_mapResult,
    Prog.mapResult_mapResult]
  rfl

/-- The server answers a method that is passed on as the server behind does. -/
theorem dispatch_proxied (faithful : wire.Faithful) {req : JsonRpc.Request Id Value}
    (forwarded : Forwarded req) (params : Value) :
    (dispatch (proxied own lost handler upstream).rpc req.method params :
      Prog O' R' (Fault JsonRpcError) (JsonRpc.Response Id Value)) =
        (dispatch upstream.rpc req.method params).mapResult (orLost lost none) := by
  unfold dispatch
  cases named : Handler.ofName req.method with
  | none => rfl
  | some found =>
      cases found with
      | plain method =>
          dsimp only
          rw [handlePlain_eq, handlePlain_eq, Prog.mapResult_mapResult]
          change Prog.mapResult _ (Prog.interp _ (Context.forward wire R _ _)) = _
          rw [forward_interp, dispatch_plain, handlePlain_eq, Prog.mapResult_mapResult,
            Prog.mapResult_mapResult]
          congr 1
          funext result
          exact respond_read faithful _ _ _ _ result
      | withParams method =>
          dsimp only
          cases read : wire.readArgs method params with
          | none => rw [handleWithParams_none read, handleWithParams_none read]; rfl
          | some args =>
              obtain ⟨v, written, again⟩ := faithful.args method params args read
              have sent : (proxied own lost handler upstream).withParams method args =
                  (Context.forward wire R (.withParams method) (.ok v)).interp
                    (connected lost upstream handler) := by
                rw [← written]
                refine congrArg (Prog.interp _) (impl_withParams ?_ ?_ args)
                · rintro rfl
                  exact forwarded.1 named
                · rintro rfl
                  exact forwarded.2 named
              rw [handleWithParams_some read, handleWithParams_some read, sent, forward_interp,
                dispatch_withParams, handleWithParams_some again, Prog.mapResult_mapResult,
                Prog.mapResult_mapResult, Prog.mapResult_mapResult]
              congr 1
              funext result
              exact respond_read faithful _ _ _ _ result

/-- So it does a request, under the id of the request. -/
theorem handle_proxied (faithful : wire.Faithful) {req : JsonRpc.Request Id Value}
    (forwarded : Forwarded req) :
    handle (proxied own lost handler upstream).rpc req =
      (handle upstream.rpc req).mapResult (orLost lost req.id) := by
  rw [handle_eq_mapResult, handle_eq_mapResult, dispatch_proxied faithful forwarded,
    Prog.mapResult_mapResult, Prog.mapResult_mapResult]
  congr 1
  funext result
  cases result <;> rfl

/-- Any number of servers in a row answer as one does. -/
theorem handle_proxies (faithful : wire.Faithful) {req : JsonRpc.Request Id Value}
    (forwarded : Forwarded req) (n : Nat) :
    handle ((proxied own lost handler)^[n + 1] upstream).rpc req =
      (handle upstream.rpc req).mapResult (orLost lost req.id) := by
  induction n with
  | zero => exact handle_proxied faithful forwarded
  | succ n ih =>
      rw [Function.iterate_succ_apply', handle_proxied faithful forwarded, ih,
        Prog.mapResult_mapResult, orLost_comp_orLost]

variable {σ : Type} {exec : (op : O') → σ → R' op × σ}

/-- Requests that can be evaluated by the last server are evaluated alike by the
first. -/
theorem evaluates_proxies (faithful : wire.Faithful) (n : Nat)
    {reqs : List (JsonRpc.Request Id Value)} (forwarded : ∀ req ∈ reqs, Forwarded req) {s u : σ}
    {results : List (JsonRpc.Response Id Value)}
    (evaluates : Evaluates upstream.rpc exec reqs s results u) :
    Evaluates ((proxied own lost handler)^[n] upstream).rpc exec reqs s results u := by
  cases n with
  | zero => exact evaluates
  | succ n =>
      induction evaluates with
      | nil s => exact .nil s
      | @cons req reqs s t u res ress here rest ih =>
          refine .cons (t := t) ?_ (ih fun req mem => forwarded req (List.mem_cons_of_mem _ mem))
          rw [handle_proxies faithful (forwarded req List.mem_cons_self), Prog.runIn_mapResult, here]
          rfl

/-- Any number of servers in a row answer a request, and have the last one do, as
the last one alone, unless that panics. -/
theorem proxies_transparent (faithful : wire.Faithful) (own : OwnMethods wire O R)
    (lost : JsonRpcError) (handler : (op : O) → Prog O' R' (Fault JsonRpcError) (R op))
    (upstream : RpcImpl wire O' R') (req : Request Id Value)
    (forwarded : ∀ r ∈ req.requests, Forwarded r) (exec : (op : O') → σ → R' op × σ) (s : σ)
    (quiet : NoPanic upstream.rpc exec req.requests s) (n : Nat) :
    (handleRequest ((proxied own lost handler)^[n] upstream).rpc req).runIn exec s =
      (handleRequest upstream.rpc req).runIn exec s := by
  obtain ⟨results, u, evaluates⟩ := noPanic_iff.mp quiet
  have alike : Evaluates ((proxied own lost handler)^[n] upstream).rpc exec req.requests s
      results u := evaluates_proxies faithful n forwarded evaluates
  cases req with
  | single req =>
      obtain ⟨res, rfl, here⟩ := evaluates_singleton evaluates
      obtain ⟨res', same, here'⟩ := evaluates_singleton alike
      obtain rfl : res = res' := (List.cons.inj same).1
      rw [handleRequest_single here, handleRequest_single here']
  | batch reqs => exact (handleRequest_batch alike).trans (handleRequest_batch evaluates).symm

end Forwarding

/-- Numbers on the wire, and `null`. -/
def sampleWire : Wire Nat (Option Nat) where
  Args _ := Nat
  Ret _ := Nat
  argByName _ params := params
  argByPos _ _ := none
  argsToValue _ n := .ok (some n)
  retToValue _ n := .ok (some n)
  retOfValue _ value := value.elim (.error "null") .ok
  noParams := some 0
  one := 1

theorem sampleWire_faithful : sampleWire.Faithful where
  args _ _ n _ := ⟨some n, rfl, rfl⟩
  ret _ n _ written := by
    obtain rfl := Except.ok.inj written
    exact ⟨Option.some_ne_none n, n, rfl, rfl⟩

/-- A server that adds up what it is sent, and knows no block. -/
def addingServer : RpcImpl sampleWire Nat (fun _ => Nat) where
  withParams _ (n : Nat) := .act n fun sum => .done (.ok sum)
  plain _ := .done (Res.err ⟨24, "Block not found"⟩)

/-- The two methods that are not passed on, where there is nothing to do. -/
def sampleOwn : OwnMethods sampleWire Empty (fun _ => Unit) where
  call _ := .done Res.panic
  getStorageAt _ := .done Res.panic

/-- A batch with arguments that are read and some that are not. -/
def sampleBatch : Request Nat (Option Nat) :=
  .batch [⟨"starknet_getNonce", some (some 5), some 7⟩, ⟨"starknet_getNonce", none, some 8⟩,
    ⟨"starknet_getClass", some (some 2), none⟩, ⟨"starknet_blockNumber", none, some 9⟩,
    ⟨"starknet_unknown", none, some 10⟩]

theorem sampleBatch_proxied :
    (handleRequest ((proxied sampleOwn ⟨32101, "request failed"⟩ (fun op => op.elim))^[2]
        addingServer).rpc sampleBatch).runIn (fun n sum => (sum + n, sum + n)) 1 =
      (.ok (.batch [⟨.ok (some 6), some 7⟩, ⟨.error ⟨-32602, "Invalid params"⟩, some 8⟩,
        ⟨.error ⟨24, "Block not found"⟩, some 9⟩,
        ⟨.error ⟨-32601, "Method not found"⟩, some 10⟩]), 8) := by
  refine (proxies_transparent sampleWire_faithful _ _ _ addingServer sampleBatch ?_ _ 1 ?_ 2).trans
    rfl
  · decide
  · exact ⟨nofun, nofun, nofun, nofun, nofun, trivial⟩

end Beerus
