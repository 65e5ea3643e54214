import Beerus.Exe.Cache

/-!
The errors of a call (`src/exe/err.rs`).

An error of the RPC client keeps its code and its message on the way out. Every
other one is shown as a text, under code 500.
-/

namespace Beerus

/-- `exe::err::Error`. Errors of other crates are given by their `Debug` texts. -/
inductive Error where
  | io (debug : String)
  | base64 (debug : String)
  | serde (debug : String)
  | reqwest (debug : String)
  | iamGroot (e : JsonRpcError)
  | starknetApi (debug : String)
  | state (debug : String)
  | entryPoint (debug : String)
  | transaction (debug : String)
  | sierraCompilation (debug : String)
  | program (text : String)
  | custom (text : String)
deriving DecidableEq

/-- `From<Error> for iamgroot::jsonrpc::Error`, with the texts of `Display`. -/
def Error.toJsonRpc : Error → JsonRpcError
  | .iamGroot e => e
  | .io debug => ⟨500, "io error: " ++ debug⟩
  | .base64 debug => ⟨500, "base64 error: " ++ debug⟩
  | .serde debug => ⟨500, "serde error: " ++ debug⟩
  | .reqwest debug => ⟨500, "reqwest error: " ++ debug⟩
  | .starknetApi debug => ⟨500, "starknet api error: " ++ debug⟩
  | .state debug => ⟨500, "blockifier state error: " ++ debug⟩
  | .entryPoint debug => ⟨500, "blockifier entry point error: " ++ debug⟩
  | .transaction debug => ⟨500, "blockifier transaction error: " ++ debug⟩
  | .sierraCompilation debug => ⟨500, "sierra compilation error: " ++ debug⟩
  | .program text => ⟨500, "program error: " ++ text⟩
  | .custom text => ⟨500, text⟩

/-- Errors that no request to the provider has raised. -/
def Error.IsOwn : Error → Prop
  | .iamGroot _ => False
  | _ => True

theorem Error.toJsonRpc_own {e : Error} (own : e.IsOwn) :
    ∃ message, e.toJsonRpc = ⟨500, message⟩ := by
  cases e with
  | iamGroot e => exact own.elim
  | _ => exact ⟨_, rfl⟩

end Beerus
