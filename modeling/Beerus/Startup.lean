import Beerus.Feeder
import Beerus.Exe.Err
import Beerus.Lib.Handler

/-!
How the process starts (`src/bin/beerus.rs`, `src/config.rs`, `Client::new` of
`src/client.rs`).

The configuration is read from a file or from the environment and checked; then
the provider is asked for its version, the gateway's address is settled, and the
first head is fetched. Only then is the server started.

`main_starts_iff` says exactly when that is, and with what. The addresses of the
provider and the gateway are not among what is checked: `validate` does not
descend into the part of the configuration that holds them.
-/

namespace Beerus

open Beerus.Lib

variable {SocketAddr : Type}

/-! ### Configuration -/

/-- `config::Config`. -/
structure config.Config where
  starknetRpc : String
  gatewayUrl : Option String
  dataDir : String
deriving DecidableEq

/-- `config::ServerConfig`. -/
structure config.ServerConfig (SocketAddr : Type) where
  client : config.Config
  pollSecs : UInt64
  rpcAddr : SocketAddr
deriving DecidableEq

/-- What can end the start. Errors of other crates are given by their texts. -/
inductive StartError where
  | io (text : String)
  | toml (text : String)
  | parse (text : String)
  | validation (field code : String)
  | report (text : String)
  | rpc (e : JsonRpcError)
  | gateway (e : GatewayError)
  | exe (e : Error)
deriving DecidableEq

/-- What `call_method` looks at of a response: `error`, as a text or as an object
that is written out, and `result` as a text. -/
structure CallMethodResponse where
  errorText : Option String
  errorObject : Option String
  result : Option String
deriving DecidableEq

/-- What is asked of the process and of the network. -/
inductive StartOp (SocketAddr : Type) where
  /-- The first argument. -/
  | arg
  | readToString (path : String)
  | var (name : String)
  | pathExists (path : String)
  /-- Whether a path is read-only. -/
  | metadata (path : String)
  | specVersion (url : String)
  | callMethod (url method : String)
  | getState (url : String)
  | serve (url : String) (addr : SocketAddr)

/-- How it is answered. -/
abbrev StartOp.Answer : StartOp SocketAddr → Type
  | .arg => Option String
  | .readToString _ => Except String String
  | .var _ => Option String
  | .pathExists _ => Bool
  | .metadata _ => Option Bool
  | .specVersion _ => Except JsonRpcError String
  | .callMethod _ _ => Except String CallMethodResponse
  | .getState _ => GatewayAnswer
  | .serve _ _ => Except Error UInt16

/-- A part of the start. -/
abbrev StartProg (SocketAddr α : Type) :=
  Prog (StartOp SocketAddr) StartOp.Answer (Fault StartError) α

/-- One question. -/
def StartOp.ask (op : StartOp SocketAddr) : StartProg SocketAddr op.Answer := .act op pure

/-- The readers of configurations and addresses. -/
structure ConfigCrates (SocketAddr : Type) where
  /-- `toml::from_str`, with the defaults of absent fields. -/
  toml : String → Except String (config.ServerConfig SocketAddr)
  /-- `SocketAddr::from_str`. -/
  socketAddr : String → Except String SocketAddr
  /-- `SocketAddr::from` of four bytes and a port. -/
  v4 : UInt8 × UInt8 × UInt8 × UInt8 → UInt16 → SocketAddr

namespace config

def defaultDataDir : String := "tmp"

def defaultPollSecs : UInt64 := 30

def defaultRpcAddr (crates : ConfigCrates SocketAddr) : SocketAddr := crates.v4 (0, 0, 0, 0) 3030

/-- The loop of `u64::from_str`. -/
def parseDigits : List Char → Nat → Except String UInt64
  | [], value => .ok (.ofNat value)
  | c :: cs, value =>
      if ¬ c.isDigit then .error "invalid digit found in string"
      else
        let value := value * 10 + (c.toNat - '0'.toNat)
        if value < 2 ^ 64 then parseDigits cs value
        else .error "number too large to fit in target type"

/-- `u64::from_str`. -/
def parseU64 (text : String) : Except String UInt64 :=
  match text.toList with
  | [] => .error "cannot parse integer from empty string"
  | ['+'] => .error "invalid digit found in string"
  | '+' :: digits => parseDigits digits 0
  | digits => parseDigits digits 0

/-- A variable that is parsed where it is set. -/
def parsedOr {α : Type} (parse : String → Except String α) (absent : α) :
    Option String → Res StartError α
  | some text => Res.mapErr .parse ((parse text).mapError .error)
  | none => .ok absent

/-- `ServerConfig::from_env`. -/
def ServerConfig.fromEnv (crates : ConfigCrates SocketAddr) :
    StartProg SocketAddr (ServerConfig SocketAddr) := do
  let pollSecs ← .done (parsedOr parseU64 defaultPollSecs (← StartOp.ask (.var "POLL_SECS")))
  let rpcAddr ← .done
    (parsedOr crates.socketAddr (defaultRpcAddr crates) (← StartOp.ask (.var "RPC_ADDR")))
  let starknetRpc ← .done
    (Res.okOr (.report "STARKNET_RPC env var missing") (← StartOp.ask (.var "STARKNET_RPC")))
  let gatewayUrl ← StartOp.ask (.var "GATEWAY_URL")
  let dataDir ← StartOp.ask (.var "DATA_DIR")
  pure ⟨⟨starknetRpc, gatewayUrl, dataDir.getD defaultDataDir⟩, pollSecs, rpcAddr⟩

/-- `ServerConfig::from_file`. -/
def ServerConfig.fromFile (crates : ConfigCrates SocketAddr) (path : String) :
    StartProg SocketAddr (ServerConfig SocketAddr) := do
  let content ← .done (Res.mapErr .io
    ((← StartOp.ask (.readToString path)).mapError .error))
  .done (Res.mapErr .toml ((crates.toml content).mapError .error))

/-- `ServerConfig::validate`, as it is derived. -/
def ServerConfig.validate (config : ServerConfig SocketAddr) : Res StartError Unit :=
  if 1 ≤ config.pollSecs ∧ config.pollSecs ≤ 3600 then .ok ()
  else Res.err (.validation "poll_secs" "range")

/-- `check_data_dir`. -/
def checkDataDir (path : String) : StartProg SocketAddr Unit := do
  let found ← StartOp.ask (.pathExists path)
  .done (if found then .ok () else Res.err (.report "path does not exist"))
  let readonly ← .done
    (Res.okOr (.report "path metadata is missing") (← StartOp.ask (.metadata path)))
  .done (if readonly then Res.err (.report "path is readonly") else .ok ())

/-- What `call_method` makes of a response. -/
def readResult (method : String) (response : CallMethodResponse) : Res StartError String :=
  match response.errorText.or response.errorObject with
  | some error => Res.err (.report ("rpc error: " ++ error))
  | none => Res.okOr (.report ("Result missing for method=" ++ method)) response.result

/-- `call_method`. -/
def callMethod (url method : String) : StartProg SocketAddr String := do
  let response ← .done
    (Res.mapErr .report ((← StartOp.ask (.callMethod url method)).mapError .error))
  .done (readResult method response)

/-- The `match` of `get_gateway_url`. -/
def gatewayOf (chainId : String) : Res StartError String :=
  if chainId = "0x534e5f4d41494e" then .ok "https://alpha-mainnet.starknet.io"
  else if chainId = "0x534e5f5345504f4c4941" then .ok "https://alpha-sepolia.starknet.io"
  else Res.err (.report ("Unexpected chain id: " ++ chainId))

/-- `get_gateway_url`. -/
def getGatewayUrl (starknetRpc : String) : StartProg SocketAddr String := do
  let chainId ← callMethod starknetRpc "starknet_chainId"
  .done (gatewayOf chainId)

end config

/-! ### The client -/

/-- `GatewayClient::new`. -/
def GatewayClient.new (url : String) : Res StartError String :=
  if url.toList.getLast? = some '/' then
    Res.err (.report "Gateway URL must not end with '/'.")
  else .ok url

/-- `Client::new`. What it keeps of the gateway is the address. -/
def Client.new (config : config.Config) : StartProg SocketAddr String := do
  let version ← .done
    (Res.mapErr .rpc ((← StartOp.ask (.specVersion config.starknetRpc)).mapError .error))
  .done (if version = "0.7.1" then .ok ()
    else Res.err (.report ("RPC spec version mismatch: expected 0.7.1 but got " ++ version)))
  let url ← config.gatewayUrl.elim (Beerus.config.getGatewayUrl config.starknetRpc) pure
  .done (GatewayClient.new url)

/-! ### The process -/

/-- `get_config`. -/
def getConfig (crates : ConfigCrates SocketAddr) :
    StartProg SocketAddr (config.ServerConfig SocketAddr) := do
  let path ← StartOp.ask .arg
  let config ← path.elim (config.ServerConfig.fromEnv crates) (config.ServerConfig.fromFile crates)
  .done config.validate
  Beerus.config.checkDataDir config.client.dataDir
  pure config

/-- A process that has started: it polls the gateway, from the first head on, and
serves. -/
structure Started (SocketAddr : Type) where
  config : config.ServerConfig SocketAddr
  gatewayUrl : String
  head : State
  port : UInt16

/-- `main`, up to where it serves. -/
def beerus.main (crates : ConfigCrates SocketAddr) : StartProg SocketAddr (Started SocketAddr) := do
  let config ← getConfig crates
  let gatewayUrl ← Client.new config.client
  let head ← .done (Res.mapErr .gateway
    (GatewayClient.getState (← StartOp.ask (.getState gatewayUrl))))
  let port ← .done (Res.mapErr .exe
    ((← StartOp.ask (.serve config.client.starknetRpc config.rpcAddr)).mapError .error))
  pure ⟨config, gatewayUrl, head, port⟩

/-! ### When it starts -/

section Starts

variable (crates : ConfigCrates SocketAddr) (answer : (op : StartOp SocketAddr) → op.Answer)

/-- A configuration that is read from the environment. -/
structure FromEnv (config : config.ServerConfig SocketAddr) : Prop where
  pollSecs : (answer (.var "POLL_SECS")).elim (config.pollSecs = 30) fun text =>
    Beerus.config.parseU64 text = .ok config.pollSecs
  rpcAddr : (answer (.var "RPC_ADDR")).elim (config.rpcAddr = crates.v4 (0, 0, 0, 0) 3030)
    fun text => crates.socketAddr text = .ok config.rpcAddr
  starknetRpc : answer (.var "STARKNET_RPC") = some config.client.starknetRpc
  gatewayUrl : answer (.var "GATEWAY_URL") = config.client.gatewayUrl
  dataDir : (answer (.var "DATA_DIR")).getD "tmp" = config.client.dataDir

/-- One that is read from a file. -/
def FromFile (path : String) (config : config.ServerConfig SocketAddr) : Prop :=
  ∃ content, answer (.readToString path) = .ok content ∧ crates.toml content = .ok config

/-- What is asked for where no gateway is configured: the chain, of two that are
known. -/
def KnownChain (starknetRpc gatewayUrl : String) : Prop :=
  ∃ response, answer (.callMethod starknetRpc "starknet_chainId") = .ok response ∧
    response.errorText = none ∧ response.errorObject = none ∧
    ((response.result = some "0x534e5f4d41494e" ∧
        gatewayUrl = "https://alpha-mainnet.starknet.io") ∨
      (response.result = some "0x534e5f5345504f4c4941" ∧
        gatewayUrl = "https://alpha-sepolia.starknet.io"))

/-- What a process that has started has behind it. -/
structure Starts (started : Started SocketAddr) : Prop where
  configured : (answer .arg).elim (FromEnv crates answer started.config) fun path =>
    FromFile crates answer path started.config
  pollSecs : 1 ≤ started.config.pollSecs ∧ started.config.pollSecs ≤ 3600
  dataDir : answer (.pathExists started.config.client.dataDir) = true ∧
    answer (.metadata started.config.client.dataDir) = some false
  version : answer (.specVersion started.config.client.starknetRpc) = .ok "0.7.1"
  gateway : started.config.client.gatewayUrl.elim
    (KnownChain answer started.config.client.starknetRpc started.gatewayUrl)
    fun url => url = started.gatewayUrl
  slash : started.gatewayUrl.toList.getLast? ≠ some '/'
  head : GatewayClient.getState (answer (.getState started.gatewayUrl)) = .ok started.head
  port : answer (.serve started.config.client.starknetRpc started.config.rpcAddr) =
    .ok started.port

variable {crates answer}

theorem parsedOr_eq_ok {α : Type} {parse : String → Except String α} {absent value : α}
    {text : Option String} :
    Beerus.config.parsedOr parse absent text = .ok value ↔
      text.elim (value = absent) fun text => parse text = .ok value := by
  cases text with
  | none => exact ⟨fun same => (Except.ok.inj same).symm, fun same => congrArg _ same.symm⟩
  | some text => exact Res.mapErr_eq_ok.trans Res.mapError_eq_ok

theorem fromEnv_eq_ok {config : config.ServerConfig SocketAddr} :
    (Beerus.config.ServerConfig.fromEnv crates).eval answer = .ok config ↔
      FromEnv crates answer config := by
  simp only [Beerus.config.ServerConfig.fromEnv, StartOp.ask, Prog.eval_bind, Prog.eval_act,
    Prog.eval_done, Prog.eval_pure, Res.ok_bind, Res.bind_eq_ok, parsedOr_eq_ok, Res.okOr_eq_ok]
  constructor
  · rintro ⟨pollSecs, polls, rpcAddr, addr, starknetRpc, rpc, same⟩
    obtain rfl := Except.ok.inj same
    exact ⟨polls, addr, rpc, rfl, rfl⟩
  · rintro ⟨polls, addr, rpc, gateway, dir⟩
    exact ⟨_, polls, _, addr, _, rpc, by rw [gateway, Beerus.config.defaultDataDir, dir]⟩

theorem fromFile_eq_ok {path : String} {config : config.ServerConfig SocketAddr} :
    (Beerus.config.ServerConfig.fromFile crates path).eval answer = .ok config ↔
      FromFile crates answer path config := by
  simp only [Beerus.config.ServerConfig.fromFile, StartOp.ask, Prog.eval_bind, Prog.eval_act,
    Prog.eval_done, Prog.eval_pure, Res.ok_bind, Res.bind_eq_ok, Res.mapErr_eq_ok,
    Res.mapError_eq_ok, FromFile]

/-- A check that refuses is passed where it does not. -/
theorem check_eq_ok {p : Prop} [Decidable p] {e : StartError} :
    (if p then .ok () else Res.err e : Res StartError Unit) = .ok () ↔ p := by
  by_cases holds : p <;> simp [holds]

theorem validate_eq_ok {config : config.ServerConfig SocketAddr} :
    config.validate = .ok () ↔ 1 ≤ config.pollSecs ∧ config.pollSecs ≤ 3600 := by
  unfold Beerus.config.ServerConfig.validate
  exact check_eq_ok

theorem checkDataDir_eq_ok {path : String} :
    (Beerus.config.checkDataDir path).eval answer = .ok () ↔
      answer (.pathExists path) = true ∧ answer (.metadata path) = some false := by
  simp only [Beerus.config.checkDataDir, StartOp.ask, Prog.eval_bind, Prog.eval_act,
    Prog.eval_done, Prog.eval_pure, Res.ok_bind, Res.bind_eq_ok, Res.okOr_eq_ok]
  constructor
  · rintro ⟨⟨⟩, found, readonly, known, writable⟩
    refine ⟨check_eq_ok.mp found, ?_⟩
    cases readonly with
    | true => cases writable
    | false => exact known
  · rintro ⟨found, known⟩
    exact ⟨(), check_eq_ok.mpr found, false, known, rfl⟩

theorem readResult_eq_ok {method text : String} {response : CallMethodResponse} :
    Beerus.config.readResult method response = .ok text ↔
      response.errorText = none ∧ response.errorObject = none ∧ response.result = some text := by
  unfold Beerus.config.readResult
  cases first : response.errorText with
  | some error => simp
  | none => cases second : response.errorObject <;> simp

/-- Two chains have a gateway of their own. -/
theorem gatewayOf_eq_ok {chainId gatewayUrl : String} :
    Beerus.config.gatewayOf chainId = .ok gatewayUrl ↔
      (chainId = "0x534e5f4d41494e" ∧ gatewayUrl = "https://alpha-mainnet.starknet.io") ∨
        (chainId = "0x534e5f5345504f4c4941" ∧
          gatewayUrl = "https://alpha-sepolia.starknet.io") := by
  unfold Beerus.config.gatewayOf
  split
  case isTrue mainnet => simp [mainnet, eq_comm]
  case isFalse other =>
    split
    case isTrue sepolia => simp [sepolia, eq_comm]
    case isFalse unknown => simp [other, unknown]

theorem getGatewayUrl_eq_ok {starknetRpc gatewayUrl : String} :
    (Beerus.config.getGatewayUrl starknetRpc).eval answer = .ok gatewayUrl ↔
      KnownChain answer starknetRpc gatewayUrl := by
  simp only [Beerus.config.getGatewayUrl, Beerus.config.callMethod, StartOp.ask, Prog.eval_bind,
    Prog.eval_act, Prog.eval_done, Prog.eval_pure, Res.ok_bind, Res.bind_eq_ok, Res.mapErr_eq_ok,
    Res.mapError_eq_ok, readResult_eq_ok, gatewayOf_eq_ok]
  constructor
  · rintro ⟨chainId, ⟨response, received, text, object, result⟩, known⟩
    refine ⟨response, received, text, object, ?_⟩
    rw [result]
    simpa using known
  · rintro ⟨response, received, text, object, known⟩
    rcases known with ⟨result, url⟩ | ⟨result, url⟩
    · exact ⟨_, ⟨response, received, text, object, result⟩, .inl ⟨rfl, url⟩⟩
    · exact ⟨_, ⟨response, received, text, object, result⟩, .inr ⟨rfl, url⟩⟩

theorem gatewayNew_eq_ok {url gatewayUrl : String} :
    GatewayClient.new url = .ok gatewayUrl ↔
      url = gatewayUrl ∧ gatewayUrl.toList.getLast? ≠ some '/' := by
  unfold GatewayClient.new
  split
  case isTrue slash =>
    refine iff_of_false (Res.err_ne_ok _ _) ?_
    rintro ⟨rfl, other⟩
    exact other slash
  case isFalse other =>
    constructor
    · rintro ⟨⟩
      exact ⟨rfl, other⟩
    · rintro ⟨rfl, -⟩
      rfl

theorem clientNew_eq_ok {config : config.Config} {gatewayUrl : String} :
    (Client.new config).eval answer = .ok gatewayUrl ↔
      answer (.specVersion config.starknetRpc) = .ok "0.7.1" ∧
        (config.gatewayUrl.elim (KnownChain answer config.starknetRpc gatewayUrl)
          fun url => url = gatewayUrl) ∧
        gatewayUrl.toList.getLast? ≠ some '/' := by
  have settled : ∀ url, (config.gatewayUrl.elim
      (Beerus.config.getGatewayUrl config.starknetRpc) pure).eval answer = .ok url ↔
        config.gatewayUrl.elim (KnownChain answer config.starknetRpc url)
          fun url' => url' = url := by
    intro url
    cases config.gatewayUrl with
    | none => exact getGatewayUrl_eq_ok
    | some url' => exact ⟨Except.ok.inj, fun same => congrArg Except.ok same⟩
  simp only [Client.new, StartOp.ask, Prog.eval_bind, Prog.eval_act, Prog.eval_done, Prog.eval_pure,
    Res.ok_bind, Res.bind_eq_ok, Res.mapErr_eq_ok, Res.mapError_eq_ok, settled, gatewayNew_eq_ok]
  constructor
  · rintro ⟨version, told, ⟨⟩, same, url, configured, rfl, slash⟩
    exact ⟨check_eq_ok.mp same ▸ told, configured, slash⟩
  · rintro ⟨told, configured, slash⟩
    exact ⟨_, told, (), check_eq_ok.mpr rfl, _, configured, rfl, slash⟩

theorem getConfig_eq_ok {config : config.ServerConfig SocketAddr} :
    (getConfig crates).eval answer = .ok config ↔
      ((answer .arg).elim (FromEnv crates answer config) fun path =>
          FromFile crates answer path config) ∧
        (1 ≤ config.pollSecs ∧ config.pollSecs ≤ 3600) ∧
        answer (.pathExists config.client.dataDir) = true ∧
        answer (.metadata config.client.dataDir) = some false := by
  have read : ∀ config, ((answer .arg).elim (Beerus.config.ServerConfig.fromEnv crates)
      (Beerus.config.ServerConfig.fromFile crates)).eval answer = .ok config ↔
        (answer .arg).elim (FromEnv crates answer config) fun path =>
          FromFile crates answer path config := by
    intro config
    cases answer .arg with
    | none => exact fromEnv_eq_ok
    | some path => exact fromFile_eq_ok
  simp only [getConfig, StartOp.ask, Prog.eval_bind, Prog.eval_act, Prog.eval_done, Prog.eval_pure,
    Res.ok_bind, Res.bind_eq_ok, read]
  constructor
  · rintro ⟨config, configured, ⟨⟩, valid, ⟨⟩, dir, same⟩
    obtain rfl := Except.ok.inj same
    exact ⟨configured, validate_eq_ok.mp valid, checkDataDir_eq_ok.mp dir⟩
  · rintro ⟨configured, valid, dir⟩
    exact ⟨config, configured, (), validate_eq_ok.mpr valid, (), checkDataDir_eq_ok.mpr dir, rfl⟩

/-- The process serves exactly where its configuration is read, in range and with
a directory to write to, the provider tells the version that is expected, the
gateway's address is settled, and the gateway's response is accepted: with the
head that this response shows. -/
theorem main_starts_iff (crates : ConfigCrates SocketAddr)
    (answer : (op : StartOp SocketAddr) → op.Answer) (started : Started SocketAddr) :
    (beerus.main crates).eval answer = .ok started ↔ Starts crates answer started := by
  simp only [beerus.main, StartOp.ask, Prog.eval_bind, Prog.eval_act, Prog.eval_done,
    Prog.eval_pure, Res.ok_bind, Res.bind_eq_ok, Res.mapErr_eq_ok, Res.mapError_eq_ok,
    getConfig_eq_ok, clientNew_eq_ok]
  constructor
  · rintro ⟨config, ⟨configured, polls, dir⟩, gatewayUrl, ⟨version, gateway, slash⟩, head, shown,
      port, serves, same⟩
    obtain rfl := Except.ok.inj same
    exact ⟨configured, polls, dir, version, gateway, slash, shown, serves⟩
  · rintro ⟨configured, polls, dir, version, gateway, slash, shown, serves⟩
    exact ⟨_, ⟨configured, polls, dir⟩, _, ⟨version, gateway, slash⟩, _, shown, _, serves, rfl⟩

end Starts

end Beerus
