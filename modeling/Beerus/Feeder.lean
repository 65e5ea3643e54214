import Beerus.Client

/-!
The feeder gateway (`src/feeder.rs`).

The head of the chain comes from the gateway: one response carries the number,
the hash and the state root of one block, or is refused.
-/

namespace Beerus

open Beerus.Lib

/-- An error of the gateway client: a text of its own, or what `Felt::try_new`
says. -/
inductive GatewayError where
  | report (text : String)
  | felt (e : JsonRpcError)
deriving DecidableEq

/-- The members of a `get_block` response that are read, as far as they have the
type that is read. -/
structure GatewayBlock where
  status : Option Text
  blockNumber : Option UInt64
  blockHash : Option Text
  stateRoot : Option Text
deriving DecidableEq

/-- What a request to the gateway comes back with: a response, or one of the two
contexts `failed to send gateway request` and `failed to receive gateway
response`. -/
abbrev GatewayAnswer := Res GatewayError GatewayBlock

/-- `GatewayClient::get_state`, once the request has come back. -/
def GatewayClient.getState (response : GatewayAnswer) : Res GatewayError State := do
  let json ← response
  if json.status ≠ some "ACCEPTED_ON_L2".toList then
    Res.err (.report "gateway: invalid block status")
  else do
    let blockNumber ←
      Res.okOr (.report "gateway: fetching block_number failed") json.blockNumber
    let blockHash ← Res.okOr (.report "gateway: fetching block_hash failed") json.blockHash
    let root ← Res.okOr (.report "gateway: fetching state_root failed") json.stateRoot
    let blockHash ← Res.mapErr .felt (Felt.tryNew blockHash)
    let root ← Res.mapErr .felt (Felt.tryNew root)
    pure ⟨blockNumber.toNat, blockHash, root, blockNumber.toNat_lt⟩

/-- A state that is taken over has its three members from the one response. -/
theorem GatewayClient.getState_eq_ok {response : GatewayAnswer} {state : State}
    (ok : getState response = .ok state) :
    ∃ json n h r, response = .ok json ∧ json.blockNumber = some n ∧ json.blockHash = some h ∧
      json.stateRoot = some r ∧ state.blockNumber = n.toNat ∧ Felt.tryNew h = .ok state.blockHash ∧
      Felt.tryNew r = .ok state.root := by
  obtain ⟨json, received, ok⟩ := Res.bind_eq_ok.mp ok
  by_cases accepted : json.status = some "ACCEPTED_ON_L2".toList
  · rw [if_neg (not_not_intro accepted)] at ok
    obtain ⟨n, number, ok⟩ := Res.bind_eq_ok.mp ok
    obtain ⟨h, hash, ok⟩ := Res.bind_eq_ok.mp ok
    obtain ⟨r, root, ok⟩ := Res.bind_eq_ok.mp ok
    obtain ⟨hashFelt, hashOk, ok⟩ := Res.bind_eq_ok.mp ok
    obtain ⟨rootFelt, rootOk, ok⟩ := Res.bind_eq_ok.mp ok
    obtain rfl : _ = state := Except.ok.inj ok
    exact ⟨json, n, h, r, received, Res.okOr_eq_ok.mp number, Res.okOr_eq_ok.mp hash,
      Res.okOr_eq_ok.mp root, rfl, Res.mapErr_eq_ok.mp hashOk, Res.mapErr_eq_ok.mp rootOk⟩
  · rw [if_pos accepted] at ok
    exact nomatch ok

end Beerus
