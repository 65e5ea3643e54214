import Beerus.Gen

/-!
The conversion of field elements to the RPC's felts (`src/exe/map.rs`).
-/

namespace Beerus

open Beerus.Lib

/-- `TryFrom<&StarkFelt> for gen::Felt`: the digits without leading zeros. -/
def Felt.tryFromStarkFelt (felt : StarkFelt) : Res JsonRpcError Felt :=
  let hex := (hexEncode felt.toBytesBe).dropWhile (· == '0')
  let hex := if hex = [] then ['0'] else hex
  Felt.tryNew ('0' :: 'x' :: hex)

/-- The conversion spells the element canonically. -/
@[simp] theorem Felt.tryFromStarkFelt_eq (x : FieldElement) :
    Felt.tryFromStarkFelt x = .ok (.ofField x) := by
  have digits : (if (fixedHex 64 x.val).dropWhile (· == '0') = [] then ['0']
      else (fixedHex 64 x.val).dropWhile (· == '0')) = shortHex 64 x.val := by
    unfold shortHex
    cases (fixedHex 64 x.val).dropWhile (· == '0') with
    | nil => rfl
    | cons d ds => rfl
  simp only [Felt.tryFromStarkFelt, hexEncode_toBytesBe, digits]
  exact Felt.tryNew_text (.ofField x)

end Beerus
