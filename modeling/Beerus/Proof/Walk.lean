import Beerus.Proof

/-!
What the walk of `parseProof` checks, node by node.

A list is read here from the root, as it is sent; the walk reads it reversed.
After walking a list the accumulators are `commitment` (the hash of its first
node, or the value where it is empty) and `walked` (the wrapping sum of its
lengths), so each node can be judged against the part of the list below it:
`NodePasses`. `parseProof_eq_some` says that the function returns a root
exactly when every node passes, and that the root is then the list's
commitment.
-/

namespace Beerus

open Beerus.Lib

/-! ### Nodes -/

namespace Node

/-- The hash of a node as the walk computes it. -/
def hash (crates : Crates) : Node → FieldElement
  | .binaryNode left right => crates.pedersenHash left.field right.field
  | .edgeNode child path =>
      crates.pedersenHash child.field path.value.field + FieldElement.ofNat (asU64 path.len)

/-- The levels a node claims to cover. -/
def len : Node → Int64
  | .binaryNode _ _ => 1
  | .edgeNode _ path => path.len

end Node

/-- The hash the node above a list should commit to. -/
def commitment (crates : Crates) (value : FieldElement) : List Node → FieldElement
  | [] => value
  | node :: _ => node.hash crates

/-- The running `path_len` after a list has been walked. -/
def walked : List Node → Int64
  | [] => 0
  | node :: below => walked below + node.len

/-- Whether an `i64` addition returns at all. -/
def Fits (profile : Profile) (a b : Int64) : Prop :=
  profile = .debug → -2 ^ 63 ≤ a.toInt + b.toInt ∧ a.toInt + b.toInt < 2 ^ 63

instance (profile : Profile) (a b : Int64) : Decidable (Fits profile a b) :=
  inferInstanceAs (Decidable (_ → _))

theorem i64Add_eq_ok_iff {ε : Type} {profile : Profile} {a b c : Int64} :
    (i64Add profile a b : Res ε Int64) = .ok c ↔ Fits profile a b ∧ c = a + b := by
  unfold i64Add
  by_cases fits : -2 ^ 63 ≤ a.toInt + b.toInt ∧ a.toInt + b.toInt < 2 ^ 63
  · rw [if_pos fits, Except.ok.injEq]
    exact ⟨fun h => ⟨fun _ => fits, h.symm⟩, fun h => h.2.symm⟩
  · rw [if_neg fits]
    cases profile with
    | debug => exact iff_of_false (by simp) fun h => fits (h.1 rfl)
    | release =>
        rw [Except.ok.injEq]
        exact ⟨fun h => ⟨nofun, h.symm⟩, fun h => h.2.symm⟩

namespace GetProofResult

section Checks

variable (crates : Crates) (profile : Profile) (key : List Bool) (value : FieldElement)

/-- The key bit that a walked length selects. -/
def keyBit (key : List Bool) (pathLen : Int64) : Option Bool :=
  key[251 - pathLen.toInt.toNat]?

/-- The key with only its low `len` bits. -/
def maskedKey (key : List Bool) (len : Int64) : FieldElement :=
  FieldElement.ofNat (binary.value (key.drop (251 - len.toInt.toNat)))

/-- What is checked of an edge that is walked first: its length fits the key and
it hashes like the value below the low bits of the key. -/
def LeafEdgePasses (child : Felt) (path : EdgeNodePath) : Prop :=
  0 ≤ path.len.toInt ∧ path.len.toInt ≤ 251 ∧
    crates.pedersenHash child.field path.value.field + FieldElement.ofNat (asU64 path.len) =
      crates.pedersenHash value (maskedKey key path.len) + FieldElement.ofNat (asU64 path.len)

/-- What is checked of a binary node at a walked length: the length selects a
key bit, and on the bit's side the node hashes like the hash below it. -/
def BinaryPasses (hold : FieldElement) (pathLen : Int64) (left right : Felt) : Prop :=
  1 ≤ pathLen.toInt ∧ pathLen.toInt ≤ 251 ∧
    ∃ bit, keyBit key pathLen = some bit ∧
      crates.pedersenHash left.field right.field =
        expectedHash crates (.ofBool bit) hold left.field right.field

/-- What is checked of a node, given the part of the list below it. -/
def NodePasses (below : List Node) : Node → Prop
  | .edgeNode child path =>
      (below = [] → LeafEdgePasses crates key value child path) ∧
        Fits profile (walked below) path.len
  | .binaryNode left right =>
      Fits profile (walked below) 1 ∧
        BinaryPasses crates key (commitment crates value below) (walked below + 1) left right

/-- Every node of the list passes. -/
def Passes : List Node → Prop
  | [] => True
  | node :: below => NodePasses crates profile key value below node ∧ Passes below

end Checks

variable {crates : Crates} {profile : Profile} {key : List Bool} {value : FieldElement}

/-! ### One round of the loop -/

theorem leafEdgeMatches_eq_true (full : key.length = 251) {child : Felt} {path : EdgeNodePath} :
    leafEdgeMatches crates profile key value (Node.hash crates (.edgeNode child path)) path =
        .ok true ↔ LeafEdgePasses crates key value child path := by
  unfold leafEdgeMatches LeafEdgePasses maskedKey
  by_cases fits : 0 ≤ path.len.toInt ∧ path.len.toInt ≤ 251
  · have cast := asU64_of_nonneg fits.1
    have low : asU64 path.len ≤ 251 := by omega
    have levels : path.len.toInt.toNat = asU64 path.len := by omega
    rw [usizeSub_of_le low, Res.ok_bind, feltFromBits_some full (Nat.sub_le _ _), levels]
    simp [Node.hash, fits.1, fits.2]
  · -- A length out of range leaves no mask within the key.
    refine iff_of_false ?_ (fun h => fits ⟨h.1, h.2.1⟩)
    have high : 251 < asU64 path.len := by
      have := path.len.toInt_lt
      have := path.len.le_toInt
      unfold asU64
      omega
    have bound := asU64_lt path.len
    cases profile with
    | debug => simp [usizeSub_debug_of_lt high]
    | release =>
        rw [usizeSub_release_of_lt high, Res.ok_bind, feltFromBits_of_gt full (by omega)]
        simp [Res.err]

/-- The key bit an index selects: in range exactly where the walked length is. -/
theorem index_usizeSub (full : key.length = 251) {n : Int64} {bit : Bool} :
    (∃ index, (usizeSub profile 251 (asU64 n) : Res JsonRpcError Nat) = .ok index ∧
        key[index]? = some bit) ↔
      1 ≤ n.toInt ∧ n.toInt ≤ 251 ∧ keyBit key n = some bit := by
  have bound := asU64_lt n
  have outside : ∀ {index : Nat}, 251 ≤ index → key[index]? ≠ some bit := by
    intro index high
    simp [List.getElem?_eq_none (full.trans_le high)]
  by_cases range : 1 ≤ n.toInt ∧ n.toInt ≤ 251
  · have nonneg : 0 ≤ n.toInt := by omega
    have cast := asU64_of_nonneg nonneg
    have levels : n.toInt.toNat = asU64 n := by omega
    rw [usizeSub_of_le (by omega), keyBit, levels]
    simp [range.1, range.2]
  · refine iff_of_false ?_ (fun h => range ⟨h.1, h.2.1⟩)
    rintro ⟨index, sub, at_index⟩
    have apart : asU64 n = 0 ∨ 251 < asU64 n := by
      have := n.toInt_lt
      have := n.le_toInt
      unfold asU64 at *
      omega
    rcases apart with zero | high
    · rw [zero, usizeSub_of_le (Nat.zero_le _), Except.ok.injEq] at sub
      exact outside (by omega) at_index
    · cases profile with
      | debug => simp [usizeSub_debug_of_lt high] at sub
      | release =>
          rw [usizeSub_release_of_lt high, Except.ok.injEq] at sub
          exact outside (by omega) at_index

theorem walkStep_edge (full : key.length = 251) {i : Nat} {hold : FieldElement} {pathLen : Int64}
    {child : Felt} {path : EdgeNodePath} {next : FieldElement × Int64} :
    walkStep crates profile key value i hold pathLen (.edgeNode child path) = .ok (some next) ↔
      ((i = 0 → LeafEdgePasses crates key value child path) ∧ Fits profile pathLen path.len) ∧
        next = (Node.hash crates (.edgeNode child path), pathLen + path.len) := by
  have rest : ∀ b : Bool,
      (if b = true then do
          let pathLen ← i64Add profile pathLen path.len
          pure (some (Node.hash crates (.edgeNode child path), pathLen))
        else pure none : Res JsonRpcError (Option (FieldElement × Int64))) = .ok (some next) ↔
      b = true ∧ Fits profile pathLen path.len ∧
        next = (Node.hash crates (.edgeNode child path), pathLen + path.len) := by
    intro b
    cases b with
    | false => simp
    | true =>
        simp only [if_true, Res.bind_eq_ok, i64Add_eq_ok_iff, Res.pure_eq_ok, Except.ok.injEq,
          Option.some.injEq, true_and]
        constructor
        · rintro ⟨_, ⟨fits, rfl⟩, rfl⟩
          exact ⟨fits, rfl⟩
        · rintro ⟨fits, rfl⟩
          exact ⟨_, ⟨fits, rfl⟩, rfl⟩
  simp only [walkStep, fieldElement_felt, Res.ok_bind]
  by_cases first : i = 0
  · simp only [first, if_true, forall_const, Res.bind_eq_ok]
    rw [and_assoc, ← leafEdgeMatches_eq_true full]
    constructor
    · rintro ⟨b, matched, done⟩
      obtain ⟨rfl, fits, eq⟩ := (rest b).mp done
      exact ⟨matched, fits, eq⟩
    · rintro ⟨matched, fits, eq⟩
      exact ⟨true, matched, (rest true).mpr ⟨rfl, fits, eq⟩⟩
  · simp only [first, if_false, false_imp_iff, true_and, Res.pure_eq_ok, Res.ok_bind]
    exact (rest true).trans (by simp)

theorem walkStep_binary (full : key.length = 251) {i : Nat} {hold : FieldElement}
    {pathLen : Int64} {left right : Felt} {next : FieldElement × Int64} :
    walkStep crates profile key value i hold pathLen (.binaryNode left right) =
        .ok (some next) ↔
      (Fits profile pathLen 1 ∧ BinaryPasses crates key hold (pathLen + 1) left right) ∧
        next = (Node.hash crates (.binaryNode left right), pathLen + 1) := by
  simp only [walkStep, fieldElement_felt, Res.ok_bind, Res.bind_eq_ok, i64Add_eq_ok_iff,
    Res.index_eq_ok]
  constructor
  · rintro ⟨_, ⟨fits, rfl⟩, index, sub, bit, at_index, done⟩
    obtain ⟨low, high, selected⟩ := (index_usizeSub full).mp ⟨index, sub, at_index⟩
    split at done
    · next same =>
        exact ⟨⟨fits, low, high, bit, selected, same⟩, by simpa [Node.hash] using done.symm⟩
    · simp at done
  · rintro ⟨⟨fits, low, high, bit, selected, same⟩, rfl⟩
    obtain ⟨index, sub, at_index⟩ := (@index_usizeSub profile key full _ _).mpr
      ⟨low, high, selected⟩
    exact ⟨_, ⟨fits, rfl⟩, index, sub, bit, at_index, by rw [if_pos same]; rfl⟩

/-- One round keeps the accumulators in step with the list walked so far. -/
theorem walkStep_eq_some (full : key.length = 251) {below : List Node} {node : Node}
    {next : FieldElement × Int64} :
    walkStep crates profile key value below.length (commitment crates value below) (walked below)
        node = .ok (some next) ↔
      NodePasses crates profile key value below node ∧
        next = (node.hash crates, walked (node :: below)) := by
  cases node with
  | binaryNode left right => exact walkStep_binary full
  | edgeNode child path =>
      rw [walkStep_edge full, List.length_eq_zero_iff]
      rfl

/-! ### The whole loop -/

theorem walk_append (i : Nat) (hold : FieldElement) (pathLen : Int64) (xs ys : List Node) :
    walk crates profile key value i hold pathLen (xs ++ ys) = (do
      match ← walk crates profile key value i hold pathLen xs with
      | none => pure none
      | some (hold, pathLen) =>
          walk crates profile key value (i + xs.length) hold pathLen ys) := by
  induction xs generalizing i hold pathLen with
  | nil => rfl
  | cons node xs ih =>
      simp only [List.cons_append, walk]
      cases walkStep crates profile key value i hold pathLen node with
      | error fault => rfl
      | ok next =>
          cases next with
          | none => rfl
          | some reached =>
              obtain ⟨hold, pathLen⟩ := reached
              simp only [Res.ok_bind, ih, List.length_cons]
              rw [Nat.add_assoc, Nat.add_comm 1]

theorem walk_singleton (i : Nat) (hold : FieldElement) (pathLen : Int64) (node : Node) :
    walk crates profile key value i hold pathLen [node] =
      walkStep crates profile key value i hold pathLen node := by
  rw [walk]
  cases walkStep crates profile key value i hold pathLen node with
  | error fault => rfl
  | ok next => cases next <;> rfl

/-- Walking a list to its root succeeds exactly where every node passes. -/
theorem walk_reverse (full : key.length = 251) {nodes : List Node}
    {next : FieldElement × Int64} :
    walk crates profile key value 0 value 0 nodes.reverse = .ok (some next) ↔
      Passes crates profile key value nodes ∧
        next = (commitment crates value nodes, walked nodes) := by
  induction nodes generalizing next with
  | nil =>
      simp only [List.reverse_nil, walk, Res.pure_eq_ok, Except.ok.injEq, Option.some.injEq, Passes,
        commitment, walked, true_and]
      exact eq_comm
  | cons node below ih =>
      simp only [List.reverse_cons, walk_append, walk_singleton, Nat.zero_add,
        List.length_reverse, Res.bind_eq_ok]
      constructor
      · rintro ⟨reached, run, done⟩
        cases reached with
        | none => simp at done
        | some reached =>
            obtain ⟨passes, eq⟩ := ih.mp run
            cases eq
            obtain ⟨here, rfl⟩ := (walkStep_eq_some full).mp done
            exact ⟨⟨here, passes⟩, rfl⟩
      · rintro ⟨⟨here, passes⟩, rfl⟩
        exact ⟨_, ih.mpr ⟨passes, rfl⟩, (walkStep_eq_some full).mpr ⟨here, rfl⟩⟩

/-- `parseProof` returns a root exactly when its key is a literal and every
node passes; the root is then the commitment of the list. -/
theorem parseProof_eq_some {key : Text} {value : Felt} {nodes : Proof} {root : Felt} :
    parseProof crates profile key value nodes = .ok (some root) ↔
      ∃ k, crates.fromHex key = some k ∧
        Passes crates profile (feltToBits k.toBytesBe) value.field nodes ∧
        root = Felt.ofField (commitment crates value.field nodes) := by
  simp only [parseProof, Res.bind_eq_ok, fieldElement, Res.okOr_eq_ok, length_feltToBits, ne_eq,
    not_true_eq_false, if_false, Felt.fromHex_text, Option.some.injEq, exists_eq_left']
  refine exists_congr fun k => and_congr_right fun _ => ?_
  constructor
  · rintro ⟨reached, run, done⟩
    cases reached with
    | none => simp at done
    | some reached =>
        obtain ⟨passes, eq⟩ := (walk_reverse (length_feltToBits k)).mp run
        cases eq
        exact ⟨passes, by simpa using done.symm⟩
  · rintro ⟨passes, rfl⟩
    exact ⟨_, (walk_reverse (length_feltToBits k)).mpr ⟨passes, rfl⟩, by simp⟩

end GetProofResult

end Beerus
