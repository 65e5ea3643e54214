import Beerus.Proof.Walk

/-!
Which accepted lists are chains along the key, and which cover it.

`LinkedChain` is what an accepted proof is meant to be: every node commits to
the one below it on the key's path, the last one to the value. The walk
establishes this for binary nodes and for the edge it meets first. Of an edge
further up it only takes the hash, so an accepted list is a chain exactly when
its inner edges happen to commit to their successors (`parseProof_linked_iff`).

`CoversPath` is the same for lengths: the walk keeps the sum of the lengths but
compares it with nothing. A list that passes covers the 251 levels where its
lengths happen to add up to them (`coversPath_iff`), but for any key that is
read, and any value, lists of every other sum pass too (`parseProof_covers_iff`).
-/

namespace Beerus

open Beerus.Lib

/-! ### Chains -/

/-- The levels a list claims to cover. -/
def levels : List Node → Int
  | [] => 0
  | node :: below => levels below + node.len.toInt

/-- Whether a node is an edge. -/
def Node.isEdge : Node → Bool
  | .binaryNode _ _ => false
  | .edgeNode _ _ => true

/-- A node holds `target` on the path of the key, with `below` levels under it.
Depths count from the leaf end: the leaf is at depth 251. A binary node holds it
on the side of the key bit at its depth; an edge holds it as its child, and its
path value is the key bits it covers. -/
def Commits (key : List Bool) (below : Int) (target : FieldElement) : Node → Prop
  | .binaryNode left right =>
      below + 1 ≤ 251 ∧ ∃ bit, key[(251 - (below + 1)).toNat]? = some bit ∧
        (if bit then right.field else left.field) = target
  | .edgeNode child path =>
      0 ≤ path.len.toInt ∧ below + path.len.toInt ≤ 251 ∧ child.field = target ∧
        path.value.field = FieldElement.ofNat (binary.value
          ((key.drop (251 - (below + path.len.toInt)).toNat).take path.len.toInt.toNat))

/-- Every node holds the hash of its successor, the last one the value. -/
def LinkedChain (crates : Crates) (key : List Bool) (value : FieldElement) : List Node → Prop
  | [] => True
  | node :: below =>
      Commits key (levels below) (commitment crates value below) node ∧
        LinkedChain crates key value below

/-- A linked proof of a value at a key: a non-empty chain whose first node has
the root as its hash. -/
def LinkedProof (crates : Crates) (key : Text) (value : Felt) (nodes : Proof) (root : Felt) :
    Prop :=
  ∃ k first below, crates.fromHex key = some k ∧ nodes = first :: below ∧
    root.field = first.hash crates ∧
    LinkedChain crates (feltToBits k.toBytesBe) value.field nodes

/-- Every edge that has a successor holds the hash of it. -/
def InnerEdgesCommit (crates : Crates) (key : List Bool) : List Node → Prop
  | [] => True
  | node :: below =>
      (node.isEdge = true → ∀ next ∈ below.head?,
          Commits key (levels below) (next.hash crates) node) ∧
        InnerEdgesCommit crates key below

/-! ### Collisions -/

/-- No two of the inputs have one hash. -/
def CollisionFree (hash : FieldElement → FieldElement → FieldElement)
    (inputs : List (FieldElement × FieldElement)) : Prop :=
  ∀ a ∈ inputs, ∀ b ∈ inputs, hash a.1 a.2 = hash b.1 b.2 → a = b

instance (hash : FieldElement → FieldElement → FieldElement)
    (inputs : List (FieldElement × FieldElement)) : Decidable (CollisionFree hash inputs) :=
  -- By listing the inputs, not the pairs of elements there are.
  have (a : FieldElement × FieldElement) :
      Decidable (∀ b ∈ inputs, hash a.1 a.2 = hash b.1 b.2 → a = b) := List.decidableBAll _ inputs
  List.decidableBAll _ inputs

theorem CollisionFree.mono {hash : FieldElement → FieldElement → FieldElement}
    {xs ys : List (FieldElement × FieldElement)} (free : CollisionFree hash ys)
    (sub : ∀ a ∈ xs, a ∈ ys) : CollisionFree hash xs :=
  fun a ha b hb => free a (sub a ha) b (sub b hb)

/-- The pair a binary node's expected hash is computed from. -/
def expectedInput (direction : Direction) (hold left right : FieldElement) :
    FieldElement × FieldElement :=
  match direction with
  | .left => (hold, right)
  | .right => (left, hold)

/-- What `pedersen_hash` is applied to at a node, given the list below it. -/
def nodeInputs (crates : Crates) (key : List Bool) (value : FieldElement) (below : List Node) :
    Node → List (FieldElement × FieldElement)
  | .binaryNode left right =>
      (left.field, right.field) ::
        ((GetProofResult.keyBit key (walked below + 1)).map fun bit =>
          expectedInput (.ofBool bit) (commitment crates value below) left.field
            right.field).toList
  | .edgeNode child path =>
      (child.field, path.value.field) ::
        if below = [] then [(value, GetProofResult.maskedKey key path.len)] else []

/-- What `pedersen_hash` is applied to in a walk. -/
def pedersenInputs (crates : Crates) (key : List Bool) (value : FieldElement) :
    List Node → List (FieldElement × FieldElement)
  | [] => []
  | node :: below =>
      nodeInputs crates key value below node ++ pedersenInputs crates key value below

variable {crates : Crates} {profile : Profile} {key : List Bool} {value : FieldElement}

open GetProofResult

theorem expectedHash_eq (direction : Direction) (hold left right : FieldElement) :
    expectedHash crates direction hold left right =
      crates.pedersenHash (expectedInput direction hold left right).1
        (expectedInput direction hold left right).2 := by
  cases direction <;> rfl

/-- A binary node that passes holds the hash below it on its key bit's side. -/
theorem binary_holds {left right : Felt} {below : List Node}
    (free : CollisionFree crates.pedersenHash
      (nodeInputs crates key value below (.binaryNode left right)))
    (passes : BinaryPasses crates key (commitment crates value below) (walked below + 1)
      left right) :
    ∃ bit, keyBit key (walked below + 1) = some bit ∧
      (if bit then right.field else left.field) = commitment crates value below := by
  obtain ⟨-, -, bit, selected, same⟩ := passes
  refine ⟨bit, selected, ?_⟩
  rw [expectedHash_eq] at same
  have listed : expectedInput (.ofBool bit) (commitment crates value below) left.field
      right.field ∈ nodeInputs crates key value below (.binaryNode left right) := by
    simp only [nodeInputs, selected, Option.map_some, Option.toList_some]
    exact List.mem_cons_of_mem _ List.mem_cons_self
  have pair := free _ List.mem_cons_self _ listed same
  cases bit with
  | false => exact congrArg Prod.fst pair
  | true => exact congrArg Prod.snd pair

/-- A leaf edge that passes holds the value, and its path is the key's low bits. -/
theorem leafEdge_holds {child : Felt} {path : EdgeNodePath}
    (free : CollisionFree crates.pedersenHash
      (nodeInputs crates key value [] (.edgeNode child path)))
    (passes : LeafEdgePasses crates key value child path) :
    child.field = value ∧ path.value.field = maskedKey key path.len := by
  obtain ⟨-, -, same⟩ := passes
  have listed : (value, maskedKey key path.len) ∈
      nodeInputs crates key value [] (.edgeNode child path) :=
    List.mem_cons_of_mem _ List.mem_cons_self
  have pair := free (child.field, path.value.field) List.mem_cons_self _ listed
    (add_right_cancel same)
  exact ⟨congrArg Prod.fst pair, congrArg Prod.snd pair⟩

/-- Masking a key leaves the bits that its last `len` levels take. -/
theorem maskedKey_eq (full : key.length = 251) {len : Int64} (nonneg : 0 ≤ len.toInt)
    (fits : len.toInt ≤ 251) :
    maskedKey key len = FieldElement.ofNat (binary.value
      ((key.drop (251 - len.toInt).toNat).take len.toInt.toNat)) := by
  have skip : (251 - len.toInt).toNat = 251 - len.toInt.toNat := by omega
  have all : (key.drop (251 - len.toInt.toNat)).length ≤ len.toInt.toNat := by
    rw [List.length_drop, full]
    omega
  rw [skip, List.take_of_length_le all, maskedKey]

/-- Where the inner edges commit, the running length is the number of levels and
never leaves the key. -/
theorem walked_eq_levels {nodes : List Node} (passes : Passes crates profile key value nodes)
    (inner : InnerEdgesCommit crates key nodes) :
    0 ≤ levels nodes ∧ levels nodes ≤ 251 ∧ (walked nodes).toInt = levels nodes := by
  induction nodes with
  | nil => exact ⟨le_refl 0, by decide, rfl⟩
  | cons node below ih =>
      obtain ⟨here, rest⟩ := passes
      obtain ⟨low, high, same⟩ := ih rest inner.2
      have fits : -1 ≤ node.len.toInt → node.len.toInt ≤ 251 →
          (walked below + node.len).toInt = levels below + node.len.toInt := by
        intro nonneg top
        rw [toInt_add_of_fits (by omega) (by omega), same]
      have bounds : 0 ≤ node.len.toInt ∧ node.len.toInt ≤ 251 ∧
          levels below + node.len.toInt ≤ 251 := by
        cases node with
        | binaryNode left right =>
            have unit : (Node.binaryNode left right).len.toInt = 1 := rfl
            have top : (walked below + (Node.binaryNode left right).len).toInt ≤ 251 := here.2.2.1
            rw [fits (by omega) (by omega)] at top
            omega
        | edgeNode child path =>
            cases below with
            | nil =>
                obtain ⟨nonneg, top, -⟩ := here.1 rfl
                have len : (Node.edgeNode child path).len = path.len := rfl
                simp only [levels, len]
                omega
            | cons next below =>
                obtain ⟨nonneg, top, -⟩ := inner.1 rfl next rfl
                have len : (Node.edgeNode child path).len = path.len := rfl
                rw [len]
                omega
      exact ⟨by simp only [levels]; omega, bounds.2.2, fits (by omega) bounds.2.1⟩

/-- Where the inner edges commit, every node that passes commits to the list
below it. -/
theorem linkedChain_of_passes {nodes : List Node} (full : key.length = 251)
    (free : CollisionFree crates.pedersenHash (pedersenInputs crates key value nodes))
    (passes : Passes crates profile key value nodes) (inner : InnerEdgesCommit crates key nodes) :
    LinkedChain crates key value nodes := by
  induction nodes with
  | nil => trivial
  | cons node below ih =>
      have freeHere := free.mono (fun a => List.mem_append_left _)
      have freeBelow := free.mono (fun a => List.mem_append_right _)
      obtain ⟨-, top, length⟩ := walked_eq_levels passes inner
      refine ⟨?_, ih freeBelow passes.2 inner.2⟩
      cases node with
      | binaryNode left right =>
          obtain ⟨bit, selected, holds⟩ := binary_holds freeHere passes.1.2
          obtain ⟨low, -, -⟩ := walked_eq_levels passes.2 inner.2
          have total : (walked below + 1).toInt = levels below + 1 := length
          have high : levels below + 1 ≤ 251 := top
          have depth : (251 - (levels below + 1)).toNat = 251 - (levels below + 1).toNat := by
            omega
          rw [keyBit, total, ← depth] at selected
          exact ⟨high, bit, selected, holds⟩
      | edgeNode child path =>
          cases below with
          | cons next below => exact inner.1 rfl next rfl
          | nil =>
              obtain ⟨holds, low⟩ := leafEdge_holds freeHere (passes.1.1 rfl)
              obtain ⟨nonneg, high, -⟩ := passes.1.1 rfl
              refine ⟨nonneg, by simpa only [levels, zero_add] using high, holds, ?_⟩
              rw [low, maskedKey_eq full nonneg high, levels, zero_add]

/-- A chain's inner edges commit, as all its nodes do. -/
theorem LinkedChain.innerEdges {nodes : List Node} (chain : LinkedChain crates key value nodes) :
    InnerEdgesCommit crates key nodes := by
  induction nodes with
  | nil => trivial
  | cons node below ih =>
      refine ⟨fun _ next first => ?_, ih chain.2⟩
      cases below with
      | nil => simp at first
      | cons other below =>
          obtain rfl : other = next := by simpa using first
          exact chain.1

/-- An accepted list is a linked proof exactly where it is not empty and its
inner edges commit to the nodes below them. -/
theorem parseProof_linked_iff {key : Text} {value : Felt} {nodes : Proof}
    (free : ∀ k, crates.fromHex key = some k → CollisionFree crates.pedersenHash
      (pedersenInputs crates (feltToBits k.toBytesBe) value.field nodes)) :
    (∀ root, parseProof crates profile key value nodes = .ok (some root) →
        LinkedProof crates key value nodes root) ↔
      ∀ k, crates.fromHex key = some k →
        Passes crates profile (feltToBits k.toBytesBe) value.field nodes →
          nodes ≠ [] ∧ InnerEdgesCommit crates (feltToBits k.toBytesBe) nodes := by
  constructor
  · intro linked k literal passes
    obtain ⟨k', first, below, literal', rfl, -, chain⟩ :=
      linked _ (parseProof_eq_some.mpr ⟨k, literal, passes, rfl⟩)
    obtain rfl : k = k' := Option.some.inj (literal.symm.trans literal')
    exact ⟨List.cons_ne_nil _ _, chain.innerEdges⟩
  · intro commits root accepted
    obtain ⟨k, literal, passes, rfl⟩ := parseProof_eq_some.mp accepted
    obtain ⟨nonempty, inner⟩ := commits k literal passes
    obtain ⟨first, below, rfl⟩ := List.exists_cons_of_ne_nil nonempty
    refine ⟨k, first, below, literal, rfl, Felt.field_ofField _, ?_⟩
    exact linkedChain_of_passes (length_feltToBits k) (free k literal) passes inner

/-- Pedersen hashes of the node lists below. -/
def chainHashes : Crates := Crates.ofTables
  [((0x2a, 0x1), 0x5c6ef258a17112961f019115c57793e78c54ce57fe4fa2d725872ce2e17297c),
    ((0x7, 0x5c6ef258a17112961f019115c57793e78c54ce57fe4fa2d725872ce2e172a12),
      0x1229eb9a077598f144591d63e10a6c7975a4fd7a79e102300d820b558d9755a),
    ((0x1229eb9a077598f144591d63e10a6c7975a4fd7a79e102300d820b558d9755a, 0x3),
      0x2b341d7bc492ba0dcfd5096fc23434b3581f5c13b432473d160249453c0497c),
    ((0x5, 0x0), 0x6809831336cca08fab9a5a8445e6ebe1fe2286cf903ffb41eb27ca8ebb3a8aa)]
  []

/-- An edge of 100 levels above a binary node above an edge of 150 levels. -/
def linkedList : Proof :=
  [.edgeNode (.ofNat 0x1229eb9a077598f144591d63e10a6c7975a4fd7a79e102300d820b558d9755a)
      ⟨100, .ofNat 0x3⟩,
    .binaryNode (.ofNat 0x7)
      (.ofNat 0x5c6ef258a17112961f019115c57793e78c54ce57fe4fa2d725872ce2e172a12),
    .edgeNode (.ofNat 0x2a) ⟨150, .ofNat 0x1⟩]

/-- The key whose path it is: `0x3`, a set bit and `0x1`. -/
def linkedKey : Nat := 0x1c0000000000000000000000000000000000001

theorem linkedList_linked :
    parseProof chainHashes .release (Felt.ofNat linkedKey).text (.ofNat 0x2a) linkedList =
        .ok (some (.ofNat 0x2b341d7bc492ba0dcfd5096fc23434b3581f5c13b432473d160249453c049e0)) ∧
      ∀ root, parseProof chainHashes .release (Felt.ofNat linkedKey).text (.ofNat 0x2a)
          linkedList = .ok (some root) →
        LinkedProof chainHashes (Felt.ofNat linkedKey).text (.ofNat 0x2a) linkedList root := by
  refine ⟨by decide +kernel, (parseProof_linked_iff ?_).mpr ?_⟩
  · intro k literal
    obtain rfl := Option.some.inj ((Felt.fromHex_text _ _).symm.trans literal)
    decide +kernel
  · intro k literal _
    obtain rfl := Option.some.inj ((Felt.fromHex_text _ _).symm.trans literal)
    refine ⟨List.cons_ne_nil _ _, ?_, nofun, ?_, trivial⟩
    · -- The edge at the top holds the binary node's hash and the leading bits.
      rintro - next ⟨⟩
      refine ⟨by decide +kernel, by decide +kernel, by decide +kernel, by decide +kernel⟩
    · intro _ next first
      simp at first

/-- An edge of 250 levels whose child is the hash of nothing, above the last
level. -/
def unlinkedList : Proof :=
  [.edgeNode (.ofNat 0x5) ⟨250, .ofNat 0x0⟩, .edgeNode (.ofNat 0x2a) ⟨1, .ofNat 0x1⟩]

theorem unlinkedList_accepted :
    (∀ k, chainHashes.fromHex "0x1".toList = some k → CollisionFree chainHashes.pedersenHash
        (pedersenInputs chainHashes (feltToBits k.toBytesBe) (Felt.ofNat 0x2a).field
          unlinkedList)) ∧
      ∃ root, parseProof chainHashes .release "0x1".toList (.ofNat 0x2a) unlinkedList =
          .ok (some root) ∧
        ¬ LinkedProof chainHashes "0x1".toList (.ofNat 0x2a) unlinkedList root := by
  refine ⟨?_, .ofNat 0x6809831336cca08fab9a5a8445e6ebe1fe2286cf903ffb41eb27ca8ebb3a9a4,
    by decide +kernel, ?_⟩
  · intro k literal
    obtain rfl : FieldElement.ofNat 1 = k := Option.some.inj literal
    decide +kernel
  · rintro ⟨k, first, below, -, -, -, ⟨-, -, child, -⟩, -⟩
    exact absurd child (by decide +kernel)

/-! ### The whole path -/

/-- The lengths add up to 251 and none of them is zero or negative. -/
def SpansPath (nodes : List Node) : Prop :=
  levels nodes = 251 ∧ ∀ node ∈ nodes, 0 < node.len.toInt

instance (nodes : List Node) : Decidable (SpansPath nodes) :=
  inferInstanceAs (Decidable (_ ∧ _))

/-- A list covers the path of a key: every length is one of a path, they add up
to the height of the trie, each binary node is compared on the side of the key
bit at its depth from the root, and the list is neither empty nor the beginning
of a longer path. -/
structure CoversPath (crates : Crates) (key : List Bool) (value : FieldElement)
    (nodes : List Node) : Prop where
  lengths : ∀ node ∈ nodes, 1 ≤ node.len.toInt ∧ node.len.toInt ≤ 251
  total : levels nodes = 251
  depths : ∀ above left right below, nodes = above ++ .binaryNode left right :: below →
    ∃ bit, key[(levels above).toNat]? = some bit ∧
      crates.pedersenHash left.field right.field =
        expectedHash crates (.ofBool bit) (commitment crates value below) left.field right.field
  nonempty : nodes ≠ []
  whole : ∀ more, more ≠ [] → ¬ SpansPath (nodes ++ more)

theorem levels_append (xs ys : List Node) : levels (xs ++ ys) = levels xs + levels ys := by
  induction xs with
  | nil => simp [levels]
  | cons node xs ih =>
      simp only [List.cons_append, levels, ih]
      ring

theorem levels_nonneg {nodes : List Node} (positive : ∀ node ∈ nodes, 0 < node.len.toInt) :
    0 ≤ levels nodes := by
  induction nodes with
  | nil => exact le_refl 0
  | cons node below ih =>
      have here := positive node List.mem_cons_self
      have rest := ih fun n mem => positive n (List.mem_cons_of_mem _ mem)
      simp only [levels]
      omega

theorem passes_of_append {above below : List Node}
    (passes : Passes crates profile key value (above ++ below)) :
    Passes crates profile key value below := by
  induction above with
  | nil => exact passes
  | cons node above ih => exact ih passes.2

/-- Positive lengths that stay within a path do not wrap. -/
theorem walked_of_levels_le {nodes : List Node} (positive : ∀ node ∈ nodes, 0 < node.len.toInt)
    (fits : levels nodes ≤ 251) : (walked nodes).toInt = levels nodes := by
  induction nodes with
  | nil => rfl
  | cons node below ih =>
      have rest : ∀ n ∈ below, 0 < n.len.toInt :=
        fun n mem => positive n (List.mem_cons_of_mem _ mem)
      have here := positive node List.mem_cons_self
      have low := levels_nonneg rest
      simp only [levels] at fits
      have same := ih rest (by omega)
      rw [walked, toInt_add_of_fits (by omega) (by omega), same, levels]

/-- A list that passes and spans a path covers it. -/
theorem coversPath_of_passes {nodes : List Node} (passes : Passes crates profile key value nodes)
    (spans : SpansPath nodes) : CoversPath crates key value nodes := by
  obtain ⟨total, positive⟩ := spans
  have part : ∀ {above below : List Node}, nodes = above ++ below →
      0 ≤ levels above ∧ 0 ≤ levels below ∧ levels above + levels below = 251 := by
    rintro above below rfl
    refine ⟨levels_nonneg fun n mem => positive n (List.mem_append_left _ mem),
      levels_nonneg fun n mem => positive n (List.mem_append_right _ mem), ?_⟩
    rw [← levels_append, total]
  constructor
  case lengths =>
    intro node mem
    obtain ⟨above, below, split⟩ := List.append_of_mem mem
    obtain ⟨low, -, sum⟩ := part split
    have rest : 0 ≤ levels below :=
      levels_nonneg fun n hn => positive n (by simp [split, hn])
    have here := positive node mem
    simp only [levels] at sum
    omega
  case total => exact total
  case depths =>
    rintro above left right below rfl
    obtain ⟨low, -, sum⟩ := part rfl
    have positiveBelow : ∀ n ∈ below, 0 < n.len.toInt := fun n mem =>
      positive n (List.mem_append_right _ (List.mem_cons_of_mem _ mem))
    have lowBelow := levels_nonneg positiveBelow
    have unit : (Node.binaryNode left right).len.toInt = 1 := rfl
    simp only [levels, unit] at sum
    obtain ⟨⟨-, -, -, bit, selected, same⟩, -⟩ := passes_of_append passes
    have length : (walked below + 1).toInt = levels below + 1 := by
      have one : (1 : Int64).toInt = 1 := rfl
      have same := walked_of_levels_le positiveBelow (by omega)
      rw [toInt_add_of_fits (by omega) (by omega), same, one]
    have depth : 251 - (levels below + 1).toNat = (levels above).toNat := by omega
    rw [keyBit, length, depth] at selected
    exact ⟨bit, selected, same⟩
  case nonempty =>
    rintro rfl
    exact absurd total (by decide)
  case whole =>
    rintro more nonempty ⟨sum, positiveAll⟩
    obtain ⟨node, rest, rfl⟩ := List.exists_cons_of_ne_nil nonempty
    have here := positiveAll node (by simp)
    have low : 0 ≤ levels rest := levels_nonneg fun n mem => positiveAll n (by simp [mem])
    rw [levels_append, total, levels] at sum
    omega

/-- Of what covering a path takes, the walk leaves out the lengths only. -/
theorem coversPath_iff {nodes : List Node} (passes : Passes crates profile key value nodes) :
    CoversPath crates key value nodes ↔ SpansPath nodes := by
  refine ⟨fun covers => ⟨covers.total, fun node mem => ?_⟩, coversPath_of_passes passes⟩
  have := (covers.lengths node mem).1
  omega

/-- For any path and value, lists of edges over one level each pass, however many
levels they add up to. -/
theorem exists_passes_levels (crates : Crates) (profile : Profile) (key : List Bool)
    (value : FieldElement) (n : Nat) (fits : n < 2 ^ 63) :
    ∃ nodes, Passes crates profile key value nodes ∧ levels nodes = n ∧
      (walked nodes).toInt = n ∧ ∀ node ∈ nodes, node.len = 1 := by
  induction n with
  | zero => exact ⟨[], trivial, rfl, rfl, by simp⟩
  | succ n ih =>
      obtain ⟨below, passes, total, length, unit⟩ := ih (by omega)
      have one : (1 : Int64).toInt = 1 := rfl
      have inside : 0 ≤ (1 : Int64).toInt ∧ (1 : Int64).toInt ≤ 251 := by decide
      -- The first edge walked holds the value and the last bit of the key.
      refine ⟨.edgeNode (.ofField value) ⟨1, .ofField (maskedKey key 1)⟩ :: below,
        ⟨⟨fun _ => ⟨inside.1, inside.2, ?_⟩, fun _ => ?_⟩, passes⟩, ?_, ?_, ?_⟩
      · simp only [Felt.field_ofField]
      · dsimp only
        omega
      · simp only [levels, total]
        push_cast
        rfl
      · show (walked below + 1).toInt = _
        rw [toInt_add_of_fits (by omega) (by omega), length, one]
        push_cast
        rfl
      · exact List.forall_mem_cons.mpr ⟨rfl, unit⟩

/-- So for a key that is read, whatever the value, lists of ordinary lengths are
accepted that add up to any number of levels. -/
theorem exists_parseProof_levels {key : Text} {k : FieldElement}
    (read : crates.fromHex key = some k) (value : Felt) {n : Nat} (fits : n < 2 ^ 63) :
    ∃ nodes root, parseProof crates profile key value nodes = .ok (some root) ∧
      levels nodes = n ∧ ∀ node ∈ nodes, 1 ≤ node.len.toInt ∧ node.len.toInt ≤ 251 := by
  obtain ⟨nodes, passes, total, -, unit⟩ :=
    exists_passes_levels crates profile (feltToBits k.toBytesBe) value.field n fits
  refine ⟨nodes, _, parseProof_eq_some.mpr ⟨k, read, passes, rfl⟩, total, fun node mem => ?_⟩
  rw [unit node mem]
  decide

/-- All that is accepted for a key and a value covers the path only where the key is
not read, so that nothing is; and a key that is read has accepted lists of
ordinary lengths and any sum. -/
theorem parseProof_covers_iff {key : Text} {value : Felt} :
    ((∀ nodes root, parseProof crates profile key value nodes = .ok (some root) →
        ∃ k, crates.fromHex key = some k ∧
          CoversPath crates (feltToBits k.toBytesBe) value.field nodes) ↔
      crates.fromHex key = none) ∧
    ∀ k, crates.fromHex key = some k → ∀ n : Nat, n < 2 ^ 63 →
      ∃ nodes root, parseProof crates profile key value nodes = .ok (some root) ∧
        levels nodes = n ∧ ∀ node ∈ nodes, 1 ≤ node.len.toInt ∧ node.len.toInt ≤ 251 := by
  refine ⟨⟨fun covers => ?_, fun unread nodes root accepted => ?_⟩,
    fun k read n fits => exists_parseProof_levels read value fits⟩
  · by_contra readable
    obtain ⟨k, read⟩ := Option.ne_none_iff_exists'.mp readable
    obtain ⟨nodes, root, accepted, short, -⟩ :=
      @exists_parseProof_levels crates profile key k read value 0 (by decide)
    obtain ⟨_, _, covered⟩ := covers nodes root accepted
    exact absurd (short.symm.trans covered.total) (by decide)
  · obtain ⟨k, read, -⟩ := parseProof_eq_some.mp accepted
    exact nomatch unread.symm.trans read

/-- The first two nodes of `linkedList` alone prove the hash of the edge below them
as a value under the same root, and no node at all proves the root itself. -/
theorem beginning_accepted :
    parseProof chainHashes .release "0x7".toList
        (.ofNat 0x5c6ef258a17112961f019115c57793e78c54ce57fe4fa2d725872ce2e172a12)
        (linkedList.take 2) =
      .ok (some (.ofNat 0x2b341d7bc492ba0dcfd5096fc23434b3581f5c13b432473d160249453c049e0)) ∧
    ¬ CoversPath chainHashes (feltToBits (FieldElement.ofNat 7).toBytesBe)
        (.ofNat 0x5c6ef258a17112961f019115c57793e78c54ce57fe4fa2d725872ce2e172a12)
        (linkedList.take 2) ∧
    parseProof chainHashes .release "0x7".toList
        (.ofNat 0x2b341d7bc492ba0dcfd5096fc23434b3581f5c13b432473d160249453c049e0) [] =
      .ok (some (.ofNat 0x2b341d7bc492ba0dcfd5096fc23434b3581f5c13b432473d160249453c049e0)) ∧
    ¬ CoversPath chainHashes (feltToBits (FieldElement.ofNat 7).toBytesBe)
        (.ofNat 0x2b341d7bc492ba0dcfd5096fc23434b3581f5c13b432473d160249453c049e0) [] := by
  refine ⟨by decide +kernel, ?_, by decide +kernel, fun covers => covers.nonempty rfl⟩
  intro covers
  have short : levels (linkedList.take 2) = 101 := rfl
  have total := covers.total
  omega

end Beerus
