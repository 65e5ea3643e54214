import Beerus.Proof.Soundness

/-!
Proofs of keys that a storage trie does not hold.

The nodes on such a key's path end in an edge which the key leaves. The walk
takes this edge for the one above the leaf, and compares it with an edge of its
own length above zero: where Pedersen has no collision, they are different
(`not_passes_of_absent`). So the walk knows no proof that a key is absent, save
that of the empty trie, which is the empty list (`proves_slot_iff`).
-/

namespace Beerus

open Beerus.Lib

variable {crates : Crates} {profile : Profile}

/-- The value of a slot: zero where the trie holds none. -/
def Contract.valueAt (contract : Contract) (key : Nat) : FieldElement :=
  (lookupIn contract.storage (pathOf key)).getD 0

/-- The nodes on a key's path through a contract's storage, as they are sent. -/
def Contract.slotProof (crates : Crates) (contract : Contract) (key : Nat) : Proof :=
  (pathIn (nodeHash crates) contract.storage (pathOf key)).map Node.ofPathNode

/-- What a contract's storage and the walk of a key down to zero apply Pedersen
to. -/
def Contract.slotInputs (crates : Crates) (contract : Contract) (key : Nat) :
    List (FieldElement × FieldElement) :=
  (nodesIn (nodeHash crates) contract.storage).map nodeInput ++
    pedersenInputs crates (pathOf key) 0 (contract.slotProof crates key)

theorem pedersenInputs_append {key : List Bool} {value : FieldElement} {above below : List Node}
    {a : FieldElement × FieldElement} (mem : a ∈ pedersenInputs crates key value below) :
    a ∈ pedersenInputs crates key value (above ++ below) := by
  induction above with
  | nil => exact mem
  | cons node above ih => exact List.mem_append_right _ ih

open GetProofResult

/-- An edge of a trie, walked first, passes for zero only where it is the last
edge on the key's path and has zero below it. -/
theorem leafEdge_of_passes {key pre rest path : List Bool} {child : FieldElement}
    (full : key.length = 251) (split : key = pre ++ rest) (short : path.length ≤ rest.length)
    (free : CollisionFree crates.pedersenHash
      (nodeInputs crates key 0 [] (Node.ofPathNode (.edge child path))))
    (passes : Passes crates profile key 0 [Node.ofPathNode (.edge child path)]) :
    child = 0 ∧ (path.length = rest.length → path = rest) := by
  have count : pre.length + rest.length = 251 := by
    rw [← full, split, List.length_append]
  have len := @toInt_ofNat_length path (by omega)
  obtain ⟨below, low⟩ := leafEdge_holds free (passes.1.1 rfl)
  rw [Felt.field_ofField] at below
  refine ⟨below, fun ends => ?_⟩
  have tail : key.drop (251 - path.length) = rest := by
    have front : 251 - path.length = pre.length := by omega
    rw [front, split, List.drop_left]
  rw [maskedKey, len, Int.toNat_natCast, tail, Felt.ofNat, Felt.field_ofField] at low
  have small : ∀ p : List Bool, p.length ≤ 251 → binary.value p < 2 ^ 251 := fun p short =>
    (binary.value_lt p).trans_le (Nat.pow_le_pow_right (by decide) short)
  have value := FieldElement.ofNat_inj (small path (by omega)) (small rest (by omega)) low
  exact binary.value_inj ends value

/-- The path of a key that a trie does not hold does not pass the walk down to
zero. -/
theorem not_passes_of_absent {t : Patricia FieldElement} {key : List Bool}
    (full : key.length = 251) (tall : t.HasHeight 251) (absent : t.lookup key = none)
    (free : NodeCollisionFree crates.pedersenHash
      ((t.allNodes (nodeHash crates)).map nodeInput ++
        pedersenInputs crates key 0 ((t.pathNodes (nodeHash crates) key).map Node.ofPathNode))) :
    ¬ Passes crates profile key 0 ((t.pathNodes (nodeHash crates) key).map Node.ofPathNode) := by
  have shape : t.HasHeight key.length := full.symm ▸ tall
  obtain ⟨front, pre, rest, child, path, list, split, -, -, short, off, stop⟩ :=
    @Patricia.lookup_none_diverges _ (nodeHash crates) _ _ shape absent
  intro passes
  rw [list, List.map_append] at passes free
  have inWalk := free.mono fun a mem => List.mem_append_right _ mem
  have inEdge := inWalk.mono fun a mem => pedersenInputs_append mem
  have here := inEdge.collisionFree.mono fun a mem => List.mem_append_left _ mem
  obtain ⟨below, ends⟩ := leafEdge_of_passes full split short here (passes_of_append passes)
  rcases stop with all | ⟨n, mem, rfl⟩
  · -- The edge ends at a leaf, where the key ends too, but not on the key's path.
    rw [ends all] at off
    exact off (List.prefix_refl _)
  · -- The edge ends at a node, which has no digest zero.
    have listed : nodeInput n ∈ (t.allNodes (nodeHash crates)).map nodeInput :=
      List.mem_map_of_mem mem
    have tag := nodeTag_le (Patricia.fits_of_mem_allNodes tall mem)
    rw [nodeHash_eq] at below
    exact free.nonzero _ (List.mem_append_left _ listed) _ tag below

/-- The nodes on a key's path show the value of its slot: the key is written, or
no key is. -/
def Contract.Shows (contract : Contract) (key : Nat) : Prop :=
  contract.storage = none ∨ (lookupIn contract.storage (pathOf key)).isSome

theorem Contract.shows_of_valueAt (contract : Contract) {key : Nat}
    (nonzero : contract.valueAt key ≠ 0) : contract.Shows key := by
  refine .inr (Option.isSome_iff_ne_none.mpr fun absent => nonzero ?_)
  rw [Contract.valueAt, absent, Option.getD_none]

/-- The nodes on a key's path are a proof exactly where they show its slot. -/
theorem proves_slot_iff {contract : Contract} {k : Nat} (small : k < 2 ^ 251)
    (free : NodeCollisionFree crates.pedersenHash (contract.slotInputs crates k)) :
    Proves crates profile (.ofNat k) (contract.valueAt k) (contract.slotProof crates k)
        (contract.storageRoot crates) ↔ contract.Shows k := by
  unfold Contract.Shows
  cases stored : lookupIn contract.storage (pathOf k) with
  | some v =>
      refine iff_of_true ?_ (.inr rfl)
      have value : contract.valueAt k = v := by rw [Contract.valueAt, stored, Option.getD_some]
      rw [value]
      exact proves_of_lookupIn contract.tall small stored
  | none =>
      have value : contract.valueAt k = 0 := by rw [Contract.valueAt, stored, Option.getD_none]
      rw [value]
      obtain ⟨classHash, nonce, storage, tall⟩ := contract
      cases storage with
      | none => exact iff_of_true ⟨trivial, rfl⟩ (.inl rfl)
      | some t =>
          refine iff_of_false ?_ (by simp)
          rintro ⟨passes, -⟩
          rw [feltToBits_ofNat small] at passes
          exact not_passes_of_absent (length_pathOf k) (tall t rfl) stored free passes

end Beerus
