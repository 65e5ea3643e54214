import Mathlib

/-!
Binary Patricia tries with authenticated nodes, over an arbitrary digest type.

A trie is built from leaves, binary nodes and edges that compress a run of
levels into one path. `hash` turns a node, seen through the digests of its
children, into a digest; nothing is assumed of it until a statement names what
it needs. `Opens hash nodes key v root` says that a node list, read from the
root, leads along `key` from the digest `root` down to `v`.

* `opens_pathNodes`: the nodes a trie has on the path of a stored key open it.
* `lookup_of_opens`: where `hash` has no collision among the nodes involved, an
  opening of the trie's own root can only lead to what the trie stores.
* `lookup_none_diverges`: a key that is not stored leaves the trie inside an
  edge, and that edge is the last node on its path.
-/

namespace Beerus.Lib

/-- A node as a proof lists it: children are digests. -/
inductive PathNode (D : Type) where
  | binary (left right : D)
  | edge (child : D) (path : List Bool)
deriving DecidableEq

namespace PathNode

variable {D : Type}

/-- A node may stand in a trie of height `h`: if it is an edge, its path is not
empty and not longer than the trie is high. -/
def Fits (h : Nat) : PathNode D → Prop
  | binary _ _ => True
  | edge _ path => path ≠ [] ∧ path.length ≤ h

theorem Fits.mono {n : PathNode D} {h h' : Nat} (fits : n.Fits h) (le : h ≤ h') : n.Fits h' := by
  cases n with
  | binary left right => trivial
  | edge child path => exact ⟨fits.1, fits.2.trans le⟩

end PathNode

/-- A Patricia trie with values at its leaves. -/
inductive Patricia (D : Type) where
  | leaf (value : D)
  | binary (left right : Patricia D)
  | edge (path : List Bool) (child : Patricia D)

/-- A node list leads along a key from a digest down to a value. -/
inductive Opens {D : Type} (hash : PathNode D → D) :
    List (PathNode D) → List Bool → D → D → Prop where
  | leaf (v : D) : Opens hash [] [] v v
  | binary {nodes : List (PathNode D)} {key : List Bool} {v : D} {left right : D} (b : Bool) :
      Opens hash nodes key v (if b then right else left) →
      Opens hash (.binary left right :: nodes) (b :: key) v (hash (.binary left right))
  | edge {nodes : List (PathNode D)} {key : List Bool} {v : D} {child : D} {path : List Bool} :
      path ≠ [] → Opens hash nodes key v child →
      Opens hash (.edge child path :: nodes) (path ++ key) v (hash (.edge child path))

/-- A list that leads along a key can be cut anywhere. -/
theorem Opens.split {D : Type} {hash : PathNode D → D} {xs ys : List (PathNode D)}
    {key : List Bool} {v r : D} (opens : Opens hash (xs ++ ys) key v r) :
    ∃ front rest mid, key = front ++ rest ∧ Opens hash xs front mid r ∧
      Opens hash ys rest v mid := by
  induction xs generalizing key r with
  | nil => exact ⟨[], key, r, rfl, .leaf r, opens⟩
  | cons node xs ih =>
      cases opens with
      | binary b below =>
          obtain ⟨front, rest, mid, rfl, above, below⟩ := ih below
          exact ⟨b :: front, rest, mid, rfl, .binary b above, below⟩
      | @edge _ _ _ _ path nonempty below =>
          obtain ⟨front, rest, mid, rfl, above, below⟩ := ih below
          exact ⟨path ++ front, rest, mid, (List.append_assoc ..).symm, .edge nonempty above,
            below⟩

/-- A list with a node leads from that node's digest, along a key that is not empty. -/
theorem Opens.of_cons {D : Type} {hash : PathNode D → D} {node : PathNode D}
    {nodes : List (PathNode D)} {key : List Bool} {v r : D}
    (opens : Opens hash (node :: nodes) key v r) : r = hash node ∧ 0 < key.length := by
  cases opens with
  | binary b below => exact ⟨rfl, Nat.succ_pos _⟩
  | edge nonempty below =>
      rw [List.length_append]
      exact ⟨rfl, Nat.add_pos_left (List.length_pos_iff.mpr nonempty) _⟩

namespace Patricia

variable {D : Type}

/-- Every leaf lies exactly `h` levels down and no edge is empty. -/
def HasHeight : Patricia D → Nat → Prop
  | .leaf _, h => h = 0
  | .binary l r, h => 0 < h ∧ l.HasHeight (h - 1) ∧ r.HasHeight (h - 1)
  | .edge path child, h => path ≠ [] ∧ path.length ≤ h ∧ child.HasHeight (h - path.length)

instance decidableHasHeight : (t : Patricia D) → (h : Nat) → Decidable (t.HasHeight h)
  | .leaf _, h => inferInstanceAs (Decidable (h = 0))
  | .binary l r, h =>
      have := decidableHasHeight l (h - 1)
      have := decidableHasHeight r (h - 1)
      inferInstanceAs (Decidable (0 < h ∧ l.HasHeight (h - 1) ∧ r.HasHeight (h - 1)))
  | .edge path child, h =>
      have := decidableHasHeight child (h - path.length)
      inferInstanceAs
        (Decidable (path ≠ [] ∧ path.length ≤ h ∧ child.HasHeight (h - path.length)))

@[simp] theorem hasHeight_leaf {v : D} {h : Nat} : (leaf v).HasHeight h ↔ h = 0 := Iff.rfl

@[simp] theorem hasHeight_binary {l r : Patricia D} {h : Nat} :
    (binary l r).HasHeight (h + 1) ↔ l.HasHeight h ∧ r.HasHeight h := by
  simp [HasHeight]

@[simp] theorem hasHeight_edge {path : List Bool} {child : Patricia D} {h : Nat} :
    (edge path child).HasHeight (path.length + h) ↔ path ≠ [] ∧ child.HasHeight h := by
  simp [HasHeight]

/-- The value stored at a key. -/
def lookup : Patricia D → List Bool → Option D
  | .leaf v, key => if key = [] then some v else none
  | .binary _ _, [] => none
  | .binary l r, b :: key => if b then r.lookup key else l.lookup key
  | .edge path child, key =>
      if path <+: key then child.lookup (key.drop path.length) else none

/-- The trie with other values at its leaves. -/
def map {E : Type} (f : D → E) : Patricia D → Patricia E
  | .leaf v => .leaf (f v)
  | .binary l r => .binary (l.map f) (r.map f)
  | .edge path child => .edge path (child.map f)

@[simp] theorem hasHeight_map {E : Type} (f : D → E) {t : Patricia D} {h : Nat} :
    (t.map f).HasHeight h ↔ t.HasHeight h := by
  induction t generalizing h with
  | leaf v => rfl
  | binary l r ihl ihr => simp only [map, HasHeight, ihl, ihr]
  | edge path child ih => simp only [map, HasHeight, ih]

@[simp] theorem lookup_map {E : Type} (f : D → E) (t : Patricia D) (key : List Bool) :
    (t.map f).lookup key = (t.lookup key).map f := by
  induction t generalizing key with
  | leaf v =>
      simp only [map, lookup]
      split <;> rfl
  | binary l r ihl ihr =>
      cases key with
      | nil => rfl
      | cons b key => cases b <;> simp [map, lookup, ihl, ihr]
  | edge path child ih =>
      simp only [map, lookup, ih]
      split <;> rfl

section Hash

variable (hash : PathNode D → D)

/-- The digest of a trie. -/
def root : Patricia D → D
  | .leaf v => v
  | .binary l r => hash (.binary l.root r.root)
  | .edge path child => hash (.edge child.root path)

/-- The nodes on the path of a key, root first. An edge that the key leaves is
the last node listed. -/
def pathNodes : Patricia D → List Bool → List (PathNode D)
  | .leaf _, _ => []
  | .binary l r, [] => [.binary (l.root hash) (r.root hash)]
  | .binary l r, b :: key =>
      .binary (l.root hash) (r.root hash) :: if b then r.pathNodes key else l.pathNodes key
  | .edge path child, key =>
      .edge (child.root hash) path ::
        if path <+: key then child.pathNodes (key.drop path.length) else []

/-- Every node of the trie. -/
def allNodes : Patricia D → List (PathNode D)
  | .leaf _ => []
  | .binary l r => .binary (l.root hash) (r.root hash) :: (l.allNodes ++ r.allNodes)
  | .edge path child => .edge (child.root hash) path :: child.allNodes

end Hash

variable {hash : PathNode D → D}

/-- The nodes on the path of a stored key open it. -/
theorem opens_pathNodes {t : Patricia D} {key : List Bool} {v : D} (shape : t.HasHeight key.length)
    (stored : t.lookup key = some v) : Opens hash (t.pathNodes hash key) key v (t.root hash) := by
  induction t generalizing key with
  | leaf w =>
      obtain rfl : key = [] := List.length_eq_zero_iff.mp shape
      obtain rfl : w = v := by simpa [lookup] using stored
      exact .leaf _
  | binary l r ihl ihr =>
      cases key with
      | nil => simp [lookup] at stored
      | cons b key =>
          obtain ⟨left, right⟩ := hasHeight_binary.mp shape
          cases b with
          | false => exact .binary false (ihl left (by simpa [lookup] using stored))
          | true => exact .binary true (ihr right (by simpa [lookup] using stored))
  | edge path child ih =>
      by_cases along : path <+: key
      · obtain ⟨rest, rfl⟩ := along
        simp only [lookup, List.prefix_append, if_true, List.drop_left] at stored
        simp only [pathNodes, List.prefix_append, if_true, List.drop_left]
        rw [List.length_append] at shape
        obtain ⟨nonempty, height⟩ := hasHeight_edge.mp shape
        exact .edge nonempty (ih height stored)
      · simp [lookup, along] at stored

/-- The nodes of a trie stand in it. -/
theorem fits_of_mem_allNodes {t : Patricia D} {h : Nat} (shape : t.HasHeight h) {n : PathNode D}
    (mem : n ∈ t.allNodes hash) : n.Fits h := by
  induction t generalizing h with
  | leaf v => simp [allNodes] at mem
  | binary l r ihl ihr =>
      obtain ⟨-, left, right⟩ := shape
      simp only [allNodes, List.mem_cons, List.mem_append] at mem
      rcases mem with rfl | below | below
      · trivial
      · exact (ihl left below).mono (Nat.sub_le _ _)
      · exact (ihr right below).mono (Nat.sub_le _ _)
  | edge path child ih =>
      obtain ⟨nonempty, short, height⟩ := shape
      rcases List.mem_cons.mp mem with rfl | below
      · exact ⟨nonempty, short⟩
      · exact (ih height below).mono (Nat.sub_le _ _)

/-- A trie that is not a bare leaf has the digest of one of its nodes. -/
theorem root_eq_hash {t : Patricia D} {h : Nat} (tall : t.HasHeight h) (pos : 0 < h) :
    ∃ n ∈ t.allNodes hash, t.root hash = hash n := by
  cases t with
  | leaf w => exact absurd tall (Nat.ne_of_gt pos)
  | binary l r => exact ⟨_, List.mem_cons_self, rfl⟩
  | edge path child => exact ⟨_, List.mem_cons_self, rfl⟩

/-- An opening of a trie's own root leads to what the trie stores, where no two
of the nodes of the trie and of the opening collide. -/
theorem lookup_of_opens {S : Set (PathNode D)} (free : Set.InjOn hash S)
    {nodes : List (PathNode D)} {key : List Bool} {v r : D} (opens : Opens hash nodes key v r)
    {t : Patricia D} (top : t.root hash = r) (shape : t.HasHeight key.length)
    (inTrie : ∀ n ∈ t.allNodes hash, n ∈ S) (inList : ∀ n ∈ nodes, n ∈ S) :
    t.lookup key = some v := by
  induction opens generalizing t with
  | leaf v =>
      cases t with
      | leaf w => simpa [lookup, root] using top
      | binary l r => simp [HasHeight] at shape
      | edge path child =>
          simp only [HasHeight, List.length_nil, Nat.le_zero, List.length_eq_zero_iff] at shape
          exact absurd shape.2.1 shape.1
  | @binary nodes key v left right b below ih =>
      have listed := inList _ List.mem_cons_self
      have inRest : ∀ n ∈ nodes, n ∈ S := fun n hn => inList n (List.mem_cons_of_mem _ hn)
      cases t with
      | leaf w => simp at shape
      | edge path child =>
          have same := free (inTrie _ List.mem_cons_self) listed top
          simp at same
      | binary l r =>
          have same := free (inTrie _ List.mem_cons_self) listed top
          simp only [PathNode.binary.injEq] at same
          obtain ⟨heightL, heightR⟩ := hasHeight_binary.mp shape
          cases b with
          | false =>
              refine ih same.1 heightL (fun n hn => inTrie n ?_) inRest
              exact List.mem_cons_of_mem _ (List.mem_append_left _ hn)
          | true =>
              refine ih same.2 heightR (fun n hn => inTrie n ?_) inRest
              exact List.mem_cons_of_mem _ (List.mem_append_right _ hn)
  | @edge nodes key v child path nonempty below ih =>
      have listed := inList _ List.mem_cons_self
      cases t with
      | leaf w => simp [nonempty] at shape
      | binary l r =>
          have same := free (inTrie _ List.mem_cons_self) listed top
          simp at same
      | edge path' child' =>
          have same := free (inTrie _ List.mem_cons_self) listed top
          simp only [PathNode.edge.injEq] at same
          obtain ⟨sameChild, rfl⟩ := same
          rw [List.length_append] at shape
          obtain ⟨-, height⟩ := hasHeight_edge.mp shape
          simp only [lookup, List.prefix_append, if_true, List.drop_left]
          exact ih sameChild height (fun n hn => inTrie n (List.mem_cons_of_mem _ hn))
            fun n hn => inList n (List.mem_cons_of_mem _ hn)

/-- A key that is not stored leaves the trie inside an edge: the path's nodes
open the key down to that edge, which is listed last and whose own path the
rest of the key does not follow. The edge ends at a leaf or at another node. -/
theorem lookup_none_diverges {t : Patricia D} {key : List Bool} (shape : t.HasHeight key.length)
    (absent : t.lookup key = none) :
    ∃ front pre rest child path,
      t.pathNodes hash key = front ++ [.edge child path] ∧ key = pre ++ rest ∧
        Opens hash front pre (hash (.edge child path)) (t.root hash) ∧
        path ≠ [] ∧ path.length ≤ rest.length ∧ ¬ path <+: rest ∧
        (path.length = rest.length ∨ ∃ n ∈ t.allNodes hash, child = hash n) := by
  induction t generalizing key with
  | leaf w =>
      obtain rfl : key = [] := List.length_eq_zero_iff.mp shape
      simp [lookup] at absent
  | binary l r ihl ihr =>
      cases key with
      | nil => simp [HasHeight] at shape
      | cons b key =>
          obtain ⟨heightL, heightR⟩ := hasHeight_binary.mp shape
          have side : ∃ front pre rest child path,
              (if b then r.pathNodes hash key else l.pathNodes hash key) =
                front ++ [.edge child path] ∧ key = pre ++ rest ∧
              Opens hash front pre (hash (.edge child path))
                (if b then r.root hash else l.root hash) ∧
              path ≠ [] ∧ path.length ≤ rest.length ∧ ¬ path <+: rest ∧
              (path.length = rest.length ∨
                ∃ n ∈ l.allNodes hash ++ r.allNodes hash, child = hash n) := by
            cases b with
            | false =>
                obtain ⟨front, pre, rest, child, path, list, split, opens, ne, len, off, stop⟩ :=
                  ihl heightL (by simpa [lookup] using absent)
                refine ⟨front, pre, rest, child, path, list, split, opens, ne, len, off, ?_⟩
                exact stop.imp_right fun ⟨n, hn, e⟩ => ⟨n, List.mem_append_left _ hn, e⟩
            | true =>
                obtain ⟨front, pre, rest, child, path, list, split, opens, ne, len, off, stop⟩ :=
                  ihr heightR (by simpa [lookup] using absent)
                refine ⟨front, pre, rest, child, path, list, split, opens, ne, len, off, ?_⟩
                exact stop.imp_right fun ⟨n, hn, e⟩ => ⟨n, List.mem_append_right _ hn, e⟩
          obtain ⟨front, pre, rest, child, path, list, split, opens, ne, len, off, stop⟩ := side
          refine ⟨.binary (l.root hash) (r.root hash) :: front, b :: pre, rest, child, path,
            by simp [pathNodes, list], by simp [split], .binary b opens, ne, len, off, ?_⟩
          exact stop.imp_right fun ⟨n, hn, e⟩ => ⟨n, List.mem_cons_of_mem _ hn, e⟩
  | edge path child ih =>
      by_cases along : path <+: key
      · obtain ⟨tail, rfl⟩ := along
        rw [List.length_append] at shape
        obtain ⟨nonempty, height⟩ := hasHeight_edge.mp shape
        simp only [lookup, List.prefix_append, if_true, List.drop_left] at absent
        obtain ⟨front, pre, rest, c, p, list, split, opens, ne, len, off, stop⟩ := ih height absent
        refine ⟨.edge (child.root hash) path :: front, path ++ pre, rest, c, p,
          by simp [pathNodes, list], by simp [split], .edge nonempty opens, ne, len, off, ?_⟩
        exact stop.imp_right fun ⟨n, hn, e⟩ => ⟨n, List.mem_cons_of_mem _ hn, e⟩
      · -- The key leaves the trie here: this edge is the last node listed.
        obtain ⟨nonempty, fits, height⟩ := shape
        refine ⟨[], [], key, child.root hash, path, by simp [pathNodes, along], rfl, .leaf _,
          nonempty, fits, along, ?_⟩
        rcases Nat.eq_or_lt_of_le fits with all | more
        · exact .inl all
        · obtain ⟨n, hn, e⟩ := @root_eq_hash _ hash _ _ height (Nat.sub_pos_of_lt more)
          exact .inr ⟨n, List.mem_cons_of_mem _ hn, e⟩

end Patricia

/-! ### Possibly empty tries -/

section Store

variable {D : Type}

/-- The value stored at a key of a possibly empty trie. -/
def lookupIn (t : Option (Patricia D)) (key : List Bool) : Option D :=
  t.bind (·.lookup key)

theorem lookupIn_map {E : Type} (f : D → E) (t : Option (Patricia D)) (key : List Bool) :
    lookupIn (t.map (·.map f)) key = (lookupIn t key).map f := by
  cases t with
  | none => rfl
  | some t => simp [lookupIn]

variable (hash : PathNode D → D)

/-- The nodes on the path of a key in a possibly empty trie. -/
def pathIn (t : Option (Patricia D)) (key : List Bool) : List (PathNode D) :=
  t.elim [] (·.pathNodes hash key)

/-- Every node of a possibly empty trie. -/
def nodesIn (t : Option (Patricia D)) : List (PathNode D) :=
  t.elim [] (·.allNodes hash)

variable [Zero D]

/-- The digest of a possibly empty trie: an empty one has digest zero. -/
def rootOf : Option (Patricia D) → D
  | none => 0
  | some t => t.root hash

variable {hash}

/-- `Patricia.lookup_of_opens` for a possibly empty trie, where no node among
those involved has digest zero. -/
theorem lookupIn_of_opens {S : Set (PathNode D)} (free : Set.InjOn hash S)
    (nonzero : ∀ n ∈ S, hash n ≠ 0) {nodes : List (PathNode D)} {key : List Bool} {v : D}
    {t : Option (Patricia D)} (opens : Opens hash nodes key v (rootOf hash t))
    (long : 0 < key.length) (shape : ∀ u ∈ t, u.HasHeight key.length)
    (inTrie : ∀ n ∈ nodesIn hash t, n ∈ S) (inList : ∀ n ∈ nodes, n ∈ S) :
    lookupIn t key = some v := by
  cases t with
  | some u => exact u.lookup_of_opens free opens rfl (shape u rfl) inTrie inList
  | none =>
      -- Only a node of digest zero could open a nonempty key from the empty trie.
      exfalso
      generalize zero : rootOf hash none = r at opens
      cases opens with
      | leaf => simp at long
      | binary b below => exact nonzero _ (inList _ List.mem_cons_self) zero.symm
      | edge ne below => exact nonzero _ (inList _ List.mem_cons_self) zero.symm

end Store

end Beerus.Lib
