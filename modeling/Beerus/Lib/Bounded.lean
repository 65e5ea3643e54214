import Beerus.Lib.Memo

/-!
Maps of bounded size, as what caches are kept in.

A `Bounded` map holds at most so many entries. Looking an entry up may change
what is dropped next, but no entry; putting one in may drop others, but not the
one that is put. Which ones are dropped is left open. A family of bounded maps
does to what it holds what is done to `Caches`, except that entries vanish
(`held_put`).

`Lru` drops the entry that was used longest ago: its entries are a list, last
used first, of which those beyond the capacity are cut off.
-/

namespace Beerus.Lib

/-- A map of at most `capacity` entries. -/
structure Bounded (K V : Type) (capacity : Nat) where
  State : Type
  empty : State
  find : State → K → Option V
  /-- What a lookup leaves. -/
  touch : State → K → State
  put : State → K → V → State
  find_empty : ∀ k, find empty k = none
  find_touch : ∀ s k k', find (touch s k) k' = find s k'
  find_put_self : ∀ s k v, find (put s k v) k = some v
  find_put_of_ne : ∀ s k v k', k' ≠ k →
    find (put s k v) k' = none ∨ find (put s k v) k' = find s k'
  few : ∀ s (keys : List K), keys.Nodup → (∀ k ∈ keys, (find s k).isSome) →
    keys.length ≤ capacity

/-! ### A family of bounded maps -/

section Family

variable {C : Type} {Key Value : C → Type} {size : C → Nat}
  (stores : (c : C) → Bounded (Key c) (Value c) (size c))

/-- What a family holds. -/
def held (s : (c : C) → (stores c).State) : Caches Key Value := fun c k => (stores c).find (s c) k

theorem held_empty : held stores (fun c => (stores c).empty) = Caches.empty :=
  funext fun c => funext (stores c).find_empty

variable [DecidableEq C]

theorem held_touch (s : (c : C) → (stores c).State) (c : C) (k : Key c) :
    held stores (Function.update s c ((stores c).touch (s c) k)) = held stores s := by
  funext c' k'
  by_cases member : c' = c
  · subst member
    rw [held, Function.update_self]
    exact (stores c').find_touch (s c') k k'
  · rw [held, Function.update_of_ne member, held]

/-- Putting an entry in is putting it in the caches, where some vanish next. -/
theorem held_put [∀ c, DecidableEq (Key c)] (s : (c : C) → (stores c).State) (c : C)
    (k : Key c) (v : Value c) :
    ((held stores s).put c k v).Evicts
      (held stores (Function.update s c ((stores c).put (s c) k v))) := by
  intro c' k'
  by_cases member : c' = c
  · subst member
    rw [held, Caches.put, Function.update_self, Function.update_self]
    by_cases same : k' = k
    · subst same
      rw [Function.update_self]
      exact .inr ((stores c').find_put_self (s c') k' v)
    · rw [Function.update_of_ne same]
      exact (stores c').find_put_of_ne (s c') k v k' same
  · rw [held, Caches.put, Function.update_of_ne member, Function.update_of_ne member]
    exact .inr rfl

end Family

/-! ### The one used longest ago -/

/-- At most `capacity` entries, last used first. -/
structure Lru (K V : Type) (capacity : Nat) where
  map : AList fun _ : K => V
  size_le : map.entries.length ≤ capacity

namespace Lru

variable {K V : Type} {capacity : Nat}

theorem length_keys (map : AList fun _ : K => V) : map.keys.length = map.entries.length :=
  List.length_map _

variable [DecidableEq K]

/-- The first entries of a map. -/
def cut (n : Nat) (map : AList fun _ : K => V) : AList fun _ : K => V where
  entries := map.entries.take n
  nodupKeys := map.nodupKeys.sublist (List.take_sublist n map.entries)

theorem lookup_cut (n : Nat) (map : AList fun _ : K => V) (k : K) :
    (cut n map).lookup k = none ∨ (cut n map).lookup k = map.lookup k := by
  cases found : (cut n map).lookup k with
  | none => exact .inl rfl
  | some v =>
      have kept : map.lookup k = some v :=
        List.sublist_dlookup map.nodupKeys (List.take_sublist n map.entries) found
      exact .inr kept.symm

theorem length_insert {map : AList fun _ : K => V} {k : K} (here : k ∈ map) (v : V) :
    (map.insert k v).entries.length = map.entries.length := by
  have room : 0 < map.keys.length := List.length_pos_of_mem (AList.mem_keys.mp here)
  have others : (map.erase k).entries.length = map.keys.length - 1 := by
    rw [← length_keys, AList.keys_erase, List.length_erase_of_mem (AList.mem_keys.mp here)]
  calc (map.insert k v).entries.length
      = (map.erase k).entries.length + 1 := by rw [AList.entries_insert]; rfl
    _ = map.keys.length := by rw [others, Nat.sub_add_cancel room]
    _ = map.entries.length := length_keys map

/-- Nothing has been used. -/
def empty : Lru K V capacity := ⟨∅, Nat.zero_le _⟩

/-- `get` uses the entry that it finds. -/
def touch (s : Lru K V capacity) (k : K) : Lru K V capacity :=
  match found : s.map.lookup k with
  | some v => ⟨s.map.insert k v, by
      rw [length_insert (AList.lookup_isSome.mp (found ▸ rfl))]
      exact s.size_le⟩
  | none => s

/-- `put` uses the entry that it puts in, and drops what does not fit. -/
def put (s : Lru K V capacity) (k : K) (v : V) : Lru K V capacity :=
  ⟨cut capacity (s.map.insert k v), List.length_take_le _ _⟩

theorem lookup_touch (s : Lru K V capacity) (k k' : K) :
    (s.touch k).map.lookup k' = s.map.lookup k' := by
  unfold touch
  split
  · rename_i v found
    by_cases same : k' = k
    · subst same
      rw [AList.lookup_insert, found]
    · exact AList.lookup_insert_ne same
  · rfl

theorem lookup_put_self (room : 0 < capacity) (s : Lru K V capacity) (k : K) (v : V) :
    (s.put k v).map.lookup k = some v := by
  have first : (s.put k v).map.entries =
      ⟨k, v⟩ :: (List.kerase k s.map.entries).take (capacity - 1) := by
    change (s.map.insert k v).entries.take capacity = _
    rw [AList.entries_insert, List.take_cons room]
  change List.dlookup k (s.put k v).map.entries = some v
  rw [first, List.dlookup_cons_eq]

theorem lookup_put_of_ne (s : Lru K V capacity) (k : K) (v : V) (k' : K) (other : k' ≠ k) :
    (s.put k v).map.lookup k' = none ∨ (s.put k v).map.lookup k' = s.map.lookup k' := by
  have kept : (s.map.insert k v).lookup k' = s.map.lookup k' := AList.lookup_insert_ne other
  rcases lookup_cut capacity (s.map.insert k v) k' with gone | here
  · exact .inl gone
  · exact .inr (here.trans kept)

theorem length_found (s : Lru K V capacity) (keys : List K) (nodup : keys.Nodup)
    (found : ∀ k ∈ keys, (s.map.lookup k).isSome) : keys.length ≤ capacity := by
  have held : keys ⊆ s.map.keys := by
    intro k mem
    exact AList.mem_keys.mp (AList.lookup_isSome.mp (found k mem))
  calc keys.length
      ≤ s.map.keys.length := (List.subperm_of_subset nodup held).length_le
    _ = s.map.entries.length := length_keys s.map
    _ ≤ capacity := s.size_le

/-- It is a bounded map, if there is room for one entry. -/
def bounded (room : 0 < capacity) : Bounded K V capacity where
  State := Lru K V capacity
  empty := empty
  find s k := s.map.lookup k
  touch := touch
  put := put
  find_empty := AList.lookup_empty
  find_touch := lookup_touch
  find_put_self := lookup_put_self room
  find_put_of_ne := lookup_put_of_ne
  few := length_found

end Lru

end Beerus.Lib
