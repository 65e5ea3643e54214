import Beerus.Lib.Handler

/-!
Read-through caches that threads share.

A family of caches holds, for each of its members, values under keys. Threads
look entries up and put entries in as single atomic actions and perform the
actions of an inner program in between; entries may vanish at any time.

`memoised` is the read-through pattern: look up, else read and put. Whatever is
`good` of every value that the reads return stays true of every value that is
returned or stored, however the threads interleave (`memo_keeps` with
`safe_memoised`): two threads may miss together and overwrite each other, but
only with good values.
-/

namespace Beerus.Lib

/-! ### A family of caches -/

/-- What a family of caches holds. -/
abbrev Caches {C : Type} (Key Value : C → Type) := (c : C) → Key c → Option (Value c)

variable {C : Type} {Key Value : C → Type}

namespace Caches

/-- Nothing is held. -/
def empty : Caches Key Value := fun _ _ => none

/-- The caches with one entry put in. -/
def put [DecidableEq C] [∀ c, DecidableEq (Key c)] (s : Caches Key Value) (c : C) (k : Key c)
    (v : Value c) : Caches Key Value :=
  Function.update s c (Function.update (s c) k (some v))

/-- Some entries have vanished. -/
def Evicts (s s' : Caches Key Value) : Prop := ∀ c k, s' c k = none ∨ s' c k = s c k

/-- Every entry is good. -/
def Holds (good : (c : C) → Key c → Value c → Prop) (s : Caches Key Value) : Prop :=
  ∀ c k v, s c k = some v → good c k v

variable {good : (c : C) → Key c → Value c → Prop} {s s' : Caches Key Value}

theorem holds_empty : Holds good (empty : Caches Key Value) := nofun

theorem Holds.put [DecidableEq C] [∀ c, DecidableEq (Key c)] (holds : Holds good s) {c : C}
    {k : Key c} {v : Value c} (new : good c k v) : Holds good (s.put c k v) := by
  intro c' k' v' entry
  by_cases member : c' = c
  · subst member
    rw [Caches.put, Function.update_self] at entry
    by_cases same : k' = k
    · subst same
      rw [Function.update_self] at entry
      obtain rfl : v = v' := Option.some.inj entry
      exact new
    · rw [Function.update_of_ne same] at entry
      exact holds c' k' v' entry
  · rw [Caches.put, Function.update_of_ne member] at entry
    exact holds c' k' v' entry

theorem Holds.evicts (holds : Holds good s) (evicts : Evicts s s') : Holds good s' := by
  intro c k v entry
  rcases evicts c k with gone | kept
  · rw [gone] at entry
    exact nomatch entry
  · exact holds c k v (kept ▸ entry)

end Caches

/-! ### Programs that use them -/

/-- An action on the caches, or one of the inner program. -/
inductive CacheOp {C : Type} (Key Value : C → Type) (O : Type) : Type where
  | get (c : C) (k : Key c)
  | set (c : C) (k : Key c) (v : Value c)
  | inner (op : O)

namespace CacheOp

variable {O : Type}

/-- `get` answers with the entry, `set` with the entry it replaces. -/
def Answer (R : O → Type) : CacheOp Key Value O → Type
  | .get c _ => Option (Value c)
  | .set c _ _ => Option (Value c)
  | .inner op => R op

/-- Whether an action puts an entry in. -/
def isSet : CacheOp Key Value O → Prop
  | .set _ _ _ => True
  | _ => False

/-- What is owed before an action: only good values are put in. -/
def Meets (good : (c : C) → Key c → Value c → Prop) : CacheOp Key Value O → Prop
  | .set c k v => good c k v
  | _ => True

end CacheOp

variable {O : Type} {R : O → Type} {ε α : Type}

/-- A program over the inner actions, among programs that use the caches. -/
def Prog.embed : Prog O R ε α →
    Prog (CacheOp Key Value O) (CacheOp.Answer R) ε α
  | .done result => .done result
  | .act op next => .act (.inner op) fun answer => (next answer).embed

/-- Look an entry up. -/
def lookUp (c : C) (k : Key c) :
    Prog (CacheOp Key Value O) (CacheOp.Answer R) ε (Option (Value c)) := .act (.get c k) pure

/-- Put an entry in; what it replaces is the result. -/
def putIn (c : C) (k : Key c) (v : Value c) :
    Prog (CacheOp Key Value O) (CacheOp.Answer R) ε (Option (Value c)) := .act (.set c k v) pure

/-- The read-through pattern: look up, else read and put. -/
def memoised (c : C) (key : Except ε (Key c))
    (read : Prog (CacheOp Key Value O) (CacheOp.Answer R) ε (Value c)) :
    Prog (CacheOp Key Value O) (CacheOp.Answer R) ε (Value c) := do
  let k ← key
  match ← lookUp c k with
  | some ret => pure ret
  | none =>
      let ret ← read
      let k ← key
      let _ ← putIn c k ret
      pure ret

/-! ### What threads may see -/

section Events

variable {ι : Type}

/-- An event on shared caches. -/
abbrev CacheEvent (ι : Type) {C : Type} (Key Value : C → Type) (O : Type) (R : O → Type) :=
  Prog.Event ι (Caches Key Value) (CacheOp Key Value O) (CacheOp.Answer R)

/-- What an event shows where all entries are good and the inner actions answer
as `answers` allows. -/
def Shows (good : (c : C) → Key c → Value c → Prop) (answers : ι → (op : O) → R op → Prop) :
    CacheEvent ι Key Value O R → Prop
  | ⟨_, _, .get c k, answer⟩ => ∀ v, answer = some v → good c k v
  | ⟨_, _, .set _ _ _, _⟩ => True
  | ⟨i, _, .inner op, answer⟩ => answers i op answer

/-- No event of the list put an entry in. -/
def NoSets (past : List (CacheEvent ι Key Value O R)) : Prop := ∀ e ∈ past, ¬ e.op.isSet

theorem noSets_nil : NoSets ([] : List (CacheEvent ι Key Value O R)) := nofun

variable {good : (c : C) → Key c → Value c → Prop} {answers : ι → (op : O) → R op → Prop}
  {seen : Set (CacheEvent ι Key Value O R)} {thread : ι} {quiet : Prop}

/-- What events of the run show. -/
def May (good : (c : C) → Key c → Value c → Prop) (answers : ι → (op : O) → R op → Prop)
    (seen : Set (CacheEvent ι Key Value O R)) (e : CacheEvent ι Key Value O R) : Prop :=
  e ∈ seen ∧ Shows good answers e

/-- What is owed before an action: only good values are put in, and none at all
in a quiet job. -/
def Owes (good : (c : C) → Key c → Value c → Prop) (quiet : Prop)
    (_ : List (CacheEvent ι Key Value O R)) (op : CacheOp Key Value O) : Prop :=
  op.Meets good ∧ (quiet → ¬ op.isSet)

theorem owes_get {past : List (CacheEvent ι Key Value O R)} {c : C} {k : Key c} :
    Owes good quiet past (.get c k) :=
  ⟨trivial, fun _ => id⟩

theorem owes_inner {past : List (CacheEvent ι Key Value O R)} {op : O} :
    Owes good quiet past (.inner op) :=
  ⟨trivial, fun _ => id⟩

/-- An embedded program yields what it yields alone, and puts nothing in. -/
theorem safe_embed {p : Prog O R ε α} {post : Except ε α → Prop}
    {past : List (CacheEvent ι Key Value O R)} (yields : p.Yields (answers thread) post)
    (noSets : NoSets past) :
    (p.embed : Prog (CacheOp Key Value O) _ ε α).Safe thread (May good answers seen)
      (Owes good quiet) (fun past result => post result ∧ NoSets past) past := by
  induction p generalizing past with
  | done result => exact ⟨yields, noSets⟩
  | act op next ih =>
      refine ⟨owes_inner, fun before answer shown => ih answer (yields answer shown.2) ?_⟩
      intro event mem
      rcases List.mem_cons.mp mem with rfl | mem
      · exact id
      · exact noSets event mem

/-- What a read through one of the caches promises: its value is good under its
key, and where it fails it has put nothing in. -/
def Reads (good : (c : C) → Key c → Value c → Prop) (c : C) (key : Except ε (Key c))
    (past : List (CacheEvent ι Key Value O R)) (result : Except ε (Value c)) : Prop :=
  (∀ v, result = .ok v → ∀ k, key = .ok k → good c k v) ∧
    (∀ e, result = .error e → NoSets past)

/-- Read-through keeps what its reads promise. -/
theorem safe_memoised (loud : ¬ quiet) {c : C} {key : Except ε (Key c)}
    {read : Prog (CacheOp Key Value O) (CacheOp.Answer R) ε (Value c)}
    (safe : ∀ past, NoSets past → read.Safe thread (May good answers seen) (Owes good quiet)
      (fun past result => (∀ v, result = .ok v → ∀ k, key = .ok k → good c k v) ∧ NoSets past)
      past) :
    (memoised c key read).Safe thread (May good answers seen) (Owes good quiet)
      (Reads good c key) [] := by
  cases key with
  | error e => exact ⟨nofun, fun _ _ => noSets_nil⟩
  | ok k =>
      refine ⟨owes_get, fun before answer shown => ?_⟩
      cases answer with
      | some ret =>
          refine ⟨?_, nofun⟩
          rintro _ ⟨⟩ _ ⟨⟩
          exact shown.2 ret rfl
      | none =>
          have missed : NoSets
              [(⟨thread, before, .get c k, none⟩ : CacheEvent ι Key Value O R)] := by
            intro event mem
            obtain rfl := List.mem_singleton.mp mem
            exact id
          refine (Prog.safe_bind (p := read)).mpr ((safe _ missed).weaken ?_)
          rintro past result ⟨value, noSets⟩
          cases result with
          | error e => exact ⟨value, fun _ _ => noSets⟩
          | ok ret =>
              have new := value ret rfl k rfl
              refine ⟨⟨new, fun silent => absurd silent loud⟩, fun _ _ _ => ⟨?_, nofun⟩⟩
              rintro _ ⟨⟩ _ ⟨⟩
              exact new

/-- An embedded program yields what it yields alone, whatever has happened
before. -/
theorem safe_embed_from {p : Prog O R ε α} {post : Except ε α → Prop}
    {past : List (CacheEvent ι Key Value O R)} (yields : p.Yields (answers thread) post) :
    (p.embed : Prog (CacheOp Key Value O) _ ε α).Safe thread (May good answers seen)
      (Owes good quiet) (fun _ result => post result) past := by
  induction p generalizing past with
  | done result => exact yields
  | act op next ih =>
      exact ⟨owes_inner, fun before answer shown => ih answer (yields answer shown.2)⟩

/-- Read-through ends as a read does or with a good value, whatever has happened
before. -/
theorem safe_memoised_from (loud : ¬ quiet) {c : C} {key : Except ε (Key c)}
    {read : Prog (CacheOp Key Value O) (CacheOp.Answer R) ε (Value c)}
    {post : Except ε (Value c) → Prop} (fails : ∀ e, key = .error e → post (.error e))
    (hit : ∀ k v, key = .ok k → good c k v → post (.ok v))
    (safe : ∀ past, read.Safe thread (May good answers seen) (Owes good quiet)
      (fun _ result => post result ∧ ∀ v, result = .ok v → ∀ k, key = .ok k → good c k v) past)
    (past : List (CacheEvent ι Key Value O R)) :
    (memoised c key read).Safe thread (May good answers seen) (Owes good quiet)
      (fun _ result => post result) past := by
  cases key with
  | error e => exact fails e rfl
  | ok k =>
      refine ⟨owes_get, fun before answer shown => ?_⟩
      cases answer with
      | some ret => exact hit k ret rfl (shown.2 ret rfl)
      | none =>
          refine (Prog.safe_bind (p := read)).mpr ((safe _).weaken ?_)
          rintro past result ⟨ends, new⟩
          cases result with
          | error e => exact ends
          | ok ret =>
              have stored := new ret rfl k rfl
              exact ⟨⟨stored, fun silent => absurd silent loud⟩, fun _ _ _ => ends⟩

end Events

/-! ### What programs perform -/

theorem performs_embed {these : CacheOp Key Value O → Prop} {p : Prog O R ε α}
    (performs : p.Performs fun op => these (.inner op)) :
    (p.embed : Prog (CacheOp Key Value O) (CacheOp.Answer R) ε α).Performs these := by
  induction p with
  | done result => trivial
  | act op next ih => exact ⟨performs.1, fun answer => ih answer (performs.2 answer)⟩

/-- Read-through performs what a read does, and looks at the one entry. -/
theorem performs_memoised {these : CacheOp Key Value O → Prop} {c : C} {key : Except ε (Key c)}
    {read : Prog (CacheOp Key Value O) (CacheOp.Answer R) ε (Value c)}
    (gets : ∀ k, key = .ok k → these (.get c k)) (sets : ∀ k v, key = .ok k → these (.set c k v))
    (reads : read.Performs these) : (memoised c key read).Performs these := by
  cases key with
  | error e => trivial
  | ok k =>
      refine ⟨gets k rfl, fun answer => ?_⟩
      cases answer with
      | some ret => trivial
      | none => exact reads.bind fun ret => ⟨sets k ret rfl, fun _ => trivial⟩

/-! ### The system -/

section System

variable {ι J : Type} {α : J → Type} [DecidableEq C] [∀ c, DecidableEq (Key c)]

/-- What actions do: lookups answer with the entry, puts replace it, inner
actions leave the caches alone. -/
def cacheExec (answers : ι → (op : O) → R op → Prop) :
    ι → (op : CacheOp Key Value O) → op.Answer R → Caches Key Value → Caches Key Value → Prop
  | _, .get c k, answer, s, s' => answer = s c k ∧ s' = s
  | _, .set c k v, answer, s, s' => answer = s c k ∧ s' = s.put c k v
  | i, .inner op, answer, s, s' => answers i op answer ∧ s' = s

/-- Threads that share the caches; entries vanish at any time. -/
def memoSystem
    (code : ι → (j : J) → Prog (CacheOp Key Value O) (CacheOp.Answer R) ε (α j))
    (answers : ι → (op : O) → R op → Prop) :
    System ι (Caches Key Value) (CacheOp Key Value O) (CacheOp.Answer R) J ε α where
  code := code
  exec := cacheExec answers
  env := Caches.Evicts
  release _ s := s

/-- The same as a function, where inner actions are answered by one. -/
def cacheRun (answer : (op : O) → R op) :
    (op : CacheOp Key Value O) → Caches Key Value → op.Answer R × Caches Key Value
  | .get c k, s => (s c k, s)
  | .set c k v, s => (s c k, s.put c k v)
  | .inner op, s => (answer op, s)

theorem cacheRun_does {answers : ι → (op : O) → R op → Prop} {i : ι} {answer : (op : O) → R op}
    (inner : ∀ op, answers i op (answer op)) (op : CacheOp Key Value O) (s : Caches Key Value) :
    cacheExec answers i op (cacheRun answer op s).1 s (cacheRun answer op s).2 := by
  cases op with
  | get c k => exact ⟨rfl, rfl⟩
  | set c k v => exact ⟨rfl, rfl⟩
  | inner op => exact ⟨inner op, rfl⟩

theorem cacheExec_of_not_isSet {answers : ι → (op : O) → R op → Prop} {i : ι}
    {op : CacheOp Key Value O} {answer : op.Answer R} {s s' : Caches Key Value}
    (does : cacheExec answers i op answer s s') (quiet : ¬ op.isSet) : s' = s := by
  cases op with
  | get c k => exact does.2
  | set c k v => exact absurd trivial quiet
  | inner op => exact does.2

variable [DecidableEq ι]
  {code : ι → (j : J) → Prog (CacheOp Key Value O) (CacheOp.Answer R) ε (α j)}
  {answers : ι → (op : O) → R op → Prop} {good : (c : C) → Key c → Value c → Prop}
  {quiet : J → Prop} {post : ι → (j : J) → List (CacheEvent ι Key Value O R) →
    Except ε (α j) → Prop}

/-- In every run from empty caches, all entries are good and all jobs keep their
promises. -/
theorem memo_keeps {seen : Set (CacheEvent ι Key Value O R)}
    (safe : ∀ i j, (code i j).Safe i (May good answers seen) (Owes good (quiet j)) (post i j) [])
    {c : Config ι (Caches Key Value) (CacheOp Key Value O) (CacheOp.Answer R) J ε α}
    (reach : (memoSystem code answers).Reach Caches.empty c) (inside : ∀ e ∈ c.trace, e ∈ seen) :
    System.Keeps (Caches.Holds good) (May good answers seen) (fun _ j => Owes good (quiet j)) post
      c := by
  refine reach.keeps safe ?_ (fun _ _ => Caches.Holds.evicts) (fun _ _ => id) Caches.holds_empty
    inside
  intro i j past op answer s s' holds owed does mem
  cases op with
  | get c k =>
      obtain ⟨rfl, rfl⟩ := does
      exact ⟨⟨mem, fun v entry => holds c k v entry⟩, holds⟩
  | set c k v =>
      obtain ⟨rfl, rfl⟩ := does
      exact ⟨⟨mem, trivial⟩, holds.put owed.1⟩
  | inner op =>
      obtain ⟨answered, rfl⟩ := does
      exact ⟨⟨mem, answered⟩, holds⟩

end System

end Beerus.Lib
