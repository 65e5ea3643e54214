import Beerus.Exe.Cache

/-!
The read caches are transparent.

Any number of `CachedState` instances, each for its own block, share the three
caches. As long as the wrapped readers answer as one function of the block
hash's number and the arguments whenever they answer at all, every cached read
returns that function's value, in every interleaving.
-/

namespace Beerus

open Beerus.Lib

variable {ContractClass ι : Type}

/-- A reader seen from outside: each method is one action. -/
def wrapped : StateReader (StateCall ContractClass)
    (fun call => Except (Fault StateError) call.Result) ContractClass :=
  fun call => .act call .done

/-- What readers return as a function of the block hash's number. -/
structure Committed (ContractClass : Type) where
  storage : Nat → PatriciaKey → PatriciaKey → StarkFelt
  classHash : Nat → PatriciaKey → StarkFelt
  contractClass : Nat → StarkFelt → ContractClass

namespace Committed

/-- The value behind an entry. -/
def value (committed : Committed ContractClass) (block : Nat) :
    (c : CacheKind) → c.Args → c.Value ContractClass
  | .storage, (contractAddress, storageKey) => committed.storage block contractAddress storageKey
  | .classHash, contractAddress => committed.classHash block contractAddress
  | .contractClass, hash => committed.contractClass block hash

/-- The result of a cached method is the committed one. -/
def Agrees (committed : Committed ContractClass) (block : Nat) :
    (call : StateCall ContractClass) → call.Result → Prop
  | .getStorageAt contractAddress storageKey, v =>
      v = committed.storage block contractAddress storageKey
  | .getClassHashAt contractAddress, v => v = committed.classHash block contractAddress
  | .getCompiledContractClass hash, v => v = committed.contractClass block hash
  | _, _ => True

/-- An entry holds what is committed for every read that would look it up. -/
def Good (crates : Crates) (committed : Committed ContractClass) (c : CacheKind) (k : c.Key)
    (v : c.Value ContractClass) : Prop :=
  ∀ h args, c.key crates h args = .ok k → v = committed.value h.number c args

end Committed

/-- Cached readers for the blocks with the given hashes. -/
def cachedReaders (crates : Crates) (blockHash : ι → Felt)
    (answers : ι → (call : StateCall ContractClass) →
      Except (Fault StateError) call.Result → Prop) :
    System ι (ReadCaches ContractClass) (CachedOp (StateCall ContractClass) ContractClass)
      (CacheOp.Answer fun call => Except (Fault StateError) call.Result)
      (StateCall ContractClass) (Fault StateError) StateCall.Result :=
  memoSystem (fun i call => CachedState crates (blockHash i) wrapped call) answers

/-- Every method of a cached reader returns what is committed where the wrapped
one does, and puts nothing in where it fails. -/
theorem safe_cachedState {O : Type} {R : O → Type} {crates : Crates} {blockHash : Felt}
    {committed : Committed ContractClass} {answers : ι → (op : O) → R op → Prop}
    {seen : Set (CacheEvent ι CacheKind.Key (CacheKind.Value ContractClass) O R)} {i : ι}
    {inner : StateReader O R ContractClass} {call : StateCall ContractClass}
    (yields : (inner call).Yields (answers i) fun result =>
      ∀ v, result = .ok v → committed.Agrees blockHash.number call v) :
    (CachedState crates blockHash inner call).Safe i (May (committed.Good crates) answers seen)
      (Owes (committed.Good crates) (call.isWrite = true))
      (fun past result => (∀ v, result = .ok v → committed.Agrees blockHash.number call v) ∧
        ∀ e, result = .error e → NoSets past) [] := by
  -- A read through a cache: its value is good, and so what this very read asks for.
  have through : ∀ (c : CacheKind) (args : c.Args) {read : Prog O R _ (c.Value ContractClass)}
      (loud : ¬ call.isWrite = true),
      read.Yields (answers i) (fun result => ∀ v, result = .ok v →
        v = committed.value blockHash.number c args) →
      (memoised c (c.key crates blockHash args) read.embed).Safe i
        (May (committed.Good crates) answers seen)
        (Owes (committed.Good crates) (call.isWrite = true))
        (fun past result => (∀ v, result = .ok v →
          v = committed.value blockHash.number c args) ∧
          ∀ e, result = .error e → NoSets past) [] := by
    intro c args read loud yields
    refine (safe_memoised loud fun past quiet => (safe_embed yields quiet).weaken ?_).weaken ?_
    · rintro past result ⟨value, quiet⟩
      refine ⟨?_, quiet⟩
      intro v ok k here h args' there
      obtain ⟨block, same⟩ := CacheKind.key_inj there here
      rw [value v ok, block, same]
    · rintro past result ⟨value, quiet⟩
      refine ⟨?_, quiet⟩
      intro v ok
      obtain ⟨k, here⟩ := CacheKind.key_ok crates blockHash c args
      exact value v ok k here _ _ here
  cases call with
  | getStorageAt contractAddress storageKey =>
      exact through .storage (contractAddress, storageKey) nofun yields
  | getClassHashAt contractAddress => exact through .classHash contractAddress nofun yields
  | getCompiledContractClass classHash => exact through .contractClass classHash nofun yields
  | _ => exact (safe_embed yields noSets_nil).weaken fun _ _ done => ⟨done.1, fun _ _ => done.2⟩

/-- A configuration in which the caches cannot be told from the wrapped readers. -/
structure Transparent (crates : Crates) (blockHash : ι → Felt)
    (answers : ι → (call : StateCall ContractClass) → Except (Fault StateError) call.Result → Prop)
    (committed : Committed ContractClass)
    (c : Config ι (ReadCaches ContractClass) (CachedOp (StateCall ContractClass) ContractClass)
      (CacheOp.Answer fun call => Except (Fault StateError) call.Result)
      (StateCall ContractClass) (Fault StateError) StateCall.Result) : Prop where
  /-- Every read that has returned a value has returned the uncached one. -/
  reads : ∀ f ∈ c.finished, ∀ v, f.result = .ok v →
    committed.Agrees (blockHash f.thread).number f.job v
  /-- No action of a read that has failed has changed a cache. -/
  failures : ∀ f ∈ c.finished, ∀ e, f.result = .error e → ∀ event ∈ f.past, ∀ after,
    cacheExec answers event.thread event.op event.answer event.before after →
      after = event.before
  /-- No action of a `set_*` call changes a cache. -/
  writes : ∀ i run, c.threads i = some run → run.job.isWrite = true →
    ∀ op next answer after, run.rest = .act op next →
      cacheExec answers i op answer c.shared after → after = c.shared
  /-- Different reads have different entries. -/
  keys : ∀ (kind : CacheKind) h h' args args' k, kind.key crates h args = .ok k →
    kind.key crates h' args' = .ok k → h.number = h'.number ∧ args = args'

/-- Every configuration of every run is one. -/
theorem cachedState_transparent [DecidableEq ι] {crates : Crates} {blockHash : ι → Felt}
    {answers : ι → (call : StateCall ContractClass) → Except (Fault StateError) call.Result → Prop}
    {committed : Committed ContractClass}
    (consistent : ∀ i call v, answers i call (.ok v) → committed.Agrees (blockHash i).number call v)
    {c : Config ι (ReadCaches ContractClass) (CachedOp (StateCall ContractClass) ContractClass)
      (CacheOp.Answer fun call => Except (Fault StateError) call.Result)
      (StateCall ContractClass) (Fault StateError) StateCall.Result}
    (reach : (cachedReaders crates blockHash answers).Reach Caches.empty c) :
    Transparent crates blockHash answers committed c := by
  have safe := fun i call => @safe_cachedState _ _ _ _ crates (blockHash i) committed answers
    {e | e ∈ c.trace} i wrapped call fun answer answered v ok =>
      consistent i call v (ok ▸ answered)
  obtain ⟨-, threads, finished, -⟩ := memo_keeps safe reach fun _ mem => mem
  constructor
  case reads => exact fun f mem => (finished f mem).1
  case failures =>
    intro f mem e failed event past after does
    exact cacheExec_of_not_isSet does ((finished f mem).2 e failed event past)
  case writes =>
    intro i run here write op next answer after at_op does
    have safe := threads i run here
    rw [at_op] at safe
    exact cacheExec_of_not_isSet does (safe.1.2 write)
  case keys => exact fun kind h h' args args' k => CacheKind.key_inj

/-- A reader that finds `0x2a` in every slot and fails on everything else. -/
def sampleReader : (call : StateCall Unit) → Except (Fault StateError) call.Result
  | .getStorageAt _ _ => .ok (.ofNat 0x2a)
  | _ => Res.panic

/-- What it returns, as a function of the block. -/
def sampleCommitted : Committed Unit := ⟨fun _ _ _ => .ofNat 0x2a, fun _ _ => 0, fun _ _ => ()⟩

/-- One block hash in two spellings. -/
def sampleSpelling (upper : Bool) : Felt :=
  if upper then ⟨"0xAB".toList, rfl⟩ else ⟨"0xab".toList, rfl⟩

theorem sampleSpelling_transparent :
    ∃ c : Config Bool (ReadCaches Unit) (CachedOp (StateCall Unit) Unit)
        (CacheOp.Answer fun call => Except (Fault StateError) call.Result)
        (StateCall Unit) (Fault StateError) StateCall.Result,
      -- The first read takes three actions, the second one finds the entry.
      c.trace.length = 4 ∧ c.finished.map Finished.thread = [true, false] ∧
        Transparent (Crates.ofTables [] []) sampleSpelling
          (fun _ call answer => answer = sampleReader call) sampleCommitted c := by
  have does := @cacheRun_does CacheKind CacheKind.Key (CacheKind.Value Unit) (StateCall Unit)
    (fun call => Except (Fault StateError) call.Result) Bool _ _
    (fun _ call answer => answer = sampleReader call)
  have first := (cachedReaders (Crates.ofTables [] []) sampleSpelling
    fun _ call answer => answer = sampleReader call).reach_first Caches.empty false
      (.getStorageAt ⟨0, by decide⟩ ⟨0, by decide⟩) (cacheRun sampleReader)
      (fun e _ => does (fun _ => rfl) e.op e.before) rfl
  have second := first.solo true (.getStorageAt ⟨0, by decide⟩ ⟨0, by decide⟩) rfl
    (cacheRun sampleReader)
      (fun e _ => does (fun _ => rfl) e.op e.before) rfl
  refine ⟨_, ?_, rfl, cachedState_transparent ?_ second⟩
  · decide +kernel
  · intro i call v answered
    cases call with
    | getStorageAt => exact (Except.ok.inj answered)
    | _ => exact nomatch answered

end Beerus
