import Beerus.Lib.Bounded
import Beerus.Lib.Refine
import Beerus.Service.Provenance

/-!
The service on the caches as `src/exe/cache.rs` keeps them: three `LruCache`s of
their sizes, behind a lock each.

Nothing is removed from them but what gives way to another entry, when one is
put in. `bounded_service_refines` shows that the service of `Beerus.Service`,
whose entries vanish at any time, has all of their runs, so that what holds of
its runs holds of theirs.
-/

namespace Beerus

open Beerus.Lib

variable {ι GetClassResult ContractClass : Type}

/-- `SIZE` of the three modules. -/
def CacheKind.size : CacheKind → Nat
  | .storage => 1024
  | .classHash => 256
  | .contractClass => 256

/-- A `LruCache` for each of the three, whichever entries it drops. -/
abbrev Stores (ContractClass : Type) :=
  (c : CacheKind) → Bounded c.Key (c.Value ContractClass) c.size

/-- What the service's tasks share, with the caches in stores. -/
structure StoredService (ι : Type) (stores : Stores ContractClass) where
  server : Server ι
  caches : (c : CacheKind) → (stores c).State

namespace StoredService

variable {stores : Stores ContractClass}

/-- It starts with a head, and with nothing stored. -/
def initial (stores : Stores ContractClass) (head : State) : StoredService ι stores :=
  ⟨⟨head, ∅⟩, fun c => (stores c).empty⟩

/-- The service, whose caches hold what the stores do. -/
def view (s : StoredService ι stores) : Service ι ContractClass :=
  ⟨s.server, held stores s.caches⟩

theorem view_initial (head : State) :
    (initial stores head : StoredService ι stores).view = Service.initial head :=
  congrArg (Service.mk _) (held_empty stores)

end StoredService

/-- A configuration of the service on stores. -/
abbrev StoredConfig (ι GetClassResult : Type) (stores : Stores ContractClass) :=
  Config ι (StoredService ι stores) (ServiceOp ContractClass)
    (CacheOp.Answer (ServerOp.Answer GetClassResult)) ServiceJob (Fault JsonRpcError)
    ServiceJob.Result

variable [DecidableEq ι] {linked : Linked GetClassResult ContractClass}
  {world : World GetClassResult} {stores : Stores ContractClass}

/-- What the actions of a task do: `get` uses the entry, and `set` puts one in,
for which another may be dropped. -/
def storedExec (linked : Linked GetClassResult ContractClass) (world : World GetClassResult)
    (stores : Stores ContractClass) (i : ι) : (op : ServiceOp ContractClass) →
      CacheOp.Answer (ServerOp.Answer GetClassResult) op →
        StoredService ι stores → StoredService ι stores → Prop
  | .get c k, answer, s, s' => answer = (stores c).find (s.caches c) k ∧
      s' = { s with caches := Function.update s.caches c ((stores c).touch (s.caches c) k) }
  | .set c k v, answer, s, s' => answer = (stores c).find (s.caches c) k ∧
      s' = { s with caches := Function.update s.caches c ((stores c).put (s.caches c) k v) }
  | .inner op, answer, s, s' => world.Allows op answer ∧
      ∃ server, serverExec linked.verify i op answer s.server server ∧ s' = { s with server }

/-- What they do as a function, where the provider answers by one and the gateway
always alike. -/
def storedRun (provider : (op : ProxyOp) → op.Answer GetClassResult) (response : GatewayAnswer)
    (i : ι) : (op : ServiceOp ContractClass) → StoredService ι stores →
      CacheOp.Answer (ServerOp.Answer GetClassResult) op × StoredService ι stores
  | .get c k, s =>
      ((stores c).find (s.caches c) k,
        { s with caches := Function.update s.caches c ((stores c).touch (s.caches c) k) })
  | .set c k v, s =>
      ((stores c).find (s.caches c) k,
        { s with caches := Function.update s.caches c ((stores c).put (s.caches c) k v) })
  | .inner op, s =>
      let (answer, server) := serverRun provider response i op s.server
      (answer, { s with server })

theorem storedRun_does {provider : (op : ProxyOp) → op.Answer GetClassResult}
    {response : GatewayAnswer}
    (answers : ∀ op, ProxyOp.Answered linked.verify world.provider op (provider op))
    (responds : world.gateway response) (i : ι) {op : ServiceOp ContractClass}
    {s : StoredService ι stores} (enabled : ServiceOp.enabled s.view op = true) :
    storedExec linked world stores i op (storedRun provider response i op s).1 s
      (storedRun provider response i op s).2 := by
  cases op with
  | get => exact ⟨rfl, rfl⟩
  | set => exact ⟨rfl, rfl⟩
  | inner op =>
      obtain ⟨allowed, server, done, same⟩ := serviceRun_does answers responds i enabled
      obtain rfl : (serverRun provider response i op s.server).2 = server :=
        congrArg Service.server same
      exact ⟨allowed, _, done, rfl⟩

/-- The service on stores. -/
def storedSystem (linked : Linked GetClassResult ContractClass) (world : World GetClassResult)
    (stores : Stores ContractClass) :
    System ι (StoredService ι stores) (ServiceOp ContractClass)
      (CacheOp.Answer (ServerOp.Answer GetClassResult)) ServiceJob (Fault JsonRpcError)
      ServiceJob.Result where
  code _ job := job.code linked
  exec := storedExec linked world stores
  env _ _ := False
  release i s := { s with server := { s.server with readers := s.server.readers.erase i } }

/-- It does to what the stores hold what the service does to its caches, and
drops entries only when one is put in. -/
theorem storedSystem_refines :
    (storedSystem linked world stores).Refines (serviceSystem linked world)
      (StoredService.view (ι := ι)) where
  code _ _ := rfl
  exec i op answer s s' does := by
    cases op with
    | get c k =>
        obtain ⟨same, rfl⟩ := does
        refine ⟨s.view, ⟨same, rfl⟩, ?_⟩
        rw [StoredService.view, StoredService.view, held_touch]
    | set c k v =>
        obtain ⟨same, rfl⟩ := does
        refine ⟨{ s.view with caches := s.view.caches.put c k v }, ⟨same, rfl⟩, .single ?_⟩
        exact ⟨_, held_put stores s.caches c k v, rfl⟩
    | inner op =>
        obtain ⟨allowed, server, done, rfl⟩ := does
        exact ⟨_, ⟨allowed, server, done, rfl⟩, .refl⟩
  env _ _ moves := moves.elim
  release _ _ := rfl

/-- Every run on stores is a run of the service, with the same events, answers
and results, and with no more entries than each cache has room for. -/
theorem bounded_service_refines {head : State} {c : StoredConfig ι GetClassResult stores}
    (reach : (storedSystem linked world stores).Reach (.initial stores head) c) :
    (serviceSystem linked world).Reach (Service.initial head) (c.view StoredService.view) ∧
      ∀ (kind : CacheKind) (keys : List kind.Key), keys.Nodup →
        (∀ k ∈ keys, ((c.view StoredService.view).shared.caches kind k).isSome) →
          keys.length ≤ kind.size := by
  refine ⟨?_, fun kind keys nodup present => (stores kind).few _ keys nodup present⟩
  have viewed := storedSystem_refines.reach reach
  rwa [StoredService.view_initial] at viewed

/-! ### A sample -/

/-- The caches of the crate. -/
def lruStores : Stores ContractClass
  | .storage => Lru.bounded (by decide)
  | .classHash => Lru.bounded (by decide)
  | .contractClass => Lru.bounded (by decide)

abbrev sampleStored := @storedSystem Bool Unit Unit _ sampleLinked sampleWorld lruStores

theorem sampleStored_does {i : Bool} {p : List (Prog.Event Bool (StoredService Bool lruStores)
      (ServiceOp Unit) (CacheOp.Answer (ServerOp.Answer Unit)))}
    (enabled : p.all (fun e => ServiceOp.enabled e.before.view e.op) = true) :
    ∀ e ∈ p, sampleStored.exec i e.op
      (storedRun sampleProvider laterResponse i e.op e.before).1 e.before
      (storedRun sampleProvider laterResponse i e.op e.before).2 := by
  intro e mem
  refine storedRun_does (fun op => ?_) trivial i (List.all_eq_true.mp enabled e mem)
  cases op with
  | rpc call => trivial
  | verify => rfl

/-- A poll, then two calls that read the same value. -/
theorem sampleCalls_stored :
    ∃ c past past', sampleStored.Reach (.initial lruStores bootHead) c ∧
      ⟨true, .call sampleCall (.blockTag .latest), past, .ok [.ofNat 0x2a]⟩ ∈ c.finished ∧
      ⟨false, .call sampleCall (.blockTag .latest), past', .ok [.ofNat 0x2a]⟩ ∈ c.finished ∧
      sampleService.Reach (Service.initial bootHead) (c.view StoredService.view) ∧
      ∀ (kind : CacheKind) (keys : List kind.Key), keys.Nodup →
        (∀ k ∈ keys, ((c.view StoredService.view).shared.caches kind k).isSome) →
          keys.length ≤ kind.size := by
  have polled := sampleStored.reach_first (.initial lruStores bootHead) true (.server (.poll 1))
    (storedRun sampleProvider laterResponse true) (sampleStored_does (by decide +kernel)) rfl
  have called := polled.solo true (.call sampleCall (.blockTag .latest)) rfl
    (storedRun sampleProvider laterResponse true) (sampleStored_does (by decide +kernel))
    (show _ = .ok [.ofNat 0x2a] by decide +kernel)
  have again := called.solo false (.call sampleCall (.blockTag .latest)) rfl
    (storedRun sampleProvider laterResponse false) (sampleStored_does (by decide +kernel))
    (show _ = .ok [.ofNat 0x2a] by decide +kernel)
  exact ⟨_, _, _, again, List.mem_cons_of_mem _ List.mem_cons_self, List.mem_cons_self,
    bounded_service_refines again⟩

end Beerus
