import Mathlib

/-!
Programs as trees of atomic actions, alone and interleaved over shared state.

A `Prog` performs actions one at a time, chooses what to do next from each
answer, and ends with a value or a failure. Nothing is said of what an action
means until it is run: `eval` and `runIn` run one program alone, a `System` runs
any number of threads whose actions interleave in every order, with steps of
the environment and abandoned threads in between. `Advances` are the steps in
which threads under way go on by themselves.

`System.Reach.keeps` is the rule for invariants. `Safe` collects what a program
promises when it is answered as `may` says: every action meets `must`, and the
end meets `post`. Where `must` keeps an invariant of the shared state and the
invariant makes answers `may`, all of it holds in every reachable configuration.
`may` can also refer to the events of the run, through any set that contains
them.
-/

namespace Beerus.Lib

/-- A program over actions `O`, answered in `R`. -/
inductive Prog (O : Type) (R : O → Type) (ε α : Type) : Type where
  | done (result : Except ε α)
  | act (op : O) (next : R op → Prog O R ε α)

namespace Prog

variable {O : Type} {R : O → Type} {ε α β : Type}

/-- Sequencing; a failure ends the whole program. -/
def bind : Prog O R ε α → (α → Prog O R ε β) → Prog O R ε β
  | .done (.ok a), f => f a
  | .done (.error e), _ => .done (.error e)
  | .act op next, f => .act op fun answer => (next answer).bind f

instance : Monad (Prog O R ε) where
  pure a := .done (.ok a)
  bind := bind

instance : MonadLift (Except ε) (Prog O R ε) := ⟨.done⟩

@[simp] theorem pure_def (a : α) : (pure a : Prog O R ε α) = .done (.ok a) := rfl

@[simp] theorem lift_def (x : Except ε α) : (liftM x : Prog O R ε α) = .done x := rfl

@[simp] theorem ok_bind (a : α) (f : α → Prog O R ε β) :
    ((.done (.ok a) : Prog O R ε α) >>= f) = f a := rfl

@[simp] theorem error_bind (e : ε) (f : α → Prog O R ε β) :
    ((.done (.error e) : Prog O R ε α) >>= f) = .done (.error e) := rfl

theorem done_bind_done (x : Except ε α) (f : α → Except ε β) :
    ((.done x : Prog O R ε α) >>= fun a => .done (f a)) = .done (x >>= f) := by
  cases x <;> rfl

@[simp] theorem act_bind (op : O) (next : R op → Prog O R ε α) (f : α → Prog O R ε β) :
    (.act op next >>= f) = .act op fun answer => next answer >>= f := rfl

/-- A last action, whether a program fails or not. -/
def andFinally (op : O) : Prog O R ε α → Prog O R ε α
  | .done result => .act op fun _ => .done result
  | .act op' next => .act op' fun answer => (next answer).andFinally op

@[simp] theorem andFinally_done (op : O) (result : Except ε α) :
    (.done result : Prog O R ε α).andFinally op = .act op fun _ => .done result := rfl

@[simp] theorem andFinally_act (op op' : O) (next : R op' → Prog O R ε α) :
    (Prog.act op' next).andFinally op = .act op' fun answer => (next answer).andFinally op := rfl

/-! ### One program alone -/

/-- The result of a program whose actions are answered by a function. -/
def eval (answer : (op : O) → R op) : Prog O R ε α → Except ε α
  | .done result => result
  | .act op next => (next (answer op)).eval answer

@[simp] theorem eval_done (answer : (op : O) → R op) (result : Except ε α) :
    (.done result : Prog O R ε α).eval answer = result := rfl

@[simp] theorem eval_act (answer : (op : O) → R op) (op : O) (next : R op → Prog O R ε α) :
    (Prog.act op next).eval answer = (next (answer op)).eval answer := rfl

@[simp] theorem eval_pure (answer : (op : O) → R op) (a : α) :
    (pure a : Prog O R ε α).eval answer = .ok a := rfl

@[simp] theorem eval_bind (answer : (op : O) → R op) (p : Prog O R ε α) (f : α → Prog O R ε β) :
    (p >>= f).eval answer = p.eval answer >>= fun a => (f a).eval answer := by
  induction p with
  | done result => cases result <;> rfl
  | act op next ih => exact ih (answer op)

@[simp] theorem eval_andFinally (answer : (op : O) → R op) (op : O) (p : Prog O R ε α) :
    (p.andFinally op).eval answer = p.eval answer := by
  induction p with
  | done result => rfl
  | act op' next ih => exact ih (answer op')

/-- Whichever allowed answers a program gets, its result is as said. -/
def Yields (allowed : (op : O) → R op → Prop) (post : Except ε α → Prop) : Prog O R ε α → Prop
  | .done result => post result
  | .act op next => ∀ answer, allowed op answer → (next answer).Yields allowed post

theorem yields_trivial {allowed : (op : O) → R op → Prop} (p : Prog O R ε α) :
    p.Yields allowed fun _ => True := by
  induction p with
  | done result => trivial
  | act op next ih =>
      intro answer _
      exact ih answer

theorem Yields.weaken {allowed : (op : O) → R op → Prop} {post post' : Except ε α → Prop}
    (imp : ∀ result, post result → post' result) {p : Prog O R ε α}
    (yields : p.Yields allowed post) : p.Yields allowed post' := by
  induction p with
  | done result => exact imp result yields
  | act op next ih =>
      intro answer answered
      exact ih answer (yields answer answered)

/-- A sequence yields what its continuations yield. -/
theorem yields_bind {allowed : (op : O) → R op → Prop} {post : Except ε β → Prop}
    {p : Prog O R ε α} {f : α → Prog O R ε β} :
    (p >>= f).Yields allowed post ↔ p.Yields allowed fun result => match result with
      | .ok a => (f a).Yields allowed post
      | .error e => post (.error e) := by
  induction p with
  | done result => cases result <;> rfl
  | act op next ih =>
      exact forall_congr' fun answer => imp_congr_right fun _ => ih answer

/-- A last action leaves the result. -/
theorem Yields.andFinally {allowed : (op : O) → R op → Prop} {post : Except ε α → Prop}
    {p : Prog O R ε α} (yields : p.Yields allowed post) (op : O) :
    (p.andFinally op).Yields allowed post := by
  induction p with
  | done result =>
      intro _ _
      exact yields
  | act op' next ih =>
      intro answer answered
      exact ih answer (yields answer answered)

/-- A program can end with a result, where it gets allowed answers. -/
def Ends (allowed : (op : O) → R op → Prop) (result : Except ε α) : Prog O R ε α → Prop
  | .done result' => result' = result
  | .act op next => ∃ answer, allowed op answer ∧ (next answer).Ends allowed result

theorem Yields.of_ends {allowed : (op : O) → R op → Prop} {post : Except ε α → Prop}
    {result : Except ε α} {p : Prog O R ε α} (yields : p.Yields allowed post)
    (ends : p.Ends allowed result) : post result := by
  induction p with
  | done result' =>
      obtain rfl : result' = result := ends
      exact yields
  | act op next ih =>
      obtain ⟨answer, answered, rest⟩ := ends
      exact ih answer (yields answer answered) rest

/-- It can end as it does where a function answers. -/
theorem ends_eval {allowed : (op : O) → R op → Prop} {answer : (op : O) → R op}
    (answers : ∀ op, allowed op (answer op)) (p : Prog O R ε α) :
    p.Ends allowed (p.eval answer) := by
  induction p with
  | done result => rfl
  | act op next ih => exact ⟨answer op, answers op, ih (answer op)⟩

/-- The result of a program and the state it leaves. -/
def runIn {σ : Type} (exec : (op : O) → σ → R op × σ) : Prog O R ε α → σ → Except ε α × σ
  | .done result, s => (result, s)
  | .act op next, s => (next (exec op s).1).runIn exec (exec op s).2

@[simp] theorem runIn_done {σ : Type} (exec : (op : O) → σ → R op × σ) (result : Except ε α)
    (s : σ) : (.done result : Prog O R ε α).runIn exec s = (result, s) := rfl

/-- A sequence goes on from where its first part has left the state. -/
theorem runIn_bind {σ : Type} (exec : (op : O) → σ → R op × σ) (p : Prog O R ε α)
    (f : α → Prog O R ε β) (s : σ) :
    (p >>= f).runIn exec s = match p.runIn exec s with
      | (.ok a, s') => (f a).runIn exec s'
      | (.error e, s') => (.error e, s') := by
  induction p generalizing s with
  | done result => cases result <;> rfl
  | act op next ih => exact ih (exec op s).1 (exec op s).2

/-- What a program yields to any answers, it yields to those of a run. -/
theorem Yields.runIn {σ : Type} {exec : (op : O) → σ → R op × σ} {allowed : (op : O) → R op → Prop}
    (allows : ∀ op s, allowed op (exec op s).1) {post : Except ε α → Prop} {p : Prog O R ε α}
    (yields : p.Yields allowed post) (s : σ) : post (p.runIn exec s).1 := by
  induction p generalizing s with
  | done result => exact yields
  | act op next ih => exact ih _ (yields _ (allows op s)) _

/-- An action a thread has performed, the state it found and the answer it
got. -/
structure Event (ι σ O : Type) (R : O → Type) where
  thread : ι
  before : σ
  op : O
  answer : R op

/-- The events of a program that a thread runs alone, last first. -/
def eventsIn {ι σ : Type} (thread : ι) (exec : (op : O) → σ → R op × σ) :
    Prog O R ε α → σ → List (Event ι σ O R)
  | .done _, _ => []
  | .act op next, s =>
      (next (exec op s).1).eventsIn thread exec (exec op s).2 ++ [⟨thread, s, op, (exec op s).1⟩]

/-! ### What a program promises -/

section Safe

variable {ι σ : Type}

/-- Where a thread's actions are answered as `may` says, all of them meet `must`
and the end meets `post`. Both also see the events on the way, last first. -/
def Safe (thread : ι) (may : Event ι σ O R → Prop) (must : List (Event ι σ O R) → O → Prop)
    (post : List (Event ι σ O R) → Except ε α → Prop) :
    List (Event ι σ O R) → Prog O R ε α → Prop
  | past, .done result => post past result
  | past, .act op next =>
      must past op ∧ ∀ before answer, may ⟨thread, before, op, answer⟩ →
        Safe thread may must post (⟨thread, before, op, answer⟩ :: past) (next answer)

variable {thread : ι} {may : Event ι σ O R → Prop} {must : List (Event ι σ O R) → O → Prop}

@[simp] theorem safe_done {post : List (Event ι σ O R) → Except ε α → Prop}
    {past : List (Event ι σ O R)} {result : Except ε α} :
    Safe thread may must post past (.done result) ↔ post past result := Iff.rfl

@[simp] theorem safe_act {post : List (Event ι σ O R) → Except ε α → Prop}
    {past : List (Event ι σ O R)} {op : O} {next : R op → Prog O R ε α} :
    Safe thread may must post past (.act op next) ↔
      must past op ∧ ∀ before answer, may ⟨thread, before, op, answer⟩ →
        Safe thread may must post (⟨thread, before, op, answer⟩ :: past) (next answer) := Iff.rfl

/-- A sequence is safe where its first part leads to safe continuations. -/
theorem safe_bind {post : List (Event ι σ O R) → Except ε β → Prop}
    {past : List (Event ι σ O R)} {p : Prog O R ε α} {f : α → Prog O R ε β} :
    Safe thread may must post past (p >>= f) ↔
      Safe thread may must (fun past result => match result with
        | .ok a => Safe thread may must post past (f a)
        | .error e => post past (.error e)) past p := by
  induction p generalizing past with
  | done result => cases result <;> rfl
  | act op next ih =>
      rw [act_bind, safe_act, safe_act]
      exact and_congr_right fun _ => forall_congr' fun before => forall_congr' fun answer =>
        imp_congr_right fun _ => ih answer

/-- A last action is safe where the program leads to it with its result safe. -/
theorem safe_andFinally {post : List (Event ι σ O R) → Except ε α → Prop}
    {past : List (Event ι σ O R)} {p : Prog O R ε α} {op : O} :
    Safe thread may must post past (p.andFinally op) ↔
      Safe thread may must (fun past result => must past op ∧ ∀ before answer,
        may ⟨thread, before, op, answer⟩ →
          post (⟨thread, before, op, answer⟩ :: past) result) past p := by
  induction p generalizing past with
  | done result => rfl
  | act op' next ih =>
      rw [andFinally_act, safe_act, safe_act]
      exact and_congr_right fun _ => forall_congr' fun before => forall_congr' fun answer =>
        imp_congr_right fun _ => ih answer

theorem Safe.weaken {post post' : List (Event ι σ O R) → Except ε α → Prop}
    (imp : ∀ past result, post past result → post' past result) {past : List (Event ι σ O R)}
    {p : Prog O R ε α} (safe : Safe thread may must post past p) :
    Safe thread may must post' past p := by
  induction p generalizing past with
  | done result => exact imp past result safe
  | act op next ih =>
      exact ⟨safe.1, fun before answer allowed => ih answer (safe.2 before answer allowed)⟩

theorem Safe.and {post post' : List (Event ι σ O R) → Except ε α → Prop}
    {past : List (Event ι σ O R)} {p : Prog O R ε α} (safe : Safe thread may must post past p)
    (safe' : Safe thread may must post' past p) :
    Safe thread may must (fun past result => post past result ∧ post' past result) past p := by
  induction p generalizing past with
  | done result => exact ⟨safe, safe'⟩
  | act op next ih =>
      exact ⟨safe.1, fun before answer allowed =>
        ih answer (safe.2 before answer allowed) (safe'.2 before answer allowed)⟩

/-- What a program yields to allowed answers, it ends with in every thread that
gets no others. -/
theorem Yields.safe_allowed {allowed : (op : O) → R op → Prop} {post : Except ε α → Prop}
    {p : Prog O R ε α} (yields : p.Yields allowed post)
    (gets : ∀ before op answer, may ⟨thread, before, op, answer⟩ → allowed op answer)
    {past : List (Event ι σ O R)} :
    Safe thread may (fun _ _ => True) (fun _ => post) past p := by
  induction p generalizing past with
  | done result => exact yields
  | act op next ih =>
      exact ⟨trivial, fun before answer shown =>
        ih answer (yields answer (gets before op answer shown))⟩

/-- What a program yields to any answers, it ends with in every thread. -/
theorem Yields.safe {post : Except ε α → Prop} {p : Prog O R ε α}
    (yields : p.Yields (fun _ _ => True) post) {past : List (Event ι σ O R)} :
    Safe thread may (fun _ _ => True) (fun _ => post) past p :=
  yields.safe_allowed fun _ _ _ _ => trivial

end Safe

end Prog

/-! ### Threads over shared state -/

/-- Threads run jobs of type `J`, each with results of its own type. `exec` says
which answers an action can get and what it makes of the shared state, `env`
what happens to the state between actions, and `release` what becomes of it
where a thread is abandoned. -/
structure System (ι σ O : Type) (R : O → Type) (J : Type) (ε : Type) (α : J → Type) where
  code : ι → (j : J) → Prog O R ε (α j)
  exec : ι → (op : O) → R op → σ → σ → Prop
  env : σ → σ → Prop
  release : ι → σ → σ

variable {ι σ O : Type} {R : O → Type} {J ε : Type} {α : J → Type}

/-- A job under way: its events so far, last first, and what is left of it. -/
structure Running (ι σ O : Type) (R : O → Type) (J ε : Type) (α : J → Type) where
  job : J
  past : List (Prog.Event ι σ O R)
  rest : Prog O R ε (α job)

/-- A job that has ended. -/
structure Finished (ι σ O : Type) (R : O → Type) (J ε : Type) (α : J → Type) where
  thread : ι
  job : J
  past : List (Prog.Event ι σ O R)
  result : Except ε (α job)

/-- The shared state, the jobs under way, and what has happened so far. -/
structure Config (ι σ O : Type) (R : O → Type) (J ε : Type) (α : J → Type) where
  shared : σ
  threads : ι → Option (Running ι σ O R J ε α)
  trace : List (Prog.Event ι σ O R)
  finished : List (Finished ι σ O R J ε α)

/-- Nothing has happened yet. -/
def Config.initial (shared : σ) : Config ι σ O R J ε α := ⟨shared, fun _ => none, [], []⟩

namespace System

variable [DecidableEq ι] (S : System ι σ O R J ε α)

/-- A thread that is under way goes on: it acts, or it ends. -/
inductive Advance : Config ι σ O R J ε α → Config ι σ O R J ε α → Prop where
  | act (c : Config ι σ O R J ε α) (i : ι) (j : J) (past : List (Prog.Event ι σ O R)) (op : O)
      (next : R op → Prog O R ε (α j)) (answer : R op) (after : σ)
      (here : c.threads i = some ⟨j, past, .act op next⟩)
      (does : S.exec i op answer c.shared after) :
      Advance c
        { shared := after
          threads := Function.update c.threads i
            (some ⟨j, ⟨i, c.shared, op, answer⟩ :: past, next answer⟩)
          trace := ⟨i, c.shared, op, answer⟩ :: c.trace
          finished := c.finished }
  | finish (c : Config ι σ O R J ε α) (i : ι) (j : J) (past : List (Prog.Event ι σ O R))
      (result : Except ε (α j)) (here : c.threads i = some ⟨j, past, .done result⟩) :
      Advance c
        { c with
          threads := Function.update c.threads i none
          finished := ⟨i, j, past, result⟩ :: c.finished }

/-- One step: a thread starts, goes on or is abandoned, or the environment
moves. -/
inductive Step : Config ι σ O R J ε α → Config ι σ O R J ε α → Prop where
  | start (c : Config ι σ O R J ε α) (i : ι) (j : J) (idle : c.threads i = none) :
      Step c { c with threads := Function.update c.threads i (some ⟨j, [], S.code i j⟩) }
  | advance {c c' : Config ι σ O R J ε α} (goes : S.Advance c c') : Step c c'
  | env (c : Config ι σ O R J ε α) (after : σ) (moves : S.env c.shared after) :
      Step c { c with shared := after }
  | abandon (c : Config ι σ O R J ε α) (i : ι) :
      Step c
        { c with
          shared := S.release i c.shared
          threads := Function.update c.threads i none }

/-- Any number of steps in which threads under way go on, and nothing else
happens. -/
abbrev Advances : Config ι σ O R J ε α → Config ι σ O R J ε α → Prop :=
  Relation.ReflTransGen S.Advance

/-- Any number of steps. -/
abbrev Steps : Config ι σ O R J ε α → Config ι σ O R J ε α → Prop :=
  Relation.ReflTransGen S.Step

/-- The configurations a run from a shared state reaches. -/
def Reach (start : σ) (c : Config ι σ O R J ε α) : Prop :=
  Relation.ReflTransGen S.Step (Config.initial start) c

/-- What a configuration keeps: the shared state meets the invariant, every job
under way is safe, every job that has ended meets its postcondition, and every
event was answered as it may be. -/
structure Keeps (inv : σ → Prop) (may : Prog.Event ι σ O R → Prop) 
    (must : ι → J → List (Prog.Event ι σ O R) → O → Prop)
    (post : ι → (j : J) → List (Prog.Event ι σ O R) → Except ε (α j) → Prop)
    (c : Config ι σ O R J ε α) : Prop where
  shared : inv c.shared
  threads : ∀ i run, c.threads i = some run →
    Prog.Safe i may (must i run.job) (post i run.job) run.past run.rest
  finished : ∀ f ∈ c.finished, post f.thread f.job f.past f.result
  events : ∀ e ∈ c.trace, may e

variable {S} {inv : σ → Prop} {may : Prog.Event ι σ O R → Prop} 
  {must : ι → J → List (Prog.Event ι σ O R) → O → Prop}
  {post : ι → (j : J) → List (Prog.Event ι σ O R) → Except ε (α j) → Prop}

theorem keeps_update {c : Config ι σ O R J ε α} {i : ι} {new : Option (Running ι σ O R J ε α)}
    (threads : ∀ i run, c.threads i = some run →
      Prog.Safe i may (must i run.job) (post i run.job) run.past run.rest)
    (safe : ∀ run, new = some run →
      Prog.Safe i may (must i run.job) (post i run.job) run.past run.rest) :
    ∀ k run, Function.update c.threads i new k = some run →
      Prog.Safe k may (must k run.job) (post k run.job) run.past run.rest := by
  intro k run here
  by_cases same : k = i
  · subst same
    rw [Function.update_self] at here
    exact safe run here
  · rw [Function.update_of_ne same] at here
    exact threads k run here

/-- One step keeps what is kept, where its event is answered as it may be. The
events of the run are known to lie in `seen`. -/
theorem Step.keeps {seen : Set (Prog.Event ι σ O R)}
    (code : ∀ i j, Prog.Safe i may (must i j) (post i j) [] (S.code i j))
    (exec : ∀ i j past op answer s s', inv s → must i j past op → S.exec i op answer s s' →
      ⟨i, s, op, answer⟩ ∈ seen → may ⟨i, s, op, answer⟩ ∧ inv s')
    (env : ∀ s s', inv s → S.env s s' → inv s') (release : ∀ i s, inv s → inv (S.release i s))
    {c c' : Config ι σ O R J ε α} (step : S.Step c c') (inside : ∀ e ∈ c'.trace, e ∈ seen)
    (keeps : Keeps inv may must post c) :
    Keeps inv may must post c' := by
  obtain ⟨shared, threads, finished, events⟩ := keeps
  cases step with
  | start i j idle =>
      refine ⟨shared, keeps_update threads ?_, finished, events⟩
      rintro _ ⟨⟩
      exact code i j
  | advance goes =>
      cases goes with
      | act i j past op next answer after here does =>
          obtain ⟨meets, continues⟩ := threads i _ here
          obtain ⟨allowed, kept⟩ := exec i j past op answer _ _ shared meets does
            (inside _ List.mem_cons_self)
          refine ⟨kept, keeps_update threads ?_, finished, ?_⟩
          · rintro _ ⟨⟩
            exact continues _ _ allowed
          · intro e mem
            rcases List.mem_cons.mp mem with rfl | mem
            · exact allowed
            · exact events e mem
      | finish i j past result here =>
          refine ⟨shared, keeps_update threads nofun, ?_, events⟩
          intro f mem
          rcases List.mem_cons.mp mem with rfl | mem
          · exact threads i _ here
          · exact finished f mem
  | env after moves => exact ⟨env _ _ shared moves, threads, finished, events⟩
  | abandon i => exact ⟨release i _ shared, keeps_update threads nofun, finished, events⟩

/-- A step only adds to the trace. -/
theorem Step.trace_subset {c c' : Config ι σ O R J ε α} (step : S.Step c c') :
    ∀ e ∈ c.trace, e ∈ c'.trace := by
  cases step with
  | advance goes =>
      cases goes with
      | act =>
          intro e mem
          exact List.mem_cons_of_mem _ mem
      | finish =>
          intro e mem
          exact mem
  | start =>
      intro e mem
      exact mem
  | env =>
      intro e mem
      exact mem
  | abandon =>
      intro e mem
      exact mem

theorem Advances.steps {c c' : Config ι σ O R J ε α} (goes : S.Advances c c') : S.Steps c c' :=
  Relation.ReflTransGen.mono (fun _ _ => .advance) _ _ goes

/-- A job under way can be run to its end alone, where its actions are done as
`exec` says. -/
theorem advances_runOn {c : Config ι σ O R J ε α} {i : ι} {j : J}
    {past : List (Prog.Event ι σ O R)} {p : Prog O R ε (α j)}
    (here : c.threads i = some ⟨j, past, p⟩) {exec : (op : O) → σ → R op × σ}
    (does : ∀ e ∈ p.eventsIn i exec c.shared,
      S.exec i e.op (exec e.op e.before).1 e.before (exec e.op e.before).2) :
    S.Advances c
      { shared := (p.runIn exec c.shared).2
        threads := Function.update c.threads i none
        trace := p.eventsIn i exec c.shared ++ c.trace
        finished := ⟨i, j, p.eventsIn i exec c.shared ++ past, (p.runIn exec c.shared).1⟩ ::
          c.finished } := by
  induction p generalizing c past with
  | done result => exact .single (.finish c i j past result here)
  | act op next ih =>
      have now := does ⟨i, c.shared, op, (exec op c.shared).1⟩ (by simp [Prog.eventsIn])
      have first := Advance.act c i j past op next _ _ here now
      have rest := Relation.ReflTransGen.head first <|
        ih (exec op c.shared).1 (Function.update_self ..) fun e mem =>
          does e (List.mem_append_left _ mem)
      simpa [Prog.runIn, Prog.eventsIn, Function.update_idem] using rest

theorem Reach.runOn {start : σ} {c : Config ι σ O R J ε α} (reach : S.Reach start c) {i : ι} {j : J}
    {past : List (Prog.Event ι σ O R)} {p : Prog O R ε (α j)}
    (here : c.threads i = some ⟨j, past, p⟩) {exec : (op : O) → σ → R op × σ}
    (does : ∀ e ∈ p.eventsIn i exec c.shared,
      S.exec i e.op (exec e.op e.before).1 e.before (exec e.op e.before).2) :
    S.Reach start
      { shared := (p.runIn exec c.shared).2
        threads := Function.update c.threads i none
        trace := p.eventsIn i exec c.shared ++ c.trace
        finished := ⟨i, j, p.eventsIn i exec c.shared ++ past, (p.runIn exec c.shared).1⟩ ::
          c.finished } :=
  Relation.ReflTransGen.trans reach (advances_runOn here does).steps

/-- So an idle thread can run a whole job alone. -/
theorem Reach.solo {start : σ} {c : Config ι σ O R J ε α} (reach : S.Reach start c) (i : ι) (j : J)
    (idle : c.threads i = none) (exec : (op : O) → σ → R op × σ)
    (does : ∀ e ∈ (S.code i j).eventsIn i exec c.shared,
      S.exec i e.op (exec e.op e.before).1 e.before (exec e.op e.before).2)
    {result : Except ε (α j)}
    (runs : ((S.code i j).runIn exec c.shared).1 = result) :
    S.Reach start
      { shared := ((S.code i j).runIn exec c.shared).2
        threads := c.threads
        trace := (S.code i j).eventsIn i exec c.shared ++ c.trace
        finished := ⟨i, j, (S.code i j).eventsIn i exec c.shared, result⟩ :: c.finished } := by
  have begun : S.Reach start _ := reach.tail (.start c i j idle)
  have rest := begun.runOn (Function.update_self ..) does
  have same : Function.update c.threads i none = c.threads := by
    rw [← idle, Function.update_eq_self]
  subst runs
  simpa [Function.update_idem, same] using rest

variable (S) in
/-- A run can begin with a whole job alone. -/
theorem reach_first (start : σ) (i : ι) (j : J) (exec : (op : O) → σ → R op × σ)
    (does : ∀ e ∈ (S.code i j).eventsIn i exec start,
      S.exec i e.op (exec e.op e.before).1 e.before (exec e.op e.before).2)
    {result : Except ε (α j)}
    (runs : ((S.code i j).runIn exec start).1 = result) :
    S.Reach start
      { shared := ((S.code i j).runIn exec start).2
        threads := fun _ => none
        trace := (S.code i j).eventsIn i exec start
        finished := [⟨i, j, (S.code i j).eventsIn i exec start, result⟩] } := by
  have begun : S.Reach start (Config.initial start) := .refl
  simpa [Config.initial] using begun.solo i j rfl exec does runs

/-- Every event of a run was an action that `exec` allows. -/
theorem Reach.trace_exec {start : σ} {c : Config ι σ O R J ε α} (reach : S.Reach start c) :
    ∀ e ∈ c.trace, ∃ after, S.exec e.thread e.op e.answer e.before after := by
  induction reach with
  | refl =>
      intro e mem
      exact absurd mem List.not_mem_nil
  | tail _ step ih =>
      cases step with
      | advance goes =>
          cases goes with
          | act i j past op next answer after here does =>
              intro e mem
              rcases List.mem_cons.mp mem with rfl | mem
              · exact ⟨after, does⟩
              · exact ih e mem
          | finish => exact ih
      | start => exact ih
      | env => exact ih
      | abandon => exact ih

/-- The events of a job under way are the latest of its thread. -/
theorem Reach.past_prefix {start : σ} {c : Config ι σ O R J ε α} (reach : S.Reach start c) :
    ∀ i run, c.threads i = some run → run.past <+: c.trace.filter fun e => e.thread = i := by
  have update : ∀ {threads : ι → Option (Running ι σ O R J ε α)} {i new} 
      {trace : List (Prog.Event ι σ O R)},
      (∀ k run, k ≠ i → threads k = some run → run.past <+: trace.filter fun e => e.thread = k) →
      (∀ run, new = some run → run.past <+: trace.filter fun e => e.thread = i) →
      ∀ k run, Function.update threads i new k = some run →
        run.past <+: trace.filter fun e => e.thread = k := by
    intro threads i new trace old fresh k run here
    by_cases same : k = i
    · subst same
      rw [Function.update_self] at here
      exact fresh run here
    · rw [Function.update_of_ne same] at here
      exact old k run same here
  induction reach with
  | refl => exact nofun
  | tail _ step ih =>
      cases step with
      | start i j idle =>
          refine update (fun k run _ => ih k run) ?_
          rintro _ ⟨⟩
          exact List.nil_prefix
      | advance goes =>
          cases goes with
          | act i j past op next answer after here =>
              refine update (fun k run other here => ?_) ?_
              · rw [List.filter_cons_of_neg (by simpa using other.symm)]
                exact ih k run here
              · rintro _ ⟨⟩
                rw [List.filter_cons_of_pos (by simp)]
                exact (List.prefix_cons_inj _).mpr (ih i _ here)
          | finish i => exact update (fun k run _ => ih k run) nofun
      | env => exact ih
      | abandon i => exact update (fun k run _ => ih k run) nofun

/-- The rule for runs: safe code keeps what it promises in every configuration
a run reaches. -/
theorem Reach.keeps {seen : Set (Prog.Event ι σ O R)}
    (code : ∀ i j, Prog.Safe i may (must i j) (post i j) [] (S.code i j))
    (exec : ∀ i j past op answer s s', inv s → must i j past op → S.exec i op answer s s' →
      ⟨i, s, op, answer⟩ ∈ seen → may ⟨i, s, op, answer⟩ ∧ inv s')
    (env : ∀ s s', inv s → S.env s s' → inv s') (release : ∀ i s, inv s → inv (S.release i s))
    {start : σ} (init : inv start) {c : Config ι σ O R J ε α} (reach : S.Reach start c)
    (inside : ∀ e ∈ c.trace, e ∈ seen) : Keeps inv may must post c := by
  induction reach with
  | refl => exact ⟨init, nofun, nofun, nofun⟩
  | tail _ step ih =>
      have before := ih fun e mem => inside e (step.trace_subset e mem)
      exact step.keeps code exec env release inside before

/-- Where it is known what the events of a run show, its jobs keep what their
code promises for such events. -/
theorem Reach.keeps_shown (code : ∀ i j, Prog.Safe i may (must i j) (post i j) [] (S.code i j))
    {start : σ} {c : Config ι σ O R J ε α} (reach : S.Reach start c)
    (shown : ∀ e ∈ c.trace, may e) : Keeps (fun _ => True) may must post c := by
  refine reach.keeps code ?_ (fun _ _ _ _ => trivial) (fun _ _ _ => trivial) trivial
    (shown : ∀ e ∈ c.trace, e ∈ {e | may e})
  intro i j past op answer s s' _ _ _ mem
  exact ⟨mem, trivial⟩

/-- What code yields to any answers, its jobs end with in every run. -/
theorem Reach.finished_yields {ends : (j : J) → Except ε (α j) → Prop}
    (code : ∀ i j, (S.code i j).Yields (fun _ _ => True) (ends j))
    {start : σ} {c : Config ι σ O R J ε α} (reach : S.Reach start c) :
    ∀ f ∈ c.finished, ends f.job f.result :=
  (reach.keeps_shown (fun i j => (code i j).safe) fun _ _ => trivial).finished

end System

end Beerus.Lib
