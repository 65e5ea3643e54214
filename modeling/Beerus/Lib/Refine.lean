import Beerus.Lib.Threads

/-!
Systems that refine others.

Two systems run the same code and keep their shared state differently. Where the
finer state can be viewed as the coarser one, so that each action does to the view
what the coarser system allows, up to moves of the environment, every run of the
finer system is one of the coarser (`Refines.reach`): with the same programs,
answers and results, on the states that are viewed.
-/

namespace Beerus.Lib

variable {ι σ σ' O : Type} {R : O → Type} {J ε : Type} {α : J → Type}

/-! ### Views -/

/-- An event, on the state that is viewed. -/
def Prog.Event.view (view : σ → σ') (e : Prog.Event ι σ O R) : Prog.Event ι σ' O R :=
  ⟨e.thread, view e.before, e.op, e.answer⟩

def Running.view (view : σ → σ') (run : Running ι σ O R J ε α) : Running ι σ' O R J ε α :=
  ⟨run.job, run.past.map (·.view view), run.rest⟩

def Finished.view (view : σ → σ') (f : Finished ι σ O R J ε α) : Finished ι σ' O R J ε α :=
  ⟨f.thread, f.job, f.past.map (·.view view), f.result⟩

/-- A configuration, on the states that are viewed. -/
def Config.view (view : σ → σ') (c : Config ι σ O R J ε α) : Config ι σ' O R J ε α where
  shared := view c.shared
  threads := Option.map (Running.view view) ∘ c.threads
  trace := c.trace.map (·.view view)
  finished := c.finished.map (·.view view)

/-! ### Refinement -/

namespace System

/-- A system refines another where the view of its state is kept as the other
keeps its state. -/
structure Refines (S : System ι σ O R J ε α) (S' : System ι σ' O R J ε α) (view : σ → σ') :
    Prop where
  code : ∀ i j, S.code i j = S'.code i j
  exec : ∀ i op answer s s', S.exec i op answer s s' →
    ∃ mid, S'.exec i op answer (view s) mid ∧ Relation.ReflTransGen S'.env mid (view s')
  env : ∀ s s', S.env s s' → Relation.ReflTransGen S'.env (view s) (view s')
  release : ∀ i s, view (S.release i s) = S'.release i (view s)

variable [DecidableEq ι] {S : System ι σ O R J ε α} {S' : System ι σ' O R J ε α} {view : σ → σ'}

/-- The environment can move between any two steps. -/
theorem steps_env (c : Config ι σ O R J ε α) {after : σ}
    (moves : Relation.ReflTransGen S.env c.shared after) :
    S.Steps c { c with shared := after } := by
  induction moves with
  | refl => exact .refl
  | tail _ move ih => exact ih.tail (.env _ _ move)

/-- A configuration with one thread replaced is viewed with that thread replaced. -/
theorem view_replace (view : σ → σ') (c : Config ι σ O R J ε α) (i : ι)
    (new : Option (Running ι σ O R J ε α)) (after : σ) (trace : List (Prog.Event ι σ O R))
    (finished : List (Finished ι σ O R J ε α)) :
    Config.view view ⟨after, Function.update c.threads i new, trace, finished⟩ =
      ⟨view after, Function.update (c.view view).threads i (new.map (Running.view view)),
        trace.map (·.view view), finished.map (·.view view)⟩ := by
  simp only [Config.view, Function.comp_update]

/-- One step of the finer system is some of the coarser. -/
theorem Refines.step (refines : S.Refines S' view) {c c' : Config ι σ O R J ε α}
    (step : S.Step c c') : S'.Steps (c.view view) (c'.view view) := by
  have viewed : ∀ {i run}, c.threads i = run →
      (c.view view).threads i = run.map (Running.view view) := by
    rintro i _ rfl
    rfl
  cases step with
  | start i j idle =>
      rw [view_replace, refines.code i j]
      exact .single (.start (c.view view) i j (viewed idle))
  | advance goes =>
      cases goes with
      | act i j past op next answer after here does =>
          obtain ⟨mid, done, moves⟩ := refines.exec i op answer c.shared after does
          rw [view_replace]
          have acted := Advance.act (c.view view) i j _ op next answer mid (viewed here) done
          exact (Relation.ReflTransGen.single (.advance acted)).trans (steps_env _ moves)
      | finish i j past result here =>
          rw [view_replace]
          exact .single (.advance (.finish (c.view view) i j _ result (viewed here)))
  | env after moves => exact steps_env (c.view view) (refines.env _ _ moves)
  | abandon i =>
      rw [view_replace, refines.release]
      exact .single (.abandon (c.view view) i)

/-- Every run of the finer system is one of the coarser. -/
theorem Refines.reach (refines : S.Refines S' view) {start : σ} {c : Config ι σ O R J ε α}
    (reach : S.Reach start c) : S'.Reach (view start) (c.view view) := by
  induction reach with
  | refl => exact .refl
  | tail _ step ih => exact ih.trans (refines.step step)

end System

end Beerus.Lib
