import Beerus.Lib.Handler

/-!
Progress of threads over shared state.

A run can get stuck where threads wait for each other. `System.drains` shows
that it does not: where an invariant always offers a thread that can be run to
its end alone, all threads can be, one after another, with nothing else
happening meanwhile. What is left of a thread keeps what its code promises
whatever it is answered (`System.Reach.rest`).
-/

namespace Beerus.Lib

namespace System

variable {ι σ O : Type} {R : O → Type} {J ε : Type} {α : J → Type} [DecidableEq ι]

variable {S : System ι σ O R J ε α}

/-- What has ended stays so. -/
theorem Advances.finished_subset {c c' : Config ι σ O R J ε α} (goes : S.Advances c c') :
    ∀ f ∈ c.finished, f ∈ c'.finished := by
  induction goes with
  | refl => exact fun _ => id
  | tail _ last ih =>
      intro f mem
      have mem := ih f mem
      cases last with
      | act => exact mem
      | finish => exact List.mem_cons_of_mem _ mem

/-- A job under way can be run to its end alone, which leaves the others as they
are. -/
theorem advances_alone {c : Config ι σ O R J ε α} {i : ι} {run : Running ι σ O R J ε α}
    (here : c.threads i = some run) {exec : (op : O) → σ → R op × σ}
    (does : ∀ e ∈ run.rest.eventsIn i exec c.shared,
      S.exec i e.op (exec e.op e.before).1 e.before (exec e.op e.before).2) :
    ∃ c', S.Advances c c' ∧ c'.shared = (run.rest.runIn exec c.shared).2 ∧
      c'.threads = Function.update c.threads i none ∧
      ∃ f ∈ c'.finished, f.thread = i ∧ f.job = run.job ∧ run.past <:+ f.past :=
  ⟨_, advances_runOn here does, rfl, rfl, _, List.mem_cons_self, rfl, rfl,
    List.suffix_append _ _⟩

/-- The threads under way. -/
def active (c : Config ι σ O R J ε α) : Set ι := {i | c.threads i ≠ none}

/-- Only finitely many threads are. -/
theorem Reach.finite {start : σ} {c : Config ι σ O R J ε α} (reach : S.Reach start c) :
    (active c).Finite := by
  have update : ∀ {threads : ι → Option (Running ι σ O R J ε α)} (i : ι) new,
      {k | threads k ≠ none}.Finite → {k | Function.update threads i new k ≠ none}.Finite := by
    intro threads i new finite
    refine (finite.insert i).subset fun k under => ?_
    by_cases same : k = i
    · exact .inl same
    · exact .inr (by rwa [Set.mem_ofPred_eq, Function.update_of_ne same] at under)
  induction reach with
  | refl => exact Set.finite_empty.subset fun i under => absurd rfl under
  | tail _ step ih =>
      cases step with
      | start i => exact update i _ ih
      | advance goes =>
          cases goes with
          | act i => exact update i _ ih
          | finish i => exact update i _ ih
      | env => exact ih
      | abandon i => exact update i _ ih

/-- What code promises whatever it is answered, what is left of it does. -/
theorem Reach.rest {promises : (j : J) → Prog O R ε (α j) → Prop}
    (code : ∀ i j, promises j (S.code i j))
    (next : ∀ j op next, promises j (.act op next) → ∀ answer, promises j (next answer))
    {start : σ} {c : Config ι σ O R J ε α} (reach : S.Reach start c) :
    ∀ i run, c.threads i = some run → promises run.job run.rest := by
  have update : ∀ {threads : ι → Option (Running ι σ O R J ε α)} {i new},
      (∀ k run, threads k = some run → promises run.job run.rest) →
      (∀ run, new = some run → promises run.job run.rest) →
      ∀ k run, Function.update threads i new k = some run → promises run.job run.rest := by
    intro threads i new old fresh k run here
    by_cases same : k = i
    · subst same
      rw [Function.update_self] at here
      exact fresh run here
    · rw [Function.update_of_ne same] at here
      exact old k run here
  induction reach with
  | refl => exact nofun
  | tail _ step ih =>
      cases step with
      | start i j idle =>
          refine update ih ?_
          rintro _ ⟨⟩
          exact code i j
      | advance goes =>
          cases goes with
          | act i j past op rest answer after here =>
              refine update ih ?_
              rintro _ ⟨⟩
              exact next j op rest (ih i _ here) answer
          | finish => exact update ih nofun
      | env => exact ih
      | abandon => exact update ih nofun

/-- Where the invariant always offers a thread that can be run to its end, all
threads can be, with no other one started and none abandoned. -/
theorem drains {inv : σ → (ι → Option (Running ι σ O R J ε α)) → Prop}
    (exec : ι → (op : O) → σ → R op × σ)
    (offers : ∀ s threads, inv s threads → (∃ i run, threads i = some run) →
      ∃ i run, threads i = some run ∧
        (∀ e ∈ run.rest.eventsIn i (exec i) s,
          S.exec i e.op (exec i e.op e.before).1 e.before (exec i e.op e.before).2) ∧
        inv (run.rest.runIn (exec i) s).2 (Function.update threads i none))
    {c : Config ι σ O R J ε α} (finite : (active c).Finite) (kept : inv c.shared c.threads) :
    ∃ c', S.Advances c c' ∧ inv c'.shared c'.threads ∧ (∀ i, c'.threads i = none) ∧
      ∀ i run, c.threads i = some run →
        ∃ f ∈ c'.finished, f.thread = i ∧ f.job = run.job ∧ run.past <:+ f.past := by
  generalize count : (active c).ncard = n
  induction n generalizing c with
  | zero =>
      have idle : ∀ i, c.threads i = none := by
        intro i
        by_contra under
        exact (Set.ncard_ne_zero_of_mem (a := i) under finite) count
      refine ⟨c, .refl, kept, idle, fun i run here => ?_⟩
      exact nomatch (idle i).symm.trans here
  | succ n ih =>
      obtain ⟨k, under⟩ : (active c).Nonempty :=
        Set.nonempty_of_ncard_ne_zero (by rw [count]; exact n.succ_ne_zero)
      obtain ⟨i, run, here, does, kept'⟩ := offers c.shared c.threads kept
        ⟨k, Option.ne_none_iff_exists'.mp under⟩
      obtain ⟨c₁, first, shared, threads, f, ended, of⟩ := advances_alone here does
      have member : i ∈ active c := by
        intro idle
        exact nomatch idle.symm.trans here
      have fewer : active c₁ = active c \ {i} := by
        ext k
        rw [active, Set.mem_ofPred_eq, threads]
        by_cases same : k = i
        · simp [same]
        · simp [same, active]
      obtain ⟨c', more, kept', idle, done⟩ := ih (fewer ▸ finite.sdiff)
        (by rwa [shared, threads])
        (by rw [fewer, Set.ncard_sdiff_singleton_of_mem member, count]; rfl)
      refine ⟨c', first.trans more, kept', idle, fun k run' under => ?_⟩
      by_cases same : k = i
      · subst same
        obtain rfl := Option.some.inj (here.symm.trans under)
        exact ⟨f, more.finished_subset f ended, of⟩
      · exact done k run' (by rwa [threads, Function.update_of_ne same])

end System

end Beerus.Lib
