import Beerus.Lib.Threads

/-!
Programs that other programs carry out.

`interp` replaces each action of a program by a program over other actions, its
handler, and `mapResult` changes what a program ends with. A handled program
ends as the program does for the answers that its handlers give: for the
function they compute (`interp_eval`), for the answers they may give
(`yields_interp`), and so in the steps of a thread as well (`safe_interp`).

`relabel` only names the actions differently, where a program becomes part of a
larger system. What is safe there on its own is safe in it, where the events of
the one can be read off the events of the other (`safe_relabel`).
-/

namespace Beerus.Lib

namespace Prog

variable {O O' : Type} {R : O → Type} {R' : O' → Type} {ε ε' α β : Type}

/-! ### Results -/

/-- Another result in place of a program's own. -/
def mapResult (f : Except ε α → Except ε' β) : Prog O R ε α → Prog O R ε' β
  | .done result => .done (f result)
  | .act op next => .act op fun answer => (next answer).mapResult f

@[simp] theorem mapResult_done (f : Except ε α → Except ε' β) (result : Except ε α) :
    (.done result : Prog O R ε α).mapResult f = .done (f result) := rfl

@[simp] theorem mapResult_act (f : Except ε α → Except ε' β) (op : O)
    (next : R op → Prog O R ε α) :
    (Prog.act op next).mapResult f = .act op fun answer => (next answer).mapResult f := rfl

@[simp] theorem eval_mapResult (answer : (op : O) → R op) (f : Except ε α → Except ε' β)
    (p : Prog O R ε α) : (p.mapResult f).eval answer = f (p.eval answer) := by
  induction p with
  | done result => rfl
  | act op next ih => exact ih (answer op)

theorem mapResult_mapResult {ε'' γ : Type} (f : Except ε α → Except ε' β)
    (g : Except ε' β → Except ε'' γ) (p : Prog O R ε α) :
    (p.mapResult f).mapResult g = p.mapResult (g ∘ f) := by
  induction p with
  | done result => rfl
  | act op next ih => exact congrArg (Prog.act op) (funext ih)

/-- Going on to a result is mapping to it. -/
theorem bind_done (p : Prog O R ε α) (f : α → Except ε β) :
    (p >>= fun a => .done (f a)) = p.mapResult fun result => result >>= f := by
  induction p with
  | done result => exact done_bind_done result f
  | act op next ih => exact congrArg (Prog.act op) (funext ih)

theorem runIn_mapResult {σ : Type} (exec : (op : O) → σ → R op × σ) (f : Except ε α → Except ε' β)
    (p : Prog O R ε α) (s : σ) :
    (p.mapResult f).runIn exec s = (f (p.runIn exec s).1, (p.runIn exec s).2) := by
  induction p generalizing s with
  | done result => rfl
  | act op next ih => exact ih (exec op s).1 (exec op s).2

theorem yields_mapResult {allowed : (op : O) → R op → Prop} {post : Except ε' β → Prop}
    {f : Except ε α → Except ε' β} {p : Prog O R ε α} :
    (p.mapResult f).Yields allowed post ↔ p.Yields allowed fun result => post (f result) := by
  induction p with
  | done result => rfl
  | act op next ih =>
      exact forall_congr' fun answer => imp_congr_right fun _ => ih answer

/-- A program can end with what its result is mapped to. -/
theorem Ends.mapResult {allowed : (op : O) → R op → Prop} {f : Except ε α → Except ε' β}
    {result : Except ε α} {p : Prog O R ε α} (ends : p.Ends allowed result) :
    (p.mapResult f).Ends allowed (f result) := by
  induction p with
  | done result' =>
      obtain rfl : result' = result := ends
      rfl
  | act op next ih =>
      obtain ⟨answer, answered, rest⟩ := ends
      exact ⟨answer, answered, ih answer rest⟩

/-- It can only end so. -/
theorem Ends.of_mapResult {allowed : (op : O) → R op → Prop} {f : Except ε α → Except ε' β}
    {result' : Except ε' β} {p : Prog O R ε α} (ends : (p.mapResult f).Ends allowed result') :
    ∃ result, p.Ends allowed result ∧ result' = f result := by
  induction p with
  | done result => exact ⟨result, rfl, ends.symm⟩
  | act op next ih =>
      obtain ⟨answer, answered, rest⟩ := ends
      obtain ⟨result, ends, same⟩ := ih answer rest
      exact ⟨result, ⟨answer, answered, ends⟩, same⟩

/-! ### Handlers -/

/-- Each action carried out by a handler; where a handler fails, all does. -/
def interp (handler : (op : O) → Prog O' R' ε (R op)) : Prog O R ε α → Prog O' R' ε α
  | .done result => .done result
  | .act op next => handler op >>= fun answer => (next answer).interp handler

@[simp] theorem interp_done (handler : (op : O) → Prog O' R' ε (R op)) (result : Except ε α) :
    (.done result : Prog O R ε α).interp handler = .done result := rfl

@[simp] theorem interp_act (handler : (op : O) → Prog O' R' ε (R op)) (op : O)
    (next : R op → Prog O R ε α) :
    (Prog.act op next).interp handler =
      handler op >>= fun answer => (next answer).interp handler := rfl

/-- Handlers that compute a function answer as it does. -/
theorem interp_eval {handler : (op : O) → Prog O' R' ε (R op)} {answer' : (op : O') → R' op}
    {answer : (op : O) → R op} (handles : ∀ op, (handler op).eval answer' = .ok (answer op))
    (p : Prog O R ε α) : (p.interp handler).eval answer' = p.eval answer := by
  induction p with
  | done result => rfl
  | act op next ih =>
      rw [interp_act, eval_bind, handles, eval_act]
      exact ih (answer op)

/-- The result of a program whose actions are answered by a function that may
fail. -/
def evalOr (answer : (op : O) → Except ε (R op)) : Prog O R ε α → Except ε α
  | .done result => result
  | .act op next => answer op >>= fun a => (next a).evalOr answer

/-- What a handler gives: an answer that is allowed, or a failure that is. -/
def Gives (allowed : (op : O) → R op → Prop) (failed : O → ε → Prop) (op : O) :
    Except ε (R op) → Prop
  | .ok answer => allowed op answer
  | .error e => failed op e

/-- How a handled program ends: as the program does for answers that are
allowed, or where one of its actions fails. -/
def EndsOr (allowed : (op : O) → R op → Prop) (failed : O → ε → Prop) :
    Prog O R ε α → Except ε α → Prop
  | .done result', result => result' = result
  | .act op next, result =>
      (∃ answer, allowed op answer ∧ (next answer).EndsOr allowed failed result) ∨
        ∃ e, failed op e ∧ result = .error e

theorem EndsOr.act {allowed : (op : O) → R op → Prop} {failed : O → ε → Prop} {op : O}
    {next : R op → Prog O R ε α} {answer : R op} (answered : allowed op answer)
    {result : Except ε α} (ends : (next answer).EndsOr allowed failed result) :
    (Prog.act op next).EndsOr allowed failed result := .inl ⟨answer, answered, ends⟩

/-- What a program yields to allowed answers, it ends with, unless an action
fails. -/
theorem EndsOr.of_yields {allowed : (op : O) → R op → Prop} {failed : O → ε → Prop}
    {post : Except ε α → Prop} {p : Prog O R ε α} (yields : p.Yields allowed post)
    (stops : ∀ op e, failed op e → post (.error e)) {result : Except ε α}
    (ends : p.EndsOr allowed failed result) : post result := by
  induction p with
  | done result' =>
      obtain rfl : result' = result := ends
      exact yields
  | act op next ih =>
      rcases ends with ⟨answer, answered, rest⟩ | ⟨e, fails, rfl⟩
      · exact ih answer (yields answer answered) rest
      · exact stops op e fails

theorem yields_interp {allowed' : (op : O') → R' op → Prop} {allowed : (op : O) → R op → Prop}
    {failed : O → ε → Prop} {handler : (op : O) → Prog O' R' ε (R op)}
    (handles : ∀ op, (handler op).Yields allowed' (Gives allowed failed op)) (p : Prog O R ε α) :
    (p.interp handler).Yields allowed' (p.EndsOr allowed failed) := by
  induction p with
  | done result => exact rfl
  | act op next ih =>
      refine yields_bind.mpr ((handles op).weaken ?_)
      intro result given
      cases result with
      | error e => exact .inr ⟨e, given, rfl⟩
      | ok answer => exact (ih answer).weaken fun _ => EndsOr.act given

/-! ### Actions that are performed -/

/-- Whatever it is answered, a program performs no other actions. -/
def Performs (these : O → Prop) : Prog O R ε α → Prop
  | .done _ => True
  | .act op next => these op ∧ ∀ answer, (next answer).Performs these

@[simp] theorem performs_done {these : O → Prop} {result : Except ε α} :
    (.done result : Prog O R ε α).Performs these := trivial

@[simp] theorem performs_act {these : O → Prop} {op : O} {next : R op → Prog O R ε α} :
    (Prog.act op next).Performs these ↔ these op ∧ ∀ answer, (next answer).Performs these :=
  Iff.rfl

theorem Performs.weaken {these these' : O → Prop} (imp : ∀ op, these op → these' op)
    {p : Prog O R ε α} (performs : p.Performs these) : p.Performs these' := by
  induction p with
  | done result => trivial
  | act op next ih => exact ⟨imp op performs.1, fun answer => ih answer (performs.2 answer)⟩

theorem Performs.bind {these : O → Prop} {p : Prog O R ε α} {f : α → Prog O R ε β}
    (first : p.Performs these) (rest : ∀ a, (f a).Performs these) :
    (p >>= f).Performs these := by
  induction p with
  | done result =>
      cases result with
      | error e => trivial
      | ok a => exact rest a
  | act op next ih => exact ⟨first.1, fun answer => ih answer (first.2 answer)⟩

theorem Performs.mapResult {these : O → Prop} {p : Prog O R ε α} (first : p.Performs these)
    (f : Except ε α → Except ε' β) : (p.mapResult f).Performs these := by
  induction p with
  | done result => trivial
  | act op next ih => exact ⟨first.1, fun answer => ih answer (first.2 answer)⟩

theorem Performs.andFinally {these : O → Prop} {p : Prog O R ε α} (first : p.Performs these)
    {op : O} (last : these op) : (p.andFinally op).Performs these := by
  induction p with
  | done result => exact ⟨last, fun _ => trivial⟩
  | act op' next ih => exact ⟨first.1, fun answer => ih answer (first.2 answer)⟩

theorem performs_interp {these : O' → Prop} {handler : (op : O) → Prog O' R' ε (R op)}
    (handles : ∀ op, (handler op).Performs these) (p : Prog O R ε α) :
    (p.interp handler).Performs these := by
  induction p with
  | done result => trivial
  | act op next ih => exact (handles op).bind ih

/-- The events of a program that runs alone are of the actions that it
performs. -/
theorem Performs.eventsIn {ι σ : Type} {these : O → Prop} {p : Prog O R ε α}
    (performs : p.Performs these) {thread : ι} {exec : (op : O) → σ → R op × σ} {s : σ} :
    ∀ e ∈ p.eventsIn thread exec s, these e.op := by
  induction p generalizing s with
  | done result => exact nofun
  | act op next ih =>
      intro e mem
      rcases List.mem_append.mp mem with later | first
      · exact ih _ (performs.2 _) e later
      · obtain rfl := List.mem_singleton.mp first
        exact performs.1

/-! ### Other names for actions -/

/-- The same program under other names of its actions. -/
def relabel (name : O → O') (back : (op : O) → R' (name op) → R op) :
    Prog O R ε α → Prog O' R' ε α
  | .done result => .done result
  | .act op next => .act (name op) fun answer => (next (back op answer)).relabel name back

@[simp] theorem relabel_done (name : O → O') (back : (op : O) → R' (name op) → R op)
    (result : Except ε α) : (.done result : Prog O R ε α).relabel name back = .done result := rfl

@[simp] theorem relabel_act (name : O → O') (back : (op : O) → R' (name op) → R op) (op : O)
    (next : R op → Prog O R ε α) :
    (Prog.act op next).relabel name back =
      .act (name op) fun answer => (next (back op answer)).relabel name back := rfl

theorem relabel_mapResult (name : O → O') (back : (op : O) → R' (name op) → R op)
    (f : Except ε α → Except ε' β) (p : Prog O R ε α) :
    (p.mapResult f).relabel name back = (p.relabel name back).mapResult f := by
  induction p with
  | done result => rfl
  | act op next ih => exact congrArg (Prog.act (name op)) (funext fun answer => ih _)

theorem Yields.relabel {name : O → O'} {back : (op : O) → R' (name op) → R op}
    {allowed : (op : O) → R op → Prop} {allowed' : (op : O') → R' op → Prop}
    (named : ∀ op answer, allowed' (name op) answer → allowed op (back op answer))
    {post : Except ε α → Prop} {p : Prog O R ε α} (yields : p.Yields allowed post) :
    (p.relabel name back).Yields allowed' post := by
  induction p with
  | done result => exact yields
  | act op next ih =>
      intro answer answered
      exact ih (back op answer) (yields _ (named op answer answered))

theorem Performs.relabel {name : O → O'} {back : (op : O) → R' (name op) → R op}
    {these : O → Prop} {these' : O' → Prop} (named : ∀ op, these op → these' (name op))
    {p : Prog O R ε α} (performs : p.Performs these) : (p.relabel name back).Performs these' := by
  induction p with
  | done result => trivial
  | act op next ih =>
      exact ⟨named op performs.1, fun answer => ih (back op answer) (performs.2 _)⟩

section Safe

variable {ι σ : Type} {thread : ι} {may : Event ι σ O' R' → Prop}
  {must : List (Event ι σ O' R') → O' → Prop}

theorem safe_mapResult {post : List (Event ι σ O' R') → Except ε' β → Prop}
    {f : Except ε α → Except ε' β} {past : List (Event ι σ O' R')} {p : Prog O' R' ε α} :
    Safe thread may must post past (p.mapResult f) ↔
      Safe thread may must (fun past result => post past (f result)) past p := by
  induction p generalizing past with
  | done result => rfl
  | act op next ih =>
      rw [mapResult_act, safe_act, safe_act]
      exact and_congr_right fun _ => forall_congr' fun before => forall_congr' fun answer =>
        imp_congr_right fun _ => ih answer

/-- Where each handler is safe, leaves what `keeps` says of the events, and gives
allowed answers, a handled program does, and ends as the program can. -/
theorem safe_interp {allowed : (op : O) → R op → Prop} {failed : O → ε → Prop}
    (keeps : List (Event ι σ O' R') → Prop) {handler : (op : O) → Prog O' R' ε (R op)}
    (handles : ∀ op past, keeps past → Safe thread may must
      (fun past result => keeps past ∧ Gives allowed failed op result) past (handler op))
    (p : Prog O R ε α) {past : List (Event ι σ O' R')} (kept : keeps past) :
    Safe thread may must (fun past result => keeps past ∧ p.EndsOr allowed failed result) past
      (p.interp handler) := by
  induction p generalizing past with
  | done result => exact ⟨kept, rfl⟩
  | act op next ih =>
      refine safe_bind.mpr ((handles op past kept).weaken ?_)
      rintro past result ⟨kept, given⟩
      cases result with
      | error e => exact ⟨kept, .inr ⟨e, given, rfl⟩⟩
      | ok answer =>
          refine (ih answer kept).weaken ?_
          rintro past result ⟨kept, ends⟩
          exact ⟨kept, ends.act given⟩

/-- A program only adds to the events. -/
theorem Safe.suffix {post : List (Event ι σ O' R') → Except ε α → Prop}
    {past : List (Event ι σ O' R')} {p : Prog O' R' ε α} (safe : Safe thread may must post past p) :
    Safe thread may must (fun past' result => post past' result ∧ past <:+ past') past p := by
  suffices more : ∀ first, first <:+ past →
      Safe thread may must (fun past' result => post past' result ∧ first <:+ past') past p from
    more past List.suffix_rfl
  intro first before
  induction p generalizing past with
  | done result => exact ⟨safe, before⟩
  | act op next ih =>
      exact ⟨safe.1, fun state answer shown => ih answer (safe.2 state answer shown)
        (before.trans (List.suffix_cons _ _))⟩

/-- A program that owes nothing to earlier events is safe behind others. -/
theorem Safe.behind {owes : O' → Prop} {post : List (Event ι σ O' R') → Except ε α → Prop}
    {past : List (Event ι σ O' R')} {p : Prog O' R' ε α}
    (safe : Safe thread may (fun _ => owes) post past p) (older : List (Event ι σ O' R')) :
    Safe thread may (fun _ => owes)
      (fun past' result => ∃ own, past' = own ++ older ∧ post own result) (past ++ older) p := by
  induction p generalizing past with
  | done result => exact ⟨past, rfl, safe⟩
  | act op next ih =>
      exact ⟨safe.1, fun before answer shown => ih answer (safe.2 before answer shown)⟩

/-- The events of a safe program are of the actions that it performs. -/
theorem Safe.performs {post : List (Event ι σ O' R') → Except ε α → Prop} {these : O' → Prop}
    {past : List (Event ι σ O' R')} {p : Prog O' R' ε α} (safe : Safe thread may must post past p)
    (performs : p.Performs these) (before : ∀ e ∈ past, these e.op) :
    Safe thread may must (fun past result => post past result ∧ ∀ e ∈ past, these e.op) past p := by
  induction p generalizing past with
  | done result => exact ⟨safe, before⟩
  | act op next ih =>
      refine ⟨safe.1, fun state answer shown => ih answer (safe.2 state answer shown)
        (performs.2 answer) ?_⟩
      exact List.forall_mem_cons.mpr ⟨performs.1, before⟩

/-- A program is safe where nothing is owed before the actions that it performs. -/
theorem Performs.safe (these : O' → Prop) {past : List (Event ι σ O' R')} {p : Prog O' R' ε α}
    (performs : p.Performs these) (owes : ∀ past op, these op → must past op) :
    Safe thread may must (fun _ _ => True) past p := by
  induction p generalizing past with
  | done result => trivial
  | act op next ih =>
      exact ⟨owes past op performs.1, fun before answer _ => ih answer (performs.2 answer)⟩

/-- What each of the actions that a program performs keeps, the program keeps. -/
theorem Performs.keeps (keeps : List (Event ι σ O' R') → Prop) {these : O' → Prop}
    (step : ∀ past before op answer, these op → keeps past →
      keeps (⟨thread, before, op, answer⟩ :: past)) {past : List (Event ι σ O' R')}
    {p : Prog O' R' ε α} (performs : p.Performs these) (kept : keeps past) :
    Safe thread may (fun _ _ => True) (fun past _ => keeps past) past p := by
  induction p generalizing past with
  | done result => exact kept
  | act op next ih =>
      exact ⟨trivial, fun before answer _ => ih answer (performs.2 answer)
        (step past before op answer performs.1 kept)⟩

/-- A safe program is safe under other names, where its events can be read off
those of the system. -/
theorem safe_relabel {σ' : Type} {name : O → O'} {back : (op : O) → R' (name op) → R op}
    {may : Event ι σ' O R → Prop} {must : List (Event ι σ' O R) → O → Prop}
    {may' : Event ι σ O' R' → Prop} {must' : List (Event ι σ O' R') → O' → Prop}
    {post : List (Event ι σ' O R) → Except ε α → Prop}
    (reads : List (Event ι σ O' R') → List (Event ι σ' O R) → Prop)
    (owes : ∀ past past' op, reads past' past → must past op → must' past' (name op))
    (answered : ∀ past past' before op answer, reads past' past →
      may' ⟨thread, before, name op, answer⟩ →
        ∃ seen, may ⟨thread, seen, op, back op answer⟩ ∧
          reads (⟨thread, before, name op, answer⟩ :: past')
            (⟨thread, seen, op, back op answer⟩ :: past))
    {p : Prog O R ε α} {past : List (Event ι σ' O R)} {past' : List (Event ι σ O' R')}
    (read : reads past' past) (safe : Safe thread may must post past p) :
    Safe thread may' must' (fun past' result => ∃ past, reads past' past ∧ post past result) past'
      (p.relabel name back) := by
  induction p generalizing past past' with
  | done result => exact ⟨past, read, safe⟩
  | act op next ih =>
      refine ⟨owes past past' op read safe.1, fun before answer shown => ?_⟩
      obtain ⟨seen, allowed, read⟩ := answered past past' before op answer read shown
      exact ih (back op answer) read (safe.2 seen _ allowed)

end Safe

end Prog

end Beerus.Lib
