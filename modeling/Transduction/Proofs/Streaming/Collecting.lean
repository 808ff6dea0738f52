import Transduction.Stage.Collect

/-!
# Sinks that collect a function of their values

A sink may stop the run at any value, also in the middle of what a stage before it makes of a
single one. What it collects is nevertheless described by a function on lists: what was collected
so far, followed by what the function still makes of the values to come, is the same before and
after each value. The function may depend on the state of the sink, and it makes nothing of no
values.

The values are computed by callbacks, which may take time. A run that is not over its deadline when
it ends was not over it at any moment before.

## Main definitions

* `Env.Lapse`: surroundings between which only time passes.
* `Callback.Computes`: callbacks that compute a function.
* `Ended.Continues`: how processing a value agrees with a function on lists.
* `Sink.Collects`: sinks that collect a function of their values.

## Main results

* `Sink.collects_all`: the sink that keeps all values collects the identity.
* `Sink.Collects.feed`: handing over a list is handing over its items.
-/

namespace Transduction

variable {σ X ι κ A B C : Type}

/-! ### Time -/

/-- The surroundings before and after something that only takes time, apart from what callbacks do
to their own state. -/
structure Env.Lapse (before after : Env σ) : Prop where
  token : after.token = before.token
  now_le : before.now ≤ after.now

namespace Env.Lapse

variable {before between after : Env σ}

theorem refl (env : Env σ) : env.Lapse env := ⟨rfl, Nat.le_refl _⟩

theorem trans (first : before.Lapse between) (second : between.Lapse after) : before.Lapse after :=
  ⟨second.token.trans first.token, Nat.le_trans first.now_le second.now_le⟩

theorem record (env : Env σ) (event : Event) : env.Lapse (env.record event) :=
  ⟨rfl, Nat.le_refl _⟩

/-- A run that does not have to stop later does not have to stop now. -/
theorem interruption? (h : before.Lapse after) {context : Context}
    (hafter : after.interruption? context = none) : before.interruption? context = none := by
  have htoken := not_cancelled_of_interruption? hafter
  rw [Env.interruption?, htoken] at hafter
  rw [h.token] at htoken
  rw [Env.interruption?, htoken]
  have hlater : ¬after.isOverdue context = true := by
    intro hoverdue
    rw [if_pos hoverdue] at hafter
    cases hafter
  refine if_neg fun hoverdue => hlater ?_
  cases hdeadline : context.deadline with
  | none => simp [isOverdue, hdeadline] at hoverdue
  | some deadline =>
    simp only [isOverdue, hdeadline, decide_eq_true_eq] at hoverdue ⊢
    exact Nat.le_trans hoverdue h.now_le

/-- Without a deadline a run may take any time. -/
theorem interruption?_eq_none (h : before.Lapse after) (hcalm : before.token.reason = none)
    {context : Context} (hdeadline : context.deadline = none) :
    after.interruption? context = none := by
  simp [Env.interruption?, h.token, hcalm, isOverdue, hdeadline]

theorem happenAll (env : Env σ) {happenings : List Happening}
    (h : ∀ happening ∈ happenings, ∃ nanos, happening = .elapse nanos) :
    env.Lapse (env.happenAll happenings) := by
  induction happenings generalizing env with
  | nil => exact refl env
  | cons happening rest ih =>
    obtain ⟨⟨nanos, rfl⟩, hrest⟩ := List.forall_mem_cons.1 h
    have helapsed : env.Lapse (env.happen (.elapse nanos)) := ⟨rfl, Nat.le_add_right _ _⟩
    exact helapsed.trans (ih _ hrest)

end Env.Lapse

/-! ### Callbacks -/

/-- Callbacks that compute a function: whatever the state they act on, they give the value of the
function, and they take time at most. -/
structure Callback.Computes (callback : Callback σ A B) (f : A → B) : Prop where
  result : ∀ a user, (callback a user).result = .ok (f a)
  happenings : ∀ a user, ∀ happening ∈ (callback a user).happenings,
    ∃ nanos, happening = .elapse nanos

theorem Callback.computes_ofFun (f : A → B) : (ofFun f : Callback σ A B).Computes f where
  result _ _ := rfl
  happenings _ _ _ h := absurd h List.not_mem_nil

/-! ### Sinks -/

/-- How the processing of one value agrees with a function on lists, if the run need not stop: with
`future` for what is collected in the end, given the values to come, and with `F` for what the sink
makes of values in a state. -/
inductive Ended.Keeps (F : κ → List A → List C) (future : List A → List C) :
    Ended σ κ (Verdict X (Array C)) → Prop
  | proceed {acc : Array C} {state : κ} {env : Env σ}
      (h : ∀ rest, future rest = acc.toList ++ F state rest) :
      Keeps F future ⟨.ok (.proceed acc), state, env⟩
  | complete {acc : Array C} {state : κ} {env : Env σ} (h : ∀ rest, future rest = acc.toList) :
      Keeps F future ⟨.ok (.complete acc), state, env⟩

/-- Processing a value only takes time, and it agrees with a function on lists as long as the run
need not stop. -/
structure Ended.Continues (context : Context) (env : Env σ) (F : κ → List A → List C)
    (future : List A → List C) (ended : Ended σ κ (Verdict X (Array C))) : Prop where
  lapse : env.Lapse ended.env
  keeps : ended.env.interruption? context = none → ended.Keeps F future

/-- A sink that collects what a function, which may depend on the state of the sink, makes of its
values. -/
structure Sink.Collects (sink : Sink σ X κ (Array C) A) (F : κ → List A → List C) : Prop where
  nil : ∀ state, F state [] = []
  step : ∀ context acc a state env, Ended.Continues context env F
    (fun rest => acc.toList ++ F state (a :: rest)) (sink context acc a state env)

variable {context : Context} {env : Env σ} {F : κ → List A → List C} {future : List A → List C}

theorem Ended.Continues.of_lapse {before : Env σ} {ended : Ended σ κ (Verdict X (Array C))}
    (h : ended.Continues context env F future) (hlapse : before.Lapse env) :
    ended.Continues context before F future :=
  ⟨hlapse.trans h.lapse, h.keeps⟩

theorem Callback.Computes.continues {B' : Type} {callback : Callback σ B B'} {f : B → B'}
    (h : callback.Computes f) (b : B) {next : B' → Step σ κ (Verdict X (Array C))} {state : κ}
    (hnext : ∀ env, (next (f b) state env).Continues context env F future) (env : Env σ) :
    ((Step.call callback b >>= next) state env).Continues context env F future := by
  have hcall : Step.call callback b state env = ⟨.ok (f b), state,
      ({ env with user := (callback b env.user).user } : Env σ).happenAll
        (callback b env.user).happenings⟩ := by
    rw [Step.call, h.result]
    rfl
  have huser : env.Lapse { env with user := (callback b env.user).user } := ⟨rfl, Nat.le_refl _⟩
  rw [Step.bind_of_ok hcall]
  exact (hnext _).of_lapse (huser.trans (.happenAll _ (h.happenings b env.user)))

theorem Sink.collects_all :
    (Sink.all : Sink σ X Unit (Array A) A).Collects fun _ values => values where
  nil _ := rfl
  step context acc a state env := by
    refine ⟨.refl env, fun _ => .proceed fun rest => ?_⟩
    rw [Array.toList_push, List.append_assoc]
    rfl

namespace Sink.Collects

variable {sink : Sink σ X κ (Array C) A}

/-- A sink that was handed the items of a list has collected what its function makes of them. -/
theorem feed (h : sink.Collects F) (items : List A) (acc : Array C) (state : κ) (env : Env σ) :
    (feed sink context items acc state env).Continues context env F
      fun rest => acc.toList ++ F state (items ++ rest) := by
  induction items generalizing acc state env with
  | nil => exact ⟨.refl env, fun _ => .proceed fun rest => rfl⟩
  | cons item items ih =>
    rw [Transduction.feed]
    cases hstop : env.interruption? context with
    | some failure =>
      have hlapse := Env.Lapse.record env (.stopped failure)
      refine ⟨hlapse, fun hcalm => ?_⟩
      cases hstop.symm.trans (hlapse.interruption? hcalm)
    | none =>
      have hitem := (h.step context acc item state (env.record .handed)).of_lapse (.record env _)
      simp only
      generalize sink context acc item state (env.record .handed) = ended at hitem ⊢
      rcases ended with ⟨_ | verdict, state', env'⟩
      · exact ⟨hitem.lapse, fun hcalm => by cases hitem.keeps hcalm⟩
      · cases verdict with
        | proceed acc' =>
          have hrest := ih acc' state' env'
          refine ⟨hitem.lapse.trans hrest.lapse, fun hcalm => ?_⟩
          cases hitem.keeps (hrest.lapse.interruption? hcalm) with
          | proceed hfuture =>
            simp only [List.cons_append, hfuture]
            exact hrest.keeps hcalm
        | complete acc' =>
          refine ⟨hitem.lapse, fun hcalm => ?_⟩
          cases hitem.keeps hcalm with
          | complete hfuture => exact .complete fun rest => hfuture (items ++ rest)
        | fail | alternate => exact ⟨hitem.lapse, fun hcalm => by cases hitem.keeps hcalm⟩

end Sink.Collects

end Transduction
