import Transduction.Stage.Run
import Transduction.Proofs.Attempts.Retries

/-!
# Runs that match

Two runs of one stage in different surroundings need not differ. The relation between them has to
allow for everything that the surroundings of two runs may differ in without a stage noticing: the
state that callbacks act on, the random numbers, the identifiers, the registries opened by scopes,
and the history. What a stage does notice is whether it is cancelled, and for what reason, and, if
there is a deadline, the clock.

The relation is carried through steps in the manner of a logical relation. It says nothing about
the accumulators and about what is downstream, for which there are relations of their own, so a run
may also be compared with a run in front of another sink.

## Main definitions

* `Ground`, `Env.Near`: surroundings that a stage cannot tell apart.
* `Callback.Inert`: callbacks that stages notice nothing of but the result.
* `Verdict.Corresponds`, `Ended.Matches`, `Step.Matches`, `Sink.Matches`: the relations.

## Main results

* `Step.Matches.bind`, `Step.matches_call`: sequences and calls.
* `Step.Matches.nested`, `Step.Matches.onFirst`, `Step.Matches.onSecond`: steps of one of several
  instances.
* `Sink.Matches.feed`: sources.
-/

namespace Transduction

variable {σ X ι ι' κ κ' S S' A B T α α' β β' : Type}

/-! ### Surroundings -/

/-- What two runs have in common: their deadline, the time on the clock, which matters only if there
is a deadline, and a number of registries that were there before. -/
structure Ground where
  deadline : Option Nat
  moment : Nat
  floor : Nat

/-- The ground under a run that begins in a context. -/
def Env.ground (env : Env σ) (context : Context) : Ground where
  deadline := context.deadline
  moment := env.now
  floor := env.store.opened

/-- Surroundings in which the clock stands still if there is a deadline, and nothing is registered
but in the registries that were there before. -/
structure Env.Stands (ground : Ground) (env : Env σ) : Prop where
  now : ground.deadline ≠ none → env.now = ground.moment
  entries : ∀ entry ∈ env.store.entries, entry.registry.index < ground.floor
  opened : ground.floor ≤ env.store.opened

/-- Surroundings that a stage cannot tell apart. -/
structure Env.Near (ground : Ground) (env env' : Env σ) : Prop where
  reason : env.token.reason = env'.token.reason
  left : env.Stands ground
  right : env'.Stands ground

variable {ground : Ground} {env env' : Env σ}

/-- Changes of the surroundings that are not noticed. -/
theorem Env.Stands.of_eq {after : Env σ} (h : env.Stands ground) (hnow : after.now = env.now)
    (hentries : after.store.entries = env.store.entries)
    (hopened : env.store.opened ≤ after.store.opened) : after.Stands ground where
  now hdeadline := hnow.trans (h.now hdeadline)
  entries := by
    rw [hentries]
    exact h.entries
  opened := Nat.le_trans h.opened hopened

theorem Env.Stands.cancel (h : env.Stands ground) (reason : String) :
    (env.cancel reason).Stands ground := by
  rw [Env.cancel]
  split
  · exact h
  · exact h.of_eq rfl rfl (Nat.le_refl _)

/-- Time may pass if there is no deadline. -/
theorem Env.Stands.elapse (h : env.Stands ground) (hdeadline : ground.deadline = none)
    (nanos : Nat) : (env.happen (.elapse nanos)).Stands ground where
  now hsome := absurd hdeadline hsome
  entries := h.entries
  opened := h.opened

/-- Happenings that stages do not notice: time passes, if there is no deadline. -/
def Happening.Inert (deadline : Option Nat) (happening : Happening) : Prop :=
  deadline = none ∧ ∃ nanos, happening = .elapse nanos

theorem Env.Stands.happenAll (h : env.Stands ground) {happenings : List Happening}
    (hinert : ∀ happening ∈ happenings, happening.Inert ground.deadline) :
    (env.happenAll happenings).Stands ground ∧
      (env.happenAll happenings).token = env.token := by
  induction happenings generalizing env with
  | nil => exact ⟨h, rfl⟩
  | cons happening rest ih =>
    obtain ⟨⟨hdeadline, nanos, rfl⟩, hrest⟩ := List.forall_mem_cons.1 hinert
    exact ih (h.elapse hdeadline nanos) hrest

section Empty

variable {registry : RegistryId}

theorem Store.drain_of_empty {store : Store σ} (h : store.entriesOf registry = []) :
    store.drain registry = ([], store) := by
  have hall : store.entries.filter (fun entry => !decide (entry.registry = registry)) =
      store.entries := by
    rw [Store.entriesOf, List.filter_eq_nil_iff] at h
    exact List.filter_eq_self.2 fun entry hentry => by simpa using h entry hentry
  rw [Store.drain, h, hall]

/-- Cleaning an empty registry does nothing. -/
theorem Env.clean_of_empty (h : env.store.entriesOf registry = []) :
    (env.clean registry).2 = env := by
  rw [Env.clean, Store.drain_of_empty h, List.map_nil, settle]

/-- Dropping an empty registry closes it and does nothing else. -/
theorem Env.dropRegistry_of_empty (h : env.store.entriesOf registry = []) :
    env.dropRegistry registry = { env with store := env.store.close registry } := by
  have hclosed : (env.store.close registry).entriesOf registry = [] := h
  rw [Env.dropRegistry, Store.drain_of_empty hclosed, List.map_nil, settle]

/-- A registry that was opened meanwhile is empty, so closing its scope releases nothing. -/
theorem Env.Stands.close (h : env.Stands ground) (hregistry : ground.floor ≤ registry.index) :
    let closed := ((env.clean registry).2).dropRegistry registry
    closed.Stands ground ∧ closed.token = env.token := by
  have hempty : env.store.entriesOf registry = [] := by
    rw [Store.entriesOf, List.filter_eq_nil_iff]
    intro entry hentry
    have hlt := h.entries entry hentry
    have hne : entry.registry ≠ registry := by
      rintro rfl
      omega
    simpa using hne
  rw [Env.clean_of_empty hempty, Env.dropRegistry_of_empty hempty]
  exact ⟨h.of_eq rfl rfl (Nat.le_refl _), rfl⟩

end Empty

namespace Env.Near

/-- Near surroundings give the same reason to stop. -/
theorem interruption? (h : env.Near ground env') {context context' : Context}
    (hcontext : context.deadline = ground.deadline)
    (hcontext' : context'.deadline = ground.deadline) :
    env.interruption? context = env'.interruption? context' := by
  have hoverdue : env.isOverdue context = env'.isOverdue context' := by
    rw [isOverdue, isOverdue, hcontext, hcontext']
    cases hdeadline : ground.deadline with
    | none => rfl
    | some deadline =>
      have hsome : ground.deadline ≠ none := by
        rw [hdeadline]
        exact nofun
      rw [h.left.now hsome, h.right.now hsome]
  rw [Env.interruption?, Env.interruption?, h.reason, hoverdue]

/-- A change of both surroundings that leaves alone what stages notice. -/
theorem of_stands (h : env.Near ground env') {after after' : Env σ} (hafter : after.Stands ground)
    (hafter' : after'.Stands ground) (htoken : after.token = env.token)
    (htoken' : after'.token = env'.token) : after.Near ground after' :=
  ⟨by rw [htoken, htoken', h.reason], hafter, hafter'⟩

theorem record (h : env.Near ground env') (event event' : Event) :
    (env.record event).Near ground (env'.record event') :=
  h.of_stands (h.left.of_eq rfl rfl (Nat.le_refl _)) (h.right.of_eq rfl rfl (Nat.le_refl _)) rfl rfl

theorem cancel (h : env.Near ground env') (reason : String) :
    (env.cancel reason).Near ground (env'.cancel reason) where
  reason := by rw [token_cancel, token_cancel, Token.reason_cancel, Token.reason_cancel, h.reason]
  left := h.left.cancel reason
  right := h.right.cancel reason

end Env.Near

/-! ### Callbacks -/

/-- Callbacks that stages notice nothing of but the result: it does not depend on the state that
callbacks act on, nothing is cancelled, and time passes only if there is no deadline. -/
structure Callback.Inert (deadline : Option Nat) (callback : Callback σ A B) : Prop where
  result : ∀ a user user', (callback a user).result = (callback a user').result
  happenings : ∀ a user, ∀ happening ∈ (callback a user).happenings, happening.Inert deadline

theorem Callback.inert_ofFun (deadline : Option Nat) (f : A → B) :
    (ofFun f : Callback σ A B).Inert deadline where
  result _ _ _ := rfl
  happenings _ _ _ h := absurd h List.not_mem_nil

/-! ### Steps -/

/-- Verdicts that differ in their accumulators only, which are related. -/
inductive Verdict.Corresponds (R : S → S' → Prop) : Verdict X S → Verdict X S' → Prop
  | proceed {acc acc'} (h : R acc acc') : Corresponds R (.proceed acc) (.proceed acc')
  | complete {acc acc'} (h : R acc acc') : Corresponds R (.complete acc) (.complete acc')
  | fail (failure) : Corresponds R (.fail failure) (.fail failure)
  | alternate (value) : Corresponds R (.alternate value) (.alternate value)

theorem Verdict.Corresponds.eq {verdict verdict' : Verdict X S}
    (h : Verdict.Corresponds Eq verdict verdict') : verdict = verdict' := by
  cases h with
  | proceed h | complete h => rw [h]
  | fail | alternate => rfl

theorem Verdict.Corresponds.completed {R : S → S' → Prop} {verdict : Verdict X S}
    {verdict' : Verdict X S'} (h : Verdict.Corresponds R verdict verdict') :
    Verdict.Corresponds R verdict.completed verdict'.completed := by
  cases h with
  | proceed h | complete h => exact .complete h
  | fail failure => exact .fail failure
  | alternate value => exact .alternate value

/-- Two states of a stage and of what is downstream of it. -/
def Beside (I : ι → ι' → Prop) (P : κ → κ' → Prop) (state : ι × κ) (state' : ι' × κ') : Prop :=
  I state.1 state'.1 ∧ P state.2 state'.2

/-- Two steps ended in the same way, with related results and states and near surroundings. -/
inductive Ended.Matches (ground : Ground) (P : κ → κ' → Prop) (Q : α → α' → Prop) :
    Ended σ κ α → Ended σ κ' α' → Prop
  | ok {a a' state state' env env'} (hresult : Q a a') (hstate : P state state')
      (henv : Env.Near ground env env') :
      Matches ground P Q ⟨.ok a, state, env⟩ ⟨.ok a', state', env'⟩
  | halted {state state' env env'} (reason : Halt) (hstate : P state state')
      (henv : Env.Near ground env env') :
      Matches ground P Q ⟨.error reason, state, env⟩ ⟨.error reason, state', env'⟩

/-- Steps that match from related states and near surroundings on. -/
def Step.Matches (ground : Ground) (P : κ → κ' → Prop) (Q : α → α' → Prop) (step : Step σ κ α)
    (step' : Step σ κ' α') : Prop :=
  ∀ state state' env env', P state state' → Env.Near ground env env' →
    Ended.Matches ground P Q (step state env) (step' state' env')

/-- Sinks that match on related accumulators and equal values, in any contexts with the deadline of
the two runs. -/
def Sink.Matches (ground : Ground) (P : κ → κ' → Prop) (R : S → S' → Prop) (sink : Sink σ X κ S A)
    (sink' : Sink σ X κ' S' A) : Prop :=
  ∀ (context context' : Context) acc acc' value, context.deadline = ground.deadline →
    context'.deadline = ground.deadline → R acc acc' →
    Step.Matches ground P (Verdict.Corresponds R) (sink context acc value)
      (sink' context' acc' value)

namespace Step

variable {I : ι → ι' → Prop} {P : κ → κ' → Prop} {Q : α → α' → Prop} {R : β → β' → Prop}

theorem matches_pure {a : α} {a' : α'} (h : Q a a') :
    (pure a : Step σ κ α).Matches ground P Q (pure a' : Step σ κ' α') :=
  fun _ _ _ _ hstate henv => .ok h hstate henv

theorem matches_halt (reason : Halt) :
    (halt reason : Step σ κ α).Matches ground P Q (halt reason : Step σ κ' α') :=
  fun _ _ _ _ hstate henv => .halted reason hstate henv

theorem matches_ask {f : Env σ → α} {f' : Env σ → α'}
    (h : ∀ env env', Env.Near ground env env' → Q (f env) (f' env')) :
    (ask f : Step σ κ α).Matches ground P Q (ask f' : Step σ κ' α') :=
  fun _ _ env env' hstate henv => .ok (h env env' henv) hstate henv

theorem matches_update {f f' : Env σ → Env σ}
    (h : ∀ env env', Env.Near ground env env' → Env.Near ground (f env) (f' env')) :
    (update f : Step σ κ Unit).Matches ground P Eq (update f' : Step σ κ' Unit) :=
  fun _ _ env env' hstate henv => .ok rfl hstate (h env env' henv)

theorem matches_stop (failure : Failure) :
    (stop failure : Step σ κ Failure).Matches ground P Eq (stop failure : Step σ κ' Failure) :=
  fun _ _ _ _ hstate henv => .ok rfl hstate (henv.record _ _)

/-- Calls match if they have the same result and nothing happens that is noticed. -/
theorem matches_calls {callback callback' : Callback σ A B} {a a' : A}
    (hresult : ∀ user user', (callback a user).result = (callback' a' user').result)
    (h : ∀ user, ∀ happening ∈ (callback a user).happenings, happening.Inert ground.deadline)
    (h' : ∀ user, ∀ happening ∈ (callback' a' user).happenings,
      happening.Inert ground.deadline) :
    (call callback a : Step σ κ B).Matches ground P Eq (call callback' a' : Step σ κ' B) := by
  intro state state' env env' hstate henv
  have hafter (env : Env σ) (hstands : env.Stands ground) (user : σ) {happenings : List Happening}
      (hinert : ∀ happening ∈ happenings, happening.Inert ground.deadline) :
      let after := ({ env with user } : Env σ).happenAll happenings
      after.Stands ground ∧ after.token = env.token := by
    have huser : Env.Stands ground { env with user } := hstands.of_eq rfl rfl (Nat.le_refl _)
    exact huser.happenAll hinert
  obtain ⟨hleft, htoken⟩ := hafter env henv.left (callback a env.user).user (h env.user)
  obtain ⟨hright, htoken'⟩ := hafter env' henv.right (callback' a' env'.user).user (h' env'.user)
  have hnear := henv.of_stands hleft hright htoken htoken'
  simp only [call, hresult env.user env'.user]
  cases (callback' a' env'.user).result with
  | ok b => exact .ok rfl hstate hnear
  | error message => exact .halted _ hstate hnear

/-- Calls of inert callbacks match. -/
theorem matches_call {callback : Callback σ A B} (h : callback.Inert ground.deadline) (a : A) :
    (call callback a : Step σ κ B).Matches ground P Eq (call callback a : Step σ κ' B) :=
  matches_calls (h.result a) (h.happenings a) (h.happenings a)

namespace Matches

theorem bind {first : Step σ κ α} {first' : Step σ κ' α'} {next : α → Step σ κ β}
    {next' : α' → Step σ κ' β'} (hfirst : first.Matches ground P Q first')
    (hnext : ∀ a a', Q a a' → (next a).Matches ground P R (next' a')) :
    (first >>= next).Matches ground P R (first' >>= next') := by
  intro state state' env env' hstate henv
  have hended := hfirst state state' env env' hstate henv
  rw [bind_apply, bind_apply]
  generalize first state env = ended, first' state' env' = ended' at hended ⊢
  cases hended with
  | ok hresult hstate henv => exact hnext _ _ hresult _ _ _ _ hstate henv
  | halted reason hstate henv => exact .halted reason hstate henv

/-- After equal results the same is done. -/
theorem bindEq {first : Step σ κ α} {first' : Step σ κ' α} {next : α → Step σ κ β}
    {next' : α → Step σ κ' β'} (hfirst : first.Matches ground P Eq first')
    (hnext : ∀ a, (next a).Matches ground P R (next' a)) :
    (first >>= next).Matches ground P R (first' >>= next') :=
  hfirst.bind fun a _ h => h ▸ hnext a

theorem map {step : Step σ κ α} {step' : Step σ κ' α'} (h : step.Matches ground P Q step')
    {f : α → β} {f' : α' → β'} (hf : ∀ a a', Q a a' → R (f a) (f' a')) :
    (f <$> step).Matches ground P R (f' <$> step') := by
  rw [map_eq_pure_bind, map_eq_pure_bind]
  exact h.bind fun a a' hresult => matches_pure (hf a a' hresult)

/-- Steps on parts of larger states. -/
theorem zoom {step : Step σ ι α} {step' : Step σ ι' α'} (h : step.Matches ground I Q step')
    {view : κ → ι} {view' : κ' → ι'} {replace : κ → ι → κ} {replace' : κ' → ι' → κ'}
    (hview : ∀ state state', P state state' → I (view state) (view' state'))
    (hreplace : ∀ state state' part part', P state state' → I part part' →
      P (replace state part) (replace' state' part')) :
    (step.zoom view replace).Matches ground P Q (step'.zoom view' replace') := by
  intro state state' env env' hstate henv
  have hended := h _ _ env env' (hview state state' hstate) henv
  simp only [Step.zoom]
  generalize step (view state) env = ended, step' (view' state') env' = ended' at hended ⊢
  cases hended with
  | ok hresult hpart henv => exact .ok hresult (hreplace _ _ _ _ hstate hpart) henv
  | halted reason hpart henv => exact .halted reason (hreplace _ _ _ _ hstate hpart) henv

theorem below {step : Step σ κ α} {step' : Step σ κ' α'} (h : step.Matches ground P Q step') :
    (Sink.below step : Step σ (ι × κ) α).Matches ground (Beside I P) Q
      (Sink.below step' : Step σ (ι' × κ') α') :=
  h.zoom (fun _ _ hstate => hstate.2) fun _ _ _ _ hstate hpart => ⟨hstate.1, hpart⟩

theorem within {inner : ι} {inner' : ι'} (hinner : I inner inner') {step : Step σ (ι × κ) α}
    {step' : Step σ (ι' × κ') α'} (h : step.Matches ground (Beside I P) Q step') :
    (step.within inner).Matches ground P (Beside Q I) (step'.within inner') := by
  intro state state' env env' hstate henv
  have hended := h (inner, state) (inner', state') env env' ⟨hinner, hstate⟩ henv
  simp only [Step.within]
  generalize step (inner, state) env = ended, step' (inner', state') env' = ended' at hended ⊢
  cases hended with
  | ok hresult hpart henv => exact .ok ⟨hresult, hpart.1⟩ hpart.2 henv
  | halted reason hpart henv => exact .halted reason hpart.2 henv

theorem isolated {inner : ι} {inner' : ι'} (hinner : I inner inner') {step : Step σ ι α}
    {step' : Step σ ι' α'} (h : step.Matches ground I Q step') :
    (step.isolated inner : Step σ κ α).Matches ground P Q
      (step'.isolated inner' : Step σ κ' α') := by
  intro state state' env env' hstate henv
  have hended := h inner inner' env env' hinner henv
  simp only [Step.isolated]
  generalize step inner env = ended, step' inner' env' = ended' at hended ⊢
  cases hended with
  | ok hresult _ henv => exact .ok hresult hstate henv
  | halted reason _ henv => exact .halted reason hstate henv

end Matches

theorem matches_own : (Sink.own : Step σ (ι × κ) ι).Matches ground (Beside I P) I
    (Sink.own : Step σ (ι' × κ') ι') :=
  fun _ _ _ _ hstate henv => .ok hstate.1 hstate henv

theorem matches_setOwn {mine : ι} {mine' : ι'} (h : I mine mine') :
    (Sink.setOwn mine : Step σ (ι × κ) Unit).Matches ground (Beside I P) Eq
      (Sink.setOwn mine' : Step σ (ι' × κ') Unit) :=
  fun _ _ _ _ hstate henv => .ok rfl ⟨h, hstate.2⟩ henv

end Step

/-! ### Parts of the state of an instance -/

namespace Step.Matches

variable {P : κ → κ' → Prop}

section Parts

variable {Q : α → α' → Prop} {step : Step σ (ι × κ) α} {step' : Step σ (ι × κ') α'}
  (h : step.Matches ground (Beside Eq P) Q step')

include h

/-- A step of the first of two instances, in front of what is downstream of both. -/
theorem onFirst :
    (step.zoom (fun state : (ι × ι') × κ => (state.1.1, state.2))
      fun old state => ((state.1, old.1.2), state.2)).Matches ground (Beside Eq P) Q
      (step'.zoom (fun state : (ι × ι') × κ' => (state.1.1, state.2))
        fun old state => ((state.1, old.1.2), state.2)) :=
  h.zoom (fun _ _ hstate => ⟨(congrArg Prod.fst hstate.1 :), hstate.2⟩)
    fun _ _ _ _ hstate hpart =>
      ⟨Prod.ext hpart.1 (congrArg Prod.snd hstate.1 :), hpart.2⟩

/-- A step of the second of two instances, in front of what is downstream of both. -/
theorem onSecond :
    (step.zoom (fun state : (ι' × ι) × κ => (state.1.2, state.2))
      fun old state => ((old.1.1, state.1), state.2)).Matches ground (Beside Eq P) Q
      (step'.zoom (fun state : (ι' × ι) × κ' => (state.1.2, state.2))
        fun old state => ((old.1.1, state.1), state.2)) :=
  h.zoom (fun _ _ hstate => ⟨(congrArg Prod.snd hstate.1 :), hstate.2⟩)
    fun _ _ _ _ hstate hpart =>
      ⟨Prod.ext (congrArg Prod.fst hstate.1 :) hpart.1, hpart.2⟩

end Parts

/-- A step of the first of two instances, with a state beside the two in front of what is
downstream. -/
theorem besideFirst {Q : α → α' → Prop} {I : S → S' → Prop} {step : Step σ (ι × S × κ) α}
    {step' : Step σ (ι × S' × κ') α'} (h : step.Matches ground (Beside Eq (Beside I P)) Q step') :
    (step.zoom (fun state : S × (ι × ι') × κ => (state.2.1.1, (state.1, state.2.2)))
      fun old state => (state.2.1, ((state.1, old.2.1.2), state.2.2))).Matches ground
      (Beside I (Beside Eq P)) Q
      (step'.zoom (fun state : S' × (ι × ι') × κ' => (state.2.1.1, (state.1, state.2.2)))
        fun old state => (state.2.1, ((state.1, old.2.1.2), state.2.2))) :=
  h.zoom (fun _ _ hstate => ⟨(congrArg Prod.fst hstate.2.1 :), hstate.1, hstate.2.2⟩)
    fun _ _ _ _ hstate hpart =>
      ⟨hpart.2.1, Prod.ext hpart.1 (congrArg Prod.snd hstate.2.1 :), hpart.2.2⟩

/-- A step of an instance in front of another one. -/
theorem nested {Q : α → α' → Prop} {step : Step σ (ι × ι' × κ) α} {step' : Step σ (ι × ι' × κ') α'}
    (h : step.Matches ground (Beside Eq (Beside Eq P)) Q step') :
    (step.zoom (fun state : (ι × ι') × κ => (state.1.1, (state.1.2, state.2)))
      fun _ state => ((state.1, state.2.1), state.2.2)).Matches ground (Beside Eq P) Q
      (step'.zoom (fun state : (ι × ι') × κ' => (state.1.1, (state.1.2, state.2)))
        fun _ state => ((state.1, state.2.1), state.2.2)) :=
  h.zoom (fun _ _ hstate => ⟨(congrArg Prod.fst hstate.1 :), (congrArg Prod.snd hstate.1 :),
      hstate.2⟩)
    fun _ _ _ _ _ hpart => ⟨Prod.ext hpart.1 hpart.2.1, hpart.2.2⟩

section Apart

variable {Q : α → α' → Prop} {step : Step σ (ι × Unit) α} {step' : Step σ (ι × Unit) α'}
  (h : step.Matches ground (Beside Eq Eq) Q step')

include h

/-- A step of an instance with nothing downstream of it. -/
theorem atOwn :
    (step.zoom (fun state : ι × κ => (state.1, ()))
      fun old state => (state.1, old.2)).Matches ground (Beside Eq P) Q
      (step'.zoom (fun state : ι × κ' => (state.1, ())) fun old state => (state.1, old.2)) :=
  h.zoom (fun _ _ hstate => ⟨hstate.1, rfl⟩) fun _ _ _ _ hstate hpart => ⟨hpart.1, hstate.2⟩

/-- A step of the first of two instances, with nothing downstream of it. -/
theorem atFirst :
    (step.zoom (fun state : (ι × ι') × κ => (state.1.1, ()))
      fun old state => ((state.1, old.1.2), old.2)).Matches ground (Beside Eq P) Q
      (step'.zoom (fun state : (ι × ι') × κ' => (state.1.1, ()))
        fun old state => ((state.1, old.1.2), old.2)) :=
  h.zoom (fun _ _ hstate => ⟨(congrArg Prod.fst hstate.1 :), rfl⟩)
    fun _ _ _ _ hstate hpart =>
      ⟨Prod.ext hpart.1 (congrArg Prod.snd hstate.1 :), hstate.2⟩

/-- A step of the second of two instances, with nothing downstream of it. -/
theorem atSecond :
    (step.zoom (fun state : (ι' × ι) × κ => (state.1.2, ()))
      fun old state => ((old.1.1, state.1), old.2)).Matches ground (Beside Eq P) Q
      (step'.zoom (fun state : (ι' × ι) × κ' => (state.1.2, ()))
        fun old state => ((old.1.1, state.1), old.2)) :=
  h.zoom (fun _ _ hstate => ⟨(congrArg Prod.snd hstate.1 :), rfl⟩)
    fun _ _ _ _ hstate hpart =>
      ⟨Prod.ext (congrArg Prod.fst hstate.1 :) hpart.1, hstate.2⟩

end Apart

end Step.Matches

/-! ### Sinks -/

namespace Sink

theorem matches_first : (first : Sink σ X Unit (Option A) A).Matches ground Eq Eq first :=
  fun _ _ _ _ _ _ _ _ => Step.matches_pure (.complete rfl)

theorem matches_last : (last : Sink σ X Unit (Option A) A).Matches ground Eq Eq last :=
  fun _ _ _ _ _ _ _ _ => Step.matches_pure (.proceed rfl)

theorem matches_all : (all : Sink σ X Unit (Array A) A).Matches ground Eq Eq all := by
  rintro _ _ values _ value _ _ rfl
  exact Step.matches_pure (.proceed rfl)

end Sink

section Parts

variable {P : κ → κ' → Prop} {R : S → S' → Prop} {context context' : Context} {acc : S} {acc' : S'}

/-- Unless there is a reason to stop, which both runs see, steps match. -/
theorem Step.matches_unlessInterrupted {next : Step σ κ (Verdict X S)}
    {next' : Step σ κ' (Verdict X S')} (hcontext : context.deadline = ground.deadline)
    (hcontext' : context'.deadline = ground.deadline)
    (h : next.Matches ground P (Verdict.Corresponds R) next') :
    Step.Matches ground P (Verdict.Corresponds R)
      (fun state env =>
        match env.interruption? context with
        | some failure => ⟨.ok (.fail failure), state, env.record (.stopped failure)⟩
        | none => next state env)
      fun state env =>
        match env.interruption? context' with
        | some failure => ⟨.ok (.fail failure), state, env.record (.stopped failure)⟩
        | none => next' state env := by
  intro state state' env env' hstate henv
  simp only
  rw [henv.interruption? hcontext hcontext']
  cases env'.interruption? context' with
  | some failure => exact .ok (.fail failure) hstate (henv.record _ _)
  | none => exact h state state' env env' hstate henv

namespace Sink.Matches

variable {sink : Sink σ X κ S A} {sink' : Sink σ X κ' S' A}

theorem comap (h : sink.Matches ground P R sink') (f : B → A) :
    Sink.Matches ground P R (fun context acc b => sink context acc (f b))
      fun context acc b => sink' context acc (f b) :=
  fun context context' acc acc' b => h context context' acc acc' (f b)

section Sources

variable (hcontext : context.deadline = ground.deadline)
  (hcontext' : context'.deadline = ground.deadline)

include hcontext hcontext'

/-- Handing an item to a sink, and going on with the rest if the sink asks for more. -/
theorem hand (h : sink.Matches ground P R sink') (item : A) (hacc : R acc acc')
    {rest : S → Step σ κ (Verdict X S)} {rest' : S' → Step σ κ' (Verdict X S')}
    (hrest : ∀ acc acc', R acc acc' →
      (rest acc).Matches ground P (Verdict.Corresponds R) (rest' acc')) :
    Step.Matches ground P (Verdict.Corresponds R)
      (fun state env =>
        match sink context acc item state (env.record .handed) with
        | ⟨.ok (.proceed acc), state, env⟩ => rest acc state env
        | ended => ended)
      fun state env =>
        match sink' context' acc' item state (env.record .handed) with
        | ⟨.ok (.proceed acc), state, env⟩ => rest' acc state env
        | ended => ended := by
  intro state state' env env' hstate henv
  have hended := h context context' acc acc' item hcontext hcontext' hacc state state' _ _ hstate
    (henv.record .handed .handed)
  simp only
  generalize sink context acc item state (env.record .handed) = ended,
    sink' context' acc' item state' (env'.record .handed) = ended' at hended ⊢
  cases hended with
  | halted reason hstate henv => exact .halted reason hstate henv
  | ok hverdict hstate henv =>
    cases hverdict with
    | proceed hacc => exact hrest _ _ hacc _ _ _ _ hstate henv
    | complete hacc => exact .ok (.complete hacc) hstate henv
    | fail failure => exact .ok (.fail failure) hstate henv
    | alternate value => exact .ok (.alternate value) hstate henv

theorem feed (h : sink.Matches ground P R sink') (items : List A) (hacc : R acc acc') :
    Step.Matches ground P (Verdict.Corresponds R) (feed sink context items acc)
      (feed sink' context' items acc') := by
  induction items generalizing acc acc' with
  | nil => exact Step.matches_pure (.proceed hacc)
  | cons item rest ih =>
    exact Step.matches_unlessInterrupted hcontext hcontext'
      (h.hand hcontext hcontext' item hacc fun _ _ => ih)

theorem feedCount {sink : Sink σ X κ S Nat} {sink' : Sink σ X κ' S' Nat}
    (h : sink.Matches ground P R sink') (left next : Nat) (hacc : R acc acc') :
    Step.Matches ground P (Verdict.Corresponds R) (feedCount sink context left next acc)
      (feedCount sink' context' left next acc') := by
  induction left generalizing next acc acc' with
  | zero => exact Step.matches_pure (.proceed hacc)
  | succ left ih =>
    exact Step.matches_unlessInterrupted hcontext hcontext'
      (h.hand hcontext hcontext' next hacc fun _ _ => ih (next + 1))

theorem drainFeed (h : sink.Matches ground P R sink') (lift : B → Except Failure A)
    (tail : Feed.Tail) (items : List B) (hacc : R acc acc') :
    Step.Matches ground P (Verdict.Corresponds R) (drainFeed sink lift context tail items acc)
      (drainFeed sink' lift context' tail items acc') := by
  induction items generalizing acc acc' with
  | nil =>
    refine Step.matches_unlessInterrupted hcontext hcontext' ?_
    rcases tail with _ | reason | _
    · exact Step.matches_pure (.proceed hacc)
    · intro state state' env env' hstate henv
      have hcancelled := henv.cancel reason
      have hfailure : (env.cancel reason).interruption context =
          (env'.cancel reason).interruption context' := by
        rw [Env.interruption, Env.interruption, hcancelled.interruption? hcontext hcontext']
      simp only [hfailure]
      exact .ok (.fail _) hstate (hcancelled.record _ _)
    · exact fun _ _ _ _ hstate henv => .halted .endless hstate henv
  | cons item rest ih =>
    refine Step.matches_unlessInterrupted hcontext hcontext' ?_
    cases lift item with
    | error failure => exact Step.matches_pure (.fail failure)
    | ok value => exact h.hand hcontext hcontext' value hacc fun _ _ => ih

end Sources

end Sink.Matches

end Parts

end Transduction
