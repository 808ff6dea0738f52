import Mathlib.Order.Interval.Set.LinearOrder
import Transduction.Proofs.Emission.Stages

/-!
# Shared sinks and their locks

Several instances may end in one sink. Such a sink is shared under a lock, so that its calls come
one after the other: a call takes the lock and gives it back when it ends. A call that comes while
another call of the same sink is in progress finds the lock held, and it will wait for good, since
the call in progress is its own caller.

Here a run has its locks beside its state, with every request for a lock in a list. A step with
locks is not hindered if no lock that it needs is held: then it is granted whatever it asks for,
leaves all locks as it found them, and does what the step without locks does. This is kept by
everything that stages are made of. Sharing a sink adds its lock to what the sink needs, and is
possible only if the sink does not need it already.

## Main definitions

* `Locks`: locks, with a list of the requests for them.
* `LockedSink.shared`: a sink that is shared under a lock.
* `Step.zoomLocked`, `Step.withinLocked`, `LockedSink.relay`: steps and sinks with locks.
* `Locks.Free`, `Locks.Served`: no lock that is needed is held, and every request was granted.
* `Step.Unhindered`, `LockedSink.Unhindered`: steps and sinks that never wait for a lock.

## Main results

* `LockedSink.Unhindered.shared`: sharing a sink.
* `LockedSink.shared_shared`: a sink that waits for itself.
* `Step.Unhindered.bind`, `Step.Unhindered.zoom`, `Step.Unhindered.repeatRounds` and the like: the
  parts of a step and the step.
* `LockedSink.Unhindered.run`: a stage that shares nothing.
-/

namespace Transduction

variable {σ X ι δ κ S A B T R α β : Type}

/-! ### Locks -/

/-- A request for a lock. It is granted if no call holds the lock. -/
structure LockRequest where
  lock : Nat
  granted : Bool
  deriving DecidableEq, Repr

/-- The locks of a run: the number of locks made so far, those that are held by calls in progress,
the latest one first, and all requests, in order. -/
structure Locks where
  made : Nat
  held : List Nat
  requests : List LockRequest
  deriving DecidableEq, Repr

namespace Locks

/-- A lock is asked for. -/
def ask (locks : Locks) (lock : Nat) : Locks :=
  { locks with requests := locks.requests ++ [⟨lock, lock ∉ locks.held⟩] }

/-- A lock is asked for and taken. -/
def take (locks : Locks) (lock : Nat) : Locks :=
  { locks.ask lock with held := lock :: locks.held }

/-- A lock is given back. -/
def giveBack (locks : Locks) (lock : Nat) : Locks :=
  { locks with held := locks.held.erase lock }

end Locks

/-! ### Steps and sinks with locks -/

/-- A sink with locks beside its state. -/
abbrev LockedSink (σ X κ S A : Type) : Type := Sink σ X (Locks × κ) S A

/-- A sink that asks for no lock. -/
def Sink.lockless (sink : Sink σ X κ S A) : LockedSink σ X κ S A := fun context acc a =>
  Sink.below (sink context acc a)

/-- A sink that is shared under a lock. A call holds the lock until it ends, also if it breaks off.
If the lock is held, the call waits for it without end. -/
def LockedSink.shared (lock : Nat) (sink : LockedSink σ X κ S A) : LockedSink σ X κ S A :=
  fun context acc a state env =>
    if lock ∈ state.1.held then ⟨.error .endless, (state.1.ask lock, state.2), env⟩
    else
      let ended := sink context acc a (state.1.take lock, state.2) env
      { ended with state := (ended.state.1.giveBack lock, ended.state.2) }

namespace Step

/-- A step that finds two parts of its state in the other order. -/
def exchange (step : Step σ (ι × (δ × κ)) α) : Step σ (δ × (ι × κ)) α :=
  zoom (fun state => (state.2.1, (state.1, state.2.2)))
    (fun _ state => (state.2.1, (state.1, state.2.2))) step

/-- A step with locks on one part of a larger state. -/
def zoomLocked (view : κ → ι) (replace : κ → ι → κ) (step : Step σ (Locks × ι) α) :
    Step σ (Locks × κ) α :=
  zoom (fun state => (state.1, view state.2)) (fun old state => (state.1, replace old.2 state.2))
    step

/-- A step with locks and with an additional state of its own. -/
def withinLocked (inner : ι) (step : Step σ (Locks × (ι × κ)) α) : Step σ (Locks × κ) (α × ι) :=
  within inner step.exchange

/-- A step with locks on a state of its own, which is forgotten at its end. -/
def isolatedLocked (inner : ι) (step : Step σ (Locks × ι) α) : Step σ (Locks × κ) α :=
  step.zoomLocked (fun _ => inner) fun old _ => old

/-- A step with locks of what is downstream, seen from a stage that has a state of its own. -/
def belowLocked (step : Step σ (Locks × κ) α) : Step σ (Locks × (ι × κ)) α :=
  step.zoomLocked Prod.snd fun state down => (state.1, down)

end Step

/-- The sink of the first of two alternatives, with locks. -/
def LockedSink.relay (sink : LockedSink σ X κ S B) : LockedSink σ X (Parked X S × κ) Unit B :=
  fun context acc value => (Transduction.relay sink context acc value).exchange

/-! ### Needing locks -/

namespace Locks

/-- The locks that are needed, and those that are held, have been made, and no lock that is needed
is held. -/
structure Free (locks : Locks) (needs : Set Nat) : Prop where
  lt_of_held : ∀ lock ∈ locks.held, lock < locks.made
  lt_of_needed : ∀ lock ∈ needs, lock < locks.made
  not_held : ∀ lock ∈ needs, lock ∉ locks.held

/-- From one moment to a later one every request was granted, and every lock that was taken has been
given back. -/
structure Served (before after : Locks) : Prop where
  held_eq : after.held = before.held
  made_le : before.made ≤ after.made
  granted : ∃ more, after.requests = before.requests ++ more ∧
    ∀ request ∈ more, request.granted = true

variable {locks before amid after : Locks} {needs more : Set Nat} {lock : Nat}

theorem Served.refl (locks : Locks) : locks.Served locks where
  held_eq := rfl
  made_le := Nat.le_refl _
  granted := ⟨[], (List.append_nil _).symm, nofun⟩

theorem Served.trans (h : before.Served amid) (h' : amid.Served after) : before.Served after where
  held_eq := h'.held_eq.trans h.held_eq
  made_le := Nat.le_trans h.made_le h'.made_le
  granted := by
    obtain ⟨first, hfirst, hgranted⟩ := h.granted
    obtain ⟨second, hsecond, hgranted'⟩ := h'.granted
    refine ⟨first ++ second, ?_, ?_⟩
    · rw [hsecond, hfirst, List.append_assoc]
    · intro request hrequest
      rcases List.mem_append.1 hrequest with hmem | hmem
      · exact hgranted request hmem
      · exact hgranted' request hmem

theorem Free.mono (h : locks.Free more) (hneeds : needs ⊆ more) : locks.Free needs where
  lt_of_held := h.lt_of_held
  lt_of_needed lock hlock := h.lt_of_needed lock (hneeds hlock)
  not_held lock hlock := h.not_held lock (hneeds hlock)

theorem Free.of_served (h : before.Free needs) (hserved : before.Served after) :
    after.Free needs where
  lt_of_held lock hlock := by
    rw [hserved.held_eq] at hlock
    exact Nat.lt_of_lt_of_le (h.lt_of_held lock hlock) hserved.made_le
  lt_of_needed lock hlock := Nat.lt_of_lt_of_le (h.lt_of_needed lock hlock) hserved.made_le
  not_held lock hlock := by
    rw [hserved.held_eq]
    exact h.not_held lock hlock

/-- While a lock is taken, the others can still be taken. -/
theorem Free.take (h : locks.Free (insert lock needs)) (hlock : lock ∉ needs) :
    (locks.take lock).Free needs where
  lt_of_held other hother := by
    rcases List.mem_cons.1 hother with rfl | hheld
    · exact h.lt_of_needed other (Set.mem_insert _ _)
    · exact h.lt_of_held other hheld
  lt_of_needed other hother := h.lt_of_needed other (Set.mem_insert_of_mem _ hother)
  not_held other hother := by
    intro hheld
    rcases List.mem_cons.1 hheld with rfl | hheld
    · exact hlock hother
    · exact h.not_held other (Set.mem_insert_of_mem _ hother) hheld

/-- Taking a free lock, being served, and giving the lock back. -/
theorem Served.giveBack (hlock : lock ∉ locks.held) (h : (locks.take lock).Served after) :
    locks.Served (after.giveBack lock) where
  held_eq := by
    rw [Locks.giveBack, h.held_eq]
    exact List.erase_cons_head _ _
  made_le := h.made_le
  granted := by
    obtain ⟨more, hmore, hgranted⟩ := h.granted
    refine ⟨⟨lock, lock ∉ locks.held⟩ :: more, ?_, ?_⟩
    · rw [Locks.giveBack, hmore]
      exact List.append_assoc _ _ _
    · intro request hrequest
      rcases List.mem_cons.1 hrequest with rfl | hmem
      · exact decide_eq_true hlock
      · exact hgranted request hmem

/-- Locks that are made now are not held. -/
theorem Free.makeUpTo (h : locks.Free needs) {made : Nat} (hle : locks.made ≤ made) :
    ({ locks with made } : Locks).Free (needs ∪ Set.Ico locks.made made) where
  lt_of_held lock hlock := Nat.lt_of_lt_of_le (h.lt_of_held lock hlock) hle
  lt_of_needed lock hlock := by
    rcases hlock with hneeded | hnew
    · exact Nat.lt_of_lt_of_le (h.lt_of_needed lock hneeded) hle
    · exact hnew.2
  not_held lock hlock := by
    rcases hlock with hneeded | hnew
    · exact h.not_held lock hneeded
    · intro hheld
      exact Nat.not_lt_of_le hnew.1 (h.lt_of_held lock hheld)

theorem Served.of_makeUpTo {made : Nat} (hle : locks.made ≤ made)
    (h : ({ locks with made } : Locks).Served after) : locks.Served after where
  held_eq := h.held_eq
  made_le := Nat.le_trans hle h.made_le
  granted := h.granted

end Locks

/-- An end with locks beside the state. -/
def Ended.withLocks (ended : Ended σ κ α) (locks : Locks) : Ended σ (Locks × κ) α :=
  ⟨ended.result, (locks, ended.state), ended.env⟩

/-- A step with locks that does what a step without them does, and is granted every lock that it
asks for, as long as none of those that it needs is held. -/
def Step.Unhindered (needs : Set Nat) (locked : Step σ (Locks × κ) α) (step : Step σ κ α) : Prop :=
  ∀ (locks : Locks) (state : κ) (env : Env σ), locks.Free needs →
    ∃ after, locks.Served after ∧ locked (locks, state) env = (step state env).withLocks after

/-- The same for sinks. -/
def LockedSink.Unhindered (needs : Set Nat) (locked : LockedSink σ X κ S A)
    (sink : Sink σ X κ S A) : Prop :=
  ∀ context acc a, (locked context acc a).Unhindered needs (sink context acc a)

/-! ### Steps -/

namespace Step.Unhindered

variable {needs more : Set Nat} {locked : Step σ (Locks × κ) α} {step : Step σ κ α}

theorem mono (h : locked.Unhindered needs step) (hneeds : needs ⊆ more) :
    locked.Unhindered more step := fun locks state env hfree =>
  h locks state env (hfree.mono hneeds)

/-- A step that has nothing to do with locks. -/
theorem of_below (h : locked = Sink.below step) : locked.Unhindered needs step := by
  intro locks state env _
  subst h
  exact ⟨locks, .refl locks, rfl⟩

theorem pure (a : α) :
    (Pure.pure a : Step σ (Locks × κ) α).Unhindered needs (Pure.pure a) := of_below rfl

theorem bind {next : α → Step σ κ β} {next' : α → Step σ (Locks × κ) β}
    (h : locked.Unhindered needs step) (hnext : ∀ a, (next' a).Unhindered needs (next a)) :
    (locked >>= next').Unhindered needs (step >>= next) := by
  intro locks state env hfree
  obtain ⟨amid, hserved, hstep⟩ := h locks state env hfree
  rcases hended : step state env with ⟨halt | a, state', env'⟩
  · rw [hended] at hstep
    exact ⟨amid, hserved, by rw [bind_of_error hstep, bind_of_error hended]; rfl⟩
  · rw [hended] at hstep
    obtain ⟨after, hserved', hrest⟩ := hnext a amid state' env' (hfree.of_served hserved)
    exact ⟨after, hserved.trans hserved', by rw [bind_of_ok hstep, bind_of_ok hended, hrest]⟩

theorem map (f : α → β) (h : locked.Unhindered needs step) :
    (f <$> locked).Unhindered needs (f <$> step) := by
  simp only [map_eq_pure_bind]
  exact h.bind fun a => .pure (f a)

theorem zoom (view : δ → κ) (replace : δ → κ → δ) (h : locked.Unhindered needs step) :
    (locked.zoomLocked view replace).Unhindered needs (step.zoom view replace) := by
  intro locks state env hfree
  obtain ⟨after, hserved, hstep⟩ := h locks (view state) env hfree
  refine ⟨after, hserved, ?_⟩
  simp only [zoomLocked, Step.zoom, hstep]
  rfl

theorem within {locked : Step σ (Locks × (ι × κ)) α} {step : Step σ (ι × κ) α} (inner : ι)
    (h : locked.Unhindered needs step) :
    (locked.withinLocked inner).Unhindered needs (step.within inner) := by
  intro locks state env hfree
  obtain ⟨after, hserved, hstep⟩ := h locks (inner, state) env hfree
  refine ⟨after, hserved, ?_⟩
  simp only [withinLocked, Step.within, exchange, Step.zoom, hstep]
  rfl

theorem isolated (inner : κ) (h : locked.Unhindered needs step) :
    (locked.isolatedLocked inner : Step σ (Locks × δ) α).Unhindered needs (step.isolated inner) :=
  h.zoom (fun _ => inner) fun old _ => old

theorem below (h : locked.Unhindered needs step) :
    (locked.belowLocked : Step σ (Locks × (ι × κ)) α).Unhindered needs (Sink.below step) :=
  h.zoom Prod.snd fun state down => (state.1, down)

theorem ensure (cleanUp : Env σ → Env σ) (h : locked.Unhindered needs step) :
    (locked.ensure cleanUp).Unhindered needs (step.ensure cleanUp) := by
  intro locks state env hfree
  obtain ⟨after, hserved, hstep⟩ := h locks state env hfree
  refine ⟨after, hserved, ?_⟩
  simp only [Step.ensure, hstep]
  rfl

theorem inScope {locked : Context → Step σ (Locks × κ) α} {step : Context → Step σ κ α}
    (context : Context) (h : ∀ nested, (locked nested).Unhindered needs (step nested)) :
    (inScope context locked).Unhindered needs (inScope context step) :=
  bind (of_below rfl) fun nested => (h nested).ensure _

theorem settleChoice {locked : S → Step σ (Locks × κ) (Verdict X S)}
    {step : S → Step σ κ (Verdict X S)} (outcome : Verdict X Unit) (parked : Parked X S)
    (h : ∀ acc, (locked acc).Unhindered needs (step acc)) :
    (settleChoice outcome parked locked).Unhindered needs (settleChoice outcome parked step) := by
  cases parked with
  | stopped verdict => cases outcome <;> exact .pure _
  | holding acc =>
    cases outcome with
    | fail failure => exact h acc
    | proceed | complete | alternate => exact .pure _

/-! ### Scheduled stages -/

section Rounds

variable {schedule : Schedule} {lockedSink : LockedSink σ X κ S B} {sink : Sink σ X κ S B}
  {attempt' : Step σ (Locks × κ) (Verdict X (Option B))}
  {attempt : Step σ κ (Verdict X (Option B))}

theorem pause (sleeper : Sleeper σ) (context : Context) (delay : Duration) :
    (pause sleeper context delay : Step σ (Locks × κ) (Option Failure)).Unhindered needs
      (pause sleeper context delay) := by
  refine of_below ?_
  calc Transduction.pause sleeper context delay
      = Step.isolated () (Transduction.pause sleeper context delay) :=
        (isolated_pause context sleeper delay).symm
    _ = Sink.below (Step.isolated () (Transduction.pause sleeper context delay) : Step σ κ _) := rfl
    _ = Sink.below (Transduction.pause sleeper context delay) :=
        congrArg Sink.below (isolated_pause context sleeper delay)

theorem reach (bound : Bound σ T) (folded : T) :
    (bound.reach folded : Step σ (Locks × κ) Reach).Unhindered needs (bound.reach folded) := by
  refine of_below ?_
  calc bound.reach folded
      = Step.isolated () (bound.reach folded) := (isolated_reach bound folded).symm
    _ = Sink.below (Step.isolated () (bound.reach folded) : Step σ κ Reach) := rfl
    _ = Sink.below (bound.reach folded) := congrArg Sink.below (isolated_reach bound folded)

theorem isAccepted (accept : Callback σ B Bool) (produced : Option B) :
    (isAccepted accept produced : Step σ (Locks × κ) Bool).Unhindered needs
      (isAccepted accept produced) := by
  cases produced <;> exact of_below rfl

theorem deliver (h : lockedSink.Unhindered needs sink) (context : Context) (acc : S)
    (produced : Option B) : (deliver lockedSink context acc produced).Unhindered needs
      (deliver sink context acc produced) := by
  cases produced with
  | none => exact .pure _
  | some value => exact h context acc value

theorem waitOr {locked : Step σ (Locks × κ) (Verdict X S)} {step : Step σ κ (Verdict X S)}
    (h : locked.Unhindered needs step) (sleeper : Sleeper σ) (context : Context)
    (pass : schedule.Pass) (current : T) :
    (waitOr sleeper context pass current locked).Unhindered needs
      (waitOr sleeper context pass current step) := by
  refine bind (of_below rfl) fun found => ?_
  rcases found with _ | ⟨delay, pass⟩
  · exact h.map _
  · refine (pause sleeper context delay).bind fun stop => ?_
    cases stop <;> exact .pure _

theorem retryRound (hsink : lockedSink.Unhindered needs sink)
    (hattempt : attempt'.Unhindered needs attempt) (context : Context) (acc : S)
    (sleeper : Sleeper σ) (accept : Callback σ B Bool) (pass : schedule.Pass) :
    (retryRound lockedSink context acc schedule sleeper accept attempt' pass).Unhindered needs
      (retryRound sink context acc schedule sleeper accept attempt pass) := by
  refine bind (of_below rfl) fun _ => hattempt.bind fun outcome => ?_
  cases outcome with
  | fail | alternate => exact .pure _
  | complete produced => exact ((deliver hsink context acc produced).map _).map _
  | proceed produced =>
    refine (isAccepted accept produced).bind fun accepted => ?_
    cases accepted with
    | true => exact (deliver hsink context acc produced).map _
    | false => exact (deliver hsink context acc produced).waitOr sleeper context pass ()

/-- What follows from a folded attempt: the last one is delivered, and any other is followed by a
wait. -/
theorem lastOrWait {lockedSink : LockedSink σ X κ S T} {sink : Sink σ X κ S T}
    (hsink : lockedSink.Unhindered needs sink) (context : Context) (acc : S) (sleeper : Sleeper σ)
    (pass : schedule.Pass) (isLast : Bool) (current : T) :
    (if isLast then Continuation.finish <$> Verdict.completed <$> lockedSink context acc current
      else Transduction.waitOr sleeper context pass current
        (lockedSink context acc current)).Unhindered needs
    (if isLast then Continuation.finish <$> Verdict.completed <$> sink context acc current
      else Transduction.waitOr sleeper context pass current (sink context acc current)) := by
  cases isLast with
  | true => exact ((hsink context acc current).map _).map _
  | false => exact (hsink context acc current).waitOr sleeper context pass current

theorem foldRound {lockedSink : LockedSink σ X κ S T} {sink : Sink σ X κ S T}
    (hsink : lockedSink.Unhindered needs sink) (hattempt : attempt'.Unhindered needs attempt)
    (context : Context) (acc : S) (sleeper : Sleeper σ) (f : Callback σ (T × B) T)
    (bound : Bound σ T) (pass : schedule.Pass) (current : T) :
    (foldRound lockedSink context acc schedule sleeper f bound attempt' pass current).Unhindered
      needs (foldRound sink context acc schedule sleeper f bound attempt pass current) := by
  have hafter (isLast : Bool) (current : T) :=
    lastOrWait hsink context acc sleeper pass isLast current
  refine bind (of_below rfl) fun _ => hattempt.bind fun outcome => ?_
  cases outcome with
  | fail | alternate => exact .pure _
  | proceed produced =>
    cases produced with
    | none => exact hafter false current
    | some value =>
      refine bind (of_below rfl) fun folded => (reach bound folded).bind fun reached => ?_
      cases reached with
      | excluded | included => exact (hsink context acc _).map _
      | inside => exact hafter false folded
  | complete produced =>
    cases produced with
    | none => exact hafter true current
    | some value =>
      refine bind (of_below rfl) fun folded => (reach bound folded).bind fun reached => ?_
      cases reached with
      | excluded | included => exact (hsink context acc _).map _
      | inside => exact hafter true folded

theorem repeatRounds
    {locked : schedule.Pass → T → Step σ (Locks × κ) (Continuation schedule T R)}
    {round : schedule.Pass → T → Step σ κ (Continuation schedule T R)}
    (h : ∀ pass current, (locked pass current).Unhindered needs (round pass current))
    (fuel : Nat) (pass : schedule.Pass) (current : T) :
    Unhindered needs (repeatRounds locked fuel pass current : Step σ (Locks × κ) R)
      (repeatRounds round fuel pass current) := by
  intro locks state env hfree
  induction fuel generalizing pass current locks state env with
  | zero => exact ⟨locks, .refl locks, rfl⟩
  | succ fuel ih =>
    obtain ⟨amid, hserved, hround⟩ := h pass current locks state env hfree
    rw [Transduction.repeatRounds, Transduction.repeatRounds, hround]
    rcases round pass current state env with ⟨halt | next, state', env'⟩
    · exact ⟨amid, hserved, rfl⟩
    · cases next with
      | finish result => exact ⟨amid, hserved, rfl⟩
      | again pass current =>
        obtain ⟨after, hserved', hrest⟩ :=
          ih pass current amid state' env' (hfree.of_served hserved)
        exact ⟨after, hserved.trans hserved', hrest⟩

end Rounds

end Step.Unhindered

/-! ### Sinks -/

/-- A sink that asks for the lock under which it is shared waits for itself: no call of it ends, and
its own request is refused. -/
theorem LockedSink.shared_shared (lock : Nat) (sink : LockedSink σ X κ S A) (context : Context)
    (acc : S) (a : A) (locks : Locks) (state : κ) (env : Env σ) :
    let ended := shared lock (shared lock sink) context acc a (locks, state) env
    ended.result = .error .endless ∧ ⟨lock, false⟩ ∈ ended.state.1.requests := by
  by_cases hheld : lock ∈ locks.held
  · simp [shared, hheld, Locks.ask]
  · have htaken : lock ∈ (locks.take lock).held := List.mem_cons_self
    simp only [shared, hheld, htaken, if_false, if_true]
    simp [Locks.ask, Locks.giveBack, htaken]

/-- What is emitted into a sink that is not hindered. -/
theorem Emission.play_unhindered {needs : Set Nat} {locked : LockedSink σ X κ S B}
    {sink : Sink σ X κ S B} (h : locked.Unhindered needs sink) (context : Context)
    (emission : Emission σ ι B (Verdict X Unit)) (acc : S) (locks : Locks) (down : κ)
    (hfree : locks.Free needs) :
    let played := emission.play sink context acc down
    ∃ after, locks.Served after ∧ emission.play locked context acc (locks, down) =
      ⟨played.result, (played.state.1, (after, played.state.2)), played.env⟩ := by
  induction emission generalizing acc locks down with
  | ended e => exact ⟨locks, .refl locks, rfl⟩
  | emit value state env rest ih =>
    obtain ⟨amid, hserved, hcall⟩ := h context acc value locks down env hfree
    simp only [play, hcall]
    rcases sink context acc value down env with ⟨halt | verdict, down', env'⟩
    · exact ⟨amid, hserved, rfl⟩
    · cases verdict with
      | complete | fail | alternate => exact ⟨amid, hserved, rfl⟩
      | proceed acc' =>
        obtain ⟨after, hserved', hrest⟩ :=
          ih env' acc' amid down' (hfree.of_served hserved)
        exact ⟨after, hserved.trans hserved', hrest⟩

namespace LockedSink.Unhindered

variable {needs more : Set Nat} {locked : LockedSink σ X κ S B} {sink : Sink σ X κ S B}

theorem lockless (sink : Sink σ X κ S B) : sink.lockless.Unhindered needs sink :=
  fun _ _ _ => .of_below rfl

theorem mono (h : locked.Unhindered needs sink) (hneeds : needs ⊆ more) :
    locked.Unhindered more sink := fun context acc value => (h context acc value).mono hneeds

/-- A sink can be shared under a lock that it does not need. -/
theorem shared {lock : Nat} (h : locked.Unhindered needs sink) (hlock : lock ∉ needs) :
    (locked.shared lock).Unhindered (insert lock needs) sink := by
  intro context acc value locks state env hfree
  have hheld : lock ∉ locks.held := hfree.not_held lock (Set.mem_insert _ _)
  obtain ⟨after, hserved, hcall⟩ :=
    h context acc value (locks.take lock) state env (hfree.take hlock)
  refine ⟨after.giveBack lock, hserved.giveBack hheld, ?_⟩
  simp only [LockedSink.shared, hheld, if_false, hcall]
  rfl

theorem relay (h : locked.Unhindered needs sink) :
    (LockedSink.relay locked).Unhindered needs (Transduction.relay sink) := by
  intro context acc value locks ⟨parked, down⟩ env hfree
  cases parked with
  | stopped verdict => exact ⟨locks, .refl locks, rfl⟩
  | holding acc =>
    obtain ⟨after, hserved, hcall⟩ := h context acc value locks down env hfree
    refine ⟨after, hserved, ?_⟩
    simp only [LockedSink.relay, Step.exchange, Step.zoom, Transduction.relay, Step.bind_apply,
      Sink.own, Sink.below, hcall]
    rcases sink context acc value down env with ⟨halt | verdict, down', env'⟩
    · rfl
    · cases verdict <;> rfl

/-- A stage that shares nothing in front of a sink that is not hindered. -/
theorem run {stage : Stage σ X A B} (h : locked.Unhindered needs sink) (fuel : Nat) :
    LockedSink.Unhindered needs
      (fun context acc a => (stage.run fuel locked context acc a).exchange)
      (stage.run fuel sink) := by
  intro context acc a locks ⟨mine, down⟩ env hfree
  obtain ⟨after, hserved, hplayed⟩ := Emission.play_unhindered h context
    (stage.emission fuel context a mine env) acc locks down hfree
  refine ⟨after, hserved, ?_⟩
  simp only [Stage.run_eq_perform, Step.exchange, Step.zoom, Emitter.perform, hplayed]
  rfl

end LockedSink.Unhindered

end Transduction
