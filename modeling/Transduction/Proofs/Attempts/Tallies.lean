import Transduction.Proofs.Attempts.Completion
import Transduction.Proofs.Emission.Loops

/-!
# Attempts and waits

What a scheduled stage does with a value is settled before its sink is called: attempts and waits
take turns until it is clear what will be delivered. After each attempt the stage decides whether to
stop. If it does not, it draws the next delay and waits, unless there is none or the run has to stop.

A tally beside the loop counts the attempts and lists the waits that the sleeper is asked for, in
order, each entered at the moment at which the sleeper is called. It does not change what the loop
does, and it is there also if the loop breaks off.

## Main definitions

* `Decision`, `judgeRetry`, `judgeFold`: what is decided after an attempt.
* `Tally`: attempts and waits.
* `tallyPause`, `tallyRound`: a wait and a round with a tally.
* `Stage.retryTallied`, `Stage.foldTallied`: the loops of scheduled stages, with a tally.
* `Ended.deliveredTo`: what follows from a loop that only notes what it would deliver.

## Main results

* `Stage.run_retry_eq_deliveredTo`, `Stage.run_foldAttempts_eq_deliveredTo`: a scheduled stage does
  what its loop with a tally does and delivers what comes of it.
* `TallyStep.of_tallyRound`: what one round adds to the tally.
-/

namespace Transduction

variable {σ X ι κ S A B T R : Type} {schedule : Schedule}

/-! ### Decisions -/

/-- What a scheduled stage decides after an attempt: to stop with a result, or to go on after a
wait, with the result for the case that there are no more waits. -/
inductive Decision (T R : Type) where
  | stop (result : R)
  | goOn (next : T) (whenOver : R)

/-- What follows from a decision. -/
def Decision.follow (sleeper : Sleeper σ) (context : Context) (pass : schedule.Pass) :
    Decision T (Verdict X S) → Step σ κ (Continuation schedule T (Verdict X S))
  | .stop verdict => pure (.finish verdict)
  | .goOn next whenOver => waitOr sleeper context pass next (pure whenOver)

/-- What a retried stage decides after an attempt. -/
def judgeRetry (accept : Callback σ B Bool) (attempt : Step σ κ (Verdict X (Option B))) :
    Step σ κ (Decision Unit (Verdict X (Option B))) := do
  match ← noteAttempt attempt with
  | .fail failure => return .stop (.fail failure)
  | .alternate value => return .stop (.alternate value)
  | .complete produced => return .stop (.complete produced)
  | .proceed produced =>
    if ← isAccepted accept produced then return .stop (.proceed produced)
    else return .goOn () (.proceed produced)

/-- What a scheduled fold decides after an attempt. -/
def judgeFold (f : Callback σ (T × B) T) (bound : Bound σ T)
    (attempt : Step σ κ (Verdict X (Option B))) (current : T) :
    Step σ κ (Decision T (Verdict X (Option T))) := do
  match ← examineFold f bound attempt current with
  | .fail failure => return .stop (.fail failure)
  | .alternate value => return .stop (.alternate value)
  | .proceed (.inside, value) => return .goOn value (.proceed (some value))
  | .complete (.inside, value) => return .stop (.complete (some value))
  | .proceed (_, value) => return .stop (.proceed (some value))
  | .complete (_, value) => return .stop (.proceed (some value))

section Rounds

variable (context : Context) (sleeper : Sleeper σ)

theorem retryRound_last_eq_judgeRetry (accept : Callback σ B Bool)
    (attempt : Step σ Unit (Verdict X (Option B))) (pass : schedule.Pass) :
    retryRound Sink.last context none schedule sleeper accept attempt pass =
      judgeRetry accept attempt >>= Decision.follow sleeper context pass := by
  rw [retryRound_eq_conclude_note, judgeRetry, bind_assoc]
  refine bind_congr fun outcome => ?_
  cases outcome with
  | fail | alternate => rfl
  | complete produced => cases produced <;> rfl
  | proceed produced =>
    simp only [concludeRetry, deliver_last, bind_assoc]
    refine bind_congr fun accepted => ?_
    cases accepted <;> rfl

theorem foldRound_last_eq_judgeFold (f : Callback σ (T × B) T) (bound : Bound σ T)
    (attempt : Step σ Unit (Verdict X (Option B))) (pass : schedule.Pass) (current : T) :
    foldRound Sink.last context none schedule sleeper f bound attempt pass current =
      judgeFold f bound attempt current >>= Decision.follow sleeper context pass := by
  rw [foldRound_eq_conclude_examine, judgeFold, bind_assoc]
  refine bind_congr fun outcome => ?_
  rcases outcome with ⟨_ | _ | _, value⟩ | ⟨_ | _ | _, value⟩ | _ | _ <;> rfl

end Rounds

/-! ### Tallies -/

/-- The attempts of a scheduled stage at a value, and the waits that its sleeper was asked for, in
order. -/
structure Tally where
  attempts : Nat
  waits : List Duration

namespace Tally

/-- Nothing has been done yet. -/
def zero : Tally := ⟨0, []⟩

/-- One more attempt. -/
def attempted (tally : Tally) : Tally := { tally with attempts := tally.attempts + 1 }

/-- One more wait. -/
def asked (tally : Tally) (delay : Duration) : Tally :=
  { tally with waits := tally.waits ++ [delay] }

@[simp] theorem attempts_attempted (tally : Tally) :
    tally.attempted.attempts = tally.attempts + 1 := rfl

@[simp] theorem waits_attempted (tally : Tally) : tally.attempted.waits = tally.waits := rfl

@[simp] theorem attempts_asked (tally : Tally) (delay : Duration) :
    (tally.asked delay).attempts = tally.attempts := rfl

@[simp] theorem waits_asked (tally : Tally) (delay : Duration) :
    (tally.asked delay).waits = tally.waits ++ [delay] := rfl

end Tally

/-- Changes a tally beside a state. -/
def Step.tally (f : Tally → Tally) : Step σ (Tally × κ) Unit := fun state env =>
  ⟨.ok (), (f state.1, state.2), env⟩

/-- A wait inside a run that may have to stop, entered into the tally when the sleeper is called. -/
def tallyPause (sleeper : Sleeper σ) (context : Context) (delay : Duration) :
    Step σ (Tally × κ) (Option Failure) := do
  match ← Step.ask (·.interruption? context) with
  | some failure => some <$> Step.stop failure
  | none =>
    if ← Step.ask (·.wouldOverrun context delay) then
      some <$> Step.stop .deadlineExceeded
    else do
      Step.tally (·.asked delay)
      Sink.below (waitOut sleeper context delay)

/-- One round with a tally: an attempt and what is decided after it, and then a wait if the stage is
to go on. -/
def tallyRound (judge : T → Step σ κ (Decision T (Verdict X S))) (sleeper : Sleeper σ)
    (context : Context) (pass : schedule.Pass) (current : T) :
    Step σ (Tally × κ) (Continuation schedule T (Verdict X S)) := do
  Step.tally (·.attempted)
  match ← Sink.below (judge current) with
  | .stop verdict => return .finish verdict
  | .goOn next whenOver =>
    match ← Step.modifyGet (·.nextDelay schedule pass) with
    | none => return .finish whenOver
    | some (delay, pass) =>
      match ← tallyPause sleeper context delay with
      | some failure => return .finish (.fail failure)
      | none => return .again pass next

/-- Whether the sleeper is called for a wait. -/
def Env.mayWait (env : Env σ) (context : Context) (delay : Duration) : Bool :=
  (env.interruption? context).isNone && !env.wouldOverrun context delay

section Waits

variable (sleeper : Sleeper σ) (context : Context) (state : κ) (env : Env σ)

/-- A wait that the sleeper is called for. -/
theorem pause_of_mayWait {delay : Duration} (h : env.mayWait context delay = true) :
    pause sleeper context delay state env = waitOut sleeper context delay state env := by
  simp only [Env.mayWait, Bool.and_eq_true, Option.isNone_iff_eq_none, Bool.not_eq_true'] at h
  simp only [pause, Step.bind_apply, Step.ask, h]
  rfl

/-- A wait that would pass the deadline is refused. -/
theorem pause_of_overrun {delay : Duration} (hcalm : env.interruption? context = none)
    (h : env.wouldOverrun context delay = true) :
    pause sleeper context delay state env =
      ⟨.ok (some .deadlineExceeded), state, env.record (.stopped .deadlineExceeded)⟩ := by
  simp only [pause, Step.bind_apply, Step.ask, hcalm, h]
  rfl

/-- The sleeper was called for a wait that the run went on after. -/
theorem mayWait_of_pause {delay : Duration} {state' : κ} {env' : Env σ}
    (h : pause sleeper context delay state env = ⟨.ok none, state', env'⟩) :
    env.mayWait context delay = true := by
  cases hstop : env.interruption? context with
  | some failure =>
    rw [pause_of_interrupted hstop] at h
    cases h
  | none =>
    cases hoverrun : env.wouldOverrun context delay with
    | true =>
      rw [pause_of_overrun sleeper context state env hstop hoverrun] at h
      cases h
    | false => simp [Env.mayWait, hstop, hoverrun]

/-- A wait with a tally is the same wait, and it is in the tally if the sleeper is called. -/
theorem tallyPause_eq (delay : Duration) (tally : Tally) :
    tallyPause sleeper context delay (tally, state) env =
      let ended := pause sleeper context delay state env
      ⟨ended.result, (if env.mayWait context delay then tally.asked delay else tally, ended.state),
        ended.env⟩ := by
  cases hstop : env.interruption? context with
  | some failure =>
    simp only [pause, tallyPause, Env.mayWait, Step.bind_apply, Step.ask, hstop]
    rfl
  | none =>
    cases hoverrun : env.wouldOverrun context delay with
    | true | false =>
      simp only [pause, tallyPause, Env.mayWait, Step.bind_apply, Step.ask, hstop, hoverrun]
      rfl

/-! ### The ways a round can go -/

/-- How a round ends after a wait. -/
def Continuation.afterPause (rest : schedule.Pass) (next : T) :
    Option Failure → Continuation schedule T (Verdict X S)
  | some failure => .finish (.fail failure)
  | none => .again rest next

variable {judge : T → Step σ κ (Decision T (Verdict X S))} {pass : schedule.Pass} {current : T}
  {tally : Tally} {state' : κ} {judged : Env σ}

/-- A round whose attempt breaks off. -/
theorem tallyRound_of_halt {halt : Halt}
    (h : judge current state env = ⟨.error halt, state', judged⟩) :
    tallyRound judge sleeper context pass current (tally, state) env =
      ⟨.error halt, (tally.attempted, state'), judged⟩ := by
  simp only [tallyRound, Step.bind_apply, Step.tally, Sink.below, Step.zoom, h]

/-- A round whose attempt is the last one. -/
theorem tallyRound_of_stop {verdict : Verdict X S}
    (h : judge current state env = ⟨.ok (.stop verdict), state', judged⟩) :
    tallyRound judge sleeper context pass current (tally, state) env =
      ⟨.ok (.finish verdict), (tally.attempted, state'), judged⟩ := by
  simp only [tallyRound, Step.bind_apply, Step.tally, Sink.below, Step.zoom, h]
  rfl

section GoesOn

variable {next : T} {whenOver : Verdict X S} {drawn : Env σ}
  (h : judge current state env = ⟨.ok (.goOn next whenOver), state', judged⟩)
include h

/-- A round after which there are no more delays. -/
theorem tallyRound_of_no_delay (hdelay : judged.nextDelay schedule pass = (none, drawn)) :
    tallyRound judge sleeper context pass current (tally, state) env =
      ⟨.ok (.finish whenOver), (tally.attempted, state'), drawn⟩ := by
  simp only [tallyRound, Step.bind_apply, Step.tally, Sink.below, Step.zoom, h, Step.modifyGet,
    hdelay]
  rfl

/-- A round after which there is a delay. -/
theorem tallyRound_of_delay {delay : Duration} {rest : schedule.Pass}
    (hdelay : judged.nextDelay schedule pass = (some (delay, rest), drawn)) :
    tallyRound judge sleeper context pass current (tally, state) env =
      let paused := tallyPause sleeper context delay (tally.attempted, state') drawn
      ⟨paused.result.map (Continuation.afterPause rest next), paused.state, paused.env⟩ := by
  simp only [tallyRound, Step.bind_apply, Step.tally, Sink.below, Step.zoom, h, Step.modifyGet,
    hdelay]
  rcases tallyPause sleeper context delay (tally.attempted, state') drawn with
    ⟨_ | _ | failure, _, _⟩ <;> rfl

end GoesOn

/-- A round does the same whether or not a tally is kept. -/
theorem follow_eq_tallyRound (judge : T → Step σ κ (Decision T (Verdict X S)))
    (pass : schedule.Pass) (current : T) (tally : Tally) :
    (judge current >>= Decision.follow sleeper context pass) state env =
      let ended := tallyRound judge sleeper context pass current (tally, state) env
      ⟨ended.result, ended.state.2, ended.env⟩ := by
  rcases hjudge : judge current state env with ⟨_ | decision, state', judged⟩
  · rw [Step.bind_of_error hjudge, tallyRound_of_halt sleeper context state env hjudge]
  · rw [Step.bind_of_ok hjudge]
    cases decision with
    | stop verdict =>
      rw [tallyRound_of_stop sleeper context state env hjudge]
      rfl
    | goOn next whenOver =>
      simp only [Decision.follow, waitOr, Step.bind_apply, Step.modifyGet]
      rcases hdelay : judged.nextDelay schedule pass with ⟨_ | ⟨delay, rest⟩, drawn⟩
      · rw [tallyRound_of_no_delay sleeper context state env hjudge hdelay]
        rfl
      · rw [tallyRound_of_delay sleeper context state env hjudge hdelay, tallyPause_eq]
        simp only [Step.bind_apply]
        rcases pause sleeper context delay state' drawn with ⟨_ | _ | failure, _, _⟩ <;> rfl

end Waits

/-! ### What is entered into a tally -/

/-- The first delays of one pass of a schedule, in order, and the rest of the pass after them. Each
delay is drawn with the dice as they are at that moment. -/
inductive Schedule.Reads (schedule : Schedule) : List Duration → schedule.Pass → Prop
  | start : Reads schedule [] schedule.start
  | draw {delays : List Duration} {pass rest : schedule.Pass} {delay : Duration} {dice dice' : Dice}
      (before : Reads schedule delays pass)
      (h : schedule.next? pass dice = (some (delay, rest), dice')) :
      Reads schedule (delays ++ [delay]) rest

/-- What a round adds to the tally, by how it ends: an attempt, and a wait for the next delay of the
schedule if the sleeper is called. A round that is followed by another one has waited. -/
inductive TallyStep (pass : schedule.Pass) (tally : Tally) :
    Tally → Except Halt (Continuation schedule T R) → Prop
  | settles {result : Except Halt (Continuation schedule T R)}
      (h : ∀ rest next, result ≠ .ok (.again rest next)) :
      TallyStep pass tally tally.attempted result
  | asks {delay : Duration} {rest : schedule.Pass} {dice dice' : Dice}
      {result : Except Halt (Continuation schedule T R)}
      (hdraw : schedule.next? pass dice = (some (delay, rest), dice'))
      (h : ∀ rest' next, result = .ok (.again rest' next) → rest' = rest) :
      TallyStep pass tally (tally.attempted.asked delay) result

/-- A delay that is drawn in some surroundings is the next one for the dice there. -/
theorem Env.next?_of_nextDelay {env drawn : Env σ} {pass rest : schedule.Pass} {delay : Duration}
    (h : env.nextDelay schedule pass = (some (delay, rest), drawn)) :
    ∃ dice dice', schedule.next? pass dice = (some (delay, rest), dice') := by
  have hnext : (schedule.next? pass env.dice).1 = some (delay, rest) := congrArg Prod.fst h
  exact ⟨env.dice, (schedule.next? pass env.dice).2, Prod.ext hnext rfl⟩

section Run

variable (judge : T → Step σ κ (Decision T (Verdict X S))) (sleeper : Sleeper σ)
  (context : Context) (pass : schedule.Pass) (current : T) (tally : Tally) (state : κ)
  (env : Env σ)

/-- A round that a wait is drawn for and that is the last one, whether or not the sleeper is
called. -/
theorem TallyStep.of_last {delay : Duration} {rest : schedule.Pass} {dice dice' : Dice}
    {result : Except Halt (Continuation schedule T R)} (asks : Bool)
    (hdraw : schedule.next? pass dice = (some (delay, rest), dice'))
    (h : ∀ rest next, result ≠ .ok (.again rest next)) :
    TallyStep pass tally (if asks then tally.attempted.asked delay else tally.attempted) result := by
  cases asks with
  | true => exact .asks hdraw fun rest' next hagain => absurd hagain (h rest' next)
  | false => exact .settles h

theorem TallyStep.of_tallyRound :
    let ended := tallyRound judge sleeper context pass current (tally, state) env
    TallyStep pass tally ended.state.1 ended.result := by
  rcases hjudge : judge current state env with ⟨_ | decision, state', judged⟩
  · rw [tallyRound_of_halt sleeper context state env hjudge]
    exact .settles fun _ _ h => by cases h
  · cases decision with
    | stop verdict =>
      rw [tallyRound_of_stop sleeper context state env hjudge]
      exact .settles fun _ _ h => by cases h
    | goOn next whenOver =>
      rcases hdelay : judged.nextDelay schedule pass with ⟨_ | ⟨delay, rest⟩, drawn⟩
      · rw [tallyRound_of_no_delay sleeper context state env hjudge hdelay]
        exact .settles fun _ _ h => by cases h
      · obtain ⟨dice, dice', hdraw⟩ := Env.next?_of_nextDelay hdelay
        rw [tallyRound_of_delay sleeper context state env hjudge hdelay, tallyPause_eq]
        rcases hpause : pause sleeper context delay state' drawn with
          ⟨_ | _ | failure, state'', env''⟩
        · exact .of_last pass tally _ hdraw fun _ _ h => by cases h
        · -- Only a round in which the sleeper was called is followed by another one.
          simp only [mayWait_of_pause sleeper context state' _ hpause]
          exact .asks hdraw fun _ _ h => (Continuation.again.inj (Except.ok.inj h)).1.symm
        · exact .of_last pass tally _ hdraw fun _ _ h => by cases h

end Run

/-- A tally in keeping with a schedule: the waits are the first delays of one pass, and there is one
after each attempt except perhaps after the last one. -/
structure Tally.Follows (tally : Tally) (schedule : Schedule) : Prop where
  reads : ∃ last, schedule.Reads tally.waits last
  waits_le : tally.waits.length ≤ tally.attempts
  attempts_le : tally.attempts ≤ tally.waits.length + 1

section Follows

variable {pass : schedule.Pass} {tally tally' : Tally}
  (hreads : schedule.Reads tally.waits pass) (hcount : tally.attempts = tally.waits.length)
include hreads hcount

theorem TallyStep.follows {result : Except Halt (Continuation schedule T R)}
    (h : TallyStep pass tally tally' result) : tally'.Follows schedule := by
  cases h with
  | settles => exact ⟨⟨pass, hreads⟩, by simp [hcount], by simp [hcount]⟩
  | asks hdraw => exact ⟨⟨_, hreads.draw hdraw⟩, by simp [hcount], by simp [hcount]⟩

theorem TallyStep.again {rest : schedule.Pass} {next : T}
    (h : TallyStep pass tally tally' (.ok (.again rest next) : Except Halt
      (Continuation schedule T R))) :
    schedule.Reads tally'.waits rest ∧ tally'.attempts = tally'.waits.length := by
  cases h with
  | settles hlast => exact absurd rfl (hlast rest next)
  | asks hdraw hrest =>
    obtain rfl := hrest rest next rfl
    exact ⟨hreads.draw hdraw, by simp [hcount]⟩

/-- The tally of a loop keeps to the schedule in every run, also in one that breaks off. Before each
round there are as many waits as attempts, and the pass is where the waits have left it. -/
theorem follows_repeatRounds (judge : T → Step σ κ (Decision T (Verdict X S)))
    (sleeper : Sleeper σ) (context : Context) (fuel : Nat) (current : T) (state : κ)
    (env : Env σ) :
    (repeatRounds (tallyRound judge sleeper context) fuel pass current (tally, state)
      env).state.1.Follows schedule := by
  induction fuel generalizing pass current tally state env with
  | zero => exact ⟨⟨pass, hreads⟩, Nat.le_of_eq hcount.symm, Nat.le_succ_of_le (Nat.le_of_eq hcount)⟩
  | succ fuel ih =>
    have hstep := TallyStep.of_tallyRound judge sleeper context pass current tally state env
    simp only [repeatRounds]
    rcases hround : tallyRound judge sleeper context pass current (tally, state) env with
      ⟨_ | _ | ⟨rest, next⟩, ⟨tally', state'⟩, env'⟩
    all_goals rw [hround] at hstep
    · exact hstep.follows hreads hcount
    · exact hstep.follows hreads hcount
    · obtain ⟨hreads', hcount'⟩ := hstep.again hreads hcount
      exact ih hreads' hcount' next state' env'

end Follows

/-! ### Scheduled stages -/

/-- What follows from a loop that only notes what it would deliver: the sink is called with it. -/
def Ended.deliveredTo (sink : Sink σ X κ S B) (context : Context) (acc : S) (down : κ) :
    Ended σ (Tally × Unit) (Verdict X (Option B)) → Ended σ (Unit × κ) (Verdict X S)
  | ⟨.error halt, _, env⟩ => ⟨.error halt, ((), down), env⟩
  | ⟨.ok verdict, _, env⟩ => Sink.below (sink.handOver context acc verdict) ((), down) env

/-- Rounds into a sink, from rounds with a tally. -/
theorem repeatRounds_eq_deliveredTo (sink : Sink σ X κ S B) (context : Context) (acc : S)
    (sleeper : Sleeper σ) {judge : T → Step σ Unit (Decision T (Verdict X (Option B)))}
    {round : schedule.Pass → T → Step σ κ (Continuation schedule T (Verdict X S))}
    (h : ∀ pass current, round pass current =
      Step.isolated () (judge current >>= Decision.follow sleeper context pass) >>=
        sink.conclude context acc)
    (fuel : Nat) (current : T) (down : κ) (env : Env σ) :
    Sink.below (repeatRounds round fuel schedule.start current) ((), down) env =
      (repeatRounds (tallyRound judge sleeper context) fuel schedule.start current (.zero, ())
        env).deliveredTo sink context acc down := by
  have htallied := repeatRounds_eq_logged (fun pass current tally state env =>
    follow_eq_tallyRound sleeper context state env judge pass current tally)
    fuel schedule.start current Tally.zero () env
  rw [repeatRounds_eq_handOver sink context acc h]
  simp only [Sink.below, Step.zoom, Step.bind_apply, Step.isolated, htallied]
  rcases repeatRounds (tallyRound judge sleeper context) fuel schedule.start current (.zero, ())
    env with ⟨_ | verdict, _, _⟩ <;> rfl

namespace Stage

variable (fuel : Nat) (inner : Stage σ X A B) (schedule : Schedule) (sleeper : Sleeper σ)
  (context : Context) (acc : S) (a : A) (down : κ) (env : Env σ)

/-- The loop of a retried stage on one value, with a tally. -/
def retryTallied (accept : Callback σ B Bool) :
    Ended σ (Tally × Unit) (Verdict X (Option B)) :=
  repeatRounds (tallyRound (fun _ => judgeRetry accept (inner.attempt fuel context a)) sleeper
    context) fuel schedule.start () (.zero, ()) env

/-- The loop of a scheduled fold on one value, with a tally. -/
def foldTallied (seed : T) (f : Callback σ (T × B) T) (bound : Bound σ T) :
    Ended σ (Tally × Unit) (Verdict X (Option T)) :=
  repeatRounds (tallyRound (judgeFold f bound (inner.attempt fuel context a)) sleeper context) fuel
    schedule.start seed (.zero, ()) env

theorem run_retry_eq_deliveredTo (accept : Callback σ B Bool) (sink : Sink σ X κ S B) :
    (retry inner schedule sleeper accept).run fuel sink context acc a ((), down) env =
      (inner.retryTallied fuel schedule sleeper context a env accept).deliveredTo sink context acc
        down := by
  refine repeatRounds_eq_deliveredTo sink context acc sleeper (fun pass _ => ?_) fuel () down env
  rw [← retryRound_last_eq_judgeRetry]
  exact retryRound_eq_conclude sink context acc sleeper accept (inner.init, ())
    (inner.run fuel Sink.last context none a) pass

theorem run_foldAttempts_eq_deliveredTo (seed : T) (f : Callback σ (T × B) T) (bound : Bound σ T)
    (sink : Sink σ X κ S T) :
    (foldAttempts inner schedule sleeper seed f bound).run fuel sink context acc a ((), down) env =
      (inner.foldTallied fuel schedule sleeper context a env seed f bound).deliveredTo sink context
        acc down := by
  refine repeatRounds_eq_deliveredTo sink context acc sleeper (fun pass current => ?_) fuel seed
    down env
  rw [← foldRound_last_eq_judgeFold]
  exact foldRound_eq_conclude context acc sleeper f bound (inner.init, ())
    (inner.run fuel Sink.last context none a) pass current

theorem follows_retryTallied (accept : Callback σ B Bool) :
    (inner.retryTallied fuel schedule sleeper context a env accept).state.1.Follows schedule :=
  follows_repeatRounds .start rfl _ sleeper context fuel () () env

theorem follows_foldTallied (seed : T) (f : Callback σ (T × B) T) (bound : Bound σ T) :
    (inner.foldTallied fuel schedule sleeper context a env seed f bound).state.1.Follows
      schedule :=
  follows_repeatRounds .start rfl _ sleeper context fuel seed () env

end Stage

end Transduction
