import Transduction.Proofs.Cancellation.Trace
import Transduction.Proofs.Channels.Inert
import Transduction.Proofs.Release.Passage
import Transduction.Stage.Derived

/-!
# Channels do not interfere

Two stages that are joined, one on each channel, share what is downstream of them and the
surroundings of their run, and the first one to stop stops the run for both. If they are inert, this
is all that one of them sees of the other. What the joined stages make of a list of left and right
values is then read off what each of them, alone, makes of the values of its channel.

## Main definitions

* `Sink.noting`: a sink that notes all outputs, also those of a run that fails later.
* `Transcript`: the outputs for each of several values, up to the one after which a stage stopped.
* `Stage.transcript`: what an instance of a stage makes of a list of values.
* `Transcript.interleave`: the transcripts of two channels, in the order of the values.

## Main results

* `Transcript.outputs_interleave`: the outputs of each channel.
* `Stage.transcript_bimap`: the transcript of two joined stages is that of the two, interleaved.
* `Stage.feed_noting`: sources hand over their items as a transcript says.
* `Stage.channels_apart`: the values of one channel do not change the outputs of the other.
-/

namespace Transduction

variable {σ X A B C D L L' R R' : Type}

/-- Notes every value in its state, in order, and asks for more. -/
def Sink.noting : Sink σ X (List B) Unit B := fun _ _ value log env =>
  ⟨.ok (.proceed ()), log ++ [value], env⟩

/-! ### Transcripts -/

/-- What an instance of a stage makes of values that it is fed one after the other: its outputs for
each of them, up to the first one after which it did not ask for more, with how it stopped. -/
inductive Transcript (X B : Type) where
  /-- There were no more values. -/
  | ended
  /-- It asked for more. -/
  | answered (outputs : List B) (later : Transcript X B)
  /-- It did not, and what it answered instead. -/
  | stopped (outputs : List B) (result : Except Halt (Verdict X Unit))

/-- Outputs of two runs of which one goes on where the other one stops. -/
def Comparable (outputs outputs' : List B) : Prop := outputs <+: outputs' ∨ outputs' <+: outputs

namespace Transcript

/-- All outputs, in order. -/
def outputs : Transcript X B → List B
  | ended => []
  | answered outputs later => outputs ++ later.outputs
  | stopped outputs _ => outputs

/-- How the instance stopped, if it did. -/
def result : Transcript X B → Except Halt (Verdict X Unit)
  | ended => .ok (.proceed ())
  | answered _ later => later.result
  | stopped _ result => result

/-- How many values the instance was fed. -/
def length : Transcript X B → Nat
  | ended => 0
  | answered _ later => later.length + 1
  | stopped _ _ => 1

/-- The transcript of the first values. -/
def take : Nat → Transcript X B → Transcript X B
  | 0, _ => ended
  | _ + 1, ended => ended
  | count + 1, answered outputs later => answered outputs (later.take count)
  | _ + 1, stopped outputs result => stopped outputs result

/-- The transcripts of two channels in the order of the values that were fed to them, up to the
first value after which an instance stopped, or which is a failure. -/
def interleave :
    List (Branch L R) → Transcript X L' → Transcript X R' → Transcript X (Branch L' R')
  | .left _ :: items, answered outputs later, right =>
    answered (outputs.map .left) (interleave items later right)
  | .left _ :: _, stopped outputs result, _ => stopped (outputs.map .left) result
  | .right _ :: items, left, answered outputs later =>
    answered (outputs.map .right) (interleave items left later)
  | .right _ :: _, _, stopped outputs result => stopped (outputs.map .right) result
  | .fail failure :: _, _, _ => stopped [] (.ok (.fail failure))
  | _, _, _ => ended

/-- More values do not change the outputs for the first ones. -/
theorem outputs_take_le (transcript : Transcript X B) {count more : Nat} (h : count ≤ more) :
    (transcript.take count).outputs <+: (transcript.take more).outputs := by
  induction transcript generalizing count more with
  | ended => cases count <;> cases more <;> exact List.nil_prefix
  | answered outputs later ih =>
    cases count with
    | zero => exact List.nil_prefix
    | succ count =>
      obtain ⟨more, rfl⟩ : ∃ rest, more = rest + 1 := ⟨more - 1, by omega⟩
      exact (List.prefix_append_right_inj outputs).2 (ih (Nat.le_of_succ_le_succ h))
  | stopped outputs result =>
    cases count with
    | zero => exact List.nil_prefix
    | succ count =>
      obtain ⟨more, rfl⟩ : ∃ rest, more = rest + 1 := ⟨more - 1, by omega⟩
      exact List.prefix_refl outputs

/-- The outputs of each channel are those for as many values of the channel as were fed. -/
theorem outputs_interleave (items : List (Branch L R)) (left : Transcript X L')
    (right : Transcript X R') :
    let joint := interleave items left right
    let fed := items.take joint.length
    joint.outputs.filterMap Branch.left? =
        (left.take (fed.filterMap Branch.left?).length).outputs ∧
      joint.outputs.filterMap Branch.right? =
        (right.take (fed.filterMap Branch.right?).length).outputs := by
  induction items generalizing left right with
  | nil => exact ⟨rfl, rfl⟩
  | cons item items ih =>
    cases item with
    | left value =>
      cases left with
      | ended => exact ⟨rfl, rfl⟩
      | stopped outputs result =>
        exact ⟨(Branch.filterMap_map_left outputs).1, (Branch.filterMap_map_left outputs).2⟩
      | answered outputs later =>
        obtain ⟨hleft, hright⟩ := ih later right
        simp only [interleave, Transcript.outputs, length, List.filterMap_append,
          List.take_succ_cons, (Branch.filterMap_map_left outputs).1,
          (Branch.filterMap_map_left outputs).2, hleft, hright, List.nil_append]
        exact ⟨rfl, rfl⟩
    | right value =>
      cases right with
      | ended => exact ⟨rfl, rfl⟩
      | stopped outputs result =>
        exact ⟨(Branch.filterMap_map_right outputs).1,
          (Branch.filterMap_map_right outputs).2⟩
      | answered outputs later =>
        obtain ⟨hleft, hright⟩ := ih left later
        simp only [interleave, Transcript.outputs, length, List.filterMap_append,
          List.take_succ_cons, (Branch.filterMap_map_right outputs).1,
          (Branch.filterMap_map_right outputs).2, hleft, hright, List.nil_append]
        exact ⟨rfl, rfl⟩
    | fail failure => exact ⟨rfl, rfl⟩

end Transcript

/-! ### Instances of stages -/

theorem Sink.follows_noting : (noting : Sink σ X (List B) Unit B).Follows fun _ => True :=
  fun _ _ _ => Step.follows_of_env_eq fun _ _ => rfl

/-- Notes with different beginnings. -/
theorem Sink.matches_noting (ground : Ground) (before : List B) :
    (noting : Sink σ X (List B) Unit B).Matches ground (fun log log' => log = before ++ log') Eq
      noting := by
  rintro _ _ _ _ value _ _ rfl _ log _ _ rfl henv
  exact .ok (.proceed rfl) (List.append_assoc before log [value]) henv

/-- Notes of values and of what is made of them. -/
theorem Sink.matches_noting_map (ground : Ground) (wrap : B → C) :
    Sink.Matches ground (fun log log' => log = log'.map wrap) Eq
      (fun context acc b => (noting : Sink σ X (List C) Unit C) context acc (wrap b)) noting := by
  rintro _ _ _ _ value _ _ rfl _ log _ _ rfl henv
  exact .ok (.proceed rfl) (by rw [List.map_append]; rfl) henv

namespace Stage

/-- What an instance makes of a value that a source hands to it: its answer, with its next state and
the outputs. -/
def respond (fuel : Nat) (stage : Stage σ X A B) (context : Context) (a : A) (mine : stage.State)
    (env : Env σ) : Ended σ (stage.State × List B) (Verdict X Unit) :=
  stage.run fuel Sink.noting context () a (mine, []) (env.record .handed)

/-- What an instance makes of values that it is fed one after the other. -/
def transcript (fuel : Nat) (stage : Stage σ X A B) (context : Context) :
    List A → stage.State → Env σ → Transcript X B × Env σ
  | [], _, env => (.ended, env)
  | a :: rest, mine, env =>
    match stage.respond fuel context a mine env with
    | ⟨.ok (.proceed _), (mine, outputs), env⟩ =>
      let (later, env) := transcript fuel stage context rest mine env
      (.answered outputs later, env)
    | ⟨result, (_, outputs), env⟩ => (.stopped outputs result, env)

/-- Whether nothing cancels a run. -/
def Undisturbed (fuel : Nat) (stage : Stage σ X A B) (context : Context) (items : List A)
    (mine : stage.State) (env : Env σ) : Prop :=
  (stage.transcript fuel context items mine env).2.token.reason = env.token.reason

variable {fuel : Nat} {context : Context} {env env' : Env σ} {ground : Ground}

section Values

variable {stage : Stage σ X A B} {a : A} {rest : List A} {mine : stage.State}

/-- The transcript of the first values is the beginning of the transcript. -/
theorem transcript_take (count : Nat) (items : List A) (mine : stage.State) (env : Env σ) :
    (stage.transcript fuel context (items.take count) mine env).1 =
      (stage.transcript fuel context items mine env).1.take count := by
  induction count generalizing items mine env with
  | zero => rfl
  | succ count ih =>
    cases items with
    | nil => rfl
    | cons a rest =>
      rw [List.take_succ_cons, transcript, transcript]
      rcases stage.respond fuel context a mine env with ⟨_ | _ | _ | _ | _, ⟨next, outputs⟩, after⟩
      case ok.proceed => exact congrArg (Transcript.answered outputs) (ih rest next after)
      all_goals rfl

theorem transcript_eq_take {fed items : List A} (h : fed <+: items) :
    (stage.transcript fuel context fed mine env).1 =
      (stage.transcript fuel context items mine env).1.take fed.length := by
  rw [← transcript_take, ← List.prefix_iff_eq_take.1 h]

theorem transcript_of_proceed {next : stage.State} {outputs : List B} {after : Env σ} {acc : Unit}
    (h : stage.respond fuel context a mine env = ⟨.ok (.proceed acc), (next, outputs), after⟩)
    (rest : List A) :
    (stage.transcript fuel context (a :: rest) mine env).1 =
      .answered outputs (stage.transcript fuel context rest next after).1 := by
  rw [transcript, h]

theorem transcript_of_stop {result : Except Halt (Verdict X Unit)} {state : stage.State × List B}
    {after : Env σ} (h : stage.respond fuel context a mine env = ⟨result, state, after⟩)
    (hstop : ∀ acc, result ≠ .ok (.proceed acc)) (rest : List A) :
    (stage.transcript fuel context (a :: rest) mine env).1 = .stopped state.2 result := by
  rw [transcript, h]
  rcases result with _ | _ | _ | _ | _
  case ok.proceed acc => exact absurd rfl (hstop acc)
  all_goals rfl

theorem reason_respond (stage : Stage σ X A B) (a : A) (mine : stage.State) {reason : String}
    (h : env.token.reason = some reason) :
    (stage.respond fuel context a mine env).env.token.reason = some reason :=
  (stage.follows_run fuel stage.disposes_true Sink.follows_noting context () a (mine, [])
    (env.record .handed)).reason h

/-- A cancelled run stays cancelled for the same reason. -/
theorem reason_transcript {reason : String} (items : List A) (mine : stage.State)
    (h : env.token.reason = some reason) :
    (stage.transcript fuel context items mine env).2.token.reason = some reason := by
  induction items generalizing mine env with
  | nil => exact h
  | cons a rest ih =>
    have hafter : (stage.respond fuel context a mine env).env.token.reason = some reason :=
      reason_respond stage a mine h
    rw [transcript]
    generalize stage.respond fuel context a mine env = ended at hafter
    rcases ended with ⟨_ | _ | _ | _ | _, ⟨next, outputs⟩, after⟩
    case ok.proceed => exact ih next hafter
    all_goals exact hafter

/-- If nothing cancels a run, nothing cancels it before its rest. -/
theorem Undisturbed.respond (h : stage.Undisturbed fuel context (a :: rest) mine env)
    {next : stage.State} {outputs : List B} {after : Env σ} {acc : Unit}
    (hrespond : stage.respond fuel context a mine env =
      ⟨.ok (.proceed acc), (next, outputs), after⟩) :
    after.token.reason = env.token.reason ∧ stage.Undisturbed fuel context rest next after := by
  have hlast : (stage.transcript fuel context (a :: rest) mine env).2 =
      (stage.transcript fuel context rest next after).2 := by rw [transcript, hrespond]
  rw [Undisturbed, hlast] at h
  have hafter : after.token.reason = env.token.reason := by
    cases hbefore : env.token.reason with
    | some reason =>
      have hkept : (stage.respond fuel context a mine env).env.token.reason = some reason :=
        reason_respond stage a mine hbefore
      rwa [hrespond] at hkept
    | none =>
      cases hreason : after.token.reason with
      | none => rfl
      | some reason =>
        rw [reason_transcript rest next hreason, hbefore] at h
        cases h
  exact ⟨hafter, h.trans hafter.symm⟩

end Values

/-- A state that contains the state of an instance, and outputs made of the outputs of the
instance. -/
def Lifted {ι κ : Type} (place : ι → κ) (wrap : B → D) (state : κ × List D) (state' : ι × List B) :
    Prop :=
  state.1 = place state'.1 ∧ state.2 = state'.2.map wrap

theorem lifted_of_matches {ι κ α α' : Type} {wrap : B → D} {Q : α → α' → Prop}
    {ended : Ended σ (ι × List D) α} {ended' : Ended σ (ι × List B) α'}
    (h : Ended.Matches ground (Beside Eq fun log log' => log = log'.map wrap) Q ended ended')
    (place : ι → κ) :
    Ended.Matches ground (Lifted place wrap) Q
      ⟨ended.result, (place ended.state.1, ended.state.2), ended.env⟩ ended' := by
  cases h with
  | ok hresult hstate henv => exact .ok hresult ⟨congrArg place hstate.1, hstate.2⟩ henv
  | halted reason hstate henv => exact .halted reason ⟨congrArg place hstate.1, hstate.2⟩ henv

/-- The first of two joined stages responds to a left value as it does alone, and the outputs are on
the left channel. -/
theorem matches_respond_left (fuel : Nat) {left : Stage σ X L L'}
    (hleft : left.Inert ground.deadline) (right : Stage σ X R R')
    (hcontext : context.deadline = ground.deadline) (h : env.Near ground env') (value : L)
    (mine : left.State × right.State) :
    Ended.Matches ground (Lifted (κ := (bimap left right).State) (·, mine.2) .left)
      (Verdict.Corresponds Eq)
      ((bimap left right).respond fuel context (.left value) mine env)
      (left.respond fuel context value mine.1 env') := by
  have halone := left.matches_run fuel hleft (Sink.matches_noting_map ground
    (Branch.left : L' → Branch L' R')) context context () () value hcontext hcontext rfl
    (mine.1, []) (mine.1, []) _ _ ⟨rfl, rfl⟩ (h.record .handed .handed)
  exact lifted_of_matches halone (·, mine.2)

/-- The second of two joined stages responds to a right value as it does alone, and the outputs are
on the right channel. -/
theorem matches_respond_right (fuel : Nat) (left : Stage σ X L L') {right : Stage σ X R R'}
    (hright : right.Inert ground.deadline) (hcontext : context.deadline = ground.deadline)
    (h : env.Near ground env') (value : R) (mine : left.State × right.State) :
    Ended.Matches ground (Lifted (κ := (bimap left right).State) (mine.1, ·) .right)
      (Verdict.Corresponds Eq)
      ((bimap left right).respond fuel context (.right value) mine env)
      (right.respond fuel context value mine.2 env') := by
  have halone := right.matches_run fuel hright (Sink.matches_noting_map ground
    (Branch.right : R' → Branch L' R')) context context () () value hcontext hcontext rfl
    (mine.2, []) (mine.2, []) _ _ ⟨rfl, rfl⟩ (h.record .handed .handed)
  exact lifted_of_matches halone (mine.1, ·)

/-- If a stage responds to a value as another one does, but for a function on the outputs, both stop
or both go on. -/
theorem transcript_of_matches (stage : Stage σ X A B) (joint : Stage σ X C D) {a : A} {c : C}
    {mine : stage.State} {mine' : joint.State} {wrap : B → D} {place : stage.State → joint.State}
    (h : Ended.Matches ground (Lifted place wrap) (Verdict.Corresponds Eq)
      (joint.respond fuel context c mine' env') (stage.respond fuel context a mine env)) :
    (∃ outputs result,
      (∀ items, (joint.transcript fuel context (c :: items) mine' env').1 =
        .stopped (outputs.map wrap) result) ∧
      ∀ rest, (stage.transcript fuel context (a :: rest) mine env).1 = .stopped outputs result) ∨
    ∃ outputs next after after',
      joint.respond fuel context c mine' env' =
        ⟨.ok (.proceed ()), (place next, outputs.map wrap), after'⟩ ∧
      stage.respond fuel context a mine env = ⟨.ok (.proceed ()), (next, outputs), after⟩ ∧
      after'.Near ground after := by
  generalize hjoint : joint.respond fuel context c mine' env' = ended' at h
  generalize hstage : stage.respond fuel context a mine env = ended at h
  cases h with
  | halted reason hstate =>
    refine .inl ⟨_, _, fun items => ?_, transcript_of_stop hstage (by simp)⟩
    rw [transcript_of_stop hjoint (by simp), hstate.2]
  | @ok _ _ state' state after' after hverdict hstate henv =>
    cases hverdict with
    | proceed =>
      refine .inr ⟨state.2, state.1, after, after', ?_, rfl, henv⟩
      exact congrArg (Ended.mk _ · after') (Prod.ext hstate.1 hstate.2)
    | complete | fail | alternate =>
      refine .inl ⟨_, _, fun items => ?_, transcript_of_stop hstage (by simp)⟩
      rw [transcript_of_stop hjoint (by simp), hstate.2]

/-- The transcript of two stages, one on each of two channels, consists of the transcripts of the
two on the values of their channels. -/
theorem transcript_bimap {left : Stage σ X L L'} {right : Stage σ X R R'}
    (hleft : left.Inert ground.deadline) (hright : right.Inert ground.deadline)
    (hcontext : context.deadline = ground.deadline) (items : List (Branch L R))
    {mine : left.State × right.State} {envLeft envRight : Env σ} (hl : env.Near ground envLeft)
    (hr : env.Near ground envRight)
    (hcalm : (bimap left right).Undisturbed fuel context items mine env) :
    ((bimap left right).transcript fuel context items mine env).1 =
      .interleave items
        (left.transcript fuel context (items.filterMap Branch.left?) mine.1 envLeft).1
        (right.transcript fuel context (items.filterMap Branch.right?) mine.2 envRight).1 := by
  induction items generalizing mine env envLeft envRight with
  | nil => rfl
  | cons item items ih =>
    cases item with
    | left value =>
      rw [List.filterMap_cons_some (Branch.left?_left value),
        List.filterMap_cons_none (Branch.right?_left value)]
      obtain ⟨outputs, result, hjoint, halone⟩ | ⟨outputs, _, after, after', hjoint, halone, h⟩ :=
        transcript_of_matches left (bimap left right)
          (matches_respond_left fuel hleft right hcontext hl value mine)
      · rw [hjoint, halone]
        rfl
      · obtain ⟨hreason, hrest⟩ := hcalm.respond hjoint
        have hother : after'.Near ground envRight := ⟨hreason.trans hr.reason, h.left, hr.right⟩
        rw [transcript_of_proceed hjoint, transcript_of_proceed halone, ih h hother hrest]
        rfl
    | right value =>
      rw [List.filterMap_cons_none (Branch.left?_right value),
        List.filterMap_cons_some (Branch.right?_right value)]
      obtain ⟨outputs, result, hjoint, halone⟩ | ⟨outputs, _, after, after', hjoint, halone, h⟩ :=
        transcript_of_matches right (bimap left right)
          (matches_respond_right fuel left hright hcontext hr value mine)
      · rw [hjoint, halone]
        rfl
      · obtain ⟨hreason, hrest⟩ := hcalm.respond hjoint
        have hother : after'.Near ground envLeft := ⟨hreason.trans hl.reason, h.left, hl.right⟩
        rw [transcript_of_proceed hjoint, transcript_of_proceed halone, ih hother h hrest]
        rfl
    | fail failure => rfl

/-- A source hands its items to an inert stage as the transcript says, if it need not stop before
the first one and nothing cancels the run. -/
theorem feed_noting {stage : Stage σ X A B} (hstage : stage.Inert ground.deadline)
    (hcontext : context.deadline = ground.deadline) (items : List A) {mine : stage.State}
    (h : env.Near ground env') (hgo : env.interruption? context = none)
    (hcalm : stage.Undisturbed fuel context items mine env') (log : List B) :
    let ended := feed (stage.run fuel Sink.noting) context items () (mine, log) env
    let transcript := (stage.transcript fuel context items mine env').1
    ended.result = transcript.result ∧ ended.state.2 = log ++ transcript.outputs := by
  induction items generalizing mine env env' log with
  | nil => exact ⟨rfl, (List.append_nil log).symm⟩
  | cons a rest ih =>
    have hended : Ended.Matches ground (Beside Eq fun log' outputs => log' = log ++ outputs)
        (Verdict.Corresponds Eq)
        (stage.run fuel Sink.noting context () a (mine, log) (env.record .handed))
        (stage.respond fuel context a mine env') :=
      stage.matches_run fuel hstage (Sink.matches_noting ground log) context context () () a
        hcontext hcontext rfl _ _ _ _ ⟨rfl, (List.append_nil log).symm⟩
        (h.record .handed .handed)
    simp only [feed, hgo]
    generalize stage.run fuel Sink.noting context () a (mine, log) (env.record .handed) = ended
      at hended
    generalize hrespond : stage.respond fuel context a mine env' = ended' at hended
    cases hended with
    | halted reason hstate =>
      rw [transcript_of_stop hrespond (by simp)]
      exact ⟨rfl, hstate.2⟩
    | @ok _ _ state state' after after' hverdict hstate henv =>
      obtain ⟨next, noted⟩ := state
      obtain ⟨next', outputs⟩ := state'
      obtain ⟨rfl, rfl⟩ : next = next' ∧ noted = log ++ outputs := hstate
      cases hverdict with
      | proceed =>
        obtain ⟨hreason, hrest⟩ := hcalm.respond hrespond
        -- Nothing has changed that would make the source stop before its next item.
        have hnear : env.Near ground after :=
          ⟨h.reason.trans (hreason.symm.trans henv.reason.symm), h.left, henv.left⟩
        have hnext : after.interruption? context = none := by
          rw [← hnear.interruption? hcontext hcontext, hgo]
        obtain ⟨hresult, hnotes⟩ := ih henv hnext hrest (log ++ outputs)
        rw [transcript_of_proceed hrespond]
        exact ⟨hresult, hnotes.trans (List.append_assoc _ _ _)⟩
      | complete | fail | alternate =>
        rw [transcript_of_stop hrespond (by simp)]
        exact ⟨rfl, rfl⟩

/-- What two stages, one on each of two channels, make of a list of values, compared with what each
of them, alone, makes of the values of its channel. -/
structure ChannelsApart (fuel : Nat) (left : Stage σ X L L') (right : Stage σ X R R')
    (context : Context) (items : List (Branch L R)) (mine : left.State × right.State) (env : Env σ)
    (joint : Transcript X (Branch L' R')) : Prop where
  /-- Value by value, up to the first one after which a side alone stops, or which is a failure, the
  outputs are those of the side alone, on its channel. -/
  interleaved : joint = .interleave items
    (left.transcript fuel context (items.filterMap Branch.left?) mine.1 env).1
    (right.transcript fuel context (items.filterMap Branch.right?) mine.2 env).1
  /-- The left outputs are those of the left side alone on the left values up to there. -/
  lefts : joint.outputs.filterMap Branch.left? =
    (left.transcript fuel context ((items.take joint.length).filterMap Branch.left?) mine.1
      env).1.outputs
  /-- The right outputs are those of the right side alone on the right values up to there. -/
  rights : joint.outputs.filterMap Branch.right? =
    (right.transcript fuel context ((items.take joint.length).filterMap Branch.right?) mine.2
      env).1.outputs
  /-- A source that hands over the values, and need not stop before the first one, gives these
  outputs in this order and ends in this way. -/
  driven : env.interruption? context = none →
    let ended := (compose each (bimap left right)).run fuel Sink.noting context () items
      (((), mine), []) env
    ended.result = joint.result ∧ ended.state.2 = joint.outputs

/-- Beginnings of a list of values give comparable outputs. -/
theorem comparable_transcript (stage : Stage σ X A B) (mine : stage.State) (env : Env σ)
    {fed fed' items : List A} (h : fed <+: items) (h' : fed' <+: items) :
    Comparable (stage.transcript fuel context fed mine env).1.outputs
      (stage.transcript fuel context fed' mine env).1.outputs := by
  rw [transcript_eq_take h, transcript_eq_take h']
  exact (Nat.le_total fed.length fed'.length).imp (Transcript.outputs_take_le _)
    (Transcript.outputs_take_le _)

section Apart

variable {left : Stage σ X L L'} {right : Stage σ X R R'}

/-- Two stages that are joined, one on each channel, do what each of them does alone on the values
of its channel, if they are inert and nothing cancels the run: the run goes through the values in
order up to the first one after which a side stops, or which is a failure, and up to there each side
gives the outputs that it gives alone. Two lists with the same values on one channel lead to the
same outputs on that channel, as far as the two runs go. A failure fails the run and runs neither
side. -/
theorem channels_apart (fuel : Nat) (hleft : left.Inert context.deadline)
    (hright : right.Inert context.deadline) (henv : env.Formed) (mine : left.State × right.State)
    (items : List (Branch L R))
    (hcalm : (bimap left right).Undisturbed fuel context items mine env) :
    let joint (items : List (Branch L R)) :=
      ((bimap left right).transcript fuel context items mine env).1
    ChannelsApart fuel left right context items mine env (joint items) ∧
      (∀ others, (bimap left right).Undisturbed fuel context others mine env →
        (others.filterMap Branch.left? = items.filterMap Branch.left? →
          Comparable ((joint others).outputs.filterMap Branch.left?)
            ((joint items).outputs.filterMap Branch.left?)) ∧
        (others.filterMap Branch.right? = items.filterMap Branch.right? →
          Comparable ((joint others).outputs.filterMap Branch.right?)
            ((joint items).outputs.filterMap Branch.right?))) ∧
      ∀ {κ S : Type} (sink : Sink σ X κ S (Branch L' R')) (acc : S) (failure : Failure)
        (state : (left.State × right.State) × κ) (env : Env σ),
        (bimap left right).run fuel sink context acc (.fail failure) state env =
          ⟨.ok (.fail failure), state, env⟩ := by
  intro joint
  have hstands : env.Stands (env.ground context) :=
    ⟨fun _ => rfl, henv.opened, Nat.le_refl _⟩
  have hnear : env.Near (env.ground context) env := ⟨rfl, hstands, hstands⟩
  have hapart (items : List (Branch L R))
      (hcalm : (bimap left right).Undisturbed fuel context items mine env) :
      ChannelsApart fuel left right context items mine env (joint items) := by
    have hinterleaved := transcript_bimap hleft hright rfl items hnear hnear hcalm
    obtain ⟨hlefts, hrights⟩ := Transcript.outputs_interleave items
      (left.transcript fuel context (items.filterMap Branch.left?) mine.1 env).1
      (right.transcript fuel context (items.filterMap Branch.right?) mine.2 env).1
    rw [← hinterleaved] at hlefts hrights
    rw [← transcript_eq_take ((List.take_prefix _ items).filterMap _)] at hlefts hrights
    have hjoined : (bimap left right).Inert (env.ground context).deadline := ⟨hleft, hright⟩
    exact ⟨hinterleaved, hlefts, hrights,
      fun hgo => feed_noting hjoined rfl items hnear hgo hcalm []⟩
  refine ⟨hapart items hcalm, fun others hothers => ⟨fun hsame => ?_, fun hsame => ?_⟩,
    fun _ _ _ _ _ => rfl⟩
  · rw [(hapart items hcalm).lefts, (hapart others hothers).lefts]
    refine comparable_transcript left mine.1 env ?_ ((List.take_prefix _ items).filterMap _)
    rw [← hsame]
    exact (List.take_prefix _ others).filterMap _
  · rw [(hapart items hcalm).rights, (hapart others hothers).rights]
    refine comparable_transcript right mine.2 env ?_ ((List.take_prefix _ items).filterMap _)
    rw [← hsame]
    exact (List.take_prefix _ others).filterMap _

end Apart

/-- One left value is taken, and the successor of a right value is asked for twice if it is odd,
with a random wait in between: the second left value completes the run. Without the right values,
the same left outputs are given. -/
theorem channels_apart_take_retry :
    let left : Stage Unit Empty Nat Nat := take 1
    let right : Stage Unit Empty Nat Nat :=
      retry (map (.ofFun (· + 1))) (.jittered .full (.once (.clip 5)))
        (.ofFun fun _ => .elapsed) (.ofFun (· % 2 == 0))
    let mine : left.State × right.State := (left.init, right.init)
    let context : Context := ⟨.root (.ofNat 0), ⟨0⟩, none⟩
    let env : Env Unit := .start () .fresh ⟨id, 0⟩
    let items : List (Branch Nat Nat) := [.right 1, .left 5, .right 2, .left 6, .right 7]
    let others : List (Branch Nat Nat) := [.left 5, .left 6]
    let joint (items : List (Branch Nat Nat)) :=
      ((bimap left right).transcript 9 context items mine env).1
    left.Inert none ∧ right.Inert none ∧ env.Formed ∧
      (bimap left right).Undisturbed 9 context items mine env ∧
      (bimap left right).Undisturbed 9 context others mine env ∧
      joint items = .answered [.right 2] (.answered [.left 5] (.answered [.right 3]
        (.stopped [] (.ok (.complete ()))))) ∧
      ChannelsApart 9 left right context items mine env (joint items) ∧
      Comparable ((joint others).outputs.filterMap Branch.left?)
        ((joint items).outputs.filterMap Branch.left?) := by
  intro left right mine context env items others joint
  have hleft : left.Inert none := trivial
  have honce : (Schedule.once (.clip 5)).IsFixed := fun pass _ _ => by cases pass <;> rfl
  have hsleeper : Sleeper.Inert none (fun _ _ => True)
      (.ofFun fun _ => .elapsed : Callback Unit Duration Rest) :=
    ⟨fun _ _ _ _ _ => rfl, nofun, fun hdeadline => absurd rfl hdeadline⟩
  have hright : right.Inert none := ⟨Callback.inert_ofFun _ _, Callback.inert_ofFun _ _, _,
    honce.steady.jittered .full, hsleeper⟩
  have henv : env.Formed := .start _ _ _
  have hitems : (bimap left right).Undisturbed 9 context items mine env := rfl
  have hothers : (bimap left right).Undisturbed 9 context others mine env := rfl
  have hapart := channels_apart 9 hleft hright henv mine items hitems
  exact ⟨hleft, hright, henv, hitems, hothers, rfl, hapart.1, (hapart.2.1 others hothers).1 rfl⟩

end Stage

end Transduction
