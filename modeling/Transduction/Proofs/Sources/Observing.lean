import Transduction.Channel
import Transduction.Proofs.Emission.Visits
import Transduction.Stage.Derived

/-!
# Observing a channel

Producers send values and failures over a channel, and a run observes it. What is sent before the
channel is completed is accepted, and nothing after that. A run that is not interrupted hands over
the accepted values up to the first accepted failure, in the order in which they were sent and each
of them once, as long as it is asked for more. It ends with the verdict that stops it, with that
failure, or with the accumulator it has got to when nothing is left. From then on the channel
accepts nothing.

## Main definitions

* `Channel.Act`, `Channel.performAll`: what producers do, with the answers they get.
* `Channel.sent`, `Channel.values`, `Channel.failure?`: the items that are sent, and what a reader
  makes of them.
* `Visit.Proceeds`: calls of a sink that asked for more.
* `Visit.Quiet`: a run that is not interrupted.
* `Visit.Deliver`: the calls and the outcome of a run over some items.

## Main results

* `Channel.performAll_of_accepts`, `Channel.performAll_of_not_accepts`: what is accepted.
* `Emission.deliver_emitFeed`: what reading some items comes to.
* `Stage.observe_delivers`: a run that observes a channel, in front of any stage.
-/

namespace Transduction

variable {σ X ι κ S A B C : Type}

/-! ### Producers -/

namespace Channel

/-- Something that a producer does with a channel. It makes no difference which producer sends. -/
inductive Act (A : Type) where
  | next (value : A)
  | error (failure : Failure)
  | complete
  | duplicate
  | leave (producer : Nat)

namespace Act

/-- The item that is sent, if one is. -/
def item? : Act A → Option (Except Failure A)
  | next value => some (.ok value)
  | error failure => some (.error failure)
  | complete | duplicate | leave _ => none

/-- Whether the channel is completed. -/
def completes : Act A → Bool
  | complete => true
  | next _ | error _ | duplicate | leave _ => false

end Act

/-- The items that are sent, in order. -/
def sent (acts : List (Act A)) : List (Except Failure A) := acts.filterMap Act.item?

theorem sent_cons (act : Act A) (rest : List (Act A)) :
    sent (act :: rest) = sent [act] ++ sent rest := by
  rw [sent, ← List.singleton_append, List.filterMap_append]
  rfl

/-- What is done before the channel is completed. -/
def inTime (acts : List (Act A)) : List (Act A) := acts.takeWhile fun act => !act.completes

/-- What is done when the channel is completed and after that. -/
def tooLate (acts : List (Act A)) : List (Act A) := acts.dropWhile fun act => !act.completes

/-- What a channel is after something that a producer does with it. -/
def perform (channel : Channel A) : Act A → Channel A
  | .next value => (channel.send (.ok value)).2
  | .error failure => (channel.send (.error failure)).2
  | .complete => channel.complete
  | .duplicate => channel.duplicate
  | .leave producer => channel.leave producer

/-- What producers do with a channel, one thing after the other: the items they send, each with the
answer whether it was accepted, and the channel that is left. -/
def performAll : List (Act A) → Channel A → List (Except Failure A × Bool) × Channel A
  | [], channel => ([], channel)
  | act :: rest, channel =>
    let answers := (sent [act]).map fun item => (item, (channel.send item).1)
    let later := performAll rest (channel.perform act)
    (answers ++ later.1, later.2)

variable {channel : Channel A}

theorem accepts_perform {act : Act A} (h : act.completes = false) :
    (channel.perform act).accepts = channel.accepts := by
  cases act with
  | complete => cases h
  | duplicate | leave => rfl
  | next | error =>
    rw [perform, send]
    split <;> rfl

theorem accepts_perform_of_not_accepts (h : channel.accepts = false) (act : Act A) :
    (channel.perform act).accepts = false := by
  cases hact : act.completes with
  | false => rw [accepts_perform hact, h]
  | true =>
    cases act with
    | complete => exact channel.accepts_complete
    | next | error | duplicate | leave => cases hact

theorem items_perform_of_not_accepts (h : channel.accepts = false) (act : Act A) :
    (channel.perform act).items = channel.items := by
  cases act with
  | next | error => exact congrArg (items ∘ Prod.snd) (send_of_not_accepts h _)
  | complete | duplicate | leave => rfl

theorem items_perform_of_accepts (h : channel.accepts = true) (act : Act A) :
    (channel.perform act).items = channel.items ++ sent [act] := by
  cases act with
  | next | error => exact items_send_of_accepts h _
  | complete | duplicate | leave => exact (List.append_nil _).symm

/-- A channel that accepts nothing rejects all items. -/
theorem performAll_of_not_accepts (h : channel.accepts = false) (acts : List (Act A)) :
    (channel.performAll acts).1 = (sent acts).map (·, false) ∧
      (channel.performAll acts).2.items = channel.items := by
  induction acts generalizing channel with
  | nil => exact ⟨rfl, rfl⟩
  | cons act rest ih =>
    obtain ⟨hanswers, hitems⟩ := ih (accepts_perform_of_not_accepts h act)
    have hrejected (item : Except Failure A) : (channel.send item).1 = false :=
      congrArg Prod.fst (send_of_not_accepts h item)
    refine ⟨?_, hitems.trans (items_perform_of_not_accepts h act)⟩
    simp only [performAll, hanswers, hrejected]
    rw [sent_cons act rest, List.map_append]

/-- What is sent before the channel is completed is accepted, and nothing after that. -/
theorem performAll_of_accepts (h : channel.accepts = true) (acts : List (Act A)) :
    (channel.performAll acts).1 =
        (sent (inTime acts)).map (·, true) ++ (sent (tooLate acts)).map (·, false) ∧
      (channel.performAll acts).2.items = channel.items ++ sent (inTime acts) := by
  induction acts generalizing channel with
  | nil => exact ⟨rfl, (List.append_nil _).symm⟩
  | cons act rest ih =>
    cases hact : act.completes with
    | true =>
      cases act with
      | complete =>
        obtain ⟨hanswers, hitems⟩ := performAll_of_not_accepts channel.accepts_complete rest
        exact ⟨hanswers, hitems.trans (List.append_nil _).symm⟩
      | next | error | duplicate | leave => cases hact
    | false =>
      obtain ⟨hanswers, hitems⟩ := ih ((accepts_perform hact).trans h)
      have haccepted (item : Except Failure A) : (channel.send item).1 = true :=
        congrArg Prod.fst (if_pos h)
      have hgo : (!act.completes) = true := by rw [hact, Bool.not_false]
      have hinTime : inTime (act :: rest) = act :: inTime rest := List.takeWhile_cons_of_pos hgo
      have htooLate : tooLate (act :: rest) = tooLate rest := List.dropWhile_cons_of_pos hgo
      rw [hinTime, htooLate, sent_cons, List.map_append, ← List.append_assoc channel.items,
        ← items_perform_of_accepts h]
      simp only [performAll, hanswers, haccepted, List.append_assoc, true_and]
      exact hitems

/-! ### The reader -/

/-- The values of some items that precede the first failure. -/
def values (items : List (Except Failure A)) : List A :=
  (items.takeWhile (·.isOk)).filterMap (·.toOption)

/-- The first failure of some items. -/
def failure? (items : List (Except Failure A)) : Option Failure :=
  items.findSome? fun
    | .ok _ => none
    | .error failure => some failure

end Channel

namespace Visit

/-- A call of a sink that asked for more. -/
def Proceeds (visit : Visit σ X κ S A) : Prop :=
  ∃ next, visit.ended.result = .ok (.proceed next)

/-- A run that is not interrupted, from the surroundings in which it begins and the calls that it
makes: whenever it looks for a reason to stop there is none. -/
structure Quiet (context : Context) (env : Env σ) (visits : List (Visit σ X κ S A)) : Prop where
  begins : env.interruption? context = none
  goesOn : ∀ visit ∈ visits, visit.Proceeds → visit.ended.env.interruption? context = none

/-- The calls and the outcome of a run over some items that begins with the accumulator `acc`. -/
structure Deliver (items : List (Except Failure A)) (acc : S) (visits : List (Visit σ X κ S A))
    (result : Except Halt (Verdict X S)) : Prop where
  /-- The values before the first failure are handed over in order, each of them once. -/
  handed : visits.map value <+: Channel.values items
  /-- A call that does not ask for more is the last one, and the run ends as it does. -/
  stopped : ∀ earlier visit later, visits = earlier ++ visit :: later → ¬visit.Proceeds →
    later = [] ∧ result = visit.ended.result
  /-- If all calls ask for more, all these values are handed over. The run ends with the first
  failure, or goes on with the last accumulator if there is no failure. -/
  exhausted : (∀ visit ∈ visits, visit.Proceeds) →
    visits.map value = Channel.values items ∧ ∃ last, lastAcc? acc visits = some last ∧
      result = .ok ((Channel.failure? items).elim (.proceed last) .fail)

namespace Deliver

variable {items : List (Except Failure A)} {acc next : S}
  {later : List (Visit σ X κ S A)} {result : Except Halt (Verdict X S)}

/-- A run over some items that begin with no value calls nothing. -/
theorem nothing (hvalues : Channel.values items = [])
    (hresult : result = .ok ((Channel.failure? items).elim (.proceed acc) .fail)) :
    Deliver items acc ([] : List (Visit σ X κ S A)) result where
  handed := List.nil_prefix
  stopped earlier visit later h := by
    obtain ⟨-, hcons⟩ := List.append_eq_nil_iff.1 h.symm
    cases hcons
  exhausted _ := ⟨hvalues.symm, acc, rfl, hresult⟩

/-- A run that is stopped by the first call. -/
theorem stop {context : Context} {held : S} {value : A} {ended : Ended σ κ (Verdict X S)}
    (h : ∀ next, ended.result ≠ .ok (.proceed next)) :
    Deliver (.ok value :: items) acc [⟨context, held, value, ended⟩] ended.result where
  handed := List.cons_prefix_cons.2 ⟨rfl, List.nil_prefix⟩
  stopped earlier other later hsplit hother := by
    cases earlier with
    | nil =>
      obtain ⟨rfl, rfl⟩ := List.cons.inj hsplit
      exact ⟨rfl, rfl⟩
    | cons first earlier =>
      obtain ⟨-, hcons⟩ := List.append_eq_nil_iff.1 (List.cons.inj hsplit).2.symm
      cases hcons
  exhausted hall := by
    obtain ⟨next, hnext⟩ := hall _ List.mem_cons_self
    exact absurd hnext (h next)

/-- A run that goes on after the first call. -/
theorem cons (visit : Visit σ X κ S A) (h : visit.ended.result = .ok (.proceed next))
    (hrest : Deliver items next later result) :
    Deliver (.ok visit.value :: items) acc (visit :: later) result where
  handed := List.cons_prefix_cons.2 ⟨rfl, hrest.handed⟩
  stopped earlier other after hsplit hother := by
    cases earlier with
    | nil =>
      obtain ⟨rfl, -⟩ := List.cons.inj hsplit
      exact absurd ⟨next, h⟩ hother
    | cons first earlier => exact hrest.stopped earlier other after (List.cons.inj hsplit).2 hother
  exhausted hall := by
    obtain ⟨hvalues, last, hlast, hresult⟩ :=
      hrest.exhausted fun other hother => hall other (List.mem_cons_of_mem _ hother)
    exact ⟨congrArg (visit.value :: ·) hvalues, last, (lastAcc?_cons h later).trans hlast, hresult⟩

end Deliver

end Visit

/-- A run that need not stop goes on. -/
theorem Emitter.unlessInterrupted_apply {context : Context} {env : Env σ}
    (h : env.interruption? context = none) (next : Emitter σ ι B (Verdict X Unit)) (mine : ι) :
    unlessInterrupted context next mine env = next mine env := by
  simp only [unlessInterrupted, lift, bind, Emission.bind, Step.ask, h]

namespace Emission

variable (sink : Sink σ X κ S B) (context : Context)

/-- Reading a feed that is over after its items or has a failure among them delivers its values, if
the run is not interrupted. -/
theorem deliver_emitFeed (tail : Feed.Tail) (items : List (Except Failure B)) (acc : S) (mine : ι)
    (down : κ) (env : Env σ)
    (hclosed : (∃ failure, .error failure ∈ items) ∨ tail = .over)
    (hquiet : Visit.Quiet context env
      ((emitFeed id context tail items mine env).visits sink context acc down)) :
    Visit.Deliver items acc
      ((emitFeed id context tail items mine env).visits sink context acc down)
      ((emitFeed id context tail items mine env).play sink context acc down).result := by
  induction items generalizing acc down env with
  | nil =>
    obtain ⟨_, hmem⟩ | rfl := hclosed
    · cases hmem
    · rw [emitFeed, Emitter.unlessInterrupted_apply hquiet.begins]
      exact .nothing rfl rfl
  | cons item rest ih =>
    rw [emitFeed, Emitter.unlessInterrupted_apply hquiet.begins] at hquiet ⊢
    cases item with
    | error failure => exact .nothing rfl rfl
    | ok value =>
      have hrest : (∃ failure, .error failure ∈ rest) ∨ tail = .over := by
        refine hclosed.imp_left ?_
        rintro ⟨failure, hmem⟩
        cases hmem with
        | tail _ hmem => exact ⟨failure, hmem⟩
      change Visit.Quiet context env
        ((emit value mine (env.record .handed) (emitFeed id context tail rest mine)).visits sink
          context acc down) at hquiet
      change Visit.Deliver (.ok value :: rest) acc
        ((emit value mine (env.record .handed) (emitFeed id context tail rest mine)).visits sink
          context acc down)
        ((emit value mine (env.record .handed) (emitFeed id context tail rest mine)).play sink
          context acc down).result
      simp only [visits, play] at hquiet ⊢
      rcases hended : sink context acc value down (env.record .handed) with
        ⟨halt | verdict, down', env'⟩
      · refine Visit.Deliver.stop fun next h => ?_
        cases h
      · rw [hended] at hquiet
        cases verdict with
        | proceed acc' =>
          let visit : Visit σ X κ S B := ⟨context, acc, value, ⟨.ok (.proceed acc'), down', env'⟩⟩
          have hresult : visit.ended.result = .ok (.proceed acc') := rfl
          have hlater : Visit.Quiet context env'
              ((emitFeed id context tail rest mine env').visits sink context acc' down') :=
            ⟨hquiet.goesOn visit List.mem_cons_self ⟨acc', hresult⟩,
              fun later hlater => hquiet.goesOn later (List.mem_cons_of_mem visit hlater)⟩
          exact Visit.Deliver.cons visit hresult (ih acc' down' env' hrest hlater)
        | complete | fail | alternate =>
          refine Visit.Deliver.stop fun next h => ?_
          cases h

end Emission

namespace Stage

/-- Producers use a channel, and then a run observes it in front of any stage.

The items that were sent before the channel was completed were accepted, and those sent later were
rejected. If the channel is closed or a failure was accepted, and the run is not interrupted, the
stage is handed the accepted values up to the first accepted failure, in the order in which they
were sent and each of them once, until a call ends the run, which then ends in the same way. If no
call does, the run ends with the first accepted failure, or goes on with the last accumulator. After
the run every item is rejected. -/
theorem observe_delivers (fuel : Nat) (down : Stage σ X A C) (sink : Sink σ X κ S C)
    (context : Context) (acc : S) (mine : down.State) (rest : κ) (env : Env σ)
    (acts : List (Channel.Act A)) (cancelled : Option String) :
    let pushed := Channel.fresh.performAll acts
    let accepted := Channel.sent (Channel.inTime acts)
    let read := pushed.2.read cancelled
    let visits := observe.visits fuel (down.run fuel sink) context acc read.1 ((), mine, rest) env
    let ended :=
      (compose observe down).run fuel sink context acc read.1 (((), mine), rest) env
    pushed.1 = accepted.map (·, true) ++
      (Channel.sent (Channel.tooLate acts)).map (·, false) ∧
    ((∃ failure, .error failure ∈ accepted) ∨ pushed.2.isClosed = true →
      Visit.Quiet context env visits → Visit.Deliver accepted acc visits ended.result) ∧
    ∀ later, (read.2.performAll later).1 = (Channel.sent later).map (·, false) := by
  intro pushed accepted read visits ended
  have hfresh : (Channel.fresh : Channel A).accepts = true := rfl
  obtain ⟨hanswers, hitems⟩ := Channel.performAll_of_accepts hfresh acts
  refine ⟨hanswers, fun hclosed hquiet => ?_, fun later =>
    (Channel.performAll_of_not_accepts (pushed.2.accepts_read cancelled) later).1⟩
  have hread : read.1.items = accepted := hitems
  have htail : (∃ failure, .error failure ∈ accepted) ∨ read.1.tail = .over :=
    hclosed.imp_right fun hover => if_pos hover
  have hvisits : visits = (emitFeed id context read.1.tail read.1.items () env).visits
      (down.run fuel sink) context acc (mine, rest) := by
    exact visits_eq_visits_emission fuel observe (down.run fuel sink) context acc read.1 _ env
  have hresult : ended.result = ((emitFeed id context read.1.tail read.1.items () env).play
      (down.run fuel sink) context acc (mine, rest)).result := by
    have hrun := run_eq_perform fuel observe (down.run fuel sink) context acc read.1
    exact congrArg Ended.result (congrFun (congrFun hrun ((), mine, rest)) env)
  rw [hvisits, hresult, hread]
  rw [hvisits, hread] at hquiet
  exact Emission.deliver_emitFeed _ context _ _ acc () _ env htail hquiet

/-- Two values and a failure are sent, another value after that, and one more when the channel has
been completed. The sum of the two values is got to when the failure ends the run. -/
theorem observe_delivers_until_failure :
    let acts : List (Channel.Act Nat) :=
      [.next 1, .duplicate, .next 2, .error .bottom, .next 3, .complete, .next 4]
    let sink : Sink Unit Empty Unit Nat Nat := fun _ sum n => pure (.proceed (sum + n))
    let context : Context := ⟨.root (.ofNat 0), ⟨0⟩, none⟩
    let env : Env Unit := .start () .fresh ⟨id, 0⟩
    let pushed := Channel.fresh.performAll acts
    let read := pushed.2.read none
    let visits := observe.visits 1 (identity.run 1 sink) context 0 read.1 ((), (), ()) env
    let ended :=
      (compose observe identity).run 1 sink context 0 read.1 (((), ()), ()) env
    pushed.1.map Prod.snd = [true, true, true, true, false] ∧
      visits.map Visit.value = [1, 2] ∧ Visit.lastAcc? 0 visits = some 3 ∧
      ended.result = .ok (.fail .bottom) ∧
      (read.2.performAll [.next 5]).1 = [(.ok 5, false)] := by
  intro acts sink context env pushed read visits ended
  obtain ⟨hanswers, hdeliver, hlater⟩ :=
    observe_delivers 1 identity sink context 0 () () env acts none
  let handed := env.record .handed
  have hvisits : visits = [⟨context, 0, 1, ⟨.ok (.proceed 1), ((), ()), handed⟩⟩,
      ⟨context, 1, 2, ⟨.ok (.proceed 3), ((), ()), handed.record .handed⟩⟩] := rfl
  have hfailed : ∃ failure, .error failure ∈ Channel.sent (Channel.inTime acts) :=
    ⟨.bottom, .tail _ (.tail _ (.head _))⟩
  have hproceeds : ∀ visit ∈ visits, visit.Proceeds := by
    rw [hvisits]
    exact List.forall_mem_cons.2 ⟨⟨1, rfl⟩, List.forall_mem_singleton.2 ⟨3, rfl⟩⟩
  have hquiet : Visit.Quiet context env visits := by
    refine ⟨rfl, ?_⟩
    rw [hvisits]
    exact List.forall_mem_cons.2 ⟨fun _ => rfl, List.forall_mem_singleton.2 fun _ => rfl⟩
  obtain ⟨hvalues, last, hlast, hresult⟩ := (hdeliver (.inl hfailed) hquiet).exhausted hproceeds
  exact ⟨congrArg _ hanswers, hvalues, rfl, hresult, hlater [.next 5]⟩

end Stage

end Transduction
