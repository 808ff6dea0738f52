import Transduction.Session.Basic
import Transduction.Channel

/-!
# Channels in a session

Producers push items into a channel, a pipeline observes the channel, and the producers that are
left push more.

## Main definitions

* `Push`: what a producer does.
* `Push.apply`: its answer and its effect.
* `observing`: the whole exchange.
-/

namespace Transduction.Session

open Blueprint

/-- What a producer does. -/
inductive Push.Act where
  | next (value : Value)
  | error (failure : Failure)
  | complete
  | duplicate
  | leave

/-- Something done by a numbered producer. -/
structure Push where
  producer : Nat
  act : Push.Act

/-- The answer to a push. -/
inductive Push.Answer where
  | accepted (isAccepted : Bool)
  | completed
  | cloned
  | dropped
  /-- There is no such producer, or it has left. -/
  | gone

/-- Does what a producer does. -/
def Push.apply (push : Push) (channel : Channel Value) : Push.Answer × Channel Value :=
  if channel.hasProducer push.producer then
    match push.act with
    | .next value =>
      let (isAccepted, channel) := channel.send (.ok value)
      (.accepted isAccepted, channel)
    | .error failure =>
      let (isAccepted, channel) := channel.send (.error failure)
      (.accepted isAccepted, channel)
    | .complete => (.completed, channel.complete)
    | .duplicate => (.cloned, channel.duplicate)
    | .leave => (.dropped, channel.leave push.producer)
  else (.gone, channel)

/-- Does what several producers do, in turn. -/
def Push.applyAll : List Push → Channel Value → List Push.Answer × Channel Value
  | [], channel => ([], channel)
  | push :: rest, channel =>
    let (answer, channel) := push.apply channel
    let (answers, channel) := applyAll rest channel
    (answer :: answers, channel)

/-- What an exchange over a channel gave. -/
structure Exchange where
  before : List Push.Answer
  result : Except Halt (Yield Value)
  after : List Push.Answer
  log : List Note
  tail : Tail

/-- Pushes some items, observes the channel with a pipeline, and pushes more. The producers stay
during the run if they are kept, or if the run is cancelled as soon as it waits. -/
def observing (before after : List Push) (keep : Bool) (cancelWhenIdle : Option String)
    (pipeline : Pipeline) (labels : List String) (setting : Setting) : Exchange :=
  let (answers, channel) := Push.applyAll before .fresh
  let channel := if keep || cancelWhenIdle.isSome then channel else channel.abandon
  let (source, channel) := channel.read cancelWhenIdle
  let (context, world) := setting.enter (begin labels)
  let stage : Stage Journal Value (Feed (Except Failure Value)) Value :=
    .compose .observe (pipeline.build ⟨true, true⟩)
  let (result, world) := stage.collectIn patience context source world
  let (laterAnswers, _) := Push.applyAll after channel
  let result := result.map (stampYield world)
  let (log, world) := takeLog (world.dropRegistry context.registry)
  ⟨answers, result, laterAnswers, log, .of world⟩

end Transduction.Session
