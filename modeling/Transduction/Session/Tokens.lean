import Transduction.Token
import Transduction.Schedule.Jitter

/-!
# Tokens, recorded waits and jitter in a session

## Main definitions

* `TokenOp`, `tokens`: a token that is cancelled and waited for, and what is seen after each step.
* `recordings`: the waits recorded so far after each wait, and their sum if it is a duration.
* `JitterReading`, `readJitter`: what is seen of jitter at a delay.
-/

namespace Transduction.Session

/-- A step with a token. -/
inductive TokenOp where
  | cancel (reason : String)
  /-- Begins a wait; waits are numbered. -/
  | wait
  /-- Looks at a numbered wait. -/
  | poll (wait : Nat)

/-- What is seen after a step. -/
structure TokenReading where
  token : Token
  answer : Option Token.Answer

/-- What is seen after each step. -/
def tokensFrom (token : Token) (waits : List Token.Wait) : List TokenOp → List TokenReading
  | [] => []
  | .cancel reason :: rest =>
    let token := token.cancel reason
    ⟨token, none⟩ :: tokensFrom token waits rest
  | .wait :: rest => ⟨token, none⟩ :: tokensFrom token (waits ++ [.waiting]) rest
  | .poll i :: rest =>
    match waits[i]? with
    | some wait =>
      let (answer, wait) := wait.poll token
      ⟨token, some answer⟩ :: tokensFrom token (waits.set i wait) rest
    | none => ⟨token, none⟩ :: tokensFrom token waits rest

/-- A session with a fresh token. -/
def tokens (ops : List TokenOp) : List TokenReading := tokensFrom .fresh [] ops

/-- The waits recorded after each wait, and their sum if it is a duration. -/
def recordingsFrom (recorded : List Duration) :
    List Duration → List (List Duration × Option Duration)
  | [] => []
  | delay :: rest =>
    let recorded := recorded ++ [delay]
    (recorded, Duration.total? recorded) :: recordingsFrom recorded rest

/-- A session that records waits. -/
def recordings (delays : List Duration) : List (List Duration × Option Duration) :=
  recordingsFrom [] delays

/-- What is seen of jitter at a delay. -/
inductive JitterReading where
  /-- The outcome, where it does not depend on chance. -/
  | fixed (outcome : Duration)
  /-- Whether draws stay within the bounds of the strategy. -/
  | drawn (isWithin : Bool)

/-- Dice that show numbers of all sizes. -/
def scatteredDice : Dice := ⟨fun n => (n + 1) * 11400714819323198485, 0⟩

/-- A session that applies a strategy to a delay, fifty times where something is drawn. -/
def readJitter (strategy : Jitter) (delay : Duration) : JitterReading :=
  match strategy.fixed? delay with
  | some outcome => .fixed outcome
  | none => .drawn (strategy.staysWithin delay 50 scatteredDice)

end Transduction.Session
