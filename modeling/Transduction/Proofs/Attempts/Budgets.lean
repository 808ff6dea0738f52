import Transduction.Proofs.Attempts.Calls

/-!
# Budgets for waiting

A scheduled stage reads its schedule in one pass and asks its sleeper for the delays of that pass.
So a bound on what a pass can give is a bound on what the sleeper is asked for, whatever the
attempts come to and however the work on a value ends.

A pass carries what is left of its budget with it: each delay is paid for from the rest. The
adapters that shorten delays or leave some out never make a pass more expensive, so a budget
survives them, for any draw of the dice. A number of delays is a budget of the same kind, from which
every delay takes one.

## Main definitions

* `Schedule.Affords`: schedules whose passes can be paid for.
* `Schedule.Adapted`: what becomes of a schedule by shortening delays and leaving some out.
* `LongestWithin`: the longest beginning of a list of delays within an amount of time.

## Main results

* `Schedule.Affords.cost_le`: what a pass gives is paid for.
* `Schedule.Affords.adapted`: a budget survives adapters.
* `Schedule.longestWithin_read`: a budget cuts a schedule off where its total would exceed it.
* `Stage.waits_within_budget`: scheduled stages keep to budgets, and so do the calls of a sleeper that
  lists them.
-/

namespace Transduction

variable {σ X κ S A B T : Type} {schedule : Schedule}

namespace Duration

/-- What some delays cost together. -/
def totalCost (cost : Duration → Nat) : List Duration → Nat
  | [] => 0
  | delay :: rest => cost delay + totalCost cost rest

/-- The exact sum of some delays, in nanoseconds. -/
def sumNanos (delays : List Duration) : Nat := totalCost (·.nanos) delays

theorem totalCost_concat (cost : Duration → Nat) (delays : List Duration) (delay : Duration) :
    totalCost cost (delays ++ [delay]) = totalCost cost delays + cost delay := by
  induction delays with
  | nil => simp [totalCost]
  | cons first rest ih => simp [totalCost, ih, Nat.add_assoc]

theorem totalCost_one (delays : List Duration) : totalCost (fun _ => 1) delays = delays.length := by
  induction delays with
  | nil => rfl
  | cons first rest ih => simp [totalCost, ih, Nat.add_comm]

@[simp] theorem sumNanos_cons (delay : Duration) (delays : List Duration) :
    sumNanos (delay :: delays) = delay.nanos + sumNanos delays := rfl

end Duration

namespace Schedule

/-! ### Paying for delays -/

/-- A schedule of which every pass can be paid for from an amount, with a cost for each delay: what
is left of the amount is known at every point of a pass and covers the delays that are still to
come. -/
def Affords (cost : Duration → Nat) (amount : Nat) (schedule : Schedule) : Prop :=
  ∃ left : schedule.Pass → Nat, left schedule.start ≤ amount ∧
    ∀ (pass rest : schedule.Pass) (delay : Duration) (dice dice' : Dice),
      schedule.next? pass dice = (some (delay, rest), dice') → cost delay + left rest ≤ left pass

/-- A schedule pays for the delays that are read from it. -/
theorem Affords.cost_le {cost : Duration → Nat} {amount : Nat} (h : schedule.Affords cost amount)
    {delays : List Duration} {pass : schedule.Pass} (hreads : schedule.Reads delays pass) :
    Duration.totalCost cost delays ≤ amount := by
  obtain ⟨left, hstart, hnext⟩ := h
  -- At every point of the pass, what is paid for and what is left make up the first amount at most.
  have hpaid : Duration.totalCost cost delays + left pass ≤ left schedule.start := by
    induction hreads with
    | start => simp [Duration.totalCost]
    | draw before hdraw ih =>
      have hcost := hnext _ _ _ _ _ hdraw
      rw [Duration.totalCost_concat]
      omega
  omega

/-! ### Draws through adapters -/

section Draws

variable {delay : Duration} {dice dice' : Dice}

theorem next?_take {count : Nat} {pass rest : Nat × schedule.Pass}
    (h : (take count schedule).next? pass dice = (some (delay, rest), dice')) :
    schedule.next? pass.2 dice = (some (delay, rest.2), dice') ∧ pass.1 = rest.1 + 1 := by
  obtain ⟨remaining, pass⟩ := pass
  cases remaining with
  | zero => cases h
  | succ left =>
    simp only [next?, countDown?] at h
    rcases hfound : schedule.next? pass dice with ⟨_ | ⟨found, pass'⟩, drawn⟩
    · rw [hfound] at h
      cases h
    · rw [hfound] at h
      cases h
      exact ⟨rfl, rfl⟩

theorem next?_maxDelay {cap : Duration} {pass rest : schedule.Pass}
    (h : (maxDelay cap schedule).next? pass dice = (some (delay, rest), dice')) :
    ∃ full : Duration, schedule.next? pass dice = (some (full, rest), dice') ∧
      delay = full.shorter cap := by
  simp only [next?] at h
  rcases hfound : schedule.next? pass dice with ⟨_ | ⟨found, pass'⟩, drawn⟩
  · rw [hfound] at h
    cases h
  · rw [hfound] at h
    cases h
    exact ⟨found, rfl, rfl⟩

theorem next?_jittered {strategy : Jitter} {pass rest : schedule.Pass}
    (h : (jittered strategy schedule).next? pass dice = (some (delay, rest), dice')) :
    ∃ full drawn, schedule.next? pass dice = (some (full, rest), drawn) ∧
      strategy.apply full drawn = (delay, dice') := by
  simp only [next?] at h
  rcases hfound : schedule.next? pass dice with ⟨_ | ⟨found, pass'⟩, drawn⟩
  · rw [hfound] at h
    cases h
  · rw [hfound] at h
    cases h
    exact ⟨found, drawn, rfl, rfl⟩

/-- What a budget lets through is a delay of the schedule, and the total so far is within it. -/
theorem next?_maxCumulative {budget : Duration} {pass rest : Duration × schedule.Pass}
    (h : (maxCumulative budget schedule).next? pass dice = (some (delay, rest), dice')) :
    schedule.next? pass.2 dice = (some (delay, rest.2), dice') ∧
      rest.1.nanos = pass.1.nanos + delay.nanos ∧ rest.1.nanos ≤ budget.nanos := by
  obtain ⟨spent, pass⟩ := pass
  simp only [next?] at h
  rcases hfound : schedule.next? pass dice with ⟨_ | ⟨found, pass'⟩, drawn⟩
  · rw [hfound] at h
    cases h
  · rw [hfound] at h
    cases htotal : spent.add? found with
    | none =>
      simp only [htotal] at h
      cases h
    | some total =>
      by_cases hwithin : total ≤ budget
      · simp only [htotal, hwithin, if_true] at h
        cases h
        exact ⟨rfl, Duration.add?_eq_some_iff.1 htotal, hwithin⟩
      · simp only [htotal, hwithin, if_false] at h
        cases h

end Draws

/-! ### Budgets -/

theorem affords_maxCumulative (budget : Duration) (schedule : Schedule) :
    (maxCumulative budget schedule).Affords (·.nanos) budget.nanos := by
  refine ⟨fun pass : Duration × schedule.Pass => budget.nanos - pass.1.nanos, Nat.sub_le _ _, ?_⟩
  intro pass rest delay dice dice' hdraw
  obtain ⟨-, hsum, hle⟩ := next?_maxCumulative hdraw
  simp only
  omega

theorem affords_take (count : Nat) (schedule : Schedule) :
    (take count schedule).Affords (fun _ => 1) count := by
  refine ⟨fun pass : Nat × schedule.Pass => pass.1, Nat.le_refl _, ?_⟩
  intro pass rest delay dice dice' hdraw
  obtain ⟨-, hcount⟩ := next?_take hdraw
  simp only
  omega

/-- What becomes of a schedule by any sequence of adapters that shorten delays or leave some out. -/
inductive Adapted (schedule : Schedule) : Schedule → Prop
  | refl : Adapted schedule schedule
  | take {other : Schedule} (count : Nat) (h : Adapted schedule other) :
      Adapted schedule (other.take count)
  | maxDelay {other : Schedule} (cap : Duration) (h : Adapted schedule other) :
      Adapted schedule (other.maxDelay cap)
  | jittered {other : Schedule} (strategy : Jitter) (h : Adapted schedule other) :
      Adapted schedule (other.jittered strategy)

section Adapters

variable {cost : Duration → Nat} {amount : Nat} {other : Schedule}
  (h : schedule.Affords cost amount)
  (hcost : ∀ a b : Duration, a.nanos ≤ b.nanos → cost a ≤ cost b)
include h hcost

/-- A schedule that draws its delays from another one and gives none that is longer is paid for from
the same amount. -/
theorem Affords.of_draws (under : other.Pass → schedule.Pass)
    (hstart : under other.start = schedule.start)
    (hdraws : ∀ pass rest delay dice dice',
      other.next? pass dice = (some (delay, rest), dice') →
        ∃ full drawn, schedule.next? (under pass) dice = (some (full, under rest), drawn) ∧
          delay.nanos ≤ full.nanos) : other.Affords cost amount := by
  obtain ⟨left, hfits, hnext⟩ := h
  have hbegun : left (under other.start) ≤ amount := by rwa [hstart]
  refine ⟨fun pass => left (under pass), hbegun, ?_⟩
  intro pass rest delay dice dice' hdraw
  obtain ⟨full, drawn, hfull, hshorter⟩ := hdraws pass rest delay dice dice' hdraw
  calc cost delay + left (under rest)
      ≤ cost full + left (under rest) := Nat.add_le_add_right (hcost _ _ hshorter) _
    _ ≤ left (under pass) := hnext _ _ _ _ _ hfull

/-- An adapted schedule is paid for from the same amount, if shorter delays do not cost more. -/
theorem Affords.adapted (hadapted : schedule.Adapted other) : other.Affords cost amount := by
  induction hadapted with
  | refl => exact h
  | take count _ ih =>
    refine ih.of_draws hcost (fun pass : Nat × _ => pass.2) rfl ?_
    intro pass rest delay dice dice' hdraw
    exact ⟨delay, dice', (next?_take hdraw).1, Nat.le_refl _⟩
  | maxDelay cap _ ih =>
    refine ih.of_draws hcost (fun pass => pass) rfl ?_
    intro pass rest delay dice dice' hdraw
    obtain ⟨full, hfull, rfl⟩ := next?_maxDelay hdraw
    have hshorter : (full.shorter cap).nanos ≤ full.nanos := by
      rw [Duration.nanos_shorter]
      exact Nat.min_le_left _ _
    exact ⟨full, dice', hfull, hshorter⟩
  | jittered strategy _ ih =>
    refine ih.of_draws hcost (fun pass => pass) rfl ?_
    intro pass rest delay dice dice' hdraw
    obtain ⟨full, drawn, hfull, happly⟩ := next?_jittered hdraw
    have hshorter := strategy.nanos_apply_le full drawn
    rw [happly] at hshorter
    exact ⟨full, drawn, hfull, hshorter⟩

end Adapters

end Schedule

/-- The waits of a tally are paid for from the budget of the schedule. -/
theorem Tally.Follows.sumNanos_le {tally : Tally} (h : tally.Follows schedule)
    {budget : Duration} {whole : Schedule}
    (hadapted : (Schedule.maxCumulative budget whole).Adapted schedule) :
    Duration.sumNanos tally.waits ≤ budget.nanos := by
  obtain ⟨last, hreads⟩ := h.reads
  have haffords := (Schedule.affords_maxCumulative budget whole).adapted (fun _ _ h => h) hadapted
  exact haffords.cost_le hreads

/-- There is one attempt more than there are delays at most. -/
theorem Tally.Follows.attempts_le_of_take {tally : Tally} (h : tally.Follows schedule)
    {count : Nat} {whole : Schedule} (hadapted : (Schedule.take count whole).Adapted schedule) :
    tally.attempts ≤ count + 1 := by
  obtain ⟨last, hreads⟩ := h.reads
  have haffords := (Schedule.affords_take count whole).adapted (fun _ _ _ => Nat.le_refl 1)
    hadapted
  have hlength : tally.waits.length ≤ count := by
    have hcost := haffords.cost_le hreads
    rwa [Duration.totalCost_one] at hcost
  have hattempts := h.attempts_le
  omega

/-! ### The longest beginning within a budget -/

/-- The longest beginning of a list of delays with a total within an amount of nanoseconds. -/
structure LongestWithin (amount : Nat) (delays given : List Duration) : Prop where
  beginning : given <+: delays
  within : Duration.sumNanos given ≤ amount
  longest : ∀ more, more <+: delays → Duration.sumNanos more ≤ amount → more.length ≤ given.length

namespace LongestWithin

variable {amount : Nat} {delay : Duration} {delays given : List Duration}

theorem nil : LongestWithin amount [] [] where
  beginning := List.prefix_refl _
  within := Nat.zero_le _
  longest _ hmore _ := hmore.length_le

theorem stop (h : amount < delay.nanos) : LongestWithin amount (delay :: delays) [] where
  beginning := List.nil_prefix
  within := Nat.zero_le _
  longest more hmore hwithin := by
    cases more with
    | nil => exact Nat.le_refl 0
    | cons first rest =>
      obtain ⟨rfl, -⟩ := List.cons_prefix_cons.1 hmore
      rw [Duration.sumNanos_cons] at hwithin
      omega

theorem cons (h : delay.nanos ≤ amount)
    (hrest : LongestWithin (amount - delay.nanos) delays given) :
    LongestWithin amount (delay :: delays) (delay :: given) where
  beginning := List.cons_prefix_cons.2 ⟨rfl, hrest.beginning⟩
  within := by
    have hwithin := hrest.within
    rw [Duration.sumNanos_cons]
    omega
  longest more hmore hwithin := by
    cases more with
    | nil => exact Nat.zero_le _
    | cons first rest =>
      obtain ⟨rfl, hlater⟩ := List.cons_prefix_cons.1 hmore
      rw [Duration.sumNanos_cons] at hwithin
      exact Nat.succ_le_succ (hrest.longest rest hlater (by omega))

end LongestWithin

namespace Schedule

/-- A budget cuts a pass off at the first delay with which the total would exceed it. -/
theorem longestWithin_readFrom {budget : Duration} (n : Nat) (spent : Duration)
    (pass : schedule.Pass) (dice : Dice) (hspent : spent.nanos ≤ budget.nanos) :
    LongestWithin (budget.nanos - spent.nanos) (schedule.readFrom n pass dice).delays
      ((maxCumulative budget schedule).readFrom n (spent, pass) dice).delays := by
  induction n generalizing spent pass dice with
  | zero => exact .nil
  | succ n ih =>
    simp only [readFrom, next?]
    rcases schedule.next? pass dice with ⟨_ | ⟨delay, pass'⟩, dice'⟩
    · exact .nil
    · cases htotal : spent.add? delay with
      | none =>
        -- A sum that is no duration exceeds every budget.
        have hover := Duration.add?_eq_none_iff.1 htotal
        have hbudget := budget.nanos_le
        have hstop : budget.nanos - spent.nanos < delay.nanos := by omega
        simp only [htotal]
        exact .stop hstop
      | some total =>
        have hsum := Duration.add?_eq_some_iff.1 htotal
        by_cases hwithin : total ≤ budget
        · have hle : total.nanos ≤ budget.nanos := hwithin
          have hrest : budget.nanos - total.nanos =
              budget.nanos - spent.nanos - delay.nanos := by omega
          have hlater := ih total pass' dice' hle
          rw [hrest] at hlater
          have hdelay : delay.nanos ≤ budget.nanos - spent.nanos := by omega
          simp only [htotal, hwithin, if_true]
          exact hlater.cons hdelay
        · have hover : budget.nanos < total.nanos := Nat.lt_of_not_le hwithin
          have hstop : budget.nanos - spent.nanos < delay.nanos := by omega
          simp only [htotal, hwithin, if_false]
          exact .stop hstop

/-- A schedule with a budget gives the longest beginning of the delays of the schedule without it
whose total is within the budget. -/
theorem longestWithin_read (budget : Duration) (schedule : Schedule) (n : Nat) (dice : Dice) :
    LongestWithin budget.nanos (schedule.read n dice).delays
      ((maxCumulative budget schedule).read n dice).delays :=
  longestWithin_readFrom n Duration.zero schedule.start dice (Nat.zero_le _)

end Schedule

namespace Stage

/-- A scheduled stage asks its sleeper for waits whose exact sum is within the budget of its
schedule, and begins at most one attempt more than its schedule has delays, whatever the attempts
come to and however its work on a value ends: also if it is broken off, and for an endless schedule.
Both bounds survive adapters that are applied to the schedule after them, for every draw. What a
budget leaves of a schedule is the longest beginning whose total is within it.

A sleeper that lists its calls, in a list that nothing else touches, shows that these waits are the
delays it is called with: over the whole run, the list grows by the waits of the tally, and by no
more than the budget. -/
theorem waits_within_budget (fuel : Nat) (inner : Stage σ X A B) (schedule : Schedule)
    (sleeper : Sleeper σ) (context : Context) (acc : S) (a : A) (down : κ) (env : Env σ)
    (accept : Callback σ B Bool) (sink : Sink σ X κ S B) (seed : T) (f : Callback σ (T × B) T)
    (bound : Bound σ T) (foldSink : Sink σ X κ S T) :
    let retrying := (retry inner schedule sleeper accept).run fuel sink context acc a ((), down) env
    let folding := (foldAttempts inner schedule sleeper seed f bound).run fuel foldSink context acc a
      ((), down) env
    let retried := inner.retryTallied fuel schedule sleeper context a env accept
    let folded := inner.foldTallied fuel schedule sleeper context a env seed f bound
    retrying = retried.deliveredTo sink context acc down ∧
      folding = folded.deliveredTo foldSink context acc down ∧
      (∀ budget whole, (Schedule.maxCumulative budget whole).Adapted schedule →
        Duration.sumNanos retried.state.1.waits ≤ budget.nanos ∧
          Duration.sumNanos folded.state.1.waits ≤ budget.nanos) ∧
      (∀ count whole, (Schedule.take count whole).Adapted schedule →
        retried.state.1.attempts ≤ count + 1 ∧ folded.state.1.attempts ≤ count + 1) ∧
      (∀ budget whole n dice, LongestWithin budget.nanos (Schedule.read whole n dice).delays
        ((Schedule.maxCumulative budget whole).read n dice).delays) ∧
      ∀ calls : σ → List Duration, sleeper.Records calls →
        Step.Preserves calls (inner.attempt fuel context a : Step σ Unit _) →
          (accept.Preserves calls → sink.Preserves calls →
            ∃ made, calls retrying.env.user = calls env.user ++ made ∧
              made = retried.state.1.waits ∧
              ∀ budget whole, (Schedule.maxCumulative budget whole).Adapted schedule →
                Duration.sumNanos made ≤ budget.nanos) ∧
          (f.Preserves calls → bound.Preserves calls → foldSink.Preserves calls →
            ∃ made, calls folding.env.user = calls env.user ++ made ∧
              made = folded.state.1.waits ∧
              ∀ budget whole, (Schedule.maxCumulative budget whole).Adapted schedule →
                Duration.sumNanos made ≤ budget.nanos) := by
  intro retrying folding retried folded
  have hretried : retried.state.1.Follows schedule :=
    follows_retryTallied fuel inner schedule sleeper context a env accept
  have hfolded : folded.state.1.Follows schedule :=
    follows_foldTallied fuel inner schedule sleeper context a env seed f bound
  refine ⟨run_retry_eq_deliveredTo fuel inner schedule sleeper context acc a down env accept sink,
    run_foldAttempts_eq_deliveredTo fuel inner schedule sleeper context acc a down env seed f bound
      foldSink, ?_, ?_, Schedule.longestWithin_read, ?_⟩
  · intro budget whole hadapted
    exact ⟨hretried.sumNanos_le hadapted, hfolded.sumNanos_le hadapted⟩
  · intro count whole hadapted
    exact ⟨hretried.attempts_le_of_take hadapted, hfolded.attempts_le_of_take hadapted⟩
  · intro calls hrecords hattempt
    constructor
    · intro haccept hsink
      have hcalls : calls retrying.env.user = calls env.user ++ retried.state.1.waits :=
        calls_run_retry fuel schedule context acc a down env hrecords hattempt haccept hsink
      exact ⟨_, hcalls, rfl, fun _ _ hadapted => hretried.sumNanos_le hadapted⟩
    · intro hf hbound hsink
      have hcalls : calls folding.env.user = calls env.user ++ folded.state.1.waits :=
        calls_run_foldAttempts fuel schedule context acc a down env hrecords hattempt seed hf hbound
          hsink
      exact ⟨_, hcalls, rfl, fun _ _ hadapted => hfolded.sumNanos_le hadapted⟩

/-- Delays of 40 nanoseconds with a budget of 100, at most five of them, and jitter over the second
half of each: a stage that accepts nothing makes three attempts, and its sleeper is asked for 20 and
for 21 nanoseconds. A sleeper that listed a call for 7 nanoseconds before lists these two after it. -/
theorem waits_within_budget_jittered :
    let inner : Stage (List Duration) Empty Nat Nat := identity
    let whole : Schedule := .spaced (.clip 40)
    let limited : Schedule := .maxCumulative (.clip 100) whole
    let schedule : Schedule := .jittered .equal (.take 5 limited)
    let sleeper : Sleeper (List Duration) := fun delay calls => ⟨.ok .elapsed, calls ++ [delay], []⟩
    let context : Context := ⟨.root (.ofNat 0), ⟨0⟩, none⟩
    let env : Env (List Duration) := .start [.clip 7] .fresh ⟨id, 0⟩
    let accept : Callback (List Duration) Nat Bool := .ofFun fun _ => false
    let add : Callback (List Duration) (Nat × Nat) Nat := .ofFun fun (sum, n) => sum + n
    let retried := inner.retryTallied 9 schedule sleeper context 1 env accept
    let folded := inner.foldTallied 9 schedule sleeper context 1 env 0 add .unbounded
    limited.Adapted schedule ∧ (Schedule.take 5 limited).Adapted schedule ∧
      (Duration.sumNanos retried.state.1.waits ≤ 100 ∧
        Duration.sumNanos folded.state.1.waits ≤ 100) ∧
      (retried.state.1.attempts ≤ 6 ∧ folded.state.1.attempts ≤ 6) ∧
      retried.state.1 = ⟨3, [.clip 20, .clip 21]⟩ ∧ folded.state.1 = ⟨3, [.clip 20, .clip 21]⟩ ∧
      sleeper.Records (fun calls => calls) ∧
      ((retry inner schedule sleeper accept).run 9 Sink.last context none 1 ((), ()) env).env.user =
        [.clip 7, .clip 20, .clip 21] ∧
      ((foldAttempts inner schedule sleeper (0 : Nat) add .unbounded).run 9 Sink.last context none 1
        ((), ()) env).env.user = [.clip 7, .clip 20, .clip 21] ∧
      Duration.sumNanos [.clip 20, .clip 21] ≤ 100 := by
  intro inner whole limited schedule sleeper context env accept add retried folded
  have hlimited : limited.Adapted schedule := .jittered .equal (.take 5 .refl)
  have htaken : (Schedule.take 5 limited).Adapted schedule := .jittered .equal .refl
  have hbounds := waits_within_budget 9 inner schedule sleeper context none 1 () env accept Sink.last
    0 add .unbounded Sink.last
  have hbudget := hbounds.2.2.1 (.clip 100) whole hlimited
  have hcount := hbounds.2.2.2.1 5 limited htaken
  have hretried : retried.state.1 = ⟨3, [.clip 20, .clip 21]⟩ := rfl
  have hfolded : folded.state.1 = ⟨3, [.clip 20, .clip 21]⟩ := rfl
  have hrecords : sleeper.Records (fun calls => calls) := fun _ _ => rfl
  obtain ⟨hretrying, hfolding⟩ := hbounds.2.2.2.2.2 _ hrecords fun _ _ => rfl
  obtain ⟨made, hmade, hwaits, hwithin⟩ := hretrying (fun _ _ => rfl) fun _ _ _ _ _ => rfl
  obtain ⟨made', hmade', hwaits', -⟩ := hfolding (fun _ _ => rfl) trivial fun _ _ _ _ _ => rfl
  rw [hretried] at hwaits
  rw [hfolded] at hwaits'
  subst hwaits hwaits'
  exact ⟨hlimited, htaken, hbudget, hcount, hretried, hfolded, hrecords, hmade, hmade',
    hwithin (.clip 100) whole hlimited⟩

end Stage

end Transduction
