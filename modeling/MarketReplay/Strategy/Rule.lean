import MarketReplay.Strategy.Source

/-!
# Rules on closing prices

Many rules look at closing prices only and take them in one at a time: a state, a start, and a step
that takes a price and says what to do. `PriceRule.source` turns such a rule into a source. The
source remembers how many bars its state has seen. When it is asked with exactly one bar more, it
takes that step; asked with anything else, it resets the state and runs through the bars it is
given. The count is all it compares, so the answer is right as long as the bars behind equal counts
are equal. A rule resets its state in its own way; the state need not be the one it started with, as
long as nothing it answers from then on tells the two apart.

Both rules of this library are such rules, and share all that is here. What is true of asking them
in any order is proved once for a `PriceRule` whose reset cannot be told from its start.
-/

set_option autoImplicit false

namespace MarketReplay

/-- A rule that takes closing prices one at a time. The first three fields are handed on to the
source unchanged. -/
structure PriceRule (α σ : Type) where
  name : String
  warmup : Nat
  positionSize : α
  start : σ
  /-- Forgets the prices taken in. -/
  reset : σ → σ
  observe : σ → α → σ × Action

/-- The state of a rule with the number of bars it has seen. The bars themselves are not kept: they
are handed over at every question, and the count says which of them are new. -/
structure Follower (σ : Type) where
  seen : Nat
  state : σ

namespace PriceRule

variable {α σ : Type}

/-- The follower of a rule that was never asked. -/
def fresh (rule : PriceRule α σ) : Follower σ := ⟨0, rule.start⟩

/-- The follower with its prices forgotten. The rule's own reset is used, and the count starts
again. -/
def restart (rule : PriceRule α σ) (f : Follower σ) : Follower σ := ⟨0, rule.reset f.state⟩

/-- Takes the closing price of the next bar, and counts it. This is the one way in which a rule
learns of a bar. -/
def follow (rule : PriceRule α σ) (f : Follower σ) (bar : Bar α) : Follower σ × Action :=
  let (state, action) := rule.observe f.state bar.closing
  (⟨f.seen + 1, state⟩, action)

/-- The state after all but the last of the given bars: the given one if it has seen as many,
otherwise the one that it reaches after a restart. The bars are not compared, only counted: asked
with as many other bars, the state goes on as if they were its own. -/
def caughtUp (rule : PriceRule α σ) (f : Follower σ) (bars : Array (Bar α)) : Follower σ :=
  if bars.size = f.seen + 1 then f
  else bars.pop.foldl (fun f bar => (rule.follow f bar).1) (rule.restart f)

/-- The answer at the last of the given bars. Without a bar there is nothing to do, at time
zero. -/
def signalFor (rule : PriceRule α σ) (f : Follower σ) (bars : Array (Bar α)) :
    Follower σ × Signal :=
  match bars.back? with
  | none => (rule.restart f, .hold 0)
  | some bar =>
    let (f, action) := rule.follow (rule.caughtUp f bars) bar
    (f, ⟨bar.timestamp, action⟩)

def source (rule : PriceRule α σ) : SignalSource α (Follower σ) where
  name := rule.name
  warmup := rule.warmup
  positionSize := rule.positionSize
  reset := rule.restart
  signalFor := rule.signalFor

end PriceRule

end MarketReplay
