import MarketReplay.Market.Bar
import MarketReplay.Market.Signal

/-!
# Sources of signals

A source answers, bar after bar, what to do now. It is asked with the bars seen so far and may keep
state between the questions; the state is a value that each question passes on. Nothing in the type
keeps an answer from depending on earlier questions: that the sources of this library do not is a
fact about them, not an assumption of the replay.

The replay is defined for every source. Theorems about runs are stated at that generality where they
can be, so that they hold for rules that nobody has written yet; those that need to know what the
source answers say so.
-/

set_option autoImplicit false

namespace MarketReplay

/-- A source of signals with states of type `σ`. The state is not hidden: a caller owns it and can
ask from any state, which is how a source that was used before is modelled. -/
structure SignalSource (α σ : Type) where
  name : String
  /-- The number of bars before which every answer is to hold. -/
  warmup : Nat
  /-- The fraction of the cash committed on entry. -/
  positionSize : α
  /-- Forgets what was seen. -/
  reset : σ → σ
  /-- The answer at the last of the given bars. -/
  signalFor : σ → Array (Bar α) → σ × Signal

namespace SignalSource

variable {α σ : Type}

/-- The answers to the bars of a list, one after another, when the bars `seen` came before. The
state is returned as well, since a source may be asked again later. -/
def signalsAfter (source : SignalSource α σ) (seen : Array (Bar α)) (state : σ) :
    List (Bar α) → σ × List Signal
  | [] => (state, [])
  | bar :: rest =>
    let seen := seen.push bar
    let (state, signal) := source.signalFor state seen
    let (state, signals) := source.signalsAfter seen state rest
    (state, signal :: signals)

/-- The answers at every bar of a series, starting afresh. The state is reset first, as a replay
does. -/
def signals (source : SignalSource α σ) (state : σ) (bars : List (Bar α)) : σ × List Signal :=
  source.signalsAfter #[] (source.reset state) bars

end SignalSource

end MarketReplay
