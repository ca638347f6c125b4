import MarketReplay.Indicator.RollingWindow
import MarketReplay.Settings
import MarketReplay.Strategy.Rule

/-!
# Crossing averages

Two moving averages of the closing prices, a fast and a slow one. The rule buys when the fast
average comes to stand above the slow one after it did not, and sells when it comes to stand below
after it did not. The first bar with both averages only sets the baseline.

Averages that differ by rounding alone count as level: the tolerance is a billionth of the larger of
the two, and of one if both are smaller. So for prices below one the tolerance is not relative, and
averages of very small prices are level whatever they are.

The two averages are windows of their own, each with its carried sum. The standing of the bar before
is kept and not worked out again, so that an answer depends on the windows and on one word more.
-/

set_option autoImplicit false

namespace MarketReplay

/-- How the fast average stands to the slow one. There are three cases and not two, since averages
that are within the tolerance of each other are on neither side. -/
inductive Standing where
  | below
  | level
  | above
deriving DecidableEq, Repr

namespace AverageCross

variable {α : Type} [Scalar α]

/-- The windows of both averages, and how they stood to each other. A crossing is a change between
two bars, and the windows tell of the present one only. -/
structure State (α : Type) where
  fast : RollingWindow α
  slow : RollingWindow α
  /-- The standing at the bar before, once both averages exist. -/
  standing : Option Standing

/-- How the fast average stands to the slow one, given both. A `NaN` is neither above nor below
anything, and comes out level. -/
def standingOf (fast slow : α) : Standing :=
  let tolerance := 1e-9 * Scalar.max (Scalar.max (Scalar.abs fast) (Scalar.abs slow)) 1
  if tolerance < fast - slow then .above
  else if tolerance < slow - fast then .below
  else .level

/-- The fast and the slow average, once both windows are full. The slow window is the longer one
under settings that pass their check, and its being full decides. -/
def State.averages? (s : State α) : Option (α × α) :=
  match s.fast.mean?, s.slow.mean? with
  | some fast, some slow => some (fast, slow)
  | _, _ => none

/-- Two windows without values and no standing. The windows of settings whose periods are 2^60 or
more exist here like any others; that the program breaks off before it has made them is said by
`room` alone. -/
def start (settings : CrossSettings α) : State α where
  fast := RollingWindow.empty settings.fastPeriod
  slow := RollingWindow.empty settings.slowPeriod
  standing := none

/-- Clears both windows. The slots keep their old values, so this is not the state of the start; no
answer ever tells the two apart. -/
def reset (s : State α) : State α where
  fast := s.fast.clear
  slow := s.slow.clear
  standing := none

/-- What a change of standing asks for. Coming from level counts as coming from the other side, and
going to level asks for nothing. -/
def actionOf : Option Standing → Standing → Action
  | some .below, .above => .buy
  | some .level, .above => .buy
  | some .level, .below => .sell
  | some .above, .below => .sell
  | _, _ => .hold

/-- Takes the next price into both windows and compares them. Before both averages exist the answer
is to hold, and the first standing only becomes the one to compare with. -/
def observe (s : State α) (price : α) : State α × Action :=
  let s : State α := { s with fast := (s.fast.push price).1, slow := (s.slow.push price).1 }
  match s.averages? with
  | none => (s, .hold)
  | some (fast, slow) =>
    let standing := standingOf fast slow
    ({ s with standing := some standing }, actionOf s.standing standing)

/-- The rule of settings, whether they pass their check or not. Its warm-up is the slow period: the
first bar with both averages. -/
def rule (settings : CrossSettings α) : PriceRule α (State α) where
  name := "ma_cross"
  warmup := settings.slowPeriod
  positionSize := settings.positionSize
  start := start settings
  reset := reset
  observe := observe

/-- The rule of settings that pass their check. This is how a rule is made outside of proofs, and a
check that fails is the answer. -/
def ofSettings (settings : CrossSettings α) : Except (Fault α) (PriceRule α (State α)) := do
  settings.check
  return rule settings

/-- The room for the windows of settings, first the fast one. Settings that fail their check come to
have no windows, and so they need no room. -/
def room (settings : CrossSettings α) : Room :=
  if settings.check.isOk then
    (RollingWindow.room settings.fastPeriod).andThen (RollingWindow.room settings.slowPeriod)
  else .enough

end AverageCross

end MarketReplay
