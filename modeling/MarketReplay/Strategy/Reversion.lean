import MarketReplay.Indicator.RelativeStrength
import MarketReplay.Settings
import MarketReplay.Strategy.Rule

/-!
# Reversion to the mean

A rule on relative strength: it buys when the strength falls below the oversold threshold and sells
when it rises above the overbought one. Only the crossing counts, not the state beyond it: a
strength that stays below the threshold has been answered, and it has to come back first to be
answered again.

The state is that of the strength and the last strength it gave. There is none in the warm-up, and
the first one only sets the baseline, as for crossing averages.
-/

set_option autoImplicit false

namespace MarketReplay.Reversion

variable {α : Type} [Scalar α]

/-- The state of the strength, and what it was at the bar before. The rule asks for the moment a
threshold is passed, which takes two strengths to see. -/
structure State (α : Type) where
  strength : RelativeStrength α
  /-- The strength at the bar before, once there is one. -/
  before : Option α

def start (settings : ReversionSettings α) : State α where
  strength := RelativeStrength.start settings.period
  before := none

def reset (s : State α) : State α where
  strength := s.strength.reset
  before := none

/-- What a move of the strength asks for. A strength on the threshold is on the inner side of it.
The two cases exclude each other for thresholds that pass their check. -/
def actionOf (settings : ReversionSettings α) (before now : α) : Action :=
  if settings.oversold ≤ before ∧ now < settings.oversold then .buy
  else if before ≤ settings.overbought ∧ settings.overbought < now then .sell
  else .hold

/-- Takes the next price. Without a strength there is nothing to compare, and the last one is
kept. -/
def observe (settings : ReversionSettings α) (s : State α) (price : α) : State α × Action :=
  let (strength, now?) := s.strength.update price
  match now? with
  | none => ({ s with strength }, .hold)
  | some now =>
    (⟨strength, some now⟩,
      match s.before with
      | some before => actionOf settings before now
      | none => .hold)

/-- The rule of settings, whether they pass their check or not. Its warm-up is the period and one
bar, which is the first bar with a strength. -/
def rule (settings : ReversionSettings α) : PriceRule α (State α) where
  name := "rsi_reversion"
  warmup := settings.period + 1
  positionSize := settings.positionSize
  start := start settings
  reset := reset
  observe := observe settings

/-- The rule of settings that pass their check, or the fault of the check. What is run is made here,
so its settings are sound. -/
def ofSettings (settings : ReversionSettings α) : Except (Fault α) (PriceRule α (State α)) := do
  settings.check
  return rule settings

end MarketReplay.Reversion
