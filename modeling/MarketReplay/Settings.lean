import MarketReplay.Fault
import MarketReplay.Scalar

/-!
# Settings

The parameters of trading rules, of the simulated account and of cleaning, with the values they have
unless stated otherwise and the checks on them. A check looks at one condition after another and
reports the first that fails; conditions are written so that a `NaN` fails them.

The checks stand here and not in the types, because settings come from files and command lines and a
refusal has to name the parameter at fault. What builds a rule or an account from settings runs the
check first (`AverageCross.ofSettings`, `Reversion.ofSettings`), and the theorems about runs take a
check that went through as their hypothesis. The settings of cleaning have no check: any numbers do.
-/

set_option autoImplicit false

namespace MarketReplay

/-- A rule of two moving averages. The check asks for a fast period below the slow one; with equal
periods the averages never differ, and with longer ones buying and selling change places. -/
structure CrossSettings (α : Type) where
  fastPeriod : Nat
  slowPeriod : Nat
  /-- The fraction of the cash committed on entry. -/
  positionSize : α
deriving DecidableEq, Repr

/-- A rule of relative strength. It buys below `oversold` and sells above `overbought`, both on the
scale from 0 to 100. -/
structure ReversionSettings (α : Type) where
  period : Nat
  oversold : α
  overbought : α
  positionSize : α
deriving DecidableEq, Repr

/-- Starting capital and trading costs. Both rates are fractions of the money moved, and a check
keeps them at one in a hundred (`maxCostRate`). -/
structure AccountSettings (α : Type) where
  initialCapital : α
  commissionRate : α
  slippageRate : α
deriving DecidableEq, Repr

/-- What cleaning takes for too few bars, for a gap and for suspicious. The periods and counts are
natural numbers and the longest interval is an integer, which may even be negative. -/
structure CleaningSettings (α : Type) where
  /-- The fewest bars that have to be left. -/
  minBars : Nat
  /-- The longest interval that is no gap; if unset it follows from the median interval. -/
  maxGap : Option Int
  /-- The multiple of the median interval that counts as a gap when `maxGap` is unset. -/
  gapTolerance : α
  /-- The relative move from close to close that is suspicious. -/
  priceJump : α
  /-- The multiple of the recent mean volume that is suspicious. -/
  volumeSpike : α
  volumeLookback : Nat
  minVolumeHistory : Nat
deriving DecidableEq, Repr

section

variable {α : Type} [Scalar α]

/-! ## Usual values

What a setting is when nothing else is said. Every one of these settings passes its check, so that a
run without any choice made is never refused for its settings. -/

def CrossSettings.usual : CrossSettings α where
  fastPeriod := 5
  slowPeriod := 20
  positionSize := 0.5

def ReversionSettings.usual : ReversionSettings α where
  period := 14
  oversold := 30
  overbought := 70
  positionSize := 0.5

def AccountSettings.usual : AccountSettings α where
  initialCapital := 10000
  commissionRate := 0.001
  slippageRate := 0.001

def CleaningSettings.usual : CleaningSettings α where
  minBars := 1
  maxGap := none
  gapTolerance := 1.5
  priceJump := 0.5
  volumeSpike := 10
  volumeLookback := 100
  minVolumeHistory := 10

/-- Cleaning for bars of a known timeframe: more than one interval is a gap. The median is not asked
then, so that a series in which most bars are missing is marked all over. -/
def CleaningSettings.ofTimeframe (t : Timeframe) : CleaningSettings α :=
  { CleaningSettings.usual with maxGap := some t.millis }

/-! ## Checks

In each check the conditions stand in the order in which they are reported. They say what must hold
and not what must not, which makes a difference for a `NaN`: it is neither below a bound nor above
it. -/

/-- The upper bound of commission and slippage rates. -/
def maxCostRate : α := 0.01

/-- The fraction of the cash has to be above zero and at most all of it. Both rules share this
check, and both report the parameter under one name. -/
def checkPositionSize (size : α) : Except (Fault α) Unit :=
  if 0 < size ∧ size ≤ 1 then .ok ()
  else .error (.strategySetting "position_size" (.sizeOutside size))

/-- The settings of two averages: either period has to count at least one bar, and the fast one has
to be the shorter. Where it is not, the fault names the fast period and carries both. -/
def CrossSettings.check (s : CrossSettings α) : Except (Fault α) Unit :=
  if s.fastPeriod < 1 then .error (.strategySetting "fast_period" .belowOne)
  else if s.slowPeriod < 1 then .error (.strategySetting "slow_period" .belowOne)
  else if s.slowPeriod ≤ s.fastPeriod then
    .error (.strategySetting "fast_period" (.notBelowSlow s.fastPeriod s.slowPeriod))
  else checkPositionSize s.positionSize

/-- The settings of relative strength. The thresholds are looked at together, and whichever of them
is out of place, the fault is reported for `oversold` and carries both. -/
def ReversionSettings.check (s : ReversionSettings α) : Except (Fault α) Unit :=
  if s.period < 1 then .error (.strategySetting "period" .belowOne)
  else if 0 < s.oversold ∧ s.oversold < s.overbought ∧ s.overbought < 100 then
    checkPositionSize s.positionSize
  else .error (.strategySetting "oversold" (.thresholds s.oversold s.overbought))

/-- A cost rate within its bounds. The fault carries the bound as well, so that the message can name
it. -/
def checkRate (parameter : String) (rate : α) : Except (Fault α) Unit :=
  if 0 ≤ rate ∧ rate ≤ maxCostRate then .ok ()
  else .error (.accountSetting parameter (.rateOutside maxCostRate rate))

/-- The settings of an account, the capital first. An infinite capital is refused along with what is
not above zero, and so is a `NaN`. -/
def AccountSettings.check (s : AccountSettings α) : Except (Fault α) Unit :=
  -- the rates are not looked at when the capital is refused
  if Scalar.isFinite s.initialCapital ∧ 0 < s.initialCapital then do
    checkRate "commission_rate" s.commissionRate
    checkRate "slippage_rate" s.slippageRate
  else .error (.accountSetting "initial_capital" (.notPositive s.initialCapital))

end

end MarketReplay
