import MarketReplay.Json.Record
import MarketReplay.Settings

/-!
# Settings as JSON records

Settings in the documents that hold them. Every field has to be there, other than the longest
interval that is no gap, which settings may leave open. Reading checks the kinds of the fields and
nothing else: settings that no rule accepts are read all the same, and refused where a rule is made.
-/

set_option autoImplicit false

namespace MarketReplay

open Json (Fields fields? ofScalar scalar? int64? nat64?)

variable {α : Type} [Scalar α]

def CrossSettings.toJson (s : CrossSettings α) : Json α :=
  .object [
    ("fast_period", Json.ofNat s.fastPeriod),
    ("slow_period", Json.ofNat s.slowPeriod),
    ("position_size", ofScalar s.positionSize)]

def CrossSettings.ofJson? (j : Json α) : Option (CrossSettings α) := do
  let f ← fields? 3 j
  let fastPeriod ← f.required 0 "fast_period" nat64?
  let slowPeriod ← f.required 1 "slow_period" nat64?
  let positionSize ← f.required 2 "position_size" scalar?
  return { fastPeriod, slowPeriod, positionSize }

def ReversionSettings.toJson (s : ReversionSettings α) : Json α :=
  .object [
    ("period", Json.ofNat s.period),
    ("oversold", ofScalar s.oversold),
    ("overbought", ofScalar s.overbought),
    ("position_size", ofScalar s.positionSize)]

def ReversionSettings.ofJson? (j : Json α) : Option (ReversionSettings α) := do
  let f ← fields? 4 j
  let period ← f.required 0 "period" nat64?
  let oversold ← f.required 1 "oversold" scalar?
  let overbought ← f.required 2 "overbought" scalar?
  let positionSize ← f.required 3 "position_size" scalar?
  return { period, oversold, overbought, positionSize }

def AccountSettings.toJson (s : AccountSettings α) : Json α :=
  .object [
    ("initial_capital", ofScalar s.initialCapital),
    ("commission_rate", ofScalar s.commissionRate),
    ("slippage_rate", ofScalar s.slippageRate)]

def AccountSettings.ofJson? (j : Json α) : Option (AccountSettings α) := do
  let f ← fields? 3 j
  let initialCapital ← f.required 0 "initial_capital" scalar?
  let commissionRate ← f.required 1 "commission_rate" scalar?
  let slippageRate ← f.required 2 "slippage_rate" scalar?
  return { initialCapital, commissionRate, slippageRate }

def CleaningSettings.toJson (s : CleaningSettings α) : Json α :=
  .object <|
    [("min_bars", Json.ofNat s.minBars)]
    ++ Json.ofOptional "max_gap_ms" Json.int s.maxGap
    ++ [("gap_tolerance", ofScalar s.gapTolerance),
        ("price_jump_threshold", ofScalar s.priceJump),
        ("volume_spike_multiplier", ofScalar s.volumeSpike),
        ("volume_lookback", Json.ofNat s.volumeLookback),
        ("min_volume_history", Json.ofNat s.minVolumeHistory)]

def CleaningSettings.ofJson? (j : Json α) : Option (CleaningSettings α) := do
  let f ← fields? 7 j
  let minBars ← f.required 0 "min_bars" nat64?
  let maxGap ← f.optional 1 "max_gap_ms" int64?
  let gapTolerance ← f.required 2 "gap_tolerance" scalar?
  let priceJump ← f.required 3 "price_jump_threshold" scalar?
  let volumeSpike ← f.required 4 "volume_spike_multiplier" scalar?
  let volumeLookback ← f.required 5 "volume_lookback" nat64?
  let minVolumeHistory ← f.required 6 "min_volume_history" nat64?
  return {
    minBars, maxGap, gapTolerance, priceJump, volumeSpike, volumeLookback, minVolumeHistory }

end MarketReplay
