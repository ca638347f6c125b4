import MarketReplay.Cleaning.Interval
import MarketReplay.Indicator.RollingWindow
import MarketReplay.Market.Bar
import MarketReplay.Settings

/-!
# Marks on bars

Each bar of a series in order is compared with the bar before it and with the volumes before it. Two
marks can come of that: a gap before the bar, and something suspicious about it. A bar can carry
both; its quality then names the gap. The marks read timestamps, closing prices and volumes and
never the quality a bar had, so that marking a marked series again finds the same.

Nothing is repaired here. A bar after a gap or with an odd price stays in the series as it is, since
inventing bars would change what a rule sees; it is only marked, and whoever reads the series
decides.
-/

set_option autoImplicit false

namespace MarketReplay

/-- What was found at one bar, both findings apart. They are counted apart as well, so a bar that
has both counts twice, although its quality can only name one of them. -/
structure Marks where
  gap : Bool
  suspicious : Bool
deriving DecidableEq, Repr

/-- The one quality of a bar with these marks. A gap goes before: whatever else is odd about a bar
after a gap may well be what happened in between. -/
def Marks.quality (m : Marks) : Quality :=
  if m.gap then .gap else if m.suspicious then .suspicious else .good

variable {α : Type} [Scalar α]

/-- The longest interval that is no gap: the set one, or a multiple of the median interval. A series
without steps has none, and then nothing is a gap. The multiple is rounded down to whole
milliseconds, and held within 64 bits where the numbers have infinities (`Scalar.floorToInt`). -/
def gapThreshold? (settings : CleaningSettings α) (timestamps : List Int) : Option Int :=
  match settings.maxGap with
  | some gap => some gap
  | none => (medianInterval? timestamps).map fun median =>
    Scalar.floorToInt (Scalar.ofInt median * settings.gapTolerance)

/-- Whether the closing price moved further than the threshold. The move is relative to the close
before, and a `NaN` on either side is no jump, since it is above nothing. -/
def jumps (settings : CleaningSettings α) (before bar : Bar α) : Bool :=
  decide (settings.priceJump < Scalar.abs (bar.closing / before.closing - 1))

/-- Whether a volume stands out from the mean of the volumes in the window. The history that is
asked for is counted in the window, which never holds more than the lookback; so a history longer
than the lookback is never reached. -/
def spikes (settings : CleaningSettings α) (volumes : RollingWindow α) (volume : α) : Bool :=
  if settings.minVolumeHistory ≤ volumes.size ∧ volumes.isEmpty = false then
    let mean := volumes.sum / Scalar.ofNat volumes.size
    decide (0 < mean) && decide (mean * settings.volumeSpike < volume)
  else false

/-- The marks of a bar after the bar before it. The interval between them is an integer without
bounds, like the steps of which the threshold was found; that of a machine has 64 bits and is the
same one as long as `StepsFit` holds of the series. -/
def marksAfter (settings : CleaningSettings α) (threshold : Option Int) (volumes : RollingWindow α)
    (before bar : Bar α) : Marks where
  gap := match threshold with
    | some t => decide (t < bar.timestamp - before.timestamp)
    | none => false
  suspicious := jumps settings before bar || spikes settings volumes bar.volume

/-- The marks along a series; its first bar has none, for want of a bar before it. A volume goes
into the window after its own bar was judged: a bar is compared with the history and is no part of
it. -/
def marksAlong (settings : CleaningSettings α) (threshold : Option Int)
    (before : Option (Bar α)) (volumes : RollingWindow α) : List (Bar α) → List Marks
  | [] => []
  | bar :: rest =>
    let marks := match before with
      | some before => marksAfter settings threshold volumes before bar
      | none => ⟨false, false⟩
    marks :: marksAlong settings threshold (some bar) (volumes.push bar.volume).1 rest

/-- The marks of a whole series. The threshold is found once, from all timestamps, before the first
bar is looked at, so that a mark can depend on bars that come later. -/
def marksOf (settings : CleaningSettings α) (bars : List (Bar α)) : List Marks :=
  marksAlong settings (gapThreshold? settings (bars.map Bar.timestamp)) none
    (RollingWindow.empty settings.volumeLookback) bars

end MarketReplay
