import MarketReplay.Performance.Metrics
import MarketReplay.Replay.Run
import MarketReplay.Strategy.AverageCross

/-!
# Sweeps

A sweep replays one series with every choice of periods and position size from a grid, and keeps a
summary of each run. The runs have nothing to do with one another, so only their order in the grid
counts, not the order in which they are made. A run that fails makes the sweep fail.

The definition makes them one after the other. In the program several workers make them side by
side, and that this comes to the same, whatever the order, is a theorem about workers that take runs
from a queue (`MarketReplay.Proofs.Sweep.Workers`).
-/

set_option autoImplicit false

namespace MarketReplay

/-- The choices of a sweep. The lists may hold anything, also periods that no settings can have;
pairs that make no sense are left out, and settings that fail their check make the sweep fail. -/
structure Grid (α : Type) where
  fastPeriods : List Nat
  slowPeriods : List Nat
  positionSizes : List α
deriving DecidableEq, Repr

variable {α : Type} [Scalar α]

/-- A grid of periods with the usual position size. -/
def Grid.ofPeriods (fastPeriods slowPeriods : List Nat) : Grid α where
  fastPeriods
  slowPeriods
  positionSizes := [CrossSettings.usual.positionSize]

/-- The settings of a grid whose fast period is below the slow one: the fast period changes last,
the position size first. A choice that stands twice in a list is made twice. -/
def Grid.settings (g : Grid α) : List (CrossSettings α) :=
  g.fastPeriods.flatMap fun fast =>
    g.slowPeriods.flatMap fun slow =>
      if slow ≤ fast then [] else g.positionSizes.map fun size => ⟨fast, slow, size⟩

/-- The room for the windows of all runs. They are made side by side, so that no run comes first. -/
def Grid.room (g : Grid α) : Room := Room.together (g.settings.map AverageCross.room)

/-- The summary of one run of a sweep: enough to compare it with the others, and neither its trades
nor its curve. -/
structure SweepOutcome (α : Type) where
  settings : CrossSettings α
  finalEquity : α
  totalReturn : α
  totalTrades : Nat
  metrics : Metrics α
deriving DecidableEq, Repr

/-- One run of a sweep, from checking the settings to the metrics. The account is checked for every
run again, although all of them share it; so a grid without settings is never refused. -/
def sweepOne [RootPower α] (bars : List (Bar α)) (costs : AccountSettings α)
    (settings : CrossSettings α) : Except (Fault α) (SweepOutcome α) := do
  costs.check
  let rule ← AverageCross.ofSettings settings
  let record ← (replay rule.source costs none bars rule.fresh).2
  return {
    settings
    finalEquity := record.finalEquity
    totalReturn := record.totalReturn
    totalTrades := record.totalTrades
    metrics := Metrics.ofRecord record }

/-- The outcomes of all settings of a grid, in its order, or the first failure. Each run has an
object and a book of its own, which is what lets workers share the runs out. -/
def sweep [RootPower α] (bars : List (Bar α)) (g : Grid α) (costs : AccountSettings α) :
    Except (Fault α) (List (SweepOutcome α)) :=
  g.settings.mapM (sweepOne bars costs)

/-- The item to keep of the best so far and the next: the best so far if its score is no lower. A
`NaN` compares with nothing, so that an item with that score takes the place of the best, and gives
it up to whatever comes next. -/
def better {β : Type} (score : β → α) (best : Option β) (next : β) : Option β :=
  match best with
  | some b => if score next ≤ score b then some b else some next
  | none => some next

/-- The item with the best score; of equal scores the earliest. With a `NaN` among the scores, what
came before the last of them is forgotten. -/
def bestBy? {β : Type} (score : β → α) (items : List β) : Option β :=
  items.foldl (better score) none

end MarketReplay
