import MarketReplay.Cleaning.Marks

/-!
# Cleaning a series

Raw bars come in any order, with bars repeated and bars that cannot be. Cleaning drops the latter,
sorts the others by time, keeps of each timestamp the bar that came last, and marks what is left. A
report counts what was dropped, by the first rule that a bar breaks, and what was marked.

The steps are functions of their own (`Bar.defect?`, `byTime`, `lastOfEach`, `marksOf`), and `clean`
puts them together. What is proved of cleaning is proved of the steps and carried over: that
cleaning what is clean changes nothing, that only the sound bars count, and that their order does
not.
-/

set_option autoImplicit false

namespace MarketReplay

/-- Why a bar is dropped. The order of the causes is the order in which they are looked at, and a
bar is counted under the first one only. -/
inductive Defect where
  | price
  | range
  | volume
deriving DecidableEq, Repr

/-- What cleaning counted. The bars that were dropped are told apart by cause; `duplicates` are the
bars that a later one of the same time replaced. The last two count marks and not bars, so that a
bar with both marks is in both. -/
structure CleaningReport where
  inputBars : Nat
  outputBars : Nat
  duplicates : Nat
  invalidRange : Nat
  negativeVolume : Nat
  invalidPrice : Nat
  gaps : Nat
  suspicious : Nat
deriving DecidableEq, Repr

/-- How many bars are missing from the output. The difference is never cut off at zero, since
cleaning puts no bar in. -/
def CleaningReport.dropped (r : CleaningReport) : Nat := r.inputBars - r.outputBars

variable {α : Type} [Scalar α]

/-- The first rule that a bar breaks: its prices, its range, then its volume. The volume is asked to
be at least zero and not refused when it is below, since a `NaN` is neither. -/
def Bar.defect? (b : Bar α) : Option Defect :=
  if !b.hasPositivePrices then some .price
  else if !b.hasValidRange then some .range
  else if 0 ≤ b.volume then none
  else some .volume

/-- Whether a bar breaks none of the rules, and so takes part in everything that follows. A bar that
does not is counted in the report by the first rule it breaks, and has no influence on the
others. -/
def Bar.isValid (b : Bar α) : Bool := b.defect?.isNone

/-- The bars by time; bars of one time keep their order. That the sort is stable matters, because of
the bars of one time the one that came last is kept. -/
def byTime (bars : List (Bar α)) : List (Bar α) :=
  bars.mergeSort fun a b => decide (a.timestamp ≤ b.timestamp)

/-- Of neighbouring bars with one timestamp, the last. Behind the sort all bars of one time are
neighbours, and the last is the one that came last: later data correct earlier data. -/
def lastOfEach : List (Bar α) → List (Bar α)
  | [] => []
  | [bar] => [bar]
  | a :: b :: rest =>
    if a.timestamp = b.timestamp then lastOfEach (b :: rest) else a :: lastOfEach (b :: rest)

/-- How many bars `lastOfEach` leaves out, each for the neighbour behind it. It is counted along the
same recursion and not as a difference of lengths, as the pass that keeps the bars counts it. -/
def superseded : List (Bar α) → Nat
  | [] => 0
  | [_] => 0
  | a :: b :: rest =>
    if a.timestamp = b.timestamp then superseded (b :: rest) + 1 else superseded (b :: rest)

/-- The valid bars in order, one to a timestamp, before they are marked. Its timestamps increase
strictly, which a replay asks of the series it is given. -/
def ordered (bars : List (Bar α)) : List (Bar α) :=
  lastOfEach (byTime (bars.filter Bar.isValid))

/-- The bars with the qualities that their marks give them. What quality a bar had before is written
over and read nowhere. -/
def withMarks (bars : List (Bar α)) (marks : List Marks) : List (Bar α) :=
  List.zipWith (fun bar m => { bar with quality := m.quality }) bars marks

/-- The cleaned series and its report; too few bars left are a fault. At least one bar has to be
left, also where the settings ask for none, since nothing can be done with an empty series. The
fault carries both numbers and the report is lost with it. -/
def clean (settings : CleaningSettings α) (bars : List (Bar α)) :
    Except (Fault α) (List (Bar α) × CleaningReport) :=
  let kept := ordered bars
  let marks := marksOf settings kept
  let count := fun (d : Defect) => bars.countP fun b => b.defect? == some d
  let report : CleaningReport :=
    { inputBars := bars.length
      outputBars := kept.length
      duplicates := superseded (byTime (bars.filter Bar.isValid))
      invalidRange := count .range
      negativeVolume := count .volume
      invalidPrice := count .price
      gaps := marks.countP Marks.gap
      suspicious := marks.countP Marks.suspicious }
  -- an empty series is refused whatever the settings ask for
  let required := Nat.max settings.minBars 1
  if kept.length < required then .error (.insufficientData required kept.length)
  else .ok (withMarks kept marks, report)

end MarketReplay
