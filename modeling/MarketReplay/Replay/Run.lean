import MarketReplay.Performance.Drawdown
import MarketReplay.Performance.Outcome
import MarketReplay.Portfolio
import MarketReplay.Replay.Record
import MarketReplay.Settings
import MarketReplay.Strategy.Source

/-!
# Replaying a series

A replay walks through a series bar by bar. At each bar the source is asked with the bars up to this
one, and the book acts on the answer at the bar's closing price, worsened by slippage: a buy while
flat commits the source's fraction of the cash, a sell while holding closes the position, and
everything else changes nothing. Then the equity is recorded.

A run may be stopped early: `limit` is the number of bars after which it stops, and what it has
recorded by then is its result. Before the first bar two things are checked, the order of the
timestamps and the length of the series.

The state of the source belongs to the caller and is handed back, also after a failure.

The walk is split so that each part has lemmas of its own. `act` is the only place where the book
moves, `Session.ask` the only one where the source is asked, and `Session.step` is one bar of the
loop. A fact about runs is proved of `Session.step` and carried along `Session.walk`.
-/

set_option autoImplicit false

namespace MarketReplay

variable {α σ : Type} [Scalar α]

/-! ## Acting on a signal

What a signal does to the book, without the source that gave it. Costs always work against the
account: a buy is filled above the closing price and a sell below it, and each pays its commission
on what it was filled at. -/

/-- The price at which a buy is filled. Slippage raises it, by a fraction of the closing price. -/
def buyFill (costs : AccountSettings α) (price : α) : α := price * (1 + costs.slippageRate)

/-- The price at which a sell is filled. Slippage lowers it by the same fraction, and within the
limit of the rate it stays above zero. -/
def sellFill (costs : AccountSettings α) (price : α) : α := price * (1 - costs.slippageRate)

/-- Buys for a fraction `size` of the cash, if that is a quantity at all. A price of zero, or
numbers that have left the finite, give none; the bar passes then without a trade, and this is no
failure. -/
def enter (costs : AccountSettings α) (size : α) (bar : Bar α) (book : Portfolio α) :
    Except (Fault α) (Portfolio α) :=
  let fill := buyFill costs bar.closing
  let quantity := book.affordable fill size costs.commissionRate
  if 0 < quantity ∧ Scalar.isFinite quantity then
    book.openPosition quantity fill bar.timestamp (quantity * fill * costs.commissionRate)
  else .ok book

/-- Sells what is held, all of it, at once. Unlike entering this cannot fail, which is why it
returns a book and no result. -/
def leave (costs : AccountSettings α) (bar : Bar α) (book : Portfolio α) : Portfolio α :=
  match book.position with
  | none => book
  | some held =>
    let fill := sellFill costs bar.closing
    (book.closePosition fill bar.timestamp (held.quantity * fill * costs.commissionRate)).1

/-- The book after a signal at a bar. A buy on top of a position and a sell without one are ignored,
so that a source need not know what is held. -/
def act (costs : AccountSettings α) (size : α) (action : Action) (bar : Bar α)
    (book : Portfolio α) : Except (Fault α) (Portfolio α) :=
  match action, book.hasPosition with
  | .buy, false => enter costs size bar book
  | .sell, true => .ok (leave costs bar book)
  | _, _ => .ok book

/-! ## The walk

A run between two bars is a `Session`, and the walk is a recursion along the bars that are left. The
newest point of the curve stands first in its list, as does the newest trade in the book's log, and
both are turned around when the run is over. -/

/-- The state of a run between two bars. The bars seen are an array because the source is handed
them whole at every bar, and grows them by one at a time. -/
structure Session (α σ : Type) where
  /-- The state of the source. -/
  state : σ
  /-- The bars processed. -/
  seen : Array (Bar α)
  book : Portfolio α
  /-- The highest equity so far. -/
  peak : α
  /-- The equity at the bars processed, newest first. -/
  curve : List (EquityPoint α)

/-- The session before the first bar. The highest equity so far is below every number, so that the
first bar sets it. -/
def Session.start (costs : AccountSettings α) (state : σ) : Session α σ where
  state := state
  seen := #[]
  book := Portfolio.ofCapital costs.initialCapital
  peak := lowestPeak
  curve := []

/-- Records the equity at a bar with the book as it now is. The peak is raised first: a bar that
reaches a new height has a drawdown of zero. -/
def Session.record (s : Session α σ) (bar : Bar α) : Session α σ :=
  let equity := s.book.equity bar.closing
  let peak := Scalar.max s.peak equity
  { s with
    peak
    curve := ⟨bar.timestamp, equity, drawdown peak equity⟩ :: s.curve }

/-- Asks the source at the next bar. The bar is among those that the source sees, so that it may act
on the close at which it will trade. -/
def Session.ask (source : SignalSource α σ) (s : Session α σ) (bar : Bar α) :
    Session α σ × Action :=
  let seen := s.seen.push bar
  let (state, signal) := source.signalFor s.state seen
  ({ s with state, seen }, signal.action)

/-- Processes a bar. When the book refuses the movement, its equity is not recorded, and the session
is handed back with the source as it is after the question. -/
def Session.step (source : SignalSource α σ) (costs : AccountSettings α) (s : Session α σ)
    (bar : Bar α) : Session α σ × Option (Fault α) :=
  let (s, action) := s.ask source bar
  match act costs source.positionSize action bar s.book with
  | .error fault => (s, some fault)
  | .ok book => (({ s with book }).record bar, none)

/-- Processes the bars of a list one after another, up to the first failure. The recursion is on the
bars, and every proof about a run goes by induction along it. -/
def Session.walk (source : SignalSource α σ) (costs : AccountSettings α) (s : Session α σ) :
    List (Bar α) → Session α σ × Option (Fault α)
  | [] => (s, none)
  | bar :: rest =>
    match s.step source costs bar with
    | (s, some fault) => (s, some fault)
    | (s, none) => s.walk source costs rest

/-- The record of a session that is over. Everything in it is read off the book and the curve; the
settings contribute the capital alone. -/
def Session.toRecord (costs : AccountSettings α) (s : Session α σ) (completed : Bool) :
    RunRecord α :=
  let closed := s.book.trades.filter Trade.isClosed
  let finalEquity := match s.curve with
    | last :: _ => last.equity
    | [] => costs.initialCapital
  let curve := s.curve.reverse
  { initialCapital := costs.initialCapital
    finalCapital := s.book.cash
    finalEquity
    totalReturn := finalEquity / costs.initialCapital - 1
    totalTrades := closed.length
    winningTrades := closed.countP fun t => isWin t.realizedPnl
    losingTrades := closed.countP fun t => isLoss t.realizedPnl
    trades := s.book.trades
    curve
    timestamps := curve.map EquityPoint.timestamp
    barsProcessed := curve.length
    completed }

/-! ## Whole runs

A run is refused before it begins, or it walks. The refusal looks at the whole series even when the
run is to stop early, so that stopping does not change whether a series can be replayed. -/

/-- The first bar that is not later than the bar before it: its index and both timestamps. Two bars
of one time are out of order as well. -/
def outOfOrder? (index : Nat) : List (Bar α) → Option (Nat × Int × Int)
  | [] => none
  | [_] => none
  | a :: b :: rest =>
    if b.timestamp ≤ a.timestamp then some (index + 1, b.timestamp, a.timestamp)
    else outOfOrder? (index + 1) (b :: rest)

/-- Why a series cannot be replayed for a source, if it cannot. The order is looked at before the
length. -/
def refusal? (source : SignalSource α σ) (bars : List (Bar α)) : Option (Fault α) :=
  match outOfOrder? 0 bars with
  | some (index, timestamp, before) =>
    some (.accountSetting "bars" (.outOfOrder index timestamp before))
  | none =>
    if bars.length < source.warmup then
      some (.accountSetting "bars" (.tooShort bars.length source.warmup source.name))
    else none

/-- The bars that a run processes. A limit beyond the end of the series is no limit. -/
def reached (limit : Option Nat) (bars : List (Bar α)) : List (Bar α) :=
  match limit with
  | some n => bars.take n
  | none => bars

/-- Replays a series on an account, up to `limit` bars, and returns the state of the source with the
record. The source is reset first, so that what it was used for before has no bearing; a run that is
refused leaves it as it was. A run is complete when it stopped for want of bars. -/
def replay (source : SignalSource α σ) (costs : AccountSettings α) (limit : Option Nat)
    (bars : List (Bar α)) (state : σ) : σ × Except (Fault α) (RunRecord α) :=
  match refusal? source bars with
  | some fault => (state, .error fault)
  | none =>
    let within := reached limit bars
    let start := Session.start costs (source.reset state)
    match start.walk source costs within with
    | (s, some fault) => (s.state, .error fault)
    | (s, none) => (s.state, .ok (s.toRecord costs (within.length == bars.length)))

end MarketReplay
