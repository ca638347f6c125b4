import MarketReplay.Proofs.Replay.Accounting
import MarketReplay.Proofs.Replay.SideBySide

/-!
# Costs never help

Two runs that differ in their rates alone, over a series of prices above zero. They trade together,
and the one with the lower rates is ahead at every bar (`costs_never_help`).

What has to be carried along is more than the order of the two equities, since an entry is paid from
the cash and an exit pays for the quantity. `Portfolio.NoBetter` compares both. That the runs trade
together needs one thing besides: a book can buy exactly if it has cash, so that the cash of the one
must be above zero when that of the other is. Nothing is asked of the capital. On a capital that is
not positive neither run buys anything, and they are level.
-/

set_option autoImplicit false

namespace MarketReplay

variable {σ : Type}

/-- When a trade was entered, and when it was left if it was. This is what two runs with different
costs have in common, while their amounts differ. -/
def Trade.dates {α : Type} (t : Trade α) : Int × Option Int := (t.entryTimestamp, t.exitTimestamp)

/-- Whether completing the newest trade does something, and at which time, is a matter of dates. -/
theorem dates_completeNewest {log₁ log₂ : List (Trade ℚ)}
    (hlogs : log₁.map Trade.dates = log₂.map Trade.dates) (timestamp : Int)
    (price₁ price₂ commission₁ commission₂ pnl₁ pnl₂ : ℚ) :
    (Portfolio.completeNewest log₁ fun t =>
        Portfolio.completed t price₁ timestamp commission₁ pnl₁).1.map Trade.dates =
      (Portfolio.completeNewest log₂ fun t =>
        Portfolio.completed t price₂ timestamp commission₂ pnl₂).1.map Trade.dates := by
  cases log₁ with
  | nil =>
    rw [List.map_nil, eq_comm, List.map_eq_nil_iff] at hlogs
    subst hlogs
    rfl
  | cons t₁ rest₁ =>
    cases log₂ with
    | nil => cases hlogs
    | cons t₂ rest₂ =>
      simp only [List.map_cons, List.cons.injEq, Trade.dates, Prod.mk.injEq] at hlogs
      obtain ⟨⟨hentry, hexit⟩, hrest⟩ := hlogs
      -- which of the two is done depends on the exit alone
      have hclosed : t₁.isClosed = t₂.isClosed := by
        unfold Trade.isClosed
        rw [hexit]
      simp only [Portfolio.completeNewest, hclosed]
      split
      · simp [Trade.dates, hentry, hexit, hrest]
      · simp [Trade.dates, Portfolio.completed, hentry, hrest]

/-! ## Rates in their bounds

The capital plays no part in what is proved here, so the bounds of the rates are stated without it.
The facts about entries are those of checked settings, for settings with another capital. -/

namespace AccountSettings

/-- The rates pass their checks, whatever the capital. It is said through the settings with a
capital of one, so that what is proved of checked settings can be used. -/
def RatesValid (costs : AccountSettings ℚ) : Prop := { costs with initialCapital := 1 }.Valid

theorem RatesValid.of_bounds {costs : AccountSettings ℚ}
    (hcommission : 0 ≤ costs.commissionRate ∧ costs.commissionRate ≤ maxCostRate)
    (hslippage : 0 ≤ costs.slippageRate ∧ costs.slippageRate ≤ maxCostRate) : costs.RatesValid := by
  rw [maxCostRate_rat] at hcommission hslippage
  exact ⟨one_pos, hcommission.1, hcommission.2, hslippage.1, hslippage.2⟩

variable {costs : AccountSettings ℚ} {size : ℚ} {bar : Bar ℚ} {p : Portfolio ℚ}

/-! What an entry takes depends on the rates alone. -/

theorem RatesValid.cash_opened (hcosts : costs.RatesValid) (hsize : 0 < size ∧ size ≤ 1)
    (h : Buyable (entryPosition costs size bar p).quantity) :
    (p.opened (entryPosition costs size bar p)).cash = (1 - size) * p.cash :=
  @MarketReplay.cash_opened { costs with initialCapital := 1 } size bar p hcosts hsize h

theorem RatesValid.covered_entry (hcosts : costs.RatesValid) (hsize : 0 < size ∧ size ≤ 1)
    (h : Buyable (entryPosition costs size bar p).quantity) :
    ¬p.cash * (1 + Portfolio.cashTolerance) < (entryPosition costs size bar p).cost :=
  @MarketReplay.covered_entry { costs with initialCapital := 1 } size bar p hcosts hsize h

theorem RatesValid.walk_succeeds (hcosts : costs.RatesValid)
    {source : SignalSource ℚ σ} (hsize : 0 < source.positionSize ∧ source.positionSize ≤ 1)
    (s : Session ℚ σ) (bars : List (Bar ℚ)) :
    ∃ last, s.walk source costs bars = (last, none) :=
  Session.walk_of_covered (fun _ _ => hcosts.covered_entry hsize) s bars

end AccountSettings

section entry

variable {costs : AccountSettings ℚ} {size : ℚ} {bar : Bar ℚ} {p : Portfolio ℚ}

theorem quantity_entryPosition (hcosts : costs.RatesValid) (hprice : 0 < bar.closing) :
    (entryPosition costs size bar p).quantity =
      p.cash * size / (bar.closing * (1 + costs.slippageRate) * (1 + costs.commissionRate)) := by
  have hslippage : 0 ≤ costs.slippageRate := hcosts.slippage_nonneg
  have hfill : ¬bar.closing * (1 + costs.slippageRate) ≤ 0 := by
    rw [not_le]
    positivity
  exact (affordable_rat p _ size _).trans (if_neg hfill)

/-- At a price above zero a book can buy exactly if it has cash. Neither the rates nor the price
show in this, which is why two runs at different rates buy at the same bars. -/
theorem buyable_iff_cash_pos (hcosts : costs.RatesValid) (hsize : 0 < size)
    (hprice : 0 < bar.closing) :
    Buyable (entryPosition costs size bar p).quantity ↔ 0 < p.cash := by
  have hslippage : 0 ≤ costs.slippageRate := hcosts.slippage_nonneg
  have hcommission : 0 ≤ costs.commissionRate := hcosts.commission_nonneg
  rw [buyable_rat, quantity_entryPosition hcosts hprice, div_pos_iff_of_pos_right (by positivity),
    mul_pos_iff_of_pos_right hsize]

end entry

/-! ## Two books

The invariant of the comparison. Each of its fields is needed to keep another one, and the two cases
in which the books move are the two lemmas behind it. -/

namespace Portfolio

/-- The first book is no better than the second, and was traded at the same times. While both are
flat, cash is compared, and whether there is any; while both hold something, cash and quantity, each
by itself, since the price at which they will be sold is not known yet. -/
structure NoBetter (q p : Portfolio ℚ) : Prop where
  dates_eq : q.log.map Trade.dates = p.log.map Trade.dates
  flat_iff : q.position = none ↔ p.position = none
  cash_le : q.cash ≤ p.cash
  cash_pos_iff : q.position = none → (0 < q.cash ↔ 0 < p.cash)
  cash_nonneg : q.position ≠ none → 0 ≤ q.cash
  quantity_pos : ∀ less, q.position = some less → 0 < less.quantity
  quantity_le : ∀ less more, q.position = some less → p.position = some more →
    less.quantity ≤ more.quantity

namespace NoBetter

variable {low high : AccountSettings ℚ} {size : ℚ} {bar : Bar ℚ} {p p' q q' : Portfolio ℚ}

theorem ofCapital (capital : ℚ) :
    (Portfolio.ofCapital capital).NoBetter (Portfolio.ofCapital capital) where
  dates_eq := rfl
  flat_iff := Iff.rfl
  cash_le := le_rfl
  cash_pos_iff _ := Iff.rfl
  cash_nonneg h := absurd rfl h
  quantity_pos := by intro less h; cases h
  quantity_le := by intro less more h; cases h

theorem equity_le (h : q.NoBetter p) {price : ℚ} (hprice : 0 < price) :
    q.equity price ≤ p.equity price := by
  cases hq : q.position with
  | none =>
    rw [equity_of_flat hq, equity_of_flat (h.flat_iff.mp hq)]
    exact h.cash_le
  | some less =>
    obtain ⟨more, hp⟩ : ∃ more, p.position = some more := by
      rw [← Option.ne_none_iff_exists', ne_eq, ← h.flat_iff, hq]
      simp
    rw [equity_of_held hq, equity_of_held hp]
    have hcash := h.cash_le
    have hquantity := h.quantity_le less more hq hp
    gcongr

variable (hlow : low.RatesValid) (hhigh : high.RatesValid)
  (hcommission : low.commissionRate ≤ high.commissionRate)
  (hslippage : low.slippageRate ≤ high.slippageRate) (hprice : 0 < bar.closing)

include hhigh hcommission hslippage hprice

include hlow in
/-- Less cash at higher rates buys less, and a part of less is less. Here both slippages and both
commissions occur in the divisors, so that the quantities are ordered by monotonicity alone. -/
theorem opened (hsize : 0 < size ∧ size ≤ 1) (h : q.NoBetter p)
    (hbuyable : Buyable (entryPosition low size bar p).quantity)
    (hbuyable' : Buyable (entryPosition high size bar q).quantity) :
    (q.opened (entryPosition high size bar q)).NoBetter
      (p.opened (entryPosition low size bar p)) := by
  have hcash : (p.opened (entryPosition low size bar p)).cash = (1 - size) * p.cash :=
    hlow.cash_opened hsize hbuyable
  have hcash' : (q.opened (entryPosition high size bar q)).cash = (1 - size) * q.cash :=
    hhigh.cash_opened hsize hbuyable'
  -- the poorer book can buy, so it has cash, and with it the other one
  have hpos : 0 < q.cash := (buyable_iff_cash_pos hhigh hsize.1 hprice).mp hbuyable'
  have hrest : 0 ≤ 1 - size := by linarith [hsize.2]
  have hle := h.cash_le
  constructor
  case dates_eq => exact congrArg (List.cons _) h.dates_eq
  case flat_iff => exact iff_of_false (Option.some_ne_none _) (Option.some_ne_none _)
  case cash_le =>
    rw [hcash, hcash']
    exact mul_le_mul_of_nonneg_left hle hrest
  case cash_pos_iff => intro hflat; cases hflat
  case cash_nonneg =>
    intro _
    rw [hcash']
    exact mul_nonneg hrest hpos.le
  case quantity_pos =>
    rintro less ⟨⟩
    exact buyable_rat.mp hbuyable'
  case quantity_le =>
    rintro less more ⟨⟩ ⟨⟩
    have hsize' := hsize.1
    have hcash₁ : 0 < p.cash := lt_of_lt_of_le hpos hle
    have hslippage₁ : 0 ≤ low.slippageRate := hlow.slippage_nonneg
    have hslippage₂ : 0 ≤ high.slippageRate := hhigh.slippage_nonneg
    have hcommission₁ : 0 ≤ low.commissionRate := hlow.commission_nonneg
    -- numerator and divisor are ordered the right way round, factor by factor
    rw [quantity_entryPosition hlow hprice, quantity_entryPosition hhigh hprice]
    gcongr

theorem leave {less more : Position ℚ} (h : q.NoBetter p) (hq : q.position = some less)
    (hp : p.position = some more) :
    (MarketReplay.leave high bar q).NoBetter (MarketReplay.leave low bar p) := by
  have hflat : (MarketReplay.leave low bar p).position = none := by rw [leave_eq hp]
  have hflat' : (MarketReplay.leave high bar q).position = none := by rw [leave_eq hq]
  have hquantity := h.quantity_pos less hq
  have hquantity' := h.quantity_le less more hq hp
  have hmore : 0 < more.quantity := lt_of_lt_of_le hquantity hquantity'
  have hslippage' : 0 < 1 - high.slippageRate := by
    have : high.slippageRate ≤ 1 / 100 := hhigh.slippage_le
    linarith
  have hcommission' : 0 < 1 - high.commissionRate := by
    have : high.commissionRate ≤ 1 / 100 := hhigh.commission_le
    linarith
  have hslippage₁ : 0 < 1 - low.slippageRate := by linarith
  have hcommission₁ : 0 < 1 - low.commissionRate := by linarith
  -- what a sale brings in, with the rates as factors
  have hcash : (MarketReplay.leave low bar p).cash =
      p.cash + more.quantity * (bar.closing * (1 - low.slippageRate)) *
        (1 - low.commissionRate) := by
    rw [cash_leave_rat hp, exitCommission_rat, sellFill_rat]
    ring
  have hcash' : (MarketReplay.leave high bar q).cash =
      q.cash + less.quantity * (bar.closing * (1 - high.slippageRate)) *
        (1 - high.commissionRate) := by
    rw [cash_leave_rat hq, exitCommission_rat, sellFill_rat]
    ring
  have hproceeds : 0 < less.quantity * (bar.closing * (1 - high.slippageRate)) *
      (1 - high.commissionRate) := by positivity
  have hproceeds_le : less.quantity * (bar.closing * (1 - high.slippageRate)) *
      (1 - high.commissionRate) ≤
        more.quantity * (bar.closing * (1 - low.slippageRate)) * (1 - low.commissionRate) := by
    gcongr
  have hle := h.cash_le
  have hnonneg : 0 ≤ q.cash := h.cash_nonneg (by rw [hq]; simp)
  constructor
  case dates_eq =>
    rw [leave_eq hp, leave_eq hq]
    exact dates_completeNewest h.dates_eq ..
  case flat_iff => exact iff_of_true hflat' hflat
  case cash_le =>
    rw [hcash, hcash']
    linarith
  case cash_pos_iff =>
    intro _
    rw [hcash, hcash']
    exact iff_of_true (by linarith) (by linarith)
  case cash_nonneg => exact fun hheld => absurd hflat' hheld
  case quantity_pos =>
    intro less hheld
    rw [hflat'] at hheld
    cases hheld
  case quantity_le =>
    intro less more hheld
    rw [hflat'] at hheld
    cases hheld

include hlow in
/-- **An answer keeps the order of two books**, and moves both or neither. -/
theorem movement {action : Action} (hsize : 0 < size ∧ size ≤ 1) (h : q.NoBetter p)
    (hmove : Movement low size action bar p p') (hmove' : Movement high size action bar q q') :
    q'.NoBetter p' := by
  have hbuyable : q.position = none → (Buyable (entryPosition high size bar q).quantity ↔
      Buyable (entryPosition low size bar p).quantity) := by
    intro hflat
    rw [buyable_iff_cash_pos hlow hsize.1 hprice, buyable_iff_cash_pos hhigh hsize.1 hprice]
    exact h.cash_pos_iff hflat
  cases hmove'.paired hmove h.flat_iff hbuyable with
  | idle => exact h
  | entry _ _ hbuyable' hbuyable =>
    exact h.opened hlow hhigh hcommission hslippage hprice hsize hbuyable hbuyable'
  | exit less more hless hmore =>
    exact h.leave hhigh hcommission hslippage hprice hless hmore

end NoBetter

end Portfolio

/-! ## Two runs

From books to sessions and records. The curves are compared point by point, at equal times. -/

def EquityPoint.NoHigher (a b : EquityPoint ℚ) : Prop :=
  a.timestamp = b.timestamp ∧ a.equity ≤ b.equity

/-- One record is no better than another, over trades at the same times. The trades themselves are
not compared: a single one may have made more at higher rates, if it was smaller and lost. -/
structure RunRecord.NoBetter (dear cheap : RunRecord ℚ) : Prop where
  dates_eq : dear.trades.map Trade.dates = cheap.trades.map Trade.dates
  curve_le : List.Forall₂ EquityPoint.NoHigher dear.curve cheap.curve
  finalCapital_le : dear.finalCapital ≤ cheap.finalCapital
  finalEquity_le : dear.finalEquity ≤ cheap.finalEquity

/-- The session with the higher rates is behind. -/
structure Session.NoBetter (t s : Session ℚ σ) : Prop where
  book : t.book.NoBetter s.book
  curve : List.Forall₂ EquityPoint.NoHigher t.curve s.curve

namespace Session.NoBetter

variable {source : SignalSource ℚ σ} {low high : AccountSettings ℚ} {s s' t t' : Session ℚ σ}
  {bar : Bar ℚ}

theorem step (hlow : low.RatesValid) (hhigh : high.RatesValid)
    (hcommission : low.commissionRate ≤ high.commissionRate)
    (hslippage : low.slippageRate ≤ high.slippageRate)
    (hsize : 0 < source.positionSize ∧ source.positionSize ≤ 1) (hprice : 0 < bar.closing)
    (h : t.NoBetter s) (hanswer : (s.ask source bar).2 = (t.ask source bar).2)
    (hs : s.step source low bar = (s', none)) (ht : t.step source high bar = (t', none)) :
    t'.NoBetter s' := by
  have hmove := Session.movement_step hs
  have hmove' := Session.movement_step ht
  rw [← hanswer] at hmove'
  have hbook : t'.book.NoBetter s'.book :=
    h.book.movement hlow hhigh hcommission hslippage hprice hsize hmove hmove'
  refine ⟨hbook, ?_⟩
  rw [Session.curve_step hs, Session.curve_step ht]
  exact .cons ⟨rfl, hbook.equity_le hprice⟩ h.curve

theorem toRecord (hcapital : high.initialCapital = low.initialCapital) (h : t.NoBetter s)
    (completed : Bool) : (t.toRecord high completed).NoBetter (s.toRecord low completed) where
  dates_eq := by
    rw [Session.toRecord_trades, Session.toRecord_trades, List.map_reverse, List.map_reverse,
      h.book.dates_eq]
  curve_le := List.forall₂_reverse_iff.mpr h.curve
  finalCapital_le := h.book.cash_le
  finalEquity_le := by
    have hcurve := h.curve
    unfold Session.toRecord
    cases hs : s.curve with
    | nil =>
      rw [hs] at hcurve
      rw [List.forall₂_nil_right_iff.mp hcurve]
      exact hcapital.le
    | cons point rest =>
      rw [hs] at hcurve
      obtain ⟨point', rest', hle, -, ht⟩ := List.forall₂_cons_right_iff.mp hcurve
      rw [ht]
      exact hle.2

end Session.NoBetter

/-- **Costs never help.** At prices above zero, for a source that answers by the bars, two runs on
one capital enter and leave their trades at the same bars, and the run with the lower rates is not
behind: not in its equity at any bar, and not in its cash or its equity at the end. A series that is
too short is refused in both.

The capital may be any number, also one that a check would refuse. -/
theorem costs_never_help (source : SignalSource ℚ σ) (answer : List (Bar ℚ) → Signal)
    (state state' : σ) (bars : List (Bar ℚ)) (limit : Option Nat) (capital c₁ c₂ s₁ s₂ : ℚ)
    (hanswers : source.AnswersBy answer state) (hanswers' : source.AnswersBy answer state')
    (hsize : 0 < source.positionSize ∧ source.positionSize ≤ 1) (hbars : Chronological bars)
    (hprices : ∀ bar ∈ bars, 0 < bar.closing) (hc : 0 ≤ c₁ ∧ c₁ ≤ c₂ ∧ c₂ ≤ maxCostRate)
    (hs : 0 ≤ s₁ ∧ s₁ ≤ s₂ ∧ s₂ ≤ maxCostRate) :
    let low := (replay source ⟨capital, c₁, s₁⟩ limit bars state).2
    let high := (replay source ⟨capital, c₂, s₂⟩ limit bars state').2
    (bars.length < source.warmup → ∃ fault, low = .error fault ∧ high = .error fault) ∧
      (source.warmup ≤ bars.length →
        ∃ cheap dear, low = .ok cheap ∧ high = .ok dear ∧ dear.NoBetter cheap) := by
  intro low high
  constructor
  · intro hshort
    exact ⟨_, replay_of_short hbars hshort, replay_of_short hbars hshort⟩
  · intro hwarmup
    have hlow : (⟨capital, c₁, s₁⟩ : AccountSettings ℚ).RatesValid :=
      .of_bounds ⟨hc.1, hc.2.1.trans hc.2.2⟩ ⟨hs.1, hs.2.1.trans hs.2.2⟩
    have hhigh : (⟨capital, c₂, s₂⟩ : AccountSettings ℚ).RatesValid :=
      .of_bounds ⟨hc.1.trans hc.2.1, hc.2.2⟩ ⟨hs.1.trans hs.2.1, hs.2.2⟩
    obtain ⟨last, hwalk⟩ := hlow.walk_succeeds hsize
      (Session.start ⟨capital, c₁, s₁⟩ (source.reset state)) (reached limit bars)
    obtain ⟨last', hwalk'⟩ := hhigh.walk_succeeds hsize
      (Session.start ⟨capital, c₂, s₂⟩ (source.reset state')) (reached limit bars)
    -- both runs go along the same bars, so nothing is repriced
    have hactions : actionsAlong source state (reached limit bars) =
        actionsAlong source state' ((reached limit bars).map id) := by
      rw [List.map_id]
      exact hanswers.actionsAlong_eq hanswers' _
    have hbehind : last'.NoBetter last := by
      rw [← List.map_id (reached limit bars)] at hwalk'
      refine Session.walk_related id (P := fun s t => t.NoBetter s) hactions hwalk hwalk'
        ⟨.ofCapital capital, .nil⟩ ?_
      intro bar hbar s t s' t' h hanswer hstep hstep'
      exact h.step hlow hhigh hc.2.1 hs.2.1 hsize (hprices bar (mem_of_mem_reached hbar)) hanswer
        hstep hstep'
    exact ⟨_, _, replay_eq_ok_iff.mpr ⟨hbars, hwarmup, last, hwalk, rfl⟩,
      replay_eq_ok_iff.mpr ⟨hbars, hwarmup, last', hwalk', rfl⟩, hbehind.toRecord rfl _⟩

/-- Over the sample bars, at no commission and at the highest rates: both runs close one trade and
have another open at the end. -/
theorem costs_never_help_sample :
    (∃ answer, sampleRule.source.AnswersBy answer sampleRule.fresh) ∧
      (0 < sampleRule.source.positionSize ∧ sampleRule.source.positionSize ≤ 1) ∧
      Chronological sampleBars ∧ (∀ bar ∈ sampleBars, 0 < bar.closing) ∧
      ∃ cheap dear,
        (replay sampleRule.source ⟨10000, 0, 1 / 1000⟩ none sampleBars sampleRule.fresh).2 =
          .ok cheap ∧
        (replay sampleRule.source ⟨10000, 1 / 100, 1 / 100⟩ none sampleBars sampleRule.fresh).2 =
          .ok dear ∧
        cheap.trades.map Trade.dates = [(2, some 3), (4, none)] ∧
        dear.trades.map Trade.dates = [(2, some 3), (4, none)] ∧
        List.Forall₂ EquityPoint.NoHigher dear.curve cheap.curve ∧
        dear.finalEquity ≤ cheap.finalEquity := by
  have hR := AverageCross.bisimulation (⟨1, 2, 1 / 2⟩ : CrossSettings ℚ)
  have hanswers : sampleRule.source.AnswersBy sampleRule.answer sampleRule.fresh :=
    PriceRule.answersBy hR (PriceRule.fresh_saw hR)
  have hprices : ∀ bar ∈ sampleBars, 0 < bar.closing := by decide +kernel
  refine ⟨⟨_, hanswers⟩, size_sampleRule, chronological_sampleBars, hprices, ?_⟩
  obtain ⟨cheap, dear, hcheap, hdear, hbehind⟩ :=
    (costs_never_help sampleRule.source _ _ _ sampleBars none 10000 0 (1 / 100) (1 / 1000) (1 / 100)
      hanswers hanswers size_sampleRule chronological_sampleBars hprices (by decide +kernel)
      (by decide +kernel)).2 (by decide +kernel)
  have hdates : (replay sampleRule.source ⟨10000, 0, 1 / 1000⟩ none sampleBars
      sampleRule.fresh).2.toOption.map (fun r => r.trades.map Trade.dates) =
        some [(2, some 3), (4, none)] := by
    decide +kernel
  rw [hcheap] at hdates
  have hdates' : cheap.trades.map Trade.dates = [(2, some 3), (4, none)] := Option.some.inj hdates
  exact ⟨cheap, dear, hcheap, hdear, hdates', hbehind.dates_eq.trans hdates', hbehind.curve_le,
    hbehind.finalEquity_le⟩

end MarketReplay
