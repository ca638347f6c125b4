import MarketReplay.Proofs.Performance.Drawdown
import MarketReplay.Proofs.Replay.Accounting

/-!
# Solvency

A run on checked settings fails only before its first bar, and it never runs out of money.

That no bar fails is a matter of what an entry costs (`walk_succeeds`), whatever the prices are. The
rest needs prices above zero. The invariant is `Portfolio.Solvent`, and its middle field is the one
that has to be found: cash that is only known not to be negative would let a sale leave a flat book
with nothing, and the equity at the next bar would be zero. A flat book has cash above zero because
a sale brings in something: costs of at most a hundredth each leave a part of the price.
-/

set_option autoImplicit false

namespace MarketReplay

variable {σ : Type}

namespace Portfolio

/-- Nothing is owed, and there is something left: in the position as long as one is held, and in
cash otherwise. A source may commit all of its cash, so that the cash can be zero while a position
is held. -/
structure Solvent (p : Portfolio ℚ) : Prop where
  cash_nonneg : 0 ≤ p.cash
  cash_pos : p.position = none → 0 < p.cash
  quantity_pos : ∀ held, p.position = some held → 0 < held.quantity

namespace Solvent

variable {p p' : Portfolio ℚ} {costs : AccountSettings ℚ} {size : ℚ} {bar : Bar ℚ}

theorem ofCapital {capital : ℚ} (h : 0 < capital) : (Portfolio.ofCapital capital).Solvent where
  cash_nonneg := h.le
  cash_pos _ := h
  quantity_pos := by intro held hheld; cases hheld

theorem opened (hcosts : costs.Valid) (hsize : 0 < size ∧ size ≤ 1)
    (hbuyable : Buyable (entryPosition costs size bar p).quantity) :
    (p.opened (entryPosition costs size bar p)).Solvent where
  cash_nonneg := by
    rw [cash_opened hcosts hsize hbuyable]
    have hcash := cash_pos_of_buyable hcosts hsize hbuyable
    exact mul_nonneg (by linarith [hsize.2]) hcash.le
  cash_pos := by intro hflat; cases hflat
  quantity_pos := by
    rintro held ⟨⟩
    exact buyable_rat.mp hbuyable

/-- A sale brings in something, as the price is above zero and the costs take only a part of it. So
the book is solvent also when the entry took all the cash. -/
theorem leave {held : Position ℚ} (hcosts : costs.Valid) (hprice : 0 < bar.closing)
    (h : p.Solvent) (hheld : p.position = some held) :
    (MarketReplay.leave costs bar p).Solvent := by
  have hquantity := h.quantity_pos held hheld
  have hslippage : 0 < 1 - costs.slippageRate := by linarith [hcosts.slippage_le]
  have hcommission : 0 < 1 - costs.commissionRate := by linarith [hcosts.commission_le]
  -- both costs leave a part of the price, and the cash there was is not negative
  have hcash : 0 < (MarketReplay.leave costs bar p).cash := by
    have hproceeds : 0 < held.quantity * (bar.closing * (1 - costs.slippageRate)) *
        (1 - costs.commissionRate) := by positivity
    rw [cash_leave_rat hheld, exitCommission_rat, sellFill_rat]
    linarith [h.cash_nonneg]
  have hflat : (MarketReplay.leave costs bar p).position = none := by rw [leave_eq hheld]
  exact
    { cash_nonneg := hcash.le
      cash_pos := fun _ => hcash
      quantity_pos := fun held' hheld' => by rw [hflat] at hheld'; cases hheld' }

theorem movement {action : Action} (hcosts : costs.Valid) (hsize : 0 < size ∧ size ≤ 1)
    (hprice : 0 < bar.closing) (h : p.Solvent) (hmove : Movement costs size action bar p p') :
    p'.Solvent := by
  cases hmove with
  | idle => exact h
  | entry _ _ hbuyable _ => exact .opened hcosts hsize hbuyable
  | exit held _ hheld => exact h.leave hcosts hprice hheld

theorem equity_pos {price : ℚ} (h : p.Solvent) (hprice : 0 < price) : 0 < p.equity price := by
  cases hp : p.position with
  | none =>
    rw [equity_of_flat hp]
    exact h.cash_pos hp
  | some held =>
    have hquantity := h.quantity_pos held hp
    have hcash := h.cash_nonneg
    rw [equity_of_held hp]
    positivity

end Solvent

end Portfolio

section run

variable {source : SignalSource ℚ σ} {costs : AccountSettings ℚ} {state : σ}
  {bars : List (Bar ℚ)} {last : Session ℚ σ}

theorem solvent (hcosts : costs.Valid) (hsize : 0 < source.positionSize ∧ source.positionSize ≤ 1)
    (hprices : ∀ bar ∈ bars, 0 < bar.closing)
    (hwalk : (Session.start costs (source.reset state)).walk source costs bars = (last, none)) :
    last.book.Solvent := by
  refine Session.walk_invariant (P := fun _ s => s.book.Solvent)
    (.ofCapital hcosts.capital_pos) ?_ hwalk
  intro past bar rest s s' hbars hs hstep
  have hprice := hprices bar (by rw [hbars]; simp)
  exact hs.movement hcosts hsize hprice (Session.movement_step hstep)

/-- A run fails with the cause for which it is refused, and with no other: what is refused is
refused before the first bar, and behind that no step fails. -/
theorem replay_eq_error_iff (hcosts : costs.Valid)
    (hsize : 0 < source.positionSize ∧ source.positionSize ≤ 1) {limit : Option Nat}
    {fault : Fault ℚ} :
    (replay source costs limit bars state).2 = .error fault ↔
      refusal? source bars = some fault := by
  unfold replay
  cases h : refusal? source bars with
  | some found => simp
  | none =>
    obtain ⟨last, hwalk⟩ := walk_succeeds hcosts hsize state (reached limit bars)
    simp [hwalk]

/-- An entry leaves the part of the cash that the source does not commit, exactly. Both costs are
paid from the part that is committed. -/
theorem cash_of_entry (hcosts : costs.Valid)
    (hsize : 0 < source.positionSize ∧ source.positionSize ≤ 1)
    (hwalk : (Session.start costs (source.reset state)).walk source costs bars = (last, none))
    {i : Nat} {bar : Bar ℚ} (hbar : bars[i]? = some bar)
    (hflat : (bookAfter source costs state (bars.take i)).position = none)
    (hlong : (bookAfter source costs state (bars.take (i + 1))).position ≠ none) :
    (bookAfter source costs state (bars.take (i + 1))).cash =
      (1 - source.positionSize) * (bookAfter source costs state (bars.take i)).cash := by
  have hmove := Session.movement_step (step_sessionAfter hwalk hbar)
  unfold bookAfter at hflat hlong ⊢
  -- an outcome fixes the book that it leaves, which has to be a variable for that
  generalize (sessionAfter source costs state (bars.take (i + 1))).book = after at hmove hlong ⊢
  cases hmove with
  | idle => exact absurd hflat hlong
  | entry _ _ hbuyable _ => exact cash_opened hcosts hsize hbuyable
  | exit held _ hheld => rw [hflat] at hheld; cases hheld

end run

/-- **A run fails only before its first bar, and stays solvent.** On checked settings and with a
fraction of the cash committed on entry,

* a run fails exactly when the bars are out of order or too few, and with no other cause;
* every entry leaves the part of the cash that is not committed;
* at prices above zero, after every bar the cash is not negative, the equity is positive, and the
  drawdown is a fraction below one. -/
theorem replay_solvent {source : SignalSource ℚ σ} {costs : AccountSettings ℚ}
    {limit : Option Nat} {bars : List (Bar ℚ)} {state : σ} (hcosts : costs.check = .ok ())
    (hsize : 0 < source.positionSize ∧ source.positionSize ≤ 1) :
    ((∃ fault, (replay source costs limit bars state).2 = .error fault) ↔
        ¬Chronological bars ∨ bars.length < source.warmup) ∧
      (∀ fault, (replay source costs limit bars state).2 = .error fault →
        ∃ reason, fault = .accountSetting "bars" reason) ∧
      ∀ r, (replay source costs limit bars state).2 = .ok r →
        (∀ i bar, (reached limit bars)[i]? = some bar →
          (bookAfter source costs state (bars.take i)).position = none →
          (bookAfter source costs state (bars.take (i + 1))).position ≠ none →
          (bookAfter source costs state (bars.take (i + 1))).cash =
            (1 - source.positionSize) * (bookAfter source costs state (bars.take i)).cash) ∧
        ((∀ bar ∈ bars, 0 < bar.closing) → ∀ i bar, (reached limit bars)[i]? = some bar →
          0 ≤ (bookAfter source costs state (bars.take (i + 1))).cash ∧
            ∃ point, r.curve[i]? = some point ∧ 0 < point.equity ∧
              0 ≤ point.drawdown ∧ point.drawdown < 1) := by
  have hvalid := AccountSettings.check_eq_ok_iff.mp hcosts
  simp only [replay_eq_error_iff hvalid hsize]
  refine ⟨?_, fun fault hfault => eq_accountSetting_of_refusal? hfault, ?_⟩
  · rw [← Option.ne_none_iff_exists', ne_eq, refusal?_eq_none_iff, not_and_or, not_le]
  · intro r hr
    obtain ⟨-, -, last, hwalk, rfl⟩ := replay_eq_ok_iff.mp hr
    constructor
    · intro i bar hbar hflat hlong
      have hlt := (List.getElem?_eq_some_iff.mp hbar).1
      rw [← take_reached hlt] at hlong ⊢
      rw [← take_reached (Nat.le_of_lt hlt)] at hflat ⊢
      exact cash_of_entry hvalid hsize hwalk hbar hflat hlong
    · intro hprices i bar hbar
      have hlt := (List.getElem?_eq_some_iff.mp hbar).1
      have hprices' : ∀ b ∈ reached limit bars, 0 < b.closing := fun b hb =>
        hprices b (mem_of_mem_reached hb)
      have hsolvent := solvent hvalid hsize (fun b hb => hprices' b (List.mem_of_mem_take hb))
        (walk_take hwalk (i + 1)).1
      have hequity := hsolvent.equity_pos (hprices' bar (List.mem_of_getElem? hbar))
      have hpeak := Session.peak_step (step_sessionAfter hwalk hbar)
      rw [max_rat] at hpeak
      have hle := hpeak ▸ le_max_right _ _
      rw [← take_reached hlt]
      exact ⟨hsolvent.cash_nonneg, _, curve_getElem? hwalk hbar, hequity,
        drawdown_of_pos hequity hle⟩

/-- The sample run does not fail, commits half of its cash at its third bar, and loses less than
everything by its last. -/
theorem replay_solvent_sample :
    (AccountSettings.usual : AccountSettings ℚ).check = .ok () ∧
      (0 < sampleRule.source.positionSize ∧ sampleRule.source.positionSize ≤ 1) ∧
      ∃ r, (replay sampleRule.source .usual none sampleBars sampleRule.fresh).2 = .ok r ∧
        (bookAfter sampleRule.source .usual sampleRule.fresh (sampleBars.take 3)).cash =
          (1 - sampleRule.source.positionSize) *
            (bookAfter sampleRule.source .usual sampleRule.fresh (sampleBars.take 2)).cash ∧
        ∃ point, r.curve[4]? = some point ∧ 0 < point.equity ∧
          0 ≤ point.drawdown ∧ point.drawdown < 1 := by
  refine ⟨check_usual, size_sampleRule, ?_⟩
  obtain ⟨hfails, -, hruns⟩ := @replay_solvent _ sampleRule.source .usual none sampleBars
    sampleRule.fresh check_usual size_sampleRule
  cases hrun : (replay sampleRule.source .usual none sampleBars sampleRule.fresh).2 with
  | error fault =>
    rcases hfails.mp ⟨fault, hrun⟩ with hbars | hshort
    · exact absurd chronological_sampleBars hbars
    · exact absurd hshort (by decide +kernel)
  | ok r =>
    obtain ⟨hentry, hsolvent⟩ := hruns r hrun
    have hprices : ∀ bar ∈ sampleBars, 0 < bar.closing := by decide +kernel
    refine ⟨r, rfl, ?_, (hsolvent hprices 4 (.ofPrices 4 15 15 15 15 1) (by decide +kernel)).2⟩
    exact hentry 2 (.ofPrices 2 12 12 12 12 1) (by decide +kernel) (by decide +kernel)
      (by decide +kernel)

end MarketReplay
