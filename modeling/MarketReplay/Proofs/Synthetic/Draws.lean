import Mathlib.Tactic.Linarith
import Mathlib.Tactic.Positivity
import MarketReplay.Proofs.Cleaning.Content
import MarketReplay.Proofs.Scalar
import MarketReplay.Synthetic

/-!
# The bars that draws can make

A made-up bar comes of a price and five draws (`Draws`). Nothing is asked of the draws but that they
keep to their ranges (`Sampler.InRange`, `Draws.Within`), and what they allow is said once, of one
bar (`MadeAt`): it is sound and good, its price moves by about a hundredth and does not fall below
the least normal number, and its volume is between 800 and 1322.

**Whatever is drawn, a bar is made as it should be** (`Draws.Within.madeAt`). The price at which it
closes may be the price of another bar.

How a draw is made of random words is left out on purpose. A statement about a generator would be
about a few of the numbers in a range; this one is about all of them, and the generator comes in as
one more way to draw.
-/

set_option autoImplicit false

namespace MarketReplay

/-! ## One bar

The bar as a function of what is drawn. The draws come one after another, each with the state of the
generator that the one before has left. -/

/-- What is drawn for a bar. How the numbers are drawn is left open; all that is used of them are
the ranges they lie in. -/
structure Draws (α : Type) where
  swing : α
  spread : α
  above : α
  below : α
  factor : α
  tradeCount : Nat

section

variable {α γ : Type} [Scalar α]

/-- The relative move of the price. -/
def Draws.move (d : Draws α) : α := 0.0001 + 0.01 * d.swing

/-- The price at which a bar closes. It is held up at the least normal number, so that a price that
falls for long stays above zero. -/
def Draws.closing (d : Draws α) (price : α) : α :=
  Scalar.max (price * (1 + d.move)) Scalar.smallestNormal

/-- The bar that opens at a price. The low is held up at half of the lower end, since the draw below
it could be larger than what there is. -/
def Draws.bar (d : Draws α) (timestamp : Int) (price : α) : Bar α :=
  let closing := d.closing price
  let bottom := Scalar.min price closing
  let volume := 1000 * (1 + Scalar.abs d.move * 10) * d.factor
  { timestamp
    opening := price
    high := Scalar.max price closing + d.above
    low := Scalar.max (bottom - d.below) (bottom * 0.5)
    closing
    volume
    quoteVolume := volume * (price + closing) / 2
    tradeCount := d.tradeCount
    quality := .good }

theorem syntheticBar_of_draws {sampler : Sampler α γ} {timestamp : Int} {price : α}
    {g g₁ g₂ g₃ g₄ g₅ : γ} {swing spread above below factor : α}
    (hswing : sampler.uniform g (-1) 1 = some (swing, g₁))
    (hspread : sampler.uniform g₁ 0.002 0.01 = some (spread, g₂))
    (habove : sampler.uniform g₂ 0 (price * spread) = some (above, g₃))
    (hbelow : sampler.uniform g₃ 0 (price * spread) = some (below, g₄))
    (hfactor : sampler.uniform g₄ 0.8 1.2 = some (factor, g₅)) :
    syntheticBar sampler timestamp price g =
      some (Draws.bar ⟨swing, spread, above, below, factor, (sampler.count g₅ 50 500).1⟩
        timestamp price, (sampler.count g₅ 50 500).2) := by
  simp only [syntheticBar, hswing, hspread, habove, hbelow, hfactor, Option.bind_eq_bind,
    Option.bind_some]
  rfl

end

variable {γ : Type} {sampler : Sampler ℚ γ} {timestamp interval : Int} {price : ℚ}

/-- Draws keep to their ranges: of a range that is not empty there is a number, and it is from the
lower end on and below the upper one. -/
def Sampler.InRange (sampler : Sampler ℚ γ) : Prop :=
  ∀ g low high, low < high →
    ∃ x g', sampler.uniform g low high = some (x, g') ∧ low ≤ x ∧ x < high

/-- The draws of a bar that opens at a price are within their ranges. The draws above and below
depend on the price and on the spread that was drawn before them. -/
structure Draws.Within (d : Draws ℚ) (price : ℚ) : Prop where
  swing : -1 ≤ d.swing ∧ d.swing < 1
  spread : 1 / 500 ≤ d.spread ∧ d.spread < 1 / 100
  above : 0 ≤ d.above ∧ d.above < price * d.spread
  below : 0 ≤ d.below ∧ d.below < price * d.spread
  factor : 4 / 5 ≤ d.factor ∧ d.factor < 6 / 5

/-- At a positive price all ranges have a width, and so there is a bar. The ranges above and below
could be empty only at a price or a spread of zero. -/
theorem Sampler.InRange.exists_bar (h : sampler.InRange) (hprice : 0 < price) (timestamp : Int)
    (g : γ) :
    ∃ (d : Draws ℚ) (g' : γ),
      syntheticBar sampler timestamp price g = some (d.bar timestamp price, g') ∧
        d.Within price := by
  obtain ⟨swing, g₁, hswing, hswings⟩ := h g (-1) 1 (by norm_num)
  obtain ⟨spread, g₂, hspread, hspreads⟩ := h g₁ 0.002 0.01 (by norm_num)
  have hreach : 0 < price * spread := by
    have : (0 : ℚ) < spread := by linarith [hspreads.1]
    positivity
  obtain ⟨above, g₃, habove, haboves⟩ := h g₂ 0 (price * spread) hreach
  obtain ⟨below, g₄, hbelow, hbelows⟩ := h g₃ 0 (price * spread) hreach
  obtain ⟨factor, g₅, hfactor, hfactors⟩ := h g₄ 0.8 1.2 (by norm_num)
  refine ⟨⟨swing, spread, above, below, factor, _⟩, _,
    syntheticBar_of_draws hswing hspread habove hbelow hfactor, hswings, ?_, haboves, hbelows, ?_⟩
  · norm_num at hspreads ⊢
    exact hspreads
  · norm_num at hfactors ⊢
    exact hfactors

theorem smallestNormal_pos : (0 : ℚ) < Scalar.smallestNormal := by decide +kernel

/-- What every bar is that is made at a time and a price. It says nothing about the draws, so that a
series of such bars can be reasoned about without them. -/
structure MadeAt (timestamp : Int) (price : ℚ) (bar : Bar ℚ) : Prop where
  timestamp_eq : bar.timestamp = timestamp
  opening_eq : bar.opening = price
  sound : bar.Sound
  good : bar.quality = .good
  /-- The price of the next bar is no less than what is asked of a first price. -/
  smallest_le : Scalar.smallestNormal ≤ bar.closing
  near : |bar.closing / price - 1| ≤ 101 / 10000
  volume : 800 ≤ bar.volume ∧ bar.volume ≤ 1322

namespace Draws

theorem move_eq (d : Draws ℚ) : d.move = 1 / 10000 + 1 / 100 * d.swing := by
  show (0.0001 : ℚ) + 0.01 * d.swing = _
  norm_num

theorem closing_eq (d : Draws ℚ) (price : ℚ) :
    d.closing price = max (price * (1 + d.move)) Scalar.smallestNormal :=
  max_rat ..

theorem low_eq (d : Draws ℚ) (timestamp : Int) (price : ℚ) :
    (d.bar timestamp price).low =
      max (min price (d.closing price) - d.below) (min price (d.closing price) * (1 / 2)) := by
  show Scalar.max (Scalar.min price (d.closing price) - d.below)
    (Scalar.min price (d.closing price) * (0.5 : ℚ)) = _
  rw [max_rat, min_rat]
  norm_num

theorem high_eq (d : Draws ℚ) (timestamp : Int) (price : ℚ) :
    (d.bar timestamp price).high = max price (d.closing price) + d.above := by
  show Scalar.max price (d.closing price) + d.above = _
  rw [max_rat]

theorem volume_eq (d : Draws ℚ) (timestamp : Int) (price : ℚ) :
    (d.bar timestamp price).volume = 1000 * (1 + |d.move| * 10) * d.factor := by
  show (1000 : ℚ) * (1 + Scalar.abs d.move * 10) * d.factor = _
  rw [abs_rat]

namespace Within

variable {d : Draws ℚ}

theorem move_bounds (h : d.Within price) : -(99 / 10000) ≤ d.move ∧ d.move ≤ 101 / 10000 := by
  rw [move_eq]
  constructor <;> linarith [h.swing.1, h.swing.2]

/-- Where the price is held up it has still moved no further than that, as long as the bar did not
open below the number that holds it up. -/
theorem closing_bounds (h : d.Within price) (hprice : Scalar.smallestNormal ≤ price) :
    price * (9901 / 10000) ≤ d.closing price ∧ d.closing price ≤ price * (10101 / 10000) := by
  have hpos : 0 < price := smallestNormal_pos.trans_le hprice
  obtain ⟨hlow, hhigh⟩ := h.move_bounds
  rw [closing_eq]
  constructor
  · exact le_max_of_le_left (mul_le_mul_of_nonneg_left (by linarith) hpos.le)
  · refine max_le (mul_le_mul_of_nonneg_left (by linarith) hpos.le) ?_
    linarith

theorem volume_bounds (h : d.Within price) :
    800 ≤ 1000 * (1 + |d.move| * 10) * d.factor ∧
      1000 * (1 + |d.move| * 10) * d.factor ≤ 1322 := by
  obtain ⟨hlow, hhigh⟩ := h.move_bounds
  have hmove : |d.move| ≤ 101 / 10000 := abs_le.mpr ⟨by linarith, hhigh⟩
  have hnonneg := abs_nonneg d.move
  have hweight : 1000 ≤ 1000 * (1 + |d.move| * 10) ∧ 1000 * (1 + |d.move| * 10) ≤ 1101 := by
    constructor <;> linarith
  obtain ⟨hfew, hmany⟩ := h.factor
  constructor
  · have hproduct := mul_le_mul hweight.1 hfew (by norm_num) (by linarith)
    linarith
  · have hproduct := mul_le_mul hweight.2 hmany.le (by linarith) (by norm_num)
    linarith

/-- The low of a bar stays below both of its ends, and above zero since it is at least half of the
lower one. -/
theorem sound (h : d.Within price) (hprice : Scalar.smallestNormal ≤ price) (timestamp : Int) :
    (d.bar timestamp price).Sound := by
  have hpos : 0 < price := smallestNormal_pos.trans_le hprice
  have hclosing : 0 < d.closing price :=
    lt_of_lt_of_le (by linarith) (h.closing_bounds hprice).1
  have hbottom : 0 < min price (d.closing price) := lt_min hpos hclosing
  -- half of the lower end is above zero, whatever the draw takes off
  have hlow : 0 < (d.bar timestamp price).low := by
    rw [low_eq]
    exact lt_max_of_lt_right (by linarith)
  have hhigh : 0 < (d.bar timestamp price).high := by
    rw [high_eq]
    linarith [le_max_left price (d.closing price), h.above.1]
  refine ⟨?_, ?_, ?_, ?_⟩
  · intro p hp
    simp only [List.mem_cons, List.not_mem_nil, or_false] at hp
    rcases hp with rfl | rfl | rfl | rfl
    · exact ⟨rfl, hpos⟩
    · exact ⟨rfl, hhigh⟩
    · exact ⟨rfl, hlow⟩
    · exact ⟨rfl, hclosing⟩
  · show (d.bar timestamp price).low ≤ Scalar.min price (d.closing price)
    rw [low_eq, min_rat]
    exact max_le (by linarith [h.below.1]) (by linarith)
  · show Scalar.max price (d.closing price) ≤ (d.bar timestamp price).high
    rw [high_eq, max_rat]
    linarith [h.above.1]
  · have hvolume : 0 ≤ (d.bar timestamp price).volume := by
      rw [volume_eq]
      linarith [h.volume_bounds.1]
    exact hvolume

/-- **Every bar of draws within their ranges is made as it should be.** The closing price is kept
above zero by the maker itself, and the rest follows from the ranges. -/
theorem madeAt (h : d.Within price) (hprice : Scalar.smallestNormal ≤ price) (timestamp : Int) :
    MadeAt timestamp price (d.bar timestamp price) where
  timestamp_eq := rfl
  opening_eq := rfl
  sound := h.sound hprice timestamp
  good := rfl
  smallest_le := by
    show Scalar.smallestNormal ≤ d.closing price
    rw [closing_eq]
    exact le_max_right _ _
  near := by
    have hpos : 0 < price := smallestNormal_pos.trans_le hprice
    obtain ⟨hlow, hhigh⟩ := h.closing_bounds hprice
    -- the quotient is bounded by bounding the price at the close
    have hdown : 9901 / 10000 ≤ d.closing price / price := by
      rw [le_div_iff₀ hpos]
      linarith
    have hup : d.closing price / price ≤ 10101 / 10000 := by
      rw [div_le_iff₀ hpos]
      linarith
    show |d.closing price / price - 1| ≤ 101 / 10000
    exact abs_le.mpr ⟨by linarith, by linarith⟩
  volume := (volume_eq d timestamp price).symm ▸ h.volume_bounds

end Within

end Draws

end MarketReplay
