import MarketReplay.Proofs.Cleaning.Untouched
import MarketReplay.Proofs.Synthetic.Draws

/-!
# Made-up series are clean

A made-up series is a walk: each bar opens at the price at which the bar before it closed, an
interval later, and is made of draws within their ranges (`Walk`). The walk goes on for as many bars
as are asked for, since the price at which a bar closes is one that a bar can open at
(`Sampler.InRange.exists_walk`).

Jumps of a half, volumes of ten times their mean and steps longer than the interval do not occur in
a walk. **Hence cleaning returns a made-up series as it is** (`clean_syntheticBars`), with the usual
settings and with those of its timeframe.
-/

set_option autoImplicit false

namespace MarketReplay

variable {γ : Type} {sampler : Sampler ℚ γ} {timestamp interval : Int} {price : ℚ}

/-! ## A series

The generator builds a series from its front and carries what was made along. A walk is the same
series, seen from its first bar on. -/

/-- A series in which each bar is made an interval after the bar before it, at the price at which
that one closed. The two indices are the time and the price at which the next bar opens. -/
inductive Walk (interval : Int) : Int → ℚ → List (Bar ℚ) → Prop
  | nil (timestamp : Int) (price : ℚ) : Walk interval timestamp price []
  | cons {timestamp : Int} {price : ℚ} {bar : Bar ℚ} {rest : List (Bar ℚ)} :
      MadeAt timestamp price bar → Walk interval (timestamp + interval) bar.closing rest →
      Walk interval timestamp price (bar :: rest)

/-- **Draws within their ranges make a walk.** The bars made before stand in front of it. -/
theorem Sampler.InRange.exists_walk (h : sampler.InRange)
    (hprice : Scalar.smallestNormal ≤ price) (interval timestamp : Int) (made : List (Bar ℚ))
    (g : γ) (n : Nat) :
    ∃ bars, syntheticFrom sampler interval made timestamp price g n =
        some (made.reverse ++ bars) ∧
      bars.length = n ∧ Walk interval timestamp price bars := by
  induction n generalizing made timestamp price g with
  | zero => exact ⟨[], by rw [List.append_nil]; rfl, rfl, .nil timestamp price⟩
  | succ n ih =>
    obtain ⟨d, g', hbar, hd⟩ := h.exists_bar (smallestNormal_pos.trans_le hprice) timestamp g
    have hmade := hd.madeAt hprice timestamp
    obtain ⟨rest, hrest, hlength, hwalk⟩ := ih hmade.smallest_le (timestamp + interval)
      (d.bar timestamp price :: made) g'
    refine ⟨d.bar timestamp price :: rest, ?_, congrArg Nat.succ hlength, .cons hmade hwalk⟩
    rw [syntheticFrom, hbar]
    simpa using hrest

namespace Walk

variable {bars : List (Bar ℚ)}

theorem exists_madeAt (h : Walk interval timestamp price bars) :
    ∀ bar ∈ bars, ∃ timestamp price, MadeAt timestamp price bar := by
  induction h with
  | nil => simp
  | cons hbar _ ih => exact List.forall_mem_cons.mpr ⟨⟨_, _, hbar⟩, ih⟩

/-- What holds between neighbours: time goes on by the interval, a bar opens where the one before it
closed, and the price moves by little more than a hundredth. -/
structure Step (interval : Int) (a b : Bar ℚ) : Prop where
  timestamp_eq : b.timestamp = a.timestamp + interval
  opening_eq : b.opening = a.closing
  near : |b.closing / a.closing - 1| ≤ 101 / 10000

theorem isChain (h : Walk interval timestamp price bars) : bars.IsChain (Step interval) := by
  induction h with
  | nil => exact List.isChain_nil
  | cons hbar hrest ih =>
    cases hrest with
    | nil => exact List.isChain_singleton _
    | cons hnext _ =>
      refine List.isChain_cons_cons.mpr ⟨⟨?_, hnext.opening_eq, hnext.near⟩, ih⟩
      rw [hnext.timestamp_eq, hbar.timestamp_eq]

theorem evenlySpaced (h : Walk interval timestamp price bars) :
    EvenlySpaced interval (bars.map Bar.timestamp) :=
  (List.isChain_map _).mpr (h.isChain.imp fun _ _ hstep => hstep.timestamp_eq)

theorem chronological (h : Walk interval timestamp price bars) (hinterval : 0 < interval) :
    Chronological bars :=
  chronological_iff_times.mpr (h.evenlySpaced.pairwise_lt hinterval)

/-- **A walk is cleaned to itself** when its interval is no gap, its moves are no jumps, and no
multiple of the mean in its range of volumes is a spike. The settings are general; what the usual
ones are is used in the last step only. -/
theorem clean_eq (h : Walk interval timestamp price bars) (hinterval : 0 < interval)
    {settings : CleaningSettings ℚ}
    (hgap : ∀ t, gapThreshold? settings (bars.map Bar.timestamp) = some t → interval ≤ t)
    (hjump : 101 / 10000 ≤ settings.priceJump) (hspike : 2 ≤ settings.volumeSpike)
    (henough : Nat.max settings.minBars 1 ≤ bars.length) :
    clean settings bars = .ok (bars, .plain bars.length) := by
  have hmade := h.exists_madeAt
  refine clean_untouched ?_ ?_ (h.chronological hinterval) ?_ henough
  · intro bar hbar
    obtain ⟨_, _, hbar⟩ := hmade bar hbar
    exact hbar.sound
  · intro bar hbar
    obtain ⟨_, _, hbar⟩ := hmade bar hbar
    exact hbar.good
  -- all volumes lie within a factor of two, hence no mean of them is far from any
  have hvolume : ∀ bar ∈ bars, 800 ≤ bar.volume ∧ bar.volume ≤ 800 * settings.volumeSpike := by
    intro bar hbar
    obtain ⟨_, _, hbar⟩ := hmade bar hbar
    exact ⟨hbar.volume.1, by linarith [hbar.volume.2]⟩
  refine marksOf_clear ?_ ?_ (by linarith) hvolume
  · intro t ht
    refine h.isChain.imp ?_
    intro a b hstep
    have := hgap t ht
    have := hstep.timestamp_eq
    omega
  · refine h.isChain.imp ?_
    intro a b hstep
    -- a move that is no more than the limit is no jump
    have hnot : ¬settings.priceJump < |b.closing / a.closing - 1| :=
      not_lt.mpr (hstep.near.trans hjump)
    refine decide_eq_false ?_
    rwa [abs_rat]

end Walk

/-! ## Cleaning

The settings that come with the program allow all that a walk does. -/

theorem Timeframe.millis_pos (tf : Timeframe) : 0 < tf.millis := by
  cases tf <;> decide

theorem usual_limits :
    101 / 10000 ≤ (CleaningSettings.usual : CleaningSettings ℚ).priceJump ∧
      2 ≤ (CleaningSettings.usual : CleaningSettings ℚ).volumeSpike ∧
      1 ≤ (CleaningSettings.usual : CleaningSettings ℚ).gapTolerance ∧
      Nat.max (CleaningSettings.usual : CleaningSettings ℚ).minBars 1 = 1 := by
  decide +kernel

/-- **A made-up series is clean.** Draws within their ranges make as many bars as are asked for.
Each of them is sound and opens where and when the one before it leaves off, and cleaning finds
nothing to drop and nothing to mark. -/
theorem clean_syntheticBars (hsampler : sampler.InRange) {n : Nat} (hn : 1 ≤ n)
    (hprice : Scalar.smallestNormal ≤ price) (tf : Timeframe) (g : γ) :
    ∃ bars, syntheticBars sampler n price tf.millis g = some bars ∧ bars.length = n ∧
      (∀ bar ∈ bars, bar.hasPositivePrices = true ∧ bar.hasValidRange = true ∧
        0 < bar.volume ∧ bar.quality = .good) ∧
      (bars.IsChain fun a b =>
        b.opening = a.closing ∧ b.timestamp = a.timestamp + tf.millis) ∧
      ∀ settings ∈ [CleaningSettings.usual, .ofTimeframe tf],
        clean settings bars = .ok (bars, .plain n) := by
  obtain ⟨bars, hbars, rfl, hwalk⟩ :=
    hsampler.exists_walk hprice tf.millis syntheticStart [] g n
  refine ⟨bars, hbars, rfl, ?_, ?_, ?_⟩
  · intro bar hbar
    obtain ⟨_, _, hmade⟩ := hwalk.exists_madeAt bar hbar
    refine ⟨Bar.hasPositivePrices_iff.mpr hmade.sound.prices,
      Bar.hasValidRange_iff.mpr ⟨hmade.sound.low_le, hmade.sound.le_high⟩, ?_, hmade.good⟩
    linarith [hmade.volume.1]
  · exact hwalk.isChain.imp fun a b hstep => ⟨hstep.opening_eq, hstep.timestamp_eq⟩
  · intro settings hsettings
    obtain ⟨hjump, hspike, htolerance, henough⟩ := usual_limits
    simp only [List.mem_cons, List.not_mem_nil, or_false] at hsettings
    rcases hsettings with rfl | rfl
    · refine hwalk.clean_eq tf.millis_pos ?_ hjump hspike (henough ▸ hn)
      intro t
      exact le_gapThreshold?_of_even hwalk.evenlySpaced tf.millis_pos rfl htolerance
    · refine hwalk.clean_eq tf.millis_pos ?_ hjump hspike hn
      intro t ht
      exact Int.le_of_eq (Option.some.inj ht)

namespace RandomStream

/-- A number of a range from the upper 52 bits of a draw. Without rounding no candidate is outside
the range, so that the first one is taken; among doubles the upper end can be hit and is drawn
again. -/
def exactUniform? (s : RandomStream) (low high : ℚ) : Option (ℚ × RandomStream) :=
  if low < high then
    let (bits, s) := s.nextPair
    some (((bits >>> 12).toNat : ℚ) / twoTo 52 * (high - low) + low, s)
  else none

/-- The stream of words as draws of exact numbers. -/
def exactSampler : Sampler ℚ RandomStream where
  uniform := exactUniform?
  count := count

theorem toNat_shiftRight_lt (bits : UInt64) : (bits >>> 12).toNat < twoTo 52 := by
  have hbits := bits.toNat_lt
  have hshift : (bits >>> 12).toNat = bits.toNat / twoTo 12 := by
    rw [UInt64.toNat_shiftRight, Nat.shiftRight_eq_div_pow]
    rfl
  rw [hshift]
  exact Nat.div_lt_of_lt_mul hbits

theorem inRange_exactSampler : exactSampler.InRange := by
  intro s low high hlt
  have hwidth : 0 < high - low := sub_pos.mpr hlt
  have hbits : ((s.nextPair.1 >>> 12).toNat : ℚ) < twoTo 52 :=
    Nat.cast_lt.mpr (toNat_shiftRight_lt s.nextPair.1)
  have hpower : (0 : ℚ) < twoTo 52 := (Nat.cast_nonneg _).trans_lt hbits
  obtain ⟨unit, hunit⟩ : ∃ unit, unit = ((s.nextPair.1 >>> 12).toNat : ℚ) / twoTo 52 := ⟨_, rfl⟩
  have hnonneg : 0 ≤ unit := hunit ▸ div_nonneg (Nat.cast_nonneg _) hpower.le
  have hless : unit < 1 := hunit ▸ (div_lt_one hpower).mpr hbits
  refine ⟨unit * (high - low) + low, s.nextPair.2, hunit ▸ if_pos hlt, ?_, ?_⟩
  · have hscaled := mul_nonneg hnonneg hwidth.le
    linarith
  · have hscaled := mul_lt_of_lt_one_left hwidth hless
    linarith

end RandomStream

/-- The draws of a seed are within their ranges, and the series they make is clean. -/
theorem clean_syntheticBars_seed :
    ∃ bars, syntheticBars RandomStream.exactSampler 3 100 Timeframe.hour.millis
          (RandomStream.ofSeed 42) = some bars ∧
      bars.map Bar.tradeCount = [236, 277, 283] ∧
      clean .usual bars = .ok (bars, .plain 3) ∧
      clean (.ofTimeframe .hour) bars = .ok (bars, .plain 3) := by
  obtain ⟨bars, hbars, -, -, -, hclean⟩ :=
    clean_syntheticBars RandomStream.inRange_exactSampler (n := 3) (by decide)
      (show Scalar.smallestNormal ≤ (100 : ℚ) by decide +kernel) .hour (RandomStream.ofSeed 42)
  have hcounts : (syntheticBars RandomStream.exactSampler 3 100 Timeframe.hour.millis
      (RandomStream.ofSeed 42)).map (List.map Bar.tradeCount) = some [236, 277, 283] := by
    decide +kernel
  rw [hbars] at hcounts
  exact ⟨bars, hbars, Option.some.inj hcounts, hclean _ (by simp), hclean _ (by simp)⟩

end MarketReplay
