import MarketReplay.Proofs.Strategy.PriceUnit

/-!
# Crossings along a trend

Along closing prices that never fall the newest are the highest, so that the mean of a few of them
is not below the mean of more (`lastMean_le_of_rising`). The fast average then never stands below
the slow one, whatever the tolerance, and **the rule never sells** (`AverageCross.never_sells`).

To negate all prices turns a rise into a fall and a sell into a buy
(`AverageCross.crossingOver_neg`), so that **along prices that never rise the rule never buys**
(`AverageCross.never_buys`). The second half costs no second argument about means; negative prices
do not occur in a series, but the definitions do not mind them.
-/

set_option autoImplicit false

namespace MarketReplay

/-! ## Means along a trend

The mean over a longer stretch is one of more old values, none of which is above a new one. -/

/-- Values that are not above any newer one do not raise the mean. Each of them is at most the mean
of the newer ones, so replacing them by it can only raise the sum. -/
theorem mean_append_le {older newer : List ℚ} (h : ∀ x ∈ older, ∀ y ∈ newer, x ≤ y)
    (hnewer : newer ≠ []) :
    (older ++ newer).sum / (older ++ newer).length ≤ newer.sum / newer.length := by
  have hpos : (0 : ℚ) < newer.length := Nat.cast_pos.mpr (List.length_pos_iff.mpr hnewer)
  have hmean : ∀ x ∈ older, x ≤ newer.sum / newer.length := by
    intro x hx
    rw [le_div_iff₀ hpos, mul_comm, ← nsmul_eq_mul]
    exact List.card_nsmul_le_sum newer x (h x hx)
  -- no older value is above the mean of the newer ones
  have hsum : older.sum ≤ older.length * (newer.sum / newer.length) := by
    rw [← nsmul_eq_mul]
    exact List.sum_le_card_nsmul older _ hmean
  have hall : (0 : ℚ) < (older ++ newer).length := by
    rw [List.length_append, Nat.cast_add]
    exact add_pos_of_nonneg_of_pos (Nat.cast_nonneg _) hpos
  rw [div_le_iff₀ hall]
  calc (older ++ newer).sum
      ≤ older.length * (newer.sum / newer.length) + newer.sum := by
        rw [List.sum_append]
        exact add_le_add_left hsum _
    _ = newer.sum / newer.length * (older ++ newer).length := by
        rw [List.length_append, Nat.cast_add]
        field_simp

section trend

variable {values : List ℚ} {m n : Nat}

theorem rtake_eq_append (hmn : m ≤ n) (hn : n ≤ values.length) :
    values.rtake n = (values.rtake n).take (n - m) ++ values.rtake m := by
  have hplace : values.length - n + (n - m) = values.length - m := by omega
  have hnewest : (values.rtake n).drop (n - m) = values.rtake m := by
    rw [List.rtake, List.rtake, List.drop_drop, hplace]
  rw [← hnewest, List.take_append_drop]

theorem length_rtake_of_le (hn : n ≤ values.length) : (values.rtake n).length = n := by
  rw [RollingWindow.length_rtake, Nat.min_eq_right hn]

theorem lastMean_le_of_rising (h : values.Pairwise (· ≤ ·)) (hm : 0 < m) (hmn : m ≤ n)
    (hn : n ≤ values.length) : lastMean n values ≤ lastMean m values := by
  have hlast := length_rtake_of_le hn
  have hnewest := length_rtake_of_le (hmn.trans hn)
  have hsplit := rtake_eq_append hmn hn
  have hrising : (values.rtake n).Pairwise (· ≤ ·) := h.sublist (List.drop_sublist ..)
  rw [hsplit] at hrising hlast
  have hmean := mean_append_le (List.pairwise_append.mp hrising).2.2
    (List.ne_nil_of_length_pos (hnewest.symm ▸ hm))
  rw [hlast, hnewest, ← hsplit] at hmean
  exact hmean

end trend

/-! ## The mirrored rule

A rule seen in a mirror: above and below exchanged, buying and selling exchanged. The tolerance
reads sizes only and stays. -/

theorem lastMean_map_neg (period : Nat) (values : List ℚ) :
    lastMean period (values.map (-·)) = -lastMean period values := by
  have hneg : (-· : ℚ → ℚ) = (-1 * ·) := funext fun x => (neg_one_mul x).symm
  rw [hneg, lastMean_map_mul, neg_one_mul]

def Standing.mirrored : Standing → Standing
  | .below => .above
  | .level => .level
  | .above => .below

def Action.mirrored : Action → Action
  | .buy => .sell
  | .sell => .buy
  | .hold => .hold

namespace AverageCross

theorem standingOver_neg (floor fast slow : ℚ) :
    standingOver floor (-fast) (-slow) = (standingOver floor fast slow).mirrored := by
  have htolerance : tolerance floor (-fast) (-slow) = tolerance floor fast slow := by
    rw [tolerance, tolerance, abs_neg, abs_neg]
  have hnonneg := tolerance_nonneg floor fast slow
  rw [standingOver, standingOver, htolerance, neg_sub_neg, neg_sub_neg]
  by_cases habove : tolerance floor fast slow < fast - slow
  · rw [if_neg (by linarith), if_pos habove, if_pos habove]
    rfl
  · rw [if_neg habove, if_neg habove]
    split <;> rfl

section crossing

variable {settings : CrossSettings ℚ} {closes : List ℚ} {floor : ℚ} {i : Nat}

theorem crossingOver_eq_actionOf :
    crossingOver floor settings closes i =
      if settings.slowPeriod ≤ i then
        actionOf (some (standingOverAt floor settings closes (i - 1)))
          (standingOverAt floor settings closes i)
      else .hold := by
  rw [crossingOver, actionOf_some]
  by_cases hslow : settings.slowPeriod ≤ i
  · simp only [hslow, true_and, if_true]
  · simp only [hslow, false_and, if_false]

/-- **To negate all prices mirrors the rule.** What is proved of rising prices then holds of falling
ones, with buying and selling exchanged. -/
theorem crossingOver_neg :
    crossingOver floor settings (closes.map (-·)) i =
      (crossingOver floor settings closes i).mirrored := by
  have hstanding (j : Nat) : standingOverAt floor settings (closes.map (-·)) j =
      (standingOverAt floor settings closes j).mirrored := by
    rw [standingOverAt, ← List.map_take, lastMean_map_neg, lastMean_map_neg, standingOver_neg,
      standingOverAt]
  have haction (before now : Standing) :
      actionOf (some before.mirrored) now.mirrored = (actionOf (some before) now).mirrored := by
    cases before <;> cases now <;> rfl
  rw [crossingOver_eq_actionOf, crossingOver_eq_actionOf, hstanding, hstanding, haction]
  split <;> rfl

/-! ## The rule along a trend

A sell needs a standing below, and along a rise there is none. The statement about a fall is this
one of the negated prices. -/

theorem standing_of_sell (h : crossingOver floor settings closes i = .sell) :
    settings.slowPeriod ≤ i ∧ standingOverAt floor settings closes i = .below := by
  unfold crossingOver at h
  split at h
  · cases h
  · split at h
    · rename_i hsell
      exact ⟨hsell.1, hsell.2.2⟩
    · cases h

theorem standingOver_ne_below {fast slow : ℚ} (h : slow ≤ fast) :
    standingOver floor fast slow ≠ .below := by
  have hnonneg := tolerance_nonneg floor fast slow
  have hnot : ¬tolerance floor fast slow < slow - fast := by linarith
  rw [standingOver, if_neg hnot]
  split <;> exact nofun

variable (hfast : 0 < settings.fastPeriod) (hperiods : settings.fastPeriod < settings.slowPeriod)

include hfast hperiods

theorem crossingOver_ne_sell (hrising : closes.Pairwise (· ≤ ·)) (hi : i < closes.length) :
    crossingOver floor settings closes i ≠ .sell := by
  intro hsell
  obtain ⟨hslow, hbelow⟩ := standing_of_sell hsell
  refine standingOver_ne_below ?_ hbelow
  refine lastMean_le_of_rising (hrising.sublist (List.take_sublist ..)) hfast hperiods.le ?_
  rw [List.length_take_of_le hi]
  omega

theorem crossingOver_ne_buy (hfalling : closes.Pairwise (· ≥ ·)) (hi : i < closes.length) :
    crossingOver floor settings closes i ≠ .buy := by
  intro hbuy
  have hrising : (closes.map (-·)).Pairwise (· ≤ ·) :=
    List.pairwise_map.mpr (hfalling.imp neg_le_neg)
  have hnever : crossingOver floor settings (closes.map (-·)) i ≠ .sell :=
    crossingOver_ne_sell hfast hperiods hrising (by rwa [List.length_map])
  exact hnever (by rw [crossingOver_neg, hbuy]; rfl)

variable {past bars : List (Bar ℚ)} {f : Follower (State ℚ)}
  (hf : (rule settings).Saw (Alike settings) past f)

include hf

theorem exists_crossing {signal : Signal}
    (hsignal : signal ∈ ((rule settings).source.signals f bars).2) :
    ∃ i < (bars.map Bar.closing).length,
      signal.action = crossingOver 1 settings (bars.map Bar.closing) i := by
  obtain ⟨i, hi⟩ := List.mem_iff_getElem?.mp hsignal
  rw [getElem?_signals hfast hperiods hf] at hi
  obtain ⟨bar, hbar, rfl⟩ := Option.map_eq_some_iff.mp hi
  refine ⟨i, ?_, rfl⟩
  rw [List.length_map]
  exact (List.getElem?_eq_some_iff.mp hbar).1

/-- **Along prices that never fall the rule never sells.** The fast mean is one of newer prices, and
these are not below the older ones. -/
theorem never_sells (hrising : (bars.map Bar.closing).Pairwise (· ≤ ·)) :
    ∀ signal ∈ ((rule settings).source.signals f bars).2, signal.action ≠ .sell := by
  intro signal hsignal
  obtain ⟨i, hi, haction⟩ := exists_crossing hfast hperiods hf hsignal
  rw [haction]
  exact crossingOver_ne_sell hfast hperiods hrising hi

/-- **Along prices that never rise the rule never buys.** This is the other lemma for the negated
prices. -/
theorem never_buys (hfalling : (bars.map Bar.closing).Pairwise (· ≥ ·)) :
    ∀ signal ∈ ((rule settings).source.signals f bars).2, signal.action ≠ .buy := by
  intro signal hsignal
  obtain ⟨i, hi, haction⟩ := exists_crossing hfast hperiods hf hsignal
  rw [haction]
  exact crossingOver_ne_buy hfast hperiods hfalling hi

end crossing

end AverageCross

end MarketReplay
