import Mathlib.Data.List.TakeWhile
import MarketReplay.Indicator.Convergence
import MarketReplay.Proofs.Indicator.ExponentialMean

/-!
# Where convergence begins, and what a change of prices does to it

The three series of `convergence` run along the prices. Each is silent up to a place and has a value
everywhere from there on (`StartsAt`). The difference starts where the slower of the two means does.
The signal line is the exponential mean of the difference without its silent start, which moves its
own start on (`StartsAt.exponentialMeansLate`), and the histogram starts with it.

**`convergence_aligned`** says where the series start and which values they have. What happens to
them when all prices change follows from what happens to the means: a constant cancels in the
difference, and a factor, or an exchange of the two means, goes through all that is built on it
(`Convergence.ofDifference_map_mul`).
-/

set_option autoImplicit false

namespace MarketReplay

/-! ## Series that start late

A series with entries missing at its start only, which is what all three series are. The place of
the start is carried as a number, and a series that is silent throughout is one that starts behind
its end. -/

section late

variable {β : Type} {entries : List (Option β)}

/-- A series has no value before a place and one at every place from there on. The place may lie
beyond the end of the series, and then there is no value. -/
def StartsAt (first : Nat) (entries : List (Option β)) : Prop :=
  ∀ i e, entries[i]? = some e → (e.isSome ↔ first ≤ i)

/-- A series has no value at all. A list of places without values says the same wherever it is cut,
which is why it is asked of the members. -/
def Silent (entries : List (Option β)) : Prop := ∀ e ∈ entries, e = none

theorem Silent.startsAt (h : Silent entries) : StartsAt entries.length entries := by
  intro i e he
  obtain ⟨hi, -⟩ := List.getElem?_eq_some_iff.mp he
  rw [h e (List.mem_of_getElem? he), Option.isSome_none, Bool.false_eq_true, false_iff]
  exact hi.not_ge

/-- A series that starts late is a silent start and the values after it. The induction is along the
series and lets its start come nearer by one with each entry. -/
theorem StartsAt.exists_dense {first : Nat} (h : StartsAt first entries) :
    ∃ dense : List β, entries.drop first = dense.map some ∧
      entries = List.replicate (min first entries.length) none ++ dense.map some := by
  induction entries generalizing first with
  | nil => exact ⟨[], List.drop_nil, by rw [List.length_nil, Nat.min_zero]; rfl⟩
  | cons e rest ih =>
    have hhead := h 0 e rfl
    -- an entry in front of the first value is none, and from it on all are there
    cases first with
    | zero =>
      obtain ⟨v, rfl⟩ := Option.isSome_iff_exists.mp (hhead.mpr (Nat.le_refl 0))
      have hrest : StartsAt 0 rest := fun i x hx => by
        simpa only [Nat.zero_le, iff_true] using h (i + 1) x hx
      obtain ⟨dense, hdrop, -⟩ := ih hrest
      rw [List.drop_zero] at hdrop
      exact ⟨v :: dense, by rw [List.drop_zero, hdrop]; rfl, by rw [Nat.zero_min, hdrop]; rfl⟩
    | succ first =>
      obtain rfl : e = none := by
        rw [← Option.not_isSome_iff_eq_none, hhead]
        exact Nat.not_succ_le_zero first
      have hrest : StartsAt first rest := fun i x hx => by
        simpa only [Nat.succ_le_succ_iff] using h (i + 1) x hx
      obtain ⟨dense, hdrop, hlist⟩ := ih hrest
      refine ⟨dense, hdrop, ?_⟩
      rw [List.length_cons, Nat.succ_min_succ, List.replicate_succ, List.cons_append, ← hlist]

end late

/-! ## Differences

A difference is missing where one of its terms is. So two series that start late have a difference
that starts with the later one, and a map of the numbers goes through it if it goes through
differences. -/

section difference

variable {xs ys : List (Option ℚ)}

theorem isSome_difference? (x y : Option ℚ) :
    (difference? x y).isSome ↔ x.isSome ∧ y.isSome := by
  cases x <;> cases y <;> simp [difference?]

theorem getElem?_differences (i : Nat) (d : Option ℚ)
    (h : (List.zipWith difference? xs ys)[i]? = some d) :
    ∃ x y, xs[i]? = some x ∧ ys[i]? = some y ∧ d = difference? x y := by
  rw [List.getElem?_zipWith] at h
  cases hx : xs[i]? with
  | none => simp [hx] at h
  | some x =>
    cases hy : ys[i]? with
    | none => simp [hx, hy] at h
    | some y =>
      rw [hx, hy] at h
      exact ⟨x, y, rfl, rfl, (Option.some.inj h).symm⟩

theorem StartsAt.differences {first second : Nat} (hx : StartsAt first xs)
    (hy : StartsAt second ys) :
    StartsAt (max first second) (List.zipWith difference? xs ys) := by
  intro i d hd
  obtain ⟨x, y, hxi, hyi, rfl⟩ := getElem?_differences i d hd
  rw [isSome_difference?, hx i x hxi, hy i y hyi, Nat.max_le]

theorem exists_of_getElem?_differences {i : Nat} {d : ℚ}
    (h : (List.zipWith difference? xs ys)[i]? = some (some d)) :
    ∃ x y, xs[i]? = some (some x) ∧ ys[i]? = some (some y) ∧ d = x - y := by
  obtain ⟨x, y, hx, hy, hd⟩ := getElem?_differences i _ h
  cases x with
  | none => cases hd
  | some x =>
    cases y with
    | none => cases hd
    | some y => exact ⟨x, y, hx, hy, Option.some.inj hd⟩

theorem Silent.differences (h : Silent xs ∨ Silent ys) :
    Silent (List.zipWith difference? xs ys) := by
  intro d hd
  obtain ⟨i, hi⟩ := List.mem_iff_getElem?.mp hd
  obtain ⟨x, y, hx, hy, rfl⟩ := getElem?_differences i d hi
  rw [← Option.not_isSome_iff_eq_none, isSome_difference?]
  rcases h with h | h
  · rw [h x (List.mem_of_getElem? hx)]
    simp
  · rw [h y (List.mem_of_getElem? hy)]
    simp

/-- A map of numbers that goes through differences goes through series of them. A shift becomes the
identity and a factor stays itself. -/
theorem differences_map {f g : ℚ → ℚ} (h : ∀ x y, f x - f y = g (x - y))
    (xs ys : List (Option ℚ)) :
    List.zipWith difference? (xs.map (Option.map f)) (ys.map (Option.map f)) =
      (List.zipWith difference? xs ys).map (Option.map g) := by
  have hentry (x y : Option ℚ) :
      difference? (x.map f) (y.map f) = (difference? x y).map g := by
    cases x with
    | none => rfl
    | some x =>
      cases y with
      | none => rfl
      | some y => exact congrArg some (h x y)
  rw [List.zipWith_map, List.map_zipWith]
  simp only [hentry]

theorem differences_map_mul (a : ℚ) (xs ys : List (Option ℚ)) :
    List.zipWith difference? (xs.map (Option.map (a * ·))) (ys.map (Option.map (a * ·))) =
      (List.zipWith difference? xs ys).map (Option.map (a * ·)) :=
  differences_map (fun x y => (mul_sub a x y).symm) xs ys

theorem differences_swap (xs ys : List (Option ℚ)) :
    List.zipWith difference? ys xs =
      (List.zipWith difference? xs ys).map (Option.map (-1 * ·)) := by
  have hentry (x y : Option ℚ) : difference? y x = (difference? x y).map (-1 * ·) := by
    cases x with
    | none => cases y <;> rfl
    | some x =>
      cases y with
      | none => rfl
      | some y =>
        have hswap : y - x = -1 * (x - y) := by ring
        exact congrArg some hswap
  rw [List.zipWith_comm, List.map_zipWith]
  exact congrArg (fun op => List.zipWith op xs ys) (funext₂ hentry)

end difference

/-! ## Exponential means of series that start late

The definition cuts the silent start off, averages the values behind it, and puts the start back.
For a series that starts late this is all of it; the part of the definition for values that are
followed by missing ones never applies. -/

section late

variable {period : Nat}

theorem startsAt_exponentialMeans (hperiod : 0 < period) (values : List ℚ) :
    StartsAt (period - 1) (exponentialMeans values period) := by
  intro i e he
  rw [getElem?_exponentialMeans hperiod] at he
  obtain ⟨v, -, rfl⟩ := Option.map_eq_some_iff.mp he
  split <;> simp <;> omega

theorem silent_exponentialMeans_zero (values : List ℚ) : Silent (exponentialMeans values 0) := by
  intro e he
  simp only [exponentialMeans, true_or, if_true] at he
  obtain ⟨v, -, rfl⟩ := List.mem_map.mp he
  rfl

/-- The values behind a silent start are averaged as a list of their own. -/
theorem exponentialMeansLate_append (late : Nat) (dense : List ℚ) (period : Nat) :
    exponentialMeansLate (List.replicate late none ++ dense.map some) period =
      List.replicate late none ++ exponentialMeans dense period := by
  have hstart : (dense.map some).takeWhile Option.isNone = [] := by cases dense <;> rfl
  -- the leading gaps are cut off, and the values behind them are averaged as a list of their own
  have hlate : (List.replicate late none ++ dense.map some).takeWhile Option.isNone =
      List.replicate late none := by
    rw [List.takeWhile_append_of_pos, hstart, List.append_nil]
    intro e he
    rw [List.eq_of_mem_replicate he]
    rfl
  have hdense : ((dense.map some).takeWhile Option.isSome).filterMap id = dense := by
    rw [List.takeWhile_eq_self_iff.mpr, List.filterMap_map]
    · exact List.filterMap_some
    · intro e he
      obtain ⟨v, -, rfl⟩ := List.mem_map.mp he
      rfl
  have hnone : (List.replicate late none ++ dense.map some).length - late - dense.length = 0 := by
    rw [List.length_append, List.length_replicate, List.length_map]
    omega
  simp only [exponentialMeansLate, hlate, List.length_replicate, List.drop_left', hdense, hnone,
    List.replicate_zero, List.append_nil]

variable {first : Nat} {entries : List (Option ℚ)}

/-- The means of a series that starts late are those of its values, behind the silent start. -/
theorem StartsAt.exists_late (h : StartsAt first entries) (period : Nat) :
    ∃ dense : List ℚ, entries.drop first = dense.map some ∧
      exponentialMeansLate entries period =
        List.replicate (min first entries.length) none ++ exponentialMeans dense period := by
  obtain ⟨dense, hdrop, hlist⟩ := h.exists_dense
  refine ⟨dense, hdrop, ?_⟩
  conv_lhs => rw [hlist]
  exact exponentialMeansLate_append _ dense period

theorem StartsAt.length_late (h : StartsAt first entries) (period : Nat) :
    (exponentialMeansLate entries period).length = entries.length := by
  obtain ⟨dense, hdrop, hlate⟩ := h.exists_late period
  have hlength : dense.length = entries.length - first := by
    rw [← List.length_drop, hdrop, List.length_map]
  rw [hlate, List.length_append, List.length_replicate, length_exponentialMeans, hlength]
  omega

/-- From its start on, the means of a series are those of its values. The places of the values are
counted from the start of the series. -/
theorem StartsAt.exists_getElem?_late (h : StartsAt first entries) (period : Nat) :
    ∃ dense : List ℚ, entries.drop first = dense.map some ∧
      ∀ i, first ≤ i → (exponentialMeansLate entries period)[i]? =
        (exponentialMeans dense period)[i - first]? := by
  obtain ⟨dense, hdrop, hlate⟩ := h.exists_late period
  refine ⟨dense, hdrop, ?_⟩
  intro i hi
  rw [hlate]
  rcases Nat.le_total first entries.length with hshort | hlong
  · rw [Nat.min_eq_left hshort, List.getElem?_append_right (by rwa [List.length_replicate]),
      List.length_replicate]
  · -- the series is over before it starts
    have hempty : dense = [] := by
      rw [List.drop_of_length_le hlong] at hdrop
      exact List.map_eq_nil_iff.mp hdrop.symm
    rw [hempty, List.getElem?_eq_none, List.getElem?_eq_none]
    · simp
    · simp only [List.length_append, List.length_replicate, length_exponentialMeans,
        List.length_nil]
      omega

theorem StartsAt.startsAt_late (h : StartsAt first entries) (hperiod : 0 < period) :
    StartsAt (first + period - 1) (exponentialMeansLate entries period) := by
  intro i e he
  -- in front of the first value nothing is averaged; behind it the place counts from there
  rcases Nat.lt_or_ge i first with hi | hi
  · obtain ⟨dense, -, hlate⟩ := h.exists_late period
    have hlt : i < min first entries.length := by
      have hlength := h.length_late period
      have := (List.getElem?_eq_some_iff.mp he).1
      omega
    rw [hlate, List.getElem?_append_left (by rwa [List.length_replicate]),
      List.getElem?_replicate_of_lt hlt] at he
    cases he
    simp only [Option.isSome_none, Bool.false_eq_true, false_iff]
    omega
  · obtain ⟨dense, -, hlate⟩ := h.exists_getElem?_late period
    rw [hlate i hi] at he
    rw [startsAt_exponentialMeans hperiod dense _ e he]
    omega

theorem Silent.late (h : Silent entries) (period : Nat) :
    Silent (exponentialMeansLate entries period) := by
  obtain ⟨dense, hdrop, hlate⟩ := h.startsAt.exists_late period
  have hempty : dense = [] := by
    rw [List.drop_length] at hdrop
    exact List.map_eq_nil_iff.mp hdrop.symm
  have hmeans : exponentialMeans dense period = [] := by
    rw [← List.length_eq_zero_iff, length_exponentialMeans, hempty, List.length_nil]
  intro e he
  rw [hlate, hmeans, List.append_nil] at he
  exact List.eq_of_mem_replicate he

theorem StartsAt.silent_late_zero (h : StartsAt first entries) :
    Silent (exponentialMeansLate entries 0) := by
  obtain ⟨dense, -, hlate⟩ := h.exists_late 0
  intro e he
  rw [hlate] at he
  rcases List.mem_append.mp he with he | he
  · exact List.eq_of_mem_replicate he
  · exact silent_exponentialMeans_zero dense e he

theorem exponentialMeans_map_mul (values : List ℚ) (period : Nat) (a : ℚ) :
    exponentialMeans (values.map (a * ·)) period =
      (exponentialMeans values period).map (Option.map (a * ·)) := by
  simpa only [add_zero] using exponentialMeans_map_affine values period a 0

theorem exponentialMeansLate_map_mul (entries : List (Option ℚ)) (period : Nat) (a : ℚ) :
    exponentialMeansLate (entries.map (Option.map (a * ·))) period =
      (exponentialMeansLate entries period).map (Option.map (a * ·)) := by
  have hnone : Option.isNone ∘ Option.map (a * ·) = Option.isNone := by
    funext x
    exact Option.isNone_map
  have hsome : Option.isSome ∘ Option.map (a * ·) = Option.isSome := by
    funext x
    exact Option.isSome_map
  have hdense (l : List (Option ℚ)) :
      (l.map (Option.map (a * ·))).filterMap id = (l.filterMap id).map (a * ·) := by
    rw [List.filterMap_map, List.map_filterMap]
    rfl
  simp only [exponentialMeansLate, List.takeWhile_map, hnone, hsome, List.length_map,
    ← List.map_drop, hdense, exponentialMeans_map_mul, List.map_append, List.map_replicate,
    Option.map_none]

end late

/-! ## The three series

The three series are functions of the difference alone. What changes the difference by a factor
therefore changes all of them by it, and prices only have to be followed up to the difference. -/

namespace Convergence

/-- What is built on a series of differences. The prices and the two means are out of sight here, so
that what holds of every series of differences is proved once. -/
def ofDifference (difference : List (Option ℚ)) (signal : Nat) : Convergence ℚ where
  difference
  signal := exponentialMeansLate difference signal
  histogram := List.zipWith difference? difference (exponentialMeansLate difference signal)

theorem convergence_eq (prices : List ℚ) (fast slow signal : Nat) :
    convergence prices fast slow signal =
      ofDifference
        (List.zipWith difference? (exponentialMeans prices fast) (exponentialMeans prices slow))
        signal := rfl

/-- A function applied to all the values. -/
def map (f : ℚ → ℚ) (c : Convergence ℚ) : Convergence ℚ where
  difference := c.difference.map (Option.map f)
  signal := c.signal.map (Option.map f)
  histogram := c.histogram.map (Option.map f)

/-- **A factor of the difference is one of all that is built on it.** -/
theorem ofDifference_map_mul (difference : List (Option ℚ)) (signal : Nat) (a : ℚ) :
    ofDifference (difference.map (Option.map (a * ·))) signal =
      (ofDifference difference signal).map (a * ·) := by
  simp only [ofDifference, map, exponentialMeansLate_map_mul, differences_map_mul]

/-- No series has a value. -/
def IsSilent (c : Convergence ℚ) : Prop :=
  Silent c.difference ∧ Silent c.signal ∧ Silent c.histogram

end Convergence

section convergence

open Convergence

variable (prices : List ℚ) {fast slow : Nat} (signal : Nat)

theorem startsAt_difference (hfast : 0 < fast) (hslow : 0 < slow) :
    StartsAt (max fast slow - 1) (convergence prices fast slow signal).difference := by
  have hfirst : max fast slow - 1 = max (fast - 1) (slow - 1) := by omega
  rw [hfirst]
  exact StartsAt.differences (startsAt_exponentialMeans hfast prices)
    (startsAt_exponentialMeans hslow prices)

theorem silent_difference (h : fast = 0 ∨ slow = 0) :
    Silent (convergence prices fast slow signal).difference := by
  refine Silent.differences ?_
  rcases h with rfl | rfl
  · exact .inl (silent_exponentialMeans_zero prices)
  · exact .inr (silent_exponentialMeans_zero prices)

/-- Whatever the periods, the difference starts somewhere. With a period of zero it starts behind
its end. -/
theorem exists_startsAt_difference (fast slow : Nat) :
    ∃ first, StartsAt first (convergence prices fast slow signal).difference := by
  by_cases h : fast = 0 ∨ slow = 0
  · exact ⟨_, (silent_difference prices signal h).startsAt⟩
  · exact ⟨_, startsAt_difference prices signal (by omega) (by omega)⟩

theorem isSilent_convergence (h : fast = 0 ∨ slow = 0) :
    (convergence prices fast slow signal).IsSilent :=
  have hdifference := silent_difference prices signal h
  ⟨hdifference, hdifference.late signal, Silent.differences (.inl hdifference)⟩

theorem silent_signal_zero (fast slow : Nat) :
    Silent (convergence prices fast slow 0).signal ∧
      Silent (convergence prices fast slow 0).histogram := by
  obtain ⟨first, hfirst⟩ := exists_startsAt_difference prices 0 fast slow
  exact ⟨hfirst.silent_late_zero, Silent.differences (.inr hfirst.silent_late_zero)⟩

theorem lengths_convergence (fast slow : Nat) :
    (convergence prices fast slow signal).difference.length = prices.length ∧
      (convergence prices fast slow signal).signal.length = prices.length ∧
      (convergence prices fast slow signal).histogram.length = prices.length := by
  have hdifference :
      (convergence prices fast slow signal).difference.length = prices.length := by
    simp [convergence]
  obtain ⟨first, hfirst⟩ := exists_startsAt_difference prices signal fast slow
  have hsignal : (convergence prices fast slow signal).signal.length = prices.length :=
    (hfirst.length_late signal).trans hdifference
  refine ⟨hdifference, hsignal, ?_⟩
  calc (convergence prices fast slow signal).histogram.length =
        min (convergence prices fast slow signal).difference.length
          (convergence prices fast slow signal).signal.length := List.length_zipWith
    _ = prices.length := by rw [hdifference, hsignal, min_self]

theorem convergence_map_add (fast slow : Nat) (b : ℚ) :
    convergence (prices.map (· + b)) fast slow signal = convergence prices fast slow signal := by
  have hmeans (period : Nat) : exponentialMeans (prices.map (· + b)) period =
      (exponentialMeans prices period).map (Option.map (· + b)) := by
    simpa only [one_mul] using exponentialMeans_map_affine prices period 1 b
  have hcancels (x y : ℚ) : x + b - (y + b) = id (x - y) := add_sub_add_right_eq_sub x y b
  rw [convergence_eq, hmeans, hmeans, differences_map hcancels, Option.map_id, List.map_id,
    ← convergence_eq]

theorem convergence_map_mul (fast slow : Nat) (a : ℚ) :
    convergence (prices.map (a * ·)) fast slow signal =
      (convergence prices fast slow signal).map (a * ·) := by
  rw [convergence_eq, exponentialMeans_map_mul, exponentialMeans_map_mul, differences_map_mul,
    ofDifference_map_mul, ← convergence_eq]

theorem convergence_swap (fast slow : Nat) :
    convergence prices slow fast signal = (convergence prices fast slow signal).map (-·) := by
  have hneg : (-1 * · : ℚ → ℚ) = (-·) := funext neg_one_mul
  rw [convergence_eq, differences_swap, ofDifference_map_mul, ← convergence_eq, hneg]

end convergence

/-- **Convergence and divergence, aligned**, over the rationals and for any periods. All three
series run along the prices. The difference starts with the slower mean and is the fast mean less
the slow one; the signal line is the exponential mean of the values of the difference, counted from
its start; the histogram starts with the signal line and is what the difference has over it. Hence a
constant added to all prices changes nothing, a factor goes through everything, and exchanging the
two means turns everything round. A period of zero silences what depends on it. -/
theorem convergence_aligned (prices : List ℚ) (fast slow signal : Nat) :
    let c : Convergence ℚ := convergence prices fast slow signal
    let first := max fast slow - 1
    (c.difference.length = prices.length ∧ c.signal.length = prices.length ∧
      c.histogram.length = prices.length) ∧
    (1 ≤ fast → 1 ≤ slow →
      StartsAt first c.difference ∧
      (∀ (i : Nat) (d : ℚ), c.difference[i]? = some (some d) →
        ∃ f s, (exponentialMeans prices fast)[i]? = some (some f) ∧
          (exponentialMeans prices slow)[i]? = some (some s) ∧ d = f - s) ∧
      (1 ≤ signal →
        StartsAt (first + signal - 1) c.signal ∧
        (∃ dense : List ℚ, c.difference.drop first = dense.map some ∧
          ∀ i, first ≤ i → c.signal[i]? = (exponentialMeans dense signal)[i - first]?) ∧
        StartsAt (first + signal - 1) c.histogram ∧
        ∀ (i : Nat) (h : ℚ), c.histogram[i]? = some (some h) →
          ∃ d e, c.difference[i]? = some (some d) ∧ c.signal[i]? = some (some e) ∧ h = d - e)) ∧
    (∀ b, convergence (prices.map (· + b)) fast slow signal = c) ∧
    (∀ a, convergence (prices.map (a * ·)) fast slow signal = c.map (a * ·)) ∧
    convergence prices slow fast signal = c.map (-·) ∧
    (fast = 0 ∨ slow = 0 → c.IsSilent) ∧
    (signal = 0 → Silent c.signal ∧ Silent c.histogram) := by
  refine ⟨lengths_convergence prices signal fast slow, ?_,
    convergence_map_add prices signal fast slow, convergence_map_mul prices signal fast slow,
    convergence_swap prices signal fast slow, isSilent_convergence prices signal, ?_⟩
  · intro hfast hslow
    have hdifference := startsAt_difference prices signal hfast hslow
    refine ⟨hdifference, fun i d => exists_of_getElem?_differences, ?_⟩
    intro hsignal
    have hstart := hdifference.startsAt_late hsignal
    -- the later of the two starts, which is always that of the signal
    have hlast : max fast slow - 1 + signal - 1 =
        max (max fast slow - 1) (max fast slow - 1 + signal - 1) := by omega
    refine ⟨hstart, hdifference.exists_getElem?_late signal, ?_,
      fun i h => exists_of_getElem?_differences⟩
    rw [hlast]
    exact hdifference.differences hstart
  · rintro rfl
    exact silent_signal_zero prices fast slow

/-- The fast mean may be the slower one: it starts with the third price, and the signal line two
places later. Without a fast mean, or a signal period, there is nothing to see. -/
theorem convergence_aligned_sample :
    let c := convergence ([2, 4, 6, 4, 8, 4] : List ℚ) 3 1 3
    (1 ≤ 3 ∧ 1 ≤ 1) ∧ StartsAt 2 c.difference ∧ StartsAt 4 c.signal ∧ StartsAt 4 c.histogram ∧
      c.difference = [none, none, some (-2), some 0, some (-2), some 1] ∧
      c.histogram = [none, none, none, none, some (-2 / 3), some (7 / 6)] ∧
      convergence ([2, 4, 6, 4, 8, 4] : List ℚ) 1 3 3 = c.map (-·) ∧
      (convergence ([2, 4, 6, 4, 8, 4] : List ℚ) 0 1 3).IsSilent ∧
      Silent (convergence ([2, 4, 6, 4, 8, 4] : List ℚ) 3 1 0).signal := by
  obtain ⟨-, haligned, -, -, hswap, -, -⟩ := convergence_aligned [2, 4, 6, 4, 8, 4] 3 1 3
  obtain ⟨hdifference, -, hvalues⟩ := haligned (by decide) (by decide)
  obtain ⟨hsignal, -, hhistogram, -⟩ := hvalues (by decide)
  obtain ⟨-, -, -, -, -, hsilent, -⟩ := convergence_aligned [2, 4, 6, 4, 8, 4] 0 1 3
  obtain ⟨-, -, -, -, -, -, hzero⟩ := convergence_aligned [2, 4, 6, 4, 8, 4] 3 1 0
  exact ⟨by decide, hdifference, hsignal, hhistogram, by decide +kernel, by decide +kernel, hswap,
    hsilent (.inl rfl), (hzero rfl).1⟩

end MarketReplay
