import Mathlib.Data.List.DropRight
import MarketReplay.Proofs.Double.Swamped
import MarketReplay.Sweep

/-!
# The best of a sweep

`bestBy?` goes through a list once and keeps the best item so far as long as the score of the next
one is no higher. Among scores that compare this finds the earliest of the best items
(`IsFirstBest`).

A `NaN` compares with nothing, and so it cuts the list in two. The item that has it replaces the
best one so far, and is itself replaced by whatever comes next (`bestBy?_append_of_isNaN`). **What
counts are the items behind the last `NaN`** (`lastScored`, `best_behind_last_nan`), which are all
items if no score is `NaN`. A higher score in front of a `NaN` is forgotten
(`higher_score_forgotten`).
-/

set_option autoImplicit false

namespace MarketReplay

variable {β : Type} {score : β → Float} {items front rest : List β} {best x : β}

/-- The item has the best score of a list, and every item in front of it has a lower one. The items
behind it may tie with it: the earliest wins. -/
structure IsFirstBest (score : β → Float) (items : List β) (best : β) : Prop where
  scored : Scalar.isNaN (score best) = false
  place : ∃ front rest, items = front ++ best :: rest ∧ (∀ x ∈ front, score x < score best) ∧
    ∀ x ∈ rest, score x ≤ score best

namespace IsFirstBest

theorem singleton (hx : Scalar.isNaN (score x) = false) : IsFirstBest score [x] x where
  scored := hx
  place := ⟨[], [], rfl, by simp, by simp⟩

theorem le (h : IsFirstBest score items best) : ∀ x ∈ items, score x ≤ score best := by
  obtain ⟨hscored, front, rest, rfl, hfront, hrest⟩ := h
  intro x hx
  rcases List.mem_append.mp hx with hx | hx
  · exact Double.le_of_lt (hfront x hx)
  · rcases List.mem_cons.mp hx with rfl | hx
    · exact Double.le_self hscored
    · exact hrest x hx

theorem concat (h : IsFirstBest score items best) (hx : score x ≤ score best) :
    IsFirstBest score (items ++ [x]) best := by
  obtain ⟨hscored, front, rest, rfl, hfront, hrest⟩ := h
  refine ⟨hscored, front, rest ++ [x], by simp, hfront, ?_⟩
  intro y hy
  rcases List.mem_append.mp hy with hy | hy
  · exact hrest y hy
  · rw [List.mem_singleton.mp hy]
    exact hx

theorem concat_of_lt (h : IsFirstBest score items best) (hx : score best < score x) :
    IsFirstBest score (items ++ [x]) x where
  scored := (Double.isNaN_of_lt hx).2
  place := ⟨items, [], rfl, fun y hy => Double.lt_of_le_of_lt (h.le y hy) hx, by simp⟩

end IsFirstBest

/-! ## One pass

The pass goes from the front to the back, so the induction adds items at the end. -/

theorem bestBy?_concat (score : β → Float) (items : List β) (x : β) :
    bestBy? score (items ++ [x]) = better score (bestBy? score items) x := by
  rw [bestBy?, List.foldl_append]
  rfl

theorem bestBy?_eq_none_iff : bestBy? score items = none ↔ items = [] := by
  induction items using List.reverseRecOn with
  | nil => exact iff_of_true rfl rfl
  | append_singleton items x =>
    refine iff_of_false ?_ (by simp)
    rw [bestBy?_concat]
    unfold better
    split
    · split <;> simp
    · simp

theorem isFirstBest_bestBy? (hne : items ≠ [])
    (hscored : ∀ x ∈ items, Scalar.isNaN (score x) = false) :
    ∃ best, bestBy? score items = some best ∧ IsFirstBest score items best := by
  induction items using List.reverseRecOn with
  | nil => exact absurd rfl hne
  | append_singleton items x ih =>
    have hx := hscored x (by simp)
    rw [bestBy?_concat]
    by_cases hnil : items = []
    · subst hnil
      exact ⟨x, rfl, .singleton hx⟩
    · obtain ⟨best, hbest, hfirst⟩ := ih hnil fun y hy => hscored y (by simp [hy])
      rw [hbest]
      -- neither score is `NaN`, so that one of the two is not above the other
      rcases Double.lt_or_le hfirst.scored hx with hlt | hle
      · have hnot : ¬score x ≤ score best := fun hle => Double.not_lt_of_le hle hlt
        exact ⟨x, if_neg hnot, hfirst.concat_of_lt hlt⟩
      · exact ⟨best, if_pos hle, hfirst.concat hle⟩

/-! ## Scores that do not compare

What a `NaN` does to the pass, seen from both sides, and which items are left to compare. -/

/-- An item whose score is `NaN` replaces whatever was best. -/
theorem better_of_isNaN (hx : Scalar.isNaN (score x) = true) (best? : Option β) :
    better score best? x = some x := by
  cases best? with
  | none => rfl
  | some best =>
    refine if_neg fun hle => ?_
    obtain ⟨p, hp, -⟩ := Double.le_iff.mp hle
    rw [Double.isNaN_eq_false_iff.mpr ⟨p, hp⟩] at hx
    cases hx

/-- Whatever comes after an item whose score is `NaN` replaces it, be its score as low as it may. -/
theorem better_some_of_isNaN (hbest : Scalar.isNaN (score best) = true) (x : β) :
    better score (some best) x = some x := by
  refine if_neg fun hle => ?_
  obtain ⟨-, -, q, hq, -⟩ := Double.le_iff.mp hle
  rw [Double.isNaN_eq_false_iff.mpr ⟨q, hq⟩] at hbest
  cases hbest

/-- **A `NaN` makes a fresh start**, as long as anything follows it. Whatever was best by then is
lost. -/
theorem bestBy?_append_of_isNaN (hx : Scalar.isNaN (score x) = true) (hrest : rest ≠ []) :
    bestBy? score (front ++ x :: rest) = bestBy? score rest := by
  cases rest with
  | nil => exact absurd rfl hrest
  | cons next rest =>
    unfold bestBy?
    rw [List.foldl_append, List.foldl_cons, better_of_isNaN hx, List.foldl_cons,
      better_some_of_isNaN hx]
    rfl

/-- The items behind the last one whose score is `NaN`. If the last item has it, there are none. -/
def lastScored (score : β → Float) (items : List β) : List β :=
  items.rtakeWhile fun x => !Scalar.isNaN (score x)

theorem isNaN_of_mem_lastScored (hx : x ∈ lastScored score items) :
    Scalar.isNaN (score x) = false := by
  simpa using List.mem_rtakeWhile_imp hx

theorem lastScored_of_scored (hscored : ∀ x ∈ items, Scalar.isNaN (score x) = false) :
    lastScored score items = items := by
  rw [lastScored, List.rtakeWhile_eq_self_iff]
  intro x hx
  rw [hscored x hx]
  rfl

theorem exists_eq_append_lastScored (score : β → Float) (items : List β) :
    ∃ front, items = front ++ lastScored score items ∧
      (front = [] ∨ ∃ rest x, front = rest ++ [x] ∧ Scalar.isNaN (score x) = true) := by
  refine ⟨items.rdropWhile fun x => !Scalar.isNaN (score x), ?_, ?_⟩
  · rw [lastScored, List.rdropWhile, List.rtakeWhile, ← List.reverse_append,
      List.takeWhile_append_dropWhile, List.reverse_reverse]
  · rcases List.eq_nil_or_concat (items.rdropWhile fun x => !Scalar.isNaN (score x)) with
      hnil | ⟨rest, x, hconcat⟩
    · exact .inl hnil
    · rw [List.concat_eq_append] at hconcat
      have hne : items.rdropWhile (fun x => !Scalar.isNaN (score x)) ≠ [] := by simp [hconcat]
      have hlast := List.rdropWhile_last_not _ items hne
      simp only [hconcat, List.getLast_append_singleton] at hlast
      exact .inr ⟨rest, x, hconcat, by simpa using hlast⟩

/-- **Which item is found.** None is found in the empty list only. Of the items behind the last
`NaN` it is the earliest of the best ones, whatever stood before; with nothing behind it, it is the
last item, the one with the `NaN`. Without a `NaN` all items count. -/
theorem best_behind_last_nan (score : β → Float) (items : List β) :
    (bestBy? score items = none ↔ items = []) ∧
      (lastScored score items = [] → bestBy? score items = items.getLast?) ∧
      (lastScored score items ≠ [] → ∃ best, bestBy? score items = some best ∧
        IsFirstBest score (lastScored score items) best) ∧
      ((∀ x ∈ items, Scalar.isNaN (score x) = false) → lastScored score items = items) := by
  obtain ⟨front, hitems, hfront⟩ := exists_eq_append_lastScored score items
  refine ⟨bestBy?_eq_none_iff, ?_, ?_, lastScored_of_scored⟩
  · intro hnil
    rw [hnil, List.append_nil] at hitems
    rw [hitems]
    rcases hfront with rfl | ⟨rest, x, rfl, hx⟩
    · rfl
    · rw [bestBy?_concat, better_of_isNaN hx, List.getLast?_concat]
  · intro hne
    -- what stands in front of the last `NaN` may be left out
    have hsame : bestBy? score items = bestBy? score (lastScored score items) := by
      rcases hfront with rfl | ⟨rest, x, rfl, hx⟩
      · exact congrArg _ hitems
      · rw [List.append_assoc, List.singleton_append] at hitems
        calc bestBy? score items
            = bestBy? score (rest ++ x :: lastScored score items) := congrArg _ hitems
          _ = bestBy? score (lastScored score items) := bestBy?_append_of_isNaN hx hne
    rw [hsame]
    exact isFirstBest_bestBy? hne fun x hx => isNaN_of_mem_lastScored hx

/-- An outcome with a Sharpe ratio and nothing else. -/
def outcomeOf (sharpe : Float) : SweepOutcome Float where
  settings := .usual
  finalEquity := 0
  totalReturn := 0
  totalTrades := 0
  metrics := { Metrics.zero with sharpeRatio := sharpe }

def sharpeOf (outcome : SweepOutcome Float) : Float := outcome.metrics.sharpeRatio

/-- Of two scores around a `NaN` the second is found, although the first is higher. The item with
the `NaN` itself is not found either. -/
theorem higher_score_forgotten :
    bestBy? sharpeOf ([2, 0 / 0, 1].map outcomeOf) = some (outcomeOf 1) ∧
      outcomeOf 2 ∈ [2, 0 / 0, 1].map outcomeOf ∧
      sharpeOf (outcomeOf 1) < sharpeOf (outcomeOf 2) := by
  decide +kernel

end MarketReplay
