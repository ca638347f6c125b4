import MarketReplay.Proofs.Indicator.Trailing

/-!
# Windows under any calls

Values are pushed into a window, and now and then it is cleared. What it answers depends on its
capacity and on the values pushed since it was last cleared (`sinceClear`). What came before is
gone, although it still stands in the slots.

**`windows_are_queues`**: a window is a queue of bounded length over those values, for any numbers.
Over the rationals the sum that it carries along is the sum of the values that it holds. One
induction over the calls is enough for both (`RollingWindow.afterCalls_invariant`): what an empty
window has, and what pushing a value keeps, holds after any calls.
-/

set_option autoImplicit false

namespace MarketReplay

variable {α : Type}

/-! ## Calls

A history of a window, and the part of it that still matters. Clearing is modelled as an event in
the history and not as a new window, since a rule clears the window it has. -/

/-- What is done to a window. Questions are not among it, since they change nothing. -/
inductive WindowCall (α : Type) where
  | push (value : α)
  | clear

/-- The value that a call pushes. A clear pushes none; that it forgets what came before is told by
cutting the calls at the last of them. -/
def WindowCall.value? : WindowCall α → Option α
  | push value => some value
  | clear => none

/-- The values pushed since a window was last cleared, oldest first. They are found from the end of
the history, where the last clearing is. -/
def sinceClear (calls : List (WindowCall α)) : List α :=
  (calls.rtakeWhile fun call => call.value?.isSome).filterMap WindowCall.value?

@[simp] theorem sinceClear_push (calls : List (WindowCall α)) (value : α) :
    sinceClear (calls ++ [.push value]) = sinceClear calls ++ [value] := by
  rw [sinceClear, List.rtakeWhile_concat_pos _ _ _ rfl, List.filterMap_append]
  rfl

@[simp] theorem sinceClear_clear (calls : List (WindowCall α)) :
    sinceClear (calls ++ [.clear]) = [] := by
  rw [sinceClear, List.rtakeWhile_concat_neg _ _ _ Bool.false_ne_true]
  rfl

namespace RollingWindow

section calls

variable [Scalar α]

def afterCall (w : RollingWindow α) : WindowCall α → RollingWindow α
  | .push value => (w.push value).1
  | .clear => w.clear

/-- The window after some calls, one after the other. -/
def afterCalls (w : RollingWindow α) (calls : List (WindowCall α)) : RollingWindow α :=
  calls.foldl afterCall w

theorem afterCalls_concat (w : RollingWindow α) (calls : List (WindowCall α))
    (call : WindowCall α) : w.afterCalls (calls ++ [call]) = (w.afterCalls calls).afterCall call :=
  List.foldl_concat ..

/-- **What holds of a window and the values pushed since it was cleared**: whatever does before any
value is pushed, and still does when one is. The induction is on the calls from the end, with a case
for each kind of call; a clearing starts the history again. -/
theorem afterCalls_invariant {P : RollingWindow α → List α → Prop} {w : RollingWindow α}
    (hstart : P w [])
    (hpush : ∀ w values value, P w values → P (w.push value).1 (values ++ [value]))
    (hclear : ∀ w values, P w values → P w.clear []) (calls : List (WindowCall α)) :
    P (w.afterCalls calls) (sinceClear calls) := by
  induction calls using List.reverseRecOn with
  | nil => exact hstart
  | append_singleton calls call ih =>
    rw [afterCalls_concat]
    cases call with
    | push value =>
      rw [sinceClear_push]
      exact hpush _ _ value ih
    | clear =>
      rw [sinceClear_clear]
      exact hclear _ _ ih

end calls

/-! ## Queues

The answers of a window in terms of the values that were pushed. Nothing here is about sums, so that
it holds for any numbers. -/

/-- A window with the capacity asked for holds the last of some values. A capacity of zero counts as
one, and the structure says so. -/
structure Queues (w : RollingWindow α) (capacity : Nat) (values : List α) : Prop where
  capacity_eq : w.capacity = Nat.max capacity 1
  toList_eq : w.toList = values.rtake w.capacity

namespace Queues

variable {w : RollingWindow α} {capacity : Nat} {values : List α}

theorem size_eq (h : w.Queues capacity values) : w.size = min values.length w.capacity :=
  size_of_toList h.toList_eq

theorem isFull_iff (h : w.Queues capacity values) :
    w.isFull = true ↔ w.capacity ≤ values.length := by
  rw [isFull, beq_iff_eq, h.size_eq]
  exact min_eq_right_iff

theorem isEmpty_iff (h : w.Queues capacity values) : w.isEmpty = true ↔ values = [] := by
  have hpos := w.capacity_pos
  rw [isEmpty, beq_iff_eq, h.size_eq, ← List.length_eq_zero_iff]
  omega

variable [Scalar α]

theorem evicted_of_lt (h : w.Queues capacity values) (hroom : values.length < w.capacity)
    (value : α) : (w.push value).2 = none := by
  have hsize := h.size_eq
  obtain ⟨-, -, hnone⟩ := push_of_room (w := w) (by omega) value
  exact hnone

/-- **The value that leaves a full window** was pushed as many pushes before as the window has room
for. It is the first of the values held, and these are the last that were pushed. -/
theorem evicted_of_le (h : w.Queues capacity values) (hfull : w.capacity ≤ values.length)
    (value : α) :
    ∃ oldest, values[values.length - w.capacity]? = some oldest ∧
      (w.push value).2 = some oldest := by
  have hsize := h.size_eq
  obtain ⟨oldest, rest, hfront, -, -, hout⟩ := push_of_full (w := w) (by omega) value
  have hlist : oldest :: rest = values.drop (values.length - w.capacity) :=
    hfront.symm.trans h.toList_eq
  have hhead := congrArg (·[0]?) hlist
  rw [List.getElem?_cons_zero, List.getElem?_drop, Nat.add_zero] at hhead
  exact ⟨oldest, hhead.symm, hout⟩

/-- **A window is a queue** after any calls. -/
theorem afterCalls (capacity : Nat) (calls : List (WindowCall α)) :
    ((RollingWindow.empty capacity).afterCalls calls).Queues capacity (sinceClear calls) := by
  refine afterCalls_invariant (P := fun w values => w.Queues capacity values) ?_ ?_ ?_ calls
  · exact ⟨rfl, by rw [toList_empty, List.rtake_nil]⟩
  · intro w values value h
    refine ⟨(capacity_push w value).trans h.capacity_eq, ?_⟩
    rw [capacity_push]
    exact toList_push h.toList_eq value
  · intro w values h
    exact ⟨h.capacity_eq, by rw [toList_clear, List.rtake_nil]⟩

end Queues

/-- Over the rationals a window carries the sum of the values that it holds, after any calls. -/
theorem trails_afterCalls (capacity : Nat) (calls : List (WindowCall ℚ)) :
    ((RollingWindow.empty capacity).afterCalls calls).Trails (sinceClear calls) := by
  refine afterCalls_invariant (P := Trails) (.empty capacity) (fun _ _ value h => h.push value) ?_ _
  intro w values h
  exact ⟨by rw [toList_clear, List.rtake_nil], by rw [toList_clear]; rfl⟩

end RollingWindow

/-! ## Means along a list

A window that moves along a list is a history of pushes without a clearing, so the means of a list
are those of its prefixes' windows. -/

section means

variable [Scalar α]

theorem length_along (w : RollingWindow α) (values : List α) :
    (movingMeans.along w values).length = values.length := by
  induction values generalizing w with
  | nil => rfl
  | cons value rest ih => rw [movingMeans.along, List.length_cons, List.length_cons, ih]

theorem length_movingMeans (values : List α) (period : Nat) :
    (movingMeans values period).length = values.length := by
  unfold movingMeans
  split
  · exact List.length_map _
  · exact length_along _ values

theorem getElem?_movingMeans_along (w : RollingWindow α) {values : List α} {i : Nat}
    (hi : i < values.length) :
    (movingMeans.along w values)[i]? = some (w.fed (values.take (i + 1))).mean? := by
  induction values generalizing w i with
  | nil => cases hi
  | cons value rest ih =>
    cases i with
    | zero => rfl
    | succ i => exact ih _ (Nat.lt_of_succ_lt_succ hi)

end means

theorem rtake_take_succ {values : List α} {i period : Nat} (hi : i < values.length)
    (hperiod : period ≤ i + 1) :
    (values.take (i + 1)).rtake period = (values.drop (i + 1 - period)).take period := by
  have hlength : (values.take (i + 1)).length = i + 1 := List.length_take_of_le hi
  have hcount : i + 1 - (i + 1 - period) = period := by omega
  rw [List.rtake, hlength, List.drop_take, hcount]

theorem getElem?_movingMeans {values : List ℚ} {period i : Nat} (hperiod : 1 ≤ period)
    (hi : i < values.length) :
    (movingMeans values period)[i]? =
      some (if i + 1 < period then none
        else some (((values.drop (i + 1 - period)).take period).sum / period)) := by
  have htrails := (RollingWindow.Trails.empty period).fed (values.take (i + 1))
  have hcapacity : (RollingWindow.empty period : RollingWindow ℚ).capacity = period :=
    Nat.max_eq_left hperiod
  have hlength : (values.take (i + 1)).length = i + 1 := List.length_take_of_le hi
  rw [movingMeans, if_neg (Nat.ne_of_gt hperiod), getElem?_movingMeans_along _ hi, htrails.mean?_eq,
    RollingWindow.capacity_fed, hcapacity, List.nil_append, hlength]
  split
  · rfl
  · rename_i hlong
    rw [lastMean, rtake_take_succ hi (Nat.le_of_not_lt hlong)]

/-- **Windows are queues** of bounded length over the values pushed since they were last cleared. A
push gives back the value that was pushed as many pushes before as the capacity says, once there is
one. Over the rationals a window has the sum of its values and, when it is full, their mean. So a
window that moves along a list has the means of its slices. -/
theorem windows_are_queues [Scalar α] (capacity : Nat) :
    let c := Nat.max capacity 1
    (∀ calls : List (WindowCall α),
      let w := (RollingWindow.empty capacity).afterCalls calls
      let pushed := sinceClear calls
      w.capacity = c ∧ w.size = min pushed.length c ∧ (w.isFull = true ↔ c ≤ pushed.length) ∧
        (w.isEmpty = true ↔ pushed = []) ∧
        ∀ value, (pushed.length < c → (w.push value).2 = none) ∧
          (c ≤ pushed.length → ∃ oldest, pushed[pushed.length - c]? = some oldest ∧
            (w.push value).2 = some oldest)) ∧
    (∀ calls : List (WindowCall ℚ),
      let w := (RollingWindow.empty capacity).afterCalls calls
      let pushed := sinceClear calls
      w.sum = (pushed.rtake (min pushed.length c)).sum ∧
        w.mean? = if pushed.length < c then none else some ((pushed.rtake c).sum / c)) ∧
    ∀ (values : List ℚ) (period : Nat), 1 ≤ period →
      (movingMeans values period).length = values.length ∧
        ∀ i < values.length, (movingMeans values period)[i]? =
          some (if i + 1 < period then none
            else some (((values.drop (i + 1 - period)).take period).sum / period)) := by
  -- the three parts share nothing but the capacity: any numbers, exact numbers, and lists
  intro c
  refine ⟨?_, ?_, ?_⟩
  · intro calls w pushed
    have hqueue : w.Queues capacity pushed := .afterCalls capacity calls
    have hcapacity : w.capacity = c := hqueue.capacity_eq
    rw [← hcapacity]
    refine ⟨rfl, hqueue.size_eq, hqueue.isFull_iff, hqueue.isEmpty_iff, fun value => ⟨?_, ?_⟩⟩
    · exact fun hroom => hqueue.evicted_of_lt hroom value
    · exact fun hfull => hqueue.evicted_of_le hfull value
  · intro calls w pushed
    have hcapacity : w.capacity = c := (RollingWindow.Queues.afterCalls capacity calls).capacity_eq
    have htrails : w.Trails pushed := RollingWindow.trails_afterCalls capacity calls
    constructor
    · rw [htrails.sum_eq, htrails.toList_eq, hcapacity, RollingWindow.rtake_min_length]
    · rw [htrails.mean?_eq, hcapacity, lastMean]
  · intro values period hperiod
    exact ⟨length_movingMeans values period, fun i hi => getElem?_movingMeans hperiod hi⟩

/-! ## A sample -/

/-- A window of two values is filled, cleared and filled again. -/
def sampleWindowCalls : List (WindowCall ℚ) := [.push 4, .push 6, .push 5, .clear, .push 1, .push 2]

theorem windows_are_queues_sample :
    let w := (RollingWindow.empty 2).afterCalls sampleWindowCalls
    sinceClear sampleWindowCalls = [1, 2] ∧ w.isFull = true ∧ (w.push 7).2 = some 1 ∧ w.sum = 3 ∧
      (1 ≤ 3 ∧ (movingMeans ([1, 2, 6, 4] : List ℚ) 3)[3]? = some (some 4)) := by
  intro w
  have hpushed : sinceClear sampleWindowCalls = [1, 2] := by decide
  obtain ⟨hqueue, hsum, hmeans⟩ := windows_are_queues (α := ℚ) 2
  obtain ⟨-, -, hfull, -, hout⟩ := hqueue sampleWindowCalls
  obtain ⟨oldest, holdest, hout⟩ := (hout 7).2 (by rw [hpushed]; decide)
  have hfirst : oldest = 1 := by
    rw [hpushed] at holdest
    exact (Option.some.inj holdest).symm
  refine ⟨hpushed, hfull.mpr (by rw [hpushed]; decide), hfirst ▸ hout, ?_, by decide, ?_⟩
  · refine (hsum sampleWindowCalls).1.trans ?_
    rw [hpushed]
    decide +kernel
  · refine ((hmeans [1, 2, 6, 4] 3 (by decide)).2 3 (by decide)).trans ?_
    decide +kernel

end MarketReplay
