import Mathlib.Data.Fin.VecNotation
import Mathlib.Data.Fintype.Basic
import Mathlib.Data.List.FinRange
import Mathlib.Logic.Equiv.Defs
import MarketReplay.Proofs.Cleaning.Incremental

/-!
# The order of arrival

Of the order in which bars arrive, cleaning looks at one thing: which of the sound bars of a time
comes last. Bars that cannot be may arrive anywhere, and bars of different times in any order.

`Reordered` says what may happen to an input: its bars are carried to other places and get any
qualities, and only sound bars of one time must not overtake each other. **Cleaning does not see the
difference** (`clean_reordered`): the fault is the same, or the series and each count of its report.

The places carry the proof. Those of the sound bars of one time are a sorted list, and carried over
they are a sorted list with the right members, hence the right list (`Reordered.filter_eq`).
-/

set_option autoImplicit false

namespace MarketReplay

variable {α : Type} [Scalar α]

/-- The bars of a list carried to other places, with other qualities. Two sound bars of one time
stay in order. -/
def Reordered (bars bars' : List (Bar α)) : Prop :=
  ∃ place : Fin bars.length ≃ Fin bars'.length,
    (∀ i, bars'[place i].unmarked = bars[i].unmarked) ∧
    ∀ i j, i < j → bars[i].Sound → bars[j].Sound → bars[i].timestamp = bars[j].timestamp →
      place i < place j

/-- The values that pass a test, by their places. A filter forgets where its values stood, and the
proofs below need to know. -/
theorem filter_eq_map_places {β : Type} (p : β → Bool) (l : List β) :
    l.filter p =
      ((List.finRange l.length).filter fun i => p l[i]).map fun i => l[i] := by
  conv_lhs => rw [← List.map_getElem_finRange l, List.filter_map]
  rfl

namespace Reordered

variable {bars bars' : List (Bar α)}

/-- No bar is lost and none is added. The places of the one list, carried over, are all places of
the other, each once. -/
theorem perm (h : Reordered bars bars') :
    (bars.map Bar.unmarked).Perm (bars'.map Bar.unmarked) := by
  obtain ⟨place, hsame, -⟩ := h
  -- a bijection of places lists every place of the other series once
  have hplaces : ((List.finRange bars.length).map place).Perm (List.finRange bars'.length) := by
    refine (List.perm_ext_iff_of_nodup ?_ (List.nodup_finRange _)).mpr fun j => ?_
    · exact (List.nodup_finRange _).map place.injective
    · simp only [List.mem_map, List.mem_finRange, true_and, iff_true]
      exact place.surjective j
  calc bars.map Bar.unmarked
      = (List.finRange bars.length).map fun i => bars[i].unmarked := by
        conv_lhs => rw [← List.map_getElem_finRange bars, List.map_map]
        rfl
    _ = ((List.finRange bars.length).map place).map fun j => bars'[j].unmarked := by
        rw [List.map_map]
        exact List.map_congr_left fun i _ => (hsame i).symm
    List.Perm _ ((List.finRange bars'.length).map fun j => bars'[j].unmarked) := hplaces.map _
    _ = bars'.map Bar.unmarked := by
        conv_rhs => rw [← List.map_getElem_finRange bars', List.map_map]
        rfl

/-- The sound bars of a time are the same, in the same order. Their places, carried over, are still
increasing, because of these bars none may overtake another, and an increasing list of places is
known by its members. -/
theorem filter_eq (h : Reordered bars bars') (time : Int) :
    (bars.filter fun b => decide (b.timestamp = time) && b.isValid).map Bar.unmarked =
      (bars'.filter fun b => decide (b.timestamp = time) && b.isValid).map Bar.unmarked := by
  obtain ⟨place, hsame, hkeeps⟩ := h
  let wanted := fun b : Bar α => decide (b.timestamp = time) && b.isValid
  have hwanted : ∀ i, wanted bars'[place i] = wanted bars[i] := by
    intro i
    show wanted bars'[place i].unmarked = wanted bars[i].unmarked
    rw [hsame]
  have hplaces : ((List.finRange bars.length).filter fun i => wanted bars[i]).map place =
      (List.finRange bars'.length).filter fun j => wanted bars'[j] := by
    refine List.Pairwise.eq_of_mem_iff (r := (· < ·)) ?_ ?_ fun j => ?_
    · -- the places carried over are still in order, since all of these bars are sound
      rw [List.pairwise_map]
      refine ((List.pairwise_lt_finRange _).filter _).imp_of_mem ?_
      intro i j hi hj hlt
      simp only [wanted, List.mem_filter, Bool.and_eq_true, decide_eq_true_eq] at hi hj
      exact hkeeps i j hlt (Bar.isValid_iff_sound.mp hi.2.2) (Bar.isValid_iff_sound.mp hj.2.2)
        (hi.2.1.trans hj.2.1.symm)
    · exact (List.pairwise_lt_finRange _).filter _
    · simp only [List.mem_map, List.mem_filter, List.mem_finRange, true_and]
      constructor
      · rintro ⟨i, hi, rfl⟩
        rw [hwanted]
        exact hi
      · intro hj
        obtain ⟨i, rfl⟩ := place.surjective j
        rw [hwanted] at hj
        exact ⟨i, hj, rfl⟩
  calc (bars.filter wanted).map Bar.unmarked
      = ((List.finRange bars.length).filter fun i => wanted bars[i]).map
          fun i => bars'[place i].unmarked := by
        rw [filter_eq_map_places wanted bars, List.map_map]
        exact List.map_congr_left fun i _ => (hsame i).symm
    _ = (((List.finRange bars.length).filter fun i => wanted bars[i]).map place).map
          fun j => bars'[j].unmarked := by
        rw [List.map_map]
        rfl
    _ = (bars'.filter wanted).map Bar.unmarked := by
        rw [hplaces, filter_eq_map_places wanted bars', List.map_map]
        rfl

theorem kept_eq (h : Reordered bars bars') :
    (ordered bars).map Bar.unmarked = (ordered bars').map Bar.unmarked := by
  rw [← ordered_map_unmarked, ← ordered_map_unmarked]
  refine ordered_eq_of_lastAt? fun time => ?_
  unfold lastAt?
  rw [List.filter_filter, List.filter_filter, List.filter_map, List.filter_map]
  exact congrArg List.getLast? (h.filter_eq time)

end Reordered

omit [Scalar α] in
/-- Tests that do not look at qualities pass as many bars of the one list as of the other. All
counts of the report are of this kind. -/
theorem countP_eq_of_perm {bars bars' : List (Bar α)} {p : Bar α → Bool}
    (h : (bars.map Bar.unmarked).Perm (bars'.map Bar.unmarked))
    (hp : ∀ b : Bar α, p b.unmarked = p b) : bars.countP p = bars'.countP p := by
  have hcount := h.countP_eq p
  rw [List.countP_map, List.countP_map] at hcount
  have hcomp : p ∘ Bar.unmarked = p := funext hp
  rwa [hcomp] at hcount

/-- The bars that are kept and the bars there were, both without their qualities, decide what comes
of an input. The first decide the series or the fault, and the second the counts of what was
dropped. -/
theorem clean_eq_of_kept {settings : CleaningSettings α} {bars bars' : List (Bar α)}
    (hkept : (ordered bars).map Bar.unmarked = (ordered bars').map Bar.unmarked)
    (hperm : (bars.map Bar.unmarked).Perm (bars'.map Bar.unmarked)) :
    clean settings bars = clean settings bars' := by
  have hseries : (clean settings bars).map Prod.fst = (clean settings bars').map Prod.fst :=
    map_fst_clean_of_kept hkept
  cases hclean : clean settings bars' with
  -- a fault is in the first component, which the kept bars decide
  | error fault =>
    rw [hclean] at hseries
    cases hbars : clean settings bars with
    | error fault' =>
      rw [hbars] at hseries
      cases hseries
      rfl
    | ok result =>
      rw [hbars] at hseries
      cases hseries
  | ok result =>
    obtain ⟨series, report⟩ := result
    obtain ⟨hfinished, hreport⟩ := clean_eq_ok_iff.mp hclean
    have hlength := congrArg List.length hkept
    have hinput := hperm.length_eq
    simp only [List.length_map] at hlength hinput
    have hmarks : marksOf settings (ordered bars) = marksOf settings (ordered bars') := by
      rw [← marksOf_map_unmarked, hkept, marksOf_map_unmarked]
    refine clean_eq_ok_iff.mpr ⟨?_, ?_⟩
    · rw [← map_fst_clean, hseries, hclean]
      rfl
    · have hvalid : bars.countP Bar.isValid = bars'.countP Bar.isValid :=
        countP_eq_of_perm hperm fun _ => rfl
      have hdefect : ∀ defect, bars.countP (fun b => b.defect? == some defect) =
          bars'.countP fun b => b.defect? == some defect :=
        fun _ => countP_eq_of_perm hperm fun _ => rfl
      rw [hreport, hlength, hinput, hmarks, hvalid, hdefect, hdefect, hdefect]

/-- **Cleaning depends on the bars and on the order of the sound bars of each time, and on nothing
else.** Bars carried to other places and given other qualities are cleaned to the same fault, or to
the same series with the same report, as long as no sound bar overtakes one of its own time. -/
theorem clean_reordered (settings : CleaningSettings α) {bars bars' : List (Bar α)}
    (h : Reordered bars bars') : clean settings bars = clean settings bars' :=
  clean_eq_of_kept h.kept_eq h.perm

/-- The raw bars in another order, some of them marked already. The two sound bars of one time have
changed places with everything but each other. -/
def sampleShuffled : List (Bar Rat) :=
  [{ Bar.ofPrices 360 20 21 19 20 4 with quality := .gap }, .ofPrices 0 10 11 9 10 (-1),
    .ofPrices 60 11 5 10 11 7, { Bar.ofPrices 60 10 11 9 10 5 with quality := .suspicious },
    .ofPrices 60 11 12 10 11 6, .ofPrices 120 10 11 9 10 4]

/-- Where the shuffled bars were put. -/
def samplePlaces : Fin 6 ≃ Fin 6 where
  toFun := ![5, 3, 4, 2, 1, 0]
  invFun := ![5, 4, 3, 1, 2, 0]
  left_inv := by
    unfold Function.LeftInverse
    decide
  right_inv := by
    unfold Function.RightInverse Function.LeftInverse
    decide

theorem reordered_sampleShuffled : Reordered sampleRaw sampleShuffled :=
  ⟨samplePlaces, by decide +kernel, by decide +kernel⟩

/-- The shuffled bars are cleaned as the raw ones are; three are left of them, of the two sound ones
of one time the later. -/
theorem clean_reordered_sample :
    Reordered sampleRaw sampleShuffled ∧
      clean .usual sampleRaw = clean .usual sampleShuffled ∧
      (ordered sampleShuffled).map Bar.closing = [11, 10, 20] := by
  refine ⟨reordered_sampleShuffled, clean_reordered .usual reordered_sampleShuffled, ?_⟩
  have hkept := congrArg (List.map Bar.closing) reordered_sampleShuffled.kept_eq
  rw [List.map_map, List.map_map, ordered_sampleRaw] at hkept
  exact hkept.symm

end MarketReplay
