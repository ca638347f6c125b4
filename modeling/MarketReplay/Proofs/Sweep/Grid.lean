import MarketReplay.Sweep

/-!
# The settings of a grid, in their order

A grid has three lists, and a choice of settings is a place in each of them. What stands at a place
(`Grid.at?`) is said without any order; the order is that of the places, fast period before slow
period before position size (`Place.Before`).

**`Grid.settings_listed`: the settings of a grid are what stands at its places, each place once and
in this order.** Equal periods in a list are different places, so that a repeated period repeats
its settings. The proof goes through the list of places with what stands there (`Grid.listed`),
which is built as the settings are.
-/

set_option autoImplicit false

namespace MarketReplay

namespace Grid

variable {α : Type}

/-- A place in each of the lists of a grid. Periods may stand in a list twice, so places say more
than settings. -/
structure Place where
  fast : Nat
  slow : Nat
  size : Nat
deriving DecidableEq, Repr

/-- The place comes first: the fast period counts before the slow one, and that before the size.
This is the order of three loops inside each other. -/
def Place.Before (p q : Place) : Prop :=
  p.fast < q.fast ∨ p.fast = q.fast ∧ (p.slow < q.slow ∨ p.slow = q.slow ∧ p.size < q.size)

/-- The settings at a place, if the grid has the place and its fast period is below the slow one. -/
def at? (g : Grid α) (p : Place) : Option (CrossSettings α) :=
  match g.fastPeriods[p.fast]?, g.slowPeriods[p.slow]?, g.positionSizes[p.size]? with
  | some fast, some slow, some size => if fast < slow then some ⟨fast, slow, size⟩ else none
  | _, _, _ => none

theorem at?_eq_some_iff {g : Grid α} {p : Place} {c : CrossSettings α} :
    g.at? p = some c ↔
      g.fastPeriods[p.fast]? = some c.fastPeriod ∧ g.slowPeriods[p.slow]? = some c.slowPeriod ∧
        g.positionSizes[p.size]? = some c.positionSize ∧ c.fastPeriod < c.slowPeriod := by
  unfold at?
  split
  · rename_i fast slow size hfast hslow hsize
    rw [hfast, hslow, hsize]
    constructor
    · intro h
      split at h
      · rename_i hlt
        cases h
        exact ⟨rfl, rfl, rfl, hlt⟩
      · cases h
    · rintro ⟨⟨⟩, ⟨⟩, ⟨⟩, hlt⟩
      exact if_pos hlt
  · rename_i hmissing
    refine iff_of_false (by simp) ?_
    rintro ⟨hfast, hslow, hsize, -⟩
    exact hmissing _ _ _ hfast hslow hsize

/-! ## The places with what stands there

The settings of a grid with a place beside each. Forgetting the places gives back the settings, and
forgetting what stands there gives the places. -/

/-- The places with one fast and one slow period, each given with its place, and their settings. -/
def listedWith (g : Grid α) (fast slow : Nat × Nat) : List (Place × CrossSettings α) :=
  if slow.1 ≤ fast.1 then []
  else g.positionSizes.zipIdx.map fun size =>
    (⟨fast.2, slow.2, size.2⟩, ⟨fast.1, slow.1, size.1⟩)

/-- The places of a grid that have settings, with these. -/
def listed (g : Grid α) : List (Place × CrossSettings α) :=
  g.fastPeriods.zipIdx.flatMap fun fast => g.slowPeriods.zipIdx.flatMap fun slow =>
    g.listedWith fast slow

theorem flatMap_zipIdx {β γ : Type} (l : List β) (f : β → List γ) :
    (l.zipIdx.flatMap fun x => f x.1) = l.flatMap f := by
  rw [← List.flatMap_map, List.zipIdx_map_fst]

theorem map_snd_listedWith (g : Grid α) (fast slow : Nat × Nat) :
    (g.listedWith fast slow).map Prod.snd =
      if slow.1 ≤ fast.1 then [] else g.positionSizes.map fun size => ⟨fast.1, slow.1, size⟩ := by
  unfold listedWith
  split
  · rfl
  · have hsizes := congrArg (List.map fun size => CrossSettings.mk fast.1 slow.1 size)
      (List.zipIdx_map_fst 0 g.positionSizes)
    rw [List.map_map] at hsizes
    rw [List.map_map]
    exact hsizes

theorem map_snd_listed (g : Grid α) : g.listed.map Prod.snd = g.settings := by
  unfold listed settings
  simp only [List.map_flatMap, map_snd_listedWith]
  rw [← flatMap_zipIdx g.fastPeriods]
  simp only [← flatMap_zipIdx g.slowPeriods]

theorem mem_listedWith {g : Grid α} {fast slow : Nat × Nat} {p : Place} {c : CrossSettings α} :
    (p, c) ∈ g.listedWith fast slow ↔
      fast = (c.fastPeriod, p.fast) ∧ slow = (c.slowPeriod, p.slow) ∧
        g.positionSizes[p.size]? = some c.positionSize ∧ c.fastPeriod < c.slowPeriod := by
  unfold listedWith
  split
  · rename_i hle
    refine iff_of_false List.not_mem_nil ?_
    rintro ⟨rfl, rfl, -, hlt⟩
    exact Nat.not_lt_of_le hle hlt
  · -- the two periods are fixed, so that the place of the size is all that varies
    rename_i hlt
    rw [List.mem_map]
    constructor
    · rintro ⟨⟨size, k⟩, hsize, ⟨⟩⟩
      exact ⟨rfl, rfl, List.mem_zipIdx_iff_getElem?.mp hsize, Nat.lt_of_not_le hlt⟩
    · rintro ⟨rfl, rfl, hsize, -⟩
      exact ⟨(c.positionSize, p.size), List.mem_zipIdx_iff_getElem?.mpr hsize, rfl⟩

theorem mem_listed {g : Grid α} {p : Place} {c : CrossSettings α} :
    (p, c) ∈ g.listed ↔ g.at? p = some c := by
  rw [at?_eq_some_iff]
  simp only [listed, List.mem_flatMap, mem_listedWith]
  constructor
  · rintro ⟨_, hfast, _, hslow, rfl, rfl, hsize, hlt⟩
    exact ⟨List.mem_zipIdx_iff_getElem?.mp hfast, List.mem_zipIdx_iff_getElem?.mp hslow, hsize, hlt⟩
  · rintro ⟨hfast, hslow, hsize, hlt⟩
    exact ⟨_, List.mem_zipIdx_iff_getElem?.mpr hfast, _, List.mem_zipIdx_iff_getElem?.mpr hslow,
      rfl, rfl, hsize, hlt⟩

/-! ## The order

The order of a nested iteration is the lexicographic order of its places, as each level lists
growing places. -/

theorem pairwise_zipIdx {β : Type} (l : List β) : l.zipIdx.Pairwise fun x y => x.2 < y.2 := by
  have hplaces : (l.zipIdx.map Prod.snd).Pairwise (· < ·) := by
    rw [List.zipIdx_map_snd]
    exact List.pairwise_lt_range'
  exact List.pairwise_map.mp hplaces

theorem pairwise_listedWith (g : Grid α) (fast slow : Nat × Nat) :
    (g.listedWith fast slow).Pairwise fun x y => Place.Before x.1 y.1 := by
  unfold listedWith
  split
  · exact List.Pairwise.nil
  · exact List.pairwise_map.mpr
      ((pairwise_zipIdx _).imp fun hsize => .inr ⟨rfl, .inr ⟨rfl, hsize⟩⟩)

theorem pairwise_listed (g : Grid α) :
    g.listed.Pairwise fun x y => Place.Before x.1 y.1 := by
  -- lists within lists: each part is in order, and all of a part comes before the next one
  refine List.pairwise_flatMap.mpr ⟨fun fast _ => List.pairwise_flatMap.mpr
    ⟨fun slow _ => g.pairwise_listedWith fast slow, ?_⟩, ?_⟩
  · refine (pairwise_zipIdx _).imp ?_
    intro slow slow' hslow x hx y hy
    obtain ⟨hxfast, rfl, -⟩ := mem_listedWith.mp hx
    obtain ⟨hyfast, rfl, -⟩ := mem_listedWith.mp hy
    exact .inr ⟨congrArg Prod.snd (hxfast.symm.trans hyfast), .inl hslow⟩
  · refine (pairwise_zipIdx _).imp ?_
    intro fast fast' hfast x hx y hy
    obtain ⟨_, -, hx⟩ := List.mem_flatMap.mp hx
    obtain ⟨_, -, hy⟩ := List.mem_flatMap.mp hy
    obtain ⟨rfl, -⟩ := mem_listedWith.mp hx
    obtain ⟨rfl, -⟩ := mem_listedWith.mp hy
    exact .inl hfast

/-- **The settings of a grid are what stands at its places**, each place once, in their order. The
lists may repeat periods, so the settings themselves may occur twice. -/
theorem settings_listed (g : Grid α) :
    ∃ places : List Place, places.Pairwise Place.Before ∧
      (∀ p, p ∈ places ↔ ∃ c, g.at? p = some c) ∧ places.map g.at? = g.settings.map some := by
  refine ⟨g.listed.map Prod.fst, List.pairwise_map.mpr g.pairwise_listed, fun p => ?_, ?_⟩
  · simp only [List.mem_map, Prod.exists, exists_and_right, exists_eq_right, mem_listed]
  · rw [← map_snd_listed, List.map_map, List.map_map]
    exact List.map_congr_left fun x hx => mem_listed.mp hx

end Grid

end MarketReplay
