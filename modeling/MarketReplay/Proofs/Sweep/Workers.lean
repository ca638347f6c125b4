import MarketReplay.Proofs.Replay.Reuse
import MarketReplay.Proofs.Sweep.Grid

/-!
# Sweeps by many workers

The runs of a sweep may be shared out among workers. A run in hand is a `Job`: it waits, it is some
way along the series, or it is over. A worker takes any job that is not over and goes on with it by
one piece, which is to begin it, to process one bar, or to sum it up (`Job.advance`); in between,
any worker may do a piece of any other job. What can come of this is `Reached`, for every number of
workers and every order in which they get to work. When all jobs are over, their outcomes are
returned in the order of the grid. When some job has failed, its fault may be returned at once,
whatever the others are doing (`Returns`).

The one idea is that a piece of work does not change what a job will come to
(`Job.outcome_advance`). A job reads the bars, the account and its own session, and the workers
share nothing else; so what every job comes to stays what its run alone comes to, in every order of
work (`Reached.outcome_eq`). Work comes to an end, since each piece leaves less to do
(`Job.left_advance`).

**`sweep_by_workers` puts this together with the order of the grid.**
-/

set_option autoImplicit false

namespace MarketReplay

variable {α : Type} [Scalar α] [RootPower α]

/-! ## One run alone

A run of a sweep without the sweep: its own checks, a new rule, and the replay. What is kept of it
is a part of its record. -/

/-- The run of one choice of settings alone: the account and the settings are checked, and the
series is replayed with a fresh rule. -/
def runAlone (bars : List (Bar α)) (costs : AccountSettings α) (c : CrossSettings α) :
    Except (Fault α) (RunRecord α) := do
  costs.check
  let rule ← AverageCross.ofSettings c
  (replay rule.source costs none bars rule.fresh).2

/-- What a sweep keeps of a run. -/
def SweepOutcome.ofRecord (c : CrossSettings α) (record : RunRecord α) : SweepOutcome α where
  settings := c
  finalEquity := record.finalEquity
  totalReturn := record.totalReturn
  totalTrades := record.totalTrades
  metrics := Metrics.ofRecord record

theorem sweepOne_eq (bars : List (Bar α)) (costs : AccountSettings α) (c : CrossSettings α) :
    sweepOne bars costs c = (runAlone bars costs c).map (SweepOutcome.ofRecord c) := by
  unfold sweepOne runAlone
  cases costs.check with
  | error fault => rfl
  | ok =>
    cases AverageCross.ofSettings c with
    | error fault => rfl
    | ok rule =>
      simp only [bind, Except.bind]
      cases (replay rule.source costs none bars rule.fresh).2 with
      | error fault => rfl
      | ok record => rfl

theorem sweepOne_eq_ok_iff {bars : List (Bar α)} {costs : AccountSettings α} {c : CrossSettings α}
    {o : SweepOutcome α} :
    sweepOne bars costs c = .ok o ↔
      ∃ record, runAlone bars costs c = .ok record ∧ SweepOutcome.ofRecord c record = o := by
  rw [sweepOne_eq]
  cases runAlone bars costs c with
  | error fault => simp [Except.map]
  | ok record => simp [Except.map]

theorem sweepOne_eq_error_iff {bars : List (Bar α)} {costs : AccountSettings α}
    {c : CrossSettings α} {fault : Fault α} :
    sweepOne bars costs c = .error fault ↔ runAlone bars costs c = .error fault := by
  rw [sweepOne_eq]
  cases runAlone bars costs c with
  | error fault => simp [Except.map]
  | ok record => simp [Except.map]

/-! ## Jobs

A run in pieces, and what it will come to. The pieces are small enough that everything a worker
could do to a run between two looks at another run is one or several of them. -/

/-- A run of a sweep in hand. A job that waits has not been checked yet, so that even wrong settings
are found by a worker. -/
inductive Job (α : Type) where
  | waiting
  /-- The session so far, and the bars to come. -/
  | walking (session : Session α (Follower (AverageCross.State α))) (rest : List (Bar α))
  | finished (result : Except (Fault α) (SweepOutcome α))

/-- The session in which a run begins, if it is not refused. The checks come in the order in which a
run makes them, so that of two faults the same one is told. -/
def begun (bars : List (Bar α)) (costs : AccountSettings α) (c : CrossSettings α) :
    Except (Fault α) (Session α (Follower (AverageCross.State α))) := do
  costs.check
  let rule ← AverageCross.ofSettings c
  match refusal? rule.source bars with
  | some fault => .error fault
  | none => .ok (Session.start costs (rule.source.reset rule.fresh))

namespace Job

section

variable (bars : List (Bar α)) (costs : AccountSettings α) (c : CrossSettings α)

/-- The job after one more piece of work. -/
def advance : Job α → Job α
  | .waiting =>
    match begun bars costs c with
    | .ok s => .walking s bars
    | .error fault => .finished (.error fault)
  | .walking s (bar :: rest) =>
    match s.step (AverageCross.rule c).source costs bar with
    | (s, none) => .walking s rest
    | (_, some fault) => .finished (.error fault)
  | .walking s [] => .finished (.ok (.ofRecord c (s.toRecord costs true)))
  | .finished result => .finished result

/-- What a session comes to when it goes on to the end of the series. A piece of work changes the
session and not this, which is the invariant of a walking job. -/
def carriedOn (s : Session α (Follower (AverageCross.State α))) (rest : List (Bar α)) :
    Except (Fault α) (SweepOutcome α) :=
  match s.walk (AverageCross.rule c).source costs rest with
  | (s, none) => .ok (.ofRecord c (s.toRecord costs true))
  | (_, some fault) => .error fault

/-- What a job comes to in the end, if nobody but the workers touches it. It is defined from the job
as it stands, without a word about who goes on with it. -/
def outcome : Job α → Except (Fault α) (SweepOutcome α)
  | .waiting => sweepOne bars costs c
  | .walking s rest => carriedOn costs c s rest
  | .finished result => result

/-- The pieces of work that are left in a job, at most. A job that fails leaves pieces undone. It
gets smaller with every piece, and that is why work ends. -/
def left : Job α → Nat
  | .waiting => bars.length + 2
  | .walking _ rest => rest.length + 1
  | .finished _ => 0

end

def isFinished : Job α → Bool
  | .finished _ => true
  | _ => false

variable {bars : List (Bar α)} {costs : AccountSettings α} {c : CrossSettings α} {job : Job α}

theorem eq_finished_of_isFinished (h : job.isFinished = true) :
    job = .finished (job.outcome bars costs c) := by
  cases job with
  | finished result => rfl
  | waiting => cases h
  | walking s rest => cases h

/-- A run that is made in pieces is the run that is made at once. This is where the checks, the
start and the walk of a replay are taken apart. -/
theorem sweepOne_eq_begun (bars : List (Bar α)) (costs : AccountSettings α)
    (c : CrossSettings α) :
    sweepOne bars costs c = (begun bars costs c).bind fun s => carriedOn costs c s bars := by
  rw [sweepOne_eq]
  unfold runAlone begun
  cases costs.check with
  | error fault => rfl
  | ok =>
    cases hrule : AverageCross.ofSettings c with
    | error fault => rfl
    | ok rule =>
      obtain ⟨-, rfl⟩ := checked_eq_ok_iff.mp hrule
      simp only [bind, Except.bind, replay_result]
      cases refusal? (AverageCross.rule c).source bars with
      | some fault => rfl
      | none =>
        -- without a limit all bars are reached, so that the run is completed
        simp only [carriedOn, reached, beq_self_eq_true]
        rcases Session.walk (AverageCross.rule c).source costs _ bars with ⟨s, fault | fault⟩
        · rfl
        · rfl

/-- **A piece of work does not change what a job comes to.** A session that has walked on by a bar
comes to what it would have come to. -/
theorem outcome_advance (job : Job α) :
    (job.advance bars costs c).outcome bars costs c = job.outcome bars costs c := by
  cases job with
  | finished result => rfl
  | waiting =>
    show _ = sweepOne bars costs c
    rw [sweepOne_eq_begun, advance]
    cases begun bars costs c with
    | error fault => rfl
    | ok s => rfl
  | walking s rest =>
    cases rest with
    | nil => rfl
    | cons bar rest =>
      rw [advance]
      show _ = carriedOn costs c s (bar :: rest)
      -- the bar that is processed is the first of the bars to come
      unfold carriedOn
      rcases h : s.step (AverageCross.rule c).source costs bar with ⟨s', fault | fault⟩
      · rw [Session.walk_cons_of_ok h]
        rfl
      · rw [Session.walk_cons_of_fault h]
        rfl

/-- **A piece of work leaves less to do.** The measure is a bound and not a count, since a job may
end early. -/
theorem left_advance (hopen : job.isFinished = false) :
    (job.advance bars costs c).left bars < job.left bars := by
  cases job with
  | finished result => cases hopen
  | waiting =>
    rw [advance]
    split <;> simp only [left] <;> omega
  | walking s rest =>
    cases rest with
    | nil => exact Nat.zero_lt_one
    | cons bar rest =>
      rw [advance]
      split <;> simp only [left, List.length_cons] <;> omega

end Job

/-! ## Workers

All orders of work at once, as a relation. The number of workers does not appear in it: with one or
with many, what happens is a sequence of pieces. -/

section workers

variable (bars : List (Bar α)) (costs : AccountSettings α) (choices : List (CrossSettings α))

/-- Some worker does a piece of some job that is not over. Which worker is not said: a job has its
own objects, and nothing in it tells who does the work. -/
inductive Work : List (Job α) → List (Job α) → Prop
  | piece {jobs : List (Job α)} (i : Nat) {c : CrossSettings α} {job : Job α}
      (hchoice : choices[i]? = some c) (hjob : jobs[i]? = some job)
      (hopen : job.isFinished = false) :
      Work jobs (jobs.set i (job.advance bars costs c))

/-- What the jobs may look like after some work, in any order. Pieces that are done at the same time
are done here one after the other, in either order, and jobs that share nothing come to the same in
both. -/
inductive Reached : List (Job α) → Prop
  | start : Reached (choices.map fun _ => .waiting)
  | work {jobs jobs' : List (Job α)} (hreached : Reached jobs)
      (hwork : Work bars costs choices jobs jobs') : Reached jobs'

end workers

/-- What may be returned: the outcomes of all jobs in their order, or a fault of one of them. Which
fault is returned when several jobs fail is left open, as it depends on who is first. -/
inductive Returns (jobs : List (Job α)) : Except (Fault α) (List (SweepOutcome α)) → Prop
  | outcomes {outcomes : List (SweepOutcome α)}
      (hover : jobs = outcomes.map fun o => .finished (.ok o)) : Returns jobs (.ok outcomes)
  | fault {fault : Fault α} (hfailed : .finished (.error fault) ∈ jobs) :
      Returns jobs (.error fault)

section

variable {bars : List (Bar α)} {costs : AccountSettings α} {choices : List (CrossSettings α)}
  {jobs jobs' : List (Job α)}

/-- **Every job stays on the way to what its run alone comes to.** This is the invariant of the
whole; it holds before the first piece and is kept by every one. -/
theorem Reached.outcome_eq (h : Reached bars costs choices jobs) :
    jobs.length = choices.length ∧ ∀ (i : Nat) (hi : i < choices.length) (hi' : i < jobs.length),
      jobs[i].outcome bars costs choices[i] = sweepOne bars costs choices[i] := by
  induction h with
  | start =>
    refine ⟨List.length_map _, fun i hi hi' => ?_⟩
    rw [List.getElem_map]
    rfl
  | work hreached hwork ih =>
    obtain ⟨hlength, ih⟩ := ih
    cases hwork with
    | piece i hchoice hjob hopen =>
      refine ⟨(List.length_set ..).trans hlength, fun k hk hk' => ?_⟩
      rw [List.getElem_set]
      split
      · -- the job that was worked on, and then all the others
        subst_vars
        obtain ⟨-, rfl⟩ := List.getElem?_eq_some_iff.mp hchoice
        obtain ⟨-, rfl⟩ := List.getElem?_eq_some_iff.mp hjob
        rw [Job.outcome_advance]
        exact ih ..
      · exact ih ..

theorem sum_map_set_lt {β : Type} {f : β → Nat} {x y : β} :
    ∀ {l : List β} {i : Nat}, l[i]? = some x → f y < f x →
      ((l.set i y).map f).sum < (l.map f).sum
  | a :: l, 0, h, hlt => by
    cases h
    simpa using hlt
  | a :: l, i + 1, h, hlt => by
    have ih := sum_map_set_lt (l := l) (i := i) h hlt
    simpa using ih

/-- **Work comes to an end**, in whatever order it is done. The pieces left in all jobs together
become fewer with each. -/
theorem work_wellFounded (bars : List (Bar α)) (costs : AccountSettings α)
    (choices : List (CrossSettings α)) :
    WellFounded fun later earlier : List (Job α) => Work bars costs choices earlier later := by
  refine Subrelation.wf ?_ (measure fun jobs : List (Job α) => (jobs.map (Job.left bars)).sum).wf
  rintro later earlier ⟨i, -, hjob, hopen⟩
  exact sum_map_set_lt hjob (Job.left_advance hopen)

theorem Reached.finished (h : Reached bars costs choices jobs)
    (hdone : ∀ later, ¬Work bars costs choices jobs later) :
    jobs = choices.map fun c => .finished (sweepOne bars costs c) := by
  obtain ⟨hlength, houtcome⟩ := h.outcome_eq
  refine List.ext_getElem (hlength.trans (List.length_map _).symm) fun i hi hi' => ?_
  have hi'' : i < choices.length := hlength ▸ hi
  rw [List.getElem_map, ← houtcome i hi'' hi]
  refine Job.eq_finished_of_isFinished ?_
  by_contra hopen
  exact hdone _ (.piece i (List.getElem?_eq_getElem hi'') (List.getElem?_eq_getElem hi)
    (Bool.eq_false_iff.mpr hopen))

theorem Reached.finishes (h : Reached bars costs choices jobs) :
    Reached bars costs choices (choices.map fun c => .finished (sweepOne bars costs c)) := by
  induction jobs using (work_wellFounded bars costs choices).induction with
  | h jobs ih =>
    by_cases hdone : ∀ later, ¬Work bars costs choices jobs later
    · exact h.finished hdone ▸ h
    · obtain ⟨later, hwork⟩ := not_forall_not.mp hdone
      exact ih later hwork (h.work hwork)

/-! ## What is returned

The way back from jobs to runs alone. Since every job stays on the way to what its run alone comes
to, there is no difference between them once a job is over. -/

theorem Reached.sweepOne_of_mem (h : Reached bars costs choices jobs)
    {result : Except (Fault α) (SweepOutcome α)} (hmem : .finished result ∈ jobs) :
    ∃ c ∈ choices, sweepOne bars costs c = result := by
  obtain ⟨hlength, houtcome⟩ := h.outcome_eq
  obtain ⟨i, hi, hjob⟩ := List.getElem_of_mem hmem
  have hi' : i < choices.length := hlength ▸ hi
  refine ⟨choices[i], List.getElem_mem hi', ?_⟩
  rw [← houtcome i hi' hi, hjob]
  rfl

theorem Reached.sweepOne_of_returns (h : Reached bars costs choices jobs)
    {outcomes : List (SweepOutcome α)} (hreturns : Returns jobs (.ok outcomes)) :
    List.Forall₂ (fun c o => sweepOne bars costs c = .ok o) choices outcomes := by
  cases hreturns with
  | outcomes hover =>
    subst hover
    obtain ⟨hlength, houtcome⟩ := h.outcome_eq
    rw [List.length_map] at hlength
    refine List.forall₂_iff_get.mpr ⟨hlength.symm, fun i hi hi' => ?_⟩
    have hjob := houtcome i hi (by rwa [List.length_map])
    rw [List.getElem_map] at hjob
    exact hjob.symm

theorem Reached.sweepOne_of_fault (h : Reached bars costs choices jobs) {fault : Fault α}
    (hreturns : Returns jobs (.error fault)) :
    ∃ c ∈ choices, sweepOne bars costs c = .error fault := by
  cases hreturns with
  | fault hfailed => exact h.sweepOne_of_mem hfailed

/-- One run after another, up to the first fault, is one of the ways to work. -/
theorem returns_mapM (bars : List (Bar α)) (costs : AccountSettings α)
    (choices : List (CrossSettings α)) :
    Returns (choices.map fun c => .finished (sweepOne bars costs c))
      (choices.mapM (sweepOne bars costs)) := by
  induction choices with
  | nil => exact .outcomes rfl
  | cons c rest ih =>
    rw [List.mapM_cons, List.map_cons]
    cases sweepOne bars costs c with
    | error fault => exact .fault List.mem_cons_self
    | ok o =>
      generalize rest.mapM (sweepOne bars costs) = result at ih ⊢
      cases ih with
      | outcomes hover => exact .outcomes (congrArg _ hover)
      | fault hfailed => exact .fault (List.mem_cons_of_mem _ hfailed)

end

/-- **A sweep is its runs alone, in whatever order the workers get to them.** The settings of the
grid are what stands at its places, each place once and in their order. Then, whatever the workers
have done when the sweep returns,

* it returns outcomes exactly if every run alone succeeds, one for each choice of settings, in the
  order of the grid, and with what the run alone comes to;
* a fault that it returns is the fault of some run alone.

No order of work goes on for ever or gets stuck before something can be returned; and to make one
run after another, as `sweep` does, is one of these orders. -/
theorem sweep_by_workers (bars : List (Bar α)) (g : Grid α) (costs : AccountSettings α) :
    (∃ places : List Grid.Place, places.Pairwise Grid.Place.Before ∧
      (∀ p, p ∈ places ↔ ∃ c, g.at? p = some c) ∧ places.map g.at? = g.settings.map some) ∧
    (∀ jobs r, Reached bars costs g.settings jobs → Returns jobs r →
      ((∃ outcomes, r = .ok outcomes) ↔
        ∀ c ∈ g.settings, ∃ record, runAlone bars costs c = .ok record) ∧
      (∀ outcomes, r = .ok outcomes →
        List.Forall₂ (fun c o => ∃ record, runAlone bars costs c = .ok record ∧
          SweepOutcome.ofRecord c record = o) g.settings outcomes) ∧
      ∀ fault, r = .error fault → ∃ c ∈ g.settings, runAlone bars costs c = .error fault) ∧
    (WellFounded fun later earlier => Work bars costs g.settings earlier later) ∧
    (∀ jobs, Reached bars costs g.settings jobs →
      (∀ later, ¬Work bars costs g.settings jobs later) → ∃ r, Returns jobs r) ∧
    ∃ jobs, Reached bars costs g.settings jobs ∧ Returns jobs (sweep bars g costs) := by
  refine ⟨g.settings_listed, ?_, work_wellFounded bars costs g.settings, ?_, ?_⟩
  · intro jobs r hreached hreturns
    have hok : ∀ outcomes, r = .ok outcomes →
        List.Forall₂ (fun c o => sweepOne bars costs c = .ok o) g.settings outcomes := by
      rintro outcomes rfl
      exact hreached.sweepOne_of_returns hreturns
    have hfault : ∀ fault, r = .error fault →
        ∃ c ∈ g.settings, runAlone bars costs c = .error fault := by
      rintro fault rfl
      obtain ⟨c, hc, hrun⟩ := hreached.sweepOne_of_fault hreturns
      exact ⟨c, hc, sweepOne_eq_error_iff.mp hrun⟩
    refine ⟨⟨?_, ?_⟩, fun outcomes hr => ?_, hfault⟩
    · rintro ⟨outcomes, hr⟩ c hc
      obtain ⟨i, hi, rfl⟩ := List.getElem_of_mem hc
      -- the outcome at the place of the choice is that of its run
      obtain ⟨hlength, hruns⟩ := List.forall₂_iff_get.mp (hok outcomes hr)
      obtain ⟨record, hrecord, -⟩ := sweepOne_eq_ok_iff.mp (hruns i hi (hlength ▸ hi))
      exact ⟨record, hrecord⟩
    · intro hall
      cases hr : r with
      | ok outcomes => exact ⟨outcomes, rfl⟩
      | error fault =>
        obtain ⟨c, hc, hrun⟩ := hfault fault hr
        obtain ⟨record, hrecord⟩ := hall c hc
        rw [hrun] at hrecord
        cases hrecord
    · exact (hok outcomes hr).imp fun c o hrun => sweepOne_eq_ok_iff.mp hrun
  · intro jobs hreached hdone
    rw [hreached.finished hdone]
    exact ⟨_, returns_mapM bars costs g.settings⟩
  · exact ⟨_, Reached.start.finishes, returns_mapM bars costs g.settings⟩

/-- The closing prices of the sample bars, as doubles. -/
def sampleSeries : List (Bar Float) :=
  [10, 9, 12, 11, 15].zipIdx.map fun (price, i) => .ofPrices (i : Int) price price price price 1

/-- A grid whose longer period needs more bars than there are. -/
def hastyGrid : Grid Float := ⟨[1, 2], [2, 9], [0.5]⟩

/-- The sample series is long enough for a grid of short periods, and what is returned for it are
three outcomes. With a longer period a worker may take the last job first: its fault is returned
while the other jobs still wait, and it is that of the run alone. -/
theorem sweep_by_workers_sample :
    (∃ jobs outcomes, Reached sampleSeries .usual (Grid.ofPeriods [1, 2] [2, 3]).settings jobs ∧
      Returns jobs (.ok outcomes) ∧ outcomes.length = 3) ∧
    ∃ jobs fault, Reached sampleSeries .usual hastyGrid.settings jobs ∧
      jobs[0]?.map Job.isFinished = some false ∧ Returns jobs (.error fault) ∧
      ∃ c ∈ hastyGrid.settings, runAlone sampleSeries .usual c = .error fault := by
  constructor
  · obtain ⟨-, hreturned, -, -, jobs, hreached, hreturns⟩ :=
      sweep_by_workers sampleSeries (Grid.ofPeriods [1, 2] [2, 3]) .usual
    obtain ⟨hok, houtcomes, -⟩ := hreturned jobs _ hreached hreturns
    have hall : ∀ c ∈ (Grid.ofPeriods [1, 2] [2, 3]).settings,
        (runAlone sampleSeries .usual c).isOk = true := by
      decide +kernel
    have hrecords : ∀ c ∈ (Grid.ofPeriods [1, 2] [2, 3]).settings,
        ∃ record, runAlone sampleSeries .usual c = .ok record := by
      intro c hc
      have hrun := hall c hc
      cases h : runAlone sampleSeries .usual c with
      | ok record => exact ⟨record, rfl⟩
      | error fault => rw [h] at hrun; cases hrun
    obtain ⟨outcomes, hsweep⟩ := hok.mpr hrecords
    refine ⟨jobs, outcomes, hreached, hsweep ▸ hreturns, ?_⟩
    rw [← (houtcomes outcomes hsweep).length_eq]
    decide +kernel
  · have hstart : Reached sampleSeries .usual hastyGrid.settings _ := .start
    have hreached := hstart.work (.piece 2 (c := ⟨2, 9, 0.5⟩) rfl rfl rfl)
    have hfailed : Returns (α := Float) [.waiting, .waiting, .finished
        (.error (.accountSetting "bars" (.tooShort 5 9 "ma_cross")))]
        (.error (.accountSetting "bars" (.tooShort 5 9 "ma_cross"))) :=
      .fault (List.mem_cons_of_mem _ (List.mem_cons_of_mem _ List.mem_cons_self))
    exact ⟨_, _, hreached, rfl, hfailed,
      ((sweep_by_workers sampleSeries hastyGrid .usual).2.1 _ _ hreached hfailed).2.2 _ rfl⟩

end MarketReplay
