import MarketReplay.Records.Results

/-!
# Reports as documents

The two documents that the program prints: of one run, with all its trades and its whole curve, and
of a sweep, with a summary of each run. What was cleaned away stands in both, because a run can only
be judged together with the series it was made on.
-/

set_option autoImplicit false

namespace MarketReplay.Report

variable {α : Type} [Scalar α]

/-- The document of one run. -/
def runDocument (rule : String) (cleaning : CleaningReport) (r : RunRecord α) (m : Metrics α) :
    Json α :=
  .object [
    ("strategy", .string rule),
    ("cleaning", cleaning.toJson),
    ("result", r.toJson),
    ("metrics", m.toJson)]

/-- The document of a sweep. -/
def sweepDocument (cleaning : CleaningReport) (best : Option (SweepOutcome α))
    (outcomes : List (SweepOutcome α)) : Json α :=
  .object [
    ("cleaning", cleaning.toJson),
    ("best_by_sharpe", match best with | some o => o.toJson | none => .null),
    ("outcomes", .list (outcomes.map SweepOutcome.toJson))]

end MarketReplay.Report
