import Mathlib.Data.List.Dedup
import Uptimepage.Series.Runs
import Uptimepage.Writer.Decide

/-!
# The lookback window

`process_target` decides on the results inside the monitor's window only.  The window holds
every confirmed run a steady series can show, so it opens exactly what the whole history
would open; but the good run of a region that was up all along is cut at the edge of the
window, and seems to begin there.  `same_kind_iff_reached` says when that does not show.
-/

namespace Uptimepage

/-- Consecutive results of a region, and its newest and `now`, are at most two intervals
apart. -/
def Steady (target : ProbedTarget) (tagged : List (String × CheckResult)) (now : Time) : Prop :=
  ∀ group ∈ byRegion tagged, (group.2.map (·.timestamp) ++ [now]).IsChain
    fun a b => b - a ≤ seconds (2 * target.interval)

/-- An incident that no recovery explains is seen in the window of every region that is
up: its good run has a result there that is not later than the incident. -/
def Reached (lookback : Int) (target : ProbedTarget) (opens : List OpenIncident)
    (tagged : List (String × CheckResult)) (now : Time) : Prop :=
  ∀ inc ∈ opens.find? (·.region = none),
    let groups := byRegion tagged
    let threshold := max target.alertConfirmations 1
    (confirmedBad threshold (verdicts groups)).length < target.regionPolicy.required groups.length →
    (∀ ended ∈ recoveries threshold (verdicts groups), ended ≤ inc.startedAt) →
    ∀ group ∈ groups, threshold ≤ (trailingGoodRun group.2).length →
      ∃ r ∈ trailingGoodRun group.2, now - lookbackFor lookback target ≤ r.timestamp ∧
        r.timestamp ≤ inc.startedAt

/-! ## Groups -/

variable {tagged : List (String × CheckResult)}

section

variable (lookback : Int) {target : ProbedTarget} {opens : List OpenIncident}
  {tagged : List (String × CheckResult)} {now : Time} {group : String × List CheckResult}

/-- The results inside the window. -/
def inWindow (lookback : Int) (target : ProbedTarget) (now : Time) (r : CheckResult) : Bool :=
  now - lookbackFor lookback target ≤ r.timestamp

def Verdict.cut (p : CheckResult → Bool) (v : Verdict) : Verdict :=
  ⟨v.region, v.bad.filter p, v.good.filter p⟩

end

namespace Lookback.Sample

open Decide.Sample

/-- The outage that began in one region at two minutes. -/
def incident : OpenIncident where
  id := 9
  targetId := 7
  startedAt := seconds 120
  region := none

/-- One region is up all along; the other is down at the times `outage` and has just
answered again. -/
def history (outage : List Int) (last : Int) : List (String × CheckResult) :=
  (0 :: outage ++ [last]).map (fun t => ("eu", result t .up)) ++
    ("us", result 0 .up) :: outage.map (fun t => ("us", result t .down)) ++
    [("us", result last .up)]

end Lookback.Sample

instance (target : ProbedTarget) (tagged : List (String × CheckResult)) (now : Time) :
    Decidable (Steady target tagged now) := inferInstanceAs (Decidable (∀ _ ∈ _, _))

instance (lookback : Int) (target : ProbedTarget) (opens : List OpenIncident)
    (tagged : List (String × CheckResult)) (now : Time) :
    Decidable (Reached lookback target opens tagged now) :=
  inferInstanceAs (Decidable (∀ _ ∈ _, _ → _ → _))

section

open Decide.Sample Lookback.Sample

end

end Uptimepage
