import Uptimepage.Domain.CheckResult
import Uptimepage.Text.JsonValue
import Uptimepage.Variables.Usage

/-!
# Browser flows

`worker/flow/executor.rs` and the mapping of its result in `worker/flow/mod.rs`: the steps of a
flow run against a live page, with a deadline for the run and a timeout for each step.
-/

namespace Uptimepage.Flow

open Json Variables

/-- Time is counted in nanoseconds. -/
def pollPause : Nat := 100000000

/-! ## The page -/

/-- What a page answers to a call made as the `n`th thing that happens, and the time that passes
with each. -/
structure Page where
  delay : Nat → Nat
  /-- How late a timer fires. -/
  late : Nat → Nat
  evaluate : Nat → Except String Value
  url : Nat → Except String (Option String)
  goto : Nat → Except String Unit
  waitForNavigation : Nat → Except String Unit
  /-- Why a value is of the wrong type. -/
  undecodable : Value → String

inductive Call
  | evaluate (js : String)
  | url
  | goto (url : String)
  | navigation
deriving DecidableEq

/-- A call of a step and how the engine failed to answer it. -/
structure Answer where
  step : Nat
  call : Call
  failure : Option String
deriving DecidableEq

/-- `step` is the step that runs and `since` when it started; they and `log` are kept for the
record only. -/
structure World where
  now : Nat
  ticks : Nat
  step : Nat
  since : Nat
  log : List Answer
deriving DecidableEq

inductive Reason
  | loading (url : String)
  | selectorNotFound (selector : String)
  | waitingFor (selector : String)
  | textNotFound (contains : String)
  | urlDoesNotContain (contains : String)
deriving DecidableEq

/-- `debug` is how `{:?}` prints a string. -/
def Reason.text (debug : String → String) : Reason → String
  | loading url => "timed out loading " ++ url
  | selectorNotFound selector => "selector not found: " ++ selector
  | waitingFor selector => "timed out waiting for " ++ selector
  | textNotFound contains => "text not found: " ++ debug contains
  | urlDoesNotContain contains => "url does not contain " ++ debug contains

inductive StepError
  | failed (reason : Reason)
  | engine (e : String)
deriving DecidableEq

structure World.Grows (w w' : World) : Prop where
  now_le : w.now ≤ w'.now
  step_eq : w'.step = w.step
  since_eq : w'.since = w.since
  log_eq : ∃ added, w'.log = w.log ++ added ∧ ∀ a ∈ added, a.step = w.step

theorem World.Grows.trans {w w' w'' : World} (h : w.Grows w') (h' : w'.Grows w'') :
    w.Grows w'' := by
  obtain ⟨added, hlog, hadded⟩ := h.log_eq
  obtain ⟨added', hlog', hadded'⟩ := h'.log_eq
  refine ⟨h.now_le.trans h'.now_le, h'.step_eq.trans h.step_eq, h'.since_eq.trans h.since_eq,
    added ++ added', by rw [hlog', hlog, List.append_assoc], fun a ha => ?_⟩
  rcases List.mem_append.mp ha with ha | ha
  · exact hadded a ha
  · rw [hadded' a ha, h.step_eq]

def Answer.Told {α : Type} (a : Answer) : Except StepError α → Prop
  | .ok _ => a.failure = none
  | .error (.engine e) => a.failure = some e
  | .error (.failed _) => False

/-- A computation whose result is what the page answered last. -/
structure Check (α : Type) where
  run : World → Except StepError α × World
  grows : ∀ w : World, w.Grows (run w).2
  told : ∀ w : World, ∃ a, (run w).2.log.getLast? = some a ∧ a.Told (run w).1

def isContextLoss (msg : String) : Bool :=
  ["Cannot find context with specified id", "Execution context was destroyed"].any fun m =>
    Text.contains m.toList msg.toList

def decodeString (page : Page) : Except String Value → Except String String
  | .error e => .error ("evaluate: " ++ e)
  | .ok (.str s) => .ok s
  | .ok .null => .ok ""
  | .ok v => .error ("evaluate decode: " ++ page.undecodable v)

def decodeBool (page : Page) : Except String Value → Except String Bool
  | .error e => .error ("evaluate: " ++ e)
  | .ok (.bool b) => .ok b
  | .ok .null => .ok false
  | .ok v => .error ("evaluate decode: " ++ page.undecodable v)

/-! ## Scripts -/

def enc (s : String) : String := String.ofList (Json.str s)

def jsFill (selector value : String) : String :=
  "(function()\x7bconst e=document.querySelector(" ++ enc selector ++
    ");if(!e)return 'NOT_FOUND';e.value=" ++ enc value ++
    ";e.dispatchEvent(new Event('input',\x7bbubbles:true\x7d));" ++
    "e.dispatchEvent(new Event('change',\x7bbubbles:true\x7d));return 'OK';\x7d)()"

def clickTargets : String :=
  "button, a, input[type=\"submit\"], input[type=\"button\"], input[type=\"reset\"], " ++
    "summary, [role=\"button\"]"

def jsClick (selector : String) : String :=
  "(function()\x7bconst e=document.querySelector(" ++ enc selector ++
    ");if(!e)return 'NOT_FOUND';(e.closest(" ++ enc clickTargets ++
    ")||e).click();return 'OK';\x7d)()"

def jsPresent (selector : String) : String := "!!document.querySelector(" ++ enc selector ++ ")"

def jsText : Option String → String
  | some selector =>
    "(function()\x7bconst e=document.querySelector(" ++ enc selector ++
      ");return e?e.textContent:null;\x7d)()"
  | none => "document.body?document.body.textContent:null"

namespace Page

variable (page : Page)

/-- Time passes, at least `d`. -/
def pass (d : Nat) (w : World) : World :=
  { w with now := w.now + d + page.delay w.ticks, ticks := w.ticks + 1 }

theorem grows_pass (d : Nat) (w : World) : w.Grows (page.pass d w) :=
  ⟨Nat.le_trans (Nat.le_add_right _ _) (Nat.le_add_right _ _), rfl, rfl, [],
    (List.append_nil _).symm, fun _ h => absurd h List.not_mem_nil⟩

/-- The engine's failure, if it is one. -/
def failureOf {α : Type} : Except String α → Option String
  | .ok _ => none
  | .error e => some e

/-- Calls the page and notes what it answers. -/
def ask {α : Type} (call : Call) (reply : Nat → Except String α) : Check α where
  run w :=
    ((reply w.ticks).mapError .engine,
      { page.pass 0 w with log := w.log ++ [⟨w.step, call, failureOf (reply w.ticks)⟩] })
  grows w := by
    refine ⟨(page.grows_pass 0 w).now_le, rfl, rfl, _, rfl, fun a ha => ?_⟩
    rw [List.mem_singleton.mp ha]
  told w := by
    refine ⟨_, List.getLast?_concat, ?_⟩
    cases reply w.ticks with
    | ok v => rfl
    | error e => rfl

def evalStringOnce (js : String) : Check String :=
  page.ask (.evaluate js) fun n => decodeString page (page.evaluate n)

def evalBoolOnce (js : String) : Check Bool :=
  page.ask (.evaluate js) fun n => decodeBool page (page.evaluate n)

/-- `retrying_context_loss`. -/
def retrying {α : Type} (check : Check α) : Check α where
  run w :=
    match check.run w with
    | (.error (.engine e), w') =>
      if isContextLoss e then check.run (page.pass pollPause w') else (.error (.engine e), w')
    | other => other
  grows w := by
    have hfirst := check.grows w
    split
    · next e w' hrun =>
      rw [hrun] at hfirst
      split
      · exact (hfirst.trans (page.grows_pass _ _)).trans (check.grows _)
      · exact hfirst
    · exact hfirst
  told w := by
    have hfirst := check.told w
    split
    · next e w' hrun =>
      rw [hrun] at hfirst
      split
      · exact check.told _
      · exact hfirst
    · exact hfirst

/-- Runs a mutating step's script, once. -/
def evalAction (js : String) : Check String := page.evalStringOnce js

def evalString (js : String) : Check String := page.retrying (page.evalStringOnce js)

def evalBool (js : String) : Check Bool := page.retrying (page.evalBoolOnce js)

def currentUrl : Check String :=
  page.ask .url fun n =>
    match page.url n with
    | .ok url => .ok (url.getD "")
    | .error e => .error ("url: " ++ e)

end Page

def Check.map {α β : Type} (f : α → β) (check : Check α) : Check β where
  run w := ((check.run w).1.map f, (check.run w).2)
  grows := check.grows
  told w := by
    obtain ⟨a, hlast, htold⟩ := check.told w
    refine ⟨a, hlast, ?_⟩
    cases hrun : (check.run w).1 with
    | ok v =>
      rw [hrun] at htold
      exact htold
    | error e =>
      rw [hrun] at htold
      cases e with
      | failed reason => exact htold
      | engine e => exact htold

/-- What a poll makes of an answer: it ends, or goes on with what is lost. -/
def heard : Except StepError Bool → Except (Except StepError Bool) (Option String)
  | .ok true => .error (.ok true)
  | .ok false => .ok none
  | .error (.engine e) => if isContextLoss e then .ok (some e) else .error (.error (.engine e))
  | .error e => .error (.error e)

/-- What a poll says when its time is over. -/
def closing : Option String → Except StepError Bool
  | some e => .error (.engine e)
  | none => .ok false

def pollFrom (page : Page) (check : Check Bool) (start deadline : Nat) (w : World) :
    Except StepError Bool × World :=
  match heard (check.run w).1 with
  | .error result => (result, (check.run w).2)
  | .ok lost =>
    if deadline ≤ (page.pass 0 (check.run w).2).now - start then
      (closing lost, page.pass 0 (check.run w).2)
    else
      pollFrom page check start deadline (page.pass pollPause (page.pass 0 (check.run w).2))
termination_by start + deadline - w.now
decreasing_by
  have hcheck := (check.grows w).now_le
  simp only [Page.pass, pollPause] at *
  omega

def poll (page : Page) (deadline : Nat) (check : Check Bool) (w : World) :
    Except StepError Bool × World :=
  pollFrom page check (page.pass 0 w).now deadline (page.pass 0 w)

/-! ## Steps -/

def waits : FlowStep → Bool
  | .fill _ _ | .click _ => false
  | _ => true

def stepOp : FlowStep → String
  | .goto _ => "goto"
  | .click _ => "click"
  | .fill _ _ => "fill"
  | .waitFor _ => "wait_for"
  | .assertText _ _ => "assert_text"
  | .assertUrl _ => "assert_url"

/-- A call of a load that is given up at `expiry`. -/
def within (url : String) (expiry : Nat) (call : Check Unit) (w : World) :
    Except StepError Unit × World :=
  let answered := call.run w
  if expiry < answered.2.now then
    (.error (.failed (.loading url)), { w with now := expiry, ticks := answered.2.ticks })
  else answered

/-- The first arm of `drive`. -/
def load (page : Page) (url : String) (stepTimeout : Nat) (w : World) :
    Except StepError Unit × World :=
  let start := page.pass 0 w
  let expiry := start.now + stepTimeout + page.late start.ticks
  match within url expiry (page.ask (.goto url) fun n =>
      (page.goto n).mapError fun e => "goto: " ++ e) start with
  | (.ok (), w') =>
    within url expiry (page.ask .navigation fun n =>
      (page.waitForNavigation n).mapError fun e => "goto nav: " ++ e) w'
  | (.error e, w') => (.error e, w')

/-- A mutating step, whose script says `OK` or that there is nothing to act on. -/
def act (page : Page) (selector js : String) (w : World) : Except StepError Unit × World :=
  match (page.evalAction js).run w with
  | (.ok said, w') =>
    if said = "OK" then (.ok (), w') else (.error (.failed (.selectorNotFound selector)), w')
  | (.error e, w') => (.error e, w')

/-- A step that waits for `check`. -/
def await (page : Page) (stepTimeout : Nat) (check : Check Bool) (reason : Reason) (w : World) :
    Except StepError Unit × World :=
  match poll page stepTimeout check w with
  | (.ok true, w') => (.ok (), w')
  | (.ok false, w') => (.error (.failed reason), w')
  | (.error e, w') => (.error e, w')

def textContains (want s : String) : Bool := Text.contains want.toList s.toList

def drive (page : Page) (step : FlowStep) (stepTimeout : Nat) : World →
    Except StepError Unit × World :=
  match step with
  | .goto url => load page url stepTimeout
  | .fill selector value => act page selector (jsFill selector value)
  | .click selector => act page selector (jsClick selector)
  | .waitFor selector =>
    await page stepTimeout (page.evalBool (jsPresent selector)) (.waitingFor selector)
  | .assertText selector contains =>
    await page stepTimeout ((page.evalString (jsText selector)).map (textContains contains))
      (.textNotFound contains)
  | .assertUrl contains =>
    await page stepTimeout (page.currentUrl.map (textContains contains))
      (.urlDoesNotContain contains)

/-! ## Runs -/

inductive RunResult
  | passed
  | failed (step : Nat) (op : String) (reason : Reason)
  | budget (step : Nat) (op : String)
  | engine (e : String)
deriving DecidableEq

/-- Milliseconds in 32 bits. -/
def millis (d : Nat) : Nat := min (d / 1000000) (2 ^ 32 - 1)

/-- How a step of a run comes out. -/
inductive Attempt
  | spent
  | passed (took : Nat)
  | engine (e : String)
  | cut (took : Nat)
  | failed (reason : Reason) (took : Nat)
deriving DecidableEq

/-- The body of the loop of `run_steps`. -/
def attempt (page : Page) (stepTimeout deadline i : Nat) (step : FlowStep) (w : World) :
    Attempt × World :=
  let w := page.pass 0 w
  let remaining := deadline - w.now
  if remaining = 0 then (.spent, w)
  else
    let clamped := remaining ≤ stepTimeout
    let w := page.pass 0 w
    let (outcome, w') := drive page step (min stepTimeout remaining) { w with
      step := i
      since := w.now }
    let w' := page.pass 0 w'
    let took := millis (w'.now - w.now)
    match outcome with
    | .ok () => (.passed took, w')
    | .error (.engine e) => (.engine e, w')
    | .error (.failed reason) =>
      if waits step = true ∧ clamped then
        let w' := page.pass 0 w'
        if deadline ≤ w'.now then (.cut took, w') else (.failed reason took, w')
      else (.failed reason took, w')

def runFrom (page : Page) (stepTimeout deadline : Nat) :
    Nat → List FlowStep → List StepTrace → World → RunResult × List StepTrace × World
  | _, [], trace, w => (.passed, trace, w)
  | i, step :: steps, trace, w =>
    let note (outcome : StepOutcome) (took : Nat) := trace.modify i fun t => { t with
      outcome := outcome
      durationMs := took }
    match attempt page stepTimeout deadline i step w with
    | (.spent, w) => (.budget i (stepOp step), trace, w)
    | (.passed took, w) => runFrom page stepTimeout deadline (i + 1) steps (note .passed took) w
    | (.engine e, w) => (.engine e, trace, w)
    | (.cut took, w) => (.budget i (stepOp step), note .failed took, w)
    | (.failed reason took, w) => (.failed i (stepOp step) reason, note .failed took, w)

def runSteps (page : Page) (steps : List FlowStep) (stepTimeout deadline now : Nat) :
    RunResult × List StepTrace × World :=
  runFrom page stepTimeout deadline 0 steps
    (steps.map fun step => ⟨stepOp step, .skipped, 0⟩) ⟨now, 0, 0, now, []⟩

/-! ## The result of a check -/

def reached (steps : List StepTrace) : Nat :=
  (steps.filter fun t => t.outcome ≠ .skipped).length

def stepLine (step total : Nat) (op reason : String) : String :=
  "step " ++ toString (step + 1) ++ "/" ++ toString total ++ " " ++ op ++ ": " ++ reason

/-- The status and the error of `execute_flow_check_probe`. -/
def report (debug : String → String) (total : Nat) (steps : List StepTrace) :
    RunResult → CheckStatus × Option String
  | .passed => (.up, none)
  | .failed step op reason => (.down, some (stepLine step total op (reason.text debug)))
  | .budget step op =>
    (.error, some (if reached steps = 0 then "run budget spent before the first step ran"
      else stepLine step total op "run budget spent"))
  | .engine e => (.error, some e)

section

variable {page : Page} {check : Check Bool} {step : FlowStep} {w : World} {start deadline : Nat}

/-- A poll that finds nothing has used up its time, and the page's last answer was a clean
one. -/
structure Polled (w : World) (until_ : Nat) (r : Except StepError Bool × World) : Prop where
  grows : w.Grows r.2
  last : r.1 = .ok false → until_ ≤ r.2.now ∧ ∃ a, r.2.log.getLast? = some a ∧ a.failure = none
  engine : ∀ reason, r.1 ≠ .error (.failed reason)

variable {r : Except StepError Bool}

theorem heard_eq_error {result : Except StepError Bool} (h : heard r = .error result) :
    result = r ∧ r ≠ .ok false := by
  cases r with
  | ok found =>
    cases found with
    | true =>
      obtain rfl := Except.error.inj h
      exact ⟨rfl, by simp⟩
    | false => cases h
  | error e =>
    cases e with
    | failed reason =>
      obtain rfl := Except.error.inj h
      exact ⟨rfl, by simp⟩
    | engine e =>
      unfold heard at h
      dsimp only at h
      split at h
      · cases h
      · obtain rfl := Except.error.inj h
        exact ⟨rfl, by simp⟩

theorem heard_eq_ok {lost : Option String} (h : heard r = .ok lost)
    (hclosing : closing lost = .ok false) : r = .ok false := by
  cases r with
  | ok found =>
    cases found with
    | true => cases h
    | false => rfl
  | error e =>
    cases e with
    | failed reason => cases h
    | engine e =>
      unfold heard at h
      dsimp only at h
      split at h
      · obtain rfl := Except.ok.inj h
        cases hclosing
      · cases h

theorem pollFrom_polled (hstart : start ≤ w.now) :
    Polled w (start + deadline) (pollFrom page check start deadline w) := by
  fun_induction pollFrom page check start deadline w with
  | case1 w result hheard =>
    obtain ⟨rfl, hne⟩ := heard_eq_error hheard
    refine ⟨check.grows w, fun h => absurd h hne, fun reason h => ?_⟩
    obtain ⟨a, -, htold⟩ := check.told w
    rw [h] at htold
    exact htold
  | case2 w lost hheard hover =>
    have hgrows := (check.grows w).trans (page.grows_pass 0 (check.run w).2)
    refine ⟨hgrows, fun h => ⟨?_, ?_⟩, fun reason h => ?_⟩
    · have hnow := hgrows.now_le
      show start + deadline ≤ (page.pass 0 (check.run w).2).now
      omega
    · obtain ⟨a, hlast, htold⟩ := check.told w
      rw [heard_eq_ok hheard h] at htold
      exact ⟨a, hlast, htold⟩
    · cases lost with
      | none => cases h
      | some e => cases h
  | case3 w lost hheard hopen ih =>
    have hgrows := ((check.grows w).trans (page.grows_pass 0 (check.run w).2)).trans
      (page.grows_pass pollPause _)
    have hrest := ih (hstart.trans hgrows.now_le)
    exact ⟨hgrows.trans hrest.grows, hrest.last, hrest.engine⟩

theorem poll_polled : Polled w (w.now + deadline) (poll page deadline check w) := by
  have hpass := page.grows_pass 0 w
  have hpolled : Polled (page.pass 0 w) _ (poll page deadline check w) := pollFrom_polled le_rfl
  refine ⟨hpass.trans hpolled.grows, fun h => ?_, hpolled.engine⟩
  obtain ⟨hover, hlast⟩ := hpolled.last h
  exact ⟨(Nat.add_le_add_right hpass.now_le deadline).trans hover, hlast⟩

/-- What a step did, when it was given `stepTimeout`: of a failure, that the page's last answer in
it was a clean one and that a step which waits has used up its time. -/
structure Driven (step : FlowStep) (stepTimeout : Nat) (w : World)
    (r : Except StepError Unit × World) : Prop where
  grows : w.Grows r.2
  once : waits step = false → ∃ a, r.2.log = w.log ++ [a]
  failed : ∀ reason, r.1 = .error (.failed reason) →
    (∀ added, r.2.log = w.log ++ added → ∀ a, added.getLast? = some a → a.failure = none) ∧
      (waits step = true → w.now + stepTimeout ≤ r.2.now)

variable {added : List Answer} {stepTimeout i : Nat}

theorem getLast?_added {log : List Answer} {a a' : Answer} (h : (log ++ added).getLast? = some a)
    (hadded : added.getLast? = some a') : a' = a := by
  rw [List.getLast?_append, hadded] at h
  exact Option.some.inj h

theorem within_cases (url : String) {expiry : Nat} (call : Check Unit) (hnow : w.now ≤ expiry) :
    w.Grows (within url expiry call w).2 ∧ (within url expiry call w).2.now ≤ expiry ∧
      ((∃ reason, (within url expiry call w).1 = .error (.failed reason)) →
        (within url expiry call w).2.log = w.log ∧ (within url expiry call w).2.now = expiry) ∧
      ((within url expiry call w).1 = .ok () →
        ∃ a, (within url expiry call w).2.log.getLast? = some a ∧ a.failure = none) := by
  unfold within
  dsimp only
  split
  · refine ⟨⟨hnow, rfl, rfl, [], (List.append_nil _).symm, fun _ h => absurd h List.not_mem_nil⟩,
      le_rfl, fun _ => ⟨rfl, rfl⟩, fun h => by cases h⟩
  · next hintime =>
    obtain ⟨a, hlast, htold⟩ := call.told w
    refine ⟨call.grows w, not_lt.mp hintime, fun ⟨reason, h⟩ => ?_, fun h => ?_⟩
    · rw [h] at htold
      exact absurd htold id
    · rw [h] at htold
      exact ⟨a, hlast, htold⟩

theorem load_driven (url : String) (stepTimeout : Nat) :
    Driven (.goto url) stepTimeout w (load page url stepTimeout w) := by
  have hstart := page.grows_pass 0 w
  have honce (w' : World) (h : waits (.goto url) = false) : ∃ a, w'.log = w.log ++ [a] := by
    cases h
  have hexpiry : w.now + stepTimeout ≤
      (page.pass 0 w).now + stepTimeout + page.late (page.pass 0 w).ticks :=
    (Nat.add_le_add_right hstart.now_le _).trans (Nat.le_add_right _ _)
  have hnow : (page.pass 0 w).now ≤
      (page.pass 0 w).now + stepTimeout + page.late (page.pass 0 w).ticks := by omega
  unfold load
  dsimp only
  split
  · next w' hgone =>
    obtain ⟨hgrows, hnow', -, hok⟩ := within_cases url (page.ask (.goto url) fun n =>
      (page.goto n).mapError fun e => "goto: " ++ e) hnow
    rw [hgone] at hgrows hnow' hok
    obtain ⟨a, hlast, hclean⟩ := hok rfl
    obtain ⟨hgrows', -, hfailed, -⟩ := within_cases url (page.ask .navigation fun n =>
      (page.waitForNavigation n).mapError fun e => "goto nav: " ++ e) hnow'
    refine ⟨(hstart.trans hgrows).trans hgrows', honce _, fun reason h => ?_⟩
    obtain ⟨hlog, hlate⟩ := hfailed ⟨reason, h⟩
    refine ⟨fun added hadded a' ha' => ?_, fun _ => hexpiry.trans hlate.ge⟩
    -- what the page answered last is that it went there
    rw [← hlog, hadded] at hlast
    rw [getLast?_added hlast ha']
    exact hclean
  · next e w' hgone =>
    obtain ⟨hgrows, -, hfailed, -⟩ := within_cases url (page.ask (.goto url) fun n =>
      (page.goto n).mapError fun e => "goto: " ++ e) hnow
    rw [hgone] at hgrows hfailed
    refine ⟨hstart.trans hgrows, honce _, fun reason h => ?_⟩
    obtain rfl := Except.error.inj h
    obtain ⟨hlog, hlate⟩ := hfailed ⟨reason, rfl⟩
    refine ⟨fun added hadded a ha => ?_, fun _ => hexpiry.trans hlate.ge⟩
    have hnil : w.log ++ added = w.log ++ [] := by
      rw [← hadded, hlog, List.append_nil]
      rfl
    rw [List.append_cancel_left hnil] at ha
    cases ha

theorem act_driven {selector js : String} (stepTimeout : Nat) (hstep : waits step = false) :
    Driven step stepTimeout w (act page selector js w) := by
  have hgrows := (page.evalAction js).grows w
  have htold := (page.evalAction js).told w
  have hlog : ((page.evalAction js).run w).2.log = w.log ++ [_] := rfl
  unfold act
  split
  · next said w' hrun =>
    rw [hrun] at hgrows htold hlog
    obtain ⟨a, hlast, hclean⟩ := htold
    split
    · exact ⟨hgrows, fun _ => ⟨_, hlog⟩, fun _ h => by cases h⟩
    · refine ⟨hgrows, fun _ => ⟨_, hlog⟩, fun _ _ => ⟨fun added hadded a' ha' => ?_, fun h => ?_⟩⟩
      · rw [hadded] at hlast
        rw [getLast?_added hlast ha']
        exact hclean
      · rw [hstep] at h
        cases h
  · next e w' hrun =>
    rw [hrun] at hgrows htold hlog
    obtain ⟨a, -, htold⟩ := htold
    refine ⟨hgrows, fun _ => ⟨_, hlog⟩, fun _ h => ?_⟩
    obtain rfl := Except.error.inj h
    exact absurd htold id

theorem await_driven {reason : Reason} (hstep : waits step = true) :
    Driven step stepTimeout w (await page stepTimeout check reason w) := by
  have hpolled : Polled w (w.now + stepTimeout) (poll page stepTimeout check w) := poll_polled
  have honce (w' : World) (h : waits step = false) : ∃ a, w'.log = w.log ++ [a] := by
    rw [hstep] at h
    cases h
  unfold await
  split
  · next w' hrun =>
    rw [hrun] at hpolled
    exact ⟨hpolled.grows, honce w', fun _ h => by cases h⟩
  · next w' hrun =>
    rw [hrun] at hpolled
    obtain ⟨hover, a, hlast, hclean⟩ := hpolled.last rfl
    refine ⟨hpolled.grows, honce w', fun _ _ => ⟨fun added hadded a' ha' => ?_, fun _ => hover⟩⟩
    rw [hadded] at hlast
    rw [getLast?_added hlast ha']
    exact hclean
  · next e w' hrun =>
    rw [hrun] at hpolled
    refine ⟨hpolled.grows, honce w', fun reason h => ?_⟩
    obtain rfl := Except.error.inj h
    exact absurd rfl (hpolled.engine reason)

theorem drive_driven (step : FlowStep) (stepTimeout : Nat) :
    Driven step stepTimeout w (drive page step stepTimeout w) := by
  cases step with
  | goto url => exact load_driven url stepTimeout
  | click selector => exact act_driven stepTimeout rfl
  | fill selector value => exact act_driven stepTimeout rfl
  | waitFor selector => exact await_driven rfl
  | assertText selector contains => exact await_driven rfl
  | assertUrl contains => exact await_driven rfl

/-- The answers to the calls of a step. -/
def World.answers (w : World) (i : Nat) : List Answer := w.log.filter fun a => a.step = i

structure Attempted (stepTimeout i : Nat) (step : FlowStep) (w : World) (r : Attempt × World) :
    Prop where
  log_eq : ∃ added, r.2.log = w.log ++ added ∧ (∀ a ∈ added, a.step = i) ∧
    (waits step = false → added.length ≤ 1) ∧
    ∀ reason took, r.1 = .failed reason took → ∀ a, added.getLast? = some a → a.failure = none
  waited : ∀ reason took, r.1 = .failed reason took → waits step = true →
    r.2.since + stepTimeout ≤ r.2.now

theorem attempt_attempted :
    Attempted stepTimeout i step w (attempt page stepTimeout deadline i step w) := by
  unfold attempt
  dsimp only
  have hfirst : (page.pass 0 w).now ≤ (page.pass 0 (page.pass 0 w)).now :=
    (page.grows_pass 0 _).now_le
  generalize hbegun : ({ page.pass 0 (page.pass 0 w) with
    step := i
    since := (page.pass 0 (page.pass 0 w)).now } : World) = begun
  have hlog₀ : begun.log = w.log := by rw [← hbegun]; rfl
  have hstep : begun.step = i := by rw [← hbegun]
  have hsince : begun.since = begun.now := by rw [← hbegun]
  have hnow : (page.pass 0 w).now ≤ begun.now := by rw [← hbegun]; exact hfirst
  generalize (page.pass 0 w).now = seen at hnow ⊢
  split
  · refine ⟨⟨[], (List.append_nil _).symm, fun _ h => absurd h List.not_mem_nil,
      fun _ => Nat.zero_le 1, fun _ _ h => by cases h⟩, fun _ _ h => by cases h⟩
  · have hdriven : Driven step (min stepTimeout (deadline - seen)) begun
        (drive page step (min stepTimeout (deadline - seen)) begun) := drive_driven _ _
    generalize drive page step (min stepTimeout (deadline - seen)) begun = driven at hdriven ⊢
    obtain ⟨outcome, w'⟩ := driven
    obtain ⟨added, hlog, hadded⟩ := hdriven.grows.log_eq
    rw [hstep] at hadded
    have honce (h : waits step = false) : added.length ≤ 1 := by
      obtain ⟨a, hone⟩ := hdriven.once h
      rw [hlog] at hone
      rw [List.append_cancel_left hone]
      exact le_rfl
    rw [hlog₀] at hlog
    have hsince' : w'.since = begun.now := hdriven.grows.since_eq.trans hsince
    dsimp only
    split
    · exact ⟨⟨added, hlog, hadded, honce, fun _ _ h => by cases h⟩, fun _ _ h => by cases h⟩
    · exact ⟨⟨added, hlog, hadded, honce, fun _ _ h => by cases h⟩, fun _ _ h => by cases h⟩
    · next reason =>
      obtain ⟨hclean, hwaited⟩ := hdriven.failed reason rfl
      have hclean' := hclean added (by rw [hlog₀]; exact hlog)
      have hpassed := (page.grows_pass 0 w').now_le
      split
      · next hcut =>
        split
        · exact ⟨⟨added, hlog, hadded, honce, fun _ _ h => by cases h⟩, fun _ _ h => by cases h⟩
        · next hearly =>
          -- a step that was cut short has waited until the deadline
          exfalso
          have hover := hwaited hcut.1
          have hlater := (page.grows_pass 0 (page.pass 0 w')).now_le
          rw [Nat.min_eq_right hcut.2] at hover
          dsimp only at hover
          omega
      · next hcut =>
        refine ⟨⟨added, hlog, hadded, honce, fun _ _ _ => hclean'⟩, fun _ _ _ hwaits => ?_⟩
        have hover := hwaited hwaits
        have hfull : min stepTimeout (deadline - seen) = stepTimeout :=
          Nat.min_eq_left (Nat.le_of_lt (not_le.mp fun h => hcut ⟨hwaits, h⟩))
        rw [hfull] at hover
        show w'.since + stepTimeout ≤ (page.pass 0 w').now
        rw [hsince']
        exact hover.trans hpassed

/-- Steps that passed, at most one that failed, and then steps that were skipped. -/
def Shaped (trace : List StepTrace) : Prop :=
  ∃ k failed m, (failed = [] ∨ failed = [StepOutcome.failed]) ∧
    trace.map StepTrace.outcome = List.replicate k .passed ++ failed ++ List.replicate m .skipped

/-- The trace before step `i`. -/
def At (i : Nat) (steps : List FlowStep) (trace : List StepTrace) : Prop :=
  trace.map StepTrace.outcome =
    List.replicate i .passed ++ List.replicate steps.length .skipped

variable {trace : List StepTrace} {steps all : List FlowStep}

theorem outcome_modify (outcome : StepOutcome) (took : Nat) :
    (trace.modify i fun t => { t with outcome := outcome, durationMs := took }).map
        StepTrace.outcome = (trace.map StepTrace.outcome).set i outcome := by
  induction trace generalizing i with
  | nil => rw [List.modify_nil, List.map_nil, List.set_nil]
  | cons t trace ih =>
    cases i with
    | zero => rfl
    | succ i => rw [List.modify_succ_cons, List.map_cons, List.map_cons, List.set_cons_succ, ih]

theorem At.note (h : At i (step :: steps) trace) (outcome : StepOutcome) (took : Nat) :
    (trace.modify i fun t => { t with outcome := outcome, durationMs := took }).map
        StepTrace.outcome =
      List.replicate i .passed ++ outcome :: List.replicate steps.length .skipped := by
  rw [outcome_modify, h, List.set_append_right _ _ List.length_replicate.le,
    List.length_replicate, Nat.sub_self, List.length_cons, List.replicate_succ, List.set_cons_zero]

/-- What a verdict says of the page. -/
structure Sound (all : List FlowStep) (stepTimeout : Nat)
    (r : RunResult × List StepTrace × World) : Prop where
  length_eq : r.2.1.length = all.length
  shaped : Shaped r.2.1
  passed_iff : r.1 = .passed ↔ ∀ t ∈ r.2.1, t.outcome = .passed
  answered : ∀ i op reason, r.1 = .failed i op reason →
    ∀ a, (r.2.2.answers i).getLast? = some a → a.failure = none
  waited : ∀ i op reason, r.1 = .failed i op reason → ∀ step, all[i]? = some step →
    waits step = true → r.2.2.since + stepTimeout ≤ r.2.2.now
  once : ∀ i step, all[i]? = some step → waits step = false → (r.2.2.answers i).length ≤ 1

variable {outcomes : List StepOutcome}

theorem length_of_outcomes (h : trace.map StepTrace.outcome = outcomes) :
    trace.length = outcomes.length := by
  rw [← h, List.length_map]

theorem all_passed_iff (h : trace.map StepTrace.outcome = outcomes) :
    (∀ t ∈ trace, t.outcome = .passed) ↔ ∀ outcome ∈ outcomes, outcome = .passed := by
  rw [← h, List.forall_mem_map]

theorem answers_added {w' : World} (hlog : w'.log = w.log ++ added)
    (hadded : ∀ a ∈ added, a.step = i) (hbefore : ∀ a ∈ w.log, a.step < i) (j : Nat) :
    w'.answers j = if j = i then added else w.answers j := by
  have hfilter : w'.answers j = w.answers j ++ added.filter fun a => a.step = j := by
    unfold World.answers
    rw [hlog, List.filter_append]
  rw [hfilter]
  split
  · next heq =>
    subst heq
    have hnone : w.answers j = [] := List.filter_eq_nil_iff.mpr fun a ha => by
      simpa using (hbefore a ha).ne
    rw [hnone, List.nil_append, List.filter_eq_self]
    simpa using hadded
  · next hne =>
    have hnone : (added.filter fun a => a.step = j) = [] := List.filter_eq_nil_iff.mpr fun a ha => by
      simpa [hadded a ha] using Ne.symm hne
    rw [hnone, List.append_nil]

theorem Sound.ended {outcome : StepOutcome} {result : RunResult}
    (hlength : all.length = i + (steps.length + 1)) (htrace : trace.map StepTrace.outcome =
      List.replicate i .passed ++ outcome :: List.replicate steps.length .skipped)
    (houtcome : outcome = .failed ∨ outcome = .skipped) (hresult : result ≠ .passed)
    (hanswered : ∀ j op reason, result = .failed j op reason →
      ∀ a, (w.answers j).getLast? = some a → a.failure = none)
    (hwaited : ∀ j op reason, result = .failed j op reason → ∀ step, all[j]? = some step →
      waits step = true → w.since + stepTimeout ≤ w.now)
    (honce : ∀ j step, all[j]? = some step → waits step = false → (w.answers j).length ≤ 1) :
    Sound all stepTimeout (result, trace, w) where
  length_eq := by
    rw [length_of_outcomes htrace, hlength]
    simp
  shaped := by
    rcases houtcome with rfl | rfl
    · exact ⟨i, [.failed], steps.length, Or.inr rfl, by rw [htrace]; simp⟩
    · exact ⟨i, [], steps.length + 1, Or.inl rfl, by
        rw [htrace, List.append_nil, List.replicate_succ]⟩
  passed_iff := by
    refine iff_of_false hresult fun hall => ?_
    have hbad := (all_passed_iff htrace).mp hall outcome (by simp)
    rcases houtcome with rfl | rfl
    · cases hbad
    · cases hbad
  answered := hanswered
  waited := hwaited
  once := honce

theorem runFrom_sound (hall : all.drop i = steps) (hi : i ≤ all.length)
    (htrace : At i steps trace) (hlog : ∀ a ∈ w.log, a.step < i)
    (honce : ∀ j step, all[j]? = some step → waits step = false → (w.answers j).length ≤ 1) :
    Sound all stepTimeout (runFrom page stepTimeout deadline i steps trace w) := by
  induction steps generalizing i trace w with
  | nil =>
    have hend : all.length = i := by
      have := congrArg List.length hall
      rw [List.length_drop, List.length_nil] at this
      omega
    have hpassed : trace.map StepTrace.outcome = List.replicate i .passed := by
      rw [htrace]
      exact List.append_nil _
    unfold runFrom
    refine ⟨?_, ⟨i, [], 0, Or.inl rfl, ?_⟩, ?_, fun _ _ _ h => ?_, fun _ _ _ h => ?_, honce⟩
    · rw [length_of_outcomes hpassed, List.length_replicate, hend]
    · rw [hpassed, List.append_nil]
      exact (List.append_nil _).symm
    · refine iff_of_true rfl ((all_passed_iff hpassed).mpr fun outcome h => ?_)
      exact (List.mem_replicate.mp h).2
    · cases h
    · cases h
  | cons step steps ih =>
    have hstep : all[i]? = some step := by
      rw [← Nat.add_zero i, ← List.getElem?_drop, hall]
      rfl
    have hlength : all.length = i + (steps.length + 1) := by
      have := congrArg List.length hall
      rw [List.length_drop, List.length_cons] at this
      omega
    have hskipped : trace.map StepTrace.outcome =
        List.replicate i .passed ++ .skipped :: List.replicate steps.length .skipped := htrace
    have hattempted : Attempted stepTimeout i step w (attempt page stepTimeout deadline i step w) :=
      attempt_attempted
    unfold runFrom
    generalize attempt page stepTimeout deadline i step w = attempted at hattempted
    obtain ⟨result, w'⟩ := attempted
    obtain ⟨⟨added, hlog', hadded, hadded_once, hclean⟩, hwaited⟩ := hattempted
    have hanswers := answers_added hlog' hadded hlog
    have honce' : ∀ j step, all[j]? = some step → waits step = false →
        (w'.answers j).length ≤ 1 := by
      intro j step' hstep' hwaits
      rw [hanswers]
      split
      · next heq =>
        subst heq
        obtain rfl := Option.some.inj (hstep.symm.trans hstep')
        exact hadded_once hwaits
      · exact honce j step' hstep' hwaits
    cases result with
    | spent =>
      exact Sound.ended hlength hskipped (Or.inr rfl) (by simp) (by simp) (by simp) honce'
    | passed took =>
      have hlog'' : ∀ a ∈ w'.log, a.step < i + 1 := by
        intro a ha
        rw [hlog'] at ha
        rcases List.mem_append.mp ha with ha | ha
        · exact Nat.lt_succ_of_lt (hlog a ha)
        · rw [hadded a ha]
          exact Nat.lt_succ_self i
      refine ih ?_ ?_ ?_ hlog'' honce'
      · rw [← List.tail_drop, hall, List.tail_cons]
      · omega
      · unfold At
        rw [htrace.note .passed took, List.replicate_succ', List.append_assoc]
        rfl
    | engine e =>
      exact Sound.ended hlength hskipped (Or.inr rfl) (by simp) (by simp) (by simp) honce'
    | cut took =>
      exact Sound.ended hlength (htrace.note .failed took) (Or.inl rfl) (by simp) (by simp)
        (by simp) honce'
    | failed reason took =>
      refine Sound.ended hlength (htrace.note .failed took) (Or.inl rfl) (by simp) ?_ ?_ honce'
      · intro j op reason' h a ha
        obtain ⟨rfl, -, -⟩ := RunResult.failed.inj h
        rw [hanswers, if_pos rfl] at ha
        exact hclean reason took rfl a ha
      · intro j op reason' h step' hstep' hwaits
        obtain ⟨rfl, -, -⟩ := RunResult.failed.inj h
        obtain rfl := Option.some.inj (hstep.symm.trans hstep')
        exact hwaited reason took rfl hwaits

end

/-- **A flow's verdict is about the page.**  A run leaves one entry for each step, some that
passed, at most one that failed and the rest skipped, and passes when all did.  It is reported
down only for a step whose last answer was a clean one and which, if it waits, was given its
whole timeout; and a step that fills in or clicks is evaluated at most once. -/
theorem runSteps_verdict (page : Page) (steps : List FlowStep) (stepTimeout deadline now : Nat)
    (debug : String → String) :
    let r := runSteps page steps stepTimeout deadline now
    r.2.1.length = steps.length ∧ Shaped r.2.1 ∧
      (r.1 = .passed ↔ ∀ t ∈ r.2.1, t.outcome = .passed) ∧
      ((report debug steps.length r.2.1 r.1).1 = .down ↔ ∃ i op reason, r.1 = .failed i op reason) ∧
      (∀ i op reason, r.1 = .failed i op reason →
        (∀ a, (r.2.2.answers i).getLast? = some a → a.failure = none) ∧
          ∀ step, steps[i]? = some step → waits step = true →
            r.2.2.since + stepTimeout ≤ r.2.2.now) ∧
      ∀ i step, steps[i]? = some step → waits step = false → (r.2.2.answers i).length ≤ 1 := by
  have hsound : Sound steps stepTimeout (runSteps page steps stepTimeout deadline now) := by
    refine runFrom_sound rfl (Nat.zero_le _) ?_ (fun _ h => absurd h List.not_mem_nil)
      fun _ _ _ _ => Nat.zero_le 1
    unfold At
    rw [List.map_map]
    exact List.map_const'
  refine ⟨hsound.length_eq, hsound.shaped, hsound.passed_iff, ?_, fun i op reason h => ?_,
    hsound.once⟩
  · cases (runSteps page steps stepTimeout deadline now).1 with
    | failed i op reason => exact iff_of_true rfl ⟨i, op, reason, rfl⟩
    | _ => simp [report]
  · exact ⟨hsound.answered i op reason h, hsound.waited i op reason h⟩

end Uptimepage.Flow
