import Uptimepage.Async.Run
import Uptimepage.Domain.CheckResult
import Uptimepage.Targets.Check

/-!
# Domain expiry, and what is served when a lookup fails

`worker/domain_expiry.rs` over `storage/domain_expiry_state.rs`: a probe that succeeds writes the
answer into the monitor's one row, and a probe that fails serves that row while it is young.  The
row is the monitor's, not the domain's: an edit of the check leaves it, and `fallBack` does not
look at the domain it was written for.
-/

namespace Uptimepage.DomainExpiry

open Targets (DomainExpiryCheck)
open Async

/-! ## Probes -/

/-- `RegistrationAnswer`. -/
structure Answer where
  expiration : Time
  registrar : Option String
deriving DecidableEq

inductive ProbeFailure
  | throttled
  | timeout
  | lookup (error : String)
  /-- Retrying cannot change it. -/
  | permanent (error : String)
deriving DecidableEq

namespace ProbeFailure

def kind : ProbeFailure → String
  | throttled => "throttled"
  | timeout => "timeout"
  | lookup _ => "lookup_error"
  | permanent _ => "unsupported_tld"

def message : ProbeFailure → String
  | throttled => "rdap throttled"
  | timeout => "rdap timeout"
  | lookup error => error
  | permanent error => error

end ProbeFailure

/-- `num_seconds`, towards zero. -/
def numSeconds (d : Time) : Int := d.tdiv 1000000

def numDays (d : Time) : Int := (numSeconds d).tdiv 86400

def classifyDays (daysRemaining : Int) (warnDays criticalDays : Nat) : CheckStatus :=
  if daysRemaining < criticalDays then .down
  else if daysRemaining < warnDays then .degraded
  else .up

structure Details where
  domain : String
  daysRemaining : Int
  expirationDate : Time
  registrar : Option String
deriving DecidableEq

structure Verdict where
  status : CheckStatus
  details : Details
deriving DecidableEq

def classify (check : DomainExpiryCheck) (expiration : Time) (registrar : Option String)
    (now : Time) : Verdict :=
  let daysRemaining := numDays (expiration - now)
  ⟨classifyDays daysRemaining check.warnDays check.criticalDays,
    ⟨check.domain, daysRemaining, expiration, registrar⟩⟩

inductive Emission
  | fresh (verdict : Verdict)
  | stale (verdict : Verdict) (ageSecs : Int) (refreshFailureKind : String)
  | error (message : String)
deriving DecidableEq

def Emission.status : Emission → CheckStatus
  | fresh verdict => verdict.status
  | stale verdict _ _ => verdict.status
  | error _ => .error

/-! ## The stored row -/

/-- `DomainExpiryState`. -/
structure Row where
  domain : String
  expiryAt : Time
  registrar : Option String
  lastSuccessAt : Time
  lastAttemptAt : Time
  lastError : Option String
  attempts : Nat
deriving DecidableEq

/-- `INSERT … ON CONFLICT (target_id) DO UPDATE`. -/
def upsertSuccess (domain : String) (answer : Answer) (now : Time) : Row :=
  ⟨domain, answer.expiration, answer.registrar, now, now, none, 0⟩

def recordFailureReturning (row : Option Row) (error : String) (now : Time) : Option Row :=
  row.map fun r =>
    { r with lastAttemptAt := now, lastError := some error, attempts := r.attempts + 1 }

/-- `fall_back`: the row afterwards and what is reported.  `written` says whether the database
took the failure; where it did not, there is no row to serve. -/
def fallBack (maxStaleness : Time) (check : DomainExpiryCheck) (row : Option Row) (now : Time)
    (err : ProbeFailure) (written : Bool) : Option Row × Emission :=
  if written then
    match recordFailureReturning row err.message now with
    | some state =>
      let age := now - state.lastSuccessAt
      if age ≤ maxStaleness then
        (some state, .stale (classify check state.expiryAt state.registrar now)
          (max (numSeconds age) 0) err.kind)
      else (some state, .error err.message)
    | none => (none, .error err.message)
  else (row, .error err.message)

/-- The row that is young enough to be served, if the database hands it out. -/
def servable (maxStaleness : Time) (row : Option Row) (now : Time) (written : Bool) : Option Row :=
  if written then row.filter fun r => decide (now - r.lastSuccessAt ≤ maxStaleness) else none

variable {maxStaleness now : Time} {row : Option Row} {written : Bool}
  {check : DomainExpiryCheck} {err : ProbeFailure}

theorem fallBack_servable {r : Row} (check : DomainExpiryCheck) (err : ProbeFailure)
    (h : servable maxStaleness row now written = some r) :
    row = some r ∧ now - r.lastSuccessAt ≤ maxStaleness ∧
      (fallBack maxStaleness check row now err written).2 =
        .stale (classify check r.expiryAt r.registrar now)
          (max (numSeconds (now - r.lastSuccessAt)) 0) err.kind := by
  unfold servable at h
  split at h
  · next hwritten =>
    obtain ⟨hrow, hyoung⟩ := Option.filter_eq_some_iff.mp h
    have hyoung := of_decide_eq_true hyoung
    refine ⟨hrow, hyoung, ?_⟩
    unfold fallBack recordFailureReturning
    rw [if_pos hwritten, hrow]
    exact congrArg Prod.snd (if_pos hyoung)
  · cases h

theorem fallBack_error (h : servable maxStaleness row now written = none) :
    (fallBack maxStaleness check row now err written).2 = .error err.message := by
  unfold servable at h
  unfold fallBack recordFailureReturning
  split
  · next hwritten =>
    rw [if_pos hwritten] at h
    cases row with
    | none => rfl
    | some r =>
      have hold : ¬now - r.lastSuccessAt ≤ maxStaleness := by
        intro hyoung
        rw [Option.filter_some, if_pos (decide_eq_true hyoung)] at h
        cases h
      exact congrArg Prod.snd (if_neg hold)
  · rfl

theorem fallBack_row {r' : Row}
    (h : (fallBack maxStaleness check row now err written).1 = some r') :
    ∃ r, row = some r ∧ r'.domain = r.domain ∧ r'.expiryAt = r.expiryAt ∧
      r'.registrar = r.registrar ∧ r'.lastSuccessAt = r.lastSuccessAt := by
  unfold fallBack recordFailureReturning at h
  split at h
  · cases row with
    | none => cases h
    | some r =>
      dsimp only [Option.map_some] at h
      split at h <;> cases h <;> exact ⟨r, rfl, rfl, rfl, rfl, rfl⟩
  · exact ⟨r', h, rfl, rfl, rfl, rfl⟩

/-! ## Runs -/

structure Lookup where
  /-- The name that was looked up, canonical. -/
  name : String
  answer : Answer
  time : Time
deriving DecidableEq

/-- One verdict of `fallBack`, with what there was to derive it from. -/
structure Entry where
  check : DomainExpiryCheck
  now : Time
  error : ProbeFailure
  emission : Emission
  /-- The lookup whose answer the row held. -/
  source : Option Lookup
  lookups : List Lookup
deriving DecidableEq

structure Monitor where
  check : DomainExpiryCheck
  /-- The scheduler's copy. -/
  scheduled : DomainExpiryCheck
  inFlight : List DomainExpiryCheck
  row : Option Row
  now : Time
  lookups : List Lookup
  source : Option Lookup
  served : List Entry
deriving DecidableEq

def start (check : DomainExpiryCheck) (now : Time) : Monitor :=
  ⟨check, check, [], none, now, [], none, []⟩

/-- A probe in flight is known by its place; `written` says whether the database took the
write. -/
inductive Event
  | clock (now : Time)
  | edit (check : DomainExpiryCheck)
  | refresh
  | probe
  | succeed (i : Nat) (answer : Answer) (written : Bool)
  | fail (i : Nat) (err : ProbeFailure) (written : Bool)
deriving DecidableEq

section

variable (canonical : String → String) (maxStaleness : Time)

def Monitor.succeed (s : Monitor) (check : DomainExpiryCheck) (answer : Answer) (written : Bool) :
    Monitor :=
  let found : Lookup := ⟨canonical check.domain, answer, s.now⟩
  { s with
    row := if written then some (upsertSuccess check.domain answer s.now) else s.row
    lookups := s.lookups ++ [found]
    source := if written then some found else s.source }

def Monitor.fail (s : Monitor) (check : DomainExpiryCheck) (err : ProbeFailure) (written : Bool) :
    Monitor :=
  let (row, emission) := fallBack maxStaleness check s.row s.now err written
  { s with
    row := row
    served := s.served ++ [⟨check, s.now, err, emission, s.source, s.lookups⟩] }

def step (s : Monitor) : Event → Option Monitor
  | .clock now => some { s with now := now }
  -- `PostgresTargetStore::update` writes `targets` alone
  | .edit check => some { s with check := check }
  | .refresh => some { s with scheduled := s.check }
  | .probe => some { s with inFlight := s.inFlight ++ [s.scheduled] }
  | .succeed i answer written =>
    s.inFlight[i]?.map fun check =>
      Monitor.succeed canonical { s with inFlight := s.inFlight.eraseIdx i } check answer written
  | .fail i err written =>
    s.inFlight[i]?.map fun check =>
      Monitor.fail maxStaleness { s with inFlight := s.inFlight.eraseIdx i } check err written

/-! ## The truth of what is served -/

/-- The verdict is that of a successful lookup, young enough, of the domain that the check
names; without such a lookup the probe reports its error. -/
structure Entry.Truthful (e : Entry) : Prop where
  derived : ∀ verdict ageSecs kind, e.emission = .stale verdict ageSecs kind →
    ∃ found, e.source = some found ∧ found ∈ e.lookups ∧
      found.name = canonical e.check.domain ∧ e.now - found.time ≤ maxStaleness ∧
      verdict = classify e.check found.answer.expiration found.answer.registrar e.now
  reported : (∀ found ∈ e.lookups, found.name = canonical e.check.domain →
      maxStaleness < e.now - found.time) → e.emission = .error e.error.message

def Truthful (s : Monitor) : Prop := ∀ e ∈ s.served, e.Truthful canonical maxStaleness

/-- A row that is about to be served was written for the domain that the check names. -/
def Matches (s : Monitor) : Event → Prop
  | .fail i _ written => ∀ check row, s.inFlight[i]? = some check →
      servable maxStaleness s.row s.now written = some row →
      canonical row.domain = canonical check.domain
  | _ => True

/-- The row is what the last write of an answer left. -/
def Kept (s : Monitor) : Prop :=
  ∀ row, s.row = some row → ∃ found, s.source = some found ∧ found ∈ s.lookups ∧
    found.name = canonical row.domain ∧ found.time = row.lastSuccessAt ∧
    found.answer = ⟨row.expiryAt, row.registrar⟩

variable {canonical maxStaleness}

theorem kept_start (check : DomainExpiryCheck) (now : Time) : Kept canonical (start check now) :=
  nofun

variable {s t : Monitor} {e : Event}

theorem Kept.succeed (h : Kept canonical s) (check : DomainExpiryCheck) (answer : Answer)
    (written : Bool) : Kept canonical (s.succeed canonical check answer written) := by
  intro row hrow
  cases written with
  | true =>
    cases hrow
    exact ⟨_, rfl, List.mem_append_right _ List.mem_cons_self, rfl, rfl, rfl⟩
  | false =>
    obtain ⟨found, hsource, hmem, hrest⟩ := h row hrow
    exact ⟨found, hsource, List.mem_append_left _ hmem, hrest⟩

theorem Kept.fail (h : Kept canonical s) (check : DomainExpiryCheck) (err : ProbeFailure)
    (written : Bool) : Kept canonical (s.fail maxStaleness check err written) := by
  intro row hrow
  obtain ⟨r, hr, hdomain, hexpiry, hregistrar, hsuccess⟩ := fallBack_row hrow
  obtain ⟨found, hsource, hmem, hname, htime, hanswer⟩ := h r hr
  refine ⟨found, hsource, hmem, ?_, ?_, ?_⟩
  · rw [hdomain]
    exact hname
  · rw [hsuccess]
    exact htime
  · rw [hexpiry, hregistrar]
    exact hanswer

theorem Kept.step (h : Kept canonical s) (heq : step canonical maxStaleness s e = some t) :
    Kept canonical t := by
  cases e with
  | succeed i answer written =>
    obtain ⟨check, -, rfl⟩ := Option.map_eq_some_iff.mp heq
    exact Kept.succeed (s := { s with inFlight := s.inFlight.eraseIdx i }) h check answer written
  | fail i err written =>
    obtain ⟨check, -, rfl⟩ := Option.map_eq_some_iff.mp heq
    exact Kept.fail (s := { s with inFlight := s.inFlight.eraseIdx i }) h check err written
  | _ =>
    cases heq
    exact h

theorem truthful_fail_iff (maxStaleness : Time) (h : Kept canonical s) (check : DomainExpiryCheck)
    (err : ProbeFailure) (written : Bool) :
    Entry.Truthful canonical maxStaleness
      ⟨check, s.now, err, (fallBack maxStaleness check s.row s.now err written).2, s.source,
        s.lookups⟩ ↔
    ∀ row, servable maxStaleness s.row s.now written = some row →
      canonical row.domain = canonical check.domain := by
  cases hserve : servable maxStaleness s.row s.now written with
  | none =>
    refine iff_of_true ⟨?_, fun _ => fallBack_error hserve⟩ nofun
    intro verdict ageSecs kind hstale
    rw [fallBack_error hserve] at hstale
    cases hstale
  | some r =>
    obtain ⟨hrow, hyoung, hstale⟩ := fallBack_servable check err hserve
    obtain ⟨found, hsource, hmem, hname, htime, hanswer⟩ := h r hrow
    constructor
    · rintro hentry row ⟨⟩
      obtain ⟨found', hsource', -, hname', -⟩ := hentry.derived _ _ _ hstale
      rw [hsource] at hsource'
      cases hsource'
      exact hname.symm.trans hname'
    · intro hdomain
      have hcheck : found.name = canonical check.domain := hname.trans (hdomain r rfl)
      have hage : s.now - found.time ≤ maxStaleness := by
        rw [htime]
        exact hyoung
      constructor
      · intro verdict ageSecs kind heq
        rw [hstale] at heq
        cases heq
        refine ⟨found, hsource, hmem, hcheck, hage, ?_⟩
        rw [hanswer]
      · intro hold
        exact absurd (hold found hmem hcheck) (not_lt_of_ge hage)

theorem truthful_step (hk : Kept canonical s) (hs : Truthful canonical maxStaleness s)
    (heq : step canonical maxStaleness s e = some t) :
    Truthful canonical maxStaleness t ↔ Matches canonical maxStaleness s e := by
  cases e with
  | succeed i answer written =>
    obtain ⟨check, -, rfl⟩ := Option.map_eq_some_iff.mp heq
    exact iff_of_true hs trivial
  | fail i err written =>
    obtain ⟨check, hcheck, rfl⟩ := Option.map_eq_some_iff.mp heq
    have hentry := truthful_fail_iff maxStaleness hk check err written
    constructor
    · rintro ht check' row hcheck' hserve
      rw [hcheck] at hcheck'
      cases hcheck'
      exact hentry.mp (ht _ (List.mem_append_right _ List.mem_cons_self)) row hserve
    · intro hmatch e he
      rcases List.mem_append.mp he with he | he
      · exact hs e he
      · obtain rfl := List.mem_singleton.mp he
        exact hentry.mpr fun row hserve => hmatch check row hcheck hserve
  | _ =>
    cases heq
    exact iff_of_true hs trivial

/-- **What is served is about the monitor's own domain**, through a whole run, exactly if each
probe that fails finds no young row that was written for another domain. -/
theorem served_truthful_iff (canonical : String → String) (maxStaleness : Time)
    (check : DomainExpiryCheck) (now : Time) (events : List Event) :
    Throughout (step canonical maxStaleness) (Truthful canonical maxStaleness) (start check now)
        events ↔
      Allowed (step canonical maxStaleness) (Matches canonical maxStaleness) (start check now)
        events := by
  have hstart : Truthful canonical maxStaleness (start check now) := by
    intro e he
    exact absurd he List.not_mem_nil
  have hkept : ∀ s e t, Kept canonical s → step canonical maxStaleness s e = some t →
      Kept canonical t :=
    fun s e t h heq => Kept.step h heq
  have htruthful : ∀ s e t, Kept canonical s → Truthful canonical maxStaleness s →
      step canonical maxStaleness s e = some t →
      (Truthful canonical maxStaleness t ↔ Matches canonical maxStaleness s e) :=
    fun s e t hk hs heq => truthful_step hk hs heq
  exact throughout_iff_allowed hkept htruthful events (kept_start check now) hstart

end

/-! ## A monitor that changes its domain -/

namespace Renamed

def before : DomainExpiryCheck := ⟨"a.com", 30, 7, 5000⟩

def after : DomainExpiryCheck := ⟨"b.com", 30, 7, 5000⟩

def week : Time := seconds 604800

/-- `a.com` is found to run for 400 days more; the check is then made about `b.com`, whose first
lookup times out. -/
def events : List Event :=
  [.probe, .succeed 0 ⟨seconds (400 * 86400), none⟩ true, .edit after, .refresh, .probe,
    .fail 0 .timeout true]

end Renamed

/-- `b.com` is reported up, with the expiry of `a.com`; nobody ever looked it up. -/
theorem served_of_other_domain :
    ∃ s e, steps (step id Renamed.week) (start Renamed.before 0) Renamed.events = some s ∧
      e ∈ s.served ∧ e.check = Renamed.after ∧ e.emission.status = .up ∧
      (∀ found ∈ e.lookups, found.name = "a.com") ∧ ¬Truthful id Renamed.week s := by
  refine ⟨_, _, rfl, List.mem_cons_self, rfl, by decide, by decide, fun htruthful => ?_⟩
  have hentry := htruthful _ List.mem_cons_self
  have herror := hentry.reported (by
    intro found hfound hname
    obtain rfl := List.mem_singleton.mp hfound
    exact absurd hname (by decide))
  cases herror

end Uptimepage.DomainExpiry
