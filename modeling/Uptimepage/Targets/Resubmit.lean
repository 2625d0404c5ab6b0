import Uptimepage.Targets.Handlers

/-!
# Redacted, and sent back

What `redact_check` masks in an answer and `carryCredentials`, `carryFlowSecrets` put back on a
PATCH.  A credential that is left out is the stored one.  A masked fill value is looked up by its
selector, so it comes back as the first value the stored flow fills there.
-/

namespace Uptimepage.Targets

/-! ## What an answer masks -/

def FlowStep.redact : FlowStep → FlowStep
  | .fill selector _ => .fill selector redacted
  | step => step

def redactFlow (flow : FlowCheck) : FlowCheck :=
  { flow with steps := flow.steps.map FlowStep.redact }

def redactCheck : CheckSpec → CheckSpec
  | .http http =>
    .http { http with
      basicAuth := http.basicAuth.map fun _ => (redacted, redacted)
      bearerToken := http.bearerToken.map fun _ => redacted }
  | .flow flow => .flow (redactFlow flow)
  | check => check

/-! ## Flows -/

/-- The step with the value that the flow first fills at its selector. -/
def FlowCheck.firstFill (flow : FlowCheck) : FlowStep → FlowStep
  | .fill selector _ => .fill selector ((flow.fillAt selector).getD redacted)
  | step => step

theorem carry_redact (flow : FlowCheck) :
    carryFlowSecrets (redactFlow flow) flow =
      { flow with steps := flow.steps.map flow.firstFill } := by
  unfold carryFlowSecrets redactFlow
  rw [List.map_map]
  congr 2
  funext step
  cases step <;> rfl

/-- The selector is filled with one value, however often it is filled. -/
def FlowCheck.FillsOnce (flow : FlowCheck) : Prop :=
  ∀ selector value value', FlowStep.fill selector value ∈ flow.steps →
    FlowStep.fill selector value' ∈ flow.steps → value = value'

variable {selector value : String} {sent stored : HttpCheck} {cfg : Config} {w : World}
  {inv next : Inventory} {org : OrgId} {upd : TargetUpdate}

theorem FlowCheck.mem_of_fillAt {flow : FlowCheck} (h : flow.fillAt selector = some value) :
    FlowStep.fill selector value ∈ flow.steps := by
  obtain ⟨step, hstep, hvalue⟩ := List.exists_of_findSome?_eq_some h
  cases step with
  | fill sel v =>
    dsimp only at hvalue
    split at hvalue
    · next hsel =>
      cases hvalue
      rw [← hsel]
      exact hstep
    · cases hvalue
  | _ => cases hvalue

theorem FlowCheck.fillAt_isSome {flow : FlowCheck} (h : FlowStep.fill selector value ∈ flow.steps) :
    (flow.fillAt selector).isSome = true := by
  unfold FlowCheck.fillAt
  rw [List.findSome?_isSome_iff]
  exact ⟨_, h, by simp⟩

theorem carry_redact_iff (flow : FlowCheck) :
    carryFlowSecrets (redactFlow flow) flow = flow ↔ flow.FillsOnce := by
  have hsteps : carryFlowSecrets (redactFlow flow) flow = flow ↔
      ∀ step ∈ flow.steps, flow.firstFill step = step := by
    rw [carry_redact]
    constructor
    · intro h
      have hmap : flow.steps.map flow.firstFill = flow.steps.map id := by
        rw [List.map_id]
        exact congrArg FlowCheck.steps h
      exact List.map_inj_left.mp hmap
    · intro h
      have hmap : flow.steps.map flow.firstFill = flow.steps := by
        rw [List.map_congr_left h, List.map_id']
      rw [hmap]
  rw [hsteps]
  constructor
  · intro h selector value value' hvalue hvalue'
    have hfirst := FlowStep.fill.inj (h _ hvalue)
    have hfirst' := FlowStep.fill.inj (h _ hvalue')
    exact hfirst.2.symm.trans hfirst'.2
  · intro h step hstep
    cases step with
    | fill selector value =>
      obtain ⟨first, hfirst⟩ := Option.isSome_iff_exists.mp (FlowCheck.fillAt_isSome hstep)
      show FlowStep.fill selector ((flow.fillAt selector).getD redacted) = _
      rw [hfirst, Option.getD_some, h selector first value (FlowCheck.mem_of_fillAt hfirst) hstep]
    | _ => rfl

/-! ## Credentials -/

theorem mergeStored_omitted {row : TargetRow} (hrow : row.check = .http stored)
    (hbasic : sent.basicAuth = none) (hbearer : sent.bearerToken = none) :
    mergeStored (.http sent) (some row) =
      .http { sent with basicAuth := stored.basicAuth, bearerToken := stored.bearerToken } := by
  simp [mergeStored, takeClearedCredentials, carryFlags, carryCredentials, hrow, hbasic, hbearer]

theorem handleUpdate_ok {id : Uuid} (h : handleUpdate cfg w inv org id upd = .ok next) :
    ∃ vetted row, vetUpdate cfg w inv org id upd = .ok vetted ∧
      inv.update org id vetted = .ok (next, some row) := by
  obtain ⟨vetted, hvetted, h⟩ := bind_eq_ok.1 h
  obtain ⟨⟨updated, row⟩, hupdated, h⟩ := bind_eq_ok.1 h
  obtain ⟨hsome, hnext⟩ := seq_eq_ok.1 h
  cases hnext
  rw [refuseIf_eq_ok] at hsome
  cases row with
  | none => cases hsome
  | some row => exact ⟨vetted, row, hvetted, hupdated⟩

theorem vetUpdate_check {id : Uuid} {vetted : TargetUpdate} {check : CheckSpec}
    (hcheck : upd.check = some check) (h : vetUpdate cfg w inv org id upd = .ok vetted) :
    ∃ canonical, canonicalizeCheck cfg.check check = .ok canonical ∧
      vetted.check = some (mergeStored canonical (inv.get org id)) := by
  obtain ⟨c, hc, h⟩ := bind_eq_ok.1 h
  obtain ⟨alerts, -, h⟩ := bind_eq_ok.1 h
  obtain ⟨tags, -, h⟩ := bind_eq_ok.1 h
  simp only [seq_eq_ok] at h
  obtain ⟨-, -, -, -, -, -, hvetted⟩ := h
  cases hvetted
  rw [hcheck] at hc
  obtain ⟨merged, hmerged, hsome⟩ := bind_eq_ok.1 hc
  cases hsome
  obtain ⟨canonical, hcanonical, hmerged⟩ := bind_eq_ok.1 hmerged
  refine ⟨canonical, hcanonical, ?_⟩
  simp only [seq_eq_ok] at hmerged
  obtain ⟨-, -, -, hmerged⟩ := hmerged
  split at hmerged
  · simp only [seq_eq_ok] at hmerged
    obtain ⟨-, -, hsame⟩ := hmerged
    cases hsame
    rfl
  · cases hmerged
    rfl

/-- The stored check is an HTTP check with these credentials. -/
def HasCredentials (inv : Inventory) (org : OrgId) (id : Uuid) (http : HttpCheck) : Prop :=
  ∃ row c, inv.get org id = some row ∧ row.check = .http c ∧ c.basicAuth = http.basicAuth ∧
    c.bearerToken = http.bearerToken

theorem patch_keeps_credentials {id : Uuid} (hstored : HasCredentials inv org id stored)
    (hcheck : upd.check = some (.http sent)) (hbasic : sent.basicAuth = none)
    (hbearer : sent.bearerToken = none) (h : step cfg inv (w, .update org id upd) = some next) :
    HasCredentials next org id stored := by
  unfold step handle at h
  dsimp only at h
  cases hresult : handleUpdate cfg w inv org id upd with
  | error e =>
    rw [hresult] at h
    cases h
    exact hstored
  | ok updated =>
    rw [hresult] at h
    cases h
    obtain ⟨row, c, hget, hrow, hcbasic, hcbearer⟩ := hstored
    obtain ⟨vetted, row', hvetted, hupdated⟩ := handleUpdate_ok hresult
    obtain ⟨canonical, hcanonical, hmerged⟩ := vetUpdate_check hcheck hvetted
    cases hcanonical
    rw [hget, mergeStored_omitted hrow hbasic hbearer] at hmerged
    rcases Inventory.update_ok hupdated with ⟨hnone, -, -⟩ | ⟨r, hr, -, -, rfl⟩
    · rw [hget] at hnone
      cases hnone
    · have hsame : (r.patch vetted).check =
          .http { sent with basicAuth := c.basicAuth, bearerToken := c.bearerToken } := by
        show vetted.check.getD r.check = _
        rw [hmerged]
        rfl
      refine ⟨r.patch vetted, _, ?_, hsame, hcbasic, hcbearer⟩
      exact Table.find?_update_self hr (by
        have hkey := List.find?_some hr
        exact hkey)

/-! ## Every stored check -/

/-- A stored check outlives its edit: a flow comes back from its redacted copy, and an HTTP
check's credentials stay when they are left out. -/
def Survives : CheckSpec → Prop
  | .flow flow =>
    ∀ sent, redactCheck (.flow flow) = .flow sent → carryFlowSecrets sent flow = flow
  | .http stored =>
    ∀ cfg w inv org id upd sent next, HasCredentials inv org id stored →
      upd.check = some (.http sent) → sent.basicAuth = none → sent.bearerToken = none →
      step cfg inv (w, .update org id upd) = some next → HasCredentials next org id stored
  | _ => True

/-- No selector is filled with two values. -/
def Unambiguous : CheckSpec → Prop
  | .flow flow => flow.FillsOnce
  | _ => True

/-- **Redact, then resubmit**: the stored check survives exactly when it is unambiguous. -/
theorem survives_iff (stored : CheckSpec) : Survives stored ↔ Unambiguous stored := by
  cases stored with
  | flow flow =>
    rw [Unambiguous, ← carry_redact_iff]
    constructor
    · intro h
      exact h _ rfl
    · rintro h sent hsent
      cases hsent
      exact h
  | http stored =>
    refine iff_of_true ?_ trivial
    intro cfg w inv org id upd sent next hstored hcheck hbasic hbearer hstep
    exact patch_keeps_credentials hstored hcheck hbasic hbearer hstep
  | _ => exact Iff.rfl

/-! ## A selector that is filled twice -/

namespace TwoPages

def page : Url := ⟨"https", some (.domain "app.example.com"), none⟩

/-- A form that asks for the password, and one more that asks for the code in the same box. -/
def flow : FlowCheck where
  startUrl := page
  steps :=
    [.fill "#secret" "hunter2", .click "#next", .fill "#secret" "490312", .click "#next",
      .assertUrl "/home"]
  timeout := 30000
  stepTimeout := 5000

end TwoPages

/-- The second box gets the first one's value. -/
theorem secrets_swapped :
    ∃ sent, redactCheck (.flow TwoPages.flow) = .flow sent ∧
      (carryFlowSecrets sent TwoPages.flow).steps =
        [.fill "#secret" "hunter2", .click "#next", .fill "#secret" "hunter2", .click "#next",
          .assertUrl "/home"] ∧
      ¬Survives (.flow TwoPages.flow) := by
  have hswapped : (carryFlowSecrets (redactFlow TwoPages.flow) TwoPages.flow).steps =
      [.fill "#secret" "hunter2", .click "#next", .fill "#secret" "hunter2", .click "#next",
        .assertUrl "/home"] := by decide
  refine ⟨_, rfl, hswapped, fun h => ?_⟩
  have hsame := congrArg FlowCheck.steps (h _ rfl)
  rw [hswapped] at hsame
  exact absurd hsame (by decide)

end Uptimepage.Targets
