import Uptimepage.Secrets.Credentials

/-!
# What an export masks

The API masks a check with `redact_check`, over its fields; the account export masks the stored
JSON with `redact_credentials`, at the slots named by `CREDENTIAL_PATHS`.  These hold what an
HTTP check has to hide, encrypted or not (`redactCredentials_atRest`), but a flow's fill values
are hidden by the API alone.
-/

namespace Uptimepage.Secrets

open Json

def redactStep : Variables.FlowStep → Variables.FlowStep
  | .fill selector _ => .fill selector Targets.redacted
  | step => step

def redactCheck : CheckSpec → CheckSpec
  | .http c =>
    .http { c with
      basicAuth := c.basicAuth.map fun _ => (Targets.redacted, Targets.redacted)
      bearerToken := c.bearerToken.map fun _ => Targets.redacted }
  | .flow c => .flow { c with steps := c.steps.map redactStep }
  | check => check

def redactSlot (value : Value) (path : String) : Value :=
  match value.get? path with
  | none => value
  | some slot => if slot.isNull then value else value.assign path (.str "***")

def redactCredentials (value : Value) : Value := credentialPaths.foldl redactSlot value

structure RawTargetRow where
  id : Uuid
  name : String
  checkSpec : Value
  intervalSecs : Int
  enabled : Bool
  tags : List String
  groupName : Option String
  ownerUserId : Option UserId
  createdAt : Time
  updatedAt : Time

structure RedactedTarget where
  id : Uuid
  name : String
  check : Value
  intervalSecs : Int
  enabled : Bool
  tags : List String
  groupName : Option String
  ownerUserId : Option UserId
  createdAt : Time
  updatedAt : Time
  deletedAt : Option Time

def RedactedTarget.fromRow (row : RawTargetRow) (deletedAt : Option Time) : RedactedTarget where
  id := row.id
  name := row.name
  check := redactCredentials row.checkSpec
  intervalSecs := row.intervalSecs
  enabled := row.enabled
  tags := row.tags
  groupName := row.groupName
  ownerUserId := row.ownerUserId
  createdAt := row.createdAt
  updatedAt := row.updatedAt
  deletedAt := deletedAt

/-- A check as it is stored, with a key or without one. -/
def AtRest (json : JsonText) (check : CheckSpec) (stored : Value) : Prop :=
  stored = check.toValue ∨ ∃ c nonce, encryptInPlace json c nonce check.toValue = .ok stored

def fillValue : Variables.FlowStep → Option String
  | .fill _ value => some value
  | _ => none

def CheckSpec.fillValues : CheckSpec → List String
  | .flow c => c.steps.filterMap fillValue
  | _ => []

section

variable {json : JsonText} {c : Cipher} {nonce : String → Nonce} {v v' value : Value}
  {path name : String} {paths : List String}

/-! ## Masked, whatever is stored -/

theorem encryptSlot_shape (h : encryptSlot json c nonce v path = .ok v') :
    v' = v ∨ ∃ old new, v.get? path = some old ∧ old.isNull = false ∧ new.isNull = false ∧
      v' = v.assign path new := by
  unfold encryptSlot at h
  split at h
  · exact Or.inl (Except.ok.inj h).symm
  · next old hold =>
    split at h
    · exact Or.inl (Except.ok.inj h).symm
    · next hset =>
      rw [Bool.or_eq_true, not_or, Bool.not_eq_true, Bool.not_eq_true] at hset
      split at h
      · exact Or.inr ⟨old, _, hold, hset.2, rfl, (Except.ok.inj h).symm⟩
      · cases h

theorem get?_encryptSlots (hmem : name ∉ paths)
    (h : paths.foldlM (encryptSlot json c nonce) v = .ok v') : v'.get? name = v.get? name := by
  induction paths generalizing v with
  | nil =>
    rw [List.foldlM_nil] at h
    cases h
    rfl
  | cons path paths ih =>
    rw [List.mem_cons, not_or] at hmem
    rw [List.foldlM_cons] at h
    cases hslot : encryptSlot json c nonce v path with
    | error e =>
      rw [hslot] at h
      cases h
    | ok w =>
      rw [hslot] at h
      rw [ih hmem.2 h]
      rcases encryptSlot_shape hslot with rfl | ⟨old, new, -, -, -, rfl⟩
      · rfl
      · rw [get?_assign, if_neg hmem.1]

theorem redactSlots_encryptSlots (hnodup : paths.Nodup)
    (h : paths.foldlM (encryptSlot json c nonce) v = .ok v') :
    paths.foldl redactSlot v' = paths.foldl redactSlot v := by
  induction paths generalizing v v' with
  | nil =>
    rw [List.foldlM_nil] at h
    cases h
    rfl
  | cons path paths ih =>
    obtain ⟨hout, hnodup⟩ := List.nodup_cons.mp hnodup
    rw [List.foldlM_cons] at h
    cases hslot : encryptSlot json c nonce v path with
    | error e =>
      rw [hslot] at h
      cases h
    | ok w =>
      rw [hslot] at h
      have hrest : paths.foldlM (encryptSlot json c nonce) w = .ok v' := h
      have hkept := get?_encryptSlots hout hrest
      rw [List.foldl_cons, List.foldl_cons]
      -- both sides mask this slot, or neither does
      rcases encryptSlot_shape hslot with rfl | ⟨old, new, hold, hset, hset', rfl⟩
      · unfold redactSlot
        rw [hkept]
        cases w.get? path with
        | none => exact ih hnodup hrest
        | some slot =>
          dsimp only
          split
          · exact ih hnodup hrest
          · exact ih hnodup (encryptSlots_assign _ hout hrest)
      · have hnew : v'.get? path = some new := by
          rw [hkept, get?_assign, if_pos rfl, hold]
          rfl
        have hmask := encryptSlots_assign (.str "***") hout hrest
        rw [assign_again] at hmask
        unfold redactSlot
        rw [hnew, hold]
        dsimp only
        rw [hset, hset']
        exact ih hnodup hmask

theorem redactCredentials_atRest {check : CheckSpec} (h : AtRest json check v) :
    redactCredentials v = redactCredentials check.toValue := by
  rcases h with rfl | ⟨c, nonce, h⟩
  · rfl
  · exact redactSlots_encryptSlots (by decide) h

/-! ## Masked, and compared -/

theorem isMap_redactSlot (h : v.IsMap) : (redactSlot v path).IsMap := by
  unfold redactSlot
  split
  · exact h
  · split
    · exact h
    · exact h.assign

theorem isMap_redactCredentials (h : v.IsMap) : (redactCredentials v).IsMap :=
  isMap_redactSlot (isMap_redactSlot h)

/-- What is left of a slot. -/
def mask (slot : Value) : Value := if slot.isNull then slot else .str "***"

theorem get?_redactSlot :
    (redactSlot v path).get? name =
      if name = path then (v.get? name).map mask else v.get? name := by
  unfold redactSlot
  by_cases hname : name = path
  · subst hname
    cases hslot : v.get? name with
    | none => simp [hslot]
    | some slot =>
      dsimp only
      rw [if_pos rfl, Option.map_some, mask]
      split
      · exact hslot
      · rw [get?_assign, if_pos rfl, hslot]
        rfl
  · rw [if_neg hname]
    split
    · rfl
    · split
      · rfl
      · rw [get?_assign, if_neg hname]

theorem get?_redactCredentials :
    (redactCredentials v).get? name =
      if name ∈ credentialPaths then (v.get? name).map mask else v.get? name := by
  show (redactSlot (redactSlot v "basic_auth") "bearer_token").get? name = _
  rw [get?_redactSlot, get?_redactSlot]
  by_cases hbearer : name = "bearer_token"
  · subst hbearer
    simp [credentialPaths]
  · by_cases hbasic : name = "basic_auth"
    · subst hbasic
      simp [credentialPaths]
    · simp [credentialPaths, hbearer, hbasic]

theorem mask_basicAuthValue {auth auth' : Option (String × String)}
    (h : auth.isSome = auth'.isSome) : mask (basicAuthValue auth) = mask (basicAuthValue auth') := by
  cases auth with
  | none =>
    cases auth' with
    | none => rfl
    | some auth' => cases h
  | some auth =>
    cases auth' with
    | none => cases h
    | some auth' => rfl

theorem mask_optStr {s s' : Option String} (h : s.isSome = s'.isSome) :
    mask (optStr s) = mask (optStr s') := by
  cases s with
  | none =>
    cases s' with
    | none => rfl
    | some s' => cases h
  | some s =>
    cases s' with
    | none => cases h
    | some s' => rfl

theorem isMap_toValue (check : CheckSpec) : check.toValue.IsMap := isMap_object

theorem redactCredentials_http {a b : Variables.HttpCheck}
    (h : redactCheck (.http a) = redactCheck (.http b)) :
    redactCredentials (CheckSpec.http a).toValue = redactCredentials (CheckSpec.http b).toValue := by
  have hcheck := CheckSpec.http.inj h
  simp only [Variables.HttpCheck.mk.injEq] at hcheck
  obtain ⟨hurl, hmethod, htimeout, hfollow, hredirects, hstatus, hbody, hheaders, hsent, htls,
    hbasic, hbearer⟩ := hcheck
  have hbasic' : a.basicAuth.isSome = b.basicAuth.isSome := by
    simpa using congrArg Option.isSome hbasic
  have hbearer' : a.bearerToken.isSome = b.bearerToken.isSome := by
    simpa using congrArg Option.isSome hbearer
  apply (isMap_redactCredentials (isMap_toValue _)).ext (isMap_redactCredentials (isMap_toValue _))
  intro name
  rw [get?_redactCredentials, get?_redactCredentials]
  by_cases hname : name ∈ credentialPaths
  · rw [if_pos hname, if_pos hname, get?_toValue _ hname, get?_toValue _ hname]
    dsimp only
    rw [Option.map_some, Option.map_some]
    split
    · rw [mask_basicAuthValue hbasic']
    · rw [mask_optStr hbearer']
  · rw [if_neg hname, if_neg hname]
    have hne : name ≠ "basic_auth" ∧ name ≠ "bearer_token" := by
      simpa [credentialPaths] using hname
    simp only [CheckSpec.toValue, get?_object, CheckSpec.fields, lookup_cons_ite, hurl, hmethod,
      htimeout, hfollow, hredirects, hstatus, hbody, hheaders, hsent, htls, hne.1, hne.2, if_false]

theorem fillValue_eq (step : Variables.FlowStep) :
    fillValue step = ((stepValue step).get? "value").bind Value.asStr? := by
  cases step with
  | _ => simp [fillValue, stepValue, Value.asStr?, lookup_cons_ite]

theorem redactStep_cases {step step' : Variables.FlowStep} (h : redactStep step = redactStep step') :
    step = step' ∧ fillValue step = none ∨
      ∃ selector value value', step = .fill selector value ∧ step' = .fill selector value' := by
  cases step with
  | fill selector value =>
    cases step' with
    | fill selector' value' =>
      obtain ⟨rfl, -⟩ := Variables.FlowStep.fill.inj h
      exact Or.inr ⟨_, _, _, rfl, rfl⟩
    | _ => cases h
  | _ =>
    cases step' with
    | fill selector' value' => cases h
    | _ => exact Or.inl ⟨h, rfl⟩

theorem steps_eq_of_redact {steps steps' : List Variables.FlowStep}
    (h : steps.map redactStep = steps'.map redactStep)
    (hfills : steps.filterMap fillValue = steps'.filterMap fillValue) : steps = steps' := by
  induction steps generalizing steps' with
  | nil => exact (List.map_eq_nil_iff.mp h.symm).symm
  | cons step steps ih =>
    cases steps' with
    | nil => cases h
    | cons step' steps' =>
      obtain ⟨hstep, hsteps⟩ := List.cons.inj h
      rcases redactStep_cases hstep with ⟨rfl, hnone⟩ | ⟨selector, value, value', rfl, rfl⟩
      · rw [List.filterMap_cons_none hnone, List.filterMap_cons_none hnone] at hfills
        rw [ih hsteps hfills]
      · have hcons : value :: steps.filterMap fillValue = value' :: steps'.filterMap fillValue :=
          hfills
        obtain ⟨rfl, hrest⟩ := List.cons.inj hcons
        rw [ih hsteps hrest]

theorem get?_steps (c : Variables.FlowCheck) :
    (redactCredentials (CheckSpec.flow c).toValue).get? "steps" =
      some (.arr (c.steps.map stepValue)) := by
  rw [get?_redactCredentials, if_neg (by decide)]
  simp [CheckSpec.toValue, CheckSpec.fields, lookup_cons_ite]

theorem redactCheck_cases {a b : CheckSpec} (h : redactCheck a = redactCheck b) :
    (∃ c c', a = .http c ∧ b = .http c') ∨ (∃ c c', a = .flow c ∧ b = .flow c') ∨ a = b := by
  cases a with
  | http c =>
    cases b with
    | http c' => exact Or.inl ⟨c, c', rfl, rfl⟩
    | _ => cases h
  | flow c =>
    cases b with
    | flow c' => exact Or.inr (Or.inl ⟨c, c', rfl, rfl⟩)
    | _ => cases h
  | _ =>
    cases b with
    | http c' => cases h
    | flow c' => cases h
    | _ => exact Or.inr (Or.inr h)

theorem redactCredentials_flow_iff {a b : Variables.FlowCheck}
    (h : redactCheck (.flow a) = redactCheck (.flow b)) :
    redactCredentials (CheckSpec.flow a).toValue = redactCredentials (CheckSpec.flow b).toValue ↔
      (CheckSpec.flow a).fillValues = (CheckSpec.flow b).fillValues := by
  have hcheck := CheckSpec.flow.inj h
  simp only [Variables.FlowCheck.mk.injEq] at hcheck
  obtain ⟨hurl, hsteps, htimeout, hstep, htls⟩ := hcheck
  constructor
  · intro heq
    have hvalues := congrArg (fun v => v.get? "steps") heq
    simp only [get?_steps, Option.some.injEq, Value.arr.injEq] at hvalues
    have hread : ∀ c : Variables.FlowCheck, (CheckSpec.flow c).fillValues =
        (c.steps.map stepValue).filterMap fun v => (v.get? "value").bind Value.asStr? := by
      intro c
      rw [List.filterMap_map]
      exact List.filterMap_congr fun step _ => fillValue_eq step
    rw [hread, hread, hvalues]
  · intro hfills
    have hsame : a = b := by
      cases a
      cases b
      simp only [Variables.FlowCheck.mk.injEq]
      exact ⟨hurl, steps_eq_of_redact hsteps hfills, htimeout, hstep, htls⟩
    rw [hsame]

theorem redactCredentials_eq_iff {a b : CheckSpec} (h : redactCheck a = redactCheck b) :
    redactCredentials a.toValue = redactCredentials b.toValue ↔ a.fillValues = b.fillValues := by
  rcases redactCheck_cases h with ⟨c, c', rfl, rfl⟩ | ⟨c, c', rfl, rfl⟩ | rfl
  · exact iff_of_true (redactCredentials_http h) rfl
  · exact redactCredentials_flow_iff h
  · exact iff_of_true rfl rfl

end

/-- **What the API hides, the export hides, fill values apart.**  Two stored checks that the API
shows alike, each with its credentials encrypted or not, are exported alike exactly when their
flows fill in the same values. -/
theorem export_eq_iff (json : JsonText) (a b : CheckSpec) (h : redactCheck a = redactCheck b)
    (storedA storedB : Value) (hA : AtRest json a storedA) (hB : AtRest json b storedB)
    (row : RawTargetRow) (deletedAt : Option Time) :
    RedactedTarget.fromRow { row with checkSpec := storedA } deletedAt =
        RedactedTarget.fromRow { row with checkSpec := storedB } deletedAt ↔
      a.fillValues = b.fillValues := by
  rw [← redactCredentials_eq_iff h, ← redactCredentials_atRest hA, ← redactCredentials_atRest hB]
  simp [RedactedTarget.fromRow]

namespace One

def row : RawTargetRow where
  id := 1
  name := "health"
  checkSpec := .null
  intervalSecs := 60
  enabled := true
  tags := []
  groupName := none
  ownerUserId := none
  createdAt := 0
  updatedAt := 0

/-- A check whose token is encrypted. -/
def healthAtRest : Value :=
  (health "s3cret").toValue.assign "bearer_token" (wrapEnvelope
    "v1:AAAAAAAAAAAAAAAA:Q6uX0Yn3f8rRHmsbH7-pF8W4LglpgkLz")

theorem token_sealed : encrypt aes drawn (json.toVec (.str "s3cret")) =
    .ok "v1:AAAAAAAAAAAAAAAA:Q6uX0Yn3f8rRHmsbH7-pF8W4LglpgkLz" := by
  decide +kernel

theorem health_encrypted :
    encryptInPlace json aes (fun _ => drawn) (health "s3cret").toValue = .ok healthAtRest := by
  have hbasic : encryptSlot json aes (fun _ => drawn) (health "s3cret").toValue "basic_auth" =
      .ok (health "s3cret").toValue := rfl
  have hslot : (health "s3cret").toValue.get? "bearer_token" = some (.str "s3cret") := rfl
  have htoken : encryptSlot json aes (fun _ => drawn) (health "s3cret").toValue "bearer_token" =
      .ok healthAtRest := by
    rw [encryptSlot, hslot]
    simp only
    rw [token_sealed]
    rfl
  rw [encryptInPlace, credentialPaths, List.foldlM_cons, hbasic]
  exact htoken

/-- A token that is encrypted and another that is not. -/
theorem export_eq_iff_token :
    RedactedTarget.fromRow { row with checkSpec := healthAtRest } none =
        RedactedTarget.fromRow { row with checkSpec := (health "older").toValue } none ↔
      (health "s3cret").fillValues = (health "older").fillValues :=
  export_eq_iff json (health "s3cret") (health "older") rfl _ _
    (Or.inr ⟨aes, fun _ => drawn, health_encrypted⟩) (Or.inl rfl) row none

/-- A flow that logs in. -/
def login (password : String) : CheckSpec :=
  .flow {
    startUrl := "https://app.example/login"
    steps := [.fill "#password" password, .click "#submit", .assertUrl "/home"]
    timeout := 60000
    stepTimeout := 10000
    verifyTls := true }

def readFills (check : Value) : List String :=
  match check.get? "steps" with
  | some (.arr steps) => steps.filterMap fun step => (step.get? "value").bind Value.asStr?
  | _ => []

/-- The API masks a password that the export shows. -/
theorem password_is_exported :
    redactCheck (login "hunter2") = redactCheck (login "letmein") ∧
      RedactedTarget.fromRow { row with checkSpec := (login "hunter2").toValue } none ≠
        RedactedTarget.fromRow { row with checkSpec := (login "letmein").toValue } none := by
  refine ⟨rfl, fun h => ?_⟩
  have hread : ["hunter2"] = ["letmein"] := 
    congrArg (fun t : RedactedTarget => readFills t.check) h
  exact absurd hread (by decide)

end One

end Uptimepage.Secrets
