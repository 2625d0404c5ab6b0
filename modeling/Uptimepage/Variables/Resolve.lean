import Uptimepage.Variables.Secrecy

/-!
# What resolving a check tells

`resolve_http`, the texts of `ResolveError`, and the two maps of a run that differ in the values of
secrets only (`SameButSecrets`).
-/

namespace Uptimepage.Variables

open Text

structure ResolvedHttp where
  url : String
  headers : List (String × String)
  body : Option String
  expectedBodyContains : Option String
deriving DecidableEq

def resolveHttp (c : HttpCheck) (vars : VarMap) : Except ResolveError ResolvedHttp := do
  let url ← resolve (decodeBraceTokens c.url) vars .url
  let headers ← resolveHeaders vars c.headers
  let body ← resolveOpt vars .body c.body
  let expectedBodyContains ← resolveOpt vars .assertion c.expectedBodyContains
  return ⟨url, headers, body, expectedBodyContains⟩

def HttpCheck.resolvedTo (env : Env) (c : HttpCheck) (r : ResolvedHttp) :
    Except ResolveError HttpCheck :=
  match env.parseUrl r.url with
  | none => .error .invalidUrl
  | some url =>
    .ok { c with
      url
      headers := r.headers
      body := r.body
      expectedBodyContains := r.expectedBodyContains }

theorem resolveHttpSpec_eq (env : Env) (c : HttpCheck) (vars : VarMap) :
    resolveHttpSpec env c vars = resolveHttp c vars >>= c.resolvedTo env := by
  unfold resolveHttpSpec resolveHttp
  cases resolve (decodeBraceTokens c.url) vars .url with
  | error e => rfl
  | ok url =>
    cases resolveHeaders vars c.headers with
    | error e => rfl
    | ok headers =>
      cases resolveOpt vars .body c.body with
      | error e => rfl
      | ok body =>
        cases resolveOpt vars .assertion c.expectedBodyContains with
        | error e => rfl
        | ok assertion => rfl

def FieldKind.label : FieldKind → String
  | .url => "URL"
  | .headerValue => "header value"
  | .body => "body"
  | .assertion => "assertion"
  | .stepValue => "step value"

def ResolveError.display : ResolveError → String
  | .unknown key => "unknown variable: " ++ key
  | .secretNotAllowed key field =>
    "secret variable " ++ key ++ " not allowed in " ++ field.label
  | .malformedToken => "malformed variable reference"
  | .invalidUrl => "variable produced an invalid url"

/-! ## Two maps -/

/-- A variable with its value, unless that is secret. -/
def ResolvedVar.known (v : ResolvedVar) : Bool × Option String :=
  (v.isSecret, if v.isSecret then none else some v.value)

def SameButSecrets (vars vars' : VarMap) : Prop :=
  ∀ k, (vars k).map ResolvedVar.known = (vars' k).map ResolvedVar.known

/-- Two results that fail alike, or show alike. -/
def Alike {α β : Type} (view : α → β) (r r' : Except ResolveError α) : Prop :=
  r.map view = r'.map view ∧
    (∀ e e', r = .error e → r' = .error e' → e.display = e'.display)

/-- What is left of a check without the fields that take secrets. -/
def ResolvedHttp.shown (r : ResolvedHttp) : String × List String × Bool × Option String :=
  (r.url, r.headers.map Prod.fst, r.body.isSome, r.expectedBodyContains)

def HttpCheck.shown (c : HttpCheck) : HttpCheck :=
  { c with
    headers := c.headers.map fun h => (h.1, "")
    body := c.body.map fun _ => "" }

def FlowStep.shown : FlowStep → FlowStep
  | .fill selector _ => .fill selector ""
  | step => step

def FlowCheck.shown (c : FlowCheck) : FlowCheck := { c with steps := c.steps.map FlowStep.shown }

section

variable {vars vars' : VarMap} {field : FieldKind} {template : String} {ps : List Piece}
  {rows : List (String × String)}

theorem Alike.of_map {α β : Type} {view : α → β} {r r' : Except ResolveError α}
    (h : r.map view = r'.map view) : Alike view r r' := by
  refine ⟨h, fun e e' he he' => ?_⟩
  rw [he, he'] at h
  exact congrArg ResolveError.display (Except.error.inj h)

theorem map_bind_congr {α β γ δ : Type} {view : α → β} {view' : γ → δ}
    {r r' : Except ResolveError α} {f f' : α → Except ResolveError γ}
    (h : r.map view = r'.map view)
    (hf : ∀ a a', view a = view a' → (f a).map view' = (f' a').map view') :
    (r >>= f).map view' = (r' >>= f').map view' := by
  cases r with
  | error e =>
    cases r' with
    | error e' => exact congrArg Except.error (Except.error.inj h)
    | ok a' => cases h
  | ok a =>
    cases r' with
    | error e' => cases h
    | ok a' => exact hf a a' (Except.ok.inj h)

theorem map_bind_same {α β γ : Type} {view : γ → β} {r : Except ResolveError α}
    {f f' : α → Except ResolveError γ} (hf : ∀ a, (f a).map view = (f' a).map view) :
    (r >>= f).map view = (r >>= f').map view := by
  cases r with
  | error e => rfl
  | ok a => exact hf a

theorem map_map_congr {α β γ δ : Type} {view : α → β} {view' : γ → δ}
    {r r' : Except ResolveError α} {f f' : α → γ} (h : r.map view = r'.map view)
    (hf : ∀ a a', view a = view a' → view' (f a) = view' (f' a')) :
    (r.map f).map view' = (r'.map f').map view' := by
  cases r with
  | error e =>
    cases r' with
    | error e' => exact congrArg Except.error (Except.error.inj h)
    | ok a' => cases h
  | ok a =>
    cases r' with
    | error e' => cases h
    | ok a' => exact congrArg Except.ok (hf a a' (Except.ok.inj h))

theorem fill_sameButSecrets (h : SameButSecrets vars vars') (p : Piece) :
    (p.fill vars field).map (fun _ => ()) = (p.fill vars' field).map (fun _ => ()) ∧
      (field.allowsSecret = false → p.fill vars field = p.fill vars' field) := by
  cases p with
  | text c => exact ⟨rfl, fun _ => rfl⟩
  | token content =>
    have hkey := h (Piece.key content)
    unfold Piece.fill
    by_cases hvalid : validKey (Piece.key content) = true
    · cases hv : vars (Piece.key content) with
      | none =>
        rw [hv] at hkey
        have hv' := Option.map_eq_none_iff.mp hkey.symm
        simp [hvalid, hv, hv']
      | some v =>
        rw [hv] at hkey
        obtain ⟨v', hv', hknown⟩ := Option.map_eq_some_iff.mp hkey.symm
        obtain ⟨value, isSecret⟩ := v
        obtain ⟨value', isSecret'⟩ := v'
        obtain ⟨rfl, hvalue⟩ := Prod.mk.inj hknown
        cases isSecret' with
        | false =>
          obtain rfl : value' = value := Option.some.inj hvalue
          simp [hvalid, hv, hv']
        | true => cases hfield : field.allowsSecret <;> simp [hvalid, hv, hv', Except.map]
    · simp [hvalid]

theorem fillAll_sameButSecrets (h : SameButSecrets vars vars') (ps : List Piece) :
    (fillAll vars field ps).map (fun _ => ()) = (fillAll vars' field ps).map (fun _ => ()) ∧
      (field.allowsSecret = false → fillAll vars field ps = fillAll vars' field ps) := by
  induction ps with
  | nil => exact ⟨rfl, fun _ => rfl⟩
  | cons p ps ih =>
    obtain ⟨hhere, hsame⟩ := @fill_sameButSecrets vars vars' field h p
    unfold fillAll
    constructor
    · refine map_bind_congr hhere fun _ _ _ => map_bind_congr ih.1 fun _ _ _ => rfl
    · intro hfield
      rw [hsame hfield, ih.2 hfield]

theorem resolve_sameButSecrets (h : SameButSecrets vars vars') :
    (resolve template vars field).map (fun _ => ()) =
      (resolve template vars' field).map (fun _ => ()) :=
  map_map_congr (fillAll_sameButSecrets h _).1 fun _ _ _ => rfl

theorem resolve_noSecret (h : SameButSecrets vars vars') (hfield : field.allowsSecret = false) :
    resolve template vars field = resolve template vars' field :=
  congrArg (Except.map String.ofList) ((fillAll_sameButSecrets h _).2 hfield)

theorem resolveHeaders_sameButSecrets (h : SameButSecrets vars vars') :
    (resolveHeaders vars rows).map (List.map Prod.fst) =
      (resolveHeaders vars' rows).map (List.map Prod.fst) := by
  induction rows with
  | nil => rfl
  | cons row rows ih =>
    unfold resolveHeaders
    refine map_bind_congr (resolve_sameButSecrets h) fun _ _ _ =>
      map_bind_congr ih fun rest rest' hrest => ?_
    exact congrArg (fun names => Except.ok (row.1 :: names)) hrest

theorem resolveOpt_sameButSecrets (h : SameButSecrets vars vars') (t : Option String) :
    (resolveOpt vars field t).map Option.isSome = (resolveOpt vars' field t).map Option.isSome := by
  cases t with
  | none => rfl
  | some text => exact map_map_congr (resolve_sameButSecrets h) fun _ _ _ => rfl

theorem resolveOpt_noSecret (h : SameButSecrets vars vars') (hfield : field.allowsSecret = false)
    (t : Option String) : resolveOpt vars field t = resolveOpt vars' field t := by
  cases t with
  | none => rfl
  | some text => exact congrArg (Except.map some) (resolve_noSecret h hfield)

theorem resolveHttp_sameButSecrets (h : SameButSecrets vars vars') (c : HttpCheck) :
    (resolveHttp c vars).map ResolvedHttp.shown = (resolveHttp c vars').map ResolvedHttp.shown := by
  unfold resolveHttp
  rw [resolve_noSecret h rfl, @resolveOpt_noSecret vars vars' .assertion h rfl]
  refine map_bind_same fun url => ?_
  refine map_bind_congr (resolveHeaders_sameButSecrets h) fun headers headers' hheaders => ?_
  refine map_bind_congr (resolveOpt_sameButSecrets h _) fun body body' hbody => ?_
  refine map_bind_same fun assertion => ?_
  exact congrArg Except.ok (by simp only [ResolvedHttp.shown, hheaders, hbody])

theorem map_blank (rows : List (String × String)) :
    rows.map (fun h => (h.1, "")) = (rows.map Prod.fst).map fun name => (name, "") := by
  rw [List.map_map]
  rfl

theorem map_blank_of_isSome {b b' : Option String} (h : b.isSome = b'.isSome) :
    b.map (fun _ => "") = b'.map fun _ => "" := by
  cases b with
  | none =>
    cases b' with
    | none => rfl
    | some => cases h
  | some =>
    cases b' with
    | none => cases h
    | some => rfl

theorem resolvedTo_shown (env : Env) (c : HttpCheck) {r r' : ResolvedHttp}
    (h : r.shown = r'.shown) :
    (c.resolvedTo env r).map HttpCheck.shown = (c.resolvedTo env r').map HttpCheck.shown := by
  obtain ⟨url, headers, body, assertion⟩ := r
  obtain ⟨url', headers', body', assertion'⟩ := r'
  simp only [ResolvedHttp.shown, Prod.mk.injEq] at h
  obtain ⟨rfl, hheaders, hbody, rfl⟩ := h
  unfold HttpCheck.resolvedTo
  cases env.parseUrl url with
  | none => rfl
  | some parsed =>
    simp only [Except.map, HttpCheck.shown, map_blank, hheaders, map_blank_of_isSome hbody]

theorem resolveSteps_sameButSecrets (h : SameButSecrets vars vars') (steps : List FlowStep) :
    (resolveSteps vars steps).map (List.map FlowStep.shown) =
      (resolveSteps vars' steps).map (List.map FlowStep.shown) := by
  induction steps with
  | nil => rfl
  | cons step steps ih =>
    have hrest : ∀ first : FlowStep,
        (resolveSteps vars steps >>= fun rest => Except.ok (first :: rest)).map
            (List.map FlowStep.shown) =
          (resolveSteps vars' steps >>= fun rest => Except.ok (first :: rest)).map
            (List.map FlowStep.shown) := fun first =>
      map_bind_congr ih fun rest rest' hrest =>
        congrArg (fun shown => Except.ok (first.shown :: shown)) hrest
    cases step with
    | fill selector value =>
      unfold resolveSteps
      refine map_bind_congr (resolve_sameButSecrets h) fun _ _ _ =>
        map_bind_congr ih fun rest rest' hrest => ?_
      exact congrArg (fun shown => Except.ok (FlowStep.fill selector "" :: shown)) hrest
    | goto url => exact hrest (.goto url)
    | click selector => exact hrest (.click selector)
    | waitFor selector => exact hrest (.waitFor selector)
    | assertText selector contains => exact hrest (.assertText selector contains)
    | assertUrl contains => exact hrest (.assertUrl contains)

end

/-- **Secrets stay in the fields that take them**: two maps that differ in the values of secrets
only resolve a template of a field that takes none to the same text or the same error, and resolve
any check to the same error, kind and text, or to checks that differ at most in the values of
headers, in the body and in what a flow types. -/
theorem secrets_confined (vars vars' : VarMap) (h : SameButSecrets vars vars') :
    (∀ template field, FieldKind.allowsSecret field = false →
      resolve template vars field = resolve template vars' field) ∧
    (∀ template field, Alike (fun _ => ()) (resolve template vars field)
      (resolve template vars' field)) ∧
    (∀ c : HttpCheck, Alike ResolvedHttp.shown (resolveHttp c vars) (resolveHttp c vars')) ∧
    (∀ (env : Env) (c : HttpCheck), Alike HttpCheck.shown (resolveHttpSpec env c vars)
      (resolveHttpSpec env c vars')) ∧
    ∀ c : FlowCheck, Alike FlowCheck.shown (resolveFlowSpec c vars) (resolveFlowSpec c vars') := by
  refine ⟨fun template field hfield => resolve_noSecret h hfield, fun template field =>
    .of_map (resolve_sameButSecrets h), fun c => .of_map (resolveHttp_sameButSecrets h c),
    fun env c => .of_map ?_, fun c => .of_map ?_⟩
  · rw [resolveHttpSpec_eq, resolveHttpSpec_eq]
    exact map_bind_congr (resolveHttp_sameButSecrets h c) fun _ _ hr => resolvedTo_shown env c hr
  · unfold resolveFlowSpec
    refine map_bind_congr (resolveSteps_sameButSecrets h c.steps) fun steps steps' hsteps => ?_
    exact congrArg (fun shown => Except.ok { c with steps := shown }) hsteps

namespace One

/-- An organisation with one variable, a secret. -/
def token (value : String) : VarMap := fun k => if k = "token" then some ⟨value, true⟩ else none

/-- The secret is asked for by a header and by the URL. -/
def leaky : HttpCheck where
  url := "https://api.example.com/?t={{token}}"
  method := .get
  timeout := 30
  followRedirects := false
  maxRedirects := 0
  expectedStatus := .exact 200
  expectedBodyContains := none
  headers := [("x-token", "{{token}}")]
  body := none
  verifyTls := true
  basicAuth := none
  bearerToken := none

end One

/-- A secret in a URL is refused in the same words, whatever it is. -/
theorem secrets_confined_url :
    SameButSecrets (One.token "old") (One.token "new") ∧
      Alike ResolvedHttp.shown (resolveHttp One.leaky (One.token "old"))
        (resolveHttp One.leaky (One.token "new")) := by
  have hsame : SameButSecrets (One.token "old") (One.token "new") := by
    intro k
    unfold One.token
    split <;> rfl
  exact ⟨hsame, (secrets_confined _ _ hsame).2.2.1 One.leaky⟩

end Uptimepage.Variables
