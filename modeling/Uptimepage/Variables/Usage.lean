import Uptimepage.Targets.Check
import Uptimepage.Text.Json
import Uptimepage.Text.Search
import Uptimepage.Variables.Interpolate

/-!
# What a variable is used by

The checks that interpolate, as they are stored and as they are resolved, `usage_count` of
`storage/variables.rs`, and `validate_variable_refs`.
-/

namespace Uptimepage.Variables

open Text

/-! ## Checks -/

inductive ExpectedStatus
  | exact (code : Nat)
  | range (min max : Nat)
  | oneOf (codes : List Nat)
deriving DecidableEq

/-- A URL is the text it is printed as; the headers are in the order `jsonb` keeps them in. -/
structure HttpCheck where
  url : String
  method : Targets.HttpMethod
  timeout : Nat
  followRedirects : Bool
  maxRedirects : Nat
  expectedStatus : ExpectedStatus
  expectedBodyContains : Option String
  headers : List (String × String)
  body : Option String
  verifyTls : Bool
  basicAuth : Option (String × String)
  bearerToken : Option String
deriving DecidableEq

inductive FlowStep
  | goto (url : String)
  | click (selector : String)
  | fill (selector value : String)
  | waitFor (selector : String)
  | assertText (selector : Option String) (contains : String)
  | assertUrl (contains : String)
deriving DecidableEq

structure FlowCheck where
  startUrl : String
  steps : List FlowStep
  timeout : Nat
  stepTimeout : Nat
  verifyTls : Bool
deriving DecidableEq

/-- In the kinds that are not named nothing is interpolated. -/
inductive CheckSpec
  | http (check : HttpCheck)
  | flow (check : FlowCheck)
  | other (json : List Char)
deriving DecidableEq

/-! ## The stored text -/

/-- `[[:space:]]` of the database's locale: on ASCII it is the six of every locale. -/
structure SpaceClass where
  chars : List Char
  ascii : ∀ c : Char, c.toNat < 128 →
    (c ∈ chars ↔ c = ' ' ∨ (9 ≤ c.toNat ∧ c.toNat ≤ 13))

structure Env where
  spaces : SpaceClass
  /-- `Url::parse`, to the text that the result is printed as. -/
  parseUrl : String → Option String
  /-- What `encrypt_in_place` puts in the place of a credential. -/
  sealCredential : List Char → List Char
  /-- `open_str`. -/
  openStr : String → Option String

def methodName : Targets.HttpMethod → String
  | .get => "GET"
  | .head => "HEAD"
  | .post => "POST"
  | .put => "PUT"
  | .patch => "PATCH"
  | .delete => "DELETE"
  | .options => "OPTIONS"

def ExpectedStatus.json : ExpectedStatus → List Char
  | .exact code => Json.obj [("kind", Json.str "exact"), ("value", Json.num code)]
  | .range min max => Json.obj [("kind", Json.str "range"),
    ("value", Json.obj [("max", Json.num max), ("min", Json.num min)])]
  | .oneOf codes => Json.obj [("kind", Json.str "one_of"),
    ("value", Json.arr (codes.map Json.num))]

def HttpCheck.json (env : Env) (c : HttpCheck) : List Char :=
  Json.obj [("url", Json.str c.url),
    ("body", Json.opt Json.str c.body),
    ("type", Json.str "http"),
    ("method", Json.str (methodName c.method)),
    ("headers", Json.obj (c.headers.map fun h => (h.1, Json.str h.2))),
    ("timeout", Json.num c.timeout),
    ("basic_auth", Json.opt
      (fun a => env.sealCredential (Json.arr [Json.str a.1, Json.str a.2])) c.basicAuth),
    ("verify_tls", Json.bool c.verifyTls),
    ("bearer_token", Json.opt (fun token => env.sealCredential (Json.str token)) c.bearerToken),
    ("max_redirects", Json.num c.maxRedirects),
    ("expected_status", c.expectedStatus.json),
    ("follow_redirects", Json.bool c.followRedirects),
    ("expected_body_contains", Json.opt Json.str c.expectedBodyContains)]

def FlowStep.json : FlowStep → List Char
  | .goto url => Json.obj [("op", Json.str "goto"), ("url", Json.str url)]
  | .click selector => Json.obj [("op", Json.str "click"), ("selector", Json.str selector)]
  | .fill selector value => Json.obj [("op", Json.str "fill"), ("value", Json.str value),
    ("selector", Json.str selector)]
  | .waitFor selector => Json.obj [("op", Json.str "wait_for"), ("selector", Json.str selector)]
  | .assertText selector contains => Json.obj [("op", Json.str "assert_text"),
    ("contains", Json.str contains), ("selector", Json.opt Json.str selector)]
  | .assertUrl contains => Json.obj [("op", Json.str "assert_url"),
    ("contains", Json.str contains)]

def FlowCheck.json (c : FlowCheck) : List Char :=
  Json.obj [("type", Json.str "flow"),
    ("steps", Json.arr (c.steps.map FlowStep.json)),
    ("timeout", Json.num c.timeout),
    ("start_url", Json.str c.startUrl),
    ("verify_tls", Json.bool c.verifyTls),
    ("step_timeout", Json.num c.stepTimeout)]

/-- `check_spec::text`. -/
def CheckSpec.text (env : Env) : CheckSpec → List Char
  | .http check => check.json env
  | .flow check => check.json
  | .other json => json

/-! ## Resolving a check -/

def HttpCheck.usesVars (c : HttpCheck) : Bool :=
  contains opens c.url.toList || contains encodedOpens c.url.toList ||
    c.headers.any (fun h => contains opens h.2.toList) ||
    c.body.any (fun b => contains opens b.toList) ||
    c.expectedBodyContains.any fun a => contains opens a.toList

def resolveOpt (vars : VarMap) (field : FieldKind) : Option String →
    Except ResolveError (Option String)
  | none => .ok none
  | some template => (resolve template vars field).map some

def resolveHeaders (vars : VarMap) :
    List (String × String) → Except ResolveError (List (String × String))
  | [] => .ok []
  | (name, value) :: rest => do
    let value ← resolve value vars .headerValue
    let rest ← resolveHeaders vars rest
    return (name, value) :: rest

/-- `resolve_http`, and what `resolve_http_spec` makes of it. -/
def resolveHttpSpec (env : Env) (c : HttpCheck) (vars : VarMap) :
    Except ResolveError HttpCheck := do
  let url ← resolve (decodeBraceTokens c.url) vars .url
  let headers ← resolveHeaders vars c.headers
  let body ← resolveOpt vars .body c.body
  let expectedBodyContains ← resolveOpt vars .assertion c.expectedBodyContains
  match env.parseUrl url with
  | none => .error .invalidUrl
  | some url => return { c with url, headers, body, expectedBodyContains }

def FlowCheck.usesVars (c : FlowCheck) : Bool :=
  c.steps.any fun
    | .fill _ value => contains opens value.toList
    | _ => false

def resolveSteps (vars : VarMap) : List FlowStep → Except ResolveError (List FlowStep)
  | [] => .ok []
  | .fill selector value :: rest => do
    let value ← resolve value vars .stepValue
    let rest ← resolveSteps vars rest
    return .fill selector value :: rest
  | step :: rest => do
    let rest ← resolveSteps vars rest
    return step :: rest

def resolveFlowSpec (c : FlowCheck) (vars : VarMap) : Except ResolveError FlowCheck := do
  let steps ← resolveSteps vars c.steps
  return { c with steps }

def validateVariableRefs (env : Env) (vars : VarMap) : CheckSpec → Except ResolveError Unit
  | .http check =>
    if check.usesVars then (resolveHttpSpec env check vars).map fun _ => () else .ok ()
  | .flow check =>
    if check.usesVars then (resolveFlowSpec check vars).map fun _ => () else .ok ()
  | .other _ => .ok ()

/-! ## The fields that are interpolated -/

structure Field where
  kind : FieldKind
  text : String
deriving DecidableEq

def Field.template (f : Field) : String :=
  match f.kind with
  | .url => decodeBraceTokens f.text
  | _ => f.text

def Field.keys (f : Field) : List String := Variables.keys f.template

def FlowStep.field : FlowStep → Option Field
  | .fill _ value => some ⟨.stepValue, value⟩
  | _ => none

def HttpCheck.fields (c : HttpCheck) : List Field :=
  ⟨.url, c.url⟩ :: c.headers.map (fun h => ⟨.headerValue, h.2⟩) ++
    (c.body.toList.map fun b => ⟨.body, b⟩) ++
    c.expectedBodyContains.toList.map fun a => ⟨.assertion, a⟩

def CheckSpec.fields : CheckSpec → List Field
  | .http check => check.fields
  | .flow check => check.steps.filterMap FlowStep.field
  | .other _ => []

/-- The keys that resolving the check looks up, when none of them is missing. -/
def CheckSpec.keys (spec : CheckSpec) : List String := spec.fields.flatMap Field.keys

/-- How the fields of the kind write a token that is read. -/
def Spelling.Reads (w : Spelling) : FieldKind → Prop
  | .url => w.opening ∈ [opens, encodedOpens] ∧
    w.closing ∈ [closes, encodedCloses, '}' :: encodedCloses]
  | _ => w.opening = opens ∧ w.closing = closes

variable {f : Field} {α β ε : Type}

theorem mem_fieldKeys {key : String} (h : key ∈ f.keys) :
    validKey key = true ∧
      ∃ w : Spelling, w.Reads f.kind ∧ w.Trimmed ∧ w.write key <:+: f.text.toList := by
  obtain ⟨kind, text⟩ := f
  cases kind with
  | url =>
    obtain ⟨hvalid, w, hopening, hclosing, htrimmed, hwrite⟩ := mem_urlKeys h
    exact ⟨hvalid, w, ⟨hopening, hclosing⟩, htrimmed, hwrite⟩
  | headerValue | body | assertion | stepValue =>
    obtain ⟨hvalid, w, hopening, hclosing, htrimmed, hwrite⟩ := mem_keys h
    exact ⟨hvalid, w, ⟨hopening, hclosing⟩, htrimmed, hwrite⟩

/-! ### What a check that resolves finds -/

theorem bind_ok {x : Except ε α} {f : α → Except ε β} {b : β} (h : (x >>= f) = .ok b) :
    ∃ a, x = .ok a ∧ f a = .ok b := by
  cases x with
  | error e => cases h
  | ok a => exact ⟨a, rfl, h⟩

theorem map_ok {x : Except ε α} {f : α → β} {b : β} (h : x.map f = .ok b) : ∃ a, x = .ok a := by
  cases x with
  | error e => cases h
  | ok a => exact ⟨a, rfl⟩

theorem mem_fields {c : HttpCheck} (h : f ∈ c.fields) :
    f = ⟨.url, c.url⟩ ∨ (∃ x ∈ c.headers, f = ⟨.headerValue, x.2⟩) ∨
      (∃ b, c.body = some b ∧ f = ⟨.body, b⟩) ∨
      ∃ a, c.expectedBodyContains = some a ∧ f = ⟨.assertion, a⟩ := by
  simp only [HttpCheck.fields, List.mem_append, List.mem_cons, List.mem_map,
    Option.mem_toList] at h
  rcases h with ((rfl | ⟨x, hx, rfl⟩) | ⟨b, hb, rfl⟩) | ⟨a, ha, rfl⟩
  · exact .inl rfl
  · exact .inr (.inl ⟨x, hx, rfl⟩)
  · exact .inr (.inr (.inl ⟨b, hb, rfl⟩))
  · exact .inr (.inr (.inr ⟨a, ha, rfl⟩))

theorem mem_steps {steps : List FlowStep} (h : f ∈ steps.filterMap FlowStep.field) :
    ∃ selector value, .fill selector value ∈ steps ∧ f = ⟨.stepValue, value⟩ := by
  obtain ⟨step, hstep, hf⟩ := List.mem_filterMap.mp h
  cases step with
  | fill selector value =>
    cases hf
    exact ⟨selector, value, hstep, rfl⟩
  | goto | click | waitFor | assertText | assertUrl => cases hf

section

variable {env : Env} {vars : VarMap} {field : FieldKind} {spec : CheckSpec}

theorem found_of_fillAll {ps : List Piece} {out : List Char}
    (h : fillAll vars field ps = .ok out) : ∀ k ∈ pieceKeys ps, vars k ≠ none := by
  induction ps generalizing out with
  | nil => exact fun _ h => absurd h List.not_mem_nil
  | cons p ps ih =>
    obtain ⟨here, hhere, h⟩ := bind_ok h
    obtain ⟨rest, hrest, -⟩ := bind_ok h
    cases p with
    | text c => exact ih hrest
    | token content =>
      rw [pieceKeys]
      split
      · next hvalid =>
        intro k hk hnone
        rcases List.mem_cons.mp hk with rfl | hk
        · simp [Piece.fill, hvalid, hnone] at hhere
        · exact ih hrest k hk hnone
      · exact fun _ h => absurd h List.not_mem_nil

theorem found_of_resolve {template out : String} (h : resolve template vars field = .ok out) :
    ∀ k ∈ keys template, vars k ≠ none := by
  obtain ⟨_, h⟩ := map_ok h
  exact found_of_fillAll h

theorem found_of_resolveHeaders {headers out : List (String × String)}
    (h : resolveHeaders vars headers = .ok out) :
    ∀ x ∈ headers, ∀ k ∈ keys x.2, vars k ≠ none := by
  induction headers generalizing out with
  | nil => exact fun _ h => absurd h List.not_mem_nil
  | cons row headers ih =>
    obtain ⟨value, hvalue, h⟩ := bind_ok h
    obtain ⟨rest, hrest, -⟩ := bind_ok h
    exact List.forall_mem_cons.mpr ⟨found_of_resolve hvalue, ih hrest⟩

theorem found_of_resolveSteps {steps out : List FlowStep} (h : resolveSteps vars steps = .ok out) :
    ∀ selector value, .fill selector value ∈ steps → ∀ k ∈ keys value, vars k ≠ none := by
  induction steps generalizing out with
  | nil => exact fun _ _ h => absurd h List.not_mem_nil
  | cons step steps ih =>
    intro selector value hmem
    cases step with
    | fill selector' value' =>
      obtain ⟨_, hvalue, h⟩ := bind_ok h
      obtain ⟨rest, hrest, -⟩ := bind_ok h
      rcases List.mem_cons.mp hmem with heq | hmem
      · cases heq
        exact found_of_resolve hvalue
      · exact ih hrest selector value hmem
    | goto | click | waitFor | assertText | assertUrl =>
      obtain ⟨rest, hrest, -⟩ := bind_ok h
      exact ih hrest selector value ((List.mem_cons.mp hmem).resolve_left fun h => by cases h)

theorem opening_infix {key : String} {w : Spelling} (h : w.write key <:+: f.text.toList) :
    contains w.opening f.text.toList = true := by
  refine contains_iff.2 (List.IsInfix.trans ?_ h)
  unfold Spelling.write
  rw [List.append_assoc]
  exact (List.prefix_append _ _).isInfix

/-- A field that asks for a key is written with braces, so the check is looked into. -/
theorem HttpCheck.usesVars_of_mem {c : HttpCheck} {key : String} (hf : f ∈ c.fields)
    (hkey : key ∈ f.keys) : c.usesVars = true := by
  obtain ⟨-, w, hreads, -, hwrite⟩ := mem_fieldKeys hkey
  have hopening := opening_infix hwrite
  unfold HttpCheck.usesVars
  rcases mem_fields hf with rfl | ⟨x, hx, rfl⟩ | ⟨b, hb, rfl⟩ | ⟨a, ha, rfl⟩
  · rcases List.mem_pair.mp hreads.1 with ho | ho <;> rw [ho] at hopening <;> simp [hopening]
  all_goals rw [hreads.1] at hopening
  · simp only [Bool.or_eq_true, List.any_eq_true]
    exact .inl (.inl (.inr ⟨x, hx, hopening⟩))
  · simp [hb, hopening]
  · simp [ha, hopening]

theorem FlowCheck.usesVars_of_mem {c : FlowCheck} {key selector value : String}
    (hstep : .fill selector value ∈ c.steps) (hkey : key ∈ keys value) : c.usesVars = true := by
  obtain ⟨-, w, hreads, -, hwrite⟩ := mem_fieldKeys (f := ⟨.stepValue, value⟩) hkey
  have hopening := opening_infix hwrite
  rw [hreads.1] at hopening
  exact List.any_eq_true.mpr ⟨_, hstep, hopening⟩

theorem found_of_validated (h : validateVariableRefs env vars spec = .ok ()) :
    ∀ k ∈ spec.keys, vars k ≠ none := by
  intro k hk
  obtain ⟨f, hf, hkey⟩ := List.mem_flatMap.mp hk
  cases spec with
  | http c =>
    rw [validateVariableRefs, if_pos (HttpCheck.usesVars_of_mem hf hkey)] at h
    obtain ⟨_, h⟩ := map_ok h
    obtain ⟨_, hurl, h⟩ := bind_ok h
    obtain ⟨_, hheaders, h⟩ := bind_ok h
    obtain ⟨_, hbody, h⟩ := bind_ok h
    obtain ⟨_, hassertion, -⟩ := bind_ok h
    rcases mem_fields hf with rfl | ⟨x, hx, rfl⟩ | ⟨b, hb, rfl⟩ | ⟨a, ha, rfl⟩
    · exact found_of_resolve hurl k hkey
    · exact found_of_resolveHeaders hheaders x hx k hkey
    · rw [hb] at hbody
      obtain ⟨_, hbody⟩ := map_ok hbody
      exact found_of_resolve hbody k hkey
    · rw [ha] at hassertion
      obtain ⟨_, hassertion⟩ := map_ok hassertion
      exact found_of_resolve hassertion k hkey
  | flow c =>
    obtain ⟨selector, value, hstep, rfl⟩ := mem_steps hf
    rw [validateVariableRefs, if_pos (FlowCheck.usesVars_of_mem hstep hkey)] at h
    obtain ⟨_, h⟩ := map_ok h
    obtain ⟨_, hsteps, -⟩ := bind_ok h
    exact found_of_resolveSteps hsteps selector value hstep k hkey
  | other => cases hf

end

/-! ## Counting -/

/-- `'\{\{[[:space:]]*' || key || '[[:space:]]*\}\}'`. -/
def tokenPattern (env : Env) (key : String) : RegularExpression Char :=
  let spaces := (RegularExpression.anyOf env.spaces.chars).star
  .word opens * (spaces * (.word key.toList * (spaces * .word closes)))

/-- The condition of `usage_count` on one text. -/
def referenced (env : Env) (key : String) (text : List Char) : Bool :=
  (tokenPattern env key).search text ||
    contains (encodedOpens ++ key.toList ++ encodedCloses) text

/-- A spelling that `usage_count` sees. -/
inductive Spelling.Counted (env : Env) (w : Spelling) : Prop
  | literal (hopening : w.opening = opens) (hclosing : w.closing = closes)
      (hspaces : ∀ c ∈ w.before ++ w.after, c ∈ env.spaces.chars ∧ Json.Plain c)
  | encoded (hopening : w.opening = encodedOpens) (hclosing : w.closing = encodedCloses)
      (hbefore : w.before = []) (hafter : w.after = [])

theorem plain_key {key : String} (h : validKey key = true) : ∀ c ∈ key.toList, Json.Plain c := by
  intro c hc
  have hkey := (validKey_chars h).2 c hc
  refine ⟨?_, ?_, ?_⟩
  · rintro rfl
    revert hkey
    decide
  · rintro rfl
    revert hkey
    decide
  · simp only [isKeyChar, isAsciiLowercase, isAsciiDigit, Bool.or_eq_true, Bool.and_eq_true,
      decide_eq_true_eq, beq_iff_eq] at hkey
    rcases hkey with (hlower | hdigit) | rfl
    · omega
    · omega
    · decide

variable {env : Env} {w : Spelling} {spec : CheckSpec}

theorem tokenPattern_rmatch {key : String} (hopening : w.opening = opens)
    (hclosing : w.closing = closes) (hspaces : ∀ c ∈ w.before ++ w.after, c ∈ env.spaces.chars) :
    (tokenPattern env key).rmatch (w.write key) = true := by
  have hbefore : ∀ c ∈ w.before, c ∈ env.spaces.chars :=
    fun c hc => hspaces c (List.mem_append_left _ hc)
  have hafter : ∀ c ∈ w.after, c ∈ env.spaces.chars :=
    fun c hc => hspaces c (List.mem_append_right _ hc)
  simp only [tokenPattern, RegularExpression.mul_rmatch_iff]
  refine ⟨opens, w.before ++ (key.toList ++ (w.after ++ closes)), ?_,
    RegularExpression.word_rmatch_iff.2 rfl, w.before, key.toList ++ (w.after ++ closes), rfl,
    RegularExpression.star_anyOf_rmatch_iff.2 hbefore, key.toList, w.after ++ closes, rfl,
    RegularExpression.word_rmatch_iff.2 rfl, w.after, closes, rfl,
    RegularExpression.star_anyOf_rmatch_iff.2 hafter, RegularExpression.word_rmatch_iff.2 rfl⟩
  simp [Spelling.write, Spelling.content, hopening, hclosing]

theorem referenced_of_write {key s : String} {text : List Char} (hvalid : validKey key = true)
    (hcounted : w.Counted env) (hwrite : w.write key <:+: s.toList) (htext : Json.str s <:+: text) :
    referenced env key text = true := by
  unfold referenced
  rw [Bool.or_eq_true]
  have hstr : (∀ c ∈ w.write key, Json.Plain c) → w.write key <:+: text :=
    fun h => (Json.infix_str h hwrite).trans htext
  have hplain : ∀ c ∈ opens ++ closes ++ (encodedOpens ++ encodedCloses), Json.Plain c := by
    intro c hc
    have hall : (opens ++ closes ++ (encodedOpens ++ encodedCloses)).all
        (fun c => decide (c ∈ ['{', '}', '%', '7', 'B', 'D'])) = true := rfl
    have hbraces := of_decide_eq_true (List.all_eq_true.mp hall c hc)
    simp only [List.mem_cons, List.not_mem_nil, or_false] at hbraces
    rcases hbraces with rfl | rfl | rfl | rfl | rfl | rfl <;> exact ⟨by decide, by decide, by decide⟩
  cases hcounted with
  | literal hopening hclosing hspaces =>
    left
    refine RegularExpression.search_iff.2 ⟨w.write key, hstr fun c hc => ?_,
      tokenPattern_rmatch hopening hclosing fun c hc => (hspaces c hc).1⟩
    simp only [Spelling.write, Spelling.content, hopening, hclosing, List.mem_append] at hc
    simp only [List.mem_append] at hplain hspaces
    rcases hc with (hc | (hc | hc) | hc) | hc
    · exact hplain c (.inl (.inl hc))
    · exact (hspaces c (.inl hc)).2
    · exact plain_key hvalid c hc
    · exact (hspaces c (.inr hc)).2
    · exact hplain c (.inl (.inr hc))
  | encoded hopening hclosing hbefore hafter =>
    right
    have heq : encodedOpens ++ key.toList ++ encodedCloses = w.write key := by
      simp [Spelling.write, Spelling.content, hopening, hclosing, hbefore, hafter]
    rw [contains_iff, heq]
    refine hstr fun c hc => ?_
    rw [← heq] at hc
    simp only [List.mem_append] at hc hplain
    rcases hc with (hc | hc) | hc
    · exact hplain c (.inr (.inl hc))
    · exact plain_key hvalid c hc
    · exact hplain c (.inr (.inr hc))

theorem str_infix_text (env : Env) (h : f ∈ spec.fields) : Json.str f.text <:+: spec.text env := by
  cases spec with
  | http c =>
    rcases mem_fields h with rfl | ⟨x, hx, rfl⟩ | ⟨b, hb, rfl⟩ | ⟨a, ha, rfl⟩
    · exact Json.infix_obj "url" List.infix_rfl (by simp)
    · have hheader : (x.1, Json.str x.2) ∈ c.headers.map fun h => (h.1, Json.str h.2) :=
        List.mem_map.mpr ⟨x, hx, rfl⟩
      exact Json.infix_obj "headers" (Json.infix_obj x.1 List.infix_rfl hheader) (by simp)
    · have hbody : Json.str b <:+: Json.opt Json.str c.body := by
        rw [hb]
        exact List.infix_rfl
      exact Json.infix_obj "body" hbody (by simp)
    · have hexpected : Json.str a <:+: Json.opt Json.str c.expectedBodyContains := by
        rw [ha]
        exact List.infix_rfl
      exact Json.infix_obj "expected_body_contains" hexpected (by simp)
  | flow c =>
    obtain ⟨selector, value, hstep, rfl⟩ := mem_steps h
    have hvalue : Json.str value <:+: (FlowStep.fill selector value).json :=
      Json.infix_obj "value" List.infix_rfl (by simp)
    have hjson : (FlowStep.fill selector value).json ∈ c.steps.map FlowStep.json :=
      List.mem_map.mpr ⟨_, hstep, rfl⟩
    exact Json.infix_obj "steps" (Json.infix_arr hvalue hjson) (by simp)
  | other json => cases h

/-- For each key the check asks for, one of the fields that ask for it spells it as it is
counted. -/
def PlainlySpelled (env : Env) (spec : CheckSpec) : Prop :=
  ∀ key ∈ spec.keys, ∃ f ∈ spec.fields, key ∈ f.keys ∧
    ∀ w : Spelling, w.Reads f.kind → w.Trimmed → w.write key <:+: f.text.toList → w.Counted env

theorem referenced_of_mem {key : String} (h : PlainlySpelled env spec) (hkey : key ∈ spec.keys) :
    referenced env key (spec.text env) = true := by
  obtain ⟨f, hf, hasks, hcounted⟩ := h key hkey
  obtain ⟨hvalid, w, hreads, htrimmed, hwrite⟩ := mem_fieldKeys hasks
  exact referenced_of_write hvalid (hcounted w hreads htrimmed hwrite) hwrite
    (str_infix_text env hf)

end Uptimepage.Variables
