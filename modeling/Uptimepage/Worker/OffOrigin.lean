import Uptimepage.Variables.Secrecy
import Uptimepage.Worker.HttpCheck

/-!
# What leaves the origin

A template is resolved with secret values and run against a chain of responses.  Off the origin
the credentials of the check are left out, and so are the headers whose names are listed; a header
of another name, and a body that 307 and 308 keep, go where the responses lead.
-/

namespace Uptimepage.HttpChecks

open Variables

/-- The secret values of a run. -/
structure Confidential where
  basicAuth : Option (String × String)
  bearerToken : Option String
  value : String → String

def withCredentials (template : Variables.HttpCheck) (s : Confidential) : Variables.HttpCheck :=
  { template with
    basicAuth := s.basicAuth
    bearerToken := s.bearerToken }

/-- A template as it is run. -/
def resolved (env : Env) (template : Variables.HttpCheck) (base : VarMap) (s : Confidential) :
    Except ResolveError Variables.HttpCheck :=
  if template.usesVars then
    resolveHttpSpec env (withCredentials template s) (withSecrets base s.value)
  else .ok (withCredentials template s)

/-- The requests off the origin are the same for all secrets. -/
def SameOffOrigin (net : Net) (env : Env) (template : Variables.HttpCheck) (base : VarMap)
    (chain : Nat → Hop) : Prop :=
  ∀ s s' check check', resolved env template base s = .ok check →
    resolved env template base s' = .ok check' →
      offOrigin net check (doHttpCheck net check chain).1 =
        offOrigin net check' (doHttpCheck net check' chain).1

/-- Some secrets make it a header's value. -/
def CanBeSent (net : Net) (base : VarMap) (text : String) : Prop :=
  ∃ values out, resolve text (withSecrets base values) .headerValue = .ok out ∧
    net.isHeaderValue out = true

/-- A header that is sent off the origin under its name asks for no secret. -/
def RowConfined (net : Net) (base : VarMap) (bodyless : Bool) (row : String × String) : Prop :=
  skipped false false bodyless row.1 = false → (net.headerName row.1).isSome = true →
    CanBeSent net base row.2 → ¬AsksSecret base row.2

/-- Nothing that is sent to a URL off the origin asks for a secret. -/
def Confined (net : Net) (env : Env) (template : Variables.HttpCheck) (base : VarMap)
    (chain : Nat → Hop) : Prop :=
  ∀ s check, resolved env template base s = .ok check → ∀ v ∈ visits net check chain,
    net.origin v.url ≠ net.origin check.url →
      (∀ row ∈ template.headers,
        RowConfined net base (!v.kept || template.body.isNone) row) ∧
        (v.kept = true → ∀ body ∈ template.body, ¬AsksSecret base body)

section

variable {net : Net} {env : Env} {template check check' : Variables.HttpCheck} {base : VarMap}
  {s s' : Confidential} {vars vars' : VarMap} {rows out out' : List (String × String)}
  {chain : Nat → Hop}

/-! ## What resolving leaves of a template -/

theorem resolveHeaders_plain (h : rows.any (fun h => Text.contains opens h.2.toList) = false) :
    resolveHeaders vars rows = .ok rows := by
  induction rows with
  | nil => rfl
  | cons row rows ih =>
    rw [List.any_cons, Bool.or_eq_false_iff] at h
    rw [resolveHeaders, resolve_plain vars h.1, ih h.2]
    rfl

structure Resolved (template : Variables.HttpCheck) (base : VarMap) (s : Confidential)
    (check : Variables.HttpCheck) : Prop where
  method_eq : check.method = template.method
  follow_eq : check.followRedirects = template.followRedirects
  max_eq : check.maxRedirects = template.maxRedirects
  headers_eq : resolveHeaders (withSecrets base s.value) template.headers = .ok check.headers
  body_eq : resolveOpt (withSecrets base s.value) .body template.body = .ok check.body

theorem resolved_spec (h : resolved env template base s = .ok check) :
    Resolved template base s check := by
  unfold resolved at h
  split at h
  · obtain ⟨url, -, h⟩ := bind_ok h
    obtain ⟨headers, hheaders, h⟩ := bind_ok h
    obtain ⟨body, hbody, h⟩ := bind_ok h
    obtain ⟨assertion, -, h⟩ := bind_ok h
    split at h
    · cases h
    · obtain rfl := Except.ok.inj h
      exact ⟨rfl, rfl, rfl, hheaders, hbody⟩
  · next hplain =>
    obtain rfl := Except.ok.inj h
    rw [Bool.not_eq_true] at hplain
    simp only [HttpCheck.usesVars, Bool.or_eq_false_iff] at hplain
    refine ⟨rfl, rfl, rfl, resolveHeaders_plain hplain.1.1.2, ?_⟩
    show resolveOpt _ _ template.body = .ok template.body
    cases hbody : template.body with
    | none => rfl
    | some body =>
      have hnone := hplain.1.2
      rw [hbody] at hnone
      rw [resolveOpt, resolve_plain _ hnone]
      rfl

variable {values : String → String} {field : FieldKind} {β : Type} {name v v' text : String}
  {bodyless : Bool} {row : String × String}

theorem resolveHeaders_resolves (values' : String → String)
    (h : resolveHeaders (withSecrets base values) rows = .ok out) :
    ∃ out', resolveHeaders (withSecrets base values') rows = .ok out' := by
  induction rows generalizing out with
  | nil => exact ⟨[], rfl⟩
  | cons row rows ih =>
    obtain ⟨value, hvalue, h⟩ := bind_ok h
    obtain ⟨rest, hrest, -⟩ := bind_ok h
    obtain ⟨value', hvalue'⟩ := resolve_resolves values' hvalue
    obtain ⟨rest', hrest'⟩ := ih hrest
    refine ⟨(row.1, value') :: rest', ?_⟩
    rw [resolveHeaders, hvalue', hrest']
    rfl

theorem resolveOpt_resolves (values' : String → String) {t o : Option String}
    (h : resolveOpt (withSecrets base values) field t = .ok o) :
    ∃ o', resolveOpt (withSecrets base values') field t = .ok o' := by
  cases t with
  | none => exact ⟨none, rfl⟩
  | some text =>
    obtain ⟨value, hvalue⟩ := map_ok h
    obtain ⟨value', hvalue'⟩ := resolve_resolves values' hvalue
    exact ⟨some value', by rw [resolveOpt, hvalue']; rfl⟩

theorem resolved_transfer (s' : Confidential) (h : resolved env template base s = .ok check) :
    ∃ check', resolved env template base s' = .ok check' ∧ check'.url = check.url := by
  unfold resolved at h ⊢
  split at h
  · next huses =>
    rw [if_pos huses]
    obtain ⟨url, hurl, h⟩ := bind_ok h
    obtain ⟨headers, hheaders, h⟩ := bind_ok h
    obtain ⟨body, hbody, h⟩ := bind_ok h
    obtain ⟨assertion, hassertion, h⟩ := bind_ok h
    obtain ⟨headers', hheaders'⟩ := resolveHeaders_resolves s'.value hheaders
    obtain ⟨body', hbody'⟩ := resolveOpt_resolves s'.value hbody
    obtain ⟨assertion', hassertion'⟩ := resolveOpt_resolves s'.value hassertion
    have hurl' : resolve (decodeBraceTokens template.url) (withSecrets base s'.value) .url =
        .ok url := by
      rw [← hurl]
      exact resolve_noSecrets rfl
    split at h
    · cases h
    · next parsed hparsed =>
      obtain rfl := Except.ok.inj h
      refine ⟨{ withCredentials template s' with
        url := parsed
        headers := headers'
        body := body'
        expectedBodyContains := assertion' }, ?_, rfl⟩
      have hheaders'' : resolveHeaders (withSecrets base s'.value)
          (withCredentials template s').headers = .ok headers' := hheaders'
      have hbody'' : resolveOpt (withSecrets base s'.value) .body
          (withCredentials template s').body = .ok body' := hbody'
      have hassertion'' : resolveOpt (withSecrets base s'.value) .assertion
          (withCredentials template s').expectedBodyContains = .ok assertion' := hassertion'
      have hurl'' : resolve (decodeBraceTokens (withCredentials template s').url)
          (withSecrets base s'.value) .url = .ok url := hurl'
      rw [resolveHttpSpec, hurl'', hheaders'', hbody'', hassertion'']
      simp only [bind, Except.bind, hparsed]
      rfl
  · next hplain =>
    obtain rfl := Except.ok.inj h
    rw [if_neg hplain]
    exact ⟨_, rfl, rfl⟩

/-! ## Rows -/

theorem map_eq_of_rows (g : String × String → β)
    (hrow : ∀ row ∈ rows, ∀ v v', resolve row.2 vars .headerValue = .ok v →
      resolve row.2 vars' .headerValue = .ok v' → g (row.1, v) = g (row.1, v'))
    (h : resolveHeaders vars rows = .ok out) (h' : resolveHeaders vars' rows = .ok out') :
    out.map g = out'.map g := by
  induction rows generalizing out out' with
  | nil =>
    obtain rfl := Except.ok.inj h
    obtain rfl := Except.ok.inj h'
    rfl
  | cons row rows ih =>
    obtain ⟨hhead, htail⟩ := List.forall_mem_cons.mp hrow
    obtain ⟨v, hv, h⟩ := bind_ok h
    obtain ⟨rest, hrest, h⟩ := bind_ok h
    obtain ⟨v', hv', h'⟩ := bind_ok h'
    obtain ⟨rest', hrest', h'⟩ := bind_ok h'
    obtain rfl := Except.ok.inj h
    obtain rfl := Except.ok.inj h'
    rw [List.map_cons, List.map_cons, hhead v v' hv hv', ih htail hrest hrest']

theorem row_of_map_eq (g : String × String → β) (hmap : out.map g = out'.map g)
    (h : resolveHeaders vars rows = .ok out) (h' : resolveHeaders vars' rows = .ok out') :
    ∀ row ∈ rows, ∃ v v', resolve row.2 vars .headerValue = .ok v ∧
      resolve row.2 vars' .headerValue = .ok v' ∧ g (row.1, v) = g (row.1, v') := by
  induction rows generalizing out out' with
  | nil => exact fun _ hrow => absurd hrow List.not_mem_nil
  | cons row rows ih =>
    obtain ⟨v, hv, h⟩ := bind_ok h
    obtain ⟨rest, hrest, h⟩ := bind_ok h
    obtain ⟨v', hv', h'⟩ := bind_ok h'
    obtain ⟨rest', hrest', h'⟩ := bind_ok h'
    obtain rfl := Except.ok.inj h
    obtain rfl := Except.ok.inj h'
    rw [List.map_cons, List.map_cons] at hmap
    obtain ⟨hhead, htail⟩ := List.cons.inj hmap
    intro row' hrow'
    rcases List.mem_cons.mp hrow' with rfl | hrow'
    · exact ⟨v, v', hv, hv', hhead⟩
    · exact ih htail hrest hrest' row' hrow'

theorem eq_of_filterMap_eq {α : Type} {xs ys : List (Option α)}
    (hgaps : xs.map Option.isSome = ys.map Option.isSome)
    (h : xs.filterMap id = ys.filterMap id) : xs = ys := by
  induction xs generalizing ys with
  | nil => exact (List.map_eq_nil_iff.mp hgaps.symm).symm
  | cons x xs ih =>
    cases ys with
    | nil => cases hgaps
    | cons y ys =>
      rw [List.map_cons, List.map_cons] at hgaps
      obtain ⟨hhead, htail⟩ := List.cons.inj hgaps
      cases x with
      | none =>
        cases y with
        | none => exact congrArg (none :: ·) (ih htail h)
        | some y => cases hhead
      | some x =>
        cases y with
        | none => cases hhead
        | some y =>
          have hcons : x :: xs.filterMap id = y :: ys.filterMap id := h
          obtain ⟨rfl, hrest⟩ := List.cons.inj hcons
          exact congrArg (some x :: ·) (ih htail hrest)

theorem requestFor_offOrigin {v : Visit} (hoff : net.origin v.url ≠ net.origin check.url) :
    (sentAt net check v).request =
      { method := keptMethod check v.kept
        target := v.target.1
        headers := defaultHeader net check "user-agent" net.userAgent ++
          defaultHeader net check "accept" "*/*" ++ [("accept-encoding", "gzip, br")] ++
          (if check.headers.any fun h => eqIgnoreAsciiCase h.1 "host" then []
            else v.target.2.toList.map fun host => ("host", host)) ++
          (check.headers.map
            (headerRow net false false (keptBody check v.kept).isNone)).filterMap id
        body := (keptBody check v.kept).getD "" } := by
  have hfalse : decide (net.origin v.url = net.origin check.url) = false := decide_eq_false hoff
  rw [sentAt, hfalse, List.filterMap_map]
  simp [requestFor, fieldAuthz]

theorem skipped_default {k : String} (bodyless : Bool) (hname : name ∈ ["user-agent", "accept"])
    (h : eqIgnoreAsciiCase k name = true) : skipped false false bodyless k = false := by
  have hdefault : ∀ name ∈ ["user-agent", "accept"], ∀ bodyless,
      skipped false false bodyless name = false := by decide +kernel
  have hlower : toAsciiLowercase k = toAsciiLowercase name := of_decide_eq_true h
  have hsame : skipped false false bodyless k = skipped false false bodyless name := by
    unfold skipped eqIgnoreAsciiCase
    rw [hlower]
  rw [hsame]
  exact hdefault name hname bodyless

theorem isNone_keptBody {kept : Bool} (h : Resolved template base s check) :
    (keptBody check kept).isNone = (!kept || template.body.isNone) := by
  cases kept with
  | false => rfl
  | true =>
    have hbody := h.body_eq
    show check.body.isNone = template.body.isNone
    cases htemplate : template.body with
    | none =>
      rw [htemplate] at hbody
      rw [← Except.ok.inj hbody]
    | some text =>
      rw [htemplate] at hbody
      unfold resolveOpt at hbody
      dsimp only at hbody
      cases hvalue : resolve text (withSecrets base s.value) .body with
      | error e =>
        rw [hvalue] at hbody
        cases hbody
      | ok value =>
        rw [hvalue] at hbody
        rw [← Except.ok.inj hbody]
        rfl

/-! ## Confined, and the same -/

theorem row_same (hconfined : RowConfined net base bodyless row)
    (hv : resolve row.2 (withSecrets base s.value) .headerValue = .ok v)
    (hv' : resolve row.2 (withSecrets base s'.value) .headerValue = .ok v')
    (hskipped : skipped false false bodyless row.1 = false)
    (hname : (net.headerName row.1).isSome = true) :
    (net.isHeaderValue v = false ∧ net.isHeaderValue v' = false) ∨ v = v' := by
  by_cases hsent : CanBeSent net base row.2
  · right
    have hsame : resolve row.2 (withSecrets base s.value) .headerValue =
        resolve row.2 (withSecrets base s'.value) .headerValue :=
      resolve_public (hconfined hskipped hname hsent)
    rw [hsame] at hv
    exact Except.ok.inj (hv.symm.trans hv')
  · left
    constructor
    · exact Bool.eq_false_iff.mpr fun hvalid => hsent ⟨_, _, hv, hvalid⟩
    · exact Bool.eq_false_iff.mpr fun hvalid => hsent ⟨_, _, hv', hvalid⟩

theorem headerRow_same (hconfined : RowConfined net base bodyless row)
    (hv : resolve row.2 (withSecrets base s.value) .headerValue = .ok v)
    (hv' : resolve row.2 (withSecrets base s'.value) .headerValue = .ok v') :
    headerRow net false false bodyless (row.1, v) =
      headerRow net false false bodyless (row.1, v') := by
  unfold headerRow
  dsimp only
  split
  · rfl
  · next hskipped =>
    cases hname : net.headerName row.1 with
    | none => rfl
    | some name =>
      dsimp only
      rcases row_same hconfined hv hv' (Bool.eq_false_iff.mpr hskipped) (by rw [hname]; rfl) with
        ⟨hinvalid, hinvalid'⟩ | rfl
      · rw [hinvalid, hinvalid']
        rfl
      · rfl

theorem overrides_same (hconfined : RowConfined net base bodyless row)
    (hv : resolve row.2 (withSecrets base s.value) .headerValue = .ok v)
    (hv' : resolve row.2 (withSecrets base s'.value) .headerValue = .ok v')
    (hmem : name ∈ ["user-agent", "accept"]) :
    (eqIgnoreAsciiCase row.1 name && net.isHeaderValue v) =
      (eqIgnoreAsciiCase row.1 name && net.isHeaderValue v') := by
  cases heq : eqIgnoreAsciiCase row.1 name with
  | false => rfl
  | true =>
    have hname := net.headerName_known row.1 name hmem heq
    rcases row_same hconfined hv hv' (skipped_default bodyless hmem heq) (by rw [hname]; rfl) with
      ⟨hinvalid, hinvalid'⟩ | rfl
    · rw [hinvalid, hinvalid']
    · rfl

theorem any_eq_of_map {p : String × String → Bool} (h : out.map p = out'.map p) :
    out.any p = out'.any p := by
  have hany := congrArg (fun l => l.any id) h
  rwa [List.any_map, List.any_map] at hany

theorem defaultHeader_eq {value : String}
    (h : (check.headers.map fun h => eqIgnoreAsciiCase h.1 name && net.isHeaderValue h.2) =
      check'.headers.map fun h => eqIgnoreAsciiCase h.1 name && net.isHeaderValue h.2) :
    defaultHeader net check name value = defaultHeader net check' name value := by
  unfold defaultHeader overridesHeader
  rw [any_eq_of_map h]

theorem host_eq (h : Resolved template base s check) (h' : Resolved template base s' check') :
    (check.headers.any fun h => eqIgnoreAsciiCase h.1 "host") =
      check'.headers.any fun h => eqIgnoreAsciiCase h.1 "host" :=
  any_eq_of_map (map_eq_of_rows _ (fun _ _ _ _ _ _ => rfl) h.headers_eq h'.headers_eq)

theorem sentAt_same {v : Visit} (h : Resolved template base s check)
    (h' : Resolved template base s' check') (hurl : check'.url = check.url)
    (hoff : net.origin v.url ≠ net.origin check.url)
    (hrows : ∀ row ∈ template.headers,
      RowConfined net base (!v.kept || template.body.isNone) row)
    (hbody : v.kept = true → ∀ body ∈ template.body, ¬AsksSecret base body) :
    sentAt net check v = sentAt net check' v := by
  have hmethod : keptMethod check v.kept = keptMethod check' v.kept := by
    unfold keptMethod
    rw [h.method_eq, h'.method_eq]
  have hkept : keptBody check v.kept = keptBody check' v.kept := by
    cases hkept : v.kept with
    | false => rfl
    | true =>
      have hopt : resolveOpt (withSecrets base s.value) .body template.body =
          resolveOpt (withSecrets base s'.value) .body template.body := by
        cases htemplate : template.body with
        | none => rfl
        | some text =>
          exact congrArg (Except.map some) (resolve_public (hbody hkept text htemplate))
      exact Except.ok.inj (h.body_eq.symm.trans (hopt.trans h'.body_eq))
  have hrow : check.headers.map (headerRow net false false (keptBody check v.kept).isNone) =
      check'.headers.map (headerRow net false false (keptBody check' v.kept).isNone) := by
    rw [← hkept, isNone_keptBody h]
    exact map_eq_of_rows _ (fun row hmem _ _ hv hv' => headerRow_same (hrows row hmem) hv hv')
      h.headers_eq h'.headers_eq
  have hdefault : ∀ name ∈ ["user-agent", "accept"], ∀ value,
      defaultHeader net check name value = defaultHeader net check' name value := by
    intro name hname value
    refine defaultHeader_eq (map_eq_of_rows _ (fun row hmem v v' hv hv' => ?_) h.headers_eq
      h'.headers_eq)
    dsimp only
    exact overrides_same (hrows row hmem) hv hv' hname
  have hoff' : net.origin v.url ≠ net.origin check'.url := by rwa [hurl]
  have hrequest : (sentAt net check v).request = (sentAt net check' v).request := by
    rw [requestFor_offOrigin hoff, requestFor_offOrigin hoff', hmethod, hrow, host_eq h h',
      hdefault "user-agent" (by simp), hdefault "accept" (by simp), hkept]
  exact congrArg (Sent.mk v.url) hrequest

/-! ## The same, and confined -/

theorem visits_eq (h : Resolved template base s check) (h' : Resolved template base s' check')
    (hurl : check'.url = check.url) : visits net check' chain = visits net check chain := by
  unfold visits effectiveMaxRedirects
  rw [hurl, h.follow_eq, h'.follow_eq, h.max_eq, h'.max_eq]

def lettered (c : Char) : Confidential := ⟨none, none, fun _ => String.singleton c⟩

variable {c : Char}

theorem lettered_all (hc : net.fieldChar c = true) (k : String) :
    ((lettered c).value k).toList.all net.fieldChar = true := by
  simp [lettered, hc]

theorem valid_lettered (hc : net.fieldChar c = true)
    (hv : resolve text (withSecrets base values) .headerValue = .ok v)
    (hv' : resolve text (withSecrets base (lettered c).value) .headerValue = .ok v')
    (hvalid : net.isHeaderValue v = true) : net.isHeaderValue v' = true :=
  resolve_all (lettered_all hc) hv hv' hvalid

theorem valid_a_iff_b
    (hv : resolve text (withSecrets base (lettered 'a').value) .headerValue = .ok v)
    (hv' : resolve text (withSecrets base (lettered 'b').value) .headerValue = .ok v') :
    net.isHeaderValue v = net.isHeaderValue v' := by
  have ha := net.fieldChar_visible 'a' (by decide) (by decide)
  have hb := net.fieldChar_visible 'b' (by decide) (by decide)
  exact Bool.eq_iff_iff.mpr ⟨valid_lettered hb hv hv', valid_lettered ha hv' hv⟩

theorem public_of_a_eq_b (hv : resolve text (withSecrets base (lettered 'a').value) field = .ok v)
    (hv' : resolve text (withSecrets base (lettered 'b').value) field = .ok v) :
    ¬AsksSecret base text := by
  refine not_asksSecret_of_eq ?_ ?_ hv hv'
  · intro k
    simp [lettered]
  · intro k
    show String.singleton 'a' ≠ String.singleton 'b'
    decide

theorem rows_confined {v : Visit} (h : Resolved template base (lettered 'a') check)
    (h' : Resolved template base (lettered 'b') check') (hurl : check'.url = check.url)
    (hoff : net.origin v.url ≠ net.origin check.url)
    (hsame : sentAt net check v = sentAt net check' v) :
    ∀ row ∈ template.headers, RowConfined net base (!v.kept || template.body.isNone) row := by
  have hoff' : net.origin v.url ≠ net.origin check'.url := by rwa [hurl]
  have hdefault : ∀ name value,
      defaultHeader net check name value = defaultHeader net check' name value := by
    intro name value
    refine defaultHeader_eq (map_eq_of_rows _ (fun row _ v v' hv hv' => ?_) h.headers_eq
      h'.headers_eq)
    dsimp only
    rw [valid_a_iff_b hv hv']
  have hheaders : (sentAt net check v).request.headers = (sentAt net check' v).request.headers := by
    rw [hsame]
  rw [requestFor_offOrigin hoff, requestFor_offOrigin hoff', hdefault, hdefault, host_eq h h',
    isNone_keptBody h, isNone_keptBody h'] at hheaders
  have hleft := List.append_cancel_left hheaders
  generalize hbodyless : (!v.kept || template.body.isNone) = bodyless at hleft ⊢
  have hrows : check.headers.map (headerRow net false false bodyless) =
      check'.headers.map (headerRow net false false bodyless) := by
    refine eq_of_filterMap_eq ?_ hleft
    rw [List.map_map, List.map_map]
    refine map_eq_of_rows _ (fun row _ v v' hv hv' => ?_) h.headers_eq h'.headers_eq
    have hvalid : net.isHeaderValue v = net.isHeaderValue v' := valid_a_iff_b hv hv'
    simp only [Function.comp_apply, headerRow, hvalid]
    cases skipped false false bodyless row.1 with
    | true => rfl
    | false =>
      cases net.headerName row.1 with
      | none => rfl
      | some name => cases net.isHeaderValue v' <;> rfl
  rintro row hmem hskipped hname ⟨values, out, hout, hsent⟩
  obtain ⟨v, v', hv, hv', heq⟩ := row_of_map_eq _ hrows h.headers_eq h'.headers_eq row hmem
  obtain ⟨name, hname⟩ := Option.isSome_iff_exists.mp hname
  have ha := net.fieldChar_visible 'a' (by decide) (by decide)
  have hvalid := valid_lettered ha hout hv hsent
  have hvalid' : net.isHeaderValue v' = true := by rw [← valid_a_iff_b hv hv', hvalid]
  simp only [headerRow, hskipped, hname, hvalid, hvalid'] at heq
  obtain rfl : v = v' := by simpa using heq
  exact public_of_a_eq_b hv hv'

theorem body_confined {v : Visit} (h : Resolved template base (lettered 'a') check)
    (h' : Resolved template base (lettered 'b') check') (hurl : check'.url = check.url)
    (hoff : net.origin v.url ≠ net.origin check.url)
    (hsame : sentAt net check v = sentAt net check' v) (hkept : v.kept = true) :
    ∀ body ∈ template.body, ¬AsksSecret base body := by
  have hoff' : net.origin v.url ≠ net.origin check'.url := by rwa [hurl]
  have hbody : (sentAt net check v).request.body = (sentAt net check' v).request.body := by
    rw [hsame]
  rw [requestFor_offOrigin hoff, requestFor_offOrigin hoff', hkept] at hbody
  intro text htext
  have htext' : template.body = some text := htext
  have hresolved := h.body_eq
  have hresolved' := h'.body_eq
  rw [htext'] at hresolved hresolved'
  obtain ⟨value, hvalue⟩ := map_ok hresolved
  obtain ⟨value', hvalue'⟩ := map_ok hresolved'
  have hcheck : check.body = some value := by
    rw [resolveOpt, hvalue] at hresolved
    exact (Except.ok.inj hresolved).symm
  have hcheck' : check'.body = some value' := by
    rw [resolveOpt, hvalue'] at hresolved'
    exact (Except.ok.inj hresolved').symm
  have hsame' : value = value' := by
    simpa [keptBody, hcheck, hcheck'] using hbody
  rw [← hsame'] at hvalue'
  exact public_of_a_eq_b hvalue hvalue'

end

/-- **What leaves the origin is the same for all secrets when nothing that leaves it asks for
one.**  Off the origin the requests of a template are the same for all secrets, and there are
at most as many as redirects may be followed and one, exactly when at each URL that the responses
lead to there, no header asks for a secret that is sent under its name, nor the body if every
redirect kept it. -/
theorem offOrigin_same_iff (net : Net) (env : Env) (template : Variables.HttpCheck)
    (base : VarMap) (chain : Nat → Hop) :
    (SameOffOrigin net env template base chain ∧
      ∀ s check, resolved env template base s = .ok check →
        (doHttpCheck net check chain).1.length ≤ effectiveMaxRedirects check + 1) ↔
      Confined net env template base chain := by
  constructor
  · rintro ⟨hsame, -⟩ s check hcheck v hv hoff
    have h := resolved_spec hcheck
    obtain ⟨a, ha, hurl⟩ := resolved_transfer (lettered 'a') hcheck
    obtain ⟨b, hb, hurl'⟩ := resolved_transfer (lettered 'b') hcheck
    have hsent := hsame _ _ a b ha hb
    rw [offOrigin_eq_visits, offOrigin_eq_visits, visits_eq h (resolved_spec ha) hurl,
      visits_eq h (resolved_spec hb) hurl', hurl, hurl'] at hsent
    have hmem : v ∈ (visits net check chain).filter fun v =>
        net.origin v.url ≠ net.origin check.url :=
      List.mem_filter.mpr ⟨hv, decide_eq_true hoff⟩
    have hat := List.map_inj_left.mp hsent v hmem
    have hoff' : net.origin v.url ≠ net.origin a.url := by rwa [hurl]
    have hab : b.url = a.url := hurl'.trans hurl.symm
    exact ⟨rows_confined (resolved_spec ha) (resolved_spec hb) hab hoff' hat,
      body_confined (resolved_spec ha) (resolved_spec hb) hab hoff' hat⟩
  · intro hconfined
    refine ⟨fun s s' check check' hcheck hcheck' => ?_, fun _ _ _ => length_sent_le⟩
    have h := resolved_spec hcheck
    have h' := resolved_spec hcheck'
    have hurl : check'.url = check.url := by
      obtain ⟨c, hc, hurl⟩ := resolved_transfer s' hcheck
      rw [← hurl, Except.ok.inj (hcheck'.symm.trans hc)]
    rw [offOrigin_eq_visits, offOrigin_eq_visits, visits_eq h h' hurl, hurl]
    refine List.map_inj_left.mpr fun v hmem => ?_
    obtain ⟨hv, hoff⟩ := List.mem_filter.mp hmem
    obtain ⟨hrows, hbody⟩ := hconfined s check hcheck v hv (of_decide_eq_true hoff)
    exact sentAt_same h h' hurl (of_decide_eq_true hoff) hrows hbody

namespace One

/-- Two hosts. -/
def net : Net where
  origin url :=
    if url = "https://app.example/" then ⟨"https", "app.example", 443⟩
    else ⟨"https", "elsewhere.example", 443⟩
  join _ location := some location
  scheme _ := "https"
  parseUri url :=
    if url = "https://app.example/" then
      some ⟨url, some "https", some "app.example", none, some "/"⟩
    else some ⟨url, some "https", some "elsewhere.example", none, some "/"⟩
  uriOfPath := some
  headerName k := some (toAsciiLowercase k)
  headerName_known k name hname h := by
    have hlower : toAsciiLowercase k = toAsciiLowercase name := of_decide_eq_true h
    have hknown : ∀ name ∈ ["user-agent", "accept"], toAsciiLowercase name = name := by decide
    rw [hlower, hknown name hname]
  fieldChar c := (32 ≤ c.toNat && c.toNat ≠ 127) || c == '\t'
  fieldChar_visible c hmin hmax := by
    have hne : c.toNat ≠ 127 := by omega
    simp [hmin, hne]
  userAgent := "uptimepage"

def env : Env where
  spaces := ⟨[' ', '\t', '\n', '\r', Char.ofNat 11, Char.ofNat 12], by
    have h : ∀ n < 128, Char.ofNat n ∈ [' ', '\t', '\n', '\r', Char.ofNat 11, Char.ofNat 12] ↔
        Char.ofNat n = ' ' ∨ (9 ≤ (Char.ofNat n).toNat ∧ (Char.ofNat n).toNat ≤ 13) := by
      decide
    intro c hc
    simpa only [Char.ofNat_toNat] using h c.toNat hc⟩
  parseUrl := some
  sealCredential := id
  openStr := some

/-- A check that sends a token in a header of its own. -/
def template : Variables.HttpCheck where
  url := "https://app.example/"
  method := .get
  timeout := 10000
  followRedirects := true
  maxRedirects := 5
  expectedStatus := .exact 200
  expectedBodyContains := none
  headers := [("X-Vault-Token", "\x7b\x7bvault_token\x7d\x7d")]
  body := none
  verifyTls := true
  basicAuth := none
  bearerToken := none

def base : VarMap := fun k => if k = "vault_token" then some ⟨"", true⟩ else none

def chain : Nat → Hop
  | 0 => ⟨.ok false, .ok (), .ok (302, some "https://elsewhere.example/")⟩
  | _ => ⟨.ok false, .ok (), .ok (200, none)⟩

def sample (token : String) : Variables.HttpCheck :=
  { template with headers := [("X-Vault-Token", token)] }

/-- The token goes with it. -/
theorem token_leaves_origin : ¬SameOffOrigin net env template base chain := by
  intro h
  have hsame := h ⟨none, none, fun _ => "hvs.1"⟩ ⟨none, none, fun _ => "hvs.2"⟩ (sample "hvs.1")
    (sample "hvs.2") rfl rfl
  exact absurd hsame (by decide +kernel)

end One

end Uptimepage.HttpChecks
