import Uptimepage.Variables.Usage

/-!
# What a resolved template tells of its secrets

Two maps that differ in the values of secrets only (`withSecrets`) resolve the same templates.
-/

namespace Uptimepage.Variables

open Text

/-- A map with these values for its secrets. -/
def withSecrets (base : VarMap) (values : String → String) : VarMap := fun k =>
  (base k).map fun v => if v.isSecret then { v with value := values k } else v

def AsksSecret (base : VarMap) (template : String) : Prop :=
  ∃ k ∈ keys template, ∃ v, base k = some v ∧ v.isSecret = true

section

variable {vars base : VarMap} {values values' : String → String} {field : FieldKind}
  {ps : List Piece} {p : Piece} {content out out' here : List Char}

theorem fillAll_cons (h : fillAll vars field (p :: ps) = .ok out) :
    ∃ here rest, p.fill vars field = .ok here ∧ fillAll vars field ps = .ok rest ∧
      out = here ++ rest := by
  rw [fillAll] at h
  obtain ⟨here, hhere, h⟩ := bind_ok h
  obtain ⟨rest, hrest, h⟩ := bind_ok h
  exact ⟨here, rest, hhere, hrest, (Except.ok.inj h).symm⟩

/-- What a variable puts in the place of its key. -/
def filling (values : String → String) (key : String) (v : ResolvedVar) : List Char :=
  if v.isSecret then (values key).toList else v.value.toList

theorem fill_withSecrets_iff :
    (Piece.token content).fill (withSecrets base values) field = .ok here ↔
      validKey (Piece.key content) = true ∧ ∃ v, base (Piece.key content) = some v ∧
        (v.isSecret = true → field.allowsSecret = true) ∧
        filling values (Piece.key content) v = here := by
  unfold Piece.fill
  by_cases hvalid : validKey (Piece.key content) = true
  · cases hbase : base (Piece.key content) with
    | none => simp [hvalid, withSecrets, hbase]
    | some v =>
      obtain ⟨value, isSecret⟩ := v
      cases isSecret with
      | false => simp [hvalid, withSecrets, hbase, filling]
      | true =>
        cases field.allowsSecret with
        | false => simp [hvalid, withSecrets, hbase]
        | true => simp [hvalid, withSecrets, hbase, filling]
  · simp [hvalid]

theorem fillAll_resolves (values' : String → String)
    (h : fillAll (withSecrets base values) field ps = .ok out) :
    ∃ out', fillAll (withSecrets base values') field ps = .ok out' := by
  induction ps generalizing out with
  | nil => exact ⟨[], rfl⟩
  | cons p ps ih =>
    obtain ⟨here, rest, hhere, hrest, -⟩ := fillAll_cons h
    obtain ⟨rest', hrest'⟩ := ih hrest
    have hfill : ∃ here', p.fill (withSecrets base values') field = .ok here' := by
      cases p with
      | text c => exact ⟨[c], rfl⟩
      | token content =>
        obtain ⟨hvalid, v, hbase, hallows, -⟩ := fill_withSecrets_iff.1 hhere
        exact ⟨_, fill_withSecrets_iff.2 ⟨hvalid, v, hbase, hallows, rfl⟩⟩
    obtain ⟨here', hhere'⟩ := hfill
    refine ⟨here' ++ rest', ?_⟩
    rw [fillAll, hhere', hrest']
    rfl

theorem fillAll_noSecrets (hfield : field.allowsSecret = false) :
    fillAll (withSecrets base values) field ps = fillAll (withSecrets base values') field ps := by
  induction ps with
  | nil => rfl
  | cons p ps ih =>
    have hfill : p.fill (withSecrets base values) field =
        p.fill (withSecrets base values') field := by
      cases p with
      | text c => rfl
      | token content =>
        unfold Piece.fill
        cases hbase : base (Piece.key content) with
        | none => simp [withSecrets, hbase]
        | some v =>
          obtain ⟨value, isSecret⟩ := v
          cases isSecret with
          | false => simp [withSecrets, hbase]
          | true => simp [withSecrets, hbase, hfield]
    rw [fillAll, fillAll, hfill, ih]

theorem fillAll_all {ok : Char → Bool} (hvalues : ∀ k, (values' k).toList.all ok = true)
    (h : fillAll (withSecrets base values) field ps = .ok out)
    (h' : fillAll (withSecrets base values') field ps = .ok out') (hall : out.all ok = true) :
    out'.all ok = true := by
  induction ps generalizing out out' with
  | nil =>
    obtain rfl := Except.ok.inj h'
    rfl
  | cons p ps ih =>
    obtain ⟨here, rest, hhere, hrest, rfl⟩ := fillAll_cons h
    obtain ⟨here', rest', hhere', hrest', rfl⟩ := fillAll_cons h'
    rw [List.all_append, Bool.and_eq_true] at hall ⊢
    refine ⟨?_, ih hrest hrest' hall.2⟩
    cases p with
    | text c =>
      obtain rfl := Except.ok.inj hhere
      obtain rfl := Except.ok.inj hhere'
      exact hall.1
    | token content =>
      obtain ⟨-, v, hbase, -, rfl⟩ := fill_withSecrets_iff.1 hhere
      obtain ⟨-, v', hbase', -, rfl⟩ := fill_withSecrets_iff.1 hhere'
      obtain rfl := Option.some.inj (hbase.symm.trans hbase')
      have hhead := hall.1
      unfold filling at hhead ⊢
      split
      · exact hvalues _
      · next hpublic => rwa [if_neg hpublic] at hhead

theorem fillAll_tells (hlength : ∀ k, (values k).toList.length = (values' k).toList.length)
    (hne : ∀ k, values k ≠ values' k)
    (h : fillAll (withSecrets base values) field ps = .ok out)
    (h' : fillAll (withSecrets base values') field ps = .ok out') :
    out.length = out'.length ∧
      (out = out' → ∀ k ∈ pieceKeys ps, ∀ v, base k = some v → v.isSecret = false) := by
  induction ps generalizing out out' with
  | nil =>
    obtain rfl := Except.ok.inj h
    obtain rfl := Except.ok.inj h'
    exact ⟨rfl, fun _ _ hk => absurd hk List.not_mem_nil⟩
  | cons p ps ih =>
    obtain ⟨here, rest, hhere, hrest, rfl⟩ := fillAll_cons h
    obtain ⟨here', rest', hhere', hrest', rfl⟩ := fillAll_cons h'
    obtain ⟨hlen, hpublic⟩ := ih hrest hrest'
    cases p with
    | text c =>
      obtain rfl := Except.ok.inj hhere
      obtain rfl := Except.ok.inj hhere'
      exact ⟨congrArg Nat.succ hlen, fun heq => hpublic (List.cons.inj heq).2⟩
    | token content =>
      obtain ⟨hvalid, v, hbase, -, rfl⟩ := fill_withSecrets_iff.1 hhere
      obtain ⟨-, v', hbase', -, rfl⟩ := fill_withSecrets_iff.1 hhere'
      obtain rfl := Option.some.inj (hbase.symm.trans hbase')
      have hfilling : (filling values (Piece.key content) v).length =
          (filling values' (Piece.key content) v).length := by
        unfold filling
        split
        · exact hlength _
        · rfl
      refine ⟨by rw [List.length_append, List.length_append, hfilling, hlen], fun heq => ?_⟩
      obtain ⟨hsame, hrest⟩ := List.append_inj heq hfilling
      rw [pieceKeys, if_pos hvalid]
      intro k hk w hw
      rcases List.mem_cons.mp hk with rfl | hk
      · obtain rfl := Option.some.inj (hbase.symm.trans hw)
        rw [← Bool.not_eq_true]
        intro hsecret
        unfold filling at hsame
        rw [if_pos hsecret, if_pos hsecret] at hsame
        exact hne _ (String.toList_injective hsame)
      · exact hpublic hrest k hk w hw

end

section

variable {base : VarMap} {values values' : String → String} {field : FieldKind}
  {template out out' : String}

theorem resolve_eq_ok {vars : VarMap} (h : resolve template vars field = .ok out) :
    fillAll vars field (scan 0 template.toList) = .ok out.toList := by
  unfold resolve at h
  cases hfill : fillAll vars field (scan 0 template.toList) with
  | error e =>
    rw [hfill] at h
    cases h
  | ok chars =>
    rw [hfill] at h
    rw [← Except.ok.inj h, String.toList_ofList]

theorem resolve_resolves (values' : String → String)
    (h : resolve template (withSecrets base values) field = .ok out) :
    ∃ out', resolve template (withSecrets base values') field = .ok out' := by
  obtain ⟨chars, hchars⟩ := fillAll_resolves values' (resolve_eq_ok h)
  refine ⟨String.ofList chars, ?_⟩
  rw [resolve, hchars]
  rfl

theorem resolve_noSecrets (hfield : field.allowsSecret = false) :
    resolve template (withSecrets base values) field =
      resolve template (withSecrets base values') field :=
  congrArg (Except.map String.ofList) (fillAll_noSecrets hfield)

theorem resolve_public (h : ¬AsksSecret base template) :
    resolve template (withSecrets base values) field =
      resolve template (withSecrets base values') field := by
  apply resolve_congr
  intro k hk
  unfold withSecrets
  cases hbase : base k with
  | none => rfl
  | some v =>
    have hpublic : v.isSecret ≠ true := fun hsecret => h ⟨k, hk, v, hbase, hsecret⟩
    rw [Option.map_some, Option.map_some, if_neg hpublic, if_neg hpublic]

theorem resolve_all {ok : Char → Bool} (hvalues : ∀ k, (values' k).toList.all ok = true)
    (h : resolve template (withSecrets base values) field = .ok out)
    (h' : resolve template (withSecrets base values') field = .ok out')
    (hall : out.toList.all ok = true) : out'.toList.all ok = true :=
  fillAll_all hvalues (resolve_eq_ok h) (resolve_eq_ok h') hall

theorem not_asksSecret_of_eq
    (hlength : ∀ k, (values k).toList.length = (values' k).toList.length)
    (hne : ∀ k, values k ≠ values' k)
    (h : resolve template (withSecrets base values) field = .ok out)
    (h' : resolve template (withSecrets base values') field = .ok out) :
    ¬AsksSecret base template := by
  rintro ⟨k, hk, v, hbase, hsecret⟩
  have htells := fillAll_tells hlength hne (resolve_eq_ok h) (resolve_eq_ok h')
  rw [htells.2 rfl k hk v hbase] at hsecret
  cases hsecret

/-! ## Templates with no token -/

theorem scan_plain {t : List Char} (h : contains opens t = false) : scan 0 t = t.map .text := by
  have hinfix : ¬opens <:+: t := by
    rw [← contains_iff, h]
    exact Bool.false_ne_true
  induction t with
  | nil => rfl
  | cons c rest ih =>
    have hrest : ¬opens <:+: rest := fun hinf => hinfix (hinf.trans (List.suffix_cons _ _).isInfix)
    have hhere : ¬(c = '{' ∧ rest.head? = some '{') := by
      rintro ⟨rfl, hhead⟩
      obtain ⟨rest', rfl⟩ := List.head?_eq_some_iff.mp hhead
      exact hinfix ⟨[], rest', rfl⟩
    rw [scan, if_neg hhere, List.map_cons]
    congr 1
    refine ih ?_ hrest
    rw [← Bool.not_eq_true, contains_iff]
    exact hrest

theorem fillAll_text (vars : VarMap) (t : List Char) :
    fillAll vars field (t.map .text) = .ok t := by
  induction t with
  | nil => rfl
  | cons c rest ih =>
    rw [List.map_cons, fillAll, ih]
    rfl

theorem resolve_plain (vars : VarMap) (h : contains opens template.toList = false) :
    resolve template vars field = .ok template := by
  rw [resolve, scan_plain h, fillAll_text]
  exact congrArg Except.ok String.ofList_toList

end

end Uptimepage.Variables
