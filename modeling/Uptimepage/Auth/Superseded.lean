import Uptimepage.Auth.MagicLink

/-!
# Superseded magic links

What `consume`, `consume_code` and the mailing task of `auth/magic_link.rs` still do to a row
after `supersede_others` has retired it.  Their look-ups skip the row, but the statements that
redeem test `used_at` and `code_spent_at` only, and a send never tests `superseded_at`.  A
retired row is dead exactly when nothing of it was under way (`superseded_dead_iff`).
-/

namespace Uptimepage

/-- A task that sends no mail any more. -/
def SendPhase.settled : SendPhase → Bool
  | .mailed | .releasing | .done => true
  | _ => false

namespace MagicLinks

open Async

/-- A guess that will redeem its row: it matched, or it is the right one for an unspent row. -/
def Lands (hs : Hashes) (s : MagicLinks) (c : CodeTry) : Prop :=
  c.verified = true ∨ ∃ r ∈ s.rows, r.id = c.row ∧ r.codeSpentAt = none ∧
    ∃ codeHash, r.codeHash = some codeHash ∧ hs.verify (String.ofList c.guess) codeHash = true

/-- No redemption and no mail of the row `id` is under way. -/
structure Idle (hs : Hashes) (s : MagicLinks) (id : Uuid) : Prop where
  links : id ∉ s.links
  codes : ∀ c ∈ s.codes, c.row = id → ¬ Lands hs s c
  sends : ∀ t ∈ s.sends, t.row = id → t.phase.settled = true

/-- `supersede_others` commits only on rows of which nothing is under way. -/
def Timely (hs : Hashes) (lower : String → String) (s : MagicLinks) : MagicLinkEvent → Prop
  | .send i (.supersedeOthers true) => ∀ t, s.sends[i]? = some t →
      ∀ r ∈ s.rows, s.superseding lower t.email t.row r = true → Idle hs s r.id
  | _ => True

def Superseded (s : MagicLinks) (id : Uuid) : Prop :=
  ∃ r ∈ s.rows, r.id = id ∧ r.supersededAt ≠ none

/-- What the step adds to the history is of rows that were not superseded before it. -/
structure LeavesDead (s s' : MagicLinks) : Prop where
  signIns : ∀ x ∈ s'.signIns.drop s.signIns.length, ¬ s.Superseded x.row
  mails : ∀ m ∈ s'.mails.drop s.mails.length, ¬ s.Superseded m.row

/-- So does every later step, while the rows retired on the way are idle. -/
def StayDead (cfg : MagicLinkConfig) (hs : Hashes) (lower toLowercase : String → String)
    (s : MagicLinks) : Prop :=
  ∀ t t' e, Run (step cfg hs lower toLowercase) (Timely hs lower) s t → step cfg hs lower toLowercase t e = some t' →
    LeavesDead t t'

variable {cfg : MagicLinkConfig} {hs : Hashes} {lower toLowercase : String → String}
  {s s' : MagicLinks} {e : MagicLinkEvent}

/-! ## What one step does -/

/-- What the statements other than `supersede_others` leave of a row. -/
structure Keeps (r r' : MagicLinkToken) : Prop where
  id : r'.id = r.id
  codeHash : r'.codeHash = r.codeHash
  codeSpentAt : r'.codeSpentAt = none → r.codeSpentAt = none
  supersededAt : r'.supersededAt = r.supersededAt

theorem Keeps.refl (r : MagicLinkToken) : Keeps r r := ⟨rfl, rfl, fun h => h, rfl⟩

/-- A step that retires nothing: what becomes of the rows and of what is under way, and what
it adds to the history. -/
structure Moves (hs : Hashes) (s s' : MagicLinks) : Prop where
  rows : ∀ r' ∈ s'.rows, (∃ r ∈ s.rows, Keeps r r') ∨
    (∀ r ∈ s.rows, r.id ≠ r'.id) ∧ r'.supersededAt = none
  links : ∀ id ∈ s'.links, id ∈ s.links ∨ ∃ r ∈ s.rows, r.id = id ∧ r.supersededAt = none
  codes : ∀ c ∈ s'.codes, c ∈ s.codes ∨ (∃ r ∈ s.rows, r.id = c.row ∧ r.supersededAt = none) ∨
    ∃ c₀ ∈ s.codes, c₀.row = c.row ∧ Lands hs s c₀
  sends : ∀ t ∈ s'.sends, t ∈ s.sends ∨ (∀ r ∈ s.rows, r.id ≠ t.row) ∨
    ∃ t₀ ∈ s.sends, t₀.row = t.row ∧ (t₀.phase.settled = true → t.phase.settled = true)
  signIns : s'.signIns = s.signIns ∨ ∃ x, s'.signIns = s.signIns ++ [x] ∧
    (x.row ∈ s.links ∨ ∃ c ∈ s.codes, c.row = x.row ∧ c.verified = true)
  mails : s'.mails = s.mails ∨ ∃ m, s'.mails = s.mails ++ [m] ∧
    ∃ t ∈ s.sends, t.row = m.row ∧ t.phase = .sending

theorem Moves.refl (hs : Hashes) (s : MagicLinks) : Moves hs s s where
  rows r hr := .inl ⟨r, hr, .refl r⟩
  links _ hid := .inl hid
  codes _ hc := .inl hc
  sends _ ht := .inl ht
  signIns := .inl rfl
  mails := .inl rfl

theorem keeps_update {p : MagicLinkToken → Bool} {f : MagicLinkToken → MagicLinkToken}
    {rows : List MagicLinkToken} (hf : ∀ r, Keeps r (f r)) :
    ∀ r' ∈ Table.update p f rows, (∃ r ∈ rows, Keeps r r') ∨
      (∀ r ∈ rows, r.id ≠ r'.id) ∧ r'.supersededAt = none := by
  intro r' hr'
  rcases Table.mem_update hr' with hold | ⟨r, hr, -, rfl⟩
  · exact .inl ⟨r', hold, .refl r'⟩
  · exact .inl ⟨r, hr, hf r⟩

theorem moves_insert {new : NewMagicLink} {sends : List SendTask}
    (hnew : ∀ r ∈ s.rows, r.id ≠ new.id)
    (hsends : ∀ t ∈ sends, t ∈ s.sends ∨ t.row = new.id) :
    Moves hs s { s with rows := s.rows ++ [create cfg hs new], sends := sends } :=
  { Moves.refl hs s with
    rows := by
      intro r' hr'
      rcases List.mem_append.mp hr' with hold | hmem
      · exact .inl ⟨r', hold, .refl r'⟩
      · obtain rfl := List.mem_singleton.mp hmem
        exact .inr ⟨hnew, rfl⟩
    sends := by
      intro t ht
      rcases hsends t ht with hold | hrow
      · exact .inl hold
      · exact .inr (.inl (hrow ▸ hnew)) }

theorem moves_markUsed {id : Uuid} (via : RedeemedVia)
    (hid : id ∈ s.links ∨ ∃ c ∈ s.codes, c.row = id ∧ c.verified = true) :
    Moves hs s (s.markUsed id via) := by
  unfold markUsed
  split
  · exact { Moves.refl hs s with
      rows := keeps_update fun _ => ⟨rfl, rfl, fun h => h, rfl⟩, signIns := .inr ⟨_, rfl, hid⟩ }
  · exact .refl hs s

theorem moves_setPhase {i : Nat} {t : SendTask} {ph : SendPhase} (hi : s.sends[i]? = some t)
    (hm : Moves hs s s') (hsends : s'.sends = s.sends)
    (hph : t.phase.settled = true → ph.settled = true) : Moves hs s (s'.setPhase i t ph) :=
  { hm with
    sends := by
      intro u hu
      rw [setPhase, hsends] at hu
      rcases List.mem_or_eq_of_mem_set hu with hold | rfl
      · exact .inl hold
      · exact .inr (.inr ⟨t, List.mem_of_getElem? hi, rfl, hph⟩) }

theorem moves_stamp (s : MagicLinks) (id : Uuid) (sentAt : Option Time) :
    Moves hs s (s.stamp id sentAt) :=
  { Moves.refl hs s with rows := keeps_update fun _ => ⟨rfl, rfl, fun h => h, rfl⟩ }

theorem stepSend_cases {i : Nat} {t : SendTask} {e : SendEvent} (hi : s.sends[i]? = some t)
    (h : stepSend cfg lower toLowercase s i t e t.phase = some s') :
    Moves hs s s' ∨ (e = .supersedeOthers true ∧ t.phase = .mailed ∧
      s' = (s.supersedeOthers lower t.email t.row).setPhase i t .done) := by
  have hstamp : ∀ sentAt, Moves hs s (s.stamp t.row sentAt) := moves_stamp s t.row
  have hfailed : Moves hs s s.failed := { Moves.refl hs s with }
  generalize hph : t.phase = ph at h
  unfold stepSend at h
  split at h <;> (try split at h) <;> cases h
  all_goals first
    | exact .inl (moves_setPhase hi (.refl hs s) rfl (by simp [hph, SendPhase.settled]))
    | exact .inl (moves_setPhase hi hfailed rfl (by simp [hph, SendPhase.settled]))
    | exact .inl (moves_setPhase hi (hstamp _) rfl (by simp [hph, SendPhase.settled]))
    | skip
  · -- the mail leaves
    refine .inl (moves_setPhase hi { Moves.refl hs s with mails := .inr ⟨_, rfl, t, ?_, rfl, hph⟩ }
      rfl (by simp [SendPhase.settled]))
    exact List.mem_of_getElem? hi
  · exact .inr ⟨rfl, rfl, rfl⟩

theorem moves_stepCode {i : Nat} {t : CodeTry} (hi : s.codes[i]? = some t) :
    Moves hs s (stepCode hs s i t) := by
  have hmem := List.mem_of_getElem? hi
  have hrows : ∀ r' ∈ (s.updateRow t.row (·.codeSpentAt.isNone) fun r =>
      { r with codeSpentAt := some s.now }).rows,
      (∃ r ∈ s.rows, Keeps r r') ∨ (∀ r ∈ s.rows, r.id ≠ r'.id) ∧ r'.supersededAt = none :=
    keeps_update fun _ => ⟨rfl, rfl, nofun, rfl⟩
  simp only [stepCode]
  split
  · exact { Moves.refl hs s with
      rows := hrows, codes := fun c hc => .inl (List.mem_of_mem_eraseIdx hc) }
  · next codeHash hhash =>
    refine { Moves.refl hs s with rows := hrows, codes := fun c hc => ?_ }
    dsimp only at hc
    split at hc
    · next hverify =>
      rcases List.mem_or_eq_of_mem_set hc with hold | rfl
      · exact .inl hold
      · -- the guess was right, and its row unspent
        obtain ⟨r, hfind, hr⟩ := Option.bind_eq_some_iff.mp hhash
        have hcond : r.id = t.row ∧ r.codeSpentAt = none := by simpa using List.find?_some hfind
        exact .inr (.inr ⟨t, hmem, rfl, .inr ⟨r, List.mem_of_find?_eq_some hfind, hcond.1,
          hcond.2, codeHash, hr, hverify⟩⟩)
    · exact .inl (List.mem_of_mem_eraseIdx hc)

theorem findLiveCandidate_live {token : String} {r : MagicLinkToken}
    (h : findLiveCandidate hs s token = some r) : r ∈ s.rows ∧ r.supersededAt = none := by
  have hmem := List.mem_of_find?_eq_some h
  simp only [List.mem_filter, Bool.and_eq_true, Option.isNone_iff_eq_none] at hmem
  exact ⟨hmem.1, hmem.2.1.2⟩

theorem findByNonce_live {nonce : String} {r : MagicLinkToken}
    (h : findByNonce hs s nonce = some r) : r ∈ s.rows ∧ r.supersededAt = none := by
  have hmem := Table.mem_firstBy (List.mem_of_head? h)
  simp only [List.mem_filter, Bool.and_eq_true, Option.isNone_iff_eq_none] at hmem
  exact ⟨hmem.1, hmem.2.1.1.1.1.2⟩

theorem step_cases (h : step cfg hs lower toLowercase s e = some s') :
    Moves hs s s' ∨ ∃ i t, e = .send i (.supersedeOthers true) ∧ s.sends[i]? = some t ∧
      t.phase = .mailed ∧ s' = (s.supersedeOthers lower t.email t.row).setPhase i t .done := by
  cases e with
  | tick t =>
    simp only [step] at h
    split at h <;> cases h
    exact .inl { Moves.refl hs s with }
  | requested new =>
    simp only [step] at h
    split at h
    · cases h
    · next hnew =>
      cases h
      simp only [Bool.or_eq_true, not_or, Bool.not_eq_true, List.any_eq_false, beq_iff_eq] at hnew
      refine .inl (moves_insert hnew.1.1 fun t ht => ?_)
      rcases List.mem_append.mp ht with hold | hmem
      · exact .inl hold
      · exact .inr (by rw [List.mem_singleton.mp hmem])
  | printed new =>
    simp only [step] at h
    split at h
    · cases h
    · next hnew =>
      cases h
      simp only [Bool.or_eq_true, not_or, Bool.not_eq_true, List.any_eq_false, beq_iff_eq] at hnew
      exact .inl (moves_insert hnew.1.1 fun t ht => .inl ht)
  | send i e =>
    obtain ⟨t, hi, ht⟩ := Option.bind_eq_some_iff.mp h
    rcases stepSend_cases hi ht with hm | ⟨rfl, hph, heq⟩
    · exact .inl hm
    · exact .inr ⟨i, t, rfl, hi, hph, heq⟩
  | consume token =>
    simp only [step] at h
    split at h <;> cases h
    · next r hfind =>
      refine .inl { Moves.refl hs s with links := fun id hid => ?_ }
      rcases List.mem_append.mp hid with hold | hmem
      · exact .inl hold
      · obtain ⟨hr, hlive⟩ := findLiveCandidate_live hfind
        exact .inr ⟨r, hr, (List.mem_singleton.mp hmem).symm, hlive⟩
    · exact .inl (.refl hs s)
  | markUsed i =>
    obtain ⟨id, hi, rfl⟩ := Option.map_eq_some_iff.mp h
    have hm : Moves hs s (s.markUsed id .link) :=
      moves_markUsed .link (.inl (List.mem_of_getElem? hi))
    exact .inl { hm with links := fun id hid => .inl (List.mem_of_mem_eraseIdx hid) }
  | linkDropped i =>
    cases h
    exact .inl { Moves.refl hs s with links := fun id hid => .inl (List.mem_of_mem_eraseIdx hid) }
  | consumeCode nonce code =>
    simp only [step] at h
    split at h
    · split at h <;> cases h
      · next r hfind =>
        refine .inl { Moves.refl hs s with codes := fun c hc => ?_ }
        rcases List.mem_append.mp hc with hold | hmem
        · exact .inl hold
        · obtain ⟨hr, hlive⟩ := findByNonce_live hfind
          exact .inr (.inl ⟨r, hr, by rw [List.mem_singleton.mp hmem], hlive⟩)
      · exact .inl (.refl hs s)
    · cases h
      exact .inl (.refl hs s)
  | spend i =>
    simp only [step] at h
    split at h
    · next hi =>
      cases h
      exact .inl (moves_stepCode hi)
    · cases h
  | redeem i =>
    simp only [step] at h
    split at h
    · next row guess hi =>
      cases h
      have hm : Moves hs s (s.markUsed row .code) :=
        moves_markUsed .code (.inr ⟨_, List.mem_of_getElem? hi, rfl, rfl⟩)
      exact .inl { hm with codes := fun c hc => .inl (List.mem_of_mem_eraseIdx hc) }
    · cases h
  | codeDropped i =>
    cases h
    exact .inl { Moves.refl hs s with codes := fun c hc => .inl (List.mem_of_mem_eraseIdx hc) }

/-! ## A superseded row stays idle -/

theorem Superseded.not_live {id : Uuid} (hkeyed : (s.rows.map (·.id)).Nodup)
    (h : s.Superseded id) : ¬ ∃ r ∈ s.rows, r.id = id ∧ r.supersededAt = none := by
  rintro ⟨k, hk, hkid, hlive⟩
  obtain ⟨r, hr, hrid, hsup⟩ := h
  rw [List.inj_on_of_nodup_map hkeyed hr hk (hrid.trans hkid.symm)] at hsup
  exact hsup hlive

theorem Moves.superseded (hm : Moves hs s s') {id : Uuid} (h : s'.Superseded id) :
    s.Superseded id := by
  obtain ⟨r', hr', rfl, hsup⟩ := h
  rcases hm.rows r' hr' with ⟨r, hr, hk⟩ | ⟨-, hlive⟩
  · exact ⟨r, hr, hk.id.symm, hk.supersededAt ▸ hsup⟩
  · exact absurd hlive hsup

theorem Moves.lands (hm : Moves hs s s') {c : CodeTry} (hrow : ∃ r ∈ s.rows, r.id = c.row)
    (h : Lands hs s' c) : Lands hs s c := by
  rcases h with hv | ⟨r', hr', hid, hspent, codeHash, hhash, hverify⟩
  · exact .inl hv
  · rcases hm.rows r' hr' with ⟨r, hr, hk⟩ | ⟨hnew, -⟩
    · exact .inr ⟨r, hr, hk.id.symm.trans hid, hk.codeSpentAt hspent, codeHash,
        hk.codeHash ▸ hhash, hverify⟩
    · obtain ⟨k, hk, hkid⟩ := hrow
      exact absurd (hkid.trans hid.symm) (hnew k hk)

theorem Moves.idle (hm : Moves hs s s') (hkeyed : (s.rows.map (·.id)).Nodup) {id : Uuid}
    (hsup : s.Superseded id) (h : Idle hs s id) : Idle hs s' id := by
  have hlive := hsup.not_live hkeyed
  obtain ⟨r, hr, hrid, -⟩ := hsup
  refine ⟨fun hid => ?_, fun c hc hrow hlands => ?_, fun t ht hrow => ?_⟩
  · rcases hm.links id hid with hold | hnew
    · exact h.links hold
    · exact hlive hnew
  · rcases hm.codes c hc with hold | hnew | ⟨c₀, hc₀, hrow₀, hlands₀⟩
    · exact h.codes c hold hrow (hm.lands ⟨r, hr, hrid.trans hrow.symm⟩ hlands)
    · exact hlive (hrow ▸ hnew)
    · exact h.codes c₀ hc₀ (hrow₀.trans hrow) hlands₀
  · rcases hm.sends t ht with hold | hnew | ⟨t₀, ht₀, hrow₀, hph⟩
    · exact h.sends t hold hrow
    · exact absurd (hrid.trans hrow.symm) (hnew r hr)
    · exact hph (h.sends t₀ ht₀ (hrow₀.trans hrow))

theorem Moves.leavesDead (hm : Moves hs s s') (h : ∀ id, s.Superseded id → Idle hs s id) :
    LeavesDead s s' := by
  refine ⟨fun x hx hsup => ?_, fun m hmem hsup => ?_⟩
  · have hidle := h x.row hsup
    rcases hm.signIns with heq | ⟨y, heq, hy⟩
    · simp [heq] at hx
    · rw [heq, List.drop_left, List.mem_singleton] at hx
      subst hx
      rcases hy with hlink | ⟨c, hc, hrow, hv⟩
      · exact hidle.links hlink
      · exact hidle.codes c hc hrow (.inl hv)
  · have hidle := h m.row hsup
    rcases hm.mails with heq | ⟨y, heq, t, ht, hrow, hph⟩
    · simp [heq] at hmem
    · rw [heq, List.drop_left, List.mem_singleton] at hmem
      subst hmem
      have hsettled := hidle.sends t ht hrow
      rw [hph] at hsettled
      cases hsettled

/-! ## The step that retires -/

section Retiring

variable {i : Nat} {t : SendTask}

theorem retires_of_step (h : step cfg hs lower toLowercase s (.send i (.supersedeOthers true)) = some s') :
    ∃ t, s.sends[i]? = some t ∧ t.phase = .mailed ∧
      s' = (s.supersedeOthers lower t.email t.row).setPhase i t .done := by
  obtain ⟨t, hi, ht⟩ := Option.bind_eq_some_iff.mp h
  refine ⟨t, hi, ?_⟩
  generalize hph : t.phase = ph at ht
  cases ph <;> cases ht
  exact ⟨rfl, rfl⟩

theorem timely_or (hs : Hashes) (lower : String → String) (s : MagicLinks) (e : MagicLinkEvent) :
    Timely hs lower s e ∨ ∃ i, e = .send i (.supersedeOthers true) := by
  unfold Timely
  split
  · exact .inr ⟨_, rfl⟩
  · exact .inl trivial

theorem superseded_retired {id : Uuid}
    (h : ((s.supersedeOthers lower t.email t.row).setPhase i t .done).Superseded id) :
    s.Superseded id ∨ ∃ r ∈ s.rows, r.id = id ∧ s.superseding lower t.email t.row r = true := by
  obtain ⟨r', hr', rfl, hsup⟩ := h
  rcases Table.mem_update hr' with hold | ⟨r, hr, hcond, rfl⟩
  · exact .inl ⟨r', hold, rfl, hsup⟩
  · exact .inr ⟨r, hr, rfl, hcond⟩

theorem lands_retired {c : CodeTry} :
    Lands hs ((s.supersedeOthers lower t.email t.row).setPhase i t .done) c ↔ Lands hs s c := by
  constructor
  · rintro (hv | ⟨r', hr', hid, hspent, hhash⟩)
    · exact .inl hv
    · rcases Table.mem_update hr' with hold | ⟨r, hr, -, rfl⟩
      · exact .inr ⟨r', hold, hid, hspent, hhash⟩
      · exact .inr ⟨r, hr, hid, hspent, hhash⟩
  · rintro (hv | ⟨r, hr, hid, hspent, hhash⟩)
    · exact .inl hv
    · refine .inr ⟨_, List.mem_map_of_mem hr, ?_⟩
      split <;> exact ⟨hid, hspent, hhash⟩

theorem idle_retired (hi : s.sends[i]? = some t) (hph : t.phase = .mailed) {id : Uuid} :
    Idle hs ((s.supersedeOthers lower t.email t.row).setPhase i t .done) id ↔ Idle hs s id := by
  constructor
  · intro h
    refine ⟨h.links, fun c hc hrow hlands => h.codes c hc hrow (lands_retired.2 hlands),
      fun u hu hrow => ?_⟩
    obtain ⟨j, hj⟩ := List.mem_iff_getElem?.mp hu
    by_cases hij : i = j
    · subst hij
      rw [hi, Option.some.injEq] at hj
      rw [← hj, hph]
      rfl
    · refine h.sends u (List.mem_of_getElem? (i := j) ?_) hrow
      rw [setPhase, List.getElem?_set_ne hij]
      exact hj
  · intro h
    refine ⟨h.links, fun c hc hrow hlands => h.codes c hc hrow (lands_retired.1 hlands),
      fun u hu hrow => ?_⟩
    rcases List.mem_or_eq_of_mem_set hu with hold | rfl
    · exact h.sends u hold hrow
    · rfl

theorem leavesDead_retired :
    LeavesDead s ((s.supersedeOthers lower t.email t.row).setPhase i t .done) := by
  constructor <;> simp [setPhase, MagicLinks.supersedeOthers]

end Retiring

structure Retired (hs : Hashes) (lower : String → String) (s : MagicLinks) : Prop where
  sending : s.Sending lower
  idle : ∀ id, s.Superseded id → Idle hs s id

theorem retired_start (hs : Hashes) (lower : String → String) (now : Time) :
    Retired hs lower (start now) where
  sending := (inv_start ⟨0, 0⟩ lower lower now).sending
  idle := by
    rintro id ⟨r, hr, -⟩
    cases hr

theorem retired_step (h : Retired hs lower s) (ht : Timely hs lower s e)
    (hstep : step cfg hs lower toLowercase s e = some s') : Retired hs lower s' := by
  refine ⟨sending_step h.sending hstep, fun id hid => ?_⟩
  rcases step_cases hstep with hm | ⟨i, t, rfl, hi, hph, rfl⟩
  · have hsup := hm.superseded hid
    exact hm.idle h.sending.keyed hsup (h.idle id hsup)
  · rw [idle_retired hi hph]
    rcases superseded_retired hid with hsup | ⟨r, hr, rfl, hcond⟩
    · exact h.idle id hsup
    · exact ht t hi r hr hcond

theorem Retired.leavesDead (h : Retired hs lower s) (hstep : step cfg hs lower toLowercase s e = some s') :
    LeavesDead s s' := by
  rcases step_cases hstep with hm | ⟨i, t, -, -, -, rfl⟩
  · exact hm.leavesDead h.idle
  · exact leavesDead_retired

theorem Retired.stayDead (h : Retired hs lower s) : StayDead cfg hs lower toLowercase s := by
  intro t t' e hrun hstep
  have ht : Retired hs lower t :=
    hrun.invariant h fun _ _ _ hinv hok hnext => retired_step hinv hok hnext
  exact ht.leavesDead hstep

/-! ## A superseded row that is not idle -/

theorem StayDead.after (h : StayDead cfg hs lower toLowercase s) (ht : Timely hs lower s e)
    (hstep : step cfg hs lower toLowercase s e = some s') : StayDead cfg hs lower toLowercase s' :=
  fun t t' e' hrun hnext => h t t' e' (.trans (.snoc .refl ht hstep) hrun) hnext

theorem StayDead.leavesDead (h : StayDead cfg hs lower toLowercase s) (hstep : step cfg hs lower toLowercase s e = some s') :
    LeavesDead s s' := h s s' e .refl hstep

theorem signIns_markUsed_of_mem {r : MagicLinkToken} (via : RedeemedVia) (hr : r ∈ s.rows)
    (hused : r.usedAt = none) : (s.markUsed r.id via).signIns = s.signIns ++ [⟨r.id, via⟩] := by
  have haffects : s.affects r.id (·.usedAt.isNone) = true :=
    List.any_eq_true.mpr ⟨r, hr, by simp [hused]⟩
  rw [MagicLinks.markUsed, if_pos haffects]

theorem stepCode_right (hkeyed : (s.rows.map (·.id)).Nodup) {r : MagicLinkToken} (hr : r ∈ s.rows)
    (hspent : r.codeSpentAt = none) {guess : List Char} {codeHash : String}
    (hhash : r.codeHash = some codeHash)
    (hverify : hs.verify (String.ofList guess) codeHash = true) (i : Nat) :
    (stepCode hs s i ⟨r.id, guess, false⟩).codes = s.codes.set i ⟨r.id, guess, true⟩ ∧
      { r with codeSpentAt := some s.now } ∈ (stepCode hs s i ⟨r.id, guess, false⟩).rows := by
  have hcond : (r.id == r.id && r.codeSpentAt.isNone) = true := by simp [hspent]
  have hfind : (s.rows.find? fun k => k.id == r.id && k.codeSpentAt.isNone) = some r := by
    cases heq : s.rows.find? fun k => k.id == r.id && k.codeSpentAt.isNone with
    | none => exact absurd hcond (List.find?_eq_none.mp heq r hr)
    | some k =>
      have hk : k.id = r.id ∧ k.codeSpentAt = none := by simpa using List.find?_some heq
      rw [List.inj_on_of_nodup_map hkeyed (List.mem_of_find?_eq_some heq) hr hk.1]
  constructor
  · simp only [stepCode, hfind, Option.bind_some, hhash, hverify, if_true]
  · rw [rows_stepCode]
    exact List.mem_map.mpr ⟨r, hr, if_pos hcond⟩

section Busy

variable {r : MagicLinkToken}

theorem StayDead.not_link (h : StayDead cfg hs lower toLowercase s) (hr : r ∈ s.rows) (hused : r.usedAt = none)
    (hsup : r.supersededAt ≠ none) : r.id ∉ s.links := by
  intro hlink
  obtain ⟨i, hi⟩ := List.mem_iff_getElem?.mp hlink
  have hstep : step cfg hs lower toLowercase s (.markUsed i) =
      some { s.markUsed r.id .link with links := s.links.eraseIdx i } := by
    simp [step, hi]
  refine (h.leavesDead hstep).signIns ⟨r.id, .link⟩ ?_ ⟨r, hr, rfl, hsup⟩
  rw [signIns_markUsed_of_mem .link hr hused, List.drop_left]
  exact List.mem_singleton.mpr rfl

theorem StayDead.not_verified (h : StayDead cfg hs lower toLowercase s) (hr : r ∈ s.rows)
    (hused : r.usedAt = none) (hsup : r.supersededAt ≠ none) (guess : List Char) :
    ⟨r.id, guess, true⟩ ∉ s.codes := by
  intro hc
  obtain ⟨i, hi⟩ := List.mem_iff_getElem?.mp hc
  have hstep : step cfg hs lower toLowercase s (.redeem i) =
      some { s.markUsed r.id .code with codes := s.codes.eraseIdx i } := by
    simp [step, hi]
  refine (h.leavesDead hstep).signIns ⟨r.id, .code⟩ ?_ ⟨r, hr, rfl, hsup⟩
  rw [signIns_markUsed_of_mem .code hr hused, List.drop_left]
  exact List.mem_singleton.mpr rfl

theorem StayDead.not_lands (h : StayDead cfg hs lower toLowercase s) (hkeyed : (s.rows.map (·.id)).Nodup)
    (hr : r ∈ s.rows) (hused : r.usedAt = none) (hsup : r.supersededAt ≠ none) {c : CodeTry}
    (hc : c ∈ s.codes) (hrow : c.row = r.id) : ¬ Lands hs s c := by
  obtain ⟨row, guess, verified⟩ := c
  obtain rfl : row = r.id := hrow
  cases verified with
  | true => exact absurd hc (h.not_verified hr hused hsup guess)
  | false =>
    rintro (hv | ⟨k, hk, hkid, hspent, codeHash, hhash, hverify⟩)
    · cases hv
    · obtain rfl : k = r := List.inj_on_of_nodup_map hkeyed hk hr hkid
      obtain ⟨i, hi⟩ := List.mem_iff_getElem?.mp hc
      have hstep : step cfg hs lower toLowercase s (.spend i) =
          some (stepCode hs s i ⟨k.id, guess, false⟩) := by
        simp [step, hi]
      have ht : Timely hs lower s (.spend i) := trivial
      obtain ⟨hcodes, hmem⟩ := stepCode_right hkeyed hr hspent hhash hverify i
      refine (h.after ht hstep).not_verified hmem hused hsup guess ?_
      rw [hcodes]
      exact List.mem_set (List.getElem?_eq_some_iff.mp hi).1 _

variable {i : Nat} {t : SendTask}

theorem StayDead.not_sending (h : StayDead cfg hs lower toLowercase s) (hr : r ∈ s.rows)
    (hsup : r.supersededAt ≠ none) (hi : s.sends[i]? = some t) (hrow : t.row = r.id) :
    t.phase ≠ .sending := by
  intro hph
  have hstep : step cfg hs lower toLowercase s (.send i (.sent true)) =
      some ((s.addMail t).setPhase i t .mailed) := by
    simp [step, hi, hph, stepSend]
  refine (h.leavesDead hstep).mails ⟨t.row, t.email, (s.get t.row).bind (·.sentAt), s.now⟩ ?_
    ⟨r, hr, hrow.symm, hsup⟩
  simp only [setPhase, addMail, List.drop_left]
  exact List.mem_singleton.mpr rfl

theorem getElem?_sends_failed (hi : s.sends[i]? = some t) (ph : SendPhase) :
    (s.failed.setPhase i t ph).sends[i]? = some { t with phase := ph } :=
  List.getElem?_set_self (List.getElem?_eq_some_iff.mp hi).1

theorem StayDead.not_restamping (h : StayDead cfg hs lower toLowercase s) (hr : r ∈ s.rows)
    (hsup : r.supersededAt ≠ none) (hi : s.sends[i]? = some t) (hrow : t.row = r.id) :
    t.phase ≠ .restamping := by
  intro hph
  have hstep : step cfg hs lower toLowercase s (.send i (.restamp false)) =
      some (s.failed.setPhase i t .sending) := by
    simp [step, hi, hph, stepSend]
  have ht : Timely hs lower s (.send i (.restamp false)) := trivial
  exact (h.after ht hstep).not_sending hr hsup (getElem?_sends_failed hi .sending) hrow rfl

theorem StayDead.settled (h : StayDead cfg hs lower toLowercase s) (hr : r ∈ s.rows)
    (hsup : r.supersededAt ≠ none) (hi : s.sends[i]? = some t) (hrow : t.row = r.id) :
    t.phase.settled = true := by
  have hclaim : step cfg hs lower toLowercase s (.send i .claimFailed) ≠
      some (s.failed.setPhase i t .restamping) := by
    intro hstep
    have ht : Timely hs lower s (.send i .claimFailed) := trivial
    exact (h.after ht hstep).not_restamping hr hsup (getElem?_sends_failed hi .restamping) hrow rfl
  cases hph : t.phase with
  | queued | claiming began | locked began | stamped began =>
    exact absurd (by simp [step, hi, hph, stepSend]) hclaim
  | restamping => exact absurd hph (h.not_restamping hr hsup hi hrow)
  | sending => exact absurd hph (h.not_sending hr hsup hi hrow)
  | mailed | releasing | done => rfl

theorem StayDead.idle (h : StayDead cfg hs lower toLowercase s) (hkeyed : (s.rows.map (·.id)).Nodup)
    (hr : r ∈ s.rows) (hused : r.usedAt = none) (hsup : r.supersededAt ≠ none) :
    Idle hs s r.id :=
  ⟨h.not_link hr hused hsup, fun _ hc hrow => h.not_lands hkeyed hr hused hsup hc hrow,
    fun t ht hrow => by
      obtain ⟨i, hi⟩ := List.mem_iff_getElem?.mp ht
      exact h.settled hr hsup hi hrow⟩

end Busy

/-- **A retired row is dead as long as nothing of it was under way when it was retired**, and
only then. -/
theorem superseded_dead_iff {now : Time}
    (hrun : Run (step cfg hs lower toLowercase) (Timely hs lower) (start now) s)
    (hstep : step cfg hs lower toLowercase s e = some s') :
    LeavesDead s s' ∧ (Timely hs lower s e ↔ StayDead cfg hs lower toLowercase s') := by
  have hinv : Retired hs lower s :=
    hrun.invariant (retired_start hs lower now) fun _ _ _ h hok hnext => retired_step h hok hnext
  refine ⟨hinv.leavesDead hstep, fun ht => (retired_step hinv ht hstep).stayDead, fun hdead => ?_⟩
  rcases timely_or hs lower s e with ht | ⟨i, rfl⟩
  · exact ht
  · obtain ⟨t, hi, hph, rfl⟩ := retires_of_step hstep
    intro t' ht' r hr hcond
    rw [hi, Option.some.injEq] at ht'
    subst ht'
    have hmem : { r with supersededAt := some s.now } ∈
        ((s.supersedeOthers lower t.email t.row).setPhase i t .done).rows :=
      List.mem_map.mpr ⟨r, hr, if_pos hcond⟩
    have hused : r.usedAt = none := by
      simp only [superseding, Bool.and_eq_true, Option.isNone_iff_eq_none] at hcond
      exact hcond.1.1.2
    have hidle := hdead.idle (sending_step hinv.sending hstep).keyed hmem hused
      (Option.some_ne_none s.now)
    exact (idle_retired hi hph).mp hidle

theorem superseded_of_any {id : Uuid}
    (h : (s.rows.any fun r => r.id == id && r.supersededAt.isSome) = true) : s.Superseded id := by
  obtain ⟨r, hr, hcond⟩ := List.any_eq_true.mp h
  simp only [Bool.and_eq_true, beq_iff_eq, Option.isSome_iff_ne_none] at hcond
  exact ⟨r, hr, hcond⟩

namespace One

/-- Two mails of an address, the window apart. -/
def mailed : List MagicLinkEvent :=
  .requested (newLink 1 "first" "n1" 0) :: mailing 0 ++
  ([.tick (seconds 60), .requested (newLink 2 "second" "n2" (seconds 60))] : List MagicLinkEvent) ++
  mailing 1

/-- The second mail retires the first link, which nobody had opened. -/
theorem superseded_dead_iff_mailed :
    ∃ s s', Run (step ⟨15, 60⟩ plainHashes id id) (Timely plainHashes id) (start 0) s ∧
      step ⟨15, 60⟩ plainHashes id id s (.send 1 (.supersedeOthers true)) = some s' ∧
      s'.Superseded 1 ∧ StayDead ⟨15, 60⟩ plainHashes id id s' := by
  have hrun : ((steps (step ⟨15, 60⟩ plainHashes id id) (start 0) mailed).any fun s =>
      s.links.isEmpty && s.codes.isEmpty && s.sends.all (·.phase.settled) &&
      (step ⟨15, 60⟩ plainHashes id id s (.send 1 (.supersedeOthers true))).any fun s' =>
        s'.rows.any fun r => r.id == 1 && r.supersededAt.isSome) = true := by
    decide +kernel
  obtain ⟨s, hs, hcond⟩ := (Option.any_eq_true _ _).mp hrun
  simp only [Bool.and_eq_true, List.isEmpty_iff, List.all_eq_true] at hcond
  obtain ⟨⟨⟨hlinks, hcodes⟩, hsends⟩, hnext⟩ := hcond
  obtain ⟨s', hstep, hsup⟩ := (Option.any_eq_true _ _).mp hnext
  have hquiet : ∀ l ∈ mailed, ∀ u, Timely plainHashes id u l := by
    intro l hl u
    simp only [mailed, mailing, List.cons_append, List.nil_append, List.mem_cons,
      List.not_mem_nil, or_false] at hl
    rcases hl with rfl | rfl | rfl | rfl | rfl | rfl | rfl | rfl | rfl | rfl | rfl | rfl | rfl <;>
      trivial
  have hrun := Run.of_steps_allowed hs hquiet
  refine ⟨s, s', hrun, hstep, superseded_of_any hsup, (superseded_dead_iff hrun hstep).2.mp ?_⟩
  intro t ht k hk hcond
  exact ⟨by simp [hlinks], by simp [hcodes], fun u hu _ => hsends u hu⟩

/-- The first link is opened and the second mail is slow; the third mail retires both. -/
def late : List MagicLinkEvent :=
  .requested (newLink 1 "first" "n1" 0) :: mailing 0 ++
  ([.consume "first", .tick (seconds 60), .requested (newLink 2 "second" "n2" (seconds 60)),
    .send 1 .claim, .send 1 .lock, .send 1 .update, .send 1 .commit, .tick (seconds 120),
    .requested (newLink 3 "third" "n3" (seconds 120))] : List MagicLinkEvent) ++
  mailing 2 ++ ([.send 2 (.supersedeOthers true)] : List MagicLinkEvent)

/-- A superseded link signs its reader in, and a superseded row is mailed. -/
theorem retired_link_signs_in :
    ∃ s s₁ s₂, Run (step ⟨15, 60⟩ plainHashes id id) (fun _ _ => True) (start 0) s ∧
      s.Superseded 1 ∧ step ⟨15, 60⟩ plainHashes id id s (.markUsed 0) = some s₁ ∧
      s₁.signIns = s.signIns ++ [⟨1, .link⟩] ∧
      s.Superseded 2 ∧ step ⟨15, 60⟩ plainHashes id id s (.send 1 (.sent true)) = some s₂ ∧
      s₂.mails.map (·.row) = s.mails.map (·.row) ++ [2] := by
  have hrun : ((steps (step ⟨15, 60⟩ plainHashes id id) (start 0) late).any fun s =>
      (s.rows.any fun r => r.id == 1 && r.supersededAt.isSome) &&
      ((step ⟨15, 60⟩ plainHashes id id s (.markUsed 0)).any fun s₁ =>
        s₁.signIns == s.signIns ++ [⟨1, .link⟩]) &&
      (s.rows.any fun r => r.id == 2 && r.supersededAt.isSome) &&
      (step ⟨15, 60⟩ plainHashes id id s (.send 1 (.sent true))).any fun s₂ =>
        s₂.mails.map (·.row) == s.mails.map (·.row) ++ [2]) = true := by
    decide +kernel
  obtain ⟨s, hs, hcond⟩ := (Option.any_eq_true _ _).mp hrun
  simp only [Bool.and_eq_true] at hcond
  obtain ⟨⟨⟨hfirst, hlink⟩, hsecond⟩, hmail⟩ := hcond
  obtain ⟨s₁, hstep₁, hsign⟩ := (Option.any_eq_true _ _).mp hlink
  obtain ⟨s₂, hstep₂, hmails⟩ := (Option.any_eq_true _ _).mp hmail
  exact ⟨s, s₁, s₂, .of_steps hs, superseded_of_any hfirst, hstep₁, eq_of_beq hsign,
    superseded_of_any hsecond, hstep₂, eq_of_beq hmails⟩

end One

end MagicLinks

end Uptimepage
