import Uptimepage.OAuth.Consent

/-!
# A revoked family stays dead

A replay deletes the rows of its family and then the access token.  A request that had
marked its token before, and inserts the successor after, brings the family back
(`family_revived`).
-/

namespace Uptimepage

open Async

/-- The family that the request is about to issue tokens for. -/
def GrantPhase.issuesFor : GrantPhase → Option Uuid
  | issuing args | minting args _ | inserting args => some args.familyId
  | _ => none

/-- The row that the request has read and not yet marked. -/
def GrantPhase.readRow : GrantPhase → Option RefreshToken
  | found rt | marking rt => some rt
  | _ => none

namespace OAuth

/-- When a replay deletes its family, no request is between the mark of one of the family's
tokens and the insert of its successor. -/
def deletesUnhurried (s : OAuth) : OAuthEvent → Bool
  | .grant i (.deleteFamily true) =>
    match s.grants[i]?.map Grant.phase with
    | some (.deletingFamily rt) => s.grants.all fun g => g.phase.issuesFor != some rt.familyId
    | _ => true
  | _ => true

/-- The family was opened, and nothing of it can issue a token again. -/
structure Burnt (s : OAuth) (family : Uuid) : Prop where
  opened : ∃ f ∈ s.families, f.id = family
  refreshTokens : ∀ rt ∈ s.refreshTokens, rt.familyId ≠ family
  grants : ∀ (i : Nat) (g : Grant), s.grants[i]? = some g → g.phase.issuesFor ≠ some family

/-- Rows are of one hash each, and a row with the hash that a request read is of the family
it read. -/
structure Keyed (s : OAuth) : Prop where
  hashes : (s.refreshTokens.map (·.tokenHash)).Nodup
  drawn : ∀ rt ∈ s.refreshTokens, .refresh rt.tokenHash ∈ s.drawn
  read : ∀ (i : Nat) (g : Grant) (rt : RefreshToken), s.grants[i]? = some g →
    g.phase.readRow = some rt → .refresh rt.tokenHash ∈ s.drawn ∧
      ∀ row ∈ s.refreshTokens, row.tokenHash = rt.tokenHash → row.familyId = rt.familyId

variable {env : OAuthEnv} {s s' : OAuth} {e : OAuthEvent} {i : Nat} {g : Grant}

theorem Keyed.frame (h : Keyed s) (hdrawn : ∀ x ∈ s.drawn, x ∈ s'.drawn)
    (hrefresh : (s'.refreshTokens.map fun rt => (rt.tokenHash, rt.familyId)).Sublist
      (s.refreshTokens.map fun rt => (rt.tokenHash, rt.familyId)))
    (hgrants : ∀ (i : Nat) (g : Grant) (rt : RefreshToken), s'.grants[i]? = some g →
      g.phase.readRow = some rt → rt ∈ s.refreshTokens ∨
      ∃ (j : Nat) (g' : Grant), s.grants[j]? = some g' ∧ g'.phase.readRow = some rt) :
    Keyed s' := by
  have hrow : ∀ row ∈ s'.refreshTokens, ∃ old ∈ s.refreshTokens,
      old.tokenHash = row.tokenHash ∧ old.familyId = row.familyId := by
    intro row hrow
    obtain ⟨old, hold, heq⟩ := List.mem_map.mp (hrefresh.subset (List.mem_map_of_mem hrow))
    exact ⟨old, hold, Prod.mk.inj heq⟩
  refine ⟨?_, fun row hmem => ?_, fun i g rt hi hread => ?_⟩
  · have hsub := hrefresh.map Prod.fst
    simp only [List.map_map] at hsub
    exact h.hashes.sublist hsub
  · obtain ⟨old, hold, hhash, -⟩ := hrow row hmem
    exact hhash ▸ hdrawn _ (h.drawn old hold)
  · rcases hgrants i g rt hi hread with hmem | ⟨j, g', hj, hread'⟩
    · refine ⟨hdrawn _ (h.drawn rt hmem), fun row hmem' hhash => ?_⟩
      obtain ⟨old, hold, hhash', hfam⟩ := hrow row hmem'
      rw [← hfam, List.inj_on_of_nodup_map h.hashes hold hmem (hhash'.trans hhash)]
    · obtain ⟨hd, hknown⟩ := h.read j g' rt hj hread'
      refine ⟨hdrawn _ hd, fun row hmem' hhash => ?_⟩
      obtain ⟨old, hold, hhash', hfam⟩ := hrow row hmem'
      rw [← hfam, hknown old hold (hhash'.trans hhash)]

variable {p : GrantPhase} {family : Uuid}

theorem reads_set (hi : s.grants[i]? = some g)
    (hp : ∀ rt, p.readRow = some rt → rt ∈ s.refreshTokens ∨ g.phase.readRow = some rt) (j : Nat)
    (g' : Grant) (rt : RefreshToken) (hj : (s.grants.set i { g with phase := p })[j]? = some g')
    (hread : g'.phase.readRow = some rt) : rt ∈ s.refreshTokens ∨
      ∃ (j : Nat) (g' : Grant), s.grants[j]? = some g' ∧ g'.phase.readRow = some rt := by
  rcases getElem?_set_cases hj with ⟨-, rfl⟩ | ⟨-, hold⟩
  · rcases hp rt hread with hmem | hread'
    · exact .inl hmem
    · exact .inr ⟨i, g, hi, hread'⟩
  · exact .inr ⟨j, g', hold, hread⟩

theorem keyed_grantStep (h : Keyed s) {e : GrantEvent} (hi : s.grants[i]? = some g)
    (hstep : GrantStep env s i g e s') : Keyed s' := by
  cases hstep with
  | found rt hph hmem =>
    refine h.frame (fun _ hx => hx) (.refl _) (reads_set hi fun rt' hread => .inl ?_)
    exact Option.some.inj hread ▸ hmem
  | live rt hph hlive =>
    refine h.frame (fun _ hx => hx) (.refl _) (reads_set hi fun rt' hread => .inr ?_)
    rw [hph]
    exact hread
  | marked rt hph hunused =>
    have heq : (s.markRefreshUsed rt.tokenHash).refreshTokens.map
        (fun row => (row.tokenHash, row.familyId)) =
          s.refreshTokens.map fun row => (row.tokenHash, row.familyId) :=
      Table.map_update (f := fun row => { row with usedAt := some s.now }) (fun _ => rfl)
        s.refreshTokens
    refine h.frame (fun _ hx => hx) ?_ (reads_set hi nofun)
    exact heq.symm ▸ List.Sublist.refl _
  | inserted args hash hph hfresh =>
    refine ⟨?_, fun rt hrt => ?_, fun j g' rt hj hread => ?_⟩
    · change ((s.refreshTokens ++ _).map (·.tokenHash)).Nodup
      rw [List.map_append, List.nodup_append']
      refine ⟨h.hashes, List.nodup_singleton _, fun x hx hx' => ?_⟩
      obtain ⟨rt, hrt, rfl⟩ := List.mem_map.mp hx
      have heq : rt.tokenHash = hash := List.mem_singleton.mp hx'
      exact hfresh (heq ▸ h.drawn rt hrt)
    · rcases List.mem_append.mp hrt with hold | hnew
      · exact List.mem_append_left _ (h.drawn rt hold)
      · rw [List.mem_singleton.mp hnew]
        exact List.mem_append_right _ List.mem_cons_self
    · rcases getElem?_set_cases hj with ⟨-, rfl⟩ | ⟨-, hold⟩
      · cases hread
      · obtain ⟨hd, hknown⟩ := h.read j g' rt hold hread
        refine ⟨List.mem_append_left _ hd, fun row hrow hhash => ?_⟩
        rcases List.mem_append.mp hrow with hold' | hnew
        · exact hknown row hold' hhash
        · rw [List.mem_singleton.mp hnew] at hhash
          have heq : hash = rt.tokenHash := hhash
          exact absurd (heq ▸ hd) hfresh
  | familyDeleted rt he hph =>
    exact h.frame (fun _ hx => hx) (List.filter_sublist.map _) (reads_set hi nofun)
  | _ => exact h.frame (fun _ hx => hx) (.refl _) (reads_set hi nofun)

theorem firstPhase_readRow (req : TokenRequest) : (firstPhase req).readRow = none := by
  rcases firstPhase_cases req with h | h | h <;> rw [h] <;> rfl

theorem keyed_storeStep (h : Keyed s) (hstep : StoreStep env s s') : Keyed s' := by
  have hsame : ∀ (i : Nat) (g : Grant) (rt : RefreshToken), s.grants[i]? = some g →
      g.phase.readRow = some rt → rt ∈ s.refreshTokens ∨
      ∃ (j : Nat) (g' : Grant), s.grants[j]? = some g' ∧ g'.phase.readRow = some rt :=
    fun i g rt hi hread => .inr ⟨i, g, hi, hread⟩
  cases hstep with
  | arrived req =>
    refine h.frame (fun _ hx => hx) (.refl _) fun i g rt hi hread => ?_
    rcases getElem?_snoc_cases hi with hold | ⟨-, rfl⟩
    · exact hsame i g rt hold hread
    · rw [firstPhase_readRow] at hread
      cases hread
  | decided d code hcode hfresh =>
    exact h.frame (fun _ hx => List.mem_append_left _ hx) (.refl _) hsame
  | sweptRefreshTokens p => exact h.frame (fun _ hx => hx) (List.filter_sublist.map _) hsame
  | _ => exact h.frame (fun _ hx => hx) (.refl _) hsame

theorem keyed_step (h : Keyed s) (hstep : step env s e = some s') : Keyed s' := by
  rcases step_cases hstep with hstore | ⟨i, g, e', -, hi, hgrant⟩
  · exact keyed_storeStep h hstore
  · exact keyed_grantStep h hi hgrant

/-! ## A burnt family -/

theorem Burnt.frame (h : Burnt s family) (hgrows : Grows s s')
    (hrefresh : ∀ rt ∈ s'.refreshTokens, (∃ old ∈ s.refreshTokens, old.familyId = rt.familyId) ∨
      ∃ (i : Nat) (g : Grant), s.grants[i]? = some g ∧ g.phase.issuesFor = some rt.familyId)
    (hgrants : ∀ (i : Nat) (g : Grant) (f : Uuid), s'.grants[i]? = some g →
      g.phase.issuesFor = some f →
      (∃ (j : Nat) (g' : Grant), s.grants[j]? = some g' ∧ g'.phase.issuesFor = some f) ∨
      (∃ rt ∈ s.refreshTokens, rt.familyId = f) ∨ ∀ f' ∈ s.families, f'.id ≠ f) :
    Burnt s' family := by
  obtain ⟨f, hf, hid⟩ := h.opened
  refine ⟨⟨f, hgrows.2 f hf, hid⟩, fun rt hrt heq => ?_, fun i g hi heq => ?_⟩
  · rcases hrefresh rt hrt with ⟨old, hold, hfam⟩ | ⟨j, g, hj, hfam⟩
    · exact h.refreshTokens old hold (hfam.trans heq)
    · exact h.grants j g hj (heq ▸ hfam)
  · rcases hgrants i g family hi heq with ⟨j, g', hj, hfam⟩ | ⟨rt, hrt, hfam⟩ | hfresh
    · exact h.grants j g' hj hfam
    · exact h.refreshTokens rt hrt hfam
    · exact hfresh f hf hid

theorem issues_set (hi : s.grants[i]? = some g)
    (hp : ∀ f, p.issuesFor = some f → g.phase.issuesFor = some f ∨
      (∃ rt ∈ s.refreshTokens, rt.familyId = f) ∨ ∀ f' ∈ s.families, f'.id ≠ f) (j : Nat)
    (g' : Grant) (f : Uuid) (hj : (s.grants.set i { g with phase := p })[j]? = some g')
    (hissues : g'.phase.issuesFor = some f) :
    (∃ (j : Nat) (g' : Grant), s.grants[j]? = some g' ∧ g'.phase.issuesFor = some f) ∨
      (∃ rt ∈ s.refreshTokens, rt.familyId = f) ∨ ∀ f' ∈ s.families, f'.id ≠ f := by
  rcases getElem?_set_cases hj with ⟨-, rfl⟩ | ⟨-, hold⟩
  · rcases hp f hissues with hsame | hrest
    · exact .inl ⟨i, g, hi, hsame⟩
    · exact .inr hrest
  · exact .inl ⟨j, g', hold, hissues⟩

theorem burnt_grantStep (h : Burnt s family) (hkeyed : Keyed s) {e : GrantEvent}
    (hi : s.grants[i]? = some g) (hgrows : Grows s s') (hstep : GrantStep env s i g e s') :
    Burnt s' family := by
  have hrows : ∀ rt ∈ s.refreshTokens, (∃ old ∈ s.refreshTokens, old.familyId = rt.familyId) ∨
      ∃ (i : Nat) (g : Grant), s.grants[i]? = some g ∧ g.phase.issuesFor = some rt.familyId :=
    fun rt hrt => .inl ⟨rt, hrt, rfl⟩
  cases hstep with
  | redeemed code newFamily hph hredeems hfresh =>
    refine h.frame hgrows hrows (issues_set hi fun f hf => .inr (.inr ?_))
    exact Option.some.inj hf ▸ hfresh
  | marked rt hph hunused =>
    refine h.frame hgrows (fun row hrow => ?_) (issues_set hi fun f hf => .inr (.inl ?_))
    · obtain ⟨old, hold, hfam, -⟩ := markRefreshUsed_row hrow
      exact .inl ⟨old, hold, hfam.symm⟩
    · -- the row that was marked is of the family that was read
      obtain ⟨row, hrow, hcond⟩ := List.any_eq_true.mp hunused
      simp only [Bool.and_eq_true, beq_iff_eq] at hcond
      refine ⟨row, hrow, ?_⟩
      rw [(hkeyed.read i g rt hi (by rw [hph]; rfl)).2 row hrow hcond.1]
      exact Option.some.inj hf
  | issued args he hph =>
    refine h.frame hgrows hrows (issues_set hi fun f hf => .inl ?_)
    rw [hph]
    exact hf
  | minted args accessExpiresAt id raw salt hph =>
    refine h.frame hgrows hrows (issues_set hi fun f hf => .inl ?_)
    rw [hph]
    exact hf
  | inserted args hash hph hfresh =>
    refine h.frame hgrows (fun rt hrt => ?_) (issues_set hi nofun)
    rcases List.mem_append.mp hrt with hold | hnew
    · exact hrows rt hold
    · refine .inr ⟨i, g, hi, ?_⟩
      rw [List.mem_singleton.mp hnew, hph]
      rfl
  | familyDeleted rt he hph =>
    exact h.frame hgrows (fun rt hrt => hrows rt (List.mem_of_mem_filter hrt))
      (issues_set hi nofun)
  | _ => exact h.frame hgrows hrows (issues_set hi nofun)

theorem firstPhase_issuesFor (req : TokenRequest) : (firstPhase req).issuesFor = none := by
  rcases firstPhase_cases req with h | h | h <;> rw [h] <;> rfl

theorem burnt_storeStep (h : Burnt s family) (hgrows : Grows s s') (hstep : StoreStep env s s') :
    Burnt s' family := by
  have hrows : ∀ rt ∈ s.refreshTokens, (∃ old ∈ s.refreshTokens, old.familyId = rt.familyId) ∨
      ∃ (i : Nat) (g : Grant), s.grants[i]? = some g ∧ g.phase.issuesFor = some rt.familyId :=
    fun rt hrt => .inl ⟨rt, hrt, rfl⟩
  cases hstep with
  | arrived req =>
    refine h.frame hgrows hrows fun i g f hi hf => ?_
    rcases getElem?_snoc_cases hi with hold | ⟨-, rfl⟩
    · exact .inl ⟨i, g, hold, hf⟩
    · rw [firstPhase_issuesFor] at hf
      cases hf
  | sweptRefreshTokens p =>
    exact h.frame hgrows (fun rt hrt => hrows rt (List.mem_of_mem_filter hrt))
      fun i g f hi hf => .inl ⟨i, g, hi, hf⟩
  | _ => exact h.frame hgrows hrows fun i g f hi hf => .inl ⟨i, g, hi, hf⟩

theorem burnt_step (h : Burnt s family) (hkeyed : Keyed s) (hstep : step env s e = some s') :
    Burnt s' family := by
  rcases step_cases hstep with hstore | ⟨i, g, e', -, hi, hgrant⟩
  · exact burnt_storeStep h (grows_step hstep) hstore
  · exact burnt_grantStep h hkeyed hi (grows_step hstep) hgrant

/-! ## Revocation -/

/-- A replay past its deletion has burnt the family, and a revoked one has no access token. -/
structure Revoking (s : OAuth) : Prop where
  deleted : ∀ (i : Nat) (g : Grant) (rt : RefreshToken), s.grants[i]? = some g →
    g.phase = .revokingOauth rt true → s.Burnt rt.familyId
  revoked : ∀ family ∈ s.revoked, s.Burnt family ∧ ∀ t ∈ s.apiTokens, t.familyId ≠ family

theorem Revoking.frame (h : Revoking s)
    (hburnt : ∀ family, s.Burnt family → s'.Burnt family)
    (hgrants : ∀ (i : Nat) (g : Grant) (rt : RefreshToken), s'.grants[i]? = some g →
      g.phase = .revokingOauth rt true → s.grants[i]? = some g ∨ s'.Burnt rt.familyId)
    (hrevoked : ∀ family ∈ s'.revoked, family ∈ s.revoked ∨
      s.Burnt family ∧ ∀ t ∈ s'.apiTokens, t.familyId ≠ family)
    (hapi : ∀ t ∈ s'.apiTokens, t ∈ s.apiTokens ∨
      ∃ (i : Nat) (g : Grant), s.grants[i]? = some g ∧ g.phase.issuesFor = some t.familyId) :
    Revoking s' := by
  refine ⟨fun i g rt hi hph => ?_, fun family hfam => ?_⟩
  · rcases hgrants i g rt hi hph with hold | hnew
    · exact hburnt _ (h.deleted i g rt hold hph)
    · exact hnew
  · rcases hrevoked family hfam with hold | ⟨hb, hnone⟩
    · obtain ⟨hb, hnone⟩ := h.revoked family hold
      refine ⟨hburnt _ hb, fun t ht heq => ?_⟩
      rcases hapi t ht with hold' | ⟨i, g, hi, hissues⟩
      · exact hnone t hold' heq
      · exact hb.grants i g hi (heq ▸ hissues)
    · exact ⟨hburnt _ hb, hnone⟩

theorem revoking_set (hp : ∀ rt, p = .revokingOauth rt true → s'.Burnt rt.familyId) (j : Nat)
    (g' : Grant) (rt : RefreshToken) (hj : (s.grants.set i { g with phase := p })[j]? = some g')
    (hph : g'.phase = .revokingOauth rt true) : s.grants[j]? = some g' ∨ s'.Burnt rt.familyId := by
  rcases getElem?_set_cases hj with ⟨-, rfl⟩ | ⟨-, hold⟩
  · exact .inr (hp rt hph)
  · exact .inl hold

theorem burnt_deleteRefreshFamily (hbound : Bound env s) {rt : RefreshToken}
    (hi : s.grants[i]? = some g) (hph : g.phase = .deletingFamily rt)
    (hok : deletesUnhurried s (.grant i (.deleteFamily true)) = true) :
    ((s.deleteRefreshFamily rt.familyId).setPhase i g (.revokingOauth rt true)).Burnt
      rt.familyId := by
  have hd : s.Descends rt.familyId rt.connection := by
    have := hbound.phases i g hi
    rw [hph] at this
    exact this
  obtain ⟨k, ⟨f, hf, hid, -⟩, -⟩ := hd
  simp only [deletesUnhurried, hi, Option.map_some, hph, List.all_eq_true, bne_iff_ne] at hok
  refine ⟨⟨f, hf, hid⟩, fun row hrow => ?_, fun j g' hj => ?_⟩
  · simpa using (List.mem_filter.mp hrow).2
  · rcases getElem?_set_cases hj with ⟨-, rfl⟩ | ⟨-, hold⟩
    · exact nofun
    · exact hok g' (List.mem_of_getElem? hold)

theorem revoking_grantStep (h : Revoking s) (hbound : Bound env s) {e : GrantEvent}
    (hi : s.grants[i]? = some g) (hok : deletesUnhurried s (.grant i e) = true)
    (hburnt : ∀ family, s.Burnt family → s'.Burnt family) (hstep : GrantStep env s i g e s') :
    Revoking s' := by
  cases hstep with
  | minted args accessExpiresAt id raw salt hph =>
    refine h.frame hburnt (revoking_set nofun) (fun _ hf => .inl hf) fun t ht => ?_
    rcases mem_mintOauth ht with hold | rfl
    · exact .inl hold
    · refine .inr ⟨i, g, hi, ?_⟩
      rw [hph]
      rfl
  | familyDeleted rt he hph =>
    subst he
    refine h.frame hburnt (revoking_set fun rt' heq => ?_) (fun _ hf => .inl hf)
      fun _ ht => .inl ht
    cases heq
    exact burnt_deleteRefreshFamily hbound hi hph hok
  | revoked rt deleted hph =>
    refine h.frame hburnt (revoking_set nofun) (fun family hfam => ?_)
      fun t ht => .inl (List.mem_of_mem_filter ht)
    cases deleted with
    | false => exact .inl hfam
    | true =>
      rcases List.mem_append.mp hfam with hold | hnew
      · exact .inl hold
      · rw [List.mem_singleton.mp hnew]
        refine .inr ⟨h.deleted i g rt hi hph, fun t ht heq => ?_⟩
        -- a token of the family carries the connection that was read
        obtain ⟨hmem, hkept⟩ := List.mem_filter.mp ht
        obtain ⟨conn, hd, hcarries⟩ := hbound.apiTokens t hmem
        have hd' : s.Descends rt.familyId rt.connection := by
          have := hbound.phases i g hi
          rw [hph] at this
          exact this
        obtain rfl := hbound.connection_eq (heq ▸ hd) hd'
        simp [hcarries.userId, hcarries.orgId, hcarries.oauthClientId, hcarries.audience,
          RefreshToken.connection] at hkept
  | _ =>
    exact h.frame hburnt (revoking_set nofun) (fun _ hf => .inl hf) fun _ ht => .inl ht

theorem revoking_storeStep (h : Revoking s)
    (hburnt : ∀ family, s.Burnt family → s'.Burnt family) (hstep : StoreStep env s s') :
    Revoking s' := by
  cases hstep with
  | arrived req =>
    refine h.frame hburnt (fun i g rt hi hph => ?_) (fun _ hf => .inl hf) fun _ ht => .inl ht
    rcases getElem?_snoc_cases hi with hold | ⟨-, rfl⟩
    · exact .inl hold
    · rcases firstPhase_cases req with heq | heq | heq <;>
      · rw [heq] at hph
        cases hph
  | deleted p =>
    exact h.frame hburnt (fun _ _ _ hi _ => .inl hi) (fun _ hf => .inl hf)
      fun t ht => .inl (List.mem_of_mem_filter ht)
  | _ => exact h.frame hburnt (fun _ _ _ hi _ => .inl hi) (fun _ hf => .inl hf) fun _ ht => .inl ht

theorem revoking_step (h : Revoking s) (hbound : Bound env s) (hkeyed : Keyed s)
    (hok : deletesUnhurried s e = true) (hstep : step env s e = some s') : Revoking s' := by
  have hburnt : ∀ family, s.Burnt family → s'.Burnt family := fun _ hb => burnt_step hb hkeyed hstep
  rcases step_cases hstep with hstore | ⟨i, g, e', rfl, hi, hgrant⟩
  · exact revoking_storeStep h hburnt hstore
  · exact revoking_grantStep h hbound hi hok hburnt hgrant

/-- Each secret has one successor, and nothing of a revoked family is left or let through. -/
structure DeadFamilies (env : OAuthEnv) (s : OAuth) : Prop where
  oneSuccessor : s.successors.Nodup
  refreshTokens : ∀ family ∈ s.revoked, ∀ rt ∈ s.refreshTokens, rt.familyId ≠ family
  apiTokens : ∀ family ∈ s.revoked, ∀ t ∈ s.apiTokens, t.familyId ≠ family
  accepted : ∀ raw t, lookupByRaw env s raw = some t → t.familyId ∉ s.revoked

/-- **A revoked family stays dead** in a run where every deletion of a family finds no other
request between its mark and its insert.  One successor a token needs no such care. -/
theorem dead_of_unhurried {now : Time}
    (hrun : Run (step env) (fun s e => deletesUnhurried s e = true) (start now) s) :
    DeadFamilies env s := by
  have hkeyed : Keyed (start now) := by constructor <;> simp [start]
  have hrevoking : Revoking (start now) := by constructor <;> simp [start]
  obtain ⟨hspent, -, -, hrevoking⟩ := hrun.invariant
    (I := fun u => Spent u ∧ Bound env u ∧ Keyed u ∧ Revoking u)
    ⟨spent_start now, bound_start env now, hkeyed, hrevoking⟩
    fun _ _ _ h hok hstep =>
      ⟨spent_step h.1 hstep, bound_step h.2.1 hstep, keyed_step h.2.2.1 hstep,
        revoking_step h.2.2.2 h.2.1 h.2.2.1 hok hstep⟩
  refine ⟨hspent.successorsOnce, fun family hfam => (hrevoking.revoked family hfam).1.refreshTokens,
    fun family hfam => (hrevoking.revoked family hfam).2, fun raw t ht hfam => ?_⟩
  exact (hrevoking.revoked _ hfam).2 t (lookupByRaw_some ht).1 rfl

/-- Request `i` presents `raw`, finds it used, and revokes its family. -/
def replaying (i : Nat) (raw : String) : List OAuthEvent :=
  [.token (refreshRequest raw), .grant i (.lookup true), .grant i (.check 0),
    .grant i (.deleteFamily true), .grant i (.revokeOauth true)]

theorem dead_of_unhurried_replayed :
    ∃ s, Run (step plainEnv) (fun s e => deletesUnhurried s e = true) (start 0) s ∧
      s.revoked = [7] ∧ s.successors.length = 2 ∧ DeadFamilies plainEnv s := by
  let events : List OAuthEvent :=
    connecting ++ rotating 1 "refresh1" ++
    ([.grant 1 .issue, .grant 1 (.mint true 2 "sm_live_second" 0),
      .grant 1 (.insert true "refresh2")] : List OAuthEvent) ++ replaying 2 "refresh1"
  obtain ⟨s, hrun, hs⟩ : ∃ s : OAuth,
      Run (step plainEnv) (fun s e => deletesUnhurried s e = true) (start 0) s ∧
      s.revoked = [7] ∧ s.successors.length = 2 :=
    exists_guarded_run events (by decide +kernel)
  obtain ⟨hrevoked, hsuccessors⟩ := hs
  exact ⟨s, hrun, hrevoked, hsuccessors, dead_of_unhurried hrun⟩

/-- A request has marked its token when a replay of the same token revokes the family.  The
request then mints an access token, which is accepted, and inserts the successor. -/
theorem family_revived :
    ∃ s, Run (step plainEnv) (fun _ _ => True) (start 0) s ∧ 7 ∈ s.revoked ∧
      (∃ rt ∈ s.refreshTokens, rt.familyId = 7 ∧ rt.usedAt = none) ∧
      (∃ t ∈ s.apiTokens, t.familyId = 7) ∧ ⟨7, seconds 5⟩ ∈ s.accepted := by
  let events : List OAuthEvent :=
    connecting ++ rotating 1 "refresh1" ++ replaying 2 "refresh1" ++
    ([.grant 1 .issue, .grant 1 (.mint true 2 "sm_live_second" 0), .tick (seconds 5),
      .useAccessToken "sm_live_second", .grant 1 (.insert true "refresh2")] : List OAuthEvent)
  obtain ⟨s, hrun, hs⟩ : ∃ s : OAuth, Run (step plainEnv) (fun _ _ => True) (start 0) s ∧
      7 ∈ s.revoked ∧ (∃ rt ∈ s.refreshTokens, rt.familyId = 7 ∧ rt.usedAt = none) ∧
        (∃ t ∈ s.apiTokens, t.familyId = 7) ∧ ⟨7, seconds 5⟩ ∈ s.accepted :=
    exists_run_satisfying events (by decide +kernel)
  exact ⟨s, hrun, hs⟩

end OAuth
end Uptimepage
