import Uptimepage.OAuth.Tokens

/-!
# A secret is spent once

A code is deleted as it is read, and a refresh token is marked where it is unmarked, so at
most one request comes to hold a secret.  `Spent` follows the secret from there: its code is
redeemed once, and it has one successor.
-/

namespace Uptimepage

open Async

/-- The secret that the request has spent and not yet exchanged. -/
def GrantPhase.held : GrantPhase → Option Secret
  | consumed code => some (.code code.codeHash)
  | issuing args | minting args _ | inserting args => some args.presented
  | _ => none

namespace OAuth

/-- A row that a request can still spend. -/
def Live (s : OAuth) : Secret → Prop
  | .code hash => ∃ c ∈ s.codes, c.codeHash = hash
  | .refresh hash => ∃ rt ∈ s.refreshTokens, rt.tokenHash = hash ∧ rt.usedAt = none

/-- The secret was drawn, and can no longer be spent. -/
def Dead (s : OAuth) (x : Secret) : Prop := x ∈ s.drawn ∧ ¬s.Live x

structure Spent (s : OAuth) : Prop where
  drawn : ∀ x, s.Live x → x ∈ s.drawn
  held : ∀ (i : Nat) (g : Grant) (x : Secret), s.grants[i]? = some g → g.phase.held = some x →
    s.Dead x ∧ x ∉ s.successors
  apart : ∀ (i j : Nat) (g g' : Grant) (x : Secret), s.grants[i]? = some g →
    s.grants[j]? = some g' → g.phase.held = some x → g'.phase.held = some x → i = j
  unredeemed : ∀ (i : Nat) (g : Grant) (code : AuthCode), s.grants[i]? = some g →
    g.phase = .consumed code → ∀ r ∈ s.redeemed, r.codeHash ≠ code.codeHash
  redeemed : ∀ r ∈ s.redeemed, s.Dead (.code r.codeHash)
  redeemedOnce : (s.redeemed.map (·.codeHash)).Nodup
  successors : ∀ x ∈ s.successors, s.Dead x
  successorsOnce : s.successors.Nodup

/-- A secret that can be spent after a step could be before, or is new. -/
def Fades (s s' : OAuth) : Prop :=
  (∀ x ∈ s.drawn, x ∈ s'.drawn) ∧ ∀ x, s'.Live x → s.Live x ∨ (x ∉ s.drawn ∧ x ∈ s'.drawn)

variable {env : OAuthEnv} {s s' : OAuth} {e : OAuthEvent} {i : Nat} {g : Grant}

theorem Fades.dead (h : Fades s s') {x : Secret} (hx : s.Dead x) : s'.Dead x := by
  refine ⟨h.1 x hx.1, fun hlive => ?_⟩
  rcases h.2 x hlive with hold | ⟨hnew, -⟩
  · exact hx.2 hold
  · exact hnew hx.1

theorem fades_of_rows (hdrawn : s'.drawn = s.drawn) (hcodes : ∀ c ∈ s'.codes, c ∈ s.codes)
    (hrefresh : ∀ rt ∈ s'.refreshTokens, rt.usedAt = none → rt ∈ s.refreshTokens) :
    Fades s s' := by
  refine ⟨fun x hx => hdrawn ▸ hx, fun x hx => .inl ?_⟩
  cases x with
  | code hash =>
    obtain ⟨c, hc, hhash⟩ := hx
    exact ⟨c, hcodes c hc, hhash⟩
  | refresh hash =>
    obtain ⟨rt, hrt, hhash, hunused⟩ := hx
    exact ⟨rt, hrefresh rt hrt hunused, hhash, hunused⟩

theorem Spent.quiet (h : Spent s) (hfades : Fades s s')
    (hgrants : ∀ (i : Nat) (g : Grant), s'.grants[i]? = some g →
      s.grants[i]? = some g ∨ g.phase.held = none)
    (hredeemed : s'.redeemed = s.redeemed) (hsucc : s'.successors = s.successors) : Spent s' := by
  have hold : ∀ (i : Nat) (g : Grant) (x : Secret), s'.grants[i]? = some g →
      g.phase.held = some x → s.grants[i]? = some g := by
    intro i g x hi hx
    rcases hgrants i g hi with hold | hnone
    · exact hold
    · rw [hnone] at hx
      cases hx
  refine ⟨fun x hx => ?_, fun i g x hi hx => ?_, fun i j g g' x hi hj hx hx' => ?_,
    fun i g code hi hph => ?_, fun r hr => ?_, ?_, fun x hx => ?_, ?_⟩
  · rcases hfades.2 x hx with hold | ⟨-, hnew⟩
    · exact hfades.1 x (h.drawn x hold)
    · exact hnew
  · obtain ⟨hdead, hno⟩ := h.held i g x (hold i g x hi hx) hx
    exact ⟨hfades.dead hdead, hsucc ▸ hno⟩
  · exact h.apart i j g g' x (hold i g x hi hx) (hold j g' x hj hx') hx hx'
  · rw [hredeemed]
    exact h.unredeemed i g code (hold i g _ hi (by rw [hph]; rfl)) hph
  · exact hfades.dead (h.redeemed r (hredeemed ▸ hr))
  · exact hredeemed ▸ h.redeemedOnce
  · exact hfades.dead (h.successors x (hsucc ▸ hx))
  · exact hsucc ▸ h.successorsOnce

theorem Spent.move (h : Spent s) {ph : GrantPhase} (hfades : Fades s s')
    (hi : s.grants[i]? = some g) (hgrants : s'.grants = s.grants.set i { g with phase := ph })
    (hheld : ∀ x, ph.held = some x → g.phase.held = some x ∨ (s.Live x ∧ ¬s'.Live x))
    (hconsumed : ∀ code, ph = .consumed code → s.Live (.code code.codeHash))
    (hredeemed : s'.redeemed = s.redeemed ∨ ∃ code r, g.phase = .consumed code ∧
      (∀ c, ph ≠ .consumed c) ∧ r.codeHash = code.codeHash ∧ s'.redeemed = s.redeemed ++ [r])
    (hsucc : s'.successors = s.successors ∨ ∃ x, g.phase.held = some x ∧ ph.held = none ∧
      s'.successors = s.successors ++ [x]) : Spent s' := by
  have hdead : ∀ x, ph.held = some x → s'.Dead x ∧ x ∉ s.successors := by
    intro x hx
    rcases hheld x hx with hold | ⟨hlive, hnot⟩
    · obtain ⟨hd, hno⟩ := h.held i g x hi hold
      exact ⟨hfades.dead hd, hno⟩
    · exact ⟨⟨hfades.1 x (h.drawn x hlive), hnot⟩, fun hx => (h.successors x hx).2 hlive⟩
  -- what one request comes to hold, no other holds
  have hsole : ∀ (j : Nat) (g' : Grant) (x : Secret), j ≠ i → s.grants[j]? = some g' →
      g'.phase.held = some x → ph.held ≠ some x := by
    intro j g' x hji hj hx hph
    rcases hheld x hph with hold | ⟨hlive, -⟩
    · exact hji (h.apart j i g' g x hj hi hx hold)
    · exact (h.held j g' x hj hx).1.2 hlive
  refine ⟨fun x hx => ?_, fun j g' x hj hx => ?_, fun j k g₁ g₂ x hj hk hx hx' => ?_,
    fun j g' code hj hph => ?_, fun r hr => ?_, ?_, fun x hx => ?_, ?_⟩
  · rcases hfades.2 x hx with hold | ⟨-, hnew⟩
    · exact hfades.1 x (h.drawn x hold)
    · exact hnew
  · rw [hgrants] at hj
    rcases getElem?_set_cases hj with ⟨-, rfl⟩ | ⟨hji, hj'⟩
    · refine ⟨(hdead x hx).1, ?_⟩
      rcases hsucc with heq | ⟨y, -, hnone, -⟩
      · exact heq ▸ (hdead x hx).2
      · cases hx.symm.trans hnone
    · obtain ⟨hd, hno⟩ := h.held j g' x hj' hx
      refine ⟨hfades.dead hd, ?_⟩
      rcases hsucc with heq | ⟨y, hy, -, heq⟩
      · exact heq ▸ hno
      · rw [heq, List.mem_append, List.mem_singleton, not_or]
        exact ⟨hno, fun hxy => hji (h.apart j i g' g x hj' hi hx (hxy ▸ hy))⟩
  · rw [hgrants] at hj hk
    rcases getElem?_set_cases hj with ⟨hji, rfl⟩ | ⟨hji, hj'⟩ <;>
      rcases getElem?_set_cases hk with ⟨hki, rfl⟩ | ⟨hki, hk'⟩
    · exact hji.trans hki.symm
    · exact absurd hx (hsole k g₂ x hki hk' hx')
    · exact absurd hx' (hsole j g₁ x hji hj' hx)
    · exact h.apart j k g₁ g₂ x hj' hk' hx hx'
  · rw [hgrants] at hj
    intro r hr hcode
    rcases getElem?_set_cases hj with ⟨-, rfl⟩ | ⟨hji, hj'⟩
    · obtain rfl : ph = .consumed code := hph
      rcases hredeemed with heq | ⟨-, -, -, hnot, -⟩
      · exact (h.redeemed r (heq ▸ hr)).2 (hcode ▸ hconsumed code rfl)
      · exact hnot code rfl
    · rcases hredeemed with heq | ⟨code', r', hph', -, hr', heq⟩
      · exact h.unredeemed j g' code hj' hph r (heq ▸ hr) hcode
      · rw [heq, List.mem_append, List.mem_singleton] at hr
        rcases hr with hr | rfl
        · exact h.unredeemed j g' code hj' hph r hr hcode
        · refine hji (h.apart j i g' g (.code code.codeHash) hj' hi (by rw [hph]; rfl) ?_)
          rw [hph', ← hcode, hr']
          rfl
  · rcases hredeemed with heq | ⟨code, r', hph, -, hr', heq⟩
    · exact hfades.dead (h.redeemed r (heq ▸ hr))
    · rw [heq, List.mem_append, List.mem_singleton] at hr
      rcases hr with hr | rfl
      · exact hfades.dead (h.redeemed r hr)
      · rw [hr']
        exact hfades.dead (h.held i g _ hi (by rw [hph]; rfl)).1
  · rcases hredeemed with heq | ⟨code, r', hph, -, hr', heq⟩
    · exact heq ▸ h.redeemedOnce
    · rw [heq, List.map_append, List.nodup_append']
      refine ⟨h.redeemedOnce, List.nodup_singleton _, fun hash hmem hmem' => ?_⟩
      obtain ⟨r, hr, rfl⟩ := List.mem_map.mp hmem
      have hcode : r.codeHash = r'.codeHash := List.mem_singleton.mp hmem'
      exact h.unredeemed i g code hi hph r hr (hcode.trans hr')
  · rcases hsucc with heq | ⟨y, hy, -, heq⟩
    · exact hfades.dead (h.successors x (heq ▸ hx))
    · rw [heq, List.mem_append, List.mem_singleton] at hx
      rcases hx with hx | rfl
      · exact hfades.dead (h.successors x hx)
      · exact hfades.dead (h.held i g x hi hy).1
  · rcases hsucc with heq | ⟨y, hy, -, heq⟩
    · exact heq ▸ h.successorsOnce
    · rw [heq, List.nodup_append']
      refine ⟨h.successorsOnce, List.nodup_singleton _, fun x hx hx' => ?_⟩
      exact (h.held i g y hi hy).2 (List.mem_singleton.mp hx' ▸ hx)

theorem Fades.refl (s : OAuth) : Fades s s := ⟨fun _ hx => hx, fun _ hx => .inl hx⟩

theorem mem_markRefreshUsed {hash : String} {rt : RefreshToken}
    (h : rt ∈ (s.markRefreshUsed hash).refreshTokens) (hunused : rt.usedAt = none) :
    rt ∈ s.refreshTokens ∧ rt.tokenHash ≠ hash := by
  obtain ⟨old, hold, rfl⟩ := List.mem_map.mp h
  split at hunused
  · cases hunused
  · next hcond =>
    rw [if_neg hcond] at *
    refine ⟨hold, fun heq => hcond ?_⟩
    simp [heq, hunused]

theorem spent_grantStep (h : Spent s) {e : GrantEvent} (hi : s.grants[i]? = some g)
    (hstep : GrantStep env s i g e s') : Spent s' := by
  cases hstep with
  | stopped => exact h.move (.refl s) hi rfl nofun nofun (.inl rfl) (.inl rfl)
  | consumed code hph hmem hhash =>
    have hlive : s.Live (.code code.codeHash) := ⟨code, hmem, rfl⟩
    refine h.move ?_ hi rfl (fun x hx => .inr ?_) (fun c hc => ?_) (.inl rfl) (.inl rfl)
    · exact fades_of_rows rfl (fun c hc => List.mem_of_mem_filter hc) fun rt hrt _ => hrt
    · obtain rfl : Secret.code code.codeHash = x := Option.some.inj hx
      refine ⟨hlive, ?_⟩
      rintro ⟨c, hc, heq⟩
      simpa [heq] using (List.mem_filter.mp hc).2
    · cases hc
      exact hlive
  | redeemed code family hph hredeems hfresh =>
    refine h.move (.refl s) hi rfl (fun x hx => .inl ?_) nofun ?_ (.inl rfl)
    · rw [hph]
      exact hx
    · exact .inr ⟨code, _, hph, nofun, rfl, rfl⟩
  | found rt hph hmem => exact h.move (.refl s) hi rfl nofun nofun (.inl rfl) (.inl rfl)
  | replayed rt hph hused => exact h.move (.refl s) hi rfl nofun nofun (.inl rfl) (.inl rfl)
  | live rt hph hlive => exact h.move (.refl s) hi rfl nofun nofun (.inl rfl) (.inl rfl)
  | marked rt hph hunused =>
    refine h.move ?_ hi rfl (fun x hx => .inr ?_) nofun (.inl rfl) (.inl rfl)
    · exact fades_of_rows rfl (fun c hc => hc) fun rt hrt hnone => (mem_markRefreshUsed hrt hnone).1
    · obtain rfl : Secret.refresh rt.tokenHash = x := Option.some.inj hx
      obtain ⟨row, hrow, hcond⟩ := List.any_eq_true.mp hunused
      simp only [Bool.and_eq_true, beq_iff_eq, Option.isNone_iff_eq_none] at hcond
      refine ⟨⟨row, hrow, hcond⟩, ?_⟩
      rintro ⟨row', hrow', hhash, hnone⟩
      exact (mem_markRefreshUsed hrow' hnone).2 hhash
  | issued args he hph =>
    refine h.move (.refl s) hi rfl (fun x hx => .inl ?_) nofun (.inl rfl) (.inl rfl)
    rw [hph]
    exact hx
  | minted args accessExpiresAt id raw salt hph =>
    refine h.move (.refl s) hi rfl (fun x hx => .inl ?_) nofun (.inl rfl) (.inl rfl)
    rw [hph]
    exact hx
  | inserted args hash hph hfresh =>
    refine h.move ⟨fun x hx => List.mem_append_left _ hx, fun x hx => ?_⟩ hi rfl nofun nofun
      (.inl rfl) (.inr ⟨args.presented, by rw [hph]; rfl, rfl, rfl⟩)
    cases x with
    | code hash => exact .inl hx
    | refresh hash' =>
      obtain ⟨rt, hrt, hhash, hnone⟩ := hx
      rcases List.mem_append.mp hrt with hold | hnew
      · exact .inl ⟨rt, hold, hhash, hnone⟩
      · rw [List.mem_singleton.mp hnew] at hhash
        obtain rfl : hash = hash' := hhash
        exact .inr ⟨hfresh, List.mem_append_right _ List.mem_cons_self⟩
  | familyDeleted rt he hph =>
    refine h.move ?_ hi rfl nofun nofun (.inl rfl) (.inl rfl)
    exact fades_of_rows rfl (fun c hc => hc) fun rt hrt _ => List.mem_of_mem_filter hrt
  | familyKept rt hph => exact h.move (.refl s) hi rfl nofun nofun (.inl rfl) (.inl rfl)
  | revoked rt deleted hph => exact h.move (.refl s) hi rfl nofun nofun (.inl rfl) (.inl rfl)

theorem firstPhase_held (req : TokenRequest) : (firstPhase req).held = none := by
  rcases firstPhase_cases req with h | h | h <;> rw [h] <;> rfl

theorem spent_storeStep (h : Spent s) (hstep : StoreStep env s s') : Spent s' := by
  cases hstep with
  | tick t hle => exact h.quiet (.refl s) (fun _ _ hi => .inl hi) rfl rfl
  | clients clients => exact h.quiet (.refl s) (fun _ _ hi => .inl hi) rfl rfl
  | same => exact h
  | decided d code hcode hfresh =>
    refine h.quiet ⟨fun x hx => List.mem_append_left _ hx, fun x hx => ?_⟩ (fun _ _ hi => .inl hi)
      rfl rfl
    cases x with
    | refresh hash => exact .inl hx
    | code hash =>
      obtain ⟨c, hc, rfl⟩ := hx
      rcases List.mem_append.mp hc with hold | hnew
      · exact .inl ⟨c, hold, rfl⟩
      · rw [List.mem_singleton.mp hnew]
        exact .inr ⟨hfresh, List.mem_append_right _ List.mem_cons_self⟩
  | arrived req =>
    refine h.quiet (.refl s) (fun i g hi => ?_) rfl rfl
    rcases getElem?_snoc_cases hi with hold | ⟨-, rfl⟩
    · exact .inl hold
    · exact .inr (firstPhase_held req)
  | accepted t hmem hlive => exact h.quiet (.refl s) (fun _ _ hi => .inl hi) rfl rfl
  | deleted p => exact h.quiet (.refl s) (fun _ _ hi => .inl hi) rfl rfl
  | sweptCodes p =>
    exact h.quiet (fades_of_rows rfl (fun c hc => List.mem_of_mem_filter hc) fun rt hrt _ => hrt)
      (fun _ _ hi => .inl hi) rfl rfl
  | sweptRefreshTokens p =>
    exact h.quiet (fades_of_rows rfl (fun c hc => hc) fun rt hrt _ => List.mem_of_mem_filter hrt)
      (fun _ _ hi => .inl hi) rfl rfl

theorem spent_start (now : Time) : Spent (start now) := by
  constructor <;> simp [start, Live]
  rintro (hash | hash) <;> simp

theorem spent_step (h : Spent s) (hstep : step env s e = some s') : Spent s' := by
  rcases step_cases hstep with hstore | ⟨i, g, e', -, hi, hgrant⟩
  · exact spent_storeStep h hstore
  · exact spent_grantStep h hi hgrant

end OAuth
end Uptimepage
