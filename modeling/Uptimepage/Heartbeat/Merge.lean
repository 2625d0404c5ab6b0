import Mathlib
import Uptimepage.Crdt.Register
import Uptimepage.Heartbeat.State

/-!
# The merge of two ping states

`mergeNewer` takes each field from the state that has the newer one, so that it makes a
`Register` of `PingState`.
-/

namespace Uptimepage.Heartbeat

open Crdt

namespace PingState

/-- The stamp of a field that may be absent. -/
def stamp : Option Time → WithBot Time
  | none => ⊥
  | some t => t

def failStamp (fail : Option Failure) : WithBot Time := stamp (fail.map Failure.time)

theorem stamp_injective : Function.Injective stamp := by
  intro a b h
  cases a <;> cases b <;> simp_all [stamp]

theorem stamp_le_iff {a : Option Time} {t : Time} :
    stamp a ≤ stamp (some t) ↔ ∀ s ∈ a, s ≤ t := by
  cases a with
  | none => exact ⟨fun _ => nofun, fun _ => bot_le⟩
  | some s =>
    have hcoe : stamp (some s) ≤ stamp (some t) ↔ s ≤ t := WithBot.coe_le_coe
    rw [hcoe]
    constructor
    · rintro h _ ⟨⟩
      exact h
    · exact fun h => h s rfl

theorem failStamp_lt_of_forall {fail : Option Failure} {t : Time} {code : Option UInt8}
    (h : ∀ f ∈ fail, f.time < t) : failStamp fail < failStamp (some ⟨t, code⟩) := by
  cases fail with
  | none => exact WithBot.bot_lt_coe t
  | some f => exact WithBot.coe_lt_coe.mpr (h f rfl)

theorem newer_iff {a b : Option Time} : newer a b = true ↔ stamp b < stamp a := by
  cases a <;> cases b <;> simp [newer, stamp]

variable (a b : PingState)

theorem mergeNewer_successAt :
    (a.mergeNewer b).successAt = newest id a.successAt b.successAt := rfl

theorem mergeNewer_startAt : (a.mergeNewer b).startAt = newest stamp a.startAt b.startAt := by
  unfold mergeNewer newest
  simp only [newer_iff]

theorem mergeNewer_fail : (a.mergeNewer b).fail = newest failStamp a.fail b.fail := by
  unfold mergeNewer newest
  simp only [newer_iff]
  rfl

theorem ext_fields {a b : PingState} (h₁ : a.successAt = b.successAt) (h₂ : a.startAt = b.startAt)
    (h₃ : a.fail = b.fail) : a = b := by
  cases a
  cases b
  cases h₁
  cases h₂
  cases h₃
  rfl

end PingState

open PingState

instance : Register PingState where
  merge := PingState.mergeNewer
  merge_assoc a b c := by
    apply ext_fields
    · simp only [mergeNewer_successAt, newest_assoc]
    · simp only [mergeNewer_startAt, newest_assoc]
    · simp only [mergeNewer_fail, newest_assoc]
  merge_self a := by
    apply ext_fields
    · simp only [mergeNewer_successAt, newest_self]
    · simp only [mergeNewer_startAt, newest_self]
    · simp only [mergeNewer_fail, newest_self]
  merge_merge_left a b := by
    apply ext_fields
    · simp only [mergeNewer_successAt, newest_newest_left]
    · simp only [mergeNewer_startAt, newest_newest_left]
    · simp only [mergeNewer_fail, newest_newest_left]

theorem merge_eq (a b : PingState) : Register.merge a b = a.mergeNewer b := rfl

theorem eq_iff_fields {a b : PingState} :
    a = b ↔ a.successAt = b.successAt ∧ a.startAt = b.startAt ∧ a.fail = b.fail := by
  constructor
  · rintro rfl
    exact ⟨rfl, rfl, rfl⟩
  · rintro ⟨h₁, h₂, h₃⟩
    exact ext_fields h₁ h₂ h₃

/-- No field of `a` is newer than `b`'s. -/
structure NotAfter (a b : PingState) : Prop where
  success : a.successAt ≤ b.successAt
  start : stamp a.startAt ≤ stamp b.startAt
  fail : failStamp a.fail ≤ failStamp b.fail

theorem covers_iff {c a : PingState} : Covers c a ↔ NotAfter a c := by
  unfold Covers
  rw [merge_eq, eq_iff_fields, mergeNewer_successAt, mergeNewer_startAt, mergeNewer_fail,
    newest_eq_left_iff, newest_eq_left_iff, newest_eq_left_iff]
  constructor
  · rintro ⟨h₁, h₂, h₃⟩
    exact ⟨h₁, h₂, h₃⟩
  · rintro ⟨h₁, h₂, h₃⟩
    exact ⟨h₁, h₂, h₃⟩

theorem older_iff {a b : PingState} :
    Older a b ↔ NotAfter a b ∧ (failStamp a.fail = failStamp b.fail → a.fail = b.fail) := by
  unfold Older
  rw [merge_eq, eq_iff_fields, mergeNewer_successAt, mergeNewer_startAt, mergeNewer_fail,
    newest_eq_right_iff, newest_eq_right_iff, newest_eq_right_iff]
  constructor
  · rintro ⟨h₁, h₂, h₃⟩
    refine ⟨⟨?_, ?_, ?_⟩, ?_⟩
    · exact h₁.elim le_of_lt le_of_eq
    · exact h₂.elim le_of_lt fun h => (congrArg stamp h).le
    · exact h₃.elim le_of_lt fun h => (congrArg failStamp h).le
    · exact fun heq => h₃.elim (fun hlt => absurd heq hlt.ne) id
  · rintro ⟨⟨h₁, h₂, h₃⟩, htie⟩
    exact ⟨h₁.lt_or_eq, h₂.lt_or_eq.imp_right fun h => stamp_injective h,
      h₃.lt_or_eq.imp_right htie⟩

theorem older_successAt {state : PingState} {t : Time} :
    Older state { state with successAt := t } ↔ state.successAt ≤ t := by
  rw [older_iff]
  constructor
  · exact fun h => h.1.success
  · exact fun h => ⟨⟨h, le_rfl, le_rfl⟩, fun _ => rfl⟩

theorem older_fail {state : PingState} {fail : Option Failure} :
    Older state { state with fail } ↔
      failStamp state.fail < failStamp fail ∨ state.fail = fail := by
  rw [older_iff]
  constructor
  · exact fun h => h.1.fail.lt_or_eq.imp_right h.2
  · rintro (hlt | heq)
    · exact ⟨⟨le_rfl, le_rfl, hlt.le⟩, fun h => absurd h hlt.ne⟩
    · exact ⟨⟨le_rfl, le_rfl, (congrArg failStamp heq).le⟩, fun _ => heq⟩

end Uptimepage.Heartbeat
