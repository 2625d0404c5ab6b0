import Uptimepage.Chrono.DateTime
import Uptimepage.Domain.Incident

/-!
# Who is on call

`domain/on_call.rs`: a schedule is a stack of rotation layers, an override beats the rotation in
its window, and `resolveOnCall` is the pure resolver.  What the time zone database answers is a
`Zone`; a local date and time is in microseconds, as an instant is, and past chrono's calendar
there is none: what asks for its date, or adds to it, panics.
-/

namespace Uptimepage

inductive RotationType
  | daily
  | weekly
  | custom
deriving DecidableEq

structure OnCallParticipant where
  userId : UserId
  position : Int
deriving DecidableEq

structure OnCallLayer where
  id : Uuid
  rotationType : RotationType
  rotationLengthSecs : Int
  handoffAt : Time
  layerOrder : Int
  createdAt : Time
  participants : List OnCallParticipant
deriving DecidableEq

/-- A one-off coverage swap, for `startsAt` up to `endsAt`. -/
structure OnCallOverride where
  id : Uuid
  userId : UserId
  startsAt : Time
  endsAt : Time
deriving DecidableEq

namespace OnCall

open Chrono

/-! ## Local time -/

inductive LocalResult
  | single (utc : Time)
  | ambiguous (earliest latest : Time)
  | none
deriving DecidableEq

def LocalResult.earliest : LocalResult → Option Time
  | single utc => some utc
  | ambiguous earliest _ => some earliest
  | none => Option.none

/-- A time zone of `chrono_tz`. -/
structure Zone where
  toLocal : Time → Int
  fromLocal : Int → LocalResult
  offsetFromUtc : Int → Int

def day : Int := seconds 86400

/-- The date of a local time is in the calendar. -/
def InCalendar (naive : Int) : Prop := minDay ≤ naive / day ∧ naive / day ≤ maxDay

instance : DecidablePred InCalendar := fun _ => inferInstanceAs (Decidable (_ ∧ _))

/-- A local time, from arithmetic with operators. -/
def checked (naive : Int) : Except Panic Int :=
  if InCalendar naive then .ok naive else .error .dateTimeOverflow

/-- Past the wall time that never happens, to the first that does. -/
def Zone.stepOut (tz : Zone) (naive : Int) : List Int → Except Panic Time
  | [] => checked (naive - seconds (tz.offsetFromUtc naive))
  | mins :: rest => do
    let later ← checked (naive + seconds (60 * mins))
    match (tz.fromLocal later).earliest with
    | some utc => pure utc
    | none => stepOut tz naive rest

/-- The wall time may be ambiguous, or never happen. -/
def Zone.localToUtc (tz : Zone) (naive : Int) : Except Panic Time :=
  match tz.fromLocal naive with
  | .single utc => pure utc
  | .ambiguous earliest _ => pure earliest
  | .none => tz.stepOut naive [60, 120, 180, 240]

/-! ## The resolver -/

/-- How many handoffs have elapsed since the anchor. -/
def rotationIndex (layer : OnCallLayer) (tz : Zone) (at_ : Time) : Except Panic Int :=
  match layer.rotationType with
  | .custom =>
    let secs := (at_ - layer.handoffAt).tdiv (seconds 1)
    let len := max layer.rotationLengthSecs 1
    pure (if secs < 0 then 0 else secs / len)
  | .daily | .weekly => do
    let periodDays := max (layer.rotationLengthSecs.tdiv 86400) 1
    let anchorLocal ← checked (tz.toLocal layer.handoffAt)
    let nowLocal ← checked (tz.toLocal at_)
    let anchorDate := anchorLocal / day
    let nowDate := nowLocal / day
    if nowDate < anchorDate then pure 0
    else do
      let handoffToday ← tz.localToUtc (nowDate * day + anchorLocal % day)
      let days := if at_ < handoffToday then nowDate - anchorDate - 1 else nowDate - anchorDate
      pure (if days < 0 then 0 else days / periodDays)

def layerOnCall (layer : OnCallLayer) (tz : Zone) (at_ : Time) : Except Panic (Option UserId) :=
  if layer.participants.isEmpty then pure none
  else do
    let ps := layer.participants.insertionSort fun p q => p.position ≤ q.position
    let idx ← rotationIndex layer tz at_
    let slot := (idx % (ps.length : Int)).toNat
    pure (ps[slot]?.map OnCallParticipant.userId)

/-- A user who covers twice is on call once. -/
def pushUser (out : List UserId) (o : OnCallOverride) : List UserId :=
  if out.contains o.userId then out else out ++ [o.userId]

/-- The first of the layers that has somebody. -/
def firstOnCall (tz : Zone) (at_ : Time) : List OnCallLayer → Except Panic (List UserId)
  | [] => pure []
  | layer :: rest => do
    match ← layerOnCall layer tz at_ with
    | some uid => pure [uid]
    | none => firstOnCall tz at_ rest

/-- Overrides covering the instant win; otherwise the highest layer with participants does. -/
def resolveOnCall (tz : Zone) (layers : List OnCallLayer) (overrides : List OnCallOverride)
    (at_ : Time) : Except Panic (List UserId) :=
  let covering := overrides.filter fun o => decide (o.startsAt ≤ at_) && decide (at_ < o.endsAt)
  if !covering.isEmpty then
    pure ((covering.insertionSort fun o p => o.startsAt ≤ p.startsAt).foldl pushUser [])
  else
    firstOnCall tz at_ <| (layers.filter fun l => !l.participants.isEmpty).insertionSort
      fun a b => b.layerOrder < a.layerOrder ∨
        b.layerOrder = a.layerOrder ∧ a.createdAt ≤ b.createdAt

/-- Somebody takes part in one of the layers. -/
def inLayers (layers : List OnCallLayer) (user : UserId) : Bool :=
  layers.any fun l => l.participants.any fun p => p.userId == user

/-- Somebody's name is on the schedule. -/
def onSchedule (layers : List OnCallLayer) (overrides : List OnCallOverride) (user : UserId) :
    Bool :=
  inLayers layers user || overrides.any fun o => o.userId == user

variable {tz : Zone} {at_ : Time} {user : UserId} {users : List UserId}
  {layers : List OnCallLayer} {overrides : List OnCallOverride}

theorem layerOnCall_mem {layer : OnCallLayer} (h : layerOnCall layer tz at_ = .ok (some user)) :
    (layer.participants.any fun p => p.userId == user) = true := by
  unfold layerOnCall at h
  split at h
  · cases h
  · obtain ⟨idx, -, hget⟩ := bind_eq_ok_iff.1 h
    obtain ⟨p, hp, rfl⟩ := Option.map_eq_some_iff.mp (Except.ok.inj hget)
    have hmem := (List.mem_insertionSort _).mp (List.mem_iff_getElem?.mpr ⟨_, hp⟩)
    exact List.any_eq_true.mpr ⟨p, hmem, beq_self_eq_true _⟩

theorem firstOnCall_mem (h : firstOnCall tz at_ layers = .ok users) (hmem : user ∈ users) :
    ∃ layer ∈ layers, layerOnCall layer tz at_ = .ok (some user) := by
  induction layers with
  | nil =>
    cases h
    cases hmem
  | cons layer layers ih =>
    obtain ⟨found, hfound, h⟩ := bind_eq_ok_iff.1 h
    cases found with
    | some uid =>
      cases h
      rw [List.mem_singleton.mp hmem]
      exact ⟨layer, List.mem_cons_self, hfound⟩
    | none =>
      obtain ⟨l, hl, hon⟩ := ih h
      exact ⟨l, List.mem_cons_of_mem _ hl, hon⟩

theorem mem_foldl_pushUser {out : List UserId} (h : user ∈ overrides.foldl pushUser out) :
    user ∈ out ∨ ∃ o ∈ overrides, o.userId = user := by
  induction overrides generalizing out with
  | nil => exact .inl h
  | cons o overrides ih =>
    unfold List.foldl at h
    rcases ih h with hout | ⟨o', ho', rfl⟩
    · unfold pushUser at hout
      split at hout
      · exact .inl hout
      · rcases List.mem_append.mp hout with hout | hout
        · exact .inl hout
        · exact .inr ⟨o, List.mem_cons_self, (List.mem_singleton.mp hout).symm⟩
    · exact .inr ⟨o', List.mem_cons_of_mem _ ho', rfl⟩

theorem onSchedule_of_mem_resolveOnCall (h : resolveOnCall tz layers overrides at_ = .ok users)
    (hmem : user ∈ users) : onSchedule layers overrides user = true := by
  unfold onSchedule
  rw [Bool.or_eq_true]
  unfold resolveOnCall at h
  dsimp only at h
  split at h
  · cases h
    rcases mem_foldl_pushUser hmem with hnil | ⟨o, ho, rfl⟩
    · cases hnil
    · have hmem := (List.mem_insertionSort _).mp ho
      exact .inr (List.any_eq_true.mpr ⟨o, List.mem_of_mem_filter hmem, beq_self_eq_true _⟩)
  · obtain ⟨layer, hlayer, hon⟩ := firstOnCall_mem h hmem
    have hmem := (List.mem_insertionSort _).mp hlayer
    exact .inl (List.any_eq_true.mpr ⟨layer, List.mem_of_mem_filter hmem, layerOnCall_mem hon⟩)

end OnCall

end Uptimepage
