import Uptimepage.Domain.Incident

/-!
# Escalation policies

`domain/escalation_policy.rs`: the ladder and the pure decision `nextStep` that walks
it.  A rung is paged, its delay passes, the next rung follows; past the last one the
ladder is walked again `repeatCount` more times.
-/

namespace Uptimepage

inductive EscalationTargetType
  | user
  | schedule
  | channel
deriving DecidableEq

structure EscalationTarget where
  targetType : EscalationTargetType
  userId : Option UserId
  scheduleId : Option Uuid
  channelId : Option Uuid
deriving DecidableEq

structure EscalationStep where
  level : Int
  delaySecs : Int
  targets : List EscalationTarget
deriving DecidableEq

structure EscalationPolicy where
  org : OrgId
  id : Uuid
  repeatCount : Int
  steps : List EscalationStep
  deletedAt : Option Time
deriving DecidableEq

inductive EscalationDecision
  | page (level round delaySecs : Int)
  | exhausted
deriving DecidableEq

/-- Pure ladder walk; `level` 0 means not yet started. -/
def nextStep (steps : List EscalationStep) (repeatCount level round : Int) :
    EscalationDecision :=
  match steps with
  | [] => .exhausted
  | first :: _ =>
    match steps.find? fun s => decide (level < s.level) with
    | some next => .page next.level round next.delaySecs
    | none =>
      if round < repeatCount then .page first.level (round + 1) first.delaySecs
      else .exhausted

end Uptimepage
