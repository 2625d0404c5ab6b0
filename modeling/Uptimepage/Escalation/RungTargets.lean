import Uptimepage.Escalation.Deliver

/-!
# What a rung reaches

`resolve_targets` pages each channel once while it resolves the targets one after the other.  It is
the same program as resolving every target on its own first and keeping the first page of each
channel after (`rung_targets_deduplicated`), whatever the stores answer and wherever they fail.
-/

namespace Uptimepage

open Async Job

/-! ## Each target on its own -/

def expandUser (org : OrgId) (user : UserId) : Job (List PageTarget) := do
  let contacts ← store (.contactsForUser org user)
  pure (contacts.map fun cid => ⟨cid, some user⟩)

def expandUsers (org : OrgId) : List UserId → Job (List PageTarget)
  | [] => pure []
  | user :: rest => do
    let found ← expandUser org user
    let others ← expandUsers org rest
    pure (found ++ others)

/-- What one target resolves to: the channel itself, the contacts of the user, the contacts of
each user on call. -/
def expandTarget (org : OrgId) (at_ : Time) (t : EscalationTarget) : Job (List PageTarget) :=
  match t.targetType with
  | .channel => pure (t.channelId.toList.map fun cid => ⟨cid, none⟩)
  | .user =>
    match t.userId with
    | some uid => expandUser org uid
    | none => pure []
  | .schedule =>
    match t.scheduleId with
    | some sid => do
      let users ← resolveOnCall org sid at_
      expandUsers org users
    | none => pure []

def expandTargets (org : OrgId) (at_ : Time) : List EscalationTarget → Job (List PageTarget)
  | [] => pure []
  | t :: rest => do
    let found ← expandTarget org at_ t
    let others ← expandTargets org at_ rest
    pure (found ++ others)

def EscalationPolicy.targetsAt (policy : EscalationPolicy) (level : Int) :
    List EscalationTarget :=
  match policy.steps.find? fun s => s.level == level with
  | none => []
  | some step => step.targets

/-! ## The first page of each channel -/

def pushAll (out found : List PageTarget) : List PageTarget :=
  found.foldl (fun out t => pushTarget out t.channelId t.userId) out

def firstPerChannel (found : List PageTarget) : List PageTarget := pushAll [] found

section

variable {out found : List PageTarget} {t : PageTarget}

theorem pushAll_append (out found others : List PageTarget) :
    pushAll out (found ++ others) = pushAll (pushAll out found) others :=
  List.foldl_append

theorem pushAll_contacts (user : UserId) (contacts : List Uuid) (out : List PageTarget) :
    pushAll out (contacts.map fun cid => ⟨cid, some user⟩) =
      contacts.foldl (fun out cid => pushTarget out cid (some user)) out :=
  List.foldl_map

theorem pushTarget_eq (out : List PageTarget) (t : PageTarget) :
    pushTarget out t.channelId t.userId =
      if t.channelId ∈ out.map (·.channelId) then out else out ++ [t] := by
  have hany : (out.any fun other => other.channelId == t.channelId) = true ↔
      t.channelId ∈ out.map (·.channelId) := by
    rw [List.any_eq_true, List.mem_map]
    simp only [beq_iff_eq]
  unfold pushTarget
  simp only [hany]

theorem find?_pushAll (c : Uuid) (found out : List PageTarget) :
    (pushAll out found).find? (·.channelId == c) = (out ++ found).find? (·.channelId == c) := by
  induction found generalizing out with
  | nil => rw [List.append_nil]; rfl
  | cons t found ih =>
    show (pushAll (pushTarget out t.channelId t.userId) found).find? _ = _
    rw [ih, pushTarget_eq]
    split
    · next hmem =>
      -- the page `t` asks for is one of `out`
      rw [List.find?_append, List.find?_append, List.find?_cons]
      by_cases hc : t.channelId = c
      · obtain ⟨first, hfirst⟩ : ∃ first, out.find? (·.channelId == c) = some first := by
          obtain ⟨other, hother, hsame⟩ := List.mem_map.mp hmem
          refine Option.isSome_iff_exists.mp (List.find?_isSome.mpr ⟨other, hother, ?_⟩)
          simp [hsame, hc]
        rw [hfirst]
        rfl
      · rw [beq_false_of_ne hc]
    · rw [List.append_assoc]
      rfl

theorem nodup_pushAll (found : List PageTarget) {out : List PageTarget}
    (h : (out.map (·.channelId)).Nodup) : ((pushAll out found).map (·.channelId)).Nodup := by
  induction found generalizing out with
  | nil => exact h
  | cons t found ih =>
    refine ih ?_
    show ((pushTarget out t.channelId t.userId).map (·.channelId)).Nodup
    rw [pushTarget_eq]
    split
    · exact h
    · next hnew =>
      rw [List.map_append, List.map_singleton]
      exact List.nodup_append.mpr ⟨h, List.nodup_singleton _, fun a ha b hb => by
        rw [List.mem_singleton.mp hb]
        rintro rfl
        exact hnew ha⟩

theorem find?_eq_of_mem (h : (out.map (·.channelId)).Nodup) (hmem : t ∈ out) :
    out.find? (·.channelId == t.channelId) = some t := by
  induction out with
  | nil => cases hmem
  | cons first rest ih =>
    obtain ⟨hnew, hrest⟩ := List.nodup_cons.mp h
    rw [List.find?_cons]
    rcases List.mem_cons.mp hmem with rfl | hlater
    · simp
    · have hne : first.channelId ≠ t.channelId := by
        intro hsame
        exact hnew (List.mem_map.mpr ⟨t, hlater, hsame.symm⟩)
      rw [beq_false_of_ne hne]
      exact ih hrest hlater

theorem mem_firstPerChannel :
    t ∈ firstPerChannel found ↔ found.find? (·.channelId == t.channelId) = some t := by
  have hfind := find?_pushAll t.channelId found []
  rw [List.nil_append] at hfind
  rw [← hfind]
  constructor
  · exact find?_eq_of_mem (nodup_pushAll found List.nodup_nil)
  · exact List.mem_of_find?_eq_some

theorem mem_channels_firstPerChannel {c : Uuid} :
    c ∈ (firstPerChannel found).map (·.channelId) ↔ c ∈ found.map (·.channelId) := by
  have hfind := find?_pushAll c found []
  have hmem : ∀ l : List PageTarget, c ∈ l.map (·.channelId) ↔
      (l.find? (·.channelId == c)).isSome = true := by
    intro l
    rw [List.find?_isSome, List.mem_map]
    simp
  rw [hmem, hmem, firstPerChannel, hfind, List.nil_append]

end

/-! ## One program and the other -/

section

variable {org : OrgId} {at_ : Time}

theorem pageUser_eq (user : UserId) (out : List PageTarget) :
    pageUser org user out = expandUser org user >>= fun found => pure (pushAll out found) := by
  unfold expandUser
  rw [Fallible.bind_assoc]
  refine congrArg _ (funext fun contacts => ?_)
  rw [Fallible.pure_bind]
  exact congrArg pure (pushAll_contacts user contacts out).symm

theorem pageUsers_eq (users : List UserId) (out : List PageTarget) :
    pageUsers org users out = expandUsers org users >>= fun found => pure (pushAll out found) := by
  induction users generalizing out with
  | nil => rfl
  | cons user rest ih =>
    unfold pageUsers expandUsers
    simp only [pageUser_eq, ih, Fallible.bind_assoc, Fallible.pure_bind, pushAll_append]

theorem resolveTarget_eq (t : EscalationTarget) (out : List PageTarget) :
    resolveTarget org at_ t out =
      expandTarget org at_ t >>= fun found => pure (pushAll out found) := by
  unfold resolveTarget expandTarget
  cases t.targetType with
  | channel =>
    cases t.channelId with
    | none => rfl
    | some cid => rfl
  | user =>
    cases t.userId with
    | none => rfl
    | some uid => exact pageUser_eq uid out
  | schedule =>
    cases t.scheduleId with
    | none => rfl
    | some sid => simp only [pageUsers_eq, Fallible.bind_assoc]

theorem resolveTargetList_eq (targets : List EscalationTarget) (out : List PageTarget) :
    resolveTargetList org at_ targets out =
      expandTargets org at_ targets >>= fun found => pure (pushAll out found) := by
  induction targets generalizing out with
  | nil => rfl
  | cons t rest ih =>
    unfold resolveTargetList expandTargets
    simp only [resolveTarget_eq, ih, Fallible.bind_assoc, Fallible.pure_bind, pushAll_append]

end

/-- **Rung targets are deduplicated without loss.**  Resolving a rung is expanding its targets and
keeping the first page of each channel: no channel twice, every channel a target resolves to, and
each with the responder of the first target that reaches it. -/
theorem rung_targets_deduplicated (org : OrgId) (policy : EscalationPolicy) (level : Int)
    (at_ : Time) :
    (resolveTargets org policy level at_ = do
      let found ← expandTargets org at_ (policy.targetsAt level)
      pure (firstPerChannel found)) ∧
    ∀ found : List PageTarget,
      ((firstPerChannel found).map (·.channelId)).Nodup ∧
      (∀ c, c ∈ (firstPerChannel found).map (·.channelId) ↔ c ∈ found.map (·.channelId)) ∧
      ∀ t, t ∈ firstPerChannel found ↔
        found.find? (·.channelId == t.channelId) = some t := by
  refine ⟨?_, fun found => ⟨nodup_pushAll found List.nodup_nil,
    fun _ => mem_channels_firstPerChannel, fun _ => mem_firstPerChannel⟩⟩
  unfold resolveTargets EscalationPolicy.targetsAt
  cases policy.steps.find? fun s => s.level == level with
  | none => rfl
  | some step => exact resolveTargetList_eq step.targets []

end Uptimepage
