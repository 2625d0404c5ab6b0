import Uptimepage.Escalation.Rules

/-!
# Two readings of the ledger

`open_episode_active` decides whether an outage is still being paged, `resolvable_channels` who is
told that it is over.  While an episode is active somebody is owed an all-clear, and once all of
them have it the episode is closed (`ledger_predicates_agree`).
-/

namespace Uptimepage

section

variable {rows allClear : List IncidentNotification} {cid : Uuid}

theorem resolvableFrom_nodup (rows : List IncidentNotification) (seen ids : List Uuid) :
    (resolvableFrom rows seen ids).Nodup := by
  induction ids generalizing seen with
  | nil => exact List.nodup_nil
  | cons c rest ih =>
    unfold resolvableFrom
    split
    · exact ih seen
    · split
      · refine List.nodup_cons.mpr ⟨fun hmem => ?_, ih _⟩
        exact (mem_resolvableFrom.1 hmem).2.1 List.mem_cons_self
      · exact ih _

variable {rows' : List IncidentNotification}

theorem owedAllClear_perm (h : rows.Perm rows') (cid : Uuid) :
    owedAllClear rows' cid = owedAllClear rows cid := by
  rw [Bool.eq_iff_iff, owedAllClear_iff, owedAllClear_iff]
  simp only [h.mem_iff]

theorem openEpisodeActive_perm (h : rows.Perm rows') :
    openEpisodeActive rows' = openEpisodeActive rows := by
  rw [Bool.eq_iff_iff, openEpisodeActive_iff, openEpisodeActive_iff]
  simp only [h.mem_iff]

theorem resolvableChannels_perm (h : rows.Perm rows') :
    (resolvableChannels rows').Perm (resolvableChannels rows) := by
  refine (List.perm_ext_iff_of_nodup (resolvableFrom_nodup _ _ _)
    (resolvableFrom_nodup _ _ _)).mpr fun cid => ?_
  rw [← resolvableChannels, ← resolvableChannels, mem_resolvableChannels, mem_resolvableChannels,
    owedAllClear_perm h]

theorem owed_of_active (hnamed : ∀ n ∈ rows, isOpenPage n = true → n.channelId ≠ none)
    (hactive : openEpisodeActive rows = true) : ∃ cid, owedAllClear rows cid = true := by
  obtain ⟨o, ho, hpage, hnewer⟩ := openEpisodeActive_iff.1 hactive
  obtain ⟨cid, hcid⟩ := Option.ne_none_iff_exists'.mp (hnamed o ho hpage)
  refine ⟨cid, owedAllClear_iff.2 ⟨o, ho, hcid, ?_, fun r hr _ hres => hnewer r hr hres⟩⟩
  simp only [isOpenPage, Bool.and_eq_true] at hpage
  exact hpage.2

theorem not_owed_of_allClear (hall : ∀ c, owedAllClear rows c = true →
      ∃ r ∈ allClear, r.channelId = some c ∧ r.reason = .resolved)
    (hkind : ∀ r ∈ allClear, r.reason = .resolved)
    (hlate : ∀ r ∈ allClear, ∀ n ∈ rows, n.createdAt ≤ r.createdAt) :
    owedAllClear (rows ++ allClear) cid = false := by
  rw [Bool.eq_false_iff]
  intro howed
  obtain ⟨o, ho, hcid, hopen, hnewer⟩ := owedAllClear_iff.1 howed
  rcases List.mem_append.mp ho with hrow | hclear
  · have hbefore : owedAllClear rows cid = true :=
      owedAllClear_iff.2 ⟨o, hrow, hcid, hopen, fun r hr => hnewer r (List.mem_append_left _ hr)⟩
    obtain ⟨r, hr, hto, hres⟩ := hall cid hbefore
    have hlt := hnewer r (List.mem_append_right _ hr) hto hres
    exact absurd (hlate r hr o hrow) (not_le.mpr hlt)
  · -- the rows appended are no pages
    rw [hkind o hclear] at hopen
    cases hopen

end

/-- **The ledger predicates agree.**  An active episode has a channel to resolve; all-clears to
all of them, not older than the ledger, close it; and neither answer depends on the order of the
rows, but for the order the channels are listed in. -/
theorem ledger_predicates_agree (rows : List IncidentNotification) :
    ((∀ n ∈ rows, isOpenPage n = true → n.channelId ≠ none) →
      (openEpisodeActive rows = true → resolvableChannels rows ≠ []) ∧
      ∀ allClear : List IncidentNotification,
        (∀ c ∈ resolvableChannels rows,
          ∃ r ∈ allClear, r.channelId = some c ∧ r.reason = .resolved) →
        (∀ r ∈ allClear, r.reason = .resolved ∧
          (∃ c ∈ resolvableChannels rows, r.channelId = some c) ∧
          ∀ n ∈ rows, n.createdAt ≤ r.createdAt) →
        resolvableChannels (rows ++ allClear) = [] ∧
          openEpisodeActive (rows ++ allClear) = false) ∧
    ∀ rows', rows.Perm rows' →
      openEpisodeActive rows' = openEpisodeActive rows ∧
        (resolvableChannels rows').Perm (resolvableChannels rows) := by
  refine ⟨fun hnamed => ⟨fun hactive => ?_, fun allClear hall hclear => ?_⟩,
    fun rows' h => ⟨openEpisodeActive_perm h, resolvableChannels_perm h⟩⟩
  · obtain ⟨cid, howed⟩ := owed_of_active hnamed hactive
    exact List.ne_nil_of_mem (mem_resolvableChannels.2 howed)
  · have howed : ∀ cid, owedAllClear (rows ++ allClear) cid = false := fun cid =>
      not_owed_of_allClear (fun c hc => hall c (mem_resolvableChannels.2 hc))
        (fun r hr => (hclear r hr).1) (fun r hr => (hclear r hr).2.2)
    constructor
    · refine List.eq_nil_iff_forall_not_mem.mpr fun cid hmem => ?_
      rw [mem_resolvableChannels, howed cid] at hmem
      cases hmem
    · rw [Bool.eq_false_iff]
      intro hactive
      have hnamed' : ∀ n ∈ rows ++ allClear, isOpenPage n = true → n.channelId ≠ none := by
        intro n hn hpage
        rcases List.mem_append.mp hn with hrow | hnew
        · exact hnamed n hrow hpage
        · obtain ⟨-, ⟨c, -, hto⟩, -⟩ := hclear n hnew
          rw [hto]
          nofun
      obtain ⟨cid, hcid⟩ := owed_of_active hnamed' hactive
      rw [howed cid] at hcid
      cases hcid

namespace TwoChannels

def row (channel : Option Uuid) (reason : NotificationReason) (t : Time) : IncidentNotification where
  id := 1
  incidentId := 1
  escalationLevel := none
  targetUserId := none
  channelId := channel
  transport := .channel .slack
  reason := reason
  status := .sent
  attempt := 1
  error := none
  createdAt := t
  sentAt := none
  nextAttemptAt := none
  providerReceipt := none
  ackedAt := none

/-- Two channels paged, and the all-clear to both. -/
def paged : List IncidentNotification := [row (some 1) .opened 0, row (some 2) .opened 0]
def cleared : List IncidentNotification := [row (some 1) .resolved 0, row (some 2) .resolved 1]

end TwoChannels

theorem ledger_predicates_agree_two :
    resolvableChannels TwoChannels.paged ≠ [] ∧
      resolvableChannels (TwoChannels.paged ++ TwoChannels.cleared) = [] ∧
      openEpisodeActive (TwoChannels.paged ++ TwoChannels.cleared) = false := by
  have hagree := (ledger_predicates_agree TwoChannels.paged).1 (by decide)
  exact ⟨hagree.1 (by decide), hagree.2 TwoChannels.cleared (by decide) (by decide)⟩

/-- The channels come in the order of the rows. -/
theorem resolvable_order_follows_rows :
    TwoChannels.paged.Perm TwoChannels.paged.reverse ∧
      resolvableChannels TwoChannels.paged ≠ resolvableChannels TwoChannels.paged.reverse :=
  ⟨(List.reverse_perm _).symm, by decide⟩

end Uptimepage
