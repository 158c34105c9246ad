import Cassy.Cloud.Verdicts

/-!
# 新しい変更と古い結末

同じ素性の変更を積み直すと、`retry_count`、`last_error`、`auto_rearm_count` は零に戻るが、`last_outcome` と
`last_reason` は前のまま残る。だから、積み直した後の失敗を、積み直す前の結末が隠すことがある。

積み直した後に行に残るものは、その後の結末だけで決まる（`RowHistory`）。ただし結末の無いあいだは、前の
`last_outcome` と `last_reason` が見えている。どのときにその違いが扱いに出るかを、必要十分な形で言う。
-/

namespace Cassy

open Infra

variable {q : SyncQueue} {w : QueueWrite} {maxRetries : Nat}

/-! ## 一つの結末が一行にすること -/

namespace PushOutcome

/-- 結末の当たる行。 -/
def hits (maxRetries : Nat) (r : QueueRow) : PushOutcome → Bool
  | .recordRowOutcome id _ _ | .markFailed id _ | .parkFailed id _ | .recordDiagnostic id _
  | .parkIntentionally id _ _ => r.id = id
  | .parkTeamRows teamId _ => r.teamId = teamId && r.pending maxRetries

/-- 当たった行に書くもの。 -/
def effect (maxRetries : Nat) (r : QueueRow) : PushOutcome → QueueRow
  | .recordRowOutcome _ outcome reason => { r with lastOutcome := some outcome, lastReason := reason }
  | .markFailed _ error => { r with retryCount := r.retryCount + 1, lastError := some error }
  | .parkFailed _ error =>
    { r with retryCount := max r.retryCount maxRetries, lastError := some error }
  | .recordDiagnostic _ diagnostic => { r with lastError := some diagnostic }
  | .parkIntentionally _ reason error =>
    { r with
      lastOutcome := some "parked"
      lastReason := some reason
      lastError := some error
      retryCount := max r.retryCount maxRetries }
  | .parkTeamRows _ diagnostic =>
    { r with
      lastOutcome := some "parked"
      lastReason := some "project_registration_conflict"
      lastError := some diagnostic }

/-- 結末の後の行。 -/
def onRow (maxRetries : Nat) (r : QueueRow) (outcome : PushOutcome) : QueueRow :=
  if outcome.hits maxRetries r then outcome.effect maxRetries r else r

theorem record_rows (outcome : PushOutcome) (q : SyncQueue) :
    (outcome.record maxRetries q).rows = q.rows.map fun r => outcome.onRow maxRetries r := by
  cases outcome with
  | recordRowOutcome | markFailed | parkFailed | recordDiagnostic | parkIntentionally | parkTeamRows =>
    rfl

theorem onRow_identity (outcome : PushOutcome) (r : QueueRow) :
    (outcome.onRow maxRetries r).identity = r.identity := by
  unfold onRow
  split
  · cases outcome with
    | recordRowOutcome | markFailed | parkFailed | recordDiagnostic | parkIntentionally
    | parkTeamRows => rfl
  · rfl

end PushOutcome

/-- 結末を順に受けた行。 -/
def QueueRow.after (maxRetries : Nat) (r : QueueRow) (outcomes : List PushOutcome) : QueueRow :=
  outcomes.foldl (PushOutcome.onRow maxRetries) r

theorem QueueRow.after_identity (r : QueueRow) (outcomes : List PushOutcome) :
    (r.after maxRetries outcomes).identity = r.identity := by
  induction outcomes generalizing r with
  | nil => rfl
  | cons outcome outcomes ih => exact (ih _).trans (outcome.onRow_identity r)

namespace RearmQueue

variable {q : RearmQueue}

theorem recordAll_rows (q : RearmQueue) (outcomes : List PushOutcome) :
    (q.recordAll maxRetries outcomes).queue.rows
      = q.queue.rows.map fun r => r.after maxRetries outcomes := by
  induction outcomes generalizing q with
  | nil => exact (List.map_id _).symm
  | cons outcome outcomes ih =>
    have hrest := ih (q.record maxRetries outcome)
    rw [record, PushOutcome.record_rows, List.map_map] at hrest
    exact hrest

theorem recordAll_autoRearmCount (q : RearmQueue) (outcomes : List PushOutcome) :
    (q.recordAll maxRetries outcomes).autoRearmCount = q.autoRearmCount := by
  induction outcomes generalizing q with
  | nil => rfl
  | cons outcome outcomes ih => exact ih (q.record maxRetries outcome)

/-- 素性は行を決める。 -/
theorem find?_identity {r : QueueRow} (hr : r ∈ q.queue.rows) :
    (q.queue.rows.find? fun r' => r'.identity = r.identity) = some r := by
  cases hf : q.queue.rows.find? fun r' => r'.identity = r.identity with
  | none =>
    have hnone := List.find?_eq_none.mp hf r hr
    simp at hnone
  | some r' =>
    have hr' := List.mem_of_find?_eq_some hf
    have hident : r'.identity = r.identity := by simpa using List.find?_some hf
    rw [List.inj_on_of_nodup_map q.queue.unique hr' hr hident]

theorem eligibilityOf_recordAll (maxRetries : Nat) {r : QueueRow} (hr : r ∈ q.queue.rows)
    (outcomes : List PushOutcome) :
    (q.recordAll maxRetries outcomes).eligibilityOf maxRetries r.identity
      = some (q.eligibility maxRetries (r.after maxRetries outcomes)) := by
  have hmem : r.after maxRetries outcomes ∈ (q.recordAll maxRetries outcomes).queue.rows := by
    rw [recordAll_rows]
    exact List.mem_map_of_mem hr
  have hfind := find?_identity hmem
  rw [QueueRow.after_identity] at hfind
  rw [eligibilityOf, hfind, Option.map_some]
  unfold eligibility rearms rearmCandidate
  rw [recordAll_autoRearmCount]

end RearmQueue

/-! ## 再武装 -/

namespace RearmQueue

variable {q : RearmQueue} {teamId : String}

/-- 待たせ直した行。 -/
def rearmed (r : QueueRow) : QueueRow := { r with retryCount := 0, lastError := none }

/-- 候補の行に当たるのは、その番号の行だけである。 -/
theorem foldl_rearmOne (cs : List (Nat × String)) (acc : Nat × RearmQueue)
    (hn : (cs.map Prod.fst).Nodup)
    (hcs : ∀ c ∈ cs, ∀ r ∈ acc.2.queue.rows, r.id = c.1 → acc.2.rearmHit teamId maxRetries c r) :
    (cs.foldl (fun acc c => (acc.1 + acc.2.queue.table.count (acc.2.rearmHit teamId maxRetries c),
        acc.2.rearmOne teamId maxRetries c)) acc).2.queue.rows
      = acc.2.queue.rows.map fun r => if r.id ∈ cs.map Prod.fst then rearmed r else r := by
  induction cs generalizing acc with
  | nil => simp
  | cons c cs ih =>
    obtain ⟨hc, hn⟩ := List.nodup_cons.mp hn
    have hhit : ∀ r ∈ acc.2.queue.rows, acc.2.rearmHit teamId maxRetries c r = decide (r.id = c.1) := by
      intro r hr
      by_cases hid : r.id = c.1
      · rw [hcs c List.mem_cons_self r hr hid, decide_eq_true hid]
      · simp [rearmHit, hid]
    have hrows : (acc.2.rearmOne teamId maxRetries c).queue.rows
        = acc.2.queue.rows.map fun r => if r.id = c.1 then rearmed r else r := by
      refine List.map_congr_left fun r hr => ?_
      rw [hhit r hr]
      simp [rearmed]
    rw [List.foldl_cons, ih]
    · rw [hrows, List.map_map]
      refine List.map_congr_left fun r _ => ?_
      by_cases hid : r.id = c.1
      · -- この番号は残りの候補に無い
        have hrest : r.id ∉ cs.map Prod.fst := by rw [hid]; exact hc
        have hrest' : (rearmed r).id ∉ cs.map Prod.fst := hrest
        simp only [Function.comp_apply]
        rw [if_pos hid, if_neg hrest', List.map_cons, if_pos (List.mem_cons.mpr (.inl hid))]
      · simp only [Function.comp_apply]
        rw [if_neg hid, List.map_cons]
        simp only [List.mem_cons, hid, false_or]
    · exact hn
    · intro c' hc' r' hr' hid'
      rw [hrows] at hr'
      obtain ⟨r, hr, rfl⟩ := List.mem_map.mp hr'
      have hne : r.id ≠ c.1 := by
        intro heq
        rw [if_pos heq] at hid'
        exact hc (List.mem_map.mpr ⟨c', hc', by rw [← hid', ← heq]; rfl⟩)
      rw [if_neg hne] at hid' ⊢
      have hold := hcs c' (List.mem_cons_of_mem c hc') r hr hid'
      have hcount : (acc.2.rearmOne teamId maxRetries c).autoRearmCount r.id
          = acc.2.autoRearmCount r.id := by
        refine if_neg fun hany => ?_
        obtain ⟨r₁, hr₁, hboth⟩ := List.any_eq_true.mp hany
        rw [hhit r₁ hr₁, Bool.and_eq_true, decide_eq_true_eq, decide_eq_true_eq] at hboth
        exact hne (hboth.2.symm.trans hboth.1)
      unfold rearmHit rearmCandidate at hold ⊢
      rw [hcount]
      exact hold

theorem candidate_row {c : Nat × String} {r : QueueRow}
    (hc : c ∈ q.rearmCandidates teamId maxRetries) (hr : r ∈ q.queue.rows) (hid : r.id = c.1) :
    q.rearmCandidate teamId maxRetries r ∧ r.lastError = some c.2 := by
  obtain ⟨r₀, hr₀, rfl⟩ := List.mem_map.mp hc
  obtain ⟨hmem, hcandidate⟩ := List.mem_filter.mp hr₀
  rw [SyncQueue.eq_of_id hr hmem hid]
  refine ⟨hcandidate, ?_⟩
  have hsome : r₀.lastError.isSome := by
    unfold rearmCandidate at hcandidate
    simp only [Bool.and_eq_true] at hcandidate
    exact hcandidate.1.2
  obtain ⟨error, herror⟩ := Option.isSome_iff_exists.mp hsome
  rw [herror]
  rfl

/-- 候補の番号は、再武装される行の番号である。 -/
theorem mem_transient_candidates {r : QueueRow} (hr : r ∈ q.queue.rows) (hmax : maxRetries ≠ 0) :
    r.id ∈ ((q.rearmCandidates teamId maxRetries).filter
        fun c => isTransientNetworkError c.2).map Prod.fst
      ↔ r.teamId = teamId ∧ q.rearms maxRetries r := by
  have hpos : 0 < maxRetries := Nat.pos_of_ne_zero hmax
  constructor
  · intro h
    obtain ⟨c, hc, hid⟩ := List.mem_map.mp h
    obtain ⟨hc, htransient⟩ := List.mem_filter.mp hc
    obtain ⟨hcandidate, herror⟩ := candidate_row hc hr hid.symm
    have hteam : r.teamId = teamId := by
      unfold rearmCandidate at hcandidate
      simp only [Bool.and_eq_true, decide_eq_true_eq] at hcandidate
      exact hcandidate.1.1.1.1
    subst hteam
    refine ⟨rfl, ?_⟩
    unfold rearms
    rw [hcandidate, herror, decide_eq_true hpos]
    simpa using htransient
  · rintro ⟨rfl, hrearms⟩
    unfold rearms at hrearms
    rw [Bool.and_eq_true, Bool.and_eq_true] at hrearms
    obtain ⟨⟨-, hcandidate⟩, htransient⟩ := hrearms
    obtain ⟨error, herror, htransient⟩ := (Option.any_eq_true _ _).mp htransient
    refine List.mem_map.mpr ⟨(r.id, error), List.mem_filter.mpr ⟨?_, htransient⟩, rfl⟩
    exact List.mem_map.mpr ⟨r, List.mem_filter.mpr ⟨hr, hcandidate⟩, by rw [herror]; rfl⟩

/-- 再武装が待たせ直すのは、`rearms` の言う行のちょうど全部である。 -/
theorem rearm_rows (q : RearmQueue) (teamId : String) (maxRetries : Nat) :
    (q.rearmTransientNetworkFailuresForScope teamId maxRetries).2.queue.rows
      = q.queue.rows.map fun r =>
        if r.teamId = teamId ∧ q.rearms maxRetries r then rearmed r else r := by
  unfold rearmTransientNetworkFailuresForScope
  by_cases hzero : maxRetries = 0
  · simp [hzero, rearms]
  rw [if_neg hzero, foldl_rearmOne]
  · refine List.map_congr_left fun r hr => ?_
    simp only [mem_transient_candidates hr hzero]
  · have hsub : (((q.rearmCandidates teamId maxRetries).filter
        fun c => isTransientNetworkError c.2).map Prod.fst).Sublist (q.queue.rows.map QueueRow.id) := by
      refine (List.filter_sublist.map Prod.fst).trans ?_
      unfold rearmCandidates
      rw [List.map_map]
      exact List.filter_sublist.map QueueRow.id
    exact hsub.nodup q.queue.table.nodup
  · intro c hc r hr hid
    obtain ⟨hcandidate, herror⟩ := candidate_row (List.mem_of_mem_filter hc) hr hid
    unfold rearmHit
    simp [hid, hcandidate, herror]

end RearmQueue

/-! ## 積み直した後の履歴 -/

/-- 積み直した後に、結末が行に残したもの。`verdict` は `last_outcome` と `last_reason` に書かれた組。 -/
structure RowHistory where
  retries : Nat := 0
  lastError : Option String := none
  verdict : Option (String × Option String) := none
  deriving DecidableEq, Repr

namespace RowHistory

/-- 行に当たった結末を履歴に加える。 -/
def add (maxRetries : Nat) (h : RowHistory) : PushOutcome → RowHistory
  | .recordRowOutcome _ outcome reason => { h with verdict := some (outcome, reason) }
  | .markFailed _ error => { h with retries := h.retries + 1, lastError := some error }
  | .parkFailed _ error => { h with retries := max h.retries maxRetries, lastError := some error }
  | .recordDiagnostic _ diagnostic => { h with lastError := some diagnostic }
  | .parkIntentionally _ reason error =>
    { retries := max h.retries maxRetries
      lastError := some error
      verdict := some ("parked", some reason) }
  | .parkTeamRows _ diagnostic =>
    { h with
      lastError := some diagnostic
      verdict := some ("parked", some "project_registration_conflict") }

/-- 履歴の残した行。結末がまだ無ければ、前の結末 `leftover` が見えている。 -/
def row (h : RowHistory) (fresh : QueueRow) (leftover : Option String × Option String) : QueueRow :=
  { fresh with
    retryCount := h.retries
    lastError := h.lastError
    lastOutcome := h.verdict.elim leftover.1 fun v => some v.1
    lastReason := h.verdict.elim leftover.2 fun v => v.2 }

/-- 積まれたばかりの行 `fresh` の、その後の履歴。 -/
def since (maxRetries : Nat) (fresh : QueueRow) (h : RowHistory) (outcomes : List PushOutcome) :
    RowHistory :=
  outcomes.foldl
    (fun h outcome => if outcome.hits maxRetries (h.row fresh (none, none)) then
      h.add maxRetries outcome else h) h

variable {h : RowHistory} {fresh : QueueRow} {leftover : Option String × Option String}

/-- 結末がどの行に当たるかは、前の結末によらない。 -/
theorem hits_row (outcome : PushOutcome) :
    outcome.hits maxRetries (h.row fresh leftover)
      = outcome.hits maxRetries (h.row fresh (none, none)) := by
  cases outcome with
  | recordRowOutcome | markFailed | parkFailed | recordDiagnostic | parkIntentionally | parkTeamRows =>
    rfl

theorem effect_row (outcome : PushOutcome) :
    outcome.effect maxRetries (h.row fresh leftover)
      = (h.add maxRetries outcome).row fresh leftover := by
  cases outcome with
  | recordRowOutcome | markFailed | parkFailed | recordDiagnostic | parkIntentionally | parkTeamRows =>
    rfl

theorem after_row (outcomes : List PushOutcome) :
    (h.row fresh leftover).after maxRetries outcomes
      = (h.since maxRetries fresh outcomes).row fresh leftover := by
  induction outcomes generalizing h with
  | nil => rfl
  | cons outcome outcomes ih =>
    show ((outcome.onRow maxRetries (h.row fresh leftover)).after maxRetries outcomes) = _
    rw [PushOutcome.onRow, hits_row]
    unfold since
    rw [List.foldl_cons]
    by_cases hhit : outcome.hits maxRetries (h.row fresh (none, none))
    · rw [if_pos hhit, if_pos hhit, effect_row, ih]
      rfl
    · rw [if_neg hhit, if_neg hhit, ih]
      rfl

end RowHistory

/-! ## 積み直し -/

namespace RearmQueue

variable {q : RearmQueue} {r : QueueRow}

/-- 素性の行を一度も持たなかった列。次の行の番号は `id` である。 -/
def neverHeld (id : Nat) : RearmQueue where
  queue :=
    { table := Table.empty
      nextId := id
      unique := List.nodup_nil
      fresh := by simp [Table.empty] }

/-- 積み直した行。前の結末だけが残る。 -/
theorem onto_eq_row (h : r.identity = w.identity) :
    w.onto r = (RowHistory.row {} (w.row r.id) (r.lastOutcome, r.lastReason)) := by
  obtain ⟨id, entityType, entityId, operation, payload, teamId, projectId⟩ := r
  have htype : entityType = w.entityType := congrArg QueueIdentity.entityType h
  have hid : entityId = w.entityId := congrArg QueueIdentity.entityId h
  have hteam : teamId = w.teamId := congrArg QueueIdentity.teamId h
  subst htype hid hteam
  rfl

/-- 積まれた行の `auto_rearm_count` は零である。 -/
theorem autoRearmCount_enqueue (hr : r ∈ (q.enqueue w).queue.rows) (h : r.identity = w.identity) :
    (q.enqueue w).autoRearmCount r.id = 0 :=
  if_pos (List.any_eq_true.mpr ⟨r, hr, by simp [h]⟩)

theorem onto_mem_enqueue (hr : r ∈ q.queue.rows) (h : r.identity = w.identity) :
    w.onto r ∈ (q.enqueue w).queue.rows := by
  show w.onto r ∈ (q.queue.upsertQueueRow w).rows
  unfold SyncQueue.upsertQueueRow
  rw [dif_pos ⟨r, hr, h⟩]
  exact SyncQueue.mem_update.mpr ⟨r, hr, if_pos (decide_eq_true h)⟩

theorem row_mem_enqueue_neverHeld (id : Nat) :
    w.row id ∈ ((neverHeld id).enqueue w).queue.rows := by
  show w.row id ∈ ((neverHeld id).queue.upsertQueueRow w).rows
  unfold SyncQueue.upsertQueueRow
  rw [dif_neg]
  · exact List.mem_append_right _ List.mem_cons_self
  · rintro ⟨r, hr, -⟩
    exact absurd hr List.not_mem_nil

end RearmQueue

/-- 前の結末が、積み直した後の扱いに現れること。 -/
structure LeftoverShows (maxRetries : Nat) (r : QueueRow) (h : RowHistory) : Prop where
  noVerdict : h.verdict = none
  exhausted : maxRetries ≤ h.retries
  hides : r.intentionalPark
    ∨ (0 < maxRetries ∧ r.terminal ∧ h.lastError.any isTransientNetworkError)

/-- 番号 `fresh.id` の再武装がまだ無いときの扱い。 -/
theorem eligibility_row {q : RearmQueue} {h : RowHistory} {fresh : QueueRow}
    {leftover : Option String × Option String} (hq : q.autoRearmCount fresh.id = 0) :
    q.eligibility maxRetries (h.row fresh leftover) =
      { pending := h.retries < maxRetries
        failed := maxRetries ≤ h.retries && !(h.row fresh leftover).intentionalPark
        rearms := 0 < maxRetries && maxRetries ≤ h.retries && !(h.row fresh leftover).terminal
          && h.lastError.any isTransientNetworkError } := by
  have hrearms : q.rearms maxRetries (h.row fresh leftover)
      = (decide (0 < maxRetries) && decide (maxRetries ≤ h.retries)
        && !(h.row fresh leftover).terminal && h.lastError.any isTransientNetworkError) := by
    have hcount : q.autoRearmCount (h.row fresh leftover).id = 0 := hq
    unfold RearmQueue.rearms RearmQueue.rearmCandidate
    rw [hcount]
    show _ = (_ && decide (maxRetries ≤ (h.row fresh leftover).retryCount) && _
      && (h.row fresh leftover).lastError.any isTransientNetworkError)
    cases (h.row fresh leftover).lastError with
    | none => simp
    | some error => simp [maxAutomaticNetworkRearms, Bool.and_assoc]
  rw [RearmQueue.eligibility, hrearms]
  rfl

theorem eligibility_row_iff {q q' : RearmQueue} {h : RowHistory} {r fresh : QueueRow}
    (hq : q.autoRearmCount fresh.id = 0) (hq' : q'.autoRearmCount fresh.id = 0) :
    q.eligibility maxRetries (h.row fresh (r.lastOutcome, r.lastReason))
        = q'.eligibility maxRetries (h.row fresh (none, none))
      ↔ ¬ LeftoverShows maxRetries r h := by
  rw [eligibility_row hq, eligibility_row hq', Eligibility.mk.injEq]
  cases hv : h.verdict with
  | some v =>
    -- 後の結末が前の結末を覆う
    have hrow : h.row fresh (r.lastOutcome, r.lastReason) = h.row fresh (none, none) := by
      simp [RowHistory.row, hv]
    rw [hrow]
    refine iff_of_true ⟨rfl, rfl, rfl⟩ fun hshows => ?_
    rw [hshows.noVerdict] at hv
    cases hv
  | none =>
    have hpark : (h.row fresh (r.lastOutcome, r.lastReason)).intentionalPark = r.intentionalPark := by
      simp [RowHistory.row, hv, QueueRow.intentionalPark]
    have hterminal : (h.row fresh (r.lastOutcome, r.lastReason)).terminal = r.terminal := by
      simp [RowHistory.row, hv, QueueRow.terminal]
    have hpark' : (h.row fresh (none, none)).intentionalPark = false := by
      simp [RowHistory.row, hv, QueueRow.intentionalPark]
    have hterminal' : (h.row fresh (none, none)).terminal = false := by
      simp [RowHistory.row, hv, QueueRow.terminal]
    have hshows : LeftoverShows maxRetries r h ↔ maxRetries ≤ h.retries ∧ (r.intentionalPark
        ∨ (0 < maxRetries ∧ r.terminal ∧ h.lastError.any isTransientNetworkError)) :=
      ⟨fun hs => ⟨hs.exhausted, hs.hides⟩, fun hs => ⟨hv, hs.1, hs.2⟩⟩
    rw [hpark, hterminal, hpark', hterminal', hshows]
    by_cases hexhausted : maxRetries ≤ h.retries
    · cases r.intentionalPark with
      | true => simp [hexhausted]
      | false =>
        cases r.terminal with
        | true => simp [hexhausted]
        | false => simp
    · simp [hexhausted]

/--
積み直しが前の結末を忘れること。

どの列のどの行についても、積み直した行のその後の扱いは、積み直しの前の結末が現れない限り、一度も持たなかった
素性を初めて積んだ行のものと同じである。
-/
theorem enqueue_clears_verdict_iff (maxRetries : Nat) (q : RearmQueue)
    (before after : List PushOutcome) (w : QueueWrite) (r : QueueRow)
    (hr : r ∈ (q.recordAll maxRetries before).queue.rows) (hident : r.identity = w.identity) :
    (((q.recordAll maxRetries before).enqueue w).recordAll maxRetries after).eligibilityOf
        maxRetries w.identity
      = (((RearmQueue.neverHeld r.id).enqueue w).recordAll maxRetries after).eligibilityOf
        maxRetries w.identity
      ↔ ¬ LeftoverShows maxRetries r (RowHistory.since maxRetries (w.row r.id) {} after) := by
  have honto := RearmQueue.onto_mem_enqueue hr hident
  have hontoIdent : (w.onto r).identity = w.identity := (QueueWrite.onto_identity hident).trans hident
  have hfresh := RearmQueue.row_mem_enqueue_neverHeld (w := w) r.id
  have hfreshIdent : (w.row r.id).identity = w.identity := rfl
  have hleft := RearmQueue.eligibilityOf_recordAll maxRetries honto after
  have hright := RearmQueue.eligibilityOf_recordAll maxRetries hfresh after
  rw [hontoIdent, RearmQueue.onto_eq_row hident, RowHistory.after_row] at hleft
  rw [hfreshIdent] at hright
  have hrow : (RowHistory.row {} (w.row r.id) (none, none)).after maxRetries after
      = (RowHistory.since maxRetries (w.row r.id) {} after).row (w.row r.id) (none, none) :=
    RowHistory.after_row after
  have hself : RowHistory.row {} (w.row r.id) (none, none) = w.row r.id := rfl
  rw [hself] at hrow
  rw [hrow] at hright
  have hzero : ((q.recordAll maxRetries before).enqueue w).autoRearmCount (w.onto r).id = 0 :=
    RearmQueue.autoRearmCount_enqueue honto hontoIdent
  rw [hleft, hright, Option.some.injEq]
  exact eligibility_row_iff hzero (RearmQueue.autoRearmCount_enqueue hfresh hfreshIdent)

/-! ## 断られた後の通信の失敗 -/

/-- 個人の task を積む。 -/
def personalTask (payload : String) : QueueWrite where
  entityType := .task
  entityId := "cas-1"
  operation := .upsert
  payload := some payload
  now := 0

/-- 行 1 が待っている列。 -/
def heldTask : RearmQueue := (RearmQueue.neverHeld 1).enqueue (personalTask "first")

/-- やり直しを使い切る通信の失敗。 -/
def connectionRefused : List PushOutcome :=
  List.replicate 2 (.markFailed 1 "Network error: connection refused")

/--
前の中身が断られた後で積み直した中身は、通信の失敗から再武装されない。前の中身が意図して止められた後で積み直した
中身は、失敗しても数えられない。どちらも、初めて積んだ行ならそうならない。
-/
theorem old_verdict_outlives_enqueue :
    ((heldTask.recordAll 2
        [.recordRowOutcome 1 "rejected" (some "project_mismatch"),
          .parkFailed 1 "permanent cloud rejection"]).enqueue
        (personalTask "second") |>.recordAll 2 connectionRefused).eligibilityOf 2
          (personalTask "second").identity
        = some { pending := false, failed := true, rearms := false }
      ∧ ((heldTask.recordAll 2
          [.parkIntentionally 1 "unattributed_origin" "unattributed_origin"]).enqueue
          (personalTask "second") |>.recordAll 2 connectionRefused).eligibilityOf 2
            (personalTask "second").identity
          = some { pending := false, failed := false, rearms := false }
      ∧ (((RearmQueue.neverHeld 1).enqueue
          (personalTask "second")).recordAll 2 connectionRefused).eligibilityOf 2
            (personalTask "second").identity
          = some { pending := false, failed := true, rearms := true } := by
  decide

/-- 積み直しの後にまた断られれば、前の結末は見えない。 -/
theorem enqueue_clears_verdict_rejectedAgain :
    (((heldTask.recordAll 2 [.recordRowOutcome 1 "rejected" none]).enqueue
        (personalTask "second")).recordAll 2
        (.recordRowOutcome 1 "rejected" none :: connectionRefused)).eligibilityOf 2
        (personalTask "second").identity
      = (((RearmQueue.neverHeld 1).enqueue (personalTask "second")).recordAll 2
        (.recordRowOutcome 1 "rejected" none :: connectionRefused)).eligibilityOf 2
        (personalTask "second").identity :=
  (enqueue_clears_verdict_iff 2 heldTask [.recordRowOutcome 1 "rejected" none]
    (.recordRowOutcome 1 "rejected" none :: connectionRefused) (personalTask "second")
    { (personalTask "first").row 1 with lastOutcome := some "rejected" } (by decide)
    rfl).mpr fun h => by
      have hverdict := h.noVerdict
      revert hverdict
      decide

end Cassy
