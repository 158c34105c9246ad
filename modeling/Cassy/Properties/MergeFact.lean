import Cassy.Properties.AuthorityOps

/-!
# merge の記録は書き換えられないか

merge は済んだ事実なので、差し戻しも証明範囲の訂正も、merge の記録された配達を
`changes_requested` や `stale` に戻してはならない。

訂正の三つの入口はどれもこれを守る。差し戻しは `merged` の配達を残すが、`close_ready` の
配達を差し戻せるものに数えている。`close_ready` は merge の後の状態なので、受け付けられた
差し戻しは merge の記録を消し、記録にも「branch に残っている」と書く。

差し戻しがこれを守るのは、最新の配達が `close_ready` でないか、差し戻しが受け付けられない
ときで、そのときに限る。
-/

namespace Cassy

open Infra

namespace ProofDb

variable {db db' : ProofDb}
variable {t : WorkerDeliveryTransaction} {taskId supervisor rid : String} {sources : List String}

/-- merge の記録された状態。 -/
def recordsMerge : WorkerDeliveryState → Bool
  | .merged | .closeReady | .delivered => true
  | _ => false

/-- merge の記録された配達は、差し戻しにも `stale` にもならない。 -/
def MergesKept (db db' : ProofDb) : Prop :=
  ∀ t ∈ db.transactions.rows, recordsMerge t.state = true →
    ∀ t' ∈ db'.transactions.rows, t'.id = t.id → t'.state ≠ .changesRequested ∧ t'.state ≠ .stale

instance (db db' : ProofDb) : Decidable (MergesKept db db') :=
  inferInstanceAs (Decidable (∀ t ∈ db.transactions.rows, recordsMerge t.state = true →
    ∀ t' ∈ db'.transactions.rows, t'.id = t.id →
      t'.state ≠ .changesRequested ∧ t'.state ≠ .stale))

theorem recordsMerge_ne {s : WorkerDeliveryState} (h : recordsMerge s = true) :
    s ≠ .changesRequested ∧ s ≠ .stale := by
  cases s <;> simp_all [recordsMerge]

theorem MergesKept.of_eq (h : db'.transactions = db.transactions) : MergesKept db db' := by
  intro t ht hs t' ht' hid
  rw [h] at ht'
  rw [Table.eq_of_key ht' ht hid]
  exact recordsMerge_ne hs

/-- 動かす配達に merge の記録が無ければ、merge の記録は残る。 -/
theorem moveDelivery_mergesKept {target : WorkerDeliveryState}
    {code errorDetail eventDetail : String} {now : Time} {raced : String}
    (h : db.moveDelivery t taskId target supervisor code errorDetail eventDetail rid now raced
      = .ok db') (hs : recordsMerge t.state = false) : MergesKept db db' := by
  simp only [moveDelivery, appendEvent, bind_eq_ok, ensure_eq_ok, okOr_eq_ok, pure_eq_ok] at h
  obtain ⟨-, -, -, -, events, -, rfl⟩ := h
  intro row hrow hrs t' ht' hid
  obtain ⟨t₀, ht₀, rfl⟩ := List.mem_map.mp ht'
  split at hid
  · next hp =>
    rw [decide_eq_true_eq] at hp
    rw [← Table.eq_of_key ht₀ hrow hid, hp.2.2, hs] at hrs
    simp at hrs
  · next hp =>
    rw [if_neg hp, Table.eq_of_key ht₀ hrow hid]
    exact recordsMerge_ne hrs

/-! ## 訂正 -/

theorem staleDelivery_mergesKept {delivery : Option WorkerDeliveryTransaction}
    {c : ProofScopeCorrection} {allowMerged : Bool}
    (h : db.staleDelivery delivery c allowMerged rid = .ok db')
    (hm : ∀ t, delivery = some t → isMergedState t.state = true → allowMerged = true) :
    MergesKept db db' := by
  unfold staleDelivery at h
  split at h
  · rw [← Except.ok.inj h]
    exact .of_eq rfl
  · next t =>
    simp only [bind_eq_ok, ensure_eq_ok] at h
    obtain ⟨-, hdel, h⟩ := h
    split at h
    · rw [← pure_eq_ok.mp h]
      exact .of_eq rfl
    · next hskip =>
      refine moveDelivery_mergesKept h ?_
      have := hm t rfl
      cases hs : t.state <;> simp_all [recordsMerge, isMergedState]

theorem correct_mergesKept (db : ProofDb) (kind : CorrectionKind) (c : ProofScopeCorrection)
    (rid : String) (now : Time) : MergesKept db (commit db (db.correct kind c rid now)).2 := by
  rcases commit_snd_cases db (db.correct kind c rid now) with heq | ⟨o, db', hb, heq⟩
  · rw [heq]
    exact .of_eq rfl
  · rw [heq]
    obtain ⟨allowMerged, requireMerged, hc⟩ := correct_eq db kind c rid now
    rw [hc] at hb
    simp only [correctProofScopeInner, bind_eq_ok, ensure_eq_ok, okOr_eq_ok, pure_eq_ok,
      Prod.mk.injEq] at hb
    obtain ⟨-, -, -, -, -, hallow, db₁, hinv, db₂, hdel, prior, -, -, -, -, rfl⟩ := hb
    obtain ⟨dispatches, rfl⟩ := invalidateLatest_frame hinv
    have hkept := staleDelivery_mergesKept hdel fun t ht hs => by simpa [ht, hs] using hallow
    exact hkept

/-! ## 差し戻し -/

/-- 差し戻しの結果が merge の記録を守り、merge の済んだ配達をそう報告すること。 -/
structure MergeFactKept (db : ProofDb) (taskId : String)
    (r : Except StoreError (RequestChangesOutcome × ProofDb)) : Prop where
  state_kept : MergesKept db (commit db r).2
  reported : ∀ o db', r = .ok (o, db') → ∀ t, db.latestReceiptDelivery? taskId = some t →
    isMergedState t.state = true →
      o.boundary = .merged ∧ ∃ branch, o.branchHandling = branchHandling .merged branch

/-- 取り込み元として認められる commit か。 -/
def isFullSha (source : String) : Bool :=
  (source.utf8ByteSize = 40 ∨ source.utf8ByteSize = 64) ∧ source.toList.all isAsciiHexdigit

/-- 差し戻しの取り込み元がすべて認められるか。 -/
def admitsSources (db : ProofDb) (taskId : String) (sources : List String) : Bool :=
  (db.base.tasks.find? taskId).any fun t => t.deliverables.any fun d =>
    sources.all fun source => isFullSha source && d.workTarget.isSome

/-- 配達の event を挿せるか。 -/
def admitsEvent (db : ProofDb) (rid transactionId : String) (state : WorkerDeliveryState) : Bool :=
  (db.events.find? ("wde-" ++ rid)).isNone && !db.events.rows.any fun e =>
    e.transactionId = transactionId ∧ e.state = state

/-- 受け付けられる差し戻しが、`close_ready` の配達を差し戻す。 -/
def declinesCloseReady (db : ProofDb) (taskId supervisor reason : String)
    (sources : List String) (rid : String) : Bool :=
  (db.latestReceiptDelivery? taskId).any fun t => t.state = .closeReady
    && db.admitsChanges taskId supervisor reason && db.admitsSources taskId sources
    && db.admitsEvent rid t.id .changesRequested

/-- 認められた取り込み元は完全な commit で、task は対象を宣言している。 -/
theorem authorizeMergeSource_ok {source : String} {d d' : TaskDeliverables}
    (h : authorizeMergeSource supervisor d source = .ok d') :
    (isFullSha source && d.workTarget.isSome) = true ∧ d'.workTarget = d.workTarget := by
  simp only [authorizeMergeSource, bind_eq_ok, ensure_eq_ok, okOr_eq_ok] at h
  obtain ⟨-, hsha, target, htarget, h⟩ := h
  refine ⟨by simp [isFullSha, hsha, htarget], ?_⟩
  split at h
  · rw [← pure_eq_ok.mp h]
  · rw [← pure_eq_ok.mp h]

theorem exists_authorizeMergeSource {source : String} {d : TaskDeliverables}
    (h : (isFullSha source && d.workTarget.isSome) = true) :
    ∃ d', authorizeMergeSource supervisor d source = .ok d' := by
  simp only [isFullSha, Bool.and_eq_true, decide_eq_true_eq] at h
  obtain ⟨target, htarget⟩ := Option.isSome_iff_exists.mp h.2
  unfold authorizeMergeSource
  rw [ensure_of h.1, htarget]
  exact exists_ok_ite ⟨_, rfl⟩ ⟨_, rfl⟩

/-- 取り込み元の一覧が通るのは、どれも認められるときである。 -/
theorem authorizeMergeSources_ok_iff (supervisor : String) {d : TaskDeliverables} :
    (∃ d', sources.foldlM (authorizeMergeSource supervisor) d = .ok d')
      ↔ (sources.all fun source => isFullSha source && d.workTarget.isSome) = true := by
  induction sources generalizing d with
  | nil => simp
  | cons source rest ih =>
    rw [List.all_cons, Bool.and_eq_true]
    constructor
    · rintro ⟨d', h⟩
      simp only [List.foldlM_cons, bind_eq_ok] at h
      obtain ⟨d₁, hone, hrest⟩ := h
      obtain ⟨hadm, htarget⟩ := authorizeMergeSource_ok hone
      exact ⟨hadm, by rw [← htarget]; exact ih.mp ⟨d', hrest⟩⟩
    · rintro ⟨hadm, hrest⟩
      obtain ⟨d₁, hone⟩ := exists_authorizeMergeSource hadm
      rw [← (authorizeMergeSource_ok hone).2] at hrest
      obtain ⟨d', hd'⟩ := ih.mpr hrest
      exact ⟨d', by simp only [List.foldlM_cons, bind_eq_ok]; exact ⟨d₁, hone, hd'⟩⟩

/-- 一つの割り当てを名指す条件に合えば、書き換わるのはその一行である。 -/
theorem countDispatch_eq_one {d : VerificationDispatch} {p : VerificationDispatch → Bool}
    (hd : db.dispatches.find? d.id = some d) (hp : p d = true) :
    db.countDispatch d.id p = 1 :=
  Table.count_eq_one hd (fun d' _ hd' => by simpa using (Bool.and_eq_true_iff.mp hd').1)
    (by simp [hp])

/-- 最新の割り当てが判定済みか期限切れなら、新しい周期の無効化は落ちない。 -/
theorem invalidateForNewCycle_ok {active : VerificationDispatch} (now : Time)
    (hl : db.latestDispatch? taskId = some active) (hre : isReusable active = true) :
    ∃ d db', db.invalidateForNewCycle active.id now = .ok (d, db') ∧ d.state = .invalidated := by
  obtain ⟨hfind, rfl⟩ := latestDispatch?_mem hl
  unfold invalidateForNewCycle getDispatch
  rw [hfind, okOr_some, ok_bind, hl, okOr_some, ok_bind, ensure_of rfl, ok_bind, if_pos hre,
    ensure_of (countDispatch_eq_one hfind hre), ok_bind]
  simp only [updateDispatch, Table.find?_update, hfind, Option.map_some, hre, decide_true,
    Bool.and_true, if_true, okOr_some, ok_bind]
  exact ⟨_, _, rfl, rfl⟩

/-- 最新の割り当ての無効化は落ちない。 -/
theorem exists_invalidateLatest (db : ProofDb) (taskId : String) (now cycleNow : Time)
    (failed : String) :
    ∃ db', db.invalidateLatest (db.latestDispatch? taskId) now cycleNow failed = .ok db' := by
  cases hl : db.latestDispatch? taskId with
  | none => exact ⟨db, rfl⟩
  | some active =>
    obtain ⟨hfind, -⟩ := latestDispatch?_mem hl
    unfold invalidateLatest invalidateDeclined
    cases hs : active.state with
    | resolved | timedOut =>
      obtain ⟨d, db', hok, hd⟩ := invalidateForNewCycle_ok cycleNow hl
        (by simp [isReusable, hs])
      refine ⟨db', ?_⟩
      simp only [hs]
      rw [hok, ok_bind, ensure_of hd, ok_bind]
      rfl
    | pending | claimed =>
      simp only [hs]
      rw [ensure_of (countDispatch_eq_one hfind (by simp [hs, VerificationDispatchState.isActive])),
        ok_bind]
      exact ⟨_, rfl⟩
    | invalidated => exact ⟨db, by simp only [hs]⟩

/-- 最新の配達は表にあり、その task のものである。 -/
theorem latestReceiptDelivery?_mem (h : db.latestReceiptDelivery? taskId = some t) :
    db.transactions.find? t.id = some t ∧ t.taskId = taskId := by
  obtain ⟨⟨t', at'⟩, hbest, rfl⟩ := Option.map_eq_some_iff.mp h
  obtain ⟨row, hrow, hmap⟩ := List.mem_filterMap.mp (firstBest_mem hbest)
  split at hmap
  · next htask =>
    obtain ⟨r, -, hr⟩ := Option.map_eq_some_iff.mp hmap
    rw [Prod.mk.injEq] at hr
    rw [← hr.1]
    exact ⟨Table.find?_of_mem hrow, htask⟩
  · simp at hmap

theorem appendEvent_ok_iff {transactionId : String} {state : WorkerDeliveryState} {actor : String}
    {detail : Option String} {now : Time} :
    (∃ db', db.appendEvent rid transactionId state actor detail now = .ok db')
      ↔ db.admitsEvent rid transactionId state = true := by
  simp only [admitsEvent, Bool.and_eq_true, Option.isNone_iff_eq_none, appendEvent, bind_eq_ok,
    ensure_eq_ok, okOr_eq_ok, pure_eq_ok]
  constructor
  · rintro ⟨_, -, hvacant, events, hins, -⟩
    exact ⟨(Table.insert?_eq_some hins).1, hvacant⟩
  · rintro ⟨hfree, hvacant⟩
    obtain ⟨events, hins⟩ := Table.insert?_isSome (t := db.events)
      (r := { id := "wde-" ++ rid, transactionId, state, actorAgentId := actor, detail
              createdAt := now }) hfree
    exact ⟨_, ⟨⟩, hvacant, events, hins, rfl⟩

/-- 差し戻せる最新の配達が差し戻されるのは、event を挿せるときである。 -/
theorem declineDelivery_ok_iff {reason : String} {now : Time}
    (ht : db.transactions.find? t.id = some t) (htask : t.taskId = taskId)
    (hs : isDeclinable t.state = true) :
    (∃ db', db.declineDelivery (some t) taskId supervisor reason rid now = .ok db')
      ↔ db.admitsEvent rid t.id .changesRequested = true := by
  have hcount : db.transactions.count (fun t' => decide (t'.id = t.id ∧ t'.taskId = taskId
      ∧ t'.state = t.state)) = 1 :=
    Table.count_eq_one ht (fun t' _ ht' => (of_decide_eq_true ht').1) (by simp [htask])
  unfold declineDelivery moveDelivery
  rw [Option.filter_some, if_pos hs]
  simp only []
  rw [ensure_of hcount, ok_bind]
  exact appendEvent_ok_iff

/-- `close_ready` の配達への差し戻しが受け付けられるのは `declinesCloseReady` のときである。 -/
theorem requestChanges_ok_iff {reason : String} {stamp : Text} {now cycleNow : Time}
    (ht : db.latestReceiptDelivery? taskId = some t) (hs : t.state = .closeReady) :
    (∃ o db', db.requestChanges taskId supervisor reason sources stamp rid now cycleNow
      = .ok (o, db')) ↔ db.declinesCloseReady taskId supervisor reason sources rid = true := by
  obtain ⟨hfind, htask⟩ := latestReceiptDelivery?_mem ht
  have hdecl : ∀ dispatches, (∃ db', ({ db with dispatches } : ProofDb).declineDelivery (some t)
      taskId supervisor (String.ofList (trim reason.toList)) rid now = .ok db')
        ↔ db.admitsEvent rid t.id .changesRequested = true :=
    fun _ => declineDelivery_ok_iff hfind htask (by rw [hs]; rfl)
  simp only [declinesCloseReady, ht, Option.any_some, hs, decide_true, Bool.true_and,
    Bool.and_eq_true]
  constructor
  · rintro ⟨o, db', h⟩
    have hadm := requestChanges_admitted h
    simp only [requestChanges, ht, bind_eq_ok, ensure_eq_ok, okOr_eq_ok, pure_eq_ok,
      Prod.mk.injEq] at h
    obtain ⟨-, -, -, -, task, htask', stored, hstored, deliverables, hsrc, -, -, db₁, hinv, db₂,
      hdel, -⟩ := h
    obtain ⟨dispatches, rfl⟩ := invalidateLatest_frame hinv
    refine ⟨⟨hadm, ?_⟩, ?_⟩
    · simp only [admitsSources, htask', hstored, Option.any_some]
      exact (authorizeMergeSources_ok_iff supervisor).mp ⟨deliverables, hsrc⟩
    · exact (hdecl dispatches).mp ⟨db₂, hdel⟩
  · rintro ⟨⟨hadm, hsources⟩, hevent⟩
    simp only [admitsChanges, admitsSources, Bool.and_eq_true] at hadm hsources
    obtain ⟨⟨hreason, hsup⟩, htask'⟩ := hadm
    obtain ⟨task, htask', hstored⟩ := (Option.any_eq_true _ _).mp htask'
    obtain ⟨stored, hstored, hparked⟩ := (Option.any_eq_true _ _).mp hstored
    simp only [htask', hstored, Option.any_some] at hsources
    obtain ⟨deliverables, hsrc⟩ := (authorizeMergeSources_ok_iff supervisor).mpr hsources
    have hp := authorizeMergeSources_parked hsrc
    have hparked' : isParked task deliverables (some t) = true := by
      simpa only [isParked, hp.1, hp.2, ht] using hparked
    obtain ⟨db₁, hinv⟩ := exists_invalidateLatest db taskId now cycleNow
      "request_changes could not invalidate the declined delivery proof"
    obtain ⟨dispatches, rfl⟩ := invalidateLatest_frame hinv
    obtain ⟨db₂, hdel⟩ := (hdecl dispatches).mpr hevent
    have hreason' : trim reason.toList ≠ [] := by simpa [nonBlank] using hreason
    simp only [requestChanges, ht, bind_eq_ok, ensure_eq_ok, okOr_eq_ok, pure_eq_ok]
    -- 割り当てと配達の書き換えは task に触らないので、読んだ行がそのまま残っている。
    have hraced : db₂.base.tasks.count (fun t => t.id = taskId ∧ t.status = task.status) = 1 := by
      obtain ⟨transactions, events, rfl⟩ := declineDelivery_frame hdel
      refine Table.count_eq_one htask' (fun t _ hp => ?_) ?_
      · exact (of_decide_eq_true hp).1
      · exact decide_eq_true ⟨Table.key_of_find? htask', rfl⟩
    exact ⟨_, _, ⟨⟩, hreason', ⟨⟩, hsup, task, htask', stored, hstored, deliverables, hsrc, ⟨⟩,
      hparked', _, hinv, db₂, hdel, ⟨⟩, hraced, rfl⟩

/-- 差し戻された `close_ready` の配達は、merge の済んでいない扱いになる。 -/
theorem requestChanges_closeReady_unbound {reason : String} {stamp : Text} {now cycleNow : Time}
    {o : RequestChangesOutcome}
    (h : db.requestChanges taskId supervisor reason sources stamp rid now cycleNow = .ok (o, db'))
    (ht : db.latestReceiptDelivery? taskId = some t) (hs : t.state = .closeReady) :
    o.boundary = .unboundDelivery := by
  simp only [requestChanges, ht, bind_eq_ok, ensure_eq_ok, okOr_eq_ok, pure_eq_ok,
    Prod.mk.injEq] at h
  obtain ⟨-, -, -, -, -, -, -, -, -, -, -, -, -, -, -, -, -, -, rfl, -⟩ := h
  simp [requestChangesBoundary, hs]

/-- `close_ready` の配達を差し戻さない限り、差し戻しは merge の記録を守る。 -/
theorem requestChanges_mergeFactKept {reason : String} {stamp : Text} {now cycleNow : Time}
    (hd : db.declinesCloseReady taskId supervisor reason sources rid = false) :
    MergeFactKept db taskId
      (db.requestChanges taskId supervisor reason sources stamp rid now cycleNow) := by
  have hopen : ∀ o db', db.requestChanges taskId supervisor reason sources stamp rid now cycleNow
      = .ok (o, db') → ∀ t, db.latestReceiptDelivery? taskId = some t → t.state ≠ .closeReady := by
    intro o db' h t ht hs
    rw [(requestChanges_ok_iff ht hs).mp ⟨o, db', h⟩] at hd
    simp at hd
  constructor
  · rcases commit_snd_cases db (db.requestChanges taskId supervisor reason sources stamp rid now
      cycleNow) with heq | ⟨o, db', h, heq⟩
    · rw [heq]
      exact .of_eq rfl
    · rw [heq]
      have hne := hopen o db' h
      simp only [requestChanges, bind_eq_ok, ensure_eq_ok, okOr_eq_ok, pure_eq_ok,
        Prod.mk.injEq] at h
      obtain ⟨-, -, -, -, task, -, stored, -, deliverables, -, -, -, db₁, hinv, db₂, hdel, -, -,
        -, rfl⟩ := h
      obtain ⟨dispatches, rfl⟩ := invalidateLatest_frame hinv
      unfold declineDelivery at hdel
      split at hdel
      · rw [← Except.ok.inj hdel]
        exact .of_eq rfl
      · next t ht =>
        rw [Option.filter_eq_some_iff] at ht
        have hkept := moveDelivery_mergesKept hdel (by
          have := hne t ht.1
          cases hs : t.state <;> simp_all [recordsMerge, isDeclinable])
        exact hkept
  · intro o db' h t ht hs
    have hmerged : t.state = .merged := by
      have := hopen o db' h t ht
      cases hs' : t.state <;> simp_all [isMergedState]
    simp only [requestChanges, ht, bind_eq_ok, ensure_eq_ok, okOr_eq_ok, pure_eq_ok,
      Prod.mk.injEq] at h
    obtain ⟨-, -, -, -, -, -, -, -, deliverables, -, -, -, -, -, -, -, -, -, rfl, -⟩ := h
    have hb : ∀ d, requestChangesBoundary (some t) d = .merged := fun d => by
      simp [requestChangesBoundary, hmerged]
    exact ⟨hb _, deliverables.parkedBranch.getD "the factory branch", by rw [hb]⟩

end ProofDb

open ProofDb in
/--
**merge の記録は、`close_ready` の配達が差し戻されるときにだけ失われる。**

訂正の三つの入口は、どの引数でも merge の記録を守る。差し戻しが守るのは、受け付けられた
差し戻しの最新の配達が `close_ready` でないとき、かつそのときに限る。
-/
theorem recorded_merge_kept_iff (db : ProofDb) :
    (∀ kind c rid now, MergesKept db (commit db (db.correct kind c rid now)).2)
    ∧ ∀ taskId supervisor reason sources stamp rid now cycleNow,
      MergeFactKept db taskId
          (db.requestChanges taskId supervisor reason sources stamp rid now cycleNow)
        ↔ db.declinesCloseReady taskId supervisor reason sources rid = false := by
  refine ⟨correct_mergesKept db, fun taskId supervisor reason sources stamp rid now cycleNow =>
    ⟨fun h => ?_, requestChanges_mergeFactKept⟩⟩
  by_contra hd
  rw [Bool.not_eq_false] at hd
  obtain ⟨t, ht, hs⟩ := (Option.any_eq_true _ _).mp hd
  simp only [Bool.and_eq_true, decide_eq_true_eq] at hs
  obtain ⟨o, db', hok⟩ := (requestChanges_ok_iff ht hs.1.1.1).mpr hd
  have hmerged := (h.reported o db' hok t ht (by rw [hs.1.1.1]; rfl)).1
  rw [requestChanges_closeReady_unbound hok ht hs.1.1.1] at hmerged
  simp at hmerged

/-- merge が済んで close を待つ task。配達は `close_ready` まで進んでいる。 -/
def closeReadyDb : ProofDb where
  base :=
    { tasks := Table.empty.insertOrIgnore
        { id := "cas-1", status := .awaitingMerge
          deliverables := some { parkedBranch := some "factory/worker" } } }
  receipts := Table.empty.insertOrIgnore
    { id := "wcr-1", taskId := "cas-1", workerAgentId := "worker", workerName := "worker"
      repoSelector := "repo", sourceBranch := "factory/worker", commitSha := "1111111"
      mergeBaseSha := "2222222", targetBranch := "main", targetSha := "2222222"
      proofReference := "proof", scopeSummary := "scope", createdAt := seconds 1 }
  transactions := Table.empty.insertOrIgnore
    { id := "wdt-1", receiptId := "wcr-1", taskId := "cas-1", state := .closeReady
      mergeCommitSha := some "3333333", createdAt := seconds 1, updatedAt := seconds 2 }

/-- その task への差し戻し。 -/
def closeReadyDecline : Except StoreError (RequestChangesOutcome × ProofDb) :=
  closeReadyDb.requestChanges "cas-1" "supervisor" "tests fail" [] "2026-01-01 00:00".toList
    "00000000000000000000000000000001" (seconds 3) (seconds 3)

/-- `close_ready` の配達が `changes_requested` に移り、merge の済んでいない扱いになる。 -/
theorem closeReadyDecline_loses_merge :
    ¬ ProofDb.MergeFactKept closeReadyDb "cas-1" closeReadyDecline
      ∧ (commit closeReadyDb closeReadyDecline).2.transactions.rows.map (·.state)
        = [.changesRequested]
      ∧ closeReadyDecline.toOption.map (fun r => r.1.boundary) = some .unboundDelivery :=
  ⟨fun h => absurd h.state_kept (by decide), by decide, by decide⟩

end Cassy
