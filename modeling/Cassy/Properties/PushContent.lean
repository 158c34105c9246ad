import Cassy.Cloud.Push

/-!
# 済みとして消える行の中身

push が済みとして消す行は、送った中身のままの行でなければならない。選択と始末の間に手元の変更が入ると、行は番号を
保ったまま中身だけが変わるからである。

`acknowledge_team_write` は写しと比べてから消すが、`mark_synced` は番号だけで消す。だから、選択より後に置き換わった
行に `mark_synced` が当たらない実行に限って、この性質が立つ。

見通しは次のとおり。列に起きることを二つの関係に分ける。

* `Shrinks` — 中身を変えずに行を減らす（始末と掃除）
* `Grows` — 手元の変更。残った行の中身が変わることも、新しい番号の行が増えることもある

push の持つ写しは、同じ番号の行の中身と一致するか、その番号が `replaced` に書き留められている（`PushInv`）。
-/

namespace Cassy

open Infra

variable {δ : Type} [DecidableEq δ] {env : DeliveryEnv δ} {cfg : PushConfig} {s : PushState δ}
  {q q' q'' : SyncQueue}

/-! ## 列に起きること -/

/-- 中身を変えずに行を減らす。 -/
structure Shrinks (q q' : SyncQueue) : Prop where
  nextId : q'.nextId = q.nextId
  rows : ∀ r' ∈ q'.rows, ∃ r ∈ q.rows, r.id = r'.id ∧ r.content = r'.content

/-- 行の番号は、前からあるものか、新しいものである。 -/
structure Grows (q q' : SyncQueue) : Prop where
  nextId : q.nextId ≤ q'.nextId
  rows : ∀ r' ∈ q'.rows, q.nextId ≤ r'.id ∨ ∃ r ∈ q.rows, r.id = r'.id

namespace Shrinks

theorem refl (q : SyncQueue) : Shrinks q q := ⟨rfl, fun r hr => ⟨r, hr, rfl, rfl⟩⟩

theorem trans (h : Shrinks q q') (h' : Shrinks q' q'') : Shrinks q q'' where
  nextId := h'.nextId.trans h.nextId
  rows := by
    intro r'' hr''
    obtain ⟨r', hr', hid', hcontent'⟩ := h'.rows r'' hr''
    obtain ⟨r, hr, hid, hcontent⟩ := h.rows r' hr'
    exact ⟨r, hr, hid.trans hid', hcontent.trans hcontent'⟩

theorem delete (q : SyncQueue) (p : QueueRow → Bool) : Shrinks q (q.delete p) :=
  ⟨rfl, fun r hr => ⟨r, (SyncQueue.mem_delete.mp hr).1, rfl, rfl⟩⟩

theorem updateRow (q : SyncQueue) (id : Nat) {f : QueueRow → QueueRow}
    (hid : ∀ r, (f r).id = r.id) (hident : ∀ r, (f r).identity = r.identity)
    (hcontent : ∀ r, (f r).content = r.content) : Shrinks q (q.updateRow id f hid hident) where
  nextId := rfl
  rows := by
    intro r' hr'
    obtain ⟨r, hr, rfl⟩ := SyncQueue.mem_update.mp hr'
    refine ⟨r, hr, ?_⟩
    split
    · exact ⟨(hid r).symm, (hcontent r).symm⟩
    · exact ⟨rfl, rfl⟩

theorem markFailed (q : SyncQueue) (id : Nat) (error : String) :
    Shrinks q (q.markFailed id error) := by
  unfold SyncQueue.markFailed
  exact updateRow _ _ _ _ fun _ => rfl

theorem parkFailed (q : SyncQueue) (id : Nat) (error : String) (maxRetries : Nat) :
    Shrinks q (q.parkFailed id error maxRetries) := by
  unfold SyncQueue.parkFailed
  exact updateRow _ _ _ _ fun _ => rfl

theorem recordRowOutcome (q : SyncQueue) (id : Nat) (outcome : String) (reason : Option String) :
    Shrinks q (q.recordRowOutcome id outcome reason) := by
  unfold SyncQueue.recordRowOutcome
  exact updateRow _ _ _ _ fun _ => rfl

theorem dropUnauthored (q : SyncQueue) (env : QueueEnv) (store : LocalStore)
    (ledger : List (EntityType × String)) (localProject : String) :
    Shrinks q (q.dropUnauthoredQueuedPushes env store ledger localProject) :=
  (delete q _).trans (delete _ _)

theorem neutralizeDelete (q : SyncQueue) (store : LocalStore) (item : QueuedSync) :
    Shrinks q (q.neutralizeDeleteIfLocalEntityExists store item).2 := by
  unfold SyncQueue.neutralizeDeleteIfLocalEntityExists
  split
  · split
    · exact delete q _
    · exact refl q
  · split
    · exact delete q _
    · exact refl q
  · exact refl q

end Shrinks

namespace Grows

theorem trans (h : Grows q q') (h' : Grows q' q'') : Grows q q'' where
  nextId := Nat.le_trans h.nextId h'.nextId
  rows := by
    intro r'' hr''
    rcases h'.rows r'' hr'' with hnew | ⟨r', hr', hid'⟩
    · exact .inl (Nat.le_trans h.nextId hnew)
    · rw [← hid']
      exact h.rows r' hr'

theorem of_shrinks (h : Shrinks q q') : Grows q q' where
  nextId := Nat.le_of_eq h.nextId.symm
  rows := by
    intro r' hr'
    obtain ⟨r, hr, hid, -⟩ := h.rows r' hr'
    exact .inr ⟨r, hr, hid⟩

theorem upsert (q : SyncQueue) (w : QueueWrite) : Grows q (q.upsertQueueRow w) := by
  unfold SyncQueue.upsertQueueRow
  split
  · refine ⟨le_rfl, fun r' hr' => .inr ?_⟩
    obtain ⟨r, hr, rfl⟩ := SyncQueue.mem_update.mp hr'
    refine ⟨r, hr, ?_⟩
    split
    · rfl
    · rfl
  · refine ⟨Nat.le_succ _, fun r' hr' => ?_⟩
    rcases List.mem_append.mp hr' with hr | hr
    · exact .inr ⟨r', hr, rfl⟩
    · rw [List.mem_singleton.mp hr]
      exact .inl le_rfl

theorem enqueue (env : QueueEnv) (store : LocalStore) (localProject : Option String)
    (q : SyncQueue) (w : QueueWrite) :
    Grows q (env.enqueueWithTeamProject store localProject q w) := by
  unfold QueueEnv.enqueueWithTeamProject
  split
  · exact upsert q w
  · split
    · exact upsert q w
    · split
      · exact of_shrinks (Shrinks.refl q)
      · exact upsert q w

theorem enqueueTeamMove (q : SyncQueue) (entityType : EntityType)
    (entityId oldProjectId newProjectId payload teamId : String) (now : Time) :
    Grows q (q.enqueueTeamMoveRows entityType entityId oldProjectId newProjectId payload teamId
      now) :=
  ((of_shrinks (Shrinks.delete q _)).trans (upsert _ _)).trans (upsert _ _)

end Grows

/-! ## 受領証を扱う操作が列にすること -/

namespace Outbox

variable (ob : Outbox δ)

theorem foldl_recordAck_queue (item : QueuedSync) (transmitted : Json) (teamId projectId : String)
    (snapshots : List QueuedSync) :
    (snapshots.foldl (recordAck env item transmitted teamId projectId) ob).queue = ob.queue := by
  refine foldl_fixed (p := Outbox.queue) (fun ob personal => ?_) snapshots ob
  unfold recordAck
  split
  · rfl
  · rfl

/-- 受領証を書く操作が列から消すのは、送った写しのままの行だけである。 -/
theorem acknowledgeTeamWrite_queue (item : QueuedSync) (transmitted : Json)
    (teamId projectId : String) (snapshots : List QueuedSync) :
    (ob.acknowledgeTeamWrite env item transmitted teamId projectId snapshots).queue
      = (ob.consumeSnapshot item teamId).queue := by
  unfold acknowledgeTeamWrite
  split
  · simp only [consumeSnapshot, foldl_recordAck_queue]
  · rfl

omit [DecidableEq δ] in
theorem removeWithReceipt_shrinks (id : Nat) :
    Shrinks ob.queue (ob.removeWithReceipt id).queue :=
  Shrinks.delete _ _

theorem neutralizeTeamOnlyPersonal_shrinks (teamId projectId : String) :
    Shrinks ob.queue (ob.neutralizeTeamOnlyPersonal env teamId projectId).queue := by
  unfold neutralizeTeamOnlyPersonal
  generalize ob.personalRows = items
  induction items generalizing ob with
  | nil => exact Shrinks.refl _
  | cons item items ih =>
    refine Shrinks.trans ?_ (ih _)
    unfold neutralizeOne
    split
    · exact removeWithReceipt_shrinks ob item.id
    · exact Shrinks.refl _

theorem foldl_purgeOne_shrinks (teamId projectId : String) (ids : List Nat) (dryRun : Bool)
    (items : List QueuedSync) (acc : List TeamOwnedCleanupRow × Outbox δ) :
    Shrinks acc.2.queue (items.foldl (purgeOne env teamId projectId ids dryRun) acc).2.queue := by
  induction items generalizing acc with
  | nil => exact Shrinks.refl _
  | cons item items ih =>
    refine Shrinks.trans ?_ (ih _)
    unfold purgeOne
    split
    · exact Shrinks.refl _
    · dsimp only
      split
      · exact removeWithReceipt_shrinks acc.2 item.id
      · exact Shrinks.refl _

theorem purgeTeamOwned_shrinks (teamId projectId : String) (ids : List Nat) (dryRun : Bool) :
    Shrinks ob.queue
      (ob.purgeTeamOwnedPersonalRejections env teamId projectId ids dryRun).2.queue := by
  unfold purgeTeamOwnedPersonalRejections
  split
  · exact Shrinks.refl _
  · dsimp only
    split
    · exact Shrinks.refl _
    · exact foldl_purgeOne_shrinks teamId projectId ids dryRun _ ([], ob)

end Outbox

theorem QueueCall.run_shrinks (ob : Outbox δ) (call : QueueCall) :
    Shrinks ob.queue (call.run env cfg ob).queue := by
  cases call with
  | markSynced id => exact Shrinks.delete _ _
  | markFailed id error => exact Shrinks.markFailed _ id error
  | parkFailed id error => exact Shrinks.parkFailed _ id error cfg.maxRetries
  | recordRowOutcome id outcome reason => exact Shrinks.recordRowOutcome _ id outcome reason
  | acknowledgeTeamWrite item transmitted teamId projectId snapshots =>
    show Shrinks _ (ob.acknowledgeTeamWrite env item transmitted teamId projectId snapshots).queue
    rw [Outbox.acknowledgeTeamWrite_queue]
    exact Shrinks.delete _ _

/-! ## 始末の呼び出しの素性 -/

/--
始末の呼び出しは、送った行だけを消す。

受領証を書く呼び出しの値は、返事が名指した値である。
-/
def QueueCall.From (sent : List QueuedSync) (log : List Delivery) : QueueCall → Prop
  | .markSynced id => ∃ item ∈ sent, item.id = id
  | .acknowledgeTeamWrite item value teamId projectId _ =>
    item ∈ sent ∧ ⟨teamId, projectId, item.entityType, item.entityId, value⟩ ∈ log
  | _ => True

section From

variable {sent items : List QueuedSync} {log log' : List Delivery} {call : QueueCall}
  {item : QueuedSync}

theorem QueueCall.From.mono (h : call.From sent log) (hlog : log ⊆ log') : call.From sent log' := by
  cases call with
  | markSynced id => exact h
  | acknowledgeTeamWrite item value teamId projectId snapshots => exact ⟨h.1, hlog h.2⟩
  | markFailed id error => trivial
  | parkFailed id error => trivial
  | recordRowOutcome id outcome reason => trivial

theorem from_failAll {diagnostic : String} (h : call ∈ failAll items diagnostic) :
    call.From sent log := by
  obtain ⟨item, -, rfl⟩ := List.mem_map.mp h
  trivial

theorem from_syncAll (h : call ∈ syncAll sent) : call.From sent log := by
  obtain ⟨item, hitem, rfl⟩ := List.mem_map.mp h
  exact ⟨item, hitem, rfl⟩

theorem from_rejectRow {kind : PushKind} {entityKey rawBody : String} {row : PushRowResult}
    (h : call ∈ cfg.rejectRow kind entityKey rawBody item row) : call.From sent log := by
  unfold PushConfig.rejectRow at h
  dsimp only at h
  rw [List.mem_cons, List.mem_singleton] at h
  rcases h with rfl | rfl
  · trivial
  · split
    · trivial
    · trivial

theorem from_settlePersonalRow {entityKey rawBody : String} {rows : List PushRowResult}
    (hitem : item ∈ sent) (h : call ∈ cfg.settlePersonalRow entityKey rawBody rows item) :
    call.From sent log := by
  unfold PushConfig.settlePersonalRow at h
  split at h
  · simp at h
  · split at h
    · rw [List.mem_singleton.mp h]
      exact ⟨item, hitem, rfl⟩
    · exact from_rejectRow h

/-- cloud が宛先を読み替えていなければ、受領証の宛先は届いた宛先である。 -/
theorem from_settleTeamRow {teamId : String} {rows : List PushRowResult} {batch : SubBatch}
    {response : BatchResponse} {entry : QueuedSync × Json}
    (hrows : response.rows = .ok (some rows)) (hentry : entry ∈ batch.items)
    (h : call ∈ cfg.settleTeamRow teamId response.rawBody rows
      (response.canonicalId.all (· = batch.project)) batch entry) :
    call.From batch.sent (deliveries (.team teamId) batch response) := by
  have hsent : entry.1 ∈ batch.sent := List.mem_map_of_mem hentry
  unfold PushConfig.settleTeamRow at h
  split at h
  · simp at h
  next row hrow =>
    split at h
    · split at h
      next hack =>
        rw [List.mem_singleton.mp h]
        rw [Bool.and_eq_true] at hack
        have hproject : response.canonicalId.getD batch.project = batch.project := by
          cases hcanonical : response.canonicalId with
          | none => rfl
          | some id =>
            rw [hcanonical] at hack
            simpa using hack.1
        refine ⟨hsent, ?_⟩
        simp only [deliveries, hrows, hproject]
        refine List.mem_filterMap.mpr ⟨entry, hentry, ?_⟩
        simp only [hrow, hack.2, if_true]
      · rw [List.mem_singleton.mp h]
        exact ⟨entry.1, hsent, rfl⟩
    · exact from_rejectRow h

theorem from_settleItemized {kind : PushKind} {entityKey rawBody : String}
    {failures : List PushItemizedFailure} (hitem : item ∈ sent)
    (h : call ∈ settleItemized kind entityKey rawBody failures item) : call.From sent log := by
  unfold settleItemized at h
  dsimp only at h
  split at h
  · rw [List.mem_singleton.mp h]
    exact ⟨item, hitem, rfl⟩
  all_goals
    rcases List.mem_cons.mp h with rfl | h
    · trivial
    · cases kind with
      | personal =>
        rw [List.mem_singleton.mp h]
        trivial
      | team teamId => simp at h

theorem from_settleCounts {kind : PushKind} {entityKey : String} {response : BatchResponse}
    (h : call ∈ settleCounts kind entityKey response sent) : call.From sent log := by
  unfold settleCounts at h
  dsimp only at h
  split at h
  · exact from_failAll h
  · exact from_syncAll h
  · split at h
    · exact from_failAll h
    · split at h
      · exact from_failAll h
      · exact from_syncAll h
      · obtain ⟨item, hitem, h⟩ := List.mem_flatMap.mp h
        exact from_settleItemized hitem h

/-- 検査を通った結果は、返事にあった結果そのものである。 -/
theorem rowResultsFor_ok {location : String} {rows rows' : List PushRowResult}
    {queuedIds : List String} (h : rowResultsFor location rows queuedIds = .ok rows') :
    rows = rows' := by
  unfold rowResultsFor at h
  split at h
  · cases h
  · split at h
    · cases h
    · exact Except.ok.inj h

theorem from_settleResponse {kind : PushKind} {batch : SubBatch} {response : BatchResponse}
    (h : call ∈ cfg.settleResponse kind batch response) :
    call.From batch.sent (deliveries kind batch response) := by
  unfold PushConfig.settleResponse at h
  dsimp only at h
  split at h
  · exact from_failAll h
  next rows hrows =>
    split at h
    · obtain ⟨item, hitem, h⟩ := List.mem_flatMap.mp h
      exact from_settlePersonalRow hitem h
    next teamId =>
      obtain ⟨entry, hentry, h⟩ := List.mem_flatMap.mp h
      have hresponse : response.rows = .ok (some rows) := by
        split at hrows
        · cases hrows
        · cases hrows
        next rows' hrows' =>
          cases hcheck : rowResultsFor response.rowsAt rows'
              (batch.sent.map QueuedSync.entityId) with
          | error e =>
            rw [hcheck] at hrows
            cases hrows
          | ok checked =>
            rw [hcheck] at hrows
            have hchecked : checked = rows := Option.some.inj (Except.ok.inj hrows)
            rw [hrows', rowResultsFor_ok hcheck, hchecked]
      exact from_settleTeamRow hresponse hentry h
  · exact from_settleCounts h

theorem from_settleError {error : String} (h : call ∈ cfg.settleError items error) :
    call.From sent log := by
  obtain ⟨item, -, h⟩ := List.mem_flatMap.mp h
  rcases List.mem_cons.mp h with rfl | h
  · trivial
  · split at h
    · rw [List.mem_singleton.mp h]
      trivial
    · simp at h

theorem from_settleDelete {kind : PushKind} {error : Option String} (hitem : item ∈ sent)
    (h : call ∈ settleDelete kind items item error) : call.From sent log := by
  cases error with
  | none =>
    rw [List.mem_singleton.mp h]
    exact ⟨item, hitem, rfl⟩
  | some error =>
    rcases List.mem_cons.mp h with rfl | h
    · trivial
    · split at h
      · exact from_failAll h
      · simp at h

end From

/-! ## 不変条件 -/

/-- push の持つ写し。 -/
def PushPc.held : PushPc → List QueuedSync
  | .idle => []
  | .selected _ items => items
  | .sentUpserts _ items _ => items
  | .sentDeletes _ items _ => items
  | .settling _ items _ _ => items

/-- 送った行は持っている写しの中にあり、始末の呼び出しは送った行だけを消す。 -/
def PushPc.WellFormed (log : List Delivery) : PushPc → Prop
  | .idle => True
  | .selected _ _ => True
  | .sentUpserts _ items batch => batch.sent ⊆ items
  | .sentDeletes _ items deletes => deletes ⊆ items
  | .settling _ items sent calls => sent ⊆ items ∧ ∀ call ∈ calls, call.From sent log

/-- 写しと同じ番号の行は、写しの中身のままか、置き換わったと書き留められている。 -/
structure Tracks (q : SyncQueue) (replaced : List Nat) (item : QueuedSync) : Prop where
  fresh : item.id < q.nextId
  kept : ∀ r ∈ q.rows, r.id = item.id → r.content = item.content ∨ item.id ∈ replaced

/-- 機械の不変条件。 -/
structure PushInv (s : PushState δ) : Prop where
  wellFormed : ∀ pid, (s.pc pid).WellFormed s.delivered
  tracks : ∀ pid, ∀ item ∈ (s.pc pid).held, Tracks s.outbox.queue (s.replaced pid) item

theorem PushPc.WellFormed.mono {log log' : List Delivery} {pc : PushPc} (h : pc.WellFormed log)
    (hlog : log ⊆ log') : pc.WellFormed log' := by
  cases pc with
  | settling kind items sent calls => exact ⟨h.1, fun call hcall => (h.2 call hcall).mono hlog⟩
  | idle => trivial
  | selected kind items => trivial
  | sentUpserts kind items batch => exact h
  | sentDeletes kind items deletes => exact h

namespace Tracks

variable {replaced : List Nat} {item : QueuedSync}

theorem shrinks (h : Tracks q replaced item) (hq : Shrinks q q') : Tracks q' replaced item where
  fresh := hq.nextId ▸ h.fresh
  kept := by
    intro r' hr' hid
    obtain ⟨r, hr, hrid, hcontent⟩ := hq.rows r' hr'
    rw [← hcontent]
    exact h.kept r hr (hrid.trans hid)

/-- 手元の変更の後は、変わった番号が書き留められる。番号は使い回されないので、新しい行とは取り違えない。 -/
theorem grows (h : Tracks q replaced item) (hq : Grows q q') :
    Tracks q' (replacedIds q q' ++ replaced) item where
  fresh := Nat.lt_of_lt_of_le h.fresh hq.nextId
  kept := by
    intro r' hr' hid
    rcases hq.rows r' hr' with hnew | ⟨r, hr, hrid⟩
    · exact absurd (hid ▸ hnew) (Nat.not_le.mpr h.fresh)
    · by_cases hcontent : r'.content = r.content
      · rw [hcontent]
        rcases h.kept r hr (hrid.trans hid) with hkept | hreplaced
        · exact .inl hkept
        · exact .inr (List.mem_append_right _ hreplaced)
      · refine .inr (List.mem_append_left _ (List.mem_map.mpr ⟨r, ?_, hrid.trans hid⟩))
        refine List.mem_filter.mpr ⟨hr, List.any_eq_true.mpr ⟨r', hr', ?_⟩⟩
        simp [hrid, hcontent]

/-- 選んだばかりの写し。 -/
theorem of_mapRow {r : QueueRow} (hr : r ∈ q.rows) : Tracks q replaced r.mapRow where
  fresh := q.fresh r hr
  kept := by
    intro r' hr' hid
    rw [SyncQueue.eq_of_id hr' hr hid]
    exact .inl rfl

end Tracks

omit [DecidableEq δ] in
theorem tracks_of_mem_selectRows {kind : PushKind} {entityType : Option EntityType} {limit : Nat}
    {replaced : List Nat} {item : QueuedSync}
    (h : item ∈ selectRows env cfg q kind entityType limit) : Tracks q replaced item := by
  cases kind with
  | personal =>
    obtain ⟨r, hr, -, rfl⟩ := SyncQueue.exists_row_of_mem_pushable h
    exact Tracks.of_mapRow hr
  | team teamId =>
    obtain ⟨r, hr, -, rfl⟩ := SyncQueue.exists_row_of_mem_pendingForTeam h
    exact Tracks.of_mapRow hr

namespace PushInv

omit [DecidableEq δ] in
/-- 列から行が減るだけの手。 -/
theorem outbox (hi : PushInv s) {ob : Outbox δ} (h : Shrinks s.outbox.queue ob.queue) :
    PushInv { s with outbox := ob } where
  wellFormed := hi.wellFormed
  tracks := fun pid item hitem => (hi.tracks pid item hitem).shrinks h

omit [DecidableEq δ] in
theorem enqueued (hi : PushInv s) (h : Grows s.outbox.queue q) : PushInv (s.enqueued q) where
  wellFormed := hi.wellFormed
  tracks := fun pid item hitem => (hi.tracks pid item hitem).grows h

omit [DecidableEq δ] in
/-- 名指しの履歴が伸びる手。 -/
theorem delivered (hi : PushInv s) (log : List Delivery) :
    PushInv { s with delivered := log ++ s.delivered } where
  wellFormed := fun pid => (hi.wellFormed pid).mono (List.subset_append_right log s.delivered)
  tracks := hi.tracks

omit [DecidableEq δ] in
/-- push の一つが先へ進む手。新しい写しは増えない。 -/
theorem setPc (hi : PushInv s) {pid : Nat} {pc : PushPc} (hwf : pc.WellFormed s.delivered)
    (hheld : pc.held ⊆ (s.pc pid).held) : PushInv (s.setPc pid pc) where
  wellFormed := by
    intro pid'
    by_cases hpid : pid' = pid
    · subst hpid
      simpa [PushState.setPc] using hwf
    · simpa [PushState.setPc, Function.update_of_ne hpid] using hi.wellFormed pid'
  tracks := by
    intro pid' item hitem
    by_cases hpid : pid' = pid
    · subst hpid
      simp only [PushState.setPc, Function.update_self] at hitem
      exact hi.tracks pid' item (hheld hitem)
    · simp only [PushState.setPc, Function.update_of_ne hpid] at hitem
      exact hi.tracks pid' item hitem

omit [DecidableEq δ] in
/-- 選択の手。書き留めはここから始まる。 -/
theorem select (hi : PushInv s) (pid : Nat) (kind : PushKind) (entityType : Option EntityType)
    (limit : Nat) :
    PushInv { s.setPc pid (.selected kind
        (selectRows env cfg s.outbox.queue kind entityType limit)) with
      replaced := Function.update s.replaced pid [] } where
  wellFormed := by
    intro pid'
    by_cases hpid : pid' = pid
    · subst hpid
      simp [PushState.setPc, PushPc.WellFormed]
    · simpa [PushState.setPc, Function.update_of_ne hpid] using hi.wellFormed pid'
  tracks := by
    intro pid' item hitem
    by_cases hpid : pid' = pid
    · subst hpid
      simp only [PushState.setPc, Function.update_self] at hitem
      exact tracks_of_mem_selectRows hitem
    · simp only [PushState.setPc, Function.update_of_ne hpid] at hitem ⊢
      exact hi.tracks pid' item hitem

end PushInv

/-- 一手は不変条件を保つ。 -/
theorem pushNext_inv (hi : PushInv s) (act : PushAct) : PushInv (pushNext env cfg s act) := by
  cases act with
  | enqueue store localProject w => exact hi.enqueued (Grows.enqueue _ _ _ _ _)
  | enqueueTeamMove entityType entityId oldProjectId newProjectId payload teamId now =>
    exact hi.enqueued (Grows.enqueueTeamMove _ _ _ _ _ _ _ _)
  | dropUserPrompts => exact hi.outbox (Shrinks.delete _ _)
  | dropUnauthored store ledger localProject =>
    exact hi.outbox (Shrinks.dropUnauthored _ _ _ _ _)
  | select pid kind entityType limit =>
    simp only [pushNext]
    split
    · exact hi.select pid kind entityType limit
    · exact hi
  | neutralizeDelete pid store item =>
    simp only [pushNext]
    split
    next kind items hpc =>
      split
      · split
        · refine (hi.outbox (Shrinks.neutralizeDelete _ store item)).setPc trivial ?_
          show items.filter _ ⊆ (s.pc pid).held
          rw [hpc]
          exact List.filter_sublist.subset
        · exact hi
      · exact hi
    · exact hi
  | sendUpserts pid items entityKey project =>
    simp only [pushNext]
    split
    next kind queued hpc =>
      split
      next hsend =>
        refine hi.setPc ?_ (by rw [hpc]; exact List.Subset.refl queued)
        intro item hitem
        obtain ⟨entry, hentry, rfl⟩ := List.mem_map.mp hitem
        have hsendable := List.all_eq_true.mp hsend entry hentry
        simp only [sendable, Bool.and_eq_true, decide_eq_true_eq] at hsendable
        exact hsendable.1.1
      · exact hi
    · exact hi
  | sendDeletes pid deletes =>
    simp only [pushNext]
    split
    next kind queued hpc =>
      split
      next hsend =>
        refine hi.setPc ?_ (by rw [hpc]; exact List.Subset.refl queued)
        intro item hitem
        have hqueued := List.all_eq_true.mp hsend item hitem
        simp only [Bool.and_eq_true, decide_eq_true_eq] at hqueued
        exact hqueued.1
      · exact hi
    · exact hi
  | respond pid response =>
    simp only [pushNext]
    split
    next kind queued batch hpc =>
      have hsent : batch.sent ⊆ queued := by
        have hwf := hi.wellFormed pid
        rw [hpc] at hwf
        exact hwf
      split
      · exact hi.setPc ⟨hsent, fun call hcall => from_settleError hcall⟩
          (by rw [hpc]; exact List.Subset.refl queued)
      next response =>
        refine (hi.delivered (deliveries kind batch response)).setPc ⟨hsent, ?_⟩
          (by rw [hpc]; exact List.Subset.refl queued)
        intro call hcall
        exact (from_settleResponse hcall).mono (List.subset_append_left _ _)
    · exact hi
  | respondDeletes pid errors =>
    simp only [pushNext]
    split
    next kind queued deletes hpc =>
      have hsent : deletes ⊆ queued := by
        have hwf := hi.wellFormed pid
        rw [hpc] at hwf
        exact hwf
      refine hi.setPc ⟨hsent, ?_⟩ (by rw [hpc]; exact List.Subset.refl queued)
      intro call hcall
      obtain ⟨item, hitem, hcall⟩ := List.mem_flatMap.mp hcall
      exact from_settleDelete hitem hcall
    · exact hi
  | settle pid =>
    simp only [pushNext]
    split
    next kind queued sent call calls hpc =>
      have hwf := hi.wellFormed pid
      rw [hpc] at hwf
      have hsettling : PushInv (s.setPc pid (.settling kind queued sent calls)) :=
        hi.setPc ⟨hwf.1, fun call hcall => hwf.2 call (List.mem_cons_of_mem _ hcall)⟩
          (by rw [hpc]; exact List.Subset.refl queued)
      exact hsettling.outbox (QueueCall.run_shrinks s.outbox call)
    next kind queued sent hpc =>
      refine hi.setPc trivial ?_
      rw [hpc]
      exact List.filter_sublist.subset
    · exact hi
  | finish pid => exact hi.setPc trivial (List.nil_subset _)
  | neutralizeTeamOnly teamId projectId =>
    exact hi.outbox (Outbox.neutralizeTeamOnlyPersonal_shrinks s.outbox teamId projectId)
  | purgeTeamOwned teamId projectId ids dryRun =>
    exact hi.outbox (Outbox.purgeTeamOwned_shrinks s.outbox teamId projectId ids dryRun)

/-! ## 済みとして消える行 -/

/--
始末の一手が満たすべきこと。

`removed` は、消える行の中身がその push の送った中身であること。`stays` は、送った写しと中身の違う行が残ることである。
-/
structure SettlesTransmitted (env : DeliveryEnv δ) (cfg : PushConfig) (s : PushState δ)
    (act : PushAct) : Prop where
  removed : ∀ pid, act = .settle pid → ∀ r ∈ s.outbox.queue.rows,
    (∀ r' ∈ (pushNext env cfg s act).outbox.queue.rows, r'.id ≠ r.id) →
    ∃ item ∈ s.transmitted pid, item.id = r.id ∧ item.content = r.content
  stays : ∀ pid, act = .settle pid → ∀ r ∈ s.outbox.queue.rows,
    (∀ item ∈ s.transmitted pid, item.id = r.id → item.content ≠ r.content) →
    ∃ r' ∈ (pushNext env cfg s act).outbox.queue.rows, r'.id = r.id ∧ r'.content = r.content

/-- `mark_synced` を呼ぶ手の、push と行の番号。 -/
def syncedRow (s : PushState δ) : PushAct → Option (Nat × Nat)
  | .settle pid =>
    match s.pc pid with
    | .settling _ _ _ (.markSynced id :: _) => some (pid, id)
    | _ => none
  | _ => none

/-- `mark_synced` が、選択より後に置き換わった行に当たらない。 -/
def SettlesUnreplaced (s : PushState δ) (act : PushAct) : Prop :=
  ∀ row ∈ syncedRow s act, row.2 ∉ s.replaced row.1

instance (s : PushState δ) (act : PushAct) : Decidable (SettlesUnreplaced s act) :=
  inferInstanceAs (Decidable (∀ row ∈ syncedRow s act, row.2 ∉ s.replaced row.1))

omit [DecidableEq δ] in
/-- 番号の行を書き換える呼び出しでは、どの行も中身ごと残る。 -/
theorem exists_updateRow {id : Nat} {f : QueueRow → QueueRow} (hid : ∀ r, (f r).id = r.id)
    (hident : ∀ r, (f r).identity = r.identity) (hcontent : ∀ r, (f r).content = r.content)
    {r : QueueRow} (hr : r ∈ q.rows) :
    ∃ r' ∈ (q.updateRow id f hid hident).rows, r'.id = r.id ∧ r'.content = r.content := by
  refine ⟨_, SyncQueue.mem_update.mpr ⟨r, hr, rfl⟩, ?_⟩
  split
  · exact ⟨hid r, hcontent r⟩
  · exact ⟨rfl, rfl⟩

/-- 送った写しと中身の違う行は、一回の呼び出しの後も残る。 -/
theorem QueueCall.run_keeps {ob : Outbox δ} {sent : List QueuedSync} {call : QueueCall}
    {r : QueueRow} {log : List Delivery} (hfrom : call.From sent log)
    (hsynced : ∀ id, call = .markSynced id → ∀ item ∈ sent, item.id = id →
      ∀ r ∈ ob.queue.rows, r.id = item.id → r.content = item.content)
    (hr : r ∈ ob.queue.rows)
    (hdiff : ∀ item ∈ sent, item.id = r.id → item.content ≠ r.content) :
    ∃ r' ∈ (call.run env cfg ob).queue.rows, r'.id = r.id ∧ r'.content = r.content := by
  cases call with
  | markSynced id =>
    refine ⟨r, SyncQueue.mem_delete.mpr ⟨hr, ?_⟩, rfl, rfl⟩
    obtain ⟨item, hitem, hid⟩ := hfrom
    have hne : r.id ≠ id := by
      intro hrid
      have hrid' : r.id = item.id := hrid.trans hid.symm
      exact hdiff item hitem hrid'.symm (hsynced id rfl item hitem hid r hr hrid').symm
    simpa using hne
  | markFailed id error =>
    simp only [QueueCall.run, SyncQueue.markFailed]
    refine exists_updateRow _ _ ?_ hr
    exact fun _ => rfl
  | parkFailed id error =>
    simp only [QueueCall.run, SyncQueue.parkFailed]
    refine exists_updateRow _ _ ?_ hr
    exact fun _ => rfl
  | recordRowOutcome id outcome reason =>
    simp only [QueueCall.run, SyncQueue.recordRowOutcome]
    refine exists_updateRow _ _ ?_ hr
    exact fun _ => rfl
  | acknowledgeTeamWrite item transmitted teamId projectId snapshots =>
    refine ⟨r, ?_, rfl, rfl⟩
    show r ∈ (ob.acknowledgeTeamWrite env item transmitted teamId projectId snapshots).queue.rows
    rw [Outbox.acknowledgeTeamWrite_queue]
    refine SyncQueue.mem_delete.mpr ⟨hr, decide_eq_false ?_⟩
    rintro ⟨hid, -, hop, hpayload, -, -⟩
    exact hdiff item hfrom.1 hid.symm (Prod.ext hop.symm hpayload.symm)

/-- 不変条件と `SettlesUnreplaced` の下では、送った写しと中身の違う行は始末の手の後も残る。 -/
theorem settle_keeps (hi : PushInv s) {pid : Nat} (hok : SettlesUnreplaced s (.settle pid))
    {r : QueueRow} (hr : r ∈ s.outbox.queue.rows)
    (hdiff : ∀ item ∈ s.transmitted pid, item.id = r.id → item.content ≠ r.content) :
    ∃ r' ∈ (pushNext env cfg s (.settle pid)).outbox.queue.rows,
      r'.id = r.id ∧ r'.content = r.content := by
  simp only [pushNext]
  split
  next kind queued sent call calls hpc =>
    have hwf := hi.wellFormed pid
    have htracks := hi.tracks pid
    simp only [SettlesUnreplaced, syncedRow, hpc] at hok
    simp only [PushState.transmitted, hpc] at hdiff
    rw [hpc] at hwf htracks
    refine QueueCall.run_keeps (hwf.2 call List.mem_cons_self) ?_ hr hdiff
    rintro id rfl item hitem rfl r hr hid
    -- 置き換わっていないので、写しの中身のままである
    rcases (htracks item (hwf.1 hitem)).kept r hr hid with hkept | hreplaced
    · exact hkept
    · exact absurd hreplaced (hok _ rfl)
  · exact ⟨r, hr, rfl, rfl⟩
  · exact ⟨r, hr, rfl, rfl⟩

/-- 一手について、`SettlesUnreplaced` なら `SettlesTransmitted` である。 -/
theorem settlesTransmitted_of_unreplaced (hi : PushInv s) {act : PushAct}
    (hok : SettlesUnreplaced s act) : SettlesTransmitted env cfg s act where
  removed := by
    rintro pid rfl r hr hgone
    by_contra hnone
    push Not at hnone
    obtain ⟨r', hr', hid, -⟩ := settle_keeps hi hok hr hnone
    exact hgone r' hr' hid
  stays := by
    rintro pid rfl r hr hdiff
    exact settle_keeps hi hok hr hdiff

/--
済みとして消える行の中身は、その push が送った中身である。

列の初めの中身は何でもよく、push はまだ一つも走っていない。手元の変更、いくつもの push の選択・送信・始末、
個人の行の片付けがどの順に並んでもよい。
-/
theorem synced_rows_transmitted (env : DeliveryEnv δ) (cfg : PushConfig) (s : PushState δ)
    (hidle : ∀ pid, s.pc pid = .idle)
    (acts : List PushAct) (hok : Guarded (pushStep env cfg) SettlesUnreplaced s acts) :
    ∀ pre act post, acts = pre ++ act :: post →
      SettlesTransmitted env cfg (run (pushStep env cfg) s pre) act := by
  rintro pre act post rfl
  have hstart : PushInv s :=
    ⟨fun pid => by rw [hidle pid]; trivial, fun pid item hitem => by
      rw [hidle pid] at hitem
      exact absurd hitem List.not_mem_nil⟩
  have hguards := guarded_append.mp hok
  have hi : PushInv (run (pushStep env cfg) s pre) :=
    run_invariant (I := PushInv) (fun s act h _ => pushNext_inv h act) hstart hguards.1
  exact settlesTransmitted_of_unreplaced hi hguards.2.1

/-! ## 送っている間の編集 -/

/-- 例に使う task の二つの版。 -/
def draftPayload : String := "\x7b\"title\":\"draft\"\x7d"

def finalPayload : String := "\x7b\"title\":\"final\"\x7d"

/-- 例に使う payload だけを読む環境。 -/
def titleEnv : DeliveryEnv Json where
  parse := fun text =>
    if text = draftPayload then some (.object [("title", .string "draft")])
    else if text = finalPayload then some (.object [("title", .string "final")])
    else none
  digest := id

def titleConfig : PushConfig where
  maxRetries := 5

/-- 空の列。 -/
def emptyOutbox : PushState Json where
  outbox := { queue := SyncQueue.empty }

/-- 個人の task の書き込み。 -/
def taskWrite (payload : String) (now : Time) : QueueWrite where
  entityType := .task
  entityId := "cas-1"
  operation := .upsert
  payload := some payload
  now := now

/-- 選んだ写し。 -/
def draftItem : QueuedSync := ((taskWrite draftPayload 1).row 1).mapRow

/-- 下書きを積み、選び、送るまで。 -/
def pushDraft : List PushAct :=
  [.enqueue [] none (taskWrite draftPayload 1), .select 0 .personal none 10,
    .sendUpserts 0 [(draftItem, .object [("title", .string "draft")])] "tasks" "p"]

/-- 送っている間に編集があると、送っていない版が済みとして消える。 -/
theorem synced_row_edited_in_flight :
    ¬ ∀ pre act post, pushDraft ++ [.enqueue [] none (taskWrite finalPayload 2),
        .respond 0 (.ok {}), .settle 0] = pre ++ act :: post →
      SettlesTransmitted titleEnv titleConfig
        (run (pushStep titleEnv titleConfig) emptyOutbox pre) act := by
  intro h
  have hsettle := (h (pushDraft ++ [.enqueue [] none (taskWrite finalPayload 2),
    .respond 0 (.ok {})]) (.settle 0) [] rfl).removed 0 rfl
    ((taskWrite finalPayload 2).onto ((taskWrite draftPayload 1).row 1)) (by decide +kernel)
    (by decide +kernel)
  exact absurd hsettle (by decide +kernel)

/-- 送っている間に別の task を積み、返事を受ける。 -/
def pushDraftBesideOther : List PushAct :=
  pushDraft ++ [.enqueue [] none { taskWrite finalPayload 2 with entityId := "cas-2" },
    .respond 0 (.ok {})]

/-- 間に積まれるのが別の task だけなら、消えるのは送った版で、その task は列に残る。 -/
theorem synced_rows_transmitted_draft :
    SettlesTransmitted titleEnv titleConfig
        (run (pushStep titleEnv titleConfig) emptyOutbox pushDraftBesideOther) (.settle 0)
      ∧ (run (pushStep titleEnv titleConfig) emptyOutbox
          (pushDraftBesideOther ++ [.settle 0])).outbox.queue.rows.map QueueRow.entityId
        = ["cas-2"] :=
  ⟨synced_rows_transmitted titleEnv titleConfig emptyOutbox (fun _ => rfl)
      (pushDraftBesideOther ++ [.settle 0]) (by decide +kernel)
      pushDraftBesideOther (.settle 0) [] rfl,
    by decide +kernel⟩

end Cassy
