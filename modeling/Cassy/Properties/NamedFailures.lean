import Cassy.Cloud.Push
import Cassy.Properties.PushContent

/-!
# cloud が失敗と名指した行

返事が `rejected[]`、`invalid[]`、`rows[]` のどれかで失敗と名指した行は、始末の後も列に残るべきである。始末が読む順は
`rows[]`、数、名指しで、数が零なら名指しを見ない。読んだ返事から、名指した行が残るかどうかを決める。

* 前半 — 始末の呼び出しの列が行を消すのは、その行に当たる `mark_synced` か `acknowledge_team_write` があるときである
* 後半 — 始末がその行に何を呼ぶかは、読んだ返事だけで決まる
-/

namespace Cassy

open Infra

variable {δ : Type} [DecidableEq δ] {env : DeliveryEnv δ} {cfg : PushConfig} {ob : Outbox δ}
  {r r' : QueueRow} {call : QueueCall} {calls : List QueueCall}

/-! ## 呼び出しの列が消す行 -/

/-- 行のうち、消すかどうかを決める部分。始末はこれを書き換えない。 -/
def QueueRow.written (r : QueueRow) :
    Nat × String × SyncOperation × Option String × Time × Option String :=
  (r.id, r.teamId, r.operation, r.payload, r.createdAt, r.projectId)

/-- 行を消す呼び出し。 -/
def QueueCall.removes (r : QueueRow) : QueueCall → Bool
  | .markSynced id => r.id = id
  | .acknowledgeTeamWrite item _ teamId _ _ =>
    r.written = (item.id, teamId, item.operation, item.payload, item.createdAt, item.projectId)
  | _ => false

theorem QueueCall.removes_markSynced {id : Nat} :
    (QueueCall.markSynced id).removes r = decide (r.id = id) := rfl

theorem QueueCall.removes_acknowledgeTeamWrite {item : QueuedSync} {value : Json}
    {teamId projectId : String} {snapshots : List QueuedSync} :
    (QueueCall.acknowledgeTeamWrite item value teamId projectId snapshots).removes r
      = decide (r.written = (item.id, teamId, item.operation, item.payload, item.createdAt,
        item.projectId)) := rfl

theorem written_id (h : r.written = r'.written) : r.id = r'.id := congrArg Prod.fst h

theorem QueueCall.removes_congr (h : r.written = r'.written) :
    call.removes r = call.removes r' := by
  cases call with
  | markSynced id => simp only [removes, written_id h]
  | acknowledgeTeamWrite item value teamId projectId snapshots => simp only [removes, h]
  | markFailed id error => rfl
  | parkFailed id error => rfl
  | recordRowOutcome id outcome reason => rfl

/-- 番号の行を書き換える呼び出しは、行を消さない。 -/
theorem written_updateRow {q : SyncQueue} {id : Nat} {f : QueueRow → QueueRow}
    (hid : ∀ r, (f r).id = r.id) (hident : ∀ r, (f r).identity = r.identity)
    (hwritten : ∀ r, (f r).written = r.written) :
    (q.updateRow id f hid hident).rows.map QueueRow.written = q.rows.map QueueRow.written :=
  Table.map_update hid hwritten

theorem written_delete {q : SyncQueue} {p : QueueRow → Bool} (call : QueueCall)
    (h : ∀ r, p r = call.removes r) {w} :
    (∃ r' ∈ (q.delete p).rows, r'.written = w)
      ↔ ∃ r ∈ q.rows, r.written = w ∧ call.removes r = false := by
  constructor
  · rintro ⟨r, hr, hw⟩
    obtain ⟨hr, hp⟩ := SyncQueue.mem_delete.mp hr
    exact ⟨r, hr, hw, by rw [← h, hp]⟩
  · rintro ⟨r, hr, hw, hremoves⟩
    exact ⟨r, SyncQueue.mem_delete.mpr ⟨hr, by rw [h, hremoves]⟩, hw⟩

/-- 一回の呼び出しの後に残るのは、呼び出しが消さない行である。 -/
theorem QueueCall.run_written {w} :
    (∃ r' ∈ (call.run env cfg ob).queue.rows, r'.written = w)
      ↔ ∃ r ∈ ob.queue.rows, r.written = w ∧ call.removes r = false := by
  have hupdate {q : SyncQueue} (hmap : q.rows.map QueueRow.written
      = ob.queue.rows.map QueueRow.written) (hnone : ∀ r, call.removes r = false) :
      (∃ r' ∈ q.rows, r'.written = w)
        ↔ ∃ r ∈ ob.queue.rows, r.written = w ∧ call.removes r = false := by
    simp only [hnone, and_true]
    rw [← List.mem_map, ← List.mem_map, hmap]
  cases call with
  | markSynced id => exact written_delete (.markSynced id) fun r => rfl
  | markFailed id error =>
    refine hupdate ?_ fun _ => rfl
    simp only [run, SyncQueue.markFailed]
    exact written_updateRow _ _ fun _ => rfl
  | parkFailed id error =>
    refine hupdate ?_ fun _ => rfl
    simp only [run, SyncQueue.parkFailed]
    exact written_updateRow _ _ fun _ => rfl
  | recordRowOutcome id outcome reason =>
    refine hupdate ?_ fun _ => rfl
    simp only [run, SyncQueue.recordRowOutcome]
    exact written_updateRow _ _ fun _ => rfl
  | acknowledgeTeamWrite item value teamId projectId snapshots =>
    have hqueue : ((acknowledgeTeamWrite item value teamId projectId snapshots).run env cfg
        ob).queue = (ob.consumeSnapshot item teamId).queue :=
      Outbox.acknowledgeTeamWrite_queue ob item value teamId projectId snapshots
    rw [hqueue]
    refine written_delete _ fun r => ?_
    simp only [removes, QueueRow.written, Prod.mk.injEq]

/-- 呼び出しの列を順に行う。 -/
def runCalls (env : DeliveryEnv δ) (cfg : PushConfig) (ob : Outbox δ) (calls : List QueueCall) :
    Outbox δ :=
  calls.foldl (QueueCall.run env cfg) ob

/-- 行を消す呼び出しが無い。 -/
def Spares (r : QueueRow) (calls : List QueueCall) : Prop :=
  ∀ call ∈ calls, call.removes r = false

theorem runCalls_written {w} :
    (∃ r' ∈ (runCalls env cfg ob calls).queue.rows, r'.written = w)
      ↔ ∃ r ∈ ob.queue.rows, r.written = w ∧ Spares r calls := by
  induction calls generalizing ob with
  | nil =>
    show (∃ r' ∈ ob.queue.rows, r'.written = w) ↔ _
    constructor
    · rintro ⟨r, hr, hw⟩
      exact ⟨r, hr, hw, fun call hcall => absurd hcall List.not_mem_nil⟩
    · rintro ⟨r, hr, hw, -⟩
      exact ⟨r, hr, hw⟩
  | cons call calls ih =>
    show (∃ r' ∈ (runCalls env cfg (call.run env cfg ob) calls).queue.rows, _) ↔ _
    rw [ih]
    constructor
    · rintro ⟨r₁, hr₁, hw, hspares⟩
      obtain ⟨r, hr, hwr, hremoves⟩ := QueueCall.run_written.mp ⟨r₁, hr₁, hw⟩
      refine ⟨r, hr, hwr, fun c hc => ?_⟩
      rcases List.mem_cons.mp hc with rfl | hc
      · exact hremoves
      · rw [QueueCall.removes_congr (hwr.trans hw.symm)]
        exact hspares c hc
    · rintro ⟨r, hr, hw, hspares⟩
      obtain ⟨r₁, hr₁, hw₁⟩ := (@QueueCall.run_written _ _ env cfg _ _ _).mpr
        ⟨r, hr, hw, hspares call List.mem_cons_self⟩
      refine ⟨r₁, hr₁, hw₁, fun c hc => ?_⟩
      rw [QueueCall.removes_congr (hw₁.trans hw.symm)]
      exact hspares c (List.mem_cons_of_mem call hc)

/-- 列の行が呼び出しの列の後に残るのは、それを消す呼び出しが無いときである。 -/
theorem runCalls_keeps_iff (hr : r ∈ ob.queue.rows) :
    (∃ r' ∈ (runCalls env cfg ob calls).queue.rows, r'.id = r.id) ↔ Spares r calls := by
  constructor
  · rintro ⟨r', hr', hid⟩
    obtain ⟨r₀, hr₀, hw, hspares⟩ := runCalls_written.mp ⟨r', hr', rfl⟩
    rw [SyncQueue.eq_of_id hr hr₀ (hid.symm.trans (written_id hw).symm)]
    exact hspares
  · intro hspares
    obtain ⟨r', hr', hw⟩ := (@runCalls_written _ _ env cfg _ _ _).mpr
      ⟨r, hr, rfl, hspares⟩
    exact ⟨r', hr', written_id hw⟩

/-! ## 始末がその行に呼ぶもの -/

section Spares

variable {items : List QueuedSync} {item : QueuedSync}

theorem spares_failAll {diagnostic : String} : Spares r (failAll items diagnostic) := by
  intro call hcall
  obtain ⟨item, -, rfl⟩ := List.mem_map.mp hcall
  rfl

theorem not_spares_markSynced (hid : r.id = item.id) : ¬ Spares r [.markSynced item.id] := by
  intro h
  have hremoves := h (.markSynced item.id) List.mem_cons_self
  simp [QueueCall.removes, hid] at hremoves

theorem not_spares_syncAll (hitem : item ∈ items) (hid : r.id = item.id) :
    ¬ Spares r (syncAll items) := by
  intro h
  refine not_spares_markSynced hid fun call hcall => h call ?_
  rw [List.mem_singleton.mp hcall]
  exact List.mem_map_of_mem hitem

/-- 一件ずつの始末では、その行の分だけを見ればよい。 -/
theorem spares_flatMap_iff {α : Type} {xs : List α} {f : α → List QueueCall} {P : Prop} {x : α}
    (hx : x ∈ xs) (hsame : Spares r (f x) ↔ P)
    (hrest : ∀ y ∈ xs, Spares r (f y) ∨ (Spares r (f y) ↔ P)) :
    Spares r (xs.flatMap f) ↔ P := by
  constructor
  · intro h
    exact hsame.mp fun call hcall => h call (List.mem_flatMap.mpr ⟨x, hx, hcall⟩)
  · intro hP call hcall
    obtain ⟨y, hy, hcall⟩ := List.mem_flatMap.mp hcall
    rcases hrest y hy with hspares | hiff
    · exact hspares call hcall
    · exact hiff.mpr hP call hcall

theorem spares_rejectRow {kind : PushKind} {entityKey rawBody : String} {row : PushRowResult} :
    Spares r (cfg.rejectRow kind entityKey rawBody item row) := by
  intro call hcall
  unfold PushConfig.rejectRow at hcall
  dsimp only at hcall
  rw [List.mem_cons, List.mem_singleton] at hcall
  rcases hcall with rfl | rfl
  · rfl
  · split
    · rfl
    · rfl

/-! ### 行ごとの結果 -/

variable {entityKey rawBody : String} {rows : List PushRowResult} {row : PushRowResult}

theorem settlePersonalRow_spares (hid : r.id ≠ item.id) :
    Spares r (cfg.settlePersonalRow entityKey rawBody rows item) := by
  intro call hcall
  unfold PushConfig.settlePersonalRow at hcall
  split at hcall
  · exact absurd hcall List.not_mem_nil
  · split at hcall
    · rw [List.mem_singleton.mp hcall, QueueCall.removes_markSynced]
      exact decide_eq_false hid
    · exact spares_rejectRow call hcall

theorem settlePersonalRow_spares_iff (hid : r.id = item.id)
    (hrow : (rows.find? fun row => row.id = item.entityId) = some row) :
    Spares r (cfg.settlePersonalRow entityKey rawBody rows item) ↔ row.acknowledges = false := by
  unfold PushConfig.settlePersonalRow
  rw [hrow]
  cases hack : row.acknowledges with
  | true =>
    refine iff_of_false ?_ (by simp)
    simp only [hack, if_true]
    exact not_spares_markSynced hid
  | false =>
    refine iff_of_true ?_ rfl
    simp only [hack, Bool.false_eq_true, if_false]
    exact spares_rejectRow

/-- 受領証を書く呼び出しが行を消すのは、`project_id` が写しのままのときである。 -/
theorem removes_acknowledgeTeamWrite_iff {value : Json} {teamId projectId : String}
    {snapshots : List QueuedSync} (hitem : r.mapRow = item) (hteam : r.teamId = teamId) :
    (QueueCall.acknowledgeTeamWrite item value teamId projectId snapshots).removes r
      ↔ r.projectId = item.projectId := by
  subst hitem hteam
  rw [QueueCall.removes_acknowledgeTeamWrite]
  simp [QueueRow.written, QueueRow.mapRow]

theorem settleTeamRow_spares {teamId : String} {unchanged : Bool} {batch : SubBatch}
    {entry : QueuedSync × Json} (hid : r.id ≠ entry.1.id) :
    Spares r (cfg.settleTeamRow teamId rawBody rows unchanged batch entry) := by
  intro call hcall
  unfold PushConfig.settleTeamRow at hcall
  split at hcall
  · exact absurd hcall List.not_mem_nil
  · split at hcall
    · split at hcall
      · rw [List.mem_singleton.mp hcall, QueueCall.removes_acknowledgeTeamWrite]
        refine decide_eq_false fun hwritten => ?_
        exact hid (congrArg Prod.fst hwritten)
      · rw [List.mem_singleton.mp hcall, QueueCall.removes_markSynced]
        exact decide_eq_false hid
    · exact spares_rejectRow call hcall

/-- team の push が、届いたと答えられた行を列から消すこと。 -/
def TeamConsumes (unchanged : Bool) (r : QueueRow) (row : PushRowResult) : Prop :=
  unchanged → row.outcome = .inserted ∨ row.outcome = .updated → r.projectId = r.mapRow.projectId

theorem settleTeamRow_spares_iff {teamId : String} {unchanged : Bool} {batch : SubBatch}
    {entry : QueuedSync × Json} (hitem : r.mapRow = entry.1) (hteam : r.teamId = teamId)
    (hrow : (rows.find? fun row => row.id = entry.1.entityId) = some row) :
    Spares r (cfg.settleTeamRow teamId rawBody rows unchanged batch entry)
      ↔ ¬ (row.acknowledges ∧ TeamConsumes unchanged r row) := by
  have hid : r.id = entry.1.id := by rw [← hitem]; rfl
  unfold PushConfig.settleTeamRow TeamConsumes
  rw [hrow]
  cases hack : row.acknowledges with
  | false =>
    simp only [hack, Bool.false_eq_true, if_false]
    exact iff_of_true spares_rejectRow fun h => h.1
  | true =>
    by_cases hwrite : unchanged = true ∧ (row.outcome = .inserted ∨ row.outcome = .updated)
    · have hcond : (unchanged && (decide (row.outcome = .inserted)
          || decide (row.outcome = .updated))) = true := by simpa using hwrite
      simp only [hack, if_true, hcond]
      have hremoves := @removes_acknowledgeTeamWrite_iff _ _ entry.2 _ batch.project batch.snapshots hitem hteam
      rw [hitem]
      constructor
      · intro hspares hconsumes
        have hfalse := hspares _ List.mem_cons_self
        rw [hremoves.mpr (hconsumes.2 hwrite.1 hwrite.2)] at hfalse
        cases hfalse
      · intro hnot call hcall
        rw [List.mem_singleton.mp hcall, Bool.eq_false_iff]
        intro htrue
        exact hnot ⟨trivial, fun _ _ => hremoves.mp htrue⟩
    · have hcond : (unchanged && (decide (row.outcome = .inserted)
          || decide (row.outcome = .updated))) = false := by
        rw [Bool.eq_false_iff]
        intro htrue
        exact hwrite (by simpa using htrue)
      simp only [hack, if_true, hcond]
      refine iff_of_false (not_spares_markSynced hid) fun hnot => hnot ⟨trivial, ?_⟩
      exact fun hunchanged houtcome => absurd ⟨hunchanged, houtcome⟩ hwrite

/-! ### 名指し -/

variable {kind : PushKind} {failures : List PushItemizedFailure} {response : BatchResponse}

theorem settleItemized_spares (hid : r.id ≠ item.id) :
    Spares r (settleItemized kind entityKey rawBody failures item) := by
  intro call hcall
  unfold settleItemized at hcall
  dsimp only at hcall
  split at hcall
  · rw [List.mem_singleton.mp hcall, QueueCall.removes_markSynced]
    exact decide_eq_false hid
  all_goals
    rcases List.mem_cons.mp hcall with rfl | hcall
    · rfl
    · cases kind with
      | personal =>
        rw [List.mem_singleton.mp hcall]
        rfl
      | team teamId => exact absurd hcall List.not_mem_nil

/-- 名指された行は消えない。 -/
theorem settleItemized_spares_of_named (h : ∃ f ∈ failures, f.id = item.entityId) :
    Spares r (settleItemized kind entityKey rawBody failures item) := by
  obtain ⟨f, hf, hid⟩ := h
  intro call hcall
  unfold settleItemized at hcall
  dsimp only at hcall
  split at hcall
  next hnone =>
    have hne := List.find?_eq_none.mp hnone f hf
    exact absurd (decide_eq_true hid) hne
  all_goals
    rcases List.mem_cons.mp hcall with rfl | hcall
    · rfl
    · cases kind with
      | personal =>
        rw [List.mem_singleton.mp hcall]
        rfl
      | team teamId => exact absurd hcall List.not_mem_nil

/-- 読めた名指しの列には、その行がある。 -/
def Itemizes (failures : Except String (Option (List PushItemizedFailure))) (id : String) : Prop :=
  ∀ fs, failures = .ok fs → ∃ l, fs = some l ∧ ∃ f ∈ l, f.id = id

theorem itemizedFor_ok {location : String} {fs fs' : Option (List PushItemizedFailure)}
    {skipped : Nat} {queuedIds : List String}
    (h : itemizedFor location fs skipped queuedIds = .ok fs') : fs' = fs := by
  unfold itemizedFor at h
  split at h
  · exact (Except.ok.inj h).symm
  · split at h
    · cases h
    · split at h
      · cases h
      · exact (Except.ok.inj h).symm

theorem itemizedFailuresFor_named {location : String} {skipped : Nat} {queuedIds : List String}
    {fs : Option (List PushItemizedFailure)} {id : String}
    (hnamed : Itemizes response.rejected id ∨ Itemizes response.invalid id)
    (h : itemizedFailuresFor location response skipped queuedIds = .ok fs) :
    ∃ l, fs = some l ∧ ∃ f ∈ l, f.id = id := by
  unfold itemizedFailuresFor at h
  simp only [bind_eq_ok] at h
  obtain ⟨rejected, hrejected, rejections, hrejections, invalid, hinvalid, invalids, hinvalids, h⟩ := h
  obtain rfl := itemizedFor_ok hrejections
  obtain rfl := itemizedFor_ok hinvalids
  have hmem : ∃ f ∈ rejections.getD [] ++ invalids.getD [], f.id = id := by
    rcases hnamed with hnamed | hnamed
    · obtain ⟨l, rfl, f, hf, hid⟩ := hnamed rejections hrejected
      exact ⟨f, List.mem_append_left _ hf, hid⟩
    · obtain ⟨l, rfl, f, hf, hid⟩ := hnamed invalids hinvalid
      exact ⟨f, List.mem_append_right _ hf, hid⟩
  split at h
  · obtain ⟨f, hf, -⟩ := hmem
    exact absurd hf List.not_mem_nil
  · split at h
    · cases h
    · split at h
      · cases h
      · exact ⟨_, (Except.ok.inj h).symm, hmem⟩

/-! ### 数 -/

/-- 名指された行が残るのは、数が零と読めないときである。 -/
theorem settleCounts_spares_iff (hitem : item ∈ items) (hid : r.id = item.id)
    (hothers : ∀ i ∈ items, r.id = i.id → i = item)
    (hnamed : Itemizes response.rejected item.entityId ∨ Itemizes response.invalid item.entityId) :
    Spares r (settleCounts kind entityKey response items) ↔ response.skipped ≠ .ok 0 := by
  unfold settleCounts
  dsimp only
  split
  next e he =>
    rw [he]
    exact iff_of_true spares_failAll nofun
  next he =>
    rw [he]
    exact iff_of_false (not_spares_syncAll hitem hid) fun h => h rfl
  next skipped hzero he =>
    rw [he]
    refine iff_of_true ?_ fun h => hzero (Except.ok.inj h)
    split
    · exact spares_failAll
    · split
      · exact spares_failAll
      next hnone =>
        obtain ⟨l, hl, -⟩ := itemizedFailuresFor_named hnamed hnone
        cases hl
      next failures hsome =>
        obtain ⟨l, hl, hmem⟩ := itemizedFailuresFor_named hnamed hsome
        cases hl
        intro call hcall
        obtain ⟨i, hi, hcall⟩ := List.mem_flatMap.mp hcall
        by_cases hi' : r.id = i.id
        · rw [hothers i hi hi'] at hcall
          exact settleItemized_spares_of_named hmem call hcall
        · exact settleItemized_spares hi' call hcall

end Spares

/-! ## 読んだ返事の始末 -/

/-- 結果の列が、送った行をちょうど覆う。 -/
structure Covers (rows : List PushRowResult) (ids : List String) : Prop where
  nodup : (rows.map PushRowResult.id).Nodup
  mem : ∀ id, id ∈ rows.map PushRowResult.id ↔ id ∈ ids

theorem checkNamed_eq_ok_iff {location : String} {queuedIds names : List String} :
    checkNamed location queuedIds names = .ok () ↔ names.Nodup ∧ names ⊆ queuedIds := by
  induction names with
  | nil => simp [checkNamed]
  | cons id ids ih =>
    unfold checkNamed
    rw [List.nodup_cons, List.cons_subset]
    by_cases hqueued : id ∈ queuedIds
    · by_cases hdup : id ∈ ids
      · simp [hqueued, hdup]
      · simp [hqueued, hdup, ih]
    · simp [hqueued]

theorem rowResultsFor_eq_ok_iff {location : String} {rows rows' : List PushRowResult}
    {queuedIds : List String} :
    rowResultsFor location rows queuedIds = .ok rows' ↔ rows = rows' ∧ Covers rows queuedIds := by
  unfold rowResultsFor
  cases hcheck : checkNamed s!"{location}.rows" queuedIds (rows.map PushRowResult.id) with
  | error e =>
    refine iff_of_false nofun fun h => ?_
    have hok := @checkNamed_eq_ok_iff s!"{location}.rows" _ _ |>.mpr
      ⟨h.2.nodup, fun id hid => (h.2.mem id).mp hid⟩
    rw [hcheck] at hok
    cases hok
  | ok u =>
    obtain ⟨hnodup, hsub⟩ := checkNamed_eq_ok_iff.mp hcheck
    cases hmissing : queuedIds.find? fun id => rows.all fun row => row.id ≠ id with
    | some id =>
      refine iff_of_false (by simp) fun h => ?_
      obtain ⟨row, hrow, hid⟩ :=
        List.mem_map.mp ((h.2.mem id).mpr (List.mem_of_find?_eq_some hmissing))
      have hall := List.find?_some (p := fun id => rows.all fun row => decide (row.id ≠ id)) hmissing
      have hne := List.all_eq_true.mp hall row hrow
      simp [hid] at hne
    | none =>
      have hcovers : Covers rows queuedIds := by
        refine ⟨hnodup, fun id => ⟨fun hid => hsub hid, fun hid => ?_⟩⟩
        have hnot := List.find?_eq_none.mp hmissing id hid
        rw [Bool.not_eq_true, List.all_eq_false] at hnot
        obtain ⟨row, hrow, heq⟩ := hnot
        exact List.mem_map.mpr ⟨row, hrow, by simpa using heq⟩
      simp [hcovers]

/-- 覆われた行の結果は一つである。 -/
theorem Covers.find? {rows : List PushRowResult} {ids : List String} {row : PushRowResult}
    (h : Covers rows ids) (hrow : row ∈ rows) :
    (rows.find? fun row' => row'.id = row.id) = some row := by
  cases hfind : rows.find? fun row' => row'.id = row.id with
  | none => exact absurd (decide_eq_true rfl) (List.find?_eq_none.mp hfind row hrow)
  | some row' =>
    have hid : row'.id = row.id := by simpa using List.find?_some hfind
    rw [List.inj_on_of_nodup_map h.nodup (List.mem_of_find?_eq_some hfind) hrow hid]

/-- 届いたと答えられた行を、push が列から消すこと。 -/
def Consumes (kind : PushKind) (unchanged : Bool) (r : QueueRow) (row : PushRowResult) : Prop :=
  kind ≠ .personal → TeamConsumes unchanged r row

/-- 読んだ返事が行を失うこと。 -/
def BatchResponse.Loses (response : BatchResponse) (kind : PushKind) (batch : SubBatch)
    (r : QueueRow) : Prop :=
  match response.rows with
  | .error _ => False
  | .ok none => response.skipped = .ok 0
  | .ok (some rows) => Covers rows (batch.sent.map QueuedSync.entityId)
    ∧ ∃ row ∈ rows, row.id = r.entityId ∧ row.acknowledges
      ∧ Consumes kind (response.canonicalId.all (· = batch.project)) r row

/-- 送った行が、列にそのまま待っていること。 -/
structure Queued (kind : PushKind) (ob : Outbox δ) (item : QueuedSync) (r : QueueRow) : Prop where
  mem : r ∈ ob.queue.rows
  mapRow : r.mapRow = item
  team : ∀ teamId, kind = .team teamId → r.teamId = teamId

section Response

variable {kind : PushKind} {batch : SubBatch} {response : BatchResponse} {item : QueuedSync}

omit [DecidableEq δ] in
theorem Queued.eq_item {i : QueuedSync} (h : Queued kind ob item r) (h' : Queued kind ob i r')
    (hid : r.id = i.id) : i = item := by
  have hid' : r'.id = i.id := by rw [← h'.mapRow]; rfl
  rw [← h.mapRow, ← h'.mapRow, SyncQueue.eq_of_id h.mem h'.mem (hid.trans hid'.symm)]

omit [DecidableEq δ] in
/-- 列にそのまま待っている行を、始末が消さないのは、読んだ返事がその行を失わないときである。 -/
theorem settleResponse_spares_iff (hqueued : ∀ i ∈ batch.sent, ∃ r, Queued kind ob i r)
    (hitem : item ∈ batch.sent) (hr : Queued kind ob item r)
    (hnamed : response.rows = .ok none →
      Itemizes response.rejected item.entityId ∨ Itemizes response.invalid item.entityId) :
    Spares r (cfg.settleResponse kind batch response) ↔ ¬ response.Loses kind batch r := by
  have hid : r.id = item.id := by rw [← hr.mapRow]; rfl
  have hentity : r.entityId = item.entityId := by rw [← hr.mapRow]; rfl
  have hothers : ∀ i ∈ batch.sent, r.id = i.id → i = item := by
    intro i hi hri
    obtain ⟨r', hr'⟩ := hqueued i hi
    exact hr.eq_item hr' hri
  unfold PushConfig.settleResponse BatchResponse.Loses
  dsimp only
  cases hrows : response.rows with
  | error e => exact iff_of_true spares_failAll not_false
  | ok o =>
    cases o with
    | none => exact settleCounts_spares_iff hitem hid hothers (hnamed hrows)
    | some rows =>
      dsimp only
      cases hcheck : rowResultsFor response.rowsAt rows (batch.sent.map QueuedSync.entityId) with
      | error e =>
        refine iff_of_true spares_failAll fun hloses => ?_
        rw [rowResultsFor_eq_ok_iff.mpr ⟨rfl, hloses.1⟩] at hcheck
        cases hcheck
      | ok rows' =>
        obtain ⟨rfl, hcovers⟩ := rowResultsFor_eq_ok_iff.mp hcheck
        obtain ⟨row, hrow, hrowid⟩ :=
          List.mem_map.mp ((hcovers.mem item.entityId).mpr (List.mem_map_of_mem hitem))
        have hfind : (rows.find? fun row => row.id = item.entityId) = some row := by
          rw [← hrowid]
          exact hcovers.find? hrow
        have hunique : ∀ row' ∈ rows, row'.id = r.entityId → row' = row := by
          intro row' hrow' hid'
          exact List.inj_on_of_nodup_map hcovers.nodup hrow' hrow
            (hid'.trans (hentity.trans hrowid.symm))
        have hloses : (Covers rows (batch.sent.map QueuedSync.entityId)
            ∧ ∃ row ∈ rows, row.id = r.entityId ∧ row.acknowledges
              ∧ Consumes kind (response.canonicalId.all (· = batch.project)) r row)
            ↔ row.acknowledges ∧ Consumes kind (response.canonicalId.all (· = batch.project)) r row := by
          constructor
          · rintro ⟨-, row', hrow', hid', hack, hconsumes⟩
            rw [hunique row' hrow' hid'] at hack hconsumes
            exact ⟨hack, hconsumes⟩
          · rintro ⟨hack, hconsumes⟩
            exact ⟨hcovers, row, hrow, hrowid.trans hentity.symm, hack, hconsumes⟩
        rw [hloses]
        cases kind with
        | personal =>
          refine spares_flatMap_iff hitem ?_ fun i hi => ?_
          · rw [settlePersonalRow_spares_iff hid hfind]
            simp [Consumes]
          · by_cases hi' : r.id = i.id
            · rw [hothers i hi hi', settlePersonalRow_spares_iff hid hfind]
              exact .inr (by simp [Consumes])
            · exact .inl (settlePersonalRow_spares hi')
        | team teamId =>
          obtain ⟨entry, hentry, hfst⟩ := List.mem_map.mp hitem
          have hteam := hr.team teamId rfl
          have hconsumes : ∀ {entry : QueuedSync × Json}, entry.1 = item →
              (Spares r (cfg.settleTeamRow teamId response.rawBody rows
                (response.canonicalId.all (· = batch.project)) batch entry)
              ↔ ¬ (row.acknowledges ∧ Consumes (.team teamId)
                (response.canonicalId.all (· = batch.project)) r row)) := by
            intro entry hfst
            rw [settleTeamRow_spares_iff (hr.mapRow.trans hfst.symm) hteam (by rw [hfst]; exact hfind)]
            simp [Consumes]
          refine spares_flatMap_iff hentry (hconsumes hfst) fun entry' hentry' => ?_
          by_cases hi' : r.id = entry'.1.id
          · exact .inr (hconsumes (hothers _ (List.mem_map_of_mem hentry') hi'))
          · exact .inl (settleTeamRow_spares hi')

end Response

end Cassy
