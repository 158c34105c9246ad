import Cassy.Agent.SpawnQueue
import Cassy.Infra.Lines

/-!
# 依頼の queue の実行

何本の process の文がどう並んでも、次のことが成り立つ。

* 依頼の行は書いた通りに残り、進み具合は戻らず、決まった worker は変わらない（`spawn_rows_advance`）
* 依頼は、待っているか、その session の `poll` が渡したか、印を付けられたか、消されたかである（`spawn_requests_kept`）
* task の並びは失われず、backlog に移されるのは高々一度である（`backlogs_bound_once`）
* backlog の書き戻しは、自分の読んだものだけを置き換える（`saves_replace_read`）

行の文字列については、worker の名がいつ書いた通りに読み戻されるかを示す（`worker_names_roundTrip_iff`）。
-/

namespace Cassy

open Infra

variable {write : Time → String} {s : SpawnState} {a : SpawnAct}
variable {e : SpawnEvent} {db' db : SpawnDb} {key : WorkerKey}

/-! ## worker の名の往復 -/

/-- 名は空でなく、前後に空白が無く、区切りを含まない。 -/
def PlainNames (names : List String) : Prop :=
  ∀ n ∈ names, n ≠ "" ∧ trim n.toList = n.toList ∧ ',' ∉ n.toList

/-- 切った後の並びは、区切りを含まない。 -/
theorem of_mem_splitOnP {p : Char → Bool} {t part : Text} (h : part ∈ t.splitOnP p) : ∀ c ∈ part, p c = false := by
  induction t generalizing part with
  | nil =>
    rw [List.splitOnP_nil, List.mem_singleton] at h
    rw [h]
    exact fun c hc => absurd hc List.not_mem_nil
  | cons x t ih =>
    rw [List.splitOnP_cons_eq_if_modifyHead] at h
    split at h
    · rcases List.mem_cons.mp h with rfl | h
      · exact fun c hc => absurd hc List.not_mem_nil
      · exact ih h
    · next hx =>
      cases hparts : t.splitOnP p with
      | nil => exact absurd hparts (List.splitOnP_ne_nil p t)
      | cons u rest =>
        rw [hparts] at h ih
        rcases List.mem_cons.mp h with rfl | h
        · intro c hc
          rcases List.mem_cons.mp hc with rfl | hc
          · exact eq_false_of_ne_true hx
          · exact ih List.mem_cons_self c hc
        · exact ih (List.mem_cons_of_mem u h)

theorem mem_of_mem_trim {c : Char} {t : Text} (h : c ∈ trim t) : c ∈ t := by
  unfold trim trimEnd trimStart at h
  have hend := (List.dropWhile_suffix _).subset (List.mem_reverse.mp h)
  exact (List.dropWhile_suffix _).subset (List.mem_reverse.mp hend)

/-- 読んだ名は、空でなく、前後に空白が無く、区切りを含まない。 -/
theorem plainNames_parseWorkerNames (names : Option String) : PlainNames (parseWorkerNames names) := by
  intro n hn
  cases names with
  | none => cases hn
  | some text =>
    obtain ⟨hn, hne⟩ := List.mem_filter.mp hn
    obtain ⟨part, hpart, rfl⟩ := List.mem_map.mp hn
    refine ⟨of_decide_eq_true hne, ?_, fun hc => ?_⟩
    · rw [String.toList_ofList, trim_idem]
    · rw [String.toList_ofList] at hc
      have hsep := of_mem_splitOnP hpart ',' (mem_of_mem_trim hc)
      exact absurd rfl (of_decide_eq_false hsep)

theorem parseWorkerNames_joinWorkerNames {names : List String} (h : PlainNames names) :
    parseWorkerNames (joinWorkerNames names) = names := by
  cases names with
  | nil => rfl
  | cons n rest =>
    have hjoin : joinWorkerNames (n :: rest)
        = some (String.ofList ([','].intercalate ((n :: rest).map String.toList))) := rfl
    have hsplit : ([','].intercalate ((n :: rest).map String.toList)).splitOn ','
        = (n :: rest).map String.toList := by
      refine List.splitOn_intercalate ',' (fun t ht => ?_) (List.cons_ne_nil _ _)
      obtain ⟨m, hm, rfl⟩ := List.mem_map.mp ht
      exact (h m hm).2.2
    rw [hjoin, parseWorkerNames, String.toList_ofList]
    change (((([','].intercalate ((n :: rest).map String.toList)).splitOn ',').map _).filter _) = _
    rw [hsplit, List.map_map]
    have hmap : ∀ m ∈ n :: rest, ((fun t => String.ofList (trim t)) ∘ String.toList) m = m := by
      intro m hm
      rw [Function.comp_apply, (h m hm).2.1, String.ofList_toList]
    rw [List.map_congr_left hmap, List.map_id', List.filter_eq_self]
    exact fun m hm => decide_eq_true (h m hm).1

/--
依頼の worker の名が書いた通りに読み戻されるのは、どの名も空でなく、前後に空白が無く、区切りを含まないときであり、そのときに限る。
-/
theorem worker_names_roundTrip_iff (names : List String) :
    parseWorkerNames (joinWorkerNames names) = names ↔ PlainNames names := by
  refine ⟨fun h => ?_, parseWorkerNames_joinWorkerNames⟩
  have hplain := plainNames_parseWorkerNames (joinWorkerNames names)
  rw [h] at hplain
  exact hplain

/-! ## 行の移り -/

namespace SpawnRow

/-- 書いたばかりの行。 -/
def fresh (r : SpawnRow) : SpawnRow :=
  { r with
    processedAt := none, spawnState := none, spawnWorker := none, spawnDetail := none, spawnStateAt := none }

/-- `r` の、後の姿。 -/
structure Later (r r' : SpawnRow) : Prop where
  /-- 依頼は変わらない。 -/
  request : r'.fresh = r.fresh
  /-- 一度付いた印は外れない。 -/
  processed : r.processedAt.isSome = true → r'.processedAt.isSome = true
  rank : r.state.rank ≤ r'.state.rank
  /-- 一度決まった worker は変わらない。 -/
  worker : ∀ w, r.spawnWorker = some w → r'.spawnWorker = some w
  /-- 終わった依頼の報せは変わらない。 -/
  closed : r.state.rank = 4 →
    r'.spawnState = r.spawnState ∧ r'.spawnDetail = r.spawnDetail ∧ r'.spawnStateAt = r.spawnStateAt

theorem Later.refl (r : SpawnRow) : r.Later r :=
  ⟨rfl, fun h => h, Nat.le_refl _, fun _ h => h, fun _ => ⟨rfl, rfl, rfl⟩⟩

theorem rank_le (s : SpawnLifecycleState) : s.rank ≤ 4 := by cases s <;> decide

theorem Later.trans {r r' r'' : SpawnRow} (h : r.Later r') (h' : r'.Later r'') : r.Later r'' where
  request := h'.request.trans h.request
  processed hp := h'.processed (h.processed hp)
  rank := Nat.le_trans h.rank h'.rank
  worker w hw := h'.worker w (h.worker w hw)
  closed := by
    intro hr
    obtain ⟨hstate, hdetail, hat⟩ := h.closed hr
    have hrank := h.rank
    have hle := rank_le r'.state
    obtain ⟨hstate', hdetail', hat'⟩ := h'.closed (by omega)
    exact ⟨hstate'.trans hstate, hdetail'.trans hdetail, hat'.trans hat⟩

theorem later_processed (r : SpawnRow) (now : Time) : r.Later { r with processedAt := some now } :=
  ⟨rfl, fun _ => rfl, Nat.le_refl _, fun _ h => h, fun _ => ⟨rfl, rfl, rfl⟩⟩

theorem later_advance {r : SpawnRow} {id : Nat} {state : SpawnLifecycleState} {worker detail : Option String}
    {now : Time} (h : r.advances id state = true) : r.Later (r.advance state worker detail now) := by
  rw [advances, Bool.and_eq_true] at h
  have hrank : r.spawnState = none ∨ r.state.rank < state.rank := by
    unfold SpawnRow.state
    cases hs : r.spawnState with
    | none => exact .inl rfl
    | some old => exact .inr (by simpa [hs] using h.2)
  constructor
  · rfl
  · exact fun hp => hp
  · show r.state.rank ≤ state.rank
    rcases hrank with hnone | hlt
    · rw [SpawnRow.state, hnone]
      exact Nat.zero_le _
    · exact Nat.le_of_lt hlt
  · intro w hw
    show r.spawnWorker.or worker = some w
    rw [hw, Option.some_or]
  · -- 終わった行より先の位は無い
    intro hr
    rcases hrank with hnone | hlt
    · rw [SpawnRow.state, hnone] at hr
      cases hr
    · have hle := rank_le state
      omega

end SpawnRow

/-- 番号の付いた行の移り。消えた行は戻らない。 -/
def Follows : Option SpawnRow → Option SpawnRow → Prop
  | none, some _ => False
  | some r, some r' => r.Later r'
  | _, none => True

theorem Follows.refl (r : Option SpawnRow) : Follows r r := by
  cases r with
  | none => trivial
  | some r => exact SpawnRow.Later.refl r

theorem Follows.trans {r r' r'' : Option SpawnRow} (h : Follows r r') (h' : Follows r' r'') : Follows r r'' := by
  cases r'' with
  | none => cases r <;> trivial
  | some x'' =>
    cases r' with
    | none => exact h'.elim
    | some x' =>
      cases r with
      | none => exact h.elim
      | some x => exact SpawnRow.Later.trans h h'

/-- `db` の番号の付いた行の、`db'` での姿。 -/
structure SpawnDb.Grows (db db' : SpawnDb) : Prop where
  nextId : db.nextId ≤ db'.nextId
  rows : ∀ id, id < db.nextId → Follows (db.requests.find? id) (db'.requests.find? id)

namespace SpawnDb

variable {db db' : SpawnDb}

theorem Grows.refl (db : SpawnDb) : db.Grows db := ⟨Nat.le_refl _, fun _ _ => .refl _⟩

theorem Grows.trans {db'' : SpawnDb} (h : db.Grows db') (h' : db'.Grows db'') : db.Grows db'' :=
  ⟨Nat.le_trans h.nextId h'.nextId,
    fun id hid => (h.rows id hid).trans (h'.rows id (Nat.lt_of_lt_of_le hid h.nextId))⟩

theorem Grows.of_eq (hnext : db'.nextId = db.nextId) (hrows : db'.requests = db.requests) : db.Grows db' :=
  ⟨Nat.le_of_eq hnext.symm, fun id _ => by rw [hrows]; exact .refl _⟩

/-- backlog の書き込みは、依頼に触らない。 -/
theorem saveQueue_requests (db : SpawnDb) (key : WorkerKey) (q : WorkerTaskQueue) :
    (db.saveQueue key q).2.nextId = db.nextId ∧ (db.saveQueue key q).2.requests = db.requests
      ∧ (db.saveQueue key q).2.taskQueues = db.taskQueues := by
  unfold saveQueue
  dsimp only
  split
  · split
    · split <;> exact ⟨rfl, rfl, rfl⟩
    · split <;> exact ⟨rfl, rfl, rfl⟩
  · exact ⟨rfl, rfl, rfl⟩

theorem bindSpawn_requests (db : SpawnDb) (request : Nat) (key : WorkerKey) :
    (db.bindSpawn request key).2.nextId = db.nextId ∧ (db.bindSpawn request key).2.requests = db.requests := by
  unfold bindSpawn
  split
  · exact ⟨rfl, rfl⟩
  · dsimp only
    split <;> exact ⟨rfl, rfl⟩

end SpawnDb

/-! ## 一歩のすること -/

/-- 実行の一項。 -/
abbrev SpawnEvent := Event SpawnState SpawnAct SpawnReply

/-- 依頼 `r` を書いた。 -/
def Enqueued (e : SpawnEvent) (r : SpawnRow) : Prop :=
  ∃ d, e.op.op = .enqueue d ∧ e.result = .id r.id ∧ r.fresh = d.row r.id e.op.now

/-- `session` の `poll` が、行 `r` の依頼を渡した。 -/
def Hands (e : SpawnEvent) (session : String) (r : SpawnRow) : Prop :=
  e.op.op = .mark ∧ ∃ rows, (e.before.procs e.op.proc).polled = some (session, rows) ∧ r ∈ rows
    ∧ e.result = .requests (rows.map SpawnRow.request)

/-- 依頼が待つのを終えた。 -/
def RetiresRequest (e : SpawnEvent) (id : Nat) : Prop :=
  (∃ session r, Hands e session r ∧ r.id = id) ∨ e.op.op = .markProcessed id ∨ e.op.op = .clear

/-- 依頼に番号 `id` を付けた。 -/
def Numbers (e : SpawnEvent) (id : Nat) : Prop := (∃ d, e.op.op = .enqueue d) ∧ e.result = .id id

/-- 依頼は、書かれた後に待つのを終えた。 -/
def RetiredSince (log : List SpawnEvent) (id : Nat) : Prop :=
  ∃ before e after, log = before ++ e :: after ∧ (∃ e' ∈ before, Numbers e' id) ∧ RetiresRequest e id

theorem RetiredSince.append {log : List SpawnEvent} {id : Nat} (h : RetiredSince log id)
    (more : List SpawnEvent) : RetiredSince (log ++ more) id := by
  obtain ⟨before, e, after, rfl, hnumbers, hretires⟩ := h
  exact ⟨before, e, after ++ more, by rw [List.append_assoc, List.cons_append], hnumbers, hretires⟩

/-- 一歩が依頼の表にすること。 -/
inductive SpawnMoves (e : SpawnEvent) (db' : SpawnDb) : Prop where
  | same (hnext : db'.nextId = e.before.db.nextId) (hrows : db'.requests = e.before.db.requests)
  | enqueued (d : SpawnDraft) (hop : e.op.op = .enqueue d) (hid : e.result = .id e.before.db.nextId)
      (hnext : db'.nextId = e.before.db.nextId + 1)
      (hrows : db'.requests = e.before.db.requests.insertOrIgnore (d.row e.before.db.nextId e.op.now))
  | updated (p : SpawnRow → Bool) (f : SpawnRow → SpawnRow) (hf : ∀ r, (f r).id = r.id)
      (hnext : db'.nextId = e.before.db.nextId) (hrows : db'.requests = e.before.db.requests.update p f hf)
      (hlater : ∀ r, p r = true → r.Later (f r))
      (hkept : ∀ r, p r = true → (f r).processedAt = r.processedAt ∨ RetiresRequest e r.id)
  | deleted (p : SpawnRow → Bool) (hnext : db'.nextId = e.before.db.nextId)
      (hrows : db'.requests = e.before.db.requests.delete p)
      (hkept : ∀ r, p r = true → r.processedAt.isSome = true ∨ RetiresRequest e r.id)

/-- 一歩の記録。 -/
def spawnEvent (write : Time → String) (s : SpawnState) (a : SpawnAct) : SpawnEvent :=
  ⟨s, a, (spawnStep write s a).1⟩

theorem spawnMoves_step (s : SpawnState) (a : SpawnAct) :
    SpawnMoves (spawnEvent write s a) (spawnStep write s a).2.db := by
  obtain ⟨proc, now, op⟩ := a
  cases op with
  | enqueue d => exact .enqueued d rfl rfl rfl rfl
  | select session limit | getQueue key | stop => exact .same rfl rfl
  | mark =>
    cases hpolled : (s.procs proc).polled with
    | none =>
      simp only [spawnStep, hpolled]
      exact .same rfl rfl
    | some polled =>
      obtain ⟨session, rows⟩ := polled
      have hres : (spawnStep write s ⟨proc, now, .mark⟩).1 = .requests (rows.map SpawnRow.request) := by
        simp only [spawnStep, hpolled]
      have hdb : (spawnStep write s ⟨proc, now, .mark⟩).2.db = s.db.markPolled (rows.map SpawnRow.id) now := by
        simp only [spawnStep, hpolled]
        rfl
      rw [hdb]
      refine .updated (fun r => r.id ∈ rows.map SpawnRow.id) (fun r => { r with processedAt := some now })
        (fun _ => rfl) rfl rfl (fun r _ => r.later_processed now) ?_
      intro r hr
      obtain ⟨r₀, hr₀, hid⟩ := List.mem_map.mp (of_decide_eq_true hr)
      exact .inr (.inl ⟨session, r₀, ⟨rfl, rows, hpolled, hr₀, hres⟩, hid⟩)
  | markProcessed id =>
    refine .updated (fun r => r.id = id) (fun r => { r with processedAt := some now })
      (fun _ => rfl) rfl rfl (fun r _ => r.later_processed now) ?_
    intro r hr
    exact .inr (.inr (.inl (congrArg SpawnOp.markProcessed (of_decide_eq_true hr).symm)))
  | recordSpawnState id state worker detail =>
    exact .updated (SpawnRow.advances id state) (SpawnRow.advance state worker detail now)
      (fun _ => rfl) rfl rfl (fun r hr => SpawnRow.later_advance hr) (fun _ _ => .inl rfl)
  | clear => exact .deleted (fun _ => true) rfl rfl fun _ _ => .inr (.inr (.inr rfl))
  | cleanupOld secs =>
    refine .deleted (SpawnDb.isOld write secs now) rfl rfl fun r hr => .inl ?_
    unfold SpawnDb.isOld at hr
    cases hp : r.processedAt with
    | none =>
      rw [hp] at hr
      cases hr
    | some t => rfl
  | recordLimitEpisode episode detail =>
    simp only [spawnStep, SpawnDb.recordLimitEpisode]
    split <;> exact .same rfl rfl
  | saveQueue edit =>
    simp only [spawnStep]
    split
    · exact .same rfl rfl
    · next key copy _ =>
      obtain ⟨hnext, hrows, -⟩ := s.db.saveQueue_requests key { edit with revision := copy.revision }
      split
      · exact .same rfl rfl
      · next hsave =>
        rw [hsave] at hnext hrows
        exact .same hnext hrows
  | bindSpawn request key =>
    obtain ⟨hnext, hrows⟩ := s.db.bindSpawn_requests request key
    simp only [spawnStep]
    split
    · exact .same rfl rfl
    · next hbind =>
      rw [hbind] at hnext hrows
      exact .same hnext hrows

/-! ## 行の姿 -/

theorem SpawnMoves.grows (h : SpawnMoves e db') : e.before.db.Grows db' := by
  cases h with
  | same hnext hrows => exact .of_eq hnext hrows
  | enqueued d hop hid hnext hrows =>
    refine ⟨by omega, fun id hlt => ?_⟩
    have hne : ¬ (d.row e.before.db.nextId e.op.now).id = id := Nat.ne_of_gt hlt
    rw [hrows, Table.find?_insertOrIgnore, if_neg hne, Option.or_none]
    exact .refl _
  | updated p f hf hnext hrows hlater hkept =>
    refine ⟨Nat.le_of_eq hnext.symm, fun id _ => ?_⟩
    rw [hrows, Table.find?_update]
    cases e.before.db.requests.find? id with
    | none => trivial
    | some r =>
      show r.Later (if p r then f r else r)
      split
      · next hp => exact hlater r hp
      · exact .refl r
  | deleted p hnext hrows hkept =>
    refine ⟨Nat.le_of_eq hnext.symm, fun id _ => ?_⟩
    rw [hrows, Table.find?_delete]
    cases e.before.db.requests.find? id with
    | none => trivial
    | some r =>
      rw [Option.filter_some]
      split
      · exact .refl r
      · trivial

/--
どの実行の途中からその先へも、番号の付いた依頼は書いた通りに残るか消えるかであり、消えた番号は使い回されない。進み具合は戻らず、
決まった worker は変わらず、終わった依頼の報せは変わらない。
-/
theorem spawn_rows_advance (write : Time → String) (s : SpawnState) (as : List SpawnAct) :
    s.db.Grows (run (spawnStep write) s as).db := by
  induction as generalizing s with
  | nil => exact .refl s.db
  | cons a as ih => exact (spawnMoves_step s a).grows.trans (ih (spawnStep write s a).2)

/-! ## 依頼の行方 -/

/-- 依頼が待っている。 -/
def SpawnDb.Pending (db : SpawnDb) (id : Nat) : Prop :=
  ∃ r, db.requests.find? id = some r ∧ r.processedAt = none

/-- 実行の間の、依頼の扱い。 -/
structure RequestsKept (log : List SpawnEvent) (s : SpawnState) : Prop where
  /-- 書いた依頼は、待っているか、書いた後に待つのを終えた。 -/
  kept : ∀ id, 1 ≤ id → id < s.db.nextId → s.db.Pending id ∨ RetiredSince log id
  /-- 渡した依頼は、書いた通りの、その session のものである。 -/
  handed : ∀ e ∈ log, ∀ session r, Hands e session r →
    r.processedAt = none ∧ r.servedBy session = true ∧ ∃ e' ∈ log, Enqueued e' r

structure SpawnInv (log : List SpawnEvent) (s : SpawnState) : Prop extends RequestsKept log s where
  numbered : ∀ id, 1 ≤ id → id < s.db.nextId → ∃ e ∈ log, Numbers e id
  rows : ∀ r ∈ s.db.requests.rows, r.id < s.db.nextId ∧ ∃ e ∈ log, Enqueued e r
  polled : ∀ p session rows, (s.procs p).polled = some (session, rows) → ∀ r ∈ rows,
    r.processedAt = none ∧ r.servedBy session = true ∧ ∃ e ∈ log, Enqueued e r

theorem Enqueued.congr {r r' : SpawnRow} (h : Enqueued e r) (hr : r'.fresh = r.fresh) :
    Enqueued e r' := by
  obtain ⟨d, hop, hres, hfresh⟩ := h
  have hid : r'.fresh.id = r.fresh.id := congrArg SpawnRow.id hr
  change r'.id = r.id at hid
  exact ⟨d, hop, by rw [hres, hid], by rw [hr, hfresh, hid]⟩

/-- `poll` の選ぶ行は、その session の待っている依頼である。 -/
theorem mem_pendingFor {session : String} {limit : Nat} {r : SpawnRow}
    (h : r ∈ db.pendingFor write session limit) :
    r ∈ db.requests.rows ∧ r.processedAt = none ∧ r.servedBy session = true := by
  have hsorted := List.mem_of_mem_take h
  rw [List.mem_insertionSort, List.mem_filter] at hsorted
  obtain ⟨hmem, hp⟩ := hsorted
  rw [Bool.and_eq_true, Option.isNone_iff_eq_none] at hp
  exact ⟨hmem, hp.1, hp.2⟩

/-- 一歩の後の行は、書いたばかりの行か、前の行の後の姿である。 -/
theorem SpawnMoves.mem (h : SpawnMoves e db') {r' : SpawnRow} (hr' : r' ∈ db'.requests.rows) :
    (∃ d, e.op.op = .enqueue d ∧ e.result = .id e.before.db.nextId ∧ db'.nextId = e.before.db.nextId + 1
      ∧ r' = d.row e.before.db.nextId e.op.now) ∨
    ∃ r ∈ e.before.db.requests.rows, r'.fresh = r.fresh := by
  cases h with
  | same hnext hrows => exact .inr ⟨r', hrows ▸ hr', rfl⟩
  | enqueued d hop hid hnext hrows =>
    rw [hrows] at hr'
    rcases Table.mem_insertOrIgnore hr' with hold | rfl
    · exact .inr ⟨r', hold, rfl⟩
    · exact .inl ⟨d, hop, hid, hnext, rfl⟩
  | updated p f hf hnext hrows hlater hkept =>
    rw [hrows] at hr'
    obtain ⟨r, hr, rfl⟩ := Table.mem_update.mp hr'
    refine .inr ⟨r, hr, ?_⟩
    split
    · next hp => exact (hlater r hp).request
    · rfl
  | deleted p hnext hrows hkept =>
    rw [hrows] at hr'
    exact .inr ⟨r', (Table.mem_delete.mp hr').1, rfl⟩

/-- 待っている依頼は、一歩の後も待っているか、その一歩で待つのを終える。 -/
theorem SpawnMoves.pending (h : SpawnMoves e db') {id : Nat} (hp : e.before.db.Pending id) :
    db'.Pending id ∨ RetiresRequest e id := by
  obtain ⟨r, hr, hnone⟩ := hp
  have hid : r.id = id := Table.key_of_find? hr
  cases h with
  | same hnext hrows => exact .inl ⟨r, by rw [hrows]; exact hr, hnone⟩
  | enqueued d hop hres hnext hrows =>
    refine .inl ⟨r, ?_, hnone⟩
    rw [hrows, Table.find?_insertOrIgnore, hr, Option.some_or]
  | updated p f hf hnext hrows hlater hkept =>
    cases hpr : p r with
    | false => exact .inl ⟨r, by rw [hrows, Table.find?_update, hr]; simp [hpr], hnone⟩
    | true =>
      rcases hkept r hpr with hsame | hretires
      · exact .inl ⟨f r, by rw [hrows, Table.find?_update, hr]; simp [hpr], hsame.trans hnone⟩
      · exact .inr (hid ▸ hretires)
  | deleted p hnext hrows hkept =>
    cases hpr : p r with
    | false => exact .inl ⟨r, by rw [hrows, Table.find?_delete, hr]; simp [Option.filter, hpr], hnone⟩
    | true =>
      rcases hkept r hpr with hsome | hretires
      · rw [hnone] at hsome
        cases hsome
      · exact .inr (hid ▸ hretires)

/-- 番号を増やした一歩は、その番号を付け、その後その番号の依頼は待っている。 -/
theorem SpawnMoves.pending_new (h : SpawnMoves e db')
    (hrows : ∀ r ∈ e.before.db.requests.rows, r.id < e.before.db.nextId) {id : Nat}
    (hle : e.before.db.nextId ≤ id) (hlt : id < db'.nextId) : Numbers e id ∧ db'.Pending id := by
  cases h with
  | same hnext _ | updated _ _ _ hnext _ _ _ | deleted _ hnext _ _ => omega
  | enqueued d hop hres hnext hrows' =>
    have hid : id = e.before.db.nextId := by omega
    subst hid
    have hnone : e.before.db.requests.find? e.before.db.nextId = none :=
      Table.find?_eq_none_iff.mpr fun r hr => Nat.ne_of_lt (hrows r hr)
    refine ⟨⟨⟨d, hop⟩, hres⟩, d.row e.before.db.nextId e.op.now, ?_, rfl⟩
    rw [hrows', Table.find?_insertOrIgnore, hnone, Option.none_or]
    exact if_pos rfl

/-- 手元のものを書き換えても、ほかの process のものは変わらない。 -/
theorem SpawnState.of_setProc {P : SpawnProc → Prop} {p q : Nat} {x : SpawnProc}
    (h : P ((s.setProc q x).procs p)) : (p = q ∧ P x) ∨ P (s.procs p) := by
  by_cases hq : p = q
  · subst hq
    exact .inl ⟨rfl, by simpa [SpawnState.setProc] using h⟩
  · exact .inr (by simpa [SpawnState.setProc, Function.update_of_ne hq] using h)

/-- `poll` の読む文のほかは、手元の行を増やさない。 -/
theorem polled_step {p : Nat} {session : String} {rows : List SpawnRow}
    (h : ((spawnStep write s a).2.procs p).polled = some (session, rows)) :
    (s.procs p).polled = some (session, rows) ∨ ∃ limit, rows = s.db.pendingFor write session limit := by
  have hset {q : Nat} {x : SpawnProc} {s' : SpawnState}
      (hx : ((s'.setProc q x).procs p).polled = some (session, rows)) :=
    SpawnState.of_setProc (P := fun x => x.polled = some (session, rows)) hx
  obtain ⟨proc, now, op⟩ := a
  cases op with
  | enqueue d | markProcessed id | recordSpawnState id state worker detail | clear | cleanupOld secs
  | recordLimitEpisode episode detail => exact .inl h
  | select session' limit =>
    rcases hset h with ⟨-, hx⟩ | hold
    · cases hx
      exact .inr ⟨limit, rfl⟩
    · exact .inl hold
  | mark =>
    simp only [spawnStep] at h
    split at h
    · exact .inl h
    · rcases hset h with ⟨-, hx⟩ | hold
      · cases hx
      · exact .inl hold
  | getQueue key =>
    rcases hset h with ⟨rfl, hx⟩ | hold
    · exact .inl hx
    · exact .inl hold
  | saveQueue edit =>
    simp only [spawnStep] at h
    split at h
    · exact .inl h
    · split at h
      · exact .inl h
      · rcases hset h with ⟨rfl, hx⟩ | hold
        · exact .inl hx
        · exact .inl hold
  | bindSpawn request key =>
    simp only [spawnStep] at h
    split at h <;> exact .inl h
  | stop =>
    rcases hset h with ⟨-, hx⟩ | hold
    · cases hx
    · exact .inl hold

theorem SpawnInv.step {log : List SpawnEvent} (hi : SpawnInv log s) (a : SpawnAct) :
    SpawnInv (log ++ [spawnEvent write s a]) (spawnStep write s a).2 := by
  have hmoves : SpawnMoves (spawnEvent write s a) (spawnStep write s a).2.db := spawnMoves_step s a
  set e := spawnEvent write s a with he
  set s' := (spawnStep write s a).2 with hs'
  have hold : ∀ {r : SpawnRow}, (∃ e' ∈ log, Enqueued e' r) → ∃ e' ∈ log ++ [e], Enqueued e' r := by
    rintro r ⟨e', he', hr⟩
    exact ⟨e', List.mem_append_left _ he', hr⟩
  have hnext : s.db.nextId ≤ s'.db.nextId := hmoves.grows.nextId
  have hnew : ∀ {id : Nat}, ¬ id < s.db.nextId → id < s'.db.nextId →
      Numbers e id ∧ s'.db.Pending id := fun hid hlt =>
    hmoves.pending_new (fun r hr => (hi.rows r hr).1) (Nat.not_lt.mp hid) hlt
  constructor
  · constructor
    · -- 前からの番号は前の状態から、新しい番号はこの一歩から
      intro id hone hlt
      by_cases hid : id < s.db.nextId
      · rcases hi.kept id hone hid with hp | hretired
        · rcases hmoves.pending hp with hp' | hr
          · exact .inl hp'
          · exact .inr ⟨log, e, [], rfl, hi.numbered id hone hid, hr⟩
        · exact .inr (hretired.append [e])
      · exact .inl (hnew hid hlt).2
    · -- 渡す行は、読んだ時に待っていた
      intro e' he' session r hands
      rcases List.mem_append.mp he' with hlog | hlast
      · obtain ⟨hnone, hserved, henq⟩ := hi.handed e' hlog session r hands
        exact ⟨hnone, hserved, hold henq⟩
      · rw [List.mem_singleton.mp hlast] at hands
        obtain ⟨-, rows, hpolled, hr, -⟩ := hands
        obtain ⟨hnone, hserved, henq⟩ := hi.polled _ session rows hpolled r hr
        exact ⟨hnone, hserved, hold henq⟩
  · intro id hone hlt
    by_cases hid : id < s.db.nextId
    · obtain ⟨e', he', hnumbers⟩ := hi.numbered id hone hid
      exact ⟨e', List.mem_append_left _ he', hnumbers⟩
    · exact ⟨e, List.mem_append_right _ (List.mem_singleton_self e), (hnew hid hlt).1⟩
  · intro r' hr'
    rcases hmoves.mem hr' with ⟨d, hop, hres, hsucc, rfl⟩ | ⟨r, hr, hfresh⟩
    · exact ⟨by rw [hsucc]; exact Nat.lt_succ_self _, e, List.mem_append_right _ (List.mem_singleton_self e),
        d, hop, hres, rfl⟩
    · obtain ⟨hlt, henq⟩ := hi.rows r hr
      have hid : r'.fresh.id = r.fresh.id := congrArg SpawnRow.id hfresh
      obtain ⟨e', he', hr'⟩ := hold henq
      exact ⟨Nat.lt_of_lt_of_le (hid ▸ hlt) hnext, e', he', hr'.congr hfresh⟩
  · intro p session rows hpolled r hr
    rcases polled_step hpolled with hsame | ⟨limit, rfl⟩
    · obtain ⟨hnone, hserved, henq⟩ := hi.polled p session rows hsame r hr
      exact ⟨hnone, hserved, hold henq⟩
    · obtain ⟨hmem, hnone, hserved⟩ := mem_pendingFor hr
      exact ⟨hnone, hserved, hold (hi.rows r hmem).2⟩

theorem SpawnInv.init : SpawnInv [] {} := by
  refine ⟨⟨fun id hone hlt => ?_, fun e he => absurd he List.not_mem_nil⟩, fun id hone hlt => ?_,
    fun r hr => ?_, ?_⟩
  · exact absurd hlt (Nat.not_lt.mpr hone)
  · exact absurd hlt (Nat.not_lt.mpr hone)
  · cases hr
  · intro p session rows hpolled
    cases hpolled

/--
どの実行でも、書いた依頼は、待っているか、書いた後に、`poll` が渡したか、印を付けられたか、消されたかである。`poll` の渡した依頼は、
書いた通りの、その session かどの session でもない依頼である。
-/
theorem spawn_requests_kept (write : Time → String) (as : List SpawnAct) :
    RequestsKept (trace (spawnStep write) {} as) (run (spawnStep write) {} as) :=
  (trace_invariant (K := SpawnInv) (fun _ _ a hi => hi.step a) SpawnInv.init as).toRequestsKept

/-! ## backlog への操作 -/

theorem saveQueue_eq_some {q next : WorkerTaskQueue} (h : db.saveQueue key q = (some next, db')) :
    next = { q with revision := q.revision + 1 } ∧ db'.taskQueues = db.taskQueues
      ∧ (q.revision = 0 ∧ db.workerQueues.find? key = none
        ∨ ∃ r, db.workerQueues.find? key = some r ∧ r.revision = q.revision)
      ∧ ∀ k, db'.workerQueues.find? k
        = if key = k then some ⟨key.1, key.2, next.revision, next⟩ else db.workerQueues.find? k := by
  unfold SpawnDb.saveQueue at h
  dsimp only at h
  split at h
  · split at h
    · next hzero =>
      split at h
      · next workerQueues hins =>
        cases h
        exact ⟨rfl, rfl, .inl ⟨hzero, (Table.insert?_eq_some hins).1⟩, Table.find?_insert? hins⟩
      · cases h
    · split at h
      · next hcount =>
        cases h
        obtain ⟨r, hr, hp⟩ := Table.count_pos_iff.mp (hcount ▸ Nat.one_pos)
        rw [Bool.and_eq_true, decide_eq_true_iff, decide_eq_true_iff] at hp
        have hfind : db.workerQueues.find? key = some r := hp.1 ▸ Table.find?_of_mem hr
        refine ⟨rfl, rfl, .inr ⟨r, hfind, hp.2⟩, fun k => ?_⟩
        have hkey : ∀ x : WorkerQueueRow, (x.key = key && x.revision = q.revision) = true → x.key = key := by
          intro x hx
          rw [Bool.and_eq_true, decide_eq_true_iff] at hx
          exact hx.1
        refine (Table.find?_update_key
          (f := fun r => { r with revision := q.revision + 1, state := { q with revision := q.revision + 1 } })
          (fun _ => rfl) hfind hkey (by simp [hp]) k).trans ?_
        rw [← hp.1]
        rfl
      · cases h
  · cases h

/-- `request` の並びを移した後の database。 -/
structure SpawnDb.Bound (db db' : SpawnDb) (request : Nat) (key : WorkerKey) (q : SpawnTaskQueue) : Prop where
  waiting : db.taskQueues.find? request = some q
  unbound : q.boundWorker = none
  taskQueues : ∀ id, db'.taskQueues.find? id
    = if request = id then some { q with boundWorker := some key.2 } else db.taskQueues.find? id
  workerQueues : ∃ revision, ((db.workerQueues.find? key).map (·.revision)).getD 0 < revision ∧
    ∀ k, db'.workerQueues.find? k
      = if key = k then some ⟨key.1, key.2, revision, SpawnDb.boundQueue q.taskIds revision⟩
        else db.workerQueues.find? k

theorem bindSpawn_eq_some {request : Nat} (h : db.bindSpawn request key = (some (), db')) :
    (db' = db ∧ ∀ q, db.taskQueues.find? request = some q → q.boundWorker ≠ none)
      ∨ ∃ q, db.Bound db' request key q := by
  unfold SpawnDb.bindSpawn at h
  split at h
  · next hnone =>
    cases h
    refine .inl ⟨rfl, fun q hq hunbound => ?_⟩
    rw [hq, Option.filter_some, hunbound] at hnone
    cases hnone
  · next q hq =>
    obtain ⟨hq, hunbound⟩ := Option.filter_eq_some_iff.mp hq
    rw [Option.isNone_iff_eq_none] at hunbound
    dsimp only at h
    split at h
    · cases h
      refine .inr ⟨q, hq, hunbound, fun id => ?_, _, Nat.lt_succ_self _, fun k => Table.find?_insertOrReplace⟩
      exact Table.find?_update_key (f := fun r : SpawnTaskQueue => { r with boundWorker := some key.2 })
        (fun _ => rfl) hq (fun x hx => of_decide_eq_true hx) (decide_eq_true (Table.key_of_find? hq)) id
    · cases h

/-! ## task の並びの行方 -/

/-- 依頼 `request` の並び `ids` を、`key` の worker に移した。 -/
def BindsTasks (e : SpawnEvent) (request : Nat) (key : WorkerKey) (ids : List String) : Prop :=
  e.op.op = .bindSpawn request key ∧ e.result = .unit ∧
    ∃ q, e.before.db.taskQueues.find? request = some q ∧ q.boundWorker = none ∧ q.taskIds = ids

/-- 依頼 `request` に並び `ids` を付けた。 -/
def Attaches (e : SpawnEvent) (request : Nat) (ids : List String) : Prop :=
  e.result = .id request ∧ ∃ d, e.op.op = .enqueue d ∧ d.taskIds = ids

/-- 一歩が、並びと backlog の表にすること。 -/
inductive BacklogMoves (e : SpawnEvent) (db' : SpawnDb) : Prop where
  | same (htasks : db'.taskQueues = e.before.db.taskQueues) (hrows : db'.workerQueues = e.before.db.workerQueues)
      (hattach : ∀ request ids, Attaches e request ids → ids = [])
      (hsave : ∀ edit next, e.op.op = .saveQueue edit → e.result ≠ .queue next)
      (hbind : ∀ request key ids, ¬ BindsTasks e request key ids)
  | attached (d : SpawnDraft) (hop : e.op.op = .enqueue d) (hattach : Attaches e e.before.db.nextId d.taskIds)
      (hnext : db'.nextId = e.before.db.nextId + 1) (hrows : db'.workerQueues = e.before.db.workerQueues)
      (htasks : db'.taskQueues
        = e.before.db.taskQueues.insertOrIgnore { requestId := e.before.db.nextId, taskIds := d.taskIds })
  | saved (edit next : WorkerTaskQueue) (key : WorkerKey) (copy : WorkerTaskQueue)
      (hop : e.op.op = .saveQueue edit) (hres : e.result = .queue next)
      (hcopy : (e.before.procs e.op.proc).copy = some (key, copy))
      (hnext : next = { edit with revision := copy.revision + 1 })
      (hread : copy.revision = 0 ∧ e.before.db.workerQueues.find? key = none
        ∨ ∃ r, e.before.db.workerQueues.find? key = some r ∧ r.revision = copy.revision)
      (htasks : db'.taskQueues = e.before.db.taskQueues)
      (hrows : ∀ k, db'.workerQueues.find? k
        = if key = k then some ⟨key.1, key.2, next.revision, next⟩ else e.before.db.workerQueues.find? k)
  | bound (request : Nat) (key : WorkerKey) (q : SpawnTaskQueue) (hop : e.op.op = .bindSpawn request key)
      (hres : e.result = .unit) (hbound : e.before.db.Bound db' request key q)

theorem Attaches.op {request : Nat} {ids : List String} (h : Attaches e request ids) :
    ∃ d, e.op.op = .enqueue d := by
  obtain ⟨-, d, hop, -⟩ := h
  exact ⟨d, hop⟩

/-- 並びか backlog を書く操作。 -/
def SpawnOp.writesBacklog : SpawnOp → Bool
  | .enqueue _ | .saveQueue _ | .bindSpawn _ _ => true
  | _ => false

/-- 並びも backlog も書かない一歩は、表を変えない。 -/
theorem BacklogMoves.of_other (htasks : db'.taskQueues = e.before.db.taskQueues)
    (hrows : db'.workerQueues = e.before.db.workerQueues) (hother : e.op.op.writesBacklog = false) :
    BacklogMoves e db' := by
  refine .same htasks hrows ?_ ?_ ?_
  · intro request ids hattach
    obtain ⟨d, hop⟩ := hattach.op
    rw [hop] at hother
    cases hother
  · intro edit next hop
    rw [hop] at hother
    cases hother
  · rintro request key ids ⟨hop, -⟩
    rw [hop] at hother
    cases hother

theorem backlogMoves_step (s : SpawnState) (a : SpawnAct) :
    BacklogMoves (spawnEvent write s a) (spawnStep write s a).2.db := by
  obtain ⟨proc, now, op⟩ := a
  cases op with
  | enqueue d =>
    have hdb : (spawnStep write s ⟨proc, now, .enqueue d⟩).2.db = (s.db.enqueue d now).2 := rfl
    rw [hdb, SpawnDb.enqueue]
    by_cases hempty : d.taskIds.isEmpty = true
    · refine .same (if_pos hempty) rfl ?_ ?_ ?_
      · rintro request ids ⟨-, d', hop, rfl⟩
        cases hop
        exact List.isEmpty_iff.mp hempty
      · intro edit next hop
        cases hop
      · rintro request key ids ⟨hop, -⟩
        cases hop
    · exact .attached d rfl ⟨rfl, d, rfl, rfl⟩ rfl rfl (if_neg hempty)
  | select session limit | markProcessed id | recordSpawnState id state worker detail | clear | cleanupOld secs
  | getQueue key | stop => exact .of_other rfl rfl rfl
  | mark =>
    refine .of_other ?_ ?_ rfl <;>
    · simp only [spawnStep]
      split <;> rfl
  | recordLimitEpisode episode detail =>
    refine .of_other ?_ ?_ rfl <;>
    · simp only [spawnStep, SpawnDb.recordLimitEpisode]
      split <;> rfl
  | saveQueue edit =>
    -- 断られた書き戻しは、何も変えない
    have hrefused (hdb : (spawnStep write s ⟨proc, now, .saveQueue edit⟩).2.db = s.db)
        (hres : (spawnStep write s ⟨proc, now, .saveQueue edit⟩).1 = .refused) :
        BacklogMoves (spawnEvent write s ⟨proc, now, .saveQueue edit⟩)
          (spawnStep write s ⟨proc, now, .saveQueue edit⟩).2.db := by
      refine .same (congrArg SpawnDb.taskQueues hdb) (congrArg SpawnDb.workerQueues hdb) ?_ ?_ ?_
      · intro request ids hattach
        obtain ⟨d, hop⟩ := hattach.op
        cases hop
      · intro edit' next _ hqueue
        cases hres.symm.trans hqueue
      · rintro request key ids ⟨hop, -⟩
        cases hop
    cases hcopy : (s.procs proc).copy with
    | none =>
      refine hrefused ?_ ?_ <;> simp only [spawnStep, hcopy]
    | some mine =>
      obtain ⟨key, copy⟩ := mine
      cases hsave : s.db.saveQueue key { edit with revision := copy.revision } with
      | mk saved db' =>
        cases saved with
        | none => refine hrefused ?_ ?_ <;> simp only [spawnStep, hcopy, hsave]
        | some next =>
          obtain ⟨hnext, htasks, hread, hrows⟩ := saveQueue_eq_some hsave
          have hdb : (spawnStep write s ⟨proc, now, .saveQueue edit⟩).2.db = db' := by
            simp only [spawnStep, hcopy, hsave]
            rfl
          rw [hdb]
          refine .saved edit next key copy rfl ?_ hcopy hnext hread htasks hrows
          simp only [spawnEvent, spawnStep, hcopy, hsave]
  | bindSpawn request key =>
    have hattach : ∀ request' ids, Attaches (spawnEvent write s ⟨proc, now, .bindSpawn request key⟩) request' ids →
        ids = [] := by
      intro request' ids hattach
      obtain ⟨d, hop⟩ := hattach.op
      cases hop
    have hsave : ∀ edit next, (spawnEvent write s ⟨proc, now, .bindSpawn request key⟩).op.op = .saveQueue edit →
        (spawnEvent write s ⟨proc, now, .bindSpawn request key⟩).result ≠ .queue next := by
      intro edit next hop
      cases hop
    cases hbind : s.db.bindSpawn request key with
    | mk done db' =>
      cases done with
      | none =>
        have hdb : (spawnStep write s ⟨proc, now, .bindSpawn request key⟩).2.db = s.db := by
          simp only [spawnStep, hbind]
        refine .same (congrArg SpawnDb.taskQueues hdb) (congrArg SpawnDb.workerQueues hdb) hattach hsave ?_
        rintro request' key' ids ⟨-, hres, -⟩
        simp only [spawnEvent, spawnStep, hbind] at hres
        cases hres
      | some u =>
        have hdb : (spawnStep write s ⟨proc, now, .bindSpawn request key⟩).2.db = db' := by
          simp only [spawnStep, hbind]
        rw [hdb]
        rcases bindSpawn_eq_some hbind with ⟨rfl, hnone⟩ | ⟨q, hbound⟩
        · refine .same rfl rfl hattach hsave ?_
          rintro request' key' ids ⟨hop, -, q, hq, hunbound, -⟩
          cases hop
          exact hnone q hq hunbound
        · refine .bound request key q rfl ?_ hbound
          simp only [spawnEvent, spawnStep, hbind]

/-- 実行の間の、task の並びの扱い。 -/
structure BacklogsKept (log : List SpawnEvent) (s : SpawnState) : Prop where
  /-- 依頼に付けた並びは失われない。 -/
  kept : ∀ e ∈ log, ∀ request ids, Attaches e request ids → ids ≠ [] →
    ∃ q, s.db.taskQueues.find? request = some q ∧ q.taskIds = ids
  /-- 残っている並びは依頼に付けられたもので、待っているか、その worker に移された。 -/
  rows : ∀ request q, s.db.taskQueues.find? request = some q →
    (∃ e ∈ log, Attaches e request q.taskIds) ∧
    (∀ worker, q.boundWorker = some worker → ∃ e ∈ log, ∃ session, BindsTasks e request (session, worker) q.taskIds)
  /-- 並びは高々一度だけ移される。 -/
  once : log.Pairwise fun e e' => ∀ request key ids key' ids',
    BindsTasks e request key ids → ¬ BindsTasks e' request key' ids'

structure BacklogInv (log : List SpawnEvent) (s : SpawnState) : Prop extends BacklogsKept log s where
  fresh : ∀ request q, s.db.taskQueues.find? request = some q → request < s.db.nextId
  bound : ∀ e ∈ log, ∀ request key ids, BindsTasks e request key ids →
    ∃ q, s.db.taskQueues.find? request = some q ∧ q.boundWorker ≠ none

theorem BacklogInv.init : BacklogInv [] {} := by
  have hnone (request : Nat) : ({} : SpawnState).db.taskQueues.find? request = none := rfl
  have hempty {request : Nat} {q : SpawnTaskQueue} {P : Prop}
      (h : ({} : SpawnState).db.taskQueues.find? request = some q) : P := by
    rw [hnone] at h
    cases h
  exact ⟨⟨fun e he => absurd he List.not_mem_nil, fun _ _ h => hempty h, .nil⟩, fun _ _ h => hempty h,
    fun e he => absurd he List.not_mem_nil⟩

section BacklogMoves

variable {e : SpawnEvent} {db' : SpawnDb} {request : Nat} {key : WorkerKey} {ids : List String}
  {q q' : SpawnTaskQueue}

/-- 並びは残り、移された先は変わらない。 -/
theorem BacklogMoves.keeps (h : BacklogMoves e db') (hq : e.before.db.taskQueues.find? request = some q) :
    ∃ q', db'.taskQueues.find? request = some q' ∧ q'.taskIds = q.taskIds
      ∧ (q.boundWorker ≠ none → q'.boundWorker ≠ none) := by
  cases h with
  | same htasks _ _ _ _ | saved _ _ _ _ _ _ _ _ _ htasks _ =>
    exact ⟨q, by rw [htasks]; exact hq, rfl, fun hb => hb⟩
  | attached d hop hattach hnext hrows htasks =>
    refine ⟨q, ?_, rfl, fun hb => hb⟩
    rw [htasks, Table.find?_insertOrIgnore, hq, Option.some_or]
  | bound request' key q₀ hop hres hbound =>
    by_cases hid : request' = request
    · subst hid
      have hsame : q = q₀ := Option.some.inj (hq.symm.trans hbound.waiting)
      subst hsame
      exact ⟨{ q with boundWorker := some key.2 }, by rw [hbound.taskQueues, if_pos rfl], rfl,
        fun _ => Option.some_ne_none key.2⟩
    · exact ⟨q, by rw [hbound.taskQueues, if_neg hid]; exact hq, rfl, fun hb => hb⟩

/-- 一歩の後の並びは、前からのものか、付けられたか、移されたかである。 -/
theorem BacklogMoves.origin (h : BacklogMoves e db') (hq : db'.taskQueues.find? request = some q') :
    e.before.db.taskQueues.find? request = some q'
      ∨ (Attaches e request q'.taskIds ∧ q'.boundWorker = none ∧ request < db'.nextId)
      ∨ ∃ q key, e.before.db.taskQueues.find? request = some q ∧ q' = { q with boundWorker := some key.2 }
        ∧ BindsTasks e request key q.taskIds := by
  cases h with
  | same htasks _ _ _ _ | saved _ _ _ _ _ _ _ _ _ htasks _ => exact .inl (htasks ▸ hq)
  | attached d hop hattach hnext hrows htasks =>
    rw [htasks, Table.find?_insertOrIgnore] at hq
    cases hold : e.before.db.taskQueues.find? request with
    | some q =>
      rw [hold, Option.some_or] at hq
      exact .inl hq
    | none =>
      rw [hold, Option.none_or] at hq
      split at hq
      · next hid =>
        cases hq
        change e.before.db.nextId = request at hid
        subst hid
        exact .inr (.inl ⟨hattach, rfl, by omega⟩)
      · cases hq
  | bound request' key q₀ hop hres hbound =>
    rw [hbound.taskQueues] at hq
    split at hq
    · next hid =>
      subst hid
      cases hq
      exact .inr (.inr ⟨q₀, key, hbound.waiting, rfl, hop, hres, q₀, hbound.waiting, hbound.unbound, rfl⟩)
    · exact .inl hq

/-- 付けた並びは、一歩の後に待っている。 -/
theorem BacklogMoves.attaches (h : BacklogMoves e db')
    (hfresh : e.before.db.taskQueues.find? e.before.db.nextId = none) (hattach : Attaches e request ids)
    (hids : ids ≠ []) : ∃ q, db'.taskQueues.find? request = some q ∧ q.taskIds = ids := by
  cases h with
  | same _ _ hempty _ _ => exact absurd (hempty request ids hattach) hids
  | attached d hop hnew hnext hrows htasks =>
    obtain ⟨hres, d', hop', rfl⟩ := hattach
    have hid : request = e.before.db.nextId := SpawnReply.id.inj (hres.symm.trans hnew.1)
    have hdraft : d' = d := SpawnOp.enqueue.inj (hop'.symm.trans hop)
    refine ⟨{ requestId := e.before.db.nextId, taskIds := d.taskIds }, ?_, by rw [hdraft]⟩
    rw [htasks, Table.find?_insertOrIgnore, hid, hfresh, Option.none_or]
    exact if_pos rfl
  | saved _ _ _ _ hop _ _ _ _ _ _ | bound _ _ _ hop _ _ =>
    obtain ⟨d, hop'⟩ := hattach.op
    rw [hop] at hop'
    cases hop'

/-- 移した並びには、移した先が書かれる。 -/
theorem BacklogMoves.binds (h : BacklogMoves e db') (hbinds : BindsTasks e request key ids) :
    ∃ q, e.before.db.Bound db' request key q ∧ q.taskIds = ids := by
  cases h with
  | same _ _ _ _ hbind => exact absurd hbinds (hbind request key ids)
  | attached _ hop _ _ _ _ | saved _ _ _ _ hop _ _ _ _ _ _ =>
    rw [hbinds.1] at hop
    cases hop
  | bound request' key' q hop hres hbound =>
    obtain ⟨hop', -, q', hq', -, rfl⟩ := hbinds
    rw [hop] at hop'
    cases hop'
    exact ⟨q, hbound, congrArg SpawnTaskQueue.taskIds (Option.some.inj (hbound.waiting.symm.trans hq'))⟩

end BacklogMoves

theorem BacklogInv.step {log : List SpawnEvent} (hi : BacklogInv log s) (a : SpawnAct) :
    BacklogInv (log ++ [spawnEvent write s a]) (spawnStep write s a).2 := by
  have hmoves : BacklogMoves (spawnEvent write s a) (spawnStep write s a).2.db := backlogMoves_step s a
  have hnext : s.db.nextId ≤ (spawnStep write s a).2.db.nextId := (spawnMoves_step s a).grows.nextId
  have hfresh : s.db.taskQueues.find? s.db.nextId = none := by
    cases hq : s.db.taskQueues.find? s.db.nextId with
    | none => rfl
    | some q => exact absurd (hi.fresh _ q hq) (Nat.lt_irrefl _)
  refine ⟨⟨?_, ?_, ?_⟩, ?_, ?_⟩
  · -- 新しい並びは、まだ使われていない番号に入る
    intro e he request ids hattach hids
    rcases List.mem_append.mp he with hlog | hlast
    · obtain ⟨q, hq, rfl⟩ := hi.kept e hlog request ids hattach hids
      obtain ⟨q', hq', htasks, -⟩ := hmoves.keeps hq
      exact ⟨q', hq', htasks⟩
    · rw [List.mem_singleton.mp hlast] at hattach
      exact hmoves.attaches hfresh hattach hids
  · intro request q' hq'
    rcases hmoves.origin hq' with hold | ⟨hattach, hunbound, -⟩ | ⟨q, key, hq, rfl, hbinds⟩
    · obtain ⟨⟨e, he, hattach⟩, hbound⟩ := hi.rows request q' hold
      refine ⟨⟨e, List.mem_append_left _ he, hattach⟩, fun worker hworker => ?_⟩
      obtain ⟨e', he', session, hbinds⟩ := hbound worker hworker
      exact ⟨e', List.mem_append_left _ he', session, hbinds⟩
    · refine ⟨⟨_, List.mem_append_right _ (List.mem_singleton_self _), hattach⟩, fun worker hworker => ?_⟩
      rw [hunbound] at hworker
      cases hworker
    · obtain ⟨⟨e, he, hattach⟩, -⟩ := hi.rows request q hq
      refine ⟨⟨e, List.mem_append_left _ he, hattach⟩, fun worker hworker => ?_⟩
      cases hworker
      exact ⟨_, List.mem_append_right _ (List.mem_singleton_self _), key.1, hbinds⟩
  · -- 移された並びには移した先が書かれていて、二度は選ばれない
    refine List.pairwise_append.mpr ⟨hi.once, List.pairwise_singleton _ _, ?_⟩
    intro e he e' he' request key ids key' ids' hbinds hagain
    rw [List.mem_singleton.mp he'] at hagain
    obtain ⟨q, hq, hbound⟩ := hi.bound e he request key ids hbinds
    obtain ⟨-, -, q', hq', hunbound, -⟩ := hagain
    have hsame : q = q' := Option.some.inj (hq.symm.trans hq')
    exact hbound (hsame ▸ hunbound)
  · intro request q' hq'
    rcases hmoves.origin hq' with hold | ⟨-, -, hlt⟩ | ⟨q, key, hq, -, -⟩
    · exact Nat.lt_of_lt_of_le (hi.fresh request q' hold) hnext
    · exact hlt
    · exact Nat.lt_of_lt_of_le (hi.fresh request q hq) hnext
  · intro e he request key ids hbinds
    rcases List.mem_append.mp he with hlog | hlast
    · obtain ⟨q, hq, hbound⟩ := hi.bound e hlog request key ids hbinds
      obtain ⟨q', hq', -, hkept⟩ := hmoves.keeps hq
      exact ⟨q', hq', hkept hbound⟩
    · rw [List.mem_singleton.mp hlast] at hbinds
      obtain ⟨q, hbound, -⟩ := hmoves.binds hbinds
      exact ⟨{ q with boundWorker := some key.2 }, by rw [hbound.taskQueues, if_pos rfl],
        Option.some_ne_none key.2⟩

/--
どの実行でも、依頼に付けた task の並びは失われず、待っているか、書かれた worker に移されている。並びが移されるのは高々一度である。
-/
theorem backlogs_bound_once (write : Time → String) (as : List SpawnAct) :
    BacklogsKept (trace (spawnStep write) {} as) (run (spawnStep write) {} as) :=
  (trace_invariant (K := BacklogInv) (fun _ _ a hi => hi.step a) BacklogInv.init as).toBacklogsKept

/-! ## backlog の書き戻し -/

/-- 手元の backlog は、今の backlog か、それより古いものである。 -/
def SpawnDb.Covers (db : SpawnDb) (key : WorkerKey) (q : WorkerTaskQueue) : Prop :=
  q.revision ≤ (db.getQueue key).revision ∧ (q.revision = (db.getQueue key).revision → q = db.getQueue key)

/-- 書かれた `revision` は行と backlog で等しい。 -/
def WorkerQueueRow.Stamped (r : WorkerQueueRow) : Prop := r.state.revision = r.revision ∧ 0 < r.revision

structure CopyInv (s : SpawnState) : Prop where
  rows : ∀ key r, s.db.workerQueues.find? key = some r → r.Stamped
  copies : ∀ p key q, (s.procs p).copy = some (key, q) → s.db.Covers key q

theorem getQueue_of_find? {r : WorkerQueueRow} (h : db.workerQueues.find? key = some r) :
    db.getQueue key = r.state := by
  rw [SpawnDb.getQueue, h, Option.map_some, Option.getD_some]

theorem getQueue_of_none (h : db.workerQueues.find? key = none) : db.getQueue key = {} := by
  rw [SpawnDb.getQueue, h, Option.map_none, Option.getD_none]

/-- 行の `revision` は、今の backlog の `revision` である。 -/
theorem revision_getQueue (h : ∀ r, db.workerQueues.find? key = some r → r.Stamped) :
    (db.getQueue key).revision = ((db.workerQueues.find? key).map (·.revision)).getD 0 := by
  cases hr : db.workerQueues.find? key with
  | none => rw [getQueue_of_none hr, Option.map_none, Option.getD_none]
  | some r => rw [getQueue_of_find? hr, Option.map_some, Option.getD_some, (h r hr).1]

/-- 書き戻しに成功したのは、手元の backlog が今の backlog であるときである。 -/
theorem SpawnDb.Covers.eq_of_read {q : WorkerTaskQueue} (h : db.Covers key q)
    (hrows : ∀ r, db.workerQueues.find? key = some r → r.Stamped)
    (hread : q.revision = 0 ∧ db.workerQueues.find? key = none
      ∨ ∃ r, db.workerQueues.find? key = some r ∧ r.revision = q.revision) :
    db.getQueue key = q := by
  have hrevision := revision_getQueue hrows
  refine (h.2 ?_).symm
  -- 挿せたなら行は無く、書き換えられたなら `revision` は等しい
  rcases hread with ⟨hzero, hnone⟩ | ⟨r, hr, hsame⟩
  · rw [hrevision, hnone, hzero, Option.map_none, Option.getD_none]
  · rw [hrevision, hr, ← hsame, Option.map_some, Option.getD_some]

section Revisions

variable {e : SpawnEvent} {db' : SpawnDb}

theorem BacklogMoves.stamped (h : BacklogMoves e db')
    (hrows : ∀ key r, e.before.db.workerQueues.find? key = some r → r.Stamped) (k : WorkerKey)
    (r : WorkerQueueRow) (hr : db'.workerQueues.find? k = some r) : r.Stamped := by
  cases h with
  | same _ hsame _ _ _ | attached _ _ _ _ hsame _ => exact hrows k r (hsame ▸ hr)
  | saved edit next key copy hop hres hcopy hnext hread htasks hspec =>
    rw [hspec] at hr
    split at hr
    · cases hr
      exact ⟨rfl, by rw [hnext]; exact Nat.succ_pos _⟩
    · exact hrows k r hr
  | bound request key q hop hres hbound =>
    obtain ⟨revision, hlt, hspec⟩ := hbound.workerQueues
    rw [hspec] at hr
    split at hr
    · cases hr
      exact ⟨rfl, Nat.zero_lt_of_lt hlt⟩
    · exact hrows k r hr

/-- 一歩で、backlog は変わらないか、`revision` が増える。 -/
theorem BacklogMoves.advances (h : BacklogMoves e db')
    (hrows : ∀ key r, e.before.db.workerQueues.find? key = some r → r.Stamped) (k : WorkerKey) :
    db'.getQueue k = e.before.db.getQueue k
      ∨ (e.before.db.getQueue k).revision < (db'.getQueue k).revision := by
  cases h with
  | same _ hsame _ _ _ | attached _ _ _ _ hsame _ => exact .inl (by rw [SpawnDb.getQueue, hsame]; rfl)
  | saved edit next key copy hop hres hcopy hnext hread htasks hspec =>
    by_cases hk : key = k
    · subst hk
      have hnew := getQueue_of_find? ((hspec key).trans (if_pos rfl))
      refine .inr ?_
      rw [hnew, hnext, revision_getQueue (hrows key)]
      rcases hread with ⟨hzero, hnone⟩ | ⟨r, hr, hsame⟩
      · rw [hnone]
        exact Nat.succ_pos _
      · rw [hr, Option.map_some, Option.getD_some, hsame]
        exact Nat.lt_succ_self _
    · exact .inl (by rw [SpawnDb.getQueue, hspec, if_neg hk]; rfl)
  | bound request key q hop hres hbound =>
    obtain ⟨revision, hlt, hspec⟩ := hbound.workerQueues
    by_cases hk : key = k
    · subst hk
      have hnew := getQueue_of_find? ((hspec key).trans (if_pos rfl))
      refine .inr ?_
      rw [hnew, revision_getQueue (hrows key)]
      exact hlt
    · exact .inl (by rw [SpawnDb.getQueue, hspec, if_neg hk]; rfl)

end Revisions

/-- 手元の backlog は、前からのものか、今の backlog である。 -/
theorem copy_step {p : Nat} {q : WorkerTaskQueue}
    (h : ((spawnStep write s a).2.procs p).copy = some (key, q)) :
    (s.procs p).copy = some (key, q) ∨ (spawnStep write s a).2.db.getQueue key = q := by
  have hset {p' : Nat} {x : SpawnProc} {s' : SpawnState}
      (hx : ((s'.setProc p' x).procs p).copy = some (key, q)) :=
    SpawnState.of_setProc (P := fun x => x.copy = some (key, q)) hx
  obtain ⟨proc, now, op⟩ := a
  cases op with
  | enqueue d | markProcessed id | recordSpawnState id state worker detail | clear | cleanupOld secs
  | recordLimitEpisode episode detail => exact .inl h
  | select session limit =>
    rcases hset h with ⟨rfl, hx⟩ | hold
    · exact .inl hx
    · exact .inl hold
  | mark =>
    simp only [spawnStep] at h
    split at h
    · exact .inl h
    · rcases hset h with ⟨rfl, hx⟩ | hold
      · exact .inl hx
      · exact .inl hold
  | getQueue key' =>
    rcases hset h with ⟨rfl, hx⟩ | hold
    · cases hx
      exact .inr rfl
    · exact .inl hold
  | saveQueue edit =>
    cases hcopy : (s.procs proc).copy with
    | none =>
      simp only [spawnStep, hcopy] at h
      exact .inl h
    | some mine =>
      obtain ⟨key', copy⟩ := mine
      cases hsave : s.db.saveQueue key' { edit with revision := copy.revision } with
      | mk saved db' =>
        cases saved with
        | none =>
          simp only [spawnStep, hcopy, hsave] at h
          exact .inl h
        | some next =>
          simp only [spawnStep, hcopy, hsave] at h ⊢
          rcases hset h with ⟨rfl, hx⟩ | hold
          · cases hx
            obtain ⟨-, -, -, hrows⟩ := saveQueue_eq_some hsave
            exact .inr (getQueue_of_find? ((hrows _).trans (if_pos rfl)))
          · exact .inl hold
  | bindSpawn request key' =>
    simp only [spawnStep] at h
    split at h <;> exact .inl h
  | stop =>
    rcases hset h with ⟨-, hx⟩ | hold
    · cases hx
    · exact .inl hold

theorem CopyInv.step (hi : CopyInv s) (a : SpawnAct) : CopyInv (spawnStep write s a).2 := by
  have hmoves : BacklogMoves (spawnEvent write s a) (spawnStep write s a).2.db := backlogMoves_step s a
  refine ⟨hmoves.stamped hi.rows, fun p key q hcopy => ?_⟩
  rcases copy_step hcopy with hold | rfl
  · -- backlog が書かれていれば、前からの手元のものは古い
    obtain ⟨hle, heq⟩ := hi.copies p key q hold
    rcases hmoves.advances hi.rows key with hsame | hlt
    · rw [SpawnDb.Covers, hsame]
      exact ⟨hle, heq⟩
    · have hbelow : q.revision < ((spawnStep write s a).2.db.getQueue key).revision := Nat.lt_of_le_of_lt hle hlt
      exact ⟨Nat.le_of_lt hbelow, fun hsame => absurd hsame (Nat.ne_of_lt hbelow)⟩
  · exact ⟨Nat.le_refl _, fun _ => rfl⟩

/-- 一歩の、backlog の書き方。 -/
structure BacklogWrites (write : Time → String) (e : SpawnEvent) : Prop where
  /-- 書き戻しは、自分の読んだ backlog だけを置き換える。 -/
  saved : ∀ edit next, e.op.op = .saveQueue edit → e.result = .queue next → ∃ key copy,
    (e.before.procs e.op.proc).copy = some (key, copy) ∧ e.before.db.getQueue key = copy
      ∧ next = { edit with revision := copy.revision + 1 }
      ∧ ∀ k, (spawnStep write e.before e.op).2.db.getQueue k = if key = k then next else e.before.db.getQueue k
  /-- 並びは、その worker の backlog に、付けられた順に移される。 -/
  bound : ∀ request key ids, BindsTasks e request key ids → ∃ revision,
    (e.before.db.getQueue key).revision < revision
      ∧ ∀ k, (spawnStep write e.before e.op).2.db.getQueue k
        = if key = k then SpawnDb.boundQueue ids revision else e.before.db.getQueue k
  /-- ほかの一歩は backlog に触らない。 -/
  other : (∀ edit next, e.op.op = .saveQueue edit → e.result ≠ .queue next) →
    (∀ request key ids, ¬ BindsTasks e request key ids) →
    ∀ k, (spawnStep write e.before e.op).2.db.getQueue k = e.before.db.getQueue k

theorem getQueue_of_spec {r : WorkerQueueRow}
    (h : ∀ k, db'.workerQueues.find? k = if key = k then some r else db.workerQueues.find? k)
    (k : WorkerKey) : db'.getQueue k = if key = k then r.state else db.getQueue k := by
  rw [SpawnDb.getQueue, h]
  split <;> rfl

theorem CopyInv.writes (hi : CopyInv s) (a : SpawnAct) : BacklogWrites write (spawnEvent write s a) := by
  have hmoves : BacklogMoves (spawnEvent write s a) (spawnStep write s a).2.db := backlogMoves_step s a
  cases hmoves with
  | same htasks hrows hattach hsave hbind =>
    refine ⟨fun edit next hop hres => absurd hres (hsave edit next hop),
      fun request key ids hbinds => absurd hbinds (hbind request key ids), fun _ _ k => ?_⟩
    exact congrArg (fun t => ((t.find? k).map WorkerQueueRow.state).getD {}) hrows
  | attached d hop hattach hnext hrows htasks =>
    refine ⟨fun edit next hop' => ?_, fun request key ids hbinds => ?_, fun _ _ k => ?_⟩
    · rw [hop] at hop'
      cases hop'
    · rw [hbinds.1] at hop
      cases hop
    · exact congrArg (fun t => ((t.find? k).map WorkerQueueRow.state).getD {}) hrows
  | saved edit next key copy hop hres hcopy hnext hread htasks hspec =>
    refine ⟨?_, ?_, fun hnone => absurd hres (hnone edit next hop)⟩
    · intro edit' next' hop' hres'
      rw [hop] at hop'
      rw [hres] at hres'
      cases hop'
      cases hres'
      exact ⟨key, copy, hcopy, (hi.copies _ key copy hcopy).eq_of_read (hi.rows key) hread, hnext,
        getQueue_of_spec hspec⟩
    · rintro request key' ids ⟨hop', -⟩
      rw [hop] at hop'
      cases hop'
  | bound request key q hop hres hbound =>
    have hbinds {request' : Nat} {key' : WorkerKey} {ids : List String}
        (h : BindsTasks (spawnEvent write s a) request' key' ids) : key = key' ∧ q.taskIds = ids := by
      obtain ⟨hop', -, q', hq', -, rfl⟩ := h
      rw [hop] at hop'
      cases hop'
      exact ⟨rfl, congrArg SpawnTaskQueue.taskIds (Option.some.inj (hbound.waiting.symm.trans hq'))⟩
    obtain ⟨revision, hlt, hspec⟩ := hbound.workerQueues
    refine ⟨?_, ?_, fun _ hnone => ?_⟩
    · intro edit next hop'
      rw [hop] at hop'
      cases hop'
    · intro request' key' ids h
      obtain ⟨rfl, rfl⟩ := hbinds h
      exact ⟨revision, (revision_getQueue (hi.rows key)).trans_lt hlt, getQueue_of_spec hspec⟩
    · exact absurd ⟨hop, hres, q, hbound.waiting, hbound.unbound, rfl⟩ (hnone request key q.taskIds)

theorem CopyInv.init : CopyInv {} := by
  refine ⟨fun key r hr => ?_, fun p key q hcopy => ?_⟩
  · have hnone : ({} : SpawnState).db.workerQueues.find? key = none := rfl
    rw [hnone] at hr
    cases hr
  · cases hcopy

/-- どの実行でも、backlog の書き戻しは自分の読んだものだけを置き換え、並びは一つの backlog に移され、ほかの一歩は backlog に触らない。 -/
theorem saves_replace_read (write : Time → String) (as : List SpawnAct) :
    (trace (spawnStep write) {} as).Forall (BacklogWrites write) := by
  refine List.forall_iff_forall_mem.mpr fun e he => ?_
  obtain ⟨pre, post, -, hbefore, hres⟩ := exists_split_of_mem_trace he
  have hi : CopyInv e.before := by
    rw [hbefore]
    exact run_invariant' (I := CopyInv) (fun _ a hi => hi.step a) CopyInv.init
  have hevent : spawnEvent write e.before e.op = e := by
    rw [spawnEvent, ← hres]
  exact hevent ▸ hi.writes e.op

end Cassy
