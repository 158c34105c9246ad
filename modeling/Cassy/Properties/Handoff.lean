import Cassy.Infra.Run
import Cassy.Agent.Continuity

/-!
# 引き継ぎは一つの世代だけが引き取る

`capture`・`claim`・`mark queued` をどう並べても、その間に `agents` がどう書き換わっても、
一つの写しについて次が成り立つことを示す。

* 写しは最初に書かれたもののままである
* 理由は、分からないものから分かるものへ一度だけ変わる
* 引き取り手が替わるのは、前の引き取り手の世代が生きていないときだけである
* 済んだ印をつけられるのは、そのときの引き取り手の世代だけである
* 済んだ印がついた写しは、もう引き取られない

印は同じ引き取り手なら何度でもつけ直せる。積むのが途中で切れたときにやり直すためで、
そのときは印の時刻だけが変わる（`repeatedMark_rewrites`）。
-/

namespace Cassy

open Infra

/-! ## 行の移り変わり -/

namespace SessionEndRow

variable {e e' e'' : SessionEndRow}

/-- その世代が引き取り手である。 -/
def HeldBy (e : SessionEndRow) (id : String) (epoch : Time) : Prop :=
  e.claimedBy = some id ∧ e.claimedEpoch = some epoch

/-- 引き取り手は高々一つである。 -/
theorem HeldBy.unique {id id' : String} {epoch epoch' : Time} (h : e.HeldBy id epoch)
    (h' : e.HeldBy id' epoch') : id = id' ∧ epoch = epoch' :=
  ⟨Option.some.inj (h.1.symm.trans h'.1), Option.some.inj (h.2.symm.trans h'.2)⟩

/-- 写しと、それが何の写しかは変わらない。 -/
def SameRecord (e e' : SessionEndRow) : Prop :=
  e' = { e with
    reason := e'.reason, claimedBy := e'.claimedBy, claimedEpoch := e'.claimedEpoch
    queuedAt := e'.queuedAt }

/-- 同じ行の、前の姿 `e` と後の姿 `e'`。 -/
structure Later (e e' : SessionEndRow) : Prop where
  record : SameRecord e e'
  reason : e'.reason = e.reason ∨ (e.reason = "unknown" ∧ e'.reason ≠ "unknown")
  queued : e.queuedAt ≠ none →
    e'.queuedAt ≠ none ∧ e'.claimedBy = e.claimedBy ∧ e'.claimedEpoch = e.claimedEpoch

theorem Later.refl (e : SessionEndRow) : Later e e := ⟨rfl, .inl rfl, fun h => ⟨h, rfl, rfl⟩⟩

theorem Later.trans (h : Later e e') (h' : Later e' e'') : Later e e'' where
  record := by
    have h₁ := h.record
    have h₂ := h'.record
    unfold SameRecord at *
    rw [h₂, h₁]
  reason := by
    rcases h'.reason with heq | ⟨hu, hk⟩
    · rw [heq]
      exact h.reason
    · rcases h.reason with heq | ⟨-, hk'⟩
      · exact .inr ⟨heq ▸ hu, hk⟩
      · exact absurd hu hk'
  queued hq := by
    obtain ⟨hq', hby, hep⟩ := h.queued hq
    obtain ⟨hq'', hby', hep'⟩ := h'.queued hq'
    exact ⟨hq'', hby'.trans hby, hep'.trans hep⟩

end SessionEndRow

open SessionEndRow

/-! ## 一歩で言えること -/

/--
状態 `db` での操作 `op` が、行 `e` を `e'` にした。

* `claimed` — 引き取り手が替わったなら、`op` は新しい引き取り手の `claim` で、その世代は生きて
  いて、前の引き取り手の世代と写しの世代は生きていない。済んだ印も無い
* `marked` — 印が変わったなら、`op` は引き取り手の世代がつけた印である
-/
structure RowStep (db : ContinuityDb) (op : ContinuityOp) (e e' : SessionEndRow) : Prop where
  later : Later e e'
  claimed : (e'.claimedBy, e'.claimedEpoch) ≠ (e.claimedBy, e.claimedEpoch) →
    ∃ successor, op = .claim successor ∧ e'.HeldBy successor.id successor.registeredAt
      ∧ db.incarnationLive successor.id successor.registeredAt = true ∧ e.queuedAt = none
      ∧ db.claimantLive e = false ∧ db.incarnationLive e.agentId e.registeredAt = false
  marked : e'.queuedAt ≠ e.queuedAt →
    ∃ successor now, op = .markQueued e.id successor now
      ∧ e.HeldBy successor.id successor.registeredAt ∧ e'.queuedAt = some now

theorem RowStep.refl (db : ContinuityDb) (op : ContinuityOp) (e : SessionEndRow) :
    RowStep db op e e :=
  ⟨.refl e, fun h => absurd rfl h, fun h => absurd rfl h⟩

namespace ContinuityDb

variable {codec : HandoffCodec} {db db' : ContinuityDb} {rid : String}

/-- 行を引く。 -/
def row? (db : ContinuityDb) (rid : String) : Option SessionEndRow := db.ends.table.find? rid

theorem row?_update {p : SessionEndRow → Bool} {f : SessionEndRow → SessionEndRow}
    {hf : ∀ e, (f e).id = e.id} {hi : ∀ e, (f e).incarnation = e.incarnation} :
    ({ db with ends := db.ends.update p f hf hi } : ContinuityDb).row? rid
      = (db.row? rid).map fun e => if p e then f e else e :=
  @Table.find?_update _ _ _ _ db.ends.table p f hf rid

/-- 新しい行は、まだ誰も引き取っておらず、印も無い写しである。 -/
def Fresh (codec : HandoffCodec) (e : SessionEndRow) : Prop :=
  ∃ (a : Agent) (reason : Option String) (lane : Lane),
    e.agentId = a.id ∧ e.registeredAt = a.registeredAt ∧ e.reason = endReason reason
      ∧ codec.encode (snapshot codec a (endReason reason) lane) = .ok e.payload
      ∧ e.claimedBy = none ∧ e.claimedEpoch = none ∧ e.queuedAt = none

theorem insert?_row {e : SessionEndRow} {ends : SessionEnds} (h : db.ends.insert? e = .ok ends) :
    ({ db with ends } : ContinuityDb).row? rid
      = if e.id = rid then some e else db.row? rid := by
  unfold SessionEnds.insert? at h
  split at h
  · exact absurd h (by simp)
  · split at h
    · exact absurd h (by simp)
    · next table hins =>
      rw [← Except.ok.inj h]
      exact Table.find?_insert? hins rid

theorem insert?_free {e : SessionEndRow} {ends : SessionEnds}
    (h : db.ends.insert? e = .ok ends) : db.row? e.id = none := by
  unfold SessionEnds.insert? at h
  split at h
  · exact absurd h (by simp)
  · split at h
    · exact absurd h (by simp)
    · next table hins => exact (Table.insert?_eq_some hins).1

/-- 操作が行の表にすること。ある行は `RowStep` で移り、無い行は `capture` だけが作る。 -/
def RowsStep (codec : HandoffCodec) (db db' : ContinuityDb) (op : ContinuityOp) : Prop :=
  ∀ rid, (∀ e, db.row? rid = some e → ∃ e', db'.row? rid = some e' ∧ RowStep db op e e')
    ∧ (db.row? rid = none → ∀ e', db'.row? rid = some e' →
      Fresh codec e' ∧ ∃ id reason lane now, op = .capture id reason lane now)

theorem rowsStep_of_eq {op : ContinuityOp} (h : ∀ rid, db'.row? rid = db.row? rid) :
    RowsStep codec db db' op := by
  intro rid
  rw [h rid]
  refine ⟨fun e he => ⟨e, he, .refl db op e⟩, fun hnone e' he' => ?_⟩
  rw [hnone] at he'
  exact absurd he' (by simp)

/-- 選んだ行だけを書き換える操作。 -/
theorem rowsStep_of_map {op : ContinuityOp} {p : SessionEndRow → Bool}
    {f : SessionEndRow → SessionEndRow}
    (h : ∀ rid, db'.row? rid = (db.row? rid).map fun e => if p e then f e else e)
    (hf : ∀ e ∈ db.ends.table.rows, p e = true → RowStep db op e (f e)) :
    RowsStep codec db db' op := by
  intro rid
  rw [h rid]
  constructor
  · intro e he
    refine ⟨if p e then f e else e, by rw [he]; rfl, ?_⟩
    split
    · next hp => exact hf e (Table.mem_of_find? he) hp
    · exact .refl db op e
  · intro hnone e' he'
    rw [hnone] at he'
    exact absurd he' (by simp)

theorem capture_rows {id : String} {reason : Option String} {lane : Except StoreError Lane}
    {now : Time} (h : db.capture codec id reason lane now = .ok db') :
    RowsStep codec db db' (.capture id reason lane now) := by
  unfold capture at h
  split at h
  · rw [← Except.ok.inj h]
    exact rowsStep_of_eq fun _ => rfl
  · next a ha =>
    have hid : a.id = id := Table.key_of_find? ha
    simp only at h
    split at h
    · split at h
      · next hknown =>
        rw [← Except.ok.inj h]
        refine rowsStep_of_map (fun _ => row?_update) fun e _ hp => ?_
        simp only [decide_eq_true_eq] at hp
        exact ⟨⟨rfl, .inr ⟨hp.2.2, hknown⟩, fun hq => ⟨hq, rfl, rfl⟩⟩,
          fun hne => absurd rfl hne, fun hne => absurd rfl hne⟩
      · rw [← Except.ok.inj h]
        exact rowsStep_of_eq fun _ => rfl
    · simp only [bind_eq_ok, pure_eq_ok] at h
      obtain ⟨lane', -, payload, hpay, ends, hins, rfl⟩ := h
      have henc : codec.encode (snapshot codec a (endReason reason) lane') = .ok payload := by
        cases henc : codec.encode (snapshot codec a (endReason reason) lane') with
        | error m => simp [henc, Except.mapError] at hpay
        | ok p => simpa [henc, Except.mapError] using hpay
      intro rid
      rw [insert?_row hins]
      split
      · next hrid =>
        -- 挿入が通ったので、この主キーの行は前には無い
        have hnone : db.row? rid = none := by
          have hfree := insert?_free hins
          rwa [hrid] at hfree
        rw [hnone]
        refine ⟨fun e he => absurd he (by simp), fun _ e' he' => ?_⟩
        rw [← Option.some.inj he']
        exact ⟨⟨a, reason, lane', hid.symm, rfl, rfl, henc, rfl, rfl, rfl⟩, _, _, _, _, rfl⟩
      · refine ⟨fun e he => ⟨e, he, .refl _ _ e⟩, fun hnone e' he' => ?_⟩
        rw [hnone] at he'
        exact absurd he' (by simp)

/-- 引き取った後の行。 -/
def claimedRow (successor : Agent) (e : SessionEndRow) : SessionEndRow :=
  { e with claimedBy := some successor.id, claimedEpoch := some successor.registeredAt }

/-- 並んだ行を引き取った後の表。 -/
theorem claimRows_row {successor : Agent} : ∀ {es : List SessionEndRow} {db db' : ContinuityDb}
    {handoffs : List SessionEnd}, claimRows codec successor db es = .ok (handoffs, db') →
    db'.row? rid = (db.row? rid).map fun e =>
      if e.id ∈ es.map SessionEndRow.id then claimedRow successor e else e
  | [], db, db', _, h => by
    simp only [claimRows, Except.ok.injEq, Prod.mk.injEq] at h
    rw [← h.2]
    simp
  | c :: es, db, db', _, h => by
    simp only [claimRows, bind_eq_ok, pure_eq_ok, Prod.mk.injEq] at h
    obtain ⟨_, -, ⟨handoffs, db₁⟩, hrest, -, rfl⟩ := h
    have hrow : (db.claimRow successor c.id).row? rid
        = (db.row? rid).map fun e => if e.id = c.id then claimedRow successor e else e := by
      refine row?_update.trans ?_
      simp only [decide_eq_true_eq]
      rfl
    rw [claimRows_row hrest, hrow, Option.map_map]
    refine Option.map_congr fun e _ => ?_
    by_cases hc : e.id = c.id
    · by_cases hmem : c.id ∈ es.map SessionEndRow.id
      · simp [hc, claimedRow]
      · simp [hc, claimedRow]
    · simp [hc]

theorem claim_rows {successor : Agent} {handoffs : List SessionEnd}
    (h : db.claimSupervisorHandoffs codec successor = .ok (handoffs, db')) :
    RowsStep codec db db' (.claim successor) := by
  unfold claimSupervisorHandoffs at h
  split at h
  · cases h
    exact rowsStep_of_eq fun _ => rfl
  · have hrows : ∀ rid, db'.row? rid = (db.row? rid).map fun e =>
        if decide (e.id ∈ (db.candidates successor).map SessionEndRow.id)
        then claimedRow successor e else e := by
      intro rid
      rw [claimRows_row h]
      simp only [decide_eq_true_eq]
    refine rowsStep_of_map hrows fun e he hp => ?_
    -- 選ばれた主キーの行は、選ばれた行そのものである
    have hclaim : db.claimable successor e = true := by
      obtain ⟨c, hc, hid⟩ := List.mem_map.mp (of_decide_eq_true hp)
      obtain ⟨hcmem, hcclaim⟩ := List.mem_filter.mp ((List.mem_insertionSort _).mp hc)
      rwa [Table.eq_of_key hcmem he hid] at hcclaim
    simp only [claimable, decide_eq_true_eq] at hclaim
    obtain ⟨-, -, -, hq, hlive, hfree, hgone⟩ := hclaim
    refine ⟨⟨rfl, .inl rfl, fun h => absurd hq h⟩, fun hne => ?_, fun h => absurd rfl h⟩
    refine ⟨successor, rfl, ⟨rfl, rfl⟩, ?_, hq, ?_, by simpa using hgone⟩
    · obtain ⟨s, hs, hs'⟩ := Option.any_eq_true _ _ |>.mp hlive
      simp only [decide_eq_true_eq] at hs'
      simp [incarnationLive, hs, hs'.1, hs'.2.2.2]
    · rcases hfree with hnone | ⟨hby, hep⟩ | hdead
      · simp [claimantLive, hnone]
      · exact absurd (by simp [claimedRow, hby, hep]) hne
      · simpa using hdead

theorem body_rows {op : ContinuityOp} {handoffs : List SessionEnd}
    (h : op.body codec db = .ok (handoffs, db')) : RowsStep codec db db' op := by
  cases op with
  | agents table =>
    simp only [ContinuityOp.body, Except.ok.injEq, Prod.mk.injEq] at h
    rw [← h.2]
    exact rowsStep_of_eq fun _ => rfl
  | capture id reason lane now =>
    simp only [ContinuityOp.body, bind_eq_ok, pure_eq_ok, Prod.mk.injEq] at h
    obtain ⟨_, hcap, -, rfl⟩ := h
    exact capture_rows hcap
  | claim successor => exact claim_rows h
  | markQueued id successor now =>
    simp only [ContinuityOp.body, Except.ok.injEq, Prod.mk.injEq] at h
    rw [← h.2]
    refine rowsStep_of_map (fun _ => row?_update) fun e _ hp => ?_
    simp only [decide_eq_true_eq] at hp
    obtain ⟨rfl, hby, hep⟩ := hp
    exact ⟨⟨rfl, .inl rfl, fun _ => ⟨by simp, rfl, rfl⟩⟩, fun hne => absurd rfl hne,
      fun _ => ⟨successor, now, rfl, ⟨hby, hep⟩, rfl⟩⟩

theorem continuityStep_rows (codec : HandoffCodec) (db : ContinuityDb) (op : ContinuityOp) :
    RowsStep codec db (continuityStep codec db op).2 op := by
  unfold continuityStep
  rcases commit_snd_cases db (op.body codec db) with heq | ⟨handoffs, db', hb, heq⟩
  · rw [heq]
    exact rowsStep_of_eq fun _ => rfl
  · rw [heq]
    exact body_rows hb

/-- 済んだ印のついた行は、もう選ばれない。 -/
theorem not_mem_candidates {e : SessionEndRow} (h : e.queuedAt ≠ none) (successor : Agent) :
    e ∉ db.candidates successor := by
  intro hmem
  obtain ⟨-, hc⟩ := List.mem_filter.mp ((List.mem_insertionSort _).mp hmem)
  simp only [claimable, decide_eq_true_eq] at hc
  exact h hc.2.2.2.1

/-- 実行の途中の行は消えず、後の姿に移る。 -/
theorem row_later_run (codec : HandoffCodec) : ∀ (ops : List ContinuityOp) (db : ContinuityDb)
    {e : SessionEndRow}, db.row? rid = some e →
    ∃ e', (run (continuityStep codec) db ops).row? rid = some e' ∧ Later e e'
  | [], _, e, he => ⟨e, he, .refl e⟩
  | op :: ops, db, e, he => by
    obtain ⟨e₁, he₁, hstep⟩ := (continuityStep_rows codec db op rid).1 e he
    obtain ⟨e', he', hlater⟩ := row_later_run codec ops _ he₁
    exact ⟨e', he', hstep.later.trans hlater⟩

end ContinuityDb

/-! ## 仕様 -/

open ContinuityDb

/--
引き継ぎの仕様。

どの状態から、操作をどう並べて実行しても、次が成り立つ。

* 途中のどの時点の行も、最後まで `Later` で結ばれる。写しは変わらず、理由は分からないものから
  一度だけ変わり、済んだ印がつけば消えず、引き取り手もそのままである
* どの一歩も `RowsStep` に従う。行は `capture` だけが作り、引き取り手を替えるのは、前の引き取り
  手が生きていないときの新しい引き取り手の `claim` だけで、印をつけるのは引き取り手だけである
* 一つの世代の写しは一つで、引き取り手も一つである
* 済んだ印のついた写しは、誰の `claim` にも選ばれない
-/
theorem supervisor_handoff_history (codec : HandoffCodec) (db : ContinuityDb)
    (ops : List ContinuityOp) :
    let after := run (continuityStep codec) db
    (∀ pre, pre <+: ops → ∀ rid e, (after pre).row? rid = some e →
        ∃ e', (after ops).row? rid = some e' ∧ Later e e')
      ∧ (∀ pre op, pre ++ [op] <+: ops →
        RowsStep codec (after pre) (after (pre ++ [op])) op)
      ∧ (∀ e ∈ (after ops).ends.table.rows, ∀ e' ∈ (after ops).ends.table.rows,
        e.incarnation = e'.incarnation → e = e')
      ∧ (∀ rid e, (after ops).row? rid = some e → ∀ id epoch id' epoch',
        e.HeldBy id epoch → e.HeldBy id' epoch' → id = id' ∧ epoch = epoch')
      ∧ ∀ rid e, (after ops).row? rid = some e → e.queuedAt ≠ none →
        ∀ successor, e ∉ (after ops).candidates successor := by
  intro after
  refine ⟨?_, ?_, ?_, fun _ _ _ _ _ _ _ h h' => h.unique h',
    fun _ _ _ hq successor => not_mem_candidates hq successor⟩
  · rintro pre ⟨post, rfl⟩ rid e he
    simp only [after, run_append]
    exact row_later_run codec post _ he
  · intro pre op _
    simp only [after, run_append]
    exact continuityStep_rows codec (run (continuityStep codec) db pre) op
  · intro e he e' he' heq
    exact List.inj_on_of_nodup_map (after ops).ends.incarnations he he' heq

/-- 写しの符号化の一例。名前だけを残す。 -/
def nameCodec : HandoffCodec where
  handoffId id _ := id
  encode handoff := .ok handoff.name
  parse name := .ok
    { id := "old", agentId := "old", name, reason := "unknown", registeredAt := 0
      factorySession := none, pid := none, ppid := none, pidStarttime := none
      parentStarttime := none, tasks := [], workers := [], pending := [] }

/-- 前の supervisor。 -/
def oldSupervisor : Agent where
  id := "old"
  name := "swift"
  role := .supervisor
  machineId := some "host"
  registeredAt := 0
  lastHeartbeat := 0

/-- 後の supervisor。 -/
def newSupervisor : Agent where
  id := "new"
  name := "calm"
  role := .supervisor
  machineId := some "host"
  registeredAt := 1
  lastHeartbeat := 1

/-- 前の supervisor が終わり、後の supervisor が引き取って、印を二度つける。 -/
def repeatedMark : List ContinuityOp :=
  [.capture "old" none (.ok {}) 1, .agents { rows := [newSupervisor], nodup := by decide },
    .claim newSupervisor, .markQueued "old" newSupervisor 2, .markQueued "old" newSupervisor 3]

/-- 一度目で済んだ写しに、二度目の印がまたつく。 -/
theorem repeatedMark_rewrites :
    let start : ContinuityDb := { agents := { rows := [oldSupervisor], nodup := by decide } }
    let queuedAt := fun ops => ((run (continuityStep nameCodec) start ops).row? "old").map
      SessionEndRow.queuedAt
    queuedAt (repeatedMark.take 4) = some (some 2) ∧ queuedAt repeatedMark = some (some 3) := by
  decide

end Cassy
