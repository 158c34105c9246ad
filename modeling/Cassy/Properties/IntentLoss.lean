import Mathlib.Data.List.Nodup
import Cassy.Properties.IntentPayload

/-!
# 変更は列から漏れない

受領書つきで commit した変更は、その版以上の行が列に載るまで、意図として残っていてほしい。追い越された意図は、
新しい版を書いた処理が列に載せるものとして、載せずに消される。ところが `update_from_sync` と
`record_merge_admission`、直接の書き込みは、版を進めるのに意図を立てない。その間に挟まった意図は、誰も載せないまま
消える。古い一覧で照合が新しい意図を消すこともある。

どちらも起きない実行では、意図が残っておらず task があるなら、最後に載せた payload は、受領書つきのどの変更よりも
古くない版の行である。

証明の要は、task があるかぎり、まだ載っていない変更には受領書が今の版を指す意図が残っている、という不変条件である。
これを保つために、受領書の版は意図の番号の順に並び、占有している処理の意図が最も新しく、照合の残りの一覧には前から
ある意図が全部入っていることを一緒に運ぶ。
-/

namespace Cassy

open Infra RevisionDb

namespace RevisionDb

variable {db db' : RevisionDb} {intent : TaskSyncIntent}

theorem committedRevision_eq_some {r : Nat} :
    db.committedRevision intent = some r ↔ ∃ receipt,
      db.receipts.find? intent.mutationId = some receipt
        ∧ receipt.entityId = intent.entityId ∧ receipt.revision = r := by
  simp [committedRevision, Option.filter_eq_some_iff, and_assoc]

theorem committedRevision_of_find?_none (h : db.receipts.find? intent.mutationId = none) :
    db.committedRevision intent = none := by
  rw [committedRevision, h]
  rfl

theorem committedRevision_of_eq {i j : TaskSyncIntent} (hmutation : i.mutationId = j.mutationId)
    (hentity : i.entityId = j.entityId) : db.committedRevision i = db.committedRevision j := by
  rw [committedRevision, committedRevision, hmutation, hentity]

theorem find?_dropReceipts (ids : List String) (id : String) :
    (db.dropReceipts ids).receipts.find? id
      = if id ∈ ids then none else db.receipts.find? id := by
  rw [dropReceipts, Table.find?_delete]
  cases h : db.receipts.find? id with
  | none => simp
  | some r =>
    have hkey := Table.key_of_find? h
    simp [Option.filter, hkey]

theorem committedRevision_dropReceipts (ids : List String) (intent : TaskSyncIntent) :
    (db.dropReceipts ids).committedRevision intent
      = if intent.mutationId ∈ ids then none else db.committedRevision intent := by
  rw [committedRevision, find?_dropReceipts]
  split <;> rfl

/-- 求めていない受領書は、増えも減りもしない。 -/
theorem Outcome.find?_receipts {op : TaskOp} {id : String} (h : Outcome db db' op)
    (hne : op.receiptId? ≠ some id) : db'.receipts.find? id = db.receipts.find? id := by
  obtain ⟨hkeep, hnew⟩ := h.receipts
  cases hfind : db.receipts.find? id with
  | some r =>
    have hr := Table.find?_of_mem (hkeep r (Table.mem_of_find? hfind))
    rwa [Table.key_of_find? hfind] at hr
  | none =>
    rw [Table.find?_eq_none_iff]
    intro r hr hid
    rcases hnew r hr with hold | hof
    · exact Table.find?_eq_none_iff.mp hfind r hold hid
    · exact hne (hof.requested.trans (congrArg some hid))

/-- 求めた受領書は、書いた後の版を指す。 -/
theorem Outcome.committedRevision_self {op : TaskOp} (h : Outcome db db' op)
    (htask : op.taskId = intent.entityId) (hnone : db.receipts.find? intent.mutationId = none)
    (hsome : (db'.receipts.find? intent.mutationId).isSome) :
    db'.committedRevision intent = some (db'.revision intent.entityId) := by
  obtain ⟨r, hr⟩ := Option.isSome_iff_exists.mp hsome
  rcases h.receipts.2 r (Table.mem_of_find? hr) with hold | hof
  · exact absurd (Table.key_of_find? hr) (Table.find?_eq_none_iff.mp hnone r hold)
  · have hentity : r.entityId = intent.entityId := hof.entity.trans htask
    refine committedRevision_eq_some.mpr ⟨r, hr, hentity, ?_⟩
    rw [hof.current, hentity]

/-- 削除は、ほかの task の版を変えず、消した task の行を残さない。 -/
theorem delete_revision {parseTimestamp : Text → Bool} {origin : Option String} {id e : String} :
    (taskStep parseTimestamp origin db (.delete id)).2.revision e = db.revision e
      ∨ (taskStep parseTimestamp origin db (.delete id)).2.row? e = none := by
  unfold taskStep
  rcases commit_snd_cases db ((TaskOp.delete id).body parseTimestamp origin db) with
    heq | ⟨a, m, hbody, heq⟩
  · rw [heq]
    exact .inl rfl
  · rw [heq]
    have hdelete : db.delete id = .ok (a, m) := hbody
    by_cases he : e = id
    · right
      simp only [delete, Db.deleteTask, bind_eq_ok, ensure_eq_ok, pure_eq_ok,
        Prod.mk.injEq] at hdelete
      obtain ⟨_, ⟨_, hsome, rfl⟩, -, rfl⟩ := hdelete
      obtain ⟨t, ht⟩ := Option.isSome_iff_exists.mp hsome
      rw [he, row?, afterDelete, bump_proof]
      simp [ht, Option.filter, Table.key_of_find? ht]
    · exact .inl ((delete_touched hdelete).revision_other he)

end RevisionDb

/-! ## 条件 -/

namespace IntentState

/-- 受領書つきで commit した変更で、その版以上の行がまだ列に載っていないものがある。 -/
def outstanding (s : IntentState) : Bool :=
  s.committed.any fun c => s.lastQueued.all fun q => q.revision < c

/-- 受領書なしに task の版を進める手。削除は除く。 -/
def rewrites (env : IntentEnv) (s : IntentState) : IntentAct → Bool
  | .write _ (.delete _) => false
  | .write origin op => op.receiptId? = none
      ∧ (taskStep env.parseTimestamp origin s.db op).2.revision env.entityId
        ≠ s.db.revision env.entityId
  | .mergeAdmission mergeCommit admission now => s.stripe = none
      ∧ (s.db.recordMergeAdmission env.entityId mergeCommit admission now).revision env.entityId
        ≠ s.db.revision env.entityId
  | _ => false

end IntentState

/--
変更が漏れない条件。

* 受領書なしに版を進める手は、載っていない変更のあるあいだは起きない。削除は除く
* 意図を残して去る処理は、進んでいるどの照合よりも前に意図を立てている
-/
def LosesNothing (env : IntentEnv) (s : IntentState) (act : IntentAct) : Prop :=
  AbandonsObserved s act ∧ (s.rewrites env act = true → s.outstanding = false)

/-! ## 不変条件 -/

/-- 最も新しい意図。 -/
def IntentState.Newest (s : IntentState) (intent : TaskSyncIntent) : Prop :=
  intent ∈ s.intents ∧ ∀ i ∈ s.intents, i.id ≤ intent.id

/--
処理の位置が意図の列に合っている。

* 書き込む前の処理の意図は受領書を持たない
* 書き込んだ処理の意図は受領書を持ち、それは今の版を指す。task が消えたか、載っていない変更が無いときは別である
* 照合の残りの一覧には、写す前からある意図が全部、新しい順に入っている
-/
def SyncPc.Tracks (env : IntentEnv) (s : IntentState) : SyncPc → Prop
  | .idle | .locked => True
  | .staged intent | .refused intent =>
    s.Newest intent ∧ s.db.receipts.find? intent.mutationId = none
  | .fulfilling intent _ _ => s.Newest intent ∧ ∃ r, s.db.committedRevision intent = some r
      ∧ (r = s.db.revision env.entityId ∨ s.db.row? env.entityId = none ∨ s.outstanding = false)
  | .reconciling next rest _ _ => (∀ i ∈ s.intents, i.id < next → i ∈ rest)
      ∧ rest.Pairwise fun i j => j.id < i.id

/-- 意図と受領書の列についての不変条件。処理の位置には触れない。 -/
structure Evidence (env : IntentEnv) (s : IntentState) : Prop where
  entity : ∀ i ∈ s.intents, i.entityId = env.entityId
  sorted : s.intents.Pairwise fun i j => i.id < j.id
  distinct : ∀ i ∈ s.intents, ∀ j ∈ s.intents, i.mutationId = j.mutationId → i = j
  unresolved : ∀ i ∈ s.intents, s.resolved i.mutationId = false
  bounded : ∀ i ∈ s.intents, ∀ r ∈ s.db.committedRevision i, r ≤ s.db.revision env.entityId
  ordered : ∀ i ∈ s.intents, ∀ j ∈ s.intents, i.id < j.id →
    ∀ r ∈ s.db.committedRevision i, ∀ r' ∈ s.db.committedRevision j, r ≤ r'
  committed_le : ∀ c ∈ s.committed, c ≤ s.db.revision env.entityId
  covered : (s.db.row? env.entityId).isSome = true → s.outstanding = false
    ∨ ∃ i ∈ s.intents, s.db.committedRevision i = some (s.db.revision env.entityId)

/-- 変更が漏れていないことの不変条件。 -/
structure LossInv (env : IntentEnv) (s : IntentState) : Prop where
  evidence : Evidence env s
  tracks : ∀ pid, (s.pc pid).Tracks env s

section Steps

variable {env : IntentEnv} {s s' m : IntentState} {act : IntentAct} {pid : Nat} {pc : SyncPc}
  {intent : TaskSyncIntent}
variable {preloaded : Option (Nat × Option TaskSyncPayload)} {outcome : FulfillOutcome}

theorem Evidence.eq_of_id (h : Evidence env s) {i j : TaskSyncIntent} (hi : i ∈ s.intents)
    (hj : j ∈ s.intents) (hid : i.id = j.id) : i = j := by
  have hnodup : (s.intents.map TaskSyncIntent.id).Nodup :=
    List.pairwise_map.mpr (h.sorted.imp Nat.ne_of_lt)
  exact List.inj_on_of_nodup_map hnodup hi hj hid

/-- 意図と受領書と版と履歴だけで決まる。 -/
theorem Evidence.congr (h : Evidence env s) (hdb : s'.db = s.db) (hintents : s'.intents = s.intents)
    (hrecovery : s'.recovery = s.recovery) (hcommitted : s'.committed = s.committed)
    (hlast : s'.lastQueued = s.lastQueued) : Evidence env s' := by
  obtain ⟨db, queue, intents, nextIntent, recovery, route, stripe, pc, committed, last⟩ := s'
  subst hdb hintents hrecovery hcommitted hlast
  exact ⟨h.entity, h.sorted, h.distinct, h.unresolved, h.bounded, h.ordered, h.committed_le,
    h.covered⟩

/-- 意図も受領書も版も変わらなければ、位置の合い方も変わらない。 -/
theorem SyncPc.Tracks.congr (h : pc.Tracks env s) (hintents : s'.intents = s.intents)
    (hdb : s'.db = s.db) (hout : s'.outstanding = s.outstanding) : pc.Tracks env s' := by
  cases pc with
  | idle | locked => trivial
  | staged | refused | fulfilling =>
    simp only [Tracks, IntentState.Newest, hintents, hdb, hout] at h ⊢
    exact h
  | reconciling =>
    simp only [Tracks, hintents] at h ⊢
    exact h

/-- 占有していない処理の位置は、意図が減っても、新しい意図が増えても合っている。 -/
theorem SyncPc.Tracks.unowned (h : pc.Tracks env s) (howns : pc.owns = false)
    (hbound : ∀ next, pc.snapshot? = some next → next ≤ s.nextIntent)
    (hintents : ∀ i ∈ s'.intents, i ∈ s.intents ∨ s.nextIntent ≤ i.id) : pc.Tracks env s' := by
  cases pc with
  | idle => trivial
  | locked | staged | refused | fulfilling => cases howns
  | reconciling next rest =>
    refine ⟨fun i hi hlt => ?_, h.2⟩
    rcases hintents i hi with hold | hnew
    · exact h.1 i hold hlt
    · exact absurd (Nat.le_trans (hbound next rfl) hnew) (Nat.not_le.mpr hlt)

theorem LossInv.tracks_at (h : LossInv env s) (hpc : s.pc pid = pc) : pc.Tracks env s := by
  rw [← hpc]
  exact h.tracks pid

theorem LossInv.setPc (h : LossInv env s) (hpc : pc.Tracks env s) :
    LossInv env (s.setPc pid pc) where
  evidence := h.evidence.congr rfl rfl rfl rfl rfl
  tracks p := by
    show (Function.update s.pc pid pc p).Tracks env _
    by_cases hp : p = pid
    · rw [hp, Function.update_self]
      exact hpc.congr rfl rfl rfl
    · rw [Function.update_of_ne hp]
      exact (h.tracks p).congr rfl rfl rfl

/-! ## 意図を消す -/

/-- 意図を全部消してよいのは、task が無いか、載っていない変更が無いときである。 -/
theorem Evidence.retireTaskSyncEvidence (h : Evidence env s)
    (hsafe : s.db.row? env.entityId = none ∨ s.outstanding = false) :
    Evidence env s.retireTaskSyncEvidence where
  entity := nofun
  sorted := List.Pairwise.nil
  distinct := nofun
  unresolved := nofun
  bounded := nofun
  ordered := nofun
  committed_le := h.committed_le
  covered hrow := by
    rcases hsafe with hnone | hdone
    · rw [show s.retireTaskSyncEvidence.db.row? env.entityId = none from hnone] at hrow
      cases hrow
    · exact .inl hdone

/-- 受領書を持たない意図は、一つだけ消してよい。 -/
theorem Evidence.retireOneTaskSyncIntent (h : Evidence env s) {i : TaskSyncIntent}
    (hi : i ∈ s.intents) (hid : i.id = intent.id) (hmutation : i.mutationId = intent.mutationId)
    (hnone : s.db.committedRevision i = none) :
    Evidence env (s.retireOneTaskSyncIntent intent) := by
  have hsub : ∀ j ∈ (s.retireOneTaskSyncIntent intent).intents, j ∈ s.intents ∧ j.id ≠ intent.id :=
    fun j hj => ⟨(List.mem_filter.mp hj).1, of_decide_eq_true (List.mem_filter.mp hj).2⟩
  -- 残る意図の受領書は消えない
  have hkeep : ∀ j ∈ (s.retireOneTaskSyncIntent intent).intents,
      (s.retireOneTaskSyncIntent intent).db.committedRevision j = s.db.committedRevision j := by
    intro j hj
    obtain ⟨hold, hne⟩ := hsub j hj
    refine (committedRevision_dropReceipts _ j).trans (if_neg fun hmem => hne ?_)
    have heq := h.distinct j hold i hi ((List.mem_singleton.mp hmem).trans hmutation.symm)
    rw [heq, hid]
  refine ⟨fun j hj => h.entity j (hsub j hj).1, h.sorted.filter _,
    fun j hj k hk => h.distinct j (hsub j hj).1 k (hsub k hk).1,
    fun j hj => h.unresolved j (hsub j hj).1, fun j hj => ?_, fun j hj k hk => ?_,
    h.committed_le, fun hrow => ?_⟩
  · rw [hkeep j hj]
    exact h.bounded j (hsub j hj).1
  · rw [hkeep j hj, hkeep k hk]
    exact h.ordered j (hsub j hj).1 k (hsub k hk).1
  · rcases h.covered hrow with hdone | ⟨j, hj, hcur⟩
    · exact .inl hdone
    · refine .inr ⟨j, ?_, ?_⟩
      · refine List.mem_filter.mpr ⟨hj, decide_eq_true fun heq => ?_⟩
        rw [h.eq_of_id hj hi (heq.trans hid.symm), hnone] at hcur
        cases hcur
      · refine (committedRevision_dropReceipts _ j).trans ?_
        rw [if_neg, hcur]
        · rfl
        · intro hmem
          have heq := h.distinct j hj i hi ((List.mem_singleton.mp hmem).trans hmutation.symm)
          rw [heq, hnone] at hcur
          cases hcur

theorem Evidence.finish (h : Evidence env s) (canonical : TaskSyncPayload) (now : Time) :
    Evidence env (s.finish env intent (s.db.revision env.entityId) canonical now) where
  entity := nofun
  sorted := List.Pairwise.nil
  distinct := nofun
  unresolved := nofun
  bounded := nofun
  ordered := nofun
  committed_le := h.committed_le
  covered _ := by
    left
    show (s.committed.any fun c => _) = false
    cases hc : s.committed with
    | none => rfl
    | some c =>
      have hle : c ≤ s.db.revision env.entityId := h.committed_le c hc
      show decide (s.db.revision env.entityId < c) = false
      exact decide_eq_false (Nat.not_lt.mpr hle)

theorem recordBlocked_resolved (s : IntentState) (intent : TaskSyncIntent)
    (diagnostic mutationId : String) :
    (s.recordBlocked intent diagnostic).resolved mutationId = s.resolved mutationId := by
  unfold IntentState.recordBlocked
  split
  · rfl
  · simp [IntentState.resolved]

theorem recordBlocked_eq (s : IntentState) (intent : TaskSyncIntent) (diagnostic : String) :
    ∃ recovery, s.recordBlocked intent diagnostic = { s with recovery } := by
  unfold IntentState.recordBlocked
  split
  · exact ⟨_, rfl⟩
  · exact ⟨_, rfl⟩

theorem Evidence.recordBlocked (h : Evidence env s) (diagnostic : String) :
    Evidence env (s.recordBlocked intent diagnostic) := by
  have hres := recordBlocked_resolved s intent diagnostic
  obtain ⟨recovery, heq⟩ := recordBlocked_eq s intent diagnostic
  rw [heq] at hres ⊢
  exact ⟨h.entity, h.sorted, h.distinct, fun i hi => (hres _).trans (h.unresolved i hi),
    h.bounded, h.ordered, h.committed_le, h.covered⟩

/-! ## 書き込み -/

/-- 受領書なしの書き込み。版が進むのは、task が消えるか、載っていない変更が無いときに限る。 -/
theorem LossInv.write (h : LossInv env s) {db : RevisionDb}
    (hreceipts : ∀ id, db.receipts.find? id = s.db.receipts.find? id)
    (hdb : RevisionDb.Advances s.db db)
    (hcase : db.revision env.entityId = s.db.revision env.entityId
      ∨ db.row? env.entityId = none ∨ s.outstanding = false) : LossInv env { s with db } := by
  have hcommitted : ∀ i, db.committedRevision i = s.db.committedRevision i := fun i => by
    rw [committedRevision, committedRevision, hreceipts]
  have hle := hdb.revision_le env.entityId
  refine ⟨⟨h.evidence.entity, h.evidence.sorted, h.evidence.distinct, h.evidence.unresolved,
    fun i hi r hr => ?_, fun i hi j hj => ?_, fun c hc => ?_, fun hrow => ?_⟩, fun pid => ?_⟩
  · rw [hcommitted] at hr
    exact Nat.le_trans (h.evidence.bounded i hi r hr) hle
  · show _ → ∀ r ∈ db.committedRevision i, ∀ r' ∈ db.committedRevision j, r ≤ r'
    rw [hcommitted, hcommitted]
    exact h.evidence.ordered i hi j hj
  · exact Nat.le_trans (h.evidence.committed_le c hc) hle
  · rcases hcase with hsame | hnone | hdone
    · have hrow' : (s.db.row? env.entityId).isSome = true := by
        rw [← hdb.row_eq _ hsame]
        exact hrow
      rcases h.evidence.covered hrow' with hdone | ⟨i, hi, hcur⟩
      · exact .inl hdone
      · exact .inr ⟨i, hi, (hcommitted i).trans (hcur.trans (congrArg some hsame.symm))⟩
    · rw [show ({ s with db } : IntentState).db.row? env.entityId = none from hnone] at hrow
      cases hrow
    · exact .inl hdone
  · show (s.pc pid).Tracks env _
    cases hat : s.pc pid with
    | idle | locked => trivial
    | staged intent | refused intent =>
      obtain ⟨hnewest, hnone⟩ := h.tracks_at hat
      exact ⟨hnewest, (hreceipts _).trans hnone⟩
    | fulfilling intent attempt f =>
      obtain ⟨hnewest, r, hr, hlive⟩ := h.tracks_at hat
      refine ⟨hnewest, r, (hcommitted intent).trans hr, ?_⟩
      rcases hcase with hsame | hnone | hdone
      · rcases hlive with hcur | hgone | hdone
        · exact .inl (hcur.trans hsame.symm)
        · exact .inr (.inl ((hdb.row_eq _ hsame).trans hgone))
        · exact .inr (.inr hdone)
      · exact .inr (.inl hnone)
      · exact .inr (.inr hdone)
    | reconciling next rest attempt f => exact h.tracks_at hat

/-- 受領書つきの書き込み。書いた処理の意図の受領書が今の版を指す。 -/
theorem Evidence.commit (h : Evidence env s) {db : RevisionDb} {op : TaskOp}
    (hnewest : s.Newest intent) (hout : Outcome s.db db op)
    (hrequest : op.receiptId? = some intent.mutationId)
    (hself : db.committedRevision intent = some (db.revision env.entityId)) :
    Evidence env { s with db, committed := some (db.revision env.entityId) } := by
  have hle := hout.advances.revision_le env.entityId
  have hother : ∀ i ∈ s.intents, i ≠ intent →
      db.committedRevision i = s.db.committedRevision i := by
    intro i hi hne
    have hid : op.receiptId? ≠ some i.mutationId := fun heq =>
      hne (h.distinct i hi intent hnewest.1 (Option.some.inj (heq.symm.trans hrequest)))
    rw [committedRevision, committedRevision, hout.find?_receipts hid]
  have hbounded : ∀ i ∈ s.intents, ∀ r ∈ db.committedRevision i,
      r ≤ db.revision env.entityId := by
    intro i hi r hr
    by_cases heq : i = intent
    · rw [heq, hself] at hr
      exact Nat.le_of_eq (Option.some.inj hr).symm
    · rw [hother i hi heq] at hr
      exact Nat.le_trans (h.bounded i hi r hr) hle
  refine ⟨h.entity, h.sorted, h.distinct, h.unresolved, hbounded, fun i hi j hj hlt r hr r' hr' => ?_,
    fun c hc => ?_, fun _ => .inr ⟨intent, hnewest.1, hself⟩⟩
  · -- 占有している処理の意図が最も新しいので、順番が変わるのは後ろの側だけである
    have hi' : i ≠ intent := fun heq => by
      have := hnewest.2 j hj
      rw [heq] at hlt
      omega
    by_cases hj' : j = intent
    · obtain rfl : db.revision env.entityId = r' := by
        rw [hj', hself] at hr'
        exact Option.some.inj hr'
      exact hbounded i hi r hr
    · rw [hother i hi hi'] at hr
      rw [hother j hj hj'] at hr'
      exact h.ordered i hi j hj hlt r hr r' hr'
  · exact Nat.le_of_eq (Option.some.inj hc).symm

/-- 意図を立てる手。番号は最も大きく、受領書はまだ無い。 -/
theorem Evidence.stage (h : Evidence env s) (hfresh : ∀ i ∈ s.intents, i.id < intent.id)
    (hentity : intent.entityId = env.entityId)
    (hreceipt : s.db.receipts.find? intent.mutationId = none)
    (hintents : ∀ i ∈ s.intents, i.mutationId ≠ intent.mutationId)
    (hrecovery : ∀ r ∈ s.recovery, r.mutationId ≠ intent.mutationId) :
    Evidence env { s with intents := s.intents ++ [intent] } := by
  have hnone := committedRevision_of_find?_none hreceipt
  have hcases : ∀ i ∈ s.intents ++ [intent], i ∈ s.intents ∨ i = intent := fun i hi =>
    (List.mem_append.mp hi).imp_right List.mem_singleton.mp
  refine ⟨fun i hi => ?_, List.pairwise_append.mpr ⟨h.sorted, List.pairwise_singleton _ _, ?_⟩,
    fun i hi j hj heq => ?_, fun i hi => ?_, fun i hi r hr => ?_, fun i hi j hj hlt r hr r' hr' => ?_,
    h.committed_le, fun hrow => ?_⟩
  · rcases hcases i hi with hold | rfl
    · exact h.entity i hold
    · exact hentity
  · intro i hi j hj
    rw [List.mem_singleton.mp hj]
    exact hfresh i hi
  · rcases hcases i hi with hi' | rfl
    · rcases hcases j hj with hj' | rfl
      · exact h.distinct i hi' j hj' heq
      · exact absurd heq (hintents i hi')
    · rcases hcases j hj with hj' | rfl
      · exact absurd heq.symm (hintents j hj')
      · rfl
  · rcases hcases i hi with hold | rfl
    · exact h.unresolved i hold
    · show s.recovery.any _ = false
      rw [List.any_eq_false]
      intro r hr
      simp [hrecovery r hr]
  · rcases hcases i hi with hold | rfl
    · exact h.bounded i hold r hr
    · rw [show ({ s with intents := _ } : IntentState).db.committedRevision i = none from hnone] at hr
      cases hr
  · rcases hcases i hi with hi' | rfl
    · rcases hcases j hj with hj' | rfl
      · exact h.ordered i hi' j hj' hlt r hr r' hr'
      · rw [show ({ s with intents := _ } : IntentState).db.committedRevision j = none
          from hnone] at hr'
        cases hr'
    · rw [show ({ s with intents := _ } : IntentState).db.committedRevision i = none from hnone] at hr
      cases hr
  · rcases h.covered hrow with hdone | ⟨i, hi, hcur⟩
    · exact .inl hdone
    · exact .inr ⟨i, List.mem_append_left _ hi, hcur⟩

/-! ## 一歩 -/

/-- stripe を占有しているのは一つだけである。 -/
theorem SnapshotInv.unowned (h : SnapshotInv s) (hstripe : s.stripe = none) (p : Nat) :
    (s.pc p).owns = false := by
  cases howns : (s.pc p).owns with
  | false => rfl
  | true =>
    rw [h.owner p howns] at hstripe
    cases hstripe

theorem SnapshotInv.unowned_of_ne (h : SnapshotInv s) (hpid : (s.pc pid).owns = true) {p : Nat}
    (hp : p ≠ pid) : (s.pc p).owns = false := by
  cases howns : (s.pc p).owns with
  | false => rfl
  | true => exact absurd (Option.some.inj ((h.owner p howns).symm.trans (h.owner pid hpid))) hp

/-- 占有した処理が意図の列を変え、ほかの処理は占有していない。 -/
theorem LossInv.change (h : LossInv env s) (hs : SnapshotInv s) (pid : Nat) (pc : SyncPc)
    (hev : Evidence env s') (hpc : s'.pc = Function.update s.pc pid pc)
    (hintents : ∀ i ∈ s'.intents, i ∈ s.intents ∨ s.nextIntent ≤ i.id)
    (hothers : ∀ p, p ≠ pid → (s.pc p).owns = false) (htracks : pc.Tracks env s') :
    LossInv env s' := by
  refine ⟨hev, fun p => ?_⟩
  rw [hpc]
  by_cases hp : p = pid
  · rw [hp, Function.update_self]
    exact htracks
  · rw [Function.update_of_ne hp]
    exact (h.tracks p).unowned (hothers p hp) (hs.bound p) hintents

theorem LossInv.leave (h : LossInv env s) : LossInv env (s.leave pid) := by
  have hset : LossInv env (s.setPc pid .idle) := h.setPc trivial
  exact ⟨hset.evidence.congr rfl rfl rfl rfl rfl, fun p => (hset.tracks p).congr rfl rfl rfl⟩

theorem exists_of_stillPending (h : s.stillPending intent = true) :
    ∃ i ∈ s.intents, i.id = intent.id ∧ i.mutationId = intent.mutationId
      ∧ i.entityId = intent.entityId := by
  unfold IntentState.stillPending at h
  obtain ⟨i, hi, heq⟩ := List.any_eq_true.mp (Bool.and_eq_true_iff.mp h).1
  simp only [Bool.and_eq_true, decide_eq_true_eq] at heq
  exact ⟨i, hi, heq.1.1, heq.1.2, heq.2⟩

/-- 追い越された意図を照合が見つけたとき、載っていない変更は無い。 -/
theorem LossInv.superseded_reconcile (h : LossInv env s) (hs : SnapshotInv s) {next attempt : Nat}
    {rest : List TaskSyncIntent} {f : FulfillPc}
    (hpc : s.pc pid = .reconciling next (intent :: rest) attempt f) (hstripe : s.stripe = none)
    (hpending : s.stillPending intent = true)
    (hclass : s.db.classifyTaskSyncIntent intent = .superseded) :
    s.db.row? env.entityId = none ∨ s.outstanding = false := by
  obtain ⟨c, hc, hlt⟩ := committed_of_superseded hclass
  obtain ⟨i, hi, hid, hmutation, hentity⟩ := exists_of_stillPending hpending
  rw [← hentity, h.evidence.entity i hi] at hlt
  have hci : s.db.committedRevision i = some c := (committedRevision_of_eq hmutation hentity).trans hc
  have htracks := h.tracks_at hpc
  cases hrow : s.db.row? env.entityId with
  | none => exact .inl rfl
  | some task =>
    right
    rcases h.evidence.covered (by rw [hrow]; rfl) with hdone | ⟨j, hj, hcur⟩
    · exact hdone
    exfalso
    by_cases hnew : next ≤ j.id
    · -- 写した後の意図は、立てた処理が占有しているはずである
      obtain ⟨p, hp⟩ := hs.newer pid next (by rw [hpc]; rfl) j hj hnew
      have howns := hs.unowned hstripe p
      rw [SyncPc.owns_of_held hp] at howns
      cases howns
    · -- 写した一覧の意図は、後のものほど受領書の版が新しい
      rcases List.mem_cons.mp (htracks.1 j hj (Nat.not_le.mp hnew)) with rfl | hrest
      · rw [hc] at hcur
        have := Option.some.inj hcur
        omega
      · have hid' : j.id < i.id := by
          rw [hid]
          exact (List.pairwise_cons.mp htracks.2).1 j hrest
        have := h.evidence.ordered j hj i hi hid' _ hcur c hci
        omega

/-- 変更した側の write transaction の後。 -/
theorem LossInv.mutation (h : LossInv env s) (hs : SnapshotInv s) {attempt : Nat} {now : Time}
    (hpc : s.pc pid = .fulfilling intent attempt (.loaded preloaded))
    (hcase : FulfillCase env s .mutation intent preloaded now outcome m) :
    LossInv env (m.leave pid) := by
  have hothers : ∀ p, p ≠ pid → (s.pc p).owns = false := fun p =>
    hs.unowned_of_ne (by rw [hpc]; rfl)
  obtain ⟨hnewest, r, hr, hlive⟩ := h.tracks_at hpc
  have hentity := h.evidence.entity intent hnewest.1
  have hset : Evidence env m → m.pc = s.pc → m.intents ⊆ s.intents → LossInv env (m.leave pid) := by
    intro hev hmpc hsub
    refine h.change hs pid .idle ?_ ?_ (fun i hi => .inl (hsub hi)) hothers trivial
    · exact hev.congr rfl rfl rfl rfl rfl
    · show Function.update m.pc pid .idle = _
      rw [hmpc]
  have hm := hcase.retires
  cases hcase with
  | superseded hclass =>
    refine hset (h.evidence.retireTaskSyncEvidence ?_) hm.pc hm.intents
    obtain ⟨c, hc, hlt⟩ := committed_of_superseded hclass
    obtain rfl : c = r := Option.some.inj (hc.symm.trans hr)
    rw [hentity] at hlt
    exact hlive.resolve_left (Nat.ne_of_lt hlt)
  | provenPreCommit hclass =>
    rw [committed_of_provenPreCommit hclass] at hr
    cases hr
  | blocked _ _ hmode | deferred hmode => cases hmode
  | retry | refused | missing => exact h.leave
  | fulfilled revision canonical hclass =>
    obtain ⟨-, rfl, -⟩ := committed_of_proceed hclass
    rw [hentity] at hset hm ⊢
    exact hset (h.evidence.finish canonical now) hm.pc hm.intents

/-- 照合する側の write transaction の後。 -/
theorem LossInv.reconcile (h : LossInv env s) (hs : SnapshotInv s) {next attempt : Nat}
    {rest : List TaskSyncIntent} {now : Time}
    (hpc : s.pc pid = .reconciling next (intent :: rest) attempt (.loaded preloaded))
    (hstripe : s.stripe = none) (hpending : s.stillPending intent = true)
    (hcase : FulfillCase env s .reconcile intent preloaded now outcome m) (hnext : pc = .idle
      ∨ (m = s.retireOneTaskSyncIntent intent ∧ pc = SyncPc.reconcileRest next rest)
      ∨ (m = s ∧ pc = .reconciling next (intent :: rest) (attempt + 1) .start)) :
    LossInv env (m.setPc pid pc) := by
  have htracks := h.tracks_at hpc
  have hm := hcase.retires
  have hev : Evidence env m := by
    obtain ⟨i, hi, hid, hmutation, hentity⟩ := exists_of_stillPending hpending
    cases hcase with
    | superseded hclass =>
      exact h.evidence.retireTaskSyncEvidence (h.superseded_reconcile hs hpc hstripe hpending hclass)
    | provenPreCommit hclass =>
      refine h.evidence.retireOneTaskSyncIntent hi hid hmutation ?_
      exact (committedRevision_of_eq hmutation hentity).trans (committed_of_provenPreCommit hclass)
    | blocked diagnostic => exact h.evidence.recordBlocked diagnostic
    | deferred | retry | refused | missing => exact h.evidence
    | fulfilled revision canonical hclass =>
      obtain ⟨-, rfl, -⟩ := committed_of_proceed hclass
      rw [← hentity, h.evidence.entity i hi]
      exact h.evidence.finish canonical now
  refine h.change hs pid pc (hev.congr rfl rfl rfl rfl rfl) ?_ (fun i hi => .inl (hm.intents hi))
    (fun p _ => hs.unowned hstripe p) ?_
  · show Function.update m.pc pid pc = _
    rw [hm.pc]
  · obtain rfl | ⟨rfl, rfl⟩ | ⟨rfl, rfl⟩ := hnext
    · trivial
    · -- 消した意図は、残りの一覧の先頭である
      cases rest with
      | nil => trivial
      | cons first rest =>
        refine ⟨fun i hi hlt => ?_, (List.pairwise_cons.mp htracks.2).2⟩
        obtain ⟨hold, hne⟩ := List.mem_filter.mp hi
        rcases List.mem_cons.mp (htracks.1 i hold hlt) with rfl | hrest
        · exact absurd rfl (of_decide_eq_true hne)
        · exact hrest
    · exact htracks

theorem Transition.lossInv (ht : Transition env s act s') (hg : LosesNothing env s act)
    (hs : SnapshotInv s) (h : LossInv env s) : LossInv env s' := by
  cases ht with
  | stay => exact h
  | enqueue w =>
    exact ⟨h.evidence.congr rfl rfl rfl rfl rfl, fun p => (h.tracks p).congr rfl rfl rfl⟩
  | acquire pid =>
    have hset : LossInv env (s.setPc pid .locked) := h.setPc trivial
    exact ⟨h.evidence.congr rfl rfl rfl rfl rfl, fun p => (hset.tracks p).congr rfl rfl rfl⟩
  | stage _ pid intent hpc hid hentity hreceipt hintents hrecovery =>
    have hfresh : ∀ i ∈ s.intents, i.id < intent.id := fun i hi => by
      rw [hid]
      exact hs.fresh i hi
    have hev := h.evidence.stage hfresh hentity hreceipt hintents hrecovery
    refine h.change hs pid (.staged intent) (hev.congr rfl rfl rfl rfl rfl) rfl
      (fun i hi => ?_)
      (fun p => hs.unowned_of_ne (by rw [hpc]; rfl)) ⟨⟨?_, fun i hi => ?_⟩, hreceipt⟩
    · rcases List.mem_append.mp hi with hold | hnew
      · exact .inl hold
      · rw [List.mem_singleton.mp hnew, hid]
        exact .inr (Nat.le_refl _)
    · exact List.mem_append_right _ List.mem_cons_self
    · rcases List.mem_append.mp hi with hold | hnew
      · exact Nat.le_of_lt (hfresh i hold)
      · rw [List.mem_singleton.mp hnew]
  | commit pid intent origin op db hpc hout hrequest htask hreceipt =>
    obtain ⟨hnewest, hnone⟩ := h.tracks_at hpc
    have hentity := h.evidence.entity intent hnewest.1
    have hself : db.committedRevision intent = some (db.revision env.entityId) := by
      rw [← hentity]
      exact hout.committedRevision_self (htask.trans hentity.symm) hnone hreceipt
    have hev := h.evidence.commit hnewest hout hrequest hself
    exact h.change hs pid (.fulfilling intent 1 .start)
      (hev.congr rfl rfl rfl rfl rfl) rfl (fun i hi => .inl hi)
      (fun p => hs.unowned_of_ne (by rw [hpc]; rfl)) ⟨hnewest, _, hself, .inl rfl⟩
  | refuse _ pid intent hpc =>
    have hat := h.tracks_at hpc
    exact h.setPc hat
  | cancel pid intent hpc =>
    obtain ⟨hnewest, hnone⟩ := h.tracks_at hpc
    have hev := h.evidence.retireOneTaskSyncIntent hnewest.1 rfl rfl
      (committedRevision_of_find?_none hnone)
    exact h.change hs pid .idle (hev.congr rfl rfl rfl rfl rfl) rfl
      (fun i hi => .inl (List.mem_filter.mp hi).1)
      (fun p => hs.unowned_of_ne (by rw [hpc]; rfl)) trivial
  | keepRefused | crash => exact h.leave
  | readMutation _ pid intent attempt f f' hpc =>
    have hat := h.tracks_at hpc
    exact h.setPc hat
  | readReconcile _ pid next intent rest attempt f f' hpc =>
    have hat := h.tracks_at hpc
    exact h.setPc hat
  | mutation pid intent attempt preloaded busy now outcome m hpc hcase =>
    exact h.mutation hs hpc hcase
  | mutationRetry _ pid intent attempt f hpc =>
    have hat := h.tracks_at hpc
    exact h.setPc hat
  | reconcile pid next intent rest attempt preloaded busy now outcome m pc hpc hstripe hpending
      hcase hnext =>
    exact h.reconcile hs hpc hstripe hpending hcase hnext
  | defer => exact h.setPc trivial
  | snapshot pid hpc =>
    refine h.setPc ?_
    have hall : s.pendingTaskSyncIntents = s.intents := by
      refine List.filter_eq_self.mpr fun i hi => ?_
      rw [h.evidence.unresolved i hi]
      rfl
    rw [hall]
    cases hrest : s.intents.reverse with
    | nil => trivial
    | cons first rest =>
      refine ⟨fun i hi _ => ?_, ?_⟩
      · rw [← hrest]
        exact List.mem_reverse.mpr hi
      · rw [← hrest]
        exact List.pairwise_reverse.mpr h.evidence.sorted
  | write origin op hrequest =>
    have hout := @taskStep_outcome env.parseTimestamp origin s.db op
    refine h.write (fun id => hout.find?_receipts (by rw [hrequest]; exact nofun)) hout.advances ?_
    by_cases hsame : (taskStep env.parseTimestamp origin s.db op).2.revision env.entityId
        = s.db.revision env.entityId
    · exact .inl hsame
    · cases op with
      | delete id => exact delete_revision.imp_right .inl
      | _ => exact .inr (.inr (hg.2 (decide_eq_true ⟨hrequest, hsame⟩)))
  | mergeAdmission mergeCommit admission now hstripe =>
    rcases recordMergeAdmission_touched s.db env.entityId mergeCommit admission now with
      heq | htouched
    · rw [heq]
      exact h
    · refine h.write (fun id => by rw [htouched.receipts]) htouched.advances (.inr (.inr ?_))
      refine hg.2 (decide_eq_true ⟨hstripe, ?_⟩)
      rw [htouched.revision_self]
      exact Nat.succ_ne_self _

/-! ## 履歴 -/

/-- 最後に載せた payload は、載せた transaction の前の行から作られている。 -/
def QueuedFrom (env : IntentEnv) (s s' : IntentState) (q : QueuedTask) : Prop :=
  ∃ task intent now, s.db.row? env.entityId = some task
    ∧ s.db.revision env.entityId = q.revision
    ∧ q.payload = env.canonicalPayload q.globalScope task
    ∧ s'.queue = env.queueCanonical (some task) intent q.payload now s.queue

theorem FulfillCase.queued {mode : TaskSyncFulfillMode} {now : Time}
    (h : FulfillCase env s mode intent preloaded now outcome m)
    (hsound : (FulfillPc.loaded preloaded).Sound env s.db intent)
    (hentity : intent.entityId = env.entityId) :
    m.lastQueued = s.lastQueued ∨ ∃ q, m.lastQueued = some q ∧ QueuedFrom env s m q := by
  cases h with
  | fulfilled revision canonical hclass hload =>
    obtain ⟨task, hrow, rfl⟩ :=
      Option.map_eq_some_iff.mp (loadCanonical_of_proceed hclass hload hsound)
    obtain ⟨-, rfl, -⟩ := committed_of_proceed hclass
    refine .inr ⟨_, rfl, task, intent, now, ?_, ?_, rfl, ?_⟩
    · rw [← hentity]
      exact hrow
    · rw [← hentity]
    · rw [← hrow]
      rfl
  | blocked diagnostic =>
    obtain ⟨recovery, heq⟩ := recordBlocked_eq s intent diagnostic
    rw [heq]
    exact .inl rfl
  | superseded | provenPreCommit | deferred | retry | refused | missing => exact .inl rfl

theorem FulfillCase.committed {mode : TaskSyncFulfillMode} {now : Time}
    (h : FulfillCase env s mode intent preloaded now outcome m) : m.committed = s.committed := by
  cases h with
  | blocked diagnostic =>
    obtain ⟨recovery, heq⟩ := recordBlocked_eq s intent diagnostic
    rw [heq]
  | superseded | provenPreCommit | deferred | retry | refused | missing | fulfilled => rfl

/-- 一手で載る payload。 -/
theorem Transition.queued (ht : Transition env s act s') (hp : PayloadInv env s)
    (h : LossInv env s) :
    s'.lastQueued = s.lastQueued ∨ ∃ q, s'.lastQueued = some q ∧ QueuedFrom env s s' q := by
  cases ht with
  | mutation pid intent attempt preloaded busy now outcome m hpc hcase =>
    have hentity := h.evidence.entity intent (h.tracks_at hpc).1.1
    exact hcase.queued (hp.sound pid intent _ (by rw [hpc]; rfl)) hentity
  | reconcile pid next intent rest attempt preloaded busy now outcome m pc hpc _ hpending hcase =>
    obtain ⟨i, hi, -, -, hentity⟩ := exists_of_stillPending hpending
    exact hcase.queued (hp.sound pid intent _ (by rw [hpc]; rfl))
      (hentity.symm.trans (h.evidence.entity i hi))
  | _ => exact .inl rfl

/-- 受領書つきで commit した版の記録は、後になるほど新しい。 -/
theorem Transition.committed (ht : Transition env s act s') (h : LossInv env s) :
    ∀ c ∈ s.committed, ∃ c' ∈ s'.committed, c ≤ c' := by
  intro c hc
  have hkeep : ∀ {m : IntentState}, m.committed = s.committed → ∃ c' ∈ m.committed, c ≤ c' :=
    fun heq => ⟨c, by rw [heq]; exact hc, Nat.le_refl c⟩
  cases ht with
  | commit pid intent origin op db hpc hout =>
    refine ⟨db.revision env.entityId, rfl, ?_⟩
    exact Nat.le_trans (h.evidence.committed_le c hc) (hout.advances.revision_le _)
  | mutation pid intent attempt preloaded busy now outcome m hpc hcase =>
    exact hkeep (m := m.leave pid) hcase.committed
  | reconcile pid next intent rest attempt preloaded busy now outcome m pc hpc _ _ hcase =>
    exact hkeep (m := m.setPc pid pc) hcase.committed
  | _ => exact hkeep rfl

end Steps

/-! ## 実行の全体 -/

/-- 意図も履歴もまだ無い状態。 -/
structure IntentState.Fresh (s : IntentState) : Prop extends s.Started where
  intents : s.intents = []
  committed : s.committed = none
  lastQueued : s.lastQueued = none

section Runs

variable {env : IntentEnv} {s : IntentState} {acts : List IntentAct}

/-- 条件を満たす実行の不変条件。 -/
structure RunInv (env : IntentEnv) (s : IntentState) : Prop where
  payload : PayloadInv env s
  snapshot : SnapshotInv s
  loss : LossInv env s

theorem IntentState.Fresh.runInv (h : s.Fresh) : RunInv env s where
  payload := h.toStarted.payloadInv
  snapshot := h.toStarted.snapshotInv
  loss := by
    have hout : s.outstanding = false := by
      unfold IntentState.outstanding
      rw [h.committed]
      rfl
    refine ⟨⟨?_, ?_, ?_, ?_, ?_, ?_, ?_, fun _ => .inl hout⟩, fun pid => ?_⟩
    · rw [h.intents]; exact nofun
    · rw [h.intents]; exact List.Pairwise.nil
    · rw [h.intents]; exact nofun
    · rw [h.intents]; exact nofun
    · rw [h.intents]; exact nofun
    · rw [h.intents]; exact nofun
    · rw [h.committed]; exact nofun
    · rw [h.toStarted.idle pid]; trivial

theorem RunInv.step (h : RunInv env s) (act : IntentAct) (hg : LosesNothing env s act) :
    RunInv env (intentStep env s act).2 :=
  have ht := intentStep_transition env s act
  { payload := h.payload.step act
    snapshot := ht.snapshotInv h.payload.recorded h.payload.sound hg.1 h.snapshot
    loss := ht.lossInv hg h.snapshot h.loss }

theorem runInv_run (hs : RunInv env s) (hg : Guarded (intentStep env) (LosesNothing env) s acts) :
    RunInv env (run (intentStep env) s acts) :=
  run_invariant (fun _ act h hg => h.step act hg) hs hg

theorem run_concat (acts : List IntentAct) (act : IntentAct) :
    run (intentStep env) s (acts ++ [act]) = (intentStep env (run (intentStep env) s acts) act).2 := by
  rw [run_append]
  rfl

/-- 最後に載せた payload は、実行のどこかの一手が、その前の行から作ったものである。 -/
theorem queued_run (hs : RunInv env s) (hlast : s.lastQueued = none)
    (hg : Guarded (intentStep env) (LosesNothing env) s acts) {q : QueuedTask}
    (hq : (run (intentStep env) s acts).lastQueued = some q) :
    ∃ pre act post, acts = pre ++ act :: post
      ∧ QueuedFrom env (run (intentStep env) s pre) (run (intentStep env) s (pre ++ [act])) q := by
  -- 最後の手が載せたのでなければ、その前の実行が載せている
  induction acts using List.reverseRecOn with
  | nil =>
    rw [run_nil, hlast] at hq
    cases hq
  | append_singleton acts act ih =>
    have hpre := (guarded_append.mp hg).1
    have hinv := runInv_run hs hpre
    rw [run_concat] at hq
    rcases (intentStep_transition env _ act).queued hinv.payload hinv.loss with
      hsame | ⟨q', hq', hfrom⟩
    · obtain ⟨pre, act', post, rfl, hfrom⟩ := ih hpre (hsame.symm.trans hq)
      exact ⟨pre, act', post ++ [act], by simp, hfrom⟩
    · obtain rfl : q' = q := Option.some.inj (hq'.symm.trans hq)
      rw [← run_concat] at hfrom
      exact ⟨acts, act, [], rfl, hfrom⟩

/-- 途中で commit した版は、最後の記録より新しくない。 -/
theorem committed_run (hs : RunInv env s)
    (hg : Guarded (intentStep env) (LosesNothing env) s acts) {c : Nat} (hc : c ∈ s.committed) :
    ∃ c' ∈ (run (intentStep env) s acts).committed, c ≤ c' := by
  induction acts generalizing s c with
  | nil => exact ⟨c, hc, Nat.le_refl c⟩
  | cons act acts ih =>
    obtain ⟨c₁, hc₁, hle⟩ := (intentStep_transition env s act).committed hs.loss c hc
    obtain ⟨c₂, hc₂, hle'⟩ := ih (hs.step act hg.1) hg.2 hc₁
    exact ⟨c₂, hc₂, Nat.le_trans hle hle'⟩

theorem queued_of_not_outstanding (h : s.outstanding = false) :
    ∀ c ∈ s.committed, ∃ q ∈ s.lastQueued, c ≤ q.revision := by
  intro c hc
  unfold IntentState.outstanding at h
  rw [hc] at h
  cases hq : s.lastQueued with
  | none =>
    rw [hq] at h
    cases h
  | some q =>
    rw [hq] at h
    exact ⟨q, rfl, Nat.not_lt.mp (of_decide_eq_false h)⟩

/--
変更の漏れなさの仕様。

意図も履歴も無い状態から、変更・照合・取り込み・削除・直接の書き込みをどう織り交ぜ、どこで倒れても、条件を満たす
実行では、残っている意図が無く task があるなら、受領書つきで commit したどの版についても、それより古くない版の行の
payload が最後に載せられている。その payload は、実行の中の一手が、その前の状態の行から作って列に載せたものである。
-/
theorem committed_mutations_queued (env : IntentEnv) (s : IntentState) (acts : List IntentAct)
    (hs : s.Fresh) (hg : Guarded (intentStep env) (LosesNothing env) s acts) :
    let after := run (intentStep env) s
    (after acts).pendingTaskSyncIntents = [] →
    ((after acts).db.row? env.entityId).isSome = true →
    ∀ pre, pre <+: acts → ∀ c ∈ (after pre).committed,
      ∃ q, (after acts).lastQueued = some q ∧ c ≤ q.revision
        ∧ ∃ mid act post, acts = mid ++ act :: post
          ∧ QueuedFrom env (after mid) (after (mid ++ [act])) q := by
  intro after hpending hrow pre hpre c hc
  have hinv : RunInv env (after acts) := runInv_run hs.runInv hg
  have hempty : (after acts).intents = [] := by
    rw [← hpending]
    refine (List.filter_eq_self.mpr fun i hi => ?_).symm
    rw [hinv.loss.evidence.unresolved i hi]
    rfl
  have hdone : (after acts).outstanding = false := by
    refine (hinv.loss.evidence.covered hrow).resolve_right ?_
    rintro ⟨i, hi, -⟩
    rw [hempty] at hi
    cases hi
  obtain ⟨post, rfl⟩ := hpre
  obtain ⟨hgpre, hgpost⟩ := guarded_append.mp hg
  obtain ⟨c', hc', hle⟩ := committed_run (runInv_run hs.runInv hgpre) hgpost hc
  rw [← run_append] at hc'
  obtain ⟨q, hq, hle'⟩ := queued_of_not_outstanding hdone c' hc'
  exact ⟨q, hq, Nat.le_trans hle hle', queued_run hs.runInv hs.lastQueued hg hq⟩

end Runs

/-! ## 実行の例 -/

/-- 題だけの task を持つ、意図の無い store。 -/
def draftStore : IntentState where
  db := opened { base := { tasks := Table.empty.insertOrIgnore (titledTask "draft") } }
  queue := SyncQueue.empty

theorem draftStore_fresh : draftStore.Fresh where
  recorded := opened_recorded _
  idle _ := rfl
  fresh := nofun
  intents := rfl
  committed := rfl
  lastQueued := rfl

/-- cloud から取り込んだ題。 -/
def pullTitle (expected title : String) (seen now : Time) : IntentAct :=
  .write none (.updateFromSync (titledTask title)
    { titledTask expected with updatedAt := seen } now now)

/-- 題を書き換えて載せ、cloud の題を取り込み、また書き換えて載せる。 -/
def editPullEdit : List IntentAct :=
  editTitle 0 "m1" "first" 5 ++ fulfill 0 6 ++ pullTitle "first" "pulled" 5 7
    :: editTitle 1 "m2" "second" 8 ++ fulfill 1 9

theorem committed_mutations_queued_pulled :
    draftStore.Fresh
      ∧ (run (intentStep titleStore) draftStore editPullEdit).committed = some 4
      ∧ ∃ q, (run (intentStep titleStore) draftStore editPullEdit).lastQueued = some q
        ∧ 4 ≤ q.revision := by
  -- この実行では意図を残して去る処理が無く、取り込みのときには前の題がもう載っている
  have hkept : Guarded (intentStep titleStore) (fun s act => (s.abandonedBy act).isNone = true
      ∧ (s.rewrites titleStore act = true → s.outstanding = false)) draftStore editPullEdit := by
    decide
  have hcommitted : (run (intentStep titleStore) draftStore editPullEdit).committed = some 4 := by
    decide
  have hguard : Guarded (intentStep titleStore) (LosesNothing titleStore) draftStore
      editPullEdit := by
    refine hkept.imp fun s act hnone => ⟨fun intent hintent => ?_, hnone.2⟩
    rw [Option.mem_def.mp hintent] at hnone
    cases hnone.1
  obtain ⟨q, hq, hle, -⟩ := committed_mutations_queued titleStore draftStore editPullEdit
    draftStore_fresh hguard (by decide) (by decide) editPullEdit
    (List.prefix_refl _) 4 hcommitted
  exact ⟨draftStore_fresh, hcommitted, q, hq, hle⟩

/-- 題を書き換えて倒れた後、照合の前に cloud の題を取り込む。 -/
def editCrashPull : List IntentAct :=
  editTitle 0 "m1" "first" 5 ++ [.crash 0, pullTitle "first" "pulled" 5 7, .snapshot 1] ++ fulfill 1 9

/-- 照合は追い越された意図として消し、書き換えは一度も列に載らない。 -/
theorem committed_mutation_lost_after_pull :
    let s := run (intentStep titleStore) draftStore editCrashPull
    draftStore.Fresh ∧ s.pendingTaskSyncIntents = []
      ∧ (s.db.row? titleStore.entityId).map Task.title = some "pulled"
      ∧ s.committed = some 2 ∧ s.db.revision titleStore.entityId = 3
      ∧ s.lastQueued.isNone = true ∧ s.queue.table.rows = [] :=
  ⟨draftStore_fresh, by decide⟩

end Cassy
