import Cassy.Properties.PushContent

/-!
# 個人の行を捨てる証拠

`neutralize_team_only_personal` と `purge_team_owned_personal_rejections` が個人の行を捨てるのは、その行の今の中身と
JSON として等しい値を、その team とその project に inserted か updated と cloud が名指した後に限る。

鍵は、どの受領証にも、同じ宛先・同じ相手・同じ digest の名指しが履歴にあることである（`AckInv`）。これから書く受領証に
ついては `PushInv` が同じことを言っている。行を捨てるときは、行の今の中身の digest が受領証のものと等しいので、
digest が単射なら中身が等しい。
-/

namespace Cassy

open Infra

variable {δ : Type} [DecidableEq δ] {env : DeliveryEnv δ} {cfg : PushConfig} {s : PushState δ}

/-! ## 受領証と名指し -/

/-- 受領証に対応する名指しがある。 -/
def TeamDeliveryAck.Delivered (env : DeliveryEnv δ) (log : List Delivery)
    (ack : TeamDeliveryAck δ) : Prop :=
  ∃ d ∈ log, d.teamId = ack.teamId ∧ d.projectId = ack.projectId
    ∧ d.entityType = ack.entityType ∧ d.entityId = ack.entityId
    ∧ env.digest d.value = ack.payloadSha256

omit [DecidableEq δ] in
theorem TeamDeliveryAck.Delivered.mono {log log' : List Delivery} {ack : TeamDeliveryAck δ}
    (h : ack.Delivered env log) (hlog : log ⊆ log') : ack.Delivered env log' := by
  obtain ⟨d, hd, hmatch⟩ := h
  exact ⟨d, hlog hd, hmatch⟩

/-- どの受領証にも名指しがある。 -/
structure AckInv (env : DeliveryEnv δ) (s : PushState δ) : Prop extends PushInv s where
  acks : ∀ entry ∈ s.outbox.acks, entry.2.Delivered env s.delivered

namespace Outbox

variable {ob : Outbox δ} {log : List Delivery}

/-- 名指された値の受領証を書いても、どの受領証にも名指しがある。 -/
theorem acks_recordAck {item personal : QueuedSync} {value : Json} {teamId projectId : String}
    (hlog : ⟨teamId, projectId, item.entityType, item.entityId, value⟩ ∈ log)
    (h : ∀ entry ∈ ob.acks, entry.2.Delivered env log) :
    ∀ entry ∈ (recordAck env item value teamId projectId ob personal).acks,
      entry.2.Delivered env log := by
  unfold recordAck
  split
  next hcovered =>
    intro entry hentry
    rcases mem_mapInsert hentry with rfl | hentry
    · have hsame := hcovered.1
      simp only [snapshotCovered, Bool.and_eq_true, decide_eq_true_eq] at hsame
      exact ⟨_, hlog, rfl, rfl, hsame.1.1.1.1.symm, hsame.1.1.1.2.symm, rfl⟩
    · exact h entry hentry
  · exact h

theorem acks_foldl_recordAck {item : QueuedSync} {value : Json} {teamId projectId : String}
    (hlog : ⟨teamId, projectId, item.entityType, item.entityId, value⟩ ∈ log)
    (snapshots : List QueuedSync) (h : ∀ entry ∈ ob.acks, entry.2.Delivered env log) :
    ∀ entry ∈ (snapshots.foldl (recordAck env item value teamId projectId) ob).acks,
      entry.2.Delivered env log := by
  induction snapshots generalizing ob with
  | nil => exact h
  | cons personal snapshots ih => exact ih (acks_recordAck hlog h)

theorem acks_acknowledgeTeamWrite {item : QueuedSync} {value : Json} {teamId projectId : String}
    {snapshots : List QueuedSync}
    (hlog : ⟨teamId, projectId, item.entityType, item.entityId, value⟩ ∈ log)
    (h : ∀ entry ∈ ob.acks, entry.2.Delivered env log) :
    ∀ entry ∈ (ob.acknowledgeTeamWrite env item value teamId projectId snapshots).acks,
      entry.2.Delivered env log := by
  unfold acknowledgeTeamWrite
  split
  · exact acks_foldl_recordAck hlog snapshots h
  · exact h

end Outbox

theorem QueueCall.acks_run {ob : Outbox δ} {log : List Delivery} {sent : List QueuedSync}
    {call : QueueCall} (hfrom : call.From sent log)
    (h : ∀ entry ∈ ob.acks, entry.2.Delivered env log) :
    ∀ entry ∈ (call.run env cfg ob).acks, entry.2.Delivered env log := by
  cases call with
  | acknowledgeTeamWrite item value teamId projectId snapshots =>
    exact Outbox.acks_acknowledgeTeamWrite hfrom.2 h
  | markSynced id => exact h
  | markFailed id error => exact h
  | parkFailed id error => exact h
  | recordRowOutcome id outcome reason => exact h

/-! ## 行を捨てる手 -/

/-- 行の今の中身に合う受領証がある。 -/
def Receipted (env : DeliveryEnv δ) (ob : Outbox δ) (teamId projectId : String) (r : QueueRow) :
    Prop :=
  ∃ ack, (r.id, ack) ∈ ob.acks ∧ ack.teamId = teamId ∧ ack.projectId = projectId
    ∧ ack.entityType = r.entityType ∧ ack.entityId = r.entityId
    ∧ env.payloadDigest r.payload = some ack.payloadSha256

theorem receipted_of_receiptMatches {ob ob₀ : Outbox δ} {teamId projectId : String} {r : QueueRow}
    (hacks : ob.acks ⊆ ob₀.acks) (h : ob.receiptMatches env r.mapRow teamId projectId) :
    Receipted env ob₀ teamId projectId r := by
  unfold Outbox.receiptMatches at h
  split at h
  · cases h
  next ack hack =>
    simp only [Bool.and_eq_true, decide_eq_true_eq] at h
    exact ⟨ack, hacks (mem_of_mapGet hack), h.1.1.1.2, h.1.1.2, h.1.1.1.1.1.1.1.2,
      h.1.1.1.1.1.1.2, h.2⟩

/-- `ob₀` から、受領証に合う行だけが消えている。 -/
structure Retired (env : DeliveryEnv δ) (teamId projectId : String) (ob₀ ob : Outbox δ) :
    Prop where
  acks : ob.acks ⊆ ob₀.acks
  rows : ob.queue.rows ⊆ ob₀.queue.rows
  gone : ∀ r ∈ ob₀.queue.rows, r ∉ ob.queue.rows → Receipted env ob₀ teamId projectId r

namespace Retired

variable {teamId projectId : String} {ob₀ ob : Outbox δ}

omit [DecidableEq δ] in
theorem refl (env : DeliveryEnv δ) (teamId projectId : String) (ob : Outbox δ) :
    Retired env teamId projectId ob ob :=
  ⟨List.Subset.refl _, List.Subset.refl _, fun _ hr hgone => absurd hr hgone⟩

/-- 証拠を確かめた行をもう一つ捨てる。番号が等しい行は、確かめた行そのものである。 -/
theorem removeWithReceipt (h : Retired env teamId projectId ob₀ ob) {r₀ : QueueRow}
    (hr₀ : r₀ ∈ ob₀.queue.rows) (hmatch : ob.receiptMatches env r₀.mapRow teamId projectId) :
    Retired env teamId projectId ob₀ (ob.removeWithReceipt r₀.id) where
  acks := List.Subset.trans List.filter_sublist.subset h.acks
  rows := fun r hr => h.rows (SyncQueue.mem_delete.mp hr).1
  gone := by
    intro r hr hgone
    by_cases hmem : r ∈ ob.queue.rows
    · have hid : r.id = r₀.id := by
        by_contra hne
        exact hgone (SyncQueue.mem_delete.mpr ⟨hmem, by simp [hne]⟩)
      rw [SyncQueue.eq_of_id hr hr₀ hid]
      exact receipted_of_receiptMatches h.acks hmatch
    · exact h.gone r hr hmem

end Retired

omit [DecidableEq δ] in
theorem exists_row_of_mem_personalRows {ob : Outbox δ} {item : QueuedSync}
    (h : item ∈ ob.personalRows) : ∃ r ∈ ob.queue.rows, r.mapRow = item := by
  obtain ⟨r, hr, rfl⟩ := List.mem_map.mp h
  exact ⟨r, List.mem_of_mem_filter (List.mem_mergeSort.mp hr), rfl⟩

theorem foldl_neutralizeOne_retired {teamId projectId : String} {ob₀ : Outbox δ} :
    ∀ (items : List QueuedSync) (ob : Outbox δ),
      (∀ item ∈ items, ∃ r ∈ ob₀.queue.rows, r.mapRow = item) →
      Retired env teamId projectId ob₀ ob →
      Retired env teamId projectId ob₀ (items.foldl (Outbox.neutralizeOne env teamId projectId) ob)
  | [], _, _, h => h
  | item :: items, ob, hitems, h => by
    refine foldl_neutralizeOne_retired items _
      (fun item' hitem' => hitems item' (List.mem_cons_of_mem _ hitem')) ?_
    unfold Outbox.neutralizeOne
    split
    next hmatch =>
      obtain ⟨r₀, hr₀, rfl⟩ := hitems item List.mem_cons_self
      exact h.removeWithReceipt hr₀ hmatch
    · exact h

theorem neutralizeTeamOnlyPersonal_retired (ob : Outbox δ) (teamId projectId : String) :
    Retired env teamId projectId ob (ob.neutralizeTeamOnlyPersonal env teamId projectId) :=
  foldl_neutralizeOne_retired ob.personalRows ob (fun _ => exists_row_of_mem_personalRows)
    (Retired.refl env teamId projectId ob)

theorem foldl_purgeOne_retired {teamId projectId : String} {ids : List Nat} {dryRun : Bool}
    {ob₀ : Outbox δ} :
    ∀ (items : List QueuedSync) (acc : List TeamOwnedCleanupRow × Outbox δ),
      (∀ item ∈ items, ∃ r ∈ ob₀.queue.rows, r.mapRow = item) →
      Retired env teamId projectId ob₀ acc.2 →
      Retired env teamId projectId ob₀
        (items.foldl (Outbox.purgeOne env teamId projectId ids dryRun) acc).2
  | [], _, _, h => h
  | item :: items, acc, hitems, h => by
    refine foldl_purgeOne_retired items _
      (fun item' hitem' => hitems item' (List.mem_cons_of_mem _ hitem')) ?_
    unfold Outbox.purgeOne
    split
    · exact h
    · dsimp only
      split
      next heligible =>
        obtain ⟨r₀, hr₀, rfl⟩ := hitems item List.mem_cons_self
        simp only [Outbox.cleanupRow, Bool.and_eq_true] at heligible
        exact h.removeWithReceipt hr₀ heligible.1.2
      · exact h

theorem purgeTeamOwned_retired (ob : Outbox δ) (teamId projectId : String) (ids : List Nat)
    (dryRun : Bool) :
    Retired env teamId projectId ob
      (ob.purgeTeamOwnedPersonalRejections env teamId projectId ids dryRun).2 := by
  unfold Outbox.purgeTeamOwnedPersonalRejections
  split
  · exact Retired.refl env teamId projectId ob
  · dsimp only
    split
    · exact Retired.refl env teamId projectId ob
    · exact foldl_purgeOne_retired ob.personalRows ([], ob)
        (fun _ => exists_row_of_mem_personalRows) (Retired.refl env teamId projectId ob)

/-! ## 一手は受領証の不変条件を保つ -/

/-- 列だけが変わる手では、受領証も名指しの履歴も変わらない。 -/
theorem pushNext_acks (hi : AckInv env s) (act : PushAct) :
    ∀ entry ∈ (pushNext env cfg s act).outbox.acks,
      entry.2.Delivered env (pushNext env cfg s act).delivered := by
  cases act with
  | enqueue store localProject w => exact hi.acks
  | enqueueTeamMove entityType entityId oldProjectId newProjectId payload teamId now =>
    exact hi.acks
  | dropUserPrompts => exact hi.acks
  | dropUnauthored store ledger localProject => exact hi.acks
  | select pid kind entityType limit =>
    simp only [pushNext]
    split
    · exact hi.acks
    · exact hi.acks
  | neutralizeDelete pid store item =>
    simp only [pushNext]
    split
    · split
      · split
        · exact hi.acks
        · exact hi.acks
      · exact hi.acks
    · exact hi.acks
  | sendUpserts pid items entityKey project =>
    simp only [pushNext]
    split
    · split
      · exact hi.acks
      · exact hi.acks
    · exact hi.acks
  | sendDeletes pid deletes =>
    simp only [pushNext]
    split
    · split
      · exact hi.acks
      · exact hi.acks
    · exact hi.acks
  | respond pid response =>
    simp only [pushNext]
    split
    · split
      · exact hi.acks
      · exact fun entry hentry =>
          (hi.acks entry hentry).mono (List.subset_append_right _ _)
    · exact hi.acks
  | respondDeletes pid errors =>
    simp only [pushNext]
    split
    · exact hi.acks
    · exact hi.acks
  | settle pid =>
    simp only [pushNext]
    split
    next kind queued sent call calls hpc =>
      have hwf := hi.wellFormed pid
      rw [hpc] at hwf
      exact QueueCall.acks_run (hwf.2 call List.mem_cons_self) hi.acks
    · exact hi.acks
    · exact hi.acks
  | finish pid => exact hi.acks
  | neutralizeTeamOnly teamId projectId =>
    exact fun entry hentry => hi.acks entry
      ((neutralizeTeamOnlyPersonal_retired s.outbox teamId projectId).acks hentry)
  | purgeTeamOwned teamId projectId ids dryRun =>
    exact fun entry hentry => hi.acks entry
      ((purgeTeamOwned_retired s.outbox teamId projectId ids dryRun).acks hentry)

theorem pushNext_ackInv (hi : AckInv env s) (act : PushAct) :
    AckInv env (pushNext env cfg s act) where
  toPushInv := pushNext_inv hi.toPushInv act
  acks := pushNext_acks hi act

/-! ## 証拠のある行だけが捨てられる -/

/-- 個人の行を捨てる手の、team と project。 -/
def retireTarget : PushAct → Option (String × String)
  | .neutralizeTeamOnly teamId projectId => some (teamId, projectId)
  | .purgeTeamOwned teamId projectId _ _ => some (teamId, projectId)
  | _ => none

/-- 行の今の中身と JSON として等しい値が、その team と project に名指されている。 -/
def DeliveredNow (env : DeliveryEnv δ) (s : PushState δ) (teamId projectId : String)
    (r : QueueRow) : Prop :=
  ∃ d ∈ s.delivered, d.teamId = teamId ∧ d.projectId = projectId
    ∧ d.entityType = r.entityType ∧ d.entityId = r.entityId
    ∧ env.payloadValue r.payload = some d.value

/-- 捨てる手が満たすべきこと。`stays` は、名指しの後に中身の変わった行が残ることである。 -/
structure RetiresDelivered (env : DeliveryEnv δ) (cfg : PushConfig) (s : PushState δ)
    (act : PushAct) : Prop where
  removed : ∀ target ∈ retireTarget act, ∀ r ∈ s.outbox.queue.rows,
    r ∉ (pushNext env cfg s act).outbox.queue.rows → DeliveredNow env s target.1 target.2 r
  stays : ∀ target ∈ retireTarget act, ∀ r ∈ s.outbox.queue.rows,
    ¬ DeliveredNow env s target.1 target.2 r → r ∈ (pushNext env cfg s act).outbox.queue.rows

omit [DecidableEq δ] in
/-- digest が単射なら、受領証に合う中身は名指された値に等しい。 -/
theorem deliveredNow_of_receipted (hi : AckInv env s) (hdigest : Function.Injective env.digest)
    {teamId projectId : String} {r : QueueRow} (h : Receipted env s.outbox teamId projectId r) :
    DeliveredNow env s teamId projectId r := by
  obtain ⟨ack, hack, rfl, rfl, htype, hid, hpayload⟩ := h
  obtain ⟨d, hd, hteam, hproject, hdtype, hdid, hdvalue⟩ := hi.acks _ hack
  refine ⟨d, hd, hteam, hproject, hdtype.trans htype, hdid.trans hid, ?_⟩
  simp only [DeliveryEnv.payloadDigest, Option.map_eq_some_iff] at hpayload
  obtain ⟨v, hv, hdv⟩ := hpayload
  rw [hv, hdigest (hdv.trans hdvalue.symm)]

theorem retiresDelivered_of_inv (hi : AckInv env s) (hdigest : Function.Injective env.digest)
    (act : PushAct) : RetiresDelivered env cfg s act := by
  have hretired : ∀ target ∈ retireTarget act,
      Retired env target.1 target.2 s.outbox (pushNext env cfg s act).outbox := by
    intro target htarget
    cases act with
    | neutralizeTeamOnly teamId projectId =>
      cases htarget
      exact neutralizeTeamOnlyPersonal_retired s.outbox teamId projectId
    | purgeTeamOwned teamId projectId ids dryRun =>
      cases htarget
      exact purgeTeamOwned_retired s.outbox teamId projectId ids dryRun
    | _ => cases htarget
  have hremoved : ∀ target ∈ retireTarget act, ∀ r ∈ s.outbox.queue.rows,
      r ∉ (pushNext env cfg s act).outbox.queue.rows →
      DeliveredNow env s target.1 target.2 r := fun target htarget r hr hgone =>
    deliveredNow_of_receipted hi hdigest ((hretired target htarget).gone r hr hgone)
  refine ⟨hremoved, ?_⟩
  intro target htarget r hr hnot
  by_contra hgone
  exact hnot (hremoved target htarget r hr hgone)

/--
個人の行は、今の中身が team に届いたと名指された後にだけ捨てられる。

列の初めの中身は何でもよく、受領証は一枚も無く、push はまだ走っていない。手元の変更、team の push と任意の返事、
捨てる手がどの順に並んでもよい。
-/
theorem personal_rows_retired_delivered (env : DeliveryEnv δ) (cfg : PushConfig)
    (hdigest : Function.Injective env.digest) (s : PushState δ)
    (hidle : ∀ pid, s.pc pid = .idle) (hacks : s.outbox.acks = []) (acts : List PushAct) :
    ∀ pre act post, acts = pre ++ act :: post →
      RetiresDelivered env cfg (run (pushStep env cfg) s pre) act := by
  rintro pre act post rfl
  have hstart : AckInv env s :=
    { wellFormed := fun pid => by rw [hidle pid]; trivial
      tracks := fun pid item hitem => by
        rw [hidle pid] at hitem
        exact absurd hitem List.not_mem_nil
      acks := fun entry hentry => by
        rw [hacks] at hentry
        exact absurd hentry List.not_mem_nil }
  have hi : AckInv env (run (pushStep env cfg) s pre) :=
    run_invariant' (I := AckInv env) (fun s act h => pushNext_ackInv h act) hstart
  exact retiresDelivered_of_inv hi hdigest act

/-! ## 配達の例 -/

/-- 例に使う payload。 -/
def ownedPayload : String := "\x7b\"origin_project\":\"p\"\x7d"

def ownedValue : Json := .object [("origin_project", .string "p")]

/-- 例に使う payload だけを読む環境。digest は値そのものとする。 -/
def ownedEnv : DeliveryEnv Json where
  parse := fun text => if text = ownedPayload then some ownedValue else none
  digest := id

/-- 個人と team に積んだ、同じ task の書き込み。 -/
def ownedWrite (teamId : String) : QueueWrite where
  entityType := .task
  entityId := "cas-1"
  operation := .upsert
  payload := some ownedPayload
  teamId := teamId
  now := 1

/-- 二つを積み、team の行を送り、cloud が inserted と答え、始末するまで。 -/
def deliverOwned : List PushAct :=
  [.enqueue [] none (ownedWrite ""), .enqueue [] none (ownedWrite "t"),
    .select 0 (.team "t") none 10,
    .sendUpserts 0 [(((ownedWrite "t").row 2).mapRow, ownedValue)] "tasks" "p",
    .respond 0 (.ok { rows := .ok (some [{ id := "cas-1", outcome := .inserted }]) }), .settle 0]

/-- 配達の後の片付けは、待っていた個人の行を捨てる。 -/
theorem personal_rows_retired_delivered_owned :
    (ownedWrite "").row 1
        ∉ (pushNext ownedEnv titleConfig
            (run (pushStep ownedEnv titleConfig) emptyOutbox deliverOwned)
            (.neutralizeTeamOnly "t" "p")).outbox.queue.rows
      ∧ RetiresDelivered ownedEnv titleConfig
        (run (pushStep ownedEnv titleConfig) emptyOutbox deliverOwned)
        (.neutralizeTeamOnly "t" "p") :=
  ⟨by decide +kernel,
    personal_rows_retired_delivered ownedEnv titleConfig (fun _ _ h => h) emptyOutbox (fun _ => rfl)
      rfl (deliverOwned ++ [.neutralizeTeamOnly "t" "p"]) deliverOwned _ [] rfl⟩

end Cassy
