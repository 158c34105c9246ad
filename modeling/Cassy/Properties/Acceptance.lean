import Cassy.Infra.Run
import Cassy.Properties.DeliveryStep

/-!
# 受領は一度きりで、lease に守られる

受領・lease の操作・配達の遷移をどう並べて実行しても次が成り立つことを示す。

* receipt・transaction・割り当ての行が増えるのは、呼び手が task の有効な lease をその世代で
  握る生きた worker のときだけである
* lease の無い呼び出しは何も変えない。成功するのは丁度、残っている行の再読のときである
* 落ちた呼び出しは何も変えない
* receipt ごとに transaction は高々一つで、その最初の状態の event は丁度一つである

最後のものは event の id の衝突が無いことを要する。id は SHA-256 の先頭 24 桁で、
`INSERT OR IGNORE` は衝突した event を黙って捨てる。
-/

namespace Cassy

open Infra

namespace ProofDb

variable {H : Digests} {db db' : ProofDb}
variable {receipt : WorkerCompletionReceipt} {actor : String} {t : WorkerDeliveryTransaction}
  {state : WorkerDeliveryState} {repository : Option RepositoryProofBoundary}

/-- 呼び手は生きた worker で、task の期限内の lease をその世代で握っている。 -/
def LeaseFence (db : ProofDb) (receipt : WorkerCompletionReceipt) (actor : String)
    (epoch : UInt64) (now : Time) : Prop :=
  receipt.workerAgentId = actor ∧ ∃ l a, db.base.taskLeases.find? receipt.taskId = some l
    ∧ l.status = .active ∧ l.agentId = actor ∧ l.epoch = epoch ∧ now < l.expiresAt
    ∧ db.base.agents.find? actor = some a ∧ a.role = .worker ∧ a.status.isLive = true

theorem leaseAuthorizes_iff {epoch : UInt64} {now : Time} :
    db.leaseAuthorizes receipt actor epoch now = true ↔ db.LeaseFence receipt actor epoch now := by
  simp only [leaseAuthorizes, LeaseFence, Option.any_eq_true, Bool.and_eq_true, decide_eq_true_eq]
  constructor
  · rintro ⟨l, hl, hs, a, ha, hw, hla, he, hr, hlive, hnow⟩
    exact ⟨hw, l, a, hl, hs, hla, he, hnow, hla ▸ ha, hr, hlive⟩
  · rintro ⟨hw, l, a, hl, hs, hla, he, hnow, ha, hr, hlive⟩
    exact ⟨l, hl, hs, a, hla ▸ ha, hw, hla, he, hr, hlive, hnow⟩

/-- 残っている行の再読。 -/
structure ExactReplay (db : ProofDb) (receipt : WorkerCompletionReceipt) (actor : String)
    (repository : Option RepositoryProofBoundary) (t : WorkerDeliveryTransaction)
    (d : VerificationDispatch) : Prop where
  own : receipt.workerAgentId = actor
  /-- 他の session は task の lease を握っていない。 -/
  unleased : ∀ l, db.base.taskLeases.find? receipt.taskId = some l → l.status = .active →
    l.agentId = actor
  live : ∃ a, db.base.agents.find? actor = some a ∧ a.role = .worker ∧ a.status.isLive = true
  receipt_mem : ∃ r, db.receipts.find? receipt.id = some r
    ∧ sameImmutableReceiptPayload r receipt = true
  transaction_mem : t ∈ db.transactions.rows
  transaction_receipt : t.receiptId = receipt.id
  latest : db.latestDispatch? receipt.taskId = some d
  dispatch_receipt : d.receiptId = some receipt.id
  dispatch_transaction : d.deliveryTransactionId = some t.id
  candidate : repository.isSome → d.repository = repository

/-- receipt ごとの transaction と、状態ごとの event の一意性。 -/
structure Indexed (db : ProofDb) : Prop where
  transaction_unique : ∀ t ∈ db.transactions.rows, ∀ t' ∈ db.transactions.rows,
    t.receiptId = t'.receiptId → t = t'
  event_unique : ∀ e ∈ db.events.rows, ∀ e' ∈ db.events.rows,
    e.transactionId = e'.transactionId → e.state = e'.state → e = e'

theorem transactionForReceipt?_eq_some (hi : db.Indexed) {receiptId : String} :
    db.transactionForReceipt? receiptId = some t
      ↔ t ∈ db.transactions.rows ∧ t.receiptId = receiptId := by
  constructor
  · intro h
    exact ⟨List.mem_of_find?_eq_some h, by simpa using List.find?_some h⟩
  · rintro ⟨hmem, hr⟩
    cases hf : db.transactionForReceipt? receiptId with
    | none =>
      have := List.find?_eq_none.mp hf t hmem
      simp [hr] at this
    | some t' =>
      have hr' : t'.receiptId = receiptId := by simpa using List.find?_some hf
      rw [hi.transaction_unique t' (List.mem_of_find?_eq_some hf) t hmem (hr'.trans hr.symm)]

/-- 再読が返すのは、残っている行である。 -/
theorem exactReceiptReplay?_eq_some (hi : db.Indexed) {d : VerificationDispatch} :
    db.exactReceiptReplay? receipt actor = some (t, d)
      ↔ db.ExactReplay receipt actor none t d := by
  unfold exactReceiptReplay?
  simp only [Option.bind_eq_bind]
  constructor
  · intro h
    split at h
    · simp at h
    · next hguard =>
      simp only [not_or, not_not, Option.any_eq_true, decide_eq_true_eq] at hguard
      obtain ⟨hown, hforeign, hlive⟩ := hguard
      simp only [Option.bind_eq_some_iff] at h
      obtain ⟨persisted, hp, h⟩ := h
      split at h
      · next hsame =>
        simp only [Option.bind_eq_some_iff, Option.filter_eq_some_iff, decide_eq_true_eq,
          Option.pure_def, Option.some.injEq, Prod.mk.injEq] at h
        obtain ⟨t', ht, d', ⟨hd, hdr, hdt⟩, rfl, rfl⟩ := h
        obtain ⟨hmem, hr⟩ := (transactionForReceipt?_eq_some hi).mp ht
        refine ⟨hown, fun l hl hs => ?_, hlive, ⟨persisted, hp, hsame⟩, hmem, hr, hd, hdr, hdt,
          by simp⟩
        rw [hl] at hforeign
        simpa [hs] using hforeign
      · simp at h
  · intro h
    obtain ⟨r, hr, hsame⟩ := h.receipt_mem
    have ht := (transactionForReceipt?_eq_some hi).mpr ⟨h.transaction_mem, h.transaction_receipt⟩
    rw [if_neg]
    · simp [hr, hsame, ht, h.latest, h.dispatch_receipt, h.dispatch_transaction, Option.filter]
    · rintro (hown | hforeign | hlive)
      · exact hown h.own
      · obtain ⟨l, hl, hs⟩ := (Option.any_eq_true _ _).mp hforeign
        rw [decide_eq_true_eq] at hs
        exact hs.2 (h.unleased l hl hs.1)
      · obtain ⟨a, ha, hrole, hl⟩ := h.live
        simp [ha, hrole, hl] at hlive

/-- lease の無い呼び出しは、再読に成功するか落ちるかで、表は変えない。 -/
theorem createWorkerDeliveryForLease_replay (hi : db.Indexed) {epoch : UInt64} {owner : String}
    {deadlineAt : Time} {rid : String} {readings : DeliveryReadings}
    (hl : ¬ db.LeaseFence receipt actor epoch readings.leaseAt) {d : VerificationDispatch} :
    db.createWorkerDeliveryForLease H receipt state actor epoch owner deadlineAt repository rid
        readings = .ok ((t, d), db')
      ↔ db.ExactReplay receipt actor repository t d ∧ db' = db := by
  unfold createWorkerDeliveryForLease
  rw [if_neg fun h => hl (leaseAuthorizes_iff.mp h)]
  constructor
  · intro h
    split at h
    · next replay hr =>
      simp only [bind_eq_ok, ensure_eq_ok, pure_eq_ok, Prod.mk.injEq] at h
      obtain ⟨-, hrep, rfl, rfl⟩ := h
      exact ⟨{ (exactReceiptReplay?_eq_some hi).mp hr with candidate := hrep }, rfl⟩
    · simp at h
  · rintro ⟨h, rfl⟩
    have hr := (exactReceiptReplay?_eq_some hi).mpr { h with candidate := by simp }
    rw [hr]
    simp only [bind_eq_ok, ensure_eq_ok, pure_eq_ok]
    exact ⟨⟨⟩, h.candidate, trivial⟩

/-! ## 受領 -/

@[simp] theorem insertEvent_transactions {transactionId : String} {detail : Option String}
    {now : Time} :
    (db.insertEvent H transactionId state actor detail now).transactions = db.transactions := by
  unfold insertEvent
  dsimp only
  split <;> rfl

/-- event の挿入は event の表だけで決まる。 -/
theorem insertEvent_events_congr (h : db'.events = db.events) {transactionId : String}
    {detail : Option String} {now : Time} :
    (db'.insertEvent H transactionId state actor detail now).events
      = (db.insertEvent H transactionId state actor detail now).events := by
  unfold insertEvent eventVacant
  dsimp only
  rw [h]
  split
  · rfl
  · exact h

/-- 受領の本体。transaction を挿すのは、receipt の transaction がまだ無いときである。 -/
theorem createWorkerDelivery_spec {now : Time}
    (h : db.createWorkerDelivery H receipt state actor now = .ok (t, db')) :
    (db'.transactions = db.transactions ∧ db'.events = db.events)
      ∨ (db.transactionForReceipt? receipt.id = none
        ∧ db.transactions.insert? (newTransaction receipt state now) = some db'.transactions
        ∧ db'.events = (db.insertEvent H (workerDeliveryTransactionId receipt.id) state actor none
          now).events) := by
  simp only [createWorkerDelivery, bind_eq_ok, ensure_eq_ok, okOr_eq_ok] at h
  obtain ⟨persisted, -, -, -, t', -, h⟩ := h
  unfold insertTransaction at h
  split at h
  · -- 既に transaction がある
    rw [if_neg (by simp)] at h
    simp only [bind_eq_ok, ensure_eq_ok, pure_eq_ok, Prod.mk.injEq] at h
    obtain ⟨-, -, -, rfl⟩ := h
    exact Or.inl ⟨rfl, rfl⟩
  · next hnone =>
    split at h
    · rw [if_neg (by simp)] at h
      simp only [bind_eq_ok, ensure_eq_ok, pure_eq_ok, Prod.mk.injEq] at h
      obtain ⟨-, -, -, rfl⟩ := h
      exact Or.inl ⟨rfl, rfl⟩
    · next transactions hins =>
      rw [if_pos rfl] at h
      cases h
      refine Or.inr ⟨Option.not_isSome_iff_eq_none.mp hnone, ?_, ?_⟩
      · rw [insertEvent_transactions]
        exact hins
      · apply insertEvent_events_congr
        rfl

/-- 空いていれば挿さり、塞がっていれば既にある。衝突が無ければ event は残る。 -/
theorem exists_insertEvent {transactionId : String} {detail : Option String} {now : Time}
    (hfree : ∀ e ∈ db.events.rows, e.id = deliveryEventId H transactionId state →
      e.transactionId = transactionId ∧ e.state = state) :
    ∃ e ∈ (db.insertEvent H transactionId state actor detail now).events.rows,
      e.transactionId = transactionId ∧ e.state = state := by
  unfold insertEvent
  dsimp only
  split
  · next hvacant =>
    simp only [eventVacant, Bool.not_eq_true', List.any_eq_false, decide_eq_true_eq] at hvacant
    have hnone : db.events.find? (deliveryEventId H transactionId state) = none :=
      Table.find?_eq_none_iff.mpr fun e he hid => hvacant e he (hfree e he hid)
    obtain ⟨events, hins⟩ := Table.insert?_isSome (t := db.events)
      (r := { id := deliveryEventId H transactionId state, transactionId, state
              actorAgentId := actor, detail, createdAt := now }) hnone
    rw [Table.insertOrIgnore, hins, Option.getD_some]
    exact ⟨_, (Table.mem_insert? hins).mpr (Or.inr rfl), rfl, rfl⟩
  · next hvacant =>
    simp only [eventVacant, Bool.not_eq_true', Bool.not_eq_false, List.any_eq_true,
      decide_eq_true_eq] at hvacant
    exact hvacant

/-! ## 一意性の保存 -/

/-- 空いた場所への event の追加は、状態ごとの一意性を保つ。 -/
theorem event_unique_insert (hi : db.Indexed) {e : WorkerDeliveryEvent}
    {events : Table WorkerDeliveryEvent.id} (hvacant : db.eventVacant e = true)
    (hins : db.events.insert? e = some events) :
    ∀ e₁ ∈ events.rows, ∀ e₂ ∈ events.rows,
      e₁.transactionId = e₂.transactionId → e₁.state = e₂.state → e₁ = e₂ := by
  simp only [eventVacant, Bool.not_eq_true', List.any_eq_false, decide_eq_true_eq] at hvacant
  intro e₁ h₁ e₂ h₂ ht hs
  rcases (Table.mem_insert? hins).mp h₁ with h₁ | rfl
  · rcases (Table.mem_insert? hins).mp h₂ with h₂ | rfl
    · exact hi.event_unique e₁ h₁ e₂ h₂ ht hs
    · exact absurd ⟨ht, hs⟩ (hvacant e₁ h₁)
  · rcases (Table.mem_insert? hins).mp h₂ with h₂ | rfl
    · exact absurd ⟨ht.symm, hs.symm⟩ (hvacant e₂ h₂)
    · rfl

theorem Accrues.event_unique (h : Accrues db db') (hi : db.Indexed) :
    ∀ e₁ ∈ db'.events.rows, ∀ e₂ ∈ db'.events.rows,
      e₁.transactionId = e₂.transactionId → e₁.state = e₂.state → e₁ = e₂ := by
  rcases h.events with heq | ⟨e, hvacant, hins⟩
  · rw [heq]
    exact hi.event_unique
  · exact event_unique_insert hi hvacant hins

/-- 残っている event は残る。 -/
theorem Accrues.event_kept (h : Accrues db db') {e : WorkerDeliveryEvent}
    (he : e ∈ db.events.rows) : e ∈ db'.events.rows := by
  rcases h.events with heq | ⟨e', -, hins⟩
  · rw [heq]
    exact he
  · exact (Table.mem_insert? hins).mpr (Or.inl he)

/-- 後の transaction は、前の transaction と id も receipt も同じである。 -/
theorem Accrues.transaction_from (h : Accrues db db') {t' : WorkerDeliveryTransaction}
    (ht' : t' ∈ db'.transactions.rows) :
    ∃ t ∈ db.transactions.rows, t.id = t'.id ∧ t.receiptId = t'.receiptId := by
  have hmem : (t'.id, t'.receiptId) ∈ db'.deliveryKeys := List.mem_map.mpr ⟨t', ht', rfl⟩
  rw [h.keys_eq] at hmem
  obtain ⟨t, ht, hkey⟩ := List.mem_map.mp hmem
  rw [Prod.mk.injEq] at hkey
  exact ⟨t, ht, hkey.1, hkey.2⟩

theorem Accrues.indexed (h : Accrues db db') (hi : db.Indexed) : db'.Indexed where
  transaction_unique t' ht' t'' ht'' hr := by
    obtain ⟨t₁, ht₁, hid₁, hr₁⟩ := h.transaction_from ht'
    obtain ⟨t₂, ht₂, hid₂, hr₂⟩ := h.transaction_from ht''
    have := hi.transaction_unique t₁ ht₁ t₂ ht₂ (hr₁.trans (hr.trans hr₂.symm))
    exact Table.eq_of_key ht' ht'' (by rw [← hid₁, ← hid₂, this])
  event_unique := h.event_unique hi

/-- 受領が成功したときの三つの場合。 -/
theorem createWorkerDeliveryForLease_cases {epoch : UInt64} {owner : String} {deadlineAt : Time}
    {rid : String} {readings : DeliveryReadings}
    {r : WorkerDeliveryTransaction × VerificationDispatch}
    (h : db.createWorkerDeliveryForLease H receipt state actor epoch owner deadlineAt repository
      rid readings = .ok (r, db')) :
    db' = db ∨ (db.LeaseFence receipt actor epoch readings.leaseAt
      ∧ ((db'.transactions = db.transactions ∧ db'.events = db.events)
        ∨ (db.transactionForReceipt? receipt.id = none
          ∧ db.transactions.insert? (newTransaction receipt state readings.createdAt)
            = some db'.transactions
          ∧ db'.events = (db.insertEvent H (workerDeliveryTransactionId receipt.id) state actor
            none readings.createdAt).events))) := by
  unfold createWorkerDeliveryForLease at h
  split at h
  · next hl =>
    simp only [bind_eq_ok, pure_eq_ok, Prod.mk.injEq] at h
    obtain ⟨⟨d, db₁⟩, hcreate, ⟨t, db₂⟩, hdel, -, rfl⟩ := h
    obtain ⟨dispatches, rfl⟩ := createDispatch_frame hcreate
    refine Or.inr ⟨leaseAuthorizes_iff.mp hl, ?_⟩
    rcases createWorkerDelivery_spec hdel with heq | ⟨hnone, hins, hev⟩
    · exact Or.inl heq
    · refine Or.inr ⟨hnone, hins, hev.trans ?_⟩
      apply insertEvent_events_congr
      rfl
  · split at h
    · simp only [bind_eq_ok, ensure_eq_ok, pure_eq_ok, Prod.mk.injEq] at h
      exact Or.inl h.choose_spec.2.2.symm
    · simp at h

theorem createWorkerDeliveryForLease_indexed {epoch : UInt64} {owner : String} {deadlineAt : Time}
    {rid : String} {readings : DeliveryReadings}
    {r : WorkerDeliveryTransaction × VerificationDispatch}
    (h : db.createWorkerDeliveryForLease H receipt state actor epoch owner deadlineAt repository
      rid readings = .ok (r, db')) (hi : db.Indexed) : db'.Indexed := by
  rcases createWorkerDeliveryForLease_cases h with rfl | ⟨-, ⟨ht, he⟩ | ⟨hnone, hins, he⟩⟩
  · exact hi
  · exact ⟨by rw [ht]; exact hi.transaction_unique, by rw [he]; exact hi.event_unique⟩
  · constructor
    · have hnew : ∀ t ∈ db.transactions.rows, t.receiptId ≠ receipt.id := fun t ht => by
        simpa using List.find?_eq_none.mp hnone t ht
      intro t ht t' ht' hr
      rcases (Table.mem_insert? hins).mp ht with ht | rfl
      · rcases (Table.mem_insert? hins).mp ht' with ht' | rfl
        · exact hi.transaction_unique t ht t' ht' hr
        · exact absurd hr (hnew t ht)
      · rcases (Table.mem_insert? hins).mp ht' with ht' | rfl
        · exact absurd hr.symm (hnew t' ht')
        · rfl
    · rw [he]
      exact insertEvent_accrues.event_unique hi

end ProofDb

/-! ## 一歩 -/

/-- 操作が receipt・transaction・割り当ての行を増やした。 -/
def Inserts (op : ProofOp) (db db' : ProofDb) : Prop :=
  (∃ r ∈ db'.receipts.rows, db.receipts.find? r.id = none)
    ∨ (∃ t ∈ db'.transactions.rows, db.transactions.find? t.id = none)
    ∨ (op.opensDispatch = false ∧ ∃ d ∈ db'.dispatches.rows, db.dispatches.find? d.id = none)

/-- 受領の呼び手が lease を握っている。 -/
def ProofOp.LeaseFenced (db : ProofDb) : ProofOp → Prop
  | deliver receipt _ actor epoch _ _ _ _ readings =>
    db.LeaseFence receipt actor epoch readings.leaseAt
  | _ => False

/-- 受領の書く event の id が、他の transaction や状態の event に使われていない。 -/
def NoEventCollision (H : Digests) (s : ProofState) : ProofOp → Prop
  | .deliver receipt state _ _ _ _ _ _ _ => ∀ e ∈ s.db.events.rows,
    e.id = ProofDb.deliveryEventId H (workerDeliveryTransactionId receipt.id) state →
      e.transactionId = workerDeliveryTransactionId receipt.id ∧ e.state = state
  | _ => True

instance (H : Digests) (s : ProofState) (op : ProofOp) : Decidable (NoEventCollision H s op) :=
  match op with
  | .deliver receipt state _ _ _ _ _ _ _ => inferInstanceAs (Decidable (∀ e ∈ s.db.events.rows,
      e.id = ProofDb.deliveryEventId H (workerDeliveryTransactionId receipt.id) state →
        e.transactionId = workerDeliveryTransactionId receipt.id ∧ e.state = state))
  | .createDispatch .. | .claimDispatch .. | .resolveDispatch .. | .timeoutDispatch ..
  | .extendDeadline .. | .adoptOrphaned .. | .newCycle .. | .repositoryDrift .. | .rebind ..
  | .issueCapability .. | .issueHandoff .. | .bindCapability .. | .bindHandoff ..
  | .bindHandoffAndRegister .. | .cancelHandoff .. | .consumeCapability .. | .consumeHandoff ..
  | .requestChanges .. | .correctScope .. | .transition .. | .transitionVerification ..
  | .agent .. | .external .. => .isTrue trivial

section Steps

variable {H : Digests} {db db' : ProofDb} {s : ProofState} {op : ProofOp}

/-- 行を増やした受領の呼び手は lease を握っている。 -/
theorem inserts_fenced {r : ProofRes} (h : op.body H db = .ok (r, db'))
    (hins : Inserts op db db') : op.LeaseFenced db := by
  cases hop : op.isDeliver with
  | false =>
    have hacc := ProofOp.body_accrues h hop
    rcases hins with ⟨x, hx, hnone⟩ | ⟨x, hx, hnone⟩ | ⟨hopen, x, hx, hnone⟩
    · rw [hacc.receipts_eq] at hx
      rw [Table.find?_of_mem hx] at hnone
      simp at hnone
    · obtain ⟨t, ht, hid, -⟩ := hacc.transaction_from hx
      rw [← hid, Table.find?_of_mem ht] at hnone
      simp at hnone
    · exact absurd hnone (Table.find?_ne_none_of_map_eq (ProofOp.body_dispatchIds h hop hopen) hx)
  | true =>
    cases op with
    | deliver receipt state actor epoch owner deadlineAt repository rid readings =>
      simp only [ProofOp.body, mapResult_eq_ok] at h
      obtain ⟨_, hb, -⟩ := h
      rcases ProofDb.createWorkerDeliveryForLease_cases hb with rfl | ⟨hl, -⟩
      · rcases hins with ⟨x, hx, hnone⟩ | ⟨x, hx, hnone⟩ | ⟨-, x, hx, hnone⟩
        all_goals
          rw [Table.find?_of_mem hx] at hnone
          simp at hnone
      · exact hl
    | _ => simp [ProofOp.isDeliver] at hop

theorem proofStep_indexed (H : Digests) (s : ProofState) (op : ProofOp) (hi : s.db.Indexed) :
    (proofStep H s op).2.db.Indexed := by
  rcases commit_snd_cases s.db (op.body H s.db) with heq | ⟨r, db', hb, heq⟩
  · rw [show (proofStep H s op).2.db = s.db from heq]
    exact hi
  rw [show (proofStep H s op).2.db = db' from heq]
  cases hop : op.isDeliver with
  | false => exact (ProofOp.body_accrues hb hop).indexed hi
  | true =>
    cases op with
    | deliver =>
      simp only [ProofOp.body, mapResult_eq_ok] at hb
      obtain ⟨_, hc, -⟩ := hb
      exact ProofDb.createWorkerDeliveryForLease_indexed hc hi
    | _ => simp [ProofOp.isDeliver] at hop

/-- event は消えない。 -/
theorem proofStep_event_kept {e : WorkerDeliveryEvent} (he : e ∈ s.db.events.rows) :
    e ∈ (proofStep H s op).2.db.events.rows := by
  rcases commit_snd_cases s.db (op.body H s.db) with heq | ⟨r, db', hb, heq⟩
  · rw [show (proofStep H s op).2.db = s.db from heq]
    exact he
  rw [show (proofStep H s op).2.db = db' from heq]
  cases hop : op.isDeliver with
  | false => exact (ProofOp.body_accrues hb hop).event_kept he
  | true =>
    cases op with
    | deliver =>
      simp only [ProofOp.body, mapResult_eq_ok] at hb
      obtain ⟨_, hc, -⟩ := hb
      rcases ProofDb.createWorkerDeliveryForLease_cases hc with rfl | ⟨-, ⟨-, hev⟩ | ⟨-, -, hev⟩⟩
      · exact he
      · rw [hev]
        exact he
      · rw [hev]
        exact ProofDb.insertEvent_accrues.event_kept he
    | _ => simp [ProofOp.isDeliver] at hop

/-- 新しい transaction には、最初の状態の event が付く。 -/
theorem proofStep_initial_event (hg : NoEventCollision H s op) {t : WorkerDeliveryTransaction}
    (ht : t ∈ (proofStep H s op).2.db.transactions.rows)
    (hnew : s.db.transactions.find? t.id = none) :
    ∃ e ∈ (proofStep H s op).2.db.events.rows, e.transactionId = t.id ∧ e.state = t.state := by
  have hold : t ∉ s.db.transactions.rows := fun hmem =>
    absurd hnew (by rw [Table.find?_of_mem hmem]; simp)
  rcases commit_snd_cases s.db (op.body H s.db) with heq | ⟨r, db', hb, heq⟩
  · rw [show (proofStep H s op).2.db = s.db from heq] at ht
    exact absurd ht hold
  rw [show (proofStep H s op).2.db = db' from heq] at ht ⊢
  have hfenced := inserts_fenced hb (Or.inr (Or.inl ⟨t, ht, hnew⟩))
  cases op with
  | deliver receipt state actor epoch owner deadlineAt repository rid readings =>
    simp only [ProofOp.body, mapResult_eq_ok] at hb
    obtain ⟨_, hc, -⟩ := hb
    rcases ProofDb.createWorkerDeliveryForLease_cases hc with
      rfl | ⟨-, ⟨htx, -⟩ | ⟨-, hins, hev⟩⟩
    · exact absurd ht hold
    · exact absurd (htx ▸ ht) hold
    · rcases (Table.mem_insert? hins).mp ht with hmem | rfl
      · exact absurd hmem hold
      · rw [hev]
        exact ProofDb.exists_insertEvent hg
  | _ => exact hfenced.elim

end Steps

/-! ## 実行の全体 -/

/-- 受領が一度きりで、lease に守られていること。 -/
structure ReceiptAcceptance (H : Digests) (s : ProofState) (ops : List ProofOp) : Prop where
  /-- 行が増えるのは、呼び手が lease を握るときだけである。 -/
  inserted_under_lease : ∀ e ∈ trace (proofStep H) s ops,
    Inserts e.op e.before.db (proofStep H e.before e.op).2.db → e.op.LeaseFenced e.before.db
  /-- lease の無い呼び出しは何も変えず、残っている行の再読のときにだけ、その行を返す。 -/
  replayed : ∀ e ∈ trace (proofStep H) s ops,
    ∀ receipt state actor epoch owner deadlineAt repository rid readings,
      e.op = .deliver receipt state actor epoch owner deadlineAt repository rid readings →
      ¬ e.before.db.LeaseFence receipt actor epoch readings.leaseAt →
        (proofStep H e.before e.op).2.db = e.before.db
          ∧ ∀ r, e.result = .ok r ↔ ∃ t d, r = .delivery t d
            ∧ e.before.db.ExactReplay receipt actor repository t d
  /-- 落ちた操作は何も変えない。 -/
  failed_unchanged : ∀ e ∈ trace (proofStep H) s ops, ∀ err, e.result = .error err →
    (proofStep H e.before e.op).2.db = e.before.db
  /-- receipt ごとの transaction は高々一つ。 -/
  one_transaction : ∀ pre, pre <+: ops → ∀ t ∈ (run (proofStep H) s pre).db.transactions.rows,
    ∀ t' ∈ (run (proofStep H) s pre).db.transactions.rows, t.receiptId = t'.receiptId → t = t'
  /-- 新しい transaction の最初の状態の event は、以後ずっと丁度一つ。 -/
  initial_event : ∀ pre op mid, pre ++ op :: mid <+: ops →
    ∀ t ∈ (run (proofStep H) s (pre ++ [op])).db.transactions.rows,
      (run (proofStep H) s pre).db.transactions.find? t.id = none →
        (run (proofStep H) s (pre ++ op :: mid)).db.events.count
          (fun e => e.transactionId = t.id && e.state = t.state) = 1

section Runs

variable {H : Digests} {s : ProofState} {ops : List ProofOp}

theorem run_indexed (hi : s.db.Indexed) : (run (proofStep H) s ops).db.Indexed :=
  run_invariant' (I := fun s : ProofState => s.db.Indexed) (proofStep_indexed H) hi

/-- lease の無い受領の一歩。 -/
theorem proofStep_replayed {receipt : WorkerCompletionReceipt} {state : WorkerDeliveryState}
    {actor : String} {epoch : UInt64} {owner : String} {deadlineAt : Time}
    {repository : Option RepositoryProofBoundary} {rid : String}
    {readings : ProofDb.DeliveryReadings} {op : ProofOp}
    (hop : op = .deliver receipt state actor epoch owner deadlineAt repository rid readings)
    (hi : s.db.Indexed) (hl : ¬ s.db.LeaseFence receipt actor epoch readings.leaseAt) :
    (proofStep H s op).2.db = s.db ∧ ∀ r, (proofStep H s op).1 = .ok r
      ↔ ∃ t d, r = .delivery t d ∧ s.db.ExactReplay receipt actor repository t d := by
  subst hop
  have hspec : ∀ t d db', s.db.createWorkerDeliveryForLease H receipt state actor epoch owner
      deadlineAt repository rid readings = .ok ((t, d), db')
        ↔ s.db.ExactReplay receipt actor repository t d ∧ db' = s.db := fun t d db' =>
    ProofDb.createWorkerDeliveryForLease_replay hi hl
  change (commit s.db (mapResult (fun r => ProofRes.delivery r.1 r.2)
      (s.db.createWorkerDeliveryForLease H receipt state actor epoch owner deadlineAt repository
        rid readings))).2 = s.db
    ∧ ∀ r, (commit s.db (mapResult (fun r => ProofRes.delivery r.1 r.2)
      (s.db.createWorkerDeliveryForLease H receipt state actor epoch owner deadlineAt repository
        rid readings))).1 = .ok r ↔ _
  generalize s.db.createWorkerDeliveryForLease H receipt state actor epoch owner deadlineAt
    repository rid readings = body at hspec ⊢
  cases body with
  | error err =>
    refine ⟨rfl, fun r => ⟨fun h => by simp [mapResult, Except.map] at h, ?_⟩⟩
    rintro ⟨t, d, -, hr⟩
    have := (hspec t d s.db).mpr ⟨hr, rfl⟩
    simp at this
  | ok res =>
    obtain ⟨⟨t, d⟩, db'⟩ := res
    obtain ⟨hr, rfl⟩ := (hspec t d db').mp rfl
    refine ⟨rfl, fun r => ⟨fun h => ?_, ?_⟩⟩
    · simp only [mapResult, Except.map, commit_ok, Except.ok.injEq] at h
      exact ⟨t, d, h.symm, hr⟩
    · rintro ⟨t', d', rfl, hr'⟩
      have := (hspec t' d' s.db).mpr ⟨hr', rfl⟩
      simp only [Except.ok.injEq, Prod.mk.injEq] at this
      simp [mapResult, Except.map, this.1.1, this.1.2]

/-- 残っている event は、一意性と合わせて丁度一つである。 -/
theorem run_event_count {transactionId : String} {state : WorkerDeliveryState}
    (hi : s.db.Indexed)
    (he : ∃ e ∈ s.db.events.rows, e.transactionId = transactionId ∧ e.state = state) :
    (run (proofStep H) s ops).db.events.count
      (fun e => e.transactionId = transactionId && e.state = state) = 1 := by
  obtain ⟨e, he, ht, hs⟩ := he
  have hkept : e ∈ (run (proofStep H) s ops).db.events.rows :=
    run_invariant' (I := fun s : ProofState => e ∈ s.db.events.rows)
      (fun _ _ he => proofStep_event_kept he) he
  refine Table.count_eq_one (Table.find?_of_mem hkept) (fun e' he' hp => ?_) (by simp [ht, hs])
  simp only [Bool.and_eq_true, decide_eq_true_eq] at hp
  rw [(run_indexed hi).event_unique e' he' e hkept (hp.1.trans ht.symm) (hp.2.trans hs.symm)]

/--
**受領は一度きりで、lease に守られる。**

始まりの database は一意索引を満たす任意のもので、操作の並びも任意である。
-/
theorem receipt_acceptance (H : Digests) (s : ProofState) (ops : List ProofOp)
    (hi : s.db.Indexed) (hg : Guarded (proofStep H) (NoEventCollision H) s ops) :
    ReceiptAcceptance H s ops where
  inserted_under_lease e _ hins := by
    rcases commit_snd_cases e.before.db (e.op.body H e.before.db) with heq | ⟨r, db', hb, heq⟩
    · rw [show (proofStep H e.before e.op).2.db = e.before.db from heq] at hins
      rcases hins with ⟨x, hx, hnone⟩ | ⟨x, hx, hnone⟩ | ⟨-, x, hx, hnone⟩
      all_goals
        rw [Table.find?_of_mem hx] at hnone
        simp at hnone
    · rw [show (proofStep H e.before e.op).2.db = db' from heq] at hins
      exact inserts_fenced hb hins
  replayed e he receipt state actor epoch owner deadlineAt repository rid readings hop hl := by
    obtain ⟨pre, post, -, hbefore, hr⟩ := exists_split_of_mem_trace he
    have hidx : e.before.db.Indexed := hbefore ▸ run_indexed hi
    rw [hr]
    exact proofStep_replayed hop hidx hl
  failed_unchanged e he err herr := by
    obtain ⟨-, -, -, -, hr⟩ := exists_split_of_mem_trace he
    rw [herr] at hr
    exact commit_snd_of_error hr.symm
  one_transaction pre _ := (run_indexed hi).transaction_unique
  initial_event pre op mid hpre t ht hnew := by
    obtain ⟨post, rfl⟩ := hpre
    have hguard : NoEventCollision H (run (proofStep H) s pre) op := by
      rw [List.append_assoc, guarded_append] at hg
      exact hg.2.1
    rw [run_append, run_cons, run_nil] at ht
    rw [run_append, run_cons]
    exact run_event_count (proofStep_indexed H _ op (run_indexed hi))
      (proofStep_initial_event hguard ht hnew)

/-- `deliveryRun` の receipt。 -/
def deliveryReceipt : WorkerCompletionReceipt where
  id := "wcr-1"
  taskId := "cas-1"
  workerAgentId := "worker"
  workerName := "worker"
  repoSelector := "repo"
  sourceBranch := "factory/worker"
  commitSha := "1111111"
  mergeBaseSha := "2222222"
  targetBranch := "main"
  targetSha := "2222222"
  proofReference := "proof"
  scopeSummary := "scope"
  createdAt := seconds 1

/-- `deliveryReceipt` の受領。 -/
def deliverAt (now : Time) (rid : String) : ProofOp :=
  .deliver deliveryReceipt .awaitingVerification "worker" 1 "supervisor" (seconds 600) none rid
    ⟨now, now, now⟩

/-- worker が task を取り、完了を報告し、lease を手放した後にもう一度報告する実行。 -/
def deliveryRun : List ProofOp :=
  [.external (Table.empty.insertOrIgnore { id := "cas-1" }) .empty [],
    .agent (.register { id := "worker", name := "worker", role := .worker, registeredAt := 0
                        lastHeartbeat := 0 } none (.ok ()) ""),
    .agent (.tryClaim "cas-1" "worker" 600 none (seconds 1)),
    deliverAt (seconds 2) "00000000000000000000000000000001",
    .agent (.releaseLease "cas-1" "worker"),
    deliverAt (seconds 3) "00000000000000000000000000000002"]

/-- `deliveryRun` に現れる入力での SHA-256 の値。 -/
def deliveryDigests : Digests where
  capabilityToken _ := ""
  handoffTool _ := ""
  handoffSecret _ := ""
  delivery _ := "d619c1de0e7daea8b89a3d65d620323bc4b977dcc9d78cca4560f3872ad14db8"

theorem receipt_acceptance_deliveryRun :
    Guarded (proofStep deliveryDigests) (NoEventCollision deliveryDigests) {} deliveryRun
      ∧ (run (proofStep deliveryDigests) {} deliveryRun).db.transactions.rows.map (·.id) = ["wdt-1"]
      ∧ (run (proofStep deliveryDigests) {} deliveryRun).db.events.rows.map (·.transactionId)
        = ["wdt-1"]
      ∧ ReceiptAcceptance deliveryDigests {} deliveryRun :=
  ⟨by decide, by decide, by decide,
    receipt_acceptance deliveryDigests {} deliveryRun
      ⟨fun _ h => absurd h List.not_mem_nil, fun _ h => absurd h List.not_mem_nil⟩
      (by decide)⟩

end Runs

/-!
## 受領の id

id を作る列は、受付時刻のほかの引数を決める。隣り合う部分の継ぎ目も、`artifact_path` の有無も、取り違えられない。
受付時刻は列に入らないので、同じ報告を後から繰り返しても id は変わらない。
-/

theorem strBytes_inj {s t : String} (h : strBytes s = strBytes t) : s = t :=
  String.toByteArray_inj.mp (ByteArray.ext (Array.toList_inj.mp h))

theorem selfDelimiting_digestPart :
    SelfDelimiting digestPart fun part => (strBytes part).length < 2 ^ 64 :=
  selfDelimiting_lengthPrefix 8 (by decide) strBytes_inj

/-- 並べた部分は読み分けられる。 -/
theorem digestInput_inj {ps qs : List String} (hp : ∀ part ∈ ps, (strBytes part).length < 2 ^ 64)
    (hq : ∀ part ∈ qs, (strBytes part).length < 2 ^ 64) (h : digestInput ps = digestInput qs) :
    ps = qs :=
  selfDelimiting_digestPart.flatMap_inj hp hq h

/-- 部分の並びは、報告と名前を決める。 -/
theorem WorkerCompletionReceiptInput.parts_inj {i j : WorkerCompletionReceiptInput} {v w : String}
    (h : i.parts v = j.parts w) : i = j ∧ v = w := by
  cases i
  cases j
  simp only [parts, List.cons_append, List.nil_append, List.cons.injEq] at h
  obtain ⟨rfl, rfl, rfl, rfl, rfl, rfl, rfl, rfl, rfl, rfl, rfl, hpath⟩ := h
  have hpath := congrArg List.head? hpath
  rw [Option.head?_toList, Option.head?_toList] at hpath
  exact ⟨by rw [hpath], rfl⟩

/--
**受領の id は報告を決める。**

id を作る列が等しいのは、受付時刻のほかの引数がすべて等しいときに限る。
-/
theorem preimage_eq_iff (a b : ReceiptArgs) (ha : a.Fits) (hb : b.Fits) :
    a.preimage = b.preimage ↔ a.input = b.input ∧ a.workerName = b.workerName := by
  constructor
  · intro h
    exact WorkerCompletionReceiptInput.parts_inj (digestInput_inj ha hb h)
  · rintro ⟨hinput, hname⟩
    unfold ReceiptArgs.preimage
    rw [hinput, hname]

/-- 継ぎ目だけが違う二つの報告。 -/
def shiftedArgs (task worker : String) (path : Option String) (createdAt : Time) : ReceiptArgs where
  input :=
    { taskId := task, workerAgentId := worker, repoSelector := "", sourceBranch := "", commitSha := "c"
      mergeBaseSha := "", targetBranch := "", targetSha := "", proofReference := "", scopeSummary := ""
      artifactPath := path }
  workerName := "w"
  createdAt := createdAt

theorem preimage_ne_shifted :
    (shiftedArgs "ta" "b" none 0).preimage ≠ (shiftedArgs "t" "ab" none 0).preimage :=
  fun h => absurd
    ((preimage_eq_iff _ _ (by decide) (by decide)).mp h).1 (by decide)

/-- 受付時刻は列に入らない。 -/
theorem preimage_of_later :
    (shiftedArgs "t" "a" none 0).preimage = (shiftedArgs "t" "a" none 1).preimage
      ∧ shiftedArgs "t" "a" none 0 ≠ shiftedArgs "t" "a" none 1 :=
  ⟨rfl, by decide⟩

end Cassy
