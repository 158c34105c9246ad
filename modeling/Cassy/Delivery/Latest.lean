import Cassy.Infra.OrderLimit
import Cassy.Infra.SqlRow
import Cassy.Notes.Ops

/-!
# 最新の配達

task の最新の配達を選ぶ問い合わせは四つある。

| 関数 | 選ぶ行 | 並び |
|---|---|---|
| `delivery_owns_task_lifecycle` | transaction の task | receipt の `created_at`、receipt の `id` |
| `get_latest_worker_delivery` | receipt の task | receipt の `created_at` |
| `request_changes_for_parked_delivery_with_merge_sources` | transaction の task | receipt の `created_at` |
| `correct_parked_delivery_proof_scope_inner` | transaction の task | transaction の `created_at` |

receipt の時刻は receipt を組み立てた側の時計、transaction の時刻は最初に保存したときの時計である。
-/

namespace Cassy

open Infra

namespace ProofDb

/-- 配達の一行。transaction とその receipt である。 -/
abbrev DeliveryRow := WorkerDeliveryTransaction × WorkerCompletionReceipt

variable (db : ProofDb) (taskId : String)

/-- `worker_delivery_transactions t JOIN worker_completion_receipts r ON r.id = t.receipt_id`。 -/
def deliveryRows : List DeliveryRow :=
  joinOn (fun t r => t.receiptId = r.id) db.transactions.rows db.receipts.rows

/-- `ORDER BY r.created_at DESC`。 -/
def laterReceipt (x y : DeliveryRow) : Bool := y.2.createdAt < x.2.createdAt

/-- `ORDER BY r.created_at DESC, r.id DESC`。 -/
def laterReceiptOrId (x y : DeliveryRow) : Bool :=
  y.2.createdAt < x.2.createdAt ∨ x.2.createdAt = y.2.createdAt ∧ y.2.id < x.2.id

/-- `ORDER BY created_at DESC`。 -/
def laterTransaction (t t' : WorkerDeliveryTransaction) : Bool := t'.createdAt < t.createdAt

/-- `delivery_owns_task_lifecycle` が選びうる配達。 -/
def SelectsOwning (t : Option WorkerDeliveryTransaction) : Prop :=
  ∃ o, MayReturn laterReceiptOrId (db.deliveryRows.filter fun x => x.1.taskId = taskId) o
    ∧ o.map Prod.fst = t

/-- `get_latest_worker_delivery` が選びうる配達。 -/
def SelectsLatest (t : Option WorkerDeliveryTransaction) : Prop :=
  ∃ o, MayReturn laterReceipt (db.deliveryRows.filter fun x => x.2.taskId = taskId) o
    ∧ o.map Prod.fst = t

/-- `request_changes_for_parked_delivery_with_merge_sources` が選びうる配達。 -/
def SelectsForRequest (t : Option WorkerDeliveryTransaction) : Prop :=
  ∃ o, MayReturn laterReceipt (db.deliveryRows.filter fun x => x.1.taskId = taskId) o
    ∧ o.map Prod.fst = t

/-- `correct_parked_delivery_proof_scope_inner` が選びうる配達。 -/
def SelectsForCorrection (t : Option WorkerDeliveryTransaction) : Prop :=
  MayReturn laterTransaction (db.transactions.rows.filter fun t => t.taskId = taskId) t

end ProofDb

end Cassy
