import Cassy.Delivery.Latest

/-!
# 最新の配達は一つか

四つの問い合わせは並びの鍵が違う。三つは receipt を組み立てた時刻で、`correct_parked_delivery_proof_scope_inner` は transaction を保存した
時刻で並べる。組み立てた順と保存した順が入れ替わっていれば、証明範囲の訂正だけが別の配達に当たる（`deliveries_persisted_out_of_order`）。

四つがいつも同じ行を選ぶのは、receipt の時刻でも transaction の時刻でもほかの全部より真に新しい配達があるときか、配達が一つも
無いときに限る（`one_latest_iff`）。
-/

namespace Cassy

open Infra

namespace ProofDb

variable {db : ProofDb} {taskId : String} {t t' : WorkerDeliveryTransaction}
  {r r' : WorkerCompletionReceipt} {x y : DeliveryRow}

/-! ## 配達の行 -/

theorem mem_deliveryRows :
    x ∈ db.deliveryRows ↔ x.1 ∈ db.transactions.rows ∧ x.2 ∈ db.receipts.rows
      ∧ x.1.receiptId = x.2.id := by
  rw [deliveryRows, mem_joinOn, decide_eq_true_eq]

/-- 配達の行は、transaction で決まる。 -/
theorem deliveryRows_inj (hx : x ∈ db.deliveryRows) (hy : y ∈ db.deliveryRows)
    (h : x.1 = y.1) : x = y := by
  obtain ⟨-, hxr, hxid⟩ := mem_deliveryRows.mp hx
  obtain ⟨-, hyr, hyid⟩ := mem_deliveryRows.mp hy
  have hid : x.2.id = y.2.id := by rw [← hxid, ← hyid, h]
  exact Prod.ext h (Table.eq_of_key hxr hyr hid)

/-- どの transaction にも receipt がある。 -/
def ReceiptsComplete (db : ProofDb) : Prop :=
  ∀ t ∈ db.transactions.rows, ∃ r ∈ db.receipts.rows, t.receiptId = r.id

/-- 四つの問い合わせが、どう転んでも同じ配達を選ぶ。 -/
def OneLatest (db : ProofDb) (taskId : String) : Prop :=
  ∃ latest, ∀ t, (db.SelectsOwning taskId t ↔ t = latest)
    ∧ (db.SelectsLatest taskId t ↔ t = latest)
    ∧ (db.SelectsForRequest taskId t ↔ t = latest)
    ∧ (db.SelectsForCorrection taskId t ↔ t = latest)

/-- transaction でも receipt でも、その task のものである行が無い。 -/
def NoDelivery (db : ProofDb) (taskId : String) : Prop :=
  ∀ x ∈ db.deliveryRows, x.1.taskId ≠ taskId ∧ x.2.taskId ≠ taskId

/-- その task の配達で、組み立てた時刻でも保存した時刻でもほかの全部より真に新しい。 -/
structure IsLast (db : ProofDb) (taskId : String) (x : DeliveryRow) : Prop where
  mem : x ∈ db.deliveryRows
  transactionTask : x.1.taskId = taskId
  receiptTask : x.2.taskId = taskId
  built : ∀ y ∈ db.deliveryRows, y ≠ x → y.1.taskId = taskId ∨ y.2.taskId = taskId →
    y.2.createdAt < x.2.createdAt
  persisted : ∀ y ∈ db.deliveryRows, y ≠ x → y.1.taskId = taskId →
    y.1.createdAt < x.1.createdAt

/-! ## 一つに決まるとき -/

theorem selects_iff {better : DeliveryRow → DeliveryRow → Bool} {rows : List DeliveryRow}
    {latest : Option DeliveryRow} (h : ∀ o, MayReturn better rows o ↔ o = latest)
    (t : Option WorkerDeliveryTransaction) :
    (∃ o, MayReturn better rows o ∧ o.map Prod.fst = t) ↔ t = latest.map Prod.fst := by
  constructor
  · rintro ⟨o, ho, rfl⟩
    rw [(h o).mp ho]
  · rintro rfl
    exact ⟨latest, (h latest).mpr rfl, rfl⟩

theorem oneLatest_of_none (hc : db.ReceiptsComplete) (h : db.NoDelivery taskId) :
    db.OneLatest taskId := by
  have hown : (db.deliveryRows.filter fun x => x.1.taskId = taskId) = [] :=
    List.filter_eq_nil_iff.mpr fun x hx => by simpa using (h x hx).1
  have hlatest : (db.deliveryRows.filter fun x => x.2.taskId = taskId) = [] :=
    List.filter_eq_nil_iff.mpr fun x hx => by simpa using (h x hx).2
  have htransactions : (db.transactions.rows.filter fun t => t.taskId = taskId) = [] := by
    refine List.filter_eq_nil_iff.mpr fun t ht => ?_
    obtain ⟨r, hr, hid⟩ := hc t ht
    simpa using (h (t, r) (mem_deliveryRows.mpr ⟨ht, hr, hid⟩)).1
  refine ⟨none, fun t => ⟨?_, ?_, ?_, ?_⟩⟩
  · rw [SelectsOwning, hown]
    exact selects_iff (fun _ => mayReturn_nil) t
  · rw [SelectsLatest, hlatest]
    exact selects_iff (fun _ => mayReturn_nil) t
  · rw [SelectsForRequest, hown]
    exact selects_iff (fun _ => mayReturn_nil) t
  · rw [SelectsForCorrection, htransactions]
    exact mayReturn_nil

theorem oneLatest_of_last (hc : db.ReceiptsComplete) (h : db.IsLast taskId x) :
    db.OneLatest taskId := by
  -- receipt の時刻で真に新しければ、`id` での決着まで行かない
  have hreceipt : ∀ y, y.2.createdAt < x.2.createdAt →
      laterReceipt x y = true ∧ laterReceipt y x = false := fun y hy =>
    ⟨decide_eq_true hy, decide_eq_false (lt_asymm hy)⟩
  have hreceiptOrId : ∀ y, y.2.createdAt < x.2.createdAt →
      laterReceiptOrId x y = true ∧ laterReceiptOrId y x = false := by
    intro y hy
    refine ⟨decide_eq_true (Or.inl hy), decide_eq_false ?_⟩
    rintro (hlt | ⟨heq, -⟩)
    · exact lt_asymm hy hlt
    · exact absurd heq hy.ne
  have hself : laterReceiptOrId x x = false := by
    refine decide_eq_false ?_
    rintro (hlt | ⟨-, hid⟩)
    · exact lt_irrefl _ hlt
    · exact String.lt_irrefl _ hid
  refine ⟨some x.1, fun t => ⟨?_, ?_, ?_, ?_⟩⟩
  · refine @selects_iff _ _ (some x) (fun o => mayReturn_iff_of_best ?_ hself ?_) t
    · exact List.mem_filter.mpr ⟨h.mem, decide_eq_true h.transactionTask⟩
    · intro y hy hne
      obtain ⟨hy, htask⟩ := List.mem_filter.mp hy
      exact hreceiptOrId y (h.built y hy hne (.inl (of_decide_eq_true htask)))
  · refine @selects_iff _ _ (some x)
      (fun o => mayReturn_iff_of_best ?_ (decide_eq_false (lt_irrefl _)) ?_) t
    · exact List.mem_filter.mpr ⟨h.mem, decide_eq_true h.receiptTask⟩
    · intro y hy hne
      obtain ⟨hy, htask⟩ := List.mem_filter.mp hy
      exact hreceipt y (h.built y hy hne (.inr (of_decide_eq_true htask)))
  · refine @selects_iff _ _ (some x)
      (fun o => mayReturn_iff_of_best ?_ (decide_eq_false (lt_irrefl _)) ?_) t
    · exact List.mem_filter.mpr ⟨h.mem, decide_eq_true h.transactionTask⟩
    · intro y hy hne
      obtain ⟨hy, htask⟩ := List.mem_filter.mp hy
      exact hreceipt y (h.built y hy hne (.inl (of_decide_eq_true htask)))
  · refine mayReturn_iff_of_best ?_ (decide_eq_false (lt_irrefl _)) ?_
    · exact List.mem_filter.mpr ⟨(mem_deliveryRows.mp h.mem).1, decide_eq_true h.transactionTask⟩
    · intro t' ht' hne
      obtain ⟨ht', htask⟩ := List.mem_filter.mp ht'
      obtain ⟨r', hr', hid⟩ := hc t' ht'
      have hlt : t'.createdAt < x.1.createdAt :=
        h.persisted (t', r') (mem_deliveryRows.mpr ⟨ht', hr', hid⟩)
          (fun he => hne (congrArg Prod.fst he)) (of_decide_eq_true htask)
      exact ⟨decide_eq_true hlt, decide_eq_false (lt_asymm hlt)⟩

/-! ## 一つに決まれば -/

theorem strictWeak_laterReceipt : StrictWeak laterReceipt :=
  strictWeak_of_key fun x : DeliveryRow => x.2.createdAt

theorem strictWeak_laterTransaction : StrictWeak laterTransaction :=
  strictWeak_of_key WorkerDeliveryTransaction.createdAt

/-- いつも同じ transaction を選ぶなら、選ばれた行は真に先に立つ。 -/
theorem best_of_selects {rows : List DeliveryRow} {latest : WorkerDeliveryTransaction}
    (h : ∀ t, (∃ o, MayReturn laterReceipt rows o ∧ o.map Prod.fst = t) ↔ t = some latest) :
    ∃ x ∈ rows, x.1 = latest
      ∧ ∀ y ∈ rows, y.1 ≠ latest → y.2.createdAt < x.2.createdAt := by
  obtain ⟨o, ho, hmap⟩ := (h (some latest)).mpr rfl
  obtain ⟨x, rfl, hx⟩ := Option.map_eq_some_iff.mp hmap
  have hall : ∀ o, MayReturn laterReceipt rows o → o.map Prod.fst = some latest :=
    fun o ho => (h _).mp ⟨o, ho, rfl⟩
  obtain ⟨-, hbest⟩ := best_of_mayReturn_iff strictWeak_laterReceipt hall ho
  exact ⟨x, ho.1, hx, fun y hy hne => of_decide_eq_true (hbest y hy hne)⟩

theorem noDelivery_or_last_of_oneLatest (h : db.OneLatest taskId) :
    db.NoDelivery taskId ∨ ∃ x, db.IsLast taskId x := by
  obtain ⟨latest, h⟩ := h
  have hlatest := fun t => (h t).2.1
  have hrequest := fun t => (h t).2.2.1
  have hcorrection := fun t => (h t).2.2.2
  cases latest with
  | none =>
    left
    intro x hx
    obtain ⟨o, ho, hmap⟩ := (hlatest none).mpr rfl
    obtain ⟨o', ho', hmap'⟩ := (hrequest none).mpr rfl
    rw [Option.map_eq_none_iff.mp hmap, mayReturn_none, List.filter_eq_nil_iff] at ho
    rw [Option.map_eq_none_iff.mp hmap', mayReturn_none, List.filter_eq_nil_iff] at ho'
    exact ⟨fun he => ho' x hx (decide_eq_true he), fun he => ho x hx (decide_eq_true he)⟩
  | some latest =>
    right
    obtain ⟨x, hx, hxt, hbuilt⟩ := best_of_selects hrequest
    obtain ⟨x', hx', hxt', hbuilt'⟩ := best_of_selects hlatest
    obtain ⟨hx, htask⟩ := List.mem_filter.mp hx
    obtain ⟨hx', htask'⟩ := List.mem_filter.mp hx'
    have hsame : x' = x := deliveryRows_inj hx' hx (hxt'.trans hxt.symm)
    subst hsame
    have hne : ∀ y ∈ db.deliveryRows, y ≠ x' → y.1 ≠ latest := fun y hy hyx he =>
      hyx (deliveryRows_inj hy hx (he.trans hxt.symm))
    refine ⟨x', hx, of_decide_eq_true htask, of_decide_eq_true htask', ?_, ?_⟩
    · rintro y hy hyx (hty | hry)
      · exact hbuilt y (List.mem_filter.mpr ⟨hy, decide_eq_true hty⟩) (hne y hy hyx)
      · exact hbuilt' y (List.mem_filter.mpr ⟨hy, decide_eq_true hry⟩) (hne y hy hyx)
    · intro y hy hyx hty
      have hall : ∀ o, MayReturn laterTransaction
          (db.transactions.rows.filter fun t => t.taskId = taskId) o → o.map id = some latest :=
        fun o ho => by simpa using (hcorrection o).mp ho
      obtain ⟨-, hbest⟩ := best_of_mayReturn_iff strictWeak_laterTransaction hall
        ((hcorrection (some latest)).mpr rfl)
      have hmem : y.1 ∈ db.transactions.rows.filter fun t => t.taskId = taskId :=
        List.mem_filter.mpr ⟨(mem_deliveryRows.mp hy).1, decide_eq_true hty⟩
      rw [hxt]
      exact of_decide_eq_true (hbest y.1 hmem (hne y hy hyx))

/--
**最新の配達が一つである条件。**

どの transaction にも receipt があるとき、四つの問い合わせがいつも同じ配達を選ぶのは、その task の配達が無いか、組み立てた
時刻でも保存した時刻でもほかの全部より真に新しい配達があるときであり、そのときに限る。
-/
theorem one_latest_iff (db : ProofDb) (taskId : String) (hc : db.ReceiptsComplete) :
    db.OneLatest taskId ↔ db.NoDelivery taskId ∨ ∃ x, db.IsLast taskId x := by
  constructor
  · exact noDelivery_or_last_of_oneLatest
  · rintro (h | ⟨x, h⟩)
    · exact oneLatest_of_none hc h
    · exact oneLatest_of_last hc h

/-! ## 操作の使う選び方 -/

/-- 先に読む行を選ぶ選び方は、返りうるものの一つである。 -/
theorem mayReturn_firstBest {α : Type} {better : α → α → Bool} (hw : StrictWeak better) :
    ∀ rows : List α, MayReturn better rows (firstBest better rows)
  | [] => rfl
  | a :: rows => by
    have ih := mayReturn_firstBest hw rows
    rw [firstBest]
    cases hf : firstBest better rows with
    | none =>
      rw [hf] at ih
      rw [mayReturn_none.mp ih]
      exact ⟨List.mem_singleton_self a, by simpa using hw.irrefl a⟩
    | some b =>
      rw [hf] at ih
      obtain ⟨hb, hmax⟩ := ih
      dsimp only
      split
      · next hba =>
        refine ⟨List.mem_cons_of_mem _ hb, fun y hy => ?_⟩
        rcases List.mem_cons.mp hy with rfl | hy
        · exact hw.asymm hba
        · exact hmax y hy
      · next hba =>
        refine ⟨List.mem_cons_self, fun y hy => ?_⟩
        rcases List.mem_cons.mp hy with rfl | hy
        · exact hw.irrefl y
        · exact hw.negTrans (hmax y hy) (by simpa using hba)

theorem strictWeak_laterReceiptOrId : StrictWeak laterReceiptOrId where
  asymm := by
    intro x y hxy
    refine decide_eq_false ?_
    rcases of_decide_eq_true hxy with hlt | ⟨heq, hid⟩
    · rintro (hlt' | ⟨heq, -⟩)
      · exact lt_asymm hlt hlt'
      · exact absurd heq hlt.ne
    · rintro (hlt | ⟨-, hid'⟩)
      · exact absurd heq hlt.ne
      · exact String.lt_asymm hid hid'
  negTrans := by
    intro x y z hxy hyz
    obtain ⟨hxy, hxyid⟩ := not_or.mp (of_decide_eq_false hxy)
    obtain ⟨hyz, hyzid⟩ := not_or.mp (of_decide_eq_false hyz)
    have hxy : x.2.createdAt ≤ y.2.createdAt := not_lt.mp hxy
    have hyz : y.2.createdAt ≤ z.2.createdAt := not_lt.mp hyz
    refine decide_eq_false ?_
    rintro (hlt | ⟨heq, hid⟩)
    · exact absurd (hxy.trans hyz) (not_le_of_gt hlt)
    · have hyx : y.2.createdAt ≤ x.2.createdAt := heq ▸ hyz
      have hmid : x.2.createdAt = y.2.createdAt := le_antisymm hxy hyx
      have hxid : x.2.id ≤ y.2.id := String.not_lt.mp fun h => hxyid ⟨hmid, h⟩
      have hyid : y.2.id ≤ z.2.id := String.not_lt.mp fun h => hyzid ⟨hmid ▸ heq, h⟩
      exact String.not_lt.mpr (String.le_trans hxid hyid) hid

/-- 操作は、transaction ごとに receipt を引いて配達の行を作る。 -/
def foundRows (db : ProofDb) (taskId : String) : List DeliveryRow :=
  db.transactions.rows.filterMap fun t =>
    if t.taskId = taskId then (db.receipts.find? t.receiptId).map fun r => (t, r) else none

theorem mem_foundRows :
    x ∈ db.foundRows taskId ↔ x ∈ db.deliveryRows.filter fun x => x.1.taskId = taskId := by
  obtain ⟨t, r⟩ := x
  rw [foundRows, List.mem_filterMap, List.mem_filter, mem_deliveryRows, decide_eq_true_eq]
  constructor
  · rintro ⟨t', ht', hfound⟩
    split at hfound
    · next htask =>
      obtain ⟨r', hr', he⟩ := Option.map_eq_some_iff.mp hfound
      obtain ⟨rfl, rfl⟩ := Prod.mk.inj he
      obtain ⟨hmem, hkey⟩ := Table.find?_eq_some_iff.mp hr'
      exact ⟨⟨ht', hmem, hkey.symm⟩, htask⟩
    · exact absurd hfound (by simp)
  · rintro ⟨⟨ht, hr, hid⟩, htask⟩
    have hfind : db.receipts.find? t.receiptId = some r :=
      Table.find?_eq_some_iff.mpr ⟨hr, hid.symm⟩
    exact ⟨t, ht, by rw [if_pos htask, hfind]; rfl⟩

/-- 操作の中の選び方は、どれも対応する問い合わせの答えの一つである。 -/
theorem selections_of_operations (db : ProofDb) (taskId : String) :
    db.SelectsForRequest taskId (db.latestReceiptDelivery? taskId)
      ∧ db.SelectsForCorrection taskId (db.latestDelivery? taskId)
      ∧ ∃ t, db.SelectsOwning taskId t
        ∧ db.deliveryOwnsTaskLifecycle taskId = t.any fun t => t.state ≠ .delivered := by
  refine ⟨?_, mayReturn_firstBest strictWeak_laterTransaction _, ?_⟩
  · -- 差し戻しは、receipt から受付時刻だけを持ち出す
    have hpairs : (db.transactions.rows.filterMap fun t =>
        if t.taskId = taskId then (db.receipts.find? t.receiptId).map fun r => (t, r.createdAt)
        else none) = (db.foundRows taskId).map fun x => (x.1, x.2.createdAt) := by
      rw [foundRows, List.map_filterMap]
      refine List.filterMap_congr fun t _ => ?_
      split
      · rw [Option.map_map]
        rfl
      · rfl
    have hbest := mayReturn_firstBest (strictWeak_of_key
      fun x : WorkerDeliveryTransaction × Time => x.2) ((db.foundRows taskId).map
        fun x => (x.1, x.2.createdAt))
    obtain ⟨o, ho, hmap⟩ := mayReturn_map.mp hbest
    refine ⟨o, (mayReturn_congr fun _ => mem_foundRows).mp ho, ?_⟩
    rw [latestReceiptDelivery?, hpairs, ← hmap, Option.map_map]
    rfl
  · have hbest := mayReturn_firstBest strictWeak_laterReceiptOrId (db.foundRows taskId)
    refine ⟨_, ⟨_, (mayReturn_congr fun _ => mem_foundRows).mp hbest, rfl⟩, ?_⟩
    rw [Option.any_map]
    rfl

/-- 最新の配達が一つなら、三つの操作は同じ配達に当たる。 -/
theorem operations_agree (h : db.OneLatest taskId) :
    db.latestReceiptDelivery? taskId = db.latestDelivery? taskId
      ∧ db.deliveryOwnsTaskLifecycle taskId
        = (db.latestDelivery? taskId).any fun t => t.state ≠ .delivered := by
  obtain ⟨latest, h⟩ := h
  obtain ⟨hrequest, hcorrection, t, howning, hstate⟩ := selections_of_operations db taskId
  rw [(h _).2.2.1.mp hrequest, (h _).2.2.2.mp hcorrection, hstate, (h _).1.mp howning]
  exact ⟨rfl, rfl⟩

/-! ## 具体的な表 -/

/-- task `t` の、組み立てた時刻が `built`、保存した時刻が `persisted` の配達。 -/
def sampleReceipt (id : String) (built : Time) : WorkerCompletionReceipt where
  id := "wcr-" ++ id
  taskId := "t"
  workerAgentId := "w"
  workerName := "ada"
  repoSelector := "."
  sourceBranch := "factory/ada"
  commitSha := "c" ++ id
  mergeBaseSha := "b"
  targetBranch := "main"
  targetSha := "m"
  proofReference := "p"
  scopeSummary := "s"
  createdAt := built

def sampleDelivery (id : String) (persisted : Time) : WorkerDeliveryTransaction where
  id := "wdt-" ++ id
  receiptId := "wcr-" ++ id
  taskId := "t"
  state := .awaitingMerge
  createdAt := persisted
  updatedAt := persisted

/-- 二つの配達。時刻は順に、一つ目の組み立てと保存、二つ目の組み立てと保存である。 -/
def twoDeliveries (built persisted built' persisted' : Time) : ProofDb where
  receipts := (Table.empty.insertOrIgnore (sampleReceipt "1" built)).insertOrIgnore
    (sampleReceipt "2" built')
  transactions := (Table.empty.insertOrIgnore (sampleDelivery "1" persisted)).insertOrIgnore
    (sampleDelivery "2" persisted')

theorem one_latest_iff_in_order :
    (twoDeliveries 10 20 30 40).OneLatest "t" := by
  refine (one_latest_iff _ _ ?_).mpr (.inr ⟨(sampleDelivery "2" 40, sampleReceipt "2" 30), ?_⟩)
  · unfold ReceiptsComplete
    decide
  · exact ⟨by decide, rfl, rfl, by decide, by decide⟩

/-- 先に組み立てた receipt を後から保存すると、差し戻しと訂正は別の配達に当たる。 -/
theorem deliveries_persisted_out_of_order :
    (twoDeliveries 10 40 20 30).ReceiptsComplete
      ∧ (twoDeliveries 10 40 20 30).latestReceiptDelivery? "t" = some (sampleDelivery "2" 30)
      ∧ (twoDeliveries 10 40 20 30).latestDelivery? "t" = some (sampleDelivery "1" 40)
      ∧ ¬(twoDeliveries 10 40 20 30).OneLatest "t" := by
  have hrequest : (twoDeliveries 10 40 20 30).latestReceiptDelivery? "t"
      = some (sampleDelivery "2" 30) := by decide
  have hcorrection : (twoDeliveries 10 40 20 30).latestDelivery? "t"
      = some (sampleDelivery "1" 40) := by decide
  refine ⟨by unfold ReceiptsComplete; decide, hrequest, hcorrection, fun h => ?_⟩
  have hsame := (operations_agree h).1
  rw [hrequest, hcorrection] at hsame
  exact absurd hsame (by decide)

end ProofDb

end Cassy
