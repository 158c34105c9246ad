import Cassy.Infra.Bands
import Cassy.Properties.ActionText
import Cassy.Properties.PromptStamps

/-!
# 畳んだ報告の強さ

新しい報告に畳まれた行は取り下げられ、残るのは新しい行だけである。新しい行が、畳まれた行のどれよりも弱くないかを見る。

* `absorbedActions` — 畳まれる行。古い順に、残りの byte に本文が収まるものである
* `WakeKept` — 新しい行が弱くならない条件

急ぎの印と優先順位は、新しい報告のものがそのまま書かれる。起こさない印は畳んだ全部が静かなときだけ付くが、納品を
繰り返す報告とみなされた行は、静かでない行を畳んでいても digest に入る。
-/

namespace Cassy

open Infra PromptDb

/-! ## 畳まれる行 -/

/-- 新しい報告の、印を除いた本文。 -/
def WorkerAction.ownText (a : WorkerAction) : Text := (splitQuietMarker a.stored).2

/-- 新しい報告が静かである。 -/
def WorkerAction.quiet (a : WorkerAction) : Bool := (splitQuietMarker a.prompt.toList).1

/-- 行が静かである。 -/
def PromptRow.quiet (r : PromptRow) : Bool := (splitQuietMarker r.prompt.toList).1

/-- 前の報告から運ぶ段落。 -/
def WorkerAction.pieces (a : WorkerAction) (r : PromptRow) : List Text :=
  foldPieces (bodyOf a.ownText) r

/-- 運ぶ段落の byte の数。 -/
def WorkerAction.carriedBytes (a : WorkerAction) (r : PromptRow) : Nat :=
  ((a.pieces r).map fun piece => byteLen piece + 2).sum

/-- 新しい報告の本文と区切りの byte の数。 -/
def WorkerAction.ownBytes (a : WorkerAction) : Nat :=
  byteLen a.ownText + byteLen foldEnd
    + if (splitQuietMarker a.stored).1 then byteLen quietMessageMarker + 1 else 0

/-- 畳まれる行。古い順に、上限までの残りに収まるものを取る。 -/
def PromptDb.absorbedActions (db : PromptDb) (a : WorkerAction) (agentId : String) :
    List PromptRow :=
  takeWithin a.carriedBytes (workerActionFoldCapBytes - a.ownBytes) (db.pendingActions a agentId)

/-- 運ばれる段落。 -/
def WorkerAction.blocks (a : WorkerAction) (absorbed : List PromptRow) : List Text :=
  absorbed.flatMap a.pieces

/-- 印の付く前の、新しい行の本文。 -/
def WorkerAction.carriedText (a : WorkerAction) (absorbed : List PromptRow) : Text :=
  if a.blocks absorbed = [] then a.ownText
  else joinParagraphs (a.blocks absorbed) ++ foldEnd ++ a.ownText

section Fold

variable {a : WorkerAction}

/-- 運ぶ段落の無い行だけが、大きさを持たない。 -/
theorem carriedBytes_eq_zero {r : PromptRow} : a.carriedBytes r = 0 ↔ a.pieces r = [] := by
  unfold WorkerAction.carriedBytes
  cases a.pieces r with
  | nil => simp
  | cons p ps => simp

/-- 途中まで畳んだところから、残りを畳む。 -/
theorem foldl_foldAction (rows : List PromptRow) (st : FoldState) :
    rows.foldl (foldAction (bodyOf a.ownText)) st
      = { blocks := st.blocks
            ++ a.blocks (takeWithin a.carriedBytes (workerActionFoldCapBytes - st.foldedLen) rows)
          allQuiet := st.allQuiet
            && (takeWithin a.carriedBytes (workerActionFoldCapBytes - st.foldedLen) rows).all
              PromptRow.quiet
          foldedLen := st.foldedLen
            + ((takeWithin a.carriedBytes (workerActionFoldCapBytes - st.foldedLen) rows).map
              a.carriedBytes).sum
          superseded := st.superseded
            ++ takeWithin a.carriedBytes (workerActionFoldCapBytes - st.foldedLen) rows } := by
  induction rows generalizing st with
  | nil => simp [takeWithin, WorkerAction.blocks]
  | cons r rows ih =>
    rw [List.foldl_cons, ih, takeWithin]
    by_cases hfits : a.carriedBytes r ≤ workerActionFoldCapBytes - st.foldedLen
    · have hkeep : ¬(a.pieces r ≠ [] ∧ workerActionFoldCapBytes < st.foldedLen + a.carriedBytes r) := by
        rintro ⟨hne, hover⟩
        have hpos : a.carriedBytes r ≠ 0 := fun h => hne (carriedBytes_eq_zero.mp h)
        omega
      have hstep : foldAction (bodyOf a.ownText) st r
          = { blocks := st.blocks ++ a.pieces r
              allQuiet := st.allQuiet && r.quiet
              foldedLen := st.foldedLen + a.carriedBytes r
              superseded := st.superseded ++ [r] } := if_neg hkeep
      rw [hstep, if_pos hfits]
      simp only [WorkerAction.blocks, List.flatMap_cons, List.map_cons, List.sum_cons, List.all_cons,
        Nat.sub_sub, List.append_assoc, Bool.and_assoc, Nat.add_assoc, List.singleton_append]
    · have hskip : a.pieces r ≠ [] ∧ workerActionFoldCapBytes < st.foldedLen + a.carriedBytes r := by
        refine ⟨fun h => hfits ?_, by omega⟩
        rw [carriedBytes_eq_zero.mpr h]
        exact Nat.zero_le _
      have hstep : foldAction (bodyOf a.ownText) st r = st := if_pos hskip
      rw [hstep, if_neg hfits]

variable {db : PromptDb} {agentId : String}

/-- 畳み込みは、収まる行を取り、その段落を運ぶ。 -/
theorem foldActions_eq :
    (foldActions a.stored (db.pendingActions a agentId)).superseded = db.absorbedActions a agentId
      ∧ (foldActions a.stored (db.pendingActions a agentId)).blocks
        = a.blocks (db.absorbedActions a agentId)
      ∧ (foldActions a.stored (db.pendingActions a agentId)).allQuiet
        = (a.quiet && (db.absorbedActions a agentId).all PromptRow.quiet) := by
  have hfold := @foldl_foldAction a (db.pendingActions a agentId) (foldStart a.stored)
  have heq : foldActions a.stored (db.pendingActions a agentId)
      = (db.pendingActions a agentId).foldl (foldAction (bodyOf a.ownText)) (foldStart a.stored) := rfl
  rw [heq, hfold]
  refine ⟨List.nil_append _, List.nil_append _, ?_⟩
  show ((splitQuietMarker a.stored).1 && _) = _
  rw [WorkerAction.stored, quiet_promptForStorage]
  rfl

/-- 静かでない行か報告があれば、貯える本文は印の付かない本文である。 -/
theorem storedPrompt_of_not_quiet
    (h : (a.quiet && (db.absorbedActions a agentId).all PromptRow.quiet) = false) :
    storedPrompt a.stored (foldActions a.stored (db.pendingActions a agentId))
      = a.carriedText (db.absorbedActions a agentId) := by
  obtain ⟨-, hblocks, hquiet⟩ := @foldActions_eq a db agentId
  unfold storedPrompt WorkerAction.carriedText
  simp only [hblocks, hquiet, h]
  split
  · cases hown : (splitQuietMarker a.stored).1 with
    | true => rfl
    | false => exact (splitQuietMarker_of_not_quiet hown).symm
  · rfl

/-- 貯える本文の頭に立つ段落。 -/
def WorkerAction.firstText (a : WorkerAction) (absorbed : List PromptRow) : Text :=
  (a.blocks absorbed).head?.getD a.ownText

/-- 印の付かない本文がなお静かなのは、頭の段落が静かなときである。 -/
theorem quiet_carriedText (absorbed : List PromptRow) :
    (splitQuietMarker (a.carriedText absorbed)).1 = (splitQuietMarker (a.firstText absorbed)).1 := by
  unfold WorkerAction.carriedText WorkerAction.firstText
  cases a.blocks absorbed with
  | nil => rfl
  | cons b bs =>
    rw [if_neg (List.cons_ne_nil b bs), List.head?_cons, Option.getD_some]
    cases bs with
    | nil =>
      rw [joinParagraphs_singleton, List.append_assoc]
      exact quiet_append_blank_line b _
    | cons c cs =>
      rw [joinParagraphs_cons_cons, List.append_assoc, List.append_assoc]
      exact quiet_append_blank_line b _

end Fold

/-! ## 取り下げる -/

section Stamp

variable {db db' : PromptDb} {now : Time} {id : Nat} {r : PromptRow} {opts : AtomicStampOpts}

/-- 取り下げた行は処理済みになる。 -/
theorem processed_of_stamp (hset : opts.setProcessed = true)
    (h : db.atomicStageStampInTx now [] id .suppressed opts = .ok db') (hr : db.find? id = some r)
    (hs : r.stage? ≠ some .suppressed) :
    ∃ r', db'.find? id = some r' ∧ r'.processedAt.isSome = true := by
  rcases stamp_cases h with ⟨hcur, -, -, -⟩ | ⟨current, next, -, -, -, rfl⟩
  · exact absurd ((readHighestStage_eq_ok hr).mp hcur) hs
  · have hnil : (if next = .abandoned then ([] : List AbandonNotice) else []) = [] := by split <;> rfl
    have hid : r.id = id := Table.key_of_find? hr
    refine ⟨stampRow now current next opts r, ?_, ?_⟩
    · rw [hnil]
      show (stampWrites db now id current next opts).find? id = _
      rw [find?_stampWrites]
      refine (find?_update db id _ _ _).trans ?_
      rw [hr]
      simp [hid]
    · cases hprocessed : r.processedAt <;> simp [stampRow, hset, hprocessed]

/-- 順に取り下げると、その行が処理済みになり、他の行は変わらない。 -/
theorem stampEach_processed (hset : opts.setProcessed = true) : ∀ {ids : List Nat} {db : PromptDb},
    ids.Nodup → (∀ id ∈ ids, ∃ r, db.find? id = some r ∧ r.stage? ≠ some .suppressed) →
    db.stampEach now ids .suppressed opts = .ok db' →
    (∀ j, j ∉ ids → db'.find? j = db.find? j)
      ∧ ∀ id ∈ ids, ∃ r', db'.find? id = some r' ∧ r'.processedAt.isSome = true
  | [], db, _, _, h => by
    cases h
    exact ⟨fun j _ => rfl, fun id hid => absurd hid List.not_mem_nil⟩
  | id :: ids, db, hids, hfind, h => by
    obtain ⟨hid, hids⟩ := List.nodup_cons.mp hids
    unfold stampEach at h
    rw [List.foldlM_cons, bind_eq_ok] at h
    obtain ⟨db₁, hstamp, hrest⟩ := h
    have htouch := touches_stamp hstamp
    have hfind₁ : ∀ j ∈ ids, ∃ r, db₁.find? j = some r ∧ r.stage? ≠ some .suppressed := by
      intro j hj
      rw [htouch.others j fun he => hid (he ▸ hj)]
      exact hfind j (List.mem_cons_of_mem _ hj)
    obtain ⟨hframe, hprocessed⟩ := stampEach_processed hset hids hfind₁ hrest
    constructor
    · intro j hj
      rw [List.mem_cons, not_or] at hj
      exact (hframe j hj.2).trans (htouch.others j hj.1)
    · intro j hj
      rcases List.mem_cons.mp hj with rfl | hj
      · obtain ⟨r, hr, hs⟩ := hfind j List.mem_cons_self
        rw [hframe j hid]
        exact processed_of_stamp hset hstamp hr hs
      · exact hprocessed j hj

end Stamp

/-- この呼び出しが処理済みにした行。 -/
def SupersededBy (db db' : PromptDb) (r : PromptRow) : Prop :=
  r ∈ db.rows ∧ r.processedAt = none
    ∧ ∃ r', db'.find? r.id = some r' ∧ r'.processedAt.isSome = true

section Enqueue

variable {db db' : PromptDb} {now : Time} {w : DeliveryWorld} {a : WorkerAction} {id : Nat}
  {agentId : String} {r : PromptRow}

theorem mem_pendingActions (h : r ∈ db.pendingActions a agentId) :
    r ∈ db.rows ∧ supersedable a.factorySession agentId r = true := by
  have hmem := (List.perm_insertionSort _ _).mem_iff.mp (List.mem_filter.mp h).1
  exact List.mem_filter.mp hmem

theorem mem_absorbedActions (h : r ∈ db.absorbedActions a agentId) :
    r ∈ db.rows ∧ supersedable a.factorySession agentId r = true :=
  mem_pendingActions ((takeWithin_sublist _ _ _).subset h)

theorem absorbedActions_ids_nodup : ((db.absorbedActions a agentId).map PromptRow.id).Nodup := by
  have hperm := List.perm_insertionSort (fun x y : PromptRow => x.id ≤ y.id)
    (db.rows.filter (supersedable a.factorySession agentId))
  have hsorted : ((((db.rows.filter (supersedable a.factorySession agentId)).insertionSort
      fun x y => x.id ≤ y.id)).map PromptRow.id).Nodup :=
    (hperm.map _).nodup_iff.mpr (db.prompts.nodup.sublist (List.filter_sublist.map _))
  exact hsorted.sublist (((takeWithin_sublist _ _ _).trans List.filter_sublist).map _)

/-- 畳まれる行は、まだ処理されておらず、取り下げられてもいない。 -/
theorem pending_of_supersedable (h : supersedable a.factorySession agentId r = true) :
    r.processedAt = none ∧ r.stage? ≠ some .suppressed := by
  unfold supersedable at h
  simp only [Bool.and_eq_true, Option.isNone_iff_eq_none] at h
  refine ⟨h.1.1.1.1.2, fun hs => ?_⟩
  have hdeliv := h.1.2
  unfold PromptRow.stage? at hs
  unfold stageDeliverable at hdeliv
  cases hstage : r.highestStage with
  | none =>
    rw [hstage] at hs
    cases hs
  | some text =>
    rw [hstage] at hs hdeliv
    cases text with
    | stage s =>
      cases hs
      simp [DeliveryStage.isTerminalNonDelivery] at hdeliv
    | corrupt text => cases hs

/-- 足された報告の行と、取り下げられた行。 -/
theorem enqueueWorkerAction_created
    (h : db.enqueueWorkerActionWithOutcome now w a = .ok (.created id, db')) :
    ∃ agentId, a.origin = .registeredAgent agentId
      ∧ db'.find? id = some ((a.newPrompt now
          (storedPrompt a.stored (foldActions a.stored (db.pendingActions a agentId)))
          (db.supervisorDeliveryKind w a.source a.target
            (storedPrompt a.stored (foldActions a.stored (db.pendingActions a agentId)))
            (some a.factorySession) a.urgent (some a.origin))).toRow id)
      ∧ ∀ r, SupersededBy db db' r ↔ r ∈ db.absorbedActions a agentId := by
  unfold enqueueWorkerActionWithOutcome at h
  obtain ⟨-, -, h⟩ := bind_eq_ok.mp h
  cases horigin : a.origin with
  | registeredAgent agentId =>
    rw [horigin] at h
    dsimp only at h
    cases hdup : db.deliveredActionDuplicate? now a with
    | some r =>
      rw [hdup] at h
      cases h
    | none =>
      rw [hdup] at h
      dsimp only at h
      obtain ⟨⟨id', db₁⟩, haction, ⟨⟩⟩ := bind_pure_eq_ok.mp h
      refine ⟨agentId, rfl, ?_⟩
      unfold enqueueWorkerAction at haction
      rw [foldActions_eq.1, bind_eq_ok] at haction
      obtain ⟨db₂, hstamp, haction⟩ := haction
      cases pure_eq_ok.mp haction
      have hfind : ∀ r ∈ db.absorbedActions a agentId, db.find? r.id = some r := fun r hr =>
        Table.find?_of_mem (mem_absorbedActions hr).1
      have hall : ((db.absorbedActions a agentId).map PromptRow.id).filter
          (fun old => (db.find? old).any (supersedable a.factorySession agentId))
          = (db.absorbedActions a agentId).map PromptRow.id := by
        refine List.filter_eq_self.mpr fun old hold => ?_
        obtain ⟨r, hr, rfl⟩ := List.mem_map.mp hold
        rw [hfind r hr, Option.any_some]
        exact (mem_absorbedActions hr).2
      rw [hall] at hstamp
      have hne : ∀ r ∈ db.rows, r.id ≠ db.nextId := fun r hr => Nat.ne_of_lt (db.fresh r hr)
      have hinsert : ∀ {p : NewPrompt}, ∀ r ∈ db.rows, (db.insert p).find? r.id = some r := by
        intro p r hr
        rw [find?_insert, if_neg (hne r hr)]
        exact Table.find?_of_mem hr
      obtain ⟨hframe, hprocessed⟩ := stampEach_processed rfl absorbedActions_ids_nodup
        (fun old hold => by
          obtain ⟨r, hr, rfl⟩ := List.mem_map.mp hold
          exact ⟨r, hinsert r (mem_absorbedActions hr).1,
            (pending_of_supersedable (mem_absorbedActions hr).2).2⟩) hstamp
      constructor
      · rw [hframe, find?_insert, if_pos rfl]
        intro hmem
        obtain ⟨r, hr, he⟩ := List.mem_map.mp hmem
        exact hne r (mem_absorbedActions hr).1 he
      · intro r
        constructor
        · rintro ⟨hrow, hnone, r', hr', hsome⟩
          by_contra hr
          have hid : r.id ∉ (db.absorbedActions a agentId).map PromptRow.id := by
            intro hmem
            obtain ⟨r₂, hr₂, he⟩ := List.mem_map.mp hmem
            have hsame := (hfind r₂ hr₂).symm.trans ((congrArg db.find? he).trans
              (Table.find?_of_mem hrow))
            rw [Option.some.inj hsame] at hr₂
            exact hr hr₂
          rw [hframe r.id hid, hinsert r hrow] at hr'
          rw [← Option.some.inj hr', hnone] at hsome
          cases hsome
        · intro hr
          exact ⟨(mem_absorbedActions hr).1, (pending_of_supersedable (mem_absorbedActions hr).2).1,
            hprocessed r.id (List.mem_map_of_mem hr)⟩
  | daemon | unattributed | pairedDevice =>
    rw [horigin] at h
    cases h

end Enqueue

/-! ## 渡し方 -/

/--
本文が、merge の済んだか既に知らせのある納品を、もう一度知らせている。

急ぎでなく、宛先の supervisor と送り主の worker がこの session にいて、止まっている知らせを含まないものに限る。
-/
def RepeatsDelivery (db : PromptDb) (w : DeliveryWorld) (a : WorkerAction) (agentId : String)
    (text : Text) : Prop :=
  a.urgent = false ∧ isOperatorTarget a.target = false
    ∧ Infra.containsText "<cas-blocker ".toList text = false
    ∧ ∃ supervisor worker task head, w.supervisorOf (some a.factorySession) a.target = some supervisor
      ∧ w.workerName (some a.factorySession) agentId = some worker
      ∧ w.workerBoundary worker agentId text = some (task, head)
      ∧ task ≠ "" ∧ isCommit head = true
      ∧ ((w.hasTasks = true ∧ w.landed task head = true)
        ∨ ∃ r ∈ db.rows, r.factorySession = some a.factorySession
          ∧ r.kind = some (mergeReadyKind supervisor task head)
          ∧ stageDeliverable r.highestStage = true)

section Kind

variable {db : PromptDb} {w : DeliveryWorld} {a : WorkerAction} {agentId : String} {text : Text}

/-- worker の報告が digest に入るのは、静かなときの他は、納品を繰り返すときである。 -/
theorem supervisorDeliveryKind_digest_iff (horigin : a.origin = .registeredAgent agentId)
    (hquiet : (splitQuietMarker text).1 = false) :
    db.supervisorDeliveryKind w a.source a.target text (some a.factorySession) a.urgent
        (some a.origin) = some .supervisorDigest
      ↔ RepeatsDelivery db w a agentId text := by
  unfold supervisorDeliveryKind RepeatsDelivery
  rw [horigin]
  simp only [hquiet, DeliveryWorld.boundaryOf]
  constructor
  · intro h
    split at h
    · cases h
    · next hskip =>
      simp only [Bool.or_eq_true, not_or, Bool.not_eq_true, Bool.not_true] at hskip
      rw [if_neg (by simp)] at h
      split at h
      · cases h
      · next supervisor hsupervisor =>
        rw [if_neg (by simp)] at h
        split at h
        · cases h
        · next hblocker =>
          split at h
          · cases h
          · next task head hboundary =>
            obtain ⟨worker, hworker, hboundary⟩ := Option.bind_eq_some_iff.mp hboundary
            split at h
            · cases h
            · next hvalid =>
              simp only [Bool.or_eq_true, decide_eq_true_eq, not_or, Bool.not_eq_true'] at hvalid
              refine ⟨hskip.1.1, hskip.1.2, by simpa using hblocker, supervisor, worker, task, head,
                hsupervisor, hworker, hboundary, hvalid.1, by simpa using hvalid.2, ?_⟩
              split at h
              · next hlanded => exact .inl (by simpa using hlanded)
              · split at h
                · next hepisode =>
                  obtain ⟨r, hr, hmatch⟩ := List.any_eq_true.mp hepisode
                  simp only [Bool.and_eq_true, decide_eq_true_eq] at hmatch
                  exact .inr ⟨r, hr, hmatch.1.1, hmatch.1.2, hmatch.2⟩
                · simp [mergeReadyKind] at h
  · rintro ⟨hurgent, htarget, hblocker, supervisor, worker, task, head, hsupervisor, hworker,
      hboundary, htask, hhead, hrepeat⟩
    rw [hurgent, htarget, if_neg (by simp), if_neg (by simp), hsupervisor]
    dsimp only
    rw [if_neg (by simp), hblocker, if_neg (by simp), hworker, Option.bind_some, hboundary]
    dsimp only
    rw [hhead, if_neg (by simpa using htask)]
    rcases hrepeat with ⟨htasks, hlanded⟩ | ⟨r, hr, hsession, hkind, hdeliv⟩
    · rw [htasks, hlanded]
      rfl
    · have hepisode : (db.rows.any fun r => decide (r.factorySession = some a.factorySession)
          && decide (r.kind = some (mergeReadyKind supervisor task head))
          && stageDeliverable r.highestStage) = true :=
        List.any_eq_true.mpr ⟨r, hr, by rw [hsession, hkind, hdeliv]; simp⟩
      rw [hepisode, if_pos rfl]
      split <;> rfl

/-- 渡し方が、supervisor への写しになることはない。 -/
theorem supervisorDeliveryKind_ne_copy {source target : String} {session : Option String}
    {urgent : Bool} :
    db.supervisorDeliveryKind w source target text session urgent (some (.registeredAgent agentId))
      ≠ some .workerPeerCopy := by
  intro h
  unfold supervisorDeliveryKind at h
  dsimp only at h
  split at h
  · cases h
  · split at h
    · cases h
    · split at h
      · cases h
      · split at h
        · cases h
        · split at h
          · cases h
          · split at h
            · cases h
            · split at h
              · cases h
              · split at h
                · cases h
                · split at h
                  · cases h
                  · cases Option.some.inj h

end Kind

/-! ## 弱くならない条件 -/

/-- 新しい行が、この呼び出しの取り下げた行のどれよりも弱くない。 -/
structure StrongestWake (db db' : PromptDb) (a : WorkerAction) (n : PromptRow) : Prop where
  urgent : ∀ r, SupersededBy db db' r → r.urgent = true → n.urgent = true
  priority : ∀ r, SupersededBy db db' r → n.priority.toNat ≤ r.priority.toNat
  /-- 静かな行や digest になるのは、新しい報告も取り下げた行も全部静かなときに限る。 -/
  quiet : (∃ r, SupersededBy db db' r) → n.quiet = true ∨ isDigest n = true →
    a.quiet = true ∧ ∀ r, SupersededBy db db' r → r.quiet = true

/-- 畳まれる行について、新しい行が弱くならない条件。 -/
structure WakeKept (db : PromptDb) (w : DeliveryWorld) (a : WorkerAction) (agentId : String) :
    Prop where
  urgent : a.urgent = true ∨ ∀ r ∈ db.absorbedActions a agentId, r.urgent = false
  priority : ∀ r ∈ db.absorbedActions a agentId,
    (a.priority.getD .normal).toNat ≤ r.priority.toNat
  quiet : db.absorbedActions a agentId = []
    ∨ (a.quiet = true ∧ ∀ r ∈ db.absorbedActions a agentId, r.quiet = true)
    ∨ ((splitQuietMarker (a.firstText (db.absorbedActions a agentId))).1 = false
      ∧ ¬RepeatsDelivery db w a agentId (a.carriedText (db.absorbedActions a agentId)))

section Wake

variable {db db' : PromptDb} {now : Time} {w : DeliveryWorld} {a : WorkerAction} {id : Nat}
  {agentId : String}

@[simp] theorem newPrompt_kind (text : Text) (kind : Option PromptKind) :
    ((a.newPrompt now text kind).toRow id).kind = kind := rfl

@[simp] theorem newPrompt_origin (text : Text) (kind : Option PromptKind) :
    ((a.newPrompt now text kind).toRow id).origin = some a.origin := rfl

@[simp] theorem newPrompt_quiet (text : Text) (kind : Option PromptKind) :
    ((a.newPrompt now text kind).toRow id).quiet = (splitQuietMarker text).1 :=
  congrArg (fun t => (splitQuietMarker t).1) String.toList_ofList

/-- 静かでないものを畳んだ行が静かであるか digest に入るのは、頭の段落が静かか、納品を繰り返すときである。 -/
theorem weak_iff (horigin : a.origin = .registeredAgent agentId)
    (hloud : (a.quiet && (db.absorbedActions a agentId).all PromptRow.quiet) = false)
    {n : PromptRow} (hn : n = (a.newPrompt now
      (storedPrompt a.stored (foldActions a.stored (db.pendingActions a agentId)))
      (db.supervisorDeliveryKind w a.source a.target
        (storedPrompt a.stored (foldActions a.stored (db.pendingActions a agentId)))
        (some a.factorySession) a.urgent (some a.origin))).toRow id) :
    (n.quiet = true ∨ isDigest n = true)
      ↔ ((splitQuietMarker (a.firstText (db.absorbedActions a agentId))).1 = true
        ∨ RepeatsDelivery db w a agentId (a.carriedText (db.absorbedActions a agentId))) := by
  rw [storedPrompt_of_not_quiet hloud] at hn
  have hquiet : n.quiet = (splitQuietMarker (a.firstText (db.absorbedActions a agentId))).1 := by
    rw [← quiet_carriedText, hn, newPrompt_quiet]
  rw [hquiet]
  cases hfirst : (splitQuietMarker (a.firstText (db.absorbedActions a agentId))).1 with
  | true => exact iff_of_true (.inl rfl) (.inl rfl)
  | false =>
    have hkind := @supervisorDeliveryKind_digest_iff db w a agentId _ horigin
      ((quiet_carriedText (db.absorbedActions a agentId)).trans hfirst)
    have hkindEq : n.kind = db.supervisorDeliveryKind w a.source a.target
        (a.carriedText (db.absorbedActions a agentId)) (some a.factorySession) a.urgent
        (some a.origin) := by rw [hn, newPrompt_kind]
    have hdigest : isDigest n = true ↔ n.kind = some .supervisorDigest := by
      have horiginEq : n.origin = some (.registeredAgent agentId) := by
        rw [hn, newPrompt_origin, horigin]
      have hcopy : n.kind ≠ some .workerPeerCopy := by
        rw [hkindEq, horigin]
        exact supervisorDeliveryKind_ne_copy
      unfold isDigest
      rw [horiginEq]
      simp [hcopy]
    rw [hdigest, hkindEq, hkind]

/-- 足された報告の行が取り下げた行のどれよりも弱くないのは、`WakeKept` のときに限る。 -/
theorem strongest_wake_iff (h : db.enqueueWorkerActionWithOutcome now w a = .ok (.created id, db')) :
    ∃ agentId n, a.origin = .registeredAgent agentId ∧ db'.find? id = some n
      ∧ (StrongestWake db db' a n ↔ WakeKept db w a agentId) := by
  obtain ⟨agentId, horigin, hfind, hsuperseded⟩ := enqueueWorkerAction_created h
  refine ⟨agentId, _, horigin, hfind, ?_⟩
  have hweak := fun hloud => @weak_iff db now w a id agentId horigin hloud _ rfl
  constructor
  · intro hwake
    refine ⟨?_, fun r hr => hwake.priority r ((hsuperseded r).mpr hr), ?_⟩
    · cases hurgent : a.urgent with
      | true => exact .inl rfl
      | false =>
        refine .inr fun r hr => ?_
        by_contra hr'
        have hnew := hwake.urgent r ((hsuperseded r).mpr hr) (by simpa using hr')
        exact absurd (hurgent.symm.trans hnew) (by decide)
    · by_cases hempty : db.absorbedActions a agentId = []
      · exact .inl hempty
      · obtain ⟨r, hr⟩ := List.exists_mem_of_ne_nil _ hempty
        have hquiet := hwake.quiet ⟨r, (hsuperseded r).mpr hr⟩
        cases hloud : a.quiet && (db.absorbedActions a agentId).all PromptRow.quiet with
        | true =>
          rw [Bool.and_eq_true, List.all_eq_true] at hloud
          exact .inr (.inl hloud)
        | false =>
          have hstrong : ¬(_ = true ∨ _ = true) := fun hbad => by
            obtain ⟨hown, hall⟩ := hquiet hbad
            have htrue : (a.quiet && (db.absorbedActions a agentId).all PromptRow.quiet) = true := by
              rw [Bool.and_eq_true, List.all_eq_true]
              exact ⟨hown, fun r hr => hall r ((hsuperseded r).mpr hr)⟩
            exact absurd (hloud.symm.trans htrue) (by decide)
          rw [hweak hloud, not_or, Bool.not_eq_true] at hstrong
          exact .inr (.inr hstrong)
  · intro hkept
    refine ⟨fun r hr hurgent => ?_, fun r hr => hkept.priority r ((hsuperseded r).mp hr), ?_⟩
    · rcases hkept.urgent with hnew | hold
      · exact hnew
      · exact absurd ((hold r ((hsuperseded r).mp hr)).symm.trans hurgent) (by decide)
    · rintro ⟨r, hr⟩ hbad
      cases hloud : a.quiet && (db.absorbedActions a agentId).all PromptRow.quiet with
      | true =>
        rw [Bool.and_eq_true, List.all_eq_true] at hloud
        exact ⟨hloud.1, fun r hr => hloud.2 r ((hsuperseded r).mp hr)⟩
      | false =>
        rcases hkept.quiet with hempty | ⟨hown, hall⟩ | ⟨hfirst, hrepeat⟩
        · have hmem := (hsuperseded r).mp hr
          rw [hempty] at hmem
          exact absurd hmem List.not_mem_nil
        · exact ⟨hown, fun r hr => hall r ((hsuperseded r).mp hr)⟩
        · rcases (hweak hloud).mp hbad with h | h
          · exact absurd (hfirst.symm.trans h) (by decide)
          · exact absurd h hrepeat

/-- 足されたことは、結果の番号だけで分かる。 -/
theorem exists_created
    (h : (db.enqueueWorkerActionWithOutcome now w a).toOption.map Prod.fst = some (.created id)) :
    ∃ db', db.enqueueWorkerActionWithOutcome now w a = .ok (.created id, db') := by
  cases hresult : db.enqueueWorkerActionWithOutcome now w a with
  | error e =>
    rw [hresult] at h
    cases h
  | ok out =>
    rw [hresult] at h
    obtain ⟨outcome, db'⟩ := out
    cases Option.some.inj h
    exact ⟨db', rfl⟩

end Wake

/-- `"fox"` の報告。 -/
def foxStatus (body : String) (urgent : Bool) : WorkerAction where
  source := "fox"
  target := "lead"
  prompt := body ++ "\n\n<cas-worker-action kind=\"status\" worker=\"fox\"></cas-worker-action>"
  workerName := "fox"
  factorySession := "s"
  urgent := urgent
  origin := .registeredAgent "a1"

/-- 急ぎの報告が一つ待っている。 -/
def urgentPending : PromptDb :=
  PromptDb.empty.insert ((foxStatus "stuck" true).newPrompt 0 (foxStatus "stuck" true).stored none)

/-- 急ぎの報告に、急ぎの報告が続く。 -/
theorem strongest_wake_iff_urgent :
    ∃ db', urgentPending.enqueueWorkerActionWithOutcome 0 {} (foxStatus "still" true)
        = .ok (.created 2, db')
      ∧ ∃ n, db'.find? 2 = some n
        ∧ StrongestWake urgentPending db' (foxStatus "still" true) n := by
  obtain ⟨db', hok⟩ : ∃ db', urgentPending.enqueueWorkerActionWithOutcome 0 {}
      (foxStatus "still" true) = .ok (.created 2, db') := exists_created (by decide)
  obtain ⟨agentId, n, horigin, hfind, hiff⟩ := strongest_wake_iff hok
  cases horigin
  refine ⟨db', hok, n, hfind, hiff.mpr ⟨.inl rfl, by decide, .inr (.inr ⟨?_, ?_⟩)⟩⟩
  · decide
  · exact fun h => absurd h.1 (by decide)

/-- 急ぎの報告を、急ぎでない報告が取り下げる。残る行は急ぎでない。 -/
theorem urgent_pending_weakened :
    ∃ db' n, urgentPending.enqueueWorkerActionWithOutcome 0 {} (foxStatus "later" false)
        = .ok (.created 2, db')
      ∧ db'.find? 2 = some n ∧ n.urgent = false
      ∧ (∃ r, SupersededBy urgentPending db' r ∧ r.urgent = true)
      ∧ ¬StrongestWake urgentPending db' (foxStatus "later" false) n := by
  obtain ⟨db', hok⟩ : ∃ db', urgentPending.enqueueWorkerActionWithOutcome 0 {}
      (foxStatus "later" false) = .ok (.created 2, db') := exists_created (by decide)
  obtain ⟨agentId, horigin, hfind, hsuperseded⟩ := enqueueWorkerAction_created hok
  cases horigin
  have hold : ∃ r ∈ urgentPending.absorbedActions (foxStatus "later" false) "a1",
      r.urgent = true := by decide
  obtain ⟨r, hr, hurgent⟩ := hold
  refine ⟨db', _, hok, hfind, rfl, ⟨r, (hsuperseded r).mpr hr, hurgent⟩, fun h => ?_⟩
  exact absurd (h.urgent r ((hsuperseded r).mpr hr) hurgent) (by decide)

end Cassy
