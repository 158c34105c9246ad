import Cassy.Infra.Run
import Cassy.Prompt.Retention

/-!
# 一つの出来事は一度だけ足される

鍵の立つ行があるかぎり、同じ鍵の `enqueue_idempotent` は足さない。`prune_terminal_batch` は、通知の渡ったか消えた outbox の
鍵の行の他は、鍵の立つ行を消さない。ところが `cleanup_old` は、`ci-red-run:` の他の鍵の行も消す。消えた鍵の出来事が
また見つかれば、二度目の伝言が足される（`episode_created_twice`）。

`episode_created_once` は、`cleanup_old` が鍵の立つ行を消さない実行についての主張である。
-/

namespace Cassy

open Infra PromptDb

/-- 鍵の立つ行がある。 -/
def PromptDb.HasKey (db : PromptDb) (key : String) : Prop := ∃ r ∈ db.rows, r.dedupeKey = some key

section Rows

variable {db db' : PromptDb} {key : String}

theorem PromptDb.HasKey.update {p : PromptRow → Bool} {f : PromptRow → PromptRow} {hf : ∀ r, (f r).id = r.id}
    (hk : ∀ r, (f r).dedupeKey = r.dedupeKey) (h : db.HasKey key) : (db.update p f hf).HasKey key := by
  obtain ⟨r, hr, hkey⟩ := h
  have hmem : (if p r then f r else r) ∈ (db.prompts.update p f hf).rows :=
    Table.mem_update.mpr ⟨r, hr, rfl⟩
  refine ⟨_, hmem, ?_⟩
  split
  · rw [hk]
    exact hkey
  · exact hkey

theorem PromptDb.HasKey.of_prompts (h : db.HasKey key) (hp : db'.prompts = db.prompts) :
    db'.HasKey key := by
  unfold PromptDb.HasKey PromptDb.rows
  rw [hp]
  exact h

theorem PromptDb.HasKey.insert (p : NewPrompt) (h : db.HasKey key) : (db.insert p).HasKey key := by
  obtain ⟨r, hr, hkey⟩ := h
  exact ⟨r, List.mem_append_left _ hr, hkey⟩

theorem hasKey_insert {p : NewPrompt} (hp : p.dedupeKey = some key) : (db.insert p).HasKey key :=
  ⟨p.toRow db.nextId, List.mem_append_right _ List.mem_cons_self, hp⟩

/-- 消す行に鍵の立つ行が無ければ、鍵は残る。 -/
theorem PromptDb.HasKey.deletePrompts {p : PromptRow → Bool}
    (hp : ∀ r ∈ db.rows, r.dedupeKey = some key → p r = false) (h : db.HasKey key) :
    (db.deletePrompts p).HasKey key := by
  obtain ⟨r, hr, hkey⟩ := h
  exact ⟨r, Table.mem_delete.mpr ⟨hr, hp r hr hkey⟩, hkey⟩

theorem PromptDb.HasKey.notifyAll (h : db.HasKey key) (notices : List AbandonNotice) :
    (db.notifyAll notices).HasKey key := by
  unfold PromptDb.notifyAll
  induction notices generalizing db with
  | nil => exact h
  | cons notice notices ih =>
    refine ih ?_
    cases notice with
    | insert p =>
      rcases insertOrIgnore_cases db p with he | he
      · show (db.insertOrIgnore p).HasKey key
        rw [he]
        exact h.of_prompts rfl
      · show (db.insertOrIgnore p).HasKey key
        rw [he]
        exact h.insert p
    | fold id prompt => exact h.update fun _ => rfl

theorem PromptDb.HasKey.stamp {now : Time} {notices : List AbandonNotice} {id : Nat}
    {proposed : DeliveryStage} {opts : AtomicStampOpts} (h : db.HasKey key)
    (hs : db.atomicStageStampInTx now notices id proposed opts = .ok db') : db'.HasKey key := by
  unfold atomicStageStampInTx at hs
  obtain ⟨current, -, hs⟩ := bind_eq_ok.mp hs
  split at hs
  · rw [← pure_eq_ok.mp hs]
    exact h
  · obtain ⟨next, -, hs⟩ := bind_eq_ok.mp hs
    rw [← pure_eq_ok.mp hs]
    have hrow : (db.updateId id (fun _ => true) (stampRow now current next opts)).HasKey key :=
      h.update fun _ => rfl
    have htransport : ∀ db₁ : PromptDb, db₁.HasKey key →
        (if next = .delivered then db₁.stampRecipientTransport now id else db₁).HasKey key := by
      intro db₁ h₁
      unfold stampRecipientTransport
      split
      · split
        · exact h₁
        · split
          · exact h₁
          · exact h₁
      · exact h₁
    split
    · exact (htransport _ hrow).notifyAll notices
    · exact htransport _ hrow

/-- 片づけの文が消すのは、選んだ行だけである。 -/
theorem PromptDb.HasKey.pruneTerminalBatch {cutoff : Time} {releasable : PromptRow → Bool}
    (picked : List Nat)
    (hp : ∀ r ∈ db.rows, r.dedupeKey = some key → releasable r = false) (h : db.HasKey key) :
    (db.pruneTerminalBatch cutoff releasable picked).HasKey key := by
  refine h.deletePrompts fun r hr hkey => ?_
  by_contra hc
  have hmem : r.id ∈ picked.filter fun id => (db.find? id).any fun r =>
      r.processedAt.any (· < cutoff) && releasable r := by simpa using hc
  obtain ⟨-, hany⟩ := List.mem_filter.mp hmem
  rw [show db.find? r.id = some r from Table.find?_of_mem hr, Option.any_some, hp r hr hkey,
    Bool.and_false] at hany
  cases hany

/-- 足すのは、鍵の立つ行が無いときである。 -/
theorem enqueue_created {p : NewPrompt} {id : Nat} (hp : p.dedupeKey = some key)
    (h : (db.enqueue p).1 = .created id) : ¬ db.HasKey key ∧ (db.enqueue p).2.HasKey key := by
  unfold enqueue duplicateOf? at h ⊢
  rw [hp] at h ⊢
  dsimp only at h ⊢
  cases hfind : db.rows.find? fun r => r.dedupeKey = some key with
  | some r =>
    rw [hfind] at h
    cases h
  | none =>
    refine ⟨?_, hasKey_insert hp⟩
    rintro ⟨r, hr, hkey⟩
    exact absurd hkey (by simpa using List.find?_eq_none.mp hfind r hr)

theorem PromptDb.HasKey.enqueue (p : NewPrompt) (h : db.HasKey key) :
    (db.enqueue p).2.HasKey key := by
  rcases enqueue_cases db p with he | he | he
  · rw [he]
    exact h
  · rw [he]
    exact h.of_prompts rfl
  · rw [he]
    exact h.insert p

end Rows

/-! ## 一歩 -/

section Step

variable {s s' : RetentionState} {key : String}

/-- 一歩が足した鍵。 -/
def RetentionOp.creates (s : RetentionState) : RetentionOp → Option String
  | .enqueueIdempotent p key =>
    match (retentionStep s (.enqueueIdempotent p key)).1 with
    | .created _ => some key
    | _ => none
  | _ => none

/-- `cleanup_old` の消す行には鍵が無いか、通知の渡ったか消えた outbox の鍵がある。 -/
def keepsEpisodes (s : RetentionState) : RetentionOp → Bool
  | .cleanupOld now olderThanSecs => s.db.rows.all fun r =>
    !(r.processedAt.any (· < now - seconds olderThanSecs)
      && !r.dedupeKey.any (likeStart "ci-red-run:") && !s.unretained.contains r.id)
    || r.dedupeKey.all s.released
  | _ => true

/-- 重なる伝言は行を変えない。 -/
theorem enqueue_suppressed {db db' : PromptDb} {p : NewPrompt} {id : Nat}
    (h : db.enqueue p = (.suppressedDuplicate id, db')) : db'.prompts = db.prompts := by
  unfold PromptDb.enqueue at h
  split at h
  · cases h
    split
    · rfl
    · rfl
  · cases h

/-- operator 宛ての伝言も、同じ受付で足す。捨てたときに番号を使うかだけが違う。 -/
theorem insertKeyed_eq {db : PromptDb} {p : NewPrompt} {out : EnqueueOutcome × PromptDb}
    (h : RetentionState.insertKeyed db p = .ok out) :
    out.1 = (db.enqueue p).1 ∧ out.2.prompts = (db.enqueue p).2.prompts := by
  unfold RetentionState.insertKeyed at h
  split at h
  · obtain ⟨-, -, h⟩ := bind_eq_ok.mp h
    unfold insertCompleteOperatorTurn at h
    split at h
    · next id db₂ he =>
      cases h
      rw [he]
      exact ⟨rfl, (enqueue_suppressed he).symm⟩
    · next he =>
      cases h
      rw [he]
      exact ⟨rfl, rfl⟩
  · cases h
    exact ⟨rfl, rfl⟩

/-- 答えと新しい状態。 -/
theorem enqueueIdempotent_cases {p : NewPrompt} {out : RetentionOutcome}
    (h : s.enqueueIdempotent p key = .ok (out, s')) :
    s'.db.prompts = (s.db.enqueue { p with dedupeKey := some key }).2.prompts
      ∧ ∀ id, out = .created id → (s.db.enqueue { p with dedupeKey := some key }).1 = .created id := by
  unfold RetentionState.enqueueIdempotent at h
  obtain ⟨-, -, h⟩ := bind_eq_ok.mp h
  dsimp only at h
  obtain ⟨⟨outcome, db₁⟩, hrun, h⟩ := bind_eq_ok.mp h
  obtain ⟨houtcome, hprompts⟩ := insertKeyed_eq hrun
  rw [← houtcome, ← hprompts]
  cases outcome with
  | created id =>
    cases pure_eq_ok.mp h
    refine ⟨rfl, fun id' hid => ?_⟩
    cases hid
    rfl
  | suppressedDuplicate id =>
    cases pure_eq_ok.mp h
    refine ⟨rfl, fun id' hid => ?_⟩
    cases hid

/-- 片づけは、放してよい鍵の他の鍵を残す。 -/
theorem HasKey.pruneBatch (h : s.db.HasKey key) (hkey : s.released key = false) (cutoff : Time)
    (batch : Nat) : (s.pruneBatch cutoff batch).2.db.HasKey key := by
  refine h.pruneTerminalBatch _ fun r _ hr => ?_
  unfold RetentionState.releasable
  rw [hr, Option.all_some, hkey, Bool.false_and]

theorem HasKey.pruneLoop (hkey : s.released key = false) (clock : Nat → Time) (secs : Int) :
    ∀ (n : Nat) {s₁ : RetentionState}, s₁.supervisorQueue = s.supervisorQueue → s₁.db.HasKey key →
      (RetentionState.pruneLoop clock secs n s₁).2.db.HasKey key
  | 0, s₁, _, h => h
  | n + 1, s₁, hq, h => by
    have hrel : s₁.released key = false := by
      unfold RetentionState.released at hkey ⊢
      rw [hq]
      exact hkey
    have hbatch := HasKey.pruneBatch h hrel (clock n - seconds secs) retentionMaxBatch
    unfold RetentionState.pruneLoop
    dsimp only
    split
    · exact hbatch
    · have hq' : (s₁.pruneBatch (clock n - seconds secs) retentionMaxBatch).2.supervisorQueue
          = s.supervisorQueue := hq
      exact HasKey.pruneLoop hkey clock secs n hq' hbatch

/-- 残した行を数えても、表は変わらない。 -/
theorem pruneTerminalOlderThan_eq {clock : Nat → Time} {counted : Time} {secs : Int}
    {sweep : PromptRetentionSweep}
    (h : s.pruneTerminalOlderThan clock counted secs = .ok (sweep, s')) :
    s' = (RetentionState.pruneLoop clock secs (s.db.rows.length + 1) s).2 := by
  unfold RetentionState.pruneTerminalOlderThan at h
  obtain ⟨-, -, h⟩ := bind_eq_ok.mp h
  generalize RetentionState.pruneLoop clock secs (s.db.rows.length + 1) s = swept at h ⊢
  exact (congrArg Prod.snd (pure_eq_ok.mp h)).symm

/-- 一歩は、放してよい鍵の他の鍵を残す。 -/
theorem retentionStep_hasKey {o : RetentionOp} (hg : keepsEpisodes s o = true)
    (hkey : s.released key = false) (h : s.db.HasKey key) :
    (retentionStep s o).2.db.HasKey key := by
  cases o with
  | enqueueIdempotent p k =>
    dsimp only [retentionStep]
    split
    · next out hout =>
      exact (h.enqueue _).of_prompts (enqueueIdempotent_cases hout).1
    · exact h
  | stamp now op notices =>
    dsimp only [retentionStep]
    split
    · next hs => exact h.stamp hs
    · exact h
  | markProcessed now id => exact h.update fun _ => rfl
  | poll now target session limit => exact h.update fun _ => rfl
  | writeColumns rows columns => exact h.update fun _ => rfl
  | pruneTerminalBatch now secs batch =>
    dsimp only [retentionStep]
    split
    · next rows s' hs =>
      unfold RetentionState.pruneTerminalBatch at hs
      obtain ⟨-, -, hs⟩ := bind_eq_ok.mp hs
      have hs := pure_eq_ok.mp hs
      rw [← show _ = s' from congrArg Prod.snd hs]
      exact HasKey.pruneBatch h hkey _ _
    · exact h
  | pruneTerminalOlderThan clock counted secs =>
    dsimp only [retentionStep]
    split
    · next sweep s' hs =>
      rw [pruneTerminalOlderThan_eq hs]
      exact HasKey.pruneLoop hkey clock secs _ rfl h
    · exact h
  | cleanupOld now secs =>
    refine h.deletePrompts fun r hr hk => ?_
    have hrow := List.all_eq_true.mp hg r hr
    rw [hk, Option.all_some, hkey, Bool.or_false, Bool.not_eq_true'] at hrow
    rw [hk]
    exact hrow
  | supervisorQueue queue => exact h
  | retain unretained => exact h

/-- 鍵を足した一歩の前には鍵が無く、後にはある。 -/
theorem creates_hasKey {o : RetentionOp} (h : o.creates s = some key) :
    ¬ s.db.HasKey key ∧ (retentionStep s o).2.db.HasKey key := by
  cases o with
  | enqueueIdempotent p k =>
    dsimp only [RetentionOp.creates] at h
    split at h
    · next id hid =>
      cases h
      dsimp only [retentionStep] at hid ⊢
      split at hid
      · next out hout =>
        obtain ⟨hdb, hcreated⟩ := enqueueIdempotent_cases hout
        have hnew := enqueue_created (p := { p with dedupeKey := some key }) rfl (hcreated id hid)
        exact ⟨hnew.1, hnew.2.of_prompts hdb⟩
      · cases hid
    · cases h
  | _ => cases h

end Step

/-! ## 実行の全体 -/

/--
同じ鍵を二度足すのは、その間のどこかで、鍵が、通知の渡ったか消えた outbox の鍵であるときに限る。
-/
def EpisodesOnce (s : RetentionState) (acts : List RetentionOp) : Prop :=
  ∀ pre o mid o' post key, acts = pre ++ o :: (mid ++ o' :: post) →
    o.creates (run retentionStep s pre) = some key →
    o'.creates (run retentionStep s (pre ++ o :: mid)) = some key →
    ∃ e ∈ trace retentionStep (run retentionStep s (pre ++ [o])) mid, e.before.released key = true

/-- 放してよい鍵にならないうちは、鍵は残る。 -/
theorem hasKey_run {key : String} : ∀ {s : RetentionState} {acts : List RetentionOp},
    Guarded retentionStep (fun s o => keepsEpisodes s o = true) s acts → s.db.HasKey key →
    (∀ e ∈ trace retentionStep s acts, e.before.released key = false) →
    (run retentionStep s acts).db.HasKey key
  | s, [], _, h, _ => h
  | s, o :: acts, hg, h, hkey => by
    have hstep := retentionStep_hasKey hg.1 (hkey _ List.mem_cons_self) h
    show (run retentionStep (retentionStep s o).2 acts).db.HasKey key
    exact hasKey_run hg.2 hstep fun e he => hkey e (List.mem_cons_of_mem _ he)

/-- 鍵の立つ行を `cleanup_old` が消さない実行では、一つの出来事は一度だけ足される。 -/
theorem episode_created_once (s : RetentionState) (acts : List RetentionOp)
    (hg : Guarded retentionStep (fun s o => keepsEpisodes s o = true) s acts) :
    EpisodesOnce s acts := by
  intro pre o mid o' post key hacts hfirst hsecond
  by_contra hnone
  have hfree : ∀ e ∈ trace retentionStep (run retentionStep s (pre ++ [o])) mid,
      e.before.released key = false := by
    intro e he
    rw [← Bool.not_eq_true]
    exact fun hrel => hnone ⟨e, he, hrel⟩
  have hmid : Guarded retentionStep (fun s o => keepsEpisodes s o = true)
      (run retentionStep s (pre ++ [o])) mid := by
    have hsplit : acts = (pre ++ [o]) ++ (mid ++ o' :: post) := by
      rw [hacts, List.append_assoc]
      rfl
    rw [hsplit, guarded_append] at hg
    exact (guarded_append.mp hg.2).1
  have hhas : (run retentionStep s (pre ++ [o])).db.HasKey key := by
    rw [run_append]
    exact (creates_hasKey hfirst).2
  have hkept := hasKey_run hmid hhas hfree
  rw [← run_append, List.append_assoc] at hkept
  exact (creates_hasKey hsecond).1 hkept

/-- ある出来事の伝言。 -/
def episodePrompt : NewPrompt :=
  { source := "daemon", target := "lead", prompt := "the worker went idle", createdAt := 0 }

/-- 渡して片づけても、鍵は残る。 -/
def prunedEpisode : List RetentionOp :=
  [.enqueueIdempotent episodePrompt "worker-idle:ada",
    .markProcessed 1 1,
    .pruneTerminalBatch (seconds 100) 10 500,
    .pruneTerminalOlderThan (fun _ => seconds 100) (seconds 100) 10,
    .enqueueIdempotent episodePrompt "worker-idle:ada"]

theorem episode_created_once_pruned : EpisodesOnce ⟨.empty, none, []⟩ prunedEpisode :=
  episode_created_once _ _ (by decide)

/-- `cleanup_old` が消した出来事は、また足される。 -/
theorem episode_created_twice : ¬ ∀ s acts, EpisodesOnce s acts := by
  intro h
  obtain ⟨e, he, hrel⟩ := h ⟨.empty, none, []⟩ _ []
    (.enqueueIdempotent episodePrompt "worker-idle:ada")
    [.markProcessed 1 1, .cleanupOld (seconds 100) 10]
    (.enqueueIdempotent episodePrompt "worker-idle:ada") [] "worker-idle:ada" rfl (by decide)
    (by decide)
  have hkey : outboxKey "worker-idle:ada" = false := by decide
  unfold RetentionState.released at hrel
  rw [hkey, Bool.false_and] at hrel
  cases hrel

end Cassy
