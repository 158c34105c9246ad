import Cassy.Store.Types

/-!
# 送達の段階

`prompt_queue_store.rs` の `DeliveryStage` と `PendingReason`。宛先に向けた伝言は、待つ・選ばれる・止められる・
渡る・読まれたらしい・確認された、の順に段階が進む。順位は六つで、順位 3 には五つの段階が並ぶ。並んだ段階の
あいだで許される移りは `partially_delivered` から `delivered` への一つだけである。

列 `highest_stage` は文字列で、書かれていなければ `enqueued` と読む。十の綴りのどれでもない文字列は誤りで、
`enqueued` とは読まない。
-/

namespace Cassy

/-- `DeliveryStage`。 -/
inductive DeliveryStage where
  | enqueued | selected | gated | dropped | suppressed | abandoned | partiallyDelivered | delivered
  | assumedSeen | confirmed
  deriving DecidableEq, Repr

namespace DeliveryStage

/-- `DeliveryStage::rank`。 -/
def rank : DeliveryStage → Nat
  | enqueued => 0
  | selected => 1
  | gated => 2
  | dropped | suppressed | abandoned | partiallyDelivered | delivered => 3
  | assumedSeen => 4
  | confirmed => 5

/-- `DeliveryStage::as_str`。 -/
def asStr : DeliveryStage → String
  | enqueued => "enqueued"
  | selected => "selected"
  | gated => "gated"
  | dropped => "dropped"
  | suppressed => "suppressed"
  | abandoned => "abandoned"
  | partiallyDelivered => "partially_delivered"
  | delivered => "delivered"
  | assumedSeen => "assumed_seen"
  | confirmed => "confirmed"

/-- `DeliveryStage::is_terminal_non_delivery`。 -/
def isTerminalNonDelivery : DeliveryStage → Bool
  | dropped | suppressed | abandoned => true
  | _ => false

end DeliveryStage

/-- 列 `highest_stage` の文字列。`DeliveryStage::parse` の読める綴りか、読めない綴りである。 -/
inductive StageText where
  | stage (s : DeliveryStage)
  | corrupt (text : String)
  deriving DecidableEq, Repr

/-- 列の値が段階 `s` の綴りである。SQL の `highest_stage = 's'`。 -/
def stageIs (column : Option StageText) (s : DeliveryStage) : Bool :=
  column = some (.stage s)

/-- `highest_stage IS NULL OR highest_stage NOT IN ('dropped', 'suppressed', 'abandoned')`。 -/
def stageDeliverable (column : Option StageText) : Bool :=
  match column with
  | some (.stage s) => !s.isTerminalNonDelivery
  | _ => true

/-- `PendingReason`。 -/
inductive PendingReason where
  | sessionIneligible | targetUnavailable | gatedNotReady | adapterRetryable | awaitingDelivery
  | awaitingAck | undeliveredAfterWakeDeclines | awaitingBusyRecipient | droppedDeadSource
  | suppressedIdle | supersededStale | shutdownCancelled | abandonedUnknownTarget
  | recipientEndedUnread | undeliveredLifecycleRelay | partialBroadcast | noIntendedRecipients
  deriving DecidableEq, Repr

namespace PendingReason

/-- `PendingReason::implied_stage`。 -/
def impliedStage : PendingReason → DeliveryStage
  | gatedNotReady | targetUnavailable | awaitingBusyRecipient => .gated
  | droppedDeadSource => .dropped
  | suppressedIdle | supersededStale | shutdownCancelled => .suppressed
  | abandonedUnknownTarget | recipientEndedUnread | undeliveredLifecycleRelay
  | undeliveredAfterWakeDeclines => .abandoned
  | partialBroadcast => .partiallyDelivered
  | noIntendedRecipients => .selected
  | adapterRetryable | awaitingDelivery | sessionIneligible | awaitingAck => .selected

/-- `PendingReason::counts_as_delivery_attempt`。transport に渡して断られたときだけ数える。 -/
def countsAsDeliveryAttempt : PendingReason → Bool
  | adapterRetryable | targetUnavailable => true
  | _ => false

end PendingReason

/-- `acked_via` の綴り。 -/
inductive AckedVia where
  | explicitAck | inferredFromReply | hookSurfaced | terminalTaskReconciled
  | sessionEndedReconciled | relayExpired
  deriving DecidableEq, Repr

/-- `SurfacingSource`。受領の記録を書いた経路。 -/
inductive SurfacingSource where
  | inboxPoll | hookSurfaced | transportDelivered | transportClaimed | observedWake
  deriving DecidableEq, Repr

/-- `SurfacingSource::is_surfaced`。本文が宛先の turn に入った証拠か。 -/
def SurfacingSource.isSurfaced : SurfacingSource → Bool
  | inboxPoll | hookSurfaced | observedWake => true
  | transportDelivered | transportClaimed => false

/-! ## 段階の移り -/

/-- 許されない移りの誤り。 -/
def illegalStageTransition (promptId : Nat) (current proposed : DeliveryStage) : StoreError :=
  .other s!"prompt_queue id={promptId}: illegal stage transition {current.asStr} → {proposed.asStr}"

/-- `resolve_stage_transition`。 -/
def resolveStageTransition (current proposed : DeliveryStage) (promptId : Nat) :
    Except StoreError DeliveryStage :=
  if current = proposed then .ok current
  else if proposed.rank > current.rank then .ok proposed
  else if current = .partiallyDelivered ∧ proposed = .delivered then .ok proposed
  -- 低い順位は段階を動かさず、理由だけを書き直させる
  else if proposed.rank < current.rank then .ok current
  else .error (illegalStageTransition promptId current proposed)

/-- 移りは元のままか、提案のとおりである。後者なら順位は上がるか、`partially_delivered` から `delivered` である。 -/
theorem resolveStageTransition_cases {current proposed next : DeliveryStage} {id : Nat}
    (h : resolveStageTransition current proposed id = .ok next) :
    next = current ∨ (next = proposed ∧ (current.rank < proposed.rank ∨
      (current = .partiallyDelivered ∧ proposed = .delivered))) := by
  unfold resolveStageTransition at h
  split at h
  · exact Or.inl (Except.ok.inj h).symm
  · split at h
    · next hrank => exact Or.inr ⟨(Except.ok.inj h).symm, Or.inl hrank⟩
    · split at h
      · next hpartial => exact Or.inr ⟨(Except.ok.inj h).symm, Or.inr hpartial⟩
      · split at h
        · exact Or.inl (Except.ok.inj h).symm
        · cases h

/-- 段階は戻らない。 -/
theorem rank_le_of_resolve {current proposed next : DeliveryStage} {id : Nat}
    (h : resolveStageTransition current proposed id = .ok next) : current.rank ≤ next.rank := by
  rcases resolveStageTransition_cases h with rfl | ⟨rfl, hlt | ⟨rfl, rfl⟩⟩
  · exact Nat.le_refl _
  · exact Nat.le_of_lt hlt
  · exact Nat.le_refl _

/-- 確認は、どの段階からでも通る。 -/
theorem resolve_confirmed (current : DeliveryStage) (id : Nat) :
    resolveStageTransition current .confirmed id = .ok .confirmed := by
  cases current <;> rfl

/-- 見送られた伝言を動かせるのは、確認と、読まれたらしいという推定だけである。 -/
theorem resolve_suppressed {proposed next : DeliveryStage} {id : Nat}
    (h : resolveStageTransition .suppressed proposed id = .ok next) (hne : next ≠ .suppressed) :
    proposed = .assumedSeen ∨ proposed = .confirmed := by
  rcases resolveStageTransition_cases h with rfl | ⟨rfl, hlt | ⟨hp, -⟩⟩
  · exact absurd rfl hne
  · cases next <;> simp [DeliveryStage.rank] at hlt ⊢
  · cases hp

/-- 打ち切りに移れるのは、順位が 3 に届いていない伝言だけである。 -/
theorem resolve_abandoned {current proposed : DeliveryStage} {id : Nat}
    (h : resolveStageTransition current proposed id = .ok .abandoned) :
    current = .abandoned ∨ current.rank < 3 := by
  rcases resolveStageTransition_cases h with hc | ⟨rfl, hlt | ⟨-, hp⟩⟩
  · exact Or.inl hc.symm
  · exact Or.inr hlt
  · cases hp

end Cassy
