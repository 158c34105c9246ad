import Cassy.Prompt.OperatorDelivery

/-!
# 大きすぎる控えと借り

`claim_operator_delivery` は期限の来た控えを古い順にたどり、合計が上限に収まる間だけ借りる。最も古い控えがそれだけで上限を
超えると、後ろに小さい控えがあっても誤りを返す。最も古い控えが収まれば、少なくとも一つを借りる。
-/

namespace Cassy

open Infra

namespace OperatorOutbox

variable {outbox : OperatorOutbox} {limits : OperatorDrainLimits} {leaseUntil : Time}
  {token : Nat → String}

/-- 合計が上限に収まる、頭からの並び。 -/
def fitting (maxBytes : Nat) : Nat → List OperatorDeliveryRow → List OperatorDeliveryRow
  | _, [] => []
  | bytes, r :: rows =>
    if bytes + r.payloadLength ≤ maxBytes then r :: fitting maxBytes (bytes + r.payloadLength) rows
    else []

theorem sum_fitting_le (maxBytes : Nat) : ∀ (rows : List OperatorDeliveryRow) (bytes : Nat),
    bytes ≤ maxBytes →
    bytes + ((fitting maxBytes bytes rows).map OperatorDeliveryRow.payloadLength).sum ≤ maxBytes
  | [], bytes, h => by simpa [fitting] using h
  | r :: rows, bytes, h => by
    unfold fitting
    split
    next hr =>
      have ih := sum_fitting_le maxBytes rows (bytes + r.payloadLength) hr
      rw [List.map_cons, List.sum_cons]
      omega
    next => simpa using h

/-- 借りても控えの中身は変わらない。 -/
theorem find?_lend {untilMs : Int} {t id : String} {k : String} :
    (lend outbox t untilMs id).find? k = (outbox.find? k).map fun r =>
      if r.eventId = id then { r with lease := some ⟨t, untilMs⟩, attempts := r.attempts + 1 } else r := by
  unfold lend
  refine Table.find?_update.trans ?_
  simp only [decide_eq_true_eq]

theorem find?_lend_of_ne {untilMs : Int} {t id k : String} (h : k ≠ id) :
    (lend outbox t untilMs id).find? k = outbox.find? k := by
  rw [find?_lend]
  cases hk : outbox.find? k with
  | none => rfl
  | some r =>
    have hkey : r.eventId = k := Table.key_of_find? hk
    rw [Option.map_some, if_neg (by rw [hkey]; exact h)]

/-- 表にある控えを写したもの。 -/
def Stored (outbox : OperatorOutbox) (rows : List OperatorDeliveryRow) : Prop :=
  ∀ r ∈ rows, ∃ stored, outbox.find? r.eventId = some stored ∧ stored.event = r.event

theorem Stored.lend {rows : List OperatorDeliveryRow} (h : Stored outbox rows) (t : String)
    (untilMs : Int) (id : String) : Stored (lend outbox t untilMs id) rows := by
  intro r hr
  obtain ⟨stored, hfind, hevent⟩ := h r hr
  refine ⟨_, by rw [find?_lend, hfind, Option.map_some], ?_⟩
  split
  · exact hevent
  · exact hevent

/-- 借りた控えの写し。 -/
def claimsOf (leaseUntil : Time) (token : Nat → String) :
    Nat → List OperatorDeliveryRow → List OperatorDeliveryClaim
  | _, [] => []
  | i, r :: rows =>
    { event := r.event, leaseToken := token i, leaseUntil := leaseUntil }
      :: claimsOf leaseUntil token (i + 1) rows

/-- 頭の控えが収まるなら、収まる間の控えを借り、ほかの行には触れない。 -/
theorem claimRows_ok : ∀ (rows : List OperatorDeliveryRow) (bytes : Nat)
    (claims : List OperatorDeliveryClaim) (outbox : OperatorOutbox),
    (claims = [] → ∀ r ∈ rows.head?, r.payloadLength ≤ limits.maxPayloadBytes) →
    bytes ≤ limits.maxPayloadBytes → Stored outbox rows →
    ∃ outbox', claimRows limits leaseUntil token (rows.map fun r => (r.eventId, r.payloadLength))
        bytes claims outbox
        = .ok (claims ++ claimsOf leaseUntil token claims.length
          (fitting limits.maxPayloadBytes bytes rows), outbox')
      ∧ ∀ id, (∀ r ∈ fitting limits.maxPayloadBytes bytes rows, id ≠ r.eventId) →
        outbox'.find? id = outbox.find? id
  | [], bytes, claims, outbox, _, _, _ =>
    ⟨outbox, by simp [claimRows, fitting, claimsOf], fun _ _ => rfl⟩
  | r :: rows, bytes, claims, outbox, hfirst, hbytes, hstored => by
    have hhead : ¬ (limits.maxPayloadBytes < r.payloadLength ∧ claims = []) := by
      rintro ⟨hlt, hnil⟩
      have hle := hfirst hnil r rfl
      omega
    rw [List.map_cons, claimRows, if_neg hhead]
    by_cases hfit : bytes + r.payloadLength ≤ limits.maxPayloadBytes
    · obtain ⟨stored, hfind, hevent⟩ := hstored r List.mem_cons_self
      rw [if_neg (by omega), hfind]
      have hrest : Stored outbox rows := fun x hx => hstored x (List.mem_cons_of_mem _ hx)
      obtain ⟨outbox', heq, hframe⟩ := claimRows_ok rows (bytes + r.payloadLength)
        (claims ++ [{ event := stored.event, leaseToken := token claims.length, leaseUntil }])
        (OperatorOutbox.lend outbox (token claims.length) (timestampMillis leaseUntil) r.eventId)
        (fun h => absurd h (by simp)) hfit (hrest.lend _ _ _)
      refine ⟨outbox', ?_, ?_⟩
      · show claimRows _ _ _ _ _ _ _ = _
        rw [heq, fitting, if_pos hfit, claimsOf, hevent, List.length_append, List.length_singleton,
          List.append_assoc, List.singleton_append]
      · intro id hid
        rw [fitting, if_pos hfit] at hid
        rw [hframe id fun x hx => hid x (List.mem_cons_of_mem _ hx),
          find?_lend_of_ne (hid r List.mem_cons_self)]
    · rw [if_pos (by omega)]
      refine ⟨outbox, ?_, fun _ _ => rfl⟩
      rw [fitting, if_neg hfit, claimsOf, List.append_nil]

theorem stored_dueRows (nowMs : Int) : Stored outbox (dueRows outbox nowMs) := by
  intro r hr
  have hmem : r ∈ outbox.rows := by
    unfold dueRows at hr
    exact (List.mem_filter.mp ((List.mem_insertionSort _).mp hr)).1
  exact ⟨r, Table.find?_of_mem hmem, rfl⟩

theorem map_claimsOf_event : ∀ (i : Nat) (rows : List OperatorDeliveryRow),
    (claimsOf leaseUntil token i rows).map OperatorDeliveryClaim.event
      = rows.map OperatorDeliveryRow.event
  | _, [] => rfl
  | i, r :: rows => congrArg (r.event :: ·) (map_claimsOf_event (i + 1) rows)

/-- 最も古い控えが上限に収まれば、少なくとも一つを借り、借りた分は上限に収まり、ほかの控えは変わらない。収まらなければ、後ろに
何があっても誤りを返し、何も書かない。 -/
theorem claim_operator_delivery_oldest {now : Time} (hlimits : limits.Valid)
    (hnow : now + seconds limits.leaseSeconds ≤ maxUtc) {first : OperatorDeliveryRow}
    {rest : List OperatorDeliveryRow} (hdue : dueRows outbox (timestampMillis now) = first :: rest) :
    (first.payloadLength ≤ limits.maxPayloadBytes → ∃ claims outbox',
      claimOperatorDelivery outbox now limits token = .ok (claims, outbox') ∧ claims ≠ []
        ∧ (claims.map fun c => c.event.payloadSnapshot.utf8ByteSize).sum ≤ limits.maxPayloadBytes
        ∧ ∀ id, (∀ c ∈ claims, id ≠ c.event.eventId) → outbox'.find? id = outbox.find? id)
      ∧ (limits.maxPayloadBytes < first.payloadLength →
        claimOperatorDelivery outbox now limits token
          = .error (.other "operator event exceeds the drain byte budget; event remains pending")) := by
  obtain ⟨n, hn⟩ : ∃ n, limits.maxEvents = n + 1 := ⟨limits.maxEvents - 1, by
    have hone := hlimits.1
    omega⟩
  have hclaim : claimOperatorDelivery outbox now limits token
      = claimRows limits (now + seconds limits.leaseSeconds) token
        ((first :: rest.take n).map fun r => (r.eventId, r.payloadLength)) 0 [] outbox := by
    unfold claimOperatorDelivery checkedAddSeconds ensure okOr
    rw [if_pos hlimits, if_pos hnow, hdue, hn, List.take_succ_cons]
    rfl
  rw [hclaim]
  constructor
  · intro hfit
    have hstored : Stored outbox (first :: rest.take n) := by
      have hall := @stored_dueRows outbox (timestampMillis now)
      rw [hdue] at hall
      exact fun r hr => hall r ((List.take_sublist (n + 1) (first :: rest)).subset hr)
    obtain ⟨outbox', heq, hframe⟩ := @claimRows_ok limits (now + seconds limits.leaseSeconds) token
      (first :: rest.take n) 0 [] outbox (fun _ r hr => by
        rw [List.head?_cons, Option.mem_some] at hr
        exact hr ▸ hfit) (Nat.zero_le _) hstored
    refine ⟨_, outbox', heq, ?_, ?_, ?_⟩
    · rw [fitting, if_pos (by omega), claimsOf]
      simp
    · have hsum := sum_fitting_le limits.maxPayloadBytes (first :: rest.take n) 0 (Nat.zero_le _)
      have hlength := congrArg (List.map fun e : OperatorDeliveryEvent => e.payloadSnapshot.utf8ByteSize)
        (@map_claimsOf_event (now + seconds limits.leaseSeconds) token 0
          (fitting limits.maxPayloadBytes 0 (first :: rest.take n)))
      rw [List.map_map, List.map_map] at hlength
      rw [Nat.zero_add] at hsum
      show (List.map ((fun e : OperatorDeliveryEvent => e.payloadSnapshot.utf8ByteSize)
        ∘ OperatorDeliveryClaim.event) _).sum ≤ _
      rw [List.nil_append, List.length_nil, hlength]
      exact hsum
    · intro id hid
      refine hframe id fun r hr => ?_
      have hevent : r.event ∈ (claimsOf (now + seconds limits.leaseSeconds) token 0
          (fitting limits.maxPayloadBytes 0 (first :: rest.take n))).map
            OperatorDeliveryClaim.event := by
        rw [map_claimsOf_event]
        exact List.mem_map_of_mem hr
      obtain ⟨c, hc, heq⟩ := List.mem_map.mp hevent
      have hne := hid c hc
      rw [heq] at hne
      exact hne
  · intro hover
    rw [List.map_cons, claimRows, if_pos ⟨hover, rfl⟩]

/-- 控え一つの行。 -/
def snapshotRow (eventId payload createdAt : String) : OperatorDeliveryRow where
  event := { eventId := eventId, promptId := 1, payloadSnapshot := payload, createdAt := createdAt }

/-- 古い控えが長く、新しい控えが短い表。 -/
def longHead : OperatorOutbox where
  rows :=
    [snapshotRow "e-1" "\x7b\"prompt\":\"a long answer\"\x7d" "2026-01-01T00:00:00+00:00",
      snapshotRow "e-2" "\x7b\"prompt\":\"ok\"\x7d" "2026-01-01T00:00:01+00:00"]
  nodup := by decide

theorem dueRows_longHead : dueRows longHead (timestampMillis 0) = longHead.rows := by decide

theorem claim_operator_delivery_oldest_longHead :
    ∃ claims outbox', claimOperatorDelivery longHead 0 {} (fun _ => "t") = .ok (claims, outbox')
      ∧ claims ≠ [] ∧ (claims.map fun c => c.event.payloadSnapshot.utf8ByteSize).sum ≤ 1024 * 1024
      ∧ ∀ id, (∀ c ∈ claims, id ≠ c.event.eventId) → outbox'.find? id = longHead.find? id :=
  (claim_operator_delivery_oldest (by decide) (by decide) dueRows_longHead).1 (by decide)

/-- 新しい控えは上限に収まるのに、古い控えが長いので何も借りられない。 -/
theorem long_head_blocks_drain :
    OperatorDrainLimits.Valid { maxPayloadBytes := 20 }
      ∧ longHead.rows.any (fun r => due (timestampMillis 0) r && decide (r.payloadLength ≤ 20)) = true
      ∧ (claimOperatorDelivery longHead 0 { maxPayloadBytes := 20 } fun _ => "t").isOk = false := by
  decide

end OperatorOutbox

end Cassy
