import Cassy.Cloud.SplitCall
import Cassy.Properties.SplitOverlap

/-!
# 失敗した分割の呼び出しの後始末

`propose` と `answer` が誤りを返したとき、cloud の借りと、この側を縛る分割が、呼び出しの前と同じである条件を示す。

`claim_share` は自分の借りたものだけを返す。その後で失敗した呼び出しは取り分の全てを返すので、前から借りていた子も
手放す。
-/

namespace Cassy

open Infra

/-! ## cloud -/

namespace PeerClaims

theorem holder_releaseOwn (c : PeerClaims) (id agent x : String) :
    (c.releaseOwn id agent).holder x
      = if x = id ∧ c.holder x = some agent then none else c.holder x := by
  unfold releaseOwn
  by_cases hx : x = id
  · subst hx
    by_cases hold : c.holder x = some agent
    · simp [hold]
    · simp [hold]
  · by_cases hold : c.holder id = some agent
    · simp [hold, hx]
    · simp [hold, hx]

/-- 返した後、名指した子の自分の借りだけが無い。 -/
theorem holder_releaseShare (c : PeerClaims) (ids : List String) (agent x : String) :
    (c.releaseShare ids agent).holder x
      = if x ∈ ids ∧ c.holder x = some agent then none else c.holder x := by
  unfold releaseShare
  induction ids generalizing c with
  | nil => simp
  | cons id ids ih =>
    rw [List.foldl_cons, ih, holder_releaseOwn]
    by_cases hx : x = id
    · by_cases hold : c.holder x = some agent <;> simp [hx, hx ▸ hold]
    · simp [hx]

end PeerClaims

/-! ## 取り分を借りる -/

section ClaimShare

variable {caller : String} {isLocal : String → Bool} {o : SplitOutside} {before : PeerClaims}

/-- 呼び出しの前に空いていた子のうち、`seen` にあるものだけを借りている。 -/
structure TakenFrom (before : PeerClaims) (caller : String) (seen taken : List String)
    (c : PeerClaims) : Prop where
  mem_taken : ∀ x, x ∈ taken ↔ x ∈ seen ∧ before.holder x = none
  holder : ∀ x, c.holder x = if x ∈ taken then some caller else before.holder x

/-- 取り分の `i` 番目の子 `id` が借りられる。前にも同じ子が並んでいれば、二度目は尋ねるだけである。 -/
def Grants (before : PeerClaims) (caller : String) (isLocal : String → Bool) (o : SplitOutside)
    (earlier : List String) (i : Nat) (id : String) : Prop :=
  o.asked i = true ∧
    match before.holder id with
    | none => id ∈ earlier ∨ o.acquired i ≠ .down
    | some holder => holder = caller ∨ isLocal holder = true ∨ o.acquired i = .stale
        ∨ o.acquired i = .retired

/-- 取り分の全てが借りられる。 -/
def GrantsAll (before : PeerClaims) (caller : String) (isLocal : String → Bool) (o : SplitOutside)
    (ids : List String) : Prop :=
  ∀ i id, ids[i]? = some id → Grants before caller isLocal o (ids.take i) i id

/-- 途中で失敗した `claim_share` は、借りたものを全て返している。 -/
theorem releaseShare_taken {seen taken : List String} {c : PeerClaims}
    (h : TakenFrom before caller seen taken c) : c.releaseShare taken caller = before := by
  refine PeerClaims.ext (funext fun x => ?_)
  rw [PeerClaims.holder_releaseShare, h.holder x]
  by_cases hx : x ∈ taken
  · simp [hx, ((h.mem_taken x).mp hx).2]
  · simp [hx]

theorem TakenFrom.claim {seen taken : List String} {c : PeerClaims} {id : String}
    (h : TakenFrom before caller seen taken c) (hfree : before.holder id = none) :
    TakenFrom before caller (seen ++ [id]) (taken ++ [id])
      ⟨Function.update c.holder id (some caller)⟩ := by
  constructor
  · intro x
    by_cases hx : x = id
    · simp [hx, hfree]
    · simp [hx, h.mem_taken]
  · intro x
    by_cases hx : x = id
    · simp [hx]
    · simp [hx, h.holder]

theorem TakenFrom.skip {seen taken : List String} {c : PeerClaims} {id : String}
    (h : TakenFrom before caller seen taken c) (hheld : before.holder id = none → id ∈ seen) :
    TakenFrom before caller (seen ++ [id]) taken c := by
  refine ⟨fun x => ?_, h.holder⟩
  rw [h.mem_taken x, List.mem_append, List.mem_singleton]
  constructor
  · rintro ⟨hx, hfree⟩
    exact ⟨Or.inl hx, hfree⟩
  · rintro ⟨hx | rfl, hfree⟩
    · exact ⟨hx, hfree⟩
    · exact ⟨hheld hfree, hfree⟩

/-- 一つ目の子を借りるか、借りたものを全て返して失敗する。 -/
theorem claimShare_cons (id : String) (ids seen taken : List String) (c : PeerClaims)
    (h : TakenFrom before caller seen taken c) :
    (Grants before caller isLocal o seen seen.length id ∧ ∃ taken' c',
      TakenFrom before caller (seen ++ [id]) taken' c' ∧
      claimShare caller isLocal o (id :: ids) seen.length c taken
        = claimShare caller isLocal o ids (seen ++ [id]).length c' taken') ∨
    (¬ Grants before caller isLocal o seen seen.length id ∧
      claimShare caller isLocal o (id :: ids) seen.length c taken = (false, before)) := by
  have hlen : (seen ++ [id]).length = seen.length + 1 := by simp
  have hback := releaseShare_taken h
  rw [claimShare, hlen]
  unfold Grants
  by_cases hasked : o.asked seen.length = false
  · right
    rw [if_pos hasked, hback]
    exact ⟨fun hg => by simp [hasked] at hg, rfl⟩
  · rw [if_neg hasked]
    have hask : o.asked seen.length = true := by simpa using hasked
    by_cases htaken : id ∈ taken
    · -- 前に並んでいた同じ子を、もう借りている。
      obtain ⟨hseen, hfree⟩ := (h.mem_taken id).mp htaken
      left
      refine ⟨⟨hask, by rw [hfree]; exact Or.inl hseen⟩, taken, c, h.skip fun _ => hseen, ?_⟩
      rw [h.holder id, if_pos htaken]
      simp
    · have hsame : c.holder id = before.holder id := by rw [h.holder id, if_neg htaken]
      unfold PeerClaims.acquire
      rw [hsame]
      cases hbefore : before.holder id with
      | none =>
        have hseen : id ∉ seen := fun hs => htaken ((h.mem_taken id).mpr ⟨hs, hbefore⟩)
        cases hreply : o.acquired seen.length with
        | down =>
          right
          exact ⟨fun hg => by simp [hseen] at hg, by simp [hback]⟩
        | answers | stale | retired =>
          left
          exact ⟨⟨hask, Or.inr (by simp)⟩, taken ++ [id], _, h.claim hbefore, by simp⟩
      | some holder =>
        have hskip : TakenFrom before caller (seen ++ [id]) taken c := h.skip fun hnone => by rw [hbefore] at hnone; cases hnone
        by_cases hours : holder = caller ∨ isLocal holder = true
        · left
          refine ⟨⟨hask, ?_⟩, taken, c, hskip, by simp [hours]⟩
          rcases hours with hcaller | hlocal
          · exact Or.inl hcaller
          · exact Or.inr (Or.inl hlocal)
        · obtain ⟨hcaller, hlocal⟩ := not_or.mp hours
          cases hreply : o.acquired seen.length with
          | answers | down =>
            right
            exact ⟨fun hg => by simp [hcaller, hlocal] at hg, by simp [hcaller, hlocal, hback]⟩
          | stale | retired =>
            left
            exact ⟨⟨hask, by simp⟩, taken, c, hskip, by simp [hcaller, hlocal]⟩

/-- `claim_share` は、全てを借りるか、何も変えないかである。 -/
theorem claimShare_spec (ids seen taken : List String) (c : PeerClaims)
    (h : TakenFrom before caller seen taken c) :
    ((claimShare caller isLocal o ids seen.length c taken).1 = true ↔
      ∀ i id, ids[i]? = some id →
        Grants before caller isLocal o (seen ++ ids.take i) (seen.length + i) id) ∧
    ((claimShare caller isLocal o ids seen.length c taken).1 = false →
      (claimShare caller isLocal o ids seen.length c taken).2 = before) ∧
    ((claimShare caller isLocal o ids seen.length c taken).1 = true →
      ∃ taken', TakenFrom before caller (seen ++ ids) taken'
        (claimShare caller isLocal o ids seen.length c taken).2) := by
  induction ids generalizing seen taken c with
  | nil => simpa [claimShare] using ⟨taken, h⟩
  | cons id ids ih =>
    have hlen : seen.length + 1 = (seen ++ [id]).length := by simp
    -- 一つ目の子の条件と、残りの子の条件に分ける。
    have hsplit : (∀ i x, (id :: ids)[i]? = some x →
          Grants before caller isLocal o (seen ++ (id :: ids).take i) (seen.length + i) x) ↔
        Grants before caller isLocal o seen seen.length id ∧ ∀ i x, ids[i]? = some x →
          Grants before caller isLocal o ((seen ++ [id]) ++ ids.take i) ((seen ++ [id]).length + i) x := by
      constructor
      · intro hall
        refine ⟨by simpa using hall 0 id rfl, fun i x hx => ?_⟩
        have := hall (i + 1) x (by simpa using hx)
        rw [List.take_succ_cons] at this
        rw [← hlen, List.append_assoc, List.singleton_append]
        have hadd : seen.length + (i + 1) = seen.length + 1 + i := by omega
        rwa [hadd] at this
      · rintro ⟨hfirst, hrest⟩ i x hx
        cases i with
        | zero =>
          obtain rfl : id = x := by simpa using hx
          simpa using hfirst
        | succ i =>
          have := hrest i x (by simpa using hx)
          rw [← hlen, List.append_assoc, List.singleton_append] at this
          rw [List.take_succ_cons]
          have hadd : seen.length + (i + 1) = seen.length + 1 + i := by omega
          rwa [hadd]
    have hassoc : seen ++ id :: ids = (seen ++ [id]) ++ ids := by simp
    rw [hsplit, hassoc]
    rcases @claimShare_cons caller isLocal o before id ids seen taken c h with
      ⟨hgrants, taken', c', h', heq⟩ | ⟨hrefused, heq⟩
    · rw [heq]
      obtain ⟨hiff, hfail, hok⟩ := ih (seen ++ [id]) taken' c' h'
      exact ⟨hiff.trans ⟨fun hrest => ⟨hgrants, hrest⟩, fun hall => hall.2⟩, hfail, hok⟩
    · rw [heq]
      exact ⟨⟨nofun, fun hall => absurd hall.1 hrefused⟩, fun _ => rfl, nofun⟩

/-- 呼び出しの始めから見た `claim_share`。 -/
theorem claimShare_start (ids : List String) :
    ((claimShare caller isLocal o ids 0 before []).1 = true ↔ GrantsAll before caller isLocal o ids) ∧
    ((claimShare caller isLocal o ids 0 before []).1 = false →
      (claimShare caller isLocal o ids 0 before []).2 = before) ∧
    ((claimShare caller isLocal o ids 0 before []).1 = true →
      ∃ taken, TakenFrom before caller ids taken (claimShare caller isLocal o ids 0 before []).2) := by
  have hstart : TakenFrom before caller [] [] before := ⟨by simp, by simp⟩
  have hspec := @claimShare_spec caller isLocal o before ids [] [] before hstart
  simpa [GrantsAll] using hspec

/-- 取り分の全てを返すと元に戻るのは、前から借りていた子が取り分に無いときである。 -/
theorem TakenFrom.releaseShare_eq_iff {ids taken : List String} {c : PeerClaims}
    (h : TakenFrom before caller ids taken c) :
    c.releaseShare ids caller = before ↔ ∀ id ∈ ids, before.holder id ≠ some caller := by
  have hholder (x : String) : (c.releaseShare ids caller).holder x
      = if x ∈ ids ∧ before.holder x = some caller then none else before.holder x := by
    rw [PeerClaims.holder_releaseShare, h.holder x]
    by_cases hx : x ∈ taken
    · obtain ⟨hseen, hfree⟩ := (h.mem_taken x).mp hx
      simp [hx, hseen, hfree]
    · simp [hx]
  constructor
  · intro heq id hid hheld
    have := hholder id
    rw [heq, if_pos ⟨hid, hheld⟩, hheld] at this
    cases this
  · intro hnone
    refine PeerClaims.ext (funext fun x => ?_)
    rw [hholder, if_neg fun hx => hnone x hx.1 hx.2]

end ClaimShare

/-! ## 縛る分割 -/

section Binding

variable {sql : SplitSql}

/-- id の名指す分割が、この側を縛る。 -/
def SplitTable.binds (t : SplitTable) (id : String) (now : Time) : Bool :=
  (t.find? id).any (·.isBinding now)

/-- 書き換えたかどうかは、名指された行が条件に合うかである。 -/
theorem decide_eq_applies {t : SplitTable} {d : SplitDecision} {r : EpicSplit}
    (hr : t.find? d.id = some r) : (decideEpicSplitBy sql t d).1 = d.applies sql r := by
  have hkey : ∀ r, d.applies sql r = true → r.id = d.id := by
    intro r h
    simp only [SplitDecision.applies, Bool.and_eq_true, decide_eq_true_eq] at h
    exact h.1.1.1
  rw [decideEpicSplitBy]
  cases happ : d.applies sql r with
  | true =>
    rw [decide_eq_true_eq]
    exact Table.count_eq_one hr (fun r _ => hkey r) happ
  | false =>
    rw [decide_eq_false_iff_not]
    intro hcount
    have := Table.of_count_pos (by rw [hcount]; exact Nat.one_pos) hkey hr
    rw [happ] at this
    cases this

/-- 届かなかった申し出は、取り消せば何も縛らない。 -/
theorem binds_rollback {t : SplitTable} {p : SplitProposal} {id : String} {created undone : Time}
    {k : String} {now : Time}
    (h : SplitTable.binds (decideEpicSplitBy sql (insertEpicSplit t (p.record id created))
      ((SplitPurpose.rollback id p).decision undone)).2 k now = true) : t.binds k now = true := by
  unfold SplitTable.binds at h ⊢
  rw [find?_decide, insertEpicSplit, Table.find?_insertOrIgnore, Option.any_map] at h
  -- 取り消された行は縛らないので、縛る行は書き換えられていない。
  have hkept : ∀ r : EpicSplit,
      ((if ((SplitPurpose.rollback id p).decision undone).applies sql r
        then ((SplitPurpose.rollback id p).decision undone).apply r else r).isBinding now = true) →
      ((SplitPurpose.rollback id p).decision undone).applies sql r = false
        ∧ r.isBinding now = true := by
    intro r hr
    cases happ : ((SplitPurpose.rollback id p).decision undone).applies sql r with
    | true =>
      rw [if_pos happ] at hr
      simp [SplitDecision.apply, SplitPurpose.decision, EpicSplit.isBinding] at hr
    | false => simpa [happ] using hr
  cases hold : t.find? k with
  | some r =>
    rw [hold, Option.some_or] at h
    exact (hkept r h).2
  | none =>
    rw [hold, Option.none_or] at h
    by_cases hid : id = k
    · have hrecord : (p.record id created).id = k := hid
      rw [if_pos hrecord] at h
      obtain ⟨happ, -⟩ := hkept _ h
      simp [SplitDecision.applies, SplitPurpose.decision, SplitProposal.record] at happ
    · have hrecord : ¬ (p.record id created).id = k := hid
      rw [if_neg hrecord] at h
      cases h

/-- 取り消せなかった申し出は、期限まで縛る。 -/
theorem binds_insert {t : SplitTable} {p : SplitProposal} {id : String} {created : Time}
    (hfresh : t.find? id = none) (httl : 1 ≤ p.ttlSecs) :
    SplitTable.binds (insertEpicSplit t (p.record id created)) id created = true := by
  unfold SplitTable.binds
  have hrecord : (p.record id created).id = id := rfl
  rw [insertEpicSplit, Table.find?_insertOrIgnore, hfresh, Option.none_or, if_pos hrecord]
  have hpos : 0 < seconds p.ttlSecs := by
    unfold seconds
    omega
  have hlater : ¬ created + seconds p.ttlSecs ≤ created := Int.not_le.mpr (Int.lt_add_of_pos_right _ hpos)
  simp [SplitProposal.record, EpicSplit.isBinding, EpicSplit.isExpired, hlater]

/-- 受けたことを取り消せば、何も縛らない。 -/
theorem binds_undoAccept {t : SplitTable} {split : EpicSplit} {caller k : String}
    {written undone now : Time} (hsplit : t.find? split.id = some split)
    (hincoming : split.direction = .incoming)
    (happ : ((SplitPurpose.accept split caller).decision written).applies sql split = true)
    (h : SplitTable.binds (decideEpicSplitBy sql
      (decideEpicSplitBy sql t ((SplitPurpose.accept split caller).decision written)).2
      ((SplitPurpose.undoAccept split caller).decision undone)).2 k now = true) :
    t.binds k now = true := by
  unfold SplitTable.binds at h ⊢
  rw [find?_decide, find?_decide, Option.any_map, Option.any_map] at h
  by_cases hk : k = split.id
  · subst hk
    rw [hsplit, Option.any_some] at h
    simp only [happ, if_true] at h
    simp [SplitDecision.applies, SplitDecision.apply, SplitPurpose.decision, EpicSplit.isBinding,
      hincoming] at h
  · cases hold : t.find? k with
    | none =>
      rw [hold] at h
      cases h
    | some r =>
      have hr : r.id ≠ split.id := by
        rw [Table.key_of_find? hold]
        exact hk
      rw [hold, Option.any_some] at h
      simpa [SplitDecision.applies, SplitPurpose.decision, hr] using h

/-- 取り消せなかった承諾は縛る。 -/
theorem binds_accept {t : SplitTable} {split : EpicSplit} {caller : String} {written now : Time}
    (hsplit : t.find? split.id = some split)
    (happ : ((SplitPurpose.accept split caller).decision written).applies sql split = true) :
    SplitTable.binds (decideEpicSplitBy sql t ((SplitPurpose.accept split caller).decision written)).2
      split.id now = true := by
  unfold SplitTable.binds
  rw [find?_decide, hsplit, Option.map_some, if_pos happ]
  rfl

end Binding

/-! ## 呼び出し -/

namespace ShareCall

/-- 借り始めた呼び出しの、agent と取り分。 -/
def opened (sql : SplitSql) (o : SplitOutside) (db : SplitDb) : ShareCall → Option (String × List String)
  | propose p => if p.opens sql o db then some (p.caller, p.mine) else none
  | accept caller id => (db.splits.find? id).bind fun split =>
    if split.opens sql o caller db then some (caller, split.mine) else none

/-- 分割が書かれる。受けるときは、期限の前でなければならない。 -/
def Recorded (sql : SplitSql) (o : SplitOutside) (db : SplitDb) : ShareCall → Prop
  | propose _ => o.written = true
  | accept _ id => o.written = true ∧
    ∀ split, db.splits.find? id = some split → sql.lt o.writtenAt split.expiresAt = true

/-- 書いた分割を取り消せる。乱数の id が既にあれば、申し出は書かれていない。 -/
def Undoable (o : SplitOutside) (db : SplitDb) : ShareCall → Prop
  | propose _ => o.undone = true ∨ db.splits.find? o.newId ≠ none
  | accept _ _ => o.undone = true

end ShareCall

/-- 借りも、この側を縛る分割も、増えても減ってもいない。 -/
def Unchanged (s s' : SplitSide) : Prop :=
  s'.claims = s.claims ∧ ∀ id now, s'.db.splits.binds id now = true → s.db.splits.binds id now = true

theorem Unchanged.refl (s : SplitSide) : Unchanged s s := ⟨rfl, fun _ _ h => h⟩

namespace ShareCall

variable {sql : SplitSql} {isLocal : String → Bool} {o : SplitOutside} {s : SplitSide}

/-- 借り始めた呼び出しの条件は、その取り分についての条件である。 -/
theorem forall_opened {call : ShareCall} {caller : String} {share : List String}
    (h : call.opened sql o s.db = some (caller, share)) (P : String → List String → Prop) :
    (∀ caller' share', call.opened sql o s.db = some (caller', share') → P caller' share')
      ↔ P caller share := by
  constructor
  · intro hall
    exact hall caller share h
  · intro hP caller' share' h'
    obtain ⟨rfl, rfl⟩ := Prod.mk.inj (Option.some.inj (h.symm.trans h'))
    exact hP

/-- 取り分を返して終えた呼び出しが何も変えないのは、前から借りていた子が無く、縛る分割も増えていないときである。 -/
theorem unchanged_released_iff {caller : String} {share taken : List String} {c : PeerClaims}
    (h : TakenFrom s.claims caller share taken c) (db : SplitDb) :
    Unchanged s { db := db, claims := c.releaseShare share caller } ↔
      (∀ id ∈ share, s.claims.holder id ≠ some caller) ∧
        ∀ id now, db.splits.binds id now = true → s.db.splits.binds id now = true :=
  and_congr_left' h.releaseShare_eq_iff

theorem propose_unchanged_iff (p : SplitProposal) (hopen : p.opens sql o s.db = true) :
    ((proposeSplit sql isLocal o p s).1 = false → Unchanged s (proposeSplit sql isLocal o p s).2) ↔
    (GrantsAll s.claims p.caller isLocal o p.mine → ¬ (o.written = true ∧ o.sent = true) →
      (∀ id ∈ p.mine, s.claims.holder id ≠ some p.caller) ∧
        (o.written = true → o.undone = true ∨ s.db.splits.find? o.newId ≠ none)) := by
  obtain ⟨hgrants, hfail, hok⟩ := @claimShare_start p.caller isLocal o s.claims p.mine
  unfold proposeSplit
  rw [hopen, Bool.not_true, if_neg Bool.false_ne_true]
  rcases hclaim : claimShare p.caller isLocal o p.mine 0 s.claims [] with ⟨ok, claims⟩
  rw [hclaim] at hgrants hfail hok
  cases ok with
  | false =>
    have hnone : ¬ GrantsAll s.claims p.caller isLocal o p.mine := fun hg => by
      cases hgrants.mpr hg
    obtain rfl : claims = s.claims := hfail rfl
    exact iff_of_true (fun _ => Unchanged.refl s) fun hg => absurd hg hnone
  | true =>
    obtain ⟨taken, htaken⟩ := hok rfl
    have hall := hgrants.mp rfl
    cases hwritten : o.written with
    | false =>
      have hreleased := unchanged_released_iff htaken s.db
      simpa [hall] using hreleased
    | true =>
      cases hsent : o.sent with
      | true => simp
      | false =>
        have hreleased := unchanged_released_iff htaken { s.db with splits :=
          ((insertEpicSplit s.db.splits
            (({ p with peer := o.peer } : SplitProposal).record o.newId o.writtenAt)).decide? sql o.undone
            ((SplitPurpose.rollback o.newId { p with peer := o.peer }).decision o.undoneAt)).2 }
        have hbinds : (∀ id now, SplitTable.binds ((insertEpicSplit s.db.splits
            (({ p with peer := o.peer } : SplitProposal).record o.newId o.writtenAt)).decide? sql o.undone
            ((SplitPurpose.rollback o.newId { p with peer := o.peer }).decision o.undoneAt)).2 id now = true →
              s.db.splits.binds id now = true) ↔
            (o.undone = true ∨ s.db.splits.find? o.newId ≠ none) := by
          unfold SplitTable.decide?
          cases o.undone with
          | true => exact iff_of_true (fun id now h => binds_rollback h) (Or.inl rfl)
          | false =>
            simp only [Bool.false_eq_true, if_false, false_or]
            constructor
            · intro hkept hfresh
              have hvalid : 1 ≤ p.ttlSecs := by
                simp only [SplitProposal.opens, SplitProposal.valid, Bool.and_eq_true,
                  decide_eq_true_eq] at hopen
                exact hopen.1.1.1.2.1
              have hbound := hkept o.newId o.writtenAt (binds_insert hfresh hvalid)
              rw [SplitTable.binds, hfresh] at hbound
              cases hbound
            · intro hused id now h
              obtain ⟨old, hold⟩ := Option.ne_none_iff_exists'.mp hused
              rwa [insertEpicSplit, Table.insertOrIgnore_of_find? hold] at h
        rw [hbinds] at hreleased
        simpa [hall] using hreleased

/-- 書かれなかった決定は、どの行も変えない。 -/
theorem binds_decide_of_false {t : SplitTable} {d : SplitDecision} {r : EpicSplit}
    (hr : t.find? d.id = some r) (happ : d.applies sql r = false) (id : String) (now : Time) :
    SplitTable.binds (decideEpicSplitBy sql t d).2 id now = t.binds id now := by
  unfold SplitTable.binds
  rw [find?_decide]
  cases hold : t.find? id with
  | none => rfl
  | some r' =>
    rw [Option.map_some]
    by_cases hid : id = d.id
    · obtain rfl : r = r' := by
        rw [hid, hr] at hold
        exact Option.some.inj hold
      rw [happ, if_neg Bool.false_ne_true]
    · have hne : r'.id ≠ d.id := by
        rw [Table.key_of_find? hold]
        exact hid
      have hno : d.applies sql r' = false := by simp [SplitDecision.applies, hne]
      rw [hno, if_neg Bool.false_ne_true]

theorem accept_unchanged_iff (caller : String) (split : EpicSplit)
    (hsplit : s.db.splits.find? split.id = some split) (hopen : split.opens sql o caller s.db = true) :
    ((acceptSplit sql isLocal o caller split.id s).1 = false →
      Unchanged s (acceptSplit sql isLocal o caller split.id s).2) ↔
    (GrantsAll s.claims caller isLocal o split.mine →
      ¬ ((o.written = true ∧ sql.lt o.writtenAt split.expiresAt = true) ∧ o.sent = true) →
      (∀ id ∈ split.mine, s.claims.holder id ≠ some caller) ∧
        (o.written = true ∧ sql.lt o.writtenAt split.expiresAt = true → o.undone = true)) := by
  obtain ⟨hgrants, hfail, hok⟩ := @claimShare_start caller isLocal o s.claims split.mine
  have hpending : split.direction = .incoming ∧ split.state = .pending := by
    simp only [EpicSplit.opens, Bool.and_eq_true, decide_eq_true_eq] at hopen
    exact ⟨hopen.1.1.1.1.1, hopen.1.1.1.2⟩
  have happ : ((SplitPurpose.accept split caller).decision o.writtenAt).applies sql split
      = sql.lt o.writtenAt split.expiresAt := by
    simp [SplitDecision.applies, SplitPurpose.decision, hpending.2]
  have hdecided : (decideEpicSplitBy sql s.db.splits
      ((SplitPurpose.accept split caller).decision o.writtenAt)).1
        = sql.lt o.writtenAt split.expiresAt := by
    rw [← happ]
    exact decide_eq_applies hsplit
  unfold acceptSplit
  simp only [hsplit, hopen, Bool.not_true, Bool.false_eq_true, if_false]
  rcases hclaim : claimShare caller isLocal o split.mine 0 s.claims [] with ⟨ok, claims⟩
  rw [hclaim] at hgrants hfail hok
  cases ok with
  | false =>
    have hnone : ¬ GrantsAll s.claims caller isLocal o split.mine := fun hg => by
      cases hgrants.mpr hg
    obtain rfl : claims = s.claims := hfail rfl
    exact iff_of_true (fun _ => Unchanged.refl s) fun hg => absurd hg hnone
  | true =>
    obtain ⟨taken, htaken⟩ := hok rfl
    have hall := hgrants.mp rfl
    cases hwritten : o.written with
    | false =>
      have hreleased := unchanged_released_iff htaken s.db
      simpa [hall, SplitTable.decide?] using hreleased
    | true =>
      cases hlt : sql.lt o.writtenAt split.expiresAt with
      | false =>
        have hreleased := unchanged_released_iff htaken { s.db with splits :=
          (decideEpicSplitBy sql s.db.splits ((SplitPurpose.accept split caller).decision o.writtenAt)).2 }
        have hbinds : ∀ id now, SplitTable.binds (decideEpicSplitBy sql s.db.splits
            ((SplitPurpose.accept split caller).decision o.writtenAt)).2 id now = true →
            s.db.splits.binds id now = true := fun id now h => by
          rwa [binds_decide_of_false hsplit (happ.trans hlt)] at h
        rw [hlt] at hdecided
        have hclaims := hreleased.trans (and_iff_left hbinds)
        simpa [hall, SplitTable.decide?, hdecided] using hclaims
      | true =>
        rw [hlt] at hdecided happ
        cases hsent : o.sent with
        | true => simp [SplitTable.decide?, hdecided]
        | false =>
          have hreleased := unchanged_released_iff htaken { s.db with splits :=
            (SplitTable.decide? sql (decideEpicSplitBy sql s.db.splits
              ((SplitPurpose.accept split caller).decision o.writtenAt)).2 o.undone
              ((SplitPurpose.undoAccept split caller).decision o.undoneAt)).2 }
          have hbinds : (∀ id now, SplitTable.binds (SplitTable.decide? sql (decideEpicSplitBy sql
              s.db.splits ((SplitPurpose.accept split caller).decision o.writtenAt)).2 o.undone
              ((SplitPurpose.undoAccept split caller).decision o.undoneAt)).2 id now = true →
                s.db.splits.binds id now = true) ↔ o.undone = true := by
            unfold SplitTable.decide?
            cases o.undone with
            | true => exact iff_of_true (fun id now h => binds_undoAccept hsplit hpending.1 happ h) rfl
            | false =>
              refine iff_of_false (fun hkept => ?_) Bool.false_ne_true
              have hbound := hkept split.id 0 (binds_accept hsplit happ)
              rw [SplitTable.binds, hsplit, Option.any_some, EpicSplit.isBinding, hpending.2,
                hpending.1] at hbound
              simp at hbound
          rw [hbinds] at hreleased
          simpa [hall, SplitTable.decide?, hdecided] using hreleased

end ShareCall

/--
誤りを返した呼び出しが何も変えないのは、取り分を借り終えて失敗したときに、前から借りていた子が取り分に無く、書いた分割を
取り消せるときである。
-/
theorem failed_share_unchanged_iff (sql : SplitSql) (isLocal : String → Bool) (o : SplitOutside)
    (s : SplitSide) (call : ShareCall) :
    ((call.run sql isLocal o s).1 = false → Unchanged s (call.run sql isLocal o s).2) ↔
    ∀ caller share, call.opened sql o s.db = some (caller, share) →
      GrantsAll s.claims caller isLocal o share → ¬ (call.Recorded sql o s.db ∧ o.sent = true) →
      (∀ id ∈ share, s.claims.holder id ≠ some caller) ∧
        (call.Recorded sql o s.db → call.Undoable o s.db) := by
  cases hopened : call.opened sql o s.db with
  | none =>
    refine iff_of_true (fun _ => ?_) nofun
    have hback : (call.run sql isLocal o s).2 = s := by
      cases call with
      | propose p =>
        have hopen : p.opens sql o s.db = false := by simpa [ShareCall.opened] using hopened
        simp [ShareCall.run, proposeSplit, hopen]
      | accept caller id =>
        cases hsplit : s.db.splits.find? id with
        | none => simp [ShareCall.run, acceptSplit, hsplit]
        | some split =>
          have hopen : split.opens sql o caller s.db = false := by simpa [ShareCall.opened, hsplit] using hopened
          simp [ShareCall.run, acceptSplit, hsplit, hopen]
    rw [hback]
    exact Unchanged.refl s
  | some started =>
    obtain ⟨caller, share⟩ := started
    rw [← hopened, ShareCall.forall_opened hopened]
    cases call with
    | propose p =>
      simp only [ShareCall.opened, Option.ite_none_right_eq_some, Option.some.injEq, Prod.mk.injEq] at hopened
      obtain ⟨hopen, rfl, rfl⟩ := hopened
      exact ShareCall.propose_unchanged_iff p hopen
    | accept caller' id =>
      cases hsplit : s.db.splits.find? id with
      | none => simp [ShareCall.opened, hsplit] at hopened
      | some split =>
        simp only [ShareCall.opened, hsplit, Option.bind_some, Option.ite_none_right_eq_some, Option.some.injEq,
          Prod.mk.injEq] at hopened
        obtain ⟨hopen, rfl, rfl⟩ := hopened
        obtain rfl := Table.key_of_find? hsplit
        have hiff := @ShareCall.accept_unchanged_iff sql isLocal o s caller' split hsplit hopen
        simpa [ShareCall.run, ShareCall.Recorded, ShareCall.Undoable, hsplit] using hiff

namespace ShareCall

/-- epic `e` とその子 `a`。`s` は `a` を既に借りている。 -/
def heldSide : SplitSide where
  db :=
    { tasks :=
        { tasks := ⟨[⟨"e", true, .open⟩, ⟨"a", false, .open⟩], by decide⟩
          parents := [⟨"a", "e", ""⟩] } }
  claims := ⟨fun id => if id = "a" then some "s" else none⟩

/-- `a` を取る申し出。 -/
def heldProposal : SplitProposal where
  caller := "s"
  epicId := "e"
  mine := ["a"]
  theirs := []
  ttlSecs := 60

end ShareCall

open ShareCall in
/-- 申し出が届かなかったとき、前から借りていた子も手放される。 -/
theorem unsent_proposal_drops_claim :
    (run SplitSql.millis (fun _ => false) { sent := false } heldSide (.propose heldProposal)).1 = false ∧
    heldSide.claims.holder "a" = some "s" ∧
    (run SplitSql.millis (fun _ => false) { sent := false } heldSide (.propose heldProposal)).2.claims.holder "a"
      = none := by
  refine ⟨rfl, rfl, rfl⟩

end Cassy
