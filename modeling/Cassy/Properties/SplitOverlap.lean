import Cassy.Cloud.SplitSteps

/-!
# 一つの子は一つの分割に

射影の見せる分割のうち、同じ時刻に縛る二つは、子を共有しない。これは次の二つを守る実行で成り立つ。

* 申し出か受諾を書くとき、分割の列を読み終えてまだ書いていないほかの呼び出しは、同じ子を取ろうとしていない
* task の書き換えは、ほかの分割か呼び出しが取る子を、隠れていた分割に戻さない

実装は二つとも守らない。重なりの検査と書き込みの間に cloud への呼び出しがあり、並んで走る二つの申し出はどちらも検査を
通る。また、検査は隠れた分割を見ないので、epic が開き直ると隠れていた分割が戻る。

証明の鍵は `SplitPc.sees` である。検査の途中の呼び出しは、取ろうとする子を持つ分割をすべて、これまでに読んだものの中に
残している。読み終えて通ったなら、そのような分割は無い。
-/

namespace Cassy

open Infra

variable {n : Nat} {sql : SplitSql} {db db' : SplitDb} {s : SplitWorld n} {i j e e' c : String}
variable {r : EpicSplit}

/-! ## 条件 -/

/-- 期限を数えずに、この側を縛る。 -/
def EpicSplit.reserves (r : EpicSplit) : Bool :=
  r.state = .accepted || (r.state = .pending && r.direction = .outgoing)

/-- 射影の見せる形で、分割がその子を取っている。 -/
def SplitDb.holds (db : SplitDb) (r : EpicSplit) (c : String) : Bool :=
  r.reserves && c ∈ r.shares && (r.id, c) ∉ db.releases && db.tasks.shows r.epicId c

/-- 取ろうとする子である。自分の受ける分割は除く。 -/
def SplitTaker.takes (k : SplitTaker) (i c : String) : Bool := c ∈ k.ids && k.except ≠ some i

namespace SplitPc

/-- 子を取ろうとしている呼び出し。 -/
def taker : SplitPc → Option SplitTaker
  | listing k | unreleasing k _ _ | scanning k _ | opening k | asking k _ _ | acquiring k _ _ _ => some k
  | finding p | inserting p => some (.propose p)
  | deciding (.accept s caller) => some (.accept s caller)
  | _ => none

/-- 分割の列を読み終えて、まだ書いていない呼び出しが、その子を取ろうとしている。 -/
def wants (pc : SplitPc) (i c : String) : Bool :=
  match pc with
  | listing _ => false
  | pc => pc.taker.any (·.takes i c)

/-- これから書く分割の id と、それを書く呼び出し。 -/
def writes (inp : SplitInput) : SplitPc → Option (String × SplitTaker)
  | inserting p => some (inp.newId, .propose p)
  | deciding (.accept s caller) => some (s.id, .accept s caller)
  | _ => none

end SplitPc

/-- 書き込みと task の書き換えの守ること。 -/
def SplitAct.clear (s : SplitWorld n) : SplitAct n → Bool
  | .advance pid inp =>
    match (s.procs pid).writes inp with
    | some (i, k) => decide (∀ q, q ≠ pid → ∀ c ∈ k.ids, (s.procs q).wants i c = false)
    | none => true
  | .updateTasks tasks =>
    let db := { s.db with tasks := tasks }
    s.db.splits.rows.all fun r => r.shares.all fun c =>
      !db.holds r c || s.db.holds r c ||
        (decide (∀ q, (s.procs q).wants r.id c = false)
          && s.db.splits.rows.all fun r' => r'.id = r.id || !db.holds r' c)
  | _ => true

/-- 射影の見せる二つの分割が、同じ時刻に同じ子を縛ることは無い。 -/
def SplitDb.ReservesOnce (sql : SplitSql) (db : SplitDb) : Prop :=
  ∀ now, ∀ s ∈ currentEpicSplits sql db, ∀ s' ∈ currentEpicSplits sql db, s ≠ s' →
    s.isBinding now = true → s'.isBinding now = true → ∀ c ∈ s.shares, c ∉ s'.shares

/-! ## 射影 -/

namespace EpicSplit

variable {r : EpicSplit} {p q : String → Bool} {now : Time}

theorem mem_shares : c ∈ r.shares ↔ c ∈ r.mine ∨ c ∈ r.theirs := List.mem_append

@[simp] theorem mem_keep_shares : c ∈ (r.keep p).shares ↔ c ∈ r.shares ∧ p c = true := by
  simp only [mem_shares, keep, List.mem_filter]
  constructor
  · rintro (⟨h, hp⟩ | ⟨h, hp⟩)
    · exact ⟨.inl h, hp⟩
    · exact ⟨.inr h, hp⟩
  · rintro ⟨h | h, hp⟩
    · exact .inl ⟨h, hp⟩
    · exact .inr ⟨h, hp⟩

@[simp] theorem keep_epicId : (r.keep p).epicId = r.epicId := rfl

theorem hasShare_of_mem (h : c ∈ r.shares) : r.hasShare = true := by
  rcases mem_shares.mp h with h | h
  · simp [hasShare, List.ne_nil_of_mem h]
  · simp [hasShare, List.ne_nil_of_mem h]

theorem reserves_of_isBinding (h : r.isBinding now = true) : r.reserves = true := by
  unfold isBinding at h
  unfold reserves
  cases hs : r.state with
  | accepted => rfl
  | pending =>
    rw [hs] at h
    simp only [Bool.and_eq_true] at h
    rw [h.1]
    rfl
  | rejected | cancelled | expired =>
    rw [hs] at h
    cases h

theorem blocks_of_reserves (h : r.reserves = true) : r.blocks now = true := by
  unfold reserves at h
  unfold blocks
  simp only [Bool.or_eq_true, Bool.and_eq_true] at h ⊢
  rcases h with h | ⟨hp, ho⟩
  · exact .inl (.inr h)
  · exact .inr ⟨hp, .inl ho⟩

end EpicSplit

theorem mem_listEpicSplits {t : SplitTable} : r ∈ listEpicSplits sql t ↔ r ∈ t.rows :=
  List.mem_insertionSort _

/-- 手放した子を除いた列。 -/
theorem mem_withoutReleasedChildren {releases : List (String × String)} {splits : List EpicSplit} :
    r ∈ withoutReleasedChildren releases splits ↔
      ∃ r₀ ∈ splits, r = r₀.keep (fun c => decide ((r₀.id, c) ∉ releases)) ∧ r.hasShare = true := by
  unfold withoutReleasedChildren
  rw [List.mem_filter, List.mem_map]
  constructor
  · rintro ⟨⟨r₀, hr, rfl⟩, hs⟩
    exact ⟨r₀, hr, rfl, hs⟩
  · rintro ⟨r₀, hr, rfl, hs⟩
    exact ⟨⟨r₀, hr, rfl⟩, hs⟩

/-- 射影は、表の行の取り分を減らしたものである。 -/
theorem exists_row_of_mem_currentEpicSplits (h : r ∈ currentEpicSplits sql db) :
    ∃ r₀ ∈ db.splits.rows,
      r = (r₀.keep fun c => decide ((r₀.id, c) ∉ db.releases)).keep (db.tasks.stillChild r₀.epicId)
        ∧ db.tasks.isTerminal r₀.epicId = false := by
  unfold currentEpicSplits projectedEpicSplits at h
  obtain ⟨r₁, hr₁, hp⟩ := List.mem_filterMap.mp h
  obtain ⟨r₀, hr₀, rfl, -⟩ := mem_withoutReleasedChildren.mp hr₁
  refine ⟨r₀, mem_listEpicSplits.mp hr₀, ?_⟩
  unfold SplitTasks.project at hp
  rw [Bool.false_and, if_neg Bool.false_ne_true, EpicSplit.keep_epicId] at hp
  split at hp
  · cases hp
  · next hterm =>
    obtain ⟨rfl, -⟩ := Option.guard_eq_some_iff.mp hp
    exact ⟨rfl, by simpa using hterm⟩

/-- 分割がその子を取っている。 -/
def SplitDb.Holds (db : SplitDb) (i e c : String) : Prop :=
  ∃ r ∈ db.splits.rows, r.id = i ∧ r.epicId = e ∧ db.holds r c = true

theorem holds_iff :
    db.holds r c = true ↔
      r.reserves = true ∧ c ∈ r.shares ∧ (r.id, c) ∉ db.releases ∧ db.tasks.shows r.epicId c = true := by
  simp [SplitDb.holds, and_assoc]

theorem SplitDb.Holds.shows (h : db.Holds i e c) : db.tasks.shows e c = true := by
  obtain ⟨r, -, -, rfl, hr⟩ := h
  exact (holds_iff.mp hr).2.2.2

/-- 射影の見せる分割がその子を縛るなら、表の行がその子を取っている。 -/
theorem holds_of_binding {now : Time} (h : r ∈ currentEpicSplits sql db)
    (hb : r.isBinding now = true) (hc : c ∈ r.shares) : db.Holds r.id r.epicId c := by
  obtain ⟨r₀, hr₀, rfl, hterm⟩ := exists_row_of_mem_currentEpicSplits h
  have hres := EpicSplit.reserves_of_isBinding hb
  simp only [EpicSplit.mem_keep_shares, decide_eq_true_eq] at hc
  refine ⟨r₀, hr₀, rfl, rfl, holds_iff.mpr ⟨hres, hc.1.1, hc.1.2, ?_⟩⟩
  unfold SplitTasks.shows
  rw [hterm, hc.2]
  rfl

/-- 射影の見せる分割は、id で決まる。 -/
theorem eq_of_mem_currentEpicSplits {r' : EpicSplit} (h : r ∈ currentEpicSplits sql db)
    (h' : r' ∈ currentEpicSplits sql db) (hid : r.id = r'.id) : r = r' := by
  obtain ⟨r₀, hr₀, rfl, -⟩ := exists_row_of_mem_currentEpicSplits h
  obtain ⟨r₀', hr₀', rfl, -⟩ := exists_row_of_mem_currentEpicSplits h'
  rw [Table.eq_of_key hr₀ hr₀' hid]

/-- 一つの子を取る分割が一つしかなければ、射影も一つしか見せない。 -/
theorem reservesOnce_of_holds
    (h : ∀ {i j e e' c}, db.Holds i e c → db.Holds j e' c → i = j) : db.ReservesOnce sql := by
  intro now r hr r' hr' hne hb hb' c hc hc'
  exact hne (eq_of_mem_currentEpicSplits hr hr'
    (h (holds_of_binding hr hb hc) (holds_of_binding hr' hb' hc')))

/-! ## 検査の途中で覚えていること -/

/-- 覚えている分割の写しが、その子を取っている。 -/
def EpicSplit.Covers (r : EpicSplit) (i e c : String) : Prop :=
  r.id = i ∧ r.epicId = e ∧ r.reserves = true ∧ c ∈ r.shares

/-- 射影の途中で、その分割のその子をまだ落としていない。 -/
def SplitScan.Sees (scan : SplitScan) (i e c : String) : Prop :=
  (∃ r ∈ scan.todo, r.Covers i e c ∧ scan.epics.lookup e ≠ some true
      ∧ ∀ o, scan.parents.lookup c = some o → o.all (· = e) = true)
    ∨ ∃ r ∈ scan.current, r.Covers i e c

/-- これまでに読んだものの中に、その分割のその子がある。 -/
def SplitPc.Sees (pc : SplitPc) (i e c : String) : Prop :=
  match pc with
  | unreleasing _ _ splits => ∃ r ∈ splits, r.Covers i e c
  | scanning _ scan => scan.Sees i e c
  | _ => False

theorem EpicSplit.Covers.keep {p : String → Bool} (h : r.Covers i e c) (hp : p c = true) :
    (r.keep p).Covers i e c :=
  ⟨h.1, h.2.1, h.2.2.1, mem_keep_shares.mpr ⟨h.2.2.2, hp⟩⟩

theorem SplitScan.next_sees {scan : SplitScan} (h : scan.Sees i e c)
    (hshow : db.tasks.shows e c = true) : (scan.next db.tasks true).Sees i e c := by
  simp only [SplitTasks.shows, Bool.and_eq_true, Bool.not_eq_true'] at hshow
  obtain ⟨hopen, hchild⟩ := hshow
  unfold next
  match htodo : scan.todo with
  | [] => exact h
  | r₀ :: rest =>
    dsimp only
    -- 先頭の分割が落ちずに `current` に移るか、先頭でない分割が残る
    have hmove : ∀ current, (∀ r ∈ scan.current, r ∈ current) →
        (∀ r, r = r₀ → r.Covers i e c → scan.epics.lookup e ≠ some true →
          (∀ o, scan.parents.lookup c = some o → o.all (· = e) = true) →
          ∃ r' ∈ current, r'.Covers i e c) →
        ({ scan with todo := rest, current := current } : SplitScan).Sees i e c := by
      intro current hsub hhead
      rcases h with ⟨r, hr, hcov, hep, hpar⟩ | ⟨r, hr, hcov⟩
      · rw [htodo] at hr
        rcases List.mem_cons.mp hr with rfl | hr
        · exact .inr (hhead _ rfl hcov hep hpar)
        · exact .inl ⟨r, hr, hcov, hep, hpar⟩
      · exact .inr ⟨r, hsub r hr, hcov⟩
    split
    · refine hmove _ (fun r hr => List.mem_append_left _ hr) fun r hr hcov _ _ => ?_
      exact ⟨r, by simp [hr], hcov⟩
    · split
      · -- epic を読む
        rcases h with ⟨r, hr, hcov, hep, hpar⟩ | h
        · refine .inl ⟨r, htodo ▸ hr, hcov, ?_, hpar⟩
          rw [List.lookup_cons]
          split
          · next heq =>
            rw [← eq_of_beq heq, hopen]
            simp
          · exact hep
        · exact .inr h
      · next hterm =>
        refine hmove _ (fun r hr => hr) fun r hr hcov hep _ => ?_
        exact absurd (by rw [← hcov.2.1, hr, hterm]) hep
      · split
        · -- 子の親を読む
          rcases h with ⟨r, hr, hcov, hep, hpar⟩ | h
          · refine .inl ⟨r, htodo ▸ hr, hcov, hep, fun o ho => ?_⟩
            rw [List.lookup_cons] at ho
            split at ho
            · next heq =>
              cases ho
              rw [← eq_of_beq heq]
              unfold SplitTasks.stillChild at hchild
              rw [Option.all_map]
              exact hchild
            · exact hpar o ho
          · exact .inr h
        · next hcached =>
          -- どの子の親も覚えているので、この子は残る
          refine hmove _ ?_ ?_
          · intro r hr
            split
            · exact List.mem_append_left _ hr
            · exact hr
          · intro r hr hcov hep hpar
            subst hr
            have hsome := List.find?_eq_none.mp hcached c hcov.2.2.2
            have hkept : ((scan.parents.lookup c).join).all (· = r.epicId) = true := by
              cases ho : scan.parents.lookup c with
              | none =>
                rw [ho] at hsome
                exact absurd rfl hsome
              | some o =>
                rw [hcov.2.1]
                exact hpar o ho
            have hcov' := hcov.keep (p := fun id => ((scan.parents.lookup id).join).all (· = r.epicId)) hkept
            rw [if_pos (EpicSplit.hasShare_of_mem hcov'.2.2.2)]
            exact ⟨_, by simp, hcov'⟩

/-- 重なりが見つからなければ、取ろうとする子を持つ分割は、射影の中に無い。 -/
theorem not_covers_of_overlapOf {k : SplitTaker} {now : Time} {current : List EpicSplit}
    (h : (overlapOf now k.ids k.except current).isSome = false) (hk : k.takes i c = true) :
    ¬ ∃ r ∈ current, r.Covers i e c := by
  rintro ⟨r, hr, rfl, -, hres, hc⟩
  simp only [SplitTaker.takes, Bool.and_eq_true, decide_eq_true_eq] at hk
  have hmem : r ∈ (current.filter fun s => decide (some s.id ≠ k.except)).filter (·.blocks now) := by
    rw [List.mem_filter, List.mem_filter]
    exact ⟨⟨hr, decide_eq_true fun he => hk.2 he.symm⟩, EpicSplit.blocks_of_reserves hres⟩
  have hoverlap : overlapOf now k.ids k.except current = none :=
    Option.not_isSome_iff_eq_none.mp (by rw [h]; exact Bool.false_ne_true)
  unfold overlapOf at hoverlap
  have hnone := List.findSome?_eq_none_iff.mp hoverlap r hmem
  rw [Option.map_eq_none_iff] at hnone
  have := List.find?_eq_none.mp hnone c hk.1
  simp only [decide_eq_true_eq] at this
  exact this (EpicSplit.mem_shares.mp hc)

namespace SplitPc

variable {pc : SplitPc} {inp : SplitInput} {k : SplitTaker} {now : Time}

/-! ## 位置の移り -/

@[simp] theorem taker_nextWork (sweep : Option SplitSweep) : (nextWork sweep).taker = none := by
  match sweep with
  | none | some ⟨_, []⟩ => rfl
  | some ⟨_, r :: _⟩ =>
    simp only [nextWork]
    split <;> rfl

@[simp] theorem taker_afterCleanup (r : EpicSplit) (sweep : Option SplitSweep) :
    (afterCleanup r sweep).taker = none := by
  unfold afterCleanup
  split
  · rfl
  · exact taker_nextWork sweep

@[simp] theorem taker_afterDecided (changed : Bool) (w : SplitPurpose) :
    (afterDecided changed w).taker = none := by
  cases w <;> cases changed <;> rfl

@[simp] theorem taker_afterDecideFailed (w : SplitPurpose) : (afterDecideFailed w).taker = none := by
  cases w with
  | expire r sweep => exact taker_nextWork (some sweep)
  | _ => rfl

@[simp] theorem taker_afterTold (sent : Bool) (w : SplitTelling) : (afterTold sent w).taker = none := by
  cases w with
  | expiry r sweep =>
    cases sent with
    | true => rfl
    | false => exact taker_nextWork sweep
  | _ => cases sent <;> rfl

@[simp] theorem taker_afterOwner (caller : String) (reason : Option String) (now : Time) (r : EpicSplit) :
    (afterOwner caller reason now r).taker = none := by
  unfold afterOwner
  split <;> rfl

@[simp] theorem taker_afterCancelled (caller : String) (reason : Option String) (now : Time)
    (r : EpicSplit) : (afterCancelled caller reason now r).taker = none := by
  unfold afterCancelled
  split
  · exact taker_afterOwner caller reason now r
  · split <;> rfl

@[simp] theorem taker_afterIngested (recipient : String) (m : ClaimedPeerMessage) (r : Option EpicSplit) :
    (afterIngested recipient m r).taker = none := by
  unfold afterIngested
  split
  · split
    · rfl
    · split <;> rfl
  · rfl
  · split <;> rfl

theorem wants_of_taker (h : pc.taker = none) : pc.wants i c = false := by
  unfold wants
  split
  · rfl
  · rw [h]
    rfl

/-- `answer` の先は、検査を始めるか、断るかである。 -/
theorem wants_afterAnswered (caller : String) (accept : Bool) (reason : Option String) (now : Time)
    (r : EpicSplit) : (afterAnswered caller accept reason now r).wants i c = false := by
  unfold afterAnswered
  split
  · rfl
  · split <;> rfl

theorem wants_afterClaims (k : SplitTaker) : (afterClaims k).wants i c = k.takes i c := by
  cases k <;> rfl

/-- 検査を通ったなら、取ろうとする子を持つ分割は射影の中に無い。 -/
theorem not_covers_of_afterScan {current : List EpicSplit}
    (h : (afterScan k now current).wants i c = true) : ¬ ∃ r ∈ current, r.Covers i e c := by
  unfold afterScan at h
  split at h
  · cases h
  · next hover =>
    refine @not_covers_of_overlapOf _ _ _ k now _ (by simpa using hover) ?_
    cases k <;> exact h

theorem taker_next_deciding (w : SplitPurpose) : ((deciding w).next sql inp db).taker = none := by
  simp only [next]
  split
  · exact taker_afterDecided _ w
  · exact taker_afterDecideFailed w

theorem taker_next_inserting (p : SplitProposal) : ((inserting p).next sql inp db).taker = none := by
  simp only [next]
  split <;> rfl

/-- 子を取ろうとしていない呼び出しは、一歩の後も、まだ検査を始めていない。 -/
theorem wants_next_of_taker (h : pc.taker = none) : (pc.next sql inp db).wants i c = false := by
  cases pc
  case listing | unreleasing | scanning | finding | opening | asking | acquiring | inserting =>
    cases h
  case idle | recording => rfl
  case answering caller id accept reason =>
    simp only [next]
    split
    · exact wants_afterAnswered caller accept reason inp.now _
    · rfl
  case checkingTask p todo =>
    cases todo with
    | nil => rfl
    | cons id todo =>
      simp only [next]
      split <;> rfl
  case checkingEpic p | checkingParent p task todo =>
    simp only [next]
    split <;> rfl
  case deciding w => exact wants_of_taker (taker_next_deciding w)
  case releasing todo tell =>
    cases todo with
    | nil => cases tell <;> rfl
    | cons id todo => rfl
  case telling w => exact wants_of_taker (taker_afterTold inp.ok w)
  all_goals
    refine wants_of_taker ?_
    simp only [next]
  case cancelling caller id reason =>
    split
    · exact taker_afterCancelled caller reason inp.now _
    · rfl
  case superseding caller r reason =>
    split
    · exact taker_afterOwner caller reason inp.now r
    · rfl
  case ingesting recipient m =>
    split
    · exact taker_afterIngested recipient m _
    · rfl
  case rereading id sweep =>
    split
    · rfl
    · exact taker_nextWork sweep
  case cleaning r todo sweep =>
    split
    · exact taker_afterCleanup r sweep
    · split <;> rfl
  case finishing r cleanup sweep =>
    split
    · exact taker_afterCleanup r sweep
    · exact taker_nextWork sweep
  case noticing r sweep =>
    split
    · rfl
    · exact taker_nextWork sweep
  case sweeping owners now =>
    split
    · exact taker_nextWork _
    · rfl

/-- 一歩の後も、取ろうとする子を持つ分割は、読んだものの中にある。 -/
theorem next_sees (hsee : pc.wants i c = true → db.Holds i e c → pc.Sees i e c)
    (hw : (pc.next sql inp db).wants i c = true) (hh : db.Holds i e c) :
    (pc.next sql inp db).Sees i e c := by
  cases pc with
  | listing k =>
    simp only [next] at hw ⊢
    obtain ⟨r, hr, hid, he, hhold⟩ := hh
    obtain ⟨hres, hc, -, -⟩ := holds_iff.mp hhold
    have hmem : r ∈ listEpicSplits sql db.splits := mem_listEpicSplits.mpr hr
    split at hw
    · next hok =>
      rw [if_pos hok]
      unfold afterList at hw ⊢
      rw [if_neg (by simpa using List.ne_nil_of_mem hmem)]
      exact ⟨r, hmem, hid, he, hres, hc⟩
    · cases hw
  | unreleasing k now splits =>
    simp only [next] at hw ⊢
    split at hw
    · next hok =>
      rw [if_pos hok]
      have htakes : k.takes i c = true := by
        unfold afterReleases at hw
        split at hw
        · unfold afterScan at hw
          split at hw
          · cases hw
          · cases k <;> exact hw
        · exact hw
      obtain ⟨r, hr, hcov⟩ := hsee htakes hh
      obtain ⟨r₀, hr₀, rfl, -, hhold⟩ := hh
      have hfree : decide ((r.id, c) ∉ db.releases) = true := by
        rw [hcov.1]
        exact decide_eq_true (holds_iff.mp hhold).2.2.1
      have hcov' := hcov.keep (p := fun c => decide ((r.id, c) ∉ db.releases)) hfree
      have hmem := mem_withoutReleasedChildren.mpr
        ⟨r, hr, rfl, EpicSplit.hasShare_of_mem hcov'.2.2.2⟩
      unfold afterReleases
      rw [if_neg (by simpa using List.ne_nil_of_mem hmem)]
      exact .inl ⟨_, hmem, hcov', by simp, fun o ho => by cases ho⟩
    · cases hw
  | scanning k scan =>
    simp only [next] at hw ⊢
    split at hw
    · cases hw
    · next hok =>
      rw [if_neg hok]
      split at hw
      · next hdone =>
        exfalso
        have htakes : k.takes i c = true := by
          unfold afterScan at hw
          split at hw
          · cases hw
          · cases k <;> exact hw
        rcases hsee htakes hh with ⟨r, hr, -⟩ | hcur
        · rw [List.isEmpty_iff.mp hdone] at hr
          cases hr
        · exact not_covers_of_afterScan hw hcur
      · next hmore =>
        rw [if_neg hmore]
        exact SplitScan.next_sees (hsee hw hh) hh.shows
  | finding p =>
    simp only [next] at hw
    split at hw
    · exact (hsee hw hh).elim
    · cases hw
  | opening k =>
    simp only [next] at hw
    split at hw
    · exact (hsee hw hh).elim
    · cases hw
  | asking k todo taken =>
    cases todo with
    | nil => exact (hsee (hw.symm.trans (wants_afterClaims k)).symm hh).elim
    | cons id todo =>
      simp only [next] at hw
      split at hw
      · exact (hsee hw hh).elim
      · exact (hsee hw hh).elim
      · cases hw
  | acquiring k id todo taken =>
    simp only [next] at hw
    split at hw
    · exact (hsee hw hh).elim
    · exact (hsee hw hh).elim
    · exact (hsee hw hh).elim
    · cases hw
    · cases hw
  | deciding w =>
    rw [wants_of_taker (taker_next_deciding w)] at hw
    cases hw
  | inserting p =>
    rw [wants_of_taker (taker_next_inserting p)] at hw
    cases hw
  | _ =>
    rw [wants_next_of_taker rfl] at hw
    cases hw

/-! ## 書き込み -/

/-- 受諾の前に読んだ写しは、表の行と同じ取り分を持つ。受諾の答を書くのは、申し出た側だけである。 -/
structure Copies (db : SplitDb) (pc : SplitPc) : Prop where
  accept : ∀ r₀ caller, pc.taker = some (.accept r₀ caller) →
    ∃ r, db.splits.find? r₀.id = some r ∧ r.shares = r₀.shares
  ingest : ∀ r₀ line sender, pc = deciding (.ingest r₀ line sender) → line.kind = .accept →
    ∃ r, db.splits.find? line.id = some r ∧ r.direction = .outgoing

end SplitPc

/-- 分割の行は消えず、当事者と取り分は替わらない。 -/
def SplitDb.Keeps (db db' : SplitDb) : Prop :=
  ∀ i r, db.splits.find? i = some r →
    ∃ r', db'.splits.find? i = some r' ∧ r'.shares = r.shares ∧ r'.direction = r.direction

theorem SplitDb.Keeps.refl (db : SplitDb) : db.Keeps db := fun _ r h => ⟨r, h, rfl, rfl⟩

/-- 当事者と取り分を替えない書き換え。 -/
theorem keeps_update {p : EpicSplit → Bool} {f : EpicSplit → EpicSplit} (hf : ∀ r, (f r).id = r.id)
    (hshares : ∀ r, (f r).shares = r.shares) (hdir : ∀ r, (f r).direction = r.direction) :
    db.Keeps { db with splits := db.splits.update p f hf } := by
  intro i r hr
  refine ⟨if p r then f r else r, ?_, ?_, ?_⟩
  · show (db.splits.update p f hf).find? i = _
    rw [Table.find?_update, hr]
    rfl
  · split
    · exact hshares r
    · rfl
  · split
    · exact hdir r
    · rfl

theorem keeps_insert (r₀ : EpicSplit) :
    db.Keeps { db with splits := insertEpicSplit db.splits r₀ } := by
  intro i r hr
  refine ⟨r, ?_, rfl, rfl⟩
  show (db.splits.insertOrIgnore r₀).find? i = _
  rw [Table.find?_insertOrIgnore, hr, Option.some_or]

theorem SplitPc.keeps_write (pc : SplitPc) (inp : SplitInput) : db.Keeps (pc.write sql inp db) := by
  cases pc with
  | inserting p =>
    simp only [write]
    split
    · exact keeps_insert _
    · exact .refl db
  | recording recipient m expiresAt =>
    simp only [write]
    split
    · exact keeps_insert _
    · exact .refl db
  | deciding w =>
    simp only [write]
    split
    · exact keeps_update (f := (w.decision inp.now).apply) (fun _ => rfl) (fun _ => rfl) fun _ => rfl
    · exact .refl db
  | finishing r cleanup sweep =>
    simp only [write]
    split
    · exact keeps_update (f := EpicSplit.settle cleanup) (fun _ => rfl) (fun _ => rfl) fun _ => rfl
    · exact .refl db
  | _ => exact .refl db

theorem SplitPc.Copies.keep {pc : SplitPc} (h : pc.Copies db) (hk : db.Keeps db') : pc.Copies db' where
  accept := fun r₀ caller ht => by
    obtain ⟨r, hr, hshares⟩ := h.accept r₀ caller ht
    obtain ⟨r', hr', hshares', -⟩ := hk _ r hr
    exact ⟨r', hr', hshares'.trans hshares⟩
  ingest := fun r₀ line sender hpc hkind => by
    obtain ⟨r, hr, hdir⟩ := h.ingest r₀ line sender hpc hkind
    obtain ⟨r', hr', -, hdir'⟩ := hk _ r hr
    exact ⟨r', hr', hdir'.trans hdir⟩

/-- 挿した後の行は、前からの行か、挿した行である。 -/
theorem mem_insertEpicSplit {t : SplitTable} {r₀ : EpicSplit} (h : r ∈ (insertEpicSplit t r₀).rows) :
    r ∈ t.rows ∨ r = r₀ := by
  have hf := Table.find?_of_mem h
  unfold insertEpicSplit at hf
  rw [Table.find?_insertOrIgnore] at hf
  rcases Option.or_eq_some_iff.mp hf with hold | ⟨-, hnew⟩
  · exact .inl (Table.mem_of_find? hold)
  · split at hnew
    · exact .inr (Option.some.inj hnew).symm
    · cases hnew

/-- 決定の後の行。 -/
theorem mem_decideEpicSplitBy {t : SplitTable} {d : SplitDecision}
    (h : r ∈ (decideEpicSplitBy sql t d).2.rows) :
    ∃ r' ∈ t.rows, (if d.applies sql r' = true then d.apply r' else r') = r :=
  (@Table.mem_update _ _ _ t (d.applies sql) d.apply (fun _ => rfl) r).mp h

/-- 決定の後に引いた行。 -/
theorem find?_decide (t : SplitTable) (d : SplitDecision) (k : String) :
    (decideEpicSplitBy sql t d).2.find? k
      = (t.find? k).map fun r => if d.applies sql r then d.apply r else r := by
  unfold decideEpicSplitBy
  exact @Table.find?_update _ _ EpicSplit.id _ t (d.applies sql) d.apply (fun _ => rfl) k

/-- 仕事を片付けた後の行。 -/
theorem mem_finishEpicSplitWork {t : SplitTable} {r₀ : EpicSplit} {cleanup : Bool}
    (h : r ∈ (finishEpicSplitWork t r₀ cleanup).rows) :
    ∃ r' ∈ t.rows, r = r' ∨ r = r'.settle cleanup := by
  obtain ⟨r', hr', he⟩ := (@Table.mem_update _ _ _ t _ (EpicSplit.settle cleanup) (fun _ => rfl) r).mp h
  refine ⟨r', hr', ?_⟩
  split at he
  · exact .inr he.symm
  · exact .inl he.symm

/-- 決定が分割に子を取らせるのは、相手の申し出を受けるときだけである。 -/
theorem reserves_of_apply {d : SplitDecision} (hfrom : r.state = .pending ∨ r.state = .accepted)
    (h : (d.apply r).reserves = true) :
    r.reserves = true ∨ (d.toState = .accepted ∧ r.direction = .incoming) := by
  cases hdir : r.direction with
  | outgoing =>
    left
    rcases hfrom with hs | hs <;> simp [EpicSplit.reserves, hs, hdir]
  | incoming =>
    rcases hfrom with hs | hs
    · right
      simp only [EpicSplit.reserves, SplitDecision.apply, hdir] at h
      exact ⟨by simpa using h, rfl⟩
    · left
      simp [EpicSplit.reserves, hs]

/-- どの決定も、開いた分割だけを書き換える。 -/
theorem open_of_decision {w : SplitPurpose} {now : Time} (h : (w.decision now).applies sql r = true) :
    r.state = .pending ∨ r.state = .accepted := by
  simp only [SplitDecision.applies, Bool.and_eq_true, decide_eq_true_eq] at h
  have hmem := h.1.1.2
  cases w with
  | ingest r₀ line sender =>
    simp only [SplitPurpose.decision] at hmem
    cases hk : line.kind with
    | proposal =>
      rw [hk] at hmem
      cases hmem
    | accept | reject | cancel | expired =>
      rw [hk] at hmem
      simp only [SplitKind.moves, List.mem_cons, List.not_mem_nil, or_false] at hmem
      simp [hmem]
  | _ =>
    simp only [SplitPurpose.decision, List.mem_cons, List.not_mem_nil, or_false] at hmem
    simp [hmem]

/-- 一歩の書き込みが新しく分割に取らせる子は、`SplitPc.writes` の子だけである。 -/
theorem SplitPc.holds_of_write {pc : SplitPc} {inp : SplitInput} (hcopy : pc.Copies db)
    (h : (pc.write sql inp db).Holds i e c) :
    db.Holds i e c ∨ ∃ k, pc.writes inp = some (i, k) ∧ c ∈ k.ids := by
  cases pc with
  | inserting p =>
    simp only [write] at h
    split at h
    · obtain ⟨r, hr, hid, he, hhold⟩ := h
      rcases mem_insertEpicSplit hr with hr | rfl
      · exact .inl ⟨r, hr, hid, he, hhold⟩
      · exact .inr ⟨.propose p, congrArg (fun x => some (x, _)) hid, (holds_iff.mp hhold).2.1⟩
    · exact .inl h
  | recording recipient m expiresAt =>
    simp only [write] at h
    split at h
    · obtain ⟨r, hr, hid, he, hhold⟩ := h
      rcases mem_insertEpicSplit hr with hr | rfl
      · exact .inl ⟨r, hr, hid, he, hhold⟩
      · -- 相手の申し出は、受けるまで何も取らない
        exact absurd (holds_iff.mp hhold).1 (by simp [EpicSplit.reserves, ClaimedPeerMessage.record])
    · exact .inl h
  | finishing r₀ cleanup sweep =>
    left
    simp only [write] at h
    split at h
    · obtain ⟨r, hr, hid, he, hhold⟩ := h
      obtain ⟨r', hr', rfl | rfl⟩ := mem_finishEpicSplitWork hr
      · exact ⟨_, hr', hid, he, hhold⟩
      · exact ⟨r', hr', hid, he, hhold⟩
    · exact h
  | deciding w =>
    simp only [write] at h
    split at h
    · obtain ⟨r, hr, hid, he, hhold⟩ := h
      obtain ⟨r', hr', rfl⟩ := mem_decideEpicSplitBy hr
      split at hhold
      · next happ =>
        rw [if_pos happ] at hid he
        obtain ⟨hres, hc, hrel, hshow⟩ := holds_iff.mp hhold
        have hkey : r'.id = (w.decision inp.now).id := by
          simp only [SplitDecision.applies, Bool.and_eq_true, decide_eq_true_eq] at happ
          exact happ.1.1.1
        have hfind := Table.find?_of_mem hr'
        rcases reserves_of_apply (open_of_decision happ) hres with hold | ⟨hto, hdir⟩
        · exact .inl ⟨r', hr', hid, he, holds_iff.mpr ⟨hold, hc, hrel, hshow⟩⟩
        · right
          cases w with
          | accept r₀ caller =>
            obtain ⟨r'', hr'', hshares⟩ := hcopy.accept r₀ caller rfl
            have hsame : r'' = r' := by
              rw [hkey] at hfind
              exact Option.some.inj (hr''.symm.trans hfind)
            refine ⟨.accept r₀ caller, congrArg (fun x => some (x, _)) (hkey.symm.trans hid), ?_⟩
            show c ∈ r₀.shares
            rw [← hshares, hsame]
            exact hc
          | ingest r₀ line sender =>
            have hkind : line.kind = .accept := by
              simp only [SplitPurpose.decision] at hto
              cases hk : line.kind with
              | accept => rfl
              | proposal | reject | cancel | expired =>
                rw [hk] at hto
                cases hto
            obtain ⟨r'', hr'', hout⟩ := hcopy.ingest r₀ line sender rfl hkind
            rw [hkey] at hfind
            rw [Option.some.inj (hr''.symm.trans hfind)] at hout
            rw [hout] at hdir
            cases hdir
          | reject | undoAccept | rollback | cancel | expire => cases hto
      · next happ =>
        rw [if_neg happ] at hid he
        exact .inl ⟨r', hr', hid, he, hhold⟩
    · exact .inl h
  | _ => exact .inl h

/-! ## 写しの正しさ -/

namespace SplitPc

variable {pc : SplitPc} {inp : SplitInput} {k : SplitTaker} {now : Time}

theorem copies_of_taker (h : pc.taker = none)
    (hi : ∀ r line sender, pc ≠ deciding (.ingest r line sender)) : pc.Copies db where
  accept := fun r₀ caller ht => by
    rw [h] at ht
    cases ht
  ingest := fun r line sender hpc => absurd hpc (hi r line sender)

/-- 取ろうとする呼び出しが同じなら、写しも同じである。 -/
theorem Copies.of_taker {pc' : SplitPc} (h : pc.Copies db) (ht : pc.taker = some k)
    (ht' : pc'.taker = some k) : pc'.Copies db where
  accept := fun r₀ caller hk => h.accept r₀ caller (ht.trans (ht'.symm.trans hk))
  ingest := fun r₀ line sender hpc => by
    rw [hpc] at ht'
    cases ht'

theorem copies_of_propose {p : SplitProposal} (h : pc.taker = some (.propose p)) : pc.Copies db where
  accept := fun r₀ caller ht => by
    rw [h] at ht
    cases ht
  ingest := fun r line sender hpc => by
    rw [hpc] at h
    cases h

theorem copies_nextWork (sweep : Option SplitSweep) : (nextWork sweep).Copies db := by
  refine copies_of_taker (taker_nextWork sweep) fun r line sender h => ?_
  match sweep with
  | none | some ⟨_, []⟩ => cases h
  | some ⟨_, r :: _⟩ =>
    simp only [nextWork] at h
    split at h <;> cases h

theorem copies_afterCleanup (r : EpicSplit) (sweep : Option SplitSweep) :
    (afterCleanup r sweep).Copies db := by
  unfold afterCleanup
  split
  · exact copies_of_taker rfl fun _ _ _ h => by cases h
  · exact copies_nextWork sweep

theorem copies_afterScan {current : List EpicSplit} (h : pc.Copies db) (ht : pc.taker = some k) :
    (afterScan k now current).Copies db := by
  unfold afterScan
  split
  · exact copies_of_taker rfl fun _ _ _ h => by cases h
  · cases k with
    | propose p => exact h.of_taker ht rfl
    | accept r caller => exact h.of_taker ht rfl

theorem copies_afterList {splits : List EpicSplit} (h : pc.Copies db) (ht : pc.taker = some k) :
    (afterList k now splits).Copies db := by
  unfold afterList
  split
  · exact copies_afterScan h ht
  · exact h.of_taker ht rfl

theorem copies_afterReleases {splits : List EpicSplit} (h : pc.Copies db) (ht : pc.taker = some k) :
    (afterReleases k now splits).Copies db := by
  unfold afterReleases
  split
  · exact copies_afterScan h ht
  · exact h.of_taker ht rfl

theorem copies_afterOwner (caller : String) (reason : Option String) (r : EpicSplit) :
    (afterOwner caller reason now r).Copies db := by
  refine copies_of_taker (taker_afterOwner caller reason now r) fun _ _ _ h => ?_
  unfold afterOwner at h
  split at h <;> cases h

/-- 受けようとする分割は、いま読んだ行である。 -/
theorem copies_afterAnswered {caller : String} {accept : Bool} {reason : Option String}
    {r : EpicSplit} (hr : db.splits.find? r.id = some r) :
    (afterAnswered caller accept reason now r).Copies db := by
  unfold afterAnswered
  split
  · exact copies_of_taker rfl fun _ _ _ h => by cases h
  · split
    · refine ⟨fun r₀ caller' ht => ?_, fun _ _ _ h => by cases h⟩
      cases ht
      exact ⟨r, hr, rfl⟩
    · exact copies_of_taker rfl fun _ _ _ h => by cases h

theorem copies_afterCancelled (caller : String) (reason : Option String) (r : EpicSplit) :
    (afterCancelled caller reason now r).Copies db := by
  unfold afterCancelled
  split
  · exact copies_afterOwner caller reason r
  · split <;> exact copies_of_taker rfl fun _ _ _ h => by cases h

/-- 相手の承諾を書こうとする分割は、いま読んだ自分の申し出である。 -/
theorem copies_afterIngested (recipient : String) (m : ClaimedPeerMessage) :
    (afterIngested recipient m (db.splits.find? m.line.id)).Copies db := by
  refine ⟨fun r₀ caller ht => ?_, fun r₀ line sender hpc hkind => ?_⟩
  · rw [taker_afterIngested] at ht
    cases ht
  · unfold afterIngested at hpc
    split at hpc
    · split at hpc
      · cases hpc
      · split at hpc <;> cases hpc
    · cases hpc
    · next r hr _ =>
      split at hpc
      · next hadmit =>
        cases hpc
        refine ⟨r₀, hr, ?_⟩
        simp only [SplitMessage.admits, hkind, Bool.and_eq_true, decide_eq_true_eq] at hadmit
        exact hadmit.2.1
      · cases hpc

theorem copies_afterDecided (changed : Bool) (w : SplitPurpose) :
    (afterDecided changed w).Copies db := by
  refine copies_of_taker (taker_afterDecided changed w) fun _ _ _ h => ?_
  cases w <;> cases changed <;> cases h

theorem copies_afterDecideFailed (w : SplitPurpose) : (afterDecideFailed w).Copies db := by
  cases w with
  | expire r sweep => exact copies_nextWork (some sweep)
  | _ => exact copies_of_taker rfl fun _ _ _ h => by cases h

theorem copies_afterTold (sent : Bool) (w : SplitTelling) : (afterTold sent w).Copies db := by
  cases w with
  | expiry r sweep =>
    cases sent with
    | true => exact copies_of_taker rfl fun _ _ _ h => by cases h
    | false => exact copies_nextWork sweep
  | _ => cases sent <;> exact copies_of_taker rfl fun _ _ _ h => by cases h

/-- 一歩の後も、写しは表の行と同じ取り分を持つ。 -/
theorem Copies.next (h : pc.Copies db) : (pc.next sql inp db).Copies db := by
  have hidle : idle.Copies db := copies_of_taker rfl fun _ _ _ h => by cases h
  cases pc
  case idle | recording => exact hidle
  case checkingTask p todo =>
    cases todo with
    | nil => exact copies_of_propose (p := p) rfl
    | cons id todo =>
      simp only [SplitPc.next]
      split <;> exact copies_of_taker rfl fun _ _ _ h => by cases h
  case asking k todo taken =>
    cases todo with
    | nil => cases k <;> exact h.of_taker rfl rfl
    | cons id todo =>
      simp only [SplitPc.next]
      split
      · exact h.of_taker rfl rfl
      · exact h.of_taker rfl rfl
      · exact copies_of_taker rfl fun _ _ _ h => by cases h
  case releasing todo tell =>
    cases todo with
    | nil => cases tell <;> exact copies_of_taker rfl fun _ _ _ h => by cases h
    | cons id todo => exact copies_of_taker rfl fun _ _ _ h => by cases h
  case telling w => exact copies_afterTold _ w
  all_goals
    simp only [SplitPc.next]
  case checkingEpic p | checkingParent p task todo | superseding caller r reason =>
    split
    · first
      | exact copies_of_taker rfl fun _ _ _ h => by cases h
      | exact copies_afterOwner caller reason r
    · exact hidle
  case listing k =>
    split
    · exact copies_afterList h rfl
    · exact hidle
  case unreleasing k now splits =>
    split
    · exact copies_afterReleases h rfl
    · exact hidle
  case scanning k scan =>
    split
    · exact hidle
    · split
      · exact copies_afterScan h rfl
      · exact h.of_taker rfl rfl
  case finding p =>
    split
    · exact copies_of_propose rfl
    · exact hidle
  case opening k =>
    split
    · exact h.of_taker rfl rfl
    · exact hidle
  case acquiring k id todo taken =>
    split
    any_goals exact h.of_taker rfl rfl
    all_goals exact copies_of_taker rfl fun _ _ _ h => by cases h
  case inserting p => split <;> exact copies_of_taker rfl fun _ _ _ h => by cases h
  case answering caller id accept reason =>
    split
    · next r hr =>
      have hfind := (Option.filter_eq_some_iff.mp hr).1
      exact copies_afterAnswered (Table.key_of_find? hfind ▸ hfind)
    · exact hidle
  case cancelling caller id reason =>
    split
    · exact copies_afterCancelled caller reason _
    · exact hidle
  case ingesting recipient m =>
    split
    · exact copies_afterIngested recipient m
    · exact hidle
  case deciding w =>
    split
    · exact copies_afterDecided _ w
    · exact copies_afterDecideFailed w
  case rereading id sweep =>
    split
    · exact copies_of_taker rfl fun _ _ _ h => by cases h
    · exact copies_nextWork sweep
  case cleaning r todo sweep =>
    split
    · exact copies_afterCleanup r sweep
    · split <;> exact copies_of_taker rfl fun _ _ _ h => by cases h
  case finishing r cleanup sweep =>
    split
    · exact copies_afterCleanup r sweep
    · exact copies_nextWork sweep
  case noticing r sweep =>
    split
    · exact copies_of_taker rfl fun _ _ _ h => by cases h
    · exact copies_nextWork sweep
  case sweeping owners now =>
    split
    · exact copies_nextWork _
    · exact hidle

end SplitPc

/-- 呼び出しの始めでは、まだ何も読んでいない。 -/
theorem SplitCall.start_taker (call : SplitCall) : call.start.taker = none := by
  cases call with
  | propose p =>
    simp only [start]
    split <;> rfl
  | _ => rfl

theorem SplitCall.start_copies (call : SplitCall) : call.start.Copies db := by
  refine SplitPc.copies_of_taker call.start_taker fun _ _ _ h => ?_
  cases call with
  | propose p =>
    simp only [start] at h
    split at h <;> cases h
  | _ => cases h

/-! ## 実行の全体 -/

/-- 分割の操作の不変条件。 -/
structure SplitInv (s : SplitWorld n) : Prop where
  /-- 一つの子を取る分割は一つしかない。 -/
  one : ∀ {i j e e' c}, s.db.Holds i e c → s.db.Holds j e' c → i = j
  /-- 検査の途中の呼び出しは、取ろうとする子を持つ分割を見落としていない。 -/
  seen : ∀ {pid i e c}, (s.procs pid).wants i c = true → s.db.Holds i e c → (s.procs pid).Sees i e c
  copies : ∀ pid, (s.procs pid).Copies s.db

namespace SplitInv

/-- 書く直前の呼び出しは、自分の受ける分割のほかに、取ろうとする子を持つ分割を知らない。 -/
theorem eq_of_writes {pid : Fin n} {inp : SplitInput} {k : SplitTaker} (hi : SplitInv s)
    (hw : (s.procs pid).writes inp = some (i, k)) (hc : c ∈ k.ids) (hj : s.db.Holds j e c) : j = i := by
  by_contra hne
  have hwants : k.except ≠ some j → (s.procs pid).wants j c = true → False := fun _ hwant => by
    have hsee := hi.seen hwant hj
    generalize s.procs pid = pc at hw hsee
    cases pc with
    | inserting | deciding => exact hsee
    | _ => cases hw
  generalize hpc : s.procs pid = pc at hw
  rw [hpc] at hwants
  cases pc with
  | inserting p =>
    cases hw
    refine hwants (fun h => by cases h) ?_
    show (SplitTaker.propose p).takes j c = true
    simp [SplitTaker.takes, hc, SplitTaker.except]
  | deciding w =>
    cases w with
    | accept r caller =>
      cases hw
      have hne' : (SplitTaker.accept r caller).except ≠ some j := fun h => hne (Option.some.inj h).symm
      refine hwants hne' ?_
      show (SplitTaker.accept r caller).takes j c = true
      simp [SplitTaker.takes, hc, hne']
    | _ => cases hw
  | _ => cases hw

/-- 呼び出しの始め。 -/
theorem call {pid : Fin n} (hi : SplitInv s) (call : SplitCall) : SplitInv (s.call pid call) := by
  unfold SplitWorld.call
  split
  · refine ⟨hi.one, fun {q i e c} hw hh => ?_, fun q => ?_⟩
    · simp only [SplitWorld.goto, Function.update_apply] at hw ⊢
      split at hw
      · rw [SplitPc.wants_of_taker call.start_taker] at hw
        cases hw
      · next hne =>
        rw [if_neg hne]
        exact hi.seen hw hh
    · simp only [SplitWorld.goto, Function.update_apply]
      split
      · exact call.start_copies
      · exact hi.copies q
  · exact hi

/-- 呼び出しの一歩。 -/
theorem advance {pid : Fin n} {inp : SplitInput} (hi : SplitInv s)
    (hg : SplitAct.clear s (.advance pid inp) = true) : SplitInv (s.advance sql pid inp) := by
  have hnew : ∀ {i e c}, ((s.procs pid).write sql inp s.db).Holds i e c →
      s.db.Holds i e c ∨ ∃ k, (s.procs pid).writes inp = some (i, k) ∧ c ∈ k.ids :=
    fun h => SplitPc.holds_of_write (hi.copies pid) h
  have hquiet : ∀ {q i c k}, q ≠ pid → (s.procs pid).writes inp = some (i, k) → c ∈ k.ids →
      (s.procs q).wants i c = false := by
    intro q i c k hq hw hc
    unfold SplitAct.clear at hg
    simp only [hw, decide_eq_true_eq] at hg
    exact hg q hq c hc
  refine ⟨fun {i j e e' c} h h' => ?_, fun {q i e c} hw hh => ?_, fun q => ?_⟩
  · rcases hnew h with hold | ⟨k, hwrite, hc⟩
    · rcases hnew h' with hold' | ⟨k', hwrite', hc'⟩
      · exact hi.one hold hold'
      · exact hi.eq_of_writes hwrite' hc' hold
    · rcases hnew h' with hold' | ⟨k', hwrite', -⟩
      · exact (hi.eq_of_writes hwrite hc hold').symm
      · rw [hwrite] at hwrite'
        cases hwrite'
        rfl
  · simp only [SplitWorld.advance, SplitWorld.goto, Function.update_apply] at hw ⊢
    split at hw
    · next hq =>
      rw [if_pos hq]
      rcases hnew hh with hold | ⟨k, hwrite, -⟩
      · exact SplitPc.next_sees hi.seen hw hold
      · -- 書いた後の呼び出しは、もう検査の途中ではない
        generalize s.procs pid = pc at hw hwrite
        cases pc with
        | inserting p =>
          rw [SplitPc.wants_of_taker (SplitPc.taker_next_inserting p)] at hw
          cases hw
        | deciding w =>
          rw [SplitPc.wants_of_taker (SplitPc.taker_next_deciding w)] at hw
          cases hw
        | _ => cases hwrite
    · next hq =>
      rw [if_neg hq]
      rcases hnew hh with hold | ⟨k, hwrite, hc⟩
      · exact hi.seen hw hold
      · rw [hquiet hq hwrite hc] at hw
        cases hw
  · simp only [SplitWorld.advance, SplitWorld.goto, Function.update_apply]
    split
    · exact (hi.copies pid).next.keep (SplitPc.keeps_write _ inp)
    · exact (hi.copies q).keep (SplitPc.keeps_write _ inp)

/-- task の書き換え。 -/
theorem updateTasks {tasks : SplitTasks} (hi : SplitInv s)
    (hg : SplitAct.clear s (.updateTasks tasks) = true) :
    SplitInv { s with db := { s.db with tasks := tasks } } := by
  have hnew : ∀ {i e c}, ({ s.db with tasks := tasks } : SplitDb).Holds i e c →
      s.db.Holds i e c ∨
        ((∀ q, (s.procs q).wants i c = false) ∧
          ∀ {j e'}, ({ s.db with tasks := tasks } : SplitDb).Holds j e' c → j = i) := by
    rintro i e c ⟨r, hr, rfl, rfl, hhold⟩
    by_cases hold : s.db.holds r c = true
    · exact .inl ⟨r, hr, rfl, rfl, hold⟩
    · right
      have hc := (holds_iff.mp hhold).2.1
      have h := List.all_eq_true.mp (List.all_eq_true.mp hg r hr) c hc
      rw [hhold, Bool.eq_false_iff.mpr hold] at h
      simp only [Bool.not_true, Bool.false_or, Bool.and_eq_true, decide_eq_true_eq] at h
      refine ⟨h.1, ?_⟩
      rintro j e' ⟨r', hr', rfl, -, hhold'⟩
      have hother := List.all_eq_true.mp h.2 r' hr'
      rw [hhold'] at hother
      simpa using hother
  refine ⟨fun {i j e e' c} h h' => ?_, fun {q i e c} hw hh => ?_,
    fun q => (hi.copies q).keep (SplitDb.Keeps.refl s.db)⟩
  · rcases hnew h with hold | ⟨-, hone⟩
    · rcases hnew h' with hold' | ⟨-, hone'⟩
      · exact hi.one hold hold'
      · exact hone' h
    · exact (hone h').symm
  · rcases hnew hh with hold | ⟨hquiet, -⟩
    · exact hi.seen hw hold
    · rw [hquiet q] at hw
      cases hw

/-- 子を手放す。 -/
theorem release (hi : SplitInv s) (splitId taskId : String) :
    SplitInv { s with db := { s.db with releases := s.db.releases ++ [(splitId, taskId)] } } := by
  have hold : ∀ {i e c},
      ({ s.db with releases := s.db.releases ++ [(splitId, taskId)] } : SplitDb).Holds i e c →
      s.db.Holds i e c := by
    rintro i e c ⟨r, hr, hid, he, hhold⟩
    obtain ⟨hres, hc, hrel, hshow⟩ := holds_iff.mp hhold
    exact ⟨r, hr, hid, he, holds_iff.mpr ⟨hres, hc, fun h => hrel (List.mem_append_left _ h), hshow⟩⟩
  exact ⟨fun h h' => hi.one (hold h) (hold h'), fun hw hh => hi.seen hw (hold hh),
    fun q => (hi.copies q).keep (SplitDb.Keeps.refl s.db)⟩

theorem step (hi : SplitInv s) {a : SplitAct n} (hg : a.clear s = true) :
    SplitInv (splitStep sql s a).2 := by
  cases a with
  | call pid c => exact hi.call c
  | advance pid inp => exact hi.advance hg
  | updateTasks tasks => exact hi.updateTasks hg
  | release splitId taskId => exact hi.release splitId taskId

end SplitInv

/-- 分割の無い database と、空いた呼び出し。 -/
def SplitWorld.start (tasks : SplitTasks) : SplitWorld n := { db := { tasks } }

theorem SplitInv.start (tasks : SplitTasks) : SplitInv (SplitWorld.start tasks : SplitWorld n) where
  one := by
    rintro i j e e' c ⟨r, hr, -⟩
    cases hr
  seen := by
    intro pid i e c hw
    cases hw
  copies := fun _ => SplitPc.copies_of_taker rfl fun _ _ _ h => by cases h

/--
**条件を守る実行では、縛る二つの分割が子を共有しない。**
-/
theorem split_reserves_once (sql : SplitSql) (tasks : SplitTasks) (acts : List (SplitAct n))
    (h : Guarded (splitStep sql) (fun s a => a.clear s = true) (.start tasks) acts) :
    (run (splitStep sql) (.start tasks) acts).db.ReservesOnce sql :=
  reservesOnce_of_holds
    (run_invariant (I := SplitInv) (fun _ _ hi hg => hi.step hg) (.start tasks) h).one

/-! ## 例 -/

/-- ミリ秒まで読む SQL。 -/
def SplitSql.millis : SplitSql where
  rfc3339 := toString
  julianday := fun t => some (t / 1000000)

/-- 二つの子を持つ epic。 -/
def SplitTasks.pair : SplitTasks where
  tasks := ⟨[⟨"epic", true, .open⟩, ⟨"c1", false, .open⟩, ⟨"c2", false, .open⟩], by decide⟩
  parents := [⟨"c1", "epic", "0"⟩, ⟨"c2", "epic", "0"⟩]

/-- 分割が無いときの、一つの子を取る申し出。書く直前まで。 -/
def SplitAct.proposing (pid : Fin 2) (caller child : String) (holder : HolderAnswer) :
    List (SplitAct 2) :=
  .call pid (.propose { caller, epicId := "epic", mine := [child], theirs := [], ttlSecs := 60 })
    :: (List.replicate 5 (.advance pid {})
      ++ [.advance pid { peer := ⟨"peer", "far", "host"⟩ }, .advance pid {}, .advance pid { holder }]
      ++ match holder with
        | .ours => [.advance pid {}]
        | _ => [.advance pid {}, .advance pid {}])

/-- 申し出を書き、送る。 -/
def SplitAct.recorded (pid : Fin 2) (newId : String) : List (SplitAct 2) :=
  [.advance pid { newId }, .advance pid {}]

/-- 相手の申し出を記し、受ける。 -/
def SplitAct.accepting (pid : Fin 2) (child : String) : List (SplitAct 2) :=
  [.call pid (.ingest "b" ⟨"m1", "peer", "far", "host",
      ⟨.proposal, "s2", "epic", [], [child], some (seconds 60), 0, none⟩⟩),
    .advance pid {}, .advance pid {}, .call pid (.answer "b" "s2" true none)]
    ++ List.replicate 16 (.advance pid {})

/-- 続けて二つの子を取る。 -/
theorem split_reserves_once_pair :
    (currentEpicSplits .millis (run (splitStep .millis) (.start .pair)
        (SplitAct.proposing 0 "a" "c1" .other ++ SplitAct.recorded 0 "s1"
          ++ SplitAct.accepting 1 "c2")).db).map (fun s => (s.id, s.state, s.shares))
      = [("s1", .pending, ["c1"]), ("s2", .accepted, ["c2"])]
    ∧ (run (splitStep .millis) (.start .pair)
        (SplitAct.proposing 0 "a" "c1" .other ++ SplitAct.recorded 0 "s1"
          ++ SplitAct.accepting 1 "c2")).db.ReservesOnce .millis :=
  ⟨by decide, split_reserves_once .millis .pair _ (by decide)⟩

/-- 一つの database の二人の supervisor が、並んで同じ子を取る。どちらも検査を通る。 -/
theorem two_proposals_reserve_one_child :
    ¬ (run (splitStep .millis) (.start .pair)
        (SplitAct.proposing 0 "a" "c1" .other ++ SplitAct.proposing 1 "b" "c1" .ours
          ++ SplitAct.recorded 0 "s1" ++ SplitAct.recorded 1 "s2")).db.ReservesOnce .millis := by
  intro h
  have hsplits : currentEpicSplits .millis (run (splitStep .millis) (.start .pair)
      (SplitAct.proposing 0 "a" "c1" .other ++ SplitAct.proposing 1 "b" "c1" .ours
        ++ SplitAct.recorded 0 "s1" ++ SplitAct.recorded 1 "s2")).db
      = ["s1", "s2"].map fun id =>
        ({ id, epicId := "epic", localAgentId := if id = "s1" then "a" else "b", peerAgentId := "peer",
           peerName := "far", peerMachine := "host", direction := .outgoing, mine := ["c1"], theirs := [],
           state := .pending, reason := none, messageId := none, expiresAt := seconds 60, createdAt := 0,
           decidedAt := none, decidedBy := none, cleanupPending := false,
           expiryNoticePending := false } : EpicSplit) := by
    decide
  unfold SplitDb.ReservesOnce at h
  rw [hsplits] at h
  exact h 0 _ (.head _) _ (.tail _ (.head _)) (by decide) (by decide) (by decide) "c1" (by decide)
    (by decide)

end Cassy
