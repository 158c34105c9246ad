import Cassy.Cloud.PeerAsks

/-!
# 答の来た問い

`open_asks` が問いを外すのはどの返事によるか。返事の意味はその時に待っている問いで変わるので、返事を一つ読む段の
性質を先に言い、列の上の帰納法で全体の性質にする。

* 外れた問いには、待っている間にそれを外した返事がある
* 返事が一つ増えても、外れていた問いは外れたままである

外した返事がその問いに答えているかは `AskSettlement` で見る。
-/

namespace Cassy

open Infra

/-! ## 番号の書かれた本文 -/

/-- 本文に、番号が一語として書かれている。 -/
def NamesToken (body id : Text) : Prop :=
  ∃ pre post, body = pre ++ (id ++ post) ∧ pre.getLast?.any tokenPart = false
    ∧ post.head?.any tokenPart = false

/-- 語の文字だけからなる番号。cloud の番号はこの形をしている。 -/
def TokenId (id : Text) : Prop := ∀ c ∈ id, tokenPart c = true

instance (id : Text) : Decidable (TokenId id) :=
  List.decidableBAll (fun c => tokenPart c = true) id

theorem prefix_of_mem_matchFrom {pat : Text} : ∀ (t : Text) (skip i : Nat), ∀ j ∈ matchFrom pat skip i t,
    pat <+: t.drop (j - i)
  | [], _, _, _, h => absurd h (by simp [matchFrom])
  | c :: t, skip + 1, i, j, h => by
    have hbound := matchFrom_bounds t skip (i + 1) j h
    have hpre := prefix_of_mem_matchFrom t skip (i + 1) j h
    have hsub : j - i = j - (i + 1) + 1 := by omega
    rw [hsub, List.drop_succ_cons]
    exact hpre
  | c :: t, 0, i, j, h => by
    have hrest : ∀ skip, j ∈ matchFrom pat skip (i + 1) t → pat <+: (c :: t).drop (j - i) := by
      intro skip hj
      have hbound := matchFrom_bounds t skip (i + 1) j hj
      have hsub : j - i = j - (i + 1) + 1 := by omega
      rw [hsub, List.drop_succ_cons]
      exact prefix_of_mem_matchFrom t skip (i + 1) j hj
    rw [matchFrom] at h
    split at h
    next hpre =>
      rcases List.mem_cons.mp h with rfl | h
      · rw [Nat.sub_self]
        exact List.isPrefixOf_iff_prefix.mp hpre
      · exact hrest _ h
    next => exact hrest _ h

theorem namesToken_of_namesAsk {body id : Text} (h : namesAsk body id = true) : NamesToken body id := by
  unfold namesAsk at h
  obtain ⟨i, hi, hparts⟩ := List.any_eq_true.mp h
  simp only [Bool.and_eq_true, Bool.not_eq_true'] at hparts
  have hpre : id <+: body.drop i := by
    unfold idMatches at hi
    split at hi
    next hnil =>
      rw [hnil]
      exact List.nil_prefix
    next => exact prefix_of_mem_matchFrom body 0 0 i hi
  obtain ⟨post, hpost⟩ := hpre
  refine ⟨body.take i, post, ?_, hparts.1, ?_⟩
  · rw [hpost, List.take_append_drop]
  · rw [← List.drop_drop, ← hpost, List.drop_left] at hparts
    exact hparts.2

/-- 一語として書かれた番号の手前で、番号は重なって現れない。 -/
theorem mem_matchFrom_of_token {id post : Text} (hid : TokenId id) (hne : id ≠ []) :
    ∀ (pre : Text) (skip i : Nat), skip ≤ pre.length → pre.getLast?.any tokenPart = false →
      i + pre.length ∈ matchFrom id skip i (pre ++ (id ++ post))
  | [], 0, i, _, _ => by
    obtain ⟨c, cs, rfl⟩ := List.exists_cons_of_ne_nil hne
    have hpre : (c :: cs).isPrefixOf (c :: (cs ++ post)) = true :=
      List.isPrefixOf_iff_prefix.mpr ⟨post, rfl⟩
    rw [List.nil_append, List.cons_append, matchFrom, if_pos hpre]
    exact List.mem_cons_self
  | [], _ + 1, _, h, _ => absurd h (by simp)
  | c :: pre, skip, i, h, hlast => by
    have hlast' : pre.getLast?.any tokenPart = false := by
      cases pre with
      | nil => rfl
      | cons d pre => rwa [List.getLast?_cons_cons] at hlast
    have hlen : i + (c :: pre).length = i + 1 + pre.length := by
      rw [List.length_cons]
      omega
    rw [List.cons_append, hlen]
    cases skip with
    | succ skip => exact mem_matchFrom_of_token hid hne pre skip (i + 1) (Nat.le_of_succ_le_succ h) hlast'
    | zero =>
      rw [matchFrom]
      split
      next hpre =>
        refine List.mem_cons_of_mem _ (mem_matchFrom_of_token hid hne pre _ (i + 1) ?_ hlast')
        -- はみ出すなら、手前の最後の文字は番号の文字である。
        by_contra hover
        have hlong : (c :: pre).length ≤ id.length := by
          rw [List.length_cons]
          omega
        have hhead : c :: pre <+: id :=
          List.prefix_of_prefix_length_le ⟨id ++ post, rfl⟩ (List.isPrefixOf_iff_prefix.mp hpre) hlong
        obtain ⟨last, hlast''⟩ := Option.ne_none_iff_exists'.mp
          (mt List.getLast?_eq_none_iff.mp (List.cons_ne_nil c pre))
        have hpart := hid last (hhead.subset (List.mem_of_getLast? hlast''))
        rw [hlast'', Option.any_some, hpart] at hlast
        cases hlast
      next => exact mem_matchFrom_of_token hid hne pre 0 (i + 1) (Nat.zero_le _) hlast'

theorem namesAsk_iff_of_tokenId {body id : Text} (hid : TokenId id) :
    namesAsk body id = true ↔ NamesToken body id := by
  refine ⟨namesToken_of_namesAsk, ?_⟩
  rintro ⟨pre, post, rfl, hpre, hpost⟩
  refine List.any_eq_true.mpr ⟨pre.length, ?_, ?_⟩
  · unfold idMatches
    split
    · exact List.mem_range.mpr (by rw [List.length_append]; omega)
    next hne =>
      have hmem := @mem_matchFrom_of_token id post hid hne pre 0 0 (Nat.zero_le _) hpre
      rwa [Nat.zero_add] at hmem
  · rw [← List.drop_drop, List.take_left, List.drop_left, List.drop_left, hpre, hpost]
    rfl

/-! ## 返事を一つ読む -/

/-- 問いの、返事で変わらないところ。 -/
def PendingAsk.stem (ask : PendingAsk) : PendingAsk :=
  { ask with answered := false, ask := { ask.ask with unlinkedAnswer := none } }

@[simp] theorem PendingAsk.stem_cloudId (ask : PendingAsk) : ask.stem.ask.cloudId = ask.ask.cloudId := rfl

namespace Replay

variable {me : String} {asks : List PendingAsk} {reply : PeerReply} {e : PeerEnvelope} {i : Nat}
variable {st st' : Replay}

theorem mem_positions {p : PendingAsk → Bool} :
    i ∈ positions asks p ↔ ∃ ask, asks[i]? = some ask ∧ p ask = true := by
  unfold positions
  rw [List.mem_filter, List.mem_range]
  constructor
  · rintro ⟨hlt, hp⟩
    rw [List.getElem?_eq_getElem hlt, Option.any_some] at hp
    exact ⟨asks[i], List.getElem?_eq_getElem hlt, hp⟩
  · rintro ⟨ask, hask, hp⟩
    obtain ⟨hlt, -⟩ := List.getElem?_eq_some_iff.mp hask
    exact ⟨hlt, by rw [hask, Option.any_some, hp]⟩

theorem nodup_positions (p : PendingAsk → Bool) : (positions asks p).Nodup :=
  List.nodup_range.filter _

/-- 番号で指した問いは、その番号の問いである。 -/
theorem linkedAsk_eq_some (h : linkedAsk asks e = some i) :
    ∃ ask id, asks[i]? = some ask ∧ ask.ask.cloudId = some id ∧ e.inReplyTo = some id := by
  obtain ⟨id, hid, hfind⟩ := Option.bind_eq_some_iff.mp h
  obtain ⟨hlt, hask, -⟩ := List.findIdx?_eq_some_iff_getElem.mp hfind
  exact ⟨asks[i], id, List.getElem?_eq_getElem hlt, of_decide_eq_true hask, hid⟩

/-- 番号で指さない答の答える問いは、待っている問いで、名指された唯一の問いか、待っている唯一の問いである。 -/
theorem unlinkedAsk_eq_some_iff : unlinkedAsk me asks reply e = some i ↔
    e.inReplyTo = none ∧ e.kind = some .answer ∧ i ∈ positions asks (awaits me reply e)
      ∧ (positions asks (named reply) = [i]
        ∨ positions asks (named reply) = [] ∧ positions asks (awaits me reply e) = [i])
      ∧ asks[i]?.any (fun ask => ask.ask.cloudId.isSome) = true := by
  unfold unlinkedAsk
  rw [Option.filter_eq_some_iff]
  by_cases hkind : e.inReplyTo = none ∧ e.kind = some .answer
  · rw [if_pos hkind]
    obtain ⟨hlink, hanswer⟩ := hkind
    rw [← and_assoc, ← and_assoc, ← and_assoc]
    refine and_congr_left' ?_
    cases hnamed : positions asks (named reply) with
    | nil =>
      cases hwait : positions asks (awaits me reply e) with
      | nil => simp
      | cons c cs =>
        cases cs with
        | nil =>
          simp only [Option.some.injEq, List.mem_singleton, List.cons.injEq, and_true, true_and,
            reduceCtorEq, false_or, hlink, hanswer]
          exact ⟨fun h => ⟨h.symm, h⟩, fun h => h.2⟩
        | cons d cs => simp
    | cons n ns =>
      cases ns with
      | nil =>
        by_cases hmem : n ∈ positions asks (awaits me reply e)
        · simp only [if_pos hmem, Option.some.injEq, List.cons.injEq, and_true, reduceCtorEq, false_and,
            or_false, hlink, hanswer, true_and]
          exact ⟨fun h => ⟨h ▸ hmem, h⟩, fun h => h.2⟩
        · simp only [if_neg hmem, reduceCtorEq, List.cons.injEq, and_true, false_and, or_false, false_iff]
          rintro ⟨⟨-, hi⟩, rfl⟩
          exact hmem hi
      | cons m ns => simp
  · rw [if_neg hkind]
    refine iff_of_false (by simp) ?_
    rintro ⟨hlink, hanswer, -⟩
    exact hkind ⟨hlink, hanswer⟩

theorem lt_of_settles (h : settles me asks reply e = some i) : i < asks.length := by
  unfold settles at h
  rcases Option.or_eq_some_iff.mp h with hlink | ⟨-, hunlinked⟩
  · obtain ⟨ask, -, hask, -⟩ := linkedAsk_eq_some hlink
    exact (List.getElem?_eq_some_iff.mp hask).1
  · obtain ⟨-, -, hmem, -⟩ := unlinkedAsk_eq_some_iff.mp hunlinked
    obtain ⟨ask, hask, -⟩ := mem_positions.mp hmem
    exact (List.getElem?_eq_some_iff.mp hask).1

/-- 問い `i` に答が来ている。 -/
def Answered (st : Replay) (i : Nat) : Prop := ∃ ask, st.asks[i]? = some ask ∧ ask.answered = true

/-- 返事が段の中で答える問い。読まない返事は何にも答えない。 -/
def settled (me : String) (st : Replay) (reply : PeerReply) : Option Nat :=
  reply.envelope?.bind fun e =>
    if e.id ∈ st.seen then none
    else if e.kind.any PeerMessageKind.isSilent then none
    else settles me st.asks reply e

theorem markAnswered_stem : (markAnswered asks i).map PendingAsk.stem = asks.map PendingAsk.stem := by
  refine List.ext_getElem? fun j => ?_
  unfold markAnswered
  rw [List.getElem?_map, List.getElem?_map, List.getElem?_modify]
  by_cases hij : i = j
  · subst hij
    cases asks[i]? with
    | none => simp
    | some ask => simp [PendingAsk.stem]
  · simp [hij]

theorem noteUnlinked_stem :
    (noteUnlinked me asks reply e).map PendingAsk.stem = asks.map PendingAsk.stem := by
  unfold noteUnlinked
  rw [List.map_map]
  refine List.map_congr_left fun ask _ => ?_
  show PendingAsk.stem (if _ then _ else _) = _
  split
  · rfl
  · rfl

theorem noteUnlinked_answered :
    (noteUnlinked me asks reply e).map PendingAsk.answered = asks.map PendingAsk.answered := by
  unfold noteUnlinked
  rw [List.map_map]
  refine List.map_congr_left fun ask _ => ?_
  show PendingAsk.answered (if _ then _ else _) = _
  split
  · rfl
  · rfl

theorem answered_iff : Answered st i ↔ (st.asks.map PendingAsk.answered)[i]? = some true := by
  unfold Answered
  rw [List.getElem?_map, Option.map_eq_some_iff]

/-- 段の形。 -/
theorem step_cases (me : String) (st : Replay) (reply : PeerReply) :
    (step me st reply).asks.map PendingAsk.stem = st.asks.map PendingAsk.stem
      ∧ (step me st reply).seen = (match reply.envelope? with
        | none => st.seen
        | some e => if e.id ∈ st.seen then st.seen else e.id :: st.seen)
      ∧ ∀ i, Answered (step me st reply) i ↔ Answered st i ∨ settled me st reply = some i := by
  unfold step settled
  cases reply.envelope? with
  | none => simp
  | some e =>
    simp only [Option.bind_some]
    by_cases hseen : e.id ∈ st.seen
    · simp [hseen]
    · rw [if_neg hseen, if_neg hseen, if_neg hseen]
      by_cases hsilent : e.kind.any PeerMessageKind.isSilent = true
      · rw [if_pos hsilent, if_pos hsilent]
        refine ⟨rfl, rfl, fun i => ?_⟩
        simp [Answered]
      · rw [if_neg hsilent, if_neg hsilent]
        cases hsettles : settles me st.asks reply e with
        | some k =>
          refine ⟨markAnswered_stem, rfl, fun i => ?_⟩
          have hlt := lt_of_settles hsettles
          unfold Answered markAnswered
          rw [Option.some.injEq, List.getElem?_modify]
          by_cases hki : k = i
          · subst hki
            refine iff_of_true ⟨{ st.asks[k] with answered := true }, ?_, rfl⟩ (.inr rfl)
            rw [List.getElem?_eq_getElem hlt]
            simp
          · simp [hki]
        | none =>
          by_cases hanswer : e.kind = some .answer
          · rw [if_pos hanswer]
            refine ⟨noteUnlinked_stem, rfl, fun i => ?_⟩
            rw [answered_iff, answered_iff, noteUnlinked_answered]
            simp
          · rw [if_neg hanswer]
            refine ⟨rfl, rfl, fun i => ?_⟩
            simp [Answered]

/-- 読んだ返事の番号は、封筒の番号だけ増える。 -/
theorem mem_seen_step (he : reply.envelope? = some e) {id : String} :
    id ∈ (step me st reply).seen ↔ id = e.id ∨ id ∈ st.seen := by
  rw [(step_cases me st reply).2.1, he]
  show id ∈ (if e.id ∈ st.seen then st.seen else e.id :: st.seen) ↔ _
  split
  next hold => exact ⟨.inr, fun h => h.elim (fun heq => heq ▸ hold) fun hmem => hmem⟩
  next => exact List.mem_cons

/-! ## 返事を順に読む -/

variable {replies : List PeerReply}

theorem run_append (replies later : List PeerReply) :
    run me asks (replies ++ later) = later.foldl (step me) (run me asks replies) := by
  unfold run
  rw [List.foldl_append]

theorem run_stem (me : String) (asks : List PendingAsk) (replies : List PeerReply) :
    (run me asks replies).asks.map PendingAsk.stem = asks.map PendingAsk.stem := by
  induction replies using List.reverseRecOn with
  | nil => rfl
  | append_singleton replies reply ih =>
    rw [run_append, List.foldl_cons, List.foldl_nil, (step_cases me _ reply).1, ih]

theorem named_eq_of_stem {ask ask' : PendingAsk} (h : ask'.stem = ask.stem) :
    named reply ask' = named reply ask := by
  have hid : ask'.stem.ask.cloudId = ask.stem.ask.cloudId := by rw [h]
  unfold named
  rw [← ask.stem_cloudId, ← hid, ask'.stem_cloudId]

/-- 答を待っていること以外の、返事の条件。 -/
def reaches (me : String) (reply : PeerReply) (e : PeerEnvelope) (ask : PendingAsk) : Bool :=
  ask.createdAt ≤ reply.arrivedAt && ask.fromPeer e
    && (reply.target = ask.senderName || reply.target = me)

theorem awaits_eq_true_iff {ask : PendingAsk} :
    awaits me reply e ask = true ↔ ask.answered = false ∧ reaches me reply e ask = true := by
  unfold awaits reaches
  rw [Bool.and_assoc, Bool.and_assoc, Bool.and_eq_true, Bool.not_eq_true', Bool.and_assoc]

theorem reaches_eq_of_stem {ask ask' : PendingAsk} (h : ask'.stem = ask.stem) :
    reaches me reply e ask' = reaches me reply e ask := by
  have hreach : reaches me reply e ask'.stem = reaches me reply e ask.stem := by rw [h]
  exact hreach

section Stems

variable (hstem : st.asks.map PendingAsk.stem = st'.asks.map PendingAsk.stem)
include hstem

/-- 同じ位置の問いは、変わらないところが同じである。 -/
theorem exists_of_stem {ask : PendingAsk} (hask : st.asks[i]? = some ask) :
    ∃ ask', st'.asks[i]? = some ask' ∧ ask'.stem = ask.stem := by
  have hget := congrArg (·[i]?) hstem
  simp only [List.getElem?_map, hask, Option.map_some] at hget
  exact Option.map_eq_some_iff.mp hget.symm

/-- 答の来ていない問いと、待っている問いは同じである。 -/
theorem answered_or_mem_positions (hi : i ∈ positions st.asks (awaits me reply e)) :
    Answered st' i ∨ i ∈ positions st'.asks (awaits me reply e) := by
  obtain ⟨ask, hask, hwait⟩ := mem_positions.mp hi
  obtain ⟨ask', hask', hsame⟩ := exists_of_stem hstem hask
  by_cases hanswered : ask'.answered = true
  · exact .inl ⟨ask', hask', hanswered⟩
  · refine .inr (mem_positions.mpr ⟨ask', hask', awaits_eq_true_iff.mpr ⟨?_, ?_⟩⟩)
    · simpa using hanswered
    · rw [reaches_eq_of_stem hsame]
      exact (awaits_eq_true_iff.mp hwait).2

theorem positions_named_congr :
    positions st'.asks (named reply) = positions st.asks (named reply) := by
  have hlen := congrArg List.length hstem
  rw [List.length_map, List.length_map] at hlen
  unfold positions
  rw [hlen]
  refine List.filter_congr fun i hi => ?_
  rw [List.mem_range, ← hlen] at hi
  obtain ⟨ask', hask', hsame⟩ := exists_of_stem hstem (List.getElem?_eq_getElem hi)
  rw [hask', List.getElem?_eq_getElem hi, Option.any_some, Option.any_some, named_eq_of_stem hsame]

theorem linkedAsk_congr : linkedAsk st'.asks e = linkedAsk st.asks e := by
  have hfind : ∀ (asks : List PendingAsk) (id : String),
      asks.findIdx? (fun ask => ask.ask.cloudId = some id)
        = (asks.map PendingAsk.stem).findIdx? fun ask => ask.ask.cloudId = some id := by
    intro asks id
    rw [List.findIdx?_map]
    rfl
  unfold linkedAsk
  refine congrArg _ (funext fun id => ?_)
  rw [hfind, hfind st.asks, hstem]

/-- 答の来た問いが多い方では、同じ返事の答える問いに既に答が来ているか、同じ問いに答える。 -/
theorem settles_mono (hahead : ∀ i, Answered st i → Answered st' i)
    (h : settles me st.asks reply e = some i) :
    Answered st' i ∨ settles me st'.asks reply e = some i := by
  unfold settles at h ⊢
  rw [linkedAsk_congr hstem]
  rcases Option.or_eq_some_iff.mp h with hlink | ⟨hlink, hunlinked⟩
  · right
    rw [hlink, Option.some_or]
  · obtain ⟨hno, hanswer, hmem, hwhich, hid⟩ := unlinkedAsk_eq_some_iff.mp hunlinked
    refine (answered_or_mem_positions hstem hmem).imp_right fun hmem' => ?_
    rw [hlink, Option.none_or, unlinkedAsk_eq_some_iff]
    refine ⟨hno, hanswer, hmem', ?_, ?_⟩
    · rw [positions_named_congr hstem]
      refine hwhich.imp_right fun hone => ⟨hone.1, ?_⟩
      -- 待っている問いは減るだけなので、唯一のものは唯一のままである。
      have hsub : ∀ j ∈ positions st'.asks (awaits me reply e), j = i := by
        intro j hj
        have hback := answered_or_mem_positions hstem.symm hj
        rw [hone.2, List.mem_singleton] at hback
        refine hback.resolve_left fun hanswered => ?_
        obtain ⟨ask, hask, hwait⟩ := mem_positions.mp hj
        obtain ⟨ask', hask', htrue⟩ := hahead j hanswered
        rw [hask, Option.some.injEq] at hask'
        rw [← hask', (awaits_eq_true_iff.mp hwait).1] at htrue
        cases htrue
      exact List.perm_singleton.mp ((List.perm_ext_iff_of_nodup (nodup_positions _)
        (List.nodup_singleton i)).mpr fun j =>
          ⟨fun hj => List.mem_singleton.mpr (hsub j hj), fun hj => List.mem_singleton.mp hj ▸ hmem'⟩)
    · rw [Option.any_eq_true] at hid ⊢
      obtain ⟨ask, hask, hsome⟩ := hid
      obtain ⟨ask', hask', hsame⟩ := exists_of_stem hstem hask
      have hcloud : ask'.stem.ask.cloudId = ask.stem.ask.cloudId := by rw [hsame]
      exact ⟨ask', hask', by rw [← ask'.stem_cloudId, hcloud, ask.stem_cloudId, hsome]⟩

end Stems

/-- 余分な返事を読んだ後の段。 -/
structure Ahead (extra : PeerReply) (st st' : Replay) : Prop where
  stem : st.asks.map PendingAsk.stem = st'.asks.map PendingAsk.stem
  answered : ∀ i, Answered st i → Answered st' i
  /-- 余分な返事の番号の外は、読んだ番号も同じである。 -/
  seen : ∀ id, (∀ e, extra.envelope? = some e → id ≠ e.id) → (id ∈ st'.seen ↔ id ∈ st.seen)

theorem ahead_step (me : String) (st : Replay) (extra : PeerReply) : Ahead extra st (step me st extra) := by
  obtain ⟨hstem, hseen, hanswered⟩ := step_cases me st extra
  refine ⟨hstem.symm, fun i hi => (hanswered i).mpr (.inl hi), fun id hid => ?_⟩
  rw [hseen]
  cases hextra : extra.envelope? with
  | none => exact Iff.rfl
  | some e =>
    have hne : id ≠ e.id := hid e hextra
    show id ∈ (if e.id ∈ st.seen then st.seen else e.id :: st.seen) ↔ id ∈ st.seen
    split
    · exact Iff.rfl
    · rw [List.mem_cons]
      exact or_iff_right hne

/-- 返事の番号が、余分な返事の番号と違う。 -/
def Distinct (extra reply : PeerReply) : Prop :=
  ∀ e, reply.envelope? = some e → ∀ x, extra.envelope? = some x → e.id ≠ x.id

theorem Ahead.step {extra : PeerReply} (h : Ahead extra st st') (hdistinct : Distinct extra reply) :
    Ahead extra (Replay.step me st reply) (Replay.step me st' reply) := by
  obtain ⟨hstem, hseen, hanswered⟩ := step_cases me st reply
  obtain ⟨hstem', hseen', hanswered'⟩ := step_cases me st' reply
  refine ⟨by rw [hstem, hstem', h.stem], fun i hi => (hanswered' i).mpr ?_, fun id hid => ?_⟩
  · rcases (hanswered i).mp hi with hi | hi
    · exact .inl (h.answered i hi)
    · unfold settled at hi ⊢
      obtain ⟨e, he, hi⟩ := Option.bind_eq_some_iff.mp hi
      have hsame : e.id ∈ st'.seen ↔ e.id ∈ st.seen := h.seen e.id (hdistinct e he)
      rw [he, Option.bind_some]
      by_cases hold : e.id ∈ st.seen
      · rw [if_pos hold] at hi
        cases hi
      · rw [if_neg hold] at hi
        rw [if_neg (mt hsame.mp hold)]
        split at hi
        next => cases hi
        next hsilent =>
          rw [if_neg hsilent]
          exact settles_mono h.stem h.answered hi
  · rw [hseen, hseen']
    cases hreply : reply.envelope? with
    | none => exact h.seen id hid
    | some e =>
      have hsame : e.id ∈ st'.seen ↔ e.id ∈ st.seen := h.seen e.id (hdistinct e hreply)
      show id ∈ (if e.id ∈ st'.seen then st'.seen else e.id :: st'.seen)
        ↔ id ∈ (if e.id ∈ st.seen then st.seen else e.id :: st.seen)
      by_cases hold : e.id ∈ st.seen
      · rw [if_pos hold, if_pos (hsame.mpr hold)]
        exact h.seen id hid
      · rw [if_neg hold, if_neg (mt hsame.mp hold), List.mem_cons, List.mem_cons]
        exact or_congr_right (h.seen id hid)

theorem Ahead.foldl {extra : PeerReply} (replies : List PeerReply)
    (hdistinct : ∀ reply ∈ replies, Distinct extra reply) (h : Ahead extra st st') :
    Ahead extra (replies.foldl (Replay.step me) st) (replies.foldl (Replay.step me) st') := by
  induction replies generalizing st st' with
  | nil => exact h
  | cons reply replies ih =>
    exact ih (fun r hr => hdistinct r (List.mem_cons_of_mem _ hr))
      (h.step (hdistinct reply List.mem_cons_self))

/-- 答の来た問いには、それに答えた返事がある。 -/
theorem exists_settled (h : Answered (run me asks replies) i) :
    Answered { asks := asks } i ∨ ∃ earlier reply later, replies = earlier ++ reply :: later
      ∧ ¬ Answered (run me asks earlier) i ∧ settled me (run me asks earlier) reply = some i := by
  induction replies using List.reverseRecOn with
  | nil => exact .inl h
  | append_singleton replies reply ih =>
    by_cases hbefore : Answered (run me asks replies) i
    · refine (ih hbefore).imp_right ?_
      rintro ⟨earlier, r, later, heq, hopen, hsettled⟩
      exact ⟨earlier, r, later ++ [reply], by rw [heq, List.append_assoc, List.cons_append], hopen,
        hsettled⟩
    · rw [run_append, List.foldl_cons, List.foldl_nil] at h
      have hsettled := (((step_cases me _ reply).2.2 i).mp h).resolve_left hbefore
      exact .inr ⟨replies, reply, [], rfl, hbefore, hsettled⟩

end Replay

/-! ## 外れた問い -/

/-- `open_asks` が、`i` 番目の問いを外す。 -/
def LeftOut (me : String) (asks : List PendingAsk) (replies : List PeerReply) (i : Nat) : Prop :=
  Replay.Answered (Replay.run me asks replies) i

instance (me : String) (asks : List PendingAsk) (replies : List PeerReply) (i : Nat) :
    Decidable (LeftOut me asks replies i) :=
  decidable_of_iff _ Replay.answered_iff.symm

/-- 控えた答を除いた問い。 -/
def OpenPeerAsk.stem (ask : OpenPeerAsk) : OpenPeerAsk := { ask with unlinkedAnswer := none }

theorem filter_map_eq_range {α β : Type*} (p : α → Bool) (f : α → β) : ∀ l : List α,
    (l.filter p).map f
      = ((List.range l.length).filter fun i => l[i]?.any p).filterMap fun i => l[i]?.map f
  | [] => rfl
  | a :: l => by
    have ih := filter_map_eq_range p f l
    rw [List.length_cons, List.range_succ_eq_map, List.filter_cons, List.filter_cons]
    by_cases hp : p a = true
    · simp [hp, List.filter_map, Function.comp_def, List.filterMap_map, ih]
    · simp [hp, List.filter_map, Function.comp_def, List.filterMap_map, ih]

/-- 返るのは、外れなかった問いの並びである。 -/
theorem openAsksOf_stem (me : String) (asks : List PendingAsk) (replies : List PeerReply) :
    (openAsksOf me asks replies).map OpenPeerAsk.stem
      = ((List.range asks.length).filter fun i => ¬ LeftOut me asks replies i).filterMap
        fun i => asks[i]?.map fun ask => ask.ask.stem := by
  have hstem := Replay.run_stem me asks replies
  have hlen := congrArg List.length hstem
  rw [List.length_map, List.length_map] at hlen
  unfold openAsksOf
  rw [List.map_map, filter_map_eq_range, hlen]
  have hget : ∀ i : Nat, (Replay.run me asks replies).asks[i]?.map PendingAsk.stem
      = asks[i]?.map PendingAsk.stem := by
    intro i
    rw [← List.getElem?_map, hstem, List.getElem?_map]
  have hask : ∀ o : Option PendingAsk, o.map (OpenPeerAsk.stem ∘ PendingAsk.ask)
      = (o.map PendingAsk.stem).map PendingAsk.ask := fun o => by
    rw [Option.map_map]
    rfl
  have hfilter : ((List.range asks.length).filter fun i =>
        (Replay.run me asks replies).asks[i]?.any fun ask => !ask.answered)
      = (List.range asks.length).filter fun i => ¬ LeftOut me asks replies i := by
    refine List.filter_congr fun i hi => ?_
    rw [List.mem_range, ← hlen] at hi
    rw [List.getElem?_eq_getElem hi, Option.any_some]
    have hleft : LeftOut me asks replies i ↔ (Replay.run me asks replies).asks[i].answered = true := by
      unfold LeftOut Replay.Answered
      rw [List.getElem?_eq_getElem hi]
      simp
    simp [hleft]
  rw [hfilter]
  refine List.filterMap_congr fun i _ => ?_
  rw [hask, hget, ← hask]
  rfl

end Cassy
