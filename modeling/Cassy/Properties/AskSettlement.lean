import Cassy.Properties.PeerAsks
import Cassy.Properties.PeerLine

/-!
# 問いに答えた返事

`open_asks` の外した問いに、本当に答が来ているか。

番号で指さない答は、相手に待っている問いが一つだけのときにその問いの答になるはずである。だが `open_asks` が数えるのは、
答の宛名で送った問いだけである。同じ相手に別の名前で送った問いが待っていても、宛名で送った方が外れる。

二つの問いがこう取り違えられるのは、`Confusable` のときである。

* 取り違えられる二つが無く、番号の綴りが見落とされなければ、外れた問いには答が来ている
* 取り違えられる二つがあれば、答の来ていない問いを外す返事の列がある
-/

namespace Cassy

open Infra

/-! ## 答 -/

/-- 返事の本文に、問いの番号が一語として書かれている。 -/
def PeerReply.Names (reply : PeerReply) (ask : PendingAsk) : Prop :=
  ∃ id, ask.ask.cloudId = some id ∧ NamesToken reply.body id.toList

/--
返事が問い `i` に答える。`earlier` は先に着いた返事である。

番号で指すか、番号の無い答がその相手から asker に宛てて問いより後に着き、その問いだけを名指すか、何も名指さずに、その相手に
待っている問いがほかに無い。
-/
def Answers (me : String) (asks : List PendingAsk) (earlier : List PeerReply) (reply : PeerReply)
    (i : Nat) (ask : PendingAsk) : Prop :=
  ∃ e, reply.envelope? = some e
    ∧ ((∃ id, ask.ask.cloudId = some id ∧ e.inReplyTo = some id)
      ∨ e.inReplyTo = none ∧ e.kind = some .answer ∧ Replay.reaches me reply e ask = true
        ∧ (reply.Names ask ∧ (∀ j other, j ≠ i → asks[j]? = some other → ¬ reply.Names other)
          ∨ (∀ other ∈ asks, ¬ reply.Names other) ∧ ¬ LeftOut me asks earlier i
            ∧ ∀ j other, j ≠ i → asks[j]? = some other → other.fromPeer e = true →
              other.createdAt ≤ reply.arrivedAt → LeftOut me asks earlier j))

/-- 着いた順に並び、番号の互いに違う返事。 -/
def Arrived (replies : List PeerReply) : Prop :=
  replies.Pairwise fun r r' => r.arrivedAt ≤ r'.arrivedAt ∧ Replay.Distinct r r'

/-- 外れた問いには、それに答えた返事がある。 -/
def SettlesSoundly (me : String) (asks : List PendingAsk) : Prop :=
  ∀ replies, Arrived replies → ∀ i ask, asks[i]? = some ask → LeftOut me asks replies i →
    ∃ earlier reply later, replies = earlier ++ reply :: later ∧ Answers me asks earlier reply i ask

/-! ## 取り違え -/

/-- 封筒を送れる相手。 -/
structure PeerEnvelope.Signed (e : PeerEnvelope) : Prop where
  senderName : e.senderName ≠ ""
  senderAgentId : e.senderAgentId ≠ ""
  machine : e.machine ≠ ""

/--
問い `i` と `j` が取り違えられる。

二つは同じ相手に別の名前で送られている。`i` の名前で送ったほかの問いには、`i` と `j` の着くまでに全て答が来うる。
-/
structure Confusable (me : String) (asks : List PendingAsk) (i j : Nat) (a b : PendingAsk)
    (e : PeerEnvelope) : Prop where
  first : asks[i]? = some a
  second : asks[j]? = some b
  cloudId : a.ask.cloudId.isSome = true
  name : a.senderName ≠ b.senderName
  notMe : a.senderName ≠ me
  signed : e.Signed
  fromPeer : a.fromPeer e = true ∧ b.fromPeer e = true
  rest : ∀ k c, k ≠ i → asks[k]? = some c → c.senderName = a.senderName → c.fromPeer e = true →
    c.createdAt ≤ max a.createdAt b.createdAt → c.ask.cloudId.isSome = true

/-- 取り違えられる二つの問いが無い。 -/
def Unconfused (me : String) (asks : List PendingAsk) : Prop :=
  ∀ i j a b e, ¬ Confusable me asks i j a b e

/-- ほかの問いを外しうるとき、番号の一語は本文のどこにあっても見つかる。 -/
def ScansWhole (asks : List PendingAsk) : Prop :=
  ∀ (i j : Nat) (ask other : PendingAsk) (id : String) (body : Text), i ≠ j → asks[i]? = some ask →
    ask.ask.cloudId.isSome = true → asks[j]? = some other → other.ask.cloudId = some id →
    NamesToken body id.toList → namesAsk body id.toList = true

/-- cloud の付けた番号。空でなく、互いに違う。 -/
structure DistinctIds (asks : List PendingAsk) : Prop where
  filled : ∀ ask ∈ asks, ask.ask.cloudId ≠ some ""
  distinct : ∀ (i j : Nat) (a b : PendingAsk) (id : String), asks[i]? = some a → asks[j]? = some b →
    a.ask.cloudId = some id → b.ask.cloudId = some id → i = j

/-- 語の文字だけの番号は見落とされない。 -/
theorem scansWhole_of_tokenId {asks : List PendingAsk}
    (h : ∀ ask ∈ asks, ∀ id, ask.ask.cloudId = some id → TokenId id.toList) : ScansWhole asks := by
  intro i j ask other id body _ _ _ hother hid hnames
  exact (namesAsk_iff_of_tokenId (h other (List.mem_of_getElem? hother) id hid)).mpr hnames

/-- 一つの名前で送った問いは、取り違えられない。 -/
theorem unconfused_of_senderName {me name : String} {asks : List PendingAsk}
    (h : ∀ ask ∈ asks, ask.senderName = name) : Unconfused me asks := by
  intro i j a b e hconf
  have ha := h a (List.mem_of_getElem? hconf.first)
  have hb := h b (List.mem_of_getElem? hconf.second)
  exact hconf.name (ha.trans hb.symm)

/-- 読めた封筒の送り主は空でない。 -/
theorem signed_of_parseEnvelope {prompt : String} {e : PeerEnvelope}
    (h : parseEnvelope prompt = some e) : e.Signed := by
  have hne : ∀ {attributes key value}, attribute? attributes key = some value → value ≠ "" := by
    intro attributes key value hvalue
    exact of_decide_eq_true (Option.filter_eq_some_iff.mp hvalue).2
  unfold parseEnvelope at h
  simp only [bind, Option.bind_eq_some_iff, Option.some.injEq] at h
  obtain ⟨_, _, _, _, _, _, attributes, _, _, _, _, _, name, hname, agent, hagent, machine, hmachine, _, _,
    _, _, rfl⟩ := h
  exact ⟨hne hname, hne hagent, hne hmachine⟩

namespace Replay

variable {me : String} {asks : List PendingAsk} {reply : PeerReply} {i : Nat} {replies : List PeerReply}
variable {ask : PendingAsk}

/-- 段の答えた問いは、番号で指されたか、番号の無い答の届く、待っている問いである。 -/
theorem settled_cases {earlier : List PeerReply} (hask : asks[i]? = some ask)
    (h : settled me (run me asks earlier) reply = some i) :
    ask.ask.cloudId.isSome = true ∧ ∃ e, reply.envelope? = some e
      ∧ ((∃ id, ask.ask.cloudId = some id ∧ e.inReplyTo = some id)
        ∨ e.inReplyTo = none ∧ e.kind = some .answer ∧ reaches me reply e ask = true
          ∧ (positions asks (named reply) = [i] ∨ positions asks (named reply) = []
            ∧ ∀ j other, j ≠ i → asks[j]? = some other → reaches me reply e other = true →
              LeftOut me asks earlier j)) := by
  unfold settled at h
  obtain ⟨e, he, h⟩ := Option.bind_eq_some_iff.mp h
  split at h
  next => cases h
  next =>
  split at h
  next => cases h
  next =>
  have hstem := run_stem me asks earlier
  -- 途中の並びの問いは、初めの並びの同じ位置の問いである。
  obtain ⟨current, hcurrent, hsame⟩ := @exists_of_stem i { asks := asks } (run me asks earlier)
    hstem.symm ask hask
  have hcloud : current.ask.cloudId = ask.ask.cloudId := by
    rw [← current.stem_cloudId, hsame, ask.stem_cloudId]
  unfold settles at h
  rcases Option.or_eq_some_iff.mp h with hlink | ⟨-, hunlinked⟩
  · obtain ⟨other, id, hother, hid, hreply⟩ := linkedAsk_eq_some hlink
    rw [hcurrent, Option.some.injEq] at hother
    have hask' : ask.ask.cloudId = some id := by rw [← hcloud, hother, hid]
    exact ⟨by rw [hask', Option.isSome_some], e, he, .inl ⟨id, hask', hreply⟩⟩
  · obtain ⟨hno, hanswer, hmem, hwhich, hsome⟩ := unlinkedAsk_eq_some_iff.mp hunlinked
    rw [hcurrent, Option.any_some, hcloud] at hsome
    obtain ⟨waiting, hwaiting, hawaits⟩ := mem_positions.mp hmem
    rw [hcurrent, Option.some.injEq] at hwaiting
    have hreach : reaches me reply e ask = true := by
      rw [← reaches_eq_of_stem hsame, hwaiting]
      exact (awaits_eq_true_iff.mp hawaits).2
    refine ⟨hsome, e, he, .inr ⟨hno, hanswer, hreach, ?_⟩⟩
    have hnamed := @positions_named_congr reply { asks := asks } (run me asks earlier) hstem.symm
    rw [hnamed] at hwhich
    refine hwhich.imp_right fun ⟨hnone, hone⟩ => ⟨hnone, ?_⟩
    intro j other hj hother hreaches
    by_contra hopen
    obtain ⟨now, hnow, hsame'⟩ := @exists_of_stem j { asks := asks } (run me asks earlier)
      hstem.symm other hother
    have hj' : j ∈ positions (run me asks earlier).asks (awaits me reply e) := by
      refine mem_positions.mpr ⟨now, hnow, awaits_eq_true_iff.mpr ⟨?_, ?_⟩⟩
      · by_contra htrue
        exact hopen ⟨now, hnow, Bool.eq_true_of_not_eq_false htrue⟩
      · rw [reaches_eq_of_stem hsame', hreaches]
    rw [hone] at hj'
    exact hj (List.mem_singleton.mp hj')

/-- 答の来た問いには番号がある。 -/
theorem cloudId_of_leftOut (hopen : ∀ ask ∈ asks, ask.answered = false) (hask : asks[i]? = some ask)
    (h : LeftOut me asks replies i) : ask.ask.cloudId.isSome = true := by
  rcases exists_settled h with ⟨first, hfirst, hanswered⟩ | ⟨earlier, reply, later, -, -, hsettled⟩
  · rw [hopen first (List.mem_of_getElem? hfirst)] at hanswered
    cases hanswered
  · exact (settled_cases hask hsettled).1

theorem reaches_eq_true_iff {e : PeerEnvelope} :
    reaches me reply e ask = true ↔ ask.createdAt ≤ reply.arrivedAt ∧ ask.fromPeer e = true
      ∧ (reply.target = ask.senderName ∨ reply.target = me) := by
  unfold reaches
  simp [and_assoc]

/-- 番号の綴りが見落とされなければ、名指された問いの位置は、本文に番号のある問いの位置である。 -/
theorem mem_positions_named (hscan : ScansWhole asks) (hask : asks[i]? = some ask)
    (hid : ask.ask.cloudId.isSome = true) {j : Nat} {other : PendingAsk} (hj : j ≠ i)
    (hother : asks[j]? = some other) (hnames : reply.Names other) :
    j ∈ positions asks (named reply) := by
  obtain ⟨id, hcloud, htoken⟩ := hnames
  refine mem_positions.mpr ⟨other, hother, (Option.any_eq_true _ _).mpr ⟨id, hcloud, ?_⟩⟩
  exact hscan i j ask other id reply.body hj.symm hask hid hother hcloud htoken

theorem names_of_mem_positions (hask : asks[i]? = some ask) (h : i ∈ positions asks (named reply)) :
    reply.Names ask := by
  obtain ⟨current, hcurrent, hnamed⟩ := mem_positions.mp h
  rw [hask, Option.some.injEq] at hcurrent
  obtain ⟨id, hid, hnames⟩ := (Option.any_eq_true _ _).mp (hcurrent ▸ hnamed)
  exact ⟨id, hid, namesToken_of_namesAsk hnames⟩

/-- 取り違えられる問いが無ければ、名指しの無い答の外す問いのほかに、相手に待っている問いは無い。 -/
theorem leftOut_of_unconfused (hopen : ∀ ask ∈ asks, ask.answered = false)
    (hunconfused : Unconfused me asks) {earlier : List PeerReply} {e : PeerEnvelope} {a b : PendingAsk}
    {j : Nat} (he : reply.envelope? = some e) (ha : asks[i]? = some a) (hid : a.ask.cloudId.isSome = true)
    (hreach : reaches me reply e a = true)
    (hsole : ∀ k c, k ≠ i → asks[k]? = some c → reaches me reply e c = true → LeftOut me asks earlier k)
    (hj : j ≠ i) (hb : asks[j]? = some b) (hpeer : b.fromPeer e = true)
    (hsent : b.createdAt ≤ reply.arrivedAt) : LeftOut me asks earlier j := by
  by_contra hwait
  obtain ⟨hcreated, hfrom, htarget⟩ := reaches_eq_true_iff.mp hreach
  have hmiss : ¬ (reply.target = b.senderName ∨ reply.target = me) := fun h =>
    hwait (hsole j b hj hb (reaches_eq_true_iff.mpr ⟨hsent, hpeer, h⟩))
  obtain ⟨hother, hme⟩ := not_or.mp hmiss
  have hname : reply.target = a.senderName := htarget.resolve_right hme
  have hsigned : e.Signed := by
    obtain ⟨hparse, -⟩ := Option.filter_eq_some_iff.mp he
    exact signed_of_parseEnvelope hparse
  refine hunconfused i j a b e ⟨ha, hb, hid, ?_, ?_, hsigned, ⟨hfrom, hpeer⟩, ?_⟩
  · exact fun h => hother (hname.trans h)
  · exact fun h => hme (hname.trans h)
  · intro k c hk hc hsame hpeer' hbefore
    have hearly : c.createdAt ≤ reply.arrivedAt := hbefore.trans (max_le hcreated hsent)
    have hreaches : reaches me reply e c = true :=
      reaches_eq_true_iff.mpr ⟨hearly, hpeer', .inl (hname.trans hsame.symm)⟩
    exact cloudId_of_leftOut hopen hc (hsole k c hk hc hreaches)

/-- 取り違えが無く、綴りが見落とされなければ、段の外した問いには答が来ている。 -/
theorem answers_of_settled (hopen : ∀ ask ∈ asks, ask.answered = false)
    (hunconfused : Unconfused me asks) (hscan : ScansWhole asks) {earlier : List PeerReply}
    (hask : asks[i]? = some ask) (hwait : ¬ LeftOut me asks earlier i)
    (h : settled me (run me asks earlier) reply = some i) :
    Answers me asks earlier reply i ask := by
  obtain ⟨hid, e, he, hlink | ⟨hno, hanswer, hreach, hwhich⟩⟩ := settled_cases hask h
  · exact ⟨e, he, .inl hlink⟩
  refine ⟨e, he, .inr ⟨hno, hanswer, hreach, ?_⟩⟩
  have hnamed : ∀ j other, j ≠ i → asks[j]? = some other → reply.Names other →
      j ∈ positions asks (named reply) := fun _ _ => mem_positions_named hscan hask hid
  rcases hwhich with hone | ⟨hnone, hsole⟩
  · refine .inl ⟨names_of_mem_positions hask (hone ▸ List.mem_singleton_self i), ?_⟩
    intro j other hj hother hnames
    have hmem := hnamed j other hj hother hnames
    rw [hone] at hmem
    exact hj (List.mem_singleton.mp hmem)
  · have hothers : ∀ j other, j ≠ i → asks[j]? = some other → ¬ reply.Names other := by
      intro j other hj hother hnames
      have hmem := hnamed j other hj hother hnames
      rw [hnone] at hmem
      exact absurd hmem List.not_mem_nil
    by_cases hself : reply.Names ask
    · exact .inl ⟨hself, hothers⟩
    · refine .inr ⟨?_, hwait, ?_⟩
      · intro other hmem hnames
        obtain ⟨j, hj⟩ := List.mem_iff_getElem?.mp hmem
        by_cases hij : j = i
        · subst hij
          rw [hask, Option.some.injEq] at hj
          exact hself (hj ▸ hnames)
        · exact hothers j other hij hj hnames
      · exact fun j other hj hother =>
          leftOut_of_unconfused hopen hunconfused he hask hid hreach hsole hj hother

end Replay

/-! ## 取り違えを起こす返事 -/

/-- 本文が番号を名指さない文字だけからなれば、それより短い番号は名指されない。 -/
theorem not_namesToken_replicate {id : Text} {n : Nat} (h : id.length < n) :
    ¬ NamesToken (List.replicate n 'a') id := by
  rintro ⟨pre, post, hbody, hpre, hpost⟩
  have hpart : ∀ c ∈ pre ++ (id ++ post), tokenPart c = true := by
    intro c hc
    rw [← hbody] at hc
    rw [List.eq_of_mem_replicate hc]
    decide
  have hnil : pre = [] := by
    by_contra hne
    obtain ⟨last, hlast⟩ := Option.ne_none_iff_exists'.mp (mt List.getLast?_eq_none_iff.mp hne)
    have htoken := hpart last (List.mem_append_left _ (List.mem_of_getLast? hlast))
    rw [hlast, Option.any_some, htoken] at hpre
    cases hpre
  have hnil' : post = [] := by
    cases post with
    | nil => rfl
    | cons c post =>
      have htoken := hpart c (by simp)
      rw [List.head?_cons, Option.any_some, htoken] at hpost
      cases hpost
  rw [hnil, hnil', List.nil_append, List.append_nil] at hbody
  rw [← hbody, List.length_replicate] at h
  exact Nat.lt_irrefl n h

/-- どの番号よりも長い長さ。 -/
theorem exists_longer (asks : List PendingAsk) :
    ∃ n, ∀ ask ∈ asks, ∀ id, ask.ask.cloudId = some id → id.toList.length < n := by
  induction asks with
  | nil => exact ⟨0, nofun⟩
  | cons ask asks ih =>
    obtain ⟨n, hn⟩ := ih
    refine ⟨max n ((ask.ask.cloudId.map fun id => id.toList.length + 1).getD 0), ?_⟩
    intro other hother id hid
    rcases List.mem_cons.mp hother with rfl | hother
    · rw [hid, Option.map_some, Option.getD_some]
      exact Nat.lt_of_lt_of_le (Nat.lt_succ_self _) (Nat.le_max_right _ _)
    · exact Nat.lt_of_lt_of_le (hn other hother id hid) (Nat.le_max_left _ _)

/-- 返事の番号。 -/
def replyId (n : Nat) : String := String.ofList (List.replicate (n + 1) 'r')

theorem replyId_inj {n k : Nat} (h : replyId n = replyId k) : n = k := by
  have hlen := congrArg List.length (String.ofList_injective h)
  rw [List.length_replicate, List.length_replicate] at hlen
  omega

/-- `e` の送り主からの答の封筒。 -/
def answerEnvelope (e : PeerEnvelope) (n : Nat) (inReplyTo : Option String) : PeerEnvelope where
  id := replyId n
  senderName := e.senderName
  senderAgentId := e.senderAgentId
  machine := e.machine
  repo := "r"
  inReplyTo := inReplyTo
  kind := some .answer

theorem filled_answerEnvelope {e : PeerEnvelope} (he : e.Signed) (n : Nat) {inReplyTo : Option String}
    (h : inReplyTo ≠ some "") : (answerEnvelope e n inReplyTo).Filled where
  id := by
    intro heq
    have hlist : List.replicate (n + 1) 'r' = [] := String.ofList_injective heq
    cases hlist
  senderName := he.senderName
  senderAgentId := he.senderAgentId
  machine := he.machine
  session := nofun
  repo := by
    show "r" ≠ ""
    decide
  inReplyTo := h

/-- 封筒を付けた返事。 -/
def replyOf (e : PeerEnvelope) (target : String) (arrivedAt : Int) (body : Text) : PeerReply where
  source := "peer:" ++ e.senderName ++ "@" ++ e.machine
  target := target
  prompt := String.ofList (renderEnvelope e ++ '\n' :: body)
  arrivedAt := arrivedAt

theorem envelope_replyOf {e : PeerEnvelope} (he : e.Filled) (target : String) (arrivedAt : Int)
    (body : Text) : (replyOf e target arrivedAt body).envelope? = some e := by
  unfold PeerReply.envelope?
  show (parseEnvelope (String.ofList (renderEnvelope e ++ '\n' :: body))).filter _ = _
  rw [parseEnvelope_renderEnvelope he, Option.filter_some]
  exact if_pos (decide_eq_true rfl)

theorem body_replyOf (e : PeerEnvelope) (target : String) (arrivedAt : Int) (body : Text) :
    (replyOf e target arrivedAt body).body = body := by
  have hplain : '\n' ∉ renderEnvelope e := by
    unfold renderEnvelope
    rw [PeerEnvelope.attributes_eq]
    exact PeerMailbox.newline_not_mem_line (by decide) e.plainKeys_fields.forall_mem
  have hsplit := @PeerMailbox.splitOnce_of_not_mem '\n' [] _ hplain body
  unfold PeerReply.body replyOf
  rw [String.toList_ofList, show renderEnvelope e ++ '\n' :: body = renderEnvelope e ++ (['\n'] ++ body)
    from rfl, hsplit]
  rfl

namespace Replay

variable {me : String} {asks : List PendingAsk} {e : PeerEnvelope} {t : Int}

/-- 問い `k` を番号で指す返事。 -/
def linkReply (me : String) (asks : List PendingAsk) (e : PeerEnvelope) (t : Int) (k : Nat) : PeerReply :=
  replyOf (answerEnvelope e k (asks[k]?.bind fun ask => ask.ask.cloudId)) me t []

theorem envelope_linkReply (hids : DistinctIds asks) (he : e.Signed) (t : Int) (k : Nat) :
    (linkReply me asks e t k).envelope?
      = some (answerEnvelope e k (asks[k]?.bind fun ask => ask.ask.cloudId)) := by
  refine envelope_replyOf (filled_answerEnvelope he k ?_) me t []
  intro h
  obtain ⟨ask, hask, hid⟩ := Option.bind_eq_some_iff.mp h
  exact hids.filled ask (List.mem_of_getElem? hask) hid

/-- 番号で指す返事は、その番号の問いに答える。 -/
theorem settled_linkReply (hids : DistinctIds asks) (he : e.Signed) {k : Nat} {ask : PendingAsk} {id : String}
    (hask : asks[k]? = some ask) (hid : ask.ask.cloudId = some id) {replies : List PeerReply}
    (hfresh : replyId k ∉ (run me asks replies).seen) :
    settled me (run me asks replies) (linkReply me asks e t k) = some k := by
  have hlink : linkedAsk asks (answerEnvelope e k (some id)) = some k := by
    refine List.findIdx?_eq_some_iff_getElem.mpr ?_
    obtain ⟨hlt, rfl⟩ := List.getElem?_eq_some_iff.mp hask
    refine ⟨hlt, decide_eq_true hid, fun j hj hsame => ?_⟩
    have heq := hids.distinct j k _ _ id (List.getElem?_eq_getElem (hj.trans hlt)) hask
      (of_decide_eq_true hsame) hid
    exact absurd heq (Nat.ne_of_lt hj)
  have hlinked : linkedAsk (run me asks replies).asks (answerEnvelope e k (some id)) = some k := by
    rw [← hlink]
    exact @linkedAsk_congr _ { asks := asks } (run me asks replies) (run_stem me asks replies).symm
  unfold settled
  rw [envelope_linkReply hids he, Option.bind_some, hask, Option.bind_some, hid]
  have hunseen : (answerEnvelope e k (some id)).id ∉ (run me asks replies).seen := hfresh
  have hspoken : ¬ (answerEnvelope e k (some id)).kind.any PeerMessageKind.isSilent = true := nofun
  rw [if_neg hunseen, if_neg hspoken, settles, hlinked, Option.some_or]

/-- 番号で指す返事を読んだ後は、指された問いにだけ答が来ている。 -/
theorem run_linkReplies (hopen : ∀ ask ∈ asks, ask.answered = false) (hids : DistinctIds asks)
    (he : e.Signed) {ks : List Nat} (hks : ks.Nodup)
    (hall : ∀ k ∈ ks, ∃ ask id, asks[k]? = some ask ∧ ask.ask.cloudId = some id) :
    (∀ n, LeftOut me asks (ks.map (linkReply me asks e t)) n ↔ n ∈ ks)
      ∧ ∀ x ∈ (run me asks (ks.map (linkReply me asks e t))).seen, ∃ k ∈ ks, x = replyId k := by
  induction ks using List.reverseRecOn with
  | nil =>
    refine ⟨fun n => iff_of_false ?_ List.not_mem_nil, fun x hx => absurd hx List.not_mem_nil⟩
    rintro ⟨ask, hask, hanswered⟩
    rw [hopen ask (List.mem_of_getElem? hask)] at hanswered
    cases hanswered
  | append_singleton ks k ih =>
    obtain ⟨hks', -, hdisjoint⟩ := List.nodup_append.mp hks
    obtain ⟨hleft, hseen⟩ := ih hks' fun k' hk' => hall k' (List.mem_append_left _ hk')
    obtain ⟨ask, id, hask, hid⟩ := hall k (List.mem_append_right _ (List.mem_singleton_self k))
    have hfresh : replyId k ∉ (run me asks (ks.map (linkReply me asks e t))).seen := by
      intro hmem
      obtain ⟨k', hk', heq⟩ := hseen _ hmem
      exact hdisjoint k' hk' k (List.mem_singleton_self k) (replyId_inj heq).symm
    have hsettled := @settled_linkReply me asks e t hids he k ask id hask hid _ hfresh
    obtain ⟨-, -, hanswered⟩ := step_cases me (run me asks (ks.map (linkReply me asks e t)))
      (linkReply me asks e t k)
    rw [List.map_append, List.map_singleton]
    refine ⟨fun n => ?_, fun x hx => ?_⟩
    · unfold LeftOut
      rw [run_append, List.foldl_cons, List.foldl_nil, hanswered, hsettled, List.mem_append,
        List.mem_singleton, Option.some.injEq, eq_comm (a := k)]
      exact or_congr_left (hleft n)
    · rw [run_append, List.foldl_cons, List.foldl_nil, mem_seen_step (envelope_linkReply hids he t k)] at hx
      rcases hx with rfl | hx
      · exact ⟨k, List.mem_append_right _ (List.mem_singleton_self k), rfl⟩
      · obtain ⟨k', hk', heq⟩ := hseen x hx
        exact ⟨k', List.mem_append_left _ hk', heq⟩

/-- `i` の名前で送った、番号のあるほかの問い。 -/
def sameName (asks : List PendingAsk) (i : Nat) (a : PendingAsk) : List Nat :=
  positions asks (fun c => decide (c.senderName = a.senderName) && c.ask.cloudId.isSome) |>.filter (· ≠ i)

theorem mem_sameName {i k : Nat} {a : PendingAsk} :
    k ∈ sameName asks i a ↔ k ≠ i ∧ ∃ c, asks[k]? = some c ∧ c.senderName = a.senderName
      ∧ c.ask.cloudId.isSome = true := by
  unfold sameName
  rw [List.mem_filter, mem_positions, decide_eq_true_iff, and_comm]
  simp

/-- `i` の名前に宛てた、名指しの無い答。 -/
def plainReply (e : PeerEnvelope) (n : Nat) (name : String) (t : Int) (longer : Nat) : PeerReply :=
  replyOf (answerEnvelope e n none) name t (List.replicate longer 'a')

theorem envelope_plainReply (he : e.Signed) (n : Nat) (name : String) (t : Int) (longer : Nat) :
    (plainReply e n name t longer).envelope? = some (answerEnvelope e n none) :=
  envelope_replyOf (filled_answerEnvelope he n (Option.some_ne_none "").symm) name t _

theorem not_names_plainReply {longer : Nat}
    (hlonger : ∀ ask ∈ asks, ∀ id, ask.ask.cloudId = some id → id.toList.length < longer) (n : Nat)
    (name : String) {ask : PendingAsk} (hask : ask ∈ asks) :
    ¬ (plainReply e n name t longer).Names ask := by
  rintro ⟨id, hid, hnames⟩
  rw [plainReply, body_replyOf] at hnames
  exact not_namesToken_replicate (hlonger ask hask id hid) hnames

section Confused

variable {i j : Nat} {a b : PendingAsk}

/-- 同じ名前のほかの問いに答が来た後、名指しの無い答は `i` を外す。 -/
theorem settled_plainReply (hconf : Confusable me asks i j a b e) {longer : Nat}
    (hlonger : ∀ ask ∈ asks, ∀ id, ask.ask.cloudId = some id → id.toList.length < longer)
    {replies : List PeerReply}
    (hleft : ∀ n, LeftOut me asks replies n ↔ n ∈ sameName asks i a)
    (hseen : ∀ x ∈ (run me asks replies).seen, ∃ k ∈ sameName asks i a, x = replyId k) :
    settled me (run me asks replies) (plainReply e asks.length a.senderName
      (max a.createdAt b.createdAt) longer) = some i := by
  have hstem := run_stem me asks replies
  have hunseen : (answerEnvelope e asks.length none).id ∉ (run me asks replies).seen := by
    intro hmem
    obtain ⟨k, hk, heq⟩ := hseen _ hmem
    obtain ⟨-, c, hc, -⟩ := mem_sameName.mp hk
    have hlt := (List.getElem?_eq_some_iff.mp hc).1
    rw [← replyId_inj heq] at hlt
    exact Nat.lt_irrefl _ hlt
  have hspoken : ¬ (answerEnvelope e asks.length none).kind.any PeerMessageKind.isSilent = true := nofun
  unfold settled
  rw [envelope_plainReply hconf.signed, Option.bind_some, if_neg hunseen, if_neg hspoken]
  -- 待っている問いは、初めの並びの同じ位置の問いで言える。
  have hawaits : ∀ k, k ∈ positions (run me asks replies).asks (awaits me (plainReply e asks.length
      a.senderName (max a.createdAt b.createdAt) longer) (answerEnvelope e asks.length none)) ↔ k = i := by
    intro k
    rw [mem_positions]
    constructor
    · rintro ⟨now, hnow, hwait⟩
      obtain ⟨hclosed, hreach⟩ := awaits_eq_true_iff.mp hwait
      obtain ⟨c, hc, hsame⟩ := @exists_of_stem k (run me asks replies) { asks := asks } hstem now hnow
      rw [← reaches_eq_of_stem hsame] at hreach
      obtain ⟨hcreated, hpeer, htarget⟩ := reaches_eq_true_iff.mp hreach
      have hname : c.senderName = a.senderName :=
        (htarget.resolve_right hconf.notMe).symm
      by_contra hk
      have hmem : k ∈ sameName asks i a :=
        mem_sameName.mpr ⟨hk, c, hc, hname, hconf.rest k c hk hc hname hpeer hcreated⟩
      obtain ⟨now', hnow', hanswered⟩ := (hleft k).mpr hmem
      rw [hnow, Option.some.injEq] at hnow'
      rw [← hnow', hclosed] at hanswered
      cases hanswered
    · rintro rfl
      obtain ⟨now, hnow, hsame⟩ := @exists_of_stem k { asks := asks } (run me asks replies) hstem.symm a
        hconf.first
      refine ⟨now, hnow, awaits_eq_true_iff.mpr ⟨?_, ?_⟩⟩
      · by_contra htrue
        have hmem := (hleft k).mp ⟨now, hnow, Bool.eq_true_of_not_eq_false htrue⟩
        exact (mem_sameName.mp hmem).1 rfl
      · rw [reaches_eq_of_stem hsame]
        exact reaches_eq_true_iff.mpr ⟨le_max_left _ _, hconf.fromPeer.1, .inl rfl⟩
  have hnamed : positions (run me asks replies).asks (named (plainReply e asks.length a.senderName
      (max a.createdAt b.createdAt) longer)) = [] := by
    rw [@positions_named_congr _ { asks := asks } (run me asks replies) hstem.symm]
    refine List.eq_nil_iff_forall_not_mem.mpr fun k hk => ?_
    obtain ⟨c, hc, -⟩ := mem_positions.mp hk
    exact not_names_plainReply hlonger asks.length a.senderName (List.mem_of_getElem? hc)
      (names_of_mem_positions hc hk)
  have hsole : positions (run me asks replies).asks (awaits me (plainReply e asks.length a.senderName
      (max a.createdAt b.createdAt) longer) (answerEnvelope e asks.length none)) = [i] :=
    List.perm_singleton.mp ((List.perm_ext_iff_of_nodup (nodup_positions _)
      (List.nodup_singleton i)).mpr fun k => (hawaits k).trans List.mem_singleton.symm)
  obtain ⟨now, hnow, hsame⟩ := @exists_of_stem i { asks := asks } (run me asks replies) hstem.symm a
    hconf.first
  have hunlinked : linkedAsk (run me asks replies).asks (answerEnvelope e asks.length none) = none := rfl
  rw [settles, hunlinked, Option.none_or, unlinkedAsk_eq_some_iff]
  refine ⟨rfl, rfl, (hawaits i).mpr rfl, .inr ⟨hnamed, hsole⟩, ?_⟩
  rw [hnow, Option.any_some, ← now.stem_cloudId, hsame, a.stem_cloudId]
  exact hconf.cloudId

/-- 取り違えを起こす返事の列。 -/
def confusingReplies (me : String) (asks : List PendingAsk) (i : Nat) (a b : PendingAsk)
    (e : PeerEnvelope) (longer : Nat) : List PeerReply :=
  (sameName asks i a).map (linkReply me asks e (max a.createdAt b.createdAt))
    ++ [plainReply e asks.length a.senderName (max a.createdAt b.createdAt) longer]

theorem arrived_confusingReplies (hids : DistinctIds asks) (he : e.Signed) (i : Nat) (a b : PendingAsk)
    (longer : Nat) : Arrived (confusingReplies me asks i a b e longer) := by
  unfold Arrived confusingReplies
  refine List.pairwise_append.mpr ⟨?_, List.pairwise_singleton _ _, ?_⟩
  · have hnodup : (sameName asks i a).Nodup := (nodup_positions _).filter _
    refine List.pairwise_map.mpr (hnodup.imp fun {k k'} hne => ⟨le_rfl, ?_⟩)
    intro x hx y hy heq
    rw [envelope_linkReply hids he] at hx hy
    cases hx
    cases hy
    exact hne (replyId_inj heq).symm
  · intro r hr r' hr'
    obtain ⟨k, hk, rfl⟩ := List.mem_map.mp hr
    obtain ⟨-, c, hc, -⟩ := mem_sameName.mp hk
    have hlt := (List.getElem?_eq_some_iff.mp hc).1
    rw [List.mem_singleton.mp hr']
    refine ⟨le_rfl, ?_⟩
    intro x hx y hy heq
    rw [envelope_plainReply he] at hx
    rw [envelope_linkReply hids he] at hy
    cases hx
    cases hy
    exact Nat.ne_of_gt hlt (replyId_inj heq)

/-- 取り違えられる二つがあれば、答の来ていない問いを外す返事の列がある。 -/
theorem unsound_of_confusable (hopen : ∀ ask ∈ asks, ask.answered = false) (hids : DistinctIds asks)
    (hconf : Confusable me asks i j a b e) : ¬ SettlesSoundly me asks := by
  intro hsound
  obtain ⟨longer, hlonger⟩ := exists_longer asks
  have hnodup : (sameName asks i a).Nodup := (nodup_positions _).filter _
  obtain ⟨hleft, hseen⟩ := @run_linkReplies me asks e (max a.createdAt b.createdAt) hopen hids
    hconf.signed (sameName asks i a) hnodup fun k hk => by
      obtain ⟨-, c, hc, -, hid⟩ := mem_sameName.mp hk
      obtain ⟨id, hid⟩ := Option.isSome_iff_exists.mp hid
      exact ⟨c, id, hc, hid⟩
  have hsettled := settled_plainReply hconf hlonger hleft hseen
  have hout : LeftOut me asks (confusingReplies me asks i a b e longer) i := by
    unfold LeftOut confusingReplies
    rw [run_append, List.foldl_cons, List.foldl_nil]
    exact ((step_cases me _ _).2.2 i).mpr (.inr hsettled)
  obtain ⟨earlier, reply, later, hsplit, x, hx, hanswer⟩ := hsound _
    (arrived_confusingReplies hids hconf.signed i a b longer) i a hconf.first hout
  rcases List.eq_nil_or_concat' later with rfl | ⟨later, last, rfl⟩
  · -- 最後の答。`j` は待っている
    obtain ⟨rfl, hlast⟩ := List.append_inj' hsplit rfl
    cases hlast
    rw [envelope_plainReply hconf.signed] at hx
    cases hx
    rcases hanswer with ⟨id, -, hlink⟩ | ⟨-, -, -, ⟨hnames, -⟩ | ⟨-, -, hothers⟩⟩
    · cases hlink
    · exact not_names_plainReply hlonger asks.length a.senderName (List.mem_of_getElem? hconf.first) hnames
    · have hji : j ≠ i := by
        rintro rfl
        have hsame := hconf.first.symm.trans hconf.second
        rw [Option.some.injEq] at hsame
        exact hconf.name (congrArg PendingAsk.senderName hsame)
      have hmem := (hleft j).mp (hothers j b hji hconf.second hconf.fromPeer.2 (le_max_right _ _))
      obtain ⟨-, c, hc, hname, -⟩ := mem_sameName.mp hmem
      rw [hconf.second, Option.some.injEq] at hc
      exact hconf.name (hc ▸ hname).symm
  · -- 番号で指す返事。指しているのは別の問いである
    have hsplit' : (sameName asks i a).map (linkReply me asks e (max a.createdAt b.createdAt))
        = earlier ++ reply :: later := by
      rw [← List.cons_append, ← List.append_assoc] at hsplit
      exact (List.append_inj' hsplit rfl).1
    have hmem : reply ∈ (sameName asks i a).map (linkReply me asks e (max a.createdAt b.createdAt)) := by
      rw [hsplit']
      exact List.mem_append_right _ List.mem_cons_self
    obtain ⟨k, hk, rfl⟩ := List.mem_map.mp hmem
    obtain ⟨hki, c, hc, -, hid⟩ := mem_sameName.mp hk
    obtain ⟨id, hid⟩ := Option.isSome_iff_exists.mp hid
    rw [envelope_linkReply hids hconf.signed, hc, Option.bind_some, hid] at hx
    cases hx
    rcases hanswer with ⟨id', ha, hlink⟩ | ⟨hno, -⟩
    · cases hlink
      exact hki (hids.distinct k i c a id hc hconf.first hid ha)
    · cases hno

end Confused

end Replay

/-! ## 外れた問い -/

/--
**外れた問いに答が来ているのは、別の名前で送った問いと取り違えられないときである。**

番号が見落とされなければ、取り違えられる二つの無い問いの列では、どの返事の列でも、外れた問いに答が来ている。番号が空でなく
互いに違えば、そのような列はほかに無い。返るのは外れなかった問いであり、返事が一つ増えても、外れた問いは外れたままである。
-/
theorem open_asks_sound_iff (me : String) {asks : List PendingAsk}
    (hopen : ∀ ask ∈ asks, ask.answered = false) :
    (ScansWhole asks → Unconfused me asks → SettlesSoundly me asks)
      ∧ (DistinctIds asks → SettlesSoundly me asks → Unconfused me asks)
      ∧ (∀ replies, (openAsksOf me asks replies).map OpenPeerAsk.stem
        = ((List.range asks.length).filter fun i => ¬ LeftOut me asks replies i).filterMap
          fun i => asks[i]?.map fun ask => ask.ask.stem)
      ∧ ∀ before after extra, (∀ reply ∈ before ++ after, Replay.Distinct extra reply) → ∀ i,
        LeftOut me asks (before ++ after) i → LeftOut me asks (before ++ extra :: after) i := by
  refine ⟨?_, ?_, openAsksOf_stem me asks, ?_⟩
  · intro hscan hunconfused replies _ i ask hask hleft
    rcases Replay.exists_settled hleft with ⟨first, hfirst, hanswered⟩ | hsettled
    · rw [hopen first (List.mem_of_getElem? hfirst)] at hanswered
      cases hanswered
    · obtain ⟨earlier, reply, later, heq, hwait, hsettled⟩ := hsettled
      exact ⟨earlier, reply, later, heq,
        Replay.answers_of_settled hopen hunconfused hscan hask hwait hsettled⟩
  · intro hids hsound i j a b e hconf
    exact Replay.unsound_of_confusable hopen hids hconf hsound
  · intro before after extra hdistinct i hleft
    unfold LeftOut at hleft ⊢
    rw [Replay.run_append] at hleft ⊢
    refine (Replay.Ahead.foldl after ?_ (Replay.ahead_step me _ extra)).answered i hleft
    exact fun reply hreply => hdistinct reply (List.mem_append_right _ hreply)

/-- 同じ相手への問い。送った時の名前だけが違う。 -/
def askUnder (senderName cloudId : String) : PendingAsk where
  ask := { cloudId := some cloudId, recipient := "sup@box", body := "which port?" }
  senderName := senderName
  peerId := some "ag-2"
  createdAt := 5

/-- その相手からの、番号で指さない答。 -/
def answerTo (target body : String) : PeerReply where
  source := "peer:sup@box"
  target := target
  prompt := "<cas-peer-message v=\"1\" id=\"r-1\" from=\"sup\" from_agent=\"ag-2\" machine=\"box\"" ++
    " repo=\"r\" kind=\"answer\"/>\n" ++ body
  arrivedAt := 10

/-- 一つの名前で送った二つの問いは、名指した答で一つずつ外れる。別の名前で送った二つは取り違えられる。 -/
theorem open_asks_sound_iff_renamed :
    (∃ earlier reply later, [answerTo "new" "m-2 is 8080"] = earlier ++ reply :: later
      ∧ Answers "ag-1" [askUnder "new" "m-1", askUnder "new" "m-2"] earlier reply 1 (askUnder "new" "m-2"))
    ∧ ¬ SettlesSoundly "ag-1" [askUnder "old" "m-1", askUnder "new" "m-2"] := by
  have htoken : ∀ name name' : String, ∀ ask ∈ [askUnder name "m-1", askUnder name' "m-2"], ∀ id,
      ask.ask.cloudId = some id → TokenId id.toList := by
    intro name name' ask hask id hid
    simp only [List.mem_cons, List.not_mem_nil, or_false] at hask
    rcases hask with rfl | rfl
    · cases hid
      decide
    · cases hid
      decide
  refine ⟨?_, fun hsound => ?_⟩
  · have hsound := (@open_asks_sound_iff "ag-1" [askUnder "new" "m-1", askUnder "new" "m-2"] (by decide)).1
      (scansWhole_of_tokenId (htoken "new" "new")) (@unconfused_of_senderName "ag-1" "new" _ (by decide))
    exact hsound _ (List.pairwise_singleton _ _) 1 _ rfl (by decide +kernel)
  · have hids : DistinctIds [askUnder "old" "m-1", askUnder "new" "m-2"] := by
      have hnodup : ([askUnder "old" "m-1", askUnder "new" "m-2"].map (·.ask.cloudId)).Nodup := by decide
      refine ⟨by decide, fun i j a b id ha hb hid hid' => ?_⟩
      refine (List.getElem?_inj ?_ hnodup).mp ?_
      · rw [List.length_map]
        exact (List.getElem?_eq_some_iff.mp ha).1
      · rw [List.getElem?_map, List.getElem?_map, ha, hb, Option.map_some, Option.map_some, hid, hid']
    refine (@open_asks_sound_iff "ag-1" [askUnder "old" "m-1", askUnder "new" "m-2"] (by decide)).2.1 hids
      hsound 1 0 (askUnder "new" "m-2") (askUnder "old" "m-1")
      { id := "r", senderName := "sup", senderAgentId := "ag-2", machine := "box", repo := "r" } ?_
    refine ⟨rfl, rfl, rfl, by decide, by decide, ⟨by decide, by decide, by decide⟩, ⟨rfl, rfl⟩, ?_⟩
    intro k c _ hc _ _ _
    have hall : ∀ c ∈ [askUnder "old" "m-1", askUnder "new" "m-2"], c.ask.cloudId.isSome = true := by decide
    exact hall c (List.mem_of_getElem? hc)

/-- 相手に二つの問いが待っていても、答の宛名で送った方が外れる。その問いに答えた返事は無い。 -/
theorem other_name_still_open :
    LeftOut "ag-1" [askUnder "old" "m-1", askUnder "new" "m-2"] [answerTo "new" "use 8080"] 1
      ∧ ¬ ∃ earlier reply later, [answerTo "new" "use 8080"] = earlier ++ reply :: later
        ∧ Answers "ag-1" [askUnder "old" "m-1", askUnder "new" "m-2"] earlier reply 1
          (askUnder "new" "m-2") := by
  refine ⟨by decide +kernel, ?_⟩
  rintro ⟨earlier, reply, later, hsplit, e, he, hanswer⟩
  cases earlier with
  | cons first earlier => cases earlier <;> cases hsplit
  | nil =>
    cases hsplit
    have henvelope : (answerTo "new" "use 8080").envelope?.any (fun e => e.inReplyTo = none
        ∧ (askUnder "old" "m-1").fromPeer e = true) = true := by decide +kernel
    rw [he, Option.any_some, decide_eq_true_iff] at henvelope
    rcases hanswer with ⟨id, -, hlink⟩ | ⟨-, -, -, ⟨⟨id, hid, hnames⟩, -⟩ | ⟨-, -, hothers⟩⟩
    · rw [henvelope.1] at hlink
      cases hlink
    · cases hid
      have hscan := (@namesAsk_iff_of_tokenId _ "m-2".toList (by decide)).mpr hnames
      exact absurd hscan (by decide +kernel)
    · have hopen : ¬ LeftOut "ag-1" [askUnder "old" "m-1", askUnder "new" "m-2"] [] 0 := by decide +kernel
      exact hopen (hothers 0 _ (by decide) rfl henvelope.2 (by decide))

end Cassy
