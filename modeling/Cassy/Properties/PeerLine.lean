import Cassy.Infra.Lines
import Cassy.Infra.Find
import Cassy.Cloud.PeerLine

/-!
# 相手に送る一行の往復

書き手の変えた文字は、読み手の六度の置き換えで元に戻る。`%` で始まる綴りは全て三文字なので、どの置き換えも綴りの境目を
またがない。`%` そのものは最後に戻すので、先に戻した文字が新しい綴りを作ることもない。

値の中に引用符と改行は残らない。だから属性は書いた通りに切れ、値は属性も行も終わらせない。
-/

namespace Cassy

open Infra

namespace PeerMailbox

/-! ## 置き換えの往復 -/

/-- `escape` の変える文字。 -/
def specials : List Char := ['%', '"', '<', '>', '\n', '\r']

/-- 変える文字の綴りは `%` と二文字である。 -/
theorem escapeChar_of_mem {c : Char} (h : c ∈ specials) :
    ∃ xs, escapeChar c = '%' :: xs ∧ '%' ∉ xs ∧ xs.length = 2 := by
  simp only [specials, List.mem_cons, List.not_mem_nil, or_false] at h
  rcases h with rfl | rfl | rfl | rfl | rfl | rfl
  · exact ⟨['2', '5'], rfl, by decide, rfl⟩
  · exact ⟨['2', '2'], rfl, by decide, rfl⟩
  · exact ⟨['3', 'C'], rfl, by decide, rfl⟩
  · exact ⟨['3', 'E'], rfl, by decide, rfl⟩
  · exact ⟨['0', 'A'], rfl, by decide, rfl⟩
  · exact ⟨['0', 'D'], rfl, by decide, rfl⟩

theorem escapeChar_of_not_mem {c : Char} (h : c ∉ specials) : escapeChar c = [c] := by
  simp only [specials, List.mem_cons, List.not_mem_nil, or_false, not_or] at h
  unfold escapeChar
  split
  · exact absurd rfl h.1
  · exact absurd rfl h.2.1
  · exact absurd rfl h.2.2.1
  · exact absurd rfl h.2.2.2.1
  · exact absurd rfl h.2.2.2.2.1
  · exact absurd rfl h.2.2.2.2.2
  · rfl

/-- 綴りから文字が分かる。 -/
theorem eq_of_escapeChar_eq {c x : Char} (hx : x ∈ specials) (h : escapeChar c = escapeChar x) :
    c = x := by
  by_cases hc : c ∈ specials
  · have hinj := List.forall_iff_forall_mem.mp
      (show List.Forall (fun a => List.Forall (fun b => escapeChar a = escapeChar b → a = b) specials)
        specials by decide)
    exact List.forall_iff_forall_mem.mp (hinj c hc) x hx h
  · obtain ⟨xs, hval, -, hlen⟩ := escapeChar_of_mem hx
    rw [escapeChar_of_not_mem hc, hval] at h
    obtain ⟨-, rfl⟩ := List.cons.inj h
    cases hlen

/-- 途中まで戻した綴り。`decoded` は、もう戻した文字である。 -/
def partly (decoded : List Char) (c : Char) : Text := if c ∈ decoded then [c] else escapeChar c

theorem framed_partly {decoded : List Char} (h : '%' ∉ decoded) (c : Char) :
    Framed '%' 2 (partly decoded c) := by
  unfold partly
  by_cases hc : c ∈ decoded
  · rw [if_pos hc]
    left
    rw [List.mem_singleton]
    rintro rfl
    exact h hc
  · rw [if_neg hc]
    by_cases hs : c ∈ specials
    · exact Or.inr (escapeChar_of_mem hs)
    · rw [escapeChar_of_not_mem hs]
      left
      rw [List.mem_singleton]
      rintro rfl
      exact hs List.mem_cons_self

/-- 一度の置き換えは、一つの文字を戻す。 -/
theorem replaceText_partly {decoded : List Char} (h : '%' ∉ decoded) {x : Char} (hx : x ∈ specials)
    (v : Text) : replaceText (escapeChar x) [x] (v.flatMap (partly decoded))
      = v.flatMap (partly (x :: decoded)) := by
  obtain ⟨xs, hval, -, hlen⟩ := escapeChar_of_mem hx
  have hframed : ∀ c, Framed '%' xs.length (partly decoded c) := by
    rw [hlen]
    exact framed_partly h
  rw [hval, replaceText_flatMap hframed, ← hval]
  refine congrArg (fun f => v.flatMap f) (funext fun c => ?_)
  unfold partly
  by_cases hc : c ∈ decoded
  · have hne : ¬ [c] = escapeChar x := by
      rw [hval]
      intro heq
      obtain ⟨-, rfl⟩ := List.cons.inj heq
      cases hlen
    rw [if_pos hc, if_neg hne, if_pos (List.mem_cons_of_mem x hc)]
  · by_cases hcx : c = x
    · subst hcx
      rw [if_neg hc, if_pos rfl, if_pos List.mem_cons_self]
    · have hnot : c ∉ x :: decoded := fun hmem => (List.mem_cons.mp hmem).elim hcx hc
      rw [if_neg hc, if_neg fun heq => hcx (eq_of_escapeChar_eq hx heq), if_neg hnot]

/-- 全ての文字を戻せば、元の文字である。 -/
theorem partly_all (c : Char) : partly ['%', '\r', '\n', '>', '<', '"'] c = [c] := by
  unfold partly
  by_cases hc : c ∈ ['%', '\r', '\n', '>', '<', '"']
  · exact if_pos hc
  · rw [if_neg hc]
    refine escapeChar_of_not_mem fun hs => hc ?_
    simp only [specials, List.mem_cons, List.not_mem_nil, or_false] at hs ⊢
    tauto

theorem unescape_escape (v : Text) : unescape (escape v) = v := by
  have hstart : escape v = v.flatMap (partly []) := rfl
  unfold unescape
  rw [hstart]
  rw [show "%22".toList = escapeChar '"' from rfl, show "%3C".toList = escapeChar '<' from rfl,
    show "%3E".toList = escapeChar '>' from rfl, show "%0A".toList = escapeChar '\n' from rfl,
    show "%0D".toList = escapeChar '\r' from rfl, show "%25".toList = escapeChar '%' from rfl]
  show replaceText _ ['%'] (replaceText _ ['\r'] (replaceText _ ['\n'] (replaceText _ ['>']
    (replaceText _ ['<'] (replaceText _ ['"'] _))))) = v
  rw [replaceText_partly (by decide) (by decide), replaceText_partly (by decide) (by decide),
    replaceText_partly (by decide) (by decide), replaceText_partly (by decide) (by decide),
    replaceText_partly (by decide) (by decide), replaceText_partly (by decide) (by decide)]
  rw [show partly ['%', '\r', '\n', '>', '<', '"'] = fun c => [c] from funext partly_all]
  exact List.flatMap_singleton' v

/-- 書かれた値に残る文字は、変えない文字か綴りの文字である。 -/
theorem not_mem_escape {d : Char} (hd : d ∈ ['"', '<', '>', '\n', '\r']) (v : Text) : d ∉ escape v := by
  intro hmem
  obtain ⟨c, -, hc⟩ := List.mem_flatMap.mp hmem
  by_cases hs : c ∈ specials
  · have hall := List.forall_iff_forall_mem.mp
      (show List.Forall (fun a => List.Forall (fun b => b ∉ escapeChar a) ['"', '<', '>', '\n', '\r'])
        specials by decide)
    exact List.forall_iff_forall_mem.mp (hall c hs) d hd hc
  · rw [escapeChar_of_not_mem hs, List.mem_singleton] at hc
    subst hc
    refine hs ?_
    simp only [specials, List.mem_cons, List.not_mem_nil, or_false] at hd ⊢
    tauto

/-! ## 属性を読む -/

/-- 区切りの頭が現れないところまでで切れる。 -/
theorem splitOnce_of_not_mem {d : Char} {ps w : Text} (hw : d ∉ w) (t : Text) :
    splitOnce (d :: ps) (w ++ (d :: ps ++ t)) = some (w, t) := by
  induction w with
  | nil =>
    have hpre : (d :: ps).isPrefixOf (d :: ps ++ t) = true :=
      List.isPrefixOf_iff_prefix.mpr (List.prefix_append _ _)
    rw [List.nil_append, List.cons_append] at *
    rw [splitOnce, if_pos hpre, ← List.cons_append, List.drop_left]
  | cons c w ih =>
    rw [List.mem_cons, not_or] at hw
    have hc : (d == c) = false := beq_eq_false_iff_ne.mpr hw.1
    rw [List.cons_append, splitOnce, List.isPrefixOf, hc, Bool.false_and, if_neg Bool.false_ne_true,
      ih hw.2]
    rfl

/-- 属性の名前。空白も `=` も含まない。 -/
def PlainKey (key : String) : Prop := key ≠ "" ∧ ∀ c ∈ key.toList, c ≠ '=' ∧ isWhitespace c = false

theorem trimStart_of_not_whitespace {c : Char} (h : isWhitespace c = false) (t : Text) :
    trimStart (c :: t) = c :: t :=
  List.dropWhile_cons_of_neg (by rw [h]; exact Bool.false_ne_true)

/-- 書かれた属性は、その通りに読まれる。 -/
theorem parseAttributes_cons {a : String × String} (ha : PlainKey a.1) (fuel : Nat) (t : Text)
    (acc : List (String × String)) :
    parseAttributes (fuel + 1) (renderAttribute a ++ t) acc = parseAttributes fuel t (a :: acc) := by
  obtain ⟨hne, hplain⟩ := ha
  have hkey : a.1.toList ≠ [] := fun h => hne (String.toList_eq_nil_iff.mp h)
  obtain ⟨c, cs, hcs⟩ := List.exists_cons_of_ne_nil hkey
  have hrest : renderAttribute a ++ t
      = ' ' :: (a.1.toList ++ ("=\"".toList ++ (escape a.2.toList ++ ("\"".toList ++ t)))) := by
    simp only [renderAttribute, List.cons_append, List.append_assoc, List.nil_append]
    rfl
  have htrim : trimStart (renderAttribute a ++ t)
      = a.1.toList ++ ("=\"".toList ++ (escape a.2.toList ++ ("\"".toList ++ t))) := by
    rw [hrest, hcs, List.cons_append, trimStart, List.dropWhile_cons_of_pos (by decide)]
    exact trimStart_of_not_whitespace (hplain c (hcs ▸ List.mem_cons_self)).2 _
  have hcut : splitOnce "=\"".toList
      (a.1.toList ++ ("=\"".toList ++ (escape a.2.toList ++ ("\"".toList ++ t))))
      = some (a.1.toList, escape a.2.toList ++ ("\"".toList ++ t)) :=
    splitOnce_of_not_mem (fun hmem => (hplain '=' hmem).1 rfl) _
  have hvalue : splitOnce "\"".toList (escape a.2.toList ++ ("\"".toList ++ t))
      = some (escape a.2.toList, t) :=
    splitOnce_of_not_mem (not_mem_escape (by decide) _) _
  have hempty : (a.1.toList ++ ("=\"".toList ++ (escape a.2.toList ++ ("\"".toList ++ t)))).isEmpty
      = false := by
    rw [hcs]
    rfl
  conv_lhs => unfold parseAttributes
  dsimp only
  rw [htrim, hempty, if_neg Bool.false_ne_true]
  rw [hcut, Option.bind_some, hvalue, Option.bind_some, unescape_escape, String.ofList_toList,
    String.ofList_toList]

theorem parseAttributes_flatMap {attributes : List (String × String)}
    (h : ∀ a ∈ attributes, PlainKey a.1) {fuel : Nat} (hfuel : attributes.length ≤ fuel)
    (acc : List (String × String)) :
    parseAttributes fuel (attributes.flatMap renderAttribute) acc
      = some (attributes.reverse ++ acc) := by
  induction attributes generalizing fuel acc with
  | nil => cases fuel <;> rfl
  | cons a rest ih =>
    cases fuel with
    | zero => cases hfuel
    | succ fuel =>
      rw [List.flatMap_cons, parseAttributes_cons (h a List.mem_cons_self),
        ih (fun b hb => h b (List.mem_cons_of_mem a hb)) (Nat.le_of_succ_le_succ hfuel),
        List.reverse_cons, List.append_assoc]
      rfl

/-! ## 一行を読む -/

/-- 属性の並び。版の属性の前には空白が無い。 -/
def body (attributes : List (String × String)) : Text :=
  "v=\"1\"".toList ++ attributes.flatMap renderAttribute

theorem length_le_flatMap (attributes : List (String × String)) :
    attributes.length ≤ (attributes.flatMap renderAttribute).length := by
  induction attributes with
  | nil => exact Nat.le_refl 0
  | cons a rest ih =>
    rw [List.flatMap_cons, List.length_append, List.length_cons, renderAttribute, List.length_cons]
    omega

/-- 版を含む全ての属性が、書いた順と逆の順で得られる。 -/
theorem parseAttributes_body {attributes : List (String × String)}
    (h : ∀ a ∈ attributes, PlainKey a.1) :
    parseAttributes (body attributes).length (body attributes) []
      = some (attributes.reverse ++ [("v", "1")]) := by
  have hfuel : (("v", "1") :: attributes).length ≤ (body attributes).length := by
    have hrest := length_le_flatMap attributes
    rw [body, List.length_append, List.length_cons]
    show attributes.length + 1 ≤ 5 + _
    omega
  have hall : ∀ a ∈ ("v", "1") :: attributes, PlainKey a.1 := by
    intro a ha
    rcases List.mem_cons.mp ha with rfl | ha
    · exact ⟨by decide, List.forall_iff_forall_mem.mp (by decide)⟩
    · exact h a ha
  have hparse := parseAttributes_flatMap hall hfuel []
  rw [List.reverse_cons, List.append_nil] at hparse
  rw [← hparse]
  cases (body attributes).length <;> rfl

/-- 書かれた行に改行は無い。 -/
theorem newline_not_mem_line {tag : Text} (htag : '\n' ∉ tag) {attributes : List (String × String)}
    (h : ∀ a ∈ attributes, PlainKey a.1) : '\n' ∉ attributeLine tag attributes := by
  unfold attributeLine
  simp only [List.mem_append, not_or]
  refine ⟨htag, by decide, ?_, by decide⟩
  intro hmem
  obtain ⟨a, ha, hc⟩ := List.mem_flatMap.mp hmem
  simp only [renderAttribute, List.mem_cons, List.mem_append] at hc
  rcases hc with hc | hc | hc | hc | hc
  · exact absurd hc (by decide)
  · have hwhite := ((h a ha).2 '\n' hc).2
    exact absurd hwhite (by decide)
  · exact absurd hc (by decide)
  · exact not_mem_escape (by decide) _ hc
  · exact absurd hc (by decide)

/-- 後ろに何が続いても、最初の行は書いた行である。 -/
theorem head_lines {tag : Text} (htag : '\n' ∉ tag) {attributes : List (String × String)}
    (h : ∀ a ∈ attributes, PlainKey a.1) (t : Text) :
    (lines (attributeLine tag attributes ++ '\n' :: t)).head? = some (attributeLine tag attributes) := by
  have hlast : (attributeLine tag attributes).getLast? = some '>' := by
    have hshape : attributeLine tag attributes
        = (tag ++ ("v=\"1\"".toList ++ (attributes.flatMap renderAttribute ++ ['/']))) ++ ['>'] := by
      simp only [attributeLine, List.append_assoc]
      rfl
    rw [hshape, List.getLast?_concat]
  have hstrip : stripLineEnd (attributeLine tag attributes ++ ['\n']) = attributeLine tag attributes := by
    unfold stripLineEnd
    rw [List.getLast?_concat, if_pos rfl, List.dropLast_concat, hlast, if_neg (by decide)]
  rw [lines, splitInclusive_append_newline (newline_not_mem_line htag h), List.map_cons, hstrip]
  rfl

theorem stripPrefix_append (pat t : Text) : stripPrefix pat (pat ++ t) = some t := by
  rw [stripPrefix, if_pos (List.isPrefixOf_iff_prefix.mpr (List.prefix_append pat t)), List.drop_left]

/-- 印と終わりを落とすと、属性の並びが残る。 -/
theorem stripPrefix_attributeLine (tag : Text) (attributes : List (String × String)) :
    stripPrefix tag (attributeLine tag attributes) = some (body attributes ++ "/>".toList) := by
  rw [attributeLine, stripPrefix_append, body, List.append_assoc]

theorem stripSuffix_body (attributes : List (String × String)) :
    stripSuffix "/>".toList (body attributes ++ "/>".toList) = some (body attributes) := by
  rw [stripSuffix, List.reverse_append, stripPrefix_append, Option.map_some, List.reverse_reverse]

/-! ## 属性を引く -/

theorem lookup_optional (key : String) (value : Option String) (k : String) :
    (optional key value).lookup k = if k = key then value else none := by
  cases value with
  | none =>
    rw [ite_self]
    rfl
  | some v =>
    show [(key, v)].lookup k = _
    rw [List.lookup_cons]
    by_cases hk : k = key
    · rw [if_pos hk, beq_iff_eq.mpr hk]
    · rw [if_neg hk, beq_eq_false_iff_ne.mpr hk]
      rfl

theorem reverse_optional (key : String) (value : Option String) :
    (optional key value).reverse = optional key value := by
  cases value <;> rfl

/-- 名前の違う欄の並びは、逆の順に並べても同じように引ける。 -/
theorem lookup_reverse {fields : List (String × Option String)} (h : (fields.map Prod.fst).Nodup)
    (k : String) : (fields.flatMap fun f => optional f.1 f.2).reverse.lookup k
      = (fields.lookup k).join := by
  induction fields with
  | nil => rfl
  | cons f rest ih =>
    rw [List.map_cons, List.nodup_cons] at h
    rw [List.flatMap_cons, List.reverse_append, List.lookup_append, ih h.2, reverse_optional,
      lookup_optional, List.lookup_cons]
    by_cases hk : k = f.1
    · have hnone : rest.lookup k = none := by
        rw [List.lookup_eq_none_iff]
        intro p hp
        refine bne_iff_ne.mpr fun heq => h.1 ?_
        rw [← hk, heq]
        exact List.mem_map_of_mem hp
      rw [hnone, if_pos hk, beq_iff_eq.mpr hk]
      rfl
    · rw [if_neg hk, beq_eq_false_iff_ne.mpr hk, Option.or_none]

/-- 欄の名前。 -/
def PlainKeys (fields : List (String × Option String)) : Prop :=
  (fields.map Prod.fst).Nodup ∧ (fields.map Prod.fst).Forall PlainKey

theorem PlainKeys.forall_mem {fields : List (String × Option String)} (h : PlainKeys fields) :
    ∀ a ∈ fields.flatMap fun f => optional f.1 f.2, PlainKey a.1 := by
  intro a ha
  obtain ⟨f, hf, ha⟩ := List.mem_flatMap.mp ha
  obtain ⟨v, -, rfl⟩ := Option.map_eq_some_iff.mp (Option.mem_toList.mp ha)
  exact List.forall_iff_forall_mem.mp h.2 f.1 (List.mem_map_of_mem hf)

instance decidablePlainKey (key : String) : Decidable (PlainKey key) :=
  decidable_of_iff (key ≠ "" ∧ key.toList.Forall fun c => c ≠ '=' ∧ isWhitespace c = false)
    (and_congr_right fun _ => List.forall_iff_forall_mem)

end PeerMailbox

open PeerMailbox

theorem PeerMessageKind.parse_asStr (kind : PeerMessageKind) : parse kind.asStr = some kind := by
  cases kind <;> decide

theorem PeerMessageKind.asStr_ne_empty (kind : PeerMessageKind) : kind.asStr ≠ "" := by
  cases kind <;> decide

theorem SplitKind.parse_asStr (kind : SplitKind) : parse kind.asStr = some kind := by
  cases kind <;> decide

/-! ## 封筒の往復 -/

/-- 封筒の文字列は、どれも空でない。 -/
structure PeerEnvelope.Filled (envelope : PeerEnvelope) : Prop where
  id : envelope.id ≠ ""
  senderName : envelope.senderName ≠ ""
  senderAgentId : envelope.senderAgentId ≠ ""
  machine : envelope.machine ≠ ""
  session : envelope.session ≠ some ""
  repo : envelope.repo ≠ ""
  inReplyTo : envelope.inReplyTo ≠ some ""

namespace PeerEnvelope

/-- 封筒の欄。 -/
def fields (e : PeerEnvelope) : List (String × Option String) :=
  [("id", some e.id), ("from", some e.senderName), ("from_agent", some e.senderAgentId),
    ("machine", some e.machine), ("session", e.session), ("repo", some e.repo),
    ("in_reply_to", e.inReplyTo), ("kind", e.kind.map PeerMessageKind.asStr),
    ("scope", if e.scope = .user then some "user" else none)]

theorem attributes_eq (e : PeerEnvelope) :
    e.attributes = e.fields.flatMap fun f => optional f.1 f.2 := by
  simp only [attributes, fields, List.append_assoc, List.flatMap_cons, List.flatMap_nil, List.append_nil]
  rfl

theorem plainKeys_fields (e : PeerEnvelope) : PlainKeys e.fields := by
  show (List.Nodup _) ∧ List.Forall _ _
  simp only [fields, List.map_cons, List.map_nil]
  exact ⟨by decide, by decide⟩

end PeerEnvelope

theorem filter_ne_empty {value : Option String} (h : value ≠ some "") :
    value.filter (· ≠ "") = value := by
  cases value with
  | none => rfl
  | some v =>
    have hv : v ≠ "" := fun heq => h (congrArg some heq)
    rw [Option.filter_some, if_pos (decide_eq_true hv)]

/-- 書いた順と逆の並びに版を足したものから引く。 -/
theorem lookup_of_fields {fields : List (String × Option String)} (h : PlainKeys fields) {k : String}
    {value : Option String} (hk : fields.lookup k = some value) (hv : k ≠ "v") :
    ((fields.flatMap fun f => optional f.1 f.2).reverse ++ [("v", "1")]).lookup k = value := by
  rw [List.lookup_append, lookup_reverse h.1, hk, List.lookup_cons,
    beq_eq_false_iff_ne.mpr hv, List.lookup_nil, Option.or_none]
  rfl

theorem attribute?_of_fields {fields : List (String × Option String)} (h : PlainKeys fields) {k : String}
    {value : Option String} (hk : fields.lookup k = some value) (hv : k ≠ "v") :
    attribute? ((fields.flatMap fun f => optional f.1 f.2).reverse ++ [("v", "1")]) k
      = value.filter (· ≠ "") := by
  rw [attribute?, lookup_of_fields h hk hv]

theorem lookup_version {fields : List (String × Option String)} (h : PlainKeys fields)
    (hv : fields.lookup "v" = none) :
    ((fields.flatMap fun f => optional f.1 f.2).reverse ++ [("v", "1")]).lookup "v" = some "1" := by
  rw [List.lookup_append, lookup_reverse h.1, hv]
  rfl

theorem parseEnvelope_renderEnvelope {e : PeerEnvelope} (h : e.Filled) (t : Text) :
    parseEnvelope (String.ofList (renderEnvelope e ++ '\n' :: t)) = some e := by
  have hplain := e.plainKeys_fields
  have hkeys := hplain.forall_mem
  have hsuffix : ∀ attributes, (stripPrefix ">/".toList (body attributes ++ "/>".toList).reverse).map
      List.reverse = some (body attributes) := stripSuffix_body
  unfold parseEnvelope
  rw [String.toList_ofList, renderEnvelope, PeerEnvelope.attributes_eq, head_lines (by decide) hkeys,
    Option.bind_eq_bind, Option.bind_some, stripPrefix_attributeLine, Option.bind_eq_bind,
    Option.bind_some, hsuffix, Option.bind_eq_bind, Option.bind_some, parseAttributes_body hkeys,
    Option.bind_eq_bind, Option.bind_some, lookup_version hplain rfl]
  rw [attribute?_of_fields hplain (k := "id") rfl (by decide),
    attribute?_of_fields hplain (k := "from") rfl (by decide),
    attribute?_of_fields hplain (k := "from_agent") rfl (by decide),
    attribute?_of_fields hplain (k := "machine") rfl (by decide),
    attribute?_of_fields hplain (k := "session") rfl (by decide),
    attribute?_of_fields hplain (k := "repo") rfl (by decide),
    attribute?_of_fields hplain (k := "in_reply_to") rfl (by decide),
    attribute?_of_fields hplain (k := "kind") rfl (by decide),
    attribute?_of_fields hplain (k := "scope") rfl (by decide)]
  have hsome : ∀ v : String, v ≠ "" → some v ≠ some "" := fun v hv heq => hv (Option.some.inj heq)
  have hkind : e.kind.map PeerMessageKind.asStr ≠ some "" := by
    intro heq
    obtain ⟨kind, -, hval⟩ := Option.map_eq_some_iff.mp heq
    exact PeerMessageKind.asStr_ne_empty kind hval
  have hscope : (if e.scope = .user then some "user" else none) ≠ some "" := by
    split <;> decide
  rw [filter_ne_empty (hsome _ h.id), filter_ne_empty (hsome _ h.senderName),
    filter_ne_empty (hsome _ h.senderAgentId), filter_ne_empty (hsome _ h.machine),
    filter_ne_empty h.session, filter_ne_empty (hsome _ h.repo), filter_ne_empty h.inReplyTo,
    filter_ne_empty hkind, filter_ne_empty hscope]
  have hparse : parseKind (e.kind.map PeerMessageKind.asStr) = some e.kind := by
    cases e.kind with
    | none => rfl
    | some kind => exact congrArg (Option.map some) kind.parse_asStr
  have hread : (if (if e.scope = .user then some "user" else none) = some "user" then PeerScope.user
      else .project) = e.scope := by
    cases e.scope <;> decide
  rw [hparse, hread]
  rfl

/-! ## 識別子の並びの往復 -/

/-- 区切られずに書ける識別子の並び。 -/
structure PlainIds (ids : List String) : Prop where
  nodup : ids.Nodup
  ne_empty : ∀ id ∈ ids, id ≠ ""
  plain : ∀ id ∈ ids, ∀ c ∈ id.toList, isIdSeparator c = false

theorem PlainIds.of_forall {ids : List String} (hnodup : ids.Nodup)
    (h : ids.Forall fun id => id ≠ "" ∧ id.toList.Forall fun c => isIdSeparator c = false) :
    PlainIds ids := by
  rw [List.forall_iff_forall_mem] at h
  exact ⟨hnodup, fun id hid => (h id hid).1, fun id hid => List.forall_iff_forall_mem.mp (h id hid).2⟩

theorem trim_of_plain {t : Text} (h : ∀ c ∈ t, isIdSeparator c = false) : trim t = t := by
  have hwhite : ∀ c ∈ t, ¬ isWhitespace c = true := by
    intro c hc hw
    have hsep := h c hc
    rw [isIdSeparator, hw, Bool.or_true] at hsep
    cases hsep
  have hdrop : ∀ l : Text, (∀ c ∈ l, ¬ isWhitespace c = true) → l.dropWhile isWhitespace = l := by
    intro l hl
    cases l with
    | nil => rfl
    | cons c l => exact List.dropWhile_cons_of_neg (hl c List.mem_cons_self)
  rw [trim, trimStart, hdrop t hwhite, trimEnd,
    hdrop t.reverse fun c hc => hwhite c (List.mem_reverse.mp hc), List.reverse_reverse]

/-- 区切りを含まない並びは、繋いで切ると元に戻る。 -/
theorem splitOnP_intercalate {ts : List Text} (hne : ts ≠ [])
    (h : ∀ t ∈ ts, ∀ c ∈ t, isIdSeparator c = false) :
    ([','].intercalate ts).splitOnP isIdSeparator = ts := by
  induction ts with
  | nil => exact absurd rfl hne
  | cons t rest ih =>
    have ht := h t List.mem_cons_self
    cases rest with
    | nil =>
      rw [List.intercalate_singleton]
      exact List.splitOnP_eq_singleton ht
    | cons u rest =>
      have hshape : [','].intercalate (t :: u :: rest) = t ++ ',' :: [','].intercalate (u :: rest) := rfl
      rw [hshape, List.splitOnP_append_cons_of_forall_mem ht ',' (by decide),
        ih (List.cons_ne_nil u rest) fun x hx => h x (List.mem_cons_of_mem t hx)]

/-- 新しい識別子だけが並ぶなら、全て足される。 -/
theorem foldl_pushId {ids acc : List String} (hnodup : (acc ++ ids).Nodup)
    (hne : ∀ id ∈ ids, id ≠ "") (hplain : ∀ id ∈ ids, ∀ c ∈ id.toList, isIdSeparator c = false) :
    (ids.map String.toList).foldl pushId acc = acc ++ ids := by
  induction ids generalizing acc with
  | nil => rw [List.append_nil]; rfl
  | cons id rest ih =>
    have hnew : id ∉ acc := by
      intro hmem
      exact (List.disjoint_of_nodup_append hnodup) hmem List.mem_cons_self
    have hany : acc.any (· = id) = false := by
      rw [List.any_eq_false]
      intro x hx heq
      exact hnew (of_decide_eq_true heq ▸ hx)
    have hpush : pushId acc id.toList = acc ++ [id] := by
      unfold pushId
      rw [trim_of_plain (hplain id List.mem_cons_self), String.ofList_toList]
      show (if (decide (id ≠ "") && !acc.any (· = id)) = true then acc ++ [id] else acc) = _
      rw [hany, decide_eq_true (hne id List.mem_cons_self)]
      rfl
    rw [List.map_cons, List.foldl_cons, hpush, ih, List.append_assoc]
    · rfl
    · rwa [List.append_assoc]
    · exact fun x hx => hne x (List.mem_cons_of_mem id hx)
    · exact fun x hx => hplain x (List.mem_cons_of_mem id hx)

theorem parseIds_joinIds {ids : List String} (h : PlainIds ids) : parseIds (joinIds ids) = ids := by
  unfold parseIds joinIds
  rw [String.toList_ofList]
  cases ids with
  | nil => rfl
  | cons id rest =>
    have hne : (id :: rest).map String.toList ≠ [] := List.cons_ne_nil _ _
    rw [splitOnP_intercalate hne, @foldl_pushId _ [] h.nodup h.ne_empty h.plain]
    · rfl
    · intro t ht
      obtain ⟨x, hx, rfl⟩ := List.mem_map.mp ht
      exact h.plain x hx

/-! ## 分割の知らせの往復 -/

namespace SplitMessage

/-- 書かれて読み戻せる知らせ。 -/
structure Plain (message : SplitMessage) : Prop where
  id : message.id ≠ ""
  proposerTakes : PlainIds message.proposerTakes
  peerTakes : PlainIds message.peerTakes
  reason : message.reason ≠ some ""

/-- 知らせの時刻は、書いて読めば元に戻る。 -/
def Timed (clock : TimeText) (message : SplitMessage) : Prop :=
  ∀ time ∈ message.time :: message.expiresAt.toList, clock.parse (clock.render time) = some time

/-- 知らせの欄。 -/
def fields (clock : TimeText) (m : SplitMessage) : List (String × Option String) :=
  [("kind", some m.kind.asStr), ("id", some m.id), ("epic", some m.epic),
    ("proposer_takes", some (joinIds m.proposerTakes)), ("peer_takes", some (joinIds m.peerTakes)),
    ("expires_at", m.expiresAt.map clock.render), ("at", some (clock.render m.time)),
    ("reason", m.reason)]

theorem attributes_eq (clock : TimeText) (m : SplitMessage) :
    m.attributes clock = (m.fields clock).flatMap fun f => optional f.1 f.2 := by
  simp only [attributes, fields, List.append_assoc, List.flatMap_cons, List.flatMap_nil, List.append_nil]
  rfl

theorem plainKeys_fields (clock : TimeText) (m : SplitMessage) : PlainKeys (m.fields clock) := by
  show (List.Nodup _) ∧ List.Forall _ _
  simp only [fields, List.map_cons, List.map_nil]
  exact ⟨by decide, by decide⟩

end SplitMessage

/-- 書かれた行は、空白で終わらない。 -/
theorem trimEnd_attributeLine (tag : Text) (attributes : List (String × String)) :
    trimEnd (attributeLine tag attributes) = attributeLine tag attributes := by
  have hend : trimEnd "/>".toList = "/>".toList := by decide
  have hne : trimEnd "/>".toList ≠ [] := by decide
  have hshape : attributeLine tag attributes
      = (tag ++ ("v=\"1\"".toList ++ attributes.flatMap renderAttribute)) ++ "/>".toList := by
    simp only [attributeLine, List.append_assoc]
  rw [hshape, trimEnd_append hne, hend]

theorem SplitMessage.parse_render {clock : TimeText} {m : SplitMessage} (h : m.Plain)
    (htimed : m.Timed clock) (t : Text) :
    SplitMessage.parse clock (m.render clock ++ '\n' :: t) = some m := by
  have hplain := m.plainKeys_fields clock
  have hkeys := hplain.forall_mem
  have hsome : ∀ v : String, v ≠ "" → some v ≠ some "" := fun v hv heq => hv (Option.some.inj heq)
  unfold SplitMessage.parse
  rw [SplitMessage.render, SplitMessage.attributes_eq, head_lines (by decide) hkeys,
    Option.bind_eq_bind, Option.bind_some, trimEnd_attributeLine, stripPrefix_attributeLine,
    Option.bind_eq_bind, Option.bind_some, stripSuffix_body, Option.bind_eq_bind, Option.bind_some,
    parseAttributes_body hkeys, Option.bind_eq_bind, Option.bind_some, lookup_version hplain rfl]
  rw [attribute?_of_fields hplain (k := "id") rfl (by decide),
    attribute?_of_fields hplain (k := "reason") rfl (by decide),
    lookup_of_fields hplain (k := "kind") rfl (by decide),
    lookup_of_fields hplain (k := "epic") rfl (by decide),
    lookup_of_fields hplain (k := "proposer_takes") rfl (by decide),
    lookup_of_fields hplain (k := "peer_takes") rfl (by decide),
    lookup_of_fields hplain (k := "expires_at") rfl (by decide),
    lookup_of_fields hplain (k := "at") rfl (by decide),
    filter_ne_empty (hsome _ h.id), filter_ne_empty h.reason]
  have hkind : (some m.kind.asStr).bind SplitKind.parse = some m.kind := m.kind.parse_asStr
  have htime : (some (clock.render m.time)).bind clock.parse = some m.time :=
    htimed m.time List.mem_cons_self
  have hexpires : (m.expiresAt.map clock.render).bind clock.parse = m.expiresAt := by
    cases hexp : m.expiresAt with
    | none => rfl
    | some e =>
      refine htimed e (List.mem_cons_of_mem _ ?_)
      rw [hexp]
      exact List.mem_singleton_self e
  rw [hkind, htime, hexpires]
  simp only [Option.getD_some]
  rw [parseIds_joinIds h.proposerTakes, parseIds_joinIds h.peerTakes]
  rfl

/--
値を変えて戻せば元の値であり、封筒と知らせは、後ろに何が続いても書いた通りに読み戻される。
-/
theorem peer_lines_roundTrip {e : PeerEnvelope} (he : e.Filled) {clock : TimeText} {m : SplitMessage}
    (hm : m.Plain) (htimed : m.Timed clock) (v t : Text) :
    unescape (escape v) = v
      ∧ parseEnvelope (String.ofList (renderEnvelope e ++ '\n' :: t)) = some e
      ∧ SplitMessage.parse clock (m.render clock ++ '\n' :: t) = some m :=
  ⟨unescape_escape v, parseEnvelope_renderEnvelope he t, SplitMessage.parse_render hm htimed t⟩

/-- 属性の綴りを含む封筒と、改行を含む理由。 -/
def forgingEnvelope : PeerEnvelope where
  id := "a\" scope=\"user"
  senderName := "fox%22/>"
  senderAgentId := "agent%2522\r\n"
  machine := "m"
  repo := " <cas-peer-message v=\"1\"/>"
  kind := some .ask

def forgingReason : SplitMessage where
  kind := .reject
  id := "split-1"
  epic := ""
  proposerTakes := ["cas-1", "cas-2"]
  peerTakes := []
  expiresAt := none
  time := seconds 1767225600
  reason := some "no\"/>\n<cas-epic-split v=\"1\""

/-- 一つの時刻だけの書き手。 -/
def newYear : TimeText where
  render time := if time = seconds 1767225600 then "2026-01-01T00:00:00+00:00" else ""
  parse s := if s = "2026-01-01T00:00:00+00:00" then some (seconds 1767225600) else none

theorem peer_lines_roundTrip_forged :
    unescape (escape "%250A\n".toList) = "%250A\n".toList
      ∧ parseEnvelope (String.ofList (renderEnvelope forgingEnvelope ++ '\n' :: "hello".toList))
        = some forgingEnvelope
      ∧ SplitMessage.parse newYear (forgingReason.render newYear ++ '\n' :: "hello".toList)
        = some forgingReason :=
  peer_lines_roundTrip
    ⟨by decide, by decide, by decide, by decide, by decide, by decide, by decide⟩
    ⟨by decide, .of_forall (by decide) (by decide), .of_forall (by decide) (by decide), by decide⟩
    (by
      intro time htime
      rw [List.mem_singleton.mp htime]
      rfl) _ _

end Cassy
