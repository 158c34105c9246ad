import Cassy.Infra.Run
import Cassy.Pty.InputQueue

/-!
# 入力は失われず、並びを変えず、二度報告されない

受け付けた塊は、書いて flush し終えた塊（`good`）、失敗にした塊（`bad`）、書いている塊、列の塊の順に並んでいる。この並びを
どの一歩も崩さないこと（`InputInv`）から、書いた byte の順序も、`done` の呼ばれる順序も、`buffered` の値も出る。

失敗にした塊があるのは、帳簿に失敗がついた後か、失敗した塊の帳簿を待つ間だけである。
-/

namespace Cassy.Pty

open Infra PaneInput

/-! ## 書く thread の手元 -/

/-- 手元の、結果の出た塊。 -/
def WriterPc.results : WriterPc → List (Chunk × WriteResult)
  | wrote c r => [(c, r)]
  | reporting calls => calls
  | _ => []

/-- 書いている塊。 -/
def WriterPc.inflight : WriterPc → List Chunk
  | writing c _ => [c]
  | _ => []

/-- 帳簿の済んでいない塊。 -/
def WriterPc.current : WriterPc → List Chunk
  | writing c _ => [c]
  | wrote c _ => [c]
  | _ => []

/-- 塊の長さの和。 -/
def totalBytes (cs : List Chunk) : Nat := (cs.map fun c => c.bytes.length).sum

/-- 失敗にした塊の結果。 -/
def failures (bad : List (Chunk × String)) : List (Chunk × WriteResult) :=
  bad.map fun x => (x.1, .error x.2)

/-- 書いた byte のうち、書き終えた塊に属さないもの。 -/
def PartOf (w : WriterPc) (bad : List (Chunk × String)) (part : List UInt8) : Prop :=
  match w, bad with
  | .writing c rest, _ => part ++ rest = c.bytes
  | _, [] => part = []
  | _, x :: _ => part <+: x.1.bytes

/-- 塊の並び。 -/
structure InputInv (s : PaneInput) (good : List Chunk) (bad : List (Chunk × String))
    (part : List UInt8) : Prop where
  finished : s.settled ++ s.writer.results = good.map (fun c => (c, .ok)) ++ failures bad
  flushed : s.flushed = good.length
  order : good ++ bad.map Prod.fst ++ s.writer.inflight ++ s.state.chunks = s.accepted
  handed : s.handed = good.flatMap Chunk.bytes ++ part
  rest : PartOf s.writer bad part
  /-- 失敗にした塊があるのは、失敗の後か、失敗した塊の帳簿の前である。 -/
  broken : bad ≠ [] → s.state.failed.isSome ∨ ∃ c e, s.writer = .wrote c (.error e)
  buffered : s.state.failed = none →
    s.state.buffered = totalBytes s.writer.current + totalBytes s.state.chunks
  drained : s.state.failed.isSome →
    s.state.buffered = 0 ∧ s.state.chunks = [] ∧ s.writer.current = []
  exited : s.writer = .exited → s.state.closed = true ∧ s.state.chunks = []

def Inv (s : PaneInput) : Prop := ∃ good bad part, InputInv s good bad part

@[simp] theorem totalBytes_nil : totalBytes [] = 0 := rfl

@[simp] theorem totalBytes_cons (c : Chunk) (cs : List Chunk) :
    totalBytes (c :: cs) = c.bytes.length + totalBytes cs := by
  simp [totalBytes]

@[simp] theorem totalBytes_append (cs ds : List Chunk) :
    totalBytes (cs ++ ds) = totalBytes cs + totalBytes ds := by
  simp [totalBytes]

theorem inv_start (cap : Nat) : Inv { cap } :=
  ⟨[], [], [], rfl, rfl, rfl, rfl, rfl, fun h => absurd rfl h, fun _ => rfl,
    fun h => absurd h Bool.false_ne_true, nofun⟩

section Step

variable {s s' : PaneInput} {data : List UInt8} {done : Option Nat} {control : Bool}

/-! ## 書き手の一歩 -/

/-- 受け付けた塊は列の後ろに着く。 -/
theorem enqueue_eq_ok (h : s.enqueue data done control = .ok s') :
    s.state.failed = none ∧ s.state.closed = false
      ∧ (control = false → 0 < s.state.buffered → s.state.buffered + data.length ≤ s.cap)
      ∧ s' = { s with
          state.chunks := s.state.chunks ++ [⟨data, done⟩]
          state.buffered := s.state.buffered + data.length
          state.receivedBytes := min (s.state.receivedBytes + data.length) (2 ^ 64 - 1)
          accepted := s.accepted ++ [⟨data, done⟩] } := by
  unfold enqueue at h
  split at h
  · cases h
  · next hfailed =>
    split at h
    · cases h
    · next hopen =>
      split at h
      · cases h
      · next hroom =>
        cases h
        rw [Bool.or_eq_true, not_or, Bool.not_eq_true] at hopen
        refine ⟨hfailed, hopen.1, fun hc hpos => ?_, rfl⟩
        by_contra hfull
        exact hroom (by simp [hc, hpos, Nat.lt_of_not_le hfull])

theorem inv_enqueue (hi : Inv s) (h : s.enqueue data done control = .ok s') : Inv s' := by
  obtain ⟨good, bad, part, hi⟩ := hi
  obtain ⟨hfailed, hopen, -, rfl⟩ := enqueue_eq_ok h
  refine ⟨good, bad, part, hi.finished, hi.flushed, ?_, hi.handed, hi.rest, hi.broken, fun hf => ?_,
    fun hf => ?_, fun hx => ?_⟩
  · show good ++ bad.map Prod.fst ++ s.writer.inflight ++ (s.state.chunks ++ [⟨data, done⟩]) = _
    rw [← List.append_assoc, hi.order]
  · show s.state.buffered + data.length = totalBytes s.writer.current + totalBytes (s.state.chunks ++ _)
    rw [hi.buffered hfailed, totalBytes_append, totalBytes_cons, totalBytes_nil, Nat.add_zero,
      Nat.add_assoc]
  · rw [show s.state.failed = none from hfailed] at hf
    cases hf
  · have hclosed := (hi.exited hx).1
    rw [hopen] at hclosed
    cases hclosed

/-! ## 書く thread の一歩 -/

theorem partOf_idle {w : WriterPc} {bad : List (Chunk × String)} {part : List UInt8}
    (h : w.current = []) : PartOf w bad part ↔ PartOf .ready bad part := by
  cases w with
  | writing c rest => cases h
  | wrote c r => cases h
  | _ => cases bad <;> exact Iff.rfl

section Inv

variable {good : List Chunk} {bad : List (Chunk × String)} {part : List UInt8}

/-- 塊を手に持っている間は、まだ失敗の帳簿がついていない。 -/
theorem InputInv.not_failed (hi : InputInv s good bad part) (h : s.writer.current ≠ []) :
    s.state.failed = none := by
  by_contra hf
  exact h (hi.drained (Option.isSome_iff_ne_none.mpr hf)).2.2

/-- 失敗の帳簿も、帳簿を待つ失敗も無ければ、失敗にした塊は無い。 -/
theorem InputInv.healthy (hi : InputInv s good bad part) (hf : s.state.failed = none)
    (hw : ∀ c e, s.writer ≠ .wrote c (.error e)) : bad = [] := by
  by_contra hb
  rcases hi.broken hb with h | ⟨c, e, h⟩
  · rw [hf] at h
    cases h
  · exact hw c e h

/-- 塊を手に持たない位置の間を移る。 -/
theorem InputInv.idle {w : WriterPc} {settled : List (Chunk × WriteResult)}
    (hi : InputInv s good bad part) (h : s.writer.current = []) (h' : w.current = [])
    (hfin : settled ++ w.results = s.settled ++ s.writer.results)
    (hx : w = .exited → s.state.closed = true ∧ s.state.chunks = []) :
    InputInv { s with writer := w, settled } good bad part where
  finished := hfin.trans hi.finished
  flushed := hi.flushed
  order := by
    have hflight : ∀ w : WriterPc, w.current = [] → w.inflight = [] := by
      intro w hw
      cases w with
      | writing c rest => cases hw
      | _ => rfl
    show good ++ bad.map Prod.fst ++ w.inflight ++ s.state.chunks = s.accepted
    rw [hflight w h', ← hi.order, hflight s.writer h]
  handed := hi.handed
  rest := (partOf_idle h').mpr ((partOf_idle h).mp hi.rest)
  broken := by
    intro hb
    rcases hi.broken hb with hf | ⟨c, e, hwrote⟩
    · exact Or.inl hf
    · rw [hwrote] at h
      cases h
  buffered := by
    intro hf
    show s.state.buffered = totalBytes w.current + _
    rw [h', hi.buffered hf, h]
  drained := fun hf => ⟨(hi.drained hf).1, (hi.drained hf).2.1, h'⟩
  exited := hx

theorem inv_pop (hi : Inv s) : Inv s.pop := by
  obtain ⟨good, bad, part, hi⟩ := hi
  unfold pop
  split
  · next hw =>
    have hcur : s.writer.current = [] := by rw [hw]; rfl
    split
    · next chunk chunks hq =>
      have hfailed : s.state.failed = none := by
        by_contra hf
        have hnil := (hi.drained (Option.isSome_iff_ne_none.mpr hf)).2.1
        rw [hq] at hnil
        cases hnil
      have hbad : bad = [] := hi.healthy hfailed fun c e => by rw [hw]; nofun
      subst hbad
      have hpart : part = [] := by
        have hrest := hi.rest
        rw [hw] at hrest
        exact hrest
      refine ⟨good, [], part, ?_, hi.flushed, ?_, hi.handed, ?_, fun h => absurd rfl h, fun _ => ?_,
        fun hf => ?_, nofun⟩
      · rw [← hi.finished, hw]
        rfl
      · rw [← hi.order, hw, hq]
        simp [WriterPc.inflight]
      · show part ++ chunk.bytes = chunk.bytes
        rw [hpart]
        rfl
      · show s.state.buffered = _
        rw [hi.buffered hfailed, hw, hq]
        simp [WriterPc.current]
      · rw [show s.state.failed = none from hfailed] at hf
        cases hf
    · next hq =>
      split
      · next hclosed =>
        refine ⟨good, bad, part, hi.idle hcur rfl ?_ fun _ => ⟨hclosed, hq⟩⟩
        rw [hw]
        rfl
      · exact ⟨good, bad, part, hi⟩
  · exact ⟨good, bad, part, hi⟩

theorem inv_report (hi : Inv s) : Inv s.report := by
  obtain ⟨good, bad, part, hi⟩ := hi
  unfold report
  split
  · next hw =>
    refine ⟨good, bad, part, hi.idle (by rw [hw]; rfl) rfl ?_ nofun⟩
    rw [hw]
    rfl
  · next call calls hw =>
    refine ⟨good, bad, part, hi.idle (by rw [hw]; rfl) rfl ?_ nofun⟩
    rw [hw]
    show (s.settled ++ [call]) ++ calls = s.settled ++ (call :: calls)
    rw [List.append_assoc]
    rfl
  · exact ⟨good, bad, part, hi⟩

theorem inv_writeSome (hi : Inv s) (n : Nat) : Inv (s.writeSome n) := by
  obtain ⟨good, bad, part, hi⟩ := hi
  unfold writeSome
  split
  · next chunk rest hw =>
    have hrest : part ++ rest = chunk.bytes := by
      have h := hi.rest
      rw [hw] at h
      exact h
    refine ⟨good, bad, part ++ rest.take n, ?_, hi.flushed, ?_, ?_, ?_, ?_, fun hf => ?_, fun hf => ?_,
      nofun⟩
    · rw [← hi.finished, hw]
      rfl
    · rw [← hi.order, hw]
      rfl
    · show s.handed ++ rest.take n = _
      rw [hi.handed, List.append_assoc]
    · show part ++ rest.take n ++ rest.drop n = chunk.bytes
      rw [List.append_assoc, List.take_append_drop, hrest]
    · intro hb
      rcases hi.broken hb with hf | ⟨c, e, hwrote⟩
      · exact Or.inl hf
      · rw [hw] at hwrote
        cases hwrote
    · rw [show s.state.buffered = _ from hi.buffered hf, hw]
      rfl
    · have hcur := (hi.drained hf).2.2
      rw [hw] at hcur
      cases hcur
  · exact ⟨good, bad, part, hi⟩

theorem inv_finish (hi : Inv s) (error : Option String) : Inv (s.finish error) := by
  obtain ⟨good, bad, part, hi⟩ := hi
  unfold finish
  split
  · next chunk rest text hw =>
    -- 失敗。書いている塊は、初めての失敗した塊になる
    have hfailed := hi.not_failed (by rw [hw]; nofun)
    have hbad : bad = [] := hi.healthy hfailed fun c e => by rw [hw]; nofun
    subst hbad
    have hrest : part ++ rest = chunk.bytes := by
      have h := hi.rest
      rw [hw] at h
      exact h
    have hfin := hi.finished
    have horder := hi.order
    rw [hw] at hfin horder
    refine ⟨good, [(chunk, text)], part, ?_, hi.flushed, ?_, hi.handed, ⟨rest, hrest⟩,
      fun _ => Or.inr ⟨chunk, text, rfl⟩, fun hf => ?_, fun hf => ?_, nofun⟩
    · show s.settled ++ [(chunk, .error text)] = _
      rw [show s.settled = good.map fun c => (c, WriteResult.ok) by simpa [WriterPc.results, failures]
        using hfin]
      rfl
    · rw [← horder]
      simp [WriterPc.inflight]
    · rw [show s.state.buffered = _ from hi.buffered hf, hw]
      rfl
    · rw [show s.state.failed = none from hfailed] at hf
      cases hf
  · next chunk hw =>
    have hfailed := hi.not_failed (by rw [hw]; nofun)
    have hbad : bad = [] := hi.healthy hfailed fun c e => by rw [hw]; nofun
    subst hbad
    have hrest : part ++ [] = chunk.bytes := by
      have h := hi.rest
      rw [hw] at h
      exact h
    have hfin := hi.finished
    have horder := hi.order
    rw [hw] at hfin horder
    refine ⟨good ++ [chunk], [], [], ?_, ?_, ?_, ?_, rfl, fun h => absurd rfl h, fun hf => ?_,
      fun hf => ?_, nofun⟩
    · show s.settled ++ [(chunk, .ok)] = _
      rw [show s.settled = good.map fun c => (c, WriteResult.ok) by simpa [WriterPc.results, failures]
        using hfin]
      simp [failures]
    · show s.flushed + 1 = _
      rw [hi.flushed, List.length_append, List.length_singleton]
    · rw [← horder]
      simp [WriterPc.inflight]
    · show s.handed = _
      rw [hi.handed, ← List.append_nil part, hrest]
      simp
    · rw [show s.state.buffered = _ from hi.buffered hf, hw]
      rfl
    · rw [show s.state.failed = none from hfailed] at hf
      cases hf
  · exact ⟨good, bad, part, hi⟩

theorem inv_book (hi : Inv s) : Inv s.book := by
  obtain ⟨good, bad, part, hi⟩ := hi
  unfold book
  split
  · next chunk result hw =>
    have hfailed := hi.not_failed (by rw [hw]; nofun)
    have hfin := hi.finished
    have horder := hi.order
    have hrest := hi.rest
    have hbuf := hi.buffered hfailed
    rw [hw] at hfin horder hrest hbuf
    cases result with
    | error text =>
      rw [hfailed]
      -- 後ろの塊も、同じ文で失敗にする
      refine ⟨good, bad ++ s.state.chunks.map fun c => (c, text), part, ?_, hi.flushed, ?_, hi.handed,
        ?_, fun _ => Or.inl rfl, nofun, fun _ => ⟨rfl, rfl, rfl⟩, nofun⟩
      · show s.settled ++ ((chunk, .error text) :: _) = _
        have hcons : s.settled ++ [(chunk, .error text)] = good.map (fun c => (c, .ok)) ++ failures bad :=
          hfin
        rw [← List.singleton_append, ← List.append_assoc, hcons]
        simp [failures, Function.comp_def]
      · rw [← horder]
        simp [WriterPc.inflight, Function.comp_def]
      · cases bad with
        | cons x bad => exact hrest
        | nil =>
          rw [show part = [] from hrest]
          cases hq : s.state.chunks with
          | nil => rfl
          | cons c cs => exact List.nil_prefix
    | ok =>
      have hbad : bad = [] := hi.healthy hfailed fun c e => by rw [hw]; nofun
      subst hbad
      refine ⟨good, [], part, hfin, hi.flushed, horder, hi.handed, hrest, fun h => absurd rfl h,
        fun _ => ?_, fun hf => ?_, nofun⟩
      · show s.state.buffered - chunk.bytes.length = _
        rw [hbuf]
        simp [WriterPc.current]
      · rw [show s.state.failed = none from hfailed] at hf
        cases hf
  · exact ⟨good, bad, part, hi⟩

end Inv

/-- どの一歩も、塊の並びを崩さない。 -/
theorem inputStep_inv (hi : Inv s) (a : InputAct) : Inv (inputStep s a).2 := by
  have henqueue : ∀ data done control, Inv (settleEnqueue s (s.enqueue data done control)).2 := by
    intro data done control
    cases h : s.enqueue data done control with
    | error e => exact hi
    | ok s' => exact inv_enqueue hi h
  cases a with
  | write data => exact henqueue data none false
  | writeThen data done => exact henqueue data (some done) false
  | writeControlThen data done => exact henqueue data done true
  | pause =>
    obtain ⟨good, bad, part, hi⟩ := hi
    exact ⟨good, bad, part, { hi with }⟩
  | resume =>
    obtain ⟨good, bad, part, hi⟩ := hi
    exact ⟨good, bad, part, { hi with }⟩
  | dropOwner =>
    obtain ⟨good, bad, part, hi⟩ := hi
    exact ⟨good, bad, part, { hi with exited := fun hx => ⟨rfl, (hi.exited hx).2⟩ }⟩
  | pop => exact inv_pop hi
  | writeSome n => exact inv_writeSome hi n
  | finish error => exact inv_finish hi error
  | book => exact inv_book hi
  | report => exact inv_report hi

/-! ## 失敗の後 -/

/-- 書くのに失敗した。帳簿はまだかもしれない。 -/
def PaneInput.Broken (s : PaneInput) : Prop :=
  s.state.failed.isSome ∨ ∃ c e, s.writer = .wrote c (.error e)

theorem settleEnqueue_frame (data : List UInt8) (done : Option Nat) (control : Bool) :
    (settleEnqueue s (s.enqueue data done control)).2.writer = s.writer
      ∧ (settleEnqueue s (s.enqueue data done control)).2.state.failed = s.state.failed
      ∧ (settleEnqueue s (s.enqueue data done control)).2.handed = s.handed
      ∧ (settleEnqueue s (s.enqueue data done control)).2.cap = s.cap := by
  cases h : s.enqueue data done control with
  | error e => exact ⟨rfl, rfl, rfl, rfl⟩
  | ok s' =>
    obtain ⟨-, -, -, rfl⟩ := enqueue_eq_ok h
    exact ⟨rfl, rfl, rfl, rfl⟩

theorem inputStep_cap (s : PaneInput) (a : InputAct) : (inputStep s a).2.cap = s.cap := by
  cases a with
  | write data => exact (settleEnqueue_frame data none false).2.2.2
  | writeThen data done => exact (settleEnqueue_frame data (some done) false).2.2.2
  | writeControlThen data done => exact (settleEnqueue_frame data done true).2.2.2
  | pop =>
    simp only [inputStep, pop]
    split
    · split
      · rfl
      · split <;> rfl
    · rfl
  | writeSome n =>
    simp only [inputStep, writeSome]
    split <;> rfl
  | finish error =>
    simp only [inputStep, finish]
    split <;> rfl
  | book =>
    simp only [inputStep, book]
    split
    · split <;> rfl
    · rfl
  | report =>
    simp only [inputStep, report]
    split <;> rfl
  | _ => rfl

/-- 失敗の後は、何も書かれない。 -/
theorem inputStep_broken (hi : Inv s) (hb : s.Broken) (a : InputAct) :
    (inputStep s a).2.Broken ∧ (inputStep s a).2.handed = s.handed := by
  have hnot : ∀ c rest, s.writer ≠ .writing c rest := by
    intro c rest hw
    rcases hb with hf | ⟨c', e, hwrote⟩
    · obtain ⟨good, bad, part, hi⟩ := hi
      have hcur := (hi.drained hf).2.2
      rw [hw] at hcur
      cases hcur
    · rw [hw] at hwrote
      cases hwrote
  have hframe : ∀ s' : PaneInput, s'.writer = s.writer → s'.state.failed = s.state.failed →
      s'.handed = s.handed → s'.Broken ∧ s'.handed = s.handed := by
    intro s' hw hf hh
    refine ⟨?_, hh⟩
    unfold PaneInput.Broken
    rw [hw, hf]
    exact hb
  have henqueue : ∀ data done control,
      (settleEnqueue s (s.enqueue data done control)).2.Broken
        ∧ (settleEnqueue s (s.enqueue data done control)).2.handed = s.handed := by
    intro data done control
    obtain ⟨hw, hf, hh, -⟩ := settleEnqueue_frame (s := s) data done control
    exact hframe _ hw hf hh
  have hfailed : ∀ w, s.writer = w → (∀ c e, w ≠ .wrote c (.error e)) → s.state.failed.isSome := by
    intro w hw hne
    rcases hb with hf | ⟨c, e, hwrote⟩
    · exact hf
    · exact absurd (hw.symm.trans hwrote) (hne c e)
  cases a with
  | write data => exact henqueue data none false
  | writeThen data done => exact henqueue data (some done) false
  | writeControlThen data done => exact henqueue data done true
  | pause => exact hframe _ rfl rfl rfl
  | resume => exact hframe _ rfl rfl rfl
  | dropOwner => exact hframe _ rfl rfl rfl
  | pop =>
    show s.pop.Broken ∧ s.pop.handed = s.handed
    unfold pop
    split
    · next hw =>
      have hf := hfailed _ hw nofun
      split
      · exact ⟨Or.inl hf, rfl⟩
      · split
        · exact ⟨Or.inl hf, rfl⟩
        · exact ⟨hb, rfl⟩
    · exact ⟨hb, rfl⟩
  | writeSome n =>
    show (s.writeSome n).Broken ∧ (s.writeSome n).handed = s.handed
    unfold writeSome
    split
    · next c rest hw => exact absurd hw (hnot c rest)
    · exact ⟨hb, rfl⟩
  | finish error =>
    show (s.finish error).Broken ∧ (s.finish error).handed = s.handed
    unfold finish
    split
    · next c rest text hw => exact absurd hw (hnot c rest)
    · next c hw => exact absurd hw (hnot c [])
    · exact ⟨hb, rfl⟩
  | book =>
    show s.book.Broken ∧ s.book.handed = s.handed
    unfold book
    split
    · next c r hw =>
      cases r with
      | ok => exact ⟨Or.inl (hfailed _ hw nofun), rfl⟩
      | error e =>
        cases hf : s.state.failed with
        | none => exact ⟨Or.inl rfl, rfl⟩
        | some text => exact ⟨Or.inl (Option.isSome_iff_exists.mpr ⟨text, hf⟩), rfl⟩
    · exact ⟨hb, rfl⟩
  | report =>
    show s.report.Broken ∧ s.report.handed = s.handed
    unfold report
    split
    · next hw => exact ⟨Or.inl (hfailed _ hw nofun), rfl⟩
    · next hw => exact ⟨Or.inl (hfailed _ hw nofun), rfl⟩
    · exact ⟨hb, rfl⟩

/-- 失敗の帳簿の後は、何も受け付けない。 -/
theorem inputStep_failed (hf : s.state.failed.isSome) (a : InputAct) :
    (inputStep s a).2.state.failed.isSome ∧ (inputStep s a).1 ≠ .accepted := by
  have henqueue : ∀ data done control,
      (settleEnqueue s (s.enqueue data done control)).2.state.failed.isSome
        ∧ (settleEnqueue s (s.enqueue data done control)).1 ≠ .accepted := by
    intro data done control
    cases h : s.enqueue data done control with
    | error e => exact ⟨hf, nofun⟩
    | ok s' =>
      rw [(enqueue_eq_ok h).1] at hf
      cases hf
  cases a with
  | write data => exact henqueue data none false
  | writeThen data done => exact henqueue data (some done) false
  | writeControlThen data done => exact henqueue data done true
  | pop =>
    refine ⟨?_, nofun⟩
    show s.pop.state.failed.isSome
    unfold pop
    split
    · split
      · exact hf
      · split <;> exact hf
    · exact hf
  | writeSome n =>
    refine ⟨?_, nofun⟩
    show (s.writeSome n).state.failed.isSome
    unfold writeSome
    split <;> exact hf
  | finish error =>
    refine ⟨?_, nofun⟩
    show (s.finish error).state.failed.isSome
    unfold finish
    split <;> exact hf
  | book =>
    refine ⟨?_, nofun⟩
    show s.book.state.failed.isSome
    unfold book
    split
    · split
      · rfl
      · exact hf
    · exact hf
  | report =>
    refine ⟨?_, nofun⟩
    show (s.report).state.failed.isSome
    unfold report
    split <;> exact hf
  | _ => exact ⟨hf, nofun⟩

end Step

/-! ## 実行の全体 -/

/-- 呼ばれるはずの `done`。書き終えた塊は `true`、そうでない塊は `false` で呼ばれる。 -/
def PaneInput.expectedCalls (s : PaneInput) : List (Nat × Bool) :=
  (s.accepted.take s.flushed).filterMap (fun c => c.done.map fun done => (done, true))
    ++ (s.accepted.drop s.flushed).filterMap (fun c => c.done.map fun done => (done, false))

/-- 呼ばれた `done` と、`Ok` で呼ばれたか。 -/
def PaneInput.callsMade (s : PaneInput) : List (Nat × Bool) := s.called.map fun x => (x.1, x.2.isOk)

/-- まだ書かれていない byte。書きかけの塊の残りと、列の塊である。 -/
def PaneInput.unwritten (s : PaneInput) : List UInt8 :=
  (match s.writer with
    | .writing _ rest => rest
    | _ => []) ++ s.state.chunks.flatMap Chunk.bytes

/-- どの状態でも成り立つこと。 -/
structure PaneLaws (s : PaneInput) : Prop where
  /-- 書いた byte は、受け付けた順である。 -/
  inOrder : s.handed <+: s.accepted.flatMap Chunk.bytes
  /-- 書くのに失敗しないうちは、受け付けた byte は書かれたか、これから書かれる。 -/
  conserved : ¬ s.Broken → s.handed ++ s.unwritten = s.accepted.flatMap Chunk.bytes
  /-- 書き終えたと数えた塊は、全部が書かれている。 -/
  whole : (s.accepted.take s.flushed).flatMap Chunk.bytes <+: s.handed
  buffered : s.state.failed = none →
    s.state.buffered = totalBytes s.writer.current + totalBytes s.state.chunks
  drained : s.state.failed.isSome → s.state.buffered = 0
  /-- `done` は、受け付けた順に、高々一度ずつ呼ばれる。 -/
  callbacks : s.callsMade <+: s.expectedCalls
  /-- thread が終わったときには、全部呼ばれている。 -/
  exited : s.writer = .exited → s.callsMade = s.expectedCalls

section Laws

variable {s : PaneInput} {good : List Chunk} {bad : List (Chunk × String)} {part : List UInt8}

/-- 結果の出た塊の列から、呼ばれる `done` の列。 -/
def resultCalls (l : List (Chunk × WriteResult)) : List (Nat × Bool) :=
  l.filterMap fun x => x.1.done.map fun done => (done, x.2.isOk)

theorem callsMade_eq (s : PaneInput) : s.callsMade = resultCalls s.settled := by
  unfold callsMade called resultCalls
  rw [List.map_filterMap]
  refine List.filterMap_congr fun x _ => ?_
  rw [Option.map_map]
  rfl

theorem resultCalls_finished (good : List Chunk) (bad : List (Chunk × String)) :
    resultCalls (good.map (fun c => (c, .ok)) ++ failures bad)
      = good.filterMap (fun c => c.done.map fun done => (done, true))
        ++ (bad.map Prod.fst).filterMap (fun c => c.done.map fun done => (done, false)) := by
  unfold resultCalls failures
  rw [List.filterMap_append, List.filterMap_map, List.filterMap_map, List.filterMap_map]
  rfl

theorem InputInv.accepted_eq (hi : InputInv s good bad part) :
    s.accepted.take s.flushed = good
      ∧ s.accepted.drop s.flushed = bad.map Prod.fst ++ s.writer.inflight ++ s.state.chunks := by
  rw [← hi.order, hi.flushed, List.append_assoc, List.append_assoc]
  refine ⟨List.take_left' rfl, ?_⟩
  rw [List.drop_left' rfl, List.append_assoc]

/-- 書きかけの byte は、次の塊の頭である。 -/
theorem InputInv.part_prefix (hi : InputInv s good bad part) :
    part <+: (bad.map Prod.fst ++ (s.writer.inflight ++ s.state.chunks)).flatMap Chunk.bytes := by
  have hrest := hi.rest
  cases hbad : bad with
  | cons x bad' =>
    subst hbad
    have hx : part <+: x.1.bytes := by
      cases hw : s.writer with
      | writing c rest =>
        have hne : s.writer.current ≠ [] := by rw [hw]; nofun
        cases hi.healthy (hi.not_failed hne) fun c e => by rw [hw]; nofun
      | _ =>
        rw [hw] at hrest
        exact hrest
    exact hx.trans (List.prefix_append _ _)
  | nil =>
    subst hbad
    cases hw : s.writer with
    | writing c rest =>
      rw [hw] at hrest
      have hc : part <+: c.bytes := ⟨rest, hrest⟩
      exact hc.trans (List.prefix_append _ _)
    | _ =>
      rw [hw] at hrest
      rw [show part = [] from hrest]
      exact List.nil_prefix

/-- 失敗していなければ、書かれた byte と残りを繋ぐと、受け付けた byte になる。 -/
theorem InputInv.conserved (hi : InputInv s good bad part) (hb : ¬ s.Broken) :
    s.handed ++ s.unwritten = s.accepted.flatMap Chunk.bytes := by
  obtain ⟨hfailed, hwrote⟩ := not_or.mp hb
  have hbad : bad = [] := hi.healthy (Option.not_isSome_iff_eq_none.mp hfailed)
    fun c e hw => hwrote ⟨c, e, hw⟩
  subst hbad
  have hrest := hi.rest
  unfold unwritten
  rw [← hi.order, hi.handed]
  cases hw : s.writer with
  | writing c rest =>
    rw [hw] at hrest
    have hc : part ++ rest = c.bytes := hrest
    simp [WriterPc.inflight, ← hc]
  | _ =>
    rw [hw] at hrest
    rw [show part = [] from hrest]
    simp [WriterPc.inflight]

theorem InputInv.paneLaws (hi : InputInv s good bad part) : PaneLaws s := by
  obtain ⟨htake, hdrop⟩ := hi.accepted_eq
  have hall : resultCalls (s.settled ++ s.writer.results) <+: s.expectedCalls := by
    unfold expectedCalls
    rw [hi.finished, resultCalls_finished, htake, hdrop, List.append_assoc, List.filterMap_append,
      ← List.append_assoc]
    exact List.prefix_append _ _
  refine ⟨?_, hi.conserved, ?_, hi.buffered, fun hf => (hi.drained hf).1, ?_, fun hx => ?_⟩
  · rw [← hi.order, hi.handed, List.append_assoc, List.append_assoc, List.flatMap_append]
    exact (List.prefix_append_right_inj _).mpr hi.part_prefix
  · rw [htake, hi.handed]
    exact List.prefix_append _ _
  · rw [callsMade_eq]
    refine List.IsPrefix.trans ?_ hall
    exact (List.prefix_append _ _).filterMap _
  · have hres : s.writer.results = [] := by rw [hx]; rfl
    have hflight : s.writer.inflight = [] := by rw [hx]; rfl
    have hfin := hi.finished
    rw [hres, List.append_nil] at hfin
    unfold expectedCalls
    rw [callsMade_eq, hfin, resultCalls_finished, htake, hdrop, hflight, (hi.exited hx).2]
    simp

end Laws

/-- 上限に従う受付である。 -/
def InputAct.capped : InputAct → Bool
  | .write _ => true
  | .writeThen .. => true
  | _ => false

/-- 受け付けた書き込みは、空の列に入るか、上限に収まる。 -/
theorem accepted_within_cap {s : PaneInput} {a : InputAct} (ha : a.capped = true)
    (h : (inputStep s a).1 = .accepted) :
    s.state.buffered = 0 ∨ (inputStep s a).2.state.buffered ≤ s.cap := by
  have henqueue : ∀ data done, (settleEnqueue s (s.enqueue data done false)).1 = .accepted →
      s.state.buffered = 0
        ∨ (settleEnqueue s (s.enqueue data done false)).2.state.buffered ≤ s.cap := by
    intro data done hacc
    cases he : s.enqueue data done false with
    | error e =>
      rw [he] at hacc
      cases hacc
    | ok s' =>
      obtain ⟨-, -, hroom, rfl⟩ := enqueue_eq_ok he
      rcases Nat.eq_zero_or_pos s.state.buffered with hzero | hpos
      · exact Or.inl hzero
      · exact Or.inr (hroom rfl hpos)
  cases a with
  | write data => exact henqueue data none h
  | writeThen data done => exact henqueue data (some done) h
  | _ => cases ha

/-- 受付の一歩が差し出す塊。 -/
def InputAct.offered : InputAct → Option Chunk
  | .write data => some ⟨data, none⟩
  | .writeThen data done => some ⟨data, some done⟩
  | .writeControlThen data done => some ⟨data, done⟩
  | _ => none

/-- 受け付けた一歩は、差し出された塊を控えの後ろに足す。ほかの一歩は控えを変えない。 -/
theorem inputStep_accepted (s : PaneInput) (a : InputAct) :
    (inputStep s a).2.accepted = s.accepted
      ++ if (inputStep s a).1 = .accepted then a.offered.toList else [] := by
  have henqueue : ∀ data done control,
      (settleEnqueue s (s.enqueue data done control)).2.accepted = s.accepted
        ++ if (settleEnqueue s (s.enqueue data done control)).1 = .accepted
          then (some (Chunk.mk data done)).toList else [] := by
    intro data done control
    cases h : s.enqueue data done control with
    | error e => simp [settleEnqueue]
    | ok s' =>
      obtain ⟨-, -, -, rfl⟩ := enqueue_eq_ok h
      simp [settleEnqueue]
  have hkeep : ∀ s' : PaneInput, s'.accepted = s.accepted → s'.accepted = s.accepted ++ [] :=
    fun s' h => h.trans (List.append_nil _).symm
  cases a with
  | write data => exact henqueue data none false
  | writeThen data done => exact henqueue data (some done) false
  | writeControlThen data done => exact henqueue data done true
  | pop =>
    refine hkeep s.pop ?_
    unfold pop
    split
    · split
      · rfl
      · split <;> rfl
    · rfl
  | writeSome n =>
    refine hkeep (s.writeSome n) ?_
    unfold writeSome
    split <;> rfl
  | finish error =>
    refine hkeep (s.finish error) ?_
    unfold finish
    split <;> rfl
  | book =>
    refine hkeep s.book ?_
    unfold book
    split
    · split <;> rfl
    · rfl
  | report =>
    refine hkeep s.report ?_
    unfold report
    split <;> rfl
  | pause => exact hkeep (s.setPaused true) rfl
  | resume => exact hkeep (s.setPaused false) rfl
  | dropOwner => exact hkeep s.dropOwner rfl

/-- 受け付けたと答えるのは、塊を差し出す一歩だけである。 -/
theorem offered_of_accepted {s : PaneInput} {a : InputAct} (h : (inputStep s a).1 = .accepted) :
    ∃ c, a.offered = some c := by
  cases a with
  | write | writeThen | writeControlThen => exact ⟨_, rfl⟩
  | _ => cases h

/-- どの順に書き手、持ち主、書く thread が進んでも守られること。 -/
structure InputLaws (cap : Nat) (acts : List InputAct) : Prop where
  laws : PaneLaws (run inputStep { cap } acts)
  /-- 受け付けたと答えた一歩では、差し出された塊が丁度一つ足される。 -/
  recorded : ∀ pre a post, acts = pre ++ a :: post →
    (inputStep (run inputStep { cap } pre) a).1 = .accepted → ∃ c, a.offered = some c
      ∧ (inputStep (run inputStep { cap } pre) a).2.accepted = (run inputStep { cap } pre).accepted ++ [c]
  /-- ほかの一歩では、何も足されない。 -/
  unrecorded : ∀ pre a post, acts = pre ++ a :: post →
    (inputStep (run inputStep { cap } pre) a).1 ≠ .accepted →
    (inputStep (run inputStep { cap } pre) a).2.accepted = (run inputStep { cap } pre).accepted
  capped : ∀ pre a post, acts = pre ++ a :: post → a.capped = true →
    (inputStep (run inputStep { cap } pre) a).1 = .accepted →
    (run inputStep { cap } pre).state.buffered = 0
      ∨ (inputStep (run inputStep { cap } pre) a).2.state.buffered ≤ cap
  /-- 書くのに失敗した後は、何も書かれない。 -/
  unwritten : ∀ pre post, acts = pre ++ post → (run inputStep { cap } pre).Broken →
    (run inputStep { cap } acts).handed = (run inputStep { cap } pre).handed
  /-- 失敗の帳簿の後は、どの一歩も受け付けたと答えない。 -/
  refused : ∀ pre mid a post, acts = pre ++ mid ++ a :: post →
    (run inputStep { cap } pre).state.failed.isSome →
    (inputStep (run inputStep { cap } (pre ++ mid)) a).1 ≠ .accepted
  unaccepted : ∀ pre post, acts = pre ++ post → (run inputStep { cap } pre).state.failed.isSome →
    (run inputStep { cap } acts).accepted = (run inputStep { cap } pre).accepted

theorem run_inv (cap : Nat) (acts : List InputAct) : Inv (run inputStep { cap } acts) :=
  run_invariant' (I := Inv) (fun _ a hi => inputStep_inv hi a) (inv_start cap)

theorem run_broken : ∀ {acts : List InputAct} {s : PaneInput}, Inv s → s.Broken →
    (run inputStep s acts).handed = s.handed
  | [], _, _, _ => rfl
  | a :: acts, s, hi, hb => by
    obtain ⟨hb', hh⟩ := inputStep_broken hi hb a
    have hrun : (run inputStep (inputStep s a).2 acts).handed = (inputStep s a).2.handed :=
      run_broken (inputStep_inv hi a) hb'
    exact hrun.trans hh

/-- 失敗の帳簿は消えない。 -/
theorem run_failed {acts : List InputAct} {s : PaneInput} (hf : s.state.failed.isSome) :
    (run inputStep s acts).state.failed.isSome :=
  run_invariant' (I := fun s : PaneInput => s.state.failed.isSome)
    (fun _ a h => (inputStep_failed h a).1) hf

/-- 失敗の帳簿の後は、控えに何も足されない。 -/
theorem run_unaccepted {acts : List InputAct} {s : PaneInput} (hf : s.state.failed.isSome) :
    (run inputStep s acts).accepted = s.accepted := by
  induction acts generalizing s with
  | nil => rfl
  | cons a acts ih =>
    obtain ⟨hf', hne⟩ := inputStep_failed hf a
    rw [run_cons, ih hf', inputStep_accepted, if_neg hne, List.append_nil]

/-- どの順に割り込んでも、入力は失われず、並びを変えず、二度報告されない。 -/
theorem input_queue_laws (cap : Nat) (acts : List InputAct) : InputLaws cap acts where
  laws := by
    obtain ⟨good, bad, part, hi⟩ := run_inv cap acts
    exact hi.paneLaws
  capped := by
    intro pre a post _ ha hacc
    have hcap : (run inputStep { cap } pre).cap = cap :=
      run_invariant' (I := fun s => s.cap = cap) (fun s a h => (inputStep_cap s a).trans h) rfl
    have h := accepted_within_cap ha hacc
    rwa [hcap] at h
  unwritten := by
    intro pre post hacts hb
    rw [hacts, run_append]
    exact run_broken (run_inv cap pre) hb
  recorded := by
    intro pre a post _ hacc
    obtain ⟨c, hc⟩ := offered_of_accepted hacc
    refine ⟨c, hc, ?_⟩
    rw [inputStep_accepted, if_pos hacc, hc]
    rfl
  unrecorded := by
    intro pre a post _ hacc
    rw [inputStep_accepted, if_neg hacc, List.append_nil]
  refused := by
    intro pre mid a post _ hf
    rw [run_append]
    exact (inputStep_failed (run_failed hf) a).2
  unaccepted := by
    intro pre post hacts hf
    rw [hacts, run_append]
    exact run_unaccepted hf

end Cassy.Pty
