import Mathlib.Data.List.Sort
import Mathlib.Data.String.Basic
import Cassy.Infra.Find
import Cassy.Notes.Markers
import Cassy.Prompt.Db

/-!
# 届かなかった伝言の知らせ

送り主に返す知らせの本文。知らせは hook の枠に収まらなければ誰にも見えないので、どの本文も枠の中に作る。

* `abandonment_batch_notice` — まとめて諦めた伝言の知らせ。番号は書けるだけ書き、残りは数だけを言う
* `abandonment_update_notice` — 操作者への続報の包み
* `fold_abandonment_line` — 読まれていない知らせに一件を足す。足せなくなれば数だけを増やす

長さは文字で数える。
-/

namespace Cassy

open Infra

/-! ## hook の枠 -/

/-- `HOOK_SURFACE_BUDGET_CHARS`。 -/
def hookSurfaceBudgetChars : Nat := 5000

/-- `HOOK_SURFACE_ROW_OVERHEAD_CHARS`。 -/
def hookSurfaceRowOverheadChars : Nat := 400

/-- `hook_surface_cost`。 -/
def hookSurfaceCost (prompt : Text) : Nat := (trim prompt).length + hookSurfaceRowOverheadChars

/-- `fits_hook_surface`。 -/
def fitsHookSurface (prompt : Text) : Bool := hookSurfaceCost prompt ≤ hookSurfaceBudgetChars

/-! ## 数の綴り -/

/-- 符号なし整数の `Display`。 -/
def natText (n : Nat) : Text := Nat.toDigits 10 n

/-- `i64` の `Display`。 -/
def i64Text (i : Int64) : Text :=
  match i.toInt with
  | .ofNat n => natText n
  | .negSucc n => '-' :: natText (n + 1)

/-- `u64::MAX`。 -/
def u64Max : Nat := 2 ^ 64 - 1

/-! ## 本文 -/

/-- `ABANDONMENT_MORE_SUFFIX`。 -/
def abandonmentMoreSuffix : Text :=
  " more abandoned this hour; see `message_status` for each.".toList

/-- 続きの数を言う最後の行。 -/
def moreLine (count : Nat) : Text := '+' :: natText count ++ abandonmentMoreSuffix

/-- 最も長い続きの行。 -/
def largestTrailer : Text := '\n' :: moreLine u64Max

/-- `abandonment_update_notice`。 -/
def abandonmentUpdateNotice (notice : Text) : Text :=
  "Update since the last Commander abandonment notice this hour: ".toList ++ notice
    ++ ("\nFurther Commander abandonments this hour are recorded on each message " ++
      "(`message_status`) without another notice.").toList

/-- 書かなかった番号の数。 -/
def omission (count : Nat) : Text :=
  " (".toList ++ natText count ++ " ids omitted; see `message_status`)".toList

/-- 包みと続きの行のために残す文字数。 -/
def noticeReserve : Nat := (abandonmentUpdateNotice []).length + largestTrailer.length

/-- 見出し。 -/
def batchHeader (count : Nat) (targets reasons : Text) : Text :=
  natText count ++ " messages to ".toList ++ targets ++ " were abandoned (".toList ++ reasons
    ++ ")".toList

/-- 見出しに使える文字数。 -/
def headerBudget (count : Nat) : Nat :=
  hookSurfaceBudgetChars
    - (hookSurfaceRowOverheadChars + noticeReserve + (omission count).length + "; ids ".utf8ByteSize
      + (i64Text Int64.minValue).length + 1)

/-- 枠に収めた見出し。切ったところには省略の印を置く。 -/
def shortHeader (count : Nat) (header : Text) : Text :=
  if headerBudget count < header.length then header.take (headerBudget count - 1) ++ ['…']
  else header

/-- 番号を書けるだけ書く。書けない番号があれば、残りの数を書いて終わる。 -/
def appendIds (count : Nat) : Nat → Text → List Int64 → Text
  | _, body, [] => body
  | index, body, id :: ids =>
    let separator := if index = 0 then [] else ", ".toList
    let candidate := body ++ separator ++ i64Text id
    let left := count - index - 1
    let suffix := if left = 0 then [] else omission left
    if hookSurfaceBudgetChars < hookSurfaceCost candidate + suffix.length + noticeReserve then
      body ++ omission (count - index)
    else appendIds count (index + 1) candidate ids

/-- `abandonment_batch_notice`。 -/
def abandonmentBatchNotice (ids : List Int64) (targets reasons : Text) : Text :=
  let header := batchHeader ids.length targets reasons
  appendIds ids.length 0 (shortHeader ids.length header ++ "; ids ".toList) ids

/-- 続きの行の前の本文と、続きの数。 -/
def splitMore (prompt : Text) : Text × Nat :=
  match rsplitOnceNewline prompt with
  | some (head, last) =>
    if ['+'].isPrefixOf last && endsWith abandonmentMoreSuffix last then
      (head, (parseUnsigned u64Max
        ((last.drop 1).take (last.length - abandonmentMoreSuffix.length - 1))).getD 0)
    else (prompt, 0)
  | none => (prompt, 0)

/-- `fold_abandonment_line`。 -/
def foldAbandonmentLine (prompt notice : Text) (messageCount : UInt64) : Text :=
  let (body, more) := splitMore prompt
  let withLine := body ++ "\nAlso: ".toList ++ notice
  if more = 0 ∧ fitsHookSurface (withLine ++ largestTrailer) = true then withLine
  else body ++ '\n' :: moreLine (min (more + messageCount.toNat) u64Max)

/-!
## 本文の控えを送る相手

Claude Teams の宛先には、hook が全文を見せられる伝言は名指しだけを渡す。hook にも poll にも見せられないまま時が経てば、
本文を渡し直す。`teams_pointer_fallback_candidates` がその相手を選び、hook が見せられる本文かを SQL で測る。

時刻は `julianday` で比べる。その値は外から受け取る。
-/

/-! ## SQL の長さ -/

/-- `' ' || char(9) || char(10) || char(13)`。 -/
def isSqlBlank (c : Char) : Bool := c = ' ' || c = '\t' || c = '\n' || c = '\r'

/-- SQLite の `trim(X, Y)`。`Y` の文字だけを両端から落とす。 -/
def sqlTrim (t : Text) : Text := trimEndMatches isSqlBlank (t.dropWhile isSqlBlank)

/-- NUL。 -/
def nulChar : Char := Char.ofNat 0

/-- SQLite の `length`。最初の NUL の手前だけを文字で数える。 -/
def sqlLength (t : Text) : Nat := (t.takeWhile (· ≠ nulChar)).length

/-- `hook_surface_cost` を SQL で測って枠と比べる。 -/
def sqlFitsHookSurface (prompt : Text) : Bool :=
  sqlLength (sqlTrim prompt) + hookSurfaceRowOverheadChars ≤ hookSurfaceBudgetChars

/-! ## 選ぶ -/

/-- 長さの外の条件。 -/
def PromptDb.pointerUnread (db : PromptDb) (julianday : Time → Int) (session : String)
    (recipients : List String) (after before : Time) (r : PromptRow) (x : SeenRow) : Bool :=
  x.promptId = r.id && r.factorySession = some session && x.recipient ∈ recipients
    && (x.recipient = r.target || r.target = allWorkers) && !r.urgent
    && (r.target = allWorkers || r.ackedAt.isNone)
    && (db.acks.find? (r.id, x.recipient)).isNone && x.teamsBodyFallbackAt.isNone
    && stageDeliverable r.highestStage
    && (x.source = some .transportClaimed || x.source = some .transportDelivered)
    && julianday after ≤ julianday x.seenAt && julianday x.seenAt ≤ julianday before

/-- 選ばれる伝言と宛先の組。 -/
def PromptDb.pointerPairs (db : PromptDb) (julianday : Time → Int) (session : String)
    (recipients : List String) (after before : Time) : List (PromptRow × String) :=
  db.rows.flatMap fun r => (db.seen.rows.filter fun x =>
    db.pointerUnread julianday session recipients after before r x
      && sqlFitsHookSurface r.prompt.toList).map fun x => (r, x.recipient)

/-- `teams_pointer_fallback_candidates`。 -/
def PromptDb.teamsPointerFallbackCandidates (db : PromptDb) (julianday : Time → Int)
    (session : String) (recipients : List String) (after before : Time) (limit : Nat) :
    List (PromptRow × String) :=
  if recipients = [] ∨ limit = 0 then []
  else ((db.pointerPairs julianday session recipients after before).insertionSort fun a b =>
    a.1.id < b.1.id ∨ a.1.id = b.1.id ∧ a.2 ≤ b.2).take limit

end Cassy
