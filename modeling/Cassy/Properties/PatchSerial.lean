import Cassy.Properties.WireRoundTrip
import Cassy.Task.ExecutionState

/-!
# patch の直列化

二つの `patch_execution_state` が割り込み合ったとき、後から書いた呼び出しは、先に書かれた
状態を自分の読んだ古い状態で上書きする。

* `patches_serialize_of_fresh` — どの書き込みも、読んだときのままの行に対して行われるなら、
  終わった呼び出しを書いた順に直列に実行したのと同じ状態が残る
* `crossedPatches_lose_phase` — 二つとも読んでから二つとも書くと、先の patch は消える
-/

namespace Cassy

open Infra

namespace PatchRun

variable {ι : Type} [DecidableEq ι] {sd : Serde} {taskId : String} {patch : ι → Json}

@[simp] theorem stored_setPc (s : PatchRun ι) (i : ι) (pc : PatchPc) :
    (s.setPc i pc).stored taskId = s.stored taskId := rfl

theorem pc_setPc_self (s : PatchRun ι) (i : ι) (pc : PatchPc) : (s.setPc i pc).pc i = pc :=
  if_pos rfl

theorem pc_setPc_of_ne (s : PatchRun ι) {i j : ι} (pc : PatchPc) (h : j ≠ i) :
    (s.setPc i pc).pc j = s.pc j := if_neg h

omit [DecidableEq ι] in
@[simp] theorem pc_write (s : PatchRun ι) (next : Json) (now : Time) :
    (s.write sd taskId next now).pc = s.pc := by
  unfold write
  split
  · rfl
  · split <;> rfl

omit [DecidableEq ι] in
/-- 書いた後に保存されているのは、書いた文字列である。 -/
theorem stored_write (s : PatchRun ι) (next : Json) (now : Time) :
    (s.write sd taskId next now).stored taskId = storedText sd next := by
  unfold write stored
  split
  · next hnone =>
    rw [hnone, Table.find?_delete]
    cases hf : s.states.find? taskId with
    | none => rfl
    | some r =>
      have hk : r.taskId = taskId := Table.key_of_find? hf
      simp [hk]
  · next state hsome =>
    rw [hsome]
    split
    · next h =>
      obtain ⟨r, hr⟩ := Option.isSome_iff_exists.mp h
      have hk : r.taskId = taskId := Table.key_of_find? hr
      simp [hr, hk]
    · next h =>
      have hnone : s.states.find? taskId = none := by simpa using h
      obtain ⟨states, hs⟩ := Table.insert?_isSome
        (t := s.states) (r := ⟨taskId, state, now⟩) hnone
      show ((s.states.insertOrIgnore ⟨taskId, state, now⟩).find? taskId).map _ = _
      rw [Table.insertOrIgnore, hs, Option.getD_some, Table.find?_insert? hs, if_pos rfl]
      rfl

end PatchRun

/-- 書き込みの文が、読んだときのままの行に対して流される。 -/
def FreshWrite {ι : Type} (taskId : String) (s : PatchRun ι) : PatchAct ι → Prop
  | .next i _ =>
    match s.pc i with
    | .write seen _ => s.stored taskId = seen
    | _ => True
  | .retry _ => True

instance {ι : Type} (taskId : String) (s : PatchRun ι) (a : PatchAct ι) :
    Decidable (FreshWrite taskId s a) :=
  match a with
  | .next i _ =>
    match h : s.pc i with
    | .write seen _ => decidable_of_iff (s.stored taskId = seen) (by rw [FreshWrite, h])
    | .validate | .read | .done _ => .isTrue (by rw [FreshWrite, h]; trivial)
  | .retry _ => .isTrue trivial

section Serial

variable {ι : Type} [DecidableEq ι] {sd : Serde} {taskId : String} {patch : ι → Json}
  {start : Option String}

/-- 終わった呼び出しを直列に実行した状態が残っている。 -/
structure Serialized (sd : Serde) (taskId : String) (patch : ι → Json) (start : Option String)
    (s : PatchRun ι) : Prop where
  /-- 終わった呼び出しの並びが、書いた順に取れる。 -/
  order : ∃ order : List ι, order.Nodup ∧ (∀ i, i ∈ order ↔ ∃ v, s.pc i = .done (.ok v))
    ∧ (order.map patch).foldlM (applyPatch sd) start = .ok (s.stored taskId)
  /-- 書こうとしている状態は、読んだ文字列から作られている。 -/
  computed : ∀ i seen v, s.pc i = .write seen v → nextExecutionState sd seen (patch i) = .ok v

/-- 保存されている文字列も、終わった呼び出しも変えない一歩。 -/
theorem Serialized.setPc {s : PatchRun ι} (h : Serialized sd taskId patch start s) {i : ι}
    {pc : PatchPc} (hold : ∀ v, s.pc i ≠ .done (.ok v)) (hnew : ∀ v, pc ≠ .done (.ok v))
    (hcomp : ∀ seen v, pc = .write seen v → nextExecutionState sd seen (patch i) = .ok v) :
    Serialized sd taskId patch start (s.setPc i pc) := by
  obtain ⟨⟨order, hnd, hmem, hfold⟩, hc⟩ := h
  refine ⟨⟨order, hnd, fun j => ?_, hfold⟩, fun j seen v hj => ?_⟩
  · rw [hmem j]
    by_cases hji : j = i
    · subst hji
      rw [PatchRun.pc_setPc_self]
      exact ⟨fun ⟨v, hv⟩ => absurd hv (hold v), fun ⟨v, hv⟩ => absurd hv (hnew v)⟩
    · rw [PatchRun.pc_setPc_of_ne s pc hji]
  · by_cases hji : j = i
    · subst hji
      rw [PatchRun.pc_setPc_self] at hj
      exact hcomp seen v hj
    · rw [PatchRun.pc_setPc_of_ne s pc hji] at hj
      exact hc j seen v hj

/-- 読んだままの行に書く一歩。書いた呼び出しが並びの末尾に加わる。 -/
theorem Serialized.write {s : PatchRun ι} (h : Serialized sd taskId patch start s) {i : ι}
    {seen : Option String} {v : Json} {now : Time} (hpc : s.pc i = .write seen v)
    (hfresh : s.stored taskId = seen) :
    Serialized sd taskId patch start ((s.write sd taskId v now).setPc i (.done (.ok v))) := by
  obtain ⟨⟨order, hnd, hmem, hfold⟩, hc⟩ := h
  have hi : i ∉ order := by
    intro hin
    obtain ⟨w, hw⟩ := (hmem i).mp hin
    rw [hpc] at hw
    exact absurd hw (by simp)
  have happly : applyPatch sd (s.stored taskId) (patch i) = .ok (storedText sd v) := by
    rw [applyPatch, hfresh, hc i seen v hpc]
    rfl
  refine ⟨⟨order ++ [i], ?_, fun j => ?_, ?_⟩, fun j seen' w hj => ?_⟩
  · exact List.nodup_append.mpr ⟨hnd, List.nodup_singleton i, by
      intro a ha b hb
      rw [List.mem_singleton.mp hb]
      rintro rfl
      exact hi ha⟩
  · rw [List.mem_append, List.mem_singleton, hmem j]
    by_cases hji : j = i
    · subst hji
      rw [PatchRun.pc_setPc_self]
      exact ⟨fun _ => ⟨v, rfl⟩, fun _ => Or.inr rfl⟩
    · rw [PatchRun.pc_setPc_of_ne _ _ hji, PatchRun.pc_write]
      simp [hji]
  · rw [PatchRun.stored_setPc, PatchRun.stored_write, List.map_append, List.foldlM_append, hfold,
      ok_bind]
    simp [happly]
  · by_cases hji : j = i
    · subst hji
      rw [PatchRun.pc_setPc_self] at hj
      exact absurd hj (by simp)
    · rw [PatchRun.pc_setPc_of_ne _ _ hji, PatchRun.pc_write] at hj
      exact hc j seen' w hj

/-- 一歩で保たれる。 -/
theorem Serialized.step {s : PatchRun ι} {a : PatchAct ι}
    (h : Serialized sd taskId patch start s) (hg : FreshWrite taskId s a) :
    Serialized sd taskId patch start (patchStep sd taskId patch s a).2 := by
  cases a with
  | retry i =>
    show Serialized sd taskId patch start (s.retry i)
    unfold PatchRun.retry
    cases hpc : s.pc i with
    | done r => exact h
    | validate | read | write seen v =>
      exact h.setPc (by simp [hpc]) (by simp) (by simp)
  | next i now =>
    show Serialized sd taskId patch start (s.next sd taskId patch i now)
    unfold PatchRun.next
    cases hpc : s.pc i with
    | done r => exact h
    | validate =>
      dsimp only
      split
      · exact h.setPc (by simp [hpc]) (by simp) (by simp)
      · exact h.setPc (by simp [hpc]) (by simp) (by simp)
    | read =>
      dsimp only
      split
      · next v hv =>
        refine h.setPc (by simp [hpc]) (by simp) fun seen w he => ?_
        obtain ⟨rfl, rfl⟩ := PatchPc.write.inj he
        exact hv
      · exact h.setPc (by simp [hpc]) (by simp) (by simp)
    | write seen v =>
      rw [FreshWrite, hpc] at hg
      exact h.write hpc hg

end Serial

/-- 二つの呼び出しの並びは二通りしかない。 -/
theorem order_of_two {order : List Bool} (hnd : order.Nodup) (hf : false ∈ order)
    (ht : true ∈ order) : order = [false, true] ∨ order = [true, false] := by
  match order, hnd, hf, ht with
  | [a, b], hnd, hf, ht => cases a <;> cases b <;> simp_all
  | [a], _, hf, ht => cases a <;> simp_all
  | a :: b :: c :: rest, hnd, _, _ => cases a <;> cases b <;> cases c <;> simp_all

/-- 二つの patch を続けて当てる。 -/
def applyBoth (sd : Serde) (stored : Option String) (first second : Json) :
    Except StoreError (Option String) := do
  let stored ← applyPatch sd stored first
  applyPatch sd stored second

/--
**古い行に書かないかぎり、patch は失われない。**

二つの呼び出しのどの文がどの順に流れても、書き込みがいつも読んだままの行に対して行われるなら、
二つとも `Ok` を返した後の状態は、二つの patch をどちらかの順に続けて当てたものである。
-/
theorem patches_serialize_of_fresh {sd : Serde} {taskId : String} {patch : Bool → Json}
    {tasks : Table Task.id} {states : Table ExecutionStateRow.taskId}
    {acts : List (PatchAct Bool)}
    (hfresh : Guarded (patchStep sd taskId patch) (FreshWrite taskId) { tasks, states } acts)
    (hok : ∀ i, ∃ v, (run (patchStep sd taskId patch) { tasks, states } acts).pc i
      = .done (.ok v)) :
    let stored := (states.find? taskId).map ExecutionStateRow.state
    let final := (run (patchStep sd taskId patch) { tasks, states } acts).stored taskId
    applyBoth sd stored (patch false) (patch true) = .ok final
      ∨ applyBoth sd stored (patch true) (patch false) = .ok final := by
  intro stored final
  have hinv : Serialized sd taskId patch stored
      (run (patchStep sd taskId patch) { tasks, states } acts) := by
    refine run_invariant (fun s a h hg => h.step hg) ⟨⟨[], List.nodup_nil, ?_, rfl⟩, ?_⟩ hfresh
    · simp
    · simp
  obtain ⟨order, hnd, hmem, hfold⟩ := hinv.order
  rcases order_of_two hnd ((hmem false).mpr (hok false)) ((hmem true).mpr (hok true)) with
    rfl | rfl
  · exact Or.inl (by simpa [applyBoth, List.foldlM] using hfold)
  · exact Or.inr (by simpa [applyBoth, List.foldlM] using hfold)

/-! ## 割り込まれた例 -/

/-- 例に使う `serde_json`。文字列だけの object は実物と同じに書く。 -/
def sampleSerde : Serde where
  time := epochFormat
  print
    | .object m => "\x7b" ++ ",".intercalate (m.map fun e =>
        "\"" ++ e.1 ++ "\":\"" ++ (asStr? e.2).getD "" ++ "\"") ++ "\x7d"
    | _ => "null"
  parse
    | "\x7b\"phase\":\"review\"\x7d" => .ok (.object [("phase", .string "review")])
    | "\x7b\"next_step\":\"merge\"\x7d" => .ok (.object [("next_step", .string "merge")])
    | _ => .error "unused"
  describe _ := "unused"

/-- 一つの呼び出しは `phase` を、もう一つは `next_step` を書く。 -/
def samplePatch : Bool → Json
  | false => .object [("phase", .string "review")]
  | true => .object [("next_step", .string "merge")]

/-- task が一つあり、再開用の状態はまだ無い。 -/
def sampleTasks : Table Task.id := ⟨[{ id := "cas-a1b2" }], by decide⟩

/-- 呼び出しを順に最後まで進める。 -/
def serialActs : List (PatchAct Bool) :=
  [.next false 1, .next false 1, .next false 1, .next true 2, .next true 2, .next true 2]

/-- 二つとも読んでから、二つとも書く。 -/
def crossedActs : List (PatchAct Bool) :=
  [.next false 1, .next false 1, .next true 2, .next true 2, .next false 3, .next true 4]

theorem patches_serialize_of_fresh_serialActs :
    let s := run (patchStep sampleSerde "cas-a1b2" samplePatch)
      { tasks := sampleTasks, states := .empty } serialActs
    applyBoth sampleSerde none (samplePatch false) (samplePatch true)
        = .ok (s.stored "cas-a1b2")
      ∨ applyBoth sampleSerde none (samplePatch true) (samplePatch false)
        = .ok (s.stored "cas-a1b2") :=
  @patches_serialize_of_fresh sampleSerde "cas-a1b2" samplePatch sampleTasks .empty serialActs
    (by decide) (by
    intro i
    cases i
    · exact ⟨.object [("phase", .string "review")], by rfl⟩
    · exact ⟨.object [("phase", .string "review"), ("next_step", .string "merge")], by rfl⟩)

/-- 読みが交差すると、先に書かれた `phase` が消える。どちらの順に当てた結果とも違う。 -/
theorem crossedPatches_lose_phase :
    let s := run (patchStep sampleSerde "cas-a1b2" samplePatch)
      { tasks := sampleTasks, states := .empty } crossedActs
    (∀ i, ∃ v, s.pc i = .done (.ok v))
      ∧ s.stored "cas-a1b2" = some "\x7b\"next_step\":\"merge\"\x7d"
      ∧ applyBoth sampleSerde none (samplePatch false) (samplePatch true)
        ≠ .ok (s.stored "cas-a1b2")
      ∧ applyBoth sampleSerde none (samplePatch true) (samplePatch false)
        ≠ .ok (s.stored "cas-a1b2") := by
  refine ⟨fun i => ?_, by decide, by decide, by decide⟩
  cases i
  · exact ⟨.object [("phase", .string "review")], by rfl⟩
  · exact ⟨.object [("next_step", .string "merge")], by rfl⟩

end Cassy
