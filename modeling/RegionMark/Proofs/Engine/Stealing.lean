import RegionMark.Proofs.TaskQueue.Refinement
import RegionMark.Proofs.Scan.Slices
import RegionMark.Proofs.Engine.Exhaustion

/-!
# 盗みは仕事を見逃さない

盗み先はまず生成器で `2 n` 回引き、どれも空なら自分の次から順にすべて試す。順に巡る盗み先は自分以外の
`n` 個のキューをちょうど通るので、盗みが何も返さないのは自分以外のキューがどれも空のときに限る。
-/

namespace RegionMark

namespace TaskQueue

variable {α : Type} [Inhabited α] {q : TaskQueue α} {x : α}

theorem steal_fst_eq_none_iff : q.steal.1 = none ↔ q.isEmpty = true := by
  unfold steal isEmpty length positive
  split <;> simp_all <;> omega

theorem head?_items_of_steal (h : q.steal.1 = some x) : q.items.head? = some x := by
  unfold steal at h
  split at h
  · rename_i hpos
    have hn : 0 < Word.wrapSub q.bottom q.top := by simp [positive] at hpos; omega
    cases h
    rw [List.head?_eq_getElem?, List.getElem?_eq_getElem (by simpa using hn), getElem_items]
    simp
  · cases h

theorem mem_sweep {n k : Nat} : k ∈ (List.range n).drop 1 ↔ 1 ≤ k ∧ k < n := by
  rw [List.range_eq_range', List.drop_range', List.mem_range'_1]
  omega

end TaskQueue

namespace Engine

theorem queue_setIfInBounds {e : Engine} {v : Nat} (hv : v < e.queues.size)
    (q : TaskQueue TaskEntry) (u : Nat) :
    ({ e with queues := e.queues.setIfInBounds v q } : Engine).queue u = if v = u then q else e.queue u :=
  Array.getD_setIfInBounds e.queues u q default hv

end Engine

namespace Marking

/-! ## 順に巡る盗み先 -/

theorem sweep_covers {w n v : Nat} (hw : w < n) (hv : v < n) (hvw : v ≠ w) :
    ∃ k ∈ (List.range n).drop 1, v = (w + k) % n := by
  rcases Nat.lt_or_gt_of_ne hvw with hlt | hgt
  · -- `v < w`：最後のキューを越えて一周し、初めから数え直す
    refine ⟨v + n - w, TaskQueue.mem_sweep.2 ⟨by omega, by omega⟩, ?_⟩
    rw [show w + (v + n - w) = v + n by omega, Nat.add_mod_right, Nat.mod_eq_of_lt hv]
  · refine ⟨v - w, TaskQueue.mem_sweep.2 ⟨by omega, by omega⟩, ?_⟩
    rw [show w + (v - w) = v by omega, Nat.mod_eq_of_lt hv]

theorem sweep_avoids {w n k : Nat} (hw : w < n) (hk : k ∈ (List.range n).drop 1) :
    (w + k) % n < n ∧ (w + k) % n ≠ w := by
  obtain ⟨h1, h2⟩ := TaskQueue.mem_sweep.1 hk
  refine ⟨Nat.mod_lt _ (by omega), fun h => ?_⟩
  by_cases hwk : w + k < n
  · rw [Nat.mod_eq_of_lt hwk] at h
    omega
  · rw [Nat.mod_eq_sub_mod (by omega), Nat.mod_eq_of_lt (by omega)] at h
    omega

/-! ## 盗みの 1 回ずつ -/

/-- 盗みの結果 `r` とその後のエンジン `e'`。何も取らなければエンジンはそのまま。取ったなら、
`victim` を満たすキュー `v` からの盗みが返した項目で、キュー `v` だけが盗んだ後のものに置き換わる。 -/
def Stole (victim : Nat → Prop) (e : Engine) : Option TaskEntry → Engine → Prop
  | none, e' => e' = e
  | some x, e' => ∃ v, victim v ∧ (e.queue v).steal.1 = some x ∧
      e' = { e with queues := e.queues.setIfInBounds v (e.queue v).steal.2 }

theorem Stole.mono {victim victim' : Nat → Prop} {e e' : Engine} {r : Option TaskEntry}
    (h : Stole victim e r e') (hv : ∀ v, victim v → victim' v) : Stole victim' e r e' := by
  cases r with
  | none => exact h
  | some x =>
    obtain ⟨v, hv', hx, he⟩ := h
    exact ⟨v, hv v hv', hx, he⟩

theorem run_modifyTask_bind {β : Type} (f : MarkTask → MarkTask) (g : Unit → TaskM β) (e : Engine)
    (t : MarkTask) : (modifyTask f >>= g).run ⟨e, t⟩ = (g ()).run ⟨e, f t⟩ := rfl

theorem stealFrom_run_none {v : Nat} {e : Engine} (h : (e.queue v).steal.1 = none) (t : MarkTask) :
    (trySteal.stealFrom v).run ⟨e, t⟩ = .ok (none, ⟨e, t⟩) := by
  unfold trySteal.stealFrom
  rw [run_eng_bind]
  rcases hs : (e.queue v).steal with ⟨_ | y, q⟩
  · rfl
  · rw [hs] at h
    cases h

theorem stealFrom_run_some {v : Nat} {e : Engine} {x : TaskEntry} (h : (e.queue v).steal.1 = some x)
    (t : MarkTask) :
    (trySteal.stealFrom v).run ⟨e, t⟩ =
      .ok (some x, ⟨{ e with queues := e.queues.setIfInBounds v (e.queue v).steal.2 }, t⟩) := by
  unfold trySteal.stealFrom
  rw [run_eng_bind]
  rcases hs : (e.queue v).steal with ⟨_ | y, q⟩
  · rw [hs] at h
    cases h
  · rw [hs] at h
    cases h
    rfl

/-- 無作為の盗み先を `k` 回引く。自分でない相手から取れればそこでやめる。生成器の状態だけが進み、
取ったならそれは `n` 個のうちの自分以外のキューから。自分以外がすべて空なら何も取らない。 -/
theorem randomProbes_run {w n : Nat} (hn : 0 < n) (k : Nat) (e : Engine) (t : MarkTask) :
    ∃ r e' seed, (trySteal.randomProbes w n k).run ⟨e, t⟩ = .ok (r, ⟨e', { t with seed }⟩) ∧
      Stole (fun v => v < n ∧ v ≠ w) e r e' ∧
      ((∀ v < n, v ≠ w → (e.queue v).isEmpty = true) → r = none) := by
  induction k generalizing t with
  | zero => exact ⟨none, e, t.seed, rfl, rfl, fun _ => rfl⟩
  | succ k ih =>
    unfold trySteal.randomProbes
    rw [run_task_bind]
    -- 引いた盗み先は `n` より小さく、タスクは生成器の状態だけが進む
    have hv : (t.nextVictim n).1 < n := Nat.mod_lt _ hn
    obtain ⟨r, e', seed, hrun, hstole, hnone⟩ := ih (t.nextVictim n).2
    simp only [run_modifyTask_bind]
    by_cases hvw : (t.nextVictim n).1 = w
    · rw [if_neg (not_not_intro hvw)]
      exact ⟨r, e', seed, hrun, hstole, hnone⟩
    · rw [if_pos hvw, StateT.run_bind]
      cases hx : (e.queue (t.nextVictim n).1).steal.1 with
      | none =>
        rw [stealFrom_run_none hx]
        exact ⟨r, e', seed, hrun, hstole, hnone⟩
      | some x =>
        rw [stealFrom_run_some hx]
        refine ⟨some x, _, (t.nextVictim n).2.seed, rfl, ⟨_, ⟨hv, hvw⟩, hx, rfl⟩, fun hall => ?_⟩
        have hempty := TaskQueue.steal_fst_eq_none_iff.2 (hall _ hv hvw)
        rw [hx] at hempty
        cases hempty

/-- 番号 `ks` の順に `(w + k) % n` から盗み、取れればそこでやめる。何も取らないのは、巡った
キューがどれも空のときに限る。 -/
theorem sweep_run (w n : Nat) (ks : List Nat) (e : Engine) (t : MarkTask) :
    ∃ r e', (trySteal.sweep w n ks).run ⟨e, t⟩ = .ok (r, ⟨e', t⟩) ∧
      Stole (fun v => ∃ k ∈ ks, v = (w + k) % n) e r e' ∧
      (r = none ↔ ∀ k ∈ ks, (e.queue ((w + k) % n)).isEmpty = true) := by
  induction ks with
  | nil => exact ⟨none, e, rfl, rfl, by simp⟩
  | cons k ks ih =>
    unfold trySteal.sweep
    rw [StateT.run_bind]
    cases hx : (e.queue ((w + k) % n)).steal.1 with
    | none =>
      rw [stealFrom_run_none hx]
      obtain ⟨r, e', hrun, hstole, hiff⟩ := ih
      refine ⟨r, e', hrun,
        hstole.mono fun v h => h.imp fun j hj => ⟨List.mem_cons_of_mem k hj.1, hj.2⟩, ?_⟩
      rw [hiff, List.forall_mem_cons, ← TaskQueue.steal_fst_eq_none_iff]
      exact ⟨fun h => ⟨hx, h⟩, fun h => h.2⟩
    | some x =>
      rw [stealFrom_run_some hx]
      refine ⟨some x, _, rfl, ⟨_, ⟨k, List.mem_cons_self, rfl⟩, hx, rfl⟩, ?_⟩
      rw [List.forall_mem_cons, ← TaskQueue.steal_fst_eq_none_iff, hx]
      simp

/-! ## 盗み -/

/-- 自分以外のキューから取ったなら、それはそのキューの頂の項目で、そのキューはその項目を失い、
自分のキューは変わらない。 -/
theorem Stole.front {n w : Nat} {e e' : Engine} {x : TaskEntry} (hn : n ≤ e.queues.size)
    (h : Stole (fun v => v < n ∧ v ≠ w) e (some x) e') :
    ∃ v < n, v ≠ w ∧ (e.queue v).items.head? = some x ∧
      e' = { e with queues := e.queues.setIfInBounds v (e.queue v).steal.2 } ∧
      ((e.queue v).WellFormed → (e'.queue v).items = (e.queue v).items.tail) := by
  obtain ⟨v, ⟨hv, hvw⟩, hx, rfl⟩ := h
  have hhead := TaskQueue.head?_items_of_steal hx
  refine ⟨v, hv, hvw, hhead, rfl, fun hq => ?_⟩
  -- 盗んだ後のキューは、項目のあるキューからの盗みの後のもの
  rw [Engine.queue_setIfInBounds (by omega), if_pos rfl]
  exact (hq.steal_some fun hnil => by simp [hnil] at hhead).2.2.2

theorem Stole.own_queue {victim : Nat → Prop} {w : Nat} {e e' : Engine} {r : Option TaskEntry}
    (hw : ∀ v, victim v → v ≠ w ∧ v < e.queues.size) (h : Stole victim e r e') :
    e'.queue w = e.queue w := by
  cases r with
  | none => rw [show e' = e from h]
  | some x =>
    obtain ⟨v, hv, -, rfl⟩ := h
    rw [Engine.queue_setIfInBounds (hw v hv).2, if_neg (hw v hv).1]

/-- 盗みは仕事を見逃さない。フェーズに加わる `n` 個のタスクのうちのタスク `w` の盗みは、生成器が
どの状態でも、キューの中身がどうであっても、失敗せずに終わり、

* 何も返さないのは、`n ≤ 1` か、自分以外の `n - 1` 個のキューがどれも空のときに限る。そのとき
  エンジンは変わらない。
* 返すのは、自分以外のキュー `v` の頂の（最も古い）項目で、キュー `v` だけが盗んだ後のものに変わる。
  整ったキューなら、その項目を失ったものである。
* 自分のキューには触れず、タスクは盗み先の生成器の状態だけが変わる。 -/
theorem trySteal_finds_work (e : Engine) (t : MarkTask)
    (hw : t.id < Nat.min e.activeTasks e.queues.size) :
    let n := Nat.min e.activeTasks e.queues.size
    ∃ r e' seed, trySteal.run ⟨e, t⟩ = .ok (r, ⟨e', { t with seed }⟩) ∧
      (r = none ↔ n ≤ 1 ∨ ∀ v < n, v ≠ t.id → (e.queue v).isEmpty = true) ∧
      (r = none → e' = e) ∧
      (∀ x, r = some x → ∃ v < n, v ≠ t.id ∧ (e.queue v).items.head? = some x ∧
        e' = { e with queues := e.queues.setIfInBounds v (e.queue v).steal.2 } ∧
        ((e.queue v).WellFormed → (e'.queue v).items = (e.queue v).items.tail)) ∧
      e'.queue t.id = e.queue t.id := by
  intro n
  have hn : n ≤ e.queues.size := Nat.min_le_right _ _
  unfold trySteal
  rw [run_eng_bind]
  by_cases h1 : n ≤ 1
  · -- 盗む相手がいない
    rw [if_pos h1]
    exact ⟨none, e, t.seed, rfl, by simp [h1], fun _ => rfl, by simp, rfl⟩
  rw [if_neg h1, run_task_bind, StateT.run_bind]
  obtain ⟨r, e₁, seed, hprobe, hstole, hnone⟩ := randomProbes_run (w := t.id) (by omega : 0 < n) (2 * n) e t
  rw [hprobe]
  cases r with
  | some x =>
    -- 無作為に引いた相手から取れた
    refine ⟨some x, e₁, seed, rfl, ?_, by simp, fun y hy => ?_, hstole.own_queue fun v hv => ⟨hv.2, by omega⟩⟩
    · simp only [reduceCtorEq, false_iff, not_or]
      exact ⟨h1, fun hall => by cases hnone hall⟩
    · cases hy
      exact hstole.front hn
  | none =>
    -- 引いた相手はどれも空で、エンジンは変わらない。自分の次から順に巡る
    rw [show e₁ = e from hstole]
    obtain ⟨r, e₂, hsweep, hstole₂, hiff⟩ := sweep_run t.id n ((List.range n).drop 1) e { t with seed }
    have hvictim : ∀ v, (∃ k ∈ (List.range n).drop 1, v = (t.id + k) % n) → v < n ∧ v ≠ t.id := by
      rintro v ⟨k, hk, rfl⟩
      exact sweep_avoids hw hk
    refine ⟨r, e₂, seed, hsweep, ?_, fun hr => ?_, fun y hy => ?_,
      hstole₂.own_queue fun v hv => ⟨(hvictim v hv).2, by have := (hvictim v hv).1; omega⟩⟩
    · -- 巡った相手は、ちょうど自分以外のすべてのキュー
      rw [hiff]
      refine ⟨fun hall => .inr fun v hv hvw => ?_, fun h => ?_⟩
      · obtain ⟨k, hk, rfl⟩ := sweep_covers hw hv hvw
        exact hall k hk
      · rcases h with h | hall
        · exact absurd h h1
        · exact fun k hk => hall _ (sweep_avoids hw hk).1 (sweep_avoids hw hk).2
    · subst hr
      exact hstole₂
    · subst hy
      exact (hstole₂.mono hvictim).front hn

/-- 2 つのタスクで走るエンジンで、タスク 1 のキューだけが項目を 1 つ持つとき、タスク 0 の盗みは
それを取る。 -/
theorem steals_the_only_waiting_entry : ∃ (e : Engine) (t : MarkTask),
    t.id < Nat.min e.activeTasks e.queues.size ∧ ∃ e' seed,
      trySteal.run ⟨e, t⟩ = .ok (some (.obj 4096), ⟨e', { t with seed }⟩) := by
  obtain ⟨e₀, -, hp⟩ := Reach.of_reaches Heap.fanOut { MarkConfig.tinyStack none with workers := 2 } []
    (fun e => e.activeTasks == 2) (fun _ _ _ => trivial) (by decide +kernel)
  let e : Engine := { e₀ with queues := #[⟨#[.null, .null], 0, 0⟩, ⟨#[.obj 4096, .null], 1, 0⟩] }
  have hn : Nat.min e.activeTasks e.queues.size = 2 := by
    simp only [beq_iff_eq] at hp
    simp [e, hp]
  have hw : (default : MarkTask).id < Nat.min e.activeTasks e.queues.size := by
    rw [hn]
    decide
  obtain ⟨r, e', seed, hrun, hiff, -, hsome, -⟩ := trySteal_finds_work e default hw
  refine ⟨e, default, hw, e', seed, ?_⟩
  -- タスク 1 のキューは空でないので、盗みは何かを取り、それはタスク 1 のキューの頂の項目
  have hq : e.queue 1 = ⟨#[.obj 4096, .null], 1, 0⟩ := rfl
  have hbusy : (e.queue 1).isEmpty = false := by
    rw [hq]
    decide
  cases r with
  | none =>
    rcases hiff.1 rfl with h | hall
    · rw [hn] at h
      omega
    · rw [hall 1 (by rw [hn]; decide) (by decide)] at hbusy
      cases hbusy
  | some x =>
    obtain ⟨v, hv, hv0, hhead, -⟩ := hsome x rfl
    rw [hn] at hv
    obtain rfl : v = 1 := by change v ≠ 0 at hv0; omega
    have hitems : (e.queue 1).items = [.obj 4096] := by
      rw [hq]
      decide
    rw [hitems] at hhead
    cases hhead
    exact hrun

end Marking

end RegionMark
