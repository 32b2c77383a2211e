import RegionMark.Proofs.Restart.Drain

/-!
# 静かな走りのステップ

静かな走りでは、リージョンの歩み、盗み、ステップ全体が、印を付けないかぎりキューを吐き出しの目標より
高々 1 つ多いところに保つ（`stepWork_still`、`drainSerially_still`）。
-/

namespace RegionMark

namespace Marking

variable {C : MarkConfig} {c : Prop} {r : Nat × List Bitmap} {m : Nat} {P : Worker → Prop}

/-- 部分的な吐き出しを終えたキュー：目標より高々 1 つ多く、打ち切られていなければ目標以下。 -/
def Settled (C : MarkConfig) (s : Worker) : Prop :=
  s.backlog ≤ C.partialTarget + 1 ∧ (s.task.aborted = false → s.backlog ≤ C.partialTarget)

/-- すべてを吐き出したキュー：目標より高々 1 つ多く、打ち切られていなければ空。 -/
def Drained (C : MarkConfig) (s : Worker) : Prop :=
  s.backlog ≤ C.partialTarget + 1 ∧ (s.task.aborted = false → s.backlog = 0)

theorem stable_settled : Stable (Settled C) :=
  (stable_backlog (· ≤ C.partialTarget + 1)).and (stable_unaborted (· ≤ C.partialTarget))

theorem stable_true : Stable fun _ => True := fun _ _ _ _ => trivial

theorem Still.backlog_le {s : Worker} (hs : Still C c r m P s) :
    Still C c r m (fun s => P s ∧ s.backlog ≤ C.partialTarget + 1) s := by
  refine hs.mono fun hcalm hp => ⟨hp, ?_⟩
  have := (hcalm.queue hs.framed.id).1
  rw [hs.framed.eng.config] at this
  exact this

/-! ## 盗み -/

/-- 盗みは、自分以外のキューの頂の項目を取るか、何も変えないかで、タスクは盗み先の生成器の状態だけが
変わる。 -/
theorem trySteal_stole (e : Engine) (t : MarkTask) :
    ∃ x e' seed, trySteal.run ⟨e, t⟩ = .ok (x, ⟨e', { t with seed }⟩) ∧
      Stole (fun v => v < e.queues.size ∧ v ≠ t.id) e x e' := by
  unfold trySteal
  rw [run_eng_bind]
  by_cases h1 : Nat.min e.activeTasks e.queues.size ≤ 1
  · rw [if_pos h1]
    exact ⟨none, e, t.seed, rfl, rfl⟩
  have hn : Nat.min e.activeTasks e.queues.size ≤ e.queues.size := Nat.min_le_right _ _
  rw [if_neg h1, run_task_bind, StateT.run_bind]
  obtain ⟨x, e₁, seed, hprobe, hstole, -⟩ :=
    randomProbes_run (w := t.id) (by omega : 0 < Nat.min e.activeTasks e.queues.size) (2 * _) e t
  rw [hprobe]
  cases x with
  | some x => exact ⟨some x, e₁, seed, rfl, hstole.mono fun v hv => ⟨by omega, hv.2⟩⟩
  | none =>
    rw [show e₁ = e from hstole]
    obtain ⟨x, e₂, hsweep, hstole₂, -⟩ := sweep_run t.id _ ((List.range _).drop 1) e { t with seed }
    refine ⟨x, e₂, seed, hsweep, hstole₂.mono ?_⟩
    -- 順に巡る相手は、自分がフェーズに加わっていなくても自分ではない
    rintro v ⟨k, hk, rfl⟩
    dsimp only at hk ⊢
    by_cases hw : t.id < Nat.min e.activeTasks e.queues.size
    · have := sweep_avoids hw hk
      exact ⟨by omega, this.2⟩
    · have := Nat.mod_lt (t.id + k) (by omega : 0 < Nat.min e.activeTasks e.queues.size)
      exact ⟨by omega, by omega⟩

/-- 静かな走りの盗みは、自分のキューに触れず、取るのは配列の残りの項目。 -/
theorem trySteal_still (n : Nat) :
    Triple (Still C c r m fun s => s.backlog ≤ n) trySteal
      fun x => Still C c r m fun s => s.backlog ≤ n ∧ ∀ y, x = some y → s.eng.heap.Resumable y := by
  rintro ⟨e, t⟩ x s' hs hr
  obtain ⟨x', e', seed, hrun, hstole⟩ := trySteal_stole e t
  rw [hrun] at hr
  cases hr
  cases x with
  | none =>
    cases hstole
    exact hs.aside (Engine.Aside.refl _) rfl fun _ hp => ⟨hp, fun _ h => nomatch h⟩
  | some y =>
    obtain ⟨v, ⟨hv, hvw⟩, hy, rfl⟩ := hstole
    have hq := hs.framed.eng.queue hv
    have hhead := TaskQueue.head?_items_of_steal hy
    have hne : (e.queue v).items ≠ [] := fun h => by simp [h] at hhead
    obtain ⟨-, hwf, hcap, hitems⟩ := hq.1.steal_some hne
    -- 盗み先のキューを短いものに置き換えてから、タスクの生成器を進める
    have hs' : Still C c r m (fun s => s.backlog ≤ n ∧ s.eng.heap.Resumable y) _ :=
      hs.setQueue v ⟨hwf, hcap.trans hq.2⟩ fun _ _ hcalm hp => ?_
    · exact hs'.aside (Engine.Aside.refl _) rfl fun _ hp => ⟨hp.1, fun _ h => by cases h; exact hp.2⟩
    have hvq := hcalm.queue hv
    rw [hs.framed.eng.config] at hvq
    refine ⟨hvq.sublist (hitems ▸ List.tail_sublist _), ?_, hvq.2 y (List.mem_of_head? hhead)⟩
    show (({ e with queues := e.queues.setIfInBounds v (e.queue v).steal.2 } : Engine).queue t.id).items.length ≤ n
    rw [Engine.queue_setIfInBounds hv, if_neg hvw]
    exact hp

/-! ## リージョンの歩み -/

/-- リージョンの歩みは、目標以下のキューから始めれば、部分的な吐き出しを終えたキューで終わる。 -/
theorem walkRegion_still (limit fuel cur : Nat) :
    Triple (Still C c r m fun s => s.backlog ≤ C.partialTarget) (walkRegion limit fuel cur)
      fun _ => Still C c r m (Settled C) := by
  induction fuel generalizing cur with
  | zero => exact Triple.pure _ fun _ hs => hs.mono fun _ hp => ⟨Nat.le_succ_of_le hp, fun _ => hp⟩
  | succ fuel ih =>
    unfold walkRegion
    refine Triple.after_eng fun _ => Triple.bind Keeps.check fun o => ?_
    cases o with
    | none => exact Triple.pure _ fun _ hs => hs.mono fun _ hp => ⟨Nat.le_succ_of_le hp, fun _ => hp⟩
    | some a =>
      -- 印の付いたオブジェクトを走査し、部分的に吐き出す
      refine Triple.bind (moveFingerTo_still (stable_backlog (· ≤ C.partialTarget)) a) fun _ => ?_
      refine Triple.bind ((scanTaskEntry_obj_still a C.partialTarget).mono
        (fun _ hs => hs.mono fun _ hp => ⟨hp, le_rfl⟩) fun _ _ h => h) fun _ => ?_
      refine Triple.bind (Q := fun _ => Still C c r m (Settled C)) ((drainLocalQueue_still true).mono
        (fun _ h => h) fun _ _ h => h.mono fun _ hp => ⟨hp.1, fun hab => by simpa using hp.2 hab⟩) fun _ => ?_
      refine Triple.bind (drainGlobalStack_still true) fun _ => Triple.bind Triple.task fun t =>
        Triple.ite (fun _ => Triple.pure _ fun _ hs => hs.1) fun hab => (ih _).mono (fun s hs => ?_) fun _ _ h => h
      obtain ⟨hs, rfl⟩ := hs
      exact hs.mono fun _ hp => hp.2 (Bool.eq_false_iff.2 hab)

/-- 今のリージョンの走査：歩みの前後の書き換えは、どれも印を付けない一歩。 -/
theorem scanCurrentRegion_still :
    Triple (Still C c r m fun s => s.backlog ≤ C.partialTarget) scanCurrentRegion
      fun _ => Still C c r m (Settled C) := by
  -- 目標以下のキューは部分的な吐き出しを終えている
  have hsettle : ∀ s, Still C c r m (fun s => s.backlog ≤ C.partialTarget) s → Still C c r m (Settled C) s :=
    fun _ hs => hs.mono fun _ hp => ⟨Nat.le_succ_of_le hp, fun _ => hp⟩
  have hgive : Keeps (Still C c r m (Settled C)) (do giveUpRegion; regularClockCall; pure ()) :=
    Keeps.bind (giveUpRegion_still stable_settled) fun _ =>
      Keeps.bind (regularClockCall_still stable_settled) fun _ => Keeps.pure _
  unfold scanCurrentRegion
  refine Triple.after_task fun t => ?_
  split
  · refine Triple.ite (fun _ => hgive.mono hsettle fun _ _ h => h) fun _ => ?_
    refine Triple.bind (walkRegion_still _ _ _) fun _ => Triple.ite (fun _ => hgive) fun _ => ?_
    -- 打ち切られた歩み：フィンガーを最後に走査したオブジェクトの先に残す
    refine Keeps.bind Keeps.getTask fun _ => ?_
    refine Keeps.ite (Keeps.bind (Keeps.violated _) fun _ => ?_) ?_
    all_goals
      refine Keeps.bind Keeps.getTask fun _ => ?_
      split
      · refine Keeps.bind Keeps.getEng fun _ => Keeps.bind Keeps.check fun _ => Keeps.bind Keeps.check fun _ => ?_
        exact Keeps.bind Keeps.getTask fun _ =>
          Keeps.ite (giveUpRegion_still stable_settled) (moveFingerTo_still stable_settled _)
      · exact Keeps.pure _
  · exact Triple.pure _ fun _ hs => hsettle _ hs

theorem regionLoop_still (fuel : Nat) : Keeps (Still C c r m (Settled C)) (regionLoop fuel) := by
  induction fuel with
  | zero => exact Keeps.pure _
  | succ fuel ih =>
    unfold regionLoop
    refine Triple.bind Triple.task fun t => Triple.bind Triple.task fun t' => Triple.ite (fun hgo => ?_)
      fun _ => Triple.mono (P := Still C c r m (Settled C)) ?_ (fun _ h => h.1.1) fun _ _ h => h
    -- 打ち切られていないので、キューは目標以下から歩みを始める
    refine Triple.bind (Q := fun _ => Still C c r m (Settled C))
      (scanCurrentRegion_still.mono (fun s hs => by
        obtain ⟨⟨hs, rfl⟩, -⟩ := hs
        simp only [Bool.and_eq_true, Bool.not_eq_true'] at hgo
        exact hs.mono fun _ hp => hp.2 hgo.1) fun _ _ h => h) fun _ => ?_
    -- 部分的に吐き出し、次のリージョンを取る
    all_goals
      refine Triple.bind (Q := fun _ => Still C c r m (Settled C)) ((drainLocalQueue_still true).mono
        (fun _ h => h.mono fun _ hp => hp.1) fun _ _ h => h.mono fun _ hp => ⟨hp.1, fun hab => by simpa using hp.2 hab⟩)
        fun _ => ?_
      refine Keeps.bind (drainGlobalStack_still true) fun _ => Keeps.bind Keeps.getEng fun _ =>
        Keeps.bind (claimLoop_still stable_settled _) fun _ => ?_
      exact Keeps.bind Keeps.getTask fun _ => Keeps.bind Keeps.getTask fun _ => Keeps.ite (Keeps.pure _) ih

theorem stealLoop_still (fuel : Nat) : Keeps (Still C c r m (Drained C)) (stealLoop fuel) := by
  induction fuel with
  | zero => exact Keeps.pure _
  | succ fuel ih =>
    unfold stealLoop
    refine Triple.bind Triple.task fun t => Triple.ite (fun _ => Triple.pure _ fun _ hs => hs.1) fun hab => ?_
    -- 打ち切られていないので、自分のキューは空
    refine Triple.bind (Q := fun _ => Still C c r m fun s => s.backlog ≤ 0) (Triple.modifyTask fun s hs => by
        obtain ⟨hs, rfl⟩ := hs
        exact hs.aside (Engine.Aside.refl _) rfl fun _ hp => Nat.le_of_eq (hp.2 (Bool.eq_false_iff.2 hab)))
      fun _ => ?_
    refine Triple.bind (trySteal_still 0) fun x => ?_
    cases x with
    | none => exact Triple.pure _ fun _ hs => hs.mono fun _ hp => ⟨by omega, fun _ => by omega⟩
    | some y =>
      -- 盗んだ配列の残りを走査してから、すべてを吐き出す
      refine Triple.bind (Q := fun _ => Still C c r m fun s => s.backlog ≤ 0 ∧ s.eng.heap.Resumable y)
        (Triple.modifyTask fun s hs => hs.aside (Engine.Aside.refl _) rfl fun _ hp => ⟨hp.1, hp.2 y rfl⟩)
        fun _ => ?_
      refine Triple.bind (Q := fun _ => Still C c r m fun s => s.backlog ≤ C.partialTarget + 1)
        (Triple.ghost (fun s => s.task.wordsScanned) fun w₀ => (scanTaskEntry_still y 0 w₀).mono
          (fun _ hs => hs.mono fun _ hp => ⟨hp.1.1, Nat.zero_le _, hp.2, hp.1.2⟩)
          fun _ _ hs => hs.mono fun _ hp => by omega) fun _ => ?_
      refine Triple.bind (Q := fun _ => Still C c r m (Drained C)) ((drainLocalQueue_still false).mono
        (fun _ h => h) fun _ _ h => h.mono fun _ hp => ⟨hp.1, fun hab => by simpa using hp.2 hab⟩)
        fun _ => ?_
      exact Keeps.bind (drainGlobalStack_still false) fun _ => ih

/-! ## ステップ -/

/-- ステップの本体は、静かな走りを静かなまま終える。 -/
theorem stepWork_still (steal : Bool) : Keeps (Still C c r m fun _ => True) (stepWork steal) := by
  unfold stepWork
  refine Triple.mono (P := Still C c r m fun s => s.backlog ≤ C.partialTarget + 1)
    (Q := fun _ => Still C c r m (Drained C)) ?_
    (fun _ hs => hs.backlog_le.mono fun _ hp => hp.2) fun _ _ hs => hs.mono fun _ _ => trivial
  refine Triple.bind (drainSatbBuffers_still (stable_backlog (· ≤ C.partialTarget + 1))) fun _ => ?_
  refine Triple.bind (Q := fun _ => Still C c r m (Settled C)) ((drainLocalQueue_still true).mono
    (fun _ h => h) fun _ _ h => h.mono fun _ hp => ⟨hp.1, fun hab => by simpa using hp.2 hab⟩) fun _ => ?_
  refine Triple.bind (drainGlobalStack_still true) fun _ => Triple.after_eng fun _ => ?_
  -- リージョンを取っては歩み、残っていれば SATB のバッファを処理する
  refine Triple.bind (regionLoop_still _) fun _ => Triple.after_task fun _ =>
    Triple.ite (fun _ => Triple.after_eng fun _ => Triple.ite (fun _ => Triple.violated_bind _ _) fun _ =>
      Triple.bind (drainSatbBuffers_still stable_settled) fun _ => ?_) fun _ => ?_
  -- すべてを吐き出し、盗む
  all_goals
    refine Triple.bind (Q := fun _ => Still C c r m (Drained C)) ((drainLocalQueue_still false).mono
      (fun _ h => h.mono fun _ hp => hp.1) fun _ _ h => h.mono fun _ hp => ⟨hp.1, fun hab => by simpa using hp.2 hab⟩)
      fun _ => ?_
    exact Keeps.bind (drainGlobalStack_still false) fun _ => Keeps.ite (stealLoop_still _) (Keeps.pure _)

theorem beginStep_still (timed : Bool) : Keeps (Still C c r m fun _ => True) (beginStep timed) := by
  unfold beginStep
  refine Keeps.bind Keeps.getEng fun _ => Keeps.bind (modifyTask_still (fun _ => rfl) fun _ _ _ => trivial) fun _ => ?_
  exact Keeps.bind (recalculateLimits_still stable_true) fun _ =>
    modifyTask_still (fun _ => rfl) fun _ _ _ => trivial

theorem flushCounts_still : Keeps (Still C c r m fun _ => True) flushCounts := by
  unfold flushCounts
  exact Keeps.bind Keeps.getTask fun _ => Keeps.bind (modifyEng_aside (fun _ => ⟨rfl, rfl, rfl, rfl, rfl, rfl, rfl⟩)
    stable_true) fun _ => modifyTask_still (fun _ => rfl) fun _ _ _ => trivial

theorem endStep_still : Keeps (Still C c r m fun _ => True) endStep :=
  Keeps.bind (flushStatsCache_still stable_true) fun _ => flushCounts_still

theorem serialStep_still (timed doTermination : Bool) :
    Keeps (Still C c r m fun _ => True) (serialStep timed doTermination) := by
  unfold serialStep
  refine Keeps.bind (beginStep_still _) fun _ => Keeps.bind (stepWork_still _) fun _ => ?_
  refine Keeps.bind Keeps.getTask fun _ => Keeps.ite (Keeps.bind checkFinished_keeps fun _ => ?_) ?_
  all_goals
    refine Keeps.bind (recordTimeout_still stable_true) fun _ => Keeps.bind Keeps.getTask fun _ =>
      Keeps.bind Keeps.getEng fun _ => ?_
    refine Keeps.ite (Keeps.bind (flushStatsCache_still stable_true) fun _ =>
      Keeps.bind (modifyTask_still (fun _ => rfl) fun _ _ _ => trivial) fun _ => endStep_still) endStep_still

theorem drainSerially_still (timed doTermination : Bool) (fuel : Nat) :
    Keeps (Still C c r m fun _ => True) (drainSerially timed doTermination fuel) := by
  induction fuel with
  | zero => exact Keeps.pure _
  | succ fuel ih =>
    unfold drainSerially
    refine Keeps.bind (serialStep_still _ _) fun _ => Keeps.bind Keeps.getTask fun _ => ?_
    exact Keeps.bind Keeps.getEng fun _ => Keeps.bind Keeps.getEng fun _ => Keeps.ite (Keeps.pure _) ih

theorem keepAlive_still (timed : Bool) (n a : Nat) : Keeps (Still C c r m fun _ => True) (keepAlive timed n a) := by
  unfold keepAlive
  exact Keeps.bind (dealWithReference_still stable_true a) fun _ =>
    Keeps.ite (Keeps.bind (drainSerially_still _ _ _) fun _ => Keeps.pure _) (Keeps.pure _)

theorem finishStep_still (again : Engine → MarkTask → Bool) :
    Keeps (Still C c r m fun _ => True) (finishStep again) :=
  Keeps.bind endStep_still fun _ => Keeps.bind Keeps.getEng fun _ => Keeps.bind Keeps.getTask fun _ => Keeps.pure _

end Marking

end RegionMark
