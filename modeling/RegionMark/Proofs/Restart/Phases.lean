import RegionMark.Proofs.Restart.Crew

/-!
# フェーズの操作と再開の勘定

再開の勘定にエンジンの形とタスクの表を合わせた `Engine.Accounted` を、周期の中のどのフェーズの操作も
保つ（`Op.run_accounted`）。勘定に触れるのは再開と大域スタックの片付けで、どちらも溢れたエンジンにだけ行う。
-/

namespace RegionMark

namespace Heap

theorem Tiled.pending {h : Heap} (ht : h.Tiled) (p : Array Nat) : ({ h with pending := p } : Heap).Tiled :=
  ⟨ht.word_dvd, ht.tops_size, ht.byRegion_size,
    fun r hr => (ht.tiles r hr).congr fun i hi => ⟨(ht.tiles r hr).lt_size i hi, rfl, rfl⟩, ht.top_le, ht.arrays⟩

theorem resumable_pending (h : Heap) (p : Array Nat) (x : TaskEntry) :
    ({ h with pending := p } : Heap).Resumable x ↔ h.Resumable x := by
  cases x <;> simp only [Resumable, resolveElement_pending, arrayLength?, objectAt?_pending]

end Heap

namespace Engine

variable {C : MarkConfig} {t : Prop} {R : Nat × List Bitmap} {M : Nat} {e e' : Engine}

theorem Calm.pending (hc : e.Calm) (p : Array Nat) :
    ({ e with heap := { e.heap with pending := p } } : Engine).Calm :=
  ⟨hc.overflown, hc.stack, fun q hq => ⟨(hc.queues q hq).1, fun x hx =>
    (Heap.resumable_pending _ _ _).2 ((hc.queues q hq).2 x hx)⟩, hc.tiled.pending p⟩

theorem Paid.pending (hp : e.Paid t R M) (p : Array Nat) :
    ({ e with heap := { e.heap with pending := p } } : Engine).Paid t R M :=
  hp.of_record (fun ht => ht.pending p) rfl le_rfl fun ht heq => (hp.calm ht heq).pending p

theorem Paid.mark (hp : e.Paid t R M) (hh : e'.heap = e.heap) (hr : e'.restartRecord = e.restartRecord)
    (hm : e'.marks = e.marks + 1) : e'.Paid t R M := by
  refine hp.of_record (fun ht => hh ▸ ht) hr (by omega) fun ht heq => ?_
  have := hp.le ht
  omega

theorem Staffed.congr (hs : e.Staffed C) (ht : e'.tasks = e.tasks) : e'.Staffed C :=
  ⟨ht ▸ hs.size, hs.pos, ht ▸ hs.ids⟩

theorem Accounted.aside (he : e.Accounted C t R M) (ha : e.Aside e') (ht : e'.tasks = e.tasks) :
    e'.Accounted C t R M :=
  ⟨he.framed.aside ha, he.staffed.congr ht, he.paid.aside ha⟩

theorem Accounted.settle (he : e.Accounted C t R M) (hov : e.overflown = true) (st : MarkStack) :
    ({ e with stack := st, overflown := false } : Engine).Accounted C t R M := by
  refine ⟨he.framed.congr rfl rfl rfl, he.staffed.congr rfl,
    he.paid.of_record id rfl le_rfl fun ht heq => ?_⟩
  exact absurd heq (Nat.ne_of_lt (he.paid.owed hov ht))

theorem Accounted.restart (he : e.Accounted C t R M) (hov : e.overflown = true)
    (h : e.restartAfterOverflow = .ok e') : e'.Accounted C t R M :=
  ⟨he.framed.restart h, he.staffed.congr (restartAfterOverflow_frame h).2.2.1,
    he.paid.restart he.framed (he.paid.owed hov) h⟩

theorem Accounted.tryMark (he : e.Accounted C t R M) {a : Nat} {hit : Option (Nat × Nat)}
    (h : e.tryMark a = .ok (hit, e')) : e'.Accounted C t R M := by
  rcases tryMark_marks he.framed h with ⟨-, rfl⟩ | ⟨hm, k, rfl⟩
  · exact he
  · refine ⟨⟨he.framed.config, he.framed.size, he.framed.queues, he.framed.roomy, he.framed.stride,
      by simpa using he.framed.covers⟩, he.staffed.congr rfl, he.paid.mark rfl rfl hm⟩

end Engine

namespace Marking

variable {C : MarkConfig} {c : Prop} {r : Nat × List Bitmap} {m : Nat} {t : Prop} {R : Nat × List Bitmap} {M : Nat} {o : Prop} {w : Nat}

theorem scanRootRegion_still (g : MemRange) :
    Keeps (Still C c r m fun _ => True) (Cycle.Marking.scanRootRegion g) := by
  unfold Cycle.Marking.scanRootRegion
  refine Keeps.bind Keeps.getEng fun _ => Keeps.bind (Keeps.forIn _ fun a _ _ => ?_) fun p => ?_
  · refine Keeps.bind Keeps.getEng fun _ => Keeps.ite (Keeps.pure _) ?_
    refine Keeps.bind Keeps.getEng fun _ => Keeps.bind (Keeps.forIn _ fun b _ _ => ?_) fun _ => Keeps.pure _
    exact Keeps.bind ((markInBitmap_still b).mono (fun _ h => h) fun _ _ h => h.mono fun _ _ => trivial)
      fun _ => Keeps.pure _
  · rcases p with ⟨_ | _, _⟩ <;> exact Keeps.pure _

theorem scanRootsLoop_still (fuel : Nat) :
    Keeps (Still C c r m fun _ => True) (Cycle.Marking.scanRootsLoop fuel) := by
  induction fuel with
  | zero => exact Keeps.pure _
  | succ fuel ih =>
    unfold Cycle.Marking.scanRootsLoop
    refine Keeps.bind Keeps.getEng fun _ => ?_
    split
    split
    · exact Keeps.bind (modifyEng_aside (fun _ => ⟨rfl, rfl, rfl, rfl, rfl, rfl, rfl⟩) stable_true) fun _ =>
        Keeps.bind (scanRootRegion_still _) fun _ => ih
    · exact Keeps.pure _

/-! ## 取り出したタスクの上の計算 -/

/-- 表 `ts`、フェーズ `ph` のエンジンから取り出したタスク `w` の計算の状態：勘定が成り立ち、タスクの表と
フェーズは取り出したときのまま。 -/
def Seated (C : MarkConfig) (t : Prop) (R : Nat × List Bitmap) (M w : Nat) (ts : Array MarkTask) (ph : Phase) (s : Worker) : Prop :=
  Budget C t R M False w s ∧ s.eng.tasks = ts ∧ s.eng.phase = ph

variable {ts : Array MarkTask} {ph : Phase}

/-- 再開せずヒープを変えない計算は、取り出したタスクの状態を保つ。 -/
theorem Keeps.seated {α : Type} {f : TaskM α} (h : ∀ c r m, Keeps (Still C c r m fun _ => True) f)
    (hk : ∀ {A : Nat → Prop} {I : Worker → Prop}, Closed A I → (∀ a, A a) → Keeps I f) :
    Keeps (Seated C t R M w ts ph) f :=
  Triple.and (Keeps.budget h fun w hp => hk (idHeap_closed w hp) fun _ => trivial)
    (hk (frame_closed ts ph) fun _ => trivial)

theorem keepAlive_seated (timed : Bool) (n a : Nat) : Keeps (Seated C t R M w ts ph) (keepAlive timed n a) :=
  Keeps.seated (fun _ _ _ => keepAlive_still timed n a) fun hC hA => keepAlive_keeps hC timed n (hA a)

theorem drainSerially_seated (timed doTermination : Bool) (fuel : Nat) :
    Keeps (Seated C t R M w ts ph) (drainSerially timed doTermination fuel) :=
  Keeps.seated (fun _ _ _ => drainSerially_still timed doTermination fuel) fun hC _ =>
    drainSerially_keeps hC timed doTermination fuel

theorem scanRootsLoop_seated (fuel : Nat) : Keeps (Seated C t R M w ts ph) (Cycle.Marking.scanRootsLoop fuel) :=
  Keeps.seated (fun _ _ _ => scanRootsLoop_still fuel) fun hC _ => scanRootsLoop_keeps hC fuel

theorem flushStatsCache_seated : Keeps (Seated C t R M w ts ph) flushStatsCache :=
  Keeps.seated (fun _ _ _ => flushStatsCache_still stable_true) fun hC _ => flushStatsCache_keeps hC

theorem flushCounts_seated : Keeps (Seated C t R M w ts ph) flushCounts :=
  Keeps.seated (fun _ _ _ => flushCounts_still) fun hC _ => flushCounts_keeps hC

theorem pending_seated (p : Array Nat) :
    Keeps (Seated C t R M w ts ph) (modifyEng fun e => { e with heap := { e.heap with pending := p } }) :=
  Triple.modifyEng fun _ hs => ⟨⟨⟨hs.1.framed.eng.congr rfl rfl rfl, hs.1.framed.id⟩, hs.1.paid.pending p,
    hs.1.owed, hs.1.id⟩, hs.2⟩

end Marking

namespace Cycle

variable {C : MarkConfig} {t : Prop} {R : Nat × List Bitmap} {M : Nat} {α : Type}

/-- 形と勘定が読むものにも、タスクの表にも触れない書き換え。 -/
theorem modify_accounted {f : Engine → Engine} (hf : ∀ e : Engine, e.Aside (f e))
    (ht : ∀ e : Engine, (f e).tasks = e.tasks) :
    Keeps (Engine.Accounted C t R M) (modify f : CycleM PUnit) :=
  Keeps.modify fun e he => he.aside (hf e) (ht e)

theorem setConcurrency_accounted {n : Nat} {b : Bool} :
    Keeps (Engine.Accounted C t R M) (setConcurrency n b) :=
  Keeps.setConcurrency fun _ _ he h => by
    obtain ⟨_, rfl⟩ := Engine.setConcurrency_eq h
    exact he.aside ⟨rfl, rfl, rfl, rfl, rfl, rfl, rfl⟩ rfl

theorem transition_accounted {src dst : Phase} : Keeps (Engine.Accounted C t R M) (transition src dst) :=
  Keeps.transition fun _ he => he.aside ⟨rfl, rfl, rfl, rfl, rfl, rfl, rfl⟩ rfl

/-- タスク `w` の上で勘定とタスクの表を保つ計算は、エンジンの勘定を保つ。 -/
theorem onTask_accounted {w : Nat} {m : TaskM α}
    (hm : ∀ ts ph, Marking.Keeps (Marking.Seated C t R M w ts ph) m)
    (hw : ∀ e : Engine, e.Accounted C t R M → w < C.workers) : Keeps (Engine.Accounted C t R M) (onTask w m) :=
  Keeps.onTask fun e _ _ he h => (Engine.withTask_budget (p := False) (q := fun _ => False)
    (fun ts ph => (hm ts ph).mono (fun _ h => ⟨h.1.1, h.2⟩) fun _ _ h => ⟨⟨h.1, False.elim⟩, h.2⟩) he (hw e he)
    False.elim False.elim h).1

/-- `n` 個のタスクの並行フェーズは、`n` がワーカーの数を超えなければ勘定を保つ。 -/
theorem runParallel_update_accounted {n : Nat} {timed : Bool} {again : Engine → MarkTask → Bool}
    (hn : n ≤ C.workers) :
    Keeps (Engine.Accounted C t R M) (update fun e => do return ((), ← e.runParallel n timed again)) :=
  Keeps.update fun e _ _ he h => by
    cases hr : e.runParallel n timed again with
    | error => rw [hr] at h; cases h
    | ok e₁ => rw [hr] at h; cases h; exact Engine.runParallel_accounted he hn hr

theorem addRootRegion_accounted (g : MemRange) : Keeps (Engine.Accounted C t R M) (addRootRegion g) := by
  unfold addRootRegion
  refine Keeps.bind (Keeps.checkPhase _) fun _ => Keeps.bind_get fun _ _ => ?_
  refine Keeps.bind Keeps.lift fun p => ?_
  obtain ⟨ok, roots⟩ := p
  refine Keeps.bind (modify_accounted (fun _ => ⟨rfl, rfl, rfl, rfl, rfl, rfl, rfl⟩) fun _ => rfl) fun _ => ?_
  refine Keeps.ite (Keeps.bind (Keeps.throw _) fun _ => ?_) ?_ <;>
  exact Keeps.bind Keeps.getEngine fun _ => Keeps.pure _

theorem scanRootRegions_accounted : Keeps (Engine.Accounted C t R M) scanRootRegions := by
  unfold scanRootRegions
  refine Keeps.bind (Keeps.checkPhase _) fun _ => Keeps.bind_get fun _ _ => ?_
  refine Keeps.bind Keeps.lift fun roots =>
    Keeps.bind (modify_accounted (fun _ => ⟨rfl, rfl, rfl, rfl, rfl, rfl, rfl⟩) fun _ => rfl) fun _ => ?_
  refine Keeps.ite (Keeps.bind_get fun e he => Keeps.bind (Keeps.forIn _ fun w hw _ => ?_) fun _ => ?_) ?_
  · -- 各ワーカーのタスクでルートリージョンを走査する
    have hwc : w < C.workers := by
      have := List.mem_range.1 hw
      rw [he.staffed.workers] at this
      exact Nat.lt_of_lt_of_le this (Nat.min_le_left _ _)
    refine Keeps.bind (onTask_accounted (fun _ _ => ?_) fun _ _ => hwc) fun _ => Keeps.pure _
    exact Marking.Keeps.bind (Marking.scanRootsLoop_seated _) fun _ =>
      Marking.Keeps.bind Marking.flushStatsCache_seated fun _ => Marking.flushCounts_seated
  -- 合流点：ルートリージョンの走査を終え、並行マーキングに移る
  all_goals
    refine Keeps.bind_get fun _ _ => ?_
    refine Keeps.ite (Keeps.bind (Keeps.pure _) fun _ => ?_) (Keeps.bind Keeps.lift fun _ => ?_) <;>
    · refine Keeps.bind (modify_accounted (fun _ => ⟨rfl, rfl, rfl, rfl, rfl, rfl, rfl⟩) fun _ => rfl) fun _ => ?_
      exact Keeps.ite (Keeps.bind (Keeps.throw _) fun _ => transition_accounted) transition_accounted

theorem markFromRoots_accounted : Keeps (Engine.Accounted C t R M) markFromRoots := by
  unfold markFromRoots
  refine Keeps.bind (Keeps.checkPhase _) fun _ =>
    Keeps.bind (modify_accounted (fun _ => ⟨rfl, rfl, rfl, rfl, rfl, rfl, rfl⟩) fun _ => rfl) fun _ => ?_
  refine Keeps.bind_get fun _ he => Keeps.bind setConcurrency_accounted fun _ => ?_
  exact Keeps.bind (runParallel_update_accounted he.staffed.workers.le) fun _ => Keeps.checkInterruption

theorem preclean_accounted : Keeps (Engine.Accounted C t R M) preclean := by
  unfold preclean
  refine Keeps.bind (Keeps.checkPhase _) fun _ => Keeps.bind setConcurrency_accounted fun _ => ?_
  refine Keeps.bind_get fun _ _ => Keeps.bind (onTask_accounted (fun _ _ => ?_) fun _ he => he.staffed.pos)
    fun _ => Keeps.checkInterruption
  -- 弱い参照の参照先を順に生かしてから、単独のステップで減らす
  exact Marking.Keeps.bind (Marking.Keeps.forIn _ fun _ _ _ => Marking.Keeps.bind Marking.Keeps.getEng fun _ =>
    Marking.Keeps.ite (Marking.Keeps.pure _)
      (Marking.Keeps.bind (Marking.keepAlive_seated _ _ _) fun _ => Marking.Keeps.pure _))
    fun _ => Marking.drainSerially_seated _ _ _

theorem weakRefsWork_accounted : Keeps (Engine.Accounted C t R M) weakRefsWork := by
  unfold weakRefsWork
  refine Keeps.bind (modify_accounted (fun _ => ⟨rfl, rfl, rfl, rfl, rfl, rfl, rfl⟩) fun _ => rfl) fun _ =>
    Keeps.bind setConcurrency_accounted fun _ => ?_
  refine Keeps.bind_get fun _ _ => Keeps.bind (onTask_accounted (fun _ _ => ?_) fun _ he => he.staffed.pos)
    fun _ => ?_
  · -- 参照先を生かし、生きていない終了処理待ちのオブジェクトを記録してから、単独のステップで減らす
    refine Marking.Keeps.bind (Marking.Keeps.forIn _ fun _ _ _ =>
      Marking.Keeps.bind (Marking.keepAlive_seated _ _ _) fun _ => Marking.Keeps.pure _) fun _ => ?_
    refine Marking.Keeps.bind (Marking.Keeps.forIn _ fun _ _ _ => ?_) fun _ =>
      Marking.Keeps.bind (Marking.pending_seated _) fun _ => Marking.drainSerially_seated _ _ _
    exact Marking.Keeps.bind Marking.Keeps.getEng fun _ => Marking.Keeps.ite
      (Marking.Keeps.bind (Marking.keepAlive_seated _ _ _) fun _ => Marking.Keeps.pure _) (Marking.Keeps.pure _)
  -- 取り返しのつかないオーバーフロー：溢れていたので勘定には余りがある
  refine Keeps.bind (modify_accounted (fun _ => ⟨rfl, rfl, rfl, rfl, rfl, rfl, rfl⟩) fun _ => rfl) fun _ =>
    Keeps.bind_get fun e he => ?_
  exact Triple.ite (fun hov => Keeps.bind (Keeps.set (he.settle hov _)) fun _ => Keeps.throw _)
    fun _ => Keeps.pure _

theorem remarkLocked_accounted : Keeps (Engine.Accounted C t R M) remarkLocked := by
  unfold remarkLocked
  refine Keeps.bind_get fun _ he => Keeps.bind setConcurrency_accounted fun _ =>
    Keeps.bind (runParallel_update_accounted he.staffed.workers.le) fun _ => ?_
  refine Keeps.bind Keeps.checkInterruption fun _ => Triple.bind_get_eq fun e => Triple.ite (fun hov => ?_)
    fun _ => Triple.mono ?_ (fun _ h => h.1) fun _ _ h => h
  · -- オーバーフロー：溢れたエンジンの再開は勘定の余りを使う
    refine Triple.bind (R := fun r e' => (e'.Accounted C t R M ∧ e'.overflown = true) ∧ r = .ok ())
      (Triple.modify fun _ h => by
        obtain ⟨he', rfl⟩ := h
        exact ⟨he'.aside ⟨rfl, rfl, rfl, rfl, rfl, rfl, rfl⟩ rfl, hov⟩) (fun _ => ?_) fun _ _ h => h.1.1
    refine Triple.bind_get_eq fun e₂ => Triple.bind
      (R := fun r e₁ => e₁.Accounted C t R M ∧ ∀ a, r = .ok a → a.Accounted C t R M)
      (Triple.lift fun e₁ a h hx => ⟨h.1.1.1, fun a' ha' => by
        cases ha'
        obtain ⟨⟨⟨he₁, hov₁⟩, -⟩, rfl⟩ := h
        exact he₁.restart hov₁ hx⟩) (fun a => ?_) fun _ _ h => h.1
    refine Triple.bind (Triple.set a fun _ h₂ => h₂.2 a rfl) (fun _ => ?_) fun _ _ h => h.1
    refine Triple.mono ?_ (fun _ h => h.1) fun _ _ h => h
    exact Keeps.bind Keeps.checkInterruption fun _ => Keeps.bind transition_accounted fun _ => Keeps.pure _
  · exact Keeps.bind weakRefsWork_accounted fun _ =>
      Keeps.bind (modify_accounted (fun _ => ⟨rfl, rfl, rfl, rfl, rfl, rfl, rfl⟩) fun _ => rfl) fun _ => Keeps.pure _

theorem remark_accounted : Keeps (Engine.Accounted C t R M) remark :=
  Keeps.bind transition_accounted fun _ => remarkLocked_accounted

theorem cleanup_accounted : Keeps (Engine.Accounted C t R M) cleanup :=
  Keeps.bind transition_accounted fun _ => Keeps.bind_get fun _ _ => Keeps.lift

theorem finish_accounted : Keeps (Engine.Accounted C t R M) finish :=
  Keeps.bind transition_accounted fun _ =>
    modify_accounted (fun _ => ⟨rfl, rfl, rfl, rfl, rfl, rfl, rfl⟩) fun _ => rfl

theorem markUntilRemarked_accounted (fuel : Nat) : Keeps (Engine.Accounted C t R M) (markUntilRemarked fuel) := by
  induction fuel with
  | zero => exact Keeps.lift
  | succ fuel ih =>
    unfold markUntilRemarked
    refine Keeps.bind markFromRoots_accounted fun _ => Keeps.bind preclean_accounted fun _ => ?_
    exact Keeps.bind remark_accounted fun _ => Keeps.ite (Keeps.pure _) ih

theorem abort_accounted {e e' : Engine} {b : Bool} (he : e.Accounted C t R M) (h : abort.run e = .ok (b, e')) :
    e'.Accounted C t R M := by
  rw [abort_run] at h
  split at h <;> cases h <;> exact he.aside ⟨rfl, rfl, rfl, rfl, rfl, rfl, rfl⟩ rfl

theorem runCycle_accounted : Keeps (Engine.Accounted C t R M) runCycle := by
  unfold runCycle
  refine Keeps.tryCatch ?_ fun err => ?_
  · refine Keeps.bind scanRootRegions_accounted fun _ =>
      Keeps.bind (markUntilRemarked_accounted _) fun _ => ?_
    exact Keeps.bind cleanup_accounted fun _ => Keeps.bind finish_accounted fun _ => Keeps.pure _
  · split
    · exact Keeps.bind (Keeps.update fun _ _ _ he h => abort_accounted he h) fun _ => Keeps.throw _
    · exact Keeps.throw _

theorem markRoot_accounted {a : Nat} {b : Bool} {e e' : Engine} (he : e.Accounted C t R M)
    (h : (markRoot a).run e = .ok (b, e')) : e'.Accounted C t R M := by
  unfold markRoot at h
  simp only [StateT.run, bind, Except.bind] at h
  split at h
  · cases h
  · rename_i p hp
    obtain ⟨hit, e₁⟩ := p
    have he₁ := he.tryMark hp
    simp only at h
    split at h
    · cases h
      exact he₁
    · split at h
      · cases h
      · cases h
        exact he₁.aside ⟨rfl, rfl, rfl, rfl, rfl, rfl, rfl⟩ rfl

end Cycle

namespace Op

variable {C : MarkConfig} {t : Prop} {R : Nat × List Bitmap} {M : Nat} {e e' : Engine}

/-- 周期の中の操作：周期を始めず、ビットマップを消さず、ヒープを書き換えない。 -/
def withinCycle : Op → Bool
  | .start | .clearBitmap | .mutate _ => false
  | _ => true

/-- 周期の中のどの操作も勘定を保つ。 -/
theorem run_accounted {op : Op} (hop : op.withinCycle = true) (he : e.Accounted C t R M)
    (h : op.run e = .ok e') : e'.Accounted C t R M := by
  cases op with
  | start | clearBitmap | mutate _ => cases hop
  | addRootRegion g => exact exec_keeps (Cycle.addRootRegion_accounted g) he h
  | markRoot a =>
    obtain ⟨_, hr⟩ := Except.snd_ok h
    exact Cycle.markRoot_accounted he hr
  | scanRootRegions => exact exec_keeps Cycle.scanRootRegions_accounted he h
  | markFromRoots => exact exec_keeps Cycle.markFromRoots_accounted he h
  | preclean => exact exec_keeps Cycle.preclean_accounted he h
  | remark => exact exec_keeps Cycle.remark_accounted he h
  | cleanup => exact exec_keeps Cycle.cleanup_accounted he h
  | finish => exact exec_keeps Cycle.finish_accounted he h
  | abort =>
    obtain ⟨_, hr⟩ := Except.snd_ok h
    exact Cycle.abort_accounted he hr
  | abortThreads => cases h; exact he.aside ⟨rfl, rfl, rfl, rfl, rfl, rfl, rfl⟩ rfl
  | runCycle => exact exec_keeps Cycle.runCycle_accounted he h
  | satb b => cases h; exact he.aside ⟨rfl, rfl, rfl, rfl, rfl, rfl, rfl⟩ rfl

theorem runAll_accounted {ops : List Op} (hops : ∀ op ∈ ops, op.withinCycle = true)
    (he : e.Accounted C t R M) (h : runAll ops e = .ok e') : e'.Accounted C t R M := by
  induction ops generalizing e with
  | nil => cases h; exact he
  | cons op ops ih =>
    simp only [runAll, bind, Except.bind] at h
    split at h
    · cases h
    · exact ih (fun op' h' => hops op' (List.mem_cons_of_mem op h'))
        (run_accounted (hops op List.mem_cons_self) he ‹_›) h

end Op

end RegionMark
