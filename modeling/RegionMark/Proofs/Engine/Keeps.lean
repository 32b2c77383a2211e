import RegionMark.Proofs.Engine.Triple

/-!
# マーキング関数は閉じた不変条件を保つ

`Closed A I` のもとで、マーキングタスクのすべての関数が `I` を保つ。1 つの関数に 1 つの補題を置き、本体の
形のまま三つ組の規則で組み立てる。燃料で回る繰り返しは燃料についての帰納法による。
-/

namespace RegionMark

namespace Heap

theorem mem_references_of_plainRefs {h : Heap} {a b : Nat} (hb : b ∈ h.plainRefs a) :
    b ∈ h.references a := by
  unfold plainRefs at hb
  unfold references
  split at hb
  · rename_i h_1
    rw [h_1]
    exact hb
  · cases hb

theorem mem_references_of_arrayRefs {h : Heap} {a lo hi b : Nat} (hb : b ∈ h.arrayRefs a lo hi) :
    b ∈ h.references a := by
  unfold arrayRefs at hb
  unfold references
  split at hb
  · rename_i es h_1
    rw [h_1]
    obtain ⟨x, hx, hxb⟩ := List.mem_filterMap.mp hb
    refine List.mem_filterMap.mpr ⟨x, ?_, hxb⟩
    rw [Array.toList_extract] at hx
    exact List.mem_of_mem_drop (List.mem_of_mem_take hx)
  · cases hb

end Heap

namespace Engine

open Marking in
theorem withStack_edit {α : Type} {e e' : Engine} {f : MarkStack → Except Panic (α × MarkStack)}
    {a : α} (h : e.withStack f = .ok (a, e')) : EngEdit e e' := by
  unfold Engine.withStack at h
  cases hf : f e.stack with
  | error => simp only [hf] at h; cases h
  | ok p => simp only [hf] at h; cases h; exact .stack _

open Marking in
theorem claimRegion_edit (e : Engine) : EngEdit e e.claimRegion.2 := by
  unfold claimRegion
  split
  · exact .finger e.finger
  · exact .finger _

end Engine

namespace Marking

variable {A : Nat → Prop} {I : Worker → Prop} {α : Type}

/-- 統計のキャッシュに加える計算が成功すれば、その中の加算が成功している。 -/
theorem ok_of_unit_ok {x : Except Panic (StatsCache × RegionStats)} {u : Unit} {c : StatsCache}
    {g : RegionStats}
    (h : (do let (c, g) ← x; return ((), c, g) : Except Panic (Unit × StatsCache × RegionStats)) =
      .ok (u, c, g)) :
    x = .ok (c, g) := by
  cases x with
  | error => cases h
  | ok p => cases h; rfl

theorem isBelowFinger_keeps (a g : Nat) : Keeps I (isBelowFinger a g) := by
  unfold isBelowFinger
  refine Keeps.bind Keeps.getTask fun t => ?_
  split
  · refine Keeps.ite (Keeps.bind (Keeps.violated _) fun _ => ?_) ?_ <;>
    exact Keeps.ite (Keeps.pure _) (Keeps.ite (Keeps.pure _) (Keeps.pure _))
  · exact Keeps.pure _

theorem checkFinished_keeps : Keeps I checkFinished := by
  unfold checkFinished
  refine Keeps.bind Keeps.getEng fun _ => ?_
  refine Keeps.ite (Keeps.bind (Keeps.violated _) fun _ => ?_) ?_ <;>
  · refine Keeps.bind Keeps.getTask fun _ => ?_
    refine Keeps.ite (Keeps.bind (Keeps.violated _) fun _ => ?_) ?_ <;>
    exact Keeps.ite (Keeps.violated _) (Keeps.pure _)

section

variable (hC : Closed A I)
include hC

/-! ## 書き換えの部品 -/

theorem modifyEng_keeps {f : Engine → Engine} (hf : ∀ e, EngEdit e (f e)) : Keeps I (modifyEng f) :=
  Triple.modifyEng fun s hs => hC.edit s _ hs (hf s.eng)

theorem modifyTask_keeps {f : MarkTask → MarkTask} (hf : ∀ t, (f t).id = t.id ∧ (f t).cache = t.cache) :
    Keeps I (modifyTask f) :=
  Triple.modifyTask fun s hs => hC.task s _ hs (hf s.task).1 (hf s.task).2

theorem withStack_keeps {f : MarkStack → Except Panic (α × MarkStack)} :
    Keeps I (updateEng (·.withStack f)) :=
  Triple.updateEng fun s _ _ hs h => hC.edit s _ hs (Engine.withStack_edit h)

theorem recalculateLimits_keeps : Keeps I recalculateLimits := modifyTask_keeps hC fun _ => ⟨rfl, rfl⟩

theorem decreaseLimits_keeps : Keeps I decreaseLimits := modifyTask_keeps hC fun _ => ⟨rfl, rfl⟩

theorem flushStatsCache_keeps : Keeps I flushStatsCache :=
  Keeps.bind (Triple.updateStats fun s p c g hs h => hC.flush s p c g hs h) fun _ =>
    modifyTask_keeps hC fun _ => ⟨rfl, rfl⟩

theorem markInBitmap_keeps {a : Nat} (ha : A a) : Keeps I (markInBitmap a) := by
  unfold markInBitmap
  refine Triple.bind
    (Q := fun hit s => ∃ s₀, I s₀ ∧ s₀.eng.tryMark a = .ok (hit, s.eng) ∧ s.task = s₀.task)
    (Triple.updateEng fun s hit e hs h => ⟨s, hs, h, rfl⟩) fun hit => ?_
  rcases hit with _ | ⟨r, w⟩
  · refine Triple.pure _ fun ⟨e, t⟩ ⟨s₀, hs₀, hm, ht⟩ => ?_
    cases ht
    exact hC.unmarked s₀ a e hs₀ ha hm
  · refine Triple.bind (Q := fun _ => I) (Triple.updateStats fun ⟨e, t⟩ u c g hs h => ?_) fun _ =>
      Keeps.pure _
    obtain ⟨s₀, hs₀, hm, ht⟩ := hs
    cases ht
    exact hC.mark s₀ a r w e c g hs₀ ha hm (ok_of_unit_ok h)

/-! ## ローカルキューと大域スタック -/

theorem moveEntriesToGlobalStack_keeps (room : Nat) : Keeps I (moveEntriesToGlobalStack room) := by
  unfold moveEntriesToGlobalStack
  refine Keeps.bind Keeps.getTask fun t => Keeps.bind Keeps.getEng fun e => ?_
  split
  refine Keeps.bind (modifyEng_keeps hC fun _ => .queues _) fun _ => Keeps.ite ?_ ?_
  · refine Keeps.bind (withStack_keeps hC) fun ok => Keeps.ite ?_ ?_
    · exact Keeps.bind (modifyTask_keeps hC fun _ => ⟨rfl, rfl⟩) fun _ => decreaseLimits_keeps hC
    · exact Keeps.bind (modifyEng_keeps hC fun _ => .overflow) fun _ =>
        Keeps.bind (modifyTask_keeps hC fun _ => ⟨rfl, rfl⟩) fun _ => decreaseLimits_keeps hC
  · exact decreaseLimits_keeps hC

theorem pushWith_keeps (room : Nat) (x : TaskEntry) : Keeps I (pushWith room x) := by
  unfold pushWith
  refine Keeps.ite (Keeps.bind (Keeps.violated _) fun _ => ?_) ?_ <;>
  · refine Keeps.bind Keeps.getTask fun t => Keeps.bind Keeps.getEng fun e => Keeps.ite ?_ ?_
    · refine Keeps.bind (moveEntriesToGlobalStack_keeps hC room) fun _ =>
        Keeps.bind Keeps.getEng fun e' => Keeps.ite ?_ ?_
      · exact Keeps.bind (Keeps.violated _) fun _ => modifyEng_keeps hC fun _ => .queues _
      · exact modifyEng_keeps hC fun _ => .queues _
    · exact modifyEng_keeps hC fun _ => .queues _

theorem push_keeps (x : TaskEntry) : Keeps I (push x) :=
  Keeps.bind Keeps.getEng fun _ => pushWith_keeps hC _ x

theorem makeReferenceGrey_keeps {a : Nat} (ha : A a) : Keeps I (makeReferenceGrey a) := by
  unfold makeReferenceGrey
  refine Keeps.bind (markInBitmap_keeps hC ha) fun _ => Keeps.ite (Keeps.pure _) ?_
  refine Keeps.bind Keeps.getEng fun e => Keeps.bind (isBelowFinger_keeps a _) fun _ => ?_
  exact Keeps.ite (push_keeps hC _) (Keeps.pure _)

/-! ## 時計と SATB のバッファ -/

theorem clockStops_keeps : Keeps I clockStops := by
  unfold clockStops
  refine Keeps.bind Keeps.getTask fun t => Keeps.ite (Keeps.pure _) ?_
  refine Keeps.bind (recalculateLimits_keeps hC) fun _ => Keeps.bind Keeps.getEng fun e => ?_
  refine Keeps.ite (Keeps.bind (modifyTask_keeps hC fun _ => ⟨rfl, rfl⟩) fun _ => Keeps.pure _) ?_
  refine Keeps.ite (Keeps.pure _) ?_
  refine Keeps.ite (Keeps.bind (modifyTask_keeps hC fun _ => ⟨rfl, rfl⟩) fun _ => Keeps.pure _) ?_
  refine Keeps.ite ?_ (Keeps.pure _)
  refine Keeps.bind (modifyEng_keeps hC fun _ => .clock _) fun _ => Keeps.ite ?_ (Keeps.pure _)
  exact Keeps.bind (modifyTask_keeps hC fun _ => ⟨rfl, rfl⟩) fun _ => Keeps.pure _

theorem drainSatbLoop_keeps (fuel : Nat) : Keeps I (drainSatbLoop fuel) := by
  induction fuel with
  | zero => exact Keeps.pure _
  | succ fuel ih =>
    unfold drainSatbLoop
    refine Keeps.bind Keeps.getTask fun t => Keeps.ite (Keeps.pure _) (Keeps.bind_eng_eq fun e => ?_)
    -- 取り出すバッファの中身は、読んだエンジンの列にあるので `A` を満たす。
    refine Triple.assume (c := ∀ buf ∈ e.satb.completed, ∀ b ∈ buf, A b)
      (fun s ⟨hs, he⟩ => he ▸ hC.satb s hs) fun hA => ?_
    split
    rename_i b sb htake
    split
    · rename_i objs
      refine Triple.bind (Q := fun _ => I) (Triple.modifyEng fun s ⟨hs, he⟩ => ?_) fun _ => ?_
      · subst he
        exact hC.edit s _ hs (.satb sb (SatbSet.take_sublist htake))
      refine Keeps.bind (Keeps.forIn _ fun a ha _ => ?_) fun _ => ?_
      · exact Keeps.bind (makeReferenceGrey_keeps hC (hA objs (SatbSet.mem_take htake) a ha)) fun _ =>
          Keeps.pure _
      · exact Keeps.bind (modifyTask_keeps hC fun _ => ⟨rfl, rfl⟩) fun _ =>
          Keeps.bind (clockStops_keeps hC) fun _ => ih
    · exact Triple.pure _ fun _ h => h.1

theorem drainSatbBuffers_keeps : Keeps I drainSatbBuffers := by
  unfold drainSatbBuffers
  refine Keeps.bind (modifyTask_keeps hC fun _ => ⟨rfl, rfl⟩) fun _ => ?_
  refine Keeps.bind Keeps.getEng fun _ => Keeps.bind (drainSatbLoop_keeps hC _) fun _ => ?_
  exact Keeps.bind (modifyTask_keeps hC fun _ => ⟨rfl, rfl⟩) fun _ => decreaseLimits_keeps hC

theorem regularClockCall_keeps : Keeps I regularClockCall :=
  Keeps.bind (clockStops_keeps hC) fun _ => Keeps.ite (drainSatbBuffers_keeps hC) (Keeps.pure _)

theorem checkLimits_keeps : Keeps I checkLimits :=
  Keeps.bind Keeps.getTask fun _ => Keeps.ite (regularClockCall_keeps hC) (Keeps.pure _)

/-! ## 参照と走査 -/

theorem dealWithReference_keeps {a : Nat} (ha : A a) : Keeps I (dealWithReference a) :=
  Keeps.bind (modifyTask_keeps hC fun _ => ⟨rfl, rfl⟩) fun _ => makeReferenceGrey_keeps hC ha

theorem dealWithField_keeps (fromRegion : Option Nat) {a : Nat} (ha : A a) :
    Keeps I (dealWithField fromRegion a) := by
  unfold dealWithField
  refine Keeps.bind Keeps.getEng fun e => ?_
  split
  · refine Keeps.ite ?_ (dealWithReference_keeps hC ha)
    refine Keeps.bind (Triple.updateStats fun s u c g hs h => ?_) fun _ => dealWithReference_keeps hC ha
    exact hC.incoming s _ c g hs (ok_of_unit_ok h)
  · exact dealWithReference_keeps hC ha

theorem addWords_keeps (n : Nat) : Keeps I (addWords n) :=
  Keeps.bind Keeps.getTask fun _ => Keeps.bind Keeps.check fun _ =>
    modifyTask_keeps hC fun _ => ⟨rfl, rfl⟩

theorem scanArraySlice_keeps (array lo : Nat) : Keeps I (scanArraySlice array lo) := by
  unfold scanArraySlice
  refine Keeps.bind_eng fun s hs => ?_
  refine Keeps.ite (Keeps.bind Keeps.check fun _ => Keeps.bind Keeps.check fun _ =>
    Keeps.bind (push_keeps hC _) fun _ => ?_) ?_ <;>
  · refine Keeps.bind (Keeps.forIn _ fun b hb _ => ?_) fun _ => addWords_keeps hC _
    have hA := hC.refs s array hs b (Heap.mem_references_of_arrayRefs hb)
    exact Keeps.bind (dealWithField_keeps hC _ hA) fun _ => Keeps.pure _

theorem scanObject_keeps (a : Nat) : Keeps I (scanObject a) := by
  unfold scanObject
  refine Keeps.bind_eng fun s hs => ?_
  have hplain : ∀ b ∈ s.eng.heap.plainRefs a, A b := fun b hb =>
    hC.refs s a hs b (Heap.mem_references_of_plainRefs hb)
  have harray : ∀ lo hi, ∀ b ∈ s.eng.heap.arrayRefs a lo hi, A b := fun lo hi b hb =>
    hC.refs s a hs b (Heap.mem_references_of_arrayRefs hb)
  refine Keeps.bind (modifyTask_keeps hC fun _ => ⟨rfl, rfl⟩) fun _ => ?_
  refine Keeps.bind (Keeps.forIn _ fun b hb _ =>
    Keeps.bind (dealWithField_keeps hC _ (hplain b hb)) fun _ => Keeps.pure _) fun _ => ?_
  split
  · refine Keeps.bind Keeps.check fun _ => Keeps.ite ?_ ?_
    · exact Keeps.bind (addWords_keeps hC _) fun _ => scanArraySlice_keeps hC a 0
    · refine Keeps.bind (Keeps.forIn _ fun b hb _ =>
        Keeps.bind (dealWithField_keeps hC _ (harray _ _ b hb)) fun _ => Keeps.pure _) fun _ => ?_
      exact addWords_keeps hC _
  · exact addWords_keeps hC _

theorem scanTaskEntry_keeps (x : TaskEntry) : Keeps I (scanTaskEntry x) := by
  unfold scanTaskEntry
  cases x with
  | obj a => exact Keeps.bind (scanObject_keeps hC a) fun _ => checkLimits_keeps hC
  | slice a =>
    refine Keeps.bind Keeps.getEng fun _ => Keeps.bind Keeps.check fun p => ?_
    exact Keeps.bind (scanArraySlice_keeps hC p.1 p.2) fun _ => checkLimits_keeps hC
  | null => exact Keeps.bind (Keeps.violated _) fun _ => checkLimits_keeps hC

/-! ## 吐き出し -/

theorem drainLocalLoop_keeps (target fuel : Nat) : Keeps I (drainLocalLoop target fuel) := by
  induction fuel with
  | zero => exact Keeps.pure _
  | succ fuel ih =>
    unfold drainLocalLoop
    refine Keeps.bind Keeps.getTask fun t => Keeps.bind Keeps.getEng fun e => ?_
    split
    split
    · refine Keeps.bind (modifyEng_keeps hC fun _ => .queues _) fun _ => ?_
      refine Keeps.bind (scanTaskEntry_keeps hC _) fun _ => Keeps.bind Keeps.getEng fun _ => ?_
      exact Keeps.bind Keeps.getTask fun _ => Keeps.ite (Keeps.pure _) ih
    · exact Keeps.pure _

theorem drainLocalQueue_keeps (partially : Bool) : Keeps I (drainLocalQueue partially) := by
  unfold drainLocalQueue
  refine Keeps.bind Keeps.getTask fun _ => Keeps.ite (Keeps.pure _) ?_
  refine Keeps.bind Keeps.getEng fun _ => Keeps.bind Keeps.getTask fun _ => ?_
  exact Keeps.ite (Keeps.pure _) (drainLocalLoop_keeps hC _ _)

theorem getEntriesFromGlobalStack_keeps : Keeps I getEntriesFromGlobalStack := by
  unfold getEntriesFromGlobalStack
  refine Keeps.bind Keeps.getEng fun _ => Keeps.bind (withStack_keeps hC) fun r => ?_
  rcases r with _ | es
  · exact Keeps.pure _
  · refine Keeps.bind (modifyTask_keeps hC fun _ => ⟨rfl, rfl⟩) fun _ => ?_
    refine Keeps.bind (Keeps.forIn _ fun x _ _ =>
      Keeps.bind (pushWith_keeps hC 0 x) fun _ => Keeps.pure _) fun _ => ?_
    exact Keeps.bind (decreaseLimits_keeps hC) fun _ => Keeps.pure _

theorem drainGlobalLoop_keeps (partially : Bool) (target fuel : Nat) :
    Keeps I (drainGlobalLoop partially target fuel) := by
  induction fuel with
  | zero => exact Keeps.pure _
  | succ fuel ih =>
    unfold drainGlobalLoop
    refine Keeps.bind Keeps.getTask fun _ => Keeps.bind Keeps.getEng fun _ => Keeps.ite (Keeps.pure _) ?_
    refine Keeps.bind (getEntriesFromGlobalStack_keeps hC) fun _ => Keeps.ite (Keeps.pure _) ?_
    exact Keeps.bind (drainLocalQueue_keeps hC _) fun _ => ih

theorem drainGlobalStack_keeps (partially : Bool) : Keeps I (drainGlobalStack partially) := by
  unfold drainGlobalStack
  refine Keeps.bind Keeps.getTask fun _ => Keeps.ite (Keeps.pure _) ?_
  exact Keeps.bind Keeps.getEng fun _ => drainGlobalLoop_keeps hC _ _ _

/-! ## リージョン -/

theorem giveUpRegion_keeps : Keeps I giveUpRegion := by
  unfold giveUpRegion
  refine Keeps.bind Keeps.getTask fun _ => ?_
  refine Keeps.ite (Keeps.bind (Keeps.violated _) fun _ => ?_) ?_ <;>
  exact Keeps.bind (flushStatsCache_keeps hC) fun _ => modifyTask_keeps hC fun _ => ⟨rfl, rfl⟩

theorem setupForRegion_keeps (r : Nat) : Keeps I (setupForRegion r) :=
  Keeps.bind Keeps.getEng fun _ => modifyTask_keeps hC fun _ => ⟨rfl, rfl⟩

theorem moveFingerTo_keeps (a : Nat) : Keeps I (moveFingerTo a) := by
  unfold moveFingerTo
  refine Keeps.bind Keeps.getTask fun _ => ?_
  refine Keeps.ite (Keeps.bind (Keeps.violated _) fun _ => ?_) ?_ <;>
  exact modifyTask_keeps hC fun _ => ⟨rfl, rfl⟩

theorem walkRegion_keeps (limit fuel cur : Nat) : Keeps I (walkRegion limit fuel cur) := by
  induction fuel generalizing cur with
  | zero => exact Keeps.pure _
  | succ fuel ih =>
    unfold walkRegion
    refine Keeps.bind Keeps.getEng fun _ => Keeps.bind Keeps.check fun r => ?_
    rcases r with _ | a
    · exact Keeps.pure _
    · refine Keeps.bind (moveFingerTo_keeps hC a) fun _ => ?_
      refine Keeps.bind (scanTaskEntry_keeps hC _) fun _ => ?_
      refine Keeps.bind (drainLocalQueue_keeps hC _) fun _ => ?_
      refine Keeps.bind (drainGlobalStack_keeps hC _) fun _ => ?_
      exact Keeps.bind Keeps.getTask fun _ => Keeps.ite (Keeps.pure _) (ih _)

theorem scanCurrentRegion_keeps : Keeps I scanCurrentRegion := by
  unfold scanCurrentRegion
  refine Keeps.bind Keeps.getTask fun t => ?_
  split
  · refine Keeps.ite ?_ ?_
    · exact Keeps.bind (giveUpRegion_keeps hC) fun _ =>
        Keeps.bind (regularClockCall_keeps hC) fun _ => Keeps.pure _
    · refine Keeps.bind (walkRegion_keeps hC _ _ _) fun _ => Keeps.ite ?_ ?_
      · exact Keeps.bind (giveUpRegion_keeps hC) fun _ =>
          Keeps.bind (regularClockCall_keeps hC) fun _ => Keeps.pure _
      · -- 打ち切られた歩みの後は、最後に走査したオブジェクトの先にフィンガーを置く。
        refine Keeps.bind Keeps.getTask fun _ => Keeps.ite (Keeps.bind (Keeps.violated _) fun _ => ?_) ?_ <;>
        · refine Keeps.bind Keeps.getTask fun t' => ?_
          split
          · refine Keeps.bind Keeps.getEng fun _ => Keeps.bind Keeps.check fun _ => ?_
            refine Keeps.bind Keeps.check fun _ => Keeps.bind Keeps.getTask fun _ => ?_
            exact Keeps.ite (giveUpRegion_keeps hC) (moveFingerTo_keeps hC _)
          · exact Keeps.pure _
  · exact Keeps.pure _

/-! ## 盗みと計数 -/

theorem stealFrom_keeps (v : Nat) : Keeps I (trySteal.stealFrom v) := by
  unfold trySteal.stealFrom
  refine Keeps.bind Keeps.getEng fun _ => ?_
  split
  exact Keeps.ite (Keeps.bind (modifyEng_keeps hC fun _ => .queues _) fun _ => Keeps.pure _)
    (Keeps.pure _)

theorem randomProbes_keeps (w n k : Nat) : Keeps I (trySteal.randomProbes w n k) := by
  induction k with
  | zero => exact Keeps.pure _
  | succ k ih =>
    unfold trySteal.randomProbes
    refine Keeps.bind_task_eq fun t => ?_
    split
    rename_i v t' hv
    -- 盗み先の生成器だけが進み、タスクの番号とキャッシュは変わらない。
    refine Triple.bind (Q := fun _ => I) (Triple.modifyTask fun s ⟨hs, ht⟩ => ?_) fun _ => ?_
    · subst ht
      have ht' : t' = (s.task.nextVictim n).2 := by rw [hv]
      subst ht'
      exact hC.task s _ hs rfl rfl
    · refine Keeps.ite ?_ ih
      refine Keeps.bind (stealFrom_keeps hC _) fun r => ?_
      rcases r with _ | x
      · exact ih
      · exact Keeps.pure _

theorem sweep_keeps (w n : Nat) (ks : List Nat) : Keeps I (trySteal.sweep w n ks) := by
  induction ks with
  | nil => exact Keeps.pure _
  | cons k ks ih =>
    unfold trySteal.sweep
    refine Keeps.bind (stealFrom_keeps hC _) fun r => ?_
    rcases r with _ | x
    · exact ih
    · exact Keeps.pure _

theorem trySteal_keeps : Keeps I trySteal := by
  unfold trySteal
  refine Keeps.bind Keeps.getEng fun _ => Keeps.ite (Keeps.pure _) ?_
  refine Keeps.bind Keeps.getTask fun _ => Keeps.bind (randomProbes_keeps hC _ _ _) fun r => ?_
  rcases r with _ | x
  · exact sweep_keeps hC _ _ _
  · exact Keeps.pure _

theorem flushCounts_keeps : Keeps I flushCounts :=
  Keeps.bind Keeps.getTask fun _ => Keeps.bind (modifyEng_keeps hC fun _ => .metrics _ rfl) fun _ =>
    modifyTask_keeps hC fun _ => ⟨rfl, rfl⟩

/-! ## ステップ -/

theorem beginStep_keeps (timed : Bool) : Keeps I (beginStep timed) :=
  Keeps.bind Keeps.getEng fun _ => Keeps.bind (modifyTask_keeps hC fun _ => ⟨rfl, rfl⟩) fun _ =>
    Keeps.bind (recalculateLimits_keeps hC) fun _ => modifyTask_keeps hC fun _ => ⟨rfl, rfl⟩

theorem claimLoop_keeps (fuel : Nat) : Keeps I (claimLoop fuel) := by
  induction fuel with
  | zero => exact Keeps.pure _
  | succ fuel ih =>
    unfold claimLoop
    refine Keeps.bind Keeps.getTask fun _ => Keeps.bind Keeps.getTask fun _ => ?_
    refine Keeps.bind Keeps.getEng fun _ => Keeps.ite (Keeps.pure _) (Keeps.bind_eng_eq fun e => ?_)
    split
    rename_i r e' hc
    -- 取ったリージョンの先へ大域のフィンガーを進めたエンジンを書き戻す。
    refine Triple.bind (Q := fun _ => I) (Triple.modify fun s ⟨hs, he⟩ => ?_) fun _ => ?_
    · subst he
      have : e' = s.eng.claimRegion.2 := by rw [hc]
      subst this
      exact hC.edit s _ hs (Engine.claimRegion_edit s.eng)
    · have hrest : Keeps I (regularClockCall >>= fun _ => claimLoop fuel) :=
        Keeps.bind (regularClockCall_keeps hC) fun _ => ih
      split
      · exact Keeps.bind (setupForRegion_keeps hC _) fun _ => hrest
      · exact hrest

theorem regionLoop_keeps (fuel : Nat) : Keeps I (regionLoop fuel) := by
  induction fuel with
  | zero => exact Keeps.pure _
  | succ fuel ih =>
    unfold regionLoop
    refine Keeps.bind Keeps.getTask fun _ => Keeps.bind Keeps.getTask fun _ => ?_
    refine Keeps.ite (Keeps.bind (scanCurrentRegion_keeps hC) fun _ => ?_) ?_ <;>
    · refine Keeps.bind (drainLocalQueue_keeps hC _) fun _ =>
        Keeps.bind (drainGlobalStack_keeps hC _) fun _ => ?_
      refine Keeps.bind Keeps.getEng fun _ => Keeps.bind (claimLoop_keeps hC _) fun _ => ?_
      exact Keeps.bind Keeps.getTask fun _ => Keeps.bind Keeps.getTask fun _ => Keeps.ite (Keeps.pure _) ih

theorem stealLoop_keeps (fuel : Nat) : Keeps I (stealLoop fuel) := by
  induction fuel with
  | zero => exact Keeps.pure _
  | succ fuel ih =>
    unfold stealLoop
    refine Keeps.bind Keeps.getTask fun _ => Keeps.ite (Keeps.pure _) ?_
    refine Keeps.bind (modifyTask_keeps hC fun _ => ⟨rfl, rfl⟩) fun _ => ?_
    refine Keeps.bind (trySteal_keeps hC) fun r => ?_
    rcases r with _ | x
    · exact Keeps.pure _
    · refine Keeps.bind (modifyTask_keeps hC fun _ => ⟨rfl, rfl⟩) fun _ => ?_
      refine Keeps.bind (scanTaskEntry_keeps hC x) fun _ => ?_
      exact Keeps.bind (drainLocalQueue_keeps hC _) fun _ =>
        Keeps.bind (drainGlobalStack_keeps hC _) fun _ => ih

theorem stepWork_keeps (steal : Bool) : Keeps I (stepWork steal) := by
  unfold stepWork
  have htail : Keeps I (do
      drainLocalQueue false
      drainGlobalStack false
      if steal then stealLoop loopFuel) :=
    Keeps.bind (drainLocalQueue_keeps hC _) fun _ => Keeps.bind (drainGlobalStack_keeps hC _) fun _ =>
      Keeps.ite (stealLoop_keeps hC _) (Keeps.pure _)
  refine Keeps.bind (drainSatbBuffers_keeps hC) fun _ => Keeps.bind (drainLocalQueue_keeps hC _) fun _ => ?_
  refine Keeps.bind (drainGlobalStack_keeps hC _) fun _ => ?_
  refine Keeps.bind Keeps.getEng fun _ => Keeps.bind (regionLoop_keeps hC _) fun _ => ?_
  refine Keeps.bind Keeps.getTask fun _ => Keeps.ite ?_ htail
  refine Keeps.bind Keeps.getEng fun _ => Keeps.ite (Keeps.bind (Keeps.violated _) fun _ => ?_) ?_ <;>
  exact Keeps.bind (drainSatbBuffers_keeps hC) fun _ => htail

theorem recordTimeout_keeps : Keeps I recordTimeout :=
  Keeps.bind Keeps.getTask fun _ =>
    Keeps.ite (modifyEng_keeps hC fun _ => .metrics _ rfl) (Keeps.pure _)

theorem endStep_keeps : Keeps I endStep :=
  Keeps.bind (flushStatsCache_keeps hC) fun _ => flushCounts_keeps hC

theorem serialStep_keeps (timed doTermination : Bool) : Keeps I (serialStep timed doTermination) := by
  unfold serialStep
  refine Keeps.bind (beginStep_keeps hC _) fun _ => Keeps.bind (stepWork_keeps hC _) fun _ => ?_
  refine Keeps.bind Keeps.getTask fun _ => Keeps.ite (Keeps.bind checkFinished_keeps fun _ => ?_) ?_ <;>
  · refine Keeps.bind (recordTimeout_keeps hC) fun _ => ?_
    refine Keeps.bind Keeps.getTask fun _ => Keeps.bind Keeps.getEng fun _ => Keeps.ite ?_ (endStep_keeps hC)
    exact Keeps.bind (flushStatsCache_keeps hC) fun _ =>
      Keeps.bind (modifyTask_keeps hC fun _ => ⟨rfl, rfl⟩) fun _ => endStep_keeps hC

theorem drainSerially_keeps (timed doTermination : Bool) (fuel : Nat) :
    Keeps I (drainSerially timed doTermination fuel) := by
  induction fuel with
  | zero => exact Keeps.pure _
  | succ fuel ih =>
    unfold drainSerially
    refine Keeps.bind (serialStep_keeps hC _ _) fun _ => ?_
    exact Keeps.bind Keeps.getTask fun _ => Keeps.bind Keeps.getEng fun _ =>
      Keeps.bind Keeps.getEng fun _ => Keeps.ite (Keeps.pure _) ih

theorem keepAlive_keeps (timed : Bool) (n : Nat) {a : Nat} (ha : A a) :
    Keeps I (keepAlive timed n a) :=
  Keeps.bind (dealWithReference_keeps hC ha) fun _ =>
    Keeps.ite (Keeps.bind (drainSerially_keeps hC _ _ _) fun _ => Keeps.pure _) (Keeps.pure _)

/-! ## 並行フェーズの区切り -/

theorem finishStep_keeps (again : Engine → MarkTask → Bool) : Keeps I (finishStep again) :=
  Keeps.bind (endStep_keeps hC) fun _ => Keeps.bind Keeps.getEng fun _ =>
    Keeps.bind Keeps.getTask fun _ => Keeps.pure _

theorem afterFirstBarrier_keeps (again : Engine → MarkTask → Bool) :
    Keeps I (afterFirstBarrier again) := by
  unfold afterFirstBarrier
  refine Keeps.bind (modifyTask_keeps hC fun _ => ⟨rfl, rfl⟩) fun _ => ?_
  refine Keeps.bind Keeps.getEng fun _ => Keeps.bind Keeps.getTask fun _ => Keeps.ite ?_ ?_
  -- 0 番のタスクが、やり直したエンジンを書き戻してから合流する。
  refine Keeps.bind_eng_eq fun e => Triple.bind
    (Q := fun e' s => (I s ∧ s.eng = e) ∧ e.restartAfterOverflow = .ok e')
    (Triple.check fun s e' hs h => ⟨hs, h⟩) fun e' => Triple.bind (Q := fun _ => I)
      (Triple.modify fun s h => ?_) fun _ => ?_
  · obtain ⟨⟨hs, he⟩, hr⟩ := h
    subst he
    exact hC.restart s e' hs hr
  -- 合流点：第 2 のバリアに入る。
  all_goals
    refine Keeps.bind Keeps.getEng fun _ => ?_
    split
    refine Keeps.bind (modifyEng_keeps hC fun _ => .secondBarrier _) fun _ => ?_
    split
    · exact Keeps.pure _
    · exact finishStep_keeps hC again

theorem stepTail_keeps (again : Engine → MarkTask → Bool) : Keeps I (stepTail again) := by
  unfold stepTail
  refine Keeps.bind (recordTimeout_keeps hC) fun _ => Keeps.bind Keeps.getTask fun _ => ?_
  refine Keeps.bind Keeps.getEng fun _ => Keeps.ite ?_ (finishStep_keeps hC again)
  refine Keeps.bind (flushStatsCache_keeps hC) fun _ => Keeps.bind Keeps.getEng fun _ => ?_
  split
  refine Keeps.bind (modifyEng_keeps hC fun _ => .firstBarrier _) fun _ => ?_
  split
  · exact finishStep_keeps hC again
  · exact afterFirstBarrier_keeps hC again
  · exact Keeps.pure _

theorem parallelStep_keeps (timed : Bool) (again : Engine → MarkTask → Bool) :
    Keeps I (parallelStep timed again) := by
  unfold parallelStep
  refine Keeps.bind (beginStep_keeps hC _) fun _ => Keeps.bind (stepWork_keeps hC _) fun _ => ?_
  refine Keeps.bind Keeps.getTask fun _ => Keeps.ite (stepTail_keeps hC again) ?_
  refine Keeps.bind Keeps.getEng fun _ => ?_
  split
  refine Keeps.bind (modifyEng_keeps hC fun _ => .terminator _) fun _ => ?_
  split
  · exact Keeps.bind checkFinished_keeps fun _ => stepTail_keeps hC again
  · exact Keeps.bind (modifyTask_keeps hC fun _ => ⟨rfl, rfl⟩) fun _ => stepTail_keeps hC again
  · exact Keeps.pure _

theorem resume_keeps (timed : Bool) (again : Engine → MarkTask → Bool) (stage : Stage) :
    Keeps I (resume timed again stage) := by
  cases stage with
  | ready => exact parallelStep_keeps hC timed again
  | offering =>
    refine Keeps.bind Keeps.getEng fun _ => Keeps.ite ?_ ?_
    · exact Keeps.bind checkFinished_keeps fun _ => stepTail_keeps hC again
    · refine Keeps.bind (modifyEng_keeps hC fun _ => .terminator _) fun _ => ?_
      exact Keeps.bind (modifyTask_keeps hC fun _ => ⟨rfl, rfl⟩) fun _ => stepTail_keeps hC again
  | firstBarrier g =>
    exact Keeps.bind Keeps.getEng fun _ =>
      Keeps.ite (afterFirstBarrier_keeps hC again) (finishStep_keeps hC again)
  | secondBarrier g => exact finishStep_keeps hC again
  | done => exact Keeps.pure _

/-! ## ルートリージョンの走査 -/

theorem scanRootRegion_keeps (r : MemRange) : Keeps I (Cycle.Marking.scanRootRegion r) := by
  unfold Cycle.Marking.scanRootRegion
  refine Keeps.bind Keeps.getEng fun _ => Keeps.bind (Keeps.forIn _ fun a _ _ => ?_) fun p => ?_
  · refine Keeps.bind Keeps.getEng fun _ => Keeps.ite (Keeps.pure _) ?_
    refine Keeps.bind_eng fun s hs => Keeps.bind (Keeps.forIn _ fun b hb _ => ?_) fun _ => Keeps.pure _
    exact Keeps.bind (markInBitmap_keeps hC (hC.refs s a hs b hb)) fun _ => Keeps.pure _
  · rcases p with ⟨_ | _, _⟩ <;> exact Keeps.pure _

theorem scanRootsLoop_keeps (fuel : Nat) : Keeps I (Cycle.Marking.scanRootsLoop fuel) := by
  induction fuel with
  | zero => exact Keeps.pure _
  | succ fuel ih =>
    unfold Cycle.Marking.scanRootsLoop
    refine Keeps.bind Keeps.getEng fun _ => ?_
    split
    split
    · exact Keeps.bind (modifyEng_keeps hC fun _ => .roots _) fun _ =>
        Keeps.bind (scanRootRegion_keeps hC _) fun _ => ih
    · exact Keeps.pure _

end

end Marking

end RegionMark
