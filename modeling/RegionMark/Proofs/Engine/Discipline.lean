import RegionMark.Proofs.Engine.Accounting

/-!
# フェーズの規律

9 つのフェーズの操作は、それぞれ 1 つのフェーズでだけ受け付けられ（`Cycle.Guarded`）、ほかでは
`invalidPhase` で失敗してエンジンを変えない。受け付けた本体はフェーズを変えない（`Cycle.Stays`）。
-/

namespace RegionMark

/-- フェーズの違いによる失敗でない。 -/
def MarkError.PhaseFree (err : MarkError) : Prop := ∀ p q, err ≠ .invalidPhase p q

theorem Engine.interruption_phaseFree {e : Engine} {err : MarkError} (h : e.interruption = some err) :
    err.PhaseFree := by
  rintro p q rfl
  unfold Engine.interruption at h
  split at h
  · cases h
  · split at h <;> cases h

theorem Engine.runParallel_phase {e e' : Engine} {n : Nat} {timed : Bool}
    {again : Engine → MarkTask → Bool} (h : e.runParallel n timed again = .ok e') : e'.phase = e.phase := by
  obtain ⟨_, hp, -⟩ := Engine.runCrew_invariant (K := fun _ e₁ => e₁.phase = e.phase)
    (fun _ _ _ _ _ hp _ h => by
      obtain ⟨_, -, hp'⟩ :=
        Engine.withTask_frame (Marking.resume_keeps (Marking.frame_closed _ _) _ _ _) h
      exact hp'.trans hp)
    (fun _ _ h => h) _ _ _ _ rfl h
  exact hp

namespace Cycle

variable {α β γ : Type} {p : Phase}

/-- 結果が、フェーズの違いによる失敗でない。 -/
def PhaseOk : Except MarkError α → Prop
  | .ok _ => True
  | .error err => err.PhaseFree

theorem phaseOk_of_eq_ok {r : Except MarkError α} {a : α} (h : r = .ok a) : PhaseOk r := by
  subst h
  trivial

/-! ## 読んだ値で続ける計算 -/

/-- 読んだエンジンに応じて続ける計算は、前の条件を満たすどのエンジンについても三つ組を満たせばよい。 -/
theorem Triple.get_bind {P : Engine → Prop} {Q : Except MarkError β → Engine → Prop}
    {f : Engine → CycleM β} (hf : ∀ e₀, P e₀ → Triple P (f e₀) Q) :
    Triple P ((MonadState.get : CycleM Engine) >>= f) Q :=
  Triple.bind Triple.get (fun e₀ e r e' h hr => by
    obtain ⟨he, h₀⟩ := h
    cases h₀
    exact hf _ he _ r e' he hr) fun _ _ h => by cases h.2

/-- 検査に失敗しうる計算の値で続ける計算は、値ごとに三つ組を満たせばよい。 -/
theorem Triple.lift_bind {P : Engine → Prop} {Q : Except MarkError β → Engine → Prop}
    {x : Except Panic α} {f : α → CycleM β} (hf : ∀ a, x = .ok a → Triple P (f a) Q) :
    Triple P (Cycle.lift x >>= f) Q :=
  Triple.bind (R := fun r e => P e ∧ ∃ a, r = .ok a ∧ x = .ok a)
    (Triple.lift fun _ a he hx => ⟨he, a, rfl, hx⟩)
    (fun a e r e' h hr => by
      obtain ⟨he, a', ha', hx⟩ := h
      cases ha'
      exact hf a hx e r e' he hr)
    fun _ _ h => by
      obtain ⟨_, _, h', _⟩ := h
      cases h'

theorem checkPhase_ok : Triple (fun e => e.phase = p) (checkPhase p) fun r e => r = .ok () ∧ e.phase = p :=
  fun _ _ _ hp hr => by
    rw [checkPhase_run_eq hp] at hr
    cases hr
    exact ⟨rfl, hp⟩

theorem transition_ok {src dst : Phase} :
    Triple (fun e => e.phase = src) (transition src dst) fun r e => r = .ok () ∧ e.phase = dst :=
  fun _ _ _ hp hr => by
    rw [transition_run_eq hp] at hr
    cases hr
    exact ⟨rfl, rfl⟩

/-! ## フェーズを変えない計算 -/

/-- フェーズ `p` から走らせた `m` は、フェーズを `p` のまま、フェーズの違いで失敗せずに終わる。 -/
abbrev Stays (p : Phase) (m : CycleM α) : Prop :=
  Triple (fun e => e.phase = p) m fun r e => PhaseOk r ∧ e.phase = p

theorem Stays.pure (a : α) : Stays p (Pure.pure a : CycleM α) :=
  Triple.pure a fun _ h => ⟨trivial, h⟩

/-- フェーズを変えない計算に続ける計算。フェーズの違いによらない失敗は、そのまま届く。 -/
theorem Stays.then {x : CycleM α} {f : α → CycleM β} {Q : Except MarkError β → Engine → Prop}
    (hx : Stays p x) (hf : ∀ a, Triple (fun e => e.phase = p) (f a) Q)
    (herr : ∀ err e, err.PhaseFree → e.phase = p → Q (.error err) e) :
    Triple (fun e => e.phase = p) (x >>= f) Q :=
  Triple.bind hx (fun a => (hf a).mono (fun _ h => h.2) fun _ _ h => h) fun err e h => herr err e h.1 h.2

theorem Stays.bind {x : CycleM α} {f : α → CycleM β} (hx : Stays p x) (hf : ∀ a, Stays p (f a)) :
    Stays p (x >>= f) :=
  hx.then hf fun _ _ herr hp => ⟨herr, hp⟩

theorem Stays.throw {err : MarkError} (h : err.PhaseFree) : Stays p (throw err : CycleM α) :=
  Triple.throw err fun _ hp => ⟨h, hp⟩

theorem Stays.modify {f : Engine → Engine} (h : ∀ e, (f e).phase = e.phase) :
    Stays p (modify f : CycleM PUnit) :=
  (Triple.modify (R := fun e => e.phase = p) fun e hp => (h e).trans hp).mono (fun _ h => h)
    fun _ _ h => ⟨phaseOk_of_eq_ok h.2, h.1⟩

theorem Stays.set {e₁ : Engine} (h : e₁.phase = p) : Stays p (MonadStateOf.set e₁ : CycleM PUnit) :=
  (Triple.set (R := fun e => e.phase = p) e₁ fun _ _ => h).mono (fun _ h => h)
    fun _ _ h => ⟨phaseOk_of_eq_ok h.2, h.1⟩

theorem Stays.update {f : Engine → Except Panic (α × Engine)}
    (h : ∀ e a e', f e = .ok (a, e') → e'.phase = e.phase) : Stays p (update f) :=
  Triple.update fun e a e' hp hf => ⟨trivial, (h e a e' hf).trans hp⟩

theorem Stays.ite {c : Prop} [Decidable c] {x y : CycleM α} (hx : Stays p x) (hy : Stays p y) :
    Stays p (if c then x else y) :=
  Triple.ite (fun _ => hx) fun _ => hy

theorem Stays.forIn {xs : List β} {f : β → γ → CycleM (ForInStep γ)} (b : γ)
    (hf : ∀ x ∈ xs, ∀ b, Stays p (f x b)) : Stays p (forIn xs b f) := by
  induction xs generalizing b with
  | nil => exact Stays.pure b
  | cons x xs ih =>
    rw [List.forIn_cons]
    refine Stays.bind (hf x List.mem_cons_self b) fun r => ?_
    cases r with
    | done b => exact Stays.pure b
    | yield b => exact ih b fun y hy => hf y (List.mem_cons_of_mem x hy)

theorem Stays.checkPhase : Stays p (checkPhase p) :=
  checkPhase_ok.mono (fun _ h => h) fun _ _ h => ⟨phaseOk_of_eq_ok h.1, h.2⟩

theorem Stays.checkInterruption : Stays p checkInterruption := by
  unfold Cycle.checkInterruption
  refine Triple.get_bind fun e _ => ?_
  split
  · rename_i err herr
    exact Stays.throw (Engine.interruption_phaseFree herr)
  · exact Stays.pure _

theorem Stays.setConcurrency {n : Nat} {b : Bool} : Stays p (setConcurrency n b) := by
  unfold Cycle.setConcurrency
  refine Triple.get_bind fun e hp => Triple.lift_bind fun a h => Stays.set ?_
  obtain ⟨t, rfl⟩ := Engine.setConcurrency_eq h
  exact hp

/-- タスクの表とフェーズに触れないタスクの計算は、取り出して書き戻してもフェーズを変えない。 -/
theorem Stays.onTask {w : Nat} {m : TaskM α}
    (hm : ∀ ts ph, Marking.Keeps (fun s => s.eng.tasks = ts ∧ s.eng.phase = ph) m) :
    Stays p (onTask w m) :=
  Stays.update fun _ _ _ h => by
    obtain ⟨_, -, hp⟩ := Engine.withTask_frame (hm _ _) h
    exact hp

theorem Stays.runParallel {n : Nat} {timed : Bool} {again : Engine → MarkTask → Bool} :
    Stays p (Cycle.update fun e => do return ((), ← e.runParallel n timed again)) :=
  Stays.update fun e _ e' h => by
    cases hr : e.runParallel n timed again with
    | error => rw [hr] at h; cases h
    | ok e₁ =>
      rw [hr] at h
      cases h
      exact Engine.runParallel_phase hr

theorem clearBitmapLocked_stays : Stays p clearBitmapLocked := by
  unfold clearBitmapLocked
  refine Triple.get_bind fun _ _ =>
    Stays.ite (Stays.bind (Stays.throw fun _ _ h => by cases h) fun _ => ?_) ?_ <;>
  exact Stays.modify fun _ => rfl

/-- 中断のフラグが下りていれば、ビットマップの消去は成功する。 -/
theorem clearBitmapLocked_ok :
    Triple (fun e => e.phase = p ∧ e.aborted = false) clearBitmapLocked
      fun r e => r = .ok () ∧ e.phase = p := by
  unfold clearBitmapLocked
  refine Triple.get_bind fun e₀ h₀ => Triple.ite (fun ha => ?_) fun _ => ?_
  · rw [h₀.2] at ha
    cases ha
  · exact (Triple.modify (R := fun e => e.phase = p) fun _ h => h.1).mono (fun _ h => h)
      fun _ _ h => ⟨h.2, h.1⟩

theorem addRootRegion_stays (reg : MemRange) : Stays .scanRootRegions (addRootRegion reg) := by
  unfold addRootRegion
  refine Stays.bind Stays.checkPhase fun _ => Triple.get_bind fun _ _ => Triple.lift_bind fun q _ => ?_
  obtain ⟨ok, roots⟩ := q
  refine Stays.bind (Stays.modify fun _ => rfl) fun _ => ?_
  refine Stays.ite (Stays.bind (Stays.throw fun _ _ h => by cases h) fun _ => ?_) ?_ <;>
  exact Triple.get_bind fun _ _ => Stays.pure _

theorem markFromRoots_stays : Stays .concurrentMark markFromRoots := by
  unfold markFromRoots
  refine Stays.bind Stays.checkPhase fun _ => Stays.bind (Stays.modify fun _ => rfl) fun _ => ?_
  exact Triple.get_bind fun _ _ => Stays.bind Stays.setConcurrency fun _ =>
    Stays.bind Stays.runParallel fun _ => Stays.checkInterruption

theorem preclean_stays : Stays .concurrentMark preclean := by
  unfold preclean
  refine Stays.bind Stays.checkPhase fun _ => Stays.bind Stays.setConcurrency fun _ => ?_
  refine Triple.get_bind fun _ _ => Stays.bind (Stays.onTask fun ts ph => ?_) fun _ => Stays.checkInterruption
  -- 弱い参照の参照先を生かすことも単独のステップも、タスクの表とフェーズに触れない
  have hC := Marking.frame_closed ts ph
  refine Marking.Keeps.bind (Marking.Keeps.forIn _ fun a _ n => ?_) fun _ =>
    Marking.drainSerially_keeps hC _ _ _
  exact Marking.Keeps.bind Marking.Keeps.getEng fun _ => Marking.Keeps.ite (Marking.Keeps.pure _)
    (Marking.Keeps.bind (Marking.keepAlive_keeps hC _ _ trivial) fun _ => Marking.Keeps.pure _)

theorem weakRefsWork_stays : Stays p weakRefsWork := by
  unfold weakRefsWork
  refine Stays.bind (Stays.modify fun _ => rfl) fun _ => Stays.bind Stays.setConcurrency fun _ => ?_
  refine Triple.get_bind fun _ _ => Stays.bind (Stays.onTask fun ts ph => ?_) fun _ => ?_
  · -- 参照先を生かし、終了処理待ちを記録し、単独のステップで減らす。どれもタスクの表とフェーズに触れない
    have hC := Marking.frame_closed ts ph
    refine Marking.Keeps.bind (Marking.Keeps.forIn _ fun a _ n => ?_) fun _ => ?_
    · exact Marking.Keeps.bind (Marking.keepAlive_keeps hC _ _ trivial) fun _ => Marking.Keeps.pure _
    refine Marking.Keeps.bind (Marking.Keeps.forIn _ fun a _ q => ?_) fun _ => ?_
    · refine Marking.Keeps.bind Marking.Keeps.getEng fun _ => Marking.Keeps.ite ?_ (Marking.Keeps.pure _)
      exact Marking.Keeps.bind (Marking.keepAlive_keeps hC _ _ trivial) fun _ => Marking.Keeps.pure _
    exact Marking.Keeps.bind (Marking.Triple.modifyEng fun _ hs => hs) fun _ =>
      Marking.drainSerially_keeps hC _ _ _
  refine Stays.bind (Stays.modify fun _ => rfl) fun _ => Triple.get_bind fun e hp => ?_
  -- 上限まで伸びたスタックがあふれていれば、空にして枯渇を返す
  exact Stays.ite (Stays.bind (Stays.set hp) fun _ => Stays.throw fun _ _ h => by cases h) (Stays.pure _)

/-! ## フェーズを移る操作 -/

theorem start_lands : Triple (fun e => e.phase = .idle) start
    fun r e => PhaseOk r ∧ r.toBool ∧ e.phase = .scanRootRegions := by
  unfold start
  refine Triple.bind (R := fun r e => r = .ok () ∧ e.phase = .idle) checkPhase_ok (fun _ => ?_)
    fun _ _ h => by cases h.1
  refine Triple.bind (Triple.modify (R := fun e => e.phase = .idle ∧ e.aborted = false)
    fun _ h => ⟨h.2, rfl⟩) (fun _ => ?_) fun _ _ h => by cases h.2
  refine Triple.get_bind fun e₀ h₀ => Triple.ite (fun _ => ?_) fun _ => ?_
  · refine Triple.bind (R := fun r e => r = .ok () ∧ e.phase = .idle)
      (clearBitmapLocked_ok.mono (fun _ h => h.1) fun _ _ h => h) (fun _ => ?_) fun _ _ h => by cases h.1
    refine Triple.mono (P := fun e => e.phase = .idle) ?_ (fun _ h => h.2) fun _ _ h => h
    refine Triple.bind (Triple.modify (R := fun e => e.phase = .idle) fun _ h => h) (fun _ => ?_)
      fun _ _ h => by cases h.2
    exact transition_ok.mono (fun _ h => h.1) fun _ _ h => ⟨phaseOk_of_eq_ok h.1, by rw [h.1]; rfl, h.2⟩
  · refine Triple.mono (P := fun e => e.phase = .idle) ?_ (fun _ h => h.1.1) fun _ _ h => h
    refine Triple.bind (Triple.modify (R := fun e => e.phase = .idle) fun _ h => h) (fun _ => ?_)
      fun _ _ h => by cases h.2
    exact transition_ok.mono (fun _ h => h.1) fun _ _ h => ⟨phaseOk_of_eq_ok h.1, by rw [h.1]; rfl, h.2⟩

theorem scanRootRegions_lands : Triple (fun e => e.phase = .scanRootRegions) scanRootRegions
    fun r e => PhaseOk r ∧ e.phase = if r.toBool then .concurrentMark else .scanRootRegions := by
  have herr : ∀ err (e : Engine), err.PhaseFree → e.phase = .scanRootRegions →
      PhaseOk (.error err : Except MarkError Unit) ∧
        e.phase = if (Except.error err : Except MarkError Unit).toBool then .concurrentMark
          else .scanRootRegions :=
    fun _ _ h hp => ⟨h, hp⟩
  have hmove : Triple (fun e => e.phase = .scanRootRegions) (transition .scanRootRegions .concurrentMark)
      fun r e => PhaseOk r ∧ e.phase = if r.toBool then .concurrentMark else .scanRootRegions :=
    transition_ok.mono (fun _ h => h) fun _ _ h => by
      rw [h.1]
      exact ⟨trivial, h.2⟩
  unfold scanRootRegions
  refine Stays.then Stays.checkPhase (fun _ => ?_) herr
  refine Triple.get_bind fun _ _ => Triple.lift_bind fun roots _ => ?_
  refine Stays.then (Stays.modify fun _ => rfl) (fun _ => ?_) herr
  refine Triple.ite (fun _ => Triple.get_bind fun _ _ => Stays.then (Stays.forIn _ fun w _ _ =>
    Stays.bind (Stays.onTask fun ts ph => ?_) fun _ => Stays.pure _) (fun _ => ?_) herr) fun _ => ?_
  · -- ルートリージョンの走査と書き戻しは、タスクの表とフェーズに触れない
    have hC := Marking.frame_closed ts ph
    exact Marking.Keeps.bind (Marking.scanRootsLoop_keeps hC _) fun _ =>
      Marking.Keeps.bind (Marking.flushStatsCache_keeps hC) fun _ => Marking.flushCounts_keeps hC
  -- 合流点：ルートリージョンを片付け、中断されていなければ並行マーキングに移る
  all_goals
    refine Triple.get_bind fun _ _ => Triple.ite (fun _ => Stays.then (Stays.pure _) (fun _ => ?_) herr)
      fun _ => Triple.lift_bind fun _ _ => ?_
    all_goals
      refine Stays.then (Stays.modify fun _ => rfl) (fun _ => Triple.ite (fun _ => ?_) fun _ => hmove) herr
      exact Stays.then (Stays.throw fun _ _ h => by cases h) (fun _ => hmove) herr

theorem remarkLocked_lands : Triple (fun e => e.phase = .remark) remarkLocked
    fun r e => PhaseOk r ∧ e.phase = if r = .ok .restartForOverflow then .concurrentMark else .remark := by
  have herr : ∀ err (e : Engine), err.PhaseFree → e.phase = .remark →
      PhaseOk (.error err : Except MarkError RemarkOutcome) ∧
        e.phase = if (Except.error err : Except MarkError RemarkOutcome) = .ok .restartForOverflow then
          .concurrentMark else .remark :=
    fun _ _ h hp => ⟨h, by rw [if_neg (by simp)]; exact hp⟩
  unfold remarkLocked
  refine Triple.get_bind fun _ _ => Stays.then Stays.setConcurrency (fun _ => ?_) herr
  refine Stays.then Stays.runParallel (fun _ => ?_) herr
  refine Stays.then Stays.checkInterruption (fun _ => ?_) herr
  refine Triple.get_bind fun _ _ => Triple.ite (fun _ => ?_) fun _ => ?_
  · -- オーバーフロー：やり直したエンジンを書き戻し、並行マーキングに戻る
    refine Stays.then (Stays.modify fun _ => rfl) (fun _ => ?_) herr
    refine Triple.get_bind fun e hp => Triple.lift_bind fun a ha => ?_
    obtain ⟨-, -, -, -, -, hpa, -⟩ := Engine.restartAfterOverflow_frame ha
    refine Stays.then (Stays.set (hpa.trans hp)) (fun _ => ?_) herr
    refine Stays.then Stays.checkInterruption (fun _ => ?_) herr
    refine Triple.bind transition_ok (fun _ => Triple.pure _ fun _ h => ⟨trivial, ?_⟩)
      fun _ _ h => by cases h.1
    rw [if_pos rfl]
    exact h.2
  · -- 参照処理を終え、SATB の記録を止めて、終わったことを返す
    refine Stays.then weakRefsWork_stays (fun _ => ?_) herr
    refine Stays.then (Stays.modify fun _ => rfl) (fun _ => Triple.pure _ fun _ hp => ⟨trivial, ?_⟩) herr
    rw [if_neg (by decide)]
    exact hp

/-! ## 受け付けるフェーズ -/

/-- 操作 `m` はフェーズ `p` でだけ受け付けられる。ほかのフェーズでは `invalidPhase p` で失敗して
エンジンを変えず、`p` ではフェーズの違いで失敗せず、結果と終わりのエンジンが `Q` を満たす。 -/
structure Guarded (p : Phase) (m : CycleM α) (Q : Except MarkError α → Engine → Prop) : Prop where
  reject : ∀ e r e', e.phase ≠ p → m.run.run e = .ok (r, e') →
    r = .error (.invalidPhase p e.phase) ∧ e' = e
  accept : Triple (fun e => e.phase = p) m fun r e => PhaseOk r ∧ Q r e

/-- エンジン `e` から走らせた `m` は、`e` がフェーズ `p` になければ `invalidPhase p` で失敗してエンジンを
変えず、`p` にあればフェーズの違いで失敗せず、結果と終わりのエンジンが `Q` を満たす。 -/
def GuardedAt (p : Phase) (m : CycleM α) (Q : Except MarkError α → Engine → Prop) (e : Engine) : Prop :=
  ∀ r e', m.run.run e = .ok (r, e') →
    (e.phase ≠ p → r = .error (.invalidPhase p e.phase) ∧ e' = e) ∧ (e.phase = p → PhaseOk r ∧ Q r e')

theorem Guarded.at {m : CycleM α} {Q : Except MarkError α → Engine → Prop} (hg : Guarded p m Q)
    (e : Engine) : GuardedAt p m Q e :=
  fun r e' h => ⟨fun hp => hg.reject e r e' hp h, fun hp => hg.accept e r e' hp h⟩

theorem run_bind_ok {x : CycleM α} {f : α → CycleM β} {e e₁ : Engine} {a : α}
    (h : x.run.run e = .ok (.ok a, e₁)) : (x >>= f).run.run e = (f a).run.run e₁ := by
  simp only [ExceptT.run_bind, StateT.run_bind, h]
  rfl

/-- フェーズを確かめてから始まる操作。 -/
theorem Guarded.checkPhase_bind {f : Unit → CycleM α} {Q : Except MarkError α → Engine → Prop}
    (h : Triple (fun e => e.phase = p) (checkPhase p >>= f) fun r e => PhaseOk r ∧ Q r e) :
    Guarded p (checkPhase p >>= f) Q where
  reject _ _ _ hp hr := by
    rw [checkPhase_bind_run_ne hp] at hr
    cases hr
    exact ⟨rfl, rfl⟩
  accept := h

/-- 決まったフェーズからの移り変わりで始まる操作。 -/
theorem Guarded.transition_bind {src dst : Phase} {f : Unit → CycleM α}
    {Q : Except MarkError α → Engine → Prop}
    (h : Triple (fun e => e.phase = dst) (f ()) fun r e => PhaseOk r ∧ Q r e) :
    Guarded src (transition src dst >>= f) Q where
  reject _ _ _ hp hr := by
    rw [transition_bind_run_ne hp] at hr
    cases hr
    exact ⟨rfl, rfl⟩
  accept e r e' hp hr := by
    rw [run_bind_ok (transition_run_eq hp)] at hr
    exact h _ r e' rfl hr

theorem Guarded.of_stays {f : Unit → CycleM α} (h : Stays p (checkPhase p >>= f)) :
    Guarded p (checkPhase p >>= f) fun _ e => e.phase = p :=
  Guarded.checkPhase_bind h

theorem start_guarded : Guarded .idle start fun r e => r.toBool ∧ e.phase = .scanRootRegions :=
  Guarded.checkPhase_bind (start_lands.mono (fun _ h => h) fun _ _ h => ⟨h.1, h.2⟩)

theorem clearBitmap_guarded : Guarded .idle clearBitmap fun _ e => e.phase = .idle :=
  Guarded.of_stays (Stays.bind Stays.checkPhase fun _ =>
    Stays.bind (Stays.modify fun _ => rfl) fun _ => clearBitmapLocked_stays)

theorem addRootRegion_guarded (reg : MemRange) :
    Guarded .scanRootRegions (addRootRegion reg) fun _ e => e.phase = .scanRootRegions :=
  Guarded.of_stays (addRootRegion_stays reg)

theorem scanRootRegions_guarded : Guarded .scanRootRegions scanRootRegions
    fun r e => e.phase = if r.toBool then .concurrentMark else .scanRootRegions :=
  Guarded.checkPhase_bind scanRootRegions_lands

theorem markFromRoots_guarded : Guarded .concurrentMark markFromRoots fun _ e => e.phase = .concurrentMark :=
  Guarded.of_stays markFromRoots_stays

theorem preclean_guarded : Guarded .concurrentMark preclean fun _ e => e.phase = .concurrentMark :=
  Guarded.of_stays preclean_stays

theorem remark_guarded : Guarded .concurrentMark remark
    fun r e => e.phase = if r = .ok .restartForOverflow then .concurrentMark else .remark :=
  Guarded.transition_bind remarkLocked_lands

theorem cleanup_guarded : Guarded .remark cleanup fun r e => r.toBool ∧ e.phase = .cleanup :=
  Guarded.transition_bind (Triple.get_bind fun _ _ => Triple.lift fun _ _ hp _ => ⟨trivial, rfl, hp⟩)

theorem finish_guarded : Guarded .cleanup finish fun r e => r.toBool ∧ e.phase = .idle :=
  Guarded.transition_bind ((Triple.modify (R := fun e => e.phase = .idle) fun _ h => h).mono (fun _ h => h)
    fun _ _ h => ⟨phaseOk_of_eq_ok h.2, by rw [h.2]; rfl, h.1⟩)

theorem Guarded.exec {m : CycleM α} {Q : Except MarkError α → Engine → Prop} (hg : Guarded p m Q)
    {e e' : Engine} (h : Op.exec m e = .ok e') : e' = e ∨ ∃ r, Q r e' := by
  obtain ⟨r, hr⟩ := Op.exec_ok h
  by_cases hp : e.phase = p
  · exact .inr ⟨r, (hg.accept e r e' hp hr).2⟩
  · exact .inl (hg.reject e r e' hp hr).2

theorem markRoot_frame {e e' : Engine} {a : Nat} {b : Bool} (h : (markRoot a).run e = .ok (b, e')) :
    ∃ bm g, e' = { e with bitmap := bm, stats := g } := by
  unfold markRoot at h
  simp only [StateT.run, bind, Except.bind] at h
  split at h
  · cases h
  · rename_i q hq
    obtain ⟨hit, e₁⟩ := q
    obtain ⟨bm, he₁⟩ : ∃ bm, e₁ = { e with bitmap := bm } := by
      rcases Engine.tryMark_spec hq with ⟨_, rfl⟩ | ⟨_, _, _, _, _, _, _, rfl⟩ <;> exact ⟨_, rfl⟩
    subst he₁
    simp only at h
    split at h
    · cases h
      exact ⟨bm, e.stats, rfl⟩
    · split at h
      · cases h
      · cases h
        exact ⟨bm, _, rfl⟩

end Cycle

namespace Op

theorem run_enters_remark {op : Op} {e e' : Engine} (h : op.run e = .ok e') (hp : e'.phase = .remark) :
    e.phase = .remark ∨ op = .remark ∨ op = .runCycle := by
  -- 受け付けられなかった操作はエンジンを変えず、受け付けられた操作は `Remark` でないフェーズで終わる
  have hguard : ∀ {α : Type} {q : Phase} {m : CycleM α} {Q : Except MarkError α → Engine → Prop},
      Cycle.Guarded q m Q → (∀ r e, Q r e → e.phase ≠ .remark) → exec m e = .ok e' → e.phase = .remark :=
    fun hg hQ hx => by
      rcases hg.exec hx with rfl | ⟨r, hr⟩
      · exact hp
      · exact absurd hp (hQ r e' hr)
  cases op with
  | start => exact .inl (hguard Cycle.start_guarded (fun _ _ h => by rw [h.2]; decide) h)
  | clearBitmap => exact .inl (hguard Cycle.clearBitmap_guarded (fun _ _ h => by rw [h]; decide) h)
  | addRootRegion reg =>
    exact .inl (hguard (Cycle.addRootRegion_guarded reg) (fun _ _ h => by rw [h]; decide) h)
  | markRoot a =>
    obtain ⟨_, hr⟩ := Except.snd_ok h
    obtain ⟨_, _, he⟩ := Cycle.markRoot_frame hr
    rw [he] at hp
    exact .inl hp
  | scanRootRegions =>
    exact .inl (hguard Cycle.scanRootRegions_guarded (fun _ _ h => by rw [h]; split <;> decide) h)
  | markFromRoots => exact .inl (hguard Cycle.markFromRoots_guarded (fun _ _ h => by rw [h]; decide) h)
  | preclean => exact .inl (hguard Cycle.preclean_guarded (fun _ _ h => by rw [h]; decide) h)
  | remark => exact .inr (.inl rfl)
  | cleanup => exact .inl (hguard Cycle.cleanup_guarded (fun _ _ h => by rw [h.2]; decide) h)
  | finish => exact .inl (hguard Cycle.finish_guarded (fun _ _ h => by rw [h.2]; decide) h)
  | abort =>
    obtain ⟨_, hr⟩ := Except.snd_ok h
    rw [(Cycle.abort_frame hr).2.2] at hp
    cases hp
  | abortThreads => cases h; exact .inl hp
  | runCycle => exact .inr (.inr rfl)
  | satb b => cases h; exact .inl hp
  | mutate f => cases h; exact .inl hp

end Op

namespace Cycle

/-- フェーズの規律。どのエンジンからでも、9 つのフェーズの操作は、それぞれ 1 つのフェーズでだけ受け付け
られ、ほかのフェーズでは `invalidPhase` で失敗してエンジンを変えない。受け付けた
フェーズではフェーズの違いで失敗せず、周期の始め、後片付け、周期の終わりは必ず成功する。再マークは、
オーバーフローからのやり直しを返したときだけ並行マーキングに戻り、終わったときも失敗したときも `Remark`
に残る。`Remark` に入る操作は再マークと周期全体の走りだけで、後片付けは `Remark` でだけ受け付けられる。 -/
theorem phase_operations_guarded (e : Engine) :
    GuardedAt .idle start (fun r e' => r.toBool ∧ e'.phase = .scanRootRegions) e ∧
    GuardedAt .idle clearBitmap (fun _ e' => e'.phase = .idle) e ∧
    (∀ reg, GuardedAt .scanRootRegions (addRootRegion reg) (fun _ e' => e'.phase = .scanRootRegions) e) ∧
    GuardedAt .scanRootRegions scanRootRegions
      (fun r e' => e'.phase = if r.toBool then .concurrentMark else .scanRootRegions) e ∧
    GuardedAt .concurrentMark markFromRoots (fun _ e' => e'.phase = .concurrentMark) e ∧
    GuardedAt .concurrentMark preclean (fun _ e' => e'.phase = .concurrentMark) e ∧
    GuardedAt .concurrentMark remark
      (fun r e' => e'.phase = if r = .ok .restartForOverflow then .concurrentMark else .remark) e ∧
    GuardedAt .remark cleanup (fun r e' => r.toBool ∧ e'.phase = .cleanup) e ∧
    GuardedAt .cleanup finish (fun r e' => r.toBool ∧ e'.phase = .idle) e ∧
    ∀ (op : Op) e', op.run e = .ok e' → e'.phase = .remark →
      e.phase = .remark ∨ op = .remark ∨ op = .runCycle :=
  ⟨start_guarded.at e, clearBitmap_guarded.at e, fun reg => (addRootRegion_guarded reg).at e,
    scanRootRegions_guarded.at e, markFromRoots_guarded.at e, preclean_guarded.at e, remark_guarded.at e,
    cleanup_guarded.at e, finish_guarded.at e, fun _ _ => Op.run_enters_remark⟩

end Cycle

/-- 1 語のオブジェクト 8 つと、それらすべてを指す 1 語の親がリージョン 0 にあり、親が弱い参照の参照先で
あるヒープ。 -/
def Heap.softFanOut : Heap :=
  ⟨4096, 1, #[⟨4096, 1, .plain #[]⟩, ⟨4104, 1, .plain #[]⟩, ⟨4112, 1, .plain #[]⟩, ⟨4120, 1, .plain #[]⟩,
    ⟨4128, 1, .plain #[]⟩, ⟨4136, 1, .plain #[]⟩, ⟨4144, 1, .plain #[]⟩, ⟨4152, 1, .plain #[]⟩,
    ⟨4160, 1, .plain #[4096, 4104, 4112, 4120, 4128, 4136, 4144, 4152]⟩],
    #[#[0, 1, 2, 3, 4, 5, 6, 7, 8]], #[4168], #[4168], #[4160], #[], #[]⟩

/-- 再マークが、上限の 1 チャンクまでしか伸びられないスタックを参照処理であふれさせて枯渇で失敗しても、
エンジンは `Remark` に残り、そのあとの後片付けは成功する。 -/
theorem Reach.cleanup_after_exhausted_remark : ∃ e e₁ e₂ L, Reach (fun _ _ => True) e ∧
    Cycle.remark.run.run e = .ok (.error (.stackExhausted 1), e₁) ∧
    Cycle.cleanup.run.run e₁ = .ok (.ok L, e₂) := by
  obtain ⟨e, hreach, hp⟩ := Reach.of_reaches Heap.softFanOut { MarkConfig.tinyStack none with maxChunks := 1 }
    [.start, .scanRootRegions, .markFromRoots]
    (fun e => (Cycle.remark.run.run e).toOption.any fun (q : Except MarkError RemarkOutcome × Engine) =>
      decide (q.1 = .error (.stackExhausted 1)) &&
        (Cycle.cleanup.run.run q.2).toOption.any
          fun (q' : Except MarkError (List Nat) × Engine) => q'.1.toBool)
    (fun _ _ _ => trivial) (by decide +kernel)
  simp only [Option.any_eq_true, Except.toOption_eq_some, Bool.and_eq_true, decide_eq_true_eq] at hp
  obtain ⟨⟨r, e₁⟩, hrem, rfl, ⟨r', e₂⟩, hcl, hok⟩ := hp
  cases r' with
  | ok L => exact ⟨e, e₁, e₂, L, hreach, hrem, hcl⟩
  | error => cases hok

end RegionMark
