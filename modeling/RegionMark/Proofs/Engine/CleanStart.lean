import RegionMark.Proofs.Engine.Exhaustion

/-!
# 周期の始めの白紙

周期の始めは、ビットマップが汚れていなければ消去を省く。それが許されるのは汚れていないビットマップに印が
ないとき（`Engine.Clean`）で、これを崩しうるのは周期の外でのルートの印付けだけである。
-/

namespace RegionMark

namespace Engine

/-- 汚れていないビットマップには印がなく、そのときエンジンは `Idle` にある。 -/
def Clean (e : Engine) : Prop :=
  e.bitmapDirty = false → e.phase = .idle ∧ ∀ k, e.bitmap.testBit k = false

/-- 白紙：ビットマップに印がなく、どのリージョンの生きた量も、入ってくる参照の数も 0。 -/
def Blank (e : Engine) : Prop :=
  (∀ k, e.bitmap.testBit k = false) ∧ ∀ r, e.stats.liveWords r = 0 ∧ e.stats.incomingRefs r = 0

theorem clean_of_dirty {e : Engine} (h : e.bitmapDirty = true) : e.Clean := fun h' => by
  rw [h] at h'
  cases h'

end Engine

theorem RegionStats.liveWords_clearAll (g : RegionStats) (r : Nat) : g.clearAll.liveWords r = 0 := by
  unfold clearAll liveWords
  rw [Array.getD_eq_getD_getElem?, Array.getElem?_map]
  cases g.live[r]? <;> rfl

theorem RegionStats.incomingRefs_clearAll (g : RegionStats) (r : Nat) :
    g.clearAll.incomingRefs r = 0 := by
  unfold clearAll incomingRefs
  rw [Array.getD_eq_getD_getElem?, Array.getElem?_map]
  cases g.incoming[r]? <;> rfl

namespace Cycle

variable {α β : Type}

/-! ## 違うフェーズでの失敗 -/

theorem run_get (e : Engine) : (get : CycleM Engine).run.run e = .ok (.ok e, e) := rfl

theorem run_bind_error {x : CycleM α} {f : α → CycleM β} {e e' : Engine} {err : MarkError}
    (h : x.run.run e = .ok (.error err, e')) : (x >>= f).run.run e = .ok (.error err, e') := by
  simp only [ExceptT.run_bind, StateT.run_bind, h]
  rfl

theorem run_tryCatch_error {x : CycleM α} {h : MarkError → CycleM α} {e e' : Engine}
    {err : MarkError} (hx : x.run.run e = .ok (.error err, e')) :
    (tryCatch x h).run.run e = (h err).run.run e' := by
  rw [ExceptT.run_tryCatch, StateT.run_bind, hx]
  rfl

theorem checkPhase_run_ne {p : Phase} {e : Engine} (h : e.phase ≠ p) :
    (checkPhase p).run.run e = .ok (.error (.invalidPhase p e.phase), e) := by
  unfold checkPhase
  simp only [ExceptT.run_bind, StateT.run_bind, run_get]
  simp only [bind, Except.bind]
  rw [if_pos h]
  rfl

theorem checkPhase_bind_run_ne {p : Phase} {f : Unit → CycleM β} {e : Engine} (h : e.phase ≠ p) :
    (checkPhase p >>= f).run.run e = .ok (.error (.invalidPhase p e.phase), e) :=
  run_bind_error (checkPhase_run_ne h)

theorem transition_bind_run_ne {src dst : Phase} {f : Unit → CycleM β} {e : Engine}
    (h : e.phase ≠ src) :
    (transition src dst >>= f).run.run e = .ok (.error (.invalidPhase src e.phase), e) :=
  run_bind_error (checkPhase_bind_run_ne h)

theorem runCycle_run_ne {e : Engine} (h : e.phase ≠ .scanRootRegions) :
    runCycle.run.run e = .ok (.error (.invalidPhase .scanRootRegions e.phase), e) := by
  have hs : scanRootRegions.run.run e = .ok (.error (.invalidPhase .scanRootRegions e.phase), e) :=
    checkPhase_bind_run_ne h
  unfold runCycle
  dsimp only
  rw [run_tryCatch_error (run_bind_error hs)]
  rfl

/-! ## ビットマップの消去と周期の始め -/

theorem clearBitmapLocked_spec :
    Triple (fun e => e.Clean ∧ e.phase = .idle) clearBitmapLocked
      fun r e => e.Clean ∧ (r = .ok () → e.phase = .idle ∧ ∀ k, e.bitmap.testBit k = false) := by
  unfold clearBitmapLocked
  refine Triple.bind Triple.get (fun e₀ => ?_) fun _ _ h => by cases h.2
  -- ビットマップを消すのは中断されていないときだけで、中断されていればエンジンを変えずに失敗する
  refine Triple.ite (fun _ => Triple.bind (R := fun r e => e.Clean ∧ r = .error .cycleAborted)
    (Triple.throw _ fun e h => ⟨h.1.1, rfl⟩) (fun _ _ _ _ h => by cases h.2)
    fun _ _ h => ⟨h.1, fun h' => by cases h'⟩) fun _ => ?_
  refine Triple.modify (R := fun e => e.phase = .idle ∧ ∀ k, e.bitmap.testBit k = false)
    (fun e h => ⟨h.1.2, Bitmap.testBit_clearAll _⟩) |>.mono (fun _ h => h) fun _ _ h => ?_
  exact ⟨fun _ => h.1, fun _ => h.1⟩

theorem clearBitmap_clean : Keeps Engine.Clean clearBitmap := by
  unfold clearBitmap
  refine Triple.bind (checkPhase_spec .idle) (fun _ => ?_) fun _ _ h => h.1
  refine Triple.bind (Triple.modify (R := fun e => e.Clean ∧ e.phase = .idle)
    fun e h => ⟨h.1, h.2 rfl⟩) (fun _ => ?_) fun _ _ h => by cases h.2
  exact clearBitmapLocked_spec.mono (fun _ h => h.1) fun _ _ h => h.1

theorem start_spec : Triple Engine.Clean start fun r e => e.Clean ∧ (r = .ok () → e.Blank) := by
  unfold start
  refine Triple.bind (checkPhase_spec .idle) (fun _ => ?_) fun _ _ h => ⟨h.1, fun h' => by cases h'⟩
  refine Triple.bind (Triple.modify (R := fun e => e.Clean ∧ e.phase = .idle)
    fun e h => ⟨h.1, h.2 rfl⟩) (fun _ => ?_) fun _ _ h => by cases h.2
  refine Triple.bind Triple.get (fun e₀ => ?_) fun _ _ h => by cases h.2
  -- 消去した枝と省いた枝は、同じ続き（印がなく `Idle` のエンジンからの初期化）に合流する
  let Q₀ : Engine → Prop := fun e => e.phase = .idle ∧ ∀ k, e.bitmap.testBit k = false
  refine Triple.ite (fun _ => Triple.bind (clearBitmapLocked_spec.mono (fun _ h => h.1.1) fun _ _ h => h)
      (fun _ => Triple.mono (P := Q₀) ?_ (fun _ h => h.2 rfl) fun _ _ h => h)
      fun _ _ h => ⟨h.1, fun h' => by cases h'⟩)
    fun hd => Triple.mono (P := Q₀) ?_ (fun _ ⟨⟨⟨hc, _⟩, _⟩, he⟩ => by
      cases he
      exact hc (by simpa using hd)) fun _ _ h => h
  all_goals
    refine Triple.bind (Triple.modify (R := fun e => e.Blank ∧ e.bitmapDirty = true)
      fun e h => ⟨⟨h.2, fun r => ⟨RegionStats.liveWords_clearAll _ r,
        RegionStats.incomingRefs_clearAll _ r⟩⟩, rfl⟩) (fun _ => ?_) fun _ _ h => by cases h.2
    refine (Keeps.transition (fun e h => h)).mono (fun _ h => h.1) fun _ _ h => ?_
    exact ⟨Engine.clean_of_dirty h.2, fun _ => h.1⟩

theorem abort_frame {e e' : Engine} {b : Bool} (h : abort.run e = .ok (b, e')) :
    e'.bitmap = e.bitmap ∧ e'.bitmapDirty = e.bitmapDirty ∧ e'.phase = .idle := by
  rw [abort_run] at h
  split at h <;> cases h <;> exact ⟨rfl, rfl, rfl⟩

end Cycle

namespace Op

theorem exec_of_rejected {α : Type} {m : CycleM α} {e : Engine} {err : MarkError}
    (h : m.run.run e = .ok (.error err, e)) : exec m e = .ok e := by
  unfold exec
  rw [h]
  rfl

/-- `Idle` で `Clean` なエンジン（汚れていないビットマップに印がない）は、周期の始めとビットマップの
消去のほかの許された操作のあとも `Clean`：フェーズの操作は `Idle` では何もせずに失敗し、中断と
ミューテータの操作はビットマップに触れない。 -/
theorem run_clean_of_idle {op : Op} {e e' : Engine} (hs : op ≠ .start) (hcl : op ≠ .clearBitmap)
    (hok : op.Disciplined e) (hp : e.phase = .idle) (hb : ∀ k, e.bitmap.testBit k = false)
    (h : op.run e = .ok e') : e'.Clean := by
  have hsame : ∀ {α : Type} {m : CycleM α} {err : MarkError}, m.run.run e = .ok (.error err, e) →
      exec m e = .ok e' → e'.Clean := fun hm hx => by
    rw [exec_of_rejected hm] at hx
    cases hx
    exact fun _ => ⟨hp, hb⟩
  have hne : ∀ {p : Phase}, p ≠ .idle → e.phase ≠ p := fun hq h' => hq (h'.symm.trans hp)
  cases op with
  | start => exact absurd rfl hs
  | clearBitmap => exact absurd rfl hcl
  | addRootRegion r => exact hsame (Cycle.checkPhase_bind_run_ne (hne (by decide))) h
  | markRoot a => exact absurd hp hok
  | scanRootRegions => exact hsame (Cycle.checkPhase_bind_run_ne (hne (by decide))) h
  | markFromRoots => exact hsame (Cycle.checkPhase_bind_run_ne (hne (by decide))) h
  | preclean => exact hsame (Cycle.checkPhase_bind_run_ne (hne (by decide))) h
  | remark => exact hsame (Cycle.transition_bind_run_ne (hne (by decide))) h
  | cleanup => exact hsame (Cycle.transition_bind_run_ne (hne (by decide))) h
  | finish => exact hsame (Cycle.transition_bind_run_ne (hne (by decide))) h
  | runCycle => exact hsame (Cycle.runCycle_run_ne (hne (by decide))) h
  | abort =>
    obtain ⟨_, hr⟩ := Except.snd_ok h
    obtain ⟨hbm, _, hph⟩ := Cycle.abort_frame hr
    exact fun _ => ⟨hph, hbm ▸ hb⟩
  | abortThreads | satb _ | mutate _ => cases h; exact fun _ => ⟨hp, hb⟩

theorem run_clean {op : Op} {e e' : Engine} (hok : op.Disciplined e) (hu : e.Unexhausted)
    (hc : e.Clean) (h : op.run e = .ok e') : e'.Clean := by
  by_cases hs : op = .start
  · subst hs
    obtain ⟨r, hr⟩ := exec_ok h
    exact (Cycle.start_spec e r e' hc hr).1
  by_cases hcl : op = .clearBitmap
  · subst hcl
    exact exec_keeps Cycle.clearBitmap_clean hc h
  -- ほかの操作は、ビットマップが汚れていれば汚れたままにし、汚れていなければ `Idle` にある
  cases hd : e.bitmapDirty with
  | true =>
    have hst : e'.Steady e.bitmapDirty e.config := run_steady hs hcl (Engine.steady_self hu) h
    exact Engine.clean_of_dirty (hst.1.trans hd)
  | false =>
    obtain ⟨hp, hb⟩ := hc hd
    exact run_clean_of_idle hs hcl hok hp hb h

end Op

theorem Reach.clean {e : Engine} (h : Reach Op.Disciplined e) : e.Clean := by
  -- `Clean` の一歩には、再開の回数に上限がなければ枯渇していないことも要る
  refine (Reach.invariant (fun e => e.Unexhausted ∧ e.Clean) (fun _ _ _ _ e hn => ?_)
    (fun _ _ _ ⟨hu, hc⟩ hok hr => ⟨Op.run_unexhausted hu hr, Op.run_clean hok hu hc hr⟩) h).2
  obtain ⟨_, _, hp, _, hx, hb⟩ := Engine.new_fresh hn
  exact ⟨fun _ => hx, fun _ => ⟨hp, hb⟩⟩

/-- ルートの印付けを周期のあいだに限るなら、それまでに何があっても、うまくいった周期の始めのあと
ビットマップに印はなく、どのリージョンの生きた量も入ってくる参照の数も 0。 -/
theorem Reach.start_from_blank_slate {e e' : Engine} (h : Reach Op.Disciplined e)
    (hs : Cycle.start.run.run e = .ok (.ok (), e')) : e'.Blank :=
  (Cycle.start_spec e _ e' h.clean hs).2 rfl

/-- 中断した周期でルートに付けた印は、次の周期の始めが消す。 -/
theorem Reach.start_clears_aborted_root_mark : ∃ e e', Reach Op.Disciplined e ∧
    e.bitmap.testBit 0 = true ∧ Cycle.start.run.run e = .ok (.ok (), e') ∧ e'.Blank := by
  -- 作ったばかりのエンジンから、周期を始め、ルートに印を付け、中断する
  obtain ⟨e₀, h₀, hp⟩ := @Reach.of_reaches Op.Disciplined
    ⟨4096, 1, #[⟨4096, 2, .plain #[]⟩], #[#[0]], #[4112], #[4112], #[], #[], #[]⟩
    (MarkConfig.withWorkers 1) [] (fun e₀ => (Op.start.run e₀).toOption.any fun e₁ =>
      e₁.phase != .idle && (Op.run (.markRoot 4096) e₁).toOption.any fun e₂ =>
        (Op.abort.run e₂).toOption.any fun e => e.bitmap.testBit 0 &&
          (Cycle.start.run.run e).toOption.any fun (q : Except MarkError Unit × Engine) =>
            decide (q.1 = .ok ()))
    (fun _ h => by cases h) (by decide +kernel)
  simp only [Bool.and_eq_true, bne_iff_ne, ne_eq, Option.any_eq_true, Except.toOption_eq_some,
    decide_eq_true_eq] at hp
  obtain ⟨e₁, hs₁, hph, e₂, hroot, e, habort, hb, ⟨r, e'⟩, hs, rfl⟩ := hp
  have hreach : Reach Op.Disciplined e :=
    .step .abort (.step (.markRoot 4096) (.step .start h₀ trivial hs₁) hph hroot) trivial habort
  exact ⟨e, e', hreach, hb, hs, Reach.start_from_blank_slate hreach hs⟩

/-- ルートの印付けを `Idle` でも許せば、汚れていないビットマップに印が残り、周期の始めはそれを
消さない。 -/
theorem Reach.start_keeps_idle_root_mark : ∃ e e', Reach (fun _ _ => True) e ∧
    e.bitmapDirty = false ∧ e.bitmap.testBit 0 = true ∧
    Cycle.start.run.run e = .ok (.ok (), e') ∧ e'.bitmap.testBit 0 = true := by
  obtain ⟨e, hreach, hp⟩ := Reach.of_reaches
    ⟨4096, 1, #[⟨4096, 2, .plain #[]⟩], #[#[0]], #[4112], #[4112], #[], #[], #[]⟩
    (MarkConfig.withWorkers 1) [.markRoot 4096] (fun e => !e.bitmapDirty && e.bitmap.testBit 0 &&
      (Cycle.start.run.run e).toOption.any fun (q : Except MarkError Unit × Engine) =>
        decide (q.1 = .ok ()) && q.2.bitmap.testBit 0)
    (fun _ _ _ => trivial) (by decide +kernel)
  simp only [Bool.and_eq_true, Bool.not_eq_true', Option.any_eq_true, Except.toOption_eq_some,
    decide_eq_true_eq] at hp
  obtain ⟨⟨hd, hb⟩, ⟨r, e'⟩, hs, rfl, hb'⟩ := hp
  exact ⟨e, e', hreach, hd, hb, hs, hb'⟩

end RegionMark
