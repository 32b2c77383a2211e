import RegionMark.Proofs.Engine.Run

/-!
# スタックの枯渇の報告

フェーズの操作がスタックの枯渇で失敗するのは、枯渇のフラグを見たときか、参照処理が上限のスタックで
あふれたときだけである。再開の回数に上限がなければフラグは立たない。ただし伸びられるかは、再開が
スタックを伸ばした後で判定される。
-/

namespace RegionMark

namespace Engine

/-- 再開の回数に上限がなければ、スタックは枯渇していない。 -/
def Unexhausted (e : Engine) : Prop := e.config.restartLimit = none → e.exhausted = false

theorem Steady.unexhausted {d : Bool} {c : MarkConfig} {e : Engine} (h : e.Steady d c) :
    e.Unexhausted :=
  fun hl => h.2.2 (h.2.1 ▸ hl)

theorem steady_self {e : Engine} (h : e.Unexhausted) : e.Steady e.bitmapDirty e.config :=
  ⟨rfl, rfl, h⟩

theorem exhausted_of_interruption {e : Engine} {n : Nat}
    (h : e.interruption = some (.stackExhausted n)) : e.exhausted = true := by
  unfold interruption at h
  split at h
  · assumption
  · split at h <;> cases h

end Engine

namespace Cycle

variable {c : MarkConfig}

/-! ## 周期の始めとビットマップの消去 -/

theorem clearBitmapLocked_steady : Keeps (fun e => ∃ d, e.Steady d c) clearBitmapLocked := by
  unfold clearBitmapLocked
  refine Keeps.bind_get fun _ _ => Keeps.ite (Keeps.bind (Keeps.throw _) fun _ => ?_) ?_ <;>
  exact Keeps.modify fun _ ⟨_, h⟩ => ⟨false, rfl, h.2⟩

theorem clearBitmap_steady : Keeps (fun e => ∃ d, e.Steady d c) clearBitmap := by
  unfold clearBitmap
  exact Keeps.bind (Keeps.checkPhase _) fun _ =>
    Keeps.bind (Keeps.modify fun _ h => h) fun _ => clearBitmapLocked_steady

theorem start_steady : Keeps (fun e => ∃ d, e.Steady d c) start := by
  unfold start
  refine Keeps.bind (Keeps.checkPhase _) fun _ => Keeps.bind (Keeps.modify fun _ h => h) fun _ => ?_
  refine Keeps.bind_get fun _ _ => Keeps.ite (Keeps.bind clearBitmapLocked_steady fun _ => ?_) ?_ <;>
  exact Keeps.bind (Keeps.modify fun _ ⟨_, h⟩ => ⟨true, rfl, h.2.1, fun _ => rfl⟩) fun _ =>
    Keeps.transition fun _ h => h

end Cycle

namespace Op

theorem run_steady_some {op : Op} {e e' : Engine} (hu : e.Unexhausted) (h : op.run e = .ok e') :
    ∃ d, e'.Steady d e.config := by
  by_cases hst : op = .start
  · subst hst
    exact exec_keeps Cycle.start_steady ⟨_, Engine.steady_self hu⟩ h
  by_cases hcl : op = .clearBitmap
  · subst hcl
    exact exec_keeps Cycle.clearBitmap_steady ⟨_, Engine.steady_self hu⟩ h
  exact ⟨_, run_steady hst hcl (Engine.steady_self hu) h⟩

theorem run_unexhausted {op : Op} {e e' : Engine} (hu : e.Unexhausted) (h : op.run e = .ok e') :
    e'.Unexhausted := by
  obtain ⟨_, hs⟩ := run_steady_some hu h
  exact hs.unexhausted

end Op

theorem Reach.unexhausted {ok : Op → Engine → Prop} {e : Engine} (h : Reach ok e) : e.Unexhausted :=
  Reach.invariant Engine.Unexhausted (fun _ _ _ _ _ hn _ => (Engine.new_fresh hn).2.2.2.2.1)
    (fun _ _ _ hu _ hr => Op.run_unexhausted hu hr) h

namespace Cycle

variable {α β : Type}

/-! ## 枯渇の報告 -/

/-- `m` がスタックの枯渇で失敗するのは、終わりのエンジンが枯渇のフラグを持つときだけ。 -/
def Honest (m : CycleM α) : Prop :=
  Triple (fun _ => True) m fun r e => ∀ n, r = .error (.stackExhausted n) → e.exhausted = true

theorem Honest.of_ok {m : CycleM α} (h : Triple (fun _ => True) m fun r _ => ∃ a, r = .ok a) :
    Honest m :=
  h.mono (fun _ h => h) fun _ _ ⟨_, hr⟩ _ h' => by rw [hr] at h'; cases h'

theorem Honest.bind {x : CycleM α} {f : α → CycleM β} (hx : Honest x) (hf : ∀ a, Honest (f a)) :
    Honest (x >>= f) :=
  Triple.bind hx (fun a => (hf a).mono (fun _ _ => trivial) fun _ _ h => h) fun _ _ h n hn =>
    h n (by cases hn; rfl)

theorem Honest.pure (a : α) : Honest (Pure.pure a : CycleM α) :=
  Triple.pure a fun _ _ _ h => by cases h

theorem Honest.throw {err : MarkError} (h : ∀ n, err ≠ .stackExhausted n) :
    Honest (throw err : CycleM α) :=
  Triple.throw err fun _ _ n h' => absurd (Except.error.inj h') (h n)

theorem Honest.ite {c : Prop} [Decidable c] {x y : CycleM α} (hx : Honest x) (hy : Honest y) :
    Honest (if c then x else y) :=
  Triple.ite (fun _ => hx) fun _ => hy

theorem Honest.get : Honest (MonadState.get : CycleM Engine) :=
  .of_ok (Triple.get.mono (fun _ h => h) fun _ _ h => ⟨_, h.2⟩)

theorem Honest.set (e₁ : Engine) : Honest (MonadStateOf.set e₁ : CycleM PUnit) :=
  .of_ok ((Triple.set (R := fun _ => True) e₁ fun _ _ => trivial).mono (fun _ h => h)
    fun _ _ h => ⟨_, h.2⟩)

theorem Honest.modify (f : Engine → Engine) : Honest (modify f : CycleM PUnit) :=
  .of_ok ((Triple.modify (R := fun _ => True) fun _ _ => trivial).mono (fun _ h => h)
    fun _ _ h => ⟨_, h.2⟩)

theorem Honest.lift (x : Except Panic α) : Honest (lift x) :=
  Triple.lift fun _ _ _ _ _ h => by cases h

theorem Honest.update (f : Engine → Except Panic (α × Engine)) : Honest (update f) :=
  Triple.update fun _ _ _ _ _ _ h => by cases h

theorem Honest.checkPhase (p : Phase) : Honest (checkPhase p) := by
  unfold Cycle.checkPhase
  exact Honest.bind Honest.get fun _ => Honest.ite (Honest.throw fun _ h => by cases h) (Honest.pure _)

theorem Honest.setConcurrency (n : Nat) (b : Bool) : Honest (setConcurrency n b) := by
  unfold Cycle.setConcurrency
  exact Honest.bind Honest.get fun _ => Honest.bind (Honest.lift _) fun a => Honest.set a

theorem Honest.checkInterruption : Honest checkInterruption := by
  unfold Cycle.checkInterruption
  refine Triple.bind Triple.get (fun e₀ => ?_) fun _ _ h => by cases h.2
  split
  · rename_i err herr
    exact Triple.throw _ fun e ⟨_, he⟩ n hn => by
      cases he
      cases hn
      exact Engine.exhausted_of_interruption herr
  · exact Triple.pure _ fun _ _ _ h => by cases h

theorem markFromRoots_honest : Honest markFromRoots := by
  unfold markFromRoots
  refine Honest.bind (Honest.checkPhase _) fun _ => Honest.bind (Honest.modify _) fun _ => ?_
  refine Honest.bind Honest.get fun _ => Honest.bind (Honest.setConcurrency _ _) fun _ => ?_
  exact Honest.bind (Honest.update _) fun _ => Honest.checkInterruption

theorem preclean_honest : Honest preclean := by
  unfold preclean
  refine Honest.bind (Honest.checkPhase _) fun _ => Honest.bind (Honest.setConcurrency _ _) fun _ => ?_
  exact Honest.bind Honest.get fun _ => Honest.bind (Honest.update _) fun _ => Honest.checkInterruption

end Cycle

/-- 再開の回数に上限がなければ、それまでに何があっても、並行マーキングと先行の参照処理はスタックの
枯渇を報告しない。 -/
theorem Reach.concurrent_marking_never_exhausted {ok : Op → Engine → Prop} {e e' : Engine}
    {r : Except MarkError Unit} (h : Reach ok e) (hl : e.config.restartLimit = none)
    (hm : Cycle.markFromRoots.run.run e = .ok (r, e') ∨ Cycle.preclean.run.run e = .ok (r, e')) :
    ∀ n, r ≠ .error (.stackExhausted n) := by
  have hs : e.Steady e.bitmapDirty e.config := Engine.steady_self h.unexhausted
  -- 終わりのエンジンは `Steady` で、枯渇を報告したならフラグが立っている
  have hend : e'.Steady e.bitmapDirty e.config ∧
      ∀ n, r = .error (.stackExhausted n) → e'.exhausted = true := by
    rcases hm with hm | hm
    · exact ⟨Cycle.markFromRoots_closed Cycle.steady_closed e r e' hs hm,
        Cycle.markFromRoots_honest e r e' trivial hm⟩
    · exact ⟨Cycle.preclean_closed Cycle.steady_closed e r e' hs hm,
        Cycle.preclean_honest e r e' trivial hm⟩
  intro n hr
  have hx := hend.2 n hr
  rw [hend.1.2.2 hl] at hx
  cases hx

/-- 別のリージョンにある親 1 つが、1 語のオブジェクト 4 つを指すヒープ。 -/
def Heap.fanOut : Heap :=
  ⟨4096, 2, #[⟨4096, 1, .plain #[]⟩, ⟨4104, 1, .plain #[]⟩, ⟨4112, 1, .plain #[]⟩,
    ⟨4120, 1, .plain #[]⟩, ⟨8192, 2, .plain #[4096, 4104, 4112, 4120]⟩],
    #[#[0, 1, 2, 3], #[4]], #[4128, 8208], #[4128, 8208], #[], #[], #[]⟩

/-- 1 ワーカーで、ローカルキューに 2 項目しか入らず、大域スタックは 1 項目のチャンクを 1 つから 2 つ
まで持つ構成。再開の回数の上限は `limit`。 -/
def MarkConfig.tinyStack (limit : Option Nat) : MarkConfig :=
  { MarkConfig.withWorkers 1 with
    entriesPerChunk := 1
    minChunks := 1
    maxChunks := 2
    queueCapacity := 2
    statsCacheEntries := 1
    restartLimit := limit }

/-- 上限のない再開がオーバーフローを片付け、並行マーキングは枯渇を報告しない。 -/
theorem Reach.concurrent_marking_survives_overflow : ∃ e e' r, Reach (fun _ _ => True) e ∧
    e.config.restartLimit = none ∧ Cycle.markFromRoots.run.run e = .ok (r, e') ∧
    0 < e'.metrics.overflowRestarts ∧ ∀ n, r ≠ .error (.stackExhausted n) := by
  obtain ⟨e, hreach, hp⟩ := Reach.of_reaches Heap.fanOut (MarkConfig.tinyStack none)
    [.start, .markRoot 8192, .scanRootRegions] (fun e => e.config.restartLimit == none &&
      (Cycle.markFromRoots.run.run e).toOption.any fun (q : Except MarkError Unit × Engine) =>
        decide (0 < q.2.metrics.overflowRestarts))
    (fun _ _ _ => trivial) (by decide +kernel)
  simp only [Bool.and_eq_true, beq_iff_eq, Option.any_eq_true, Except.toOption_eq_some,
    decide_eq_true_eq] at hp
  obtain ⟨hl, ⟨r, e'⟩, hmark, hrestarts⟩ := hp
  exact ⟨e, e', r, hreach, hl, hmark, hrestarts,
    Reach.concurrent_marking_never_exhausted hreach hl (.inl hmark)⟩

/-- 再開の回数を 0 回に限ると、上限に届いていないスタックで起きた最初のオーバーフローでも、その再開で
スタックが上限まで伸びたために、並行マーキングは枯渇を報告する。 -/
theorem Reach.restart_reports_exhaustion_after_growing : ∃ e e', Reach (fun _ _ => True) e ∧
    e.metrics.overflowRestarts = 0 ∧ e.stack.capacityChunks < e.stack.alloc.maxCapacity ∧
    Cycle.markFromRoots.run.run e = .ok (.error (.stackExhausted 2), e') ∧
    e'.metrics.overflowRestarts = 1 := by
  obtain ⟨e, hreach, hp⟩ := Reach.of_reaches Heap.fanOut (MarkConfig.tinyStack (some 0))
    [.start, .markRoot 8192, .scanRootRegions] (fun e => e.metrics.overflowRestarts == 0 &&
      decide (e.stack.capacityChunks < e.stack.alloc.maxCapacity) &&
      (Cycle.markFromRoots.run.run e).toOption.any fun (q : Except MarkError Unit × Engine) =>
        decide (q.1 = .error (.stackExhausted 2)) && q.2.metrics.overflowRestarts == 1)
    (fun _ _ _ => trivial) (by decide +kernel)
  simp only [Bool.and_eq_true, beq_iff_eq, Option.any_eq_true, Except.toOption_eq_some,
    decide_eq_true_eq] at hp
  obtain ⟨⟨h0, hcap⟩, ⟨r, e'⟩, hmark, rfl, h1⟩ := hp
  exact ⟨e, e', hreach, h0, hcap, hmark, h1⟩

end RegionMark
