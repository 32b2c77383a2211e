import RegionMark.Proofs.Restart.Growth
import RegionMark.Proofs.Engine.Accounting

/-!
# オーバーフローの再開は前に進む

始まったばかりの周期は静かなので、そこから勘定を始められ、周期の中の操作はこれを保つ。だから周期の中の
再開はどれも前の再開より多くの印のもとで起きる。キューの容量は `2 ^ 63` より小さいとする。
-/

namespace RegionMark

/-- 受け付けた構成のキューは 2 の冪の容量を持ち、2 チャンク以上を入れられるので容量は 2 以上。配列を
区切る刻みは正。 -/
theorem MarkConfig.shape_of_check {c : MarkConfig} {v : Except MarkError Unit} (h : c.check = .ok v)
    (hv : ∀ err, v = .error err → False) :
    Word.isPow2 c.queueCapacity = true ∧ 2 ≤ c.queueCapacity ∧ 0 < c.sliceStride := by
  unfold MarkConfig.check at h
  simp only [bind, Except.bind, pure, Except.pure] at h
  repeat' split at h
  all_goals first | (cases h; exact (hv _ rfl).elim) | skip
  · cases h
  · rename_i _ hepc _ hpow _ _ hmul hcap hstride _ _
    unfold Word.mul at hmul
    split at hmul
    · cases hmul
      simp only [Bool.not_eq_true', Bool.not_eq_false] at hpow
      exact ⟨hpow, by omega, Nat.pos_of_ne_zero hstride⟩
    · cases hmul

theorem TaskQueue.new_wellFormed {α : Type} [Inhabited α] {n : Nat} {q : TaskQueue α}
    (h : TaskQueue.new n = .ok q) (hn : n < 2 ^ 63) : q.WellFormed ∧ q.capacity = n := by
  unfold TaskQueue.new at h
  split at h
  · cases h
    rename_i hpow
    have hcap : ({ slots := Array.replicate n default, bottom := 0, top := 0 } : TaskQueue α).capacity = n :=
      Array.size_replicate
    refine ⟨⟨by rw [hcap]; exact hpow, by rw [hcap]; exact hn, Word.bound_pos, Word.bound_pos, ?_⟩, hcap⟩
    rw [Word.wrapSub_self]
    exact Nat.zero_le _
  · cases h

namespace Engine

variable {C : MarkConfig} {t : Prop} {R : Nat × List Bitmap} {M : Nat} {e e' : Engine}

theorem Paid.vacuous (R : Nat × List Bitmap) (M : Nat) (e : Engine) : e.Paid False R M :=
  ⟨False.elim, False.elim, False.elim, False.elim, fun h => h.elim⟩

/-- 作ったばかりのエンジンは、キューの容量が `2 ^ 63` より小さければ、その構成の形とタスクの表を持つ。 -/
theorem new_accounted {h : Heap} {c : MarkConfig} {s : Schedule} {m : Memory}
    (hn : Engine.new h c s m = .ok (.ok e))
    (hcap : c.queueCapacity < 2 ^ 63) : e.Accounted c False (0, []) 0 := by
  obtain ⟨v, hc, hv, -, queue, -, bitmap, -, hq, -, hbm, rfl⟩ := new_ok_inv hn
  have hw := MarkConfig.workers_pos hc hv
  obtain ⟨-, hroomy, hstride⟩ := MarkConfig.shape_of_check hc hv
  obtain ⟨-, hcov⟩ := Bitmap.new_tidy hbm
  obtain ⟨hwf, hqcap⟩ := TaskQueue.new_wellFormed hq hcap
  refine ⟨⟨rfl, Array.size_replicate, fun q hq => ?_, hroomy, hstride, hcov⟩, ⟨by simp, hw, fun w hw' => ?_⟩,
    Paid.vacuous _ 0 _⟩
  · rw [Array.mem_replicate] at hq
    rw [hq.2]
    exact ⟨hwf, hqcap⟩
  · show (((Array.range c.workers).map _).getD w (default : MarkTask)).id = w
    rw [Array.getD_eq_getD_getElem?, Array.getElem?_map, Array.getElem?_range, if_pos hw']
    rfl

theorem Staffed.map {f : MarkTask → MarkTask} (hs : e.Staffed C) (hf : ∀ t, (f t).id = t.id)
    (ht : e'.tasks = e.tasks.map f) : e'.Staffed C := by
  refine ⟨by rw [ht, Array.size_map]; exact hs.size, hs.pos, fun w hw => ?_⟩
  have hw' : w < e.tasks.size := hs.size ▸ hw
  have hid := hs.ids w hw
  rw [Array.getD_eq_getD_getElem?, Array.getElem?_eq_getElem hw', Option.getD_some] at hid
  rw [ht, Array.getD_eq_getD_getElem?, Array.getElem?_map, Array.getElem?_eq_getElem hw', Option.map_some,
    Option.getD_some, hf, hid]

theorem Framed.clearAll (hf : e.Framed C) :
    ({ e with bitmap := e.bitmap.clearAll, bitmapDirty := false } : Engine).Framed C :=
  ⟨hf.config, hf.size, hf.queues, hf.roomy, hf.stride, by simpa [Bitmap.clearAll] using hf.covers⟩

end Engine

namespace Cycle

variable {C : MarkConfig} {R : Nat × List Bitmap} {M : Nat} {H : Heap}

theorem clearBitmapLocked_shaped :
    Keeps (fun e => e.Accounted C False R M ∧ e.heap = H) clearBitmapLocked := by
  unfold clearBitmapLocked
  refine Keeps.bind_get fun _ _ => Keeps.ite (Keeps.bind (Keeps.throw _) fun _ => ?_) ?_
  all_goals exact Keeps.modify fun _ h =>
    ⟨⟨h.1.framed.clearAll, h.1.staffed.congr rfl, Engine.Paid.vacuous _ _ _⟩, h.2⟩

theorem clearBitmap_shaped : Keeps (fun e => e.Accounted C False R M ∧ e.heap = H) clearBitmap :=
  Keeps.bind (Keeps.checkPhase _) fun _ => Keeps.bind (Keeps.modify fun _ h =>
    ⟨h.1.aside ⟨rfl, rfl, rfl, rfl, rfl, rfl, rfl⟩ rfl, h.2⟩) fun _ => clearBitmapLocked_shaped

/-- 周期の始めは、エンジンの形とタスクの表とヒープを保ち、成功すれば、すべてのキューと大域スタックを
空にしてエンジンを静かにする。 -/
theorem start_calm :
    Triple (fun e => e.Accounted C False R M ∧ e.heap = H) start
      fun r e => (e.Accounted C False R M ∧ e.heap = H) ∧ (r = .ok () → H.Tiled → e.Calm) := by
  unfold start
  refine Triple.bind (checkPhase_spec .idle) (fun _ => ?_) fun _ _ h => ⟨h.1, fun h' => nomatch h'⟩
  refine Triple.bind (Triple.modify (R := fun e => e.Accounted C False R M ∧ e.heap = H)
    fun _ h => ⟨h.1.1.aside ⟨rfl, rfl, rfl, rfl, rfl, rfl, rfl⟩ rfl, h.1.2⟩) (fun _ => ?_)
    fun _ _ h => nomatch h.2
  refine Triple.bind Triple.get (fun _ => ?_) fun _ _ h => nomatch h.2
  refine Triple.ite (fun _ => Triple.bind (clearBitmapLocked_shaped.mono (fun _ h => h.1.1) fun _ _ h => h)
    (fun _ => ?_) fun _ _ h => ⟨h, fun h' => nomatch h'⟩) fun _ => Triple.mono ?_ (fun _ h => h.1.1) fun _ _ h => h
  -- 消去した枝と省いた枝は、キューと大域スタックを空にする初期化に合流する
  all_goals
    refine Triple.bind (Triple.modify (R := fun e => (e.Accounted C False R M ∧ e.heap = H) ∧ (H.Tiled → e.Calm))
      fun _ h => ?_) (fun _ => ?_) fun _ _ h => nomatch h.2
    · obtain ⟨he, hH⟩ := h
      refine ⟨⟨⟨⟨he.framed.config, ?_, he.framed.setEmpty_queues, he.framed.roomy, he.framed.stride,
        he.framed.covers⟩, he.staffed.map (f := MarkTask.reset) (fun _ => rfl) rfl, Engine.Paid.vacuous _ _ _⟩, hH⟩,
        fun ht => ⟨rfl, rfl, he.framed.setEmpty_calm _ _, hH ▸ ht⟩⟩
      exact (Array.size_map ..).trans he.framed.size
    · exact (Keeps.transition (J := fun e => (e.Accounted C False R M ∧ e.heap = H) ∧ (H.Tiled → e.Calm))
        fun _ h => ⟨⟨h.1.1.aside ⟨rfl, rfl, rfl, rfl, rfl, rfl, rfl⟩ rfl, h.1.2⟩,
          fun ht => (h.2 ht).aside ⟨rfl, rfl, rfl, rfl, rfl, rfl, rfl⟩⟩).mono (fun _ h => h.1)
        fun _ _ h => ⟨h.1, fun _ => h.2⟩

end Cycle

namespace Op

variable {C : MarkConfig} {R : Nat × List Bitmap} {M : Nat} {e e' : Engine}

theorem run_shaped {op : Op} (he : e.Accounted C False R M) (h : op.run e = .ok e') :
    e'.Accounted C False R M := by
  by_cases hop : op.withinCycle = true
  · exact run_accounted hop he h
  cases op
  case start =>
    obtain ⟨_, hr⟩ := exec_ok h
    exact (Cycle.start_calm e _ e' ⟨he, rfl⟩ hr).1.1
  case clearBitmap => exact (exec_keeps Cycle.clearBitmap_shaped ⟨he, rfl⟩ h).1
  case mutate f =>
    cases h
    exact ⟨he.framed.congr rfl rfl rfl, he.staffed.congr rfl, Engine.Paid.vacuous _ _ _⟩
  all_goals exact absurd rfl hop

end Op

theorem Reach.accounted {ok : Op → Engine → Prop} {e : Engine} (h : Reach ok e)
    (hcap : e.config.queueCapacity < 2 ^ 63) : e.Accounted e.config False (0, []) 0 := by
  -- 構成はどの操作でも変わらないので、容量の仮定は走りのどの時点にも運べる
  refine (Reach.invariant (fun e => e.Unexhausted ∧
    (e.config.queueCapacity < 2 ^ 63 → e.Accounted e.config False (0, []) 0)) (fun _ _ _ _ e hn => ?_)
    (fun op e e' ⟨hu, ha⟩ _ hr => ?_) h).2 hcap
  · obtain ⟨-, hc, -, -, hx, -⟩ := Engine.new_fresh hn
    refine ⟨fun _ => hx, fun hcap => ?_⟩
    rw [hc] at hcap ⊢
    exact Engine.new_accounted hn hcap
  · obtain ⟨_, -, hc, -⟩ := Op.run_steady_some hu hr
    refine ⟨Op.run_unexhausted hu hr, fun hcap => ?_⟩
    rw [hc] at hcap ⊢
    exact Op.run_shaped (ha hcap) hr

theorem Engine.fresh_self (e : Engine) : e.fresh e.restartRecord = [] := by
  rw [Engine.fresh, restartRecord, Nat.sub_self, List.take_zero]

theorem Engine.Paid.start {e : Engine} (hc : e.Calm) : e.Paid True e.restartRecord e.marks where
  tiled _ := hc.tiled
  log _ := by
    rw [e.fresh_self]
    exact ⟨rfl, Nat.zero_add _⟩
  rising _ := by
    rw [e.fresh_self]
    exact List.isChain_singleton _
  le _ := by rw [Engine.anchor, e.fresh_self]; rfl
  calm _ _ := hc

/-- オーバーフローの再開は前に進む。届くエンジンで周期を始め、ヒープを書き換えずに周期の中の操作を
どう続けても、周期の中の再開はどれも、その前の再開（最初の再開なら周期の始め）より多くの印があるときに
起き、今の印の数は最後の再開のときを下回らない。よって再開の回数は、始めから立った印の数を超えない。
印は消えず、新しく立った印はどれも TAMS より下のアドレスのビットである。 -/
theorem Reach.marks_rise_between_restarts {ok : Op → Engine → Prop} {e e₀ e' : Engine} {ops : List Op}
    (h : Reach ok e) (hcap : e.config.queueCapacity < 2 ^ 63) (hb : e.heap.Built)
    (hs : Cycle.start.run.run e = .ok (.ok (), e₀)) (hops : ∀ op ∈ ops, op.withinCycle = true)
    (hr : Op.runAll ops e₀ = .ok e') :
    (∃ fresh : List Bitmap, e'.restartBitmaps = fresh ++ e₀.restartBitmaps ∧
        fresh.length + e₀.restarts = e'.restarts ∧
        (fresh.map Bitmap.popCount ++ [e₀.marks]).IsChain (· > ·) ∧
        (fresh.map Bitmap.popCount).headD e₀.marks ≤ e'.marks) ∧
      e'.restarts + e₀.marks ≤ e₀.restarts + e'.marks ∧
      (∀ k, e₀.bitmap.testBit k = true → e'.bitmap.testBit k = true) ∧
      ∀ k, e'.bitmap.testBit k = true → e₀.bitmap.testBit k = false →
        ∃ a r, e₀.heap.regionOf? a = some r ∧ a < e₀.heap.tamsOf r ∧ e₀.bitmap.bitIndex a = .ok k := by
  -- 周期の始めのエンジンは静かで、そこから勘定を始める
  obtain ⟨⟨he₀, -⟩, hcalm⟩ := Cycle.start_calm e _ e₀ ⟨h.accounted hcap, rfl⟩ hs
  have hacc : e₀.Accounted e.config True e₀.restartRecord e₀.marks :=
    ⟨he₀.framed, he₀.staffed, Engine.Paid.start (hcalm rfl hb.tiled)⟩
  have hp := (Op.runAll_accounted hops hacc hr).paid
  have hg := Op.runAll_grown hops (Engine.grown_self he₀.framed.covers) hr
  obtain ⟨hlog, hlen⟩ := hp.log trivial
  exact ⟨⟨_, hlog, hlen, hp.rising trivial, hp.le trivial⟩, (hp.bound trivial).trans_eq (Nat.add_comm _ _),
    hg.kept, hg.fresh⟩

theorem Heap.fanOut_built : Heap.fanOut.Built := by
  have hb := Heap.Built.snapshotTams
    (.tryAlloc (.tryAlloc (.tryAlloc (.tryAlloc (.tryAlloc
      (.new (by with_unfolding_all rfl : Heap.new 2 4096 = _))
      (by with_unfolding_all rfl : Heap.tryAlloc _ 0 1 [] = .ok (some 4096, _)))
      (by with_unfolding_all rfl : Heap.tryAlloc _ 0 1 [] = .ok (some 4104, _)))
      (by with_unfolding_all rfl : Heap.tryAlloc _ 0 1 [] = .ok (some 4112, _)))
      (by with_unfolding_all rfl : Heap.tryAlloc _ 0 1 [] = .ok (some 4120, _)))
      (by with_unfolding_all rfl : Heap.tryAlloc _ 1 2 [4096, 4104, 4112, 4120] = .ok (some 8192, _)))
  convert hb using 1
  with_unfolding_all rfl

/-- 1 ワーカーの小さなスタックでは、親をルートにした並行マーキングが溢れて再開する。再開のたびに、
その前より多くの印が立っている。 -/
theorem Reach.overflow_restart_follows_new_marks : ∃ e e₀ e', Reach (fun _ _ => True) e ∧
    e.config.queueCapacity < 2 ^ 63 ∧ e.heap.Built ∧ Cycle.start.run.run e = .ok (.ok (), e₀) ∧
    Op.runAll [.markRoot 8192, .scanRootRegions, .markFromRoots] e₀ = .ok e' ∧ e₀.restarts < e'.restarts ∧
    (∃ fresh : List Bitmap, e'.restartBitmaps = fresh ++ e₀.restartBitmaps ∧
        fresh.length + e₀.restarts = e'.restarts ∧
        (fresh.map Bitmap.popCount ++ [e₀.marks]).IsChain (· > ·) ∧
        (fresh.map Bitmap.popCount).headD e₀.marks ≤ e'.marks) ∧
      e'.restarts + e₀.marks ≤ e₀.restarts + e'.marks ∧
      (∀ k, e₀.bitmap.testBit k = true → e'.bitmap.testBit k = true) ∧
      ∀ k, e'.bitmap.testBit k = true → e₀.bitmap.testBit k = false →
        ∃ a r, e₀.heap.regionOf? a = some r ∧ a < e₀.heap.tamsOf r ∧ e₀.bitmap.bitIndex a = .ok k := by
  have hr : Op.reaches Heap.fanOut (MarkConfig.tinyStack none) [] (fun e =>
      decide (e.config.queueCapacity < 2 ^ 63) && (Cycle.start.run.run e).toOption.any
        fun (q : Except MarkError Unit × Engine) => decide (q.1 = .ok ()) &&
          (Op.runAll [.markRoot 8192, .scanRootRegions, .markFromRoots] q.2).toOption.any
            fun e' => decide (q.2.restarts < e'.restarts)) = true := by
    decide +kernel
  simp only [Op.reaches, Option.any_eq_true, Option.bind_eq_some_iff, Except.toOption_eq_some] at hr
  obtain ⟨e, ⟨_, hnew, rfl⟩, _, hrun, hp⟩ := hr
  cases hrun
  simp only [Bool.and_eq_true, decide_eq_true_eq, Option.any_eq_true, Except.toOption_eq_some] at hp
  obtain ⟨hcap, ⟨r, e₀⟩, hs, hr₀, e', hops, hlt⟩ := hp
  subst hr₀
  have hreach : Reach (fun _ _ => True) e := .new hnew
  have hb : e.heap.Built := (Engine.new_fresh hnew).1 ▸ Heap.fanOut_built
  exact ⟨e, e₀, e', hreach, hcap, hb, hs, hops, hlt,
    Reach.marks_rise_between_restarts hreach hcap hb hs (by decide) hops⟩

end RegionMark
