import RegionMark.Proofs.Restart.Steps
import RegionMark.Proofs.Engine.Operations

/-!
# 再開の勘定

勘定 `Engine.Paid` は、周期の始めからの再開のときの印の数が再開ごとに増え、今の印の数が最後の再開の
ときを下回らず、等しければエンジンが静かであることを言う。再開しないタスクの計算はこれを保つ。
-/

namespace RegionMark

namespace Engine

variable {C : MarkConfig} {t : Prop} {R : Nat × List Bitmap} {M : Nat} {e e' : Engine}

/-- 再開の記録 `R` の後に積まれたビットマップ（新しいものが先）。 -/
def fresh (R : Nat × List Bitmap) (e : Engine) : List Bitmap := e.restartBitmaps.take (e.restarts - R.1)

/-- 最後の再開のときの印の数。`R` の後に再開していなければ `M`。 -/
def anchor (R : Nat × List Bitmap) (M : Nat) (e : Engine) : Nat := ((e.fresh R).map Bitmap.popCount).headD M

/-- 周期の始めの再開の記録 `R`、印 `M` 個からの勘定：`t` のもとで、ヒープは割り当てのとおりに並び、
記録は `R` に再開ごとに 1 つずつ積まれ、積まれた印の数は `M` から再開ごとに増え、今の印の数は最後の
再開のときを下回らず、等しければエンジンは静か。 -/
structure Paid (t : Prop) (R : Nat × List Bitmap) (M : Nat) (e : Engine) : Prop where
  tiled : t → e.heap.Tiled
  log : t → e.restartBitmaps = e.fresh R ++ R.2 ∧ (e.fresh R).length + R.1 = e.restarts
  rising : t → ((e.fresh R).map Bitmap.popCount ++ [M]).IsChain (· > ·)
  le : t → e.anchor R M ≤ e.marks
  calm : t → e.anchor R M = e.marks → e.Calm

/-- 勘定の余り：`t` のもとで、最後の再開より後に印が増えた。 -/
def Owed (t : Prop) (R : Nat × List Bitmap) (M : Nat) (e : Engine) : Prop := t → e.anchor R M < e.marks

theorem fresh_congr (h : e'.restartRecord = e.restartRecord) : e'.fresh R = e.fresh R := by
  have h₁ : e'.restarts = e.restarts := congrArg Prod.fst h
  have h₂ : e'.restartBitmaps = e.restartBitmaps := congrArg Prod.snd h
  rw [fresh, fresh, h₁, h₂]

theorem anchor_congr (h : e'.restartRecord = e.restartRecord) : e'.anchor R M = e.anchor R M := by
  rw [anchor, anchor, fresh_congr h]

/-- 再開の記録を変えず、印を減らさない一歩は、等しいときの静けさを示せば勘定を保つ。 -/
theorem Paid.of_record (hp : e.Paid t R M) (htiled : e.heap.Tiled → e'.heap.Tiled)
    (hr : e'.restartRecord = e.restartRecord) (hm : e.marks ≤ e'.marks)
    (hc : t → e.anchor R M = e'.marks → e'.Calm) : e'.Paid t R M where
  tiled ht := htiled (hp.tiled ht)
  log ht := by
    rw [fresh_congr hr, show e'.restartBitmaps = e.restartBitmaps from congrArg Prod.snd hr,
      show e'.restarts = e.restarts from congrArg Prod.fst hr]
    exact hp.log ht
  rising ht := by
    rw [fresh_congr hr]
    exact hp.rising ht
  le ht := by
    rw [anchor_congr hr]
    exact le_trans (hp.le ht) hm
  calm ht heq := hc ht (by rwa [anchor_congr hr] at heq)

theorem Owed.of_record (ho : e.Owed t R M) (hr : e'.restartRecord = e.restartRecord)
    (hm : e.marks ≤ e'.marks) : e'.Owed t R M := by
  intro ht
  rw [anchor_congr hr]
  exact lt_of_lt_of_le (ho ht) hm

theorem Paid.aside (hp : e.Paid t R M) (h : e.Aside e') : e'.Paid t R M :=
  hp.of_record (fun ht => h.heap ▸ ht) h.restarts h.marks.ge fun ht heq =>
    (hp.calm ht (heq.trans h.marks)).aside h

theorem Owed.aside (ho : e.Owed t R M) (h : e.Aside e') : e'.Owed t R M :=
  ho.of_record h.restarts h.marks.ge

theorem Paid.owed (hp : e.Paid t R M) (hov : e.overflown = true) : e.Owed t R M := by
  intro ht
  have hne : e.anchor R M ≠ e.marks := fun heq => by
    rw [(hp.calm ht heq).overflown] at hov
    cases hov
  exact lt_of_le_of_ne (hp.le ht) hne

theorem add_length_le_headD {l : List Nat} {M : Nat} (h : (l ++ [M]).IsChain (· > ·)) :
    M + l.length ≤ l.headD M := by
  induction l with
  | nil => exact le_rfl
  | cons a l ih =>
    rw [List.cons_append, List.isChain_cons] at h
    have hlt : l.headD M < a := by
      cases l with
      | nil => exact h.1 M rfl
      | cons b l => exact h.1 b rfl
    have := ih h.2
    simp only [List.length_cons, List.headD_cons]
    omega

theorem Paid.bound (hp : e.Paid t R M) (ht : t) : e.restarts + M ≤ e.marks + R.1 := by
  have hlen := (hp.log ht).2
  have hchain := add_length_le_headD (hp.rising ht)
  have hle := hp.le ht
  rw [List.length_map] at hchain
  unfold anchor at hle
  omega

/-- オーバーフローの再開：すべてのキューと大域のスタックを空にし、オーバーフローを解き、再開を
1 回数えて、そのときのビットマップを記録に積む。 -/
theorem restartAfterOverflow_shape (h : e.restartAfterOverflow = .ok e') :
    e'.queues = e.queues.map (·.setEmpty) ∧ e'.stack.dataHead = 0 ∧ e'.overflown = false ∧
      e'.restarts = e.restarts + 1 ∧ e'.restartBitmaps = e.bitmap :: e.restartBitmaps := by
  obtain ⟨st, stats, n, x, rfl, hd, -⟩ := restartAfterOverflow_eq h
  exact ⟨rfl, hd, rfl, rfl, rfl⟩

theorem Framed.setEmpty_queues (hf : e.Framed C) :
    ∀ q ∈ e.queues.map (·.setEmpty), q.WellFormed ∧ q.capacity = C.queueCapacity := by
  intro q hmem
  rw [Array.mem_map] at hmem
  obtain ⟨q₀, hq₀, rfl⟩ := hmem
  obtain ⟨hwf, hcap, -⟩ := (hf.queues q₀ hq₀).1.setEmpty
  exact ⟨hwf, hcap.trans (hf.queues q₀ hq₀).2⟩

theorem Framed.setEmpty_calm (hf : e.Framed C) (h : Heap) (n : Nat) :
    ∀ q ∈ e.queues.map (·.setEmpty), q.Calm h n := by
  intro q hmem
  rw [Array.mem_map] at hmem
  obtain ⟨q₀, hq₀, rfl⟩ := hmem
  have hnil := (hf.queues q₀ hq₀).1.setEmpty.2.2
  refine ⟨by rw [hnil]; exact Nat.zero_le _, fun x hx => ?_⟩
  rw [hnil] at hx
  cases hx

theorem Framed.restart (hf : e.Framed C) (h : e.restartAfterOverflow = .ok e') : e'.Framed C := by
  obtain ⟨hq, -⟩ := restartAfterOverflow_shape h
  obtain ⟨hb, -, -, hc, -⟩ := restartAfterOverflow_frame h
  exact ⟨hc.trans hf.config, by rw [hq, Array.size_map]; exact hf.size, hq ▸ hf.setEmpty_queues, hf.roomy,
    hf.stride, hb ▸ hf.covers⟩

theorem head?_append_singleton {l : List Nat} {M : Nat} : (l ++ [M]).head? = some (l.headD M) := by
  cases l <;> rfl

theorem Paid.restart (hp : e.Paid t R M) (hf : e.Framed C) (ho : e.Owed t R M)
    (h : e.restartAfterOverflow = .ok e') : e'.Paid t R M := by
  obtain ⟨hq, hd, hov, hr, hlog⟩ := restartAfterOverflow_shape h
  obtain ⟨hb, hh, -⟩ := restartAfterOverflow_frame h
  have hm : e'.marks = e.marks := by
    unfold Engine.marks
    rw [hb]
  -- 記録の `R` より後の部分は、今のビットマップを先頭に 1 つ伸びる
  have hfresh : t → e'.fresh R = e.bitmap :: e.fresh R := fun ht => by
    obtain ⟨hl, hlen⟩ := hp.log ht
    rw [fresh, hlog, hr, hl, ← hlen, show (e.fresh R).length + R.1 + 1 - R.1 = (e.fresh R).length + 1 by omega,
      List.take_succ_cons, List.take_left' rfl]
  have hanchor : t → e'.anchor R M = e.marks := fun ht => by
    rw [anchor, hfresh ht]
    rfl
  refine ⟨fun ht => hh ▸ hp.tiled ht, fun ht => ?_, fun ht => ?_, fun ht => (hanchor ht).trans hm.symm ▸ le_rfl,
    fun ht _ => ⟨hov, hd, hq ▸ hf.setEmpty_calm _ _, hh ▸ hp.tiled ht⟩⟩
  · obtain ⟨hl, hlen⟩ := hp.log ht
    rw [hfresh ht, hlog, hl, hr, ← hlen, List.length_cons]
    exact ⟨rfl, by omega⟩
  · rw [hfresh ht, List.map_cons, List.cons_append, List.isChain_cons, head?_append_singleton]
    refine ⟨fun y hy => ?_, hp.rising ht⟩
    cases hy
    exact ho ht

end Engine

namespace Marking

variable {C : MarkConfig} {t : Prop} {R : Nat × List Bitmap} {M : Nat} {o : Prop} {w : Nat} {α : Type}

/-- タスク `w` の計算の状態の勘定：形が保たれ、勘定が成り立ち、`o` のもとで余りがある。 -/
structure Budget (C : MarkConfig) (t : Prop) (R : Nat × List Bitmap) (M : Nat) (o : Prop) (w : Nat) (s : Worker) : Prop where
  framed : s.Framed C
  paid : s.eng.Paid t R M
  owed : o → s.eng.Owed t R M
  id : s.task.id = w

/-- 並行フェーズの区切りで止まったタスクの状態：勘定が成り立ち、最初のバリアで待つなら余りがある。 -/
def Rests (C : MarkConfig) (t : Prop) (R : Nat × List Bitmap) (M : Nat) (o : Prop) (w : Nat) (st : Stage) (s : Worker) : Prop :=
  Budget C t R M o w s ∧ ∀ g, st = .firstBarrier g → s.eng.Owed t R M

theorem Budget.aside {s s' : Worker} (hs : Budget C t R M o w s) (ha : s.eng.Aside s'.eng)
    (hid : s'.task.id = s.task.id) : Budget C t R M o w s' := by
  refine ⟨⟨hs.framed.eng.aside ha, ?_⟩, hs.paid.aside ha, fun h => (hs.owed h).aside ha, hid.trans hs.id⟩
  rw [hid, ha.queues]
  exact hs.framed.id

theorem idHeap_closed (w : Nat) (h : Heap) :
    Closed (fun _ => True) fun s => s.task.id = w ∧ s.eng.heap = h :=
  (id_closed w).and (heap_closed h)

theorem Keeps.budget {f : TaskM α} (h : ∀ c r m, Keeps (Still C c r m fun _ => True) f)
    (hk : ∀ w h, Keeps (fun s => s.task.id = w ∧ s.eng.heap = h) f) : Keeps (Budget C t R M o w) f := by
  intro s a s' hs hr
  have h₁ := h (t ∧ s.eng.anchor R M = s.eng.marks) s.eng.restartRecord s.eng.marks s a s'
    ⟨hs.framed, rfl, le_rfl, fun hc _ => ⟨hs.paid.calm hc.1 hc.2, trivial⟩⟩ hr
  obtain ⟨hid, hh⟩ := hk w s.eng.heap s a s' ⟨hs.id, rfl⟩ hr
  refine ⟨h₁.framed, hs.paid.of_record (fun ht => hh ▸ ht) h₁.restarts h₁.marks fun ht heq => ?_,
    fun ho => (hs.owed ho).of_record h₁.restarts h₁.marks, hid⟩
  -- 等しければ印は増えておらず、始めから静かな走り
  have hle := hs.paid.le ht
  rw [heq] at hle
  have hm' : s'.eng.marks = s.eng.marks := le_antisymm hle h₁.marks
  exact (h₁.quiet ⟨ht, heq.trans hm'⟩ hm').1

theorem modifyEng_budget {f : Engine → Engine} (hf : ∀ e : Engine, e.Aside (f e)) :
    Keeps (Budget C t R M o w) (modifyEng f) :=
  Triple.modifyEng fun s hs => (hs.aside (hf s.eng) rfl : Budget C t R M o w ⟨f s.eng, s.task⟩)

theorem modifyTask_budget {f : MarkTask → MarkTask} (hf : ∀ tk, (f tk).id = tk.id) :
    Keeps (Budget C t R M o w) (modifyTask f) :=
  Triple.modifyTask fun s hs => (hs.aside (Engine.Aside.refl _) (hf s.task) : Budget C t R M o w ⟨s.eng, f s.task⟩)

theorem finishStep_stage (again : Engine → MarkTask → Bool) {P : Worker → Prop} :
    Triple P (finishStep again) fun st _ => ∀ g, st ≠ .firstBarrier g := by
  unfold finishStep
  refine Triple.bind (Q := fun _ _ => True) (fun _ _ _ _ _ => trivial) fun _ =>
    Triple.bind (Q := fun _ _ => True) (fun _ _ _ _ _ => trivial) fun _ =>
    Triple.bind (Q := fun _ _ => True) (fun _ _ _ _ _ => trivial) fun _ => Triple.pure _ fun _ _ g h => ?_
  split at h <;> cases h

theorem finishStep_budget (again : Engine → MarkTask → Bool) :
    Triple (Budget C t R M o w) (finishStep again) (Rests C t R M o w) :=
  (Triple.and (Keeps.budget (fun _ _ _ => finishStep_still again) fun w h =>
      finishStep_keeps (idHeap_closed w h) again) (finishStep_stage again)).mono (fun _ h => ⟨h, h⟩)
    fun _ _ h => ⟨h.1, fun g hg => absurd hg (h.2 g)⟩

/-- 最初のバリアを抜けたタスク。並行フェーズの 0 番のタスクは、勘定に余りがあれば再開してよい。 -/
theorem afterFirstBarrier_budget (again : Engine → MarkTask → Bool) (hw : o → w ≠ 0) :
    Triple (fun s => Budget C t R M o w s ∧ (s.eng.concurrent = true → w = 0 → s.eng.Owed t R M))
      (afterFirstBarrier again) (Rests C t R M o w) := by
  unfold afterFirstBarrier
  refine Triple.bind (Q := fun _ s => Budget C t R M o w s ∧ (s.eng.concurrent = true → w = 0 → s.eng.Owed t R M))
    (Triple.modifyTask fun s hs => ⟨hs.1.aside (Engine.Aside.refl _) rfl, hs.2⟩) fun _ => ?_
  refine Triple.bind Triple.eng fun e => Triple.bind Triple.task fun tk => Triple.ite (fun hc => ?_)
    fun _ => Triple.mono (P := Budget C t R M o w) ?_ (fun _ h => h.1.1.1) fun _ _ h => h
  -- 0 番のタスクがやり直したエンジンを書き戻す
  refine Triple.bind Triple.eng fun e₁ => Triple.bind Triple.check_eq fun e' =>
    Triple.bind (Q := fun _ => Budget C t R M o w) (Triple.modify fun s hs => by
      obtain ⟨⟨⟨⟨⟨hs, hown⟩, rfl⟩, rfl⟩, rfl⟩, hrs⟩ := hs
      simp only [Bool.and_eq_true, decide_eq_true_eq] at hc
      have hw0 : w = 0 := hs.id ▸ hc.2
      refine ⟨⟨hs.framed.eng.restart hrs, ?_⟩, hs.paid.restart hs.framed.eng (hown hc.1 hw0) hrs,
        fun h => absurd hw0 (hw h), hs.id⟩
      show s.task.id < e'.queues.size
      rw [(Engine.restartAfterOverflow_shape hrs).1, Array.size_map]
      exact hs.framed.id) fun _ => ?_
  -- 合流点：2 番目のバリアに入る
  all_goals
    refine Triple.after_eng fun _ => ?_
    split
    refine Triple.bind (modifyEng_budget fun _ => ⟨rfl, rfl, rfl, rfl, rfl, rfl, rfl⟩) fun _ => ?_
    split
    · exact Triple.pure _ fun _ hs => ⟨hs, fun _ h => nomatch h⟩
    · exact finishStep_budget again

theorem Budget.of_owed {s : Worker} (hs : Budget C t R M True w s) : Budget C t R M o w s :=
  ⟨hs.framed, hs.paid, fun _ => hs.owed trivial, hs.id⟩

theorem stepTail_budget (again : Engine → MarkTask → Bool) (hw : o → w ≠ 0) :
    Triple (Budget C t R M o w) (stepTail again) (Rests C t R M o w) := by
  unfold stepTail
  refine Triple.bind (Keeps.budget (fun _ _ _ => recordTimeout_still stable_true) fun w h =>
    recordTimeout_keeps (idHeap_closed w h)) fun _ => ?_
  refine Triple.bind Triple.task fun tk => Triple.bind Triple.eng fun e => Triple.ite (fun hov => ?_)
    fun _ => (finishStep_budget again).mono (fun _ h => h.1.1) fun _ _ h => h
  -- 溢れたエンジンの勘定には余りがあり、以後はそれを運ぶ
  refine Triple.bind (Q := fun _ => Budget C t R M True w) ((Keeps.budget (fun _ _ _ => flushStatsCache_still stable_true)
    fun w h => flushStatsCache_keeps (idHeap_closed w h)).mono (fun s hs => ?_) fun _ _ h => h) fun _ => ?_
  · obtain ⟨⟨hs, rfl⟩, rfl⟩ := hs
    simp only [Bool.and_eq_true] at hov
    exact ⟨hs.framed, hs.paid, fun _ => hs.paid.owed hov.2, hs.id⟩
  refine Triple.after_eng fun _ => ?_
  split
  refine Triple.bind (modifyEng_budget fun _ => ⟨rfl, rfl, rfl, rfl, rfl, rfl, rfl⟩) fun _ => ?_
  split
  · exact (finishStep_budget again).mono (fun _ h => h.of_owed) fun _ _ h => h
  · exact (afterFirstBarrier_budget again hw).mono (fun _ h => ⟨h.of_owed, fun _ _ => h.owed trivial⟩)
      fun _ _ h => h
  · exact Triple.pure _ fun _ hs => ⟨hs.of_owed, fun _ _ => hs.owed trivial⟩

theorem checkFinished_budget : Keeps (Budget C t R M o w) checkFinished :=
  Keeps.budget (fun _ _ _ => checkFinished_keeps) fun _ _ => checkFinished_keeps

theorem parallelStep_budget (timed : Bool) (again : Engine → MarkTask → Bool) (hw : o → w ≠ 0) :
    Triple (Budget C t R M o w) (parallelStep timed again) (Rests C t R M o w) := by
  unfold parallelStep
  refine Triple.bind (Keeps.budget (fun _ _ _ => beginStep_still timed) fun w h =>
    beginStep_keeps (idHeap_closed w h) timed) fun _ => ?_
  refine Triple.bind (Keeps.budget (fun _ _ _ => stepWork_still true) fun w h =>
    stepWork_keeps (idHeap_closed w h) true) fun _ => ?_
  refine Triple.after_task fun _ => Triple.ite (fun _ => stepTail_budget again hw) fun _ => ?_
  refine Triple.after_eng fun _ => ?_
  split
  refine Triple.bind (modifyEng_budget fun _ => ⟨rfl, rfl, rfl, rfl, rfl, rfl, rfl⟩) fun _ => ?_
  split
  · exact Triple.bind checkFinished_budget fun _ => stepTail_budget again hw
  · exact Triple.bind (modifyTask_budget fun _ => rfl) fun _ => stepTail_budget again hw
  · exact Triple.pure _ fun _ hs => ⟨hs, fun _ h => nomatch h⟩

/-- 待っていたタスクを次に待つところまで進める。最初のバリアで待っていた 0 番のタスクには、勘定の
余りがなければならない。 -/
theorem resume_budget (timed : Bool) (again : Engine → MarkTask → Bool) (stage : Stage) (hw : o → w ≠ 0) :
    Triple (fun s => Budget C t R M o w s ∧ ∀ g, stage = .firstBarrier g → w = 0 → s.eng.Owed t R M)
      (resume timed again stage) (Rests C t R M o w) := by
  cases stage with
  | ready => exact (parallelStep_budget timed again hw).mono (fun _ h => h.1) fun _ _ h => h
  | offering =>
    refine Triple.mono (P := Budget C t R M o w) ?_ (fun _ h => h.1) fun _ _ h => h
    refine Triple.after_eng fun _ => Triple.ite
      (fun _ => Triple.bind checkFinished_budget fun _ => stepTail_budget again hw) fun _ => ?_
    -- 仕事が現れたので申し出を取り下げる
    exact Triple.bind (modifyEng_budget fun _ => ⟨rfl, rfl, rfl, rfl, rfl, rfl, rfl⟩) fun _ =>
      Triple.bind (modifyTask_budget fun _ => rfl) fun _ => stepTail_budget again hw
  | firstBarrier g =>
    exact Triple.after_eng fun _ => Triple.ite
      (fun _ => (afterFirstBarrier_budget again hw).mono (fun _ h => ⟨h.1, fun _ hw0 => h.2 g rfl hw0⟩)
        fun _ _ h => h)
      fun _ => (finishStep_budget again).mono (fun _ h => h.1) fun _ _ h => h
  | secondBarrier g => exact (finishStep_budget again).mono (fun _ h => h.1) fun _ _ h => h
  | done => exact Triple.pure _ fun _ hs => ⟨hs.1, fun _ h => nomatch h⟩

end Marking

namespace Engine

variable {C : MarkConfig} {t : Prop} {R : Nat × List Bitmap} {M : Nat}

/-- 構成 `C` のタスクの表：ワーカーごとに 1 つのタスクがあり、`w` 番のタスクの番号は `w`。 -/
structure Staffed (C : MarkConfig) (e : Engine) : Prop where
  size : e.tasks.size = C.workers
  pos : 0 < C.workers
  ids : ∀ w < C.workers, (e.tasks.getD w default).id = w

/-- 再開の勘定の、エンジン全体の不変条件：形、タスクの表、勘定。 -/
structure Accounted (C : MarkConfig) (t : Prop) (R : Nat × List Bitmap) (M : Nat) (e : Engine) : Prop where
  framed : e.Framed C
  staffed : e.Staffed C
  paid : e.Paid t R M

theorem Staffed.workers {e : Engine} (hc : e.Staffed C) : e.workers = C.workers := by
  unfold Engine.workers
  rw [hc.size]
  exact Nat.max_eq_left hc.pos

/-- タスク `w` を取り出して走らせ、書き戻す。取り出したタスクの上で勘定を保つ計算なら、エンジンの
勘定とタスクの表も保たれる。`p` のもとでの余りは走りに渡り、走りの終わりの `q a` のもとでの余りは
書き戻したエンジンに渡る。 -/
theorem withTask_budget {α : Type} {e e' : Engine} {w : Nat} {o p : Prop} {q : α → Prop} {m : TaskM α}
    {a : α} (hm : ∀ ts ph, Marking.Triple
      (fun s => (Marking.Budget C t R M o w s ∧ (p → s.eng.Owed t R M)) ∧ s.eng.tasks = ts ∧ s.eng.phase = ph) m
      fun a s => (Marking.Budget C t R M o w s ∧ (q a → s.eng.Owed t R M)) ∧ s.eng.tasks = ts ∧ s.eng.phase = ph)
    (he : e.Accounted C t R M) (hw : w < C.workers) (ho : o → e.Owed t R M) (hp : p → e.Owed t R M)
    (h : e.withTask w m = .ok (a, e')) :
    e'.Accounted C t R M ∧ (o → e'.Owed t R M) ∧ (q a → e'.Owed t R M) := by
  unfold Engine.withTask at h
  -- 取り出したタスクの上の走り
  let s₀ : Worker := ⟨{ e with tasks := e.tasks.setIfInBounds w default }, e.tasks.getD w default⟩
  have ha₀ : e.Aside s₀.eng := ⟨rfl, rfl, rfl, rfl, rfl, rfl, rfl⟩
  have hs₀ : Marking.Budget C t R M o w s₀ := by
    refine ⟨⟨he.framed.aside ha₀, ?_⟩, he.paid.aside ha₀, fun h => (ho h).aside ha₀, he.staffed.ids w hw⟩
    show (e.tasks.getD w default).id < e.queues.size
    rw [he.staffed.ids w hw, he.framed.size]
    exact hw
  cases hr : m.run s₀ with
  | error => simp only [s₀, hr] at h; cases h
  | ok r =>
    simp only [s₀, hr] at h
    cases h
    obtain ⟨⟨hs, hq⟩, htasks, -⟩ :=
      hm s₀.eng.tasks s₀.eng.phase s₀ r.1 r.2 ⟨⟨hs₀, fun h => (hp h).aside ha₀⟩, rfl, rfl⟩ hr
    -- 書き戻したエンジンは、走りの終わりのエンジンとタスクの表だけが違う
    have ha : r.2.eng.Aside { r.2.eng with tasks := r.2.eng.tasks.setIfInBounds w r.2.task } :=
      ⟨rfl, rfl, rfl, rfl, rfl, rfl, rfl⟩
    refine ⟨⟨hs.framed.eng.aside ha, ⟨?_, he.staffed.pos, fun v hv => ?_⟩, hs.paid.aside ha⟩,
      fun h => (hs.owed h).aside ha, fun h => (hq h).aside ha⟩
    · show (r.2.eng.tasks.setIfInBounds w r.2.task).size = C.workers
      rw [Array.size_setIfInBounds, htasks, Array.size_setIfInBounds]
      exact he.staffed.size
    · show ((r.2.eng.tasks.setIfInBounds w r.2.task).getD v default).id = v
      rw [htasks]
      have hws : w < e.tasks.size := he.staffed.size ▸ hw
      rw [Array.getD_setIfInBounds _ _ _ _ (by rw [Array.size_setIfInBounds]; exact hws)]
      split
      · rename_i hwv
        rw [← hwv]
        exact hs.id
      · rw [Array.getD_setIfInBounds _ _ _ _ hws, if_neg ‹_›]
        exact he.staffed.ids v hv

/-- 並行フェーズを走らせても勘定は保たれる。再開するのは 0 番のタスクだけで、それは最初のバリアで
オーバーフローを見たときであり、そのときには勘定に余りがある。 -/
theorem runParallel_accounted {e e' : Engine} {n : Nat} {timed : Bool} {again : Engine → MarkTask → Bool}
    (he : e.Accounted C t R M) (hn : n ≤ C.workers) (h : e.runParallel n timed again = .ok e') :
    e'.Accounted C t R M := by
  -- 段の表の 0 番が最初のバリアで待つあいだ、勘定には余りがある
  let K : Array Stage → Engine → Prop := fun stages e => e.Accounted C t R M ∧
    (∀ g, stages.getD 0 .done = .firstBarrier g → e.Owed t R M) ∧ stages.size ≤ C.workers
  have hstep : ∀ stages e w (st : Stage) e', K stages e → w < stages.size →
      e.withTask w (Marking.resume timed again (stages.getD w .done)) = .ok (st, e') →
      K (stages.setIfInBounds w st) e' := by
    intro stages e w st e' ⟨he, hfb, hsize⟩ hw h
    -- 0 番の段の余りは、0 番が動けばその走りに、ほかのタスクが動けば走りの外に運ばれる
    obtain ⟨he', hown, hst⟩ := withTask_budget
      (o := w ≠ 0 ∧ ∃ g, stages.getD 0 .done = .firstBarrier g)
      (p := ∃ g, stages.getD w .done = .firstBarrier g ∧ w = 0) (q := fun st => ∃ g, st = .firstBarrier g)
      (fun ts ph => Marking.Triple.and ((Marking.resume_budget timed again _ fun ho => ho.1).mono
        (fun _ hs => ⟨hs.1, fun g hg hw0 => hs.2 ⟨g, hg, hw0⟩⟩) fun _ _ hs => ⟨hs.1, fun ⟨g, hg⟩ => hs.2 g hg⟩)
        (Marking.resume_keeps (Marking.frame_closed ts ph) timed again _)) he (by omega)
      (fun ⟨_, g, hg⟩ => hfb g hg) (fun ⟨g, hg, hw0⟩ => hfb g (hw0 ▸ hg)) h
    refine ⟨he', fun g hg => ?_, by rw [Array.size_setIfInBounds]; exact hsize⟩
    rw [Array.getD_setIfInBounds _ _ _ _ hw] at hg
    split at hg
    · exact hst ⟨g, hg⟩
    · exact hown ⟨‹_›, g, hg⟩
  have hturn : ∀ stages e, K stages e → K stages { e with turns := e.turns + 1 } := by
    intro stages e ⟨he, hfb, hsize⟩
    have ha : e.Aside { e with turns := e.turns + 1 } := ⟨rfl, rfl, rfl, rfl, rfl, rfl, rfl⟩
    exact ⟨⟨he.framed.aside ha, ⟨he.staffed.size, he.staffed.pos, he.staffed.ids⟩, he.paid.aside ha⟩,
      fun g hg => (hfb g hg).aside ha, hsize⟩
  have hK : K (Array.replicate n .ready) e := by
    refine ⟨he, fun g hg => ?_, by rw [Array.size_replicate]; exact hn⟩
    rw [Array.getD_eq_getD_getElem?, Array.getElem?_replicate] at hg
    split at hg <;> cases hg
  obtain ⟨_, hK', -⟩ := runCrew_invariant hstep hturn Marking.loopFuel _ e e' hK h
  exact hK'.1

end Engine

end RegionMark
