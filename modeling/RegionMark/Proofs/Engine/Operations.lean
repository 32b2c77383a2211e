import RegionMark.Proofs.Engine.Phases

/-!
# フェーズの操作が保つもの

フェーズの操作がエンジンに加える書き換えは少ない（`Cycle.Edit`、再開、中断）。`Cycle.Closed A I J` は、
それらが `J` を保ち、タスクの出し入れで `J` と `I` を行き来できることをまとめ、どの操作も `J` を保つことを導く。
-/

namespace RegionMark

namespace MarkStack

theorem dataHead_expand {s s' : MarkStack} (h : s.expand = .ok (.ok s')) : s'.dataHead = s.dataHead := by
  unfold expand tryExpand at h
  simp only [bind, Except.bind, pure, Except.pure] at h
  split at h
  · cases h
  · split at h
    · cases h
    · rename_i a _
      split at h
      · cases h
      · cases h
        rfl

end MarkStack

namespace Engine

theorem withStack_eq {β : Type} {e e' : Engine} {f : MarkStack → Except Panic (β × MarkStack)} {b : β}
    (h : e.withStack f = .ok (b, e')) : ∃ st, f e.stack = .ok (b, st) ∧ e' = { e with stack := st } := by
  unfold Engine.withStack at h
  cases hf : f e.stack with
  | error => simp only [hf] at h; cases h
  | ok p => simp only [hf] at h; cases h; exact ⟨p.2, rfl, rfl⟩

/-- 印付けの試み：印を付けなかったときはエンジンを変えず、付けたときは TAMS より下のヒープのアドレスの
まだ立っていないビットを立て、その大きさをリージョンとともに返す。 -/
theorem tryMark_spec {e e' : Engine} {a : Nat} {hit : Option (Nat × Nat)}
    (h : e.tryMark a = .ok (hit, e')) :
    (hit = none ∧ e' = e) ∨ ∃ r k, hit = some (r, e.heap.objectSize a) ∧ e.heap.regionOf? a = some r ∧
      a < e.heap.tamsOf r ∧ e.bitmap.bitIndex a = .ok k ∧ e.bitmap.testBit k = false ∧
      e' = { e with bitmap := e.bitmap.setBit k } := by
  unfold tryMark at h
  split at h
  · rename_i r hr
    split at h
    · cases h
      exact .inl ⟨rfl, rfl⟩
    · rename_i hlt
      cases hk : e.bitmap.bitIndex a with
      | error => rw [hk] at h; cases h
      | ok k =>
        simp only [hk, bind, Except.bind] at h
        split at h
        · cases h
          exact .inl ⟨rfl, rfl⟩
        · rename_i hb
          cases h
          exact .inr ⟨r, k, rfl, hr, by omega, rfl, by simpa using hb, rfl⟩
  · cases h
    exact .inl ⟨rfl, rfl⟩

/-- オーバーフローの後の伸長は、スタックと、入ってくる参照と、断られた伸長の数のほかに触れない。
スタックは伸びたものかもとのまま。 -/
theorem expandAfterOverflow_eq {e e' : Engine} {failed : Bool}
    (h : e.expandAfterOverflow = .ok (e', failed)) :
    ∃ st stats n, e' = { e with stack := st, stats, metrics := { e.metrics with expansionFailures := n } } ∧
      (st = e.stack ∨ e.stack.expand = .ok (.ok st)) ∧ stats.live = e.stats.live := by
  unfold expandAfterOverflow at h
  split at h
  · cases h
    exact ⟨e.stack, e.stats, e.metrics.expansionFailures, rfl, .inl rfl, rfl⟩
  · cases hx : e.stack.expand with
    | error => rw [hx] at h; cases h
    | ok r =>
      rw [hx] at h
      rcases r with err | st
      · cases err <;> cases h <;> exact ⟨e.stack, _, _, rfl, .inl rfl, rfl⟩
      · cases h
        exact ⟨st, _, e.metrics.expansionFailures, rfl, .inr rfl, rfl⟩

theorem exhaustIfStuck_eq (e : Engine) (failed : Bool) :
    ∃ x, e.exhaustIfStuck failed = { e with exhausted := x || e.exhausted, aborted := x || e.aborted } ∧
      (e.config.restartLimit = none → x = false) := by
  unfold exhaustIfStuck
  split
  · rename_i l hl
    split_ifs
    · exact ⟨true, rfl, fun h => by simp [hl] at h⟩
    · exact ⟨false, rfl, fun h => by simp [hl] at h⟩
  · exact ⟨false, rfl, fun _ => rfl⟩

/-- オーバーフローの再開の形：キューとスタックを空にし（伸ばすことはある）、オーバーフローを解き、
フィンガーをヒープの始まりに戻し、再開を 1 回数える。入ってくる参照を忘れることと、断られた伸長を
数えることと、上限のもとで枯渇として中断することのほかには触れない。 -/
theorem restartAfterOverflow_eq {e e' : Engine} (h : e.restartAfterOverflow = .ok e') :
    ∃ (st : MarkStack) (stats : RegionStats) (n : Nat) (x : Bool),
      e' = { e with
        stack := st, stats, exhausted := x || e.exhausted, aborted := x || e.aborted,
        metrics := { e.metrics with
          overflowRestarts := e.metrics.overflowRestarts + 1, expansionFailures := n },
        restartBitmaps := e.bitmap :: e.restartBitmaps,
        queues := e.queues.map (·.setEmpty), finger := e.heap.base, overflown := false } ∧
      st.dataHead = 0 ∧ stats.live = e.stats.live ∧ (e.config.restartLimit = none → x = false) := by
  unfold restartAfterOverflow at h
  cases hx : ({ e with stack := e.stack.setEmpty } : Engine).expandAfterOverflow with
  | error => simp only [hx, bind, Except.bind] at h; cases h
  | ok p =>
    obtain ⟨e₁, failed⟩ := p
    obtain ⟨st, stats, n, rfl, hst, hlive⟩ := expandAfterOverflow_eq hx
    simp only [hx, bind, Except.bind, pure, Except.pure] at h
    cases h
    obtain ⟨x, hex, hxl⟩ := exhaustIfStuck_eq
      { e with
        stack := st, stats, restartBitmaps := e.bitmap :: e.restartBitmaps,
        metrics := { e.metrics with
          overflowRestarts := e.metrics.overflowRestarts + 1, expansionFailures := n } } failed
    refine ⟨st, stats, n, x, by rw [hex], ?_, hlive, hxl⟩
    rcases hst with rfl | hst
    · rfl
    · exact MarkStack.dataHead_expand hst

/-- オーバーフローの再開は、ビットマップ、ヒープ、タスクの表、構成、フェーズ、汚れのフラグ、生きた語の
数に触れない。再開の回数に上限がなければ、枯渇のフラグにも触れない。 -/
theorem restartAfterOverflow_frame {e e' : Engine} (h : e.restartAfterOverflow = .ok e') :
    e'.bitmap = e.bitmap ∧ e'.heap = e.heap ∧ e'.tasks = e.tasks ∧ e'.config = e.config ∧
      e'.bitmapDirty = e.bitmapDirty ∧ e'.phase = e.phase ∧ e'.stats.live = e.stats.live ∧
      (e.config.restartLimit = none → e'.exhausted = e.exhausted) := by
  obtain ⟨st, stats, n, x, rfl, -, hlive, hx⟩ := restartAfterOverflow_eq h
  refine ⟨rfl, rfl, rfl, rfl, rfl, rfl, hlive, fun hl => ?_⟩
  rw [hx hl]
  rfl

theorem setConcurrency_eq {e e' : Engine} {n : Nat} {b : Bool} (h : e.setConcurrency n b = .ok e') :
    ∃ t, e' = { e with activeTasks := n, terminator := t, firstBarrier := e.firstBarrier.setWorkers n,
                       secondBarrier := e.secondBarrier.setWorkers n, concurrent := b } := by
  unfold setConcurrency at h
  cases ht : e.terminator.reset n with
  | error => rw [ht] at h; cases h
  | ok t => rw [ht] at h; cases h; exact ⟨t, rfl⟩

end Engine

namespace Marking

variable {A A' : Nat → Prop} {I I' : Worker → Prop}

/-- 2 つの閉じた不変条件は、合わせても閉じている。2 つめは印を付けるアドレスを選ばない。 -/
theorem Closed.and (h : Closed A I) (h' : Closed (fun _ => True) I') :
    Closed A fun s => I s ∧ I' s where
  edit s e hs he := ⟨h.edit s e hs.1 he, h'.edit s e hs.2 he⟩
  task s t hs hi hc := ⟨h.task s t hs.1 hi hc, h'.task s t hs.2 hi hc⟩
  mark s a r w e c g hs ha hm hl := ⟨h.mark s a r w e c g hs.1 ha hm hl, h'.mark s a r w e c g hs.2 trivial hm hl⟩
  unmarked s a e hs ha hm := ⟨h.unmarked s a e hs.1 ha hm, h'.unmarked s a e hs.2 trivial hm⟩
  incoming s r c g hs hi := ⟨h.incoming s r c g hs.1 hi, h'.incoming s r c g hs.2 hi⟩
  flush s n c g hs hf := ⟨h.flush s n c g hs.1 hf, h'.flush s n c g hs.2 hf⟩
  restart s e hs hr := ⟨h.restart s e hs.1 hr, h'.restart s e hs.2 hr⟩
  refs s a hs := h.refs s a hs.1
  satb s hs := h.satb s hs.1

/-- タスクの計算は、エンジンのタスクの表とフェーズに触れない。 -/
theorem frame_closed (ts : Array MarkTask) (p : Phase) :
    Closed (fun _ => True) fun s => s.eng.tasks = ts ∧ s.eng.phase = p where
  edit s e hs h := by cases h <;> exact hs
  task _ _ hs _ _ := hs
  mark s a r w e c g hs _ h _ := by
    rcases Engine.tryMark_spec h with ⟨h1, _⟩ | ⟨_, k, _, _, _, _, _, rfl⟩
    · cases h1
    · exact hs
  unmarked s a e hs _ h := by
    rcases Engine.tryMark_spec h with ⟨_, rfl⟩ | ⟨_, _, h1, _⟩
    · exact hs
    · cases h1
  incoming _ _ _ _ hs _ := hs
  flush _ _ _ _ hs _ := hs
  restart s e hs h := by
    obtain ⟨-, -, ht, -, -, hp, -, -⟩ := Engine.restartAfterOverflow_frame h
    exact ⟨ht.trans hs.1, hp.trans hs.2⟩
  refs _ _ _ _ _ := trivial
  satb _ _ _ _ _ _ := trivial

end Marking

namespace Engine

variable {α : Type}

/-- タスクの計算が表とフェーズに触れないなら、取り出して書き戻したあとの表は、取り出したところだけが
変わり、フェーズは変わらない。 -/
theorem withTask_frame {e : Engine} {w : Nat} {m : TaskM α}
    (hm : Marking.Keeps (fun s => s.eng.tasks = e.tasks.setIfInBounds w default ∧ s.eng.phase = e.phase) m)
    {e' : Engine} {a : α} (h : e.withTask w m = .ok (a, e')) :
    ∃ t, e'.tasks = (e.tasks.setIfInBounds w default).setIfInBounds w t ∧ e'.phase = e.phase := by
  unfold withTask at h
  cases hr : m.run ⟨{ e with tasks := e.tasks.setIfInBounds w default }, e.tasks.getD w default⟩ with
  | error => simp only [hr] at h; cases h
  | ok p =>
    simp only [hr] at h
    cases h
    obtain ⟨ht, hp⟩ := hm _ p.1 p.2 ⟨rfl, rfl⟩ hr
    exact ⟨p.2.task, by rw [ht], hp⟩

/-- 並行フェーズの、タスクの居場所に応じた不変条件 `K`：選ばれたタスクを 1 歩進めることと選択を数える
ことが `K` を保てば、走りの終わりでも `K` が成り立ち、居場所の数は変わらず、どのタスクも仕事を
終えている。燃料についての帰納法。 -/
theorem runCrew_invariant {K : Array Stage → Engine → Prop} {timed : Bool}
    {again : Engine → MarkTask → Bool}
    (hstep : ∀ stages e w (st : Stage) e', K stages e → w < stages.size →
      e.withTask w (Marking.resume timed again (stages.getD w .done)) = .ok (st, e') →
      K (stages.setIfInBounds w st) e')
    (hturn : ∀ stages e, K stages e → K stages { e with turns := e.turns + 1 }) :
    ∀ fuel stages e e', K stages e → runCrew timed again fuel stages e = .ok e' →
      ∃ stages', K stages' e' ∧ stages'.size = stages.size ∧
        ∀ w < stages'.size, stages'.getD w .done = .done := by
  intro fuel
  induction fuel with
  | zero => intro _ _ _ _ h; cases h
  | succ fuel ih =>
    intro stages e e' he h
    unfold runCrew at h
    dsimp only at h
    split at h
    · -- 誰も進めない：全員が仕事を終えていれば終わる
      split at h
      · rename_i hall
        cases h
        refine ⟨stages, he, rfl, fun w hw => ?_⟩
        rw [Array.all_eq_true] at hall
        have := hall w hw
        rw [Array.getD_eq_getD_getElem?, Array.getElem?_eq_getElem hw, Option.getD_some]
        simpa using this
      · cases h
    · -- 進めるタスクの中から選んだものを、次に待つところまで進める
      rename_i first rest hmov
      simp only [bind, Except.bind] at h
      split at h
      · cases h
      · rename_i p hp
        refine (ih _ _ _ (hstep _ _ _ p.1 p.2 (hturn _ _ he) ?_ hp) h).imp
          fun stages' ⟨hK, hsize, hdone⟩ => ⟨hK, by rw [hsize, Array.size_setIfInBounds], hdone⟩
        -- 選んだタスクは進めるタスクの 1 つで、居場所の範囲にある
        split
        · rename_i hc
          simpa using (List.mem_filter.1 (List.contains_iff_mem.1 hc)).1
        · have hf : first ∈ (List.range stages.size).filter
              fun w => (stages.getD w .done).movable e := by
            rw [hmov]
            exact List.mem_cons_self
          simpa using (List.mem_filter.1 hf).1

end Engine

namespace Cycle

variable {α β : Type}

/-- 読んだエンジンに応じて続ける操作には、読んだ値が今のエンジンであることを渡す。 -/
theorem Triple.bind_get_eq {P : Engine → Prop} {Q : Except MarkError β → Engine → Prop}
    {f : Engine → CycleM β} (hf : ∀ e, Triple (fun e' => P e' ∧ e' = e) (f e) Q) :
    Triple P ((MonadState.get : CycleM Engine) >>= f) Q :=
  Triple.bind Triple.get (fun e e' r e'' h hr => hf e e' r e'' ⟨h.1, by cases h.2; rfl⟩ hr)
    fun _ _ h => by cases h.2

/-- 中断は、まずフェーズを `Idle` にする。`Idle` だったならそれだけで、そうでなければタスクを止め、
ルートリージョンを取り消し、SATB の集合を捨てて止める。 -/
theorem abort_run (e : Engine) : abort.run e =
    if e.phase = .idle then .ok (false, { e with phase := .idle })
    else
      let e' := ({ e with phase := .idle } : Engine).abortThreads
      .ok (true, { e' with roots := e'.roots.cancel, satb := { e'.satb.abandon with active := false } }) := by
  unfold abort
  simp only [StateT.run, bind, StateT.bind, get, getThe, MonadStateOf.get, StateT.get, set,
    StateT.set, pure, Except.bind, Except.pure]
  split
  · rfl
  · simp only [modify, modifyGet, MonadStateOf.modifyGet]
    rfl

/-- フェーズの操作が、タスクを走らせることのほかにエンジンに加える書き換え。フェーズは走っている
フェーズからだけ移る。 -/
inductive Edit (e : Engine) : Engine → Prop where
  | roots (r : RootRegions) : Edit e { e with roots := r }
  | restartFlag (b : Bool) : Edit e { e with restartForOverflow := b }
  | concurrency (n : Nat) (t : Terminator) (b : Bool) :
      Edit e { e with activeTasks := n, terminator := t, firstBarrier := e.firstBarrier.setWorkers n,
                      secondBarrier := e.secondBarrier.setWorkers n, concurrent := b }
  | stack (st : MarkStack) : Edit e { e with stack := st }
  | settle (st : MarkStack) : Edit e { e with stack := st, overflown := false }
  | satbOff : Edit e { e with satb := { e.satb.abandon with active := false } }
  | phase (p : Phase) (h : e.phase ≠ .idle) : Edit e { e with phase := p }
  | finish : Edit e { e with concurrent := false,
                             metrics := { e.metrics with cyclesCompleted := e.metrics.cyclesCompleted + 1 } }
  | turn : Edit e { e with turns := e.turns + 1 }

/-- タスク `w` を取り出したエンジン `e` の上で走るタスクの計算が保つもの：`I e w` と、エンジンの
タスクの表とフェーズが取り出したときのままであること。 -/
def OnTask (I : Engine → Nat → Worker → Prop) (e : Engine) (w : Nat) (s : Worker) : Prop :=
  I e w s ∧ s.eng.tasks = e.tasks.setIfInBounds w default ∧ s.eng.phase = e.phase

/-- フェーズの操作が `J` を保つための、1 歩ずつの条件。タスク `w` を取り出したエンジン `e` の上では、
タスクの計算は `I e w` を保ち、印を付けるアドレスは `A` を満たす。 -/
structure Closed (A : Nat → Prop) (I : Engine → Nat → Worker → Prop) (J : Engine → Prop) : Prop where
  edit : ∀ e e', J e → Edit e e' → J e'
  restart : ∀ e e', J e → e.restartAfterOverflow = .ok e' → J e'
  abort : ∀ e b e', J e → abort.run e = .ok (b, e') → J e'
  marking : ∀ e w, Marking.Closed A (I e w)
  checkout : ∀ e w, J e → w < e.workers →
    I e w ⟨{ e with tasks := e.tasks.setIfInBounds w default }, e.tasks.getD w default⟩
  checkin : ∀ e w s, OnTask I e w s → J { s.eng with tasks := s.eng.tasks.setIfInBounds w s.task }
  /-- 参照処理が終了処理に並べたオブジェクトを記録しても保たれる。 -/
  pending : ∀ e w s p, I e w s → I e w ⟨{ s.eng with heap := { s.eng.heap with pending := p } }, s.task⟩
  soft : ∀ e, J e → ∀ a ∈ e.heap.softReferents, A a
  finalizable : ∀ e, J e → ∀ a ∈ e.heap.finalizable, A a

section

variable {A : Nat → Prop} {I : Engine → Nat → Worker → Prop} {J : Engine → Prop}
variable (hJ : Closed A I J)
include hJ

theorem Closed.onTask (e : Engine) (w : Nat) : Marking.Closed A (OnTask I e w) :=
  (hJ.marking e w).and (Marking.frame_closed _ _)

/-- 取り出したタスクの上で `OnTask` を保つ計算を走らせると `J` が保たれ、ワーカーの数とフェーズは
変わらない。 -/
theorem withTask_closed {e e' : Engine} {w : Nat} {m : TaskM α} {a : α}
    (hm : Marking.Keeps (OnTask I e w) m) (he : J e) (hw : w < e.workers)
    (h : e.withTask w m = .ok (a, e')) : J e' ∧ e'.workers = e.workers ∧ e'.phase = e.phase := by
  unfold Engine.withTask at h
  cases hr : m.run ⟨{ e with tasks := e.tasks.setIfInBounds w default }, e.tasks.getD w default⟩ with
  | error => simp only [hr] at h; cases h
  | ok p =>
    simp only [hr] at h
    cases h
    have hs := hm _ p.1 p.2 ⟨hJ.checkout e w he hw, rfl, rfl⟩ hr
    refine ⟨hJ.checkin e w p.2 hs, ?_, hs.2.2⟩
    unfold Engine.workers
    rw [Array.size_setIfInBounds, hs.2.1, Array.size_setIfInBounds]

theorem runParallel_closed {e e' : Engine} {n : Nat} {timed : Bool} {again : Engine → MarkTask → Bool}
    (hn : n ≤ e.workers) (he : J e) (h : e.runParallel n timed again = .ok e') : J e' := by
  obtain ⟨_, ⟨hK, -⟩, -⟩ := Engine.runCrew_invariant
    (K := fun stages e => J e ∧ stages.size ≤ e.workers)
    (fun stages e w st e' ⟨he, hk⟩ hw h => by
      obtain ⟨he', hwk, -⟩ := withTask_closed hJ
        (Marking.resume_keeps (hJ.onTask e w) _ _ _) he (by omega) h
      exact ⟨he', by rw [Array.size_setIfInBounds, hwk]; exact hk⟩)
    (fun stages e ⟨he, hk⟩ => ⟨hJ.edit _ _ he .turn, hk⟩) _ _ _ _ ⟨he, by simpa using hn⟩ h
  exact hK

theorem onTask_closed {w : Nat} {m : TaskM α} (hm : ∀ e, Marking.Keeps (OnTask I e w) m)
    (hw : ∀ e, J e → w < e.workers) : Keeps J (onTask w m) :=
  Keeps.onTask fun e _ _ he h => (withTask_closed hJ (hm e) he (hw e he) h).1

theorem transition_closed {src dst : Phase} (hsrc : src ≠ .idle) : Keeps J (transition src dst) :=
  Triple.bind (checkPhase_spec src)
    (fun _ => Triple.mono (Triple.modify fun e (h : J e ∧ (Except.ok () = .ok () → e.phase = src)) =>
      hJ.edit _ _ h.1 (.phase dst (by rw [h.2 rfl]; exact hsrc))) (fun _ h => h) fun _ _ h => h.1)
    fun _ _ h => h.1

theorem setConcurrency_closed {n k : Nat} {b : Bool} :
    Keeps (fun e => J e ∧ e.workers = k) (setConcurrency n b) :=
  Keeps.setConcurrency fun _ _ he h => by
    obtain ⟨t, rfl⟩ := Engine.setConcurrency_eq h
    exact ⟨hJ.edit _ _ he.1 (.concurrency _ _ _), he.2⟩

theorem addRootRegion_closed (r : MemRange) : Keeps J (addRootRegion r) := by
  unfold addRootRegion
  refine Keeps.bind (Keeps.checkPhase _) fun _ => Keeps.bind_get fun _ _ => ?_
  refine Keeps.bind Keeps.lift fun p => ?_
  obtain ⟨ok, roots⟩ := p
  refine Keeps.bind (Keeps.modify fun _ h => hJ.edit _ _ h (.roots _)) fun _ => ?_
  refine Keeps.ite (Keeps.bind (Keeps.throw _) fun _ => ?_) ?_ <;>
  exact Keeps.bind Keeps.getEngine fun _ => Keeps.pure _

theorem onTask_workers_closed {w k : Nat} {m : TaskM α} (hm : ∀ e, Marking.Keeps (OnTask I e w) m)
    (hw : w < k) : Keeps (fun e => J e ∧ e.workers = k) (onTask w m) :=
  Keeps.onTask fun e _ _ he h =>
    let r := withTask_closed hJ (hm e) he.1 (he.2 ▸ hw) h
    ⟨r.1, r.2.1.trans he.2⟩

theorem setConcurrency_keeps {n : Nat} {b : Bool} : Keeps J (setConcurrency n b) :=
  Keeps.setConcurrency fun _ _ he h => by
    obtain ⟨t, rfl⟩ := Engine.setConcurrency_eq h
    exact hJ.edit _ _ he (.concurrency _ _ _)

theorem scanRootRegions_closed : Keeps J scanRootRegions := by
  unfold scanRootRegions
  refine Keeps.bind (Keeps.checkPhase _) fun _ => Keeps.bind_get fun _ _ => ?_
  refine Keeps.bind Keeps.lift fun roots =>
    Keeps.bind (Keeps.modify fun _ h => hJ.edit _ _ h (.roots _)) fun _ => ?_
  refine Triple.ite (fun _ => Triple.bind_get_eq fun e₀ => Triple.bind
    (R := fun _ e => J e ∧ e.workers = e₀.workers) ?_ (fun _ => Triple.mono ?_ (fun _ h => h.1)
      fun _ _ h => h) fun _ _ h => h.1) fun _ => ?_
  · -- 各ワーカーのタスクでルートリージョンを走査する。ワーカーの数は変わらない
    refine Triple.mono (Keeps.forIn _ fun w hw _ => ?_) (fun e h => ⟨h.1, by rw [h.2]⟩) fun _ _ h => h
    refine Keeps.bind (onTask_workers_closed hJ (fun e => ?_)
      (Nat.lt_of_lt_of_le (List.mem_range.1 hw) (Nat.min_le_left _ _))) fun _ => Keeps.pure _
    exact Marking.Keeps.bind (Marking.scanRootsLoop_keeps (hJ.onTask e w) _) fun _ =>
      Marking.Keeps.bind (Marking.flushStatsCache_keeps (hJ.onTask e w)) fun _ =>
        Marking.flushCounts_keeps (hJ.onTask e w)
  -- 合流点：ルートリージョンの走査を終え、並行マーキングに移る
  all_goals
    refine Keeps.bind_get fun _ _ => ?_
    refine Keeps.ite (Keeps.bind (Keeps.pure _) fun _ => ?_) (Keeps.bind Keeps.lift fun _ => ?_) <;>
    · refine Keeps.bind (Keeps.modify fun _ h => hJ.edit _ _ h (.roots _)) fun _ => ?_
      exact Keeps.ite (Keeps.bind (Keeps.throw _) fun _ => transition_closed hJ (by decide))
        (transition_closed hJ (by decide))

theorem markFromRoots_closed : Keeps J markFromRoots := by
  unfold markFromRoots
  refine Keeps.bind (Keeps.checkPhase _) fun _ =>
    Keeps.bind (Keeps.modify fun _ h => hJ.edit _ _ h (.restartFlag _)) fun _ => ?_
  refine Triple.bind_get_eq fun e₀ => Triple.bind (R := fun _ e => J e ∧ e.workers = e₀.workers)
    (Triple.mono (setConcurrency_closed hJ) (fun e h => ⟨h.1, by rw [h.2]⟩) fun _ _ h => h)
    (fun _ => ?_) fun _ _ h => h.1
  refine Triple.bind (R := fun _ => J) (Triple.update fun e _ e' he h => ?_) (fun _ => Keeps.checkInterruption)
    fun _ _ h => h
  cases hr : e.runParallel _ _ _ with
  | error => rw [hr] at h; cases h
  | ok e₁ => rw [hr] at h; cases h; exact runParallel_closed hJ (by rw [he.2]) he.1 hr

theorem onTask_zero_closed {m : TaskM α} (hm : ∀ e, Marking.Keeps (OnTask I e 0) m) :
    Keeps J (onTask 0 m) :=
  onTask_closed hJ hm fun _ _ => Nat.lt_of_lt_of_le Nat.zero_lt_one (Nat.le_max_right _ _)

theorem preclean_closed : Keeps J preclean := by
  unfold preclean
  refine Keeps.bind (Keeps.checkPhase _) fun _ => Keeps.bind (setConcurrency_keeps hJ) fun _ => ?_
  refine Keeps.bind_get fun e he => Keeps.bind (onTask_zero_closed hJ fun e₁ => ?_) fun _ =>
    Keeps.checkInterruption
  -- 弱い参照の参照先を順に生かしてから、単独のステップで減らす
  refine Marking.Keeps.bind (Marking.Keeps.forIn _ fun a ha n => ?_) fun _ =>
    Marking.drainSerially_keeps (hJ.onTask e₁ 0) _ _ _
  exact Marking.Keeps.bind Marking.Keeps.getEng fun _ => Marking.Keeps.ite (Marking.Keeps.pure _)
    (Marking.Keeps.bind (Marking.keepAlive_keeps (hJ.onTask e₁ 0) _ _
      (hJ.soft e he a (Array.mem_toList_iff.1 ha))) fun _ => Marking.Keeps.pure _)

theorem weakRefsWork_closed : Keeps J weakRefsWork := by
  unfold weakRefsWork
  refine Keeps.bind (Keeps.modify fun _ h => hJ.edit _ _ h (.stack _)) fun _ =>
    Keeps.bind (setConcurrency_keeps hJ) fun _ => ?_
  refine Keeps.bind_get fun e he => Keeps.bind (onTask_zero_closed hJ fun e₁ => ?_) fun _ => ?_
  · -- 参照先を生かし、生きていない終了処理待ちのオブジェクトを記録してから、単独のステップで減らす
    have hC := hJ.onTask e₁ 0
    refine Marking.Keeps.bind (Marking.Keeps.forIn _ fun a ha n => ?_) fun _ => ?_
    · exact Marking.Keeps.bind (Marking.keepAlive_keeps hC _ _
        (hJ.soft e he a (Array.mem_toList_iff.1 ha))) fun _ => Marking.Keeps.pure _
    refine Marking.Keeps.bind (Marking.Keeps.forIn _ fun a ha p => ?_) fun _ => ?_
    · refine Marking.Keeps.bind Marking.Keeps.getEng fun _ => Marking.Keeps.ite ?_ (Marking.Keeps.pure _)
      exact Marking.Keeps.bind (Marking.keepAlive_keeps hC _ _
        (hJ.finalizable e he a (Array.mem_toList_iff.1 ha))) fun _ => Marking.Keeps.pure _
    exact Marking.Keeps.bind (Marking.Triple.modifyEng fun s hs =>
      ⟨hJ.pending _ _ _ _ hs.1, hs.2⟩) fun _ => Marking.drainSerially_keeps hC _ _ _
  refine Keeps.bind (Keeps.modify fun _ h => hJ.edit _ _ h (.stack _)) fun _ =>
    Keeps.bind_get fun e he => ?_
  exact Keeps.ite (Keeps.bind (Keeps.set (hJ.edit _ _ he (.settle _))) fun _ => Keeps.throw _)
    (Keeps.pure _)

theorem remarkLocked_closed : Keeps J remarkLocked := by
  unfold remarkLocked
  refine Triple.bind_get_eq fun e₀ => Triple.bind (R := fun _ e => J e ∧ e.workers = e₀.workers)
    (Triple.mono (setConcurrency_closed hJ) (fun e h => ⟨h.1, by rw [h.2]⟩) fun _ _ h => h)
    (fun _ => ?_) fun _ _ h => h.1
  refine Triple.bind (R := fun _ => J) (Triple.update fun e _ e' he h => ?_) (fun _ => ?_)
    fun _ _ h => h
  · cases hr : e.runParallel _ _ _ with
    | error => rw [hr] at h; cases h
    | ok e₁ => rw [hr] at h; cases h; exact runParallel_closed hJ (by rw [he.2]) he.1 hr
  refine Keeps.bind Keeps.checkInterruption fun _ => Keeps.bind_get fun _ _ => Keeps.ite ?_ ?_
  · -- オーバーフロー：やり直したエンジンを書き戻し、並行マーキングに戻る
    refine Keeps.bind (Keeps.modify fun _ h => hJ.edit _ _ h (.restartFlag _)) fun _ =>
      Keeps.bind_get fun e he => ?_
    refine Triple.bind (R := fun r e₁ => J e₁ ∧ ∀ a, r = .ok a → J a)
      (Triple.lift fun e₁ a he₁ hx => ⟨he₁, fun a' ha' => by
        cases ha'
        exact hJ.restart e a he hx⟩)
      (fun a => ?_) fun _ _ h => h.1
    refine Triple.bind (Triple.set a fun _ h₂ => h₂.2 a rfl) (fun _ => ?_) fun _ _ h => h.1
    refine Triple.mono ?_ (fun _ h => h.1) fun _ _ h => h
    exact Keeps.bind Keeps.checkInterruption fun _ =>
      Keeps.bind (transition_closed hJ (by decide)) fun _ => Keeps.pure _
  · exact Keeps.bind (weakRefsWork_closed hJ) fun _ =>
      Keeps.bind (Keeps.modify fun _ h => hJ.edit _ _ h .satbOff) fun _ => Keeps.pure _

theorem remark_closed : Keeps J remark :=
  Keeps.bind (transition_closed hJ (by decide)) fun _ => remarkLocked_closed hJ

theorem cleanup_closed : Keeps J cleanup :=
  Keeps.bind (transition_closed hJ (by decide)) fun _ => Keeps.bind_get fun _ _ => Keeps.lift

theorem finish_closed : Keeps J finish :=
  Keeps.bind (transition_closed hJ (by decide)) fun _ => Keeps.modify fun _ h => hJ.edit _ _ h .finish

theorem markUntilRemarked_closed (fuel : Nat) : Keeps J (markUntilRemarked fuel) := by
  induction fuel with
  | zero => exact Keeps.lift
  | succ fuel ih =>
    unfold markUntilRemarked
    refine Keeps.bind (markFromRoots_closed hJ) fun _ => Keeps.bind (preclean_closed hJ) fun _ => ?_
    exact Keeps.bind (remark_closed hJ) fun _ => Keeps.ite (Keeps.pure _) ih

theorem runCycle_closed : Keeps J runCycle := by
  unfold runCycle
  refine Keeps.tryCatch ?_ fun err => ?_
  · refine Keeps.bind (scanRootRegions_closed hJ) fun _ =>
      Keeps.bind (markUntilRemarked_closed hJ _) fun _ => ?_
    exact Keeps.bind (cleanup_closed hJ) fun _ => Keeps.bind (finish_closed hJ) fun _ => Keeps.pure _
  · split
    · exact Keeps.bind (Keeps.update fun _ _ _ he h => hJ.abort _ _ _ he h) fun _ => Keeps.throw _
    · exact Keeps.throw _

end

end Cycle

end RegionMark
