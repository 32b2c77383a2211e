import RegionMark.Proofs.Engine.Steady
import RegionMark.Proofs.Bitmap.Refinement

/-!
# エンジンの走り

`Op` はエンジンへの 1 つの操作（フェーズの操作、ルートの印付け、中断、ミューテータの書き換え）で、
`Reach ok e` は、各操作の前に `ok` が成り立つ走りで `e` に届くことを言う。
-/

namespace RegionMark

namespace Engine

/-- 作るのに成功したエンジン：構成の検査は誤りを告げず、スタック、キュー、キャッシュ、ビットマップが作れ、
エンジンはそれらから組み立てた `Idle` のもの。 -/
theorem new_ok_inv {h : Heap} {c : MarkConfig} {s : Schedule} {m : Memory} {e : Engine}
    (hn : Engine.new h c s m = .ok (.ok e)) :
    ∃ v, c.check = .ok v ∧ (∀ err, v = .error err → False) ∧
    ∃ st queue cache bitmap, MarkStack.new m c.minChunks c.maxChunks c.entriesPerChunk = .ok (.ok st) ∧
      TaskQueue.new c.queueCapacity = .ok queue ∧ StatsCache.new c.statsCacheEntries = .ok cache ∧
      Bitmap.new h.base (h.regionCount * h.regionBytes) = .ok bitmap ∧
      e = { heap := h, config := c, bitmap, stack := st
            queues := Array.replicate c.workers queue
            roots := RootRegions.new h.regionCount
            satb := SatbSet.new 0
            stats := RegionStats.new h.regionCount
            metrics := {}
            finger := h.base
            overflown := false, aborted := false, concurrent := false, exhausted := false
            activeTasks := c.workers
            terminator := Terminator.new c.workers
            firstBarrier := Barrier.new c.workers, secondBarrier := Barrier.new c.workers
            tasks := (Array.range c.workers).map fun id => { id, cache, seed := MarkTask.seedOf id }
            phase := .idle, cycle := 0, bitmapDirty := false, restartForOverflow := false
            schedule := s, turns := 0, clockChecks := 0 } := by
  unfold Engine.new at hn
  simp only [bind, Except.bind, pure, Except.pure] at hn
  repeat' split at hn
  all_goals try cases hn
  exact ⟨_, ‹_›, ‹_›, _, _, _, _, ‹_›, ‹_›, ‹_›, ‹_›, rfl⟩
/-- 作ったばかりのエンジン：ヒープと構成は与えたもので、`Idle` にあり、ビットマップは汚れておらず印も
なく、スタックは枯渇していない。 -/
theorem new_fresh {h : Heap} {c : MarkConfig} {s : Schedule} {m : Memory} {e : Engine}
    (hn : Engine.new h c s m = .ok (.ok e)) :
    e.heap = h ∧ e.config = c ∧ e.phase = .idle ∧ e.bitmapDirty = false ∧ e.exhausted = false ∧
      ∀ k, e.bitmap.testBit k = false := by
  obtain ⟨-, -, -, -, -, -, bitmap, -, -, -, hb, rfl⟩ := new_ok_inv hn
  rw [Bitmap.new_eq hb]
  exact ⟨rfl, rfl, rfl, rfl, rfl, fun _ => Bitmap.testBit_of_replicate⟩

end Engine

/-- エンジンに対する 1 つの操作。 -/
inductive Op where
  | start
  | clearBitmap
  | addRootRegion (r : MemRange)
  | markRoot (a : Nat)
  | scanRootRegions
  | markFromRoots
  | preclean
  | remark
  | cleanup
  | finish
  | abort
  | abortThreads
  | runCycle
  /-- ミューテータが完了した SATB のバッファを渡す。 -/
  | satb (b : List Nat)
  /-- ミューテータがヒープを書き換える（割り当て、参照の書き込み、TAMS の記録）。 -/
  | mutate (f : Heap → Heap)

/-- 状態だけを残す走りが成功したなら、もとの走りもその状態で成功している。 -/
theorem Except.snd_ok {ε β γ : Type} {x : Except ε (β × γ)} {c : γ} (h : Prod.snd <$> x = .ok c) :
    ∃ b, x = .ok (b, c) := by
  cases x with
  | error => cases h
  | ok p => cases h; exact ⟨p.1, rfl⟩

namespace Op

/-- フェーズの操作を走らせたあとのエンジン。 -/
def exec {α : Type} (m : CycleM α) (e : Engine) : Except Panic Engine := Prod.snd <$> m.run.run e

/-- 操作のあとのエンジン。 -/
def run : Op → Engine → Except Panic Engine
  | .start, e => exec Cycle.start e
  | .clearBitmap, e => exec Cycle.clearBitmap e
  | .addRootRegion r, e => exec (Cycle.addRootRegion r) e
  | .markRoot a, e => Prod.snd <$> (Cycle.markRoot a).run e
  | .scanRootRegions, e => exec Cycle.scanRootRegions e
  | .markFromRoots, e => exec Cycle.markFromRoots e
  | .preclean, e => exec Cycle.preclean e
  | .remark, e => exec Cycle.remark e
  | .cleanup, e => exec Cycle.cleanup e
  | .finish, e => exec Cycle.finish e
  | .abort, e => Prod.snd <$> Cycle.abort.run e
  | .abortThreads, e => pure e.abortThreads
  | .runCycle, e => exec Cycle.runCycle e
  | .satb b, e => pure { e with satb := e.satb.enqueue b }
  | .mutate f, e => pure { e with heap := f e.heap }

/-- ルートに印を付けるのは周期が走っているあいだだけ、という使い方。 -/
def Disciplined : Op → Engine → Prop
  | .markRoot _, e => e.phase ≠ .idle
  | _, _ => True

theorem exec_ok {α : Type} {m : CycleM α} {e e' : Engine} (h : exec m e = .ok e') :
    ∃ r, m.run.run e = .ok (r, e') := by
  unfold exec at h
  cases hr : m.run.run e with
  | error => rw [hr] at h; cases h
  | ok p => rw [hr] at h; cases h; exact ⟨p.1, rfl⟩

theorem exec_keeps {α : Type} {J : Engine → Prop} {m : CycleM α} (hm : Cycle.Keeps J m) {e e' : Engine}
    (he : J e) (h : exec m e = .ok e') : J e' :=
  let ⟨r, hr⟩ := exec_ok h
  hm e r e' he hr

theorem run_steady {op : Op} {d : Bool} {c : MarkConfig} {e e' : Engine} (hop : op ≠ .start)
    (hop' : op ≠ .clearBitmap) (he : e.Steady d c) (h : op.run e = .ok e') : e'.Steady d c := by
  cases op with
  | start => exact absurd rfl hop
  | clearBitmap => exact absurd rfl hop'
  | addRootRegion r => exact exec_keeps (Cycle.addRootRegion_closed Cycle.steady_closed r) he h
  | markRoot a =>
    obtain ⟨_, hr⟩ := Except.snd_ok h
    exact Cycle.markRoot_steady he hr
  | scanRootRegions => exact exec_keeps (Cycle.scanRootRegions_closed Cycle.steady_closed) he h
  | markFromRoots => exact exec_keeps (Cycle.markFromRoots_closed Cycle.steady_closed) he h
  | preclean => exact exec_keeps (Cycle.preclean_closed Cycle.steady_closed) he h
  | remark => exact exec_keeps (Cycle.remark_closed Cycle.steady_closed) he h
  | cleanup => exact exec_keeps (Cycle.cleanup_closed Cycle.steady_closed) he h
  | finish => exact exec_keeps (Cycle.finish_closed Cycle.steady_closed) he h
  | abort =>
    obtain ⟨_, hr⟩ := Except.snd_ok h
    exact Cycle.abort_steady he hr
  | abortThreads => cases h; exact he
  | runCycle => exact exec_keeps (Cycle.runCycle_closed Cycle.steady_closed) he h
  | satb b => cases h; exact he
  | mutate f => cases h; exact he

/-- 操作を順に走らせたあとのエンジン。 -/
def runAll : List Op → Engine → Except Panic Engine
  | [], e => pure e
  | op :: ops, e => op.run e >>= runAll ops

/-- `h` と `c` から作ったエンジンに `ops` を順に走らせたエンジンが、`p` を満たすか。作れなかったり
途中で止まったりすれば偽。計算で確かめられる。 -/
def reaches (h : Heap) (c : MarkConfig) (ops : List Op) (p : Engine → Bool) : Bool :=
  ((Engine.new h c .standard .standard).toOption.bind Except.toOption).any fun e => (runAll ops e).toOption.any p

end Op

theorem Except.toOption_eq_some {ε α : Type} {x : Except ε α} {a : α} :
    x.toOption = some a ↔ x = .ok a := by
  cases x <;> simp [Except.toOption]

/-- `Engine.new` から、各操作の前に `ok` が成り立つ走りで届くエンジン。 -/
inductive Reach (ok : Op → Engine → Prop) : Engine → Prop where
  | new {h : Heap} {c : MarkConfig} {s : Schedule} {m : Memory} {e : Engine} :
      Engine.new h c s m = .ok (.ok e) → Reach ok e
  | step {e e' : Engine} (op : Op) : Reach ok e → ok op e → op.run e = .ok e' → Reach ok e'

/-- 作ったばかりのエンジンが満たし、許された操作の一歩ずつで保たれる性質は、届くエンジンすべてが
満たす。 -/
theorem Reach.invariant {ok : Op → Engine → Prop} (S : Engine → Prop)
    (h0 : ∀ h c s m e, Engine.new h c s m = .ok (.ok e) → S e)
    (hstep : ∀ op e e', S e → ok op e → op.run e = .ok e' → S e') {e : Engine} (h : Reach ok e) :
    S e := by
  induction h with
  | new hn => exact h0 _ _ _ _ _ hn
  | step op _ hok hr ih => exact hstep op _ _ ih hok hr

theorem Reach.runAll {ok : Op → Engine → Prop} {ops : List Op} {e e' : Engine}
    (hok : ∀ op ∈ ops, ∀ e, ok op e) (h : Reach ok e) (hr : Op.runAll ops e = .ok e') : Reach ok e' := by
  induction ops generalizing e with
  | nil => cases hr; exact h
  | cons op ops ih =>
    simp only [Op.runAll, bind, Except.bind] at hr
    split at hr
    · cases hr
    · exact ih (fun op' h' => hok op' (List.mem_cons_of_mem op h'))
        (.step op h (hok op List.mem_cons_self _) ‹_›) hr

/-- 計算で確かめた走りの終わりのエンジンは届く。 -/
theorem Reach.of_reaches {ok : Op → Engine → Prop} (heap : Heap) (c : MarkConfig) (ops : List Op)
    (p : Engine → Bool) (hok : ∀ op ∈ ops, ∀ e, ok op e) (hr : Op.reaches heap c ops p = true) :
    ∃ e, Reach ok e ∧ p e = true := by
  simp only [Op.reaches, Option.any_eq_true, Option.bind_eq_some_iff, Except.toOption_eq_some] at hr
  obtain ⟨e₀, ⟨r, hnew, rfl⟩, e, hrun, hp⟩ := hr
  exact ⟨e, (Reach.new hnew).runAll hok hrun, hp⟩

end RegionMark
