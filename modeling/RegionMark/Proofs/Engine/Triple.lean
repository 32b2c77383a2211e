import Mathlib
import RegionMark.Engine.Cycle
import RegionMark.Proofs.Satb.Queue

/-!
# タスクの計算の三つ組

`Triple P m Q` は、`P` から走らせた `m` が成功したとき結果と終わりの状態が `Q` を満たすことを言う。
`Closed A I` は、タスクの計算がエンジンを書き換えるやり方の 1 つずつが `I` を保つことをまとめる。
-/

namespace RegionMark.Marking

variable {α β γ : Type}

/-- `P` を満たす状態から `m` が成功して終われば、その結果と終わりの状態が `Q` を満たす。 -/
def Triple (P : Worker → Prop) (m : TaskM α) (Q : α → Worker → Prop) : Prop :=
  ∀ s a s', P s → m.run s = .ok (a, s') → Q a s'

/-- `m` が成功して終わるとき、`I` を保つ。 -/
abbrev Keeps (I : Worker → Prop) (m : TaskM α) : Prop := Triple I m fun _ => I

variable {P R : Worker → Prop} {Q Q' : α → Worker → Prop} {I : Worker → Prop}

/-! ## 三つ組の規則 -/

theorem Triple.mono {P' : Worker → Prop} {m : TaskM α} (h : Triple P m Q) (hP : ∀ s, P' s → P s)
    (hQ : ∀ a s, Q a s → Q' a s) : Triple P' m Q' :=
  fun s a s' hs hr => hQ a s' (h s a s' (hP s hs) hr)

theorem Triple.pure (a : α) (h : ∀ s, P s → Q a s) : Triple P (Pure.pure a : TaskM α) Q := by
  intro s b s' hs hr
  cases hr
  exact h s hs

theorem Triple.bind {Q' : β → Worker → Prop} {x : TaskM α} {f : α → TaskM β} (hx : Triple P x Q)
    (hf : ∀ a, Triple (Q a) (f a) Q') : Triple P (x >>= f) Q' := by
  intro s b s' hs h
  rw [StateT.run_bind] at h
  cases hr : x.run s with
  | error e => rw [hr] at h; cases h
  | ok p => rw [hr] at h; exact hf p.1 p.2 b s' (hx s p.1 p.2 hs hr) h

theorem Triple.eng : Triple P eng fun e s => P s ∧ s.eng = e := by
  intro s a s' hs h
  cases h
  exact ⟨hs, rfl⟩

theorem Triple.task : Triple P task fun t s => P s ∧ s.task = t := by
  intro s a s' hs h
  cases h
  exact ⟨hs, rfl⟩

theorem Triple.modify {g : Worker → Worker} (h : ∀ s, P s → R (g s)) :
    Triple P (modify g : TaskM Unit) fun _ => R := by
  intro s a s' hs hr
  cases hr
  exact h s hs

theorem Triple.modifyEng {f : Engine → Engine} (h : ∀ s, P s → R ⟨f s.eng, s.task⟩) :
    Triple P (modifyEng f) fun _ => R :=
  Triple.modify h

theorem Triple.modifyTask {f : MarkTask → MarkTask} (h : ∀ s, P s → R ⟨s.eng, f s.task⟩) :
    Triple P (modifyTask f) fun _ => R :=
  Triple.modify h

theorem Triple.updateEng {f : Engine → Except Panic (α × Engine)}
    (h : ∀ s a e, P s → f s.eng = .ok (a, e) → Q a ⟨e, s.task⟩) : Triple P (updateEng f) Q := by
  rintro ⟨e, t⟩ a s' hs hr
  unfold Marking.updateEng at hr
  simp only [StateT.run] at hr
  cases hf : f e with
  | error => rw [hf] at hr; cases hr
  | ok p => rw [hf] at hr; cases hr; exact h ⟨e, t⟩ p.1 p.2 hs hf

theorem Triple.updateStats {f : StatsCache → RegionStats → Except Panic (α × StatsCache × RegionStats)}
    (h : ∀ s a c g, P s → f s.task.cache s.eng.stats = .ok (a, c, g) →
      Q a ⟨{ s.eng with stats := g }, { s.task with cache := c }⟩) :
    Triple P (updateStats f) Q := by
  rintro ⟨e, t⟩ a s' hs hr
  unfold Marking.updateStats at hr
  simp only [StateT.run] at hr
  cases hf : f t.cache e.stats with
  | error => rw [hf] at hr; cases hr
  | ok p => rw [hf] at hr; cases hr; exact h ⟨e, t⟩ p.1 p.2.1 p.2.2 hs hf

theorem Triple.check {x : Except Panic α} (h : ∀ s a, P s → x = .ok a → Q a s) :
    Triple P (check x) Q := by
  intro s a s' hs hr
  cases x with
  | error => cases hr
  | ok b => cases hr; exact h s _ hs rfl

theorem Triple.throw (p : Panic) : Triple P (throw p : TaskM α) Q := by
  intro s a s' _ hr
  cases hr

theorem Triple.check_eq {x : Except Panic α} : Triple P (Marking.check x) fun a s => P s ∧ x = .ok a :=
  Triple.check fun _ _ hs hx => ⟨hs, hx⟩

theorem Triple.violated (msg : String) : Triple P (violated msg : TaskM α) Q :=
  Triple.throw _

theorem Triple.violated_bind {S : β → Worker → Prop} (msg : String) (f : α → TaskM β) :
    Triple P (Marking.violated msg >>= f) S :=
  Triple.bind (Q := fun _ _ => False) (Triple.violated msg) fun _ _ _ _ h _ => h.elim

theorem Triple.assume {c : Prop} {m : TaskM α} (h : ∀ s, P s → c) (hm : c → Triple P m Q) :
    Triple P m Q :=
  fun s a s' hs hr => hm (h s hs) s a s' hs hr

theorem Triple.ite {c : Prop} [Decidable c] {x y : TaskM α} (hx : c → Triple P x Q)
    (hy : ¬c → Triple P y Q) : Triple P (if c then x else y) Q := by
  by_cases h : c
  · rw [if_pos h]; exact hx h
  · rw [if_neg h]; exact hy h

theorem Triple.and {P' : Worker → Prop} {m : TaskM α} (h : Triple P m Q) (h' : Triple P' m Q') :
    Triple (fun s => P s ∧ P' s) m fun a s => Q a s ∧ Q' a s :=
  fun s a s' hs hr => ⟨h s a s' hs.1 hr, h' s a s' hs.2 hr⟩

/-! ## 不変条件の規則 -/

theorem Keeps.pure (a : α) : Keeps I (Pure.pure a : TaskM α) := Triple.pure a fun _ h => h

theorem Keeps.bind {x : TaskM α} {f : α → TaskM β} (hx : Keeps I x) (hf : ∀ a, Keeps I (f a)) :
    Keeps I (x >>= f) :=
  Triple.bind hx hf

theorem Keeps.getEng : Keeps I eng := Triple.mono Triple.eng (fun _ h => h) fun _ _ h => h.1

theorem Keeps.getTask : Keeps I task := Triple.mono Triple.task (fun _ h => h) fun _ _ h => h.1

theorem Keeps.bind_eng {f : Engine → TaskM β} (hf : ∀ s, I s → Keeps I (f s.eng)) :
    Keeps I (eng >>= f) :=
  Triple.bind Triple.eng fun e s a s' hs hr => by
    obtain ⟨hI, rfl⟩ := hs
    exact hf s hI s a s' hI hr

theorem Keeps.bind_eng_eq {f : Engine → TaskM β}
    (hf : ∀ e, Triple (fun s => I s ∧ s.eng = e) (f e) fun _ => I) : Keeps I (eng >>= f) :=
  Triple.bind Triple.eng hf

theorem Keeps.bind_task_eq {f : MarkTask → TaskM β}
    (hf : ∀ t, Triple (fun s => I s ∧ s.task = t) (f t) fun _ => I) : Keeps I (task >>= f) :=
  Triple.bind Triple.task hf

theorem Keeps.ite {c : Prop} [Decidable c] {x y : TaskM α} (hx : Keeps I x) (hy : Keeps I y) :
    Keeps I (if c then x else y) :=
  Triple.ite (fun _ => hx) fun _ => hy

theorem Keeps.check {x : Except Panic α} : Keeps I (check x) := Triple.check fun _ _ h _ => h

theorem Keeps.violated (msg : String) : Keeps I (violated msg : TaskM α) := Triple.violated msg

theorem Keeps.forIn {xs : List β} {f : β → γ → TaskM (ForInStep γ)} (b : γ)
    (hf : ∀ x ∈ xs, ∀ b, Keeps I (f x b)) : Keeps I (forIn xs b f) := by
  induction xs generalizing b with
  | nil => exact Keeps.pure b
  | cons x xs ih =>
    rw [List.forIn_cons]
    refine Keeps.bind (hf x List.mem_cons_self b) fun r => ?_
    cases r with
    | done b => exact Keeps.pure b
    | yield b => exact ih b fun y hy => hf y (List.mem_cons_of_mem x hy)

/-! ## タスクの計算がエンジンに加える書き換え -/

/-- 統計、ビットマップ、ヒープ、タスクの表、フェーズ、構成に触れない、タスクの計算によるエンジンの
書き換え。SATB の列は完了したバッファを減らすだけで、計量はオーバーフローのやり直しの回数を変えない。 -/
inductive EngEdit (e : Engine) : Engine → Prop where
  | queues (qs : Array (TaskQueue TaskEntry)) : EngEdit e { e with queues := qs }
  | stack (st : MarkStack) : EngEdit e { e with stack := st }
  | overflow : EngEdit e { e with overflown := true }
  | clock (n : Nat) : EngEdit e { e with clockChecks := n }
  | satb (sb : SatbSet (List (List Nat))) (h : ∀ b ∈ sb.completed, b ∈ e.satb.completed) : EngEdit e { e with satb := sb }
  | metrics (m : Metrics) (h : m.overflowRestarts = e.metrics.overflowRestarts) :
      EngEdit e { e with metrics := m }
  | finger (f : Nat) : EngEdit e { e with finger := f }
  | terminator (t : Terminator) : EngEdit e { e with terminator := t }
  | firstBarrier (b : Barrier) : EngEdit e { e with firstBarrier := b }
  | secondBarrier (b : Barrier) : EngEdit e { e with secondBarrier := b }
  | roots (r : RootRegions) : EngEdit e { e with roots := r }

/-- 不変条件 `I` が、タスクの計算のどの一歩でも保たれ、印を付けるアドレス（参照先と SATB の列の
中身）がいつも `A` を満たす。 -/
structure Closed (A : Nat → Prop) (I : Worker → Prop) : Prop where
  edit : ∀ s e, I s → EngEdit s.eng e → I ⟨e, s.task⟩
  /-- タスクの番号と統計のキャッシュ以外を変えても保たれる。 -/
  task : ∀ s t, I s → t.id = s.task.id → t.cache = s.task.cache → I ⟨s.eng, t⟩
  /-- まだ印のないアドレスに印を付けて、その大きさをキャッシュを通して数える。 -/
  mark : ∀ s a r w e c g, I s → A a → s.eng.tryMark a = .ok (some (r, w), e) →
    s.task.cache.addLive e.stats r w = .ok (c, g) →
    I ⟨{ e with stats := g }, { s.task with cache := c }⟩
  /-- 印を付けなかった試み。 -/
  unmarked : ∀ s a e, I s → A a → s.eng.tryMark a = .ok (none, e) → I ⟨e, s.task⟩
  incoming : ∀ s r c g, I s → s.task.cache.addIncoming s.eng.stats r = .ok (c, g) →
    I ⟨{ s.eng with stats := g }, { s.task with cache := c }⟩
  flush : ∀ s hm c g, I s → s.task.cache.evictAll s.eng.stats = .ok (hm, c, g) →
    I ⟨{ s.eng with stats := g }, { s.task with cache := c }⟩
  restart : ∀ s e, I s → s.eng.restartAfterOverflow = .ok e → I ⟨e, s.task⟩
  refs : ∀ s a, I s → ∀ b ∈ s.eng.heap.references a, A b
  satb : ∀ s, I s → ∀ buf ∈ s.eng.satb.completed, ∀ b ∈ buf, A b

end RegionMark.Marking
