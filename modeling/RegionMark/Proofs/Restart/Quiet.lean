import RegionMark.Proofs.Engine.Stealing

/-!
# 再開のあとの静かな走り

再開はキューと大域スタックを空にする。その後に印を付けない走りでは、キューは吐き出しの目標より高々 1 つ
多くしか持たず埋まらないので、オーバーフローは起きない（`Engine.Calm`、`Marking.Still`）。
-/

namespace RegionMark

namespace MarkConfig

/-- 部分的な吐き出しがローカルキューに残す項目の数：容量の 3 分の 1 と `Marking.drainTarget` の
小さいほう。 -/
def partialTarget (c : MarkConfig) : Nat := Nat.min (c.queueCapacity / 3) Marking.drainTarget

theorem partialTarget_succ_lt {c : MarkConfig} (h : 2 ≤ c.queueCapacity) :
    c.partialTarget + 1 < c.queueCapacity := by
  unfold partialTarget
  simp only [Nat.min_def]
  split <;> omega

end MarkConfig

namespace Heap

/-- 配列の残りの項目で、残りに要素が少なくとも 1 つある：その走査は少なくとも 1 語を数える。 -/
def Resumable (h : Heap) : TaskEntry → Prop
  | .slice a => ∃ arr k, h.resolveElement a = .ok (arr, k) ∧ k < (h.arrayLength? arr).getD 0
  | _ => False

end Heap

namespace TaskQueue

/-- 静かなキュー：高々 `n` 個の項目を持ち、どれも要素の残る配列の残り。 -/
def Calm (h : Heap) (n : Nat) (q : TaskQueue TaskEntry) : Prop :=
  q.items.length ≤ n ∧ ∀ x ∈ q.items, h.Resumable x

theorem Calm.sublist {h : Heap} {n : Nat} {q q' : TaskQueue TaskEntry} (hq : q.Calm h n)
    (hs : q'.items.Sublist q.items) : q'.Calm h n :=
  ⟨le_trans hs.length_le hq.1, fun x hx => hq.2 x (hs.subset hx)⟩

/-- 新しいものから `n` 個まで取り出すと、取り出した項目を古い順に並べたものが、残った項目の後に続く。 -/
theorem WellFormed.takeBack {q : TaskQueue TaskEntry} (hq : q.WellFormed) (n : Nat) :
    (Marking.moveEntriesToGlobalStack.takeBack q n).2.WellFormed ∧
      (Marking.moveEntriesToGlobalStack.takeBack q n).2.capacity = q.capacity ∧
      q.items = (Marking.moveEntriesToGlobalStack.takeBack q n).2.items ++
        (Marking.moveEntriesToGlobalStack.takeBack q n).1.reverse := by
  induction n generalizing q with
  | zero => exact ⟨hq, rfl, by simp [Marking.moveEntriesToGlobalStack.takeBack]⟩
  | succ n ih =>
    by_cases he : q.items = []
    · simp only [Marking.moveEntriesToGlobalStack.takeBack, hq.pop_empty he]
      exact ⟨hq, by simp, by simp [he]⟩
    · obtain ⟨h1, hwf, hcap, hitems⟩ := hq.pop_some he
      rcases hp : q.pop with ⟨_ | x, q'⟩
      · rw [hp, eq_comm, List.getLast?_eq_none_iff] at h1
        exact absurd h1 he
      · rw [hp] at h1 hwf hcap hitems
        obtain ⟨hwf', hcap', hitems'⟩ := ih hwf
        simp only [Marking.moveEntriesToGlobalStack.takeBack, hp]
        refine ⟨hwf', hcap'.trans hcap, ?_⟩
        rw [List.reverse_cons, ← List.append_assoc, ← hitems', hitems]
        rw [List.getLast?_eq_some_getLast he, Option.some.injEq] at h1
        rw [h1, List.dropLast_append_getLast he]

end TaskQueue

/-- 立っているビットの数。 -/
def Bitmap.popCount (m : Bitmap) : Nat := m.weigh fun _ => 1

namespace Engine

/-- 立っている印の数。 -/
def marks (e : Engine) : Nat := e.bitmap.popCount

/-- これまでのオーバーフローの再開の回数。 -/
def restarts (e : Engine) : Nat := e.metrics.overflowRestarts

/-- 再開の記録：回数と、それぞれの再開のときのビットマップ。 -/
def restartRecord (e : Engine) : Nat × List Bitmap := (e.restarts, e.restartBitmaps)

/-- 静かなエンジン：オーバーフローがなく、大域スタックは空で、どのローカルキューも部分的な吐き出しの
目標より高々 1 つ多い、要素の残る配列の残りしか持たない。ヒープは割り当てのとおりに並ぶ。 -/
structure Calm (e : Engine) : Prop where
  overflown : e.overflown = false
  stack : e.stack.dataHead = 0
  queues : ∀ q ∈ e.queues, q.Calm e.heap (e.config.partialTarget + 1)
  tiled : e.heap.Tiled

/-- 構成 `C` のもとで走るエンジンの形：ワーカーごとに 1 つのキューがあり、どれも容量
`C.queueCapacity`（2 以上）の整ったキューで、配列の切片の刻みは正、ビットマップの数はその覆う範囲を
数えきる。 -/
structure Framed (C : MarkConfig) (e : Engine) : Prop where
  config : e.config = C
  size : e.queues.size = C.workers
  queues : ∀ q ∈ e.queues, q.WellFormed ∧ q.capacity = C.queueCapacity
  roomy : 2 ≤ C.queueCapacity
  stride : 0 < C.sliceStride
  covers : e.bitmap.size ≤ e.bitmap.words.size * Bitmap.wordBits * Word.bytes

theorem marks_setBit {e : Engine} {k : Nat} (hk : k < e.bitmap.words.size * Bitmap.wordBits)
    (hb : e.bitmap.testBit k = false) : ({ e with bitmap := e.bitmap.setBit k } : Engine).marks = e.marks + 1 :=
  Bitmap.weigh_setBit e.bitmap hk hb (fun _ => 1)

/-- 印付けの試みは、何も変えないか、印をちょうど 1 つ増やしてビットマップだけを変える。 -/
theorem tryMark_marks {C : MarkConfig} {e e' : Engine} {a : Nat} {hit : Option (Nat × Nat)} (hf : e.Framed C)
    (h : e.tryMark a = .ok (hit, e')) :
    (hit = none ∧ e' = e) ∨ (e'.marks = e.marks + 1 ∧ ∃ k, e' = { e with bitmap := e.bitmap.setBit k }) := by
  rcases tryMark_spec h with hn | ⟨r, k, -, -, -, hk, hb, rfl⟩
  · exact .inl hn
  · exact .inr ⟨marks_setBit (Bitmap.bitIndex_lt hf.covers hk) hb, k, rfl⟩

/-- 形と静けさと勘定が読むものを変えない書き換え。 -/
structure Aside (e e' : Engine) : Prop where
  queues : e'.queues = e.queues
  stack : e'.stack.dataHead = e.stack.dataHead
  overflown : e'.overflown = e.overflown
  bitmap : e'.bitmap = e.bitmap
  heap : e'.heap = e.heap
  config : e'.config = e.config
  restarts : e'.restartRecord = e.restartRecord

theorem Aside.refl (e : Engine) : e.Aside e := ⟨rfl, rfl, rfl, rfl, rfl, rfl, rfl⟩

theorem Aside.marks {e e' : Engine} (h : e.Aside e') : e'.marks = e.marks := by
  unfold Engine.marks
  rw [h.bitmap]

theorem Framed.congr {C : MarkConfig} {e e' : Engine} (hf : e.Framed C) (hq : e'.queues = e.queues)
    (hc : e'.config = e.config) (hb : e'.bitmap = e.bitmap) : e'.Framed C :=
  ⟨hc ▸ hf.config, hq ▸ hf.size, hq ▸ hf.queues, hf.roomy, hf.stride, hb ▸ hf.covers⟩

theorem Framed.aside {C : MarkConfig} {e e' : Engine} (hf : e.Framed C) (h : e.Aside e') : e'.Framed C :=
  hf.congr h.queues h.config h.bitmap

theorem Calm.aside {e e' : Engine} (hc : e.Calm) (h : e.Aside e') : e'.Calm :=
  ⟨h.overflown ▸ hc.overflown, h.stack ▸ hc.stack, by rw [h.queues, h.heap, h.config]; exact hc.queues,
    h.heap ▸ hc.tiled⟩

/-- 1 つのキューを、同じ容量の整ったキューに置き換えても形は保たれる。 -/
theorem Framed.setQueue {C : MarkConfig} {e : Engine} (hf : e.Framed C) {q : TaskQueue TaskEntry}
    (hq : q.WellFormed ∧ q.capacity = C.queueCapacity) (v : Nat) :
    ({ e with queues := e.queues.setIfInBounds v q } : Engine).Framed C := by
  refine ⟨hf.config, by rw [Array.size_setIfInBounds]; exact hf.size, fun q' hq' => ?_, hf.roomy, hf.stride,
    hf.covers⟩
  rcases Array.mem_or_eq_of_mem_setIfInBounds hq' with h | rfl
  · exact hf.queues q' h
  · exact hq

/-- 1 つのキューを静かなキューに置き換えても静か。 -/
theorem Calm.setQueue {e : Engine} (hc : e.Calm) {q : TaskQueue TaskEntry}
    (hq : q.Calm e.heap (e.config.partialTarget + 1)) (v : Nat) :
    ({ e with queues := e.queues.setIfInBounds v q } : Engine).Calm := by
  refine ⟨hc.overflown, hc.stack, fun q' hq' => ?_, hc.tiled⟩
  rcases Array.mem_or_eq_of_mem_setIfInBounds hq' with h | rfl
  · exact hc.queues q' h
  · exact hq

theorem Calm.queue {e : Engine} (hc : e.Calm) {v : Nat} (hv : v < e.queues.size) :
    (e.queue v).Calm e.heap (e.config.partialTarget + 1) := by
  refine hc.queues _ ?_
  rw [Engine.queue, Array.getD_eq_getD_getElem?, Array.getElem?_eq_getElem hv, Option.getD_some]
  exact Array.getElem_mem hv

theorem Framed.queue {C : MarkConfig} {e : Engine} (hf : e.Framed C) {v : Nat} (hv : v < e.queues.size) :
    (e.queue v).WellFormed ∧ (e.queue v).capacity = C.queueCapacity := by
  refine hf.queues _ ?_
  rw [Engine.queue, Array.getD_eq_getD_getElem?, Array.getElem?_eq_getElem hv, Option.getD_some]
  exact Array.getElem_mem hv

end Engine

theorem updateSlot_eq_setIfInBounds {α : Type} [Inhabited α] (xs : Array α) (i : Nat) (f : α → α) :
    updateSlot xs i f = xs.setIfInBounds i (f (xs.getD i default)) := by
  rw [Heap.updateSlot_eq_modify]
  by_cases hi : i < xs.size
  · apply Array.ext
    · simp
    · intro j h₁ h₂
      rw [Array.getElem_modify, Array.getElem_setIfInBounds (by simpa using h₂)]
      simp only [Array.getD_eq_getD_getElem?, Array.getElem?_eq_getElem hi, Option.getD_some]
      by_cases hij : i = j
      · subst hij
        simp
      · simp [hij]
  · rw [Array.setIfInBounds_eq_of_size_le (by omega)]
    apply Array.ext
    · simp
    · intro j h₁ h₂
      rw [Array.getElem_modify, if_neg]
      rintro rfl
      simp at h₁
      omega

/-- 走っているタスクのローカルキューが持つ項目の数。 -/
def Worker.backlog (s : Worker) : Nat := (s.eng.queue s.task.id).items.length

/-- 構成 `C` のもとで走るタスク：エンジンは形を保ち、タスクの番号はキューの範囲にある。 -/
structure Worker.Framed (C : MarkConfig) (s : Worker) : Prop where
  eng : s.eng.Framed C
  id : s.task.id < s.eng.queues.size

namespace Marking

variable {C : MarkConfig} {c : Prop} {r : Nat × List Bitmap} {m : Nat} {P Q : Worker → Prop} {α β : Type}

/-- 再開の勘定から見たタスクの計算の状態：形が保たれ、再開の記録は `r`、印は `m` 以上。印がちょうど
`m` なら、`c` のもとでエンジンは静かで `P` が成り立つ。 -/
structure Still (C : MarkConfig) (c : Prop) (r : Nat × List Bitmap) (m : Nat) (P : Worker → Prop)
    (s : Worker) : Prop where
  framed : s.Framed C
  restarts : s.eng.restartRecord = r
  marks : m ≤ s.eng.marks
  quiet : c → s.eng.marks = m → s.eng.Calm ∧ P s

/-- 印を付けない一歩が変えないもの：タスクの番号、そのローカルキュー、走査した語数、ヒープ。中断は
取り消さない。 -/
structure Hushed (s₀ s : Worker) : Prop where
  id : s.task.id = s₀.task.id
  own : s.eng.queue s.task.id = s₀.eng.queue s₀.task.id
  words : s.task.wordsScanned = s₀.task.wordsScanned
  aborted : s₀.task.aborted = true → s.task.aborted = true
  heap : s.eng.heap = s₀.eng.heap

/-- 印を付けない一歩で崩れない条件。 -/
def Stable (P : Worker → Prop) : Prop := ∀ s₀ s, P s₀ → Hushed s₀ s → P s

theorem Hushed.backlog {s₀ s : Worker} (h : Hushed s₀ s) : s.backlog = s₀.backlog := by
  unfold Worker.backlog
  rw [h.own]

theorem Still.mono {s : Worker} (h : Still C c r m P s) (hPQ : s.eng.Calm → P s → Q s) :
    Still C c r m Q s := by
  refine ⟨h.framed, h.restarts, h.marks, fun hc hm => ?_⟩
  obtain ⟨hcalm, hp⟩ := h.quiet hc hm
  exact ⟨hcalm, hPQ hcalm hp⟩

/-- 静かでありえない走りは、どの関数の後も静かでありえない：その関数が形を保ち、印を減らさず、再開
しなければよい。`c` を偽にとった三つ組がそれを言う。 -/
theorem Triple.escape {f : TaskM α} {Q : α → Worker → Prop}
    (h : ∀ m', Triple (Still C False r m' P) f fun a => Still C False r m' (Q a)) :
    Triple (Still C c r m fun _ => False) f fun _ => Still C c r m fun _ => False := by
  intro s a s' hs hr
  have h₁ := h s.eng.marks s a s' ⟨hs.framed, hs.restarts, le_rfl, fun hc => hc.elim⟩ hr
  refine ⟨h₁.framed, h₁.restarts, le_trans hs.marks h₁.marks, fun hc hm => ?_⟩
  exact (hs.quiet hc (le_antisymm (hm ▸ h₁.marks) hs.marks)).2.elim

theorem Triple.ghost {γ : Type} {f : TaskM α} {Q : α → Worker → Prop} (g : Worker → γ)
    (h : ∀ w₀, Triple (Still C c r m fun s => P s ∧ g s = w₀) f Q) : Triple (Still C c r m P) f Q :=
  fun s a s' hs hr => h (g s) s a s' (hs.mono fun _ hp => ⟨hp, rfl⟩) hr

/-- 状態によらない命題 `K` は、静かな走りの始めに成り立てば終わりにも成り立つ。内側の三つ組は、静けさ
の前提 `c` を「始めの状態が静かで `K` が成り立つ」に強めて使う。 -/
theorem Triple.frame {K : Prop} {f : TaskM α} {Q : α → Worker → Prop}
    (h : ∀ c' m', Triple (Still C c' r m' P) f fun a => Still C c' r m' (Q a)) :
    Triple (Still C c r m fun s => P s ∧ K) f fun a => Still C c r m fun s => Q a s ∧ K := by
  intro s a s' hs hr
  have h₁ := h (c ∧ s.eng.marks = m) s.eng.marks s a s'
    ⟨hs.framed, hs.restarts, le_rfl, fun hc _ => (hs.mono fun _ hp => hp.1).quiet hc.1 hc.2⟩ hr
  refine ⟨h₁.framed, h₁.restarts, le_trans hs.marks h₁.marks, fun hc hm => ?_⟩
  -- 終わりに静かなら、印は増えていないので始めも静か
  have hm₀ : s.eng.marks = m := le_antisymm (hm ▸ h₁.marks) hs.marks
  obtain ⟨hcalm, hq⟩ := h₁.quiet ⟨hc, hm₀⟩ (hm.trans hm₀.symm)
  exact ⟨hcalm, hq, (hs.quiet hc hm₀).2.2⟩

/-! ## 一歩ずつの規則 -/

section Steps

variable {s s' : Worker} {P' : Worker → Prop}

theorem Still.aside (hs : Still C c r m P s) (ha : s.eng.Aside s'.eng) (hid : s'.task.id = s.task.id)
    (hP : s.eng.Calm → P s → P' s') : Still C c r m P' s' := by
  refine ⟨⟨hs.framed.eng.aside ha, ?_⟩, ha.restarts.trans hs.restarts, ha.marks ▸ hs.marks, fun hc hm => ?_⟩
  · rw [hid, ha.queues]
    exact hs.framed.id
  · obtain ⟨hcalm, hp⟩ := hs.quiet hc (ha.marks ▸ hm)
    exact ⟨hcalm.aside ha, hP hcalm hp⟩

theorem Still.hushed (hs : Still C c r m P s) (ha : s.eng.Aside s'.eng) (hh : Hushed s s') (hP : Stable P) :
    Still C c r m P s' :=
  hs.aside ha hh.id fun _ hp => hP s s' hp hh

theorem Still.of_lt (hs : Still C c r m P s) (hf : s'.Framed C) (hr : s'.eng.restartRecord = r)
    (hlt : s.eng.marks < s'.eng.marks) : Still C c r m P' s' := by
  have hm := hs.marks
  exact ⟨hf, hr, by omega, fun _ h => absurd h (by omega)⟩

theorem Still.false (hs : Still C c r m P s) (h : s.eng.Calm → P s → False) : Still C c r m P' s :=
  ⟨hs.framed, hs.restarts, hs.marks, fun hc hm => (h (hs.quiet hc hm).1 (hs.quiet hc hm).2).elim⟩

/-- キュー `v` を、同じ容量の整ったキューに置き換える。 -/
theorem Still.setQueue (hs : Still C c r m P s) (v : Nat) {q : TaskQueue TaskEntry}
    (hq : q.WellFormed ∧ q.capacity = C.queueCapacity)
    (hQ : c → s.eng.marks = m → s.eng.Calm → P s → q.Calm s.eng.heap (C.partialTarget + 1) ∧
      P' ⟨{ s.eng with queues := s.eng.queues.setIfInBounds v q }, s.task⟩) :
    Still C c r m P' ⟨{ s.eng with queues := s.eng.queues.setIfInBounds v q }, s.task⟩ := by
  refine ⟨⟨hs.framed.eng.setQueue hq _, by simpa using hs.framed.id⟩, hs.restarts, hs.marks, fun hc hm => ?_⟩
  obtain ⟨hcalm, hp⟩ := hs.quiet hc hm
  obtain ⟨hqc, hp'⟩ := hQ hc hm hcalm hp
  refine ⟨hcalm.setQueue ?_ _, hp'⟩
  rw [hs.framed.eng.config]
  exact hqc

/-- タスクのローカルキューを、同じ容量の整ったキューに置き換える。 -/
theorem Still.setOwn (hs : Still C c r m P s) {q : TaskQueue TaskEntry}
    (hq : q.WellFormed ∧ q.capacity = C.queueCapacity)
    (hQ : c → s.eng.marks = m → s.eng.Calm → P s → q.Calm s.eng.heap (C.partialTarget + 1) ∧
      P' ⟨{ s.eng with queues := s.eng.queues.setIfInBounds s.task.id q }, s.task⟩) :
    Still C c r m P' ⟨{ s.eng with queues := s.eng.queues.setIfInBounds s.task.id q }, s.task⟩ :=
  hs.setQueue _ hq hQ

theorem backlog_setOwn (hf : s.Framed C) (q : TaskQueue TaskEntry) :
    (⟨{ s.eng with queues := s.eng.queues.setIfInBounds s.task.id q }, s.task⟩ : Worker).backlog =
      q.items.length := by
  unfold Worker.backlog
  rw [Engine.queue_setIfInBounds hf.id, if_pos rfl]

theorem Still.of_frame (hf : s'.Framed C) (hr : s'.eng.restartRecord = r) (hm : m ≤ s'.eng.marks) :
    Still C False r m P s' :=
  ⟨hf, hr, hm, fun h => h.elim⟩

/-- 埋まっていないローカルキューの底に項目を積むと、項目が 1 つ増える。 -/
theorem Still.pushOwn {x : TaskEntry} (hs : Still C c r m P s)
    (hfull : ¬(s.eng.queue s.task.id).isFull = true)
    (hQ : c → s.eng.marks = m → s.eng.Calm → P s → s.eng.heap.Resumable x ∧ s.backlog ≤ C.partialTarget ∧
      ((⟨{ s.eng with queues := updateSlot s.eng.queues s.task.id fun q => (q.push x).2 }, s.task⟩ : Worker).backlog =
        s.backlog + 1 →
      P' ⟨{ s.eng with queues := updateSlot s.eng.queues s.task.id fun q => (q.push x).2 }, s.task⟩)) :
    Still C c r m P' ⟨{ s.eng with queues := updateSlot s.eng.queues s.task.id fun q => (q.push x).2 }, s.task⟩ := by
  have hq := hs.framed.eng.queue hs.framed.id
  have hroom : (s.eng.queue s.task.id).items.length < (s.eng.queue s.task.id).capacity := by
    simpa [TaskQueue.isFull] using hfull
  obtain ⟨-, hwf, hcap, hitems⟩ := hq.1.push_room hroom x
  have heq : updateSlot s.eng.queues s.task.id (fun q => (q.push x).2) =
      s.eng.queues.setIfInBounds s.task.id ((s.eng.queue s.task.id).push x).2 :=
    updateSlot_eq_setIfInBounds _ _ _
  have hback : (⟨{ s.eng with queues := updateSlot s.eng.queues s.task.id fun q => (q.push x).2 }, s.task⟩ :
      Worker).backlog = s.backlog + 1 := by
    rw [heq, backlog_setOwn hs.framed, hitems, List.length_append]
    rfl
  rw [heq] at hQ hback ⊢
  refine hs.setOwn ⟨hwf, hcap.trans hq.2⟩ fun hc hm hcalm hp => ?_
  obtain ⟨hx, hb, hp'⟩ := hQ hc hm hcalm hp
  refine ⟨⟨?_, fun y hy => ?_⟩, hp' hback⟩
  · rw [hitems, List.length_append, List.length_singleton]
    unfold Worker.backlog at hb
    omega
  · rw [hitems, List.mem_append, List.mem_singleton] at hy
    rcases hy with hy | rfl
    · exact (hcalm.queue hs.framed.id).2 y hy
    · exact hx

end Steps

/-! ## 読み出しと書き換え -/

theorem Triple.after_eng {f : Engine → TaskM β} {Q : β → Worker → Prop} (hf : ∀ e, Triple P (f e) Q) :
    Triple P (Marking.eng >>= f) Q :=
  Triple.bind Triple.eng fun e => (hf e).mono (fun _ h => h.1) fun _ _ h => h

theorem Triple.after_task {f : MarkTask → TaskM β} {Q : β → Worker → Prop} (hf : ∀ t, Triple P (f t) Q) :
    Triple P (Marking.task >>= f) Q :=
  Triple.bind Triple.task fun t => (hf t).mono (fun _ h => h.1) fun _ _ h => h

theorem modifyTask_still {f : MarkTask → MarkTask} (hf : ∀ t, (f t).id = t.id)
    (hQ : ∀ s, s.eng.Calm → P s → Q ⟨s.eng, f s.task⟩) :
    Triple (Still C c r m P) (modifyTask f) fun _ => Still C c r m Q :=
  Triple.modifyTask fun s hs => hs.aside (Engine.Aside.refl _) (hf _) (hQ s)

/-- タスクの番号と走査した語数を変えず、中断を取り消さない書き換え。 -/
theorem modifyTask_hushed {f : MarkTask → MarkTask}
    (hf : ∀ t, (f t).id = t.id ∧ (f t).wordsScanned = t.wordsScanned ∧
      (t.aborted = true → (f t).aborted = true))
    (hP : Stable P) : Triple (Still C c r m P) (modifyTask f) fun _ => Still C c r m P :=
  Triple.modifyTask fun s hs => hs.hushed (Engine.Aside.refl _)
    ⟨(hf _).1, by show s.eng.queue (f s.task).id = _; rw [(hf _).1], (hf _).2.1, (hf _).2.2, rfl⟩ hP

theorem modifyEng_aside {f : Engine → Engine} (hf : ∀ e : Engine, e.Aside (f e)) (hP : Stable P) :
    Triple (Still C c r m P) (modifyEng f) fun _ => Still C c r m P :=
  Triple.modifyEng fun s hs => hs.hushed (hf s.eng)
    ⟨rfl, by show (f s.eng).queue s.task.id = _; rw [Engine.queue, (hf s.eng).queues, Engine.queue], rfl,
      fun h => h, (hf s.eng).heap⟩ hP

theorem updateStats_still {f : StatsCache → RegionStats → Except Panic (α × StatsCache × RegionStats)}
    (hP : Stable P) : Triple (Still C c r m P) (updateStats f) fun _ => Still C c r m P :=
  Triple.updateStats fun _ _ _ _ hs _ => hs.hushed ⟨rfl, rfl, rfl, rfl, rfl, rfl, rfl⟩
    ⟨rfl, rfl, rfl, fun h => h, rfl⟩ hP

theorem decreaseLimits_still (hP : Stable P) :
    Triple (Still C c r m P) decreaseLimits fun _ => Still C c r m P :=
  modifyTask_hushed (fun _ => ⟨rfl, rfl, fun h => h⟩) hP

theorem recalculateLimits_still (hP : Stable P) :
    Triple (Still C c r m P) recalculateLimits fun _ => Still C c r m P :=
  modifyTask_hushed (fun _ => ⟨rfl, rfl, fun h => h⟩) hP

theorem flushStatsCache_still (hP : Stable P) :
    Triple (Still C c r m P) flushStatsCache fun _ => Still C c r m P :=
  Triple.bind (updateStats_still hP) fun _ => modifyTask_hushed (fun _ => ⟨rfl, rfl, fun h => h⟩) hP

theorem markInBitmap_still (a : Nat) :
    Triple (Still C c r m P) (markInBitmap a) fun b => Still C c r m fun s => b = false ∧ P s := by
  unfold markInBitmap
  refine Triple.bind (Q := fun hit s => ∃ s₀, Still C c r m P s₀ ∧
      s₀.eng.tryMark a = .ok (hit, s.eng) ∧ s.task = s₀.task)
    (Triple.updateEng fun s hit e hs h => ⟨s, hs, h, rfl⟩) fun hit => ?_
  rcases hit with _ | ⟨g, words⟩
  · -- 印を付けなかった：エンジンは変わらない
    refine Triple.pure _ fun s h => ?_
    obtain ⟨s₀, hs₀, hm, ht⟩ := h
    rcases Engine.tryMark_spec hm with ⟨-, he⟩ | ⟨_, _, h1, _⟩
    · exact hs₀.aside (by rw [he]; exact Engine.Aside.refl _) (by rw [ht]) fun _ hp => ⟨rfl, by
        cases s
        cases s₀
        simp only at he ht
        rw [he, ht]
        exact hp⟩
    · cases h1
  · -- 印を付けた：印が 1 つ増え、統計の書き換えは勘定に触れない
    refine Triple.bind (Q := fun _ => Still C c r m fun s => true = false ∧ P s)
      (Triple.updateStats fun s u cc g hs h => ?_) fun _ => Triple.pure _ fun _ h => h
    obtain ⟨s₀, hs₀, hm, ht⟩ := hs
    rcases Engine.tryMark_marks hs₀.framed.eng hm with ⟨h1, -⟩ | ⟨hmk, k, he⟩
    · cases h1
    · have hf : s.eng.Framed C := by
        rw [he]
        exact ⟨hs₀.framed.eng.config, hs₀.framed.eng.size, hs₀.framed.eng.queues, hs₀.framed.eng.roomy,
          hs₀.framed.eng.stride, by simpa using hs₀.framed.eng.covers⟩
      refine hs₀.of_lt ⟨hf.aside ⟨rfl, rfl, rfl, rfl, rfl, rfl, rfl⟩, ?_⟩ (by rw [← hs₀.restarts, he]; rfl)
        (by show _ < s.eng.marks; omega)
      show s.task.id < s.eng.queues.size
      rw [ht, he]
      exact hs₀.framed.id

theorem heap_closed (h : Heap) : Closed (fun _ => True) fun s => s.eng.heap = h where
  edit s e hs he := by cases he <;> exact hs
  task _ _ hs _ _ := hs
  mark s a r n e c g hs _ hm _ := by
    rcases Engine.tryMark_spec hm with ⟨h1, _⟩ | ⟨_, k, _, _, _, _, _, rfl⟩
    · cases h1
    · exact hs
  unmarked s a e hs _ hm := by
    rcases Engine.tryMark_spec hm with ⟨_, rfl⟩ | ⟨_, _, h1, _⟩
    · exact hs
    · cases h1
  incoming _ _ _ _ hs _ := hs
  flush _ _ _ _ hs _ := hs
  restart s e hs hr := (Engine.restartAfterOverflow_frame hr).2.1.trans hs
  refs _ _ _ _ _ := trivial
  satb _ _ _ _ _ _ := trivial

theorem id_closed (i : Nat) : Closed (fun _ => True) fun s => s.task.id = i where
  edit _ _ hs _ := hs
  task _ _ hs hi _ := hi.trans hs
  mark _ _ _ _ _ _ _ hs _ _ _ := hs
  unmarked _ _ _ hs _ _ := hs
  incoming _ _ _ _ hs _ := hs
  flush _ _ _ _ hs _ := hs
  restart _ _ hs _ := hs
  refs _ _ _ _ _ := trivial
  satb _ _ _ _ _ _ := trivial

/-! ## 積み込み -/

/-- 大域のスタックへの移し替えは、形を保ち、印と再開の回数に触れない。 -/
theorem moveEntriesToGlobalStack_framed (room : Nat) :
    Triple (Still C False r m fun _ => True) (moveEntriesToGlobalStack room)
      fun _ => Still C False r m fun _ => True := by
  unfold moveEntriesToGlobalStack
  refine Triple.bind Triple.task fun t => Triple.bind Triple.eng fun e => ?_
  split
  rename_i es q htb
  have hdec : Triple (Still C False r m fun _ => True) decreaseLimits fun _ => Still C False r m fun _ => True :=
    decreaseLimits_still fun _ _ h _ => h
  refine Triple.bind (Q := fun _ => Still C False r m fun _ => True) (Triple.modifyEng fun s hs => ?_)
    fun _ => Triple.ite (fun _ => ?_) fun _ => hdec
  · obtain ⟨⟨hs, rfl⟩, rfl⟩ := hs
    obtain ⟨hwf, hcap, -⟩ := (hs.framed.eng.queue hs.framed.id).1.takeBack room
    rw [htb] at hwf hcap
    exact hs.setOwn ⟨hwf, hcap.trans (hs.framed.eng.queue hs.framed.id).2⟩ fun h => h.elim
  · -- チャンクを積む。積めなければオーバーフローのフラグを立てる
    refine Triple.bind (Q := fun _ => Still C False r m fun _ => True) (Triple.updateEng fun s ok e' hs h => ?_)
      fun ok => Triple.ite (fun _ => ?_) fun _ => ?_
    · obtain ⟨st, -, rfl⟩ := Engine.withStack_eq h
      exact Still.of_frame ⟨hs.framed.eng.congr rfl rfl rfl, hs.framed.id⟩ hs.restarts hs.marks
    · exact Triple.bind (Q := fun _ => Still C False r m fun _ => True)
        (modifyTask_still (fun _ => rfl) fun _ _ _ => trivial) fun _ => hdec
    · refine Triple.bind (Q := fun _ => Still C False r m fun _ => True) (Triple.modifyEng fun s hs => ?_) fun _ =>
        Triple.bind (Q := fun _ => Still C False r m fun _ => True)
          (modifyTask_still (fun _ => rfl) fun _ _ _ => trivial) fun _ => hdec
      exact Still.of_frame ⟨hs.framed.eng.congr rfl rfl rfl, hs.framed.id⟩ hs.restarts hs.marks

/-- 静かな走りの積み込みは、キューが埋まっていないので、項目をタスクのローカルキューの底に加える
だけで、タスクには触れない：タスクについての条件 `T` は保たれる。 -/
theorem pushWith_still (room : Nat) (x : TaskEntry) (T : MarkTask → Prop) (n : Nat) :
    Triple (Still C c r m fun s => T s.task ∧ s.backlog ≤ n ∧ n ≤ C.partialTarget ∧ s.eng.heap.Resumable x)
      (pushWith room x) fun _ => Still C c r m fun s => T s.task ∧ s.backlog ≤ n + 1 := by
  unfold pushWith
  refine Triple.ite (fun _ => Triple.violated_bind _ _) fun _ => ?_
  refine Triple.bind Triple.task fun t' => Triple.bind Triple.eng fun e => Triple.ite (fun hfull => ?_)
    fun hfull => Triple.modifyEng fun s hs => ?_
  · -- 埋まったキュー：静かな走りではありえないので、移し替えの後は形だけを追う
    refine Triple.bind (Q := fun _ s => Still C c r m (fun _ => False) s ∧ s.task.id = t'.id)
      (fun s a s' hs hr => ?_) fun _ => ?_
    · obtain ⟨⟨hs, rfl⟩, rfl⟩ := hs
      refine ⟨Triple.escape (fun _ => moveEntriesToGlobalStack_framed room) s a s' (hs.false fun hcalm hp => ?_)
        hr, moveEntriesToGlobalStack_keeps (id_closed s.task.id) room s a s' rfl hr⟩
      have hq := hs.framed.eng.queue hs.framed.id
      have hlt := MarkConfig.partialTarget_succ_lt hs.framed.eng.roomy
      have hcap : (s.eng.queue s.task.id).capacity ≤ s.backlog := by
        simpa [TaskQueue.isFull, Worker.backlog] using hfull
      omega
    · refine Triple.bind Triple.eng fun e' => Triple.ite (fun _ => Triple.violated_bind _ _) fun hfull' => ?_
      refine Triple.modifyEng fun s hs => ?_
      obtain ⟨⟨hs, hid⟩, rfl⟩ := hs
      rw [← hid] at hfull' ⊢
      exact hs.pushOwn hfull' fun _ _ _ h => h.elim
  · obtain ⟨⟨hs, rfl⟩, rfl⟩ := hs
    exact hs.pushOwn hfull fun _ _ _ hp => ⟨hp.2.2.2, by have := hp.2.1; have := hp.2.2.1; omega,
      fun hb => ⟨hp.1, by rw [hb]; have := hp.2.1; omega⟩⟩

theorem push_still (x : TaskEntry) (T : MarkTask → Prop) (n : Nat) :
    Triple (Still C c r m fun s => T s.task ∧ s.backlog ≤ n ∧ n ≤ C.partialTarget ∧ s.eng.heap.Resumable x)
      (push x) fun _ => Still C c r m fun s => T s.task ∧ s.backlog ≤ n + 1 :=
  Triple.after_eng fun _ => pushWith_still _ x T n

theorem makeReferenceGrey_still (a : Nat) :
    Triple (Still C c r m P) (makeReferenceGrey a) fun _ => Still C c r m P := by
  unfold makeReferenceGrey
  refine Triple.bind (markInBitmap_still a) fun b => Triple.ite
    (fun _ => Triple.pure _ fun _ hs => hs.mono fun _ h => h.2) fun hb => ?_
  have hb' : b = true := by simpa using hb
  refine Triple.mono (P := Still C c r m fun _ => False) (Q := fun _ => Still C c r m fun _ => False) ?_
    (fun s hs => hs.false fun _ h => absurd h.1 (by simp [hb'])) fun _ _ h => h.false fun _ h => h.elim
  refine Triple.after_eng fun _ => Triple.bind (isBelowFinger_keeps a _) fun _ =>
    Triple.ite (fun _ => ?_) fun _ => Triple.pure _ fun _ h => h
  exact Triple.escape fun _ => push_still (.obj a) (fun _ => True) 0

end Marking

end RegionMark
