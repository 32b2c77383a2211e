import RegionMark.Proofs.Restart.Quiet

/-!
# 静かな走りの走査と吐き出し

印を付けない走りでは、キューの項目の走査は高々 1 つの切片を積み、走査した語数は `2 ^ 64` より小さいので、
吐き出しの繰り返しは燃料が尽きる前に終わる（`drainLocalLoop_still`）。
-/

namespace RegionMark

namespace MarkStack

theorem pop_none {s s' : MarkStack} {room : Nat} (h : s.pop room = .ok (none, s')) : s' = s := by
  unfold pop at h
  by_cases hr : room < s.entriesPerChunk
  · simp [hr, throw, throwThe, MonadExceptOf.throw, bind, Except.bind] at h
  · cases hl : s.popLink s.dataHead with
    | none => simp_all [pure, Except.pure]
    | some p => simp_all [pure, Except.pure]

theorem dataHead_of_pop {s s' : MarkStack} {room : Nat} {es : List TaskEntry}
    (h : s.pop room = .ok (some es, s')) : s.dataHead ≠ 0 := by
  intro h0
  unfold pop at h
  have hl : s.popLink s.dataHead = none := by simp [popLink, h0]
  by_cases hr : room < s.entriesPerChunk
  · simp [hr, throw, throwThe, MonadExceptOf.throw, bind, Except.bind] at h
  · simp_all [pure, Except.pure]

end MarkStack

namespace TaskQueue

theorem WellFormed.items_of_pop_none {α : Type} [Inhabited α] {q : TaskQueue α} (hq : q.WellFormed)
    (h : q.pop.1 = none) : q.items = [] := by
  by_contra hne
  have hl := (hq.pop_some hne).1
  rw [h, eq_comm, List.getLast?_eq_none_iff] at hl
  exact hne hl

end TaskQueue

namespace Heap

theorem Tiled.arrayLength_lt {h : Heap} (ht : h.Tiled) (a : Nat) : (h.arrayLength? a).getD 0 < Word.max := by
  cases ha : h.arrayLength? a with
  | none => decide
  | some len =>
    obtain ⟨-, -, hb, -⟩ := ht.array_extent ha
    simp only [Option.getD_some]
    unfold Word.max
    unfold Word.bound Word.bytes arrayHeaderWords at hb
    omega

/-- 並んだヒープで配列の要素 `k`（長さより小さい）のアドレスから作った配列の残りの項目は、要素の残る
配列の残り。 -/
theorem Tiled.resumable_ofSlice {h : Heap} (ht : h.Tiled) {a k next : Nat} {y : TaskEntry}
    (hk : k < (h.arrayLength? a).getD 0) (hn : elementAddr a k = .ok next)
    (hy : TaskEntry.ofSlice next = .ok y) : h.Resumable y := by
  cases ha : h.arrayLength? a with
  | none => rw [ha] at hk; cases hk
  | some len =>
    rw [ha, Option.getD_some] at hk
    obtain ⟨-, ha8, hb, -⟩ := ht.array_extent ha
    have hbk : a + (arrayHeaderWords + k) * Word.bytes < Word.bound := by
      unfold arrayHeaderWords Word.bytes at *
      omega
    rw [elementAddr_eq hbk] at hn
    cases hn
    have h8 : (a + (arrayHeaderWords + k) * Word.bytes) % Word.bytes = 0 := by
      unfold Word.bytes at *
      omega
    have h0 : a + (arrayHeaderWords + k) * Word.bytes ≠ 0 := by
      unfold arrayHeaderWords Word.bytes
      omega
    rw [TaskEntry.ofSlice_eq h8 h0] at hy
    cases hy
    exact ⟨a, k, ht.resolve_elementAddr ha hk, by rw [ha, Option.getD_some]; exact hk⟩

end Heap

namespace Engine

theorem claimRegion_aside (e : Engine) : e.Aside e.claimRegion.2 := by
  unfold claimRegion
  split
  · exact Aside.refl e
  · exact ⟨rfl, rfl, rfl, rfl, rfl, rfl, rfl⟩

end Engine

namespace Marking

variable {C : MarkConfig} {c : Prop} {r : Nat × List Bitmap} {m : Nat} {P P' : Worker → Prop} {α : Type}

/-! ## 印を付けない一歩で崩れない条件 -/

theorem Stable.and {Q : Worker → Prop} (hP : Stable P) (hQ : Stable Q) : Stable fun s => P s ∧ Q s :=
  fun s₀ s hp hh => ⟨hP s₀ s hp.1 hh, hQ s₀ s hp.2 hh⟩

theorem stable_backlog (R : Nat → Prop) : Stable fun s => R s.backlog := by
  intro s₀ s hp hh
  rw [hh.backlog]
  exact hp

theorem stable_words (R : Nat → Prop) : Stable fun s => R s.task.wordsScanned := by
  intro s₀ s hp hh
  rw [hh.words]
  exact hp

theorem stable_heap (R : Heap → Prop) : Stable fun s => R s.eng.heap := by
  intro s₀ s hp hh
  rw [hh.heap]
  exact hp

/-! ## 印を付けない部品 -/

section Hushed

variable (hP : Stable P)
include hP

theorem clockStops_still : Keeps (Still C c r m P) clockStops := by
  unfold clockStops
  refine Keeps.bind Keeps.getTask fun t => Keeps.ite (Keeps.pure _) ?_
  refine Keeps.bind (recalculateLimits_still hP) fun _ => Keeps.bind Keeps.getEng fun e => ?_
  refine Keeps.ite (Keeps.bind (modifyTask_hushed (fun _ => ⟨rfl, rfl, fun _ => rfl⟩) hP) fun _ =>
    Keeps.pure _) ?_
  refine Keeps.ite (Keeps.pure _) ?_
  refine Keeps.ite (Keeps.bind (modifyTask_hushed (fun _ => ⟨rfl, rfl, fun _ => rfl⟩) hP) fun _ =>
    Keeps.pure _) ?_
  refine Keeps.ite ?_ (Keeps.pure _)
  refine Keeps.bind (modifyEng_aside (fun _ => ⟨rfl, rfl, rfl, rfl, rfl, rfl, rfl⟩) hP) fun _ =>
    Keeps.ite ?_ (Keeps.pure _)
  exact Keeps.bind (modifyTask_hushed (fun _ => ⟨rfl, rfl, fun _ => rfl⟩) hP) fun _ => Keeps.pure _

theorem drainSatbLoop_still (fuel : Nat) : Keeps (Still C c r m P) (drainSatbLoop fuel) := by
  induction fuel with
  | zero => exact Keeps.pure _
  | succ fuel ih =>
    unfold drainSatbLoop
    refine Keeps.bind Keeps.getTask fun _ => Keeps.ite (Keeps.pure _) (Keeps.bind Keeps.getEng fun _ => ?_)
    split
    split
    · refine Keeps.bind (modifyEng_aside (fun _ => ⟨rfl, rfl, rfl, rfl, rfl, rfl, rfl⟩) hP) fun _ => ?_
      refine Keeps.bind (Keeps.forIn _ fun a _ _ =>
        Keeps.bind (makeReferenceGrey_still a) fun _ => Keeps.pure _) fun _ => ?_
      exact Keeps.bind (modifyTask_hushed (fun _ => ⟨rfl, rfl, fun h => h⟩) hP) fun _ =>
        Keeps.bind (clockStops_still hP) fun _ => ih
    · exact Keeps.pure _

theorem drainSatbBuffers_still : Keeps (Still C c r m P) drainSatbBuffers := by
  unfold drainSatbBuffers
  refine Keeps.bind (modifyTask_hushed (fun _ => ⟨rfl, rfl, fun h => h⟩) hP) fun _ => ?_
  refine Keeps.bind Keeps.getEng fun _ => Keeps.bind (drainSatbLoop_still hP _) fun _ => ?_
  exact Keeps.bind (modifyTask_hushed (fun _ => ⟨rfl, rfl, fun h => h⟩) hP) fun _ => decreaseLimits_still hP

theorem regularClockCall_still : Keeps (Still C c r m P) regularClockCall :=
  Keeps.bind (clockStops_still hP) fun _ => Keeps.ite (drainSatbBuffers_still hP) (Keeps.pure _)

theorem checkLimits_still : Keeps (Still C c r m P) checkLimits :=
  Keeps.bind Keeps.getTask fun _ => Keeps.ite (regularClockCall_still hP) (Keeps.pure _)

theorem dealWithReference_still (a : Nat) : Keeps (Still C c r m P) (dealWithReference a) :=
  Keeps.bind (modifyTask_hushed (fun _ => ⟨rfl, rfl, fun h => h⟩) hP) fun _ => makeReferenceGrey_still a

theorem dealWithField_still (fromRegion : Option Nat) (a : Nat) :
    Keeps (Still C c r m P) (dealWithField fromRegion a) := by
  unfold dealWithField
  refine Keeps.bind Keeps.getEng fun _ => ?_
  split
  · exact Keeps.ite (Keeps.bind (updateStats_still hP) fun _ => dealWithReference_still hP a)
      (dealWithReference_still hP a)
  · exact dealWithReference_still hP a

/-- 欄を順に扱う繰り返し。 -/
theorem dealWithFields_still (fromRegion : Option Nat) (refs : List Nat) :
    Keeps (Still C c r m P) (forIn refs PUnit.unit fun a _ => do
      dealWithField fromRegion a
      Pure.pure (ForInStep.yield PUnit.unit)) :=
  Keeps.forIn _ fun a _ _ => Keeps.bind (dealWithField_still hP fromRegion a) fun _ => Keeps.pure _

theorem giveUpRegion_still : Keeps (Still C c r m P) giveUpRegion := by
  unfold giveUpRegion
  refine Keeps.bind Keeps.getTask fun _ => ?_
  refine Keeps.ite (Keeps.bind (Keeps.violated _) fun _ => ?_) ?_ <;>
  exact Keeps.bind (flushStatsCache_still hP) fun _ =>
    modifyTask_hushed (fun _ => ⟨rfl, rfl, fun h => h⟩) hP

theorem setupForRegion_still (region : Nat) : Keeps (Still C c r m P) (setupForRegion region) :=
  Keeps.bind Keeps.getEng fun _ => modifyTask_hushed (fun _ => ⟨rfl, rfl, fun h => h⟩) hP

theorem moveFingerTo_still (a : Nat) : Keeps (Still C c r m P) (moveFingerTo a) := by
  unfold moveFingerTo
  refine Keeps.bind Keeps.getTask fun _ => ?_
  refine Keeps.ite (Keeps.bind (Keeps.violated _) fun _ => ?_) ?_ <;>
  exact modifyTask_hushed (fun _ => ⟨rfl, rfl, fun h => h⟩) hP

theorem claimLoop_still (fuel : Nat) : Keeps (Still C c r m P) (claimLoop fuel) := by
  induction fuel with
  | zero => exact Keeps.pure _
  | succ fuel ih =>
    unfold claimLoop
    refine Keeps.bind Keeps.getTask fun _ => Keeps.bind Keeps.getTask fun _ => ?_
    refine Keeps.bind Keeps.getEng fun _ => Keeps.ite (Keeps.pure _) (Keeps.bind_eng_eq fun e => ?_)
    split
    rename_i region e' hc
    -- 取ったリージョンの先へ大域のフィンガーを進めたエンジンを書き戻す
    refine Triple.bind (Q := fun _ => Still C c r m P) (Triple.modify fun s hs => ?_) fun _ => ?_
    · obtain ⟨hs, rfl⟩ := hs
      have he : e' = s.eng.claimRegion.2 := by rw [hc]
      subst he
      exact hs.hushed (Engine.claimRegion_aside s.eng) ⟨rfl, by
        show s.eng.claimRegion.2.queue s.task.id = _
        rw [Engine.queue, (Engine.claimRegion_aside s.eng).queues, Engine.queue], rfl, fun h => h,
        (Engine.claimRegion_aside s.eng).heap⟩ hP
    · have hrest : Keeps (Still C c r m P) (regularClockCall >>= fun _ => claimLoop fuel) :=
        Keeps.bind (regularClockCall_still hP) fun _ => ih
      split
      · exact Keeps.bind (setupForRegion_still hP _) fun _ => hrest
      · exact hrest

theorem recordTimeout_still : Keeps (Still C c r m P) recordTimeout :=
  Keeps.bind Keeps.getTask fun _ =>
    Keeps.ite (modifyEng_aside (fun _ => ⟨rfl, rfl, rfl, rfl, rfl, rfl, rfl⟩) hP) (Keeps.pure _)

end Hushed

/-! ## 走査 -/

theorem lt_sliceEnd {lo stride len : Nat} (hs : 0 < stride) (hl : len < Word.max) (hlo : lo < len) :
    lo + 1 ≤ Nat.min (Nat.min (lo + stride) Word.max) len := by
  simp only [Nat.min_def]
  split <;> split <;> omega

theorem addWords_still (k w₀ : Nat) (hP : ∀ s w, P s → P ⟨s.eng, { s.task with wordsScanned := w }⟩) :
    Triple (Still C c r m fun s => P s ∧ s.task.wordsScanned = w₀) (addWords k)
      fun _ => Still C c r m fun s => P s ∧ s.task.wordsScanned = w₀ + k ∧ w₀ + k < Word.bound := by
  unfold addWords
  refine Triple.bind Triple.task fun t => Triple.bind Triple.check_eq fun w => Triple.modifyTask fun s hs => ?_
  obtain ⟨⟨hs, rfl⟩, hw⟩ := hs
  have hw' : w = s.task.wordsScanned + k ∧ s.task.wordsScanned + k < Word.bound := by
    unfold Word.add at hw
    split at hw
    · cases hw
      exact ⟨rfl, ‹_›⟩
    · cases hw
  refine hs.aside (Engine.Aside.refl _) rfl fun _ hp => ⟨hP _ _ hp.1, ?_, ?_⟩
  · show w = w₀ + k
    rw [hw'.1, hp.2]
  · rw [← hp.2]
    exact hw'.2

theorem addWords_hushed (k : Nat) (hP : ∀ s w, P s → P ⟨s.eng, { s.task with wordsScanned := w }⟩) :
    Keeps (Still C c r m P) (addWords k) :=
  Triple.ghost (fun s => s.task.wordsScanned) fun w₀ =>
    (addWords_still k w₀ hP).mono (fun _ h => h) fun _ _ h => h.mono fun _ hp => hp.1

/-- 配列の切片の走査：残りがあればその切片を 1 つ積み、`lo` が長さより小さければ少なくとも 1 語を数える。 -/
theorem scanArraySlice_still (array lo n w₀ len : Nat) :
    Triple (Still C c r m fun s => s.backlog ≤ n ∧ n ≤ C.partialTarget ∧ s.task.wordsScanned = w₀ ∧
        (s.eng.heap.arrayLength? array).getD 0 = len)
      (scanArraySlice array lo) fun _ => Still C c r m fun s => s.backlog ≤ n + 1 ∧
        s.task.wordsScanned < Word.bound ∧ (lo < len → w₀ + 1 ≤ s.task.wordsScanned) := by
  unfold scanArraySlice
  refine Triple.bind Triple.eng fun e => ?_
  refine Triple.assume (c := e.Framed C) (fun s hs => hs.2 ▸ hs.1.framed.eng) fun hfe => ?_
  -- 積むかどうかのあとの続きは、キューの長さ `n + 1` と語数 `w₀` から始まる。配列の長さは語の範囲にある
  let R := (e.heap.arrayLength? array).getD 0 = len ∧ len < Word.max
  refine Triple.ite (fun hlt => ?_) fun _ =>
    Triple.mono (P := Still C c r m fun s => s.backlog ≤ n + 1 ∧ s.task.wordsScanned = w₀ ∧ R) ?_
      (fun s hs => by
        obtain ⟨hs, rfl⟩ := hs
        refine hs.mono fun hcalm hp => ⟨Nat.le_succ_of_le hp.1, hp.2.2.1, hp.2.2.2, ?_⟩
        rw [← hp.2.2.2]
        exact hcalm.tiled.arrayLength_lt array) fun _ _ h => h
  -- 切片の残りを積む
  refine Triple.bind Triple.check_eq fun next => Triple.bind Triple.check_eq fun y =>
    Triple.bind (Q := fun _ => Still C c r m fun s => s.backlog ≤ n + 1 ∧ s.task.wordsScanned = w₀ ∧ R)
      (Triple.mono (push_still (C := C) (c := c) (r := r) (m := m) y (fun t => t.wordsScanned = w₀ ∧ R) n)
        (fun s hs => by
          obtain ⟨⟨⟨hs, rfl⟩, hnext⟩, hy⟩ := hs
          refine hs.mono fun hcalm hp => ?_
          obtain ⟨hb, hn, hw, hl⟩ := hp
          refine ⟨⟨hw, hl, ?_⟩, hb, hn, hcalm.tiled.resumable_ofSlice hlt hnext hy⟩
          rw [← hl]
          exact hcalm.tiled.arrayLength_lt array)
        fun _ s hs => hs.mono fun _ hp => ⟨hp.2, hp.1⟩) fun _ => ?_
  -- 欄を扱ってから、切片の語数を加える
  all_goals
    refine Triple.bind (Q := fun _ => Still C c r m fun s => s.backlog ≤ n + 1 ∧ s.task.wordsScanned = w₀ ∧ R)
      (dealWithFields_still ((stable_backlog (· ≤ n + 1)).and ((stable_words (· = w₀)).and
        (stable_heap fun _ => R))) _ _) fun _ => ?_
    refine (addWords_still (P := fun s => s.backlog ≤ n + 1 ∧ R) _ w₀ fun _ _ h => h).mono
      (fun s hs => hs.mono fun _ hp => ⟨⟨hp.1, hp.2.2⟩, hp.2.1⟩) fun _ s hs => hs.mono fun _ hp => ?_
    obtain ⟨⟨hb, hl, hmax⟩, hw, hlt⟩ := hp
    have hl : (e.heap.arrayLength? array).getD 0 = len := hl
    have hstride : 0 < e.config.sliceStride := hfe.config ▸ hfe.stride
    refine ⟨hb, hw ▸ hlt, fun hlo => ?_⟩
    rw [hl] at hw
    have := lt_sliceEnd hstride hmax hlo
    omega

/-- オブジェクトの走査は、大きな配列なら最初の切片を 1 つ積み、ほかには何も積まない。 -/
theorem scanObject_still (a n : Nat) :
    Triple (Still C c r m fun s => s.backlog ≤ n ∧ n ≤ C.partialTarget)
      (scanObject a) fun _ => Still C c r m fun s => s.backlog ≤ n + 1 := by
  unfold scanObject
  refine Triple.bind Triple.eng fun e => ?_
  -- 読んだエンジンのヒープは、走査のあいだ変わらない
  let H : Worker → Prop := fun s => s.backlog ≤ n ∧ n ≤ C.partialTarget ∧ s.eng.heap = e.heap
  have hH : Stable H := (stable_backlog (· ≤ n)).and ((stable_backlog fun _ => n ≤ C.partialTarget).and
    (stable_heap (· = e.heap)))
  have hwords : ∀ k, Triple (Still C c r m H) (addWords k) fun _ => Still C c r m fun s => s.backlog ≤ n + 1 :=
    fun k => (addWords_hushed k fun _ _ h => h).mono (fun _ h => h) fun _ _ h =>
      h.mono fun _ hp => Nat.le_succ_of_le hp.1
  refine Triple.bind (Q := fun _ => Still C c r m H) (Triple.modifyTask fun s hs => ?_) fun _ => ?_
  · obtain ⟨hs, rfl⟩ := hs
    exact hs.aside (Engine.Aside.refl _) rfl fun _ hp => ⟨hp.1, hp.2, rfl⟩
  refine Triple.bind (Q := fun _ => Still C c r m H) (dealWithFields_still hH _ _) fun _ => ?_
  split
  · rename_i len hlen
    refine Triple.bind Triple.check_eq fun k => Triple.ite (fun _ => ?_) fun _ =>
      Triple.mono (P := Still C c r m H)
        (Triple.bind (Q := fun _ => Still C c r m H) (dealWithFields_still hH _ _) fun _ => hwords _)
        (fun _ h => h.1) fun _ _ h => h
    -- 大きな配列：頭の語を数え、最初の切片を走査する
    refine Triple.bind (Q := fun _ => Still C c r m H)
      ((addWords_hushed _ fun _ _ h => h).mono (fun _ h => h.1) fun _ _ h => h) fun _ => ?_
    refine Triple.ghost (fun s => s.task.wordsScanned) fun w₁ => ?_
    refine (scanArraySlice_still a 0 n w₁ len).mono (fun s hs => hs.mono fun _ hp => ?_)
      fun _ _ hs => hs.mono fun _ hp => hp.1
    obtain ⟨⟨hb, hn, he⟩, hw⟩ := hp
    exact ⟨hb, hn, hw, by rw [he, hlen, Option.getD_some]⟩
  · exact hwords _

/-- 丸ごとのオブジェクトの項目の走査は、大きな配列の最初の切片を高々 1 つ積む。 -/
theorem scanTaskEntry_obj_still (a n : Nat) :
    Triple (Still C c r m fun s => s.backlog ≤ n ∧ n ≤ C.partialTarget)
      (scanTaskEntry (.obj a)) fun _ => Still C c r m fun s => s.backlog ≤ n + 1 :=
  Triple.bind (scanObject_still a n) fun _ => checkLimits_still (stable_backlog (· ≤ n + 1))

/-- 配列の残りの項目の走査は、切片を高々 1 つ積み、少なくとも 1 語を数える。 -/
theorem scanTaskEntry_still (x : TaskEntry) (n w₀ : Nat) :
    Triple (Still C c r m fun s => s.backlog ≤ n ∧ n ≤ C.partialTarget ∧ s.task.wordsScanned = w₀ ∧
        s.eng.heap.Resumable x)
      (scanTaskEntry x) fun _ => Still C c r m fun s => s.backlog ≤ n + 1 ∧
        s.task.wordsScanned < Word.bound ∧ w₀ + 1 ≤ s.task.wordsScanned := by
  cases x with
  | obj a =>
    -- 静かな走りのキューに丸ごとのオブジェクトはない
    exact (Triple.escape fun _ => scanTaskEntry_obj_still a 0).mono (fun _ hs => hs.false fun _ hp => hp.2.2.2)
      fun _ _ hs => hs.mono fun _ h => h.elim
  | null => exact Triple.violated_bind _ _
  | slice a =>
    unfold scanTaskEntry
    refine Triple.bind Triple.eng fun e => Triple.bind Triple.check_eq fun p => ?_
    obtain ⟨array, k⟩ := p
    refine Triple.bind (Q := fun _ => Still C c r m fun s => s.backlog ≤ n + 1 ∧
        s.task.wordsScanned < Word.bound ∧ w₀ + 1 ≤ s.task.wordsScanned) ?_ fun _ =>
      checkLimits_still ((stable_backlog (· ≤ n + 1)).and ((stable_words (· < Word.bound)).and
        (stable_words (w₀ + 1 ≤ ·))))
    -- 残りの添字が長さより小さいことは、静かな走りの始めから終わりへ運ぶ
    let len := (e.heap.arrayLength? array).getD 0
    refine (Triple.frame (K := k < len) fun c' m' =>
      scanArraySlice_still (c := c') (m := m') array k n w₀ len).mono (fun s hs => ?_)
        fun _ _ hs => hs.mono fun _ hp => ⟨hp.1.1, hp.1.2.1, hp.1.2.2 hp.2⟩
    obtain ⟨⟨hs, rfl⟩, hres⟩ := hs
    refine hs.mono fun _ hp => ?_
    obtain ⟨hb, hn, hw, arr, k', hres', hk⟩ := hp
    rw [hres] at hres'
    cases hres'
    exact ⟨⟨hb, hn, hw, rfl⟩, hk⟩
/-! ## 吐き出し -/

/-- 静かな走りで自分のローカルキューの底から取り出した項目は配列の残りで、キューは 1 つ短くなる。 -/
theorem Still.popOwn {s : Worker} {x : TaskEntry} {q : TaskQueue TaskEntry} (hs : Still C c r m P s)
    (hpop : (s.eng.queue s.task.id).pop = (some x, q))
    (hQ : c → s.eng.marks = m → s.eng.Calm → P s → s.eng.heap.Resumable x →
      (⟨{ s.eng with queues := s.eng.queues.setIfInBounds s.task.id q }, s.task⟩ : Worker).backlog + 1 =
        s.backlog →
      P' ⟨{ s.eng with queues := s.eng.queues.setIfInBounds s.task.id q }, s.task⟩) :
    Still C c r m P' ⟨{ s.eng with queues := s.eng.queues.setIfInBounds s.task.id q }, s.task⟩ := by
  have hq := hs.framed.eng.queue hs.framed.id
  have hne : (s.eng.queue s.task.id).items ≠ [] := fun h => by
    rw [hq.1.pop_empty h] at hpop
    cases hpop
  obtain ⟨hx, hwf, hcap, hitems⟩ := hq.1.pop_some hne
  rw [hpop] at hx hwf hcap hitems
  have hback : (⟨{ s.eng with queues := s.eng.queues.setIfInBounds s.task.id q }, s.task⟩ : Worker).backlog + 1 =
      s.backlog := by
    rw [backlog_setOwn hs.framed, hitems, List.length_dropLast]
    have := List.length_pos_iff.2 hne
    unfold Worker.backlog
    omega
  refine hs.setOwn ⟨hwf, hcap.trans hq.2⟩ fun hc hm hcalm hp => ?_
  have hown := hcalm.queue hs.framed.id
  rw [hs.framed.eng.config] at hown
  refine ⟨hown.sublist (hitems ▸ List.dropLast_sublist _), hQ hc hm hcalm hp (hown.2 x ?_) hback⟩
  exact List.mem_of_getLast? hx.symm

theorem drainLocalLoop_still (target fuel : Nat) :
    Triple (Still C c r m fun s => s.backlog ≤ C.partialTarget + 1 ∧
        Word.bound ≤ s.task.wordsScanned + fuel ∧ (fuel < Word.bound → s.task.wordsScanned < Word.bound))
      (drainLocalLoop target fuel) fun _ => Still C c r m fun s => s.backlog ≤ C.partialTarget + 1 ∧
        (s.task.aborted = false → s.backlog ≤ target) := by
  induction fuel with
  | zero =>
    -- 燃料のない繰り返しは、静かな走りでは起こらない
    refine Triple.pure _ fun s hs => hs.false fun _ hp => ?_
    have := hp.2.2 (by decide)
    have := hp.2.1
    omega
  | succ fuel ih =>
    unfold drainLocalLoop
    refine Triple.bind Triple.task fun t => Triple.bind Triple.eng fun e => ?_
    split
    rename_i x q hpop
    split
    · rename_i y
      -- 底の項目を取り出す
      refine Triple.bind (Q := fun _ s => Still C c r m (fun s => s.backlog ≤ C.partialTarget ∧
          s.task.wordsScanned = t.wordsScanned ∧ s.eng.heap.Resumable y ∧
          Word.bound ≤ t.wordsScanned + (fuel + 1)) s ∧ s.task.id = t.id)
        (Triple.modifyEng fun s hs => ?_) fun _ => ?_
      · obtain ⟨⟨hs, rfl⟩, rfl⟩ := hs
        refine ⟨hs.popOwn hpop fun _ _ _ hp hy hb => ⟨by omega, rfl, hy, hp.2.1⟩, rfl⟩
      -- 走査は少なくとも 1 語を数えるので、残りの燃料で足りる
      refine Triple.bind (Q := fun _ s => Still C c r m (fun s => s.backlog ≤ C.partialTarget + 1 ∧
          s.task.wordsScanned < Word.bound ∧ Word.bound ≤ s.task.wordsScanned + fuel) s ∧ s.task.id = t.id)
        (Triple.mono (Triple.and (Triple.frame (K := Word.bound ≤ t.wordsScanned + (fuel + 1)) fun c' m' =>
            scanTaskEntry_still (c := c') (m := m') y C.partialTarget t.wordsScanned)
          (scanTaskEntry_keeps (id_closed t.id) y))
          (fun s hs => ⟨hs.1.mono fun _ hp => ⟨⟨hp.1, le_rfl, hp.2.1, hp.2.2.1⟩, hp.2.2.2⟩, hs.2⟩)
          fun _ s hs => ⟨hs.1.mono fun _ hp => ⟨hp.1.1, hp.1.2.1, by have := hp.1.2.2; have := hp.2; omega⟩,
            hs.2⟩) fun _ => ?_
      refine Triple.bind Triple.eng fun e' => Triple.bind Triple.task fun t' =>
        Triple.ite (fun hstop => Triple.pure _ fun s hs => ?_) fun _ => ih.mono (fun s hs => ?_) fun _ _ h => h
      · obtain ⟨⟨⟨hs, hid⟩, rfl⟩, rfl⟩ := hs
        refine hs.mono fun _ hp => ⟨hp.1, fun hab => ?_⟩
        rw [hab, Bool.or_false, decide_eq_true_eq, ← hid] at hstop
        unfold Worker.backlog
        rw [← (hs.framed.eng.queue hs.framed.id).1.length_eq]
        exact hstop
      · obtain ⟨⟨⟨hs, -⟩, -⟩, -⟩ := hs
        exact hs.mono fun _ hp => ⟨hp.1, hp.2.2, fun _ => hp.2.1⟩
    · -- 空のキュー
      rename_i hnone
      refine Triple.pure _ fun s hs => ?_
      obtain ⟨⟨hs, rfl⟩, rfl⟩ := hs
      have hx : x = none := by
        cases x with
        | none => rfl
        | some y => exact (hnone y rfl).elim
      have hnil := (hs.framed.eng.queue hs.framed.id).1.items_of_pop_none (by rw [hpop, hx])
      refine hs.mono fun _ hp => ⟨hp.1, fun _ => ?_⟩
      unfold Worker.backlog
      rw [hnil]
      exact Nat.zero_le _

theorem drainLocalQueue_still (partially : Bool) :
    Triple (Still C c r m fun s => s.backlog ≤ C.partialTarget + 1) (drainLocalQueue partially)
      fun _ => Still C c r m fun s => s.backlog ≤ C.partialTarget + 1 ∧
        (s.task.aborted = false → s.backlog ≤ if partially then C.partialTarget else 0) := by
  unfold drainLocalQueue
  refine Triple.bind Triple.task fun t => Triple.ite (fun hab => Triple.pure _ fun s hs => ?_) fun _ => ?_
  · obtain ⟨hs, rfl⟩ := hs
    exact hs.mono fun _ hp => ⟨hp, fun h => by rw [h] at hab; cases hab⟩
  refine Triple.bind Triple.eng fun e => Triple.bind Triple.task fun t' => ?_
  refine Triple.assume (c := (e.queue t'.id).capacity = C.queueCapacity) (fun s hs => ?_) fun hcap => ?_
  · obtain ⟨⟨⟨hs, -⟩, rfl⟩, rfl⟩ := hs
    exact (hs.framed.eng.queue hs.framed.id).2
  -- 目標は容量の 3 分の 1 と吐き出しの目標の小さいほう、すなわち `partialTarget`
  have htarget : (if partially = true then ((e.queue t'.id).capacity / 3).min drainTarget else 0) =
      if partially = true then C.partialTarget else 0 := by
    rw [hcap]
    rfl
  refine Triple.ite (fun hle => Triple.pure _ fun s hs => ?_) fun _ =>
    (drainLocalLoop_still _ loopFuel).mono (fun s hs => ?_) fun _ _ hs =>
      hs.mono fun _ hp => ⟨hp.1, fun hab => htarget ▸ hp.2 hab⟩
  · obtain ⟨⟨⟨hs, -⟩, rfl⟩, rfl⟩ := hs
    refine hs.mono fun _ hp => ⟨hp, fun _ => ?_⟩
    rw [← htarget]
    unfold Worker.backlog
    rw [← (hs.framed.eng.queue hs.framed.id).1.length_eq]
    exact hle
  · obtain ⟨⟨⟨hs, -⟩, -⟩, -⟩ := hs
    exact hs.mono fun _ hp => ⟨hp, by unfold loopFuel Word.bound; omega,
      fun h => absurd h (by unfold loopFuel Word.bound; omega)⟩

theorem stable_unaborted (R : Nat → Prop) : Stable fun s => s.task.aborted = false → R s.backlog := by
  intro s₀ s hp hh hab
  rw [hh.backlog]
  exact hp (Bool.eq_false_iff.2 fun h => by rw [hh.aborted h] at hab; cases hab)

theorem pushWith_framed (room : Nat) (x : TaskEntry) :
    Triple (Still C False r m fun _ => True) (pushWith room x) fun _ => Still C False r m fun _ => True :=
  (pushWith_still room x (fun _ => True) 0).mono (fun _ hs => Still.of_frame hs.framed hs.restarts hs.marks)
    fun _ _ hs => Still.of_frame hs.framed hs.restarts hs.marks

theorem getEntriesFromGlobalStack_still :
    Triple (Still C c r m P) getEntriesFromGlobalStack fun b => Still C c r m fun s => b = false ∧ P s := by
  unfold getEntriesFromGlobalStack
  refine Triple.bind Triple.eng fun _ => Triple.bind (Q := fun o => Still C c r m fun s => o = none ∧ P s)
    (Triple.updateEng fun s o e' hs h => ?_) fun o => ?_
  · obtain ⟨hs, -⟩ := hs
    obtain ⟨st, hpop, rfl⟩ := Engine.withStack_eq h
    cases o with
    | none =>
      rw [MarkStack.pop_none hpop]
      exact hs.mono fun _ hp => ⟨rfl, hp⟩
    | some es =>
      exact ⟨⟨hs.framed.eng.congr rfl rfl rfl, hs.framed.id⟩, hs.restarts, hs.marks,
        fun hc hm => absurd (hs.quiet hc hm).1.stack (MarkStack.dataHead_of_pop hpop)⟩
  · cases o with
    | none => exact Triple.pure _ fun _ hs => hs.mono fun _ hp => ⟨rfl, hp.2⟩
    | some es =>
      -- 取れたチャンクは静かでありえない走りにだけある
      refine (Triple.escape (P := fun _ => True) (Q := fun _ _ => True) fun _ => ?_).mono
        (fun _ hs => hs.false fun _ hp => nomatch hp.1)
        fun _ _ hs => hs.mono fun _ h => h.elim
      refine Triple.bind (Q := fun _ => Still C False r _ fun _ => True)
        (modifyTask_still (fun _ => rfl) fun _ _ _ => trivial) fun _ => ?_
      refine Triple.bind (Q := fun _ => Still C False r _ fun _ => True)
        (Keeps.forIn _ fun x _ _ => Triple.bind (pushWith_framed 0 x) fun _ => Keeps.pure _) fun _ => ?_
      exact Triple.bind (decreaseLimits_still fun _ _ h _ => h) fun _ => Keeps.pure _

theorem drainGlobalLoop_still (partially : Bool) (target fuel : Nat) :
    Keeps (Still C c r m P) (drainGlobalLoop partially target fuel) := by
  induction fuel generalizing c m with
  | zero => exact Keeps.pure _
  | succ fuel ih =>
    unfold drainGlobalLoop
    refine Keeps.bind Keeps.getTask fun _ => Keeps.bind Keeps.getEng fun _ => Keeps.ite (Keeps.pure _) ?_
    refine Triple.bind getEntriesFromGlobalStack_still fun b =>
      Triple.ite (fun _ => Triple.pure _ fun _ hs => hs.mono fun _ hp => hp.2) fun hb => ?_
    -- チャンクを取れたなら静かでありえない
    refine (Triple.escape (P := P) fun m' => Triple.bind (Q := fun _ => Still C False r m' P)
      ((drainLocalQueue_still (c := False) (m := m') partially).mono
        (fun _ hs => Still.of_frame hs.framed hs.restarts hs.marks)
        fun _ _ hs => Still.of_frame hs.framed hs.restarts hs.marks) fun _ => ih).mono
      (fun _ hs => hs.false fun _ hp => ?_) fun _ _ hs => hs.mono fun _ h => h.elim
    rw [Bool.not_eq_true', Bool.not_eq_false] at hb
    rw [hb] at hp
    cases hp.1

theorem drainGlobalStack_still (partially : Bool) :
    Keeps (Still C c r m P) (drainGlobalStack partially) := by
  unfold drainGlobalStack
  exact Keeps.bind Keeps.getTask fun _ => Keeps.ite (Keeps.pure _)
    (Keeps.bind Keeps.getEng fun _ => drainGlobalLoop_still _ _ _)

end Marking

end RegionMark
