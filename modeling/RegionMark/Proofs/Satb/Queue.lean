import RegionMark.Satb

/-!
# 完了したバッファのキュー

完了したバッファの集合は並行キュー `BufferQueue` の上にある。キューが FIFO であることは、中身を古い
順に並べた見方 `view` についての法則 `BufferQueue.Fifo` として述べ、集合の操作の性質はこの法則から
導く。古い順に並べたリストはこの法則を満たす（`BufferQueue.fifo_list`）。
-/

namespace RegionMark

/-- キューが FIFO であること：中身を古い順に並べた `view` について、空のキューは空で、並べたものは
後ろに加わり、取り出すのは先頭で、残りが並ぶ。並んでいる数は並びの長さ。 -/
structure BufferQueue.Fifo (Q : Type) [BufferQueue Q] (view : Q → List (List Nat)) : Prop where
  empty : view BufferQueue.empty = []
  push : ∀ q b, view (BufferQueue.push q b) = view q ++ [b]
  pop : ∀ q, (BufferQueue.pop q).1 = (view q).head? ∧ view (BufferQueue.pop q).2 = (view q).tail
  size : ∀ q, BufferQueue.size q = (view q).length

theorem BufferQueue.fifo_list : BufferQueue.Fifo (List (List Nat)) id :=
  ⟨rfl, fun _ _ => rfl, fun _ => ⟨rfl, rfl⟩, fun _ => rfl⟩

namespace SatbSet

variable {Q : Type} [BufferQueue Q] {view : Q → List (List Nat)}

theorem view_new (hq : BufferQueue.Fifo Q view) (t : Nat) : view (new t : SatbSet Q).completed = [] :=
  hq.empty

theorem view_enqueue (hq : BufferQueue.Fifo Q view) (s : SatbSet Q) (b : List Nat) :
    view (s.enqueue b).completed = if b = [] then view s.completed else view s.completed ++ [b] := by
  unfold enqueue
  by_cases hb : b = []
  · simp [hb]
  · simp [hb, hq.push]

@[simp] theorem active_enqueue (s : SatbSet Q) (b : List Nat) : (s.enqueue b).active = s.active := by
  unfold enqueue
  split <;> rfl

/-- 取るのは最も古いバッファで、残りが並び、取れたときに限り数が 1 減る。 -/
theorem take_spec (hq : BufferQueue.Fifo Q view) (s : SatbSet Q) :
    s.take.1 = (view s.completed).head? ∧ view s.take.2.completed = (view s.completed).tail ∧
      s.take.2.numCompleted = (if view s.completed = [] then s.numCompleted else s.numCompleted - 1) ∧
      s.take.2.active = s.active := by
  obtain ⟨hhead, htail⟩ := hq.pop s.completed
  unfold take
  split
  · rename_i q heq
    rw [heq] at hhead htail
    have hnil : view s.completed = [] := List.head?_eq_none_iff.1 hhead.symm
    exact ⟨hhead, htail, by rw [if_pos hnil], rfl⟩
  · rename_i b q heq
    rw [heq] at hhead htail
    have hne : view s.completed ≠ [] := fun h => by simp [h] at hhead
    exact ⟨hhead, htail, by rw [if_neg hne], rfl⟩

/-- 取り出せるあいだ取り出す繰り返しは、並んでいる数より多く回せば、キューを空にし、取り出した数だけ
計数を減らす。 -/
theorem abandonLoop_spec (hq : BufferQueue.Fifo Q view) :
    ∀ (n : Nat) (s : SatbSet Q), (view s.completed).length < n →
      view (abandonLoop n s).completed = [] ∧
        (abandonLoop n s).numCompleted = s.numCompleted - (view s.completed).length ∧
        (abandonLoop n s).active = s.active
  | 0, _, h => absurd h (Nat.not_lt_zero _)
  | n + 1, s, h => by
    obtain ⟨hhead, htail⟩ := hq.pop s.completed
    unfold abandonLoop
    split
    · -- 何も取れない：キューは空で、取り出しは何も変えない
      rename_i q heq
      rw [heq] at hhead htail
      have hnil : view s.completed = [] := List.head?_eq_none_iff.1 hhead.symm
      exact ⟨by rw [htail, hnil]; rfl, by rw [hnil]; rfl, rfl⟩
    · -- 先頭を捨て、残りについて繰り返す
      rename_i b q heq
      rw [heq] at hhead htail
      obtain ⟨rest, hc⟩ : ∃ rest, view s.completed = b :: rest := by
        cases hv : view s.completed with
        | nil => simp [hv] at hhead
        | cons b' rest =>
          simp only [hv, List.head?_cons, Option.some.injEq] at hhead
          exact ⟨rest, by rw [hhead]⟩
      rw [hc, List.tail_cons] at htail
      rw [hc, List.length_cons] at h ⊢
      obtain ⟨h₁, h₂, h₃⟩ := abandonLoop_spec hq n { s with completed := q, numCompleted := s.numCompleted - 1 }
        (by rw [htail]; omega)
      refine ⟨h₁, ?_, h₃⟩
      rw [h₂, htail]
      dsimp only
      omega

theorem abandon_spec (hq : BufferQueue.Fifo Q view) (s : SatbSet Q) :
    view s.abandon.completed = [] ∧ s.abandon.numCompleted = s.numCompleted - (view s.completed).length ∧
      s.abandon.active = s.active :=
  abandonLoop_spec hq _ s (by rw [hq.size]; exact Nat.lt_succ_self _)

/-! ## 古い順のリストの上の集合 -/

theorem mem_take {s s' : SatbSet (List (List Nat))} {b : List Nat} (h : s.take = (some b, s')) :
    b ∈ s.completed := by
  have hhead := (take_spec BufferQueue.fifo_list s).1
  rw [h] at hhead
  exact List.mem_of_mem_head? hhead.symm

theorem take_sublist {s s' : SatbSet (List (List Nat))} {b : Option (List Nat)} (h : s.take = (b, s')) :
    ∀ x ∈ s'.completed, x ∈ s.completed := by
  have htail := (take_spec BufferQueue.fifo_list s).2.1
  rw [h] at htail
  intro x hx
  exact List.mem_of_mem_tail (htail ▸ hx)

@[simp] theorem completed_abandon (s : SatbSet (List (List Nat))) : s.abandon.completed = [] :=
  (abandon_spec BufferQueue.fifo_list s).1

end SatbSet

end RegionMark
