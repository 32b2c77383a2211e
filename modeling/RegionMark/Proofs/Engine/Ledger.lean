import RegionMark.Proofs.Engine.Operations
import RegionMark.Proofs.Stats.Cache
import RegionMark.Proofs.Bitmap.Weight

/-!
# 生きた語の勘定

走っている周期では、リージョンごとに、表の生きた語とタスクのキャッシュの語の和が、語の大きさを法として
印の付いた語に等しい（`Engine.Books`）。印を付けるアドレスが語にそろっていれば、どの一歩もこれを保つ。
-/

namespace RegionMark

namespace Heap

theorem firstAbove_objects (h h' : Heap) (ho : h'.objects = h.objects) (ns : Array Nat)
    (a lo hi : Nat) : h'.firstAbove ns a lo hi = h.firstAbove ns a lo hi := by
  fun_induction h.firstAbove ns a lo hi with
  | case1 lo hi hlt mid hle ih =>
    rw [firstAbove, if_pos hlt]
    simp only [addrOf, ho] at *
    rw [if_pos hle]
    exact ih
  | case2 lo hi hlt mid hle ih =>
    rw [firstAbove, if_pos hlt]
    simp only [addrOf, ho] at *
    rw [if_neg hle]
    exact ih
  | case3 lo hi hlt => rw [firstAbove, if_neg hlt]

@[simp] theorem objectAt?_pending (h : Heap) (p : Array Nat) (a : Nat) :
    ({ h with pending := p } : Heap).objectAt? a = h.objectAt? a := by
  unfold objectAt? find? lastAtOrBelowIn
  simp only [firstAbove_objects h { h with pending := p } rfl]
  rfl

@[simp] theorem references_pending (h : Heap) (p : Array Nat) (a : Nat) :
    ({ h with pending := p } : Heap).references a = h.references a := by
  simp only [references, objectAt?_pending]

@[simp] theorem lastAtOrBelowIn_pending (h : Heap) (p : Array Nat) (r a : Nat) :
    ({ h with pending := p } : Heap).lastAtOrBelowIn r a = h.lastAtOrBelowIn r a := by
  unfold lastAtOrBelowIn
  simp only [firstAbove_objects h { h with pending := p } rfl]

@[simp] theorem resolveElement_pending (h : Heap) (p : Array Nat) (x : Nat) :
    ({ h with pending := p } : Heap).resolveElement x = h.resolveElement x := by
  have hgo : ∀ r fuel, lastAtOrBelow.go { h with pending := p } x r fuel = lastAtOrBelow.go h x r fuel := by
    intro r fuel
    induction fuel generalizing r with
    | zero => rfl
    | succ n ih => simp only [lastAtOrBelow.go, lastAtOrBelowIn_pending, ih]
  unfold resolveElement lastAtOrBelow
  simp only [hgo]
  rfl

/-- マーキングが印を付けうるアドレスは語にそろっている：オブジェクトの参照先、弱い参照の参照先、
終了処理を待つオブジェクト。 -/
structure Aligned (h : Heap) : Prop where
  refs : ∀ a, ∀ b ∈ h.references a, b % Word.bytes = 0
  soft : ∀ b ∈ h.softReferents, b % Word.bytes = 0
  finalizable : ∀ b ∈ h.finalizable, b % Word.bytes = 0

theorem Aligned.pending {h : Heap} (hh : h.Aligned) (p : Array Nat) :
    ({ h with pending := p } : Heap).Aligned where
  refs a b hb := hh.refs a b (by simpa using hb)
  soft := hh.soft
  finalizable := hh.finalizable

end Heap

namespace Engine

/-- リージョン `r` に印の付いた語：立っているビットのうち、その語が `r` にあるものにわたる、そこにある
オブジェクトの語数の和。 -/
def markedWords (e : Engine) (r : Nat) : Nat :=
  e.bitmap.weigh fun a => if e.heap.regionOf? a = some r then e.heap.objectSize a else 0

/-- タスクの統計のキャッシュが、リージョン `r` についてまだ書き戻していない生きた語の和。 -/
def cachedLive (e : Engine) (r : Nat) : Nat := (e.tasks.toList.map fun t => t.cache.cachedLive r).sum

/-- 勘定が崩れないための、ビットマップ、SATB の列、統計の表の形。 -/
structure Tidy (e : Engine) : Prop where
  base : e.bitmap.base % Word.bytes = 0
  /-- ビットの数が、覆う範囲の語をすべて数えきる。 -/
  covers : e.bitmap.size ≤ e.bitmap.words.size * Bitmap.wordBits * Word.bytes
  satb : ∀ buf ∈ e.satb.completed, ∀ b ∈ buf, b % Word.bytes = 0
  bounded : e.stats.LiveBounded

/-- タスクが少なくとも 1 つあり、どのタスクの統計のキャッシュにも枠がある。 -/
structure Crewed (e : Engine) : Prop where
  size : 0 < e.tasks.size
  caches : ∀ t ∈ e.tasks, 0 < t.cache.slots.size

/-- 走っている周期では、リージョンごとに、表の生きた語とキャッシュが持つ語の和が、語の大きさを法として
印の付いた語に等しい。 -/
def Books (e : Engine) : Prop :=
  e.phase ≠ .idle → ∀ r, e.stats.liveWords r + e.cachedLive r ≡ e.markedWords r [MOD Word.bound]

/-- 操作のあいだに保たれる勘定。 -/
structure Balanced (e : Engine) : Prop where
  tidy : e.Tidy
  crewed : e.Crewed
  books : e.Books

/-- ビットマップと生きた語の表が同じで、完了した SATB のバッファが減っただけなら形は保たれる。 -/
theorem Tidy.frame {e e' : Engine} (ht : e.Tidy) (hbm : e'.bitmap = e.bitmap)
    (hsatb : ∀ buf ∈ e'.satb.completed, buf ∈ e.satb.completed) (hlive : e'.stats.live = e.stats.live) :
    e'.Tidy where
  base := hbm ▸ ht.base
  covers := hbm ▸ ht.covers
  satb b hb := ht.satb b (hsatb b hb)
  bounded r := by
    have := ht.bounded r
    simpa only [RegionStats.liveWords, hlive] using this

theorem markedWords_frame {e e' : Engine} (hheap : e'.heap = e.heap) (hbm : e'.bitmap = e.bitmap) :
    e'.markedWords = e.markedWords := by
  unfold markedWords
  rw [hheap, hbm]

theorem liveWords_frame {e e' : Engine} (hlive : e'.stats.live = e.stats.live) :
    e'.stats.liveWords = e.stats.liveWords := by
  unfold RegionStats.liveWords
  rw [hlive]

/-- ヒープ、ビットマップ、生きた語の表、タスクの表が同じで、完了した SATB のバッファが減っただけの
エンジンは、勘定を引き継ぐ。走っていないフェーズに移るか、走っているフェーズから移るなら、フェーズも
変わってよい。 -/
theorem Balanced.frame {e e' : Engine} (hb : e.Balanced) (hheap : e'.heap = e.heap)
    (hbm : e'.bitmap = e.bitmap) (hsatb : ∀ buf ∈ e'.satb.completed, buf ∈ e.satb.completed)
    (hlive : e'.stats.live = e.stats.live) (htasks : e'.tasks = e.tasks)
    (hphase : e'.phase ≠ .idle → e.phase ≠ .idle) : e'.Balanced where
  tidy := hb.tidy.frame hbm hsatb hlive
  crewed := ⟨htasks ▸ hb.crewed.size, fun t ht => hb.crewed.caches t (htasks ▸ ht)⟩
  books hp r := by
    rw [liveWords_frame hlive, markedWords_frame hheap hbm]
    unfold cachedLive
    rw [htasks]
    exact hb.books (hphase hp) r

end Engine

namespace Marking

/-- タスク `w` を取り出したエンジン `e` の上で、走っているタスクを含めた勘定。取り出したタスクの
キャッシュは、エンジンのタスクの表の外にある。 -/
structure Balanced (e : Engine) (w : Nat) (s : Worker) : Prop where
  heap : s.eng.heap.Aligned
  tidy : s.eng.Tidy
  crewed : e.Crewed
  lt : w < e.tasks.size
  cache : 0 < s.task.cache.slots.size
  books : s.eng.phase ≠ .idle → ∀ r, s.eng.stats.liveWords r + s.eng.cachedLive r +
    s.task.cache.cachedLive r ≡ s.eng.markedWords r [MOD Word.bound]

/-- ヒープ、ビットマップ、生きた語の表、タスクの表、フェーズが同じで、完了した SATB のバッファが
減っただけのエンジンの上では、走っているタスクの勘定はそのまま。 -/
theorem Balanced.frame {e : Engine} {w : Nat} {s : Worker} {e' : Engine} (hs : Balanced e w s)
    (hheap : e'.heap = s.eng.heap) (hbm : e'.bitmap = s.eng.bitmap)
    (hsatb : ∀ buf ∈ e'.satb.completed, buf ∈ s.eng.satb.completed)
    (hlive : e'.stats.live = s.eng.stats.live) (htasks : e'.tasks = s.eng.tasks)
    (hphase : e'.phase = s.eng.phase) : Balanced e w ⟨e', s.task⟩ where
  heap := hheap ▸ hs.heap
  tidy := hs.tidy.frame hbm hsatb hlive
  crewed := hs.crewed
  lt := hs.lt
  cache := hs.cache
  books hp r := by
    rw [Engine.liveWords_frame hlive, Engine.markedWords_frame hheap hbm]
    unfold Engine.cachedLive
    rw [htasks]
    exact hs.books (hphase ▸ hp) r

end Marking

namespace Cycle

end Cycle

end RegionMark
