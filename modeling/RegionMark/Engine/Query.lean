import RegionMark.Engine.State

/-!
# エンジンへの問い合わせ

マーキングの結果を外から読む。印の付いたオブジェクト、ビットマップの印の数、リージョンごとの生きた
バイト数と入ってくる参照の数を返す。
-/

namespace RegionMark.Engine

/-- 印の付いたオブジェクトの番号（割り当ての順）。 -/
def markedObjects (e : Engine) : List Nat :=
  (List.range e.heap.objects.size).filter fun i => e.isMarked (e.heap.addrOf i)

/-- ビットマップに立っている印の数。オブジェクトでないアドレスの印も数える。 -/
def bitmapMarks (e : Engine) : Except Panic Nat :=
  e.bitmap.countMarked e.bitmap.base (e.bitmap.base + e.bitmap.size)

/-- リージョン `r` が生きたものを持つか：印の付いたバイトか、マーキングの開始後に割り当てたバイトがある。 -/
def containsLive (e : Engine) (r : Nat) : Except Panic Bool := do
  return (← e.liveBytes r) > 0

/-- 生きたものを持たないリージョン。 -/
def emptyRegions (e : Engine) : Except Panic (List Nat) :=
  (List.range e.heap.regionCount).filterM fun r => do return !(← e.containsLive r)

end RegionMark.Engine
