/-!
# 配列の要素をその場で書き換える

`updateSlot` は要素を既定値と入れ替えて取り出してから関数に渡すので、配列がほかから指されていなければ
中身もその場で書き換わる。値としては `Array.modify` と同じである。
-/

namespace RegionMark

/-- 配列 `xs` の `i` 番目を `f` で書き換える。`i` が範囲外なら何もしない。 -/
def updateSlot {α : Type} [Inhabited α] (xs : Array α) (i : Nat) (f : α → α) : Array α :=
  if h : i < xs.size then
    let (x, xs) := xs.swapAt i default h
    xs.setIfInBounds i (f x)
  else xs

end RegionMark
