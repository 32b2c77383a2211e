import RegionMark.Word

/-!
# チャンクのバケット

チャンクの番号 `0, 1, 2, …` は動かないバケットに収まる。バケット 0 は `2 ^ minLog2` 個、バケット `b > 0` は
チャンク `2 ^ (minLog2 + b - 1)` から始まる同じ数のチャンクを持ち、合計を 2 倍にする。
-/

namespace RegionMark.Chunk

/-- チャンク `index` を持つバケットと、その中での位置。 -/
def bucketOf (minLog2 index : Nat) : Nat × Nat :=
  if index < Nat.pow 2 minLog2 then (0, index)
  else
    let b := (index / Nat.pow 2 minLog2).log2 + 1
    (b, index - Nat.pow 2 (minLog2 + b - 1))

/-- バケット `b` のチャンク数。シフト量 `minLog2 + b - 1` は検査つきの算術。 -/
def bucketCapacity (minLog2 b : Nat) : Except Panic Nat :=
  if b = 0 then Word.shl 1 minLog2
  else do
    let s ← Word.add minLog2 b
    Word.shl 1 (s - 1)

end RegionMark.Chunk
