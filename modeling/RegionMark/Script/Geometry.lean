import RegionMark.Script.Refusal
import RegionMark.Chunk.Bucket
import RegionMark.Config

/-!
# チャンクのバケットと設定への問い合わせ

1 回きりの問い：チャンクの添字がどのバケットに入るか、バケットがいくつのチャンクを持つか、設定が
正しいか。バケットの基数は語でなければならないので、63 を超える `minLog2` は断る。
-/

namespace RegionMark.Script

/-- 語にならない基数のバケットの指数を断る。 -/
def checkMinLog2 (minLog2 : Nat) : Except Failure Unit :=
  if minLog2 > 63 then .error (.refused (.limit "min_log2 above 63")) else .ok ()

/-- チャンク `index` のバケットとその中の位置。 -/
def bucketOf (minLog2 index : Nat) : Except Failure (Nat × Nat) := do
  checkMinLog2 minLog2
  return Chunk.bucketOf minLog2 index

/-- バケット `b` のチャンクの数。 -/
def bucketCapacity (minLog2 b : Nat) : Except Failure Nat := do
  checkMinLog2 minLog2
  ofPanic (Chunk.bucketCapacity minLog2 b)

/-- 設定が走らせるワーカーの数と、設定への判定。 -/
def configVerdict (c : MarkConfig) : Nat × Except Failure Unit :=
  (Nat.max c.workers 1,
    match c.check with
    | .error p => .error (.panic p)
    | .ok (.error e) => .error (.error e)
    | .ok (.ok ()) => .ok ())

end RegionMark.Script
