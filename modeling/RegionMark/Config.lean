import RegionMark.Word

/-!
# エンジンの構成

`MarkConfig` はエンジンの大きさと上限をまとめる。`MarkConfig.check` は構成を受け付けるか、決まった
順で調べて最初に破られた規則を挙げる。
-/

namespace RegionMark

/-- マーキングエンジンの大きさと上限。 -/
structure MarkConfig where
  /-- 並んで走るマーキングタスクの数。 -/
  workers : Nat
  /-- 大域マークスタックの 1 チャンクあたりの項目数。 -/
  entriesPerChunk : Nat
  /-- 大域マークスタックが持つチャンクの最小数。 -/
  minChunks : Nat
  /-- 大域マークスタックが伸びてよいチャンクの最大数。 -/
  maxChunks : Nat
  /-- 各タスクのローカルキューの容量。 -/
  queueCapacity : Nat
  /-- 並行マーキングの 1 ステップに許す時間（ミリ秒）。 -/
  stepMillis : Nat
  /-- 大きな配列を区切って走査するときの、1 区切りの要素数。 -/
  sliceStride : Nat
  /-- 各タスクのリージョン統計キャッシュの枠数。 -/
  statsCacheEntries : Nat
  /-- スタックが伸びられなくなってから許すオーバーフローのやり直しの回数。`none` なら何度でも許す。 -/
  restartLimit : Option Nat
  deriving DecidableEq, Repr

/-- `n` 個（少なくとも 1 個）のワーカーの標準の構成。 -/
def MarkConfig.withWorkers (n : Nat) : MarkConfig where
  workers := Nat.max n 1
  entriesPerChunk := 1023
  minChunks := 32
  maxChunks := 4096
  queueCapacity := 16 * 1024
  stepMillis := 10
  sliceStride := 2048
  statsCacheEntries := 1024
  restartLimit := none

/-- `stepMillis` のステップがいつも仕事より長く、結果が時間にもワーカーの入り組み方にもよらないか。 -/
def MarkConfig.deterministic (c : MarkConfig) : Bool :=
  c.workers == 1 && c.stepMillis ≥ 1000

/-- 規則を調べる順で、`c` が最初に破る規則。`entriesPerChunk` を 2 倍するところは検査つきの算術。 -/
def MarkConfig.check (c : MarkConfig) : Except Panic (Except MarkError Unit) := do
  let bad (reason : String) : Except Panic (Except MarkError Unit) :=
    pure (.error (.invalidConfig reason))
  if c.workers = 0 then return ← bad "num_workers must be at least 1"
  if c.entriesPerChunk = 0 then return ← bad "entries_per_chunk must be at least 1"
  if c.minChunks = 0 || c.maxChunks < c.minChunks then
    return ← bad "mark stack chunk limits must satisfy 0 < min <= max"
  if !Word.isPow2 c.queueCapacity then return ← bad "task_queue_capacity must be a power of two"
  let twoChunks ← Word.mul 2 c.entriesPerChunk
  if c.queueCapacity < twoChunks then
    return ← bad "task_queue_capacity must hold at least two chunks"
  if c.sliceStride = 0 then return ← bad "array_slice_stride must be at least 1"
  if !Word.isPow2 c.statsCacheEntries then
    return ← bad "stats_cache_entries must be a power of two"
  if c.stepMillis = 0 then return ← bad "step_duration must be positive"
  return .ok ()

end RegionMark
