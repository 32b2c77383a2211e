import RegionMark.Protocol.Fields
import RegionMark.Protocol.Reply
import RegionMark.Script.Geometry

/-!
# 構成とバケットの要求

構成は `config` 欄のオブジェクトから読む。欄は決まった順に読み、なければ標準の値をとる。標準は
ワーカー 1 個の構成で、ステップの時間だけは 1 時間とする。`config` 欄がなければ標準の構成を使い、
オブジェクトでない `config` は断る。
-/

namespace RegionMark.Protocol

open RegionMark.Script

/-- 要求が欄を省いたときの構成。 -/
def defaultConfig : MarkConfig := { MarkConfig.withWorkers 1 with stepMillis := 3600000 }

/-- オブジェクト `o` の欄から構成を読む。 -/
def configOf (o : Json) : Except Failure MarkConfig := do
  let b := defaultConfig
  let workers ← natFieldOr o "num_workers" b.workers
  let entriesPerChunk ← natFieldOr o "entries_per_chunk" b.entriesPerChunk
  let minChunks ← natFieldOr o "min_chunks" b.minChunks
  let maxChunks ← natFieldOr o "max_chunks" b.maxChunks
  let queueCapacity ← natFieldOr o "task_queue_capacity" b.queueCapacity
  let sliceStride ← natFieldOr o "array_slice_stride" b.sliceStride
  let statsCacheEntries ← natFieldOr o "stats_cache_entries" b.statsCacheEntries
  let stepMillis ← natFieldOr o "step_ms" b.stepMillis
  let restartLimit ← natField? o "max_overflow_restarts"
  return ⟨workers, entriesPerChunk, minChunks, maxChunks, queueCapacity, stepMillis, sliceStride,
    statsCacheEntries, restartLimit⟩

/-- 要求の `config` 欄の構成。欄がなければ標準の構成、オブジェクトでなければ断る。 -/
def requestConfig (j : Json) : Except Failure MarkConfig :=
  match j.field? "config" with
  | none => .ok defaultConfig
  | some (.obj kvs) => configOf (.obj kvs)
  | some _ => malformed "config must be an object"

/-- `bucket_for_index`：チャンクの添字のバケットとその中の位置。 -/
def answerBucketForIndex (j : Json) : Except Failure Json := do
  let m ← natField j "min_log2"
  let i ← natField j "index"
  return outcomeJson (fun (b, o) => .obj [("bucket", Json.nat b), ("offset", Json.nat o)]) (bucketOf m i)

/-- `bucket_capacity`：バケットのチャンクの数。 -/
def answerBucketCapacity (j : Json) : Except Failure Json := do
  let m ← natField j "min_log2"
  let b ← natField j "bucket"
  return outcomeJson (fun c => .obj [("capacity", Json.nat c)]) (bucketCapacity m b)

/-- `config`：構成への判定と、走るワーカーの数。検査の失敗は数を添えない。 -/
def answerConfig (j : Json) : Except Failure Json := do
  let (w, v) := configVerdict (← requestConfig j)
  let workers := ("clamped_workers", Json.nat w)
  return match v with
    | .ok () => .obj [workers, ("ok", .bool true)]
    | .error (.panic p) => errorJson "panic" p.message
    | .error e => match failureJson e with
      | .obj kvs => .obj (kvs ++ [workers])
      | other => other

end RegionMark.Protocol
