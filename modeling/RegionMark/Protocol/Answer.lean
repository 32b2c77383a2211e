import RegionMark.Json.Read
import RegionMark.Text.WhiteSpace
import RegionMark.Protocol.Stack
import RegionMark.Protocol.Marks
import RegionMark.Protocol.Deque
import RegionMark.Protocol.Liveness
import RegionMark.Protocol.Snapshot
import RegionMark.Protocol.Roots
import RegionMark.Protocol.Rendezvous
import RegionMark.Protocol.Heap

/-!
# 要求の行に答える

要求は 1 行に 1 つの JSON のオブジェクトで、`op` 欄の文字列が何をするかを決める。答えも 1 行の JSON
である。空白だけの行には答えない。JSON として読めない行には、読めなかった場所を添えて `BadInput` と
答える。
-/

namespace RegionMark.Protocol

open RegionMark.Script

/-- 要求 `op` に答える。 -/
def answerOp (op : String) (j : Json) : Except Failure Json :=
  match op with
  | "bucket_for_index" => answerBucketForIndex j
  | "bucket_capacity" => answerBucketCapacity j
  | "config" => answerConfig j
  | "chunk_allocator" => answerChunkAllocator j
  | "mark_stack" => answerMarkStack j
  | "bitmap" => answerBitmap j
  | "task_queue" => answerTaskQueue j
  | "stats" => answerStats j
  | "satb" => answerSatb j
  | "root_regions" => answerRootRegions j
  | "sync" => answerSync j
  | "heap" => answerHeap j
  | _ => malformed ("unknown op " ++ op)

/-- 読んだ要求に答える。`op` 欄が文字列でなければ断る。 -/
def answer (j : Json) : Json :=
  match j.field? "op" with
  | some (.str op) => outcomeJson id (answerOp op j)
  | _ => errorJson "BadInput" "missing op"

/-- 要求の 1 行への答えの行。行の終わりの改行は除いて読む。空白だけの行には答えない。 -/
def answerLine (line : String) : Option String :=
  let cs := Text.dropLineEnd line.toList
  if cs.all Text.isWhiteSpace then none
  else some <| match Json.parse (String.ofList cs) with
    | .ok j => (answer j).render
    | .error e => (errorJson "BadInput" ("invalid JSON: " ++ e.message)).render

end RegionMark.Protocol
