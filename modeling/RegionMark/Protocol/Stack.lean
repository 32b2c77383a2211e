import RegionMark.Protocol.Fields
import RegionMark.Protocol.Reply
import RegionMark.Script.Stack

/-!
# チャンクの割り当て器とマークスタックの要求

タスクの項目は `null`、`{"obj": a}`、`{"slice": a}` のどれかで、両方の欄があれば `obj` をとる。
語にそろわない配列の残りは、項目を読むところで検査に失敗する。
-/

namespace RegionMark.Protocol

open RegionMark.Script

/-- タスクの項目。 -/
def entryOf (j : Json) : Except Failure TaskEntry :=
  match j with
  | .null => .ok .null
  | _ => match j.field? "obj", j.field? "slice" with
    | some a, _ => TaskEntry.ofObj <$> natOf "obj" a
    | none, some a => do ofPanic (TaskEntry.ofSlice (← natOf "slice" a))
    | none, none => malformed "entry must be null, \x7b\"obj\":n\x7d or \x7b\"slice\":n\x7d"

/-- 割り当て器の様子。 -/
def allocatorJson (a : Chunk.Allocator) : Json :=
  .obj [("capacity", Json.nat a.capacity), ("min_capacity", Json.nat a.minCapacity),
    ("max_capacity", Json.nat a.maxCapacity), ("size", Json.nat a.size),
    ("reserved_bytes", Json.nat a.reservedBytes), ("entries_per_chunk", Json.nat a.entriesPerChunk)]

/-- スタックの様子。 -/
def stackJson (s : MarkStack) : Json :=
  .obj [("size", Json.nat s.count), ("is_empty", .bool s.isEmpty), ("capacity", Json.nat s.capacity),
    ("capacity_chunks", Json.nat s.capacityChunks), ("alloc_size", Json.nat s.alloc.size),
    ("min_capacity", Json.nat s.alloc.minCapacity), ("max_capacity", Json.nat s.alloc.maxCapacity),
    ("reserved_bytes", Json.nat s.alloc.reservedBytes), ("should_grow", .bool s.alloc.shouldGrow)]

/-- マークスタックのステップ。 -/
def stackOpOf : String → Json → Except Failure StackOp
  | "push", a => return .push (← listOf "push" entryOf a)
  | "push_n", a => return .pushRun (← natField a "start") (← natField a "count")
  | "pop", a => return .pop (← natField? a "out_len") (((a.field? "fill").map entryOf).getD (.ok .null))
  | "drain", _ => .ok .drain
  | "set_empty", _ => .ok .setEmpty
  | "expand", _ => .ok .expand
  | "allocator_try_expand", _ => .ok .tryExpand
  | "allocator_reset", _ => .ok .resetAllocator
  | "set_should_grow", a => return .setShouldGrow (← boolOf "set_should_grow" a)
  | "state", _ => .ok .state
  | o, _ => malformed ("unknown mark_stack op " ++ o)

/-- マークスタックのステップの値。 -/
def stackValueJson : StackValue → Json
  | .flag b => .bool b
  | .popped ok buf => .obj [("popped", .bool ok), ("out", .arr (buf.map entryJson))]
  | .chunks cs => .arr (cs.map fun c => .arr (c.map entryJson))
  | .refused e => markErrorJson e
  | .nothing => .null

/-- 伸長の結果：成功は `true`。 -/
def grownJson : Except MarkError Unit → Json
  | .ok () => .bool true
  | .error e => markErrorJson e

/-- `chunk_allocator`：割り当て器を作り、`expand_times` 回伸ばす。作るときの誤りは `init` に書く。 -/
def answerChunkAllocator (j : Json) : Except Failure Json := do
  let lo ← natField j "min_chunks"
  let hi ← natField j "max_chunks"
  let epc ← natField j "entries_per_chunk"
  return match ← growAllocator lo hi epc (natFieldOr j "expand_times" 0) with
    | .error e => .obj [("init", markErrorJson e)]
    | .ok g => .obj [("init", allocatorJson g.init), ("expansions", .arr (g.steps.map fun (o, a) =>
        .obj [("ok", grownJson o), ("state", allocatorJson a)]))]

/-- `mark_stack`：スタックを作り、`ops` を走らせる。作るときの誤りは `init` に書く。 -/
def answerMarkStack (j : Json) : Except Failure Json := do
  let lo ← natField j "min_chunks"
  let hi ← natField j "max_chunks"
  let epc ← natField j "entries_per_chunk"
  return match ← runStack lo hi epc (stepsOf j "ops" stackOpOf) with
    | .error e => .obj [("init", markErrorJson e)]
    | .ok r => .obj [("init", stackJson r.init), ("results", .arr (r.steps.map
        (outcomeJson fun (v, s) => .obj [("ok", stackValueJson v), ("state", stackJson s)])))]

end RegionMark.Protocol
