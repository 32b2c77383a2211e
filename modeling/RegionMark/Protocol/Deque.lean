import RegionMark.Protocol.Fields
import RegionMark.Protocol.Reply
import RegionMark.Script.Deque

/-!
# タスクキューの要求

積む値は語に収まる非負の整数で、そうでない値は `push: integer` と断る。
-/

namespace RegionMark.Protocol

open RegionMark.Script

/-- タスクキューのステップ。 -/
def queueOpOf : String → Json → Except Failure QueueOp
  | "push", a => match a.word? with
    | some v => .ok (.push v)
    | none => malformed "push: integer"
  | "push_n", a => do let (s, n) ← pairOf "push_n" a; return .pushRun s n
  | "pop", _ => .ok .pop
  | "steal", _ => .ok .steal
  | "set_empty", _ => .ok .setEmpty
  | "state", _ => .ok .state
  | o, _ => malformed ("unknown task_queue op " ++ o)

/-- タスクキューのステップの値。 -/
def queueValueJson : QueueValue → Json
  | .flag b => .bool b
  | .count n => Json.nat n
  | .item v => optionJson Json.nat v
  | .nothing => .null

/-- `task_queue`：キューを作り、`ops` を走らせる。 -/
def answerTaskQueue (j : Json) : Except Failure Json := do
  let c ← natField j "capacity"
  let r ← runQueue c (stepsOf j "ops" queueOpOf)
  return .obj [("capacity", Json.nat c), ("results", .arr (r.map (outcomeJson fun (v, n) =>
    .obj [("ok", queueValueJson v), ("len", Json.nat n), ("is_empty", .bool (n == 0))])))]

end RegionMark.Protocol
