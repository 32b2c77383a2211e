import RegionMark.Script.Run
import RegionMark.TaskQueue

/-!
# タスクキューのスクリプト

タスクキューのスクリプトは数の両端キューを作り、1 つのスレッドから積み、取り出し、盗む。各ステップの
後にキューの長さを報告する。失敗もパニックもスクリプトを止めず、パニックしたステップがそれまでに
積んだものはキューに残る。
-/

namespace RegionMark.Script

/-- タスクキューのスクリプトの最大の容量と、1 ステップでの最大の積み込みの数。 -/
def maxQueueItems : Nat := Nat.pow 2 20

/-- タスクキューのスクリプトのステップ。 -/
inductive QueueOp where
  | push (v : Nat)
  /-- `start, start + 1, …`（`count` 個の値）を積む。 -/
  | pushRun (start count : Nat)
  | pop
  | steal
  | setEmpty
  | state
  deriving Repr

/-- タスクキューのステップが答えるもの。 -/
inductive QueueValue where
  | flag (b : Bool)
  | count (n : Nat)
  | item (v : Option Nat)
  | nothing

/-- 値 `start + i`（`i` は `skip` から `skip + count` 未満）を順に積み、収まった積み込みを数える。値は
積む直前に検査つきの和で求めるので、語に収まらない値に来るとそこでパニックし、それまでに積んだものは
キューに残る。 -/
def pushRun (q : TaskQueue Nat) (start skip : Nat) : Nat → Except Panic Nat × TaskQueue Nat
  | 0 => (.ok 0, q)
  | count + 1 =>
    match Word.add start skip with
    | .error p => (.error p, q)
    | .ok v =>
      let (ok, q) := q.push v
      let (n, q) := pushRun q start (skip + 1) count
      (n.map fun n => if ok then n + 1 else n, q)

/-- タスクキューのスクリプトのステップを 1 つ走らせる。ステップが失敗しても、キューはそのときの
ものが残る。 -/
def queueStep (q : TaskQueue Nat) : QueueOp → Except Failure QueueValue × TaskQueue Nat
  | .push v => let (ok, q) := q.push v; (.ok (.flag ok), q)
  | .pushRun start count =>
    if count > maxQueueItems then (.error (.refused (.limit "push_n count above 2^20")), q)
    else
      let (n, q) := pushRun q start 0 count
      (ofPanic (n.map QueueValue.count), q)
  | .pop => let (v, q) := q.pop; (.ok (.item v), q)
  | .steal => let (v, q) := q.steal; (.ok (.item v), q)
  | .setEmpty => (.ok .nothing, q.setEmpty)
  | .state => (.ok .nothing, q)

/-- キューに対してステップを順に走らせ、各値をその後のキューの長さとともに報告する。読めなかった
ステップはその失敗で代え、どの失敗でも止まらない。 -/
def runQueueOps (q : TaskQueue Nat) : List (Except Failure QueueOp) → List (Except Failure (QueueValue × Nat))
  | [] => []
  | .error f :: rest => .error f :: runQueueOps q rest
  | .ok op :: rest =>
    let (r, q) := queueStep q op
    r.map (·, q.length) :: runQueueOps q rest

/-- `capacity` 個の枠のキューを作って `ops` を走らせ、各値をその後のキューの長さとともに報告する。
ステップの並びはキューができてから読む。 -/
def runQueue (capacity : Nat) (ops : Except Failure (List (Except Failure QueueOp))) :
    Except Failure (List (Except Failure (QueueValue × Nat))) := do
  if capacity > maxQueueItems then throw (.refused (.limit "queue capacity above 2^20"))
  let q ← ofPanic (TaskQueue.new capacity)
  return runQueueOps q (← ops)

end RegionMark.Script
