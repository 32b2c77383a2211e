import RegionMark.Json.Basic
import RegionMark.Script.Refusal
import RegionMark.Entry

/-!
# 答えの書き方

失敗は `{"error": 種類, "message": 文面}` と書く。種類は、断りならその理由、エンジンの結果なら
その誤り、検査の失敗なら `panic` である。タスクの項目は `null`、`{"obj": a}`、`{"slice": a}` と書く。
-/

namespace RegionMark.Protocol

open RegionMark.Script

/-- 断りの種類の名前。 -/
def refusalKind : Refusal → String
  | .badInput _ => "BadInput"
  | .limit _ => "DriverLimit"
  | .wouldBlock _ => "WouldBlock"
  | .badHandle _ => "BadHandle"
  | .badRegion _ => "BadRegion"
  | .noEngine => "NoEngine"
  | .noHeap => "NoHeap"
  | .alreadyInit => "AlreadyInit"

/-- エンジンの誤りの種類の名前。 -/
def markErrorKind : MarkError → String
  | .reservation _ => "Reservation"
  | .invalidConfig _ => "InvalidConfig"
  | .stackExhausted _ => "MarkStackExhausted"
  | .cycleAborted => "CycleAborted"
  | .invalidPhase _ _ => "InvalidPhase"

/-- 種類と文面の誤りのオブジェクト。 -/
def errorJson (kind message : String) : Json := .obj [("error", .str kind), ("message", .str message)]

/-- エンジンの誤り。 -/
def markErrorJson (e : MarkError) : Json := errorJson (markErrorKind e) e.message

/-- ステップの失敗。 -/
def failureJson : Failure → Json
  | .refused r => errorJson (refusalKind r) r.message
  | .error e => markErrorJson e
  | .panic p => errorJson "panic" p.message

/-- 値を `f` で書き、失敗はその誤りのオブジェクトにする。 -/
def outcomeJson {α : Type} (f : α → Json) : Except Failure α → Json
  | .ok a => f a
  | .error e => failureJson e

/-- 整数の配列。 -/
def natsJson (xs : List Nat) : Json := .arr (xs.map Json.nat)

/-- 整数の 2 つ組。 -/
def pairJson (p : Nat × Nat) : Json := natsJson [p.1, p.2]

/-- あってもなくてもよい値。ないものは `null`。 -/
def optionJson {α : Type} (f : α → Json) : Option α → Json
  | some a => f a
  | none => .null

/-- タスクの項目。 -/
def entryJson : TaskEntry → Json
  | .null => .null
  | .obj a => .obj [("obj", Json.nat a)]
  | .slice a => .obj [("slice", Json.nat a)]

end RegionMark.Protocol
