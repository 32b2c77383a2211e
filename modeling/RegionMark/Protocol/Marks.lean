import RegionMark.Protocol.Fields
import RegionMark.Protocol.Reply
import RegionMark.Script.Marks

/-!
# 印のビットマップの要求

印を付けるアドレスは 0 であってはならない。問い合わせのアドレスと範囲には制限がない。
-/

namespace RegionMark.Protocol

open RegionMark.Script

/-- オブジェクトのアドレス：0 でない整数。 -/
def objectAddrOf (k : String) (j : Json) : Except Failure Nat := do
  let a ← natOf k j
  if a = 0 then malformed "object address 0" else return a

/-- ビットマップのステップ。 -/
def bitmapOpOf : String → Json → Except Failure BitmapOp
  | "mark", a => return .mark (← objectAddrOf "mark" a)
  | "mark_many", a => return .markMany ((← arrayOf "mark_many" a).map (objectAddrOf "mark_many"))
  | "is_marked", a => return .isMarked (← natOf "is_marked" a)
  | "next_marked", a => do let (s, e) ← pairOf "next_marked" a; return .nextMarked s e
  | "iterate", a => do
    let some r := a.field? "range" | malformed "missing range"
    let (s, e) ← pairOf "range" r
    return .iterate s e (← natField? a "stop_after")
  | "clear_range", a => do let (s, e) ← pairOf "clear_range" a; return .clearRange s e
  | "clear_all", _ => .ok .clearAll
  | "count_marked", a => do let (s, e) ← pairOf "count_marked" a; return .countMarked s e
  | o, _ => malformed ("unknown bitmap op " ++ o)

/-- ビットマップのステップの値。 -/
def bitmapValueJson : BitmapValue → Json
  | .flag b => .bool b
  | .count n => Json.nat n
  | .found a => optionJson Json.nat a
  | .walked v c => .obj [("visited", natsJson v), ("completed", .bool c)]
  | .nothing => .null

/-- `bitmap`：ビットマップを作り、`ops` を走らせる。 -/
def answerBitmap (j : Json) : Except Failure Json := do
  let base ← natField j "base"
  let size ← natField j "size"
  let r ← runBitmap base size (stepsOf j "ops" bitmapOpOf)
  return .obj [("covered", pairJson r.covered), ("results", .arr (r.steps.map
    (outcomeJson fun (v, t) => .obj [("ok", bitmapValueJson v), ("total", Json.nat t)])))]

end RegionMark.Protocol
