import RegionMark.Protocol.Fields
import RegionMark.Protocol.Marks
import RegionMark.Script.Snapshot

/-!
# SATB の要求

列に加えるアドレスは 0 であってはならない。記録するアドレスも同じだが、それはバッファを確かめてから断る。新しいバッファの容量は、省けば標準の値になる。
-/

namespace RegionMark.Protocol

open RegionMark.Script

/-- SATB のステップ。 -/
def satbOpOf : String → Json → Except Failure SatbOp
  | "set_active", a => return .setActive (← boolOf "set_active" a)
  | "new_buffer", a => match a with
    | .null => .ok (.newBuffer defaultSatbCapacity)
    | _ => return .newBuffer (← natOf "new_buffer" a)
  | "record", a => do let (b, x) ← pairOf "record" a; return .record b x
  | "flush", a => return .flush (← natOf "buffer" a)
  | "enqueue", a => return .enqueue (← objectAddrOf "enqueue" a)
  | "enqueue_buffer", a => return .enqueueBuffer (← listOf "enqueue_buffer" (objectAddrOf "enqueue_buffer") a)
  | "apply", _ => .ok .apply
  | "abandon", _ => .ok .abandon
  | "state", _ => .ok .state
  | o, _ => malformed ("unknown satb op " ++ o)

/-- SATB のステップの値。 -/
def satbValueJson : SatbValue → Json
  | .id n => Json.nat n
  | .taken b => optionJson natsJson b
  | .nothing => .null

/-- `satb`：働いていない集合を作り、`ops` を走らせる。 -/
def answerSatb (j : Json) : Except Failure Json := do
  let threshold ← natFieldOr j "threshold" 0
  let ops ← stepsOf j "ops" satbOpOf
  return .obj [("results", .arr ((runSatb threshold ops).map (outcomeJson fun (v, sc) => .obj [
    ("ok", satbValueJson v), ("completed", Json.nat sc.set.count),
    ("process", .bool sc.set.shouldProcess), ("active", .bool sc.set.active),
    ("buffers", natsJson (sc.buffers.toList.map fun b => b.entries.size))])))]

end RegionMark.Protocol
