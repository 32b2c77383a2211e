import RegionMark.Protocol.Fields
import RegionMark.Protocol.Reply
import RegionMark.Script.Rendezvous

/-!
# 待ち合わせの要求

バリアと終了判定の人数は、省けばそれぞれ 1 である。
-/

namespace RegionMark.Protocol

open RegionMark.Script

/-- 待ち合わせのステップ。 -/
def syncOpOf : String → Json → Except Failure SyncOp
  | "enter", _ => .ok .enter
  | "barrier_abort", _ => .ok .abortBarrier
  | "set_n", a => return .setWorkers (← natOf "set_n" a)
  | "barrier_new", a => return .newBarrier (← natOf "barrier_new" a)
  | "offer", a => return .offer (← boolOf "offer" a)
  | "offer_none", _ => .ok .offerBlind
  | "reset", a => return .resetTerminator (← natOf "reset" a)
  | "terminator_new", a => return .newTerminator (← natOf "terminator_new" a)
  | "state", _ => .ok .state
  | o, _ => malformed ("unknown sync op " ++ o)

/-- `sync`：バリアと終了判定を作り、`ops` を走らせる。 -/
def answerSync (j : Json) : Except Failure Json := do
  let workers ← natFieldOr j "barrier" 1
  let threads ← natFieldOr j "terminator" 1
  let ops ← stepsOf j "ops" syncOpOf
  return .obj [("results", .arr ((runSync workers threads ops).map (outcomeJson fun (v, s) => .obj [
    ("ok", optionJson Json.bool v), ("barrier_aborted", .bool s.barrier.aborted),
    ("offered", Json.nat s.terminator.offered), ("n_threads", Json.nat s.terminator.threads)])))]

end RegionMark.Protocol
