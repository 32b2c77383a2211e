import RegionMark.Protocol.Fields
import RegionMark.Protocol.Reply
import RegionMark.Script.Roots

/-!
# ルートリージョンの要求

範囲は `[start, end]` の 2 つ組で書く。
-/

namespace RegionMark.Protocol

open RegionMark.Script

/-- ルートリージョンのステップ。 -/
def rootOpOf : String → Json → Except Failure RootOp
  | "add", a => do let (s, e) ← pairOf "add" a; return .add s e
  | "prepare", _ => .ok .prepare
  | "claim", _ => .ok .claim
  | "abort", _ => .ok .abort
  | "finished", _ => .ok .finished
  | "cancel", _ => .ok .cancel
  | "reset", _ => .ok .reset
  | "wait", _ => .ok .wait
  | "contains", a => do let (s, e) ← pairOf "contains" a; return .contains s e
  | "state", _ => .ok .state
  | o, _ => malformed ("unknown root_regions op " ++ o)

/-- ルートリージョンのステップの値。 -/
def rootValueJson : RootValue → Json
  | .flag b => .bool b
  | .claimed r => optionJson (fun (r : MemRange) => natsJson [r.start, r.stop]) r
  | .nothing => .null

/-- `root_regions`：空の集合を作り、`ops` を走らせる。 -/
def answerRootRegions (j : Json) : Except Failure Json := do
  let n ← natField j "max"
  let r ← runRoots n (stepsOf j "ops" rootOpOf)
  return .obj [("results", .arr (r.map (outcomeJson fun (v, s) => .obj [("ok", rootValueJson v),
    ("num", Json.nat s.count), ("in_progress", .bool s.scanning), ("aborted", .bool s.aborted)])))]

end RegionMark.Protocol
