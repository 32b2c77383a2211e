import RegionMark.Protocol.Fields
import RegionMark.Protocol.Reply
import RegionMark.Script.Liveness

/-!
# リージョンの統計の要求

各ステップの後に、表の `live` と `incoming` の列を書く。
-/

namespace RegionMark.Protocol

open RegionMark.Script

/-- 統計のステップ。 -/
def statsOpOf : String → Json → Except Failure StatsOp
  | "live", a => do let (r, w) ← pairOf "live" a; return .live r w
  | "incoming", a => return .incoming (← natOf "incoming" a)
  | "evict_all", _ => .ok .evictAll
  | "reset", _ => .ok .reset
  | "clear_during_overflow", _ => .ok .clearIncoming
  | "clear_all", _ => .ok .clearAll
  | "global_add", a => do
    match ← arrayOf "global_add" a with
    | [r, l, i] => return .globalAdd (← natOf "region" r) (← natOf "live" l) (← natOf "incoming" i)
    | _ => malformed "global_add: [region, live, incoming]"
  | o, _ => malformed ("unknown stats op " ++ o)

/-- `stats`：表とキャッシュを作り、`ops` を走らせる。追い出しは当たりと外れの数を答える。 -/
def answerStats (j : Json) : Except Failure Json := do
  let regions ← natField j "regions"
  let slots ← natField j "cache_entries"
  let r ← runStats regions slots (stepsOf j "ops" statsOpOf)
  return .obj [("results", .arr (r.map (outcomeJson fun (v, g) => .obj [
    ("ok", optionJson pairJson v), ("live", natsJson g.live.toList),
    ("incoming", natsJson g.incoming.toList)])))]

end RegionMark.Protocol
