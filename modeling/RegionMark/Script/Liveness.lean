import RegionMark.Script.Run
import RegionMark.Stats

/-!
# リージョンの統計のスクリプト

統計のスクリプトはリージョンの表とその前に置くキャッシュを 1 つ作り、キャッシュを通して加え、追い
出し、戻し、直接加える。各ステップの後に表全体を報告する。
-/

namespace RegionMark.Script

/-- 統計のスクリプトのリージョンの最大数。 -/
def maxStatsRegions : Nat := 4096

/-- 統計のスクリプトのキャッシュの枠の最大数。 -/
def maxCacheSlots : Nat := 65536

/-- 統計のスクリプトのステップ。 -/
inductive StatsOp where
  | live (r words : Nat)
  | incoming (r : Nat)
  | evictAll
  | reset
  | clearIncoming
  | clearAll
  | globalAdd (r live incoming : Nat)
  deriving Repr

/-- 表とその前のキャッシュ。 -/
structure CachedStats where
  cache : StatsCache
  table : RegionStats

/-- 統計のスクリプトのステップを 1 つ走らせる。追い出しは当たりと外れを答える。 -/
def statsStep (s : CachedStats) : StatsOp → Except Panic (Option (Nat × Nat) × CachedStats)
  | .live r w => do
    let (c, g) ← s.cache.addLive s.table r w
    return (none, ⟨c, g⟩)
  | .incoming r => do
    let (c, g) ← s.cache.addIncoming s.table r
    return (none, ⟨c, g⟩)
  | .evictAll => do
    let (hm, c, g) ← s.cache.evictAll s.table
    return (some hm, ⟨c, g⟩)
  | .reset => pure (none, { s with cache := s.cache.reset })
  | .clearIncoming => pure (none, { s with table := s.table.clearIncoming })
  | .clearAll => pure (none, { s with table := s.table.clearAll })
  | .globalAdd r l i => do return (none, { s with table := ← s.table.add r l i })

/-- `regions` 個の表と `slots` 個のキャッシュを作って `ops` を走らせ、各値をその後の表とともに報告する。
ステップの並びはキャッシュができてから読む。 -/
def runStats (regions slots : Nat) (ops : Except Failure (List (Except Failure StatsOp))) :
    Except Failure (List (Except Failure (Option (Nat × Nat) × RegionStats))) := do
  if regions > maxStatsRegions || slots > maxCacheSlots then
    throw (.refused (.limit "regions above 4096 or cache entries above 65536"))
  let c ← ofPanic (StatsCache.new slots)
  let ops ← ops
  let step (s : CachedStats) (op : StatsOp) :
      Except Failure ((Option (Nat × Nat) × RegionStats) × CachedStats) :=
    ofPanic ((statsStep s op).map fun (v, s) => ((v, s.table), s))
  return (runSteps (atomically step) ⟨c, RegionStats.new regions⟩ ops).1

end RegionMark.Script
