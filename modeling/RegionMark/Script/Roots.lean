import RegionMark.Script.Run
import RegionMark.RootRegions

/-!
# ルートリージョンのスクリプト

ルートリージョンのスクリプトは、1 つのスレッドから範囲を加え、取り、走査する。走っている走査を
待つといつまでも止まるので、断る。
-/

namespace RegionMark.Script

/-- ルートリージョンのスクリプトが持てる範囲の最大数。 -/
def maxRootRanges : Nat := 65536

/-- ルートリージョンのスクリプトのステップ。 -/
inductive RootOp where
  | add (start stop : Nat)
  | prepare
  | claim
  | abort
  | finished
  | cancel
  | reset
  | wait
  | contains (start stop : Nat)
  | state
  deriving Repr

/-- ルートリージョンのステップが答えるもの。 -/
inductive RootValue where
  | flag (b : Bool)
  | claimed (r : Option MemRange)
  | nothing

/-- 走査を待つことに答える：走っていなければ `false`、そうでなければ断る。 -/
def waitForScan (s : RootRegions) : Except Failure Bool :=
  if s.scanning then .error (.refused (.wouldBlock "scan in progress")) else .ok false

/-- ルートリージョンのスクリプトのステップを 1 つ走らせる。 -/
def rootStep (s : RootRegions) : RootOp → Except Failure (RootValue × RootRegions)
  | .add a b => ofPanic do
    let (ok, s) ← s.add (← MemRange.new a b)
    return (.flag ok, s)
  | .prepare => ofPanic do return (.nothing, ← s.prepare)
  | .claim => let (r, s) := s.claim; .ok (.claimed r, s)
  | .abort => .ok (.nothing, s.abort)
  | .finished => ofPanic do return (.nothing, ← s.finish)
  | .cancel => .ok (.nothing, s.cancel)
  | .reset => .ok (.nothing, s.reset)
  | .wait => do return (.flag (← waitForScan s), s)
  | .contains a b => ofPanic do return (.flag (s.contains (← MemRange.new a b)), s)
  | .state => .ok (.nothing, s)

/-- `n` 個の枠の空の集合に対して `ops` を走らせ、各値をその後の集合とともに報告する。
ステップの並びは上限を確かめてから読む。 -/
def runRoots (n : Nat) (ops : Except Failure (List (Except Failure RootOp))) :
    Except Failure (List (Except Failure (RootValue × RootRegions))) := do
  if n > maxRootRanges then throw (.refused (.limit "max root regions above 65536"))
  let ops ← ops
  let step (s : RootRegions) (op : RootOp) : Except Failure ((RootValue × RootRegions) × RootRegions) :=
    (rootStep s op).map fun (v, s) => ((v, s), s)
  return (runSteps (atomically step) (RootRegions.new n) ops).1

end RegionMark.Script
