import RegionMark.Engine.Parallel
import RegionMark.Engine.Query

/-!
# マーキング周期のフェーズ

周期は `Idle` からルートリージョンの走査、並行マーキング、再マーク、後片付けを経て `Idle` に戻り、再マークで
オーバーフローが見つかれば並行マーキングに戻る。各フェーズの操作は決まったフェーズでしか受け付けず、
失敗しても、それまでに変えたエンジンの状態は残す。
-/

namespace RegionMark

/-- フェーズの操作の計算。失敗 `MarkError` のときも、エンジンの状態は残る。 -/
abbrev CycleM := ExceptT MarkError (StateT Engine (Except Panic))

/-- 再マークの結果。 -/
inductive RemarkOutcome where
  /-- マーキングが終わった。 -/
  | completed
  /-- 大域スタックがあふれた。状態をやり直し、並行マーキングに戻った。 -/
  | restartForOverflow
  deriving DecidableEq, Repr

namespace Cycle

/-- 検査に失敗しうる計算を持ち上げる。 -/
def lift {α : Type} (x : Except Panic α) : CycleM α := liftM (StateT.lift x : StateT Engine (Except Panic) α)

/-- エンジンを、その場で書き換えながら `f` に渡す。 -/
def update {α : Type} (f : Engine → Except Panic (α × Engine)) : CycleM α := ExceptT.lift f

/-- エンジンの上でタスク `w` を走らせる。 -/
def onTask {α : Type} (w : Nat) (m : TaskM α) : CycleM α := update fun e => e.withTask w m

/-- フェーズが `expected` であることを求める。 -/
def checkPhase (expected : Phase) : CycleM Unit := do
  let actual := (← get).phase
  if actual ≠ expected then throw (.invalidPhase expected actual)

/-- フェーズを `src` から `dst` に移す。 -/
def transition (src dst : Phase) : CycleM Unit := do
  checkPhase src
  modify fun e => { e with phase := dst }

/-- 中断されたフェーズの失敗を返す。 -/
def checkInterruption : CycleM Unit := do
  if let some err := (← get).interruption then throw err

/-- 次のフェーズに加わるタスクの数と、並行に走るかを決める。 -/
def setConcurrency (n : Nat) (concurrent : Bool) : CycleM Unit := do
  set (← lift ((← get).setConcurrency n concurrent))

/-- ビットマップをリージョンごとに消す。中断されていれば何も消さずに失敗する。 -/
def clearBitmapLocked : CycleM Unit := do
  if (← get).aborted then throw .cycleAborted
  modify fun e => { e with bitmap := e.bitmap.clearAll, bitmapDirty := false }

/-- 周期を始める。前の周期の印が残っていればビットマップを消し、マーキングの状態を初めに戻し、
SATB の記録を始める。 -/
def start : CycleM Unit := do
  checkPhase .idle
  modify fun e => { e with aborted := false }
  if (← get).bitmapDirty then clearBitmapLocked
  modify fun e =>
    let e := e.resetForCycle
    { e with tasks := e.tasks.map MarkTask.reset, restartForOverflow := false,
             satb := { e.satb with active := true }, cycle := e.cycle + 1, bitmapDirty := true }
  transition .idle .scanRootRegions

/-- ルートリージョンを加える。加えたあとの数を返す。 -/
def addRootRegion (r : MemRange) : CycleM Nat := do
  checkPhase .scanRootRegions
  let (ok, roots) ← lift ((← get).roots.add r)
  modify fun e => { e with roots }
  if !ok then throw (.invalidConfig "too many root regions")
  return (← get).roots.count

/-- ルートのオブジェクトに印を付け、大きさを統計に直接加える。印を付けたかを返す。フェーズは問わない。 -/
def markRoot (a : Nat) : StateT Engine (Except Panic) Bool := fun e => do
  let (hit, e) ← e.tryMark a
  match hit with
  | none => return (false, e)
  | some (r, words) =>
    let g := e.stats
    let e := { e with stats := default }
    let g ← g.add r words 0
    return (true, { e with stats := g })

namespace Marking

open RegionMark.Marking

/-- ルートリージョンの中に始まるオブジェクトについて、その参照先に印を付ける（走査はしない）。
走査が中断されていれば止める。 -/
def scanRootRegion (r : MemRange) : TaskM Unit := do
  for a in (← eng).heap.objectsIn r.start r.stop do
    if (← eng).roots.aborted then return
    for b in (← eng).heap.references a do
      let _ ← markInBitmap b

/-- ルートリージョンを取っては走査する。高々 `fuel` 個。 -/
def scanRootsLoop : Nat → TaskM Unit
  | 0 => pure ()
  | fuel + 1 => do
    let (r, roots) := (← eng).roots.claim
    let some r := r | return
    modifyEng fun e => { e with roots }
    scanRootRegion r
    scanRootsLoop fuel

end Marking

/-- ルートリージョンをすべて走査し、並行マーキングに移る。 -/
def scanRootRegions : CycleM Unit := do
  checkPhase .scanRootRegions
  let roots ← lift (← get).roots.prepare
  modify fun e => { e with roots }
  let count := roots.count
  if count > 0 then
    for w in List.range (Nat.min (← get).workers count) do
      onTask w do
        Marking.scanRootsLoop (count + 1)
        RegionMark.Marking.flushStatsCache
        RegionMark.Marking.flushCounts
  let e ← get
  let aborted := e.roots.aborted || e.aborted
  let roots ← if aborted then pure e.roots.cancel else lift e.roots.finish
  modify fun e => { e with roots }
  if aborted then throw .cycleAborted
  transition .scanRootRegions .concurrentMark

/-- 全タスクの並行マーキング。オーバーフローはやり直して片付けるので、終わるのは走査が尽きたときか、
中断されたとき。 -/
def markFromRoots : CycleM Unit := do
  checkPhase .concurrentMark
  modify fun e => { e with restartForOverflow := false }
  let n := (← get).workers
  setConcurrency n true
  update fun e => do return ((), ← e.runParallel n true fun e t => !e.aborted && t.aborted)
  checkInterruption

/-- 見つかった弱い参照の参照先を、単独のタスクで並行に生かす。 -/
def preclean : CycleM Unit := do
  checkPhase .concurrentMark
  setConcurrency 1 true
  let referents := (← get).heap.softReferents.toList
  onTask 0 do
    let mut n := 0
    for a in referents do
      if (← RegionMark.Marking.eng).aborted then break
      n ← RegionMark.Marking.keepAlive true n a
    RegionMark.Marking.drainSerially false true RegionMark.Marking.loopFuel
  checkInterruption

/-- 参照処理。大域スタックは上限まで伸びてよく、そこであふれたら取り返しがつかない。弱い参照の
参照先を生かし、生きていない終了処理待ちのオブジェクトを生き返らせて記録する。 -/
def weakRefsWork : CycleM Unit := do
  modify fun e => { e with stack := e.stack.setShouldGrow true }
  setConcurrency 1 false
  let h := (← get).heap
  onTask 0 do
    let mut n := 0
    for a in h.softReferents.toList do
      n ← RegionMark.Marking.keepAlive false n a
    let mut pending := #[]
    for a in h.finalizable.toList do
      if !(← RegionMark.Marking.eng).isLive a then
        n ← RegionMark.Marking.keepAlive false n a
        pending := pending.push a
    RegionMark.Marking.modifyEng fun e => { e with heap := { e.heap with pending } }
    RegionMark.Marking.drainSerially false true RegionMark.Marking.loopFuel
  modify fun e => { e with stack := e.stack.setShouldGrow false }
  let e ← get
  if e.overflown then
    set { e with stack := e.stack.setEmpty, overflown := false }
    throw (.stackExhausted e.stack.alloc.maxCapacity)

/-- 再マークの本体。 -/
def remarkLocked : CycleM RemarkOutcome := do
  let n := (← get).workers
  setConcurrency n false
  update fun e => do return ((), ← e.runParallel n false fun e t => t.aborted && !e.overflown && !e.aborted)
  checkInterruption
  if (← get).overflown then
    modify fun e => { e with restartForOverflow := true }
    set (← lift (← get).restartAfterOverflow)
    checkInterruption
    transition .remark .concurrentMark
    return .restartForOverflow
  weakRefsWork
  modify fun e => { e with satb := { e.satb.abandon with active := false } }
  return .completed

/-- 再マーク：ミューテータを止めてマーキングを終え、参照を処理し、SATB の記録を止める。 -/
def remark : CycleM RemarkOutcome := do
  transition .concurrentMark .remark
  remarkLocked

/-- 後片付け：生きたものを持たないリージョンを返す。 -/
def cleanup : CycleM (List Nat) := do
  transition .remark .cleanup
  lift (← get).emptyRegions

/-- 後片付けのあとで周期を終える。 -/
def finish : CycleM Unit := do
  transition .cleanup .idle
  modify fun e => { e with concurrent := false,
                           metrics := { e.metrics with cyclesCompleted := e.metrics.cyclesCompleted + 1 } }

/-- 走っている周期を中断して `Idle` に戻す。周期が走っていなければ `false`。 -/
def abort : StateT Engine (Except Panic) Bool := do
  let e ← get
  set { e with phase := .idle }
  if e.phase = .idle then return false
  modify fun e =>
    let e := e.abortThreads
    { e with roots := e.roots.cancel, satb := { e.satb.abandon with active := false } }
  return true

/-- `Idle` でビットマップを消す。 -/
def clearBitmap : CycleM Unit := do
  checkPhase .idle
  modify fun e => { e with aborted := false }
  clearBitmapLocked

/-- 並行マーキング、先行の参照処理、再マークを、再マークが終わるまで繰り返す。高々 `fuel` 回。 -/
def markUntilRemarked : Nat → CycleM Unit
  | 0 => lift (throw (.violated "marking did not reach a completed remark"))
  | fuel + 1 => do
    markFromRoots
    preclean
    if (← remark) = .completed then return
    markUntilRemarked fuel

/-- 始まった周期を終わりまで進め、生きたものを持たないリージョンを返す。大域スタックが尽きたら、
周期を中断してから失敗を返す。 -/
def runCycle : CycleM (List Nat) := do
  let phases : CycleM (List Nat) := do
    scanRootRegions
    markUntilRemarked RegionMark.Marking.loopFuel
    let empty ← cleanup
    finish
    return empty
  tryCatch phases fun err => do
    if let .stackExhausted _ := err then
      let _ ← (abort : StateT Engine (Except Panic) Bool)
    throw err

end Cycle

end RegionMark
