import RegionMark.Engine.Task

/-!
# マーキングのステップ

1 回のステップは SATB バッファを処理し、キューと大域スタックを減らし、リージョンを取って歩き、最後に
両方を空にする。並行フェーズのタスクはそのあと他のキューから盗み、終了を申し出る。
-/

namespace RegionMark

namespace Engine

/-- 終了を待つタスクが仕事に戻るべきか：オーバーフローがある、大域スタックかいずれかのキューに
仕事がある、または並行フェーズで周期が中断されたか SATB バッファがたまっている。 -/
def workTurnedUp (e : Engine) : Bool :=
  e.overflown || !e.stack.isEmpty || e.activeQueues.any (fun q => !q.isEmpty) ||
    (e.concurrent && (e.aborted || e.satb.shouldProcess))

end Engine

namespace Marking

/-- ステップの始め。数を 0 に戻して限度を置き直す。前のステップのオーバーフローが残っていれば、
初めから中断したものとする。 -/
def beginStep (timed : Bool) : TaskM Unit := do
  let e ← eng
  modifyTask fun t => { t with concurrent := e.concurrent, timed, wordsScanned := 0, refsReached := 0 }
  recalculateLimits
  modifyTask fun t =>
    { t with aborted := e.overflown, timedOut := false, drainingSatb := false, calls := t.calls + 1 }

/-- リージョンを持たないタスクがリージョンを取る。TAMS の下が空のリージョンは飛ばし、1 つ取るたびに
クロックを回す。高々 `fuel` 回。 -/
def claimLoop : Nat → TaskM Unit
  | 0 => pure ()
  | fuel + 1 => do
    if (← task).aborted || (← task).region.isSome || (← eng).outOfRegions then return
    let (r, e) := (← eng).claimRegion
    modify fun s => { s with eng := e }
    if let some r := r then setupForRegion r
    regularClockCall
    claimLoop fuel

/-- 今のリージョンをたどり、途中まで減らし、次のリージョンを取る。リージョンがなくなるか中断する
まで繰り返す。1 回ごとにリージョンを 1 つ使うので、リージョンの数より 2 多い `fuel` で足りる。 -/
def regionLoop : Nat → TaskM Unit
  | 0 => pure ()
  | fuel + 1 => do
    if !(← task).aborted && (← task).region.isSome then scanCurrentRegion
    drainLocalQueue true
    drainGlobalStack true
    claimLoop ((← eng).heap.regionCount + 1)
    if (← task).region.isNone || (← task).aborted then return
    regionLoop fuel

/-- 盗めるあいだ盗み、盗んだものを走査してから両方を空にする。高々 `fuel` 回。 -/
def stealLoop : Nat → TaskM Unit
  | 0 => pure ()
  | fuel + 1 => do
    if (← task).aborted then return
    modifyTask fun t => { t with counts := { t.counts with stealAttempts := t.counts.stealAttempts + 1 } }
    let some x ← trySteal | return
    modifyTask fun t => { t with counts := { t.counts with stealSuccesses := t.counts.stealSuccesses + 1 } }
    scanTaskEntry x
    drainLocalQueue false
    drainGlobalStack false
    stealLoop fuel

/-- ステップの本体のうち、終了の申し出の手前まで。`steal` のときは最後に他のタスクから盗む。 -/
def stepWork (steal : Bool) : TaskM Unit := do
  drainSatbBuffers
  drainLocalQueue true
  drainGlobalStack true
  regionLoop ((← eng).heap.regionCount + 2)
  if !(← task).aborted then
    if !(← eng).outOfRegions then violated "regions left after the claim loop"
    drainSatbBuffers
  drainLocalQueue false
  drainGlobalStack false
  if steal then stealLoop loopFuel

/-- 終了が決まったタスクの確かめ：リージョンが残らず、ローカルキューが空で、オーバーフローがない。 -/
def checkFinished : TaskM Unit := do
  let e ← eng
  if !e.outOfRegions then violated "terminated with regions left"
  if !(e.queue (← task).id).isEmpty then violated "terminated with local work"
  if e.overflown then violated "terminated with overflow pending"

/-- 時間切れで中断したステップを数える。 -/
def recordTimeout : TaskM Unit := do
  let t ← task
  if t.aborted && t.timedOut then
    modifyEng fun e => { e with metrics := { e.metrics with stepTimeouts := e.metrics.stepTimeouts + 1 } }

/-- ステップの終わり：統計キャッシュを書き戻し、数えたものを計量に加える。 -/
def endStep : TaskM Unit := do
  flushStatsCache
  flushCounts

/-- 単独で走るタスクのステップ。盗まず、終了を申し出ず、オーバーフローのバリアも通らない。
オーバーフローで中断したときは、リージョンを離れるだけで、やり直しは呼び出し側に任せる。 -/
def serialStep (timed doTermination : Bool) : TaskM Unit := do
  beginStep timed
  stepWork false
  if doTermination && !(← task).aborted then checkFinished
  recordTimeout
  if (← task).aborted && (← eng).overflown then
    flushStatsCache
    modifyTask MarkTask.clearRegion
  endStep

/-- 単独のタスクでステップを繰り返す。中断せずに終わるか、オーバーフローか周期の中断でこれ以上
続けても無駄になったら止める。高々 `fuel` 回。 -/
def drainSerially (timed doTermination : Bool) : Nat → TaskM Unit
  | 0 => pure ()
  | fuel + 1 => do
    serialStep timed doTermination
    if !(← task).aborted || (← eng).overflown || (← eng).aborted then return
    drainSerially timed doTermination fuel

/-- 参照処理で見つかった参照先を生かし、`1000` 個ごとに単独のステップで減らす。`n` はこれまでに
生かした数。 -/
def keepAlive (timed : Bool) (n a : Nat) : TaskM Nat := do
  dealWithReference a
  if n + 1 ≥ 1000 then
    drainSerially timed false loopFuel
    return 0
  return n + 1

end Marking

end RegionMark
