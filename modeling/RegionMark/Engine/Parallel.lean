import RegionMark.Engine.Step

/-!
# 並行フェーズ

`n` 個のタスクがステップを繰り返し、終了の申し出と、オーバーフローの 2 つのバリアで他を待つ。ここでは
タスクを 1 本の流れの上で順に進め、各タスクの居場所を `Stage` に持ち、`Schedule` が次に進めるものを選ぶ。
-/

namespace RegionMark

/-- 並行フェーズでのタスクの居場所。 -/
inductive Stage where
  /-- 次のステップを始める。 -/
  | ready
  /-- 終了を申し出て待っている。 -/
  | offering
  /-- 最初のバリアで、世代 `generation` が終わるのを待っている。 -/
  | firstBarrier (generation : Nat)
  /-- 2 番目のバリアで、世代 `generation` が終わるのを待っている。 -/
  | secondBarrier (generation : Nat)
  /-- フェーズでの仕事を終えた。 -/
  | done
  deriving DecidableEq, Repr, Inhabited

namespace Stage

/-- 今のエンジンの状態で、この居場所のタスクが進めるか。 -/
def movable (e : Engine) : Stage → Bool
  | .ready => true
  | .offering => e.terminator.offered ≥ e.terminator.threads || e.workTurnedUp
  | .firstBarrier g => e.firstBarrier.generation ≠ g || e.firstBarrier.aborted
  | .secondBarrier g => e.secondBarrier.generation ≠ g || e.secondBarrier.aborted
  | .done => false

end Stage

namespace Marking

/-- ステップを終え、続ける条件 `again` を見て次の居場所を決める。 -/
def finishStep (again : Engine → MarkTask → Bool) : TaskM Stage := do
  endStep
  return if again (← eng) (← task) then .ready else .done

/-- 最初のバリアを抜けたあと：リージョンを離れ、並行フェーズなら 0 番のタスクがやり直しの用意を
して、2 番目のバリアに入る。 -/
def afterFirstBarrier (again : Engine → MarkTask → Bool) : TaskM Stage := do
  modifyTask MarkTask.clearRegion
  if (← eng).concurrent && (← task).id = 0 then
    let e ← check (← eng).restartAfterOverflow
    modify fun s => { s with eng := e }
  let (arrival, b) := (← eng).secondBarrier.enter
  modifyEng fun e => { e with secondBarrier := b }
  match arrival with
  | .waiting => return .secondBarrier b.generation
  | _ => finishStep again

/-- ステップの終わり。オーバーフローで中断したときは統計キャッシュを書き戻して最初のバリアに入る。
バリアが中断されていれば、リージョンを持ったまま抜ける。 -/
def stepTail (again : Engine → MarkTask → Bool) : TaskM Stage := do
  recordTimeout
  if (← task).aborted && (← eng).overflown then
    flushStatsCache
    let (arrival, b) := (← eng).firstBarrier.enter
    modifyEng fun e => { e with firstBarrier := b }
    match arrival with
    | .turnedAway => finishStep again
    | .passed => afterFirstBarrier again
    | .waiting => return .firstBarrier b.generation
  else finishStep again

/-- 並行フェーズのステップを、最初に待つところまで進める。仕事を終えて中断していなければ終了を
申し出る。申し出の時点で仕事が現れていれば、すぐに取り下げる。 -/
def parallelStep (timed : Bool) (again : Engine → MarkTask → Bool) : TaskM Stage := do
  beginStep timed
  stepWork true
  if (← task).aborted then return ← stepTail again
  let e ← eng
  let (offer, terminator) := e.terminator.offer e.workTurnedUp
  modifyEng fun e => { e with terminator }
  match offer with
  | .terminated => checkFinished; stepTail again
  | .withdrawn => modifyTask (fun t => { t with aborted := true }); stepTail again
  | .waiting => return .offering

/-- 待っていたタスクを、次に待つところまで進める。 -/
def resume (timed : Bool) (again : Engine → MarkTask → Bool) : Stage → TaskM Stage
  | .ready => parallelStep timed again
  | .offering => do
    let e ← eng
    if e.terminator.offered ≥ e.terminator.threads then
      checkFinished
    else
      modifyEng fun e => { e with terminator := { e.terminator with offered := e.terminator.offered - 1 } }
      modifyTask fun t => { t with aborted := true }
    stepTail again
  | .firstBarrier g => do
    if (← eng).firstBarrier.generation ≠ g then afterFirstBarrier again else finishStep again
  | .secondBarrier _ => finishStep again
  | .done => pure .done

end Marking

namespace Engine

/-- 並行フェーズのタスクを、全員が終えるまで順に進める。高々 `fuel` 回進める。誰も進めないのに
終えていないタスクがあれば、互いに待ち続けることになる。 -/
def runCrew (timed : Bool) (again : Engine → MarkTask → Bool) :
    Nat → Array Stage → Engine → Except Panic Engine
  | 0, _, _ => throw (.violated "marking tasks did not finish")
  | fuel + 1, stages, e => do
    let movable := (List.range stages.size).filter fun w => (stages.getD w .done).movable e
    match movable with
    | [] =>
      if stages.all (· == .done) then return e
      throw (.violated "marking tasks wait for each other forever")
    | first :: _ =>
      let w := e.schedule.pick e.turns movable
      let w := if movable.contains w then w else first
      let e := { e with turns := e.turns + 1 }
      let (s, e) ← e.withTask w (Marking.resume timed again (stages.getD w .done))
      runCrew timed again fuel (stages.setIfInBounds w s) e

/-- `n` 個のタスクで並行フェーズを走らせる。各タスクは `again` が成り立つあいだステップを繰り返す。 -/
def runParallel (e : Engine) (n : Nat) (timed : Bool) (again : Engine → MarkTask → Bool) :
    Except Panic Engine :=
  runCrew timed again Marking.loopFuel (Array.replicate n .ready) e

end Engine

end RegionMark
