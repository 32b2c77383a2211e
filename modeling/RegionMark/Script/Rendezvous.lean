import RegionMark.Script.Run
import RegionMark.Sync

/-!
# バリアと終了判定のスクリプト

待ち合わせのスクリプトは、オーバーフローのバリアと終了判定を 1 つずつ、1 つのスレッドから動かす。
他のスレッドを待つことになる呼び出しは断り、何も変えない。
-/

namespace RegionMark.Script

/-- 待ち合わせのスクリプトのステップ。 -/
inductive SyncOp where
  | enter
  | abortBarrier
  | setWorkers (n : Nat)
  | newBarrier (n : Nat)
  /-- 終了を申し出る。まだ申し出ていない者がいれば、取り下げる（`true`）か待つ（`false`）。 -/
  | offer (exit : Bool)
  /-- 新しい仕事を知る手立てなしに終了を申し出る。 -/
  | offerBlind
  | resetTerminator (n : Nat)
  | newTerminator (n : Nat)
  | state
  deriving Repr

/-- バリアと終了判定。 -/
structure Rendezvous where
  barrier : Barrier
  terminator : Terminator

/-- 待ち合わせのスクリプトのステップを 1 つ走らせる。`some b` は通過か申し出の答え。 -/
def syncStep (s : Rendezvous) : SyncOp → Except Failure (Option Bool × Rendezvous)
  | .enter => match s.barrier.enter with
    | (.passed, b) => .ok (some true, { s with barrier := b })
    | (.turnedAway, b) => .ok (some false, { s with barrier := b })
    | (.waiting, _) => .error (.refused (.wouldBlock "barrier would wait for other workers"))
  | .abortBarrier => .ok (none, { s with barrier := s.barrier.abort })
  | .setWorkers n => .ok (none, { s with barrier := s.barrier.setWorkers n })
  | .newBarrier n => .ok (none, { s with barrier := Barrier.new n })
  | .offer exit => offerStep exit
  | .offerBlind => offerStep false
  | .resetTerminator n => do
    return (none, { s with terminator := ← ofPanic (s.terminator.reset n) })
  | .newTerminator n => .ok (none, { s with terminator := Terminator.new n })
  | .state => .ok (none, s)
where
  offerStep (exit : Bool) : Except Failure (Option Bool × Rendezvous) :=
    match s.terminator.offer exit with
    | (.terminated, t) => .ok (some true, { s with terminator := t })
    | (.withdrawn, t) => .ok (some false, { s with terminator := t })
    | (.waiting, _) => .error (.refused (.wouldBlock "termination would wait for other tasks"))

/-- `workers` のためのバリアと `threads` のための終了判定に対して `ops` を走らせ、各値をその後の 2 つと
ともに報告する。 -/
def runSync (workers threads : Nat) (ops : List (Except Failure SyncOp)) :
    List (Except Failure (Option Bool × Rendezvous)) :=
  let step (s : Rendezvous) (op : SyncOp) : Except Failure ((Option Bool × Rendezvous) × Rendezvous) :=
    (syncStep s op).map fun (v, s) => ((v, s), s)
  (runSteps (atomically step) (⟨Barrier.new workers, Terminator.new threads⟩ : Rendezvous) ops).1

end RegionMark.Script
