import RegionMark.Word

/-!
# バリアと終了判定

オーバーフローの `Barrier` は全員そろえば通し、中断されていれば帰す。`Terminator` は全員が終了を申し出たかを
決め、仕事が現れれば申し出を取り下げさせる。待つはずの呼び出しは止まらずに `waiting` を返す。
-/

namespace RegionMark

/-- `workers` 個のタスクのための、オーバーフローのバリア。 -/
structure Barrier where
  workers : Nat
  arrived : Nat
  /-- バリアがワーカーを通した回数。 -/
  generation : Nat
  aborted : Bool
  deriving DecidableEq, Repr

/-- バリアに着いた者が出会うこと。 -/
inductive Arrival where
  /-- 最後のワーカーが着いた：全員が通る。 -/
  | passed
  /-- バリアは中断されている。 -/
  | turnedAway
  /-- まだ着いていない者がいる。 -/
  | waiting
  deriving DecidableEq, Repr

namespace Barrier

/-- `n` 個のワーカーのためのバリア。 -/
def new (n : Nat) : Barrier := ⟨n, 0, 0, false⟩

/-- バリアに着く。 -/
def enter (b : Barrier) : Arrival × Barrier :=
  if b.aborted then (.turnedAway, b)
  else if b.arrived + 1 ≥ b.workers then
    (.passed, { b with arrived := 0, generation := b.generation + 1 })
  else (.waiting, { b with arrived := b.arrived + 1 })

/-- 今いる者もこれから来る者も、すべて帰す。 -/
def abort (b : Barrier) : Barrier := { b with aborted := true }

/-- これからは `n` 個のワーカーを受け持つ。誰も着いておらず、中断は解かれる。 -/
def setWorkers (b : Barrier) (n : Nat) : Barrier := { b with workers := n, arrived := 0, aborted := false }

end Barrier

/-- `threads` 個（少なくとも 1 個）のタスクの終了判定。 -/
structure Terminator where
  threads : Nat
  offered : Nat
  deriving DecidableEq, Repr

/-- 終了の申し出が出会うこと。 -/
inductive Offer where
  /-- 全タスクが申し出た：フェーズは終わり。 -/
  | terminated
  /-- 仕事が現れた：申し出は取り下げる。 -/
  | withdrawn
  /-- まだ申し出ていない者がいる。 -/
  | waiting
  deriving DecidableEq, Repr

namespace Terminator

/-- `n` 個（少なくとも 1 個）のタスクの終了判定。 -/
def new (n : Nat) : Terminator := ⟨Nat.max n 1, 0⟩

/-- 終了を申し出る。`exit` は、まだ申し出ていない者がいるあいだに仕事が現れたかを告げる。 -/
def offer (t : Terminator) (exit : Bool) : Offer × Terminator :=
  if t.offered + 1 ≥ t.threads then (.terminated, { t with offered := t.offered + 1 })
  else if exit then (.withdrawn, t)
  else (.waiting, { t with offered := t.offered + 1 })

/-- `n` 個のタスクのために終了判定を構え直す。終了判定の途中であってはならない：誰も申し出ていないか、
全員が申し出ている。 -/
def reset (t : Terminator) (n : Nat) : Except Panic Terminator :=
  if t.offered = 0 || t.offered = t.threads then .ok (Terminator.new n)
  else .error (.violated "terminator reset during a termination attempt")

end Terminator

end RegionMark
