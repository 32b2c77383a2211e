import RegionMark.Fault

/-!
# 断り

スクリプトのステップはエンジンに届く前に断られることがある：入力が壊れている、持てるより多くを求める、
いない者をいつまでも待つ、ないオブジェクト、リージョン、エンジンを名指す。
-/

namespace RegionMark.Script

/-- スクリプトがステップを断る理由。 -/
inductive Refusal where
  /-- ステップの入力が壊れている。 -/
  | badInput (message : String)
  /-- ステップがスクリプトの持てるより多くを求める。 -/
  | limit (message : String)
  /-- その呼び出しは 1 つのスレッドをいつまでも止めてしまう。 -/
  | wouldBlock (message : String)
  /-- このハンドルで割り当てたオブジェクトはない。 -/
  | badHandle (handle : Nat)
  /-- ヒープにこの添字のリージョンはない。 -/
  | badRegion (region : Nat)
  /-- エンジンを作る前にエンジンのステップが来た。 -/
  | noEngine
  /-- 失敗したエンジンの構築がヒープを持っていった後に、ヒープのステップが来た。 -/
  | noHeap
  /-- エンジンはもう作ってある。 -/
  | alreadyInit
  deriving DecidableEq, Repr

/-- 断りの報告。 -/
def Refusal.message : Refusal → String
  | .badInput m => m
  | .limit m => m
  | .wouldBlock m => m
  | .badHandle h => "no object handle " ++ toString h
  | .badRegion r => "region " ++ toString r ++ " out of range"
  | .noEngine => "no engine; run init first"
  | .noHeap => "the heap was consumed by a failed init"
  | .alreadyInit => "init may run once"

/-- スクリプトのステップの失敗の仕方。 -/
inductive Failure where
  | refused (r : Refusal)
  | error (e : MarkError)
  | panic (p : Panic)
  deriving DecidableEq, Repr

/-- その失敗でスクリプトが終わるか：パニックはそれより後のステップをすべて飛ばす。 -/
def Failure.isFatal : Failure → Bool
  | .panic _ => true
  | _ => false

/-- パニックを、それに出会ったステップの失敗とする。 -/
def ofPanic {α : Type} : Except Panic α → Except Failure α
  | .ok a => .ok a
  | .error p => .error (.panic p)

end RegionMark.Script
