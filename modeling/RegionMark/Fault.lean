import RegionMark.Phase

/-!
# 失敗

操作は、結果を返すほかに 2 通りの終わり方をする。`MarkError` は、エンジンを呼んだ側が受けて対処する
結果である。`Panic` は検査の失敗（算術のあふれ、表の終わりを越えた添字、満たされない前提）で、
それより後をすべて止める。どちらにも報告の文面が 1 つずつあり、ここで定める。
-/

namespace RegionMark

/-- あふれを検査する算術演算。 -/
inductive ArithOp where
  | add
  | sub
  | mul
  | shl
  deriving DecidableEq, Repr

/-- 失敗した検査。 -/
inductive Panic where
  /-- `op` の正確な結果が 1 語に収まらない。 -/
  | overflow (op : ArithOp)
  /-- `len` 個の項目の表を、添字 `index` で読み書きした。 -/
  | outOfBounds (len index : Nat)
  /-- 述べられた前提か、内部の不変条件が成り立たない。 -/
  | violated (message : String)
  deriving DecidableEq, Repr

/-- あふれの報告での、算術演算の動詞。 -/
def ArithOp.verb : ArithOp → String
  | .add => "add"
  | .sub => "subtract"
  | .mul => "multiply"
  | .shl => "shift left"

/-- 失敗した検査の報告。 -/
def Panic.message : Panic → String
  | .overflow op => "attempt to " ++ op.verb ++ " with overflow"
  | .outOfBounds len index =>
    "index out of bounds: the len is " ++ toString len ++ " but the index is " ++ toString index
  | .violated message => message

/-- エンジンの操作の結果のうち、呼んだ側が対処するもの。 -/
inductive MarkError where
  /-- チャンクのバケットのための `bytes` バイトの予約を、OS か予約の検査が断った。 -/
  | reservation (bytes : Nat)
  /-- エンジンが受け付けない構成か形。理由を添える。 -/
  | invalidConfig (reason : String)
  /-- 大域マークスタックが、最大の `maxChunks` チャンクであふれた。 -/
  | stackExhausted (maxChunks : Nat)
  /-- 操作の途中で周期が中断された。 -/
  | cycleAborted
  /-- 操作はフェーズ `expected` を求めるが、周期は `actual` にある。 -/
  | invalidPhase (expected actual : Phase)
  deriving DecidableEq, Repr

/-- `MarkError` の報告。 -/
def MarkError.message : MarkError → String
  | .reservation bytes => "failed to reserve " ++ toString bytes ++ " bytes for the global mark stack"
  | .invalidConfig reason => "invalid marking configuration: " ++ reason
  | .stackExhausted n =>
    "global mark stack exhausted at its maximum of " ++ toString n ++ " chunks"
  | .cycleAborted => "concurrent marking cycle aborted"
  | .invalidPhase e a => "expected marking phase " ++ e.name ++ ", found " ++ a.name

end RegionMark
