import RegionMark.Script.Run
import RegionMark.Satb

/-!
# SATB バッファのスクリプト

SATB のスクリプトは、完了したバッファの集合と、作った順に番号を振ったいくつものミューテータの
バッファを作り、記録し、渡し、並べ、取る。各ステップの後に、集合とすべてのミューテータのバッファの
長さを報告する。記録はまずバッファの番号を確かめ、それからアドレス 0 を断る。
-/

namespace RegionMark.Script

/-- SATB のスクリプトのミューテータのバッファの最大の大きさ。 -/
def maxSatbBuffer : Nat := Nat.pow 2 20

/-- 与えられないときのミューテータのバッファの容量。 -/
def defaultSatbCapacity : Nat := 256

/-- SATB のスクリプトのステップ。 -/
inductive SatbOp where
  | setActive (b : Bool)
  | newBuffer (capacity : Nat)
  | record (buf a : Nat)
  | flush (buf : Nat)
  | enqueue (a : Nat)
  | enqueueBuffer (as : List Nat)
  | apply
  | abandon
  | state
  deriving Repr

/-- SATB のステップが答えるもの。 -/
inductive SatbValue where
  | id (n : Nat)
  | taken (b : Option (List Nat))
  | nothing

/-- 集合と、それまでに作ったミューテータのバッファ。 -/
structure SatbScene (Q : Type) where
  set : SatbSet Q
  buffers : Array SatbBuffer

variable {Q : Type} [BufferQueue Q]

/-- ミューテータのバッファ `i` に `f` を施す。知らない番号は断る。 -/
def withBuffer (s : SatbScene Q) (i : Nat) (f : SatbBuffer → SatbSet Q → SatbBuffer × SatbSet Q) :
    Except Failure (SatbScene Q) :=
  match s.buffers[i]? with
  | none => .error (.refused (.badInput "no such buffer"))
  | some b => let (b, t) := f b s.set; .ok ⟨t, s.buffers.setIfInBounds i b⟩

/-- SATB のスクリプトのステップを 1 つ走らせる。 -/
def satbStep (s : SatbScene Q) : SatbOp → Except Failure (SatbValue × SatbScene Q)
  | .setActive b => .ok (.nothing, { s with set := { s.set with active := b } })
  | .newBuffer c =>
    if c > maxSatbBuffer then .error (.refused (.limit "buffer capacity above 2^20"))
    else .ok (.id s.buffers.size, { s with buffers := s.buffers.push (SatbBuffer.new c) })
  | .record i a => do
    if s.buffers[i]?.isNone then throw (.refused (.badInput "no such buffer"))
    if a = 0 then throw (.refused (.badInput "object address 0"))
    return (.nothing, ← withBuffer s i fun b t => b.record t a)
  | .flush i => do return (.nothing, ← withBuffer s i fun b t => b.flush t)
  | .enqueue a => .ok (.nothing, { s with set := s.set.enqueue [a] })
  | .enqueueBuffer as => .ok (.nothing, { s with set := s.set.enqueue as })
  | .apply => let (b, t) := s.set.take; .ok (.taken b, { s with set := t })
  | .abandon => .ok (.nothing, { s with set := s.set.abandon })
  | .state => .ok (.nothing, s)

/-- 与えた閾値（なければ 0）の働いていない集合に対して `ops` を走らせ、各値をその後の様子とともに
報告する。 -/
def runSatb (threshold : Nat) (ops : List (Except Failure SatbOp)) :
    List (Except Failure (SatbValue × SatbScene (List (List Nat)))) :=
  let step (s : SatbScene (List (List Nat))) (op : SatbOp) :
      Except Failure ((SatbValue × SatbScene (List (List Nat))) × SatbScene (List (List Nat))) :=
    (satbStep s op).map fun (v, s) => ((v, s), s)
  (runSteps (atomically step) (⟨SatbSet.new threshold, #[]⟩ : SatbScene (List (List Nat))) ops).1

end RegionMark.Script
