import RegionMark.Word

/-!
# 開始時点のスナップショット（SATB）のバッファ

ミューテータは参照を書き換える前に古い参照先を `SatbBuffer` に記録し、埋まったバッファは `SatbSet` に
渡って、マーキングタスクが古い順に取る。集合が働いていないあいだは何も記録しない。
-/

namespace RegionMark

/-- 完了したバッファを並べる並行キューの操作：空のキュー、後ろに並べる、先頭を取り出す（空なら何も
返さない）、並んでいる数。 -/
class BufferQueue (Q : Type) where
  empty : Q
  push : Q → List Nat → Q
  pop : Q → Option (List Nat) × Q
  size : Q → Nat

/-- 古い順に並べたリストとしてのキュー。 -/
instance : BufferQueue (List (List Nat)) where
  empty := []
  push q b := q ++ [b]
  pop q := (q.head?, q.tail)
  size q := q.length

/-- 印付けを待つ完了したバッファのキューと、その数と、記録のスイッチ。 -/
structure SatbSet (Q : Type) where
  completed : Q
  /-- 待っているバッファの数。キューとは別の計数で、並べるたびに 1 増え、取るたびに 1 減る。並んだ
  バッファはどれも 8 バイトの記録を持つので、数が語の大きさで回ることはない。 -/
  numCompleted : Nat
  active : Bool
  /-- これより多く待っているときに限り、タスクは完了したバッファに向かう。 -/
  threshold : Nat
  deriving Repr

/-- ミューテータの、記録した参照先のバッファ。 -/
structure SatbBuffer where
  entries : Array Nat
  /-- バッファを渡すまでの記録の数。少なくとも 1。 -/
  capacity : Nat
  deriving Repr

namespace SatbSet

variable {Q : Type} [BufferQueue Q]

/-- 完了したバッファのない、働いていない集合。 -/
def new (threshold : Nat) : SatbSet Q := ⟨BufferQueue.empty, 0, false, threshold⟩

/-- 待っている完了したバッファの数。 -/
def count (s : SatbSet Q) : Nat := s.numCompleted

/-- タスクが完了したバッファに向かうべきか。 -/
def shouldProcess (s : SatbSet Q) : Bool := s.count > s.threshold

/-- 完了したバッファを並べる。空のものは捨てる。 -/
def enqueue (s : SatbSet Q) (b : List Nat) : SatbSet Q :=
  if b.isEmpty then s
  else { s with completed := BufferQueue.push s.completed b, numCompleted := s.numCompleted + 1 }

/-- 最も古い完了したバッファを取る。 -/
def take (s : SatbSet Q) : Option (List Nat) × SatbSet Q :=
  match BufferQueue.pop s.completed with
  | (none, q) => (none, { s with completed := q })
  | (some b, q) => (some b, { s with completed := q, numCompleted := s.numCompleted - 1 })

/-- 取り出せるあいだ取り出して捨て、捨てるたびに数を 1 減らす。高々 `fuel` 回取り出す。 -/
def abandonLoop : Nat → SatbSet Q → SatbSet Q
  | 0, s => s
  | fuel + 1, s =>
    match BufferQueue.pop s.completed with
    | (none, q) => { s with completed := q }
    | (some _, q) => abandonLoop fuel { s with completed := q, numCompleted := s.numCompleted - 1 }

/-- 完了したバッファをすべて捨てる。並んでいる数より 1 回多く取り出せば、最後は空を見る。 -/
def abandon (s : SatbSet Q) : SatbSet Q := abandonLoop (BufferQueue.size s.completed + 1) s

end SatbSet

namespace SatbBuffer

/-- `capacity` 個（`capacity` が 0 なら 1 個）記録すると渡す、空のバッファ。 -/
def new (capacity : Nat) : SatbBuffer := ⟨#[], Nat.max capacity 1⟩

variable {Q : Type} [BufferQueue Q]

/-- バッファの記録を、あれば渡す。 -/
def flush (b : SatbBuffer) (s : SatbSet Q) : SatbBuffer × SatbSet Q :=
  if b.entries.isEmpty then (b, s) else ({ b with entries := #[] }, s.enqueue b.entries.toList)

/-- 集合が働いていれば `a` を記録し、埋まったらバッファを渡す。 -/
def record (b : SatbBuffer) (s : SatbSet Q) (a : Nat) : SatbBuffer × SatbSet Q :=
  if !s.active then (b, s)
  else
    let b := { b with entries := b.entries.push a }
    if b.entries.size ≥ b.capacity then b.flush s else (b, s)

end SatbBuffer

end RegionMark
