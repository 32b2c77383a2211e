import RegionMark.Chunk.Bucket
import RegionMark.Memory

/-!
# チャンクの割り当て

大域マークスタックはバケット単位で伸びる割り当て器からチャンクを受け取る。バケット 0 は `minCapacity` 個で、
`maxCapacity` は求められた最大以上の `minCapacity` の 2 のべき倍のうち最小のもの。最高水位が番号を順に
渡し、バケットは OS から予約して、断られれば伸長は `reservation` で失敗する。
-/

namespace RegionMark.Chunk

/-- 割り当て器が持てるチャンクの最大数。チャンクのリンクは 32 ビットで、リンク 0 は「なし」を表す。 -/
def maxChunks : Nat := Nat.pow 2 32 - 2

/-- タスクの項目 1 つのバイト数。 -/
def entryBytes : Nat := 16

/-- チャンクの割り当て器：決まった形、これまでの容量、最高水位の数。 -/
structure Allocator where
  entriesPerChunk : Nat
  /-- 見出しを含む、1 チャンクのバイト数。 -/
  chunkBytes : Nat
  /-- `minCapacity = 2 ^ minLog2`. -/
  minLog2 : Nat
  maxCapacity : Nat
  /-- これまでに確保したバケットのチャンク数。 -/
  capacity : Nat
  /-- 最後に戻してから渡したチャンクの番号の数。語の大きさを法として数える。 -/
  highWater : Nat
  /-- 容量を越えるチャンクの番号で、割り当て器を伸ばしてよいか。 -/
  shouldGrow : Bool
  /-- バケットを予約する OS。 -/
  memory : Memory
  deriving Inhabited

namespace Allocator

/-- バケット 0 のチャンク数。 -/
def minCapacity (a : Allocator) : Nat := Nat.pow 2 a.minLog2

/-- 渡したチャンクの番号のうち、容量に収まっているものの数。 -/
def size (a : Allocator) : Nat := Nat.min a.highWater a.capacity

/-- これまでの全バケットに確保したバイト数。 -/
def reservedBytes (a : Allocator) : Nat := a.capacity * a.chunkBytes

/-- 次のバケットを加えて容量を 2 倍にする（空の割り当て器にはバケット 0 を与える）。最大に達した
割り当て器は `stackExhausted` で、バケットの予約を断られれば `reservation` で断る。バケットのバイト数は
検査つきの算術。 -/
def tryExpand (a : Allocator) : Except Panic (Except MarkError Allocator) := do
  if a.capacity ≥ a.maxCapacity then return .error (.stackExhausted a.maxCapacity)
  let (b, _) := bucketOf a.minLog2 a.capacity
  let chunks ← bucketCapacity a.minLog2 b
  let bytes ← Word.mul chunks a.chunkBytes
  if !a.memory.reserves bytes then return .error (.reservation bytes)
  return .ok { a with capacity := a.capacity + chunks }

/-- `memory` から予約するバケット 0 を確保した新しい割り当て器。大きさを断るときはその理由。 -/
def new (memory : Memory) (minChunks maxChunks entriesPerChunk : Nat) :
    Except Panic (Except MarkError Allocator) := do
  let bad (reason : String) : Except Panic (Except MarkError Allocator) :=
    pure (.error (.invalidConfig reason))
  if minChunks = 0 || entriesPerChunk = 0 then
    return ← bad "chunk allocator sizes must be non-zero"
  let some lo := Word.nextPow2? minChunks | bad "mark stack minimum capacity too large"
  let hi? := (Word.nextPow2? (Word.divCeil (Nat.max maxChunks lo) lo)).bind fun f =>
    if f * lo < Word.bound && f * lo ≤ Chunk.maxChunks then some (f * lo) else none
  let some hi := hi? | bad "mark stack maximum capacity too large"
  let perChunk ← Word.add entriesPerChunk 1
  if perChunk * entryBytes ≥ Word.bound then return ← bad "chunk size too large"
  tryExpand
    { entriesPerChunk, chunkBytes := perChunk * entryBytes, minLog2 := lo.log2,
      maxCapacity := hi, capacity := 0, highWater := 0, shouldGrow := false, memory }

/-- チャンク `index` を覆うまでバケットを加え、加えた分は残す。先に最大に達するか予約を断られれば
`false`。加えるバケットは高々 `fuel` 個。 -/
def growToCover (index : Nat) : Nat → Allocator → Except Panic (Bool × Allocator)
  | 0, a => pure (false, a)
  | fuel + 1, a =>
    if index < a.capacity then pure (true, a)
    else do
      match ← a.tryExpand with
      | .error _ => pure (false, a)
      | .ok a' => growToCover index fuel a'

/-- 次のチャンクの番号を、空きがあれば渡す。番号は最大未満で、伸びることが許されていなければ容量
未満でなければならない。断った番号でも、数が最大未満だったなら数は進む。 -/
def allocate (a : Allocator) : Except Panic (Option Nat × Allocator) := do
  if a.highWater ≥ a.maxCapacity then return (none, a)
  let index := a.highWater
  let a := { a with highWater := Word.wrapAdd a.highWater 1 }
  if index ≥ a.maxCapacity then return (none, a)
  if index < a.capacity then return (some index, a)
  if !a.shouldGrow then return (none, a)
  let (covered, a) ← growToCover index 64 a
  return (if covered then some index else none, a)

/-- 渡したチャンクの番号をすべて忘れる。容量は残す。 -/
def reset (a : Allocator) : Allocator := { a with highWater := 0 }

end Allocator

end RegionMark.Chunk
