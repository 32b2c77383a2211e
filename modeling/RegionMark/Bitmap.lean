import RegionMark.Word

/-!
# マークのビットマップ

覆う範囲 `[base, base + size)` のヒープの 1 語ごとに 1 ビットを持ち、ビット `k` は数 `k / 64` のビット
`k % 64` である。アドレスはそれが落ちる語のビットに印を付け、探索は `min ⌈(limit - base) / 8⌉ (size / 8)`
で止まる。
-/

namespace RegionMark

/-- マークのビットマップのビットと、それが覆う範囲。 -/
structure Bitmap where
  base : Nat
  size : Nat
  /-- ビットマップのビット `k` は `words[k / 64]` のビット `k % 64`。 -/
  words : Array Nat
  deriving Repr, Inhabited

namespace Bitmap

/-- `words` の数 1 つが持つビットの数。 -/
def wordBits : Nat := 64

/-- `[base, base + size)` を覆う空のビットマップ。どちらも語にそろっていなければならない。 -/
def new (base size : Nat) : Except Panic Bitmap :=
  if base % Word.bytes ≠ 0 || size % Word.bytes ≠ 0 then
    .error (.violated "MarkBitmap range must be word aligned")
  else .ok { base, size, words := Array.replicate (Word.divCeil (size / Word.bytes) wordBits) 0 }

/-- 覆う範囲の終わり。 -/
def limit (m : Bitmap) : Except Panic Nat := Word.add m.base m.size

/-- `a` を含む語のビット。`a` は覆われていなければならない。 -/
def bitIndex (m : Bitmap) (a : Nat) : Except Panic Nat := do
  let e ← m.limit
  if m.base ≤ a && a < e then pure ((a - m.base) / Word.bytes)
  else throw (.violated ("address " ++ Word.hex a ++ " outside of the marked heap"))

/-- ビット `k` の語のアドレス。 -/
def addrOf (m : Bitmap) (k : Nat) : Nat := m.base + k * Word.bytes

/-- ビット `k` が立っているか。 -/
def testBit (m : Bitmap) (k : Nat) : Bool := (m.words.getD (k / wordBits) 0).testBit (k % wordBits)

/-- ビット `k` を立てる。 -/
def setBit (m : Bitmap) (k : Nat) : Bitmap :=
  { m with words := m.words.modify (k / wordBits) (· ||| 1 <<< (k % wordBits)) }

/-- `a` を含む語に印を付ける。この呼び出しがビットを立てたなら `true`。 -/
def mark (m : Bitmap) (a : Nat) : Except Panic (Bool × Bitmap) := do
  let k ← m.bitIndex a
  if m.testBit k then return (false, m) else return (true, m.setBit k)

/-- `a` を含む語に印が付いているか。 -/
def isMarked (m : Bitmap) (a : Nat) : Except Panic Bool := do
  return m.testBit (← m.bitIndex a)

/-- 正の数の、立っている最下位のビットの位置。 -/
def lowestBit (w : Nat) : Nat := (w ^^^ (w - 1)).log2

/-- `[k, e)` で最初に立っているビット。ビットの立っていない数は飛ばす。訪れる数は高々 `fuel` 個。 -/
def firstSetIn (words : Array Nat) (k e : Nat) : Nat → Option Nat
  | 0 => none
  | fuel + 1 =>
    if e ≤ k then none
    else
      let w := words.getD (k / wordBits) 0 >>> (k % wordBits)
      if w = 0 then firstSetIn words ((k / wordBits + 1) * wordBits) e fuel
      else
        let f := k + lowestBit w
        if f < e then some f else none

/-- `lim` までの探索が止まるビット：`lim` を切り上げたビットを、ビットマップの中に収めたもの。 -/
def searchEnd (m : Bitmap) (lim : Nat) : Except Panic Nat := do
  let d ← Word.sub lim m.base
  return Nat.min (Word.divCeil d Word.bytes) (m.size / Word.bytes)

/-- `start` の語から `lim` の手前までで、最初に印の付いた語。 -/
def nextMarked (m : Bitmap) (start lim : Nat) : Except Panic (Option Nat) := do
  if lim ≤ start then return none
  let k ← m.bitIndex start
  let e ← m.searchEnd lim
  return (firstSetIn m.words k e (m.words.size + 1)).map m.addrOf

/-- `[k, e)` のビットを数 1 つずつ消す。訪れる数は高々 `fuel` 個。 -/
def clearWords (words : Array Nat) (k e : Nat) : Nat → Array Nat
  | 0 => words
  | fuel + 1 =>
    if e ≤ k then words
    else
      let off := k % wordBits
      let span := Nat.min (wordBits - off) (e - k)
      let mask := (Nat.pow 2 span - 1) <<< off
      clearWords (words.modify (k / wordBits) fun w => w ^^^ (w &&& mask)) (k + span) e fuel

/-- `start` の語から `lim` までの印を消す。範囲が空なら何もしない。 -/
def clearRange (m : Bitmap) (start lim : Nat) : Except Panic Bitmap := do
  if lim ≤ start then return m
  let k ← m.bitIndex start
  let e ← m.searchEnd lim
  return { m with words := clearWords m.words k e (m.words.size + 1) }

/-- すべての印を消す。 -/
def clearAll (m : Bitmap) : Bitmap := { m with words := m.words.map fun _ => 0 }

/-- `[start, lim)` の印の付いた語を昇順に集め、`keepOn`（その語を含めて、それまでに見つけた語を
受ける）が偽になった最初の語の後で止まる。見つけた語と、終わりまでたどったかを返す。1 歩ごとに少なく
とも 1 語進み、歩数は高々 `fuel`。 -/
def walk (m : Bitmap) (keepOn : List Nat → Bool) (lim : Nat) :
    Nat → Nat → List Nat → Except Panic (List Nat × Bool)
  | 0, _, acc => pure (acc.reverse, true)
  | fuel + 1, cur, acc => do
    match ← m.nextMarked cur lim with
    | none => return (acc.reverse, true)
    | some a =>
      let acc := a :: acc
      if keepOn acc then walk m keepOn lim fuel (a + Word.bytes) acc
      else return (acc.reverse, false)

/-- `[start, lim)` の印の付いた語。`keepOn` は `walk` と同じ。 -/
def visit (m : Bitmap) (start lim : Nat) (keepOn : List Nat → Bool) :
    Except Panic (List Nat × Bool) :=
  m.walk keepOn lim (m.size / Word.bytes + 1) start []

/-- `[start, lim)` の印の付いた語の数。 -/
def countMarked (m : Bitmap) (start lim : Nat) : Except Panic Nat := do
  let (found, _) ← m.visit start lim fun _ => true
  return found.length

end Bitmap

end RegionMark
