import RegionMark.Chunk.Allocator
import RegionMark.Entry

/-!
# 大域マークスタック

ローカルキューからあふれた仕事はチャンクのスタックに移る。データのリストと空きのリストは先頭のリンク
（空なら 0、さもなくば番号 + 1）から見出しをたどる。スロットは使い回しても消さないが、積むときに次へ
null を書き、取り出しは最初の null で止まるので、古い項目は混じらない。
-/

namespace RegionMark

/-- 1 つのチャンクの見出しのリンクと、項目のスロット。スロットは書いたところまでを持ち、その先は
一度も書いていない 0 のメモリで、null の項目と読む。一度も書いていないチャンクはリンクも 0 である。 -/
structure ChunkSlot where
  next : Nat := 0
  entries : List TaskEntry := []
  deriving DecidableEq, Repr, Inhabited

/-- `epc` 個のスロット `raw` の先頭に `kept` を書き、`epc` 個に満たなければその次に null を書く。
その先のスロットは元のまま。 -/
def writeChunk (raw kept : List TaskEntry) (epc : Nat) : List TaskEntry :=
  if kept.length < epc then kept ++ .null :: raw.drop (kept.length + 1) else kept ++ raw.drop kept.length

/-- `epc` 個のスロット `raw` を、最初の null の手前か終わりまで読む。 -/
def readChunk (raw : List TaskEntry) (epc : Nat) : List TaskEntry := entriesBeforeNull (raw.take epc)

/-- `es` を `buf` へ取り出した後のバッファ：項目、余地が残れば null の項目、それからバッファが
持っていたもの。 -/
def fillBuffer (buf es : List TaskEntry) : List TaskEntry :=
  if es.length < buf.length then es ++ [.null] ++ buf.drop (es.length + 1) else es

/-- 大域マークスタック。 -/
structure MarkStack where
  alloc : Chunk.Allocator
  /-- チャンク `i` の見出しと項目。終わりより後のチャンクは一度も書いていない。 -/
  slots : Array ChunkSlot
  /-- データのリストの先頭のリンク。 -/
  dataHead : Nat
  /-- 空きのリストの先頭のリンク。 -/
  freeHead : Nat
  /-- データのリストに積んだチャンクの数から取り出した数を引いたもの。語の大きさを法とする。 -/
  count : Nat
  deriving Inhabited

namespace MarkStack

/-- `memory` から予約する新しい割り当て器の上のスタック。大きさを断るときはその理由。 -/
def new (memory : Memory) (minChunks maxChunks entriesPerChunk : Nat) :
    Except Panic (Except MarkError MarkStack) := do
  match ← Chunk.Allocator.new memory minChunks maxChunks entriesPerChunk with
  | .error e => return .error e
  | .ok a => return .ok { alloc := a, slots := #[], dataHead := 0, freeHead := 0, count := 0 }

/-- 1 チャンクが持つ項目の数。 -/
def entriesPerChunk (s : MarkStack) : Nat := s.alloc.entriesPerChunk

/-- チャンク `id` の見出しと項目。 -/
def slot (s : MarkStack) (id : Nat) : ChunkSlot := s.slots.getD id default

/-- チャンク `id` の見出しと項目を置き換える。 -/
def setSlot (s : MarkStack) (id : Nat) (c : ChunkSlot) : MarkStack :=
  if id < s.slots.size then { s with slots := s.slots.setIfInBounds id c }
  else { s with slots := (s.slots ++ Array.replicate (id - s.slots.size) default).push c }

/-- チャンク `id` の見出しのリンクを設定する。 -/
def setNext (s : MarkStack) (id link : Nat) : MarkStack :=
  s.setSlot id { s.slot id with next := link }

/-- データのリストが空か。 -/
def isEmpty (s : MarkStack) : Bool := s.dataHead == 0

/-- 割り当て器が覆うチャンクの数。 -/
def capacityChunks (s : MarkStack) : Nat := s.alloc.capacity

/-- 割り当てたチャンクが持てる項目の数。 -/
def capacity (s : MarkStack) : Nat := s.alloc.capacity * s.entriesPerChunk

/-- 先頭のリンクが `head` のリストから先頭を取り出す：そのチャンクと、新しい先頭のリンク。 -/
def popLink (s : MarkStack) (head : Nat) : Option (Nat × Nat) :=
  if head = 0 then none else some (head - 1, (s.slot (head - 1)).next)

/-- 埋めるためのチャンクを取る：空きのリストにあればそれを、なければ割り当て器から新しいものを。 -/
def takeChunk (s : MarkStack) : Except Panic (Option Nat × MarkStack) := do
  match s.popLink s.freeHead with
  | some (id, head) => return (some id, { s with freeHead := head })
  | none =>
    let (id?, a) ← s.alloc.allocate
    let s := { s with alloc := a }
    match id? with
    | none => return (none, s)
    | some id => return (some id, s.setNext id 0)

/-- `es` の最初の null の手前までを持つチャンクを積む。チャンクが得られなければ失敗し、割り当て器の
数のほかは元のまま残す。1 チャンクに入るより多い項目は前提に反する。 -/
def push (s : MarkStack) (es : List TaskEntry) : Except Panic (Bool × MarkStack) := do
  if es.length > s.entriesPerChunk then
    throw (.violated "too many entries for one chunk")
  let (id?, s) ← s.takeChunk
  let some id := id? | return (false, s)
  let kept := (entriesBeforeNull es).take s.entriesPerChunk
  let raw := writeChunk (s.slot id).entries kept s.entriesPerChunk
  let s := s.setSlot id { next := s.dataHead, entries := raw }
  return (true, { s with dataHead := id + 1, count := Word.wrapAdd s.count 1 })

/-- 最後に積んだチャンクを取り出してその項目を返す。チャンクは空きのリストに移る。呼ぶ側の `room`
項目のバッファは、チャンクを丸ごと受けられなければならない。 -/
def pop (s : MarkStack) (room : Nat) : Except Panic (Option (List TaskEntry) × MarkStack) := do
  if room < s.entriesPerChunk then throw (.violated "output buffer smaller than a chunk")
  match s.popLink s.dataHead with
  | none => return (none, s)
  | some (id, head) =>
    let es := readChunk (s.slot id).entries s.entriesPerChunk
    let s := { s with dataHead := head, count := Word.wrapSub s.count 1 }
    let s := s.setNext id s.freeHead
    return (some es, { s with freeHead := id + 1 })

/-- 最後に積んだチャンクを、呼ぶ側のバッファ `out` へ取り出す。取り出せたかと、その後のバッファを返す。
スタックが空ならバッファはそのまま。 -/
def popInto (s : MarkStack) (out : List TaskEntry) :
    Except Panic (Bool × List TaskEntry × MarkStack) := do
  match ← s.pop out.length with
  | (none, s) => return (false, out, s)
  | (some es, s) => return (true, fillBuffer out es, s)

/-- 両方のリストと数を空にし、渡したチャンクの番号をすべて忘れる。容量は残す。 -/
def setEmpty (s : MarkStack) : MarkStack :=
  { s with dataHead := 0, freeHead := 0, count := 0, alloc := s.alloc.reset }

/-- リストの中身によらず、割り当て器にバケットを加える。 -/
def tryExpand (s : MarkStack) : Except Panic (Except MarkError MarkStack) := do
  match ← s.alloc.tryExpand with
  | .error e => return .error e
  | .ok a => return .ok { s with alloc := a }

/-- 空のスタックにバケットを加える。 -/
def expand (s : MarkStack) : Except Panic (Except MarkError MarkStack) := do
  if !s.isEmpty then throw (.violated "only an empty mark stack may expand")
  s.tryExpand

/-- チャンクが要るときに容量を越えて伸びることを許すか禁じる。 -/
def setShouldGrow (s : MarkStack) (b : Bool) : MarkStack :=
  { s with alloc := { s.alloc with shouldGrow := b } }

end MarkStack

end RegionMark
