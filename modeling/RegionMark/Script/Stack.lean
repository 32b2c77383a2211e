import RegionMark.Script.Run
import RegionMark.MarkStack

/-!
# チャンクの割り当て器と大域のマークスタックのスクリプト

割り当て器を作って伸ばし、スタックを作って操作を走らせ、各ステップの後に報告する。4 GiB を超える最初の
予約と大きすぎるバッファは断る。伸ばす回数やステップは、作れてから読む。
-/

namespace RegionMark.Script

/-- スクリプトがバケット 0 のために予約できるバイト数。 -/
def reservationLimit : Nat := Nat.pow 2 32

/-- 最初のバケットが `reservationLimit` バイトより多くを予約することになる大きさを断る。割り当て器が
自分で断る大きさは通す。 -/
def checkReservation (minChunks entriesPerChunk : Nat) : Except Failure Unit :=
  let lo := minChunks.nextPowerOfTwo
  if minChunks ≠ 0 && entriesPerChunk ≠ 0 && entriesPerChunk < Nat.pow 2 60 - 1 && lo ≤ Nat.pow 2 32 - 1
      && lo * (entriesPerChunk + 1) * Chunk.entryBytes > reservationLimit then
    .error (.refused (.limit "initial mark stack reservation above 4 GiB"))
  else .ok ()

/-- 割り当て器のスクリプトが走らせる伸長のステップの最大数。 -/
def maxExpansions : Nat := 64

/-- 作った割り当て器と、各伸長のステップの後の状態とそのステップの結果。 -/
structure Growth where
  init : Chunk.Allocator
  steps : List (Except MarkError Unit × Chunk.Allocator)

/-- `a` を最大 `n` 回伸ばし、それぞれの結果を記録する。 -/
def growSteps (a : Chunk.Allocator) : Nat → Except Panic (List (Except MarkError Unit × Chunk.Allocator))
  | 0 => pure []
  | n + 1 => do
    match ← a.tryExpand with
    | .ok a' => return (.ok (), a') :: (← growSteps a' n)
    | .error e => return (.error e, a) :: (← growSteps a n)

/-- 割り当て器を作り、`min times maxExpansions` 回伸ばす。回数は割り当て器ができてから読む。 -/
def growAllocator (minChunks maxChunks entriesPerChunk : Nat) (times : Except Failure Nat) :
    Except Failure (Except MarkError Growth) := do
  checkReservation minChunks entriesPerChunk
  match ← ofPanic (Chunk.Allocator.new Memory.standard minChunks maxChunks entriesPerChunk) with
  | .error e => return .error e
  | .ok a =>
    let times ← times
    return .ok ⟨a, ← ofPanic (growSteps a (Nat.min times maxExpansions))⟩

/-- スクリプトが 1 ステップで積むか取り出す項目の最大数。取り出しのバッファの大きさもこれを超えない。 -/
def maxBufferEntries : Nat := 65536

/-- 1 回の吐き出しのステップが取り出すチャンクの最大数。 -/
def maxDrainChunks : Nat := 4096

/-- マークスタックのスクリプトのステップ。 -/
inductive StackOp where
  /-- これらの項目の 1 チャンクを積む。 -/
  | push (es : List TaskEntry)
  /-- `start`, `start + 8`, … にあるオブジェクト（`count` 個）の 1 チャンクを積む。 -/
  | pushRun (start count : Nat)
  /-- すべて `fill` の `room` 項目（なければ 1 チャンク分）のバッファへ、1 チャンクを取り出す。
  `fill` は、バッファの大きさを確かめてから読む。 -/
  | pop (room : Option Nat) (fill : Except Failure TaskEntry)
  /-- スタックが空になるまでチャンクを取り出す。 -/
  | drain
  | setEmpty
  | expand
  /-- スタックが空かを確かめずに割り当て器を伸ばす。 -/
  | tryExpand
  /-- 配ったチャンクの数を忘れる。2 つのリストはそのまま。 -/
  | resetAllocator
  | setShouldGrow (b : Bool)
  | state
  deriving Repr

/-- マークスタックのステップが答えるもの。 -/
inductive StackValue where
  | flag (b : Bool)
  /-- チャンクを取り出せたかと、その後のバッファ。 -/
  | popped (ok : Bool) (buffer : List TaskEntry)
  | chunks (cs : List (List TaskEntry))
  /-- スタックは伸びるのを断った。 -/
  | refused (e : MarkError)
  | nothing

/-- 最大 `n` 個のチャンクを取り出し、最初の空の取り出しで止まる。 -/
def drainChunks (s : MarkStack) : Nat → Except Panic (List (List TaskEntry) × MarkStack)
  | 0 => pure ([], s)
  | n + 1 => do
    match ← s.pop s.entriesPerChunk with
    | (none, s) => return ([], s)
    | (some es, s) =>
      let (rest, s) ← drainChunks s n
      return (es :: rest, s)

/-- 伸長の結果をステップの値にする。 -/
def grown (r : Except MarkError MarkStack) (s : MarkStack) : StackValue × MarkStack :=
  match r with
  | .ok s' => (.flag true, s')
  | .error e => (.refused e, s)

/-- マークスタックのスクリプトのステップを 1 つ走らせる。 -/
def stackStep (s : MarkStack) : StackOp → Except Failure (StackValue × MarkStack)
  | .push es => ofPanic do
    let (ok, s) ← s.push es
    return (.flag ok, s)
  | .pushRun start count =>
    if count > maxBufferEntries then .error (.refused (.limit "push_n count above 65536"))
    else ofPanic do
      let es ← (List.range count).mapM fun i => TaskEntry.ofObj <$> Word.add start (Word.bytes * i)
      let (ok, s) ← s.push es
      return (.flag ok, s)
  | .pop room fill =>
    let room := room.getD s.entriesPerChunk
    if room > maxBufferEntries then .error (.refused (.limit "out_len above 65536"))
    else do
      let fill ← fill
      ofPanic do
        let (ok, buf, s) ← s.popInto (List.replicate room fill)
        return (.popped ok buf, s)
  | .drain =>
    if s.entriesPerChunk > maxBufferEntries then .error (.refused (.limit "entries_per_chunk above 65536"))
    else ofPanic do
      let (cs, s) ← drainChunks s maxDrainChunks
      return (.chunks cs, s)
  | .setEmpty => .ok (.nothing, s.setEmpty)
  | .expand => ofPanic do return grown (← s.expand) s
  | .tryExpand => ofPanic do return grown (← s.tryExpand) s
  | .resetAllocator => .ok (.nothing, { s with alloc := s.alloc.reset })
  | .setShouldGrow b => .ok (.nothing, s.setShouldGrow b)
  | .state => .ok (.nothing, s)

/-- 作ったスタックと、各ステップの後の値とスタック。 -/
structure StackRun where
  init : MarkStack
  steps : List (Except Failure (StackValue × MarkStack))

/-- スタックを作り、それに対して `ops` を走らせる。ステップの並びはスタックができてから読む。 -/
def runStack (minChunks maxChunks entriesPerChunk : Nat)
    (ops : Except Failure (List (Except Failure StackOp))) :
    Except Failure (Except MarkError StackRun) := do
  checkReservation minChunks entriesPerChunk
  match ← ofPanic (MarkStack.new Memory.standard minChunks maxChunks entriesPerChunk) with
  | .error e => return .error e
  | .ok s =>
    let ops ← ops
    let step (s : MarkStack) (op : StackOp) : Except Failure ((StackValue × MarkStack) × MarkStack) :=
      (stackStep s op).map fun (v, s') => ((v, s'), s')
    let (rs, _, _) := runSteps (atomically step) s ops
    return .ok ⟨s, rs⟩

end RegionMark.Script
