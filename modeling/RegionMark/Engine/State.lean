import RegionMark.Config
import RegionMark.Phase
import RegionMark.Bitmap
import RegionMark.MarkStack
import RegionMark.TaskQueue
import RegionMark.RootRegions
import RegionMark.Satb
import RegionMark.Stats
import RegionMark.Sync
import RegionMark.Heap.Basic
import RegionMark.Engine.Metrics

/-!
# マーキングエンジンの状態

`Engine` は 1 つの `Heap` に印を付け、タスクが共有するもの（ビットマップ、大域のマークスタック、キュー、
ルートリージョン、SATB、統計、フィンガー、フラグ）とタスクを持つ。`Schedule` は次に動くタスクと持ち時間の
尽きるときを決め、標準のものは番号の最も小さいタスクを走らせ、時間を使い切らない。
-/

namespace RegionMark

/-- エンジンが走るときの、タスクの交互の進み方とステップの時計。 -/
structure Schedule where
  /-- それまでの選択の回数と動けるタスク（空ではない）から、次に動くタスク。 -/
  pick : Nat → List Nat → Nat
  /-- 時間を区切ったステップでのそれまでの時計の確認の回数から、今回の確認でステップの持ち時間が
  尽きているか。 -/
  late : Nat → Bool

/-- 番号の最も小さいタスクが先に動き、ステップは時間を使い切らない。 -/
def Schedule.standard : Schedule := ⟨fun _ ws => ws.headD 0, fun _ => false⟩

/-- マーキングタスク：歩いているリージョン、時計の限度、走っているステップのフラグ、統計の
キャッシュ、計数。 -/
structure MarkTask where
  id : Nat
  region : Option Nat := none
  /-- タスクのフィンガー：リージョンの中で走査している、または次に走査するオブジェクト。 -/
  finger : Option Nat := none
  regionLimit : Nat := 0
  wordsScanned : Nat := 0
  wordsLimit : Nat := 0
  realWordsLimit : Nat := 0
  refsReached : Nat := 0
  refsLimit : Nat := 0
  realRefsLimit : Nat := 0
  aborted : Bool := false
  timedOut : Bool := false
  drainingSatb : Bool := false
  concurrent : Bool := false
  /-- 走っているステップに持ち時間があるか。 -/
  timed : Bool := false
  calls : Nat := 0
  cache : StatsCache
  counts : StepCounts := {}
  /-- タスクの盗み先を選ぶ生成器（32 ビットの xorshift）の状態。 -/
  seed : Nat
  deriving Repr

instance : Inhabited MarkTask := ⟨{ id := 0, cache := ⟨#[], 0, 0⟩, seed := 1 }⟩

namespace MarkTask

/-- タスク `id` の種：番号の黄金比の倍数で、奇数。 -/
def seedOf (id : Nat) : Nat := (id % Nat.pow 2 32 * 0x9E3779B9 % Nat.pow 2 32) ||| 1

/-- `bound`（正）より小さい盗み先を引き、生成器を進める。 -/
def nextVictim (t : MarkTask) (bound : Nat) : Nat × MarkTask :=
  let m : Nat := Nat.pow 2 32
  let x := t.seed
  let x := x ^^^ (x <<< 13 % m)
  let x := x ^^^ (x >>> 17)
  let x := x ^^^ (x <<< 5 % m)
  (x % bound, { t with seed := x })

/-- タスクのリージョンを離れる。 -/
def clearRegion (t : MarkTask) : MarkTask := { t with region := none, finger := none, regionLimit := 0 }

/-- 新しい周期のためにタスクを整える。盗み先の生成器と時計の限度は残る。 -/
def reset (t : MarkTask) : MarkTask :=
  { t.clearRegion with calls := 0, aborted := false, timedOut := false, cache := t.cache.reset,
                       counts := {} }

end MarkTask

instance {α : Type} : Inhabited (TaskQueue α) := ⟨⟨#[], 0, 0⟩⟩

/-- ヒープの上のマーキングエンジン。 -/
structure Engine where
  heap : Heap
  config : MarkConfig
  bitmap : Bitmap
  stack : MarkStack
  queues : Array (TaskQueue TaskEntry)
  roots : RootRegions
  satb : SatbSet (List (List Nat))
  stats : RegionStats
  metrics : Metrics
  /-- 大域のフィンガー：その下のリージョンはすべて取られている。 -/
  finger : Nat
  /-- 最後の再開より後に、大域のマークスタックへの積み込みが失敗した。 -/
  overflown : Bool
  aborted : Bool
  concurrent : Bool
  /-- オーバーフローの再開の回数を使い切り、スタックはもう伸ばせない。 -/
  exhausted : Bool
  activeTasks : Nat
  terminator : Terminator
  firstBarrier : Barrier
  secondBarrier : Barrier
  tasks : Array MarkTask
  phase : Phase
  /-- 始めた周期の数。 -/
  cycle : Nat
  /-- ビットマップに前の周期の印が残っているかもしれない。 -/
  bitmapDirty : Bool
  /-- 最後の再マークがオーバーフローを見つけ、マーキングをやり直した。 -/
  restartForOverflow : Bool
  schedule : Schedule
  /-- これまでのスケジュールの選択の回数。 -/
  turns : Nat
  /-- これまでの、時間を区切ったステップでの時計の確認の回数。 -/
  clockChecks : Nat
  /-- 検証のための記録：オーバーフローの再開のたびに、そのときのビットマップを先頭に積む。エンジンの
  振る舞いはこれを読まない。 -/
  restartBitmaps : List Bitmap := []

namespace Engine

/-- `heap` に対し、設定 `c` で `schedule` のもとで走り、マークスタックを `memory` から予約するエンジンを
作る。できなければ何がいけないかを告げる。 -/
def new (heap : Heap) (c : MarkConfig) (schedule : Schedule) (memory : Memory) :
    Except Panic (Except MarkError Engine) := do
  if let .error e ← c.check then return .error e
  if !Word.isPow2 heap.regionBytes || heap.regionBytes < Word.bytes then
    return .error (.invalidConfig "region size must be a power of two")
  if heap.regionCount = 0 then
    return .error (.invalidConfig "reserved heap range must be non-empty and region aligned")
  let stack ← match ← MarkStack.new memory c.minChunks c.maxChunks c.entriesPerChunk with
    | .error e => return .error e
    | .ok s => pure s
  let n := c.workers
  let queue ← TaskQueue.new c.queueCapacity
  let cache ← StatsCache.new c.statsCacheEntries
  let bitmap ← Bitmap.new heap.base (heap.regionCount * heap.regionBytes)
  return .ok {
    heap, config := c, bitmap, stack
    queues := Array.replicate n queue
    roots := RootRegions.new heap.regionCount
    satb := SatbSet.new 0
    stats := RegionStats.new heap.regionCount
    metrics := {}
    finger := heap.base
    overflown := false, aborted := false, concurrent := false, exhausted := false
    activeTasks := n
    terminator := Terminator.new n
    firstBarrier := Barrier.new n, secondBarrier := Barrier.new n
    tasks := (Array.range n).map fun id => { id, cache, seed := MarkTask.seedOf id }
    phase := .idle, cycle := 0, bitmapDirty := false, restartForOverflow := false
    schedule, turns := 0, clockChecks := 0 }

/-- 並行のフェーズを走らせるタスク：ワーカーごとに 1 つ、少なくとも 1 つ。 -/
def workers (e : Engine) : Nat := Nat.max e.tasks.size 1

/-- すべてのリージョンが取られたか。 -/
def outOfRegions (e : Engine) : Bool := e.finger ≥ e.heap.limit

/-- タスク `w` のローカルキュー。 -/
def queue (e : Engine) (w : Nat) : TaskQueue TaskEntry := e.queues.getD w default

/-- 今のフェーズに加わっているタスクのキュー。 -/
def activeQueues (e : Engine) : List (TaskQueue TaskEntry) := e.queues.toList.take e.activeTasks

/-- オブジェクトがヒープの中にあり、印が付いているか。 -/
def isMarked (e : Engine) (a : Nat) : Bool := e.heap.contains a && e.bitmap.testBit ((a - e.heap.base) / Word.bytes)

/-- オブジェクトが生きているか：ヒープの中にあり、リージョンの TAMS 以上に割り当てられているか
印が付いている。 -/
def isLive (e : Engine) (a : Nat) : Bool :=
  match e.heap.regionOf? a with
  | none => false
  | some r => a ≥ e.heap.tamsOf r || e.bitmap.testBit ((a - e.heap.base) / Word.bytes)

/-- `a` がリージョンの TAMS より下のヒープのアドレスで、まだ印がなければ印を付け、そのリージョンと
大きさを返す。 -/
def tryMark (e : Engine) (a : Nat) : Except Panic (Option (Nat × Nat) × Engine) := do
  let some r := e.heap.regionOf? a | return (none, e)
  if a ≥ e.heap.tamsOf r then return (none, e)
  let k ← e.bitmap.bitIndex a
  if e.bitmap.testBit k then return (none, e)
  let size := e.heap.objectSize a
  return (some (r, size), { e with bitmap := e.bitmap.setBit k })

/-- 大域のマークスタックに `f` を走らせ、その場で書き換える：`f` が走るあいだ、スタックはエンジンから
取り出しておく。 -/
def withStack {α : Type} (e : Engine) (f : MarkStack → Except Panic (α × MarkStack)) :
    Except Panic (α × Engine) := do
  let s := e.stack
  let e := { e with stack := default }
  let (a, s) ← f s
  return (a, { e with stack := s })

/-- 大域のフィンガーを次のリージョンの先へ進めて、そのリージョンを取る。TAMS より下に何かあれば
それを返し、空のリージョンやすべてが取られているときは `none`。 -/
def claimRegion (e : Engine) : Option Nat × Engine :=
  if e.outOfRegions then (none, e)
  else
    let r := (e.finger - e.heap.base) / e.heap.regionBytes
    let e := { e with finger := e.heap.regionEnd r }
    (if e.heap.tamsOf r > e.heap.bottom r then some r else none, e)

/-- 打ち切られたフェーズの誤り（あれば）：中断よりもスタックの枯渇が先。 -/
def interruption (e : Engine) : Option MarkError :=
  if e.exhausted then some (.stackExhausted e.stack.alloc.maxCapacity)
  else if e.aborted then some .cycleAborted
  else none

/-- 次のフェーズに加わるタスクと、それが並行に走るかを定める。終了判定の途中であってはならない。 -/
def setConcurrency (e : Engine) (n : Nat) (concurrent : Bool) : Except Panic Engine := do
  let t ← e.terminator.reset n
  return { e with activeTasks := n, terminator := t, firstBarrier := e.firstBarrier.setWorkers n,
                  secondBarrier := e.secondBarrier.setWorkers n, concurrent }

/-- オーバーフローの後の伸長：溢れていたなら、入ってくる参照を忘れ、スタックを伸ばす。予約を断られて
伸びなかったときはそれを数え、断られたことを返す。最大に達していればスタックはそのまま。 -/
def expandAfterOverflow (e : Engine) : Except Panic (Engine × Bool) := do
  if !e.overflown then return (e, false)
  let r ← e.stack.expand
  let e := { e with stats := e.stats.clearIncoming }
  match r with
  | .ok stack => return ({ e with stack }, false)
  | .error (.reservation _) =>
    return ({ e with metrics := { e.metrics with expansionFailures := e.metrics.expansionFailures + 1 } }, true)
  | .error _ => return (e, false)

/-- 許された回数を超えて再開し、スタックがもう伸びない（最大に達したか、伸長の予約を断られた）とき、
周期を枯渇として中断する。 -/
def exhaustIfStuck (e : Engine) (expansionFailed : Bool) : Engine :=
  match e.config.restartLimit with
  | some limit =>
    if e.metrics.overflowRestarts > limit &&
        (expansionFailed || e.stack.capacityChunks ≥ e.stack.alloc.maxCapacity) then
      { e with exhausted := true, aborted := true }
    else e
  | none => e

/-- オーバーフローの後：すべてのキューと大域のスタックを空にし、できればスタックを伸ばし、大域の
フィンガーをヒープの始まりに戻し、入ってくる参照を忘れる。印は残る。 -/
def restartAfterOverflow (e : Engine) : Except Panic Engine := do
  let (e, expansionFailed) ← { e with stack := e.stack.setEmpty }.expandAfterOverflow
  let e := { e with metrics := { e.metrics with overflowRestarts := e.metrics.overflowRestarts + 1 },
                    restartBitmaps := e.bitmap :: e.restartBitmaps }
  let e := e.exhaustIfStuck expansionFailed
  return { e with queues := e.queues.map (·.setEmpty), finger := e.heap.base, overflown := false }

/-- 新しい周期のためにマーキングの状態を空にする。スタックは容量を保つ。 -/
def resetForCycle (e : Engine) : Engine :=
  { e with overflown := false, aborted := false, exhausted := false, finger := e.heap.base,
           stack := (e.stack.setEmpty).setShouldGrow false,
           queues := e.queues.map (·.setEmpty), stats := e.stats.clearAll,
           roots := e.roots.reset, satb := e.satb.abandon }

/-- できるだけ早くマーキングを止め、オーバーフローのバリアにいるタスクをすべて帰す。 -/
def abortThreads (e : Engine) : Engine :=
  { e with aborted := true, firstBarrier := e.firstBarrier.abort,
           secondBarrier := e.secondBarrier.abort, roots := e.roots.abort }

/-- リージョン `r` で印の付いたバイト数（生きている語数をバイトで）。 -/
def markedBytes (e : Engine) (r : Nat) : Except Panic Nat := Word.mul (e.stats.liveWords r) Word.bytes

/-- 印の付いたバイト数に、マーキングが始まってからリージョン `r` に割り当てたすべてを加えたもの。 -/
def liveBytes (e : Engine) (r : Nat) : Except Panic Nat := do
  Word.add (← e.markedBytes r) (e.heap.topOf r - e.heap.tamsOf r)

end Engine

end RegionMark
