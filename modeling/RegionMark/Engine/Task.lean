import RegionMark.Engine.State

/-!
# マーキングタスクの仕事

灰色にすること、オブジェクトと配列の切片の走査、キューと大域スタックのあいだの仕事の移し、リージョンの
歩み。新しい印を積むのは、フィンガーより下で歩みがもう来ないところだけである。限度を越えるたびに時計が
走り、オーバーフローや中断や持ち時間の尽きでステップを打ち切る。
-/

namespace RegionMark

/-- エンジンと、そこから取り出した走っているタスク。 -/
structure Worker where
  eng : Engine
  task : MarkTask

/-- 走っているマーキングタスクの計算。 -/
abbrev TaskM := StateT Worker (Except Panic)

namespace Marking

/-- 2 回の時計の確認のあいだにタスクが走査する語数。 -/
def wordsPeriod : Nat := 12 * 1024

/-- 2 回の時計の確認のあいだにタスクが届く参照の数。 -/
def refsPeriod : Nat := 1024

/-- 部分的な吐き出しがローカルキューに残す項目の最大数。 -/
def drainTarget : Nat := 64

/-- マーキングのステップの繰り返しが諦めるまでの回数。`2 ^ 64` バイト未満のヒープの上のステップの
繰り返しは、これほど長くは走らない。 -/
def loopFuel : Nat := Nat.pow 2 64

/-- エンジン。 -/
@[inline] def eng : TaskM Engine := return (← get).eng

/-- 走っているタスク。 -/
@[inline] def task : TaskM MarkTask := return (← get).task

/-- エンジンを変える。 -/
@[inline] def modifyEng (f : Engine → Engine) : TaskM Unit := modify fun s => { s with eng := f s.eng }

/-- 走っているタスクを変える。 -/
@[inline] def modifyTask (f : MarkTask → MarkTask) : TaskM Unit :=
  modify fun s => { s with task := f s.task }

/-- エンジンに `f` を走らせ、その場で書き換える。 -/
@[inline] def updateEng {α : Type} (f : Engine → Except Panic (α × Engine)) : TaskM α :=
  fun ⟨e, t⟩ => do
    let (a, e) ← f e
    return (a, ⟨e, t⟩)

/-- タスクの統計のキャッシュとエンジンの統計の表に `f` を走らせ、両方をその場で書き換える：`f` が
走るあいだ、それらは取り出しておく。 -/
@[inline] def updateStats {α : Type}
    (f : StatsCache → RegionStats → Except Panic (α × StatsCache × RegionStats)) : TaskM α :=
  fun ⟨e, t⟩ => do
    let g := e.stats
    let e := { e with stats := default }
    let c := t.cache
    let t := { t with cache := default }
    let (a, c, g) ← f c g
    return (a, ⟨{ e with stats := g }, { t with cache := c }⟩)

/-- 検査に失敗するかもしれない計算を走らせる。 -/
@[inline] def check {α : Type} (x : Except Panic α) : TaskM α := StateT.lift x

/-- 述べた事前条件に失敗する。 -/
def violated {α : Type} (message : String) : TaskM α := throw (.violated message)

/-- 限度を、今の数から 1 周期先に置く。 -/
def recalculateLimits : TaskM Unit := modifyTask fun t =>
  { t with realWordsLimit := t.wordsScanned + wordsPeriod, wordsLimit := t.wordsScanned + wordsPeriod,
           realRefsLimit := t.refsReached + refsPeriod, refsLimit := t.refsReached + refsPeriod }

/-- 限度を、最後に計算し直したところから 4 分の 1 周期先まで切り詰める。 -/
def decreaseLimits : TaskM Unit := modifyTask fun t =>
  { t with wordsLimit := t.realWordsLimit - 3 * wordsPeriod / 4,
           refsLimit := t.realRefsLimit - 3 * refsPeriod / 4 }

/-- タスクの統計のキャッシュを書き戻し、その当たりと外れを数える。 -/
def flushStatsCache : TaskM Unit := do
  let (hits, misses) ← updateStats fun c g => c.evictAll g
  modifyTask fun t => { t with counts := { t.counts with
    cacheHits := t.counts.cacheHits + hits, cacheMisses := t.counts.cacheMisses + misses } }

/-- `a` に印を付け、その大きさをタスクのキャッシュを通して生きているものに数える。これで印を付けたかを返す。 -/
def markInBitmap (a : Nat) : TaskM Bool := do
  match ← updateEng (·.tryMark a) with
  | none => return false
  | some (r, words) =>
    updateStats fun c g => do
      let (c, g) ← c.addLive g r words
      return ((), c, g)
    return true

/-- ローカルキューから大域のスタックへ、最大 1 チャンクの項目を新しいものから移す。`room` は受け渡しの
バッファの大きさで、1 チャンクか、バッファを貸し出しているあいだは 0。積み込みに失敗すると
オーバーフローのフラグを立て、ステップを打ち切る。 -/
def moveEntriesToGlobalStack (room : Nat) : TaskM Unit := do
  let w := (← task).id
  let (es, q) := takeBack ((← eng).queue w) room
  modifyEng fun e => { e with queues := e.queues.setIfInBounds w q }
  if !es.isEmpty then
    let ok ← updateEng (·.withStack (·.push es))
    if ok then
      modifyTask fun t => { t with counts := { t.counts with chunksPushed := t.counts.chunksPushed + 1 } }
    else
      modifyEng fun e => { e with overflown := true }
      modifyTask fun t => { t with aborted := true }
  decreaseLimits
where
  /-- 最大 `n` 個の項目を、新しいものから取り出す。 -/
  takeBack (q : TaskQueue TaskEntry) : Nat → List TaskEntry × TaskQueue TaskEntry
    | 0 => ([], q)
    | n + 1 => match q.pop with
      | (none, q) => ([], q)
      | (some x, q) => let (xs, q) := takeBack q n; (x :: xs, q)

/-- ローカルキューに項目を積む。キューが埋まっていれば、先に 1 チャンクを大域のスタックへ移す。
`room` は `moveEntriesToGlobalStack` と同じ。 -/
def pushWith (room : Nat) (x : TaskEntry) : TaskM Unit := do
  if x.isNull then violated "pushing a null entry"
  let w := (← task).id
  if ((← eng).queue w).isFull then
    moveEntriesToGlobalStack room
    if ((← eng).queue w).isFull then violated "local queue still full after moving a chunk out"
  modifyEng fun e => { e with queues := updateSlot e.queues w fun q => (q.push x).2 }

/-- 1 チャンクの受け渡しのバッファを手元に持って、ローカルキューに項目を積む。 -/
def push (x : TaskEntry) : TaskM Unit := do pushWith (← eng).stack.entriesPerChunk x

/-- 新しく印を付けたオブジェクトを、どの歩みも届かないので積まねばならないか：タスクのフィンガーより
下にあるか、タスクのリージョンより先で大域のフィンガーより下にある。 -/
def isBelowFinger (a globalFinger : Nat) : TaskM Bool := do
  let t ← task
  match t.finger with
  | some f =>
    if t.regionLimit > globalFinger then violated "region limit past global finger"
    if a < f then return true
    if a < t.regionLimit then return false
    return a < globalFinger
  | none => return a < globalFinger

/-- オブジェクトに印を付け、どの歩みも届かなければ積む。 -/
def makeReferenceGrey (a : Nat) : TaskM Unit := do
  if !(← markInBitmap a) then return
  if ← isBelowFinger a (← eng).finger then push (.obj a)

/-- SATB バッファに向かう手前までの時計の確認：向かうべきかを返す。 -/
def clockStops : TaskM Bool := do
  let t ← task
  if t.aborted then return false
  recalculateLimits
  let e ← eng
  if e.overflown then modifyTask fun t => { t with aborted := true }; return false
  if !t.concurrent then return false
  if e.aborted then modifyTask fun t => { t with aborted := true }; return false
  if t.timed then
    let late := e.schedule.late e.clockChecks
    modifyEng fun e => { e with clockChecks := e.clockChecks + 1 }
    if late then modifyTask fun t => { t with timedOut := true, aborted := true }; return false
  return !t.drainingSatb && e.satb.shouldProcess

/-- 完了した SATB バッファのオブジェクトを、古いバッファから、なくなるかステップが打ち切られるまで
灰色にする。バッファごとに時計が走る。取るバッファは最大 `fuel` 個。 -/
def drainSatbLoop : Nat → TaskM Unit
  | 0 => pure ()
  | fuel + 1 => do
    if (← task).aborted then return
    let (b, satb) := (← eng).satb.take
    let some objs := b | return
    modifyEng fun e => { e with satb }
    for a in objs do makeReferenceGrey a
    modifyTask fun t => { t with counts := { t.counts with
      satbBuffersDrained := t.counts.satbBuffersDrained + 1 } }
    let _ ← clockStops
    drainSatbLoop fuel

/-- 完了した SATB バッファを吐き出し、限度を切り詰める。 -/
def drainSatbBuffers : TaskM Unit := do
  modifyTask fun t => { t with drainingSatb := true }
  drainSatbLoop ((← eng).satb.count + 1)
  modifyTask fun t => { t with drainingSatb := false }
  decreaseLimits

/-- タスクの時計：止まるべきときはステップを打ち切り、そうでなければ十分な数が待っているときに SATB
バッファを吐き出す。 -/
def regularClockCall : TaskM Unit := do
  if ← clockStops then drainSatbBuffers

/-- 走査した語数か届いた参照の数が限度を越えていれば時計を走らせる。 -/
def checkLimits : TaskM Unit := do
  let t ← task
  if t.wordsScanned ≥ t.wordsLimit || t.refsReached ≥ t.refsLimit then regularClockCall

/-- 届いた参照を数え、その参照先を灰色にする。 -/
def dealWithReference (a : Nat) : TaskM Unit := do
  modifyTask fun t => { t with refsReached := t.refsReached + 1 }
  makeReferenceGrey a

/-- リージョン `fromRegion` のオブジェクトの、`a` を指す欄を扱う：`a` が別のリージョンにあれば
入ってくる参照として数え、それから灰色にする。 -/
def dealWithField (fromRegion : Option Nat) (a : Nat) : TaskM Unit := do
  if let some r := (← eng).heap.regionOf? a then
    if fromRegion ≠ some r then
      updateStats fun c g => do
        let (c, g) ← c.addIncoming g r
        return ((), c, g)
  dealWithReference a

/-- 走査した語数をステップの数に加える。検査つきの算術。 -/
def addWords (n : Nat) : TaskM Unit := do
  let w ← check (Word.add (← task).wordsScanned n)
  modifyTask fun t => { t with wordsScanned := w }

/-- 配列の要素 `[lo, lo + stride)`（長さの内側）を走査する。他のタスクが盗めるよう、配列の残りを
先に切片として積む。 -/
def scanArraySlice (array lo : Nat) : TaskM Unit := do
  let e ← eng
  let len := (e.heap.arrayLength? array).getD 0
  let hi := Nat.min (Nat.min (lo + e.config.sliceStride) Word.max) len
  if hi < len then
    let next ← check (Heap.elementAddr array hi)
    push (← check (TaskEntry.ofSlice next))
  let region := e.heap.regionOf? array
  for a in e.heap.arrayRefs array lo hi do dealWithField region a
  addWords (hi - lo)

/-- オブジェクトを走査する：その欄と、配列ならその要素。2 ストライド以上の配列は 1 ストライドずつ
走査する。 -/
def scanObject (a : Nat) : TaskM Unit := do
  let e ← eng
  let region := e.heap.regionOf? a
  modifyTask fun t => { t with counts := { t.counts with objectsScanned := t.counts.objectsScanned + 1 } }
  for r in e.heap.plainRefs a do dealWithField region r
  let size := e.heap.objectSize a
  match e.heap.arrayLength? a with
  | some len =>
    if len ≥ (← check (Word.mul 2 e.config.sliceStride)) then
      addWords (size - len)
      scanArraySlice a 0
    else
      for r in e.heap.arrayRefs a 0 len do dealWithField region r
      addWords size
  | none => addWords size

/-- 仕事の項目を 1 つ走査し、限度を越えていれば時計を走らせる。 -/
def scanTaskEntry (x : TaskEntry) : TaskM Unit := do
  match x with
  | .obj a => scanObject a
  | .slice a =>
    let (array, k) ← check ((← eng).heap.resolveElement a)
    scanArraySlice array k
  | .null => violated "scanning a null entry"
  checkLimits

/-- `target` より多く残っているあいだローカルの項目を取り出して走査し、打ち切られれば止まる。取る
項目は最大 `fuel` 個。 -/
def drainLocalLoop (target : Nat) : Nat → TaskM Unit
  | 0 => pure ()
  | fuel + 1 => do
    let w := (← task).id
    let (x, q) := ((← eng).queue w).pop
    let some x := x | return
    modifyEng fun e => { e with queues := e.queues.setIfInBounds w q }
    scanTaskEntry x
    if ((← eng).queue w).length ≤ target || (← task).aborted then return
    drainLocalLoop target fuel

/-- ローカルキューを吐き出す：`partially` なら少しの項目まで、そうでなければすべて。 -/
def drainLocalQueue (partially : Bool) : TaskM Unit := do
  if (← task).aborted then return
  let q := (← eng).queue (← task).id
  let target := if partially then Nat.min (q.capacity / 3) drainTarget else 0
  if q.length ≤ target then return
  drainLocalLoop target loopFuel

/-- 大域のスタックから 1 チャンクを取り出し、受け渡しのバッファを貸し出したまま、その項目を
ローカルキューに積む。チャンクを取り出せたかを返す。 -/
def getEntriesFromGlobalStack : TaskM Bool := do
  let room := (← eng).stack.entriesPerChunk
  match ← updateEng (·.withStack (·.pop room)) with
  | none => return false
  | some es =>
    modifyTask fun t => { t with counts := { t.counts with chunksPopped := t.counts.chunksPopped + 1 } }
    for x in es do pushWith 0 x
    decreaseLimits
    return true

/-- `target` より多く残っているあいだ大域のスタックからチャンクを取り、そのたびにローカルキューを
吐き出す。取るチャンクは最大 `fuel` 個。 -/
def drainGlobalLoop (partially : Bool) (target : Nat) : Nat → TaskM Unit
  | 0 => pure ()
  | fuel + 1 => do
    if (← task).aborted || (← eng).stack.count ≤ target then return
    if !(← getEntriesFromGlobalStack) then return
    drainLocalQueue partially
    drainGlobalLoop partially target fuel

/-- 大域のスタックを吐き出す：`partially` なら容量の 3 分の 1 まで、そうでなければすべて。 -/
def drainGlobalStack (partially : Bool) : TaskM Unit := do
  if (← task).aborted then return
  let chunks := (← eng).stack.capacityChunks
  let target := if partially then chunks / 3 else 0
  drainGlobalLoop partially target loopFuel

/-- 今のリージョンを手放す：統計のキャッシュを書き戻し、リージョンを離れる。 -/
def giveUpRegion : TaskM Unit := do
  if (← task).region.isNone then violated "no region to give up"
  flushStatsCache
  modifyTask MarkTask.clearRegion

/-- リージョン `r` を取る：歩みはその底から TAMS まで走る。 -/
def setupForRegion (r : Nat) : TaskM Unit := do
  let h := (← eng).heap
  modifyTask fun t => { t with region := some r, finger := some (h.bottom r), regionLimit := h.tamsOf r }

/-- タスクのフィンガーを動かす。フィンガーはリージョンの限度より下になければならない。 -/
def moveFingerTo (a : Nat) : TaskM Unit := do
  if a ≥ (← task).regionLimit then violated "finger moved past the region limit"
  modifyTask fun t => { t with finger := some a }

/-- 生きているもののビットマップで `cur` から `limit` まで印の付いたオブジェクトを歩き、それぞれを
走査してから部分的に吐き出す。ステップが打ち切られれば止まり、歩みが終わったかを返す。訪れる
オブジェクトは最大 `fuel` 個。 -/
def walkRegion (limit : Nat) : Nat → Nat → TaskM Bool
  | 0, _ => pure true
  | fuel + 1, cur => do
    match ← check ((← eng).bitmap.nextMarked cur limit) with
    | none => return true
    | some a =>
      moveFingerTo a
      scanTaskEntry (.obj a)
      drainLocalQueue true
      drainGlobalStack true
      if (← task).aborted then return false
      walkRegion limit fuel (a + Word.bytes)

/-- タスクのリージョンをフィンガーから歩く。歩みが終わればリージョンを手放し、打ち切られれば
フィンガーを最後に走査したオブジェクトのすぐ先に残す。 -/
def scanCurrentRegion : TaskM Unit := do
  let t ← task
  let (some _, some f) := (t.region, t.finger) | return
  let limit := t.regionLimit
  if f ≥ limit then
    giveUpRegion
    regularClockCall
    return
  if ← walkRegion limit ((limit - f) / Word.bytes + 1) f then
    giveUpRegion
    regularClockCall
    return
  if !(← task).aborted then violated "bitmap walk stopped without an abort"
  let some last := (← task).finger | return
  let size ← check (Word.mul ((← eng).heap.objectSize last) Word.bytes)
  let next ← check (Word.add last size)
  if next ≥ (← task).regionLimit then giveUpRegion else moveFingerTo next

/-- フェーズの別のタスクから項目を盗む：まず無作為に選んだ相手から、それから他のタスクを順に。 -/
def trySteal : TaskM (Option TaskEntry) := do
  let e ← eng
  let n := Nat.min e.activeTasks e.queues.size
  if n ≤ 1 then return none
  let w := (← task).id
  match ← randomProbes w n (2 * n) with
  | some x => return some x
  | none => sweep w n ((List.range n).drop 1)
where
  stealFrom (v : Nat) : TaskM (Option TaskEntry) := do
    let (x, q) := ((← eng).queue v).steal
    if x.isSome then modifyEng fun e => { e with queues := e.queues.setIfInBounds v q }
    return x
  randomProbes (w n : Nat) : Nat → TaskM (Option TaskEntry)
    | 0 => pure none
    | k + 1 => do
      let (v, t) := (← task).nextVictim n
      modifyTask fun _ => t
      if v ≠ w then
        if let some x ← stealFrom v then return some x
      randomProbes w n k
  sweep (w n : Nat) : List Nat → TaskM (Option TaskEntry)
    | [] => pure none
    | k :: ks => do
      if let some x ← stealFrom ((w + k) % n) then return some x
      sweep w n ks

/-- タスクの計数をエンジンのメトリクスに畳み込み、数え直す。 -/
def flushCounts : TaskM Unit := do
  let t ← task
  let c := { t.counts with wordsScanned := t.counts.wordsScanned + t.wordsScanned,
                           refsReached := t.counts.refsReached + t.refsReached }
  modifyEng fun e => { e with metrics := e.metrics.fold c }
  modifyTask fun t => { t with wordsScanned := 0, refsReached := 0, counts := {} }

end Marking

namespace Engine

/-- タスク `w` で `m` を走らせる。そのあいだタスクはエンジンから取り出しておく。 -/
def withTask {α : Type} (e : Engine) (w : Nat) (m : TaskM α) : Except Panic (α × Engine) := do
  let t := e.tasks.getD w default
  let e := { e with tasks := e.tasks.setIfInBounds w default }
  let (a, s) ← m.run ⟨e, t⟩
  return (a, { s.eng with tasks := s.eng.tasks.setIfInBounds w s.task })

end Engine

end RegionMark
