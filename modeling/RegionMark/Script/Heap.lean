import RegionMark.Script.Build
import RegionMark.Script.Stack
import RegionMark.Script.Snapshot
import RegionMark.Script.Roots
import RegionMark.Engine.Cycle

/-!
# 周期を回すヒープのスクリプト

ヒープを組み立て、エンジンを 1 度だけ作り、フェーズを進め、結果を問い合わせる。作るのに失敗するとヒープは
失われるが、ハンドルは残る。パニックは残りの手順を打ち切り、最後の要約もない。
-/

namespace RegionMark.Script

/-- エンジンの計量。結果がスケジュールと時間によらない構成でだけ、完了した周期の数のほかを見せる。 -/
structure MetricsReport where
  cyclesCompleted : Nat
  /-- 計量と、大域スタックが確保したバイト数。 -/
  counters : Option (Metrics × Nat)

/-- リージョンの生きたものの量。 -/
structure RegionReport where
  markedBytes : Nat
  liveBytes : Nat
  containsLive : Bool
  /-- 結果がスケジュールによらない構成でだけ見せる。 -/
  incoming : Option Nat

/-- 結果がスケジュールと時間によらない構成でだけ見せる、エンジンの内側。 -/
structure EngineDetail where
  incoming : List Nat
  finger : Nat
  overflown : Bool
  restartForOverflow : Bool
  stackChunks : Nat
  stackSize : Nat

/-- エンジンの要約。 -/
structure Summary where
  phase : Phase
  cycle : Nat
  objects : Nat
  marked : List (Nat × Nat)
  bitmapMarks : Nat
  regions : List (Nat × Nat)
  pending : List ObjName
  satbActive : Bool
  satbCompleted : Nat
  aborted : Bool
  metrics : MetricsReport
  detail : Option EngineDetail

/-- ヒープのスクリプトの一歩が返すもの。 -/
inductive HeapValue where
  | nothing
  | flag (b : Bool)
  | count (n : Nat)
  | handle (h : Option Nat)
  | made (m : Made)
  | names (xs : List ObjName)
  | regionInfo (bottom stop tams top : Nat)
  | heapInfo (start stop regionBytes regions objects : Nat)
  | reach (handles : List (Nat × Nat)) (addrs : List Nat)
  | element (array : ObjName) (index : Nat)
  | length (n : Option Nat)
  | initialized (deterministic : Bool)
  | regions (rs : List Nat)
  | remarked (o : RemarkOutcome)
  | runs (rs : List (Nat × Nat))
  | region (r : RegionReport)
  | metrics (m : MetricsReport)
  | summary (s : Summary)

/-- 計量の報告。 -/
def reportMetrics (e : Engine) : MetricsReport :=
  ⟨e.metrics.cyclesCompleted,
    if e.config.deterministic then some (e.metrics, e.stack.alloc.reservedBytes) else none⟩

/-- リージョン `r` の報告。 -/
def reportRegion (e : Engine) (r : Nat) : Except Panic RegionReport := do
  let live ← e.liveBytes r
  return ⟨← e.markedBytes r, live, live > 0,
    if e.config.deterministic then some (e.stats.incomingRefs r) else none⟩

/-- エンジンの要約。 -/
def summarize (e : Engine) : Except Panic Summary := do
  let regions ← (List.range e.heap.regionCount).mapM fun r => do
    return (← e.markedBytes r, ← e.liveBytes r)
  return {
    phase := e.phase, cycle := e.cycle, objects := e.heap.objects.size
    marked := runsOf e.markedObjects, bitmapMarks := ← e.bitmapMarks, regions
    pending := e.heap.pending.toList.map (nameAt e.heap)
    satbActive := e.satb.active, satbCompleted := e.satb.count, aborted := e.aborted
    metrics := reportMetrics e
    detail := if e.config.deterministic then
        some ⟨(List.range e.heap.regionCount).map e.stats.incomingRefs, e.finger, e.overflown,
          e.restartForOverflow, e.stack.capacityChunks, e.stack.count⟩
      else none }

/-- スクリプトがヒープをどう持つか。 -/
inductive Holder where
  | heap (h : Heap)
  | engine (e : Engine)
  /-- エンジンを作るのに失敗して、ヒープを失った。残るのは、配ったハンドルのアドレス。 -/
  | consumed (addrs : Array Nat)

/-- ヒープのスクリプトの状態：ヒープかエンジンと、ミューテータの SATB バッファ。 -/
structure Session where
  holder : Holder
  buffers : Array SatbBuffer

/-- ヒープのスクリプトの一歩の計算。断りと失敗のときも状態は残る。パニックは状態ごと捨てる。 -/
abbrev StepM := ExceptT Failure (StateT Session (Except Panic))

namespace Session

/-- パニックしうる計算を持ち上げる。 -/
def panicky {α : Type} (x : Except Panic α) : StepM α := ExceptT.lift (StateT.lift x)

/-- 一歩を断る。 -/
def refuse {α : Type} (r : Refusal) : StepM α := throw (.refused r)

/-- 断りうる計算を持ち上げる。 -/
def orRefuse {α : Type} (x : Except Failure α) : StepM α :=
  match x with
  | .ok a => pure a
  | .error f => throw f

/-- 今のヒープ。 -/
def heap : StepM Heap := do
  match (← get).holder with
  | .heap h => return h
  | .engine e => return e.heap
  | .consumed _ => refuse .noHeap

/-- 配ったハンドルの表。ヒープを失っても残る。 -/
def handles : StepM Handles := do
  match (← get).holder with
  | .heap h => return handlesOf h
  | .engine e => return handlesOf e.heap
  | .consumed addrs => return handlesAt addrs

/-- ヒープの持ち方を、その場で書き換えながら `f` に渡す。 -/
def updateHolder {α : Type} (f : Holder → Except Panic (Except Failure α × Holder)) : StepM α :=
  ExceptT.mk fun ⟨h, bs⟩ => do
    let (r, h) ← f h
    return (r, ⟨h, bs⟩)

/-- ヒープを、その場で書き換えながら `f` に渡す。 -/
def updateHeap {α : Type} (f : Heap → Except Panic (α × Heap)) : StepM α :=
  updateHolder fun
    | .heap h => do
      let (a, h) ← f h
      return (.ok a, .heap h)
    | .engine e => do
      let h := e.heap
      let e := { e with heap := default }
      let (a, h) ← f h
      return (.ok a, .engine { e with heap := h })
    | .consumed addrs => return (.error (.refused .noHeap), .consumed addrs)

/-- 今のエンジン。 -/
def engine : StepM Engine := do
  match (← get).holder with
  | .engine e => return e
  | _ => refuse .noEngine

/-- エンジンを置き換える。 -/
def setEngine (e : Engine) : StepM Unit := modify fun s => { s with holder := .engine e }

/-- エンジンの上でフェーズの操作を走らせる。失敗しても、それまでの変化は残す。 -/
def onEngine {α : Type} (m : CycleM α) : StepM α :=
  updateHolder fun
    | .engine e => do
      let (r, e) ← (ExceptT.run m).run e
      return (r.mapError .error, .engine e)
    | h => return (.error (.refused .noEngine), h)

/-- エンジンの上で、失敗しない操作を走らせる。 -/
def onEngineState {α : Type} (m : StateT Engine (Except Panic) α) : StepM α :=
  onEngine (ExceptT.lift m)

/-- 名指されたオブジェクトのアドレス。 -/
def resolve (o : ObjName) : StepM Nat := do orRefuse (resolveName (← handles) o)

/-- 参照の並びのアドレス。項目は順に読んで解き、読めない項目か配っていないハンドルで止まる。 -/
def resolveAll (items : List (Except Failure RefsItem)) : StepM (List Nat) := do
  let h ← handles
  let parts ← items.mapM fun i => do orRefuse (resolveRefs h [← orRefuse i])
  return parts.flatten

/-- 配列の要素の並び。項目は順に読んで解き、読めない項目、配っていないハンドル、多すぎる null で
止まる。 -/
def resolveElements (items : List (Except Failure ElemItem)) : StepM (List (Option Nat)) := do
  let h ← handles
  let parts ← items.mapM fun i => do orRefuse (resolveElems h [← orRefuse i])
  return parts.flatten

/-- リージョンの番号を確かめる。ヒープを失っていれば断る。 -/
def checkRegion (r : Nat) : StepM Unit := do
  if r ≥ (← heap).regionCount then refuse (.badRegion r)

/-- ミューテータのバッファ `i` に `f` を施し、エンジンの SATB の集合を更新する。 -/
def onBuffer {α : Type} (i : Nat) (f : SatbBuffer → SatbSet (List (List Nat)) → α × SatbBuffer × SatbSet (List (List Nat))) : StepM α := do
  let e ← engine
  let some b := (← get).buffers[i]? | refuse (.badInput "no such buffer")
  let (a, b, satb) := f b e.satb
  modify fun s => { s with buffers := s.buffers.setIfInBounds i b }
  setEngine { e with satb }
  return a

end Session


/-- 一度にまとめて割り当てるオブジェクトの上限。 -/
def maxBulkObjects : Nat := 100000

/-- エンジンを作るときの上限：タスク、ローカルキュー、統計キャッシュの大きさ。 -/
def checkEngineLimits (c : MarkConfig) : Except Failure Unit := do
  if c.workers > 8 then throw (.refused (.limit "num_workers above 8"))
  if c.queueCapacity > Nat.pow 2 18 || c.statsCacheEntries > Nat.pow 2 16 then
    throw (.refused (.limit "task queue above 2^18 or stats cache above 2^16"))
  checkReservation c.minChunks c.entriesPerChunk

namespace Session

/-! ## ヒープの組み立て -/

/-- リージョン `r` に、`refs` を指す `words` 語のオブジェクトを割り当てる。入らなければ `none`。 -/
def allocate (r words : Nat) (refs : List Nat) : StepM HeapValue := do
  let n := (← heap).objects.size
  let a ← updateHeap (·.tryAlloc r words refs)
  return .handle (a.map fun _ => n)

/-- リージョン `r` に、要素が `elems` の配列を割り当てる。 -/
def allocateArray (r : Nat) (elems : List (Option Nat)) : StepM HeapValue := do
  let n := (← heap).objects.size
  let _ ← updateHeap (·.allocArray r elems)
  return .handle (some n)

/-- まとめて割り当てる数 `count` を確かめる。 -/
def checkBulk (count : Nat) : StepM Unit :=
  if count > maxBulkObjects then refuse (.limit "count above 100000") else pure ()

/-- 何も割り当てないまとめての割り当て：ヒープを見ずに、次のハンドルから 0 個と答える。 -/
def allocateNone (r : Nat) : StepM HeapValue := do return .made ⟨(← handles).count, 0, r⟩

/-- 同じ形のオブジェクトを `count` 個並べる。 -/
def allocateRun (r count words : Nat) (refs : List Nat) (chain spill : Bool) : StepM HeapValue := do
  if count = 0 then allocateNone r
  else return .made (← updateHeap fun h => allocRun h r count words refs chain spill)

/-- 種 `seed` から乱数で `count` 個のオブジェクトのグラフを作る。 -/
def allocateRandom (r count seed maxFanout maxSize : Nat) : StepM HeapValue := do
  if count = 0 then allocateNone r
  else return .made (← updateHeap fun h => allocRandom h r count seed maxFanout maxSize)

/-- オブジェクト `a` の参照を `refs` に置き換える。 -/
def setReferences (a : Nat) (refs : List Nat) : StepM HeapValue := do
  updateHeap fun h => pure ((), h.setRefs a refs)
  return .nothing

/-- 配列 `a` の要素 `k` を `v` にする。 -/
def setArrayElement (a k : Nat) (v : Option Nat) : StepM HeapValue := do
  updateHeap fun h => do return ((), ← h.setElement a k v)
  return .nothing

/-- どのリージョンの TAMS も、今の割り当ての先頭にする。 -/
def snapshotTams : StepM HeapValue := do
  updateHeap fun h => pure ((), h.snapshotTams)
  return .nothing

/-- 弱い参照の referent を加える。 -/
def addSoftReferents (as : List Nat) : StepM Unit :=
  updateHeap fun h => pure ((), { h with softReferents := h.softReferents ++ as.toArray })

/-- ファイナライズを待つオブジェクトを加える。 -/
def addFinalizable (as : List Nat) : StepM Unit :=
  updateHeap fun h => pure ((), { h with finalizable := h.finalizable ++ as.toArray })

/-! ## ヒープへの問い合わせ -/

/-- オブジェクト `a` が指すもの。 -/
def referencesOf (a : Nat) : StepM HeapValue := do
  let h ← heap
  return .names ((h.references a).map (nameAt h))

/-- `a` にあるオブジェクトの語数。 -/
def sizeOf (a : Nat) : StepM HeapValue := do return .count ((← heap).objectSize a)

/-- リージョン `r` の境界、TAMS、割り当ての先頭。ヒープがなければ、番号より先にそれを断る。 -/
def regionInfo (r : Nat) : StepM HeapValue := do
  checkRegion r
  let h ← heap
  return .regionInfo (h.bottom r) (h.regionEnd r) (h.tamsOf r) (h.topOf r)

/-- ヒープの範囲と大きさ。 -/
def heapInfo : StepM HeapValue := do
  let h ← heap
  return .heapInfo h.base h.limit h.regionBytes h.regionCount h.objects.size

/-- アドレス `a` のリージョンの番号。 -/
def regionIndexOf (a : Nat) : StepM HeapValue := do return .count (← panicky ((← heap).regionIndex a))

/-- `roots` から届くもの：ハンドルの区間と、オブジェクトでないアドレス。 -/
def reachableFrom (roots : List Nat) : StepM HeapValue := do
  let h ← heap
  let found := (h.reachable roots).map (nameAt h)
  let handles := found.filterMap fun | .handle i => some i | .addr _ => none
  let addrs := found.filterMap fun | .addr a => some a | .handle _ => none
  return .reach (runsOf (handles.mergeSort (· ≤ ·))) addrs

/-- 配列 `a` の要素 `k` のアドレス。 -/
def elementAddrOf (a k : Nat) : StepM HeapValue := do return .count (← panicky (Heap.elementAddr a k))

/-- 要素のアドレス `a` を、配列と要素の番号に戻す。 -/
def resolveElementAt (a : Nat) : StepM HeapValue := do
  let h ← heap
  let (start, k) ← panicky (h.resolveElement a)
  return .element (nameAt h start) k

/-- 配列 `a` の長さ。配列でなければ `none`。 -/
def arrayLengthOf (a : Nat) : StepM HeapValue := do return .length ((← heap).arrayLength? a)

/-- ファイナライズを待つオブジェクト。 -/
def pendingFinalization : StepM HeapValue := do
  let h ← heap
  return .names (h.pending.toList.map (nameAt h))

/-! ## エンジン -/

/-- まだエンジンのものになっていないヒープ。エンジンがあるか、ヒープを失っていれば、2 度目と断る。 -/
def freshHeap : StepM Heap := do
  match (← get).holder with
  | .heap h => return h
  | _ => refuse .alreadyInit

/-- ヒープ `h` の上に構成 `c` のエンジンを作る。構成が正しいときに限り、作る前に大きさの上限を
確かめる。作るのに失敗すればヒープを失い、配ったハンドルのアドレスだけが残る。 -/
def initEngine (h : Heap) (c : MarkConfig) : StepM HeapValue := do
  if let .ok () ← panicky c.check then orRefuse (checkEngineLimits c)
  match ← panicky (Engine.new h c Schedule.standard Memory.standard) with
  | .ok e => setEngine e; return .initialized c.deterministic
  | .error err =>
    modify fun s => { s with holder := .consumed (h.objects.map (·.addr)) }
    throw (.error err)

/-- フェーズを進めるだけの操作を走らせる。 -/
def advance (m : CycleM Unit) : StepM HeapValue := do onEngine m; return .nothing

/-- リージョン `r` の使用中の範囲。 -/
def usedRange (r : Nat) : StepM MemRange := do
  checkRegion r
  let h ← heap
  panicky (MemRange.new (h.bottom r) (h.topOf r))

/-- ルートリージョンを加え、持っている数を答える。 -/
def addRootRegion (range : MemRange) : StepM HeapValue := do
  return .count (← onEngine (Cycle.addRootRegion range))

/-- `a` をルートとして印を付ける。 -/
def markRoot (a : Nat) : StepM HeapValue := do return .flag (← onEngineState (Cycle.markRoot a))

/-- 各アドレスをルートとして印を付け、新しく付いた数を答える。 -/
def markRoots (as : List Nat) : StepM HeapValue := do
  let hits ← onEngineState (as.mapM Cycle.markRoot)
  return .count (hits.count true)

/-- 中断し、周期が中断されたかを答える。 -/
def abort : StepM HeapValue := do return .flag (← onEngineState Cycle.abort)

/-- タスクの中断の合図だけを立てる。 -/
def abortThreads : StepM HeapValue := do
  onEngineState (modify Engine.abortThreads)
  return .nothing

/-- ルートリージョンの走査を待つ。 -/
def waitRoots : StepM HeapValue := do return .flag (← orRefuse (waitForScan (← engine).roots))

/-- `a` に印が付いているか。 -/
def isMarked (a : Nat) : StepM HeapValue := do return .flag ((← engine).isMarked a)

/-- `a` が生きているか。 -/
def isLive (a : Nat) : StepM HeapValue := do return .flag ((← engine).isLive a)

/-- 印の付いたハンドルの区間。 -/
def marked : StepM HeapValue := do return .runs (runsOf (← engine).markedObjects)

/-- リージョン `r` の生きたものの量。ヒープと番号を、エンジンより先に確かめる。 -/
def regionStats (r : Nat) : StepM HeapValue := do
  checkRegion r
  let e ← engine
  return .region (← panicky (reportRegion e r))

/-- `a` だけの SATB のバッファを列に加え、列の長さを答える。 -/
def satbEnqueue (a : Nat) : StepM HeapValue := do
  let e ← engine
  let satb := e.satb.enqueue [a]
  setEngine { e with satb }
  return .count satb.count

/-- 容量 `c` のミューテータのバッファを作り、その番号を答える。 -/
def newSatbBuffer (c : Nat) : StepM HeapValue := do
  if c > maxSatbBuffer then refuse (.limit "buffer capacity above 2^20")
  let _ ← engine
  let s ← get
  set { s with buffers := s.buffers.push (SatbBuffer.new c) }
  return .count s.buffers.size

/-- バッファ `i` に `a` を記録し、バッファの長さを答える。 -/
def satbRecord (i a : Nat) : StepM HeapValue :=
  onBuffer i fun (b : SatbBuffer) (t : SatbSet (List (List Nat))) =>
    let (b, t) := b.record t a
    (HeapValue.count b.entries.size, b, t)

/-- バッファ `i` を列に送り、列の長さを答える。 -/
def satbFlush (i : Nat) : StepM HeapValue :=
  onBuffer i fun (b : SatbBuffer) (t : SatbSet (List (List Nat))) =>
    let (b, t) := b.flush t
    (HeapValue.count t.count, b, t)

/-- 書き込みの前のバリア：`a` の古い参照をバッファ `i` に記録してから、参照を `refs` に置き換える。 -/
def barrierStore (a : Nat) (refs : List Nat) (i : Nat) : StepM HeapValue := do
  let old := (← heap).references a
  let v ← onBuffer i fun (b : SatbBuffer) (t : SatbSet (List (List Nat))) =>
    let (b, t) := old.foldl (fun (bt : SatbBuffer × SatbSet (List (List Nat))) x => bt.1.record bt.2 x) (b, t)
    (HeapValue.count b.entries.size, b, t)
  updateHeap fun h => pure ((), h.setRefs a refs)
  return v

/-- エンジンの計量。 -/
def metrics : StepM HeapValue := do return .metrics (reportMetrics (← engine))

/-- エンジンの要約。 -/
def state : StepM HeapValue := do return .summary (← panicky (summarize (← engine)))

end Session

/-- 一歩の答え：返したものと、エンジンがあればそのあとのフェーズと印の付いたオブジェクトの数。 -/
structure HeapReply where
  value : HeapValue
  after : Option (Phase × Nat)

/-- 一歩を走らせ、エンジンがあればフェーズと印の数を添える。 -/
def replyTo (step : StepM HeapValue) : StepM HeapReply := do
  let v ← step
  return ⟨v, match (← get).holder with
    | .engine e => some (e.phase, e.markedObjects.length)
    | _ => none⟩

/-- 一歩ずつ走らせる。断りと失敗は答えて先へ進む。パニックはそこで打ち切り、打ち切ったことも返す。 -/
def runHeapSteps : Session → List (StepM HeapValue) → List (Except Failure HeapReply) × Session × Bool
  | s, [] => ([], s, false)
  | s, step :: rest =>
    match ((replyTo step).run).run s with
    | .error p => ([.error (.panic p)], s, true)
    | .ok (.error f, s') =>
      if f.isFatal then ([.error f], s', true)
      else
        let (rs, t, stopped) := runHeapSteps s' rest
        (.error f :: rs, t, stopped)
    | .ok (.ok r, s') =>
      let (rs, t, stopped) := runHeapSteps s' rest
      (.ok r :: rs, t, stopped)

/-- ヒープのスクリプトの結果：各歩の答えと、最後のエンジンの要約。 -/
structure HeapRun where
  steps : List (Except Failure HeapReply)
  final : Option Summary

/-- スクリプトが作れるヒープの上限：リージョンの数、大きさ、合わせた大きさ。 -/
def checkHeapLimits (regions regionBytes : Nat) : Except Failure Unit :=
  if regions > 1024 || regionBytes > Nat.pow 2 24 || regions * regionBytes > Nat.pow 2 26 then
    .error (.refused (.limit "heap above 1024 regions, 16 MiB regions or 64 MiB total"))
  else .ok ()

/-- `regions` 個の `regionBytes` バイトのリージョンからなるヒープの上で `steps` を走らせる。手順の並びは
ヒープができてから読む。パニックで打ち切ったとき、エンジンがないときは、要約はない。 -/
def runHeap (regions regionBytes : Nat) (steps : Except Failure (List (StepM HeapValue))) :
    Except Failure HeapRun := do
  checkHeapLimits regions regionBytes
  let h ← ofPanic (Heap.new regions regionBytes)
  let (rs, s, stopped) := runHeapSteps ⟨.heap h, #[]⟩ (← steps)
  let final := if stopped then none else match s.holder with
    | .engine e => match summarize e with
      | .ok sm => some sm
      | .error _ => none
    | _ => none
  return ⟨rs, final⟩

end RegionMark.Script
