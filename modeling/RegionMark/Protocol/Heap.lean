import RegionMark.Protocol.Setup
import RegionMark.Script.Heap

/-!
# ヒープのスクリプトの要求

一歩の読み取りは、引数を読む順と状態を確かめる順が一歩ごとに決まった `StepM` の計算である。オブジェクトは
ハンドルか `{"addr": n}` で名指し、参照の並びには `{"range": [lo, hi]}`、要素には `{"nulls": k}` も書ける。
-/

namespace RegionMark.Protocol

open RegionMark.Script RegionMark.Script.Session

/-- 読んだ欄を一歩の計算にする。 -/
def read {α : Type} (x : Except Failure α) : StepM α := orRefuse x

/-- オブジェクトの名指し。 -/
def nameOf (j : Json) : Except Failure ObjName :=
  let bad : Except Failure ObjName := malformed "reference must be a handle or \x7b\"addr\":n\x7d"
  match j with
  | .num _ => match j.word? with
    | some n => .ok (.handle n)
    | none => bad
  | .obj _ => match j.field? "addr" with
    | some a => do
      let n ← natOf "addr" a
      if n = 0 then malformed "object address 0" else return .addr n
    | none => bad
  | _ => bad

/-- 参照の並びの項目。 -/
def refsItemOf (j : Json) : Except Failure RefsItem :=
  match j.field? "range" with
  | some r => do let (lo, hi) ← pairOf "range" r; return .range lo hi
  | none => .one <$> nameOf j

/-- 配列の要素の並びの項目。 -/
def elemItemOf (j : Json) : Except Failure ElemItem :=
  match j with
  | .null => .ok .null
  | _ => match j.field? "range", j.field? "nulls" with
    | some r, _ => do let (lo, hi) ← pairOf "range" r; return .range lo hi
    | none, some k => .nulls <$> natOf "nulls" k
    | none, none => .one <$> nameOf j

/-- 欄 `k` が名指すオブジェクトのアドレス。欄がなければ断る。 -/
def objectArg (o : Json) (k : String) : StepM Nat :=
  match o.field? k with
  | some v => do resolve (← read (nameOf v))
  | none => read (malformed ("missing " ++ k))

/-- 欄 `k` の参照の並びのアドレス。欄がなければ空。配列でない並びは、欄の名前によらず参照の並びとして
断る。 -/
def refsArg (o : Json) (k : String) : StepM (List Nat) := do
  let items ← match o.field? k with
    | some v => read (arrayOf "refs" v)
    | none => pure []
  resolveAll (items.map refsItemOf)

/-- 欄 `k` の、あってもなくてもよいオブジェクトのアドレス。 -/
def optionalObjectArg (o : Json) (k : String) : StepM (Option Nat) :=
  match o.field? k with
  | some v => do return some (← resolve (← read (nameOf v)))
  | none => pure none

/-- ルートリージョンの範囲：リージョン `region` の使用中の範囲か、`[start, end]`。 -/
def rootRangeArg (o : Json) : StepM MemRange :=
  match o.field? "region" with
  | some r => do usedRange (← read (natOf "region" r))
  | none => do
    let lo ← read (natField o "start")
    let hi ← read (natField o "end")
    panicky (MemRange.new lo hi)

/-- ヒープの組み立てと問い合わせの一歩。 -/
def buildStepOf (name : String) (a : Json) : Option (StepM HeapValue) :=
  match name with
  | "alloc" => some do
    let r ← read (natField a "region")
    let w ← read (natFieldOr a "size" 1)
    allocate r w (← refsArg a "refs")
  | "alloc_array" => some do
    let r ← read (natField a "region")
    let items ← read (arrayFieldOr a "elements")
    allocateArray r (← resolveElements (items.map elemItemOf))
  | "alloc_n" => some do
    let r ← read (natField a "region")
    let c ← read (natField a "count")
    checkBulk c
    let w ← read (natFieldOr a "size" 1)
    let refs ← refsArg a "refs"
    let chain ← read (boolFieldOr a "chain" false)
    let spill ← read (boolFieldOr a "spill" false)
    allocateRun r c w refs chain spill
  | "alloc_random" => some do
    let r ← read (natField a "region")
    let c ← read (natField a "count")
    checkBulk c
    let f ← read (natField a "max_fanout")
    let m ← read (natField a "max_size")
    if f = 0 || m = 0 then read (malformed "max_fanout and max_size must be at least 1")
    let seed ← read (natField a "seed")
    allocateRandom r c seed f m
  | "set_refs" => some do
    let x ← objectArg a "obj"
    setReferences x (← refsArg a "refs")
  | "set_element" => some do
    let x ← objectArg a "array"
    let k ← read (natField a "index")
    setArrayElement x k (← optionalObjectArg a "value")
  | "snapshot_tams" => some snapshotTams
  | "soft_referent" => some do
    addSoftReferents [← objectArg a "obj"]
    return .nothing
  | "finalizable" => some do
    addFinalizable [← objectArg a "obj"]
    return .nothing
  | "soft_referents" => some do
    let xs ← refsArg a "objs"
    addSoftReferents xs
    return .count xs.length
  | "finalizables" => some do
    let xs ← refsArg a "objs"
    addFinalizable xs
    return .count xs.length
  | "references" => some do referencesOf (← objectArg a "obj")
  | "object_size" => some do sizeOf (← objectArg a "obj")
  | "region_info" => some do regionInfo (← read (natField a "region"))
  | "heap_info" => some heapInfo
  | "region_index" => some do regionIndexOf (← read (natField a "addr"))
  | "reachable" => some do reachableFrom (← refsArg a "roots")
  | "array_element_addr" => some do
    let x ← objectArg a "array"
    let _ ← heap
    elementAddrOf x (← read (natField a "index"))
  | "resolve_array_element" => some do
    let _ ← heap
    resolveElementAt (← read (natField a "addr"))
  | "array_len" => some do arrayLengthOf (← objectArg a "array")
  | "pending_finalization" => some pendingFinalization
  | _ => none

/-- エンジンの一歩。 -/
def engineStepOf (name : String) (a : Json) : Option (StepM HeapValue) :=
  match name with
  | "init" => some do
    let h ← freshHeap
    initEngine h (← read (requestConfig a))
  | "start" => some (advance Cycle.start)
  | "add_root_region" => some do
    let _ ← engine
    addRootRegion (← rootRangeArg a)
  | "mark_root" => some do
    let x ← objectArg a "obj"
    let _ ← engine
    markRoot x
  | "mark_roots" => some do
    let xs ← refsArg a "objs"
    let _ ← engine
    markRoots xs
  | "scan_roots" => some (advance Cycle.scanRootRegions)
  | "mark_from_roots" => some (advance Cycle.markFromRoots)
  | "preclean" => some (advance Cycle.preclean)
  | "remark" => some do return .remarked (← onEngine Cycle.remark)
  | "cleanup" => some do return .regions (← onEngine Cycle.cleanup)
  | "end" => some (advance Cycle.finish)
  | "abort" => some abort
  | "abort_threads" => some abortThreads
  | "clear_bitmap" => some (advance Cycle.clearBitmap)
  | "run_cycle" => some do return .regions (← onEngine Cycle.runCycle)
  | "wait_roots" => some waitRoots
  | "is_marked" => some do isMarked (← objectArg a "obj")
  | "is_live" => some do isLive (← objectArg a "obj")
  | "marked" => some marked
  | "region_stats" => some do regionStats (← read (natField a "region"))
  | "satb_enqueue" => some do satbEnqueue (← objectArg a "obj")
  | "satb_buffer" => some do
    let _ ← engine
    newSatbBuffer (← read (natFieldOr a "capacity" defaultSatbCapacity))
  | "satb_record" => some do
    let i ← read (natField a "buffer")
    let x ← objectArg a "obj"
    let _ ← engine
    satbRecord i x
  | "satb_flush" => some do
    let i ← read (natField a "buffer")
    let _ ← engine
    satbFlush i
  | "barrier_store" => some do
    let x ← objectArg a "obj"
    let refs ← refsArg a "refs"
    let i ← read (natField a "buffer")
    let _ ← engine
    barrierStore x refs i
  | "metrics" => some metrics
  | "state" => some state
  | _ => none

/-- ヒープのスクリプトの一歩。知らない名前は断る。 -/
def heapStepOf (name : String) (a : Json) : StepM HeapValue :=
  match buildStepOf name a <|> engineStepOf name a with
  | some step => step
  | none => read (malformed ("unknown heap step " ++ name))

/-- 名指し：オブジェクトならそのハンドル、さもなくば `{"addr": n}`。 -/
def nameJson : ObjName → Json
  | .handle h => Json.nat h
  | .addr a => .obj [("addr", Json.nat a)]

/-- ハンドルの区間 `[first, last]` の並び。 -/
def runsJson (rs : List (Nat × Nat)) : Json := .arr (rs.map pairJson)

/-- エンジンの計量。 -/
def metricsJson (m : MetricsReport) : Json :=
  match m.counters with
  | none => .obj [("cycles_completed", Json.nat m.cyclesCompleted)]
  | some (x, reserved) => .obj [("overflow_restarts", Json.nat x.overflowRestarts),
      ("step_timeouts", Json.nat x.stepTimeouts), ("steal_attempts", Json.nat x.stealAttempts),
      ("steal_successes", Json.nat x.stealSuccesses),
      ("satb_buffers_drained", Json.nat x.satbBuffersDrained),
      ("chunks_pushed", Json.nat x.chunksPushed), ("chunks_popped", Json.nat x.chunksPopped),
      ("objects_scanned", Json.nat x.objectsScanned), ("words_scanned", Json.nat x.wordsScanned),
      ("refs_reached", Json.nat x.refsReached), ("cycles_completed", Json.nat x.cyclesCompleted),
      ("stats_cache_hits", Json.nat x.cacheHits), ("stats_cache_misses", Json.nat x.cacheMisses),
      ("mark_stack_expansion_failures", Json.nat x.expansionFailures),
      ("mark_stack_reserved_bytes", Json.nat reserved)]

/-- エンジンの要約。 -/
def summaryJson (s : Summary) : Json :=
  let detail := match s.detail with
    | none => []
    | some d => [("incoming_refs", natsJson d.incoming), ("finger", Json.nat d.finger),
        ("has_overflown", .bool d.overflown), ("restart_for_overflow", .bool d.restartForOverflow),
        ("stack_capacity_chunks", Json.nat d.stackChunks), ("stack_size", Json.nat d.stackSize)]
  .obj ([("phase", .str s.phase.name), ("cycle", Json.nat s.cycle), ("n_objects", Json.nat s.objects),
    ("marked", runsJson s.marked), ("bitmap_marks", Json.nat s.bitmapMarks),
    ("regions", .arr (s.regions.map pairJson)),
    ("pending_finalization", .arr (s.pending.map nameJson)), ("satb_active", .bool s.satbActive),
    ("satb_completed", Json.nat s.satbCompleted), ("has_aborted", .bool s.aborted),
    ("metrics", metricsJson s.metrics)] ++ detail)

/-- リージョンの生きたものの量。 -/
def regionReportJson (r : RegionReport) : Json :=
  .obj ([("marked_bytes", Json.nat r.markedBytes), ("live_bytes", Json.nat r.liveBytes),
    ("contains_live", .bool r.containsLive)] ++
    (r.incoming.map fun n => [("incoming_refs", Json.nat n)]).getD [])

/-- ヒープの一歩の値。 -/
def heapValueJson : HeapValue → Json
  | .nothing => .null
  | .flag b => .bool b
  | .count n => Json.nat n
  | .handle h => optionJson Json.nat h
  | .made m => .obj [("first", Json.nat m.first), ("count", Json.nat m.count), ("region", Json.nat m.region)]
  | .names xs => .arr (xs.map nameJson)
  | .regionInfo b e t p => .obj [("bottom", Json.nat b), ("end", Json.nat e), ("tams", Json.nat t),
      ("top", Json.nat p), ("used", natsJson [b, p])]
  | .heapInfo lo hi rb rc n => .obj [("reserved", natsJson [lo, hi]), ("region_size", Json.nat rb),
      ("num_regions", Json.nat rc), ("n_objects", Json.nat n)]
  | .reach hs as => .obj [("handles", runsJson hs), ("addrs", natsJson as)]
  | .element a k => .arr [nameJson a, Json.nat k]
  | .length n => optionJson Json.nat n
  | .initialized d => .obj [("deterministic", .bool d)]
  | .regions rs => natsJson rs
  | .remarked .completed => .str "Completed"
  | .remarked .restartForOverflow => .str "RestartForOverflow"
  | .runs rs => runsJson rs
  | .region r => regionReportJson r
  | .metrics m => metricsJson m
  | .summary s => summaryJson s

/-- 一歩の答え。エンジンがあれば、フェーズと印の付いたオブジェクトの数を添える。 -/
def heapReplyJson (r : HeapReply) : Json :=
  match r.after with
  | none => .obj [("ok", heapValueJson r.value)]
  | some (p, n) => .obj [("ok", heapValueJson r.value), ("phase", .str p.name), ("n_marked", Json.nat n)]

/-- 読めなかった一歩は、その失敗を投げる一歩とする。 -/
def stepOrFailure : Except Failure (StepM HeapValue) → StepM HeapValue
  | .ok step => step
  | .error f => throw f

/-- `heap`：ヒープを作り、`steps` を走らせる。 -/
def answerHeap (j : Json) : Except Failure Json := do
  let regions ← natField j "regions"
  let regionBytes ← natField j "region_size"
  let steps := (stepsOf j "steps" fun name a => .ok (heapStepOf name a)).map (·.map stepOrFailure)
  let run ← runHeap regions regionBytes steps
  return .obj [("steps", .arr (run.steps.map (outcomeJson heapReplyJson))),
    ("final", optionJson summaryJson run.final)]

end RegionMark.Protocol
