/-!
# エンジンの計数

`Metrics` はエンジンが生涯にしたことを数える。マーキングタスクは自分の仕事を `StepCounts` に数え、
毎回のステップの終わりにメトリクスへ畳み込む。
-/

namespace RegionMark

/-- マーキングタスクが、最後に計数をメトリクスへ畳み込んでから数えた仕事。 -/
structure StepCounts where
  stealAttempts : Nat := 0
  stealSuccesses : Nat := 0
  satbBuffersDrained : Nat := 0
  chunksPushed : Nat := 0
  chunksPopped : Nat := 0
  objectsScanned : Nat := 0
  wordsScanned : Nat := 0
  refsReached : Nat := 0
  cacheHits : Nat := 0
  cacheMisses : Nat := 0
  deriving DecidableEq, Repr, Inhabited

/-- マーキングエンジンの計数。 -/
structure Metrics where
  overflowRestarts : Nat := 0
  stepTimeouts : Nat := 0
  stealAttempts : Nat := 0
  stealSuccesses : Nat := 0
  satbBuffersDrained : Nat := 0
  chunksPushed : Nat := 0
  chunksPopped : Nat := 0
  objectsScanned : Nat := 0
  wordsScanned : Nat := 0
  refsReached : Nat := 0
  cyclesCompleted : Nat := 0
  cacheHits : Nat := 0
  cacheMisses : Nat := 0
  expansionFailures : Nat := 0
  deriving DecidableEq, Repr, Inhabited

/-- タスクの計数をメトリクスに加える。 -/
def Metrics.fold (m : Metrics) (c : StepCounts) : Metrics :=
  { m with
    stealAttempts := m.stealAttempts + c.stealAttempts
    stealSuccesses := m.stealSuccesses + c.stealSuccesses
    satbBuffersDrained := m.satbBuffersDrained + c.satbBuffersDrained
    chunksPushed := m.chunksPushed + c.chunksPushed
    chunksPopped := m.chunksPopped + c.chunksPopped
    objectsScanned := m.objectsScanned + c.objectsScanned
    wordsScanned := m.wordsScanned + c.wordsScanned
    refsReached := m.refsReached + c.refsReached
    cacheHits := m.cacheHits + c.cacheHits
    cacheMisses := m.cacheMisses + c.cacheMisses }

end RegionMark
