/-!
# マーキング周期のフェーズ

周期は `idle → scanRootRegions → concurrentMark → remark → cleanup → idle` と進む。再マークの
停止中にオーバーフローが起きると、`remark` から `concurrentMark` に戻る。
-/

namespace RegionMark

/-- マーキング周期の今いるところ。 -/
inductive Phase where
  | idle
  | scanRootRegions
  | concurrentMark
  | remark
  | cleanup
  deriving DecidableEq, Repr, Inhabited

/-- フェーズを報告するときの名前。 -/
def Phase.name : Phase → String
  | .idle => "Idle"
  | .scanRootRegions => "ScanRootRegions"
  | .concurrentMark => "ConcurrentMark"
  | .remark => "Remark"
  | .cleanup => "Cleanup"

end RegionMark
