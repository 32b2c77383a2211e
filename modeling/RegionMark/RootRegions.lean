import RegionMark.Word

/-!
# ルートリージョン

並行マーキングの本体が始まる前に、その中のオブジェクトの参照先に印を付けるアドレスの範囲。決まった
数までの範囲を枠に持つ。走査は、取り出しの位置を進めながら範囲を順に渡し、中断されるとそれ以上は
渡さない。集合を空にしても枠は範囲を残し、持っているのは最初の `count` 個だけである。
-/

namespace RegionMark

/-- 両端で与えるアドレスの範囲 `[start, end)`。 -/
structure MemRange where
  start : Nat
  stop : Nat
  deriving DecidableEq, Repr, Inhabited

/-- 2 つの端の間の範囲。端は逆順であってはならない。 -/
def MemRange.new (start stop : Nat) : Except Panic MemRange :=
  if start ≤ stop then .ok ⟨start, stop⟩
  else .error (.violated ("inverted region " ++ Word.hex start ++ ".." ++ Word.hex stop))

/-- 周期のルートリージョンと、その走査の状態。 -/
structure RootRegions where
  slots : Array MemRange
  /-- 持っている範囲：最初の `count` 個の枠。 -/
  count : Nat
  /-- 走査の用意をしてから渡した範囲の数。 -/
  claimed : Nat
  aborted : Bool
  scanning : Bool
  deriving Repr

namespace RootRegions

/-- `n` 個の範囲が入る空の集合。 -/
def new (n : Nat) : RootRegions := ⟨Array.replicate n default, 0, 0, false, false⟩

/-- 範囲を加える。すべての枠が埋まっていれば `false`。走査が走っていてはならない。 -/
def add (s : RootRegions) (r : MemRange) : Except Panic (Bool × RootRegions) :=
  if s.scanning then .error (.violated "root regions added while a scan is in progress")
  else if s.count < s.slots.size then
    .ok (true, { s with slots := s.slots.setIfInBounds s.count r, count := s.count + 1 })
  else .ok (false, s)

/-- 持っている範囲。 -/
def held (s : RootRegions) : List MemRange := (s.slots.toList.take s.count)

/-- その範囲を持っているか。 -/
def contains (s : RootRegions) (r : MemRange) : Bool := s.held.contains r

/-- 集合と取り出しの位置を空にする。中断は残る。 -/
def reset (s : RootRegions) : RootRegions := { s with count := 0, claimed := 0 }

/-- 走査を始める：取り出しは初めからになり、中断は解かれ、範囲を持っていれば走査が走る。走査が
走っていてはならない。 -/
def prepare (s : RootRegions) : Except Panic RootRegions :=
  if s.scanning then .error (.violated "root region scan already running")
  else .ok { s with claimed := 0, aborted := false, scanning := s.count > 0 }

/-- 走査が中断されていなければ、まだ渡していない次の範囲を渡す。 -/
def claim (s : RootRegions) : Option MemRange × RootRegions :=
  if s.aborted || s.claimed ≥ s.count then (none, s)
  else (s.slots[s.claimed]?, { s with claimed := s.claimed + 1 })

/-- 走査を中断する：それ以上の範囲は渡さない。 -/
def abort (s : RootRegions) : RootRegions := { s with aborted := true }

/-- 中断されたか全範囲を渡し終えた走査を終え、集合を空にする。 -/
def finish (s : RootRegions) : Except Panic RootRegions :=
  if s.aborted || s.claimed ≥ s.count then .ok { s with count := 0, scanning := false }
  else .error (.violated "root region scan finished with unclaimed regions")

/-- 走査を終え、範囲は残す。 -/
def cancel (s : RootRegions) : RootRegions := { s with scanning := false }

end RootRegions

end RegionMark
