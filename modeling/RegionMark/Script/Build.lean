import RegionMark.Script.Run
import RegionMark.Heap.Graph

/-!
# ヒープを組み立てるスクリプト

オブジェクトは番号（ハンドル）かアドレスで名指し、`Handles` の表で解く。表はヒープが失われても残る。
同じ形のオブジェクトを並べる手順と、種から乱数でグラフを作る手順を置く。
-/

namespace RegionMark.Script

/-- スクリプトでのオブジェクトの名指し方：ハンドルか、生のアドレス。 -/
inductive ObjName where
  | handle (h : Nat)
  | addr (a : Nat)
  deriving DecidableEq, Repr

/-- 参照の並びの項目：1 つのオブジェクトか、ハンドル `[lo, hi)`。 -/
inductive RefsItem where
  | one (o : ObjName)
  | range (lo hi : Nat)
  deriving Repr

/-- 新しい配列の要素の並びの項目。`range` はその数の null でない要素、`nulls` は `k` 個の null。 -/
inductive ElemItem where
  | one (o : ObjName)
  | range (lo hi : Nat)
  | null
  | nulls (k : Nat)
  deriving Repr

/-- 配ったハンドルの表：ハンドルの数と、ハンドル `i < count` のオブジェクトのアドレス。 -/
structure Handles where
  count : Nat
  addrOf : Nat → Nat

/-- ヒープのオブジェクトの番号をそのままハンドルとする表。 -/
def handlesOf (h : Heap) : Handles := ⟨h.objects.size, h.addrOf⟩

/-- ハンドルの順に並べたアドレスの表。 -/
def handlesAt (addrs : Array Nat) : Handles := ⟨addrs.size, fun i => addrs.getD i 0⟩

/-- 名指されたオブジェクトのアドレス。配っていないハンドルは断る。 -/
def resolveName (h : Handles) : ObjName → Except Failure Nat
  | .handle i => if i < h.count then .ok (h.addrOf i) else .error (.refused (.badHandle i))
  | .addr a => .ok a

/-- ハンドル `[lo, hi)` のアドレス。配っていない最初のハンドルで断る。 -/
def resolveRange (h : Handles) (lo hi : Nat) : Except Failure (List Nat) :=
  if hi ≤ lo then .ok []
  else if hi ≤ h.count then .ok ((List.range' lo (hi - lo)).map h.addrOf)
  else .error (.refused (.badHandle (Nat.max lo h.count)))

/-- 参照の並びのアドレス。 -/
def resolveRefs (h : Handles) (items : List RefsItem) : Except Failure (List Nat) := do
  let parts ← items.mapM fun
    | .one o => return [← resolveName h o]
    | .range lo hi => resolveRange h lo hi
  return parts.flatten

/-- 1 つの `nulls` の項目が並べる null の要素の上限。 -/
def maxNullElements : Nat := Nat.pow 2 20

/-- 配列の要素の並び。項目を順に解き、`maxNullElements` を超える `nulls` の項目は断る。 -/
def resolveElems (h : Handles) (items : List ElemItem) : Except Failure (List (Option Nat)) := do
  let parts ← items.mapM fun
    | .one o => return [some (← resolveName h o)]
    | .range lo hi => return (← resolveRange h lo hi).map some
    | .null => pure [none]
    | .nulls k =>
      if k > maxNullElements then throw (.refused (.limit "nulls above 2^20"))
      else pure (List.replicate k none)
  return parts.flatten

/-- アドレスの名指し方：そこがオブジェクトならそのハンドル、さもなくばアドレス。 -/
def nameAt (h : Heap) (a : Nat) : ObjName :=
  match h.find? a with
  | some i => .handle i
  | none => .addr a

/-- 昇順の数の並びを、連続する区間 `[first, last + 1)` の並びにまとめる。 -/
def runsOf : List Nat → List (Nat × Nat)
  | [] => []
  | x :: xs =>
    match runsOf xs with
    | (lo, hi) :: rest => if x + 1 = lo then (x, hi) :: rest else (x, x + 1) :: (lo, hi) :: rest
    | [] => [(x, x + 1)]

/-- まとめての割り当ての結果：最初のハンドル、割り当てた数、最後に使ったリージョン。 -/
structure Made where
  first : Nat
  count : Nat
  region : Nat
  deriving DecidableEq, Repr

/-- リージョン `r` にオブジェクトを 1 つ割り当てる。埋まっていれば、`spill` のときは次のリージョンに
移る。ないリージョンに移ると失敗する。割り当てたアドレスとリージョン、または埋まっていて `spill` で
ないときは `none` とそのリージョン。高々 `fuel` 個のリージョンを試す。 -/
def allocSpilling (spill : Bool) (words : Nat) (refs : List Nat) :
    Nat → Heap → Nat → Except Panic (Option Nat × Nat × Heap)
  | 0, h, r => pure (none, r, h)
  | fuel + 1, h, r => do
    match ← h.tryAlloc r words refs with
    | (some a, h) => return (some a, r, h)
    | (none, h) => if spill then allocSpilling spill words refs fuel h (r + 1) else return (none, r, h)

/-- 同じ大きさで同じ参照を持つオブジェクトを `count` 個割り当てる。`chain` のときは、それぞれ一つ前の
オブジェクトへの参照を最後に加える。`spill` でなければ、最初に埋まったところで止める。 -/
def allocRun (h : Heap) (region count words : Nat) (refs : List Nat) (chain spill : Bool) :
    Except Panic (Made × Heap) :=
  go count region none 0 h
where
  /-- 残り `k` 個を、リージョン `r` から、一つ前のオブジェクト `prev` に続けて割り当てる。 -/
  go : Nat → Nat → Option Nat → Nat → Heap → Except Panic (Made × Heap)
    | 0, r, _, made, h' => pure (⟨h.objects.size, made, r⟩, h')
    | k + 1, r, prev, made, h' => do
      let rs := if chain then refs ++ prev.toList else refs
      match ← allocSpilling spill words rs (h'.regionCount + 1) h' r with
      | (some a, r, h') => go k r (some a) (made + 1) h'
      | (none, r, h') => pure (⟨h.objects.size, made, r⟩, h')

/-- 乱数生成器の次の状態：`2 ^ 64` を法とする線形合同法。 -/
def lcgStep (s : Nat) : Nat := (s * 6364136223846793005 + 1) % Nat.pow 2 64

/-- 状態を進め、その上位 31 ビットを `b` で割った余りを引く。 -/
def draw (s b : Nat) : Nat × Nat :=
  let s := lcgStep s
  ((s >>> 33) % b, s)

/-- オブジェクト `i` の参照先を `fan` 個、この手順で先に割り当てたオブジェクト `objs` から引く。 -/
def drawRefs (objs : Array Nat) (i : Nat) : Nat → Nat → List Nat × Nat
  | 0, s => ([], s)
  | fan + 1, s =>
    let (k, s) := draw s i
    let (rest, s) := drawRefs objs i fan s
    (objs.getD k 0 :: rest, s)

/-- 種 `seed` からのグラフを `count` 個のオブジェクトで作る。オブジェクト `i` は、まず `i > 0` なら
参照の数を `maxFanout` 未満で引き、その数だけ先のオブジェクトを引いて参照し、最後に大きさを
`1 + (maxSize 未満)` 語で引く。リージョンが埋まれば次に移る。 -/
def allocRandom (h : Heap) (region count seed maxFanout maxSize : Nat) : Except Panic (Made × Heap) :=
  go count region seed #[] h
where
  /-- 残り `k` 個を、リージョン `r` から、乱数の状態 `s` で、先のオブジェクト `objs` に続けて作る。 -/
  go : Nat → Nat → Nat → Array Nat → Heap → Except Panic (Made × Heap)
    | 0, r, _, objs, h' => pure (⟨h.objects.size, objs.size, r⟩, h')
    | k + 1, r, s, objs, h' => do
      let i := objs.size
      let (fan, s) := if i = 0 then (0, s) else draw s maxFanout
      let (refs, s) := drawRefs objs i fan s
      let (extra, s) := draw s maxSize
      match ← allocSpilling true (1 + extra) refs (h'.regionCount + 1) h' r with
      | (some a, r, h') => go k r s (objs.push a) h'
      | (none, r, h') => pure (⟨h.objects.size, objs.size, r⟩, h')

end RegionMark.Script
