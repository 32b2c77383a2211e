import RegionMark.Word
import RegionMark.Slot

/-!
# リージョンのヒープ

リージョン `i` は `[regionBytes * (i + 1), regionBytes * (i + 2))` を占め、`top` を進めて割り当て、TAMS を
覚える。オブジェクトは割り当ての順に番号を持ち、参照先の並びを持つ普通のものか、2 語の見出しの後に
要素を並べた配列である。
-/

namespace RegionMark

/-- 配列の見出しの語数。 -/
def arrayHeaderWords : Nat := 2

/-- オブジェクトが持つもの。 -/
inductive Shape where
  | plain (refs : Array Nat)
  | array (elems : Array (Option Nat))
  deriving DecidableEq, Repr, Inhabited

/-- 割り当てたオブジェクト：アドレス、語数で測った大きさ、持つもの。 -/
structure HeapObject where
  addr : Nat
  size : Nat
  shape : Shape
  deriving DecidableEq, Repr, Inhabited

/-- リージョンのヒープと、マーキングが処理するために見つけておいた参照。 -/
structure Heap where
  regionBytes : Nat
  regionCount : Nat
  /-- すべてのオブジェクト。割り当ての順。 -/
  objects : Array HeapObject
  /-- リージョンごとの、そのオブジェクトの番号。アドレスの順。 -/
  byRegion : Array (Array Nat)
  tops : Array Nat
  tams : Array Nat
  /-- 参照処理が生かしておく参照先。 -/
  softReferents : Array Nat
  /-- 死んでいれば生き返らせて終了処理に並べるオブジェクト。 -/
  finalizable : Array Nat
  /-- 最後の参照処理が終了処理に並べたオブジェクト。 -/
  pending : Array Nat
  deriving Repr, Inhabited

namespace Heap

/-- ヒープの最小のアドレス。 -/
def base (h : Heap) : Nat := h.regionBytes

/-- ヒープの直後のアドレス。 -/
def limit (h : Heap) : Nat := h.regionBytes + h.regionCount * h.regionBytes

/-- リージョン `r` の最初のアドレス。 -/
def bottom (h : Heap) (r : Nat) : Nat := h.regionBytes + r * h.regionBytes

/-- リージョン `r` の直後のアドレス。 -/
def regionEnd (h : Heap) (r : Nat) : Nat := h.bottom r + h.regionBytes

/-- 空のヒープ。リージョンが少なくとも 1 つあり、リージョンの大きさは 8 語以上の 2 のべきでなければ
ならない。 -/
def new (regionCount regionBytes : Nat) : Except Panic Heap := do
  if regionCount = 0 then throw (.violated "ModelHeap needs at least one region")
  if !Word.isPow2 regionBytes || regionBytes < 8 * Word.bytes then
    throw (.violated "region size must be a power of two of at least 8 words")
  let bottoms := (Array.range regionCount).map fun i => regionBytes + i * regionBytes
  return { regionBytes, regionCount, objects := #[], byRegion := Array.replicate regionCount #[],
           tops := bottoms, tams := bottoms, softReferents := #[], finalizable := #[],
           pending := #[] }

/-- `a` がヒープの中にあるか。 -/
def contains (h : Heap) (a : Nat) : Bool := h.base ≤ a && a < h.limit

/-- ヒープのアドレスのリージョン：ヒープの始まりからの距離をリージョンの大きさで割ったもの。ヒープの
始まりより下のアドレスは算術の失敗になる。 -/
def regionIndex (h : Heap) (a : Nat) : Except Panic Nat := do
  return (← Word.sub a h.base) / h.regionBytes

/-- ヒープのアドレス `a` のリージョン。 -/
def regionOf? (h : Heap) (a : Nat) : Option Nat :=
  if h.contains a then some ((a - h.base) / h.regionBytes) else none

/-- リージョン `r` の、マーキング開始時の top。 -/
def tamsOf (h : Heap) (r : Nat) : Nat := h.tams.getD r 0

/-- リージョン `r` の割り当ての top。 -/
def topOf (h : Heap) (r : Nat) : Nat := h.tops.getD r 0

/-- 番号 `i` のオブジェクトのアドレス。 -/
def addrOf (h : Heap) (i : Nat) : Nat := (h.objects.getD i default).addr

/-- アドレスの順に並んだオブジェクトの番号 `ns[lo:hi]` のうち、アドレスが `a` より大きい最初のもの。 -/
def firstAbove (h : Heap) (ns : Array Nat) (a lo hi : Nat) : Nat :=
  if lo < hi then
    let mid := (lo + hi) / 2
    if h.addrOf (ns.getD mid 0) ≤ a then firstAbove h ns a (mid + 1) hi
    else firstAbove h ns a lo mid
  else lo
termination_by hi - lo

/-- リージョン `r` の中で、`a` 以下で最大のアドレスを持つオブジェクトの番号。 -/
def lastAtOrBelowIn (h : Heap) (r a : Nat) : Option Nat :=
  let ns := h.byRegion.getD r #[]
  match h.firstAbove ns a 0 ns.size with
  | 0 => none
  | k + 1 => ns[k]?

/-- ちょうど `a` にあるオブジェクトの番号。 -/
def find? (h : Heap) (a : Nat) : Option Nat := do
  let r ← h.regionOf? a
  let i ← h.lastAtOrBelowIn r a
  if h.addrOf i = a then some i else none

/-- ちょうど `a` にあるオブジェクト。 -/
def objectAt? (h : Heap) (a : Nat) : Option HeapObject := (h.find? a).bind (h.objects[·]?)

/-- `a` にあるオブジェクトの語数。なければ 1 語。 -/
def objectSize (h : Heap) (a : Nat) : Nat := ((h.objectAt? a).map (·.size)).getD 1

/-- 普通のオブジェクトの参照先。それ以外には何もない。 -/
def plainRefs (h : Heap) (a : Nat) : List Nat :=
  match h.objectAt? a with
  | some ⟨_, _, .plain refs⟩ => refs.toList
  | _ => []

/-- 配列の要素の数。それ以外には `none`。 -/
def arrayLength? (h : Heap) (a : Nat) : Option Nat :=
  match h.objectAt? a with
  | some ⟨_, _, .array es⟩ => some es.size
  | _ => none

/-- 配列の、添字が `[lo, hi)`（長さで切り詰める）にある null でない要素。 -/
def arrayRefs (h : Heap) (a lo hi : Nat) : List Nat :=
  match h.objectAt? a with
  | some ⟨_, _, .array es⟩ =>
    let stop := Nat.min hi es.size
    ((es.extract (Nat.min lo stop) stop).toList).filterMap id
  | _ => []

/-- オブジェクトのすべての参照先：普通のオブジェクトの欄か、配列の null でない要素。 -/
def references (h : Heap) (a : Nat) : List Nat :=
  match h.objectAt? a with
  | some ⟨_, _, .plain refs⟩ => refs.toList
  | some ⟨_, _, .array es⟩ => es.toList.filterMap id
  | none => []

/-- リージョン `r` の top に `words` 語を取る。収まらなければ `none`。バイト数は検査つきの算術で、
リージョンは存在しなければならない。 -/
def bump (h : Heap) (r words : Nat) : Except Panic (Option (Nat × Heap)) := do
  if r ≥ h.regionCount then throw (.violated ("region " ++ toString r ++ " out of range"))
  let a := h.topOf r
  let bytes ← Word.mul words Word.bytes
  if a + bytes ≥ Word.bound || a + bytes > h.regionEnd r then return none
  return some (a, { h with tops := h.tops.setIfInBounds r (a + bytes) })

/-- `bump` が与えたアドレスに新しいオブジェクトを記録する。 -/
def insert (h : Heap) (r : Nat) (o : HeapObject) : Heap :=
  let n := h.objects.size
  { h with objects := h.objects.push o, byRegion := updateSlot h.byRegion r (·.push n) }

/-- リージョン `r` に `words` 語（少なくとも 1 語）の普通のオブジェクトを割り当てる。リージョンが
埋まっていれば `none`。 -/
def tryAlloc (h : Heap) (r words : Nat) (refs : List Nat) : Except Panic (Option Nat × Heap) := do
  let words := Nat.max words 1
  match ← h.bump r words with
  | none => return (none, h)
  | some (a, h) => return (some a, h.insert r ⟨a, words, .plain refs.toArray⟩)

/-- リージョン `r` に、これらの要素の配列を割り当てる。リージョンには収まる余地がなければならない。 -/
def allocArray (h : Heap) (r : Nat) (elems : List (Option Nat)) : Except Panic (Nat × Heap) := do
  let words := arrayHeaderWords + elems.length
  match ← h.bump r words with
  | none => throw (.violated ("region " ++ toString r ++ " is full"))
  | some (a, h) => return (a, h.insert r ⟨a, words, .array elems.toArray⟩)

/-- 普通のオブジェクトの参照先を置き換える。それ以外には触れない。 -/
def setRefs (h : Heap) (a : Nat) (refs : List Nat) : Heap :=
  match h.find? a with
  | some i => { h with objects := h.objects.modify i fun o => match o.shape with
      | .plain _ => { o with shape := .plain refs.toArray }
      | .array _ => o }
  | none => h

/-- 配列の要素 `k`（存在しなければならない）を置き換える。それ以外には触れない。 -/
def setElement (h : Heap) (a k : Nat) (v : Option Nat) : Except Panic Heap :=
  match h.find? a with
  | some i => match (h.objects.getD i default).shape with
    | .array es =>
      if k < es.size then
        .ok { h with objects := h.objects.modify i fun o => { o with shape := .array (es.set! k v) } }
      else .error (.outOfBounds es.size k)
    | .plain _ => .ok h
  | none => .ok h

/-- 各リージョンのマーキング開始時の top を、今の top にする。 -/
def snapshotTams (h : Heap) : Heap := { h with tams := h.tops }

/-- `a` にある配列の、見出しの後の要素 `k` のアドレス。検査つきの算術。 -/
def elementAddr (a k : Nat) : Except Panic Nat := do
  let i ← Word.add arrayHeaderWords k
  let off ← Word.mul i Word.bytes
  let e ← Word.add a off
  return if e = 0 then 1 else e

/-- ヒープ全体で、`a` 以下で最大のアドレスを持つオブジェクトの番号。 -/
def lastAtOrBelow (h : Heap) (a : Nat) : Option Nat :=
  if a < h.base then none
  else
    let r := Nat.min ((a - h.base) / h.regionBytes) (h.regionCount - 1)
    go r (r + 1)
where
  go (r : Nat) : Nat → Option Nat
    | 0 => none
    | fuel + 1 => match h.lastAtOrBelowIn r a with
      | some i => some i
      | none => if r = 0 then none else go (r - 1) fuel

/-- 要素のアドレスの、配列と要素の添字：そのアドレス以下で最大のアドレスに始まるオブジェクト（なければ
アドレスそのもの）と、その見出しの後の語数。見出しの中のアドレスは算術の失敗になる。 -/
def resolveElement (h : Heap) (a : Nat) : Except Panic (Nat × Nat) := do
  let start := ((h.lastAtOrBelow a).map h.addrOf).getD a
  let k ← Word.sub ((a - start) / Word.bytes) arrayHeaderWords
  return (start, k)

/-- `[lo, hi)` に始まるオブジェクトのアドレス。アドレスの順。 -/
def objectsIn (h : Heap) (lo hi : Nat) : List Nat :=
  (List.range h.regionCount).flatMap fun r =>
    if h.regionEnd r ≤ lo || hi ≤ h.bottom r then []
    else ((h.byRegion.getD r #[]).toList.map h.addrOf).filter fun a => lo ≤ a && a < hi

end Heap

end RegionMark
