import RegionMark.Word

/-!
# リージョンの生存の統計

`RegionStats` はリージョンごとの生きた語と入ってくる参照の表で、和は語の大きさを法とする。タスクは
直接写像の書き戻しキャッシュ `StatsCache` を通して加え、リージョン `r` は枠 `r % slots` に入る。
-/

namespace RegionMark

/-- リージョンごとの生きた語と入ってくる参照。 -/
structure RegionStats where
  live : Array Nat
  incoming : Array Nat
  deriving Repr, Inhabited

namespace RegionStats

/-- `n` 個のリージョンの、0 ばかりの表。 -/
def new (n : Nat) : RegionStats := ⟨Array.replicate n 0, Array.replicate n 0⟩

/-- `xs` の項目 `r` に、語の大きさを法として `d` を加える。`d` が 0 なら何もしない。 -/
def bump (xs : Array Nat) (r d : Nat) : Except Panic (Array Nat) :=
  if d = 0 then .ok xs
  else if r < xs.size then .ok (xs.modify r (Word.wrapAdd · d))
  else .error (.outOfBounds xs.size r)

/-- リージョン `r` に生きた語と入ってくる参照を加える。 -/
def add (g : RegionStats) (r live incoming : Nat) : Except Panic RegionStats := do
  let ⟨ls, is⟩ := g
  let l ← bump ls r live
  let i ← bump is r incoming
  return ⟨l, i⟩

/-- リージョン `r` の生きた語。 -/
def liveWords (g : RegionStats) (r : Nat) : Nat := g.live.getD r 0

/-- リージョン `r` に入ってくる参照。 -/
def incomingRefs (g : RegionStats) (r : Nat) : Nat := g.incoming.getD r 0

/-- 入ってくる参照を忘れる。オーバーフローのやり直しで数え直す。 -/
def clearIncoming (g : RegionStats) : RegionStats := { g with incoming := g.incoming.map fun _ => 0 }

/-- すべて忘れる。 -/
def clearAll (g : RegionStats) : RegionStats := ⟨g.live.map fun _ => 0, g.incoming.map fun _ => 0⟩

end RegionStats

/-- キャッシュの枠：持っているリージョン（あれば）と、まだ書き戻していない量。 -/
structure CacheSlot where
  region : Option Nat := none
  live : Nat := 0
  incoming : Nat := 0
  deriving DecidableEq, Repr, Inhabited

/-- `RegionStats` の表の前に置く、直接写像の書き戻しキャッシュ。 -/
structure StatsCache where
  slots : Array CacheSlot
  hits : Nat
  misses : Nat
  deriving Repr, Inhabited

namespace StatsCache

/-- `n` 個の枠の空のキャッシュ。`n` は 2 のべきでなければならない。 -/
def new (n : Nat) : Except Panic StatsCache :=
  if Word.isPow2 n then .ok ⟨Array.replicate n default, 0, 0⟩
  else .error (.violated "stats cache size must be a power of two")

/-- リージョン `r` の枠。 -/
def slotOf (c : StatsCache) (r : Nat) : Nat := r % c.slots.size

/-- 枠 `r % slots` にリージョン `r` を入れ（そこに別のリージョンがあれば書き戻し）、その枠に `f` を
施す。当たりか外れを数える。 -/
def update (c : StatsCache) (g : RegionStats) (r : Nat) (f : CacheSlot → Except Panic CacheSlot) :
    Except Panic (StatsCache × RegionStats) := do
  let i := c.slotOf r
  let e := c.slots.getD i default
  if e.region = some r then
    let e ← f e
    return ({ c with slots := c.slots.setIfInBounds i e, hits := c.hits + 1 }, g)
  else
    let g ← match e.region with
      | some old => g.add old e.live e.incoming
      | none => pure g
    let e ← f { region := some r }
    return ({ c with slots := c.slots.setIfInBounds i e, misses := c.misses + 1 }, g)

/-- リージョン `r` に生きた語を `words` 個加える。キャッシュの和は検査つきの算術。 -/
def addLive (c : StatsCache) (g : RegionStats) (r words : Nat) :
    Except Panic (StatsCache × RegionStats) :=
  c.update g r fun e => do return { e with live := ← Word.add e.live words }

/-- リージョン `r` に入ってくる参照を 1 つ加える。 -/
def addIncoming (c : StatsCache) (g : RegionStats) (r : Nat) :
    Except Panic (StatsCache × RegionStats) :=
  c.update g r fun e => do return { e with incoming := ← Word.add e.incoming 1 }

/-- 持っている枠をすべて枠の順に書き戻し、キャッシュを空にする。前回の書き戻しか空にしたとき以来の
当たりと外れを返し、それらは 0 から数え直す。 -/
def evictAll (c : StatsCache) (g : RegionStats) :
    Except Panic ((Nat × Nat) × StatsCache × RegionStats) := do
  let writeBack (g : RegionStats) (e : CacheSlot) : Except Panic RegionStats :=
    match e.region with
    | some r => g.add r e.live e.incoming
    | none => pure g
  let g ← Array.foldlM writeBack g c.slots
  return ((c.hits, c.misses), ⟨c.slots.map fun _ => default, 0, 0⟩, g)

/-- 何も書き戻さずにキャッシュを空にする。 -/
def reset (c : StatsCache) : StatsCache := ⟨c.slots.map fun _ => default, 0, 0⟩

end StatsCache

end RegionMark
