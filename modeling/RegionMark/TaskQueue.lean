import RegionMark.Word

/-!
# タスクのキュー

タスクのキューは盗み合いの両端キューで、持ち主は底で積んで取り、他のタスクは頂から盗む。2 のべき個の
枠の環を語の大きさを法とする 2 つの数で指し、数の差が `2 ^ 63` 以上なら長さが負と読む。
-/

namespace RegionMark

/-- 大きさに限りのある盗み合いの両端キュー。 -/
structure TaskQueue (α : Type) where
  /-- 環。その大きさが容量。 -/
  slots : Array α
  bottom : Nat
  top : Nat
  deriving Repr

namespace TaskQueue

variable {α : Type} [Inhabited α]

/-- `capacity` 個の枠の空のキュー。`capacity` は 2 のべきでなければならない。 -/
def new (capacity : Nat) : Except Panic (TaskQueue α) :=
  if Word.isPow2 capacity then .ok { slots := Array.replicate capacity default, bottom := 0, top := 0 }
  else .error (.violated "TaskQueue capacity must be a power of 2")

/-- 環の枠の数。 -/
def capacity (q : TaskQueue α) : Nat := q.slots.size

/-- 数の値 `i` の枠。 -/
def slotOf (q : TaskQueue α) (i : Nat) : Nat := i % q.capacity

/-- 数の差が正の長さと読めるか。 -/
def positive (d : Nat) : Bool := 0 < d && d < Nat.pow 2 63

/-- 持っている項目の数：数の差、負と読めるときは 0。 -/
def length (q : TaskQueue α) : Nat :=
  let d := Word.wrapSub q.bottom q.top
  if d < Nat.pow 2 63 then d else 0

/-- キューが項目を持たないか。 -/
def isEmpty (q : TaskQueue α) : Bool := q.length == 0

/-- すべての枠が埋まっているか。 -/
def isFull (q : TaskQueue α) : Bool := Word.wrapSub q.bottom q.top ≥ q.capacity

/-- `x` を底に加える。すべての枠が埋まっていれば、何も変えずに `false`。 -/
def push (q : TaskQueue α) (x : α) : Bool × TaskQueue α :=
  if q.isFull then (false, q)
  else (true, { q with slots := q.slots.setIfInBounds (q.slotOf q.bottom) x,
                       bottom := Word.wrapAdd q.bottom 1 })

/-- 底の項目を取る。最後の 1 つは、頂をその先に進めて取る。 -/
def pop (q : TaskQueue α) : Option α × TaskQueue α :=
  if q.bottom == q.top then (none, q)
  else
    let nb := Word.wrapSub q.bottom 1
    let item := q.slots.getD (q.slotOf nb) default
    if positive (Word.wrapSub nb q.top) then (some item, { q with bottom := nb })
    else if nb == q.top then (some item, { q with top := Word.wrapAdd q.top 1 })
    else (none, q)

/-- 頂の項目を取る。 -/
def steal (q : TaskQueue α) : Option α × TaskQueue α :=
  if positive (Word.wrapSub q.bottom q.top) then
    (some (q.slots.getD (q.slotOf q.top) default), { q with top := Word.wrapAdd q.top 1 })
  else (none, q)

/-- すべての項目を捨てる。 -/
def setEmpty (q : TaskQueue α) : TaskQueue α := { q with top := q.bottom }

end TaskQueue

end RegionMark
