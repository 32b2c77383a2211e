import RegionMark.Word

/-!
# タスクの項目

マーキングの仕事は、タスクの項目としてキューの間を動く。項目は、まだ走査していないオブジェクトか、
大きな配列の残りで、残りは最初の未走査の要素のアドレスで指す。null の項目は、一部だけ埋まった
チャンクの終わりを示す。オブジェクトも配列の残りもアドレス 0 にはないので、0 は null と読む。
-/

namespace RegionMark

/-- マーキングの仕事の 1 単位。 -/
inductive TaskEntry where
  | null
  /-- 走査するオブジェクト。アドレスは 0 でない。 -/
  | obj (addr : Nat)
  /-- 配列の、このアドレス（0 でなく語にそろう）の要素から後。 -/
  | slice (addr : Nat)
  deriving DecidableEq, Repr, Inhabited

namespace TaskEntry

/-- アドレス `addr` のオブジェクトの項目。アドレス 0 は null の項目になる。 -/
def ofObj (addr : Nat) : TaskEntry := if addr = 0 then .null else .obj addr

/-- 要素のアドレス `addr` から後の配列の残りの項目。`addr` は語にそろっていなければならない。
アドレス 0 は null の項目になる。 -/
def ofSlice (addr : Nat) : Except Panic TaskEntry :=
  if addr % Word.bytes ≠ 0 then
    .error (.violated ("array slice " ++ Word.hex addr ++ " is not word aligned"))
  else .ok (if addr = 0 then .null else .slice addr)

/-- null の項目か。 -/
def isNull : TaskEntry → Bool
  | .null => true
  | _ => false

end TaskEntry

/-- 並びの、最初の null の項目より前の項目。 -/
def entriesBeforeNull (es : List TaskEntry) : List TaskEntry := es.takeWhile (fun e => !e.isNull)

end RegionMark
