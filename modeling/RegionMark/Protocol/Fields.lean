import RegionMark.Json.Basic
import RegionMark.Script.Refusal

/-!
# 要求の欄を読む

要求は JSON のオブジェクトで、読めない欄は欄の名前を添えた `badInput` になり、`null` の欄はないものとみなす。
ステップは名前だけの文字列か、`"do"` に名前を書いたものか、名前を唯一のキーとするオブジェクトで書く。
-/

namespace RegionMark.Protocol

open RegionMark.Script

/-- 入力が壊れているという断り。 -/
def malformed {α : Type} (m : String) : Except Failure α := .error (.refused (.badInput m))

/-- 語に収まる非負の整数。 -/
def natOf (k : String) (j : Json) : Except Failure Nat :=
  match j.word? with
  | some n => .ok n
  | none => malformed (k ++ ": expected a non-negative integer")

/-- 真偽値。 -/
def boolOf (k : String) : Json → Except Failure Bool
  | .bool b => .ok b
  | _ => malformed (k ++ ": expected a boolean")

/-- 配列の要素。 -/
def arrayOf (k : String) : Json → Except Failure (List Json)
  | .arr xs => .ok xs
  | _ => malformed (k ++ ": expected an array")

/-- 要素ごとに `f` で読む配列。最初に読めなかった要素で止まる。 -/
def listOf {α : Type} (k : String) (f : Json → Except Failure α) (j : Json) : Except Failure (List α) := do
  (← arrayOf k j).mapM f

/-- 2 つの整数の配列。 -/
def pairOf (k : String) (j : Json) : Except Failure (Nat × Nat) := do
  match ← arrayOf k j with
  | [a, b] => return (← natOf k a, ← natOf k b)
  | _ => malformed (k ++ ": expected two integers")

/-- なくてはならない整数の欄。 -/
def natField (o : Json) (k : String) : Except Failure Nat :=
  match o.field? k with
  | some v => natOf k v
  | none => malformed ("missing field " ++ k)

/-- なければ `d` とする整数の欄。 -/
def natFieldOr (o : Json) (k : String) (d : Nat) : Except Failure Nat :=
  match o.field? k with
  | some v => natOf k v
  | none => .ok d

/-- なくてもよい整数の欄。 -/
def natField? (o : Json) (k : String) : Except Failure (Option Nat) :=
  match o.field? k with
  | some v => some <$> natOf k v
  | none => .ok none

/-- なければ `d` とする真偽値の欄。 -/
def boolFieldOr (o : Json) (k : String) (d : Bool) : Except Failure Bool :=
  match o.field? k with
  | some v => boolOf k v
  | none => .ok d

/-- なければ空とする配列の欄。 -/
def arrayFieldOr (o : Json) (k : String) : Except Failure (List Json) :=
  match o.field? k with
  | some v => arrayOf k v
  | none => .ok []

/-- ステップの名前と引数。 -/
def opOf (j : Json) : Except Failure (String × Json) :=
  match j with
  | .str s => .ok (s, .null)
  | .obj kvs =>
    match j.get? "do" with
    | some (.str s) => .ok (s, j)
    | _ => match kvs with
      | [(k, v)] => .ok (k, v)
      | _ => malformed "operation object must have exactly one key"
  | _ => malformed "operation must be a string or object"

/-- 欄 `k` のステップの並び。各ステップは名前と引数から `f` で読む。並びそのものが読めなければ失敗し、
読めないステップはその失敗で代える。欄がなければ空。 -/
def stepsOf {α : Type} (o : Json) (k : String) (f : String → Json → Except Failure α) :
    Except Failure (List (Except Failure α)) := do
  let xs ← arrayFieldOr o k
  return xs.map fun x => do
    let (name, arg) ← opOf x
    f name arg

end RegionMark.Protocol
