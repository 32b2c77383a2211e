/-!
# JSON の値

数は 64 ビットに収まる符号のない整数 (`Number.word`) とそれ以外の有限の数に分け、オブジェクトの同じ
キーは後の値が前を置き換える。書き出しは空白を挟まず、文字列では引用符とバックスラッシュを逃がし、
制御文字を `\u00XX` と書く。
-/

namespace RegionMark

/-- JSON の数。 -/
inductive Number where
  /-- 符号、小数点、指数のない、`2 ^ 64` 未満の整数。 -/
  | word (n : Nat)
  /-- それ以外の有限の数：`significand * 10 ^ exponent`、`negative` なら負。 -/
  | other (negative : Bool) (significand : Nat) (exponent : Int)
  deriving DecidableEq, Repr

/-- JSON の値。 -/
inductive Json where
  | null
  | bool (b : Bool)
  | num (n : Number)
  | str (s : String)
  | arr (xs : List Json)
  | obj (kvs : List (String × Json))
  deriving Repr, Inhabited

/-- 数の書き方：64 ビットの整数は 10 進で、ほかは仮数と 10 の指数で。 -/
def Number.render : Number → String
  | .word n => toString n
  | .other neg m e => (if neg then "-" else "") ++ toString m ++ "e" ++ toString e

namespace Json

/-- 自然数の値。 -/
def nat (n : Nat) : Json := .num (.word n)

/-- オブジェクトのキー `k` の値。オブジェクトでないか、キーがなければ `none`。 -/
def get? : Json → String → Option Json
  | .obj kvs, k => (kvs.find? (·.1 == k)).map (·.2)
  | _, _ => none

/-- キー `k` の値。`null` の値もないものとみなす。 -/
def field? (j : Json) (k : String) : Option Json :=
  match j.get? k with
  | some .null => none
  | v => v

/-- 64 ビットに収まる非負の整数の値。 -/
def word? : Json → Option Nat
  | .num (.word n) => some n
  | _ => none

/-- 文字列の値。 -/
def str? : Json → Option String
  | .str s => some s
  | _ => none

/-- キー `k` を値 `v` にする。キーがあればその値を置き換え、なければ最後に加える。 -/
def insertKey : List (String × Json) → String → Json → List (String × Json)
  | [], k, v => [(k, v)]
  | (k', v') :: rest, k, v => if k' == k then (k, v) :: rest else (k', v') :: insertKey rest k v

/-- 16 進の 1 桁（小文字）。 -/
def hexDigit (n : Nat) : Char := if n < 10 then Char.ofNat (48 + n) else Char.ofNat (87 + n)

/-- 文字列の中の 1 文字を `acc` に書き足す。 -/
def escapeTo (acc : String) (c : Char) : String :=
  if c = '"' then acc ++ "\\\""
  else if c = '\\' then acc ++ "\\\\"
  else if c.toNat < 0x20 then
    ((acc ++ "\\u00").push (hexDigit (c.toNat / 16))).push (hexDigit (c.toNat % 16))
  else acc.push c

/-- 引用符で囲んだ文字列を `acc` に書き足す。 -/
def quoteTo (acc : String) (s : String) : String :=
  (s.toList.foldl escapeTo (acc.push '"')).push '"'

mutual
/-- 値を `acc` に書き足す。 -/
def renderTo (acc : String) : Json → String
  | .null => acc ++ "null"
  | .bool b => acc ++ (if b then "true" else "false")
  | .num n => acc ++ n.render
  | .str s => quoteTo acc s
  | .arr xs => (renderItemsTo (acc.push '[') true xs).push ']'
  | .obj kvs => (renderMembersTo (acc.push '\x7b') true kvs).push '\x7d'

/-- 配列の要素を、コンマで区切って `acc` に書き足す。 -/
def renderItemsTo (acc : String) (first : Bool) : List Json → String
  | [] => acc
  | x :: xs => renderItemsTo (renderTo (if first then acc else acc.push ',') x) false xs

/-- オブジェクトのキーと値を、コンマで区切って `acc` に書き足す。 -/
def renderMembersTo (acc : String) (first : Bool) : List (String × Json) → String
  | [] => acc
  | (k, v) :: rest =>
    let acc := (quoteTo (if first then acc else acc.push ',') k).push ':'
    renderMembersTo (renderTo acc v) false rest
end

/-- 値の書き出し。 -/
def render (j : Json) : String := renderTo "" j

end Json

end RegionMark
