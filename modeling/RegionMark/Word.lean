import RegionMark.Fault

/-!
# 機械語

アドレス、大きさ、数はどれも符号なし 64 ビットの語で、`Word.bound` 未満の `Nat` として持つ。
エンジンが検査する算術は `Panic.overflow` で失敗する。語の大きさを法として持つ数には
`wrapAdd` と `wrapSub` を使う。
-/

namespace RegionMark.Word

/-- 語の値の数。 -/
def bound : Nat := Nat.pow 2 64

/-- 最大の語。 -/
def max : Nat := Nat.pow 2 64 - 1

/-- 1 語のバイト数。 -/
def bytes : Nat := 8

/-- 検査つきの和。 -/
def add (a b : Nat) : Except Panic Nat :=
  if a + b < bound then .ok (a + b) else .error (.overflow .add)

/-- 検査つきの差。引く数は引かれる数を超えてはならない。 -/
def sub (a b : Nat) : Except Panic Nat :=
  if b ≤ a then .ok (a - b) else .error (.overflow .sub)

/-- 検査つきの積。 -/
def mul (a b : Nat) : Except Panic Nat :=
  if a * b < bound then .ok (a * b) else .error (.overflow .mul)

/-- 64 未満の桁数の左シフト。最上位を越えたビットは失われる。 -/
def shl (a k : Nat) : Except Panic Nat :=
  if k < 64 then .ok (a * Nat.pow 2 k % bound) else .error (.overflow .shl)

/-- 語の大きさを法とする和。 -/
def wrapAdd (a b : Nat) : Nat := (a + b) % bound

/-- 語 `a` と `b` の、語の大きさを法とする差。`bound` を左に置くのは、開いた `a` に大きな数を
足す形がカーネルの簡約で 1 ずつほどかれないようにするため。 -/
def wrapSub (a b : Nat) : Nat := (bound + a - b) % bound

/-- 切り上げた商。`b` は正。 -/
def divCeil (a b : Nat) : Nat := a / b + if a % b = 0 then 0 else 1

/-- `n` が 2 のべきか。0 はそうでない。 -/
def isPow2 (n : Nat) : Bool := n != 0 && n &&& (n - 1) == 0

/-- `n` 以上の最小の 2 のべき。語に収まるときに限る。 -/
def nextPow2? (n : Nat) : Option Nat :=
  let p := n.nextPowerOfTwo
  if p < bound then some p else none

/-- 頭に `0x` を付けた小文字の 16 進表記。 -/
def hex (n : Nat) : String := "0x" ++ String.ofList (Nat.toDigits 16 n)

end RegionMark.Word
