/-!
# 空白の文字

Unicode の White_Space の性質を持つ文字：制御文字の 9 から 13、空白、次の行 (U+0085)、改行しない空白、
それに 1680、2000 から 200A、2028、2029、202F、205F、3000 の各空白。
-/

namespace RegionMark.Text

/-- 文字が White_Space の性質を持つか。 -/
def isWhiteSpace (c : Char) : Bool :=
  let n := c.toNat
  (0x09 ≤ n && n ≤ 0x0D) || n == 0x20 || n == 0x85 || n == 0xA0 || n == 0x1680 ||
    (0x2000 ≤ n && n ≤ 0x200A) || n == 0x2028 || n == 0x2029 || n == 0x202F || n == 0x205F ||
    n == 0x3000

/-- 改行一つと、その前の復帰一つを行の終わりから除く。 -/
def dropLineEnd (cs : List Char) : List Char :=
  let cs := if cs.getLast? = some '\n' then cs.dropLast else cs
  if cs.getLast? = some '\r' then cs.dropLast else cs

theorem isWhiteSpace_of_isWhitespace (c : Char) (h : c.isWhitespace = true) : isWhiteSpace c = true := by
  simp only [Char.isWhitespace, Bool.or_eq_true, decide_eq_true_eq] at h
  simp only [isWhiteSpace, Bool.or_eq_true, Bool.and_eq_true, decide_eq_true_eq, beq_iff_eq]
  rcases h with ((h | h) | h) | h <;> simp [h, Char.toNat]

end RegionMark.Text
