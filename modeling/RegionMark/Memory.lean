import RegionMark.Word

/-!
# 仮想記憶の予約

マークスタックのチャンクは、OS から予約した仮想記憶に置く。予約は長さをページの倍数に切り上げてから
OS に頼む。長さ 0 と、切り上げると語からあふれる長さは、OS に頼む前に断る。OS が認めるかは `Memory` が
決める。
-/

namespace RegionMark

/-- 仮想記憶を予約する OS：ページのバイト数と、ページの倍数の長さの予約を認めるか。 -/
structure Memory where
  pageSize : Nat
  pageSize_pos : 0 < pageSize
  grants : Nat → Bool

namespace Memory

/-- 4 KiB のページで、どの予約も認める OS。 -/
def standard : Memory := ⟨4096, by decide, fun _ => true⟩

instance : Inhabited Memory := ⟨standard⟩

/-- `len` をページの倍数に切り上げる：`len + pageSize - 1` の下位の桁を落とす。その和が語からあふれれば
`none`。 -/
def roundUp (m : Memory) (len : Nat) : Option Nat :=
  if len + (m.pageSize - 1) < Word.bound then
    some ((len + (m.pageSize - 1)) &&& (Word.max - (m.pageSize - 1)))
  else none

/-- `len` バイトを予約できるか。 -/
def reserves (m : Memory) (len : Nat) : Bool :=
  len != 0 && match m.roundUp len with
    | none => false
    | some n => m.grants n

end Memory

end RegionMark
