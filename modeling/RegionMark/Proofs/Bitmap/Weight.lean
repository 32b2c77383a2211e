import Mathlib
import RegionMark.Bitmap

/-!
# ビットマップの立っているビットの重み

`m.weigh f` は立っているビットの語のアドレスでの `f` の和。まだ立っていないビットを立てると重みはその語の
`f` だけ増え（`weigh_setBit`）、どのビットも立っていなければ 0 である。
-/

namespace RegionMark.Bitmap

/-- 立っているビットの語のアドレスでの `f` の和。 -/
def weigh (m : Bitmap) (f : Nat → Nat) : Nat :=
  ∑ k ∈ Finset.range (m.words.size * wordBits), if m.testBit k then f (m.addrOf k) else 0

@[simp] theorem words_size_setBit (m : Bitmap) (k : Nat) :
    (m.setBit k).words.size = m.words.size :=
  Array.size_modify

@[simp] theorem size_setBit (m : Bitmap) (k : Nat) : (m.setBit k).size = m.size := rfl

@[simp] theorem base_setBit (m : Bitmap) (k : Nat) : (m.setBit k).base = m.base := rfl

@[simp] theorem addrOf_setBit (m : Bitmap) (k j : Nat) : (m.setBit k).addrOf j = m.addrOf j := rfl

theorem testBit_one_shiftLeft (i j : Nat) : (1 <<< i).testBit j = (i == j) := by
  rw [Nat.one_shiftLeft, Nat.testBit_two_pow]
  by_cases h : i = j <;> simp [h]

theorem testBit_setBit (m : Bitmap) {k : Nat} (hk : k < m.words.size * wordBits) (j : Nat) :
    (m.setBit k).testBit j = (m.testBit j || j == k) := by
  unfold testBit setBit
  simp only [Array.getD_eq_getD_getElem?, Array.getElem?_modify]
  by_cases hq : k / wordBits = j / wordBits
  · -- 同じ数：`k % wordBits` のビットを論理和で立てる
    have hj : j / wordBits < m.words.size := by
      rw [← hq]
      exact Nat.div_lt_of_lt_mul (by rwa [Nat.mul_comm])
    rw [if_pos hq, Array.getElem?_eq_getElem hj, Option.map_some, Option.getD_some,
      Option.getD_some, Nat.testBit_or, testBit_one_shiftLeft]
    congr 1
    have : (k % wordBits == j % wordBits) = (j == k) := by
      unfold wordBits at hq ⊢
      by_cases h : j = k
      · simp [h]
      · have : k % 64 ≠ j % 64 := by omega
        simp [h, this]
    exact this
  · -- 別の数：触れない
    rw [if_neg hq]
    have : (j == k) = false := by
      simp only [beq_eq_false_iff_ne]
      rintro rfl
      exact hq rfl
    rw [this, Bool.or_false]

/-- 立っていないビットを立てると、重みはそのビットの語の `f` だけ増える。 -/
theorem weigh_setBit (m : Bitmap) {k : Nat} (hk : k < m.words.size * wordBits)
    (hb : m.testBit k = false) (f : Nat → Nat) :
    (m.setBit k).weigh f = m.weigh f + f (m.addrOf k) := by
  unfold weigh
  rw [words_size_setBit]
  calc ∑ j ∈ Finset.range (m.words.size * wordBits),
        (if (m.setBit k).testBit j then f ((m.setBit k).addrOf j) else 0)
      = ∑ j ∈ Finset.range (m.words.size * wordBits),
        ((if m.testBit j then f (m.addrOf j) else 0) + if j = k then f (m.addrOf j) else 0) := by
        refine Finset.sum_congr rfl fun j _ => ?_
        rw [testBit_setBit m hk, addrOf_setBit]
        rcases eq_or_ne j k with rfl | hjk
        · simp [hb]
        · simp [hjk]
    _ = m.weigh f + f (m.addrOf k) := by
        rw [Finset.sum_add_distrib, Finset.sum_ite_eq', if_pos (Finset.mem_range.2 hk)]
        rfl

theorem bitIndex_ok {m : Bitmap} {a k : Nat} (h : m.bitIndex a = .ok k) :
    m.base ≤ a ∧ a < m.base + m.size ∧ k = (a - m.base) / Word.bytes := by
  unfold bitIndex limit Word.add at h
  split at h
  · simp only [bind, Except.bind] at h
    split at h
    · cases h
      rename_i hr
      simp only [Bool.and_eq_true, decide_eq_true_eq] at hr
      exact ⟨hr.1, hr.2, rfl⟩
    · cases h
  · cases h

/-- 数が覆う範囲を数えきるなら、覆う範囲のアドレスのビットは数の範囲にある。 -/
theorem bitIndex_lt {m : Bitmap} {a k : Nat}
    (hcov : m.size ≤ m.words.size * wordBits * Word.bytes) (h : m.bitIndex a = .ok k) :
    k < m.words.size * wordBits := by
  obtain ⟨hlo, hhi, rfl⟩ := bitIndex_ok h
  unfold Word.bytes at *
  omega

end RegionMark.Bitmap
