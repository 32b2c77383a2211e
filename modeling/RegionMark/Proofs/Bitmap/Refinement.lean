import Mathlib
import RegionMark.Proofs.Bitmap.Weight

/-!
# 語の番号の集合としてのビットマップ

ビットマップは印の付いた語の番号の有限集合 `marks` を表し、各操作はこの集合の上の操作として振る舞う
（`refines_word_set`）。範囲 `s..l` の消去は `[wordOf s, wordEnd l)` を除くが、`s` と `l` が同じ語の中に
あると何も消さない（`clearRange_within_word_keeps_mark`）。
-/

namespace RegionMark.Bitmap

theorem wordBits_eq : wordBits = 64 := rfl

theorem testBit_of_replicate {base size n k : Nat} :
    (Bitmap.mk base size (Array.replicate n 0)).testBit k = false := by
  unfold testBit
  rw [Array.getD_eq_getD_getElem?, Array.getElem?_replicate]
  split <;> simp

theorem new_eq {b s : Nat} {m : Bitmap} (h : Bitmap.new b s = .ok m) :
    m = ⟨b, s, Array.replicate (Word.divCeil (s / Word.bytes) wordBits) 0⟩ := by
  unfold Bitmap.new at h
  split at h
  · cases h
  · cases h; rfl

theorem testBit_clearAll (m : Bitmap) (k : Nat) : m.clearAll.testBit k = false := by
  unfold clearAll testBit
  rw [Array.getD_eq_getD_getElem?, Array.getElem?_map]
  cases m.words[k / wordBits]? <;> simp

/-! ## 数の中の最下位のビット -/

theorem exists_lowBit {x : Nat} (hx : 0 < x) : ∃ t Q, x = 2 ^ (t + 1) * Q + 2 ^ t := by
  obtain ⟨t, m, ⟨Q, rfl⟩, rfl⟩ := Nat.exists_eq_two_pow_mul_odd (Nat.pos_iff_ne_zero.1 hx)
  exact ⟨t, Q, by rw [Nat.pow_succ]; ring⟩

theorem testBit_lowBit (t Q i : Nat) :
    (2 ^ (t + 1) * Q + 2 ^ t).testBit i = if i < t + 1 then decide (t = i) else Q.testBit (i - (t + 1)) := by
  rw [Nat.testBit_two_pow_mul_add _ (Nat.pow_lt_pow_right (by decide) (by omega)), Nat.testBit_two_pow]

theorem lowestBit_lowBit (t Q : Nat) : lowestBit (2 ^ (t + 1) * Q + 2 ^ t) = t := by
  have hone := Nat.one_le_two_pow (n := t)
  have hdouble : 2 ^ (t + 1) = 2 * 2 ^ t := by rw [Nat.pow_succ, Nat.mul_comm]
  -- 1 つ引くと最下位のビットまでが反転し、それより上は変わらないので、排他的論理和は下の `t + 1` ビット
  have hx : (2 ^ (t + 1) * Q + 2 ^ t) ^^^ (2 ^ (t + 1) * Q + 2 ^ t - 1) = 2 ^ (t + 1) - 1 := by
    rw [show 2 ^ (t + 1) * Q + 2 ^ t - 1 = 2 ^ (t + 1) * Q + (2 ^ t - 1) by omega]
    apply Nat.eq_of_testBit_eq
    intro i
    rw [Nat.testBit_xor, testBit_lowBit, Nat.testBit_two_pow_mul_add _ (by omega),
      Nat.testBit_two_pow_sub_one, Nat.testBit_two_pow_sub_one]
    by_cases hi : i < t + 1
    · rw [if_pos hi, if_pos hi]
      rcases Nat.lt_or_eq_of_le (Nat.le_of_lt_succ hi) with hlt | rfl
      · simp [hlt, Nat.ne_of_gt hlt, hi]
      · simp
    · rw [if_neg hi, if_neg hi]
      simp [hi]
  unfold lowestBit
  rw [hx, Nat.log2_eq_iff (by omega)]
  omega

theorem testBit_lowestBit {x : Nat} (hx : 0 < x) :
    x.testBit (lowestBit x) = true ∧ ∀ j < lowestBit x, x.testBit j = false := by
  obtain ⟨t, Q, rfl⟩ := exists_lowBit hx
  rw [lowestBit_lowBit]
  refine ⟨by simp [testBit_lowBit], fun j hj => ?_⟩
  rw [testBit_lowBit, if_pos (by omega)]
  simp only [decide_eq_false_iff_not]
  omega

/-! ## 番号の区間を順に調べる -/

section Interval

variable {p : Nat → Bool} {k k' e f : Nat}

theorem find?_range'_eq_none (h : ∀ j, k ≤ j → j < e → p j = false) :
    (List.range' k (e - k)).find? p = none :=
  List.find?_eq_none.2 fun j hj => by
    rw [List.mem_range'_1] at hj
    simp [h j hj.1 (by omega)]

theorem find?_range'_eq_some (hkf : k ≤ f) (hfe : f < e) (hf : p f = true)
    (h : ∀ j, k ≤ j → j < f → p j = false) : (List.range' k (e - k)).find? p = some f := by
  -- 区間を `[k, f)`、`f`、`(f, e)` に分ける
  have hsplit := @List.range'_append_1 k (f - k) (e - f)
  rw [show k + (f - k) = f by omega, show f - k + (e - f) = e - k by omega,
    show e - f = e - (f + 1) + 1 by omega, List.range'_succ] at hsplit
  rw [← hsplit, List.find?_append, find?_range'_eq_none h, Option.none_or, List.find?_cons_of_pos hf]

theorem find?_range'_skip (hk : k ≤ k') (h : ∀ j, k ≤ j → j < k' → p j = false) :
    (List.range' k (e - k)).find? p = (List.range' k' (e - k')).find? p := by
  by_cases he : e ≤ k'
  · rw [find?_range'_eq_none fun j hj hje => h j hj (by omega), show e - k' = 0 by omega]
    rfl
  · have hsplit := @List.range'_append_1 k (k' - k) (e - k')
    rw [show k + (k' - k) = k' by omega, show k' - k + (e - k') = e - k by omega] at hsplit
    rw [← hsplit, List.find?_append, find?_range'_eq_none h, Option.none_or]

end Interval

/-! ## 整ったビットマップ -/

/-- 整ったビットマップ：覆う範囲は語にそろって 1 語の番地に収まり、数の並びは覆う範囲を数えきり、どの数も
64 ビットに収まる。 -/
structure WellFormed (m : Bitmap) : Prop where
  base_aligned : m.base % Word.bytes = 0
  size_aligned : m.size % Word.bytes = 0
  fits : m.base + m.size < Word.bound
  covers : m.size / Word.bytes ≤ m.words.size * wordBits
  narrow : ∀ w ∈ m.words, w < 2 ^ wordBits

variable {m : Bitmap}

theorem getD_lt_of_narrow {words : Array Nat} (h : ∀ w ∈ words, w < 2 ^ wordBits) (i : Nat) :
    words.getD i 0 < 2 ^ wordBits := by
  rw [Array.getD_eq_getD_getElem?]
  cases hw : words[i]? with
  | none => exact Nat.two_pow_pos _
  | some w => exact h w (Array.mem_of_getElem? hw)

theorem testBit_eq_shiftRight (m : Bitmap) {k j : Nat} (hkj : k ≤ j) (hj : j / wordBits = k / wordBits) :
    m.testBit j = ((m.words.getD (k / wordBits) 0) >>> (k % wordBits)).testBit (j - k) := by
  unfold testBit
  rw [hj, Nat.testBit_shiftRight]
  congr 1
  rw [wordBits_eq] at *
  omega

/-! ## 最初に印の付いた語の探索 -/

/-- `[k, e)` で最初に立っているビットの探索は、その区間を順に調べることと同じ。燃料は、`e` までの数を
数えきればよい。 -/
theorem firstSetIn_eq (m : Bitmap) (hn : ∀ w ∈ m.words, w < 2 ^ wordBits) {fuel k e : Nat}
    (hfuel : e ≤ (k / wordBits + fuel) * wordBits) :
    firstSetIn m.words k e fuel = (List.range' k (e - k)).find? m.testBit := by
  induction fuel generalizing k with
  | zero =>
    rw [show e - k = 0 by rw [wordBits_eq] at hfuel; omega]
    rfl
  | succ fuel ih =>
    rw [firstSetIn]
    split
    · rw [show e - k = 0 by omega]
      rfl
    · rename_i hek
      dsimp only
      split
      · rename_i hw
        -- 数の残りのビットはどれも立っていない：次の数の頭から探す
        rw [ih (by rw [wordBits_eq] at *; omega)]
        refine (find?_range'_skip (by rw [wordBits_eq]; omega) fun j hkj hj => ?_).symm
        rw [testBit_eq_shiftRight m hkj (by rw [wordBits_eq] at *; omega), hw, Nat.zero_testBit]
      · rename_i hw
        -- 立っている最下位のビットは同じ数の中にある
        have hpos : 0 < m.words.getD (k / wordBits) 0 >>> (k % wordBits) := Nat.pos_of_ne_zero hw
        obtain ⟨hset, hbelow⟩ := testBit_lowestBit hpos
        have hin :
            k % wordBits + lowestBit (m.words.getD (k / wordBits) 0 >>> (k % wordBits)) < wordBits := by
          have hlt : m.words.getD (k / wordBits) 0 >>> (k % wordBits) < 2 ^ (wordBits - k % wordBits) := by
            rw [Nat.shiftRight_eq_div_pow, Nat.div_lt_iff_lt_mul (Nat.two_pow_pos _), ← Nat.pow_add,
              Nat.sub_add_cancel (Nat.le_of_lt (Nat.mod_lt _ (by decide)))]
            exact getD_lt_of_narrow hn _
          have := Nat.lt_of_le_of_lt (Nat.ge_two_pow_of_testBit hset) hlt
          have := (Nat.pow_lt_pow_iff_right (by decide)).1 this
          omega
        have hword : ∀ j, k ≤ j → j ≤ k + lowestBit (m.words.getD (k / wordBits) 0 >>> (k % wordBits)) →
            j / wordBits = k / wordBits := fun j h1 h2 => by
          rw [wordBits_eq] at *
          omega
        have hbits : ∀ j, k ≤ j → j < k + lowestBit (m.words.getD (k / wordBits) 0 >>> (k % wordBits)) →
            m.testBit j = false := fun j h1 h2 => by
          rw [testBit_eq_shiftRight m h1 (hword j h1 (by omega))]
          exact hbelow _ (by omega)
        split
        · rename_i hfe
          refine (find?_range'_eq_some (by omega) hfe ?_ hbits).symm
          rw [testBit_eq_shiftRight m (by omega) (hword _ (by omega) le_rfl), Nat.add_sub_cancel_left]
          exact hset
        · exact (find?_range'_eq_none fun j h1 h2 => hbits j h1 (by omega)).symm

/-! ## 範囲の消去 -/

theorem clearWords_of_le {words : Array Nat} {k e : Nat} (h : e ≤ k) (fuel : Nat) :
    clearWords words k e fuel = words := by
  cases fuel <;> simp [clearWords, h]

theorem getD_modify (a : Array Nat) (q i : Nat) (g : Nat → Nat) :
    (a.modify q g).getD i 0 = if q = i ∧ q < a.size then g (a.getD q 0) else a.getD i 0 := by
  rw [Array.getD_eq_getD_getElem?, Array.getElem?_modify, Array.getD_eq_getD_getElem?,
    Array.getD_eq_getD_getElem?]
  by_cases hq : q = i
  · subst hq
    by_cases hlt : q < a.size
    · simp [hlt]
    · simp [hlt]
  · simp [hq]

/-- 1 つの数の `k % 64` から `span` 個のビットを消すと、`[k, k + span)` のビットが消え、ほかは変わらない。 -/
theorem testBit_clearSpan {b s : Nat} (words : Array Nat) {k span : Nat}
    (hspan : span ≤ wordBits - k % wordBits) (j : Nat) :
    (Bitmap.mk b s (words.modify (k / wordBits)
        fun w => w ^^^ (w &&& (Nat.pow 2 span - 1) <<< (k % wordBits)))).testBit j =
      ((Bitmap.mk b s words).testBit j && !decide (k ≤ j ∧ j < k + span)) := by
  unfold testBit
  dsimp only
  rw [getD_modify]
  split
  · rename_i h
    obtain ⟨hq, -⟩ := h
    rw [← hq]
    have hpow : Nat.pow 2 span = 2 ^ span := rfl
    rw [Nat.testBit_xor, Nat.testBit_and, Nat.testBit_shiftLeft, hpow, Nat.testBit_two_pow_sub_one]
    -- 覆いが消すのは、同じ数の中で `k` から `span` 個
    have hmask : (decide (j % wordBits ≥ k % wordBits) && decide (j % wordBits - k % wordBits < span)) =
        decide (k ≤ j ∧ j < k + span) := by
      rw [← Bool.decide_and]
      refine decide_eq_decide.mpr ?_
      rw [wordBits_eq] at *
      constructor <;> intro h <;> omega
    rw [hmask]
    cases (words.getD (k / wordBits) 0).testBit (j % wordBits) <;> cases decide (k ≤ j ∧ j < k + span) <;> rfl
  · rename_i h
    by_cases hq : k / wordBits = j / wordBits
    · -- 数の並びの外：ビットはもともと立っていない
      have hout : ¬k / wordBits < words.size := fun hlt => h ⟨hq, hlt⟩
      rw [Array.getD_eq_getD_getElem?, Array.getElem?_eq_none (by omega)]
      simp
    · have : ¬(k ≤ j ∧ j < k + span) := fun hj => hq (by rw [wordBits_eq] at *; omega)
      simp [this]

theorem size_clearWords (words : Array Nat) (k e fuel : Nat) :
    (clearWords words k e fuel).size = words.size := by
  induction fuel generalizing words k with
  | zero => rfl
  | succ fuel ih =>
    rw [clearWords]
    split
    · rfl
    · rw [ih, Array.size_modify]

theorem narrow_clearWords {words : Array Nat} (h : ∀ w ∈ words, w < 2 ^ wordBits) (k e fuel : Nat) :
    ∀ w ∈ clearWords words k e fuel, w < 2 ^ wordBits := by
  induction fuel generalizing words k with
  | zero => exact h
  | succ fuel ih =>
    rw [clearWords]
    split
    · exact h
    · refine ih (fun w hw => ?_) _
      obtain ⟨i, hi, rfl⟩ := Array.mem_iff_getElem.1 hw
      rw [Array.getElem_modify]
      split
      · have hlt := h _ (Array.getElem_mem (by simpa using hi))
        exact Nat.xor_lt_two_pow hlt (Nat.lt_of_le_of_lt Nat.and_le_left hlt)
      · exact h _ (Array.getElem_mem _)

/-- 数 1 つずつの消去は、`[k, e)` のビットを消し、ほかを変えない。燃料は `e` までの数を数えきればよい。 -/
theorem testBit_clearWords {b s : Nat} {words : Array Nat} {fuel k e : Nat}
    (hfuel : e ≤ (k / wordBits + fuel) * wordBits) (j : Nat) :
    (Bitmap.mk b s (clearWords words k e fuel)).testBit j =
      ((Bitmap.mk b s words).testBit j && !decide (k ≤ j ∧ j < e)) := by
  induction fuel generalizing words k with
  | zero =>
    have : ¬(k ≤ j ∧ j < e) := by rw [wordBits_eq] at hfuel; omega
    simp [clearWords, this]
  | succ fuel ih =>
    rw [clearWords]
    split
    · rename_i hek
      have : ¬(k ≤ j ∧ j < e) := by omega
      simp [this]
    · rename_i hek
      dsimp only
      by_cases hlast : e - k ≤ wordBits - k % wordBits
      · -- 最後の数：消すのは `e` まで
        have hmin : Nat.min (wordBits - k % wordBits) (e - k) = e - k := Nat.min_eq_right hlast
        rw [hmin, clearWords_of_le (by omega), testBit_clearSpan words hlast, show k + (e - k) = e by omega]
      · -- 数の終わりまで消してから、次の数へ
        have hmin : Nat.min (wordBits - k % wordBits) (e - k) = wordBits - k % wordBits :=
          Nat.min_eq_left (by omega)
        rw [hmin, ih (by rw [wordBits_eq] at *; omega), testBit_clearSpan words le_rfl, Bool.and_assoc]
        congr 1
        -- `[k, e)` は、この数の中の `[k, c)` と、次の数から先の `[c, e)` に分かれる
        by_cases hjc : j < k + (wordBits - k % wordBits)
        · have hje : j < e := by omega
          simp [hjc, hje, Nat.not_le.mpr hjc]
        · have hkj : k ≤ j := by omega
          simp [hjc, hkj, Nat.le_of_not_lt hjc]

/-! ## 語の番号 -/

/-- アドレス `a` の語の番号。 -/
def wordOf (m : Bitmap) (a : Nat) : Nat := (a - m.base) / Word.bytes

/-- 上限 `l` までの範囲の操作が止まる番号：`l` の手前の語の次の番号。 -/
def wordEnd (m : Bitmap) (l : Nat) : Nat := Word.divCeil (l - m.base) Word.bytes

/-- 印の付いた語の番号の集合。 -/
def marks (m : Bitmap) : Finset Nat := (Finset.range (m.size / Word.bytes)).filter fun k => m.testBit k

/-- 集合 `M` の要素のうち `[lo, hi)` にあるものの、昇順の並び。 -/
def membersIn (M : Finset Nat) (lo hi : Nat) : List Nat := (List.range' lo (hi - lo)).filter (· ∈ M)

/-- 範囲 `s..l` の操作が見る、集合 `M` の要素の昇順の並び。空の範囲は何も見ない。 -/
def seen (m : Bitmap) (M : Finset Nat) (s l : Nat) : List Nat :=
  if s < l then membersIn M (m.wordOf s) (m.wordEnd l) else []

/-- 見つけた語を順に受け、`keepOn`（その語を含めて、それまでに見つけた語を新しい順に受ける）が偽になった
最初の語の後で止まる。見た語と、終わりまでたどったかを返す。 -/
def visitList (keepOn : List Nat → Bool) : List Nat → List Nat → List Nat × Bool
  | [], acc => (acc.reverse, true)
  | a :: rest, acc =>
    if keepOn (a :: acc) then visitList keepOn rest (a :: acc) else ((a :: acc).reverse, false)

theorem mem_marks {k : Nat} : k ∈ m.marks ↔ k < m.size / Word.bytes ∧ m.testBit k = true := by
  simp [marks]

theorem wordOf_lt (hm : m.WellFormed) {a : Nat} (ha : m.base ≤ a) (ha' : a < m.base + m.size) :
    m.wordOf a < m.size / Word.bytes := by
  have := hm.size_aligned
  simp only [wordOf, Word.bytes] at *
  omega

theorem wordEnd_le (hm : m.WellFormed) {l : Nat} (hl : l ≤ m.base + m.size) :
    m.wordEnd l ≤ m.size / Word.bytes := by
  have := hm.size_aligned
  unfold wordEnd Word.divCeil Word.bytes at *
  split <;> omega

theorem wordOf_le_wordEnd {s l : Nat} (hs : s < l) : m.wordOf s ≤ m.wordEnd l := by
  unfold wordOf wordEnd Word.divCeil Word.bytes
  split <;> omega

@[simp] theorem wordOf_addrOf (k : Nat) : m.wordOf (m.addrOf k) = k := by
  unfold wordOf addrOf Word.bytes
  omega

theorem addrOf_wordOf (hm : m.WellFormed) {a : Nat} (ha : m.base ≤ a) (ha8 : a % Word.bytes = 0) :
    m.addrOf (m.wordOf a) = a := by
  have := hm.base_aligned
  simp only [wordOf, addrOf, Word.bytes] at *
  omega

theorem lt_wordEnd_iff {l k : Nat} (hl : m.base ≤ l) : k < m.wordEnd l ↔ m.addrOf k < l := by
  unfold wordEnd addrOf Word.divCeil Word.bytes
  split <;> omega

theorem wordOf_le_iff (hm : m.WellFormed) {s k : Nat} (hs : m.base ≤ s) (hs8 : s % Word.bytes = 0) :
    m.wordOf s ≤ k ↔ s ≤ m.addrOf k := by
  have := hm.base_aligned
  simp only [wordOf, addrOf, Word.bytes] at *
  omega

theorem bitIndex_eq (hm : m.WellFormed) {a : Nat} (ha : m.base ≤ a) (ha' : a < m.base + m.size) :
    m.bitIndex a = .ok (m.wordOf a) := by
  have hlim : m.limit = .ok (m.base + m.size) := by
    unfold limit Word.add
    rw [if_pos hm.fits]
  simp only [bitIndex, hlim, bind, Except.bind, pure, Except.pure]
  rw [if_pos (by simp [ha, ha'])]
  rfl

theorem searchEnd_eq (hm : m.WellFormed) {l : Nat} (hl : m.base ≤ l) (hl' : l ≤ m.base + m.size) :
    m.searchEnd l = .ok (m.wordEnd l) := by
  simp only [searchEnd, Word.sub, if_pos hl, bind, Except.bind, pure, Except.pure]
  change Except.ok (min (m.wordEnd l) (m.size / Word.bytes)) = _
  rw [Nat.min_eq_left (wordEnd_le hm hl')]

theorem filter_testBit_eq_membersIn {lo hi : Nat} (hhi : hi ≤ m.size / Word.bytes) :
    (List.range' lo (hi - lo)).filter m.testBit = membersIn m.marks lo hi := by
  unfold membersIn
  refine List.filter_congr fun j hj => ?_
  rw [List.mem_range'_1] at hj
  simp only [mem_marks, decide_eq_decide.mpr (and_iff_right (show j < m.size / Word.bytes by omega))]
  cases m.testBit j <;> simp

theorem length_seen_le (hm : m.WellFormed) {s l : Nat} (hl : l ≤ m.base + m.size) (M : Finset Nat) :
    (m.seen M s l).length ≤ m.size / Word.bytes := by
  unfold seen
  split
  · exact (List.length_filter_le _ _).trans (by simp; have := wordEnd_le hm hl; omega)
  · exact Nat.zero_le _

/-- 並びの最初の要素の後の要素は、その次の番号から読んだもの。 -/
theorem membersIn_eq_cons {M : Finset Nat} {lo hi j : Nat} {rest : List Nat}
    (h : membersIn M lo hi = j :: rest) :
    lo ≤ j ∧ j < hi ∧ rest = membersIn M (j + 1) hi := by
  obtain ⟨l₁, l₂, hsplit, -, -, hrest⟩ := List.filter_eq_cons_iff.1 h
  obtain ⟨n, hn, -, htail⟩ := List.range'_eq_append_iff.1 hsplit
  obtain ⟨hj, hpos, hl₂⟩ := List.range'_eq_cons_iff.1 htail.symm
  refine ⟨by omega, by omega, ?_⟩
  rw [← hrest, hl₂, membersIn]
  congr 2
  omega

/-! ## 操作ごとの振る舞い -/

theorem nextMarked_eq (hm : m.WellFormed) {s l : Nat} (hs : m.base ≤ s) (hl : l ≤ m.base + m.size) :
    m.nextMarked s l = .ok ((m.seen m.marks s l).head?.map m.addrOf) := by
  unfold nextMarked seen
  by_cases hls : l ≤ s
  · simp [hls, Nat.not_lt.mpr hls]
    rfl
  · have hsl : s < l := Nat.lt_of_not_le hls
    have hin : s < m.base + m.size := by omega
    have hend := wordEnd_le hm hl
    -- 燃料は数の並びの長さより 1 つ多く、`wordEnd l` までの数を数えきる
    have hfuel : m.wordEnd l ≤ (m.wordOf s / wordBits + (m.words.size + 1)) * wordBits := by
      have := hm.covers
      simp only [Word.bytes, wordBits_eq] at *
      omega
    simp only [hls, ↓reduceIte, bitIndex_eq hm hs hin, searchEnd_eq hm (by omega) hl, bind, Except.bind,
      pure, Except.pure, if_pos hsl]
    rw [firstSetIn_eq m hm.narrow hfuel, ← List.head?_filter, filter_testBit_eq_membersIn hend]

theorem visitList_true (L acc : List Nat) : visitList (fun _ => true) L acc = (acc.reverse ++ L, true) := by
  induction L generalizing acc with
  | nil => simp [visitList]
  | cons a rest ih => simp [visitList, ih]

/-- 印の付いた語の歩みは、見る並びの上の `visitList`。燃料は見る並びより長ければよい。 -/
theorem walk_eq (hm : m.WellFormed) (keepOn : List Nat → Bool) {l : Nat} (hl : l ≤ m.base + m.size) :
    ∀ fuel cur acc, m.base ≤ cur → (m.seen m.marks cur l).length < fuel →
      m.walk keepOn l fuel cur acc = .ok (visitList keepOn ((m.seen m.marks cur l).map m.addrOf) acc) := by
  intro fuel
  induction fuel with
  | zero => intro _ _ _ h; cases h
  | succ fuel ih =>
    intro cur acc hc hlen
    rw [walk, nextMarked_eq hm hc hl]
    cases hseen : m.seen m.marks cur l with
    | nil => rfl
    | cons j rest =>
      -- 見つけた語の次の語から、残りの並びを歩む
      have hcur : m.base ≤ m.addrOf j + Word.bytes := by unfold addrOf; omega
      have hrest : m.seen m.marks (m.addrOf j + Word.bytes) l = rest := by
        unfold seen at hseen ⊢
        split at hseen
        · obtain ⟨-, hjE, hr⟩ := membersIn_eq_cons hseen
          have hword : m.wordOf (m.addrOf j + Word.bytes) = j + 1 := by unfold wordOf addrOf Word.bytes; omega
          split
          · rw [hword, hr]
          · -- 次の語が上限に届いていれば、残りはない
            rename_i hge
            rw [hr, membersIn, show m.wordEnd l - (j + 1) = 0 by
              unfold wordEnd addrOf Word.divCeil Word.bytes at *; split <;> omega]
            rfl
        · cases hseen
      simp only [bind, Except.bind, Option.map_some, List.head?_cons, List.map_cons, visitList]
      split
      · rw [ih _ _ hcur (by rw [hrest]; rw [hseen] at hlen; simp at hlen; omega), hrest]
      · rfl

theorem visit_eq (hm : m.WellFormed) {s l : Nat} (hs : m.base ≤ s) (hl : l ≤ m.base + m.size) (keepOn : List Nat → Bool) :
    m.visit s l keepOn = .ok (visitList keepOn ((m.seen m.marks s l).map m.addrOf) []) :=
  walk_eq hm keepOn hl _ _ _ hs (Nat.lt_succ_of_le (length_seen_le hm hl _))

theorem marks_setBit (hm : m.WellFormed) {k : Nat} (hk : k < m.size / Word.bytes) :
    (m.setBit k).marks = insert k m.marks := by
  ext j
  rw [mem_marks, Finset.mem_insert, mem_marks, size_setBit,
    testBit_setBit m (Nat.lt_of_lt_of_le hk hm.covers)]
  by_cases hj : j = k
  · subst hj
    simp [hk]
  · simp [hj]

theorem marks_clearWords (hm : m.WellFormed) {k e : Nat} (he : e ≤ m.size / Word.bytes) :
    ({ m with words := clearWords m.words k e (m.words.size + 1) } : Bitmap).marks =
      m.marks.filter fun j => ¬(k ≤ j ∧ j < e) := by
  ext j
  have hfuel : e ≤ (k / wordBits + (m.words.size + 1)) * wordBits := by
    have := hm.covers
    simp only [Word.bytes, wordBits_eq] at *
    omega
  rw [Finset.mem_filter, mem_marks, mem_marks, testBit_clearWords hfuel]
  simp only [Bool.and_eq_true, Bool.not_eq_true', decide_eq_false_iff_not]
  exact ⟨fun ⟨h1, h2, h3⟩ => ⟨⟨h1, h2⟩, h3⟩, fun ⟨⟨h1, h2⟩, h3⟩ => ⟨h1, h2, h3⟩⟩

theorem WellFormed.setBit (hm : m.WellFormed) (k : Nat) : (m.setBit k).WellFormed where
  base_aligned := hm.base_aligned
  size_aligned := hm.size_aligned
  fits := hm.fits
  covers := by rw [words_size_setBit]; exact hm.covers
  narrow w hw := by
    obtain ⟨i, hi, rfl⟩ := Array.mem_iff_getElem.1 hw
    simp only [Bitmap.setBit, Array.getElem_modify]
    split
    · have hlt := hm.narrow _ (Array.getElem_mem (by simpa [Bitmap.setBit] using hi))
      refine Nat.or_lt_two_pow hlt ?_
      rw [Nat.one_shiftLeft]
      exact Nat.pow_lt_pow_right (by decide) (Nat.mod_lt _ (by decide))
    · exact hm.narrow _ (Array.getElem_mem _)

theorem WellFormed.clearWords (hm : m.WellFormed) (k e fuel : Nat) :
    ({ m with words := Bitmap.clearWords m.words k e fuel } : Bitmap).WellFormed where
  base_aligned := hm.base_aligned
  size_aligned := hm.size_aligned
  fits := hm.fits
  covers := by rw [size_clearWords]; exact hm.covers
  narrow := narrow_clearWords hm.narrow k e fuel

theorem WellFormed.clearAll (hm : m.WellFormed) : m.clearAll.WellFormed where
  base_aligned := hm.base_aligned
  size_aligned := hm.size_aligned
  fits := hm.fits
  covers := by simpa [Bitmap.clearAll] using hm.covers
  narrow w hw := by
    obtain ⟨v, -, rfl⟩ := Array.mem_map.1 hw
    exact Nat.two_pow_pos _

/-! ## 語の番号の集合としての振る舞い -/

/-- ビットマップ `m` が語の番号の集合 `M` を表し、どの操作もその上の操作として振る舞うこと。アドレスは覆う
範囲にあり、範囲の終わりは覆う範囲の終わりを越えない。印付けは番号を加え、加える前になかったかを答える。
範囲の消去は `s < l` のとき `[wordOf s, wordEnd l)` の番号を除く。探索、歩み、数え上げは `seen` の並びを読む。
語にそろった範囲では、見る語はちょうど範囲の中の印の付いた語である。 -/
structure Refines (m : Bitmap) (M : Finset Nat) : Prop where
  mark : ∀ a, m.base ≤ a → a < m.base + m.size →
    ∃ m', m.mark a = .ok (decide (m.wordOf a ∉ M), m') ∧ m'.marks = insert (m.wordOf a) M
  isMarked : ∀ a, m.base ≤ a → a < m.base + m.size → m.isMarked a = .ok (decide (m.wordOf a ∈ M))
  clearRange : ∀ s l, m.base ≤ s → l ≤ m.base + m.size →
    ∃ m', m.clearRange s l = .ok m' ∧ m'.marks = M.filter fun k => ¬(s < l ∧ m.wordOf s ≤ k ∧ k < m.wordEnd l)
  clearAll : m.clearAll.marks = ∅
  nextMarked : ∀ s l, m.base ≤ s → l ≤ m.base + m.size →
    m.nextMarked s l = .ok ((m.seen M s l).head?.map m.addrOf)
  visit : ∀ s l keepOn, m.base ≤ s → l ≤ m.base + m.size →
    m.visit s l keepOn = .ok (visitList keepOn ((m.seen M s l).map m.addrOf) [])
  countMarked : ∀ s l, m.base ≤ s → l ≤ m.base + m.size →
    m.countMarked s l = .ok (m.seen M s l).length
  seen_aligned : ∀ s l a, m.base ≤ s → s % Word.bytes = 0 →
    (a ∈ (m.seen M s l).map m.addrOf ↔ s ≤ a ∧ a < l ∧ a % Word.bytes = 0 ∧ m.wordOf a ∈ M)

theorem WellFormed.mark_eq (hm : m.WellFormed) {a : Nat} (ha : m.base ≤ a) (ha' : a < m.base + m.size) :
    m.mark a = .ok (decide (m.wordOf a ∉ m.marks),
      if m.testBit (m.wordOf a) then m else m.setBit (m.wordOf a)) := by
  have hk := wordOf_lt hm ha ha'
  simp only [Bitmap.mark, bitIndex_eq hm ha ha', bind, Except.bind, mem_marks, hk, true_and]
  cases m.testBit (m.wordOf a) <;> rfl

theorem seen_aligned (hm : m.WellFormed) {M : Finset Nat} {s l a : Nat} (hs : m.base ≤ s)
    (hs8 : s % Word.bytes = 0) :
    a ∈ (m.seen M s l).map m.addrOf ↔ s ≤ a ∧ a < l ∧ a % Word.bytes = 0 ∧ m.wordOf a ∈ M := by
  unfold seen
  split
  · rename_i hsl
    have hle := wordOf_le_wordEnd (m := m) hsl
    simp only [membersIn, List.mem_map, List.mem_filter, List.mem_range'_1, decide_eq_true_eq,
      show m.wordOf s + (m.wordEnd l - m.wordOf s) = m.wordEnd l by omega]
    constructor
    · rintro ⟨k, ⟨⟨h1, h2⟩, hk⟩, rfl⟩
      have h8 : m.addrOf k % Word.bytes = 0 := by
        have := hm.base_aligned
        simp only [addrOf, Word.bytes] at *
        omega
      exact ⟨(wordOf_le_iff hm hs hs8).1 h1, (lt_wordEnd_iff (by omega)).1 h2, h8, by rwa [wordOf_addrOf]⟩
    · rintro ⟨h1, h2, h3, hk⟩
      have ha := addrOf_wordOf hm (by omega : m.base ≤ a) h3
      refine ⟨m.wordOf a, ⟨⟨(wordOf_le_iff hm hs hs8).2 ?_, (lt_wordEnd_iff (by omega)).2 ?_⟩, hk⟩, ha⟩
      · rwa [ha]
      · rwa [ha]
  · simp only [List.map_nil, List.not_mem_nil, false_iff]
    omega

theorem WellFormed.refines (hm : m.WellFormed) : m.Refines m.marks where
  mark a ha ha' := by
    refine ⟨_, hm.mark_eq ha ha', ?_⟩
    split
    · rename_i hset
      exact (Finset.insert_eq_of_mem (mem_marks.2 ⟨wordOf_lt hm ha ha', hset⟩)).symm
    · exact marks_setBit hm (wordOf_lt hm ha ha')
  isMarked a ha ha' := by
    simp only [isMarked, bitIndex_eq hm ha ha', bind, Except.bind, pure, Except.pure, mem_marks,
      wordOf_lt hm ha ha', true_and]
    cases m.testBit (m.wordOf a) <;> rfl
  clearRange s l hs hl := by
    by_cases hls : l ≤ s
    · refine ⟨m, by simp [Bitmap.clearRange, hls]; rfl, ?_⟩
      rw [Finset.filter_true_of_mem fun k _ h => absurd h.1 (Nat.not_lt.mpr hls)]
    · refine ⟨_, ?_, (marks_clearWords hm (k := m.wordOf s) (wordEnd_le hm hl)).trans ?_⟩
      · simp only [Bitmap.clearRange, hls, ↓reduceIte, bitIndex_eq hm hs (by omega), searchEnd_eq hm (by omega) hl,
          bind, Except.bind, pure, Except.pure]
      · simp [Nat.lt_of_not_le hls]
  clearAll := by
    ext k
    simp [mem_marks, testBit_clearAll]
  nextMarked s l hs hl := nextMarked_eq hm hs hl
  visit s l keepOn hs hl := visit_eq hm hs hl keepOn
  countMarked s l hs hl := by
    simp only [countMarked, visit_eq hm hs hl, visitList_true, bind, Except.bind, pure, Except.pure]
    simp
  seen_aligned _ _ _ hs hs8 := seen_aligned hm hs hs8

/-! ## 作ってからの操作 -/

/-- `m₀` から、印付け、範囲の消去、すべての消去を重ねて届くビットマップ。問い合わせはビットマップを変えない。 -/
inductive Reach (m₀ : Bitmap) : Bitmap → Prop where
  | refl : Reach m₀ m₀
  | mark {m m' : Bitmap} {a : Nat} {fresh : Bool} : Reach m₀ m → m.mark a = .ok (fresh, m') → Reach m₀ m'
  | clearRange {m m' : Bitmap} {s l : Nat} : Reach m₀ m → m.clearRange s l = .ok m' → Reach m₀ m'
  | clearAll {m : Bitmap} : Reach m₀ m → Reach m₀ m.clearAll

theorem WellFormed.of_mark (hm : m.WellFormed) {a : Nat} {fresh : Bool} {m' : Bitmap}
    (h : m.mark a = .ok (fresh, m')) : m'.WellFormed := by
  simp only [Bitmap.mark, bind, Except.bind] at h
  split at h
  · cases h
  · split at h <;> cases h
    · exact hm
    · exact hm.setBit _

theorem WellFormed.of_clearRange (hm : m.WellFormed) {s l : Nat} {m' : Bitmap}
    (h : m.clearRange s l = .ok m') : m'.WellFormed := by
  simp only [Bitmap.clearRange, bind, Except.bind, pure, Except.pure] at h
  split at h
  · cases h
    exact hm
  · split at h
    · cases h
    · split at h
      · cases h
      · cases h
        exact hm.clearWords _ _ _

theorem Reach.wellFormed {m₀ m : Bitmap} (h₀ : m₀.WellFormed) (h : Reach m₀ m) : m.WellFormed := by
  induction h with
  | refl => exact h₀
  | mark _ hm ih => exact ih.of_mark hm
  | clearRange _ hm ih => exact ih.of_clearRange hm
  | clearAll _ ih => exact ih.clearAll

theorem new_wellFormed {base size : Nat} {m : Bitmap} (hfit : base + size < Word.bound)
    (h : Bitmap.new base size = .ok m) : m.WellFormed := by
  have hal : base % Word.bytes = 0 ∧ size % Word.bytes = 0 := by
    unfold Bitmap.new at h
    split at h
    · cases h
    · rename_i hc
      simpa using hc
  rw [new_eq h]
  refine ⟨hal.1, hal.2, hfit, ?_, fun w hw => ?_⟩
  · show size / Word.bytes ≤ (Array.replicate (Word.divCeil (size / Word.bytes) wordBits) 0).size * wordBits
    rw [Array.size_replicate, Word.divCeil]
    split <;> (rw [wordBits_eq] at *; omega)
  · rw [(Array.mem_replicate.1 hw).2]
    exact Nat.two_pow_pos _

/-- 語にそろった `[base, base + size)` の上に作ったビットマップは、空の集合を表し、そこから印付け、範囲の
消去、すべての消去をどう重ねても、印の付いた語の番号の集合を表す。 -/
theorem refines_word_set {base size : Nat} {m₀ : Bitmap} (hfit : base + size < Word.bound)
    (hnew : Bitmap.new base size = .ok m₀) : m₀.marks = ∅ ∧ ∀ m, Reach m₀ m → m.Refines m.marks := by
  refine ⟨?_, fun m h => (h.wellFormed (new_wellFormed hfit hnew)).refines⟩
  ext k
  rw [new_eq hnew, mem_marks, testBit_of_replicate]
  simp

theorem refines_from_fresh_page :
    4096 + 4096 < Word.bound ∧ Bitmap.new 4096 4096 = .ok ⟨4096, 4096, Array.replicate 8 0⟩ ∧
      (Bitmap.mk 4096 4096 (Array.replicate 8 0)).marks = ∅ ∧
      ∀ m, Reach ⟨4096, 4096, Array.replicate 8 0⟩ m → m.Refines m.marks :=
  have hfit : 4096 + 4096 < Word.bound := by decide
  have hnew : Bitmap.new 4096 4096 = .ok ⟨4096, 4096, Array.replicate 8 0⟩ := rfl
  ⟨hfit, hnew, refines_word_set hfit hnew⟩

/-- 同じ語の中の空の範囲 `4100..4100` の消去は、`[wordOf 4100, wordEnd 4100) = [0, 1)` が空でないのに、
語 0 の印を消さない。 -/
theorem clearRange_within_word_keeps_mark :
    ∃ m, Reach ⟨4096, 4096, Array.replicate 8 0⟩ m ∧ m.clearRange 4100 4100 = .ok m ∧
      m.wordOf 4100 < m.wordEnd 4100 ∧ m.wordOf 4100 ∈ m.marks := by
  refine ⟨(Bitmap.mk 4096 4096 (Array.replicate 8 0)).setBit 0, .mark .refl (a := 4096) rfl, rfl, by decide, ?_⟩
  rw [mem_marks]
  decide

end RegionMark.Bitmap
