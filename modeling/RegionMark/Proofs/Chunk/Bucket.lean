import Mathlib
import RegionMark.Proofs.Chunk.Growth

/-!
# チャンクの番号とバケット

`bucketOf` は番号を `2 ^ minLog2` で割った商の最上位のビットからバケットを読む。`minLog2 ≤ 63` なら、
語の範囲の番号とバケットと位置の組は 1 対 1 に対応し、計算は語の中で済む。
-/

namespace RegionMark.Chunk

/-- バケット `b` の最初のチャンクの番号。 -/
def bucketStart (minLog2 b : Nat) : Nat := if b = 0 then 0 else 2 ^ (minLog2 + b - 1)

/-- 番号 `i` がバケット `b` の位置 `o` にある：`b` は `64 - minLog2` 以下、`o` はバケットの容量より
小さく、`i` はバケットの始まりから `o` 番目。 -/
structure Placed (minLog2 i b o : Nat) : Prop where
  bucket_le : b ≤ 64 - minLog2
  capacity : ∃ cap, bucketCapacity minLog2 b = .ok cap ∧ o < cap
  eq_start_add : i = bucketStart minLog2 b + o

variable {L i : Nat}

@[simp] theorem bucketStart_zero (L : Nat) : bucketStart L 0 = 0 := rfl

theorem bucketStart_succ (L b : Nat) : bucketStart L (b + 1) = 2 ^ (L + b) := by
  simp [bucketStart]

theorem bucketCapacity_zero (hL : L < 64) : bucketCapacity L 0 = .ok (2 ^ L) := by
  have hpow : 2 ^ L < Word.bound := Nat.pow_lt_pow_right (by decide) hL
  simp only [bucketCapacity, ↓reduceIte, Word.shl, hL, Nat.pow_eq, Nat.one_mul, Nat.mod_eq_of_lt hpow]

theorem lt_of_bucketCapacity_zero {cap : Nat} (hcap : bucketCapacity L 0 = .ok cap) : L < 64 := by
  by_contra hL
  simp [bucketCapacity, Word.shl, hL] at hcap

theorem lt_of_bucketCapacity_succ {k cap : Nat} (hcap : bucketCapacity L (k + 1) = .ok cap) :
    L + k < 64 := by
  by_contra hk
  by_cases hadd : L + (k + 1) < Word.bound
  · simp [bucketCapacity, Word.add, hadd, bind, Except.bind, Word.shl, hk] at hcap
  · simp [bucketCapacity, Word.add, hadd, bind, Except.bind] at hcap

/-! ## 最上位のビット -/

theorem bucketOf_of_lt (h : i < 2 ^ L) : bucketOf L i = (0, i) := by
  simp [bucketOf, h]

theorem bucketOf_of_le (h : 2 ^ L ≤ i) :
    bucketOf L i = ((i / 2 ^ L).log2 + 1, i - 2 ^ (L + (i / 2 ^ L).log2)) := by
  simp [bucketOf, Nat.not_lt.mpr h]

theorem pow_log2_le_lt (h : 2 ^ L ≤ i) :
    2 ^ (L + (i / 2 ^ L).log2) ≤ i ∧ i < 2 ^ (L + (i / 2 ^ L).log2 + 1) := by
  have hpos : 0 < 2 ^ L := Nat.two_pow_pos L
  have hq : i / 2 ^ L ≠ 0 := Nat.ne_of_gt ((Nat.le_div_iff_mul_le hpos).2 (by simpa using h))
  have hlo := Nat.log2_self_le hq
  have hhi : i / 2 ^ L < 2 ^ ((i / 2 ^ L).log2 + 1) := Nat.lt_log2_self
  constructor
  · calc 2 ^ (L + (i / 2 ^ L).log2) = 2 ^ (i / 2 ^ L).log2 * 2 ^ L := by rw [Nat.pow_add, Nat.mul_comm]
      _ ≤ i := (Nat.le_div_iff_mul_le hpos).1 hlo
  · calc i < 2 ^ ((i / 2 ^ L).log2 + 1) * 2 ^ L := (Nat.div_lt_iff_lt_mul hpos).1 hhi
      _ = 2 ^ (L + (i / 2 ^ L).log2 + 1) := by rw [← Nat.pow_add]; congr 1; omega

theorem log2_div_eq {k : Nat} (hlo : 2 ^ (L + k) ≤ i) (hhi : i < 2 ^ (L + k + 1)) :
    (i / 2 ^ L).log2 = k := by
  have hpos : 0 < 2 ^ L := Nat.two_pow_pos L
  have hge : 2 ^ k ≤ i / 2 ^ L := (Nat.le_div_iff_mul_le hpos).2 (by rwa [← Nat.pow_add, Nat.add_comm])
  have hq : i / 2 ^ L ≠ 0 := Nat.ne_of_gt (Nat.lt_of_lt_of_le (Nat.two_pow_pos k) hge)
  have hlt : i / 2 ^ L < 2 ^ (k + 1) :=
    (Nat.div_lt_iff_lt_mul hpos).2 (by rwa [← Nat.pow_add, show k + 1 + L = L + k + 1 by omega])
  exact (Nat.log2_eq_iff hq).2 ⟨hge, hlt⟩

/-! ## 番号からバケットへ -/

theorem placed_bucketOf (hL : L ≤ 63) (hi : i < Word.bound) :
    Placed L i (bucketOf L i).1 (bucketOf L i).2 := by
  by_cases hlt : i < 2 ^ L
  · rw [bucketOf_of_lt hlt]
    exact ⟨Nat.zero_le _, ⟨2 ^ L, bucketCapacity_zero (by omega), hlt⟩, by simp⟩
  · have hle := Nat.le_of_not_lt hlt
    obtain ⟨hlo, hhi⟩ := pow_log2_le_lt hle
    -- 番号が語に収まるので、最上位のビットの位置 `L + k` は 64 より小さい
    have hk : L + (i / 2 ^ L).log2 < 64 :=
      (Nat.pow_lt_pow_iff_right (by decide)).mp (Nat.lt_of_le_of_lt hlo hi)
    rw [bucketOf_of_le hle]
    refine ⟨by omega, ⟨_, bucketCapacity_succ hk, ?_⟩, ?_⟩
    · rw [Nat.pow_succ] at hhi
      omega
    · rw [bucketStart_succ]
      omega

theorem shl_one_minLog2 (hL : L ≤ 63) : Word.shl 1 L = .ok (2 ^ L) := by
  have hmin : 2 ^ L < Word.bound := Nat.pow_lt_pow_right (by decide) (by omega)
  simp only [Word.shl, show L < 64 by omega, ↓reduceIte, Nat.pow_eq, Nat.one_mul, Nat.mod_eq_of_lt hmin]

/-- バケット 0 より先の番号で、`bucketOf` の計算は語の中で済む：最上位のビットを読む商は 0 でなく、
バケットの始まりを作るシフトと引き算は、検査つきの算術で失敗せず、同じ値を与える。 -/
theorem bucketOf_checked (hi : i < Word.bound) (hle : 2 ^ L ≤ i) :
    0 < i / 2 ^ L ∧
      Word.shl (2 ^ L) ((bucketOf L i).1 - 1) = .ok (bucketStart L (bucketOf L i).1) ∧
      Word.sub i (bucketStart L (bucketOf L i).1) = .ok (bucketOf L i).2 := by
  obtain ⟨hlo, -⟩ := pow_log2_le_lt hle
  have hk : L + (i / 2 ^ L).log2 < 64 :=
    (Nat.pow_lt_pow_iff_right (by decide)).mp (Nat.lt_of_le_of_lt hlo hi)
  have hstart : 2 ^ (L + (i / 2 ^ L).log2) < Word.bound := Nat.pow_lt_pow_right (by decide) hk
  rw [bucketOf_of_le hle, bucketStart_succ]
  refine ⟨Nat.div_pos hle (Nat.two_pow_pos L), ?_, ?_⟩
  · simp only [Word.shl, Nat.add_sub_cancel, show (i / 2 ^ L).log2 < 64 by omega, ↓reduceIte, Nat.pow_eq,
      ← Nat.pow_add, Nat.mod_eq_of_lt hstart]
  · simp only [Word.sub, hlo, ↓reduceIte]

/-! ## バケットから番号へ -/

/-- `64 - minLog2` 以下のバケットの、容量より小さい位置は、語の範囲の番号から来る。 -/
theorem bucketOf_start_add {b o cap : Nat} (hL : L ≤ 63) (hb : b ≤ 64 - L)
    (hcap : bucketCapacity L b = .ok cap) (ho : o < cap) :
    bucketStart L b + o < Word.bound ∧ bucketOf L (bucketStart L b + o) = (b, o) := by
  cases b with
  | zero =>
    rw [bucketCapacity_zero (by omega)] at hcap
    cases hcap
    have hpow : 2 ^ L ≤ Word.bound := Nat.pow_le_pow_right (by decide) (by omega)
    simp only [bucketStart_zero, Nat.zero_add]
    exact ⟨by omega, bucketOf_of_lt ho⟩
  | succ k =>
    rw [bucketCapacity_succ (by omega)] at hcap
    cases hcap
    rw [bucketStart_succ]
    have hhi : 2 ^ (L + k) + o < 2 ^ (L + k + 1) := by rw [Nat.pow_succ]; omega
    have htop : 2 ^ (L + k + 1) ≤ Word.bound := Nat.pow_le_pow_right (by decide) (by omega)
    have hlog := log2_div_eq (Nat.le_add_right _ o) hhi
    have hle : 2 ^ L ≤ 2 ^ (L + k) + o :=
      Nat.le_trans (Nat.pow_le_pow_right (by decide) (Nat.le_add_right L k)) (Nat.le_add_right _ o)
    refine ⟨by omega, ?_⟩
    rw [bucketOf_of_le hle, hlog, Nat.add_sub_cancel_left]

/-! ## バケットの並び -/

theorem bucketStart_succ_eq {b cap : Nat} (hcap : bucketCapacity L b = .ok cap) :
    bucketStart L (b + 1) = bucketStart L b + cap ∧ (0 < b → cap = bucketStart L b) := by
  cases b with
  | zero =>
    rw [bucketCapacity_zero (lt_of_bucketCapacity_zero hcap)] at hcap
    cases hcap
    simp [bucketStart_succ]
  | succ k =>
    rw [bucketCapacity_succ (lt_of_bucketCapacity_succ hcap)] at hcap
    cases hcap
    simp only [bucketStart_succ, Nat.lt_add_one_iff, Nat.zero_le, forall_const, and_true]
    rw [show L + (k + 1) = L + k + 1 by omega, Nat.pow_succ]
    omega

/-- バケットとその中の位置への番号の写像。`minLog2` が 63 以下なら、語の範囲の番号を、`64 - minLog2`
以下のバケットとその容量より小さい位置の組へ、一対一に漏れなく写す。計算は語の中で済み、バケットは
隙間なく並んで、0 より後の各バケットはそれより前の合計を 2 倍にする。 -/
theorem bucketOf_bijective (hL : L ≤ 63) :
    Word.shl 1 L = .ok (2 ^ L) ∧
    (∀ i < Word.bound, Placed L i (bucketOf L i).1 (bucketOf L i).2 ∧
      (2 ^ L ≤ i → 0 < i / 2 ^ L ∧
        Word.shl (2 ^ L) ((bucketOf L i).1 - 1) = .ok (bucketStart L (bucketOf L i).1) ∧
        Word.sub i (bucketStart L (bucketOf L i).1) = .ok (bucketOf L i).2)) ∧
    (∀ b o cap, b ≤ 64 - L → bucketCapacity L b = .ok cap → o < cap →
      bucketStart L b + o < Word.bound ∧ bucketOf L (bucketStart L b + o) = (b, o)) ∧
    (∀ b cap, bucketCapacity L b = .ok cap →
      bucketStart L (b + 1) = bucketStart L b + cap ∧ (0 < b → cap = bucketStart L b)) :=
  ⟨shl_one_minLog2 hL, fun _ hi => ⟨placed_bucketOf hL hi, bucketOf_checked hi⟩,
    fun _ _ _ hb hcap ho => bucketOf_start_add hL hb hcap ho,
    fun _ _ hcap => bucketStart_succ_eq hcap⟩

/-- 番号 `2 ^ 64 - 1` は、`minLog2 = 63` では最後のバケット 1 の最後の位置にある。 -/
theorem last_index_in_last_bucket :
    (63 : Nat) ≤ 63 ∧ Word.max < Word.bound ∧
      Placed 63 Word.max (bucketOf 63 Word.max).1 (bucketOf 63 Word.max).2 ∧
      bucketOf 63 Word.max = (1, 2 ^ 63 - 1) :=
  ⟨Nat.le_refl _, by decide, ((bucketOf_bijective (Nat.le_refl 63)).2.1 Word.max (by decide)).1, by decide⟩

end RegionMark.Chunk
