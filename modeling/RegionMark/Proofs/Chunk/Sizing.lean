import Mathlib
import RegionMark.Proofs.Chunk.Growth

/-!
# チャンクの割り当て器の大きさ

`Allocator.new` が成功するのはちょうどどの大きさのときか。作ったあとは、どう操作を重ねても容量は最小の
2 の冪倍で減らず、伸長は容量を 2 倍にするか `stackExhausted` か `reservation` で断り、渡す番号は容量より小さい。
-/

-- 2 の冪への切り上げの中の再帰を、その等式と帰納法で読む
open private Nat.nextPowerOfTwo.go from Init.Data.Nat.Power2.Basic

namespace RegionMark.Chunk

/-! ## 2 の冪への切り上げ -/

/-- 切り上げの途中の 2 の冪 `p` は、1 か `2 * n` より小さく、止まった値は `n` 以上でその形を保つ。 -/
theorem nextPowerOfTwo_go_spec (n p : Nat) (hp : p > 0) (hpow : ∃ k, p = 2 ^ k)
    (hsmall : p = 1 ∨ p < 2 * n) :
    n ≤ Nat.nextPowerOfTwo.go n p hp ∧
      (Nat.nextPowerOfTwo.go n p hp = 1 ∨ Nat.nextPowerOfTwo.go n p hp < 2 * n) := by
  fun_induction Nat.nextPowerOfTwo.go n p hp with
  | case1 p hp hlt ih =>
    obtain ⟨k, rfl⟩ := hpow
    exact ih ⟨k + 1, by rw [Nat.pow_succ]⟩ (.inr (by omega))
  | case2 p hp hge => exact ⟨Nat.le_of_not_lt hge, hsmall⟩

theorem le_nextPowerOfTwo (n : Nat) : n ≤ n.nextPowerOfTwo := by
  rw [Nat.nextPowerOfTwo]
  exact (nextPowerOfTwo_go_spec n 1 _ ⟨0, rfl⟩ (.inl rfl)).1

theorem nextPowerOfTwo_le {n j : Nat} (h : n ≤ 2 ^ j) : n.nextPowerOfTwo ≤ 2 ^ j := by
  obtain ⟨i, hi⟩ := Nat.isPowerOfTwo_nextPowerOfTwo n
  have hsmall := (nextPowerOfTwo_go_spec n 1 Nat.one_pos ⟨0, rfl⟩ (.inl rfl)).2
  rw [← Nat.nextPowerOfTwo, hi] at hsmall
  rw [hi]
  by_contra hlt
  -- `2 ^ j < 2 ^ i` なら、`2 ^ (j + 1) ≤ 2 ^ i < 2 * n` で `2 ^ j < n` になってしまう
  have hji : j < i := (Nat.pow_lt_pow_iff_right (by decide)).mp (Nat.lt_of_not_le hlt)
  have hstep : 2 ^ (j + 1) ≤ 2 ^ i := Nat.pow_le_pow_right (by decide) hji
  rcases hsmall with h1 | h2
  · have : i = 0 := (Nat.pow_eq_one.mp h1).resolve_left (by decide)
    omega
  · rw [Nat.pow_succ] at hstep
    omega

theorem nextPowerOfTwo_two_pow (k : Nat) : (2 ^ k).nextPowerOfTwo = 2 ^ k :=
  Nat.le_antisymm (nextPowerOfTwo_le (Nat.le_refl _)) (le_nextPowerOfTwo _)

/-! ## 2 の冪倍への切り上げ -/

theorem divCeil_le_iff {a b c : Nat} (hb : 0 < b) : Word.divCeil a b ≤ c ↔ a ≤ c * b := by
  unfold Word.divCeil
  by_cases hm : a % b = 0
  · have ha : a = a / b * b := (Nat.div_mul_cancel (Nat.dvd_of_mod_eq_zero hm)).symm
    rw [if_pos hm, Nat.add_zero]
    constructor
    · intro h
      calc a = a / b * b := ha
        _ ≤ c * b := Nat.mul_le_mul_right b h
    · intro h
      exact Nat.div_le_of_le_mul (by rwa [Nat.mul_comm])
  · rw [if_neg hm, Nat.add_one_le_iff, Nat.div_lt_iff_lt_mul hb]
    refine ⟨Nat.le_of_lt, fun h => Nat.lt_of_le_of_ne h fun heq => hm ?_⟩
    rw [heq, Nat.mul_mod_left]

/-- `lo` の 2 の冪倍で `M` 以上のもの。 -/
def pow2Multiples (lo M : Nat) : Set Nat := {m | (∃ j, m = 2 ^ j * lo) ∧ M ≤ m}

theorem isLeast_nextPowerOfTwo_mul {lo M : Nat} (hlo : 0 < lo) :
    IsLeast (pow2Multiples lo M) ((Word.divCeil M lo).nextPowerOfTwo * lo) := by
  obtain ⟨j, hj⟩ := Nat.isPowerOfTwo_nextPowerOfTwo (Word.divCeil M lo)
  refine ⟨⟨⟨j, by rw [hj]⟩, (divCeil_le_iff hlo).1 (le_nextPowerOfTwo _)⟩, ?_⟩
  rintro m ⟨⟨k, rfl⟩, hM⟩
  exact Nat.mul_le_mul_right lo (nextPowerOfTwo_le ((divCeil_le_iff hlo).2 hM))

/-- 最大の容量の計算は、`M` 以上の `lo` の 2 の冪倍のうち最小のものが `maxChunks` 以下のときに限って
答え、答えはその倍数である。 -/
theorem maxCapacity?_eq_some {lo M m : Nat} (hlo : 0 < lo) :
    ((Word.nextPow2? (Word.divCeil M lo)).bind fun f =>
      if f * lo < Word.bound && f * lo ≤ maxChunks then some (f * lo) else none) = some m ↔
    IsLeast (pow2Multiples lo M) m ∧ m ≤ maxChunks := by
  have hleast := isLeast_nextPowerOfTwo_mul (M := M) hlo
  constructor
  · intro h
    obtain ⟨f, hf, hm⟩ := Option.bind_eq_some_iff.1 h
    simp only [Word.nextPow2?] at hf
    split at hf
    · cases hf
      split at hm
      · rename_i hcond
        cases hm
        simp only [Bool.and_eq_true, decide_eq_true_eq] at hcond
        exact ⟨hleast, hcond.2⟩
      · cases hm
    · cases hf
  · rintro ⟨hl, hmax⟩
    obtain rfl := hleast.unique hl
    have hbound : maxChunks < Word.bound := by decide
    have hf : (Word.divCeil M lo).nextPowerOfTwo < Word.bound :=
      Nat.lt_of_le_of_lt (Nat.le_mul_of_pos_right _ hlo) (Nat.lt_of_le_of_lt hmax hbound)
    simp only [Word.nextPow2?, hf, ↓reduceIte, Option.bind_some, Nat.lt_of_le_of_lt hmax hbound, hmax,
      decide_true, Bool.and_self]

/-! ## 作るのに成功する大きさ -/

/-- 割り当て器を作れる大きさ：最小と項目の数が 0 でなく、最小の 2 の冪への切り上げ `lo'` が語に収まり、
最大と `lo'` の大きいほう以上の `lo'` の 2 の冪倍のうち最小のものが `maxChunks` 以下で、チャンクの
バイト数が語に収まる。 -/
structure Admits (lo hi epc : Nat) : Prop where
  lo_pos : 1 ≤ lo
  epc_pos : 1 ≤ epc
  minCapacity_lt : lo.nextPowerOfTwo < Word.bound
  maxCapacity_le : ∃ m, IsLeast (pow2Multiples lo.nextPowerOfTwo (max hi lo.nextPowerOfTwo)) m ∧ m ≤ maxChunks
  chunkBytes_lt : (epc + 1) * entryBytes < Word.bound

/-- `memory` から大きさ `lo`、`hi`、`epc` で作った割り当て器：最小と最大を切り上げ、バケット 0 だけを
確保している。 -/
def made (memory : Memory) (lo hi epc : Nat) : Allocator :=
  { entriesPerChunk := epc, chunkBytes := (epc + 1) * entryBytes, minLog2 := lo.nextPowerOfTwo.log2,
    maxCapacity := (Word.divCeil (max hi lo.nextPowerOfTwo) lo.nextPowerOfTwo).nextPowerOfTwo * lo.nextPowerOfTwo,
    capacity := lo.nextPowerOfTwo, highWater := 0, shouldGrow := false, memory }

theorem nextPow2?_eq_some_iff {n p : Nat} :
    Word.nextPow2? n = some p ↔ p = n.nextPowerOfTwo ∧ n.nextPowerOfTwo < Word.bound := by
  by_cases h : n.nextPowerOfTwo < Word.bound <;> simp [Word.nextPow2?, h, eq_comm]

theorem two_pow_log2_nextPowerOfTwo (n : Nat) : 2 ^ n.nextPowerOfTwo.log2 = n.nextPowerOfTwo := by
  obtain ⟨k, hk⟩ := Nat.isPowerOfTwo_nextPowerOfTwo n
  rw [hk, Nat.log2_two_pow]

namespace Allocator

/-- 作るのに成功したなら、大きさは `Admits` を満たし、バケット 0 のバイト数は語に収まってその予約が
認められ、割り当て器は `made` である。 -/
theorem new_eq_ok_inv {m : Memory} {lo hi epc : Nat} {a : Allocator}
    (h : Allocator.new m lo hi epc = .ok (.ok a)) :
    Admits lo hi epc ∧ lo.nextPowerOfTwo * ((epc + 1) * entryBytes) < Word.bound ∧
      m.reserves (lo.nextPowerOfTwo * ((epc + 1) * entryBytes)) = true ∧ a = made m lo hi epc := by
  simp only [Allocator.new] at h
  split at h
  · cases h
  rename_i hzero
  split at h
  case h_2 => cases h
  rename_i lo' hlo
  split at h
  case h_2 => cases h
  rename_i hi' hhi
  simp only [bind, Except.bind, Word.add] at h
  by_cases hb : epc + 1 < Word.bound
  case neg => simp only [hb, ↓reduceIte] at h; cases h
  simp only [hb, ↓reduceIte] at h
  split at h
  · cases h
  rename_i hchunk
  simp only [Bool.or_eq_true, decide_eq_true_eq, not_or] at hzero
  obtain ⟨rfl, hlt⟩ := nextPow2?_eq_some_iff.1 hlo
  have hpos : 0 < lo.nextPowerOfTwo := Nat.pos_of_isPowerOfTwo (Nat.isPowerOfTwo_nextPowerOfTwo lo)
  obtain ⟨hleast, hmax⟩ := (maxCapacity?_eq_some hpos).1 hhi
  -- 最大は切り上げた最小以上なので正で、最初の伸長はバケット 0 を確保する
  have hhi_pos : 0 < hi' := Nat.lt_of_lt_of_le hpos (Nat.le_trans (Nat.le_max_right _ _) hleast.1.2)
  have hlog : lo.nextPowerOfTwo.log2 < 64 := (Nat.log2_lt (by omega)).2 hlt
  rw [tryExpand_of_zero rfl hhi_pos hlog, two_pow_log2_nextPowerOfTwo] at h
  by_cases hbytes : lo.nextPowerOfTwo * ((epc + 1) * entryBytes) < Word.bound
  case neg => simp [Word.mul, hbytes, Except.map] at h
  simp only [Word.mul, hbytes, ↓reduceIte, Except.map, Except.ok.injEq] at h
  split at h
  case isFalse => cases h
  rename_i hres
  cases h
  obtain rfl := hleast.unique (isLeast_nextPowerOfTwo_mul hpos)
  exact ⟨⟨Nat.one_le_iff_ne_zero.2 hzero.1, Nat.one_le_iff_ne_zero.2 hzero.2, hlt, ⟨_, hleast, hmax⟩,
    Nat.lt_of_not_le hchunk⟩, hbytes, hres, rfl⟩

/-- 大きさが `Admits` を満たせば、作る計算はバケット 0 のバイト数を検査つきの積で求めるところまで進み、
その積が語に収まってその予約が認められれば `made` を返す。 -/
theorem new_of_admits {m : Memory} {lo hi epc : Nat} (hadm : Admits lo hi epc) :
    Allocator.new m lo hi epc =
      (Word.mul lo.nextPowerOfTwo ((epc + 1) * entryBytes)).map fun bytes =>
        if m.reserves bytes then .ok (made m lo hi epc) else .error (.reservation bytes) := by
  obtain ⟨hlo, hepc, hlt, ⟨m, hleast, hmax⟩, hchunk⟩ := hadm
  have hpos : 0 < lo.nextPowerOfTwo := Nat.pos_of_isPowerOfTwo (Nat.isPowerOfTwo_nextPowerOfTwo lo)
  have hsome := (maxCapacity?_eq_some hpos).2 ⟨hleast, hmax⟩
  have hhi_pos : 0 < m := Nat.lt_of_lt_of_le hpos (Nat.le_trans (Nat.le_max_right _ _) hleast.1.2)
  have hm := hleast.unique (isLeast_nextPowerOfTwo_mul hpos)
  have hlog : lo.nextPowerOfTwo.log2 < 64 := (Nat.log2_lt (by omega)).2 hlt
  have hmin : Word.nextPow2? lo = some lo.nextPowerOfTwo := nextPow2?_eq_some_iff.2 ⟨rfl, hlt⟩
  have hzero : ¬((decide (lo = 0) || decide (epc = 0)) = true) := by simp; omega
  have hadd : epc + 1 < Word.bound := Nat.lt_of_le_of_lt (Nat.le_mul_of_pos_right _ (by decide)) hchunk
  simp only [Allocator.new, hmin]
  rw [show Nat.max hi lo.nextPowerOfTwo = max hi lo.nextPowerOfTwo from rfl, hsome]
  simp only [bind, Except.bind, Word.add, hadd, hzero, Bool.false_eq_true, ↓reduceIte, ge_iff_le,
    Nat.not_le.2 hchunk]
  rw [tryExpand_of_zero rfl hhi_pos hlog, two_pow_log2_nextPowerOfTwo]
  simp only [made, hm]

theorem new_eq_made {m : Memory} {lo hi epc : Nat} (hadm : Admits lo hi epc)
    (hbytes : lo.nextPowerOfTwo * ((epc + 1) * entryBytes) < Word.bound)
    (hres : m.reserves (lo.nextPowerOfTwo * ((epc + 1) * entryBytes)) = true) :
    Allocator.new m lo hi epc = .ok (.ok (made m lo hi epc)) := by
  simp only [new_of_admits hadm, Word.mul, hbytes, ↓reduceIte, Except.map, hres]

/-- 作るのに成功するのは、大きさが `Admits` を満たし、バケット 0 のバイト数が語に収まって、OS がその
予約を認めるときに限る。 -/
theorem new_eq_ok_iff {m : Memory} {lo hi epc : Nat} :
    (∃ a, Allocator.new m lo hi epc = .ok (.ok a)) ↔
      Admits lo hi epc ∧ lo.nextPowerOfTwo * ((epc + 1) * entryBytes) < Word.bound ∧
        m.reserves (lo.nextPowerOfTwo * ((epc + 1) * entryBytes)) = true := by
  constructor
  · rintro ⟨_, h⟩
    obtain ⟨hadm, hbytes, hres, -⟩ := new_eq_ok_inv h
    exact ⟨hadm, hbytes, hres⟩
  · rintro ⟨hadm, hbytes, hres⟩
    exact ⟨_, new_eq_made hadm hbytes hres⟩

/-! ## 操作を重ねた割り当て器 -/

/-- 割り当て器に対する 1 つの操作：成功した伸長、チャンクの割り当て、戻し、伸びてよいかの設定。断られた
伸長は割り当て器を変えないので、ここには現れない。 -/
inductive Step : Allocator → Allocator → Prop where
  | expand {a a' : Allocator} : a.tryExpand = .ok (.ok a') → Step a a'
  | allocate {a a' : Allocator} {r : Option Nat} : a.allocate = .ok (r, a') → Step a a'
  | reset (a : Allocator) : Step a a.reset
  | setShouldGrow (a : Allocator) (b : Bool) : Step a { a with shouldGrow := b }

/-- `memory` から大きさ `lo`、`hi`、`epc` で作り、操作を重ねて届く割り当て器。 -/
inductive Reach (memory : Memory) (lo hi epc : Nat) : Allocator → Prop where
  | new {a : Allocator} : Allocator.new memory lo hi epc = .ok (.ok a) → Reach memory lo hi epc a
  | step {a a' : Allocator} : Reach memory lo hi epc a → Step a a' → Reach memory lo hi epc a'

variable {a a' : Allocator}

/-- 1 つの操作は形を保ち、容量を減らさず、最小、最大、チャンクのバイト数を変えない。 -/
theorem Step.shaped (hs : a.Shaped) (h : Step a a') :
    a'.Shaped ∧ a.capacity ≤ a'.capacity ∧ a'.minLog2 = a.minLog2 ∧ a'.maxCapacity = a.maxCapacity ∧
      a'.chunkBytes = a.chunkBytes := by
  cases h with
  | expand h =>
    obtain ⟨hlt, rfl⟩ := tryExpand_ok hs h
    exact ⟨hs.double hlt, by simp only; omega, rfl, rfl, rfl⟩
  | allocate h =>
    obtain ⟨hs', -, hcap, heq, -⟩ := allocate_ok hs h
    rw [heq]
    exact ⟨heq ▸ hs', hcap, rfl, rfl, rfl⟩
  | reset => exact ⟨hs.reset, Nat.le_refl _, rfl, rfl, rfl⟩
  | setShouldGrow b =>
    exact ⟨⟨hs.capacity_pow, hs.max_pow, hs.capacity_le, hs.highWater_le⟩, Nat.le_refl _, rfl, rfl, rfl⟩

theorem capacity_le_of_steps (hs : a.Shaped) (h : Relation.ReflTransGen Step a a') :
    a.capacity ≤ a'.capacity ∧ a'.Shaped := by
  induction h with
  | refl => exact ⟨Nat.le_refl _, hs⟩
  | tail _ hstep ih =>
    obtain ⟨hs', hle, -⟩ := hstep.shaped ih.2
    exact ⟨Nat.le_trans ih.1 hle, hs'⟩

theorem Reach.shaped {m : Memory} {lo hi epc : Nat} (h : Reach m lo hi epc a) : a.Shaped := by
  induction h with
  | new hn => exact (new_ok hn).1
  | step _ hstep ih => exact (hstep.shaped ih).1

/-! ## 容量と最大の指数 -/

/-- 形の整った割り当て器の容量は `2 ^ c`、最大は `2 ^ m` で、`minLog2 ≤ c ≤ m < 32`。最大と最小の比の
対数は `m - minLog2` である。 -/
theorem Shaped.exponents (hs : a.Shaped) :
    ∃ c m, a.minLog2 ≤ c ∧ c ≤ m ∧ m < 32 ∧ a.capacity = 2 ^ c ∧ a.maxCapacity = 2 ^ m ∧
      (a.maxCapacity / a.minCapacity).log2 = m - a.minLog2 := by
  obtain ⟨c, hLc, hc⟩ := hs.capacity_pow
  obtain ⟨m, hm, hme⟩ := hs.max_pow
  have hcm : c ≤ m := (Nat.pow_le_pow_iff_right (by decide)).mp (hc ▸ hme ▸ hs.capacity_le)
  refine ⟨c, m, hLc, hcm, hm, hc, hme, ?_⟩
  rw [hme, minCapacity, Nat.pow_eq, Nat.pow_div (by omega) (by decide), Nat.log2_two_pow]

theorem Shaped.fits_of_small (hs : a.Shaped) (h : a.minCapacity * a.chunkBytes ≤ 2 ^ 32) : a.Fits := by
  obtain ⟨c, m, hLc, hcm, hm, -, hme, -⟩ := hs.exponents
  have hmax : a.maxCapacity = 2 ^ (m - a.minLog2) * a.minCapacity := by
    rw [hme, minCapacity, Nat.pow_eq, ← Nat.pow_add, Nat.sub_add_cancel (by omega)]
  have hratio : 2 ^ (m - a.minLog2) ≤ 2 ^ 31 := Nat.pow_le_pow_right (by decide) (by omega)
  unfold Fits
  calc a.maxCapacity * a.chunkBytes = 2 ^ (m - a.minLog2) * (a.minCapacity * a.chunkBytes) := by
        rw [hmax, Nat.mul_assoc]
    _ ≤ 2 ^ 31 * 2 ^ 32 := Nat.mul_le_mul hratio h
    _ < Word.bound := by decide

/-! ## 届く割り当て器の伸び方 -/

/-- 割り当て器の伸び方：容量は最小の `2 ^ k` 倍で `k` は最大と最小の比の対数以下、操作を重ねても容量は
減らない。伸長は容量 `最小 * 2 ^ k` の位置 0 からバケット `k + 1`（バケットの表の長さ、比の対数 + 1 より
小さい）を加えて容量を 2 倍にし、断るのは最大に達して `stackExhausted` を返すときと、そのバケットの
予約を断られて `reservation` を返すときだけ。渡す番号は容量と最大より小さく、リンク `番号 + 1` は 32 ビットに収まる。渡した数は最高水位と容量の小さいほう。バケット 0 の
バイト数が `2 ^ 32` 以下なら、予約したバイト数は語に収まり、伸長も割り当ても検査に失敗しない。 -/
structure Grows (a : Allocator) : Prop where
  capacity_eq : ∃ k, k ≤ (a.maxCapacity / a.minCapacity).log2 ∧ a.capacity = a.minCapacity * 2 ^ k
  capacity_mono : ∀ a', Relation.ReflTransGen Step a a' → a.capacity ≤ a'.capacity
  expand_ok : ∀ a', a.tryExpand = .ok (.ok a') → a'.capacity = 2 * a.capacity ∧
    ∃ k, a.capacity = a.minCapacity * 2 ^ k ∧ bucketOf a.minLog2 a.capacity = (k + 1, 0) ∧
      k + 1 < (a.maxCapacity / a.minCapacity).log2 + 1
  expand_error : ∀ e, a.tryExpand = .ok (.error e) ↔
    e = .stackExhausted a.maxCapacity ∧ a.capacity = a.maxCapacity ∨
      e = .reservation (a.capacity * a.chunkBytes) ∧ a.capacity < a.maxCapacity ∧
        a.capacity * a.chunkBytes < Word.bound ∧ a.memory.reserves (a.capacity * a.chunkBytes) = false
  allocate_lt : ∀ id a', a.allocate = .ok (some id, a') →
    id < a'.capacity ∧ id < a.maxCapacity ∧ id + 1 < 2 ^ 32
  size_eq : a.size = min a.highWater a.capacity
  small : a.minCapacity * a.chunkBytes ≤ 2 ^ 32 →
    a.reservedBytes < Word.bound ∧ (∃ r, a.tryExpand = .ok r) ∧ ∃ r, a.allocate = .ok r

theorem Shaped.capacity_eq (hs : a.Shaped) :
    ∃ k, k ≤ (a.maxCapacity / a.minCapacity).log2 ∧ a.capacity = a.minCapacity * 2 ^ k := by
  obtain ⟨c, m, hLc, hcm, -, hc, -, hlog⟩ := hs.exponents
  refine ⟨c - a.minLog2, by omega, ?_⟩
  rw [hc, minCapacity, Nat.pow_eq, ← Nat.pow_add, Nat.add_sub_cancel' hLc]

/-- 成功した伸長は、容量 `最小 * 2 ^ k` の位置 0 からバケット `k + 1` を加えて容量を 2 倍にする。 -/
theorem Shaped.expand_ok (hs : a.Shaped) (h : a.tryExpand = .ok (.ok a')) :
    a'.capacity = 2 * a.capacity ∧
      ∃ k, a.capacity = a.minCapacity * 2 ^ k ∧ bucketOf a.minLog2 a.capacity = (k + 1, 0) ∧
        k + 1 < (a.maxCapacity / a.minCapacity).log2 + 1 := by
  obtain ⟨hlt, rfl⟩ := tryExpand_ok hs h
  obtain ⟨c, m, hLc, -, -, hc, hme, hlog⟩ := hs.exponents
  have hcm : c < m := (Nat.pow_lt_pow_iff_right (by decide)).mp (hc ▸ hme ▸ hlt)
  refine ⟨rfl, c - a.minLog2, ?_, ?_, by omega⟩
  · rw [hc, minCapacity, Nat.pow_eq, ← Nat.pow_add, Nat.add_sub_cancel' hLc]
  · rw [hc, bucketOf_two_pow hLc]

/-- 伸長が `MarkError` で断るのは、容量が最大に達していて `stackExhausted` を返すときと、最大より小さく
バケットのバイト数が語に収まって、その予約を断られたときだけ。 -/
theorem Shaped.expand_error (hs : a.Shaped) (e : MarkError) :
    a.tryExpand = .ok (.error e) ↔
      e = .stackExhausted a.maxCapacity ∧ a.capacity = a.maxCapacity ∨
        e = .reservation (a.capacity * a.chunkBytes) ∧ a.capacity < a.maxCapacity ∧
          a.capacity * a.chunkBytes < Word.bound ∧ a.memory.reserves (a.capacity * a.chunkBytes) = false := by
  by_cases hlt : a.capacity < a.maxCapacity
  · -- 最大より小さければ、伸長は成功するか、検査に失敗するか、予約を断られる
    rw [tryExpand_of_lt hs hlt]
    simp only [Word.mul]
    split
    · rename_i hb
      cases hr : a.memory.reserves (a.capacity * a.chunkBytes) <;>
        simp [Except.map, hr, hb, hlt, Nat.ne_of_lt hlt, eq_comm]
    · rename_i hb
      simp [Except.map, hb, Nat.ne_of_lt hlt]
  · have heq : a.capacity = a.maxCapacity := Nat.le_antisymm hs.capacity_le (Nat.le_of_not_lt hlt)
    rw [tryExpand_of_le (Nat.le_of_not_lt hlt)]
    constructor
    · intro h
      cases h
      exact .inl ⟨rfl, heq⟩
    · rintro (⟨rfl, -⟩ | ⟨-, hlt', -⟩)
      · rfl
      · exact absurd hlt' hlt

theorem Shaped.allocate_lt (hs : a.Shaped) {id : Nat} (h : a.allocate = .ok (some id, a')) :
    id < a'.capacity ∧ id < a.maxCapacity ∧ id + 1 < 2 ^ 32 := by
  obtain ⟨hs', -, -, heq, hid⟩ := allocate_ok hs h
  obtain ⟨-, hhw, hcap⟩ := hid id rfl
  have hmax : a'.maxCapacity = a.maxCapacity := by rw [heq]
  have hle := hs'.highWater_le
  have h32 := hs.maxCapacity_lt
  exact ⟨hcap, by omega, by omega⟩

theorem Shaped.small (hs : a.Shaped) (h : a.minCapacity * a.chunkBytes ≤ 2 ^ 32) :
    a.reservedBytes < Word.bound ∧ (∃ r, a.tryExpand = .ok r) ∧ ∃ r, a.allocate = .ok r := by
  have hfit := hs.fits_of_small h
  refine ⟨Nat.lt_of_le_of_lt (Nat.mul_le_mul_right _ hs.capacity_le) hfit, ?_, ?_⟩
  · by_cases hlt : a.capacity < a.maxCapacity
    · exact ⟨_, tryExpand_of_fits hs hfit hlt⟩
    · exact ⟨_, tryExpand_of_le (Nat.le_of_not_lt hlt)⟩
  · rcases allocate_cases hs hfit with ⟨-, -, a', h'⟩ | ⟨-, c, h', -⟩
    · exact ⟨_, h'⟩
    · exact ⟨_, h'⟩

theorem Shaped.grows (hs : a.Shaped) : a.Grows where
  capacity_eq := hs.capacity_eq
  capacity_mono _ h := (capacity_le_of_steps hs h).1
  expand_ok _ h := hs.expand_ok h
  expand_error := hs.expand_error
  allocate_lt _ _ h := hs.allocate_lt h
  size_eq := rfl
  small := hs.small

/-! ## 大きさと伸び方 -/

/-- チャンクの割り当て器の大きさと伸び方。`memory` から作るのに成功するのは、最小と項目の数が 0 でなく、
最小の切り上げ `lo'` が語に収まり、最大と `lo'` の大きいほう以上の `lo'` の 2 の冪倍で最小のものが
`maxChunks` 以下で、チャンクのバイト数が語に収まり、バケット 0 のバイト数 `lo' * (epc + 1) * 16` も語に
収まって、`memory` がその予約を認めるときに限る。作った割り当て器の最小は `lo'`、最大はその最小の倍数で、
そこから操作を重ねて届く割り当て器はどれも `Grows` のとおりに伸びる。 -/
theorem sizing_and_growth (m : Memory) (lo hi epc : Nat) :
    ((∃ a, Allocator.new m lo hi epc = .ok (.ok a)) ↔
      Admits lo hi epc ∧ lo.nextPowerOfTwo * ((epc + 1) * entryBytes) < Word.bound ∧
        m.reserves (lo.nextPowerOfTwo * ((epc + 1) * entryBytes)) = true) ∧
    (∀ a, Allocator.new m lo hi epc = .ok (.ok a) → a.minCapacity = lo.nextPowerOfTwo ∧
      IsLeast (pow2Multiples lo.nextPowerOfTwo (max hi lo.nextPowerOfTwo)) a.maxCapacity) ∧
    ∀ a, Reach m lo hi epc a → a.Grows := by
  refine ⟨new_eq_ok_iff, fun a h => ?_, fun a h => h.shaped.grows⟩
  obtain ⟨-, -, -, rfl⟩ := new_eq_ok_inv h
  have hpos : 0 < lo.nextPowerOfTwo := Nat.pos_of_isPowerOfTwo (Nat.isPowerOfTwo_nextPowerOfTwo lo)
  exact ⟨by simp only [minCapacity, made, Nat.pow_eq, two_pow_log2_nextPowerOfTwo],
    isLeast_nextPowerOfTwo_mul hpos⟩

/-- どの予約も認める OS から最小 3、最大 20、1 チャンク 4 項目で作った割り当て器は、最小を 4、最大を 32 に
切り上げ、伸び方のとおりに伸びる。 -/
theorem grows_after_rounding_three_to_four :
    Reach Memory.standard 3 20 4 ⟨4, 80, 2, 32, 4, 0, false, Memory.standard⟩ ∧
      Allocator.Grows ⟨4, 80, 2, 32, 4, 0, false, Memory.standard⟩ := by
  -- 2 の冪への切り上げは整礎な再帰なので、展開を許して評価する
  have h : Allocator.new Memory.standard 3 20 4 = .ok (.ok ⟨4, 80, 2, 32, 4, 0, false, Memory.standard⟩) := by
    with_unfolding_all rfl
  exact ⟨.new h, (sizing_and_growth Memory.standard 3 20 4).2.2 _ (.new h)⟩

/-- 最小と最大 2、1 チャンク `2 ^ 59` 項目は `Admits` を満たすが、バケット 0 のバイト数
`2 * (2 ^ 59 + 1) * 16` が語に収まらず、作る計算は、OS に予約を頼む前に検査つきの積で失敗する。 -/
theorem new_fails_on_first_bucket_bytes :
    Admits 2 2 (2 ^ 59) ∧ ∀ m : Memory, Allocator.new m 2 2 (2 ^ 59) = .error (.overflow .mul) := by
  have h2 : (2 : Nat).nextPowerOfTwo = 2 := nextPowerOfTwo_two_pow 1
  have h1 : (Word.divCeil 2 2).nextPowerOfTwo = 1 := nextPowerOfTwo_two_pow 0
  have hleast : IsLeast (pow2Multiples 2 2) 2 := by
    have h : IsLeast (pow2Multiples 2 2) ((Word.divCeil 2 2).nextPowerOfTwo * 2) :=
      isLeast_nextPowerOfTwo_mul (by decide)
    rwa [h1, Nat.one_mul] at h
  have hadm : Admits 2 2 (2 ^ 59) :=
    ⟨by decide, by decide, by rw [h2]; decide, ⟨2, by rw [h2, max_self]; exact hleast, by decide⟩, by decide⟩
  refine ⟨hadm, fun m => ?_⟩
  rw [new_of_admits hadm, h2]
  simp only [Word.mul, show ¬ 2 * ((2 ^ 59 + 1) * entryBytes) < Word.bound by decide, ↓reduceIte,
    Except.map]

end Allocator

end RegionMark.Chunk
