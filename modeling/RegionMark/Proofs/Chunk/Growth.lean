import Mathlib
import RegionMark.Chunk.Allocator

/-!
# チャンクの割り当て器の伸び方

容量はいつもバケットの境目にあり、最大に達するまで 2 倍ずつ伸びる（`Shaped`）。割り当てが番号を渡すのは、
容量の中か、番号を覆うまでのバケットを OS が予約させるとき（`Reserves`）である。
-/

namespace RegionMark.Chunk

/-! ## バケット -/

theorem bucketOf_two_pow {L c : Nat} (h : L ≤ c) : bucketOf L (2 ^ c) = (c - L + 1, 0) := by
  have hdiv : 2 ^ c / 2 ^ L = 2 ^ (c - L) := Nat.pow_div h (by decide)
  have hlt : ¬ 2 ^ c < 2 ^ L := Nat.not_lt.mpr (Nat.pow_le_pow_right (by decide) h)
  have hexp : L + (c - L + 1) - 1 = c := by omega
  simp only [bucketOf, Nat.pow_eq, hlt, ↓reduceIte, hdiv, Nat.log2_two_pow, hexp, Nat.sub_self]

theorem bucketCapacity_succ {L b : Nat} (h : L + b < 64) :
    bucketCapacity L (b + 1) = .ok (2 ^ (L + b)) := by
  have hadd : L + (b + 1) < Word.bound := by
    have : 65 ≤ Word.bound := by decide
    omega
  have hpow : 2 ^ (L + b) < Word.bound :=
    Nat.pow_lt_pow_right (by decide) (by omega : L + b < 64)
  simp only [bucketCapacity, Nat.add_one_ne_zero, ↓reduceIte, Word.add, hadd, bind, Except.bind,
    Word.shl, Nat.pow_eq, show L + (b + 1) - 1 = L + b by omega, h, Nat.one_mul, Nat.mod_eq_of_lt hpow]

namespace Allocator

/-! ## 割り当て器の形 -/

/-- 割り当て器の形：容量はバケットの境目（`minCapacity` 以上の 2 のべき）にあり、最大は `2 ^ 32` より
小さい 2 のべきで、容量も最高水位も最大を越えない。 -/
structure Shaped (a : Allocator) : Prop where
  capacity_pow : ∃ c, a.minLog2 ≤ c ∧ a.capacity = 2 ^ c
  max_pow : ∃ m, m < 32 ∧ a.maxCapacity = 2 ^ m
  capacity_le : a.capacity ≤ a.maxCapacity
  highWater_le : a.highWater ≤ a.maxCapacity

/-- 最大の容量のチャンクが占めるバイト数が 1 語に収まる。このときに限り、伸長のどのバケットのバイト数も
検査つきの積で求まる。 -/
def Fits (a : Allocator) : Prop := a.maxCapacity * a.chunkBytes < Word.bound

variable {a a' : Allocator}

theorem Shaped.maxCapacity_lt (hs : a.Shaped) : a.maxCapacity < 2 ^ 32 := by
  obtain ⟨m, hm, he⟩ := hs.max_pow
  rw [he]
  exact Nat.pow_lt_pow_right (by decide) hm

theorem Shaped.wrapAdd_highWater (hs : a.Shaped) (h : a.highWater < a.maxCapacity) :
    Word.wrapAdd a.highWater 1 = a.highWater + 1 := by
  have : a.maxCapacity < Word.bound := Nat.lt_trans hs.maxCapacity_lt (by decide)
  exact Nat.mod_eq_of_lt (by omega)

theorem Shaped.double (hs : a.Shaped) (h : a.capacity < a.maxCapacity) :
    Shaped { a with capacity := 2 * a.capacity } := by
  obtain ⟨c, hLc, hc⟩ := hs.capacity_pow
  obtain ⟨m, hm, hme⟩ := hs.max_pow
  have hcm : c < m := (Nat.pow_lt_pow_iff_right (by decide)).mp (hc ▸ hme ▸ h)
  refine ⟨⟨c + 1, Nat.le_succ_of_le hLc, ?_⟩, ⟨m, hm, hme⟩, ?_, hs.highWater_le⟩
  · show 2 * a.capacity = 2 ^ (c + 1)
    rw [hc, Nat.pow_succ, Nat.mul_comm]
  · show 2 * a.capacity ≤ a.maxCapacity
    rw [hc, hme, ← Nat.pow_succ']
    exact Nat.pow_le_pow_right (by decide) hcm

/-! ## 伸長 -/

theorem tryExpand_of_le (h : a.maxCapacity ≤ a.capacity) :
    a.tryExpand = .ok (.error (.stackExhausted a.maxCapacity)) := by
  simp only [tryExpand, ge_iff_le, h, ↓reduceIte]
  rfl

/-- 最大に届かない形の整った割り当て器の伸長は、今の容量と同じ数のチャンクのバケットを加える。失敗は
そのバケットのバイト数の検査と、その予約を断られることだけである。 -/
theorem tryExpand_of_lt (hs : a.Shaped) (h : a.capacity < a.maxCapacity) :
    a.tryExpand = (Word.mul a.capacity a.chunkBytes).map fun bytes =>
      if a.memory.reserves bytes then .ok { a with capacity := 2 * a.capacity }
      else .error (.reservation bytes) := by
  obtain ⟨c, hLc, hc⟩ := hs.capacity_pow
  have hc32 : c < 32 :=
    (Nat.pow_lt_pow_iff_right (by decide)).mp (hc ▸ Nat.lt_trans h hs.maxCapacity_lt)
  have hb := bucketCapacity_succ (show a.minLog2 + (c - a.minLog2) < 64 by omega)
  rw [show a.minLog2 + (c - a.minLog2) = c by omega] at hb
  have hlt : ¬ a.maxCapacity ≤ a.capacity := Nat.not_le.mpr h
  simp only [tryExpand, ge_iff_le, hlt, ↓reduceIte]
  rw [hc, bucketOf_two_pow hLc]
  simp only [hb, bind, Except.bind, Word.mul, Except.map, Nat.two_mul]
  split
  · rfl
  · rename_i bytes _
    cases a.memory.reserves bytes <;> rfl

theorem tryExpand_ok (hs : a.Shaped) (h : a.tryExpand = .ok (.ok a')) :
    a.capacity < a.maxCapacity ∧ a' = { a with capacity := 2 * a.capacity } := by
  by_cases hle : a.maxCapacity ≤ a.capacity
  · rw [tryExpand_of_le hle] at h
    cases h
  · have hlt : a.capacity < a.maxCapacity := Nat.lt_of_not_le hle
    rw [tryExpand_of_lt hs hlt] at h
    simp only [Word.mul] at h
    split at h
    · simp only [Except.map, Except.ok.injEq] at h
      split at h
      · exact ⟨hlt, (Except.ok.inj h).symm⟩
      · cases h
    · cases h

/-- 最大の容量のバイト数が 1 語に収まれば、最大に届かない割り当て器の伸長は、バケットの予約が認められれば
容量を 2 倍にし、断られれば `reservation` で失敗する。 -/
theorem tryExpand_of_fits (hs : a.Shaped) (hfit : a.Fits) (h : a.capacity < a.maxCapacity) :
    a.tryExpand = .ok (if a.memory.reserves (a.capacity * a.chunkBytes) then
      .ok { a with capacity := 2 * a.capacity } else .error (.reservation (a.capacity * a.chunkBytes))) := by
  have hmul : a.capacity * a.chunkBytes < Word.bound :=
    Nat.lt_of_le_of_lt (Nat.mul_le_mul_right _ (Nat.le_of_lt h)) hfit
  rw [tryExpand_of_lt hs h]
  simp only [Word.mul, hmul, ↓reduceIte, Except.map]

/-! ## 番号を覆うまでの伸長 -/

/-- 容量から番号 `index` を覆うまでに加えるバケットを、OS がどれも予約させる。容量 `c` のときに加える
バケットは `c` 個のチャンクで、`c * chunkBytes` バイトを占める。 -/
def Reserves (a : Allocator) (index : Nat) : Prop :=
  ∀ j, a.capacity * 2 ^ j ≤ index → a.memory.reserves (a.capacity * 2 ^ j * a.chunkBytes) = true

theorem reserves_of_lt {index : Nat} (h : index < a.capacity) : a.Reserves index := fun j hj => by
  have : a.capacity ≤ a.capacity * 2 ^ j := Nat.le_mul_of_pos_right _ (Nat.two_pow_pos j)
  omega

theorem reserves_double {index : Nat} (hr : a.memory.reserves (a.capacity * a.chunkBytes) = true) :
    a.Reserves index ↔ ({ a with capacity := 2 * a.capacity } : Allocator).Reserves index := by
  -- 容量を 2 倍にした割り当て器の `j` 番目のバケットは、元の割り当て器の `j + 1` 番目
  have hshift : ∀ j, 2 * a.capacity * 2 ^ j = a.capacity * 2 ^ (j + 1) := fun j => by ring
  constructor
  · intro h j hj
    show a.memory.reserves (2 * a.capacity * 2 ^ j * a.chunkBytes) = true
    rw [hshift]
    exact h (j + 1) (hshift j ▸ hj)
  · intro h j hj
    cases j with
    | zero => simpa using hr
    | succ j =>
      have := h j (show 2 * a.capacity * 2 ^ j ≤ index by rw [hshift]; exact hj)
      change a.memory.reserves (2 * a.capacity * 2 ^ j * a.chunkBytes) = true at this
      rwa [hshift] at this

/-- 番号を覆うまでの伸長は容量のほかを変えず、容量を減らさず、形を保つ。覆えたと答えれば、番号は
容量の中にある。 -/
theorem growToCover_ok {index fuel : Nat} {r : Bool} (hs : a.Shaped)
    (h : growToCover index fuel a = .ok (r, a')) :
    a'.Shaped ∧ a.capacity ≤ a'.capacity ∧ a' = { a with capacity := a'.capacity } ∧
      (r = true → index < a'.capacity) := by
  induction fuel generalizing a with
  | zero =>
    simp only [growToCover, pure, Except.pure, Except.ok.injEq, Prod.mk.injEq] at h
    obtain ⟨rfl, rfl⟩ := h
    exact ⟨hs, Nat.le_refl _, rfl, Bool.false_ne_true.elim⟩
  | succ fuel ih =>
    simp only [growToCover] at h
    split at h
    · rename_i hcov
      simp only [pure, Except.pure, Except.ok.injEq, Prod.mk.injEq] at h
      obtain ⟨rfl, rfl⟩ := h
      exact ⟨hs, Nat.le_refl _, rfl, fun _ => hcov⟩
    · simp only [bind, Except.bind] at h
      split at h
      · cases h
      · rename_i res hres
        cases res with
        | error e =>
          simp only [pure, Except.pure, Except.ok.injEq, Prod.mk.injEq] at h
          obtain ⟨rfl, rfl⟩ := h
          exact ⟨hs, Nat.le_refl _, rfl, Bool.false_ne_true.elim⟩
        | ok a₁ =>
          obtain ⟨hlt, rfl⟩ := tryExpand_ok hs hres
          obtain ⟨hs', hle, heq, hcov⟩ := ih (hs.double hlt) h
          refine ⟨hs', Nat.le_trans (show a.capacity ≤ 2 * a.capacity by omega) hle, ?_, hcov⟩
          rw [heq]

/-- 最大より小さい番号を覆う伸長は、最大の容量が 1 語に収まり、容量から最大までの倍数より多い燃料が
あれば、検査に失敗せず、覆うまでのバケットをどれも予約できるときに限って覆えたと答える。 -/
theorem growToCover_iff {index fuel c m : Nat} (hs : a.Shaped) (hfit : a.Fits)
    (hi : index < a.maxCapacity) (hc : a.capacity = 2 ^ c) (hm : a.maxCapacity = 2 ^ m)
    (hfuel : m < c + fuel) :
    ∃ r a', growToCover index fuel a = .ok (r, a') ∧ (r = true ↔ a.Reserves index) := by
  induction fuel generalizing a c with
  | zero =>
    have : 2 ^ c ≤ 2 ^ m := hc ▸ hm ▸ hs.capacity_le
    have : c ≤ m := (Nat.pow_le_pow_iff_right (by decide)).mp this
    omega
  | succ fuel ih =>
    by_cases hcov : index < a.capacity
    · exact ⟨true, a, by simp only [growToCover, hcov, ↓reduceIte]; rfl,
        by simpa using reserves_of_lt hcov⟩
    have hlt : a.capacity < a.maxCapacity := by omega
    have hle : a.capacity ≤ index := Nat.le_of_not_lt hcov
    cases hr : a.memory.reserves (a.capacity * a.chunkBytes) with
    | false =>
      -- 今の容量のバケットを断られたら、そこで止まる
      have hexp := tryExpand_of_fits hs hfit hlt
      rw [hr] at hexp
      refine ⟨false, a, by simp only [growToCover, hcov, ↓reduceIte, hexp, bind, Except.bind]; rfl, ?_⟩
      simp only [Bool.false_eq_true, false_iff]
      intro h
      have := h 0 (by simpa using hle)
      simp [hr] at this
    | true =>
      have hexp := tryExpand_of_fits hs hfit hlt
      rw [hr] at hexp
      obtain ⟨r, a', ha', hiff⟩ := ih (a := { a with capacity := 2 * a.capacity }) (c := c + 1)
        (hs.double hlt) hfit hi (by show 2 * a.capacity = 2 ^ (c + 1); rw [hc, Nat.pow_succ, Nat.mul_comm])
        hm (by omega)
      refine ⟨r, a', by simp only [growToCover, hcov, ↓reduceIte, hexp, bind, Except.bind]; exact ha', ?_⟩
      rw [hiff, reserves_double hr]

/-! ## 割り当て -/

theorem Shaped.bump (hs : a.Shaped) (h : a.highWater < a.maxCapacity) :
    Shaped { a with highWater := a.highWater + 1 } :=
  ⟨hs.capacity_pow, hs.max_pow, hs.capacity_le, Nat.succ_le_of_lt h⟩

theorem allocate_of_le (h : a.maxCapacity ≤ a.highWater) : a.allocate = .ok (none, a) := by
  simp only [allocate, ge_iff_le, h, ↓reduceIte]
  rfl

theorem allocate_of_lt (hs : a.Shaped) (h : a.highWater < a.capacity) :
    a.allocate = .ok (some a.highWater, { a with highWater := a.highWater + 1 }) := by
  have hm : a.highWater < a.maxCapacity := Nat.lt_of_lt_of_le h hs.capacity_le
  simp only [allocate, ge_iff_le, Nat.not_le.mpr hm, ↓reduceIte, h, hs.wrapAdd_highWater hm]
  rfl

-- 断った番号でも最高水位は進む
theorem allocate_of_not_grow (hs : a.Shaped) (hm : a.highWater < a.maxCapacity)
    (hc : a.capacity ≤ a.highWater) (hg : a.shouldGrow = false) :
    a.allocate = .ok (none, { a with highWater := a.highWater + 1 }) := by
  simp only [allocate, ge_iff_le, Nat.not_le.mpr hm, ↓reduceIte, Nat.not_lt.mpr hc, hg,
    Bool.not_false, hs.wrapAdd_highWater hm]
  rfl

/-- 伸びることが許されていれば、最大より小さい番号は、最大の容量が 1 語に収まるかぎり、その番号を覆う
までのバケットをどれも予約できるときに限って渡す。渡せなくても、予約できたバケットは残る。 -/
theorem allocate_of_grow (hs : a.Shaped) (hfit : a.Fits) (hm : a.highWater < a.maxCapacity)
    (hc : a.capacity ≤ a.highWater) (hg : a.shouldGrow = true) :
    ∃ r c, a.allocate = .ok (r, { a with highWater := a.highWater + 1, capacity := c }) ∧ a.capacity ≤ c ∧
      (r = some a.highWater ∧ a.highWater < c ∧ a.Reserves a.highWater ∨
        r = none ∧ ¬a.Reserves a.highWater) := by
  obtain ⟨k, -, hk⟩ := hs.capacity_pow
  obtain ⟨m, hm32, hme⟩ := hs.max_pow
  have hs₁ := hs.bump hm
  obtain ⟨covered, a₂, h₂, hiff⟩ := growToCover_iff hs₁ hfit hm hk hme (by omega : m < k + 64)
  obtain ⟨-, hle, heq, hcov⟩ := growToCover_ok hs₁ h₂
  rw [hg] at h₂ heq
  refine ⟨if covered then some a.highWater else none, a₂.capacity, ?_, hle, ?_⟩
  · simp only [allocate, ge_iff_le, Nat.not_le.mpr hm, ↓reduceIte, Nat.not_lt.mpr hc, hg,
      Bool.not_true, Bool.false_eq_true, hs.wrapAdd_highWater hm, bind, Except.bind]
    rw [h₂]
    simp only [pure, Except.pure, Except.ok.injEq, Prod.mk.injEq, true_and]
    exact heq
  · cases covered
    · exact .inr ⟨rfl, fun h => by simpa using hiff.2 h⟩
    · exact .inl ⟨rfl, hcov rfl, hiff.1 rfl⟩

/-- 割り当ては最高水位と容量のほかを変えず、どちらも減らさず、形を保つ。番号を渡すなら、それは前の
最高水位で、最高水位はその次に進み、番号は容量の中にある。 -/
theorem allocate_ok {r : Option Nat} (hs : a.Shaped) (h : a.allocate = .ok (r, a')) :
    a'.Shaped ∧ a.highWater ≤ a'.highWater ∧ a.capacity ≤ a'.capacity ∧
      a' = { a with highWater := a'.highWater, capacity := a'.capacity } ∧
      ∀ id, r = some id → id = a.highWater ∧ a'.highWater = id + 1 ∧ id < a'.capacity := by
  by_cases hle : a.maxCapacity ≤ a.highWater
  · rw [allocate_of_le hle] at h
    cases h
    exact ⟨hs, Nat.le_refl _, Nat.le_refl _, rfl, fun _ h => by cases h⟩
  have hm : a.highWater < a.maxCapacity := Nat.lt_of_not_le hle
  by_cases hlt : a.highWater < a.capacity
  · rw [allocate_of_lt hs hlt] at h
    cases h
    exact ⟨hs.bump hm, Nat.le_succ _, Nat.le_refl _, rfl, fun _ h => by cases h; exact ⟨rfl, rfl, hlt⟩⟩
  have hc : a.capacity ≤ a.highWater := Nat.le_of_not_lt hlt
  by_cases hg : a.shouldGrow = true
  · have hng : (!a.shouldGrow) = false := by simp [hg]
    simp only [allocate, ge_iff_le, hle, ↓reduceIte, hlt, hng, Bool.false_eq_true,
      hs.wrapAdd_highWater hm, bind, Except.bind] at h
    split at h
    · cases h
    · rename_i res hres
      obtain ⟨covered, a₂⟩ := res
      simp only [pure, Except.pure, Except.ok.injEq, Prod.mk.injEq] at h
      obtain ⟨rfl, rfl⟩ := h
      obtain ⟨hs₂, hle₂, heq, hcov⟩ := growToCover_ok (hs.bump hm) hres
      have hw : a₂.highWater = a.highWater + 1 := by rw [heq]
      refine ⟨hs₂, by omega, hle₂, ?_, fun id hid => ?_⟩
      · rw [heq]
      · cases covered
        · cases hid
        · simp only [↓reduceIte, Option.some.injEq] at hid
          subst hid
          exact ⟨rfl, hw, hcov rfl⟩
  · rw [allocate_of_not_grow hs hm hc (by simpa using hg)] at h
    cases h
    exact ⟨hs.bump hm, Nat.le_succ _, Nat.le_refl _, rfl, fun _ h => by cases h⟩

/-- 決まった形で最大の容量のバイト数が 1 語に収まる割り当て器は、最高水位が最大より小さく、容量より
小さいか、伸びてよくてそれを覆うまでのバケットをどれも予約できるときに限って番号を渡す。渡さないときは、
最高水位が最大より小さければそれを 1 つ進め、予約を断られるまでに加えたバケットを残すほかは何も変えない。 -/
theorem allocate_cases (hs : a.Shaped) (hfit : a.Fits) :
    (a.highWater < a.maxCapacity ∧
        (a.highWater < a.capacity ∨ a.shouldGrow = true ∧ a.Reserves a.highWater) ∧
        ∃ a', a.allocate = .ok (some a.highWater, a')) ∨
      (¬(a.highWater < a.maxCapacity ∧
          (a.highWater < a.capacity ∨ a.shouldGrow = true ∧ a.Reserves a.highWater)) ∧
        ∃ c, a.allocate = .ok (none, { a with highWater :=
          if a.highWater < a.maxCapacity then a.highWater + 1 else a.highWater, capacity := c }) ∧
          a.capacity ≤ c ∧ (c = a.capacity ∨ a.shouldGrow = true ∧ ¬a.Reserves a.highWater)) := by
  by_cases hm : a.highWater < a.maxCapacity
  · by_cases hc : a.highWater < a.capacity
    · exact .inl ⟨hm, .inl hc, _, allocate_of_lt hs hc⟩
    by_cases hg : a.shouldGrow = true
    · obtain ⟨r, c, h, hle, ⟨rfl, -, hres⟩ | ⟨rfl, hres⟩⟩ :=
        allocate_of_grow hs hfit hm (Nat.le_of_not_lt hc) hg
      · exact .inl ⟨hm, .inr ⟨hg, hres⟩, _, h⟩
      · refine .inr ⟨fun h => h.2.elim hc fun h => hres h.2, c, ?_, hle, .inr ⟨hg, hres⟩⟩
        rw [if_pos hm]
        exact h
    · refine .inr ⟨fun h => h.2.elim hc fun h => hg h.1, a.capacity, ?_, Nat.le_refl _, .inl rfl⟩
      rw [if_pos hm]
      exact allocate_of_not_grow hs hm (Nat.le_of_not_lt hc) (by simpa using hg)
  · refine .inr ⟨fun h => hm h.1, a.capacity, ?_, Nat.le_refl _, .inl rfl⟩
    rw [if_neg hm]
    exact allocate_of_le (Nat.le_of_not_lt hm)

theorem Shaped.reset (hs : a.Shaped) : a.reset.Shaped :=
  ⟨hs.capacity_pow, hs.max_pow, hs.capacity_le, Nat.zero_le _⟩

/-! ## 作ったばかりの割り当て器 -/

theorem nextPow2?_eq {n p : Nat} (h : Word.nextPow2? n = some p) : ∃ k, p = 2 ^ k ∧ k < 64 := by
  simp only [Word.nextPow2?] at h
  split at h
  · rename_i hp
    cases h
    obtain ⟨k, hk⟩ := Nat.isPowerOfTwo_nextPowerOfTwo n
    refine ⟨k, hk, ?_⟩
    rw [hk] at hp
    exact (Nat.pow_lt_pow_iff_right (by decide)).mp hp
  · cases h

theorem tryExpand_of_zero (h0 : a.capacity = 0) (hm : 0 < a.maxCapacity) (hL : a.minLog2 < 64) :
    a.tryExpand = (Word.mul (2 ^ a.minLog2) a.chunkBytes).map fun bytes =>
      if a.memory.reserves bytes then .ok { a with capacity := 2 ^ a.minLog2 }
      else .error (.reservation bytes) := by
  have hpow : 2 ^ a.minLog2 < Word.bound := Nat.pow_lt_pow_right (by decide) hL
  have hlt : ¬ a.maxCapacity ≤ 0 := by omega
  simp only [tryExpand, ge_iff_le, hlt, ↓reduceIte, h0, bucketOf, Nat.pow_eq, Nat.two_pow_pos,
    bucketCapacity, Word.shl, hL, Nat.one_mul, Nat.mod_eq_of_lt hpow, bind, Except.bind, Word.mul, Except.map,
    Nat.zero_add]
  split
  · rfl
  · rename_i bytes _
    cases a.memory.reserves bytes <;> rfl

theorem new_ok {m : Memory} {lo hi epc : Nat} (h : Allocator.new m lo hi epc = .ok (.ok a)) :
    a.Shaped ∧ a.highWater = 0 := by
  simp only [Allocator.new] at h
  split at h
  · cases h
  split at h
  case h_2 => cases h
  rename_i lo' hlo
  split at h
  case h_2 => cases h
  rename_i hi' hhi
  -- 最小は 2 ^ k、最大はその 2 ^ j 倍
  obtain ⟨k, rfl, hk⟩ := nextPow2?_eq hlo
  simp only [Option.bind_eq_some_iff] at hhi
  obtain ⟨f, hf, hfs⟩ := hhi
  obtain ⟨j, rfl, -⟩ := nextPow2?_eq hf
  split at hfs
  case isFalse => cases hfs
  rename_i hcond
  cases hfs
  simp only [Bool.and_eq_true, decide_eq_true_eq] at hcond
  simp only [bind, Except.bind, Word.add] at h
  by_cases hb : epc + 1 < Word.bound
  case neg => simp only [hb, ↓reduceIte] at h; cases h
  simp only [hb, ↓reduceIte] at h
  split at h
  · cases h
  rw [tryExpand_of_zero rfl (Nat.mul_pos (Nat.two_pow_pos _) (Nat.two_pow_pos _))
    (by simpa [Nat.log2_two_pow] using hk)] at h
  simp only [Word.mul, Except.map, Nat.log2_two_pow] at h
  split at h
  · cases h
  simp only [Except.ok.injEq] at h
  split at h
  case isFalse => cases h
  cases h
  have hmax : 2 ^ j * 2 ^ k = 2 ^ (j + k) := (Nat.pow_add 2 j k).symm
  have hjk : j + k < 32 := by
    have : 2 ^ (j + k) < 2 ^ 32 := by
      have : maxChunks < 2 ^ 32 := by decide
      omega
    exact (Nat.pow_lt_pow_iff_right (by decide)).mp this
  refine ⟨⟨⟨k, Nat.le_refl _, rfl⟩, ⟨j + k, hjk, hmax⟩, ?_, Nat.zero_le _⟩, rfl⟩
  show 2 ^ k ≤ 2 ^ j * 2 ^ k
  exact Nat.le_mul_of_pos_left _ (Nat.two_pow_pos _)

end Allocator

end RegionMark.Chunk
