import Mathlib
import RegionMark.TaskQueue

/-!
# 両端キューとしてのタスクのキュー

1 つのスレッドから使うタスクのキューは、大きさに限りのある両端キューとして振る舞う（`WellFormed.run_eq`）。
容量は `2 ^ 63` より小さい 2 のべきとする。ちょうど `2 ^ 63` なら、満杯のキューの長さは負と読まれる。
-/

namespace RegionMark

namespace Word

theorem bound_eq : bound = 18446744073709551616 := rfl

theorem wrapSub_lt (a b : Nat) : wrapSub a b < bound := Nat.mod_lt _ (by decide)

theorem wrapAdd_lt (a b : Nat) : wrapAdd a b < bound := Nat.mod_lt _ (by decide)

theorem add_wrapSub {a b : Nat} (ha : a < bound) (hb : b < bound) : (b + wrapSub a b) % bound = a := by
  simp only [wrapSub, bound_eq] at *
  omega

theorem wrapSub_self (a : Nat) : wrapSub a a = 0 := by
  simp [wrapSub, bound_eq]

theorem eq_of_wrapSub_eq_zero {a b : Nat} (ha : a < bound) (hb : b < bound) (h : wrapSub a b = 0) :
    a = b := by
  simp only [wrapSub, bound_eq] at *
  omega

theorem wrapSub_wrapAdd_one {a b : Nat} (ha : a < bound) (hb : b < bound) (h : wrapSub a b + 1 < bound) :
    wrapSub (wrapAdd a 1) b = wrapSub a b + 1 := by
  simp only [wrapSub, wrapAdd, bound_eq] at *
  omega

theorem wrapSub_wrapSub_one {a b : Nat} (ha : a < bound) (hb : b < bound) (h : 0 < wrapSub a b) :
    wrapSub (wrapSub a 1) b = wrapSub a b - 1 := by
  simp only [wrapSub, bound_eq] at *
  omega

theorem wrapSub_wrapAdd_one_right {a b : Nat} (ha : a < bound) (h : 0 < wrapSub a b) :
    wrapSub a (wrapAdd b 1) = wrapSub a b - 1 := by
  simp only [wrapSub, wrapAdd, bound_eq] at *
  omega

theorem pow_two_63 : Nat.pow 2 63 = 9223372036854775808 := rfl

theorem isPow2_iff {n : Nat} : isPow2 n = true ↔ n.isPowerOfTwo := by
  rw [← Nat.ne_zero_and_sub_one_eq_zero_iff_isPowerOfTwo]
  simp [isPow2]

end Word

theorem Array.getD_setIfInBounds {α : Type} (a : Array α) {j : Nat} (k : Nat) (x d : α) (hj : j < a.size) :
    (a.setIfInBounds j x).getD k d = if j = k then x else a.getD k d := by
  rw [Array.getD_eq_getD_getElem?, Array.getD_eq_getD_getElem?]
  by_cases h : j = k
  · subst h
    rw [Array.getElem?_setIfInBounds_self_of_lt hj, if_pos rfl, Option.getD_some]
  · rw [Array.getElem?_setIfInBounds_ne h, if_neg h]

namespace TaskQueue

variable {α : Type} {q : TaskQueue α}

/-! ## 両端キューの操作 -/

/-- 両端キューの操作：底に積む、底から取る、頂から盗む、空にする。 -/
inductive Op (α : Type) where
  | push (x : α)
  | pop
  | steal
  | setEmpty

/-- 操作の答え。 -/
inductive Reply (α : Type) where
  | pushed (ok : Bool)
  | took (x : Option α)
  | emptied
  deriving DecidableEq

/-- 容量 `cap` の両端キュー `xs`（頂が先頭）の上の操作。 -/
def Op.onList (cap : Nat) (xs : List α) : Op α → Reply α × List α
  | .push x => if xs.length < cap then (.pushed true, xs ++ [x]) else (.pushed false, xs)
  | .pop => (.took xs.getLast?, xs.dropLast)
  | .steal => (.took xs.head?, xs.tail)
  | .setEmpty => (.emptied, [])

/-- 両端キューの上で操作を順に走らせ、各答えをその後の長さとともに返す。 -/
def runList (cap : Nat) : List α → List (Op α) → List (Reply α × Nat)
  | _, [] => []
  | xs, op :: ops =>
    ((op.onList cap xs).1, (op.onList cap xs).2.length) :: runList cap (op.onList cap xs).2 ops

/-! ## 環の枠 -/

/-- 整ったキュー：容量は 2 ^ 63 より小さい 2 のべきで、2 つの数は語で、数の差は容量を超えない。 -/
structure WellFormed (q : TaskQueue α) : Prop where
  pow2 : Word.isPow2 q.capacity = true
  capacity_lt : q.capacity < Nat.pow 2 63
  bottom_lt : q.bottom < Word.bound
  top_lt : q.top < Word.bound
  count_le : Word.wrapSub q.bottom q.top ≤ q.capacity

theorem WellFormed.capacity_pos (hq : q.WellFormed) : 0 < q.capacity :=
  Nat.pos_of_isPowerOfTwo (Word.isPow2_iff.1 hq.pow2)

theorem WellFormed.capacity_dvd (hq : q.WellFormed) : q.capacity ∣ Word.bound := by
  obtain ⟨k, hk⟩ := Word.isPow2_iff.1 hq.pow2
  have hk63 : k < 63 := by
    have h := hq.capacity_lt
    rw [hk] at h
    exact (Nat.pow_lt_pow_iff_right (by decide)).1 h
  rw [hk]
  exact Nat.pow_dvd_pow 2 (by omega)

theorem WellFormed.slotOf_mod_add (hq : q.WellFormed) (x i : Nat) :
    q.slotOf (x % Word.bound + i) = q.slotOf (x + i) := by
  unfold slotOf
  rw [Nat.add_mod, Nat.mod_mod_of_dvd _ hq.capacity_dvd, ← Nat.add_mod]

theorem WellFormed.slotOf_bottom (hq : q.WellFormed) :
    q.slotOf q.bottom = q.slotOf (q.top + Word.wrapSub q.bottom q.top) := by
  have h := hq.slotOf_mod_add (q.top + Word.wrapSub q.bottom q.top) 0
  rwa [Nat.add_zero, Nat.add_zero, Word.add_wrapSub hq.bottom_lt hq.top_lt] at h

theorem slotOf_ne (q : TaskQueue α) (t : Nat) {i j : Nat} (hij : i < j) (hj : j < q.capacity) :
    q.slotOf (t + i) ≠ q.slotOf (t + j) := fun h => by
  have := Nat.ModEq.eq_of_lt_of_lt (Nat.ModEq.add_left_cancel' t h) (by omega) hj
  omega

theorem slotOf_lt (hq : q.WellFormed) (x : Nat) : q.slotOf x < q.slots.size :=
  Nat.mod_lt _ hq.capacity_pos

section

variable [Inhabited α]

/-- キューが持つ項目：頂の数から、数の差の数だけ環の枠を順に読む。 -/
def items (q : TaskQueue α) : List α :=
  (List.range (Word.wrapSub q.bottom q.top)).map fun i => q.slots.getD (q.slotOf (q.top + i)) default

@[simp] theorem length_items (q : TaskQueue α) : q.items.length = Word.wrapSub q.bottom q.top := by
  simp [items]

theorem getElem_items (q : TaskQueue α) {i : Nat} (h : i < q.items.length) :
    q.items[i] = q.slots.getD (q.slotOf (q.top + i)) default := by
  simp [items]

/-! ## 操作ごとの振る舞い -/

theorem positive_iff {d : Nat} (hd : d < Nat.pow 2 63) : positive d = true ↔ 0 < d := by
  simp [positive, hd]

omit [Inhabited α] in
theorem WellFormed.count_lt (hq : q.WellFormed) : Word.wrapSub q.bottom q.top < Nat.pow 2 63 :=
  Nat.lt_of_le_of_lt hq.count_le hq.capacity_lt

theorem WellFormed.length_eq (hq : q.WellFormed) : q.length = q.items.length := by
  simp [length, hq.count_lt]

theorem push_full (h : q.capacity ≤ q.items.length) (x : α) :
    q.push x = (false, q) := by
  have : q.isFull = true := by simpa [isFull] using h
  simp [push, this]

/-- 余地のあるキューへの積み込みは、底に項目を加える。 -/
theorem WellFormed.push_room (hq : q.WellFormed) (h : q.items.length < q.capacity) (x : α) :
    (q.push x).1 = true ∧ (q.push x).2.WellFormed ∧ (q.push x).2.capacity = q.capacity ∧
      (q.push x).2.items = q.items ++ [x] := by
  rw [length_items] at h
  have hfull : q.isFull = false := by simpa [isFull] using h
  have hcount : Word.wrapSub (Word.wrapAdd q.bottom 1) q.top = Word.wrapSub q.bottom q.top + 1 := by
    refine Word.wrapSub_wrapAdd_one hq.bottom_lt hq.top_lt ?_
    have := hq.capacity_lt
    rw [Word.bound_eq, Word.pow_two_63] at *
    omega
  have hcap : (q.slots.setIfInBounds (q.slotOf q.bottom) x).size = q.slots.size := Array.size_setIfInBounds
  have hpush : q.push x =
      (true, { q with slots := q.slots.setIfInBounds (q.slotOf q.bottom) x,
                      bottom := Word.wrapAdd q.bottom 1 }) := by
    simp [push, hfull]
  rw [hpush]
  refine ⟨rfl, ⟨?_, ?_, Word.wrapAdd_lt _ _, hq.top_lt, ?_⟩, hcap, ?_⟩
  · simpa [capacity, hcap] using hq.pow2
  · simpa [capacity, hcap] using hq.capacity_lt
  · simp only [capacity, hcap, hcount]
    exact h
  · -- 新しい枠は頂から数の差だけ進んだところで、前からある項目の枠とは重ならない
    refine List.ext_getElem (by simp [hcount]) fun i hi _ => ?_
    simp only [length_items, hcount] at hi
    rw [getElem_items]
    change (q.slots.setIfInBounds (q.slotOf q.bottom) x).getD
      ((q.top + i) % (q.slots.setIfInBounds (q.slotOf q.bottom) x).size) default = _
    rw [hcap, show (q.top + i) % q.slots.size = q.slotOf (q.top + i) from rfl,
      Array.getD_setIfInBounds _ _ _ _ (slotOf_lt hq _), hq.slotOf_bottom]
    by_cases hin : i < Word.wrapSub q.bottom q.top
    · rw [if_neg (slotOf_ne q q.top hin h).symm, List.getElem_append_left (by simpa using hin),
        getElem_items]
    · have hi : i = Word.wrapSub q.bottom q.top := by omega
      subst hi
      rw [if_pos rfl]
      simp

theorem WellFormed.pop_empty (hq : q.WellFormed) (h : q.items = []) : q.pop = (none, q) := by
  have hz : Word.wrapSub q.bottom q.top = 0 := by simpa using congrArg List.length h
  have : q.bottom = q.top := Word.eq_of_wrapSub_eq_zero hq.bottom_lt hq.top_lt hz
  simp [pop, this]

/-- 項目のあるキューからの取り出しは、底の項目を取る。 -/
theorem WellFormed.pop_some (hq : q.WellFormed) (h : q.items ≠ []) :
    q.pop.1 = q.items.getLast? ∧ q.pop.2.WellFormed ∧ q.pop.2.capacity = q.capacity ∧
      q.pop.2.items = q.items.dropLast := by
  have hn : 0 < Word.wrapSub q.bottom q.top := by
    rw [← length_items]
    exact List.length_pos_iff.2 h
  have hne : (q.bottom == q.top) = false := by
    simpa using fun he => by rw [he, Word.wrapSub_self] at hn; omega
  have hnb := Word.wrapSub_wrapSub_one hq.bottom_lt hq.top_lt hn
  have hnb_lt := Word.wrapSub_lt q.bottom 1
  -- 底の 1 つ手前の枠は、頂から数の差より 1 つ少なく進んだ枠
  have hslot : q.slotOf (Word.wrapSub q.bottom 1) = q.slotOf (q.top + (Word.wrapSub q.bottom q.top - 1)) := by
    have := hq.slotOf_mod_add (q.top + Word.wrapSub (Word.wrapSub q.bottom 1) q.top) 0
    rwa [Nat.add_zero, Nat.add_zero, Word.add_wrapSub hnb_lt hq.top_lt, hnb] at this
  have hlast : q.items.getLast? = some (q.slots.getD (q.slotOf (Word.wrapSub q.bottom 1)) default) := by
    rw [List.getLast?_eq_getElem?, List.getElem?_eq_getElem (by simp; omega), getElem_items, hslot]
    simp
  by_cases h1 : Word.wrapSub q.bottom q.top = 1
  · -- 最後の 1 項目：底の 1 つ手前は頂で、頂を 1 つ進めて取る
    have htop : Word.wrapSub q.bottom 1 = q.top :=
      Word.eq_of_wrapSub_eq_zero hnb_lt hq.top_lt (by rw [hnb, h1])
    have hcount : Word.wrapSub q.bottom (Word.wrapAdd q.top 1) = 0 := by
      rw [Word.wrapSub_wrapAdd_one_right hq.bottom_lt hn, h1]
    have hpop : q.pop =
        (some (q.slots.getD (q.slotOf q.top) default), { q with top := Word.wrapAdd q.top 1 }) := by
      simp [pop, hne, htop, positive, Word.wrapSub_self]
    rw [hpop]
    refine ⟨by rw [hlast, htop], ⟨hq.pow2, hq.capacity_lt, hq.bottom_lt, Word.wrapAdd_lt _ _, ?_⟩, rfl, ?_⟩
    · show Word.wrapSub q.bottom (Word.wrapAdd q.top 1) ≤ q.capacity
      rw [hcount]
      exact Nat.zero_le _
    · rw [List.eq_nil_of_length_eq_zero (l := q.items.dropLast) (by simp [h1]), ← List.length_eq_zero_iff]
      show ({ q with top := Word.wrapAdd q.top 1 } : TaskQueue α).items.length = 0
      rw [length_items]
      exact hcount
  · -- 2 つ以上の項目：底を 1 つ戻して取る
    have hpos : positive (Word.wrapSub (Word.wrapSub q.bottom 1) q.top) = true := by
      rw [positive_iff (by rw [hnb]; exact Nat.lt_of_le_of_lt (Nat.sub_le _ _) hq.count_lt), hnb]
      omega
    have hpop : q.pop =
        (some (q.slots.getD (q.slotOf (Word.wrapSub q.bottom 1)) default),
          { q with bottom := Word.wrapSub q.bottom 1 }) := by
      simp [pop, hne, hpos]
    rw [hpop]
    refine ⟨hlast.symm, ⟨hq.pow2, hq.capacity_lt, hnb_lt, hq.top_lt, ?_⟩, rfl, ?_⟩
    · show Word.wrapSub (Word.wrapSub q.bottom 1) q.top ≤ q.capacity
      rw [hnb]
      exact Nat.le_trans (Nat.sub_le _ _) hq.count_le
    · refine List.ext_getElem (by simp [hnb]) fun i hi _ => ?_
      rw [List.getElem_dropLast, getElem_items, getElem_items]
      rfl

theorem steal_empty (h : q.items = []) : q.steal = (none, q) := by
  have hz : Word.wrapSub q.bottom q.top = 0 := by simpa using congrArg List.length h
  simp [steal, positive, hz]

/-- 項目のあるキューからの盗みは、頂の項目を取る。 -/
theorem WellFormed.steal_some (hq : q.WellFormed) (h : q.items ≠ []) :
    q.steal.1 = q.items.head? ∧ q.steal.2.WellFormed ∧ q.steal.2.capacity = q.capacity ∧
      q.steal.2.items = q.items.tail := by
  have hn : 0 < Word.wrapSub q.bottom q.top := by
    rw [← length_items]
    exact List.length_pos_iff.2 h
  have hcount := Word.wrapSub_wrapAdd_one_right hq.bottom_lt hn
  have hsteal : q.steal =
      (some (q.slots.getD (q.slotOf q.top) default), { q with top := Word.wrapAdd q.top 1 }) := by
    simp [steal, (positive_iff hq.count_lt).2 hn]
  rw [hsteal]
  refine ⟨?_, ⟨hq.pow2, hq.capacity_lt, hq.bottom_lt, Word.wrapAdd_lt _ _, ?_⟩, rfl, ?_⟩
  · rw [List.head?_eq_getElem?, List.getElem?_eq_getElem (by simp; omega), getElem_items]
    simp
  · show Word.wrapSub q.bottom (Word.wrapAdd q.top 1) ≤ q.capacity
    rw [hcount]
    exact Nat.le_trans (Nat.sub_le _ _) hq.count_le
  · -- 頂を 1 つ進めると、どの項目も 1 つ手前の位置から読まれる
    refine List.ext_getElem (by simp [hcount]) fun i hi _ => ?_
    rw [List.getElem_tail, getElem_items, getElem_items]
    show q.slots.getD (q.slotOf ((q.top + 1) % Word.bound + i)) default = _
    rw [hq.slotOf_mod_add, Nat.add_assoc, Nat.add_comm 1 i]

theorem WellFormed.setEmpty (hq : q.WellFormed) :
    q.setEmpty.WellFormed ∧ q.setEmpty.capacity = q.capacity ∧ q.setEmpty.items = [] := by
  have hz := Word.wrapSub_self q.bottom
  exact ⟨⟨hq.pow2, hq.capacity_lt, hq.bottom_lt, hq.bottom_lt, by simp [TaskQueue.setEmpty, hz]⟩, rfl,
    by simp [items, TaskQueue.setEmpty, hz]⟩

/-! ## キューの上の操作 -/

/-- キューの上の操作。 -/
def Op.onQueue (q : TaskQueue α) : Op α → Reply α × TaskQueue α
  | .push x => ((.pushed (q.push x).1), (q.push x).2)
  | .pop => (.took q.pop.1, q.pop.2)
  | .steal => (.took q.steal.1, q.steal.2)
  | .setEmpty => (.emptied, q.setEmpty)

/-- キューの上で操作を順に走らせ、各答えをその後の長さとともに返す。 -/
def run : TaskQueue α → List (Op α) → List (Reply α × Nat)
  | _, [] => []
  | q, op :: ops => ((op.onQueue q).1, (op.onQueue q).2.length) :: run (op.onQueue q).2 ops

/-- 整ったキューの上の 1 つの操作は、持つ項目の上の同じ操作として振る舞い、キューを整ったままにする。 -/
theorem WellFormed.step (hq : q.WellFormed) (op : Op α) :
    (op.onQueue q).1 = (op.onList q.capacity q.items).1 ∧ (op.onQueue q).2.WellFormed ∧
      (op.onQueue q).2.capacity = q.capacity ∧ (op.onQueue q).2.items = (op.onList q.capacity q.items).2 := by
  cases op with
  | push x =>
    rw [Op.onQueue, Op.onList]
    by_cases h : q.items.length < q.capacity
    · obtain ⟨hok, hwf, hcap, hitems⟩ := hq.push_room h x
      rw [if_pos h]
      exact ⟨by rw [hok], hwf, hcap, hitems⟩
    · rw [if_neg h, push_full (Nat.le_of_not_lt h) x]
      exact ⟨rfl, hq, rfl, rfl⟩
  | pop =>
    rw [Op.onQueue, Op.onList]
    by_cases h : q.items = []
    · rw [hq.pop_empty h]
      exact ⟨by rw [h]; rfl, hq, rfl, by show q.items = q.items.dropLast; rw [h]; rfl⟩
    · obtain ⟨hx, hwf, hcap, hitems⟩ := hq.pop_some h
      exact ⟨by rw [hx], hwf, hcap, hitems⟩
  | steal =>
    rw [Op.onQueue, Op.onList]
    by_cases h : q.items = []
    · rw [steal_empty h]
      exact ⟨by rw [h]; rfl, hq, rfl, by show q.items = q.items.tail; rw [h]; rfl⟩
    · obtain ⟨hx, hwf, hcap, hitems⟩ := hq.steal_some h
      exact ⟨by rw [hx], hwf, hcap, hitems⟩
  | setEmpty => exact ⟨rfl, hq.setEmpty⟩

/-- 整ったキューの上の操作の並びは、どの数から始めても、持つ項目の上の両端キューの操作と同じ答えと
長さを返す。 -/
theorem WellFormed.run_eq (hq : q.WellFormed) (ops : List (Op α)) :
    q.run ops = runList q.capacity q.items ops := by
  induction ops generalizing q with
  | nil => rfl
  | cons op ops ih =>
    obtain ⟨hr, hwf, hcap, hitems⟩ := hq.step op
    rw [run, runList, ih hwf, hr, hwf.length_eq, hcap, hitems]

/-- 数が語の大きさを越えて回った、満杯のキュー。 -/
def wrapped : TaskQueue Nat := ⟨#[7, 8, 5, 6], 2, 18446744073709551614⟩

theorem wrapped_runs_as_deque :
    wrapped.WellFormed ∧ wrapped.run [.push 9, .steal, .push 9, .pop, .pop, .setEmpty, .steal] =
      runList wrapped.capacity wrapped.items [.push 9, .steal, .push 9, .pop, .pop, .setEmpty, .steal] :=
  have hq : wrapped.WellFormed := ⟨by decide, by decide, by decide, by decide, by decide⟩
  ⟨hq, hq.run_eq _⟩

end

end TaskQueue

end RegionMark
