import Mathlib
import RegionMark.Proofs.Engine.Exhaustion
import RegionMark.Engine.FingerRace

/-!
# 大域のフィンガーによるリージョンの取り合い

ヒープの始まりから `Engine.claimRegion` を続けると、`i` 回目はリージョン `i` を取る（`Engine.claims_eq`）。
比較交換に失敗したタスクは何も変えずに読み直すので、どう入り交じった走りもこの並びに還元される。
-/

namespace RegionMark

namespace Heap

variable (h : Heap)

theorem regionEnd_eq_bottom_succ (k : Nat) : h.regionEnd k = h.bottom (k + 1) := by
  simp only [regionEnd, bottom]
  ring

theorem bottom_zero : h.bottom 0 = h.base := by simp [bottom, base]

theorem limit_eq_bottom : h.limit = h.bottom h.regionCount := rfl

theorem bottom_le_bottom_iff (hrb : 0 < h.regionBytes) {k l : Nat} : h.bottom k ≤ h.bottom l ↔ k ≤ l := by
  simp only [bottom, Nat.add_le_add_iff_left]
  exact Nat.mul_le_mul_right_iff hrb

theorem bottom_lt_limit_iff (hrb : 0 < h.regionBytes) {k : Nat} : h.bottom k < h.limit ↔ k < h.regionCount := by
  rw [limit_eq_bottom, ← Nat.not_le, bottom_le_bottom_iff h hrb, Nat.not_le]

/-- リージョン `k` を取ったときの答え：TAMS の下に何かあれば `k`。 -/
def claimAnswer (k : Nat) : Option Nat := if h.bottom k < h.tamsOf k then some k else none

theorem claimAnswer_eq_some {k r : Nat} : h.claimAnswer k = some r ↔ k = r ∧ h.bottom r < h.tamsOf r := by
  unfold claimAnswer
  split_ifs with hk
  · simp only [Option.some.injEq]
    constructor
    · rintro rfl
      exact ⟨rfl, hk⟩
    · rintro ⟨rfl, -⟩
      rfl
  · simp only [false_iff, not_and]
    rintro rfl
    exact hk

/-- 最初の `m` 個のリージョンを取った答えのうち `some` のものは、TAMS の下に何かあるリージョンを
番号の順に並べたもの。 -/
theorem reduceOption_claimAnswer (m : Nat) :
    ((List.range m).map h.claimAnswer).reduceOption =
      (List.range m).filter fun r => h.bottom r < h.tamsOf r := by
  induction m with
  | zero => rfl
  | succ m ih =>
    rw [List.range_succ, List.map_append, List.reduceOption_append, ih, List.filter_append]
    by_cases hm : h.bottom m < h.tamsOf m <;> simp [claimAnswer, hm]

/-- 最初の `m` 個のリージョンを取った答えに `some r` が現れる回数：`r` が `m` より前で TAMS の下に何か
あれば 1 回、そうでなければ 0 回。 -/
theorem count_claimAnswer (m r : Nat) :
    ((List.range m).map h.claimAnswer).count (some r) =
      if r < m ∧ h.bottom r < h.tamsOf r then 1 else 0 := by
  induction m with
  | zero => simp
  | succ m ih =>
    rw [List.range_succ, List.map_append, List.count_append, ih]
    by_cases hrm : r = m
    · subst hrm
      by_cases hr : h.bottom r < h.tamsOf r <;> simp [claimAnswer, hr]
    · have hne : h.claimAnswer m ≠ some r := fun he => hrm ((h.claimAnswer_eq_some.1 he).1.symm)
      have : r < m + 1 ↔ r < m := by omega
      simp [hne, this]

end Heap

namespace Engine

/-- `n` 回続けてリージョンを取る：答えを取った順に並べたものと、その後のエンジン。 -/
def claims (e : Engine) : Nat → List (Option Nat) × Engine
  | 0 => ([], e)
  | n + 1 => ((e.claims n).1 ++ [(e.claims n).2.claimRegion.1], (e.claims n).2.claimRegion.2)

variable {e : Engine}

theorem claimFrom_bottom (e : Engine) (hrb : 0 < e.heap.regionBytes) (k : Nat) :
    e.claimFrom (e.heap.bottom k) = (e.heap.claimAnswer k, { e with finger := e.heap.bottom (k + 1) }) := by
  -- 読んだ値の指すリージョンの番号は、始まりからの距離をリージョンの大きさで割ったもの
  have hr : (e.heap.bottom k - e.heap.base) / e.heap.regionBytes = k := by
    rw [Heap.bottom, Heap.base, Nat.add_sub_cancel_left, Nat.mul_div_cancel _ hrb]
  simp only [claimFrom, hr, Heap.regionEnd_eq_bottom_succ, Heap.claimAnswer, gt_iff_lt]

theorem claimRegion_eq_claimFrom {e : Engine} (h : e.outOfRegions = false) :
    e.claimRegion = e.claimFrom e.finger := by
  simp [claimRegion, claimFrom, h]

/-- フィンガーがリージョン `k` の始まりにあれば、取るのはリージョン `k` で、フィンガーは次のリージョンの
始まりへ進む。エンジンの他は変わらない。 -/
theorem claimRegion_at (e : Engine) (hrb : 0 < e.heap.regionBytes) {k : Nat} (hk : k < e.heap.regionCount)
    (hf : e.finger = e.heap.bottom k) :
    e.claimRegion = (e.heap.claimAnswer k, { e with finger := e.heap.bottom (k + 1) }) := by
  have hin : e.outOfRegions = false := by
    simp only [outOfRegions, hf, Heap.limit_eq_bottom, e.heap.bottom_le_bottom_iff hrb, decide_eq_false_iff_not]
    omega
  rw [claimRegion_eq_claimFrom hin, hf, claimFrom_bottom e hrb]

theorem claimRegion_out (e : Engine) (hf : e.heap.limit ≤ e.finger) : e.claimRegion = (none, e) := by
  simp [claimRegion, outOfRegions, hf]

/-- ヒープの始まりから `n` 回取ると、最初の `min n (リージョンの数)` 個のリージョンを番号の順に 1 つずつ
取り、残りの呼び出しは `none` を答える。フィンガーはリージョン `min n (リージョンの数)` の始まりにあり、
エンジンの他は変わらない。 -/
theorem claims_eq (hrb : 0 < e.heap.regionBytes) (hstart : e.finger = e.heap.base) (n : Nat) :
    e.claims n = ((List.range (min n e.heap.regionCount)).map e.heap.claimAnswer ++
      List.replicate (n - e.heap.regionCount) none,
      { e with finger := e.heap.bottom (min n e.heap.regionCount) }) := by
  induction n with
  | zero =>
    simp only [claims, Nat.zero_min, List.range_zero, List.map_nil, Nat.zero_sub, List.replicate_zero,
      List.append_nil, Heap.bottom_zero, ← hstart]
  | succ n ih =>
    rw [claims, ih]
    by_cases hn : n < e.heap.regionCount
    · -- リージョン `n` がまだ残っている：それを取り、フィンガーを次へ進める
      rw [claimRegion_at { e with finger := e.heap.bottom (min n e.heap.regionCount) } hrb hn
        (by simp [Nat.min_eq_left hn.le])]
      have h₁ : min (n + 1) e.heap.regionCount = min n e.heap.regionCount + 1 := by omega
      have h₂ : n + 1 - e.heap.regionCount = 0 := by omega
      have h₃ : n - e.heap.regionCount = 0 := by omega
      simp [h₁, h₂, h₃, Nat.min_eq_left hn.le, List.range_succ]
    · -- すべてのリージョンが取られている：フィンガーはヒープの終わりにとどまる
      rw [claimRegion_out { e with finger := e.heap.bottom (min n e.heap.regionCount) }
        (by simp [Nat.min_eq_right (Nat.le_of_not_lt hn), Heap.limit_eq_bottom])]
      have h₁ : min (n + 1) e.heap.regionCount = min n e.heap.regionCount := by omega
      have h₂ : n + 1 - e.heap.regionCount = n - e.heap.regionCount + 1 := by omega
      simp [h₁, h₂, List.replicate_succ']

theorem claims_outOfRegions_iff (hrb : 0 < e.heap.regionBytes) (hstart : e.finger = e.heap.base)
    (n : Nat) : (e.claims n).2.outOfRegions = true ↔ e.heap.regionCount ≤ n := by
  rw [claims_eq hrb hstart]
  simp only [outOfRegions, ge_iff_le, Heap.limit_eq_bottom, e.heap.bottom_le_bottom_iff hrb, decide_eq_true_eq]
  omega

/-- 大域のフィンガーは各リージョンをちょうど 1 回通り過ぎる。周期の始まりかオーバーフローのやり直しで
ヒープの始まりに置いたフィンガーから、どのタスクがどの順に取っても、比較交換の並びの `n` 回の取り合い
では、

* `i` 回目までに、フィンガーはリージョン `min i (リージョンの数)` の始まりにある。だからフィンガーは
  減らず、ヒープの始まりと終わりのあいだのリージョンの境目にあり、`i` 回目の取り合いはリージョン `i`
  をちょうど通り過ぎる。取り合いはフィンガーの他は何も変えない。
* 答えは最初のリージョンから順に、TAMS の下に何かあるものだけを返す。どのリージョンも高々 1 回返り、
  返るのは TAMS がリージョンの底より上にあるリージョンに限り、返る順は番号の順である。
* リージョンが尽きたときには、TAMS の下に何かあるリージョンはどれもちょうど 1 回返っている。 -/
theorem claims_pass_each_region_once (hrb : 0 < e.heap.regionBytes) (hstart : e.finger = e.heap.base)
    (n : Nat) :
    (∀ i ≤ n, (e.claims i).2 = { e with finger := e.heap.bottom (min i e.heap.regionCount) }) ∧
      (∀ i j, i ≤ j → j ≤ n → (e.claims i).2.finger ≤ (e.claims j).2.finger) ∧
      (∀ i ≤ n, e.heap.base ≤ (e.claims i).2.finger ∧ (e.claims i).2.finger ≤ e.heap.limit) ∧
      (e.claims n).1 = (List.range (min n e.heap.regionCount)).map e.heap.claimAnswer ++
        List.replicate (n - e.heap.regionCount) none ∧
      (∀ r, (e.claims n).1.count (some r) ≤ 1) ∧
      (∀ r ∈ (e.claims n).1.reduceOption, r < e.heap.regionCount ∧ e.heap.bottom r < e.heap.tamsOf r) ∧
      (e.claims n).1.reduceOption.Pairwise (· < ·) ∧
      ((e.claims n).2.outOfRegions = true → ∀ r < e.heap.regionCount,
        e.heap.bottom r < e.heap.tamsOf r → (e.claims n).1.count (some r) = 1) := by
  have hfinger : ∀ i, (e.claims i).2.finger = e.heap.bottom (min i e.heap.regionCount) := fun i => by
    rw [claims_eq hrb hstart]
  -- 答えのうち `some` のものは、取ったリージョンのうち TAMS の下に何かあるもの
  have hsome : (e.claims n).1.reduceOption =
      (List.range (min n e.heap.regionCount)).filter fun r => e.heap.bottom r < e.heap.tamsOf r := by
    rw [claims_eq hrb hstart, List.reduceOption_append, e.heap.reduceOption_claimAnswer]
    simp [List.reduceOption_replicate_none]
  have hcount : ∀ r, (e.claims n).1.count (some r) =
      if r < min n e.heap.regionCount ∧ e.heap.bottom r < e.heap.tamsOf r then 1 else 0 := fun r => by
    rw [claims_eq hrb hstart, List.count_append, e.heap.count_claimAnswer]
    simp [List.count_replicate]
  refine ⟨fun i _ => by rw [claims_eq hrb hstart], fun i j hij _ => ?_, fun i _ => ?_,
    by rw [claims_eq hrb hstart], fun r => ?_, fun r hr => ?_, ?_, fun hout r hr hnz => ?_⟩
  · rw [hfinger, hfinger, e.heap.bottom_le_bottom_iff hrb]
    omega
  · rw [hfinger, ← e.heap.bottom_zero, Heap.limit_eq_bottom, e.heap.bottom_le_bottom_iff hrb,
      e.heap.bottom_le_bottom_iff hrb]
    omega
  · rw [hcount]
    split_ifs <;> omega
  · rw [hsome, List.mem_filter, List.mem_range, decide_eq_true_eq] at hr
    exact ⟨by omega, hr.2⟩
  · rw [hsome]
    exact List.pairwise_lt_range.filter _
  · rw [claims_outOfRegions_iff hrb hstart] at hout
    rw [hcount, if_pos ⟨by omega, hnz⟩]

end Engine

namespace FingerRace

open Engine

variable {e : Engine} {k : Nat} {σ : FingerRace}

/-- 取り合いの不変条件：比較交換が `k` 回成功し、エンジンはフィンガーをリージョン `k` の始まりへ進めた
だけのもので、比較交換を待つタスクが読んだ値はヒープの終わりより前。 -/
structure Inv (e : Engine) (k : Nat) (σ : FingerRace) : Prop where
  le : k ≤ e.heap.regionCount
  eng : σ.eng = { e with finger := e.heap.bottom k }
  seen : ∀ w seen, σ.pcs w = .cas seen → seen < e.heap.limit

@[simp] theorem returned_append (rs rs' : List (Nat × Option Nat)) :
    returned (rs ++ rs') = returned rs ++ returned rs' :=
  List.filterMap_append

theorem returnedBy_sublist (w : Nat) (rs : List (Nat × Option Nat)) : (returnedBy w rs).Sublist (returned rs) :=
  List.filter_sublist.filterMap _

theorem run_append (σ : FingerRace) (xs ys : List (Nat × Bool)) :
    σ.run (xs ++ ys) = ((σ.run xs).1 ++ ((σ.run xs).2.run ys).1, ((σ.run xs).2.run ys).2) := by
  induction xs generalizing σ with
  | nil => rfl
  | cons x xs ih =>
    obtain ⟨w, b⟩ := x
    simp only [List.cons_append, run, ih, List.append_assoc]

theorem inv_start (hstart : e.finger = e.heap.base) : Inv e 0 (start e) where
  le := Nat.zero_le _
  eng := by
    rw [Heap.bottom_zero, ← hstart]
    rfl
  seen _ _ h := nomatch h

/-- タスク `w` を位置 `p` に置き、エンジンを変えない一歩は、待つ値がヒープの終わりより前なら不変条件を
保つ。 -/
theorem Inv.park (hi : Inv e k σ) (w : Nat) (p : FingerPc) (hp : ∀ seen, p = .cas seen → seen < e.heap.limit) :
    Inv e k ⟨σ.eng, fun w' => if w' = w then p else σ.pcs w'⟩ where
  le := hi.le
  eng := hi.eng
  seen w' seen h := by
    dsimp only at h
    split at h
    · exact hp seen h
    · exact hi.seen w' seen h

theorem Inv.claim (hi : Inv e k σ) (hk : k < e.heap.regionCount) (w : Nat) :
    Inv e (k + 1) ⟨{ σ.eng with finger := e.heap.bottom (k + 1) }, fun w' => if w' = w then .idle else σ.pcs w'⟩ where
  le := hk
  eng := by rw [hi.eng]
  seen w' seen h := by
    dsimp only at h
    split at h
    · cases h
    · exact hi.seen w' seen h

theorem Inv.outOfRegions (hrb : 0 < e.heap.regionBytes) (hi : Inv e k σ) :
    σ.eng.outOfRegions = decide (e.heap.regionCount ≤ k) := by
  rw [hi.eng]
  simp only [Engine.outOfRegions, Heap.limit_eq_bottom, e.heap.bottom_le_bottom_iff hrb]

theorem fingerStep_idle_of_out (b : Bool) {e : Engine} (h : e.outOfRegions = true) :
    e.fingerStep b .idle = (.idle, e, some none) := by
  simp [fingerStep, h]

theorem fingerStep_idle_of_in (b : Bool) {e : Engine} (h : e.outOfRegions = false) :
    e.fingerStep b .idle = (.cas e.finger, e, none) := by
  simp [fingerStep, h]

theorem fingerStep_cas_ok (e : Engine) : e.fingerStep false (.cas e.finger) =
    (.idle, (e.claimFrom e.finger).2, some (e.claimFrom e.finger).1) := by
  simp [fingerStep]

theorem fingerStep_cas_fail {e : Engine} {b : Bool} {seen : Nat} (h : ¬(e.finger = seen ∧ b = false)) :
    e.fingerStep b (.cas seen) = e.fingerStep b .idle := by
  simp only [fingerStep, if_neg h]

theorem step_eq (σ : FingerRace) (w : Nat) (b : Bool) : σ.step w b =
    ((σ.eng.fingerStep b (σ.pcs w)).2.2.map (w, ·),
      ⟨(σ.eng.fingerStep b (σ.pcs w)).2.1, fun w' => if w' = w then (σ.eng.fingerStep b (σ.pcs w)).1 else σ.pcs w'⟩) :=
  rfl

theorem returned_map_toList (w : Nat) (a : Option (Option Nat)) :
    returned (a.map (w, ·)).toList = a.join.toList := by
  cases a <;> rfl

/-- フィンガーを読む一歩は、エンジンを変えず、リージョンを返さず、ヒープの終わりより前の値を読んだ
ときだけ比較交換を待つ。 -/
theorem Inv.load (hrb : 0 < e.heap.regionBytes) (hi : Inv e k σ) {b : Bool} {p : FingerPc} {e' : Engine}
    {a : Option (Option Nat)} (h : σ.eng.fingerStep b .idle = (p, e', a)) :
    e' = σ.eng ∧ (∀ seen, p = .cas seen → seen < e.heap.limit) ∧ a.join = none := by
  cases ho : σ.eng.outOfRegions
  · rw [fingerStep_idle_of_in b ho] at h
    cases h
    refine ⟨rfl, fun seen hs => ?_, rfl⟩
    cases hs
    rw [hi.outOfRegions hrb, decide_eq_false_iff_not] at ho
    rw [hi.eng]
    exact (e.heap.bottom_lt_limit_iff hrb).2 (by omega)
  · rw [fingerStep_idle_of_out b ho] at h
    cases h
    refine ⟨rfl, fun seen hs => ?_, rfl⟩
    cases hs

/-- タスクの原子的な一歩は、エンジンを変えずにどのリージョンも返さないか、比較交換に成功してリージョン
`k` を通り過ぎ、その答えを返して呼び出しを終える。 -/
theorem Inv.fingerStep (hrb : 0 < e.heap.regionBytes) (hi : Inv e k σ) {w : Nat} {b : Bool} {p : FingerPc}
    {e' : Engine} {a : Option (Option Nat)} (h : σ.eng.fingerStep b (σ.pcs w) = (p, e', a)) :
    (e' = σ.eng ∧ (∀ seen, p = .cas seen → seen < e.heap.limit) ∧ a.join = none) ∨
      (k < e.heap.regionCount ∧ e' = { σ.eng with finger := e.heap.bottom (k + 1) } ∧ p = .idle ∧
        a = some (e.heap.claimAnswer k)) := by
  cases hpc : σ.pcs w with
  | idle =>
    rw [hpc] at h
    exact .inl (hi.load hrb h)
  | cas seen =>
    rw [hpc] at h
    by_cases hs : σ.eng.finger = seen ∧ b = false
    · -- 比較交換の成功：読んだ値はヒープの終わりより前の、リージョン `k` の始まり
      obtain ⟨rfl, rfl⟩ := hs
      have hfin : σ.eng.finger = e.heap.bottom k := by rw [hi.eng]
      have hk : k < e.heap.regionCount := (e.heap.bottom_lt_limit_iff hrb).1 (hfin ▸ hi.seen w _ hpc)
      have hclaim : σ.eng.claimFrom σ.eng.finger =
          (e.heap.claimAnswer k, { σ.eng with finger := e.heap.bottom (k + 1) }) := by
        have hheap : σ.eng.heap = e.heap := by rw [hi.eng]
        rw [hfin, ← hheap]
        exact claimFrom_bottom σ.eng (hheap ▸ hrb) k
      rw [fingerStep_cas_ok, hclaim] at h
      cases h
      exact .inr ⟨hk, rfl, rfl, rfl⟩
    · rw [fingerStep_cas_fail hs] at h
      exact .inl (hi.load hrb h)

/-- 一歩は、エンジンを変えずにどのリージョンも返さないか、比較交換に成功してリージョン `k` を通り
過ぎ、その答えを返す。 -/
theorem Inv.step (hrb : 0 < e.heap.regionBytes) (hi : Inv e k σ) (w : Nat) (b : Bool) :
    ((σ.step w b).2.eng = σ.eng ∧ Inv e k (σ.step w b).2 ∧ returned (σ.step w b).1.toList = []) ∨
      (k < e.heap.regionCount ∧ (σ.step w b).2.eng = { σ.eng with finger := e.heap.bottom (k + 1) } ∧
        Inv e (k + 1) (σ.step w b).2 ∧ returned (σ.step w b).1.toList = (e.heap.claimAnswer k).toList) := by
  rcases hs : σ.eng.fingerStep b (σ.pcs w) with ⟨p, e', a⟩
  rw [step_eq, hs, returned_map_toList]
  rcases hi.fingerStep hrb hs with ⟨rfl, hp, ha⟩ | ⟨hk, rfl, rfl, rfl⟩
  · exact .inl ⟨rfl, hi.park w p hp, by rw [ha]; rfl⟩
  · exact .inr ⟨hk, rfl, hi.claim hk w, rfl⟩

/-- 取り合いの走りは、比較交換の成功の並びに還元される：`k` 回の成功から、どう入り交じって進めても、
成功は `n` 回に増え、返ったリージョンは、その間に取ったリージョンの答えの `some` のもの。 -/
theorem Inv.run (hrb : 0 < e.heap.regionBytes) (hi : Inv e k σ) (acts : List (Nat × Bool)) :
    ∃ n, k ≤ n ∧ Inv e n (σ.run acts).2 ∧
      ((List.range k).map e.heap.claimAnswer).reduceOption ++ returned (σ.run acts).1 =
        ((List.range n).map e.heap.claimAnswer).reduceOption := by
  induction acts generalizing k σ with
  | nil => exact ⟨k, le_rfl, hi, by simp [run, returned]⟩
  | cons x xs ih =>
    obtain ⟨w, b⟩ := x
    simp only [run, returned_append]
    rcases hi.step hrb w b with ⟨-, hi', hr⟩ | ⟨-, -, hi', hr⟩
    · obtain ⟨n, hkn, hn, hlog⟩ := ih hi'
      exact ⟨n, hkn, hn, by rw [hr, List.nil_append, hlog]⟩
    · obtain ⟨n, hkn, hn, hlog⟩ := ih hi'
      refine ⟨n, by omega, hn, ?_⟩
      rw [hr, ← List.append_assoc, ← hlog, List.range_succ, List.map_append, List.reduceOption_append,
        List.map_cons, List.map_nil]
      cases e.heap.claimAnswer k <;> rfl

/-- 走りの途中のどこでも、フィンガーはリージョンの境目にあり、次の一歩はエンジンを変えないか、フィンガーを
次の境目へ進める。 -/
theorem run_snoc_eng (hrb : 0 < e.heap.regionBytes) (hstart : e.finger = e.heap.base) (xs : List (Nat × Bool))
    (x : Nat × Bool) : ∃ k ≤ e.heap.regionCount,
      ((start e).run xs).2.eng = { e with finger := e.heap.bottom k } ∧
      (((start e).run (xs ++ [x])).2.eng = ((start e).run xs).2.eng ∨
        k < e.heap.regionCount ∧ ((start e).run (xs ++ [x])).2.eng = { e with finger := e.heap.bottom (k + 1) }) := by
  obtain ⟨k, -, hk, -⟩ := (inv_start hstart).run hrb xs
  obtain ⟨w, b⟩ := x
  rw [run_append]
  refine ⟨k, hk.le, hk.eng, ?_⟩
  rcases hk.step hrb w b with ⟨heng, -, -⟩ | ⟨hlt, heng, -, -⟩
  · exact .inl heng
  · refine .inr ⟨hlt, ?_⟩
    show (((start e).run xs).2.step w b).2.eng = _
    rw [heng, hk.eng]

theorem run_reduces_to_claims (hrb : 0 < e.heap.regionBytes) (hstart : e.finger = e.heap.base)
    (acts : List (Nat × Bool)) : ∃ n ≤ e.heap.regionCount, ((start e).run acts).2.eng = (e.claims n).2 ∧
      returned ((start e).run acts).1 = (e.claims n).1.reduceOption := by
  obtain ⟨n, -, hn, hlog⟩ := (inv_start hstart).run hrb acts
  have hclaims := claims_eq hrb hstart n
  rw [Nat.min_eq_left hn.le, Nat.sub_eq_zero_of_le hn.le, List.replicate_zero, List.append_nil] at hclaims
  refine ⟨n, hn.le, by rw [hclaims, hn.eng], ?_⟩
  rw [hclaims, ← hlog, List.range_zero, List.map_nil]
  rfl

/-- 大域のフィンガーは各リージョンをちょうど 1 回通り過ぎる。ヒープの始まりに置いたフィンガーから、
いくつのタスクが claim_region を呼び、フィンガーの読みと比較交換（見かけの失敗も含む）がどう入り交じって
も、

* どの一歩も、エンジンを変えないか、フィンガーをリージョンの境目 `k` から次の境目へ進めるだけである。
  だからフィンガーは減らず、ヒープの始まりと終わりのあいだの境目にあり、各リージョンをちょうど 1 回
  通り過ぎる。
* 走りは、成功した比較交換を続けて呼んだ `Engine.claims n` に還元される。
* 返るリージョンは番号の順に並び、どれも高々 1 回返り、TAMS がリージョンの底より上にあるものに限る。
  どのタスクに返ったものも番号の順である。
* リージョンが尽きたときには、TAMS の下に何かあるリージョンはどれもちょうど 1 回返っている。 -/
theorem run_passes_each_region_once (hrb : 0 < e.heap.regionBytes) (hstart : e.finger = e.heap.base)
    {acts : List (Nat × Bool)} {rs : List (Nat × Option Nat)} {σ : FingerRace}
    (hrun : (start e).run acts = (rs, σ)) :
    (∀ xs x ys, acts = xs ++ x :: ys → ∃ k ≤ e.heap.regionCount,
      ((start e).run xs).2.eng = { e with finger := e.heap.bottom k } ∧
      (((start e).run (xs ++ [x])).2.eng = ((start e).run xs).2.eng ∨
        k < e.heap.regionCount ∧ ((start e).run (xs ++ [x])).2.eng = { e with finger := e.heap.bottom (k + 1) })) ∧
    (∃ n ≤ e.heap.regionCount, σ.eng = (e.claims n).2 ∧ returned rs = (e.claims n).1.reduceOption) ∧
    (returned rs).Pairwise (· < ·) ∧
    (∀ r ∈ returned rs, r < e.heap.regionCount ∧ e.heap.bottom r < e.heap.tamsOf r) ∧
    (∀ w, (returnedBy w rs).Pairwise (· < ·)) ∧
    (σ.eng.outOfRegions = true → ∀ r < e.heap.regionCount, e.heap.bottom r < e.heap.tamsOf r →
      (returned rs).count r = 1) := by
  -- 走り全体を成功した比較交換の並びに還元し、その並びの性質を読む
  obtain ⟨n, hn, heng, hret⟩ := run_reduces_to_claims hrb hstart acts
  rw [hrun] at heng hret
  obtain ⟨-, -, -, -, -, hmem, hpair, hall⟩ := claims_pass_each_region_once hrb hstart n
  rw [← hret] at hmem hpair
  refine ⟨fun xs x _ _ => run_snoc_eng hrb hstart xs x, ⟨n, hn, heng, hret⟩, hpair, hmem,
    fun w => hpair.sublist (returnedBy_sublist w rs), fun hout r hr hnz => ?_⟩
  -- 尽きたときには `r` は返っていて、返ったリージョンは重ならない
  have hin : r ∈ returned rs := by
    rw [hret, List.reduceOption_mem_iff, ← List.count_pos_iff, hall (heng ▸ hout) r hr hnz]
    exact Nat.one_pos
  exact List.count_eq_one_of_mem (hpair.imp Nat.ne_of_lt) hin

/-- 周期を始めたばかりのエンジンで 2 つのタスクが取り合う。どちらもヒープの始まりを読み、タスク 0 の
比較交換が成功してリージョン 0 を取る。タスク 1 の比較交換は失敗して読み直し、見かけの失敗を 1 度
はさんでリージョン 1 を取る。次のタスク 0 の呼び出しはリージョンが尽きたのを見て何も返さない。どちらの
リージョンもちょうど 1 回返っている。 -/
theorem two_tasks_race_for_the_finger : ∃ e : Engine, Reach (fun _ _ => True) e ∧
    0 < e.heap.regionBytes ∧ e.finger = e.heap.base ∧ ∃ σ : FingerRace,
      (start e).run [(0, false), (1, false), (0, false), (1, false), (1, true), (1, false), (0, false)] =
        ([(0, some 0), (1, some 1), (0, none)], σ) ∧ σ.eng.outOfRegions = true ∧
      (returned [(0, some 0), (1, some 1), (0, none)]).count 0 = 1 ∧
      (returned [(0, some 0), (1, some 1), (0, none)]).count 1 = 1 := by
  obtain ⟨e, hreach, hp⟩ := Reach.of_reaches Heap.fanOut (MarkConfig.tinyStack none) [.start]
    (fun e => decide (0 < e.heap.regionBytes) && e.finger == e.heap.base && e.heap.regionCount == 2 &&
      (List.range 2).map e.heap.claimAnswer == [some 0, some 1] &&
      ((start e).run [(0, false), (1, false), (0, false), (1, false), (1, true), (1, false), (0, false)]).1 ==
        [(0, some 0), (1, some 1), (0, none)] &&
      ((start e).run [(0, false), (1, false), (0, false), (1, false), (1, true), (1, false),
        (0, false)]).2.eng.outOfRegions)
    (fun _ _ _ => trivial) (by decide +kernel)
  simp only [Bool.and_eq_true, decide_eq_true_eq, beq_iff_eq] at hp
  obtain ⟨⟨⟨⟨⟨hrb, hstart⟩, hcount⟩, hans⟩, hrs⟩, hout⟩ := hp
  have hrun : (start e).run [(0, false), (1, false), (0, false), (1, false), (1, true), (1, false), (0, false)] =
      ([(0, some 0), (1, some 1), (0, none)], ((start e).run [(0, false), (1, false), (0, false), (1, false),
        (1, true), (1, false), (0, false)]).2) :=
    Prod.ext hrs rfl
  obtain ⟨-, -, -, -, -, hall⟩ := run_passes_each_region_once hrb hstart hrun
  -- どちらのリージョンにも TAMS の下に何かある
  have hnz : ∀ r < 2, e.heap.bottom r < e.heap.tamsOf r := fun r hr => by
    have ha : e.heap.claimAnswer r = some r := by
      have := congrArg (·[r]?) hans
      interval_cases r <;> simpa using this
    exact (e.heap.claimAnswer_eq_some.1 ha).2
  exact ⟨e, hreach, hrb, hstart, _, hrun, hout, hall hout 0 (by omega) (hnz 0 (by omega)),
    hall hout 1 (by omega) (hnz 1 (by omega))⟩

end FingerRace

end RegionMark
