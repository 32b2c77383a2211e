import Mathlib
import RegionMark.RootRegions.Claiming

/-!
# ルートリージョンはちょうど 1 回ずつ渡る

走査の用意を、呼び出しの途中の claimer がいないときにしたなら、集合を次に変えるまでに claimer たちが返す
範囲は用意したときの範囲の部分多重集合で、全員が終えて誰かが何も受け取らなかったならちょうどそれである。
位置を進めた後に読んだ数を越えていれば範囲を返さないことが、2 度渡すことを防ぐ。
-/

namespace RegionMark

/-- 後ろに 1 つ足した並びを、ある要素のところで前と後ろに分ける：足した要素で分けるか、分け目が前に
ある。 -/
theorem List.append_singleton_eq_append_cons {α : Type} {xs pre post : List α} {x a : α} :
    xs ++ [x] = pre ++ a :: post ↔
      (post = [] ∧ pre = xs ∧ a = x) ∨ ∃ post', post = post' ++ [x] ∧ xs = pre ++ a :: post' := by
  constructor
  · intro h
    rcases List.eq_nil_or_concat post with rfl | ⟨post', z, rfl⟩
    · obtain ⟨rfl, hx⟩ := List.append_inj' h rfl
      exact .inl ⟨rfl, rfl, by simpa using hx.symm⟩
    · rw [List.concat_eq_append, show pre ++ a :: (post' ++ [z]) = (pre ++ a :: post') ++ [z] by simp] at h
      obtain ⟨rfl, hx⟩ := List.append_inj' h rfl
      obtain rfl : x = z := by simpa using hx
      exact .inr ⟨post', List.concat_eq_append .., rfl⟩
  · rintro (⟨rfl, rfl, rfl⟩ | ⟨post', rfl, rfl⟩) <;> simp

theorem List.subperm_map {α β : Type} (f : α → β) {l₁ l₂ : List α} (h : l₁.Subperm l₂) :
    (l₁.map f).Subperm (l₂.map f) := by
  obtain ⟨l, hp, hs⟩ := h
  exact ⟨l.map f, hp.map f, hs.map f⟩

namespace RootRegions

variable {s : RootRegions}

theorem length_held (h : s.count ≤ s.slots.size) : s.held.length = s.count := by
  simp [held, h]

theorem held_eq_map_range (h : s.count ≤ s.slots.size) :
    s.held = (List.range s.count).map (s.slots.getD · default) := by
  refine List.ext_getElem (by simp [length_held h]) fun i h1 _ => ?_
  rw [length_held h] at h1
  simp [held, Array.getD_eq_getD_getElem?, Array.getElem?_eq_getElem (by omega : i < s.slots.size)]

theorem held_push (h : s.count < s.slots.size) (r : MemRange) :
    ({ s with slots := s.slots.setIfInBounds s.count r, count := s.count + 1 } : RootRegions).held =
      s.held ++ [r] := by
  simp only [held, Array.toList_setIfInBounds, List.take_add_one]
  rw [List.take_set_of_le (Nat.le_refl _), List.getElem?_set_self (by simpa using h)]
  rfl

theorem add_of_scanning (hs : s.scanning = true) (r : MemRange) :
    s.add r = .error (.violated "root regions added while a scan is in progress") := by
  simp [add, hs]

theorem add_of_not_scanning (hs : s.scanning = false) (r : MemRange) :
    s.add r = .ok (if s.count < s.slots.size then
      (true, { s with slots := s.slots.setIfInBounds s.count r, count := s.count + 1 }) else (false, s)) := by
  unfold add
  rw [if_neg (by simp [hs])]
  split <;> rfl

/-- 加えることが止まらなかったなら、走査は走っておらず、枠が残っていれば範囲を後ろに足し、残って
いなければ何も変えない。 -/
theorem add_eq_ok {r : MemRange} {b : Bool} {s' : RootRegions} (h : s.add r = .ok (b, s')) :
    s.scanning = false ∧
      (s.count < s.slots.size ∧ b = true ∧
          s' = { s with slots := s.slots.setIfInBounds s.count r, count := s.count + 1 } ∨
        s.slots.size ≤ s.count ∧ b = false ∧ s' = s) := by
  by_cases hs : s.scanning = true
  · rw [add_of_scanning hs] at h
    cases h
  · have hs : s.scanning = false := by simpa using hs
    rw [add_of_not_scanning hs] at h
    split_ifs at h with hlt
    · simp only [Except.ok.injEq, Prod.mk.injEq] at h
      exact ⟨hs, .inl ⟨hlt, h.1.symm, h.2.symm⟩⟩
    · simp only [Except.ok.injEq, Prod.mk.injEq] at h
      exact ⟨hs, .inr ⟨by omega, h.1.symm, h.2.symm⟩⟩

theorem prepare_eq_ok {s' : RootRegions} :
    s.prepare = .ok s' ↔ s.scanning = false ∧
      s' = { s with claimed := 0, aborted := false, scanning := decide (s.count > 0) } := by
  unfold prepare
  cases s.scanning <;> simp [eq_comm]

theorem finish_eq_ok {s' : RootRegions} :
    s.finish = .ok s' ↔ (s.aborted = true ∨ s.count ≤ s.claimed) ∧
      s' = { s with count := 0, scanning := false } := by
  unfold finish
  by_cases h : s.aborted = true ∨ s.count ≤ s.claimed
  · have hb : (s.aborted || decide (s.claimed ≥ s.count)) = true := by simpa using h
    rw [if_pos hb]
    simp only [Except.ok.injEq, h, true_and]
    exact eq_comm
  · have hb : ¬(s.aborted || decide (s.claimed ≥ s.count)) = true := by simpa using h
    rw [if_neg hb]
    simp [h]

/-! ## claimer の一歩 -/

/-- claimer が読んだ数は `m` 以下、取った位置は `m` 未満。 -/
def ClaimPc.Within (m : Nat) : ClaimPc → Prop
  | .loadCursor num | .bump num => num ≤ m
  | .loadStart idx | .loadStop idx _ => idx < m
  | _ => True

theorem ClaimPc.Within.claimStep {m : Nat} {pc : ClaimPc} (hc : s.count ≤ m) (hpc : pc.Within m) :
    (s.claimStep pc).1.Within m := by
  cases pc with
  | idle =>
    simp only [RootRegions.claimStep]
    split_ifs <;> trivial
  | loadCount => exact hc
  | loadCursor num =>
    simp only [RootRegions.claimStep]
    split_ifs
    · trivial
    · exact hpc
  | bump num =>
    -- 取る位置は、読んだ数より前にあるときだけ取る
    simp only [RootRegions.claimStep]
    split_ifs with hlt
    · exact Nat.lt_of_lt_of_le hlt hpc
    · trivial
  | loadStart idx => exact hpc
  | loadStop idx start => trivial

/-- claimer が取った位置：取ってから範囲を返すまでのあいだ。 -/
def ClaimPc.taken : ClaimPc → Option Nat
  | .loadStart idx | .loadStop idx _ => some idx
  | _ => none

@[simp] theorem ClaimPc.taken_idle : ClaimPc.idle.taken = none := rfl
@[simp] theorem ClaimPc.taken_loadCount : ClaimPc.loadCount.taken = none := rfl
@[simp] theorem ClaimPc.taken_loadCursor (num : Nat) : (ClaimPc.loadCursor num).taken = none := rfl
@[simp] theorem ClaimPc.taken_bump (num : Nat) : (ClaimPc.bump num).taken = none := rfl
@[simp] theorem ClaimPc.taken_loadStart (idx : Nat) : (ClaimPc.loadStart idx).taken = some idx := rfl
@[simp] theorem ClaimPc.taken_loadStop (idx start : Nat) :
    (ClaimPc.loadStop idx start).taken = some idx := rfl

@[simp] theorem claimStep_slots (pc : ClaimPc) : (s.claimStep pc).2.1.slots = s.slots := by
  cases pc <;> simp only [claimStep] <;> split_ifs <;> rfl

@[simp] theorem claimStep_count (pc : ClaimPc) : (s.claimStep pc).2.1.count = s.count := by
  cases pc <;> simp only [claimStep] <;> split_ifs <;> rfl

@[simp] theorem claimStep_aborted (pc : ClaimPc) : (s.claimStep pc).2.1.aborted = s.aborted := by
  cases pc <;> simp only [claimStep] <;> split_ifs <;> rfl

@[simp] theorem claimStep_scanning (pc : ClaimPc) : (s.claimStep pc).2.1.scanning = s.scanning := by
  cases pc <;> simp only [claimStep] <;> split_ifs <;> rfl

end RootRegions

open RootRegions

namespace RootReply

variable {c c' : Nat} {r : Option MemRange} {rs ys : List RootReply}

@[simp] theorem claimsOf_append : claimsOf c (rs ++ ys) = claimsOf c rs ++ claimsOf c ys :=
  List.filterMap_append

@[simp] theorem claimsOf_done : claimsOf c [.done] = [] := rfl

@[simp] theorem claimsOf_claimed : claimsOf c [.claimed c' r] = if c' = c then [r] else [] := by
  by_cases h : c' = c <;> simp [claimsOf, claimOf?, h]

@[simp] theorem regions_append : regions (rs ++ ys) = regions rs ++ regions ys :=
  List.filterMap_append

@[simp] theorem regions_done : regions [.done] = [] := rfl

@[simp] theorem regions_claimed : regions [.claimed c r] = r.toList := by
  cases r <;> rfl

end RootReply

open RootReply

namespace Claiming

variable {σ σ' : Claiming} {x : RootCall} {y : RootReply}

/-! ## 歩みと走り -/

theorem step_claim (σ : Claiming) (c : Nat) :
    σ.step (.claim c) = .ok (((σ.roots.claimStep (σ.pcs c)).2.2.map (.claimed c)).getD .done,
      ⟨(σ.roots.claimStep (σ.pcs c)).2.1,
        fun c' => if c' = c then (σ.roots.claimStep (σ.pcs c)).1 else σ.pcs c'⟩) := rfl

theorem step_add_ok {r : MemRange} (h : σ.step (.add r) = .ok (y, σ')) :
    ∃ ok, σ.roots.add r = .ok (ok, σ'.roots) ∧ y = .added ok ∧ σ'.pcs = σ.pcs := by
  simp only [step] at h
  cases ha : σ.roots.add r with
  | error => rw [ha] at h; cases h
  | ok p => rw [ha] at h; cases h; exact ⟨p.1, rfl, rfl, rfl⟩

theorem step_prepare_ok (h : σ.step .prepare = .ok (y, σ')) :
    σ.roots.prepare = .ok σ'.roots ∧ y = .done ∧ σ'.pcs = σ.pcs := by
  simp only [step] at h
  cases ha : σ.roots.prepare with
  | error => rw [ha] at h; cases h
  | ok s => rw [ha] at h; cases h; exact ⟨rfl, rfl, rfl⟩

theorem step_finish_ok (h : σ.step .finish = .ok (y, σ')) :
    σ.roots.finish = .ok σ'.roots ∧ y = .done ∧ σ'.pcs = σ.pcs := by
  simp only [step] at h
  cases ha : σ.roots.finish with
  | error => rw [ha] at h; cases h
  | ok s => rw [ha] at h; cases h; exact ⟨rfl, rfl, rfl⟩

/-- 中断のフラグは中断で立ち、用意で下りる。走査は用意で範囲を持っていれば走り出し、終わりと取り消しで
止まる。他の歩みはどちらも変えない。 -/
theorem step_flags (h : σ.step x = .ok (y, σ')) :
    σ'.roots.aborted = (if x = .abort then true else if x = .prepare then false else σ.roots.aborted) ∧
    σ'.roots.scanning = (if x = .prepare then decide (σ.roots.count > 0)
      else if x = .finish ∨ x = .cancel then false else σ.roots.scanning) := by
  cases x with
  | add r =>
    obtain ⟨ok, hadd, -, -⟩ := step_add_ok h
    obtain ⟨-, ⟨-, -, hr⟩ | ⟨-, -, hr⟩⟩ := add_eq_ok hadd <;> simp [hr]
  | prepare => simp [(prepare_eq_ok.1 (step_prepare_ok h).1).2]
  | finish => simp [(finish_eq_ok.1 (step_finish_ok h).1).2]
  | claim c =>
    rw [step_claim] at h
    cases h
    simp
  | reset | abort | cancel =>
    cases h
    simp [RootRegions.reset, RootRegions.abort, RootRegions.cancel]

theorem step_claim_of_aborted {c : Nat} (ha : σ.roots.aborted = true) (hc : σ.pcs c = .idle) :
    σ.step (.claim c) = .ok (.claimed c none, σ) := by
  have hpcs : (fun c' => if c' = c then ClaimPc.idle else σ.pcs c') = σ.pcs := by
    funext c'
    split_ifs with h
    · rw [h, hc]
    · rfl
  rw [step_claim, hc]
  simp only [claimStep, ha, if_true, Option.map_some, Option.getD_some, hpcs]

theorem run_cons_eq_ok {xs : List RootCall} {rs : List RootReply} :
    σ.run (x :: xs) = .ok (rs, σ') ↔
      ∃ y σ₁ rs₁, σ.step x = .ok (y, σ₁) ∧ σ₁.run xs = .ok (rs₁, σ') ∧ rs = y :: rs₁ := by
  simp only [run]
  rcases σ.step x with e | ⟨y, σ₁⟩
  · simp [bind, Except.bind]
  · rcases hr : σ₁.run xs with e | ⟨rs₁, σ₂⟩
    · simp [bind, Except.bind, hr]
    · constructor
      · intro h
        simp only [bind, Except.bind, hr, pure, Except.pure, Except.ok.injEq, Prod.mk.injEq] at h
        obtain ⟨rfl, rfl⟩ := h
        exact ⟨y, σ₁, rs₁, rfl, hr, rfl⟩
      · rintro ⟨y', σ₁', rs₁', h₁, h₂, rfl⟩
        cases h₁
        rw [hr] at h₂
        cases h₂
        simp only [bind, Except.bind, hr, pure, Except.pure]

theorem run_snoc_eq_ok {xs : List RootCall} {rs : List RootReply} :
    σ.run (xs ++ [x]) = .ok (rs, σ') ↔
      ∃ rs₀ σ₀ y, σ.run xs = .ok (rs₀, σ₀) ∧ σ₀.step x = .ok (y, σ') ∧ rs = rs₀ ++ [y] := by
  induction xs generalizing σ rs with
  | nil =>
    rw [List.nil_append, run_cons_eq_ok]
    constructor
    · rintro ⟨y, σ₁, rs₁, hx, hr, rfl⟩
      simp only [run, Except.ok.injEq, Prod.mk.injEq] at hr
      obtain ⟨rfl, rfl⟩ := hr
      exact ⟨[], σ, y, rfl, hx, rfl⟩
    · rintro ⟨rs₀, σ₀, y, h₀, hx, rfl⟩
      simp only [run, Except.ok.injEq, Prod.mk.injEq] at h₀
      obtain ⟨rfl, rfl⟩ := h₀
      exact ⟨y, σ', [], hx, rfl, rfl⟩
  | cons z zs ih =>
    rw [List.cons_append, run_cons_eq_ok]
    constructor
    · rintro ⟨y, σ₁, rs₁, hz, hr, rfl⟩
      obtain ⟨rs₀, σ₀, y', h₀, hx, rfl⟩ := ih.1 hr
      exact ⟨y :: rs₀, σ₀, y', run_cons_eq_ok.2 ⟨y, σ₁, rs₀, hz, h₀, rfl⟩, hx, rfl⟩
    · rintro ⟨rs₀, σ₀, y', h₀, hx, rfl⟩
      obtain ⟨y, σ₁, rs₁, hz, hr, rfl⟩ := run_cons_eq_ok.1 h₀
      exact ⟨y, σ₁, rs₁ ++ [y'], hz, ih.2 ⟨rs₁, σ₀, y', hr, hx, rfl⟩, rfl⟩

/-- 各歩みが保つ性質は、走りの全体で保たれる。性質は状態と、それまでの答えの並びについてのもの。 -/
theorem run_preserves {P : Claiming → List RootReply → Prop} {xs : List RootCall}
    {p q : List RootReply}
    (hstep : ∀ {σ σ' : Claiming} {rs : List RootReply} {x : RootCall} {y : RootReply},
      x ∈ xs → P σ rs → σ.step x = .ok (y, σ') → P σ' (rs ++ [y]))
    (hP : P σ p) (h : σ.run xs = .ok (q, σ')) : P σ' (p ++ q) := by
  induction xs generalizing σ p q with
  | nil =>
    simp only [run, Except.ok.injEq, Prod.mk.injEq] at h
    obtain ⟨rfl, rfl⟩ := h
    simpa using hP
  | cons x xs ih =>
    obtain ⟨y, σ₁, q₁, hx, hr, rfl⟩ := run_cons_eq_ok.1 h
    have hP₁ := hstep (List.mem_cons_self ..) hP hx
    simpa using ih (fun hx' => hstep (List.mem_cons_of_mem x hx')) hP₁ hr

/-! ## どの走りでも成り立つこと -/

/-- 容量 `m` の集合のどの走りでも成り立つこと：枠の数は `m` のままで、持つ範囲は `m` 個以下、claimer が
読んだ数と取った位置は枠に収まる。 -/
structure Inv (m : Nat) (σ : Claiming) : Prop where
  size : σ.roots.slots.size = m
  count_le : σ.roots.count ≤ m
  within : ∀ c, (σ.pcs c).Within m

theorem Inv.new (m : Nat) : Inv m (new m) :=
  ⟨by simp [Claiming.new, RootRegions.new], Nat.zero_le _, fun _ => trivial⟩

theorem Inv.step {m : Nat} (hi : Inv m σ) (h : σ.step x = .ok (y, σ')) : Inv m σ' := by
  cases x with
  | add r =>
    obtain ⟨ok, ha, -, hpcs⟩ := step_add_ok h
    obtain ⟨-, ⟨hlt, -, hr⟩ | ⟨-, -, hr⟩⟩ := add_eq_ok ha
    · refine ⟨by rw [hr]; simp [hi.size], by rw [hr]; show σ.roots.count + 1 ≤ m; have := hi.size; omega,
        by rw [hpcs]; exact hi.within⟩
    · exact ⟨by rw [hr, hi.size], by rw [hr]; exact hi.count_le, by rw [hpcs]; exact hi.within⟩
  | reset =>
    cases h
    exact ⟨hi.size, Nat.zero_le _, hi.within⟩
  | prepare =>
    obtain ⟨hp, -, hpcs⟩ := step_prepare_ok h
    obtain ⟨-, hr⟩ := prepare_eq_ok.1 hp
    exact ⟨by rw [hr, hi.size], by rw [hr]; exact hi.count_le, by rw [hpcs]; exact hi.within⟩
  | abort =>
    cases h
    exact ⟨hi.size, hi.count_le, hi.within⟩
  | finish =>
    obtain ⟨hf, -, hpcs⟩ := step_finish_ok h
    obtain ⟨-, hr⟩ := finish_eq_ok.1 hf
    exact ⟨by rw [hr, hi.size], by rw [hr]; exact Nat.zero_le _, by rw [hpcs]; exact hi.within⟩
  | cancel =>
    cases h
    exact ⟨hi.size, hi.count_le, hi.within⟩
  | claim c =>
    rw [step_claim] at h
    cases h
    refine ⟨by simp [hi.size], by simp [hi.count_le], fun c' => ?_⟩
    by_cases hc : c' = c
    · simp only [hc, if_true]
      exact (hi.within c).claimStep hi.count_le
    · simp only [hc, if_false]
      exact hi.within c'

theorem Inv.run {m : Nat} {xs : List RootCall} {rs : List RootReply} (hi : Inv m σ)
    (h : σ.run xs = .ok (rs, σ')) : Inv m σ' :=
  run_preserves (P := fun σ _ => Inv m σ) (p := []) (fun _ hi h => hi.step h) hi h

theorem Inv.length_held {m : Nat} (hi : Inv m σ) : σ.roots.held.length = σ.roots.count :=
  RootRegions.length_held (by rw [hi.size]; exact hi.count_le)

theorem inv_of_run {m : Nat} {xs : List RootCall} {rs : List RootReply} (h : (new m).run xs = .ok (rs, σ)) :
    Inv m σ :=
  (Inv.new m).run h

/-- 加えることは、走査が走っていれば事前条件を破って止まる。そうでなければ、持っている範囲が `m` より
少ないときに限り範囲を後ろに足し、そうでなければ何も変えない。claimer たちの位置は変わらない。 -/
theorem Inv.add_spec {m : Nat} (hi : Inv m σ) (r : MemRange) :
    (σ.roots.scanning = true →
      σ.step (.add r) = .error (.violated "root regions added while a scan is in progress")) ∧
    (σ.roots.scanning = false → ∃ σ', σ.step (.add r) = .ok (.added (decide (σ.roots.held.length < m)), σ') ∧
      σ'.roots.held = (if σ.roots.held.length < m then σ.roots.held ++ [r] else σ.roots.held) ∧
      σ'.pcs = σ.pcs) := by
  have hlen := hi.length_held
  refine ⟨fun hs => by simp only [Claiming.step, add_of_scanning hs]; rfl, fun hs => ?_⟩
  simp only [Claiming.step, add_of_not_scanning hs, hlen, ← hi.size]
  split_ifs with hlt
  · refine ⟨⟨{ σ.roots with
        slots := σ.roots.slots.setIfInBounds σ.roots.count r
        count := σ.roots.count + 1 }, σ.pcs⟩, ?_, held_push hlt r, rfl⟩
    rw [decide_eq_true hlt]
    rfl
  · refine ⟨σ, ?_, rfl, rfl⟩
    rw [decide_eq_false hlt]
    rfl

theorem step_claim_update (σ : Claiming) (c : Nat) :
    σ.step (.claim c) = .ok (((σ.roots.claimStep (σ.pcs c)).2.2.map (.claimed c)).getD .done,
      ⟨(σ.roots.claimStep (σ.pcs c)).2.1, Function.update σ.pcs c (σ.roots.claimStep (σ.pcs c)).1⟩) := by
  rw [step_claim]
  congr
  funext c'
  exact (Function.update_apply ..).symm

/-! ## 割り込まれない呼び出し -/

/-- 他の歩みが割り込まない claim の呼び出しは、`RootRegions.claim` の 1 回の呼び出しと同じ答えと集合を
返す：中断されていれば 1 歩、位置が範囲の数に届いていれば 3 歩、そうでなければ 6 歩で終える。 -/
theorem run_claim_uninterrupted {m c : Nat} (hi : Inv m σ) (hc : σ.pcs c = .idle) :
    ∃ k, σ.run (List.replicate (k + 1) (.claim c)) =
      .ok (List.replicate k .done ++ [.claimed c σ.roots.claim.1], ⟨σ.roots.claim.2, σ.pcs⟩) := by
  by_cases ha : σ.roots.aborted = true
  · refine ⟨0, ?_⟩
    simp [Claiming.run, step_claim_update, hc, claimStep, ha, RootRegions.claim, bind, Except.bind, pure,
      Except.pure]
  · by_cases hle : σ.roots.count ≤ σ.roots.claimed
    · refine ⟨2, ?_⟩
      simp [List.replicate_succ, Claiming.run, step_claim_update, hc, claimStep, ha, hle,
        RootRegions.claim, bind, Except.bind, pure, Except.pure]
    · -- 位置は範囲の数より前で、範囲の数は枠の数以下なので、位置の枠がある
      have hlt : σ.roots.claimed < σ.roots.count := by omega
      have hsize : σ.roots.claimed < σ.roots.slots.size := by
        have := hi.count_le
        rw [hi.size]
        omega
      refine ⟨5, ?_⟩
      simp [List.replicate_succ, Claiming.run, step_claim_update, hc, claimStep, ha, hle, hlt,
        RootRegions.claim, bind, Except.bind, pure, Except.pure, Array.getD_eq_getD_getElem?,
        Array.getElem?_eq_getElem hsize]

/-! ## 旗の履歴 -/

section History

variable {m : Nat} {calls : List RootCall} {rs : List RootReply}

/-- 走りの分け目で、最後の `a` の後に `clears` を満たす歩みがなく、`a` の前の状態が `P` を満たす。 -/
def SetSince (m : Nat) (a : RootCall) (clears : RootCall → Prop) (P : Claiming → Prop)
    (calls : List RootCall) : Prop :=
  ∃ pre post, calls = pre ++ a :: post ∧ (∀ x ∈ post, ¬clears x) ∧
    ∀ rs₀ σ₀, (new m).run pre = .ok (rs₀, σ₀) → P σ₀

theorem not_setSince_nil {a : RootCall} {clears : RootCall → Prop} {P : Claiming → Prop} :
    ¬SetSince m a clears P [] := by
  rintro ⟨pre, post, h, -⟩
  simp at h

/-- 後ろに歩み `x` を足した走りの分け目は、`x` 自身か、`x` が下ろさないときの前の走りの分け目。 -/
theorem setSince_snoc {a x : RootCall} {clears : RootCall → Prop} {P : Claiming → Prop}
    {rs₀ : List RootReply} {σ₀ : Claiming} (h₀ : (new m).run calls = .ok (rs₀, σ₀)) :
    SetSince m a clears P (calls ++ [x]) ↔
      x = a ∧ P σ₀ ∨ ¬clears x ∧ SetSince m a clears P calls := by
  have hP : (∀ rs σ, (new m).run calls = .ok (rs, σ) → P σ) ↔ P σ₀ :=
    ⟨fun hp => hp _ _ h₀, fun hp rs σ h => by rw [h₀] at h; cases h; exact hp⟩
  constructor
  · rintro ⟨pre, post, h, hpost, hp⟩
    rcases List.append_singleton_eq_append_cons.1 h with ⟨rfl, rfl, rfl⟩ | ⟨post', rfl, rfl⟩
    · exact .inl ⟨rfl, hP.1 hp⟩
    · exact .inr ⟨hpost x (by simp), pre, post', rfl, fun z hz => hpost z (by simp [hz]), hp⟩
  · rintro (⟨rfl, hp⟩ | ⟨hx, pre, post, rfl, hpost, hp⟩)
    · exact ⟨calls, [], by simp, by simp, hP.2 hp⟩
    · refine ⟨pre, post ++ [x], by simp, fun z hz => ?_, hp⟩
      rcases List.mem_append.1 hz with hz | hz
      · exact hpost z hz
      · rw [List.mem_singleton.1 hz]
        exact hx

/-- 歩み `a` が立て、`clears` を満たす歩みが下ろし、それ以外の歩みは変えない旗は、最後の `a` の後に
下ろす歩みがなく、その `a` の前の状態が `P` を満たすときに限り立っている。 -/
theorem flag_iff_setSince {f : Claiming → Bool} {a : RootCall} {clears : RootCall → Prop}
    {P : Claiming → Prop} (hinit : f (new m) = false)
    (hset : ∀ {σ σ' : Claiming} {y : RootReply}, Inv m σ → σ.step a = .ok (y, σ') → (f σ' = true ↔ P σ))
    (hagain : ∀ {σ σ' : Claiming} {y : RootReply}, Inv m σ → f σ = true → σ.step a = .ok (y, σ') → P σ)
    (hclear : ∀ {σ σ' : Claiming} {x : RootCall} {y : RootReply}, x ≠ a → clears x → σ.step x = .ok (y, σ') → f σ' = false)
    (hkeep : ∀ {σ σ' : Claiming} {x : RootCall} {y : RootReply}, x ≠ a → ¬clears x → σ.step x = .ok (y, σ') → f σ' = f σ)
    {σ : Claiming} (h : (new m).run calls = .ok (rs, σ)) :
    f σ = true ↔ SetSince m a clears P calls := by
  induction calls using List.reverseRecOn generalizing rs σ with
  | nil =>
    cases h
    simp [hinit, not_setSince_nil]
  | append_singleton calls x ih =>
    obtain ⟨rs₀, σ₀, y, h₀, hx, rfl⟩ := run_snoc_eq_ok.1 h
    have hi := inv_of_run h₀
    rw [setSince_snoc h₀, ← ih h₀]
    by_cases hxa : x = a
    · subst hxa
      rw [hset hi hx]
      exact ⟨fun hp => .inl ⟨rfl, hp⟩, fun h' => h'.elim And.right fun hf => hagain hi hf.2 hx⟩
    · by_cases hc : clears x
      · simp [hclear hxa hc hx, hxa, hc]
      · simp [hkeep hxa hc hx, hxa, hc]

theorem aborted_iff {σ : Claiming} (h : (new m).run calls = .ok (rs, σ)) :
    σ.roots.aborted = true ↔ ∃ pre post, calls = pre ++ .abort :: post ∧ .prepare ∉ post := by
  have key : σ.roots.aborted = true ↔
      SetSince m .abort (· = .prepare) (fun _ => True) calls :=
    flag_iff_setSince (f := fun σ => σ.roots.aborted) (a := .abort) (P := fun _ => True) rfl
      (fun _ h => by simp [(step_flags h).1]) (fun _ _ _ => trivial)
      (fun _ hxp h => by simp [(step_flags h).1, hxp])
      (fun hxa hxp h => by simp [(step_flags h).1, hxa, hxp]) h
  rw [key]
  simp [SetSince, List.forall_mem_ne']

/-- 走査は、範囲を持っていた用意の後に終わりも取り消しもないときに限り走っている。 -/
theorem scanning_iff {σ : Claiming} (h : (new m).run calls = .ok (rs, σ)) :
    σ.roots.scanning = true ↔ ∃ pre post, calls = pre ++ .prepare :: post ∧
      .finish ∉ post ∧ .cancel ∉ post ∧
      ∀ rs₀ σ₀, (new m).run pre = .ok (rs₀, σ₀) → σ₀.roots.held ≠ [] := by
  have key : σ.roots.scanning = true ↔
      SetSince m .prepare (fun x => x = .finish ∨ x = .cancel) (fun σ => σ.roots.held ≠ []) calls :=
    flag_iff_setSince (f := fun σ => σ.roots.scanning) (a := .prepare)
      (P := fun σ => σ.roots.held ≠ []) rfl
      (fun hi h => by simp [(step_flags h).2, ← List.length_pos_iff, hi.length_held])
      (fun _ hs h => by simp [(prepare_eq_ok.1 (step_prepare_ok h).1).1] at hs)
      (fun hxa hxc h => by simp [(step_flags h).2, hxa, hxc])
      (fun hxa hxc h => by simp [(step_flags h).2, hxa, hxc]) h
  rw [key]
  simp [SetSince, List.forall_mem_ne', forall_and, and_assoc]

end History

/-! ## 用意からの窓

走査の用意の後、集合を変えない歩み（claimer の一歩、終わり、取り消し）だけが続くあいだの不変条件。
`S` は用意したときの枠、`n` はそのとき持っていた範囲の数、`R` は返した範囲の枠の番号を返した順に並べた
もの、`rs` は用意の後の答え。返した番号と、claimer が取ってまだ返していない番号は、重ならずに合わせて
位置より前の番号をちょうど覆う。 -/

section Window

variable {S : Array MemRange} {n : Nat} {R : List Nat} {rs : List RootReply} {c : Nat}

/-- claimer の位置 `pc` と、その claimer が用意の後に受け取ったもの `got` について成り立つこと。 -/
structure ClaimerOk (S : Array MemRange) (n claimed : Nat) (pc : ClaimPc)
    (got : List (Option MemRange)) : Prop where
  /-- 読んだ数は、用意のときの数か、走査を終えた後の 0。 -/
  num : ∀ k, pc = .loadCursor k ∨ pc = .bump k → k = n ∨ k = 0 ∧ n ≤ claimed
  /-- 読んだ始まりは枠のもの。 -/
  start : ∀ i st, pc = .loadStop i st → st = (S.getD i default).start
  /-- 何も受け取らなかった後は、位置はすべてを渡し終えており、この claimer はもう位置を取らない。 -/
  after_none : none ∈ got → n ≤ claimed ∧ pc.taken = none ∧ ∀ k, pc ≠ .bump k
  /-- 範囲を受け取ることの後に、何も受け取らないことだけが続く。 -/
  shape : ∃ (xs : List MemRange) (k : Nat), got = xs.map some ++ List.replicate k none

theorem ClaimerOk.idle_nil {k : Nat} : ClaimerOk S n k .idle [] := by
  refine ⟨?_, ?_, by simp, [], 0, rfl⟩
  · rintro _ (h | h) <;> cases h
  · rintro _ _ ⟨⟩

theorem ClaimerOk.mono {k k' : Nat} {pc : ClaimPc} {got : List (Option MemRange)}
    (h : ClaimerOk S n k pc got) (hk : k ≤ k') : ClaimerOk S n k' pc got :=
  ⟨fun j hj => (h.num j hj).imp_right fun h' => ⟨h'.1, le_trans h'.2 hk⟩, h.start,
    fun hn => (h.after_none hn).imp_left (le_trans · hk), h.shape⟩

theorem ClaimerOk.idle_none {k k' : Nat} {pc : ClaimPc} {got : List (Option MemRange)}
    (h : ClaimerOk S n k pc got) (hn : n ≤ k') : ClaimerOk S n k' .idle (got ++ [none]) := by
  obtain ⟨xs, j, rfl⟩ := h.shape
  refine ⟨?_, ?_, fun _ => ⟨hn, rfl, fun _ => nofun⟩, xs, j + 1, ?_⟩
  · rintro _ (h | h) <;> cases h
  · rintro _ _ ⟨⟩
  · simp [List.replicate_succ']

/-- 取った位置の範囲を受け取って呼び出しを終える。位置を取っていたので、それまでに何も受け取らなかった
ことはない。 -/
theorem ClaimerOk.idle_some {k : Nat} {pc : ClaimPc} {got : List (Option MemRange)}
    (h : ClaimerOk S n k pc got) (hpc : pc.taken ≠ none) (r : MemRange) :
    ClaimerOk S n k .idle (got ++ [some r]) := by
  have hnone : none ∉ got := fun hn => hpc (h.after_none hn).2.1
  obtain ⟨xs, j, rfl⟩ := h.shape
  obtain rfl : j = 0 := by
    by_contra hj
    exact hnone (List.mem_append_right _ (List.mem_replicate.2 ⟨hj, rfl⟩))
  refine ⟨?_, ?_, fun hn => ?_, xs ++ [r], 0, by simp⟩
  · rintro _ (h | h) <;> cases h
  · rintro _ _ ⟨⟩
  · simp at hn hnone

theorem ClaimerOk.move {k : Nat} {pc pc' : ClaimPc} {got : List (Option MemRange)}
    (h : ClaimerOk S n k pc got)
    (hnum : ∀ j, pc' = .loadCursor j ∨ pc' = .bump j → j = n ∨ j = 0 ∧ n ≤ k)
    (hstart : ∀ i st, pc' = .loadStop i st → st = (S.getD i default).start)
    (hnone : none ∈ got → pc'.taken = none ∧ ∀ j, pc' ≠ .bump j) : ClaimerOk S n k pc' got :=
  ⟨hnum, hstart, fun hn => ⟨(h.after_none hn).1, hnone hn⟩, h.shape⟩

/-- 用意の後の窓の不変条件。 -/
structure Window (S : Array MemRange) (n : Nat) (R : List Nat) (σ : Claiming)
    (rs : List RootReply) : Prop where
  slots : σ.roots.slots = S
  not_aborted : σ.roots.aborted = false
  /-- 範囲の数は用意のときのままか、すべてを渡し終えて走査を終えた後の 0。 -/
  count : σ.roots.count = n ∨ σ.roots.count = 0 ∧ n ≤ σ.roots.claimed
  claimer : ∀ c, ClaimerOk S n σ.roots.claimed (σ.pcs c) (claimsOf c rs)
  regions_eq : regions rs = R.map (S.getD · default)
  nodup : R.Nodup
  given_not_taken : ∀ i ∈ R, ∀ c, (σ.pcs c).taken ≠ some i
  taken_unique : ∀ c c' i, (σ.pcs c).taken = some i → (σ.pcs c').taken = some i → c = c'
  /-- 返した番号と取った番号は、位置と `n` の小さい方より前の番号をちょうど覆う。 -/
  covers : ∀ i, (i ∈ R ∨ ∃ c, (σ.pcs c).taken = some i) ↔ i < min σ.roots.claimed n

theorem count_of_le (h : σ.roots.count = n ∨ σ.roots.count = 0 ∧ n ≤ σ.roots.claimed)
    (hcount : σ'.roots.count = σ.roots.count) (hk : σ.roots.claimed ≤ σ'.roots.claimed) :
    σ'.roots.count = n ∨ σ'.roots.count = 0 ∧ n ≤ σ'.roots.claimed := by
  rcases h with h | h
  · exact .inl (hcount.trans h)
  · exact .inr ⟨hcount.trans h.1, le_trans h.2 hk⟩

theorem Window.quiet (hw : Window S n R σ rs) {y : RootReply}
    (hroots : σ'.roots = { σ.roots with claimed := σ'.roots.claimed })
    (hk : σ.roots.claimed ≤ σ'.roots.claimed) (hmin : min σ'.roots.claimed n = min σ.roots.claimed n)
    (hpcs : ∀ c', c' ≠ c → σ'.pcs c' = σ.pcs c') (htaken : (σ'.pcs c).taken = (σ.pcs c).taken)
    (hy : regions [y] = []) (hyc : ∀ c', c' ≠ c → claimsOf c' [y] = [])
    (hc : ClaimerOk S n σ'.roots.claimed (σ'.pcs c) (claimsOf c (rs ++ [y]))) :
    Window S n R σ' (rs ++ [y]) := by
  have htk : ∀ c', (σ'.pcs c').taken = (σ.pcs c').taken := by
    intro c'
    rcases eq_or_ne c' c with rfl | hc'
    · exact htaken
    · rw [hpcs c' hc']
  refine ⟨by rw [hroots, hw.slots], by rw [hroots, hw.not_aborted], ?_, fun c' => ?_,
    by rw [regions_append, hy, List.append_nil, hw.regions_eq], hw.nodup,
    fun i hi c' => by rw [htk]; exact hw.given_not_taken i hi c',
    fun c₁ c₂ i => by rw [htk, htk]; exact hw.taken_unique c₁ c₂ i,
    fun i => by simp only [htk, hmin]; exact hw.covers i⟩
  · exact count_of_le hw.count (by rw [hroots]) hk
  · rcases eq_or_ne c' c with rfl | hc'
    · exact hc
    · rw [hpcs c' hc', claimsOf_append, hyc c' hc', List.append_nil]
      exact (hw.claimer c').mono hk

theorem Window.take (hw : Window S n R σ rs)
    (hroots : σ'.roots = { σ.roots with claimed := σ.roots.claimed + 1 })
    (hlt : σ.roots.claimed < n) (hpcs : ∀ c', c' ≠ c → σ'.pcs c' = σ.pcs c')
    (hnone : (σ.pcs c).taken = none) (htaken : (σ'.pcs c).taken = some σ.roots.claimed)
    (hc : ClaimerOk S n σ'.roots.claimed (σ'.pcs c) (claimsOf c rs)) :
    Window S n R σ' (rs ++ [.done]) := by
  have hk : σ'.roots.claimed = σ.roots.claimed + 1 := by rw [hroots]
  -- 位置より前の番号は返したか取ったもので、位置の番号はまだ誰のものでもない
  have hfresh : ∀ c', (σ.pcs c').taken ≠ some σ.roots.claimed := fun c' h =>
    absurd ((hw.covers _).1 (.inr ⟨c', h⟩)) (by omega)
  have hnotR : σ.roots.claimed ∉ R := fun h => absurd ((hw.covers _).1 (.inl h)) (by omega)
  have htk : ∀ c' i, (σ'.pcs c').taken = some i ↔
      (σ.pcs c').taken = some i ∨ c' = c ∧ i = σ.roots.claimed := by
    intro c' i
    rcases eq_or_ne c' c with rfl | hc'
    · simp [htaken, hnone, eq_comm]
    · simp [hpcs c' hc', hc']
  refine ⟨by rw [hroots, hw.slots], by rw [hroots, hw.not_aborted],
    count_of_le hw.count (by rw [hroots]) (by omega), fun c' => ?_,
    by rw [regions_append, regions_done, List.append_nil, hw.regions_eq], hw.nodup, ?_, ?_, fun i => ?_⟩
  · rcases eq_or_ne c' c with rfl | hc'
    · simpa using hc
    · rw [hpcs c' hc', claimsOf_append, claimsOf_done, List.append_nil]
      exact (hw.claimer c').mono (by omega)
  · intro i hi c' h
    rcases (htk c' i).1 h with h | ⟨-, rfl⟩
    · exact hw.given_not_taken i hi c' h
    · exact hnotR hi
  · intro c₁ c₂ i h₁ h₂
    rcases (htk c₁ i).1 h₁ with h₁ | ⟨hc₁, hi₁⟩ <;> rcases (htk c₂ i).1 h₂ with h₂ | ⟨hc₂, hi₂⟩
    · exact hw.taken_unique _ _ _ h₁ h₂
    · exact absurd (hi₂ ▸ h₁) (hfresh _)
    · exact absurd (hi₁ ▸ h₂) (hfresh _)
    · rw [hc₁, hc₂]
  · rw [hk, show min (σ.roots.claimed + 1) n = σ.roots.claimed + 1 by omega]
    simp only [htk]
    constructor
    · rintro (hi | ⟨c', hc' | ⟨-, rfl⟩⟩)
      · have := (hw.covers i).1 (.inl hi)
        omega
      · have := (hw.covers i).1 (.inr ⟨c', hc'⟩)
        omega
      · omega
    · intro hi
      by_cases hlt' : i < σ.roots.claimed
      · rcases (hw.covers i).2 (by omega) with h | ⟨c', h⟩
        · exact .inl h
        · exact .inr ⟨c', .inl h⟩
      · exact .inr ⟨c, .inr ⟨rfl, by omega⟩⟩

/-- claimer `c` が取った番号 `i` の範囲を返す一歩。 -/
theorem Window.give (hw : Window S n R σ rs) {i : Nat} (hroots : σ'.roots = σ.roots)
    (hpcs : ∀ c', c' ≠ c → σ'.pcs c' = σ.pcs c') (hi : (σ.pcs c).taken = some i)
    (hidle : (σ'.pcs c).taken = none)
    (hc : ClaimerOk S n σ'.roots.claimed (σ'.pcs c)
      (claimsOf c (rs ++ [.claimed c (some (S.getD i default))]))) :
    Window S n (R ++ [i]) σ' (rs ++ [.claimed c (some (S.getD i default))]) := by
  have hiR : i ∉ R := fun h => hw.given_not_taken i h c hi
  have htk : ∀ c' j, (σ'.pcs c').taken = some j ↔ (σ.pcs c').taken = some j ∧ c' ≠ c := by
    intro c' j
    rcases eq_or_ne c' c with rfl | hc'
    · simp [hidle]
    · simp [hpcs c' hc', hc']
  refine ⟨by rw [hroots, hw.slots], by rw [hroots, hw.not_aborted], by rw [hroots]; exact hw.count,
    fun c' => ?_, by simp [hw.regions_eq], ?_, ?_, ?_, fun j => ?_⟩
  · rcases eq_or_ne c' c with rfl | hc'
    · exact hc
    · rw [hpcs c' hc', claimsOf_append, claimsOf_claimed, if_neg (Ne.symm hc'), List.append_nil,
        hroots]
      exact hw.claimer c'
  · simp only [List.nodup_append, hw.nodup, List.nodup_singleton, List.mem_singleton, true_and]
    rintro a ha _ rfl rfl
    exact hiR ha
  · intro j hj c' h
    rw [htk] at h
    rcases List.mem_append.1 hj with hj | hj
    · exact hw.given_not_taken j hj c' h.1
    · rw [List.mem_singleton] at hj
      subst hj
      exact h.2 (hw.taken_unique _ _ _ h.1 hi)
  · intro c₁ c₂ j h₁ h₂
    rw [htk] at h₁ h₂
    exact hw.taken_unique _ _ _ h₁.1 h₂.1
  · rw [hroots, ← hw.covers j]
    simp only [htk, List.mem_append, List.mem_singleton]
    constructor
    · rintro ((h | rfl) | ⟨c', h, -⟩)
      · exact .inl h
      · exact .inr ⟨c, hi⟩
      · exact .inr ⟨c', h⟩
    · rintro (h | ⟨c', h⟩)
      · exact .inl (.inl h)
      · rcases eq_or_ne c' c with rfl | hc'
        · rw [hi, Option.some.injEq] at h
          exact .inl (.inr h.symm)
        · exact .inr ⟨c', h, hc'⟩

theorem Window.claim (hw : Window S n R σ rs) (h : σ.step (.claim c) = .ok (y, σ')) :
    ∃ R', Window S n R' σ' (rs ++ [y]) := by
  rw [step_claim] at h
  cases h
  have hcl := hw.claimer c
  have hpcs : ∀ {p : ClaimPc} c', c' ≠ c → (if c' = c then p else σ.pcs c') = σ.pcs c' :=
    fun _ hc' => if_neg hc'
  have hyc : ∀ {r : Option MemRange} c', c' ≠ c → claimsOf c' [.claimed c r] = [] :=
    fun _ hc' => by simp [Ne.symm hc']
  cases hpc : σ.pcs c with
  | idle =>
    -- 中断されていないので、範囲の数を読みに進む
    rw [hpc] at hcl
    simp only [claimStep, hw.not_aborted, Bool.false_eq_true, if_false, Option.map_none, Option.getD_none]
    refine ⟨R, hw.quiet rfl le_rfl rfl hpcs (by simp [hpc]) rfl (fun _ _ => rfl) ?_⟩
    simp only [if_true, claimsOf_append, claimsOf_done, List.append_nil]
    exact hcl.move (by rintro _ (h | h) <;> cases h) (by rintro _ _ ⟨⟩) fun _ => ⟨rfl, fun _ => nofun⟩
  | loadCount =>
    rw [hpc] at hcl
    simp only [claimStep, Option.map_none, Option.getD_none]
    refine ⟨R, hw.quiet rfl le_rfl rfl hpcs (by simp [hpc]) rfl (fun _ _ => rfl) ?_⟩
    simp only [if_true, claimsOf_append, claimsOf_done, List.append_nil]
    refine hcl.move ?_ (by rintro _ _ ⟨⟩) fun _ => ⟨rfl, fun _ => nofun⟩
    rintro j (h | h) <;> cases h
    exact hw.count
  | loadCursor num =>
    rw [hpc] at hcl
    -- 読んだ数は用意のときの数か 0 で、どちらでも位置がそこに届いていればすべてを渡し終えている
    have hnum := hcl.num num (.inl rfl)
    simp only [claimStep]
    split_ifs with hle
    · simp only [Option.map_some, Option.getD_some]
      refine ⟨R, hw.quiet rfl le_rfl rfl hpcs (by simp [hpc]) (by simp) hyc ?_⟩
      simp only [if_true, claimsOf_append, claimsOf_claimed]
      exact hcl.idle_none (by omega)
    · simp only [Option.map_none, Option.getD_none]
      refine ⟨R, hw.quiet rfl le_rfl rfl hpcs (by simp [hpc]) rfl (fun _ _ => rfl) ?_⟩
      simp only [if_true, claimsOf_append, claimsOf_done, List.append_nil]
      refine hcl.move ?_ (by rintro _ _ ⟨⟩) fun hn => absurd (hcl.after_none hn).1 (by omega)
      rintro j (h | h) <;> cases h
      exact hnum
  | bump num =>
    rw [hpc] at hcl
    have hnum := hcl.num num (.inr rfl)
    simp only [claimStep]
    split_ifs with hlt
    · -- 位置の番号を取る
      simp only [Option.map_none, Option.getD_none]
      refine ⟨R, hw.take rfl (by omega) hpcs (by simp [hpc]) (by simp) ?_⟩
      simp only [if_true]
      refine (hcl.mono (Nat.le_succ _)).move (by rintro _ (h | h) <;> cases h) (by rintro _ _ ⟨⟩)
        fun hn => absurd rfl ((hcl.after_none hn).2.2 num)
    · -- 他の claimer が先に位置を進めていた：何も返さない
      simp only [Option.map_some, Option.getD_some]
      have hmin : min (σ.roots.claimed + 1) n = min σ.roots.claimed n := by omega
      refine ⟨R, hw.quiet rfl (Nat.le_succ _) hmin hpcs (by simp [hpc]) (by simp) hyc ?_⟩
      simp only [if_true, claimsOf_append, claimsOf_claimed]
      exact hcl.idle_none (show n ≤ σ.roots.claimed + 1 by omega)
  | loadStart idx =>
    rw [hpc] at hcl
    simp only [claimStep, Option.map_none, Option.getD_none]
    refine ⟨R, hw.quiet rfl le_rfl rfl hpcs (by simp [hpc]) rfl (fun _ _ => rfl) ?_⟩
    simp only [if_true, claimsOf_append, claimsOf_done, List.append_nil]
    refine hcl.move (by rintro _ (h | h) <;> cases h) ?_ fun hn => nomatch (hcl.after_none hn).2.1
    rintro i st ⟨⟩
    rw [hw.slots]
  | loadStop idx st =>
    rw [hpc] at hcl
    -- 読んだ始まりと終わりは、取った番号の枠のもの
    have hr : (⟨st, (σ.roots.slots.getD idx default).stop⟩ : MemRange) = S.getD idx default := by
      rw [hcl.start idx st rfl, hw.slots]
    simp only [claimStep, Option.map_some, Option.getD_some, hr]
    refine ⟨R ++ [idx], hw.give rfl hpcs (by simp [hpc]) (by simp) ?_⟩
    simp only [if_true, claimsOf_append, claimsOf_claimed]
    exact hcl.idle_some nofun _

theorem Window.frame (hw : Window S n R σ rs) (hpcs : σ'.pcs = σ.pcs)
    (hroots : σ'.roots = { σ.roots with count := σ'.roots.count, scanning := σ'.roots.scanning })
    (hcount : σ'.roots.count = n ∨ σ'.roots.count = 0 ∧ n ≤ σ'.roots.claimed) :
    Window S n R σ' (rs ++ [.done]) := by
  have hk : σ'.roots.claimed = σ.roots.claimed := by rw [hroots]
  refine ⟨by rw [hroots, hw.slots], by rw [hroots, hw.not_aborted], hcount, fun c => ?_,
    by simp [hw.regions_eq], hw.nodup, ?_, ?_, fun i => ?_⟩
  · rw [hpcs, hk, claimsOf_append, claimsOf_done, List.append_nil]
    exact hw.claimer c
  · rw [hpcs]
    exact hw.given_not_taken
  · rw [hpcs]
    exact hw.taken_unique
  · rw [hpcs, hk]
    exact hw.covers i

theorem Window.step (hw : Window S n R σ rs) (hx : x.keepsSet = true)
    (h : σ.step x = .ok (y, σ')) : ∃ R', Window S n R' σ' (rs ++ [y]) := by
  cases x with
  | claim c => exact hw.claim h
  | finish =>
    obtain ⟨hf, rfl, hpcs⟩ := step_finish_ok h
    obtain ⟨hle, hr⟩ := finish_eq_ok.1 hf
    -- 中断されていないので、走査を終えられるのはすべてを渡し終えた後
    have hn : n ≤ σ.roots.claimed := by
      rcases hle with ha | hle
      · simp [hw.not_aborted] at ha
      · rcases hw.count with h | h
        · omega
        · exact h.2
    exact ⟨R, hw.frame hpcs (by rw [hr]) (.inr ⟨by rw [hr], by rw [hr]; exact hn⟩)⟩
  | cancel =>
    cases h
    exact ⟨R, hw.frame rfl rfl hw.count⟩
  | add | reset | prepare | abort => simp [RootCall.keepsSet] at hx

theorem Window.run (hw : Window S n R σ rs) {w : List RootCall} {rs' : List RootReply}
    (hx : ∀ x ∈ w, x.keepsSet = true) (h : σ.run w = .ok (rs', σ')) :
    ∃ R', Window S n R' σ' (rs ++ rs') :=
  run_preserves (P := fun σ rs => ∃ R, Window S n R σ rs)
    (fun hxw hP h => hP.elim fun _ hw => hw.step (hx _ hxw) h) ⟨R, hw⟩ h

theorem Window.prepare (hidle : ∀ c, σ.pcs c = .idle) (h : σ.step .prepare = .ok (y, σ')) :
    Window σ.roots.slots σ.roots.count [] σ' [] := by
  obtain ⟨hp, -, hpcs⟩ := step_prepare_ok h
  obtain ⟨-, hr⟩ := prepare_eq_ok.1 hp
  refine ⟨by rw [hr], by rw [hr], .inl (by rw [hr]), fun c => ?_, rfl, List.nodup_nil, by simp, ?_,
    fun i => ?_⟩
  · rw [hpcs, hidle c]
    exact ClaimerOk.idle_nil
  · intro c c' i h
    simp [hpcs, hidle] at h
  · simp [hr, hpcs, hidle]

theorem Window.regions_subperm (hw : Window S n R σ rs) :
    (regions rs).Subperm ((List.range n).map (S.getD · default)) := by
  rw [hw.regions_eq]
  refine List.subperm_map _ (hw.nodup.subperm fun i hi => List.mem_range.2 ?_)
  exact lt_of_lt_of_le ((hw.covers i).1 (.inl hi)) (min_le_right _ _)

/-- すべての claimer が呼び出しの外にいて、誰かが何も受け取らなかったなら、返した範囲はちょうど
持っていた範囲。 -/
theorem Window.regions_perm (hw : Window S n R σ rs) (hidle : ∀ c, σ.pcs c = .idle)
    (hnone : ∃ c, none ∈ claimsOf c rs) :
    (regions rs).Perm ((List.range n).map (S.getD · default)) := by
  obtain ⟨c, hc⟩ := hnone
  -- 何も受け取らなかったなら、位置はすべてを渡し終えている
  have hn := ((hw.claimer c).after_none hc).1
  have hR : R.Subperm (List.range n) := hw.nodup.subperm fun i hi =>
    List.mem_range.2 (lt_of_lt_of_le ((hw.covers i).1 (.inl hi)) (min_le_right _ _))
  have hrange : (List.range n).Subperm R := List.nodup_range.subperm fun i hi => by
    rcases (hw.covers i).2 (by rw [List.mem_range] at hi; omega) with h | ⟨c', h⟩
    · exact h
    · simp [hidle] at h
  rw [hw.regions_eq]
  exact (hR.antisymm hrange).map _

/-! ## claimer が 1 つのとき -/

/-- claimer `c` だけが歩むときの、`c` の位置と取り出しの位置の関係。`j` は `c` が終えた呼び出しの数。 -/
def SoloAt (n claimed j : Nat) : ClaimPc → Prop
  | .idle | .loadCount | .loadCursor _ => claimed = min j n
  | .bump _ => claimed = j ∧ j < n
  | .loadStart i | .loadStop i _ => i = j ∧ claimed = j + 1

/-- claimer `c` は、用意のときに持っていた範囲を加えた順に受け取り、その後は何も受け取らない。 -/
def Solo (S : Array MemRange) (n c : Nat) (σ : Claiming) (rs : List RootReply) : Prop :=
  ∃ j, claimsOf c rs = (List.range j).map (((List.range n).map (S.getD · default))[·]?) ∧
    SoloAt n σ.roots.claimed j (σ.pcs c)

theorem getElem?_map_range {f : Nat → MemRange} {i : Nat} :
    ((List.range n).map f)[i]? = if i < n then some (f i) else none := by
  split_ifs with h <;> simp [h]

theorem range_succ_map_held {f : Nat → MemRange} {j : Nat} :
    (List.range (j + 1)).map (((List.range n).map f)[·]?) =
      (List.range j).map (((List.range n).map f)[·]?) ++ [if j < n then some (f j) else none] := by
  rw [List.range_succ, List.map_append, List.map_singleton, getElem?_map_range]

theorem Solo.claim (hs : Solo S n c σ rs) (hw : Window S n R σ rs)
    (h : σ.step (.claim c) = .ok (y, σ')) : Solo S n c σ' (rs ++ [y]) := by
  obtain ⟨j, hj, hat⟩ := hs
  rw [step_claim] at h
  cases h
  have hcl := hw.claimer c
  cases hpc : σ.pcs c with
  | idle =>
    rw [hpc] at hat
    simp only [claimStep, hw.not_aborted, Bool.false_eq_true, if_false, Option.map_none, Option.getD_none]
    exact ⟨j, by simpa using hj, by simpa [SoloAt] using hat⟩
  | loadCount =>
    rw [hpc] at hat
    simp only [claimStep, Option.map_none, Option.getD_none]
    exact ⟨j, by simpa using hj, by simpa [SoloAt] using hat⟩
  | loadCursor num =>
    rw [hpc] at hat hcl
    have hnum := hcl.num num (.inl rfl)
    simp only [SoloAt] at hat
    simp only [claimStep]
    split_ifs with hle
    · -- 位置が読んだ数に届いている：すべてを受け取り終えている
      have hjn : n ≤ j := by omega
      refine ⟨j + 1, ?_, by simp [SoloAt]; omega⟩
      simp only [Option.map_some, Option.getD_some]
      rw [claimsOf_append, claimsOf_claimed, if_pos rfl, hj, range_succ_map_held, if_neg (by omega)]
    · refine ⟨j, by simpa using hj, ?_⟩
      simp only [SoloAt, if_true]
      omega
  | bump num =>
    rw [hpc] at hat hcl
    have hnum := hcl.num num (.inr rfl)
    simp only [SoloAt] at hat
    simp only [claimStep]
    -- 他の claimer が位置を進めないので、比べた位置をそのまま取る
    rw [if_pos (by omega)]
    refine ⟨j, by simpa using hj, ?_⟩
    simp only [SoloAt, if_true]
    omega
  | loadStart idx =>
    rw [hpc] at hat
    simp only [claimStep, Option.map_none, Option.getD_none]
    exact ⟨j, by simpa using hj, by simpa [SoloAt] using hat⟩
  | loadStop idx st =>
    rw [hpc] at hat hcl
    simp only [SoloAt] at hat
    obtain ⟨rfl, hk⟩ := hat
    -- 取った番号は `n` より前
    have hlt : idx < n := by
      have := (hw.covers idx).1 (.inr ⟨c, by rw [hpc]; rfl⟩)
      omega
    have hr : (⟨st, (σ.roots.slots.getD idx default).stop⟩ : MemRange) = S.getD idx default := by
      rw [hcl.start idx st rfl, hw.slots]
    simp only [claimStep, Option.map_some, Option.getD_some, hr]
    refine ⟨idx + 1, ?_, by simp [SoloAt]; omega⟩
    rw [claimsOf_append, claimsOf_claimed, if_pos rfl, hj, range_succ_map_held, if_pos hlt]

theorem Solo.step (hs : Solo S n c σ rs) (hw : Window S n R σ rs) (hx : x.keepsSet = true)
    (hc : x.claimer = none ∨ x.claimer = some c) (h : σ.step x = .ok (y, σ')) :
    Solo S n c σ' (rs ++ [y]) := by
  cases x with
  | claim c' =>
    obtain rfl : c' = c := by simpa [RootCall.claimer] using hc
    exact hs.claim hw h
  | finish =>
    obtain ⟨hf, rfl, hpcs⟩ := step_finish_ok h
    obtain ⟨j, hj, hat⟩ := hs
    refine ⟨j, by simpa using hj, ?_⟩
    rw [hpcs, (finish_eq_ok.1 hf).2]
    exact hat
  | cancel =>
    cases h
    obtain ⟨j, hj, hat⟩ := hs
    exact ⟨j, by simpa using hj, hat⟩
  | add | reset | prepare | abort => simp [RootCall.keepsSet] at hx

/-- 用意の後、claimer `c` のほかの claimer が歩まないあいだ、`c` は持っていた範囲を加えた順に受け取る。
窓の不変条件と組にして運ぶ。 -/
theorem Solo.run (hs : Solo S n c σ rs) (hw : Window S n R σ rs) {w : List RootCall}
    {rs' : List RootReply} (hx : ∀ x ∈ w, x.keepsSet = true ∧ (x.claimer = none ∨ x.claimer = some c))
    (h : σ.run w = .ok (rs', σ')) : Solo S n c σ' (rs ++ rs') :=
  (run_preserves (P := fun σ rs => (∃ R, Window S n R σ rs) ∧ Solo S n c σ rs)
    (fun hxw hP h => hP.1.elim fun _ hw =>
      ⟨hw.step (hx _ hxw).1 h, hP.2.step hw (hx _ hxw).1 (hx _ hxw).2 h⟩) ⟨⟨R, hw⟩, hs⟩ h).2

theorem Solo.prepare (hidle : ∀ c, σ.pcs c = .idle) (h : σ.step .prepare = .ok (y, σ')) :
    Solo σ.roots.slots σ.roots.count c σ' [] := by
  obtain ⟨hp, -, hpcs⟩ := step_prepare_ok h
  refine ⟨0, rfl, ?_⟩
  rw [hpcs, hidle c, (prepare_eq_ok.1 hp).2]
  simp [SoloAt]

end Window

/-! ## ちょうど 1 回ずつ -/

/-- 容量 `m` の集合への呼び出しと claimer たちの原子的な歩みが入り混じる、どの走りについても：

* 加えることは、走査が走っていれば止まり、そうでなければ `m` より少ないときに限り範囲を後ろに足す。
* claimer が読む枠は枠の中にある。
* 割り込まれない呼び出しは `RootRegions.claim` の 1 回の呼び出し。
* 呼び出しの途中の claimer がいないときの用意の後、集合を変えない歩みだけが続くあいだ、返す範囲は
  用意のときに持っていた範囲の部分多重集合で、どの claimer も範囲の後に何も受け取らないことだけを
  続け、すべての claimer が呼び出しの外にいて誰かが何も受け取らなかったならちょうど持っていた範囲を
  返しており、歩む claimer が 1 つなら持っていた範囲を加えた順に受け取る。
* 中断のフラグは最後の中断の後に用意がないときに限り立ち、そのあいだに始めた呼び出しは何も変えずに
  何も返さない。
* 走査は、範囲を持っていた用意の後に終わりも取り消しもないときに限り走っている。 -/
theorem claims_each_root_region_once (m : Nat) :
    (∀ (calls : List RootCall) (rs : List RootReply) (σ : Claiming) (r : MemRange),
      (new m).run calls = .ok (rs, σ) →
      (σ.roots.scanning = true →
        σ.step (.add r) = .error (.violated "root regions added while a scan is in progress")) ∧
      (σ.roots.scanning = false →
        ∃ σ', σ.step (.add r) = .ok (.added (decide (σ.roots.held.length < m)), σ') ∧
          σ'.roots.held = (if σ.roots.held.length < m then σ.roots.held ++ [r] else σ.roots.held) ∧
          σ'.pcs = σ.pcs)) ∧
    (∀ (calls : List RootCall) (rs : List RootReply) (σ : Claiming) (c i st : Nat),
      (new m).run calls = .ok (rs, σ) →
      σ.pcs c = .loadStart i ∨ σ.pcs c = .loadStop i st → i < σ.roots.slots.size) ∧
    (∀ (calls : List RootCall) (rs : List RootReply) (σ : Claiming) (c : Nat),
      (new m).run calls = .ok (rs, σ) → σ.pcs c = .idle →
      ∃ k, σ.run (List.replicate (k + 1) (.claim c)) =
        .ok (List.replicate k RootReply.done ++ [.claimed c σ.roots.claim.1], ⟨σ.roots.claim.2, σ.pcs⟩)) ∧
    (∀ (pre : List RootCall) (rs₀ : List RootReply) (σ₀ σ₁ : Claiming) (w : List RootCall)
        (rs : List RootReply) (σ : Claiming),
      (new m).run pre = .ok (rs₀, σ₀) → (∀ c, σ₀.pcs c = .idle) →
      σ₀.step .prepare = .ok (.done, σ₁) → (∀ x ∈ w, x.keepsSet = true) →
      σ₁.run w = .ok (rs, σ) →
      (regions rs).Subperm σ₀.roots.held ∧
      (∀ c, ∃ (xs : List MemRange) (k : Nat), claimsOf c rs = xs.map some ++ List.replicate k none) ∧
      ((∀ c, σ.pcs c = .idle) → (∃ c, none ∈ claimsOf c rs) → (regions rs).Perm σ₀.roots.held) ∧
      (∀ c, (∀ x ∈ w, x.claimer = none ∨ x.claimer = some c) →
        ∃ j, claimsOf c rs = (List.range j).map (σ₀.roots.held[·]?))) ∧
    (∀ (calls : List RootCall) (rs : List RootReply) (σ : Claiming),
      (new m).run calls = .ok (rs, σ) →
      (σ.roots.aborted = true ↔ ∃ pre post, calls = pre ++ RootCall.abort :: post ∧ .prepare ∉ post) ∧
      (σ.roots.aborted = true → ∀ c, σ.pcs c = .idle →
        σ.step (.claim c) = .ok (.claimed c none, σ))) ∧
    (∀ (calls : List RootCall) (rs : List RootReply) (σ : Claiming),
      (new m).run calls = .ok (rs, σ) →
      (σ.roots.scanning = true ↔ ∃ pre post, calls = pre ++ RootCall.prepare :: post ∧
        .finish ∉ post ∧ .cancel ∉ post ∧
        ∀ rs₀ σ₀, (new m).run pre = .ok (rs₀, σ₀) → σ₀.roots.held ≠ [])) := by
  refine ⟨fun _ _ _ r h => (inv_of_run h).add_spec r, fun _ _ σ c i st h hpc => ?_,
    fun _ _ _ _ h hc => run_claim_uninterrupted (inv_of_run h) hc,
    fun pre rs₀ σ₀ σ₁ w rs σ h₀ hidle hp hw hr => ?_,
    fun _ _ _ h => ⟨aborted_iff h, fun ha _ hc => step_claim_of_aborted ha hc⟩,
    fun _ _ _ h => scanning_iff h⟩
  · have hi := inv_of_run h
    have hin := hi.within c
    rw [hi.size]
    rcases hpc with hpc | hpc <;> rw [hpc] at hin <;> exact hin
  · have hi := inv_of_run h₀
    -- 用意のときに持っていた範囲は、枠の初めから範囲の数だけを読んだもの
    rw [held_eq_map_range (by rw [hi.size]; exact hi.count_le)]
    obtain ⟨R, hwin⟩ := (Window.prepare hidle hp).run hw hr
    rw [List.nil_append] at hwin
    refine ⟨hwin.regions_subperm, fun c => (hwin.claimer c).shape,
      fun hidle' hnone => hwin.regions_perm hidle' hnone, fun c hc => ?_⟩
    obtain ⟨j, hj, -⟩ := (Solo.prepare (c := c) hidle hp).run (Window.prepare hidle hp)
      (fun x hx => ⟨hw x hx, hc x hx⟩) hr
    exact ⟨j, by simpa using hj⟩

/-- 範囲を持つ用意の後に加えることは止まる。範囲を持たない用意では走査は走らず、その後に加えた範囲も
渡す。中断の前に位置を取った呼び出しは、中断の後でも範囲を返す。前の走査で範囲の数を読んだまま次の
用意を越えた呼び出しは、次の用意のときの数を越えて位置を取り、もう持っていない範囲を返す。 -/
theorem add_during_scan_panics_and_late_add_is_claimed :
    (new 2).run [.add ⟨4096, 6144⟩, .prepare, .add ⟨8192, 10240⟩] =
      .error (.violated "root regions added while a scan is in progress") ∧
    (∃ σ, (new 1).run
        [.prepare, .add ⟨4096, 6144⟩, .claim 0, .claim 0, .claim 0, .claim 0, .claim 0, .claim 0] =
      .ok ([.done, .added true, .done, .done, .done, .done, .done,
        .claimed 0 (some ⟨4096, 6144⟩)], σ)) ∧
    (∃ σ, (new 1).run
        [.add ⟨4096, 6144⟩, .prepare, .claim 0, .claim 0, .claim 0, .claim 0, .claim 0, .abort, .claim 0] =
      .ok ([.added true, .done, .done, .done, .done, .done, .done, .done,
        .claimed 0 (some ⟨4096, 6144⟩)], σ)) ∧
    (∃ σ, (new 2).run
        [.add ⟨4096, 6144⟩, .add ⟨8192, 10240⟩, .prepare, .claim 0, .claim 0, .abort, .finish,
          .add ⟨12288, 14336⟩, .prepare, .claim 1, .claim 1, .claim 1, .claim 1, .claim 1, .claim 1,
          .claim 0, .claim 0, .claim 0, .claim 0] =
      .ok ([.added true, .added true, .done, .done, .done, .done, .done, .added true, .done,
        .done, .done, .done, .done, .done, .claimed 1 (some ⟨12288, 14336⟩),
        .done, .done, .done, .claimed 0 (some ⟨8192, 10240⟩)], σ)) :=
  ⟨rfl, ⟨_, rfl⟩, ⟨_, rfl⟩, ⟨_, rfl⟩⟩

end Claiming

end RegionMark
