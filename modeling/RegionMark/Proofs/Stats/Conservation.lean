import Mathlib
import RegionMark.Proofs.Stats.Cache
import RegionMark.Proofs.TaskQueue.Refinement
import RegionMark.Script.Liveness

/-!
# 直接写像のキャッシュは数を失わない

呼び出しの並びを、新しいものから並べた履歴から読んだ仕様と比べる。枠の中身は最後の書き戻し以来の加算で
決まり、リージョンごとの数は、語の大きさを法として、はじめの数と加えた数の和に等しい。
-/

namespace RegionMark

open Script

/-! ## 数える量 -/

/-- 表とキャッシュが数える 2 つの量。 -/
inductive Counter where
  | live
  | incoming
  deriving DecidableEq, Repr

namespace Counter

/-- 生きた語と入ってくる参照の組から、この量を選ぶ。 -/
def pick : Counter → Nat → Nat → Nat
  | live, l, _ => l
  | incoming, _, i => i

/-- 表のリージョン `r` のこの量。 -/
def ofTable : Counter → RegionStats → Nat → Nat
  | live, g, r => g.liveWords r
  | incoming, g, r => g.incomingRefs r

/-- 枠がリージョン `r` についてまだ書き戻していないこの量。 -/
def ofSlot (k : Counter) (r : Nat) (s : CacheSlot) : Nat :=
  if s.region = some r then k.pick s.live s.incoming else 0

@[simp] theorem ofSlot_default (k : Counter) (r : Nat) : k.ofSlot r default = 0 := rfl

end Counter

/-- キャッシュがリージョン `r` の量として持つもの：枠 `r % 枠の数` が `r` を持つときの、その量。 -/
def StatsCache.cachedFor (c : StatsCache) (k : Counter) (r : Nat) : Nat :=
  k.ofSlot r (c.slots.getD (c.slotOf r) default)

namespace RegionStats

theorem add_incomingRefs {g g' : RegionStats} {r l i : Nat} (h : g.add r l i = .ok g') (r' : Nat) :
    g'.incomingRefs r' ≡ g.incomingRefs r' + (if r' = r then i else 0) [MOD Word.bound] := by
  unfold add at h
  simp only [bind, Except.bind, pure, Except.pure] at h
  split at h
  · cases h
  · split at h
    · cases h
    · rename_i is hi
      cases h
      exact bump_getD hi r'

theorem add_count {g g' : RegionStats} {r l i : Nat} (h : g.add r l i = .ok g') (k : Counter)
    (r' : Nat) : k.ofTable g' r' ≡ k.ofTable g r' + (if r' = r then k.pick l i else 0) [MOD Word.bound] := by
  cases k with
  | live => exact add_liveWords h r'
  | incoming => exact add_incomingRefs h r'

/-- 表にリージョン `r` の行がある。 -/
def HasRow (g : RegionStats) (r : Nat) : Prop := r < g.live.size ∧ r < g.incoming.size

theorem size_of_bump {xs ys : Array Nat} {r d : Nat} (h : bump xs r d = .ok ys) : ys.size = xs.size := by
  unfold bump at h
  split at h
  · cases h
    rfl
  · split at h
    · cases h
      simp
    · cases h

theorem bump_ok {xs : Array Nat} {r : Nat} (hr : r < xs.size) (d : Nat) : ∃ ys, bump xs r d = .ok ys := by
  unfold bump
  by_cases hd : d = 0
  · exact ⟨xs, by simp [hd]⟩
  · exact ⟨xs.modify r (Word.wrapAdd · d), by simp [hd, hr]⟩

theorem add_ok {g : RegionStats} {r : Nat} (hr : g.HasRow r) (l i : Nat) : ∃ g', g.add r l i = .ok g' := by
  obtain ⟨ls, hls⟩ := bump_ok hr.1 l
  obtain ⟨is, his⟩ := bump_ok hr.2 i
  exact ⟨⟨ls, is⟩, by simp [add, hls, his, bind, Except.bind, pure, Except.pure]⟩

theorem hasRow_of_add {g g' : RegionStats} {r l i : Nat} (h : g.add r l i = .ok g') (r' : Nat) :
    g'.HasRow r' ↔ g.HasRow r' := by
  unfold add at h
  simp only [bind, Except.bind, pure, Except.pure] at h
  split at h
  · cases h
  · rename_i ls hls
    split at h
    · cases h
    · rename_i is his
      cases h
      simp [HasRow, size_of_bump hls, size_of_bump his]

end RegionStats

/-! ## 呼び出しの履歴 -/

/-- キャッシュを通す呼び出し。 -/
inductive CacheCall where
  | live (r words : Nat)
  | incoming (r : Nat)
  | evictAll
  | reset
  deriving DecidableEq, Repr

/-- キャッシュを通した 1 回の加算：リージョンと、生きた語と入ってくる参照の量。 -/
structure CacheAdd where
  region : Nat
  live : Nat
  incoming : Nat
  deriving DecidableEq, Repr

/-- 加算のこの量。 -/
def CacheAdd.count (t : CacheAdd) (k : Counter) : Nat := k.pick t.live t.incoming

namespace CacheCall

/-- 統計のスクリプトでのこの呼び出し。 -/
def op : CacheCall → StatsOp
  | live r w => .live r w
  | incoming r => .incoming r
  | evictAll => .evictAll
  | reset => .reset

/-- 加算の呼び出しの加える量。書き戻しと捨てることは何も加えない。 -/
def add? : CacheCall → Option CacheAdd
  | live r w => some ⟨r, w, 0⟩
  | incoming r => some ⟨r, 0, 1⟩
  | _ => none

end CacheCall

namespace StatsCache

/-- 最後の書き戻しか捨てたとき以来の加算。 -/
def epoch : List CacheCall → List CacheAdd
  | [] => []
  | c :: h =>
    match c.add? with
    | some t => t :: epoch h
    | none => []

/-- `n` 個の枠の枠 `i` を持つリージョン：そこに入る加算のうち最も新しいもののリージョン。 -/
def occupant (n i : Nat) : List CacheAdd → Option Nat
  | [] => none
  | t :: e => if t.region % n = i then some t.region else occupant n i e

/-- `r` の枠にまだ残る `r` の量：その枠に入る最も新しい加算から、`r` のものが続くかぎりの和。 -/
def held (k : Counter) (n r : Nat) : List CacheAdd → Nat
  | [] => 0
  | t :: e =>
    if t.region % n = r % n then (if t.region = r then t.count k + held k n r e else 0)
    else held k n r e

/-- 加算の並びが言う、枠 `i` の中身。 -/
def slotAfter (n i : Nat) (e : List CacheAdd) : CacheSlot :=
  match occupant n i e with
  | none => default
  | some r => ⟨some r, held .live n r e, held .incoming n r e⟩

/-- 外れの数：加算のうち、その前に枠が自分のリージョンを持っていなかったもの。 -/
def missCount (n : Nat) : List CacheAdd → Nat
  | [] => 0
  | t :: e => missCount n e + if occupant n (t.region % n) e = some t.region then 0 else 1

/-- 履歴のすべての加算が、リージョン `r` のこの量に加えた和。 -/
def added (k : Counter) (r : Nat) (h : List CacheCall) : Nat :=
  ((h.filterMap CacheCall.add?).map fun t => if t.region = r then t.count k else 0).sum

/-- 捨てるたびに、そのときキャッシュが `r` のこの量として持っていたものの和。 -/
def dropped (k : Counter) (n r : Nat) : List CacheCall → Nat
  | [] => 0
  | c :: h => (if c = .reset then held k n r (epoch h) else 0) + dropped k n r h

/-! ## 履歴の仕様の性質 -/

section Spec

variable {k : Counter} {n : Nat}

theorem epoch_of_add {c : CacheCall} {t : CacheAdd} (h : List CacheCall) (hc : c.add? = some t) :
    epoch (c :: h) = t :: epoch h := by
  simp [epoch, hc]

theorem epoch_of_none {c : CacheCall} (h : List CacheCall) (hc : c.add? = none) :
    epoch (c :: h) = [] := by
  simp [epoch, hc]

theorem added_cons_of_add {c : CacheCall} {t : CacheAdd} (r : Nat) (h : List CacheCall)
    (hc : c.add? = some t) :
    added k r (c :: h) = (if t.region = r then t.count k else 0) + added k r h := by
  simp [added, hc]

theorem added_cons_of_none {c : CacheCall} (r : Nat) (h : List CacheCall) (hc : c.add? = none) :
    added k r (c :: h) = added k r h := by
  simp [added, hc]

theorem dropped_cons_of_ne {c : CacheCall} (r : Nat) (h : List CacheCall) (hc : c ≠ .reset) :
    dropped k n r (c :: h) = dropped k n r h := by
  simp [dropped, hc]

/-- 枠 `i` を持つリージョンは、その枠に入る。 -/
theorem occupant_mod {i r : Nat} : ∀ {e : List CacheAdd}, occupant n i e = some r → r % n = i
  | [], h => by simp [occupant] at h
  | t :: e, h => by
    unfold occupant at h
    split at h
    · rename_i ht
      cases h
      exact ht
    · exact occupant_mod h

/-- `r` の枠が `r` を持たなければ、キャッシュに `r` の量は残らない。 -/
theorem held_eq_zero {r : Nat} : ∀ {e : List CacheAdd}, occupant n (r % n) e ≠ some r → held k n r e = 0
  | [], _ => rfl
  | t :: e, h => by
    unfold occupant at h
    unfold held
    by_cases hs : t.region % n = r % n
    · have ht : t.region ≠ r := fun ht => h (by rw [if_pos hs, ht])
      rw [if_pos hs, if_neg ht]
    · rw [if_neg hs] at h ⊢
      exact held_eq_zero h

@[simp] theorem slotAfter_nil (i : Nat) : slotAfter n i [] = default := rfl

theorem region_slotAfter (i : Nat) (e : List CacheAdd) : (slotAfter n i e).region = occupant n i e := by
  unfold slotAfter
  split
  · rename_i hnone
    rw [hnone]
    rfl
  · rename_i r hr
    rw [hr]

theorem slotAfter_of_occupant {i r : Nat} {e : List CacheAdd} (h : occupant n i e = some r) :
    slotAfter n i e = ⟨some r, held .live n r e, held .incoming n r e⟩ := by
  simp [slotAfter, h]

theorem ofSlot_slotAfter (r i : Nat) (e : List CacheAdd) :
    k.ofSlot r (slotAfter n i e) = if r % n = i then held k n r e else 0 := by
  unfold slotAfter
  split
  · rename_i hnone
    split
    · rename_i hi
      subst hi
      rw [Counter.ofSlot_default, held_eq_zero (by rw [hnone]; simp)]
    · rfl
  · rename_i o ho
    unfold Counter.ofSlot
    by_cases hr : o = r
    · subst hr
      cases k <;> simp [occupant_mod ho, Counter.pick]
    · rw [if_neg (by simpa using hr)]
      split
      · rename_i hi
        rw [held_eq_zero (by rw [hi, ho]; simpa using hr)]
      · rfl

theorem slotAfter_cons_of_ne {t : CacheAdd} {i : Nat} (e : List CacheAdd) (hi : t.region % n ≠ i) :
    slotAfter n i (t :: e) = slotAfter n i e := by
  have hocc : occupant n i (t :: e) = occupant n i e := by simp [occupant, hi]
  unfold slotAfter
  rw [hocc]
  split
  · rfl
  · rename_i r hr
    have hne : t.region % n ≠ r % n := by rw [occupant_mod hr]; exact hi
    simp [held, hne]

/-- 加算の入る枠は、そのリージョンと、新しい量に前から残っていた量を足したものを持つ。 -/
theorem slotAfter_cons_self (t : CacheAdd) (e : List CacheAdd) :
    slotAfter n (t.region % n) (t :: e) =
      ⟨some t.region, t.live + held .live n t.region e, t.incoming + held .incoming n t.region e⟩ := by
  simp [slotAfter, occupant, held, CacheAdd.count, Counter.pick]

theorem held_cons_of_hit {t : CacheAdd} {e : List CacheAdd} (hit : occupant n (t.region % n) e = some t.region)
    (r : Nat) : held k n r (t :: e) = held k n r e + if t.region = r then t.count k else 0 := by
  by_cases hr : t.region = r
  · subst hr
    simp only [held, if_true]
    omega
  · by_cases hs : t.region % n = r % n
    · -- 同じ枠の別のリージョンは、枠を持っていないので残る量がない
      have hz : held k n r e = 0 := held_eq_zero (by rw [← hs, hit]; simpa using hr)
      simp [held, hs, hr, hz]
    · simp [held, hs, hr]

/-- 枠が別のリージョンを持っていた（か空だった）加算は、そのリージョンの残る量を書き戻して 0 にし、
加算のリージョンの残る量を加算の量にする。 -/
theorem held_cons_of_miss {t : CacheAdd} {e : List CacheAdd} (miss : occupant n (t.region % n) e ≠ some t.region)
    (r : Nat) : held k n r (t :: e) + k.ofSlot r (slotAfter n (t.region % n) e) =
      held k n r e + if t.region = r then t.count k else 0 := by
  rw [ofSlot_slotAfter]
  by_cases hr : t.region = r
  · subst hr
    have hz : held k n t.region e = 0 := held_eq_zero miss
    simp only [held, if_true, hz]
    omega
  · by_cases hs : t.region % n = r % n
    · simp [held, hs, hr]
    · simp [held, hs, hr, Ne.symm hs]

/-- 枠を持つリージョンは、加算のどれかのリージョン。 -/
theorem mem_of_occupant {i r : Nat} : ∀ {e : List CacheAdd}, occupant n i e = some r → ∃ t ∈ e, t.region = r
  | [], h => by simp [occupant] at h
  | t :: e, h => by
    unfold occupant at h
    split at h
    · cases h
      exact ⟨t, List.mem_cons_self, rfl⟩
    · obtain ⟨t', ht', hr⟩ := mem_of_occupant h
      exact ⟨t', List.mem_cons_of_mem _ ht', hr⟩

/-- 最後の書き戻し以来の加算は、どれも履歴の呼び出しの加算。 -/
theorem mem_of_mem_epoch {t : CacheAdd} : ∀ {h : List CacheCall}, t ∈ epoch h → ∃ c ∈ h, c.add? = some t
  | [], ht => by simp [epoch] at ht
  | c :: h, ht => by
    cases hc : c.add? with
    | none => simp [epoch_of_none h hc] at ht
    | some t' =>
      rw [epoch_of_add h hc, List.mem_cons] at ht
      rcases ht with rfl | ht
      · exact ⟨c, List.mem_cons_self, hc⟩
      · obtain ⟨c', hc', ht'⟩ := mem_of_mem_epoch ht
        exact ⟨c', List.mem_cons_of_mem _ hc', ht'⟩

end Spec

end StatsCache

/-- 呼び出しのリージョンに、表 `g` の行がある。書き戻しと捨てることはリージョンを持たない。 -/
def CacheCall.Within (g : RegionStats) (c : CacheCall) : Prop := ∀ t ∈ c.add?, g.HasRow t.region

/-- 呼び出しが、キャッシュの持つ数を語に収めること：加算の後のリージョンの枠の数が語に収まる。 -/
def CacheCall.Fits (n : Nat) (e : List CacheAdd) : CacheCall → Prop
  | live r w => StatsCache.held .live n r e + w < Word.bound
  | incoming r => StatsCache.held .incoming n r e + 1 < Word.bound
  | evictAll => True
  | reset => True

/-! ## キャッシュの操作 -/

namespace StatsCache

/-- `update` の成り行き：当たりなら枠に `f` を施し、外れなら前の持ち主の量を表に書き戻してから、`r` の
新しい枠に `f` を施す。 -/
theorem update_cases {c c' : StatsCache} {g g' : RegionStats} {r : Nat}
    {f : CacheSlot → Except Panic CacheSlot} (h : c.update g r f = .ok (c', g')) :
    (((c.slots.getD (c.slotOf r) default).region = some r ∧ ∃ e',
        f (c.slots.getD (c.slotOf r) default) = .ok e' ∧
        c' = ⟨c.slots.setIfInBounds (c.slotOf r) e', c.hits + 1, c.misses⟩ ∧ g' = g) ∨
      ((c.slots.getD (c.slotOf r) default).region ≠ some r ∧ ∃ e', f { region := some r } = .ok e' ∧
        c' = ⟨c.slots.setIfInBounds (c.slotOf r) e', c.hits, c.misses + 1⟩ ∧
        ∀ (k : Counter) r', k.ofTable g' r' ≡
          k.ofTable g r' + k.ofSlot r' (c.slots.getD (c.slotOf r) default) [MOD Word.bound])) := by
  unfold update at h
  dsimp only at h
  generalize c.slots.getD (c.slotOf r) default = e at h ⊢
  by_cases hr : e.region = some r
  · -- 当たり
    rw [if_pos hr] at h
    cases hfe : f e with
    | error => simp [hfe, bind, Except.bind] at h
    | ok e' =>
      simp only [hfe, bind, Except.bind, pure, Except.pure, Except.ok.injEq, Prod.mk.injEq] at h
      exact .inl ⟨hr, e', rfl, h.1.symm, h.2.symm⟩
  · -- 外れ：前の持ち主があれば書き戻す
    rw [if_neg hr] at h
    simp only [bind, Except.bind, pure, Except.pure] at h
    split at h
    · rename_i old hold
      split at h
      · cases h
      · rename_i hg₁
        split at h
        · cases h
        · rename_i e' hfe
          cases h
          refine .inr ⟨hr, e', hfe, rfl, fun k r' => ?_⟩
          have hk := RegionStats.add_count hg₁ k r'
          by_cases ho : r' = old
          · subst ho
            simpa [Counter.ofSlot, hold] using hk
          · simpa [Counter.ofSlot, hold, ho, Ne.symm ho] using hk
    · rename_i hnone
      split at h
      · cases h
      · rename_i e' hfe
        cases h
        exact .inr ⟨hr, e', hfe, rfl, fun k r' => by simp [Counter.ofSlot, hnone, Nat.ModEq.refl]⟩

/-- 枠を 1 つずつ表に書き戻す畳み込みは、どちらの量も、書き戻した枠の量の和だけ増やす。 -/
theorem foldlM_writeBack_count {wb : RegionStats → CacheSlot → Except Panic RegionStats} (k : Counter)
    (hwb : ∀ g s g', wb g s = .ok g' →
      ∀ r', k.ofTable g' r' ≡ k.ofTable g r' + k.ofSlot r' s [MOD Word.bound]) :
    ∀ (slots : List CacheSlot) (g g' : RegionStats), slots.foldlM wb g = .ok g' →
      ∀ r', k.ofTable g' r' ≡ k.ofTable g r' + (slots.map (k.ofSlot r')).sum [MOD Word.bound]
  | [], g, g', h, r' => by
    cases h
    simp [Nat.ModEq.refl]
  | s :: slots, g, g', h, r' => by
    simp only [List.foldlM_cons, bind, Except.bind] at h
    split at h
    · cases h
    · rename_i g₁ hg₁
      calc k.ofTable g' r'
          ≡ k.ofTable g₁ r' + (slots.map (k.ofSlot r')).sum [MOD Word.bound] :=
            foldlM_writeBack_count k hwb slots g₁ g' h r'
        _ ≡ k.ofTable g r' + k.ofSlot r' s + (slots.map (k.ofSlot r')).sum [MOD Word.bound] :=
            (hwb g s g₁ hg₁ r').add_right _
        _ = k.ofTable g r' + ((s :: slots).map (k.ofSlot r')).sum := by
          simp only [List.map_cons, List.sum_cons, Nat.add_assoc]

/-- すべての書き戻しは、当たりと外れを答え、枠を空にして数え直し、表のどちらの量も枠の量の和だけ
増やす。 -/
theorem evictAll_cases {c c' : StatsCache} {g g' : RegionStats} {hm : Nat × Nat}
    (h : c.evictAll g = .ok (hm, c', g')) :
    hm = (c.hits, c.misses) ∧ c' = ⟨c.slots.map fun _ => default, 0, 0⟩ ∧
      ∀ (k : Counter) r, k.ofTable g' r ≡
        k.ofTable g r + (c.slots.toList.map (k.ofSlot r)).sum [MOD Word.bound] := by
  unfold evictAll at h
  simp only [bind, Except.bind, pure, Except.pure] at h
  split at h
  · cases h
  · rename_i hfold
    cases h
    refine ⟨rfl, rfl, fun k r => ?_⟩
    rw [← Array.foldlM_toList] at hfold
    refine foldlM_writeBack_count k (fun g s g₁ hs r' => ?_) c.slots.toList g g' hfold r
    split at hs
    · rename_i old hold
      have hk := RegionStats.add_count hs k r'
      by_cases ho : r' = old
      · subst ho
        simpa [Counter.ofSlot, hold] using hk
      · simpa [Counter.ofSlot, hold, ho, Ne.symm ho] using hk
    · rename_i hnone
      cases hs
      simp [Counter.ofSlot, hnone, Nat.ModEq.refl]

/-- `update` は表の行を変えない。 -/
theorem hasRow_of_update {c c' : StatsCache} {g g' : RegionStats} {r : Nat}
    {f : CacheSlot → Except Panic CacheSlot} (h : c.update g r f = .ok (c', g')) (r' : Nat) :
    g'.HasRow r' ↔ g.HasRow r' := by
  unfold update at h
  dsimp only at h
  split at h
  · simp only [bind, Except.bind, pure, Except.pure] at h
    split at h
    · cases h
    · cases h
      exact Iff.rfl
  · simp only [bind, Except.bind, pure, Except.pure] at h
    split at h
    · split at h
      · cases h
      · rename_i hadd
        split at h
        · cases h
        · cases h
          exact RegionStats.hasRow_of_add hadd r'
    · split at h
      · cases h
      · cases h
        exact Iff.rfl

/-- 持ち主に行があるかぎり、`update` の成否は枠に施す `f` だけで決まる：当たりなら今の枠に、外れなら
`r` の新しい枠に施して失敗しないこと。 -/
theorem update_ok_iff {c : StatsCache} {g : RegionStats} {r : Nat} {f : CacheSlot → Except Panic CacheSlot}
    (hrow : ∀ o, (c.slots.getD (c.slotOf r) default).region = some o → g.HasRow o) :
    (∃ c' g', c.update g r f = .ok (c', g')) ↔
      if (c.slots.getD (c.slotOf r) default).region = some r then
        ∃ e', f (c.slots.getD (c.slotOf r) default) = .ok e'
      else ∃ e', f { region := some r } = .ok e' := by
  unfold update
  dsimp only
  generalize c.slots.getD (c.slotOf r) default = e at hrow ⊢
  by_cases hr : e.region = some r
  · rw [if_pos hr, if_pos hr]
    cases hfe : f e with
    | error => simp [bind, Except.bind]
    | ok e' => simp [bind, Except.bind, pure, Except.pure]
  · -- 外れ：前の持ち主があれば、その書き戻しは失敗しない
    rw [if_neg hr, if_neg hr]
    simp only [bind, Except.bind]
    cases ho : e.region with
    | none =>
      cases hfe : f { region := some r } with
      | error => simp [pure, Except.pure]
      | ok e' => simp [pure, Except.pure]
    | some o =>
      obtain ⟨g₁, hg₁⟩ := RegionStats.add_ok (hrow o ho) e.live e.incoming
      cases hfe : f { region := some r } with
      | error => simp [hg₁]
      | ok e' => simp [hg₁, pure, Except.pure]

/-- 枠を 1 つずつ書き戻す畳み込みは、どの持ち主にも行があれば失敗しない。 -/
theorem foldlM_writeBack_ne_error {wb : RegionStats → CacheSlot → Except Panic RegionStats}
    (hwb : ∀ g e, (∀ o, e.region = some o → g.HasRow o) →
      ∃ g', wb g e = .ok g' ∧ ∀ r, g'.HasRow r ↔ g.HasRow r) :
    ∀ (slots : List CacheSlot) (g : RegionStats),
      (∀ e ∈ slots, ∀ o, e.region = some o → g.HasRow o) → ∀ {err : Panic}, slots.foldlM wb g ≠ .error err
  | [], g, _, _, h => by cases h
  | e :: slots, g, hrow, _, h => by
    obtain ⟨g₁, hg₁, hrows⟩ := hwb g e (hrow e List.mem_cons_self)
    simp only [List.foldlM_cons, hg₁, bind, Except.bind] at h
    exact foldlM_writeBack_ne_error hwb slots g₁
      (fun e' he' o ho => (hrows o).2 (hrow e' (List.mem_cons_of_mem _ he') o ho)) h

/-- 枠を 1 つずつ書き戻す畳み込みは、表の行を変えない。 -/
theorem hasRow_of_foldlM_writeBack {wb : RegionStats → CacheSlot → Except Panic RegionStats}
    (hwb : ∀ g e g', wb g e = .ok g' → ∀ r, g'.HasRow r ↔ g.HasRow r) :
    ∀ (slots : List CacheSlot) (g g' : RegionStats), slots.foldlM wb g = .ok g' →
      ∀ r, g'.HasRow r ↔ g.HasRow r
  | [], g, g', h, r => by
    cases h
    exact Iff.rfl
  | e :: slots, g, g', h, r => by
    simp only [List.foldlM_cons, bind, Except.bind] at h
    split at h
    · cases h
    · rename_i g₁ hg₁
      exact (hasRow_of_foldlM_writeBack hwb slots g₁ g' h r).trans (hwb g e g₁ hg₁ r)

theorem evictAll_ok {c : StatsCache} {g : RegionStats}
    (hrow : ∀ e ∈ c.slots.toList, ∀ o, e.region = some o → g.HasRow o) : ∃ p, c.evictAll g = .ok p := by
  unfold evictAll
  simp only [bind, Except.bind, pure, Except.pure]
  rw [← Array.foldlM_toList]
  split
  · rename_i err hfold
    refine (foldlM_writeBack_ne_error (fun g e hrow' => ?_) c.slots.toList g hrow hfold).elim
    split
    · rename_i o ho
      obtain ⟨g', hg'⟩ := RegionStats.add_ok (hrow' o ho) e.live e.incoming
      exact ⟨g', hg', RegionStats.hasRow_of_add hg'⟩
    · exact ⟨g, rfl, fun _ => Iff.rfl⟩
  · exact ⟨_, rfl⟩

theorem hasRow_of_evictAll {c c' : StatsCache} {g g' : RegionStats} {hm : Nat × Nat}
    (h : c.evictAll g = .ok (hm, c', g')) (r : Nat) : g'.HasRow r ↔ g.HasRow r := by
  unfold evictAll at h
  simp only [bind, Except.bind, pure, Except.pure] at h
  split at h
  · cases h
  · rename_i hfold
    cases h
    rw [← Array.foldlM_toList] at hfold
    refine hasRow_of_foldlM_writeBack (fun g e g₁ hs r => ?_) c.slots.toList g g' hfold r
    split at hs
    · exact RegionStats.hasRow_of_add hs r
    · cases hs
      exact Iff.rfl

theorem new_eq_ok {n : Nat} {c : StatsCache} (h : StatsCache.new n = .ok c) :
    0 < n ∧ c = ⟨Array.replicate n default, 0, 0⟩ := by
  unfold StatsCache.new at h
  split at h
  · rename_i hp
    cases h
    exact ⟨Nat.pos_of_isPowerOfTwo (Word.isPow2_iff.1 hp), rfl⟩
  · cases h

end StatsCache

namespace Script

/-- 加算の呼び出しは、加算のリージョンの `update` で、枠の量に加算の量を足す。 -/
theorem statsStep_add {s s' : CachedStats} {call : CacheCall} {t : CacheAdd} {v : Option (Nat × Nat)}
    (hc : call.add? = some t) (h : statsStep s call.op = .ok (v, s')) :
    ∃ f : CacheSlot → Except Panic CacheSlot,
      s.cache.update s.table t.region f = .ok (s'.cache, s'.table) ∧
      ∀ e e', f e = .ok e' → e' = ⟨e.region, e.live + t.live, e.incoming + t.incoming⟩ := by
  cases call with
  | live r w =>
    cases hc
    cases hx : s.cache.addLive s.table r w with
    | error => simp [CacheCall.op, statsStep, hx, bind, Except.bind] at h
    | ok p =>
      obtain ⟨c, g⟩ := p
      simp only [CacheCall.op, statsStep, hx, bind, Except.bind, pure, Except.pure, Except.ok.injEq,
        Prod.mk.injEq] at h
      obtain ⟨-, rfl⟩ := h
      refine ⟨_, hx, fun e e' he => ?_⟩
      by_cases hw : e.live + w < Word.bound
      · simp only [Word.add, hw, ↓reduceIte, bind, Except.bind, pure, Except.pure,
          Except.ok.injEq] at he
        simp [← he]
      · simp [Word.add, hw, bind, Except.bind] at he
  | incoming r =>
    cases hc
    cases hx : s.cache.addIncoming s.table r with
    | error => simp [CacheCall.op, statsStep, hx, bind, Except.bind] at h
    | ok p =>
      obtain ⟨c, g⟩ := p
      simp only [CacheCall.op, statsStep, hx, bind, Except.bind, pure, Except.pure, Except.ok.injEq,
        Prod.mk.injEq] at h
      obtain ⟨-, rfl⟩ := h
      refine ⟨_, hx, fun e e' he => ?_⟩
      by_cases hw : e.incoming + 1 < Word.bound
      · simp only [Word.add, hw, ↓reduceIte, bind, Except.bind, pure, Except.pure,
          Except.ok.injEq] at he
        simp [← he]
      · simp [Word.add, hw, bind, Except.bind] at he
  | evictAll => cases hc
  | reset => cases hc

theorem statsStep_evictAll {s s' : CachedStats} {v : Option (Nat × Nat)}
    (h : statsStep s CacheCall.evictAll.op = .ok (v, s')) :
    ∃ hm, v = some hm ∧ s.cache.evictAll s.table = .ok (hm, s'.cache, s'.table) := by
  cases hx : s.cache.evictAll s.table with
  | error => simp [CacheCall.op, statsStep, hx, bind, Except.bind] at h
  | ok p =>
    obtain ⟨hm, c, g⟩ := p
    simp only [CacheCall.op, statsStep, hx, bind, Except.bind, pure, Except.pure, Except.ok.injEq,
      Prod.mk.injEq] at h
    obtain ⟨rfl, rfl⟩ := h
    exact ⟨hm, rfl, rfl⟩

theorem statsStep_reset {s s' : CachedStats} {v : Option (Nat × Nat)}
    (h : statsStep s CacheCall.reset.op = .ok (v, s')) : s' = ⟨s.cache.reset, s.table⟩ := by
  simp only [CacheCall.op, statsStep, pure, Except.pure, Except.ok.injEq, Prod.mk.injEq] at h
  exact h.2.symm

end Script

/-! ## 履歴どおりの状態 -/

namespace StatsCache

/-- 状態 `s` が、`n` 個の枠の新しいキャッシュと表 `g₀` から、履歴 `h` で来たとおりであること：枠の
中身、当たりと外れの数、リージョンごとの数の勘定が、履歴の言うとおり。 -/
structure Tracks (n : Nat) (g₀ : RegionStats) (h : List CacheCall) (s : CachedStats) : Prop where
  pos : 0 < n
  size : s.cache.slots.size = n
  slot : ∀ i < n, s.cache.slots.getD i default = slotAfter n i (epoch h)
  calls : s.cache.hits + s.cache.misses = (epoch h).length
  misses : s.cache.misses = missCount n (epoch h)
  ledger : ∀ k r, k.ofTable s.table r + held k n r (epoch h) + dropped k n r h ≡
    k.ofTable g₀ r + added k r h [MOD Word.bound]
  rows : ∀ r, s.table.HasRow r ↔ g₀.HasRow r

namespace Tracks

variable {n : Nat} {g₀ : RegionStats} {h : List CacheCall} {s s' : CachedStats}

theorem slotOf_eq (hs : Tracks n g₀ h s) (r : Nat) : s.cache.slotOf r = r % n := by
  rw [slotOf, hs.size]

theorem cachedFor_eq (hs : Tracks n g₀ h s) (k : Counter) (r : Nat) :
    s.cache.cachedFor k r = held k n r (epoch h) := by
  rw [cachedFor, hs.slotOf_eq, hs.slot _ (Nat.mod_lt _ hs.pos), ofSlot_slotAfter, if_pos rfl]

theorem sum_ofSlot (hs : Tracks n g₀ h s) (k : Counter) (r : Nat) :
    (s.cache.slots.toList.map (k.ofSlot r)).sum = held k n r (epoch h) := by
  have hl : s.cache.slots.toList = List.ofFn fun i : Fin n => slotAfter n i (epoch h) := by
    apply List.ext_getElem
    · simp [hs.size]
    · intro i h₁ h₂
      have hi : i < n := by simpa using h₂
      rw [List.getElem_ofFn, ← hs.slot i hi, Array.getElem_toList, Array.getD_eq_getD_getElem?,
        Array.getElem?_eq_getElem (hs.size ▸ hi), Option.getD_some]
  rw [hl, List.map_ofFn, List.sum_ofFn]
  rw [Finset.sum_eq_single ⟨r % n, Nat.mod_lt _ hs.pos⟩]
  · simp [ofSlot_slotAfter]
  · intro j _ hj
    have hne : r % n ≠ j := fun he => hj (Fin.ext he.symm)
    simp [ofSlot_slotAfter, hne]
  · intro hmem
    exact absurd (Finset.mem_univ _) hmem

theorem start {c : StatsCache} (hnew : StatsCache.new n = .ok c) : Tracks n g₀ [] ⟨c, g₀⟩ := by
  obtain ⟨hpos, rfl⟩ := new_eq_ok hnew
  refine ⟨hpos, by simp, fun i hi => ?_, rfl, rfl, fun k r => ?_, fun _ => Iff.rfl⟩
  · simp [Array.getD_eq_getD_getElem?, hi, epoch]
  · simp [epoch, held, dropped, added, Nat.ModEq.refl]

/-- 履歴に加えた量 `x` は、表とキャッシュと捨てた数の和と、はじめの表と加えた量の和の両方に入る。 -/
theorem ledger_add (hs : Tracks n g₀ h s) (k : Counter) (r x : Nat) :
    k.ofTable s.table r + held k n r (epoch h) + dropped k n r h + x ≡
      k.ofTable g₀ r + (x + added k r h) [MOD Word.bound] :=
  calc k.ofTable s.table r + held k n r (epoch h) + dropped k n r h + x
      ≡ k.ofTable g₀ r + added k r h + x [MOD Word.bound] := (hs.ledger k r).add_right _
    _ = k.ofTable g₀ r + (x + added k r h) := by omega

/-- 加算は、履歴のとおりを保つ。 -/
theorem add (hs : Tracks n g₀ h s) {call : CacheCall} {t : CacheAdd} {v : Option (Nat × Nat)}
    (hc : call.add? = some t) (hstep : statsStep s call.op = .ok (v, s')) :
    Tracks n g₀ (call :: h) s' := by
  obtain ⟨f, hu, hf⟩ := Script.statsStep_add hc hstep
  have hi : t.region % n < n := Nat.mod_lt _ hs.pos
  have hslot : s.cache.slots.getD (s.cache.slotOf t.region) default =
      slotAfter n (t.region % n) (epoch h) := by
    rw [hs.slotOf_eq]
    exact hs.slot _ hi
  have hreset : call ≠ .reset := by
    rintro rfl
    cases hc
  have hE : epoch (call :: h) = t :: epoch h := epoch_of_add h hc
  have hrows : ∀ r, s'.table.HasRow r ↔ g₀.HasRow r := fun r => (hasRow_of_update hu r).trans (hs.rows r)
  rcases update_cases hu with ⟨hr, e', hfe, hc', hg'⟩ | ⟨hr, e', hfe, hc', hg'⟩
  · -- 当たり：枠は `t` のリージョンを持ち続け、その量が増える
    rw [hslot, region_slotAfter] at hr
    rw [hslot] at hfe
    have he' := hf _ _ hfe
    rw [slotAfter_of_occupant hr] at he'
    refine ⟨hs.pos, by rw [hc']; simp [hs.size], fun j hj => ?_, ?_, ?_, fun k r => ?_, hrows⟩
    · rw [hE, hc', hs.slotOf_eq, Array.getD_setIfInBounds _ _ _ _ (hs.size ▸ hi)]
      split
      · rename_i hij
        subst hij
        rw [he', slotAfter_cons_self]
        simp [Nat.add_comm]
      · rw [slotAfter_cons_of_ne _ ‹_›, hs.slot j hj]
    · rw [hE, hc', List.length_cons, ← hs.calls]
      dsimp only
      omega
    · rw [hE, hc', hs.misses]
      simp [missCount, hr]
    · rw [hE, hg', held_cons_of_hit hr, dropped_cons_of_ne r h hreset, added_cons_of_add r h hc]
      calc k.ofTable s.table r + (held k n r (epoch h) + if t.region = r then t.count k else 0) +
            dropped k n r h
          = k.ofTable s.table r + held k n r (epoch h) + dropped k n r h +
              if t.region = r then t.count k else 0 := by omega
        _ ≡ k.ofTable g₀ r + ((if t.region = r then t.count k else 0) + added k r h)
            [MOD Word.bound] := hs.ledger_add k r _
  · -- 外れ：前の持ち主の量は表に移り、枠は `t` のリージョンの新しい枠になる
    rw [hslot, region_slotAfter] at hr
    have he' := hf _ _ hfe
    refine ⟨hs.pos, by rw [hc']; simp [hs.size], fun j hj => ?_, ?_, ?_, fun k r => ?_, hrows⟩
    · rw [hE, hc', hs.slotOf_eq, Array.getD_setIfInBounds _ _ _ _ (hs.size ▸ hi)]
      split
      · rename_i hij
        subst hij
        rw [he', slotAfter_cons_self, held_eq_zero hr, held_eq_zero hr]
        simp
      · rw [slotAfter_cons_of_ne _ ‹_›, hs.slot j hj]
    · rw [hE, hc', List.length_cons, ← hs.calls]
      dsimp only
      omega
    · rw [hE, hc', hs.misses]
      simp [missCount, hr]
    · have hheld := held_cons_of_miss (k := k) hr r
      have htab := hg' k r
      rw [hslot] at htab
      rw [hE, dropped_cons_of_ne r h hreset, added_cons_of_add r h hc]
      calc k.ofTable s'.table r + held k n r (t :: epoch h) + dropped k n r h
          ≡ k.ofTable s.table r + k.ofSlot r (slotAfter n (t.region % n) (epoch h)) +
              held k n r (t :: epoch h) + dropped k n r h [MOD Word.bound] :=
            (htab.add_right _).add_right _
        _ = k.ofTable s.table r + held k n r (epoch h) + dropped k n r h +
              if t.region = r then t.count k else 0 := by omega
        _ ≡ k.ofTable g₀ r + ((if t.region = r then t.count k else 0) + added k r h)
            [MOD Word.bound] := hs.ledger_add k r _

/-- すべての書き戻しは、当たりと外れの数を答え、履歴のとおりを保つ。 -/
theorem evictAll (hs : Tracks n g₀ h s) {v : Option (Nat × Nat)}
    (hstep : statsStep s CacheCall.evictAll.op = .ok (v, s')) :
    v = some (s.cache.hits, s.cache.misses) ∧ Tracks n g₀ (.evictAll :: h) s' := by
  obtain ⟨hm, rfl, hev⟩ := Script.statsStep_evictAll hstep
  obtain ⟨rfl, hc', hg'⟩ := evictAll_cases hev
  have hnil : epoch (.evictAll :: h) = [] := epoch_of_none h rfl
  refine ⟨rfl, hs.pos, by rw [hc']; simp [hs.size], fun j hj => ?_, by rw [hc', hnil]; rfl,
    by rw [hc', hnil]; rfl, fun k r => ?_, fun r => (hasRow_of_evictAll hev r).trans (hs.rows r)⟩
  · rw [hc', hnil]
    simp [Array.getD_eq_getD_getElem?, hs.size, hj]
  · rw [hnil, dropped_cons_of_ne r h (by simp), added_cons_of_none r h rfl]
    calc k.ofTable s'.table r + held k n r [] + dropped k n r h
        ≡ k.ofTable s.table r + held k n r (epoch h) + dropped k n r h [MOD Word.bound] := by
          rw [← hs.sum_ofSlot k r]
          simpa [held] using (hg' k r).add_right (dropped k n r h)
      _ ≡ k.ofTable g₀ r + added k r h [MOD Word.bound] := hs.ledger k r

theorem reset (hs : Tracks n g₀ h s) {v : Option (Nat × Nat)}
    (hstep : statsStep s CacheCall.reset.op = .ok (v, s')) : Tracks n g₀ (.reset :: h) s' := by
  obtain rfl := Script.statsStep_reset hstep
  have hnil : epoch (.reset :: h) = [] := epoch_of_none h rfl
  refine ⟨hs.pos, by simp [StatsCache.reset, hs.size], fun j hj => ?_, by rw [hnil]; rfl,
    by rw [hnil]; rfl, fun k r => ?_, hs.rows⟩
  · rw [hnil]
    simp [StatsCache.reset, Array.getD_eq_getD_getElem?, hs.size, hj]
  · rw [hnil, added_cons_of_none r h rfl]
    simpa [held, dropped, Nat.add_assoc] using hs.ledger k r

theorem hasRow_of_region (hs : Tracks n g₀ h s) (hw : ∀ c ∈ h, c.Within g₀) {i o : Nat}
    (ho : (s.cache.slots.getD i default).region = some o) : s.table.HasRow o := by
  by_cases hi : i < n
  · rw [hs.slot i hi, region_slotAfter] at ho
    obtain ⟨t, ht, rfl⟩ := mem_of_occupant ho
    obtain ⟨c, hc, hct⟩ := mem_of_mem_epoch ht
    exact (hs.rows _).2 (hw c hc t hct)
  · rw [Array.getD_eq_getD_getElem?, Array.getElem?_eq_none (by rw [hs.size]; omega)] at ho
    cases ho

theorem live_ok_iff (hs : Tracks n g₀ h s) (hw : ∀ c ∈ h, c.Within g₀) (r w : Nat) :
    (∃ c' g', s.cache.addLive s.table r w = .ok (c', g')) ↔ held .live n r (epoch h) + w < Word.bound := by
  have hslot : s.cache.slots.getD (s.cache.slotOf r) default = slotAfter n (r % n) (epoch h) := by
    rw [hs.slotOf_eq]
    exact hs.slot _ (Nat.mod_lt _ hs.pos)
  unfold addLive
  rw [update_ok_iff fun o ho => hs.hasRow_of_region hw ho, hslot, region_slotAfter]
  by_cases hocc : occupant n (r % n) (epoch h) = some r
  · rw [if_pos hocc, slotAfter_of_occupant hocc]
    by_cases hb : held .live n r (epoch h) + w < Word.bound
    · simp [Word.add, hb, bind, Except.bind, pure, Except.pure]
    · simp [Word.add, hb, bind, Except.bind]
  · rw [if_neg hocc, held_eq_zero hocc, Nat.zero_add]
    by_cases hb : w < Word.bound
    · simp [Word.add, hb, bind, Except.bind, pure, Except.pure]
    · simp [Word.add, hb, bind, Except.bind]

/-- 入ってくる参照を加える呼び出しは、リージョンの枠の参照の数が語に収まるときに限って失敗しない。 -/
theorem incoming_ok_iff (hs : Tracks n g₀ h s) (hw : ∀ c ∈ h, c.Within g₀) (r : Nat) :
    (∃ c' g', s.cache.addIncoming s.table r = .ok (c', g')) ↔
      held .incoming n r (epoch h) + 1 < Word.bound := by
  have hslot : s.cache.slots.getD (s.cache.slotOf r) default = slotAfter n (r % n) (epoch h) := by
    rw [hs.slotOf_eq]
    exact hs.slot _ (Nat.mod_lt _ hs.pos)
  unfold addIncoming
  rw [update_ok_iff fun o ho => hs.hasRow_of_region hw ho, hslot, region_slotAfter]
  by_cases hocc : occupant n (r % n) (epoch h) = some r
  · rw [if_pos hocc, slotAfter_of_occupant hocc]
    by_cases hb : held .incoming n r (epoch h) + 1 < Word.bound
    · simp [Word.add, hb, bind, Except.bind, pure, Except.pure]
    · simp [Word.add, hb, bind, Except.bind]
  · rw [if_neg hocc, held_eq_zero hocc]
    simp [Word.add, bind, Except.bind, pure, Except.pure, Word.bound]

theorem step_ok_iff (hs : Tracks n g₀ h s) (hw : ∀ c ∈ h, c.Within g₀) (call : CacheCall) :
    (∃ v s', statsStep s call.op = .ok (v, s')) ↔ call.Fits n (epoch h) := by
  cases call with
  | live r w =>
    rw [CacheCall.Fits, ← hs.live_ok_iff hw]
    constructor
    · rintro ⟨v, s', hstep⟩
      cases hx : s.cache.addLive s.table r w with
      | error => simp [CacheCall.op, statsStep, hx, bind, Except.bind] at hstep
      | ok p => exact ⟨p.1, p.2, rfl⟩
    · rintro ⟨c', g', hx⟩
      exact ⟨none, ⟨c', g'⟩, by simp [CacheCall.op, statsStep, hx, bind, Except.bind, pure, Except.pure]⟩
  | incoming r =>
    rw [CacheCall.Fits, ← hs.incoming_ok_iff hw]
    constructor
    · rintro ⟨v, s', hstep⟩
      cases hx : s.cache.addIncoming s.table r with
      | error => simp [CacheCall.op, statsStep, hx, bind, Except.bind] at hstep
      | ok p => exact ⟨p.1, p.2, rfl⟩
    · rintro ⟨c', g', hx⟩
      exact ⟨none, ⟨c', g'⟩, by simp [CacheCall.op, statsStep, hx, bind, Except.bind, pure, Except.pure]⟩
  | evictAll =>
    -- 枠を持つリージョンにはどれも行があるので、書き戻しは失敗しない
    have hrow : ∀ e ∈ s.cache.slots.toList, ∀ o, e.region = some o → s.table.HasRow o := by
      intro e he o ho
      obtain ⟨i, hi, rfl⟩ := List.mem_iff_getElem.1 he
      refine hs.hasRow_of_region hw (i := i) ?_
      rwa [Array.getD_eq_getD_getElem?, Array.getElem?_eq_getElem (by simpa using hi), Option.getD_some,
        ← Array.getElem_toList]
    obtain ⟨⟨hm, c', g'⟩, hx⟩ := evictAll_ok hrow
    simp only [CacheCall.Fits, iff_true]
    exact ⟨some hm, ⟨c', g'⟩, by simp [CacheCall.op, statsStep, hx, bind, Except.bind, pure, Except.pure]⟩
  | reset => exact ⟨fun _ => trivial, fun _ => ⟨none, _, rfl⟩⟩

theorem step (hs : Tracks n g₀ h s) {call : CacheCall} {v : Option (Nat × Nat)}
    (hstep : statsStep s call.op = .ok (v, s')) : Tracks n g₀ (call :: h) s' := by
  cases call with
  | live r w => exact hs.add rfl hstep
  | incoming r => exact hs.add rfl hstep
  | evictAll => exact (hs.evictAll hstep).2
  | reset => exact hs.reset hstep

end Tracks

/-- `n` 個の枠の新しいキャッシュと表 `g₀` から、キャッシュを通す呼び出しの履歴 `h`（新しいものから）で
届く状態。 -/
inductive Reach (n : Nat) (g₀ : RegionStats) : List CacheCall → CachedStats → Prop
  | start {c : StatsCache} : StatsCache.new n = .ok c → Reach n g₀ [] ⟨c, g₀⟩
  | step {h : List CacheCall} {s s' : CachedStats} {call : CacheCall} {v : Option (Nat × Nat)} :
      Reach n g₀ h s → statsStep s call.op = .ok (v, s') → Reach n g₀ (call :: h) s'

theorem Reach.tracks {n : Nat} {g₀ : RegionStats} {h : List CacheCall} {s : CachedStats}
    (hr : Reach n g₀ h s) : Tracks n g₀ h s := by
  induction hr with
  | start hnew => exact Tracks.start hnew
  | step _ hstep ih => exact ih.step hstep

/-- 直接写像のキャッシュは数を失わない。届く状態では、

* 枠 `i` は、最後の書き戻し以来そこに入った最も新しい加算のリージョンを持ち、キャッシュが持つ `r` の
  量は、その枠に `r` の加算が続いた分である。
* リージョンごとに、表の数とキャッシュの持つ数と捨てた数の和は、はじめの表の数と加えた数の和に、
  語の大きさを法として等しい。
* すべての書き戻しは、前回の書き戻しか捨てたとき以来の加算の数を当たりと外れに分けて答え、外れは
  枠が自分のリージョンを持っていなかった加算の数である。書き戻しの後、どの枠もリージョンを持たない。
* 履歴と呼び出しのリージョンに表の行があれば、呼び出しはキャッシュの数が語を越えるときに限って
  失敗する。とくにすべての書き戻しと捨てることは失敗しない。 -/
theorem Reach.conserves_counts {n : Nat} {g₀ : RegionStats} {h : List CacheCall} {s : CachedStats}
    (hs : Reach n g₀ h s) :
    (∀ i < n, (s.cache.slots.getD i default).region = occupant n i (epoch h)) ∧
    (∀ k r, s.cache.cachedFor k r = held k n r (epoch h)) ∧
    (∀ k r, k.ofTable s.table r + s.cache.cachedFor k r + dropped k n r h ≡
      k.ofTable g₀ r + added k r h [MOD Word.bound]) ∧
    (∀ v s', statsStep s CacheCall.evictAll.op = .ok (v, s') →
      (∃ hits misses, v = some (hits, misses) ∧ hits + misses = (epoch h).length ∧
        misses = missCount n (epoch h)) ∧
      ∀ i, (s'.cache.slots.getD i default).region = none) ∧
    ((∀ c ∈ h, c.Within g₀) → ∀ call : CacheCall, call.Within g₀ →
      ((∃ v s', statsStep s call.op = .ok (v, s')) ↔ call.Fits n (epoch h))) := by
  have ht := hs.tracks
  refine ⟨fun i hi => by rw [ht.slot i hi, region_slotAfter], ht.cachedFor_eq, fun k r => ?_,
    fun v s' hstep => ?_, fun hw call _ => ht.step_ok_iff hw call⟩
  · rw [ht.cachedFor_eq]
    exact ht.ledger k r
  · obtain ⟨hv, ht'⟩ := ht.evictAll hstep
    refine ⟨⟨_, _, hv, ht.calls, ht.misses⟩, fun i => ?_⟩
    by_cases hi : i < n
    · rw [ht'.slot i hi, epoch_of_none h rfl]
      rfl
    · rw [Array.getD_eq_getD_getElem?, Array.getElem?_eq_none (by rw [ht'.size]; omega)]
      rfl

/-- 2 つの枠のキャッシュと 8 つのリージョンの表で、リージョン 1 に 10 語と参照 1 つを加え、同じ枠に
入るリージョン 3 に 4 語を加えた状態：リージョン 1 の数は表に書き戻してある。 -/
theorem conflict_writes_back :
    let h : List CacheCall := [.live 3 4, .incoming 1, .live 1 10]
    let g₀ := RegionStats.new 8
    let s : CachedStats :=
      ⟨⟨#[default, ⟨some 3, 4, 0⟩], 1, 2⟩, ⟨#[0, 10, 0, 0, 0, 0, 0, 0], #[0, 1, 0, 0, 0, 0, 0, 0]⟩⟩
    Reach 2 g₀ h s ∧
      (∀ i < 2, (s.cache.slots.getD i default).region = occupant 2 i (epoch h)) ∧
      (∀ k r, s.cache.cachedFor k r = held k 2 r (epoch h)) ∧
      (∀ k r, k.ofTable s.table r + s.cache.cachedFor k r + dropped k 2 r h ≡
        k.ofTable g₀ r + added k r h [MOD Word.bound]) ∧
      (∀ v s', statsStep s CacheCall.evictAll.op = .ok (v, s') →
        (∃ hits misses, v = some (hits, misses) ∧ hits + misses = (epoch h).length ∧
          misses = missCount 2 (epoch h)) ∧
        ∀ i, (s'.cache.slots.getD i default).region = none) ∧
      ((∀ c ∈ h, c.Within g₀) → ∀ call : CacheCall, call.Within g₀ →
        ((∃ v s', statsStep s call.op = .ok (v, s')) ↔ call.Fits 2 (epoch h))) := by
  intro h g₀ s
  -- 呼び出しを古いものから順に、途中の状態を書いて評価する
  have h₀ : Reach 2 g₀ [] ⟨⟨#[default, default], 0, 0⟩, g₀⟩ := .start rfl
  have h₁ : Reach 2 g₀ [.live 1 10] ⟨⟨#[default, ⟨some 1, 10, 0⟩], 0, 1⟩, g₀⟩ := .step h₀ rfl
  have h₂ : Reach 2 g₀ [.incoming 1, .live 1 10] ⟨⟨#[default, ⟨some 1, 10, 1⟩], 1, 1⟩, g₀⟩ :=
    .step h₁ rfl
  -- 外れで書き戻すリージョン 1 の量は、はじめの表に入る
  have hr : Reach 2 g₀ h s := .step h₂ (by simp only [g₀, s]; rfl)
  exact ⟨hr, Reach.conserves_counts hr⟩

/-- 1 つの枠のキャッシュで、リージョン 0 に `2 ^ 64 - 1` 語を加えて書き戻し、さらに 1 語を加えて書き
戻すと、表の和は語の大きさで回って 0 になる：表とキャッシュと捨てた数の和は 0 だが、加えた語は
`2 ^ 64` ある。 -/
theorem live_count_wraps :
    Reach 1 (RegionStats.new 1) [.evictAll, .live 0 1, .evictAll, .live 0 (2 ^ 64 - 1)]
        ⟨⟨#[default], 0, 0⟩, ⟨#[0], #[0]⟩⟩ ∧
      Counter.live.ofTable ⟨#[0], #[0]⟩ 0 + StatsCache.cachedFor ⟨#[default], 0, 0⟩ .live 0 +
          dropped .live 1 0 [.evictAll, .live 0 1, .evictAll, .live 0 (2 ^ 64 - 1)] ≠
        Counter.live.ofTable (RegionStats.new 1) 0 +
          added .live 0 [.evictAll, .live 0 1, .evictAll, .live 0 (2 ^ 64 - 1)] :=
  by
  refine ⟨?_, by decide⟩
  -- 書き戻しは枠を空にする `Array.map` を通るので、展開を許して評価する
  have h₁ : Reach 1 (RegionStats.new 1) [.live 0 (2 ^ 64 - 1)]
      ⟨⟨#[⟨some 0, 2 ^ 64 - 1, 0⟩], 0, 1⟩, ⟨#[0], #[0]⟩⟩ := .step (.start rfl) rfl
  have h₂ : Reach 1 (RegionStats.new 1) [.evictAll, .live 0 (2 ^ 64 - 1)]
      ⟨⟨#[default], 0, 0⟩, ⟨#[2 ^ 64 - 1], #[0]⟩⟩ := .step h₁ (by with_unfolding_all rfl)
  have h₃ : Reach 1 (RegionStats.new 1) [.live 0 1, .evictAll, .live 0 (2 ^ 64 - 1)]
      ⟨⟨#[⟨some 0, 1, 0⟩], 0, 1⟩, ⟨#[2 ^ 64 - 1], #[0]⟩⟩ := .step h₂ rfl
  exact .step h₃ (by with_unfolding_all rfl)

end StatsCache

end RegionMark
