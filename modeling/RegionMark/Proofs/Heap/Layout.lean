import Mathlib
import RegionMark.Heap.Basic
import RegionMark.Proofs.TaskQueue.Refinement

/-!
# ヒープの並びと配列の要素のアドレス

リージョンのオブジェクトは割り当ての順に始まりから top までを隙間なく埋め（`Heap.Tiled`）、この並びは
割り当てと書き換えで保たれる。だから配列の要素のアドレスは配列と添字に読み戻せる。
-/

namespace RegionMark

namespace Heap

variable {h : Heap}

/-! ## 二分探索 -/

/-- 並び `ns` のアドレスが増えていくなら、`firstAbove` は `[lo, hi)` を、アドレスが `a` 以下の前半と
`a` より大きい後半に分ける境目を返す。 -/
theorem firstAbove_spec (h : Heap) (ns : Array Nat) (a : Nat)
    (hmono : ∀ j j', j ≤ j' → j' < ns.size → h.addrOf (ns.getD j 0) ≤ h.addrOf (ns.getD j' 0))
    (lo hi : Nat) (hle : lo ≤ hi) (hhi : hi ≤ ns.size) :
    lo ≤ h.firstAbove ns a lo hi ∧ h.firstAbove ns a lo hi ≤ hi ∧
      (∀ j, lo ≤ j → j < h.firstAbove ns a lo hi → h.addrOf (ns.getD j 0) ≤ a) ∧
      (∀ j, h.firstAbove ns a lo hi ≤ j → j < hi → a < h.addrOf (ns.getD j 0)) := by
  fun_induction h.firstAbove ns a lo hi with
  | case1 lo hi hlt mid hmid ih =>
    -- 真ん中が `a` 以下：境目は後ろ半分にあり、前半は真ん中より小さいアドレスばかり
    obtain ⟨h1, h2, h3, h4⟩ := ih (by omega) hhi
    refine ⟨by omega, h2, fun j hj hjk => ?_, h4⟩
    by_cases hjm : j ≤ mid
    · exact le_trans (hmono j mid hjm (by omega)) hmid
    · exact h3 j (by omega) hjk
  | case2 lo hi hlt mid hmid ih =>
    -- 真ん中が `a` より大きい：境目は前半分にあり、後半は真ん中より大きいアドレスばかり
    obtain ⟨h1, h2, h3, h4⟩ := ih (by omega) (by omega)
    refine ⟨h1, by omega, h3, fun j hj hjh => ?_⟩
    by_cases hjm : j < mid
    · exact h4 j hj hjm
    · exact lt_of_lt_of_le (Nat.lt_of_not_le hmid) (hmono mid j (by omega) (by omega))
  | case3 lo hi hge =>
    exact ⟨le_refl _, hle, fun j _ hj => absurd hj (by omega), fun j hj hjh => absurd hjh (by omega)⟩

/-! ## リージョンを埋めるオブジェクト -/

/-- 番号 `i` のオブジェクトの語数。 -/
def wordsOf (h : Heap) (i : Nat) : Nat := (h.objects.getD i default).size

/-- オブジェクトの番号の並び `ns` が、アドレス `lo` から `hi` までを順に隙間なく埋める：各オブジェクトは
少なくとも 1 語あり、その終わりは語の範囲にあり、次のオブジェクトはそこから始まる。 -/
def Tiles (h : Heap) : Nat → List Nat → Nat → Prop
  | lo, [], hi => lo = hi
  | lo, i :: ns, hi => i < h.objects.size ∧ h.addrOf i = lo ∧ 0 < h.wordsOf i ∧
      lo + h.wordsOf i * Word.bytes < Word.bound ∧ h.Tiles (lo + h.wordsOf i * Word.bytes) ns hi

namespace Tiles

theorem le : ∀ {lo hi : Nat} {ns : List Nat}, h.Tiles lo ns hi → lo ≤ hi
  | _, _, [], ht => by simp only [Tiles] at ht; omega
  | _, _, _ :: _, ⟨_, _, _, _, ht⟩ => by have := le ht; omega

/-- 埋めた範囲の終わりに、そこから始まる `w` 語のオブジェクトを 1 つ足す。 -/
theorem append {lo mid i w : Nat} : ∀ {ns : List Nat}, h.Tiles lo ns mid → i < h.objects.size →
    h.addrOf i = mid → h.wordsOf i = w → 0 < w → mid + w * Word.bytes < Word.bound →
    h.Tiles lo (ns ++ [i]) (mid + w * Word.bytes)
  | [], ht, hi, ha, hw, hpos, hb => by
    simp only [Tiles] at ht
    subst ht hw
    exact ⟨hi, ha, hpos, hb, rfl⟩
  | _ :: _, ⟨h₁, h₂, h₃, h₄, ht⟩, hi, ha, hw, hpos, hb => ⟨h₁, h₂, h₃, h₄, append ht hi ha hw hpos hb⟩

/-- 並びのオブジェクトのアドレスと語数が変わらなければ、並びは同じ範囲を埋める。 -/
theorem congr {h' : Heap} : ∀ {lo hi : Nat} {ns : List Nat}, h.Tiles lo ns hi →
    (∀ i ∈ ns, i < h'.objects.size ∧ h'.addrOf i = h.addrOf i ∧ h'.wordsOf i = h.wordsOf i) →
    h'.Tiles lo ns hi
  | _, _, [], ht, _ => ht
  | _, _, i :: _, ⟨_, h₂, h₃, h₄, ht⟩, hsame => by
    obtain ⟨hi, ha, hw⟩ := hsame i List.mem_cons_self
    refine ⟨hi, ha.trans h₂, hw ▸ h₃, hw ▸ h₄, hw ▸ congr ht fun j hj => hsame j (List.mem_cons_of_mem _ hj)⟩

/-- 並びの `j` 番目のオブジェクトは、埋めた範囲の中にある。 -/
theorem getElem : ∀ {lo hi : Nat} {ns : List Nat}, h.Tiles lo ns hi → ∀ j (hj : j < ns.length),
    lo ≤ h.addrOf ns[j] ∧ h.addrOf ns[j] + h.wordsOf ns[j] * Word.bytes ≤ hi ∧ 0 < h.wordsOf ns[j] ∧
      h.addrOf ns[j] + h.wordsOf ns[j] * Word.bytes < Word.bound ∧ ns[j] < h.objects.size
  | _, _, [], _, j, hj => absurd hj (Nat.not_lt_zero _)
  | _, _, _ :: _, ⟨h₁, h₂, h₃, h₄, ht⟩, 0, _ => by
    simp only [List.getElem_cons_zero, h₂]
    exact ⟨le_refl _, ht.le, h₃, h₄, h₁⟩
  | _, _, _ :: _, ⟨_, h₂, _, _, ht⟩, j + 1, hj => by
    obtain ⟨k₁, k₂, k₃, k₄, k₅⟩ := getElem ht j (by simpa using hj)
    simp only [List.getElem_cons_succ]
    exact ⟨by omega, k₂, k₃, k₄, k₅⟩

/-- 並びで前にあるオブジェクトは、後ろのオブジェクトが始まる前に終わる。 -/
theorem lt_of_lt : ∀ {lo hi : Nat} {ns : List Nat}, h.Tiles lo ns hi → ∀ {j j' : Nat} (hjj : j < j')
    (hj' : j' < ns.length),
    h.addrOf ns[j] + h.wordsOf ns[j] * Word.bytes ≤ h.addrOf ns[j']
  | _, _, [], _, _, _, _, hj' => absurd hj' (Nat.not_lt_zero _)
  | _, _, _ :: _, ⟨_, h₂, _, _, ht⟩, 0, j' + 1, _, hj' => by
    have := (getElem ht j' (by simpa using hj')).1
    simp only [List.getElem_cons_zero, List.getElem_cons_succ, h₂]
    exact this
  | _, _, _ :: _, ⟨_, _, _, _, ht⟩, j + 1, j' + 1, hjj, hj' => by
    simp only [List.getElem_cons_succ]
    exact lt_of_lt ht (by omega) (by simpa using hj')

/-- 語にそろった所から埋めれば、どのオブジェクトも語にそろう。 -/
theorem aligned : ∀ {lo hi : Nat} {ns : List Nat}, h.Tiles lo ns hi → lo % Word.bytes = 0 →
    ∀ i ∈ ns, h.addrOf i % Word.bytes = 0
  | _, _, [], _, _, _, hi => absurd hi List.not_mem_nil
  | _, _, _ :: _, ⟨_, h₂, _, _, ht⟩, hlo, i, hi => by
    rcases List.mem_cons.1 hi with rfl | hi
    · rw [h₂, hlo]
    · exact aligned ht (by rw [Nat.add_mul_mod_self_right, hlo]) i hi

/-- 並びの番号は、どれもオブジェクトの番号。 -/
theorem lt_size : ∀ {lo hi : Nat} {ns : List Nat}, h.Tiles lo ns hi → ∀ i ∈ ns, i < h.objects.size
  | _, _, [], _, _, hi => absurd hi List.not_mem_nil
  | _, _, _ :: _, ⟨h₁, _, _, _, ht⟩, i, hi => by
    rcases List.mem_cons.1 hi with rfl | hi
    · exact h₁
    · exact lt_size ht i hi

end Tiles

/-! ## 探索 -/

/-- 番号の並びが範囲を埋めるリージョンで、`j` 番目のオブジェクトの中のアドレスを探すと、そのオブジェクトが
見つかる。 -/
theorem lastAtOrBelowIn_eq {r lo hi x j : Nat} (ht : h.Tiles lo (h.byRegion.getD r #[]).toList hi)
    (hj : j < (h.byRegion.getD r #[]).size) (hle : h.addrOf (h.byRegion.getD r #[])[j] ≤ x)
    (hlt : x < h.addrOf (h.byRegion.getD r #[])[j] + h.wordsOf (h.byRegion.getD r #[])[j] * Word.bytes) :
    h.lastAtOrBelowIn r x = some (h.byRegion.getD r #[])[j] := by
  unfold lastAtOrBelowIn
  dsimp only
  generalize h.byRegion.getD r #[] = ns at ht hj hle hlt ⊢
  have hget : ∀ k (hk : k < ns.size), ns.getD k 0 = ns.toList[k] := by
    intro k hk
    rw [Array.getD_eq_getD_getElem?, Array.getElem?_eq_getElem hk, Option.getD_some, Array.getElem_toList]
  have hmono : ∀ k k', k ≤ k' → k' < ns.size → h.addrOf (ns.getD k 0) ≤ h.addrOf (ns.getD k' 0) := by
    intro k k' hkk hk'
    rw [hget k (by omega), hget k' hk']
    rcases Nat.eq_or_lt_of_le hkk with rfl | hlt'
    · exact le_refl _
    · have := ht.lt_of_lt hlt' (by simpa using hk')
      omega
  obtain ⟨-, hk₂, hk₃, hk₄⟩ := firstAbove_spec h ns x hmono 0 ns.size (Nat.zero_le _) (le_refl _)
  -- 境目は `j` の直後：`j` 番目は `x` 以下で始まり、`j + 1` 番目は `x` より後に始まる
  have hk : h.firstAbove ns x 0 ns.size = j + 1 := by
    apply le_antisymm
    · refine Nat.le_of_not_lt fun hgt => ?_
      have hnext := ht.lt_of_lt (Nat.lt_add_one j) (by simpa using (by omega : j + 1 < ns.size))
      rw [Array.getElem_toList, Array.getElem_toList] at hnext
      have := hk₃ (j + 1) (Nat.zero_le _) hgt
      rw [hget (j + 1) (by omega), Array.getElem_toList] at this
      omega
    · refine Nat.succ_le_of_lt (Nat.lt_of_not_le fun hle' => ?_)
      have := hk₄ j hle' hj
      rw [hget j hj, Array.getElem_toList] at this
      omega
  rw [hk]
  simp [hj]

theorem div_regionBytes {r x : Nat} (h₁ : h.bottom r ≤ x) (h₂ : x < h.regionEnd r) :
    (x - h.base) / h.regionBytes = r := by
  unfold regionEnd bottom at h₂
  unfold bottom at h₁
  unfold base
  apply Nat.div_eq_of_lt_le
  · omega
  · rw [Nat.succ_mul]
    omega

theorem lastAtOrBelow_eq {r x i : Nat} (hr : r < h.regionCount) (h₁ : h.bottom r ≤ x)
    (h₂ : x < h.regionEnd r) (hin : h.lastAtOrBelowIn r x = some i) : h.lastAtOrBelow x = some i := by
  have hbase : ¬x < h.base := by
    unfold bottom at h₁
    unfold base
    omega
  have hmin : Nat.min ((x - h.base) / h.regionBytes) (h.regionCount - 1) = r := by
    rw [div_regionBytes h₁ h₂]
    exact Nat.min_eq_left (by omega)
  simp only [lastAtOrBelow, hbase, ↓reduceIte, hmin, lastAtOrBelow.go, hin]

theorem regionOf?_eq_some {a r : Nat} (ha : h.regionOf? a = some r) :
    r < h.regionCount ∧ h.bottom r ≤ a ∧ a < h.regionEnd r := by
  unfold regionOf? contains base limit at ha
  split at ha
  · rename_i hc
    cases ha
    simp only [Bool.and_eq_true, decide_eq_true_eq] at hc
    obtain ⟨hlo, hhi⟩ := hc
    have hpos : 0 < h.regionBytes := by
      rcases Nat.eq_zero_or_pos h.regionBytes with h0 | h0
      · rw [h0] at hhi
        omega
      · exact h0
    refine ⟨?_, ?_, ?_⟩
    · rw [Nat.div_lt_iff_lt_mul hpos]
      omega
    · have := Nat.div_mul_le_self (a - h.regionBytes) h.regionBytes
      unfold bottom
      omega
    · have := Nat.lt_mul_div_succ (a - h.regionBytes) hpos
      unfold regionEnd bottom
      rw [Nat.mul_succ, Nat.mul_comm] at this
      omega
  · cases ha

theorem find?_eq_some {a i : Nat} (hf : h.find? a = some i) :
    ∃ r, h.regionOf? a = some r ∧ h.lastAtOrBelowIn r a = some i ∧ h.addrOf i = a := by
  unfold find? at hf
  cases hr : h.regionOf? a with
  | none => simp [hr] at hf
  | some r =>
    cases hl : h.lastAtOrBelowIn r a with
    | none => simp [hr, hl] at hf
    | some i' =>
      have hi : h.addrOf i' = a ∧ i' = i := by simpa [hr, hl] using hf
      obtain ⟨ha, rfl⟩ := hi
      exact ⟨r, rfl, hl, ha⟩

theorem lastAtOrBelowIn_mem {r x i : Nat} (hl : h.lastAtOrBelowIn r x = some i) :
    ∃ j, ∃ hj : j < (h.byRegion.getD r #[]).size, (h.byRegion.getD r #[])[j] = i := by
  unfold lastAtOrBelowIn at hl
  dsimp only at hl
  split at hl
  · cases hl
  · rename_i k _
    rw [Array.getElem?_eq_some_iff] at hl
    obtain ⟨hk, rfl⟩ := hl
    exact ⟨k, hk, rfl⟩

/-! ## 割り当て -/

theorem updateSlot_eq_modify {α : Type} [Inhabited α] (xs : Array α) (i : Nat) (f : α → α) :
    updateSlot xs i f = xs.modify i f := by
  unfold updateSlot
  split
  · rename_i hi
    show (xs.set i default hi).setIfInBounds i (f xs[i]) = xs.modify i f
    apply Array.ext
    · simp
    · intro j h₁ h₂
      by_cases hij : i = j
      · subst hij
        simp [Array.getElem_modify]
      · have hj : j < xs.size := by simpa using h₂
        rw [Array.getElem_setIfInBounds_ne (by simpa using hj) hij, Array.getElem_set_ne hi hj hij,
          Array.getElem_modify_of_ne hij]
  · rename_i hi
    apply Array.ext
    · simp
    · intro j h₁ h₂
      rw [Array.getElem_modify, if_neg (by omega)]

theorem getD_modify_of_lt {α : Type} (xs : Array α) (i : Nat) (f : α → α) (d : α) {j : Nat}
    (hj : j < xs.size) : (xs.modify i f).getD j d = if i = j then f (xs.getD j d) else xs.getD j d := by
  simp only [Array.getD_eq_getD_getElem?, Array.getElem?_modify, Array.getElem?_eq_getElem hj]
  split <;> rfl

/-- リージョン `r` の top に語を取れたなら、取ったアドレスはその top で、取った語はリージョンと語の範囲に
収まり、top だけが進む。 -/
theorem bump_eq_some {r words a : Nat} {h₁ : Heap} (hb : h.bump r words = .ok (some (a, h₁))) :
    r < h.regionCount ∧ a = h.topOf r ∧ a + words * Word.bytes < Word.bound ∧
      a + words * Word.bytes ≤ h.regionEnd r ∧
      h₁ = { h with tops := h.tops.setIfInBounds r (a + words * Word.bytes) } := by
  unfold bump at hb
  by_cases hr : r ≥ h.regionCount
  · simp [hr, throw, throwThe, MonadExceptOf.throw, bind, Except.bind] at hb
  · by_cases hm : words * Word.bytes < Word.bound
    · by_cases hfit : h.topOf r + words * Word.bytes ≥ Word.bound ∨
          h.topOf r + words * Word.bytes > h.regionEnd r
      · simp only [hr, hm, Word.mul, if_false, if_true, bind, Except.bind, pure, Except.pure] at hb
        simp [hfit] at hb
      · simp only [hr, hm, Word.mul, if_false, if_true, bind, Except.bind, pure, Except.pure] at hb
        rw [if_neg (by simpa using hfit)] at hb
        simp only [Except.ok.injEq, Option.some.injEq, Prod.mk.injEq] at hb
        obtain ⟨rfl, rfl⟩ := hb
        simp only [not_or, not_le, not_lt] at hfit
        exact ⟨by omega, rfl, hfit.1, hfit.2, rfl⟩
    · simp [hr, hm, Word.mul, bind, Except.bind] at hb

/-! ## 割り当てのとおりに並んだヒープ -/

/-- 割り当てのとおりに並んだヒープ：各リージョンのオブジェクトは、リージョンの始まりから top までを
割り当ての順に埋め、top はリージョンを出ず、配列の語数は見出しと要素の数の和。 -/
structure Tiled (h : Heap) : Prop where
  word_dvd : Word.bytes ∣ h.regionBytes
  tops_size : h.tops.size = h.regionCount
  byRegion_size : h.byRegion.size = h.regionCount
  tiles : ∀ r < h.regionCount, h.Tiles (h.bottom r) (h.byRegion.getD r #[]).toList (h.topOf r)
  top_le : ∀ r < h.regionCount, h.topOf r ≤ h.regionEnd r
  arrays : ∀ i es, (h.objects.getD i default).shape = .array es → h.wordsOf i = arrayHeaderWords + es.size

theorem default_shape_ne_array {es : Array (Option Nat)} : (default : HeapObject).shape ≠ .array es :=
  nofun

theorem Tiled.new {count bytes : Nat} (hn : Heap.new count bytes = .ok h) : h.Tiled := by
  unfold Heap.new at hn
  by_cases h0 : count = 0
  · simp [h0, throw, throwThe, MonadExceptOf.throw, bind, Except.bind] at hn
  · by_cases hb : (!Word.isPow2 bytes || decide (bytes < 8 * Word.bytes)) = true
    · simp [h0, hb, throw, throwThe, MonadExceptOf.throw, bind, Except.bind] at hn
    · simp only [h0, hb, Bool.false_eq_true, ↓reduceIte, pure, Except.pure, Except.ok.injEq] at hn
      simp only [Bool.or_eq_true, Bool.not_eq_true', not_or, Bool.not_eq_false, decide_eq_true_eq,
        not_lt] at hb
      obtain ⟨hp, hge⟩ := hb
      subst hn
      -- リージョンの大きさは 2 の冪で 8 語以上なので、語の大きさで割り切れる
      obtain ⟨k, hk⟩ := Word.isPow2_iff.1 hp
      have hk3 : 3 ≤ k := by
        by_contra hlt
        have : 2 ^ k ≤ 2 ^ 2 := Nat.pow_le_pow_right (by decide) (by omega)
        simp only [Word.bytes] at hge
        omega
      have htop : ∀ r < count, ((Array.range count).map fun i => bytes + i * bytes).getD r 0 =
          bytes + r * bytes := by
        intro r hr
        simp [Array.getD_eq_getD_getElem?, hr]
      refine ⟨?_, by simp, by simp, fun r hr => ?_, fun r hr => ?_, fun i es hes => ?_⟩
      · show 8 ∣ bytes
        rw [hk]
        exact (Nat.pow_dvd_pow 2 hk3 : 2 ^ 3 ∣ 2 ^ k)
      · simp only [topOf, htop r hr, bottom]
        simp [Array.getD_eq_getD_getElem?, hr, Tiles]
      · simp only [topOf, htop r hr, regionEnd, bottom]
        omega
      · simp only [Array.getD_eq_getD_getElem?, Array.getElem?_empty, Option.getD_none] at hes
        exact absurd hes default_shape_ne_array

/-- 取れた語に新しいオブジェクトを記録しても、ヒープは割り当てのとおりに並ぶ。 -/
theorem Tiled.bump_insert (ht : h.Tiled) {r words a : Nat} {h₁ : Heap}
    (hb : h.bump r words = .ok (some (a, h₁))) (o : HeapObject) (ha : o.addr = a) (hw : o.size = words)
    (hpos : 0 < words) (harr : ∀ es, o.shape = .array es → o.size = arrayHeaderWords + es.size) :
    (h₁.insert r o).Tiled := by
  obtain ⟨hr, rfl, hbound, hend, hh₁⟩ := bump_eq_some hb
  subst hh₁
  -- 新しいヒープについて要るのは次のことだけ：新しいオブジェクトの番号はこれまでの数で、
  -- 取ったリージョンの並びと top だけが伸びる
  have hobj : ∀ i < h.objects.size, (h.objects.push o).getD i default = h.objects.getD i default := by
    intro i hi
    simp [Array.getD_eq_getD_getElem?, Array.getElem?_push, Nat.ne_of_lt hi]
  have hn : (h.objects.push o).getD h.objects.size default = o := by
    simp [Array.getD_eq_getD_getElem?]
  have hpast : ∀ i, h.objects.size < i → (h.objects.push o).getD i default = default := by
    intro i hi
    simp [Array.getD_eq_getD_getElem?, Array.getElem?_push, Nat.ne_of_gt hi, Nat.le_of_lt hi]
  have hregion : ∀ r' < h.regionCount,
      (updateSlot h.byRegion r fun ns => ns.push h.objects.size).getD r' #[] =
        if r = r' then (h.byRegion.getD r' #[]).push h.objects.size else h.byRegion.getD r' #[] := by
    intro r' hr'
    rw [updateSlot_eq_modify]
    exact getD_modify_of_lt _ _ _ _ (by rw [ht.byRegion_size]; exact hr')
  have htops : ∀ r', (h.tops.setIfInBounds r (h.topOf r + words * Word.bytes)).getD r' 0 =
      if r = r' then h.topOf r + words * Word.bytes else h.topOf r' :=
    fun r' => Array.getD_setIfInBounds h.tops r' _ 0 (by rw [ht.tops_size]; exact hr)
  refine ⟨ht.word_dvd, by simp [insert, ht.tops_size], ?_, fun r' hr' => ?_, fun r' hr' => ?_, ?_⟩
  · simp [insert, updateSlot_eq_modify, ht.byRegion_size]
  · have hold := ht.tiles r' hr'
    have hsame : ∀ i ∈ (h.byRegion.getD r' #[]).toList, i < (h.objects.push o).size ∧
        ((h.objects.push o).getD i default).addr = h.addrOf i ∧
        ((h.objects.push o).getD i default).size = h.wordsOf i := by
      intro i hi
      have hlt := hold.lt_size i hi
      rw [hobj i hlt]
      exact ⟨by simp; omega, rfl, rfl⟩
    show Tiles _ (h.bottom r')
      ((updateSlot h.byRegion r fun ns => ns.push h.objects.size).getD r' #[]).toList
      ((h.tops.setIfInBounds r (h.topOf r + words * Word.bytes)).getD r' 0)
    rw [hregion r' hr', htops]
    split
    · -- 取ったリージョン：並びの終わりに新しいオブジェクトが続く
      rename_i hrr
      subst hrr
      rw [Array.toList_push]
      refine Tiles.append (Tiles.congr hold hsame) ?_ ?_ ?_ hpos hbound
      · simp [insert]
      · simp only [addrOf, insert, hn, ha]
      · simp only [wordsOf, insert, hn, hw]
    · exact Tiles.congr hold hsame
  · show (h.tops.setIfInBounds r (h.topOf r + words * Word.bytes)).getD r' 0 ≤ h.regionEnd r'
    rw [htops]
    split
    · rename_i hrr
      subst hrr
      exact hend
    · exact ht.top_le r' hr'
  · intro i es
    show ((h.objects.push o).getD i default).shape = .array es →
      ((h.objects.push o).getD i default).size = arrayHeaderWords + es.size
    -- 前からあるオブジェクト、新しいオブジェクト、その先の既定値の 3 通り
    rcases Nat.lt_trichotomy i h.objects.size with hi | rfl | hi
    · rw [hobj i hi]
      exact ht.arrays i es
    · rw [hn]
      exact harr es
    · rw [hpast i hi]
      exact fun hes => absurd hes default_shape_ne_array

theorem Tiled.tryAlloc (ht : h.Tiled) {r words : Nat} {refs : List Nat} {a? : Option Nat}
    {h' : Heap} (hb : h.tryAlloc r words refs = .ok (a?, h')) : h'.Tiled := by
  unfold Heap.tryAlloc at hb
  cases hbump : h.bump r (Nat.max words 1) with
  | error e => simp [hbump, bind, Except.bind] at hb
  | ok res =>
    rcases res with _ | ⟨a, h₁⟩
    · simp only [hbump, bind, Except.bind, pure, Except.pure, Except.ok.injEq, Prod.mk.injEq] at hb
      rw [← hb.2]
      exact ht
    · simp only [hbump, bind, Except.bind, pure, Except.pure, Except.ok.injEq, Prod.mk.injEq] at hb
      rw [← hb.2]
      exact ht.bump_insert hbump _ rfl rfl (Nat.lt_of_lt_of_le Nat.one_pos (Nat.le_max_right _ _))
        fun es hes => by cases hes

theorem Tiled.allocArray (ht : h.Tiled) {r a : Nat} {elems : List (Option Nat)} {h' : Heap}
    (hb : h.allocArray r elems = .ok (a, h')) : h'.Tiled := by
  unfold Heap.allocArray at hb
  cases hbump : h.bump r (arrayHeaderWords + elems.length) with
  | error e => simp [hbump, bind, Except.bind] at hb
  | ok res =>
    rcases res with _ | ⟨a', h₁⟩
    · simp [hbump, bind, Except.bind, throw, throwThe, MonadExceptOf.throw] at hb
    · simp only [hbump, bind, Except.bind, pure, Except.pure, Except.ok.injEq, Prod.mk.injEq] at hb
      rw [← hb.2]
      refine ht.bump_insert hbump _ rfl rfl (by simp [arrayHeaderWords]) fun es hes => ?_
      cases hes
      simp

/-- 1 つのオブジェクトを、アドレスと語数を変えずに書き換えても、書き換えた後が配列なら語数が見出しと
要素の数の和である限り、ヒープは並んだまま。 -/
theorem Tiled.modify (ht : h.Tiled) (i : Nat) (g : HeapObject → HeapObject)
    (haddr : ∀ o, (g o).addr = o.addr) (hsize : ∀ o, (g o).size = o.size)
    (harr : ∀ es, (g (h.objects.getD i default)).shape = .array es →
      h.wordsOf i = arrayHeaderWords + es.size) :
    { h with objects := h.objects.modify i g }.Tiled := by
  have hpast : ∀ j, h.objects.size ≤ j → (h.objects.modify i g).getD j default = default := by
    intro j hj
    simp [Array.getD_eq_getD_getElem?, hj]
  refine ⟨ht.word_dvd, ht.tops_size, ht.byRegion_size, fun r hr => ?_, ht.top_le, fun j es => ?_⟩
  · refine (ht.tiles r hr).congr fun j hj => ?_
    have hlt := (ht.tiles r hr).lt_size j hj
    show j < (h.objects.modify i g).size ∧ ((h.objects.modify i g).getD j default).addr = h.addrOf j ∧
      ((h.objects.modify i g).getD j default).size = h.wordsOf j
    rw [getD_modify_of_lt _ _ _ _ hlt]
    by_cases hij : i = j
    · rw [if_pos hij]
      exact ⟨by simpa using hlt, haddr _, hsize _⟩
    · rw [if_neg hij]
      exact ⟨by simpa using hlt, rfl, rfl⟩
  · show ((h.objects.modify i g).getD j default).shape = .array es →
      ((h.objects.modify i g).getD j default).size = arrayHeaderWords + es.size
    by_cases hj : j < h.objects.size
    · rw [getD_modify_of_lt _ _ _ _ hj]
      by_cases hij : i = j
      · subst hij
        rw [if_pos rfl, hsize]
        exact harr es
      · rw [if_neg hij]
        exact ht.arrays j es
    · rw [hpast j (by omega)]
      exact fun hes => absurd hes default_shape_ne_array

theorem Tiled.setRefs (ht : h.Tiled) (a : Nat) (refs : List Nat) : (h.setRefs a refs).Tiled := by
  unfold Heap.setRefs
  split
  · refine ht.modify _ _ (fun o => ?_) (fun o => ?_) fun es => ?_
    · split <;> rfl
    · split <;> rfl
    · -- 普通のオブジェクトは普通のまま、配列はそのまま
      split
      · exact fun hes => by cases hes
      · exact ht.arrays _ es
  · exact ht

theorem Tiled.setElement (ht : h.Tiled) {a k : Nat} {v : Option Nat} {h' : Heap}
    (hs : h.setElement a k v = .ok h') : h'.Tiled := by
  unfold Heap.setElement at hs
  split at hs
  · rename_i i _
    split at hs
    · rename_i es hshape
      split at hs
      · cases hs
        refine ht.modify _ _ (fun o => rfl) (fun o => rfl) fun es' hes => ?_
        cases hes
        rw [ht.arrays i es hshape, Array.size_set!]
      · cases hs
    · cases hs
      exact ht
  · cases hs
    exact ht

theorem Tiled.snapshotTams (ht : h.Tiled) : h.snapshotTams.Tiled :=
  ⟨ht.word_dvd, ht.tops_size, ht.byRegion_size,
    fun r hr => (ht.tiles r hr).congr fun i hi => ⟨(ht.tiles r hr).lt_size i hi, rfl, rfl⟩,
    ht.top_le, ht.arrays⟩

/-- 空のヒープから、割り当て、参照先と配列の要素の書き換え、マーキング開始時の top の記録で作った
ヒープ。 -/
inductive Built : Heap → Prop
  | new {count bytes : Nat} {h : Heap} : Heap.new count bytes = .ok h → Built h
  | tryAlloc {h h' : Heap} {r words : Nat} {refs : List Nat} {a? : Option Nat} :
      Built h → h.tryAlloc r words refs = .ok (a?, h') → Built h'
  | allocArray {h h' : Heap} {r a : Nat} {elems : List (Option Nat)} :
      Built h → h.allocArray r elems = .ok (a, h') → Built h'
  | setRefs {h : Heap} (a : Nat) (refs : List Nat) : Built h → Built (h.setRefs a refs)
  | setElement {h h' : Heap} {a k : Nat} {v : Option Nat} :
      Built h → h.setElement a k v = .ok h' → Built h'
  | snapshotTams {h : Heap} : Built h → Built h.snapshotTams

theorem Built.tiled (hb : h.Built) : h.Tiled := by
  induction hb with
  | new hn => exact Tiled.new hn
  | tryAlloc _ hs ih => exact ih.tryAlloc hs
  | allocArray _ hs ih => exact ih.allocArray hs
  | setRefs a refs _ ih => exact ih.setRefs a refs
  | setElement _ hs ih => exact ih.setElement hs
  | snapshotTams _ ih => exact ih.snapshotTams

/-! ## 配列の要素のアドレス -/

/-- 並んだヒープでちょうど `a` にあるオブジェクトは、語にそろい、その終わりは語の範囲にあり、その中の
どのアドレスをヒープ全体で探しても見つかる。 -/
theorem Tiled.find?_extent (ht : h.Tiled) {a i : Nat} (hf : h.find? a = some i) :
    h.addrOf i = a ∧ a % Word.bytes = 0 ∧ a + h.wordsOf i * Word.bytes < Word.bound ∧
      ∀ x, a ≤ x → x < a + h.wordsOf i * Word.bytes → h.lastAtOrBelow x = some i := by
  obtain ⟨r, hr, hl, ha⟩ := find?_eq_some hf
  obtain ⟨hrc, hlo, hhi⟩ := regionOf?_eq_some hr
  obtain ⟨j, hj, rfl⟩ := lastAtOrBelowIn_mem hl
  have hts := ht.tiles r hrc
  obtain ⟨k₁, k₂, -, k₄, -⟩ := hts.getElem j (by simpa using hj)
  simp only [Array.getElem_toList] at k₁ k₂ k₄
  have htop := ht.top_le r hrc
  refine ⟨ha, ?_, by omega, fun x hx₁ hx₂ => ?_⟩
  · -- リージョンの始まりは語にそろうので、そこから埋めたオブジェクトもそろう
    have hbot : h.bottom r % Word.bytes = 0 :=
      Nat.mod_eq_zero_of_dvd (Nat.dvd_add ht.word_dvd (Nat.dvd_mul_left_of_dvd ht.word_dvd r))
    rw [← ha]
    exact hts.aligned hbot _ (Array.getElem_mem_toList hj)
  · -- オブジェクトはリージョンの top までに収まるので、`x` はリージョン `r` の中
    exact lastAtOrBelow_eq hrc (by omega) (by unfold regionEnd at htop ⊢; omega)
      (lastAtOrBelowIn_eq hts hj (by omega) (by omega))

theorem plainRefs_of_array {a len : Nat} (ha : h.arrayLength? a = some len) :
    h.plainRefs a = [] := by
  unfold arrayLength? at ha
  unfold plainRefs
  rcases ho : h.objectAt? a with _ | ⟨_, _, _ | es⟩ <;> simp_all

/-- 配列の長さが分かるアドレスには、その長さの要素を持つオブジェクトがちょうどあり、`objectSize` は
その語数。 -/
theorem arrayLength?_eq_some {a n : Nat} (ha : h.arrayLength? a = some n) :
    ∃ i es, h.find? a = some i ∧ (h.objects.getD i default).shape = .array es ∧ es.size = n ∧
      h.objectSize a = h.wordsOf i := by
  unfold arrayLength? at ha
  cases ho : h.objectAt? a with
  | none => simp [ho] at ha
  | some o =>
    rcases o with ⟨oa, os, refs | es⟩
    · simp [ho] at ha
    · simp only [ho, Option.some.injEq] at ha
      have hsize : h.objectSize a = os := by simp [objectSize, ho]
      unfold objectAt? at ho
      cases hf : h.find? a with
      | none => simp [hf] at ho
      | some i =>
        simp only [hf, Option.bind_some, Array.getElem?_eq_some_iff] at ho
        obtain ⟨hi, hget⟩ := ho
        have hd : h.objects.getD i default = ⟨oa, os, .array es⟩ := by
          simp [Array.getD_eq_getD_getElem?, hi, hget]
        exact ⟨i, es, rfl, by rw [hd], ha, by rw [hsize, wordsOf, hd]⟩

theorem elementAddr_eq {a k : Nat} (hb : a + (arrayHeaderWords + k) * Word.bytes < Word.bound) :
    elementAddr a k = .ok (a + (arrayHeaderWords + k) * Word.bytes) := by
  have h₁ : arrayHeaderWords + k < Word.bound := by
    unfold arrayHeaderWords Word.bytes at *
    omega
  have h₂ : (arrayHeaderWords + k) * Word.bytes < Word.bound := by omega
  have h₃ : a + (arrayHeaderWords + k) * Word.bytes ≠ 0 := by
    unfold arrayHeaderWords Word.bytes
    omega
  simp only [elementAddr, Word.add, Word.mul, h₁, h₂, hb, ↓reduceIte, bind, Except.bind, pure,
    Except.pure, h₃]

/-- 見出しより後ろのアドレスは、それを含むオブジェクトの始まりと、見出しの後の語数に読み戻せる。 -/
theorem resolveElement_eq {x i : Nat} (hl : h.lastAtOrBelow x = some i)
    (hx : h.addrOf i + arrayHeaderWords * Word.bytes ≤ x) :
    h.resolveElement x = .ok (h.addrOf i, (x - h.addrOf i) / Word.bytes - arrayHeaderWords) := by
  have hk : arrayHeaderWords ≤ (x - h.addrOf i) / Word.bytes :=
    (Nat.le_div_iff_mul_le (by decide)).2 (by omega)
  simp only [resolveElement, hl, Option.map_some, Option.getD_some, Word.sub, hk, ↓reduceIte, bind,
    Except.bind, pure, Except.pure]

/-- 割り当てと書き換えで作ったヒープの、長さ `n` の配列の要素 `k < n` のアドレスは、計算が失敗せず、語に
そろい、配列の見出しより後ろで配列の終わりより前にあり、配列のアドレスと `k` に読み戻せる。 -/
theorem Built.element_round_trip (hb : h.Built) {a n k : Nat} (ha : h.arrayLength? a = some n)
    (hk : k < n) :
    ∃ x, elementAddr a k = .ok x ∧ x % Word.bytes = 0 ∧ a < x ∧
      x < a + h.objectSize a * Word.bytes ∧ h.resolveElement x = .ok (a, k) := by
  have ht := hb.tiled
  obtain ⟨i, es, hf, hshape, rfl, hsize⟩ := arrayLength?_eq_some ha
  obtain ⟨hai, ha8, hbound, hlast⟩ := ht.find?_extent hf
  -- 配列の語数は見出しと要素の数の和
  have hwords : h.wordsOf i = arrayHeaderWords + es.size := ht.arrays i es hshape
  have hin : a + (arrayHeaderWords + k) * Word.bytes < a + h.wordsOf i * Word.bytes := by
    rw [hwords]
    unfold Word.bytes
    omega
  refine ⟨_, elementAddr_eq (by omega), ?_, ?_, by rw [hsize]; exact hin, ?_⟩
  · rw [Nat.add_mul_mod_self_right, ha8]
  · unfold arrayHeaderWords Word.bytes
    omega
  · have hx := hlast _ (Nat.le_add_right _ _) hin
    rw [resolveElement_eq hx (by rw [hai]; unfold Word.bytes; omega), hai]
    have hdiv : (a + (arrayHeaderWords + k) * Word.bytes - a) / Word.bytes = arrayHeaderWords + k := by
      rw [Nat.add_sub_cancel_left, Nat.mul_div_cancel _ (by decide)]
    rw [hdiv, Nat.add_sub_cancel_left]

/-- 1024 バイトのリージョン 1 つに 1 語のオブジェクトを置き、続けて 3 要素の配列を置くと、配列は 1032
にあり、要素 2 のアドレス 1064 は配列と 2 に読み戻せる。 -/
theorem third_element_round_trip :
    let h : Heap :=
      { regionBytes := 1024, regionCount := 1,
        objects := #[⟨1024, 1, .plain #[]⟩, ⟨1032, 5, .array #[some 1024, none, some 1024]⟩],
        byRegion := #[#[0, 1]], tops := #[1072], tams := #[1024], softReferents := #[],
        finalizable := #[], pending := #[] }
    h.Built ∧ h.arrayLength? 1032 = some 3 ∧ 2 < 3 ∧
      ∃ x, elementAddr 1032 2 = .ok x ∧ x % Word.bytes = 0 ∧ 1032 < x ∧
        x < 1032 + h.objectSize 1032 * Word.bytes ∧ h.resolveElement x = .ok (1032, 2) := by
  intro h
  -- 空のヒープから、割り当てを 1 つずつ、途中のヒープを書いて評価する
  have h₀ : Built
      { regionBytes := 1024, regionCount := 1, objects := #[], byRegion := #[#[]],
        tops := #[1024], tams := #[1024], softReferents := #[], finalizable := #[], pending := #[] } :=
    .new (by with_unfolding_all rfl : Heap.new 1 1024 = _)
  have h₁ : Built
      { regionBytes := 1024, regionCount := 1, objects := #[⟨1024, 1, .plain #[]⟩],
        byRegion := #[#[0]], tops := #[1032], tams := #[1024], softReferents := #[],
        finalizable := #[], pending := #[] } :=
    .tryAlloc h₀ (by with_unfolding_all rfl : Heap.tryAlloc _ 0 1 [] = .ok (some 1024, _))
  have h₂ : h.Built :=
    .allocArray h₁ (by with_unfolding_all rfl : Heap.allocArray _ 0 [some 1024, none, some 1024] = .ok (1032, _))
  have hlen : h.arrayLength? 1032 = some 3 := by decide +kernel
  exact ⟨h₂, hlen, by decide, Built.element_round_trip h₂ hlen (by decide)⟩

end Heap

end RegionMark
