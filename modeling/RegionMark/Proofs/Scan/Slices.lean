import RegionMark.Proofs.Heap.Layout
import RegionMark.Proofs.Chunk.Sizing
import RegionMark.Proofs.Engine.Accounting

/-!
# 長い配列の切片ごとの走査

刻み `s` の 2 倍以上の長さの配列は、見出しだけを足し、要素を `s` 個ずつの切片で走査する。切片 `k` は要素
`[k s, min (k s + s) len)` で、切片は `[0, len)` を番号の順に覆う。
-/

namespace RegionMark

namespace Heap

variable {h : Heap} {a len : Nat}

/-- 並んだヒープの配列は、見出しと要素の語を持ち、語にそろい、その終わりは語の範囲にある。配列の中の
どのアドレスをヒープ全体で探しても、配列が見つかる。 -/
theorem Tiled.array_extent (ht : h.Tiled) (ha : h.arrayLength? a = some len) :
    h.objectSize a = arrayHeaderWords + len ∧ a % Word.bytes = 0 ∧
      a + (arrayHeaderWords + len) * Word.bytes < Word.bound ∧
      ∃ i, h.addrOf i = a ∧ ∀ x, a ≤ x → x < a + (arrayHeaderWords + len) * Word.bytes →
        h.lastAtOrBelow x = some i := by
  obtain ⟨i, es, hf, hshape, rfl, hsize⟩ := arrayLength?_eq_some ha
  obtain ⟨hai, ha8, hbound, hlast⟩ := ht.find?_extent hf
  have hwords : h.wordsOf i = arrayHeaderWords + es.size := ht.arrays i es hshape
  rw [hwords] at hsize hbound hlast
  exact ⟨hsize, ha8, hbound, i, hai, hlast⟩

theorem Tiled.resolve_elementAddr (ht : h.Tiled) (ha : h.arrayLength? a = some len) {k : Nat}
    (hk : k < len) : h.resolveElement (a + (arrayHeaderWords + k) * Word.bytes) = .ok (a, k) := by
  obtain ⟨-, -, -, i, hai, hlast⟩ := ht.array_extent ha
  have hin : a + (arrayHeaderWords + k) * Word.bytes < a + (arrayHeaderWords + len) * Word.bytes := by
    unfold Word.bytes
    omega
  rw [resolveElement_eq (hlast _ (Nat.le_add_right _ _) hin) (by rw [hai]; unfold Word.bytes; omega), hai,
    Nat.add_sub_cancel_left, Nat.mul_div_cancel _ (by decide), Nat.add_sub_cancel_left]

end Heap

theorem TaskEntry.ofSlice_eq {x : Nat} (h8 : x % Word.bytes = 0) (h0 : x ≠ 0) :
    TaskEntry.ofSlice x = .ok (.slice x) := by
  simp [TaskEntry.ofSlice, h8, h0]

namespace Marking

open Heap

/-! ## 切片の並び -/

/-- 刻み `s` で切った長さ `len` の配列の切片 `k`：要素 `[k s, min (k s + s) len)`。 -/
def slice (s len k : Nat) : Nat × Nat := (k * s, min (k * s + s) len)

/-- 切片の並び：`⌈len / s⌉` 個を番号の順に。 -/
def slices (s len : Nat) : List (Nat × Nat) := (List.range (Word.divCeil len s)).map (slice s len)

variable {s len : Nat}

theorem lt_divCeil_iff (hs : 0 < s) {k : Nat} : k < Word.divCeil len s ↔ k * s < len := by
  rw [← not_le, Chunk.divCeil_le_iff hs, not_le]

/-- 最初の `m` 個の切片は、要素 `[0, min (m s) len)` を順に覆う。 -/
theorem flatMap_range_slice (m : Nat) :
    ((List.range m).map (slice s len)).flatMap (fun p => List.range' p.1 (p.2 - p.1)) =
      List.range (min (m * s) len) := by
  induction m with
  | zero => simp
  | succ m ih =>
    rw [List.range_succ, List.map_append, List.flatMap_append, ih]
    simp only [List.map_cons, List.map_nil, List.flatMap_cons, List.flatMap_nil, List.append_nil, slice]
    by_cases hm : m * s < len
    · -- 切片 `m` は前の切片の終わりから始まる
      have hmin : min (m * s) len = m * s := Nat.min_eq_left hm.le
      have hsplit : min ((m + 1) * s) len = m * s + (min (m * s + s) len - m * s) := by
        rw [Nat.succ_mul]
        omega
      rw [hmin, hsplit, List.range_eq_range', List.range_eq_range', ← List.range'_append_1, Nat.zero_add]
    · -- 要素はもう覆われていて、切片 `m` は空
      have h₁ : min (m * s + s) len - m * s = 0 := by omega
      have h₂ : min ((m + 1) * s) len = min (m * s) len := by rw [Nat.succ_mul]; omega
      rw [h₁, h₂, List.range'_zero, List.append_nil]

theorem flatMap_slices (hs : 0 < s) :
    (slices s len).flatMap (fun p => List.range' p.1 (p.2 - p.1)) = List.range len := by
  have hlen : len ≤ Word.divCeil len s * s := (Chunk.divCeil_le_iff hs).1 le_rfl
  rw [slices, flatMap_range_slice, Nat.min_eq_right hlen]

theorem slice_mem_slices (hs : 0 < s) {p : Nat × Nat} (hp : p ∈ slices s len) :
    p.1 < p.2 ∧ p.2 - p.1 ≤ s := by
  obtain ⟨k, hk, rfl⟩ := List.mem_map.1 hp
  have hks : k * s < len := (lt_divCeil_iff hs).1 (List.mem_range.1 hk)
  simp only [slice]
  omega

theorem sum_slices (hs : 0 < s) : ((slices s len).map fun p => p.2 - p.1).sum = len := by
  have hl := congrArg List.length
    (flatMap_slices hs : (slices s len).flatMap (fun p => List.range' p.1 (p.2 - p.1)) = List.range len)
  simpa [List.length_flatMap] using hl

/-! ## 切片の項目 -/

/-- 切片 `k` を走査する仕事の項目：切片 0 は配列そのもの、その後は切片の始まりの要素のアドレス。 -/
def sliceEntry (a s : Nat) : Nat → TaskEntry
  | 0 => .obj a
  | k + 1 => .slice (a + (arrayHeaderWords + (k + 1) * s) * Word.bytes)

/-- 切片 `k` を走査する前に積む項目：最後の切片のほかは、次の切片の項目。 -/
def nextSlice (a s len k : Nat) : Option TaskEntry :=
  if k + 1 < Word.divCeil len s then some (sliceEntry a s (k + 1)) else none

/-- 積まれる項目は、切片 1 から最後の切片までの項目を 1 つずつ。 -/
theorem filterMap_nextSlice (a : Nat) :
    (List.range (Word.divCeil len s)).filterMap (nextSlice a s len) =
      (List.range (Word.divCeil len s - 1)).map fun k => sliceEntry a s (k + 1) := by
  generalize hn : Word.divCeil len s = n
  cases n with
  | zero => rfl
  | succ m =>
    have hsome : ∀ k ∈ List.range m, nextSlice a s len k = some (sliceEntry a s (k + 1)) := by
      intro k hk
      simp only [nextSlice, hn, Nat.add_lt_add_iff_right, List.mem_range.1 hk, if_true]
    have hlast : nextSlice a s len m = none := by simp [nextSlice, hn]
    rw [List.range_succ, List.filterMap_append, List.filterMap_congr hsome]
    simp [hlast]

/-! ## 走査の計算 -/

/-- 切片 `[lo, hi)` を走査する：`next` があれば先に積み、切片の要素の欄を扱い、その語数を足す。 -/
def scanSlice (h : Heap) (a lo hi : Nat) (next : Option TaskEntry) : TaskM Unit := do
  if let some x := next then push x
  for r in h.arrayRefs a lo hi do dealWithField (h.regionOf? a) r
  addWords (hi - lo)

/-- 長さ `len` の配列の切片 `k` の項目を走査する：切片 0 ではオブジェクトを数えて見出しの語を足し、
切片を走査し、限度を確かめる。 -/
def scanSliceEntry (h : Heap) (a s len k : Nat) : TaskM Unit := do
  if k = 0 then
    modifyTask fun t => { t with counts := { t.counts with objectsScanned := t.counts.objectsScanned + 1 } }
    addWords (h.objectSize a - len)
  scanSlice h a (slice s len k).1 (slice s len k).2 (nextSlice a s len k)
  checkLimits

theorem run_eng_bind {β : Type} (f : Engine → TaskM β) (w : Worker) : (eng >>= f).run w = (f w.eng).run w :=
  rfl

theorem run_task_bind {β : Type} (f : MarkTask → TaskM β) (w : Worker) :
    (task >>= f).run w = (f w.task).run w := rfl

theorem check_ok_bind {α β : Type} (v : α) (f : α → TaskM β) : (check (.ok v) >>= f) = f v := rfl

/-- エンジンを変えない計算の後では、同じエンジンの上で等しい続きは取り替えてよい。 -/
theorem run_bind_congr {α β : Type} {m : TaskM α} {f g : α → TaskM β} {w : Worker}
    (hm : ∀ x w', m.run w = .ok (x, w') → w'.eng = w.eng)
    (hfg : ∀ x w', w'.eng = w.eng → (f x).run w' = (g x).run w') :
    (m >>= f).run w = (m >>= g).run w := by
  rw [StateT.run_bind, StateT.run_bind]
  cases hr : m.run w with
  | error => rfl
  | ok p => exact hfg p.1 p.2 (hm p.1 p.2 hr)

theorem modifyTask_eng {f : MarkTask → MarkTask} {w w' : Worker} {x : Unit}
    (h : (modifyTask f).run w = .ok (x, w')) : w'.eng = w.eng := by
  cases h
  rfl

theorem addWords_eng {n : Nat} {w w' : Worker} {x : Unit}
    (h : (addWords n).run w = .ok (x, w')) : w'.eng = w.eng := by
  unfold addWords at h
  rw [run_task_bind] at h
  cases hw : Word.add w.task.wordsScanned n with
  | error => rw [hw] at h; cases h
  | ok v => rw [hw, check_ok_bind] at h; exact modifyTask_eng h

variable {h : Heap} {a : Nat}

/-- 切片 `k` の始まりからの走査は、切片 `k` を走査し、その前に次の切片の項目を積む。要素の数は語の
範囲にあるので、刻みを足した終わりが語の最大で切り詰められることはない。 -/
theorem scanArraySlice_run (ht : h.Tiled) (ha : h.arrayLength? a = some len) (hs : 0 < s) (k : Nat)
    {w : Worker} (hw : w.eng.heap = h) (hc : w.eng.config.sliceStride = s) :
    (scanArraySlice a (k * s)).run w =
      (scanSlice h a (slice s len k).1 (slice s len k).2 (nextSlice a s len k)).run w := by
  obtain ⟨-, ha8, hbound, -⟩ := ht.array_extent ha
  have hmax : len ≤ Word.max := by unfold Word.max Word.bound Word.bytes arrayHeaderWords at *; omega
  have hhi : Nat.min (Nat.min (k * s + s) Word.max) len = min (k * s + s) len := by
    simp only [Nat.min_def]; split_ifs <;> omega
  unfold scanArraySlice
  rw [run_eng_bind]
  simp only [hw, hc, ha, Option.getD_some, hhi, scanSlice, slice, nextSlice, lt_divCeil_iff hs]
  by_cases hlast : k * s + s < len
  · -- 配列の残りがある：次の切片の始まりの要素のアドレスを積む
    have hmin : min (k * s + s) len = k * s + s := Nat.min_eq_left hlast.le
    have hnext : (k + 1) * s = k * s + s := Nat.succ_mul k s
    have hin : a + (arrayHeaderWords + (k * s + s)) * Word.bytes < Word.bound := by
      unfold arrayHeaderWords Word.bytes at *
      omega
    have h8 : (a + (arrayHeaderWords + (k * s + s)) * Word.bytes) % Word.bytes = 0 := by
      rw [Nat.add_mul_mod_self_right, ha8]
    have h0 : a + (arrayHeaderWords + (k * s + s)) * Word.bytes ≠ 0 := by
      unfold arrayHeaderWords Word.bytes
      omega
    rw [hmin, if_pos hlast, if_pos (by rwa [hnext]), elementAddr_eq hin, check_ok_bind,
      TaskEntry.ofSlice_eq h8 h0, check_ok_bind, sliceEntry, hnext]
  · -- 最後の切片：何も積まない
    have hmin : min (k * s + s) len = len := Nat.min_eq_right (Nat.le_of_not_lt hlast)
    rw [hmin, if_neg (Nat.lt_irrefl len), if_neg (by rwa [Nat.succ_mul])]

/-- 並んだヒープで、刻み `s ≥ 1` の 2 倍以上の長さの配列の切片 `k < ⌈len / s⌉` の項目を走査すること
は、どの状態からでも `scanSliceEntry` と同じ計算である。 -/
theorem scanTaskEntry_sliceEntry_run (ht : h.Tiled) (ha : h.arrayLength? a = some len) (hs : 0 < s)
    (hlong : 2 * s ≤ len) {k : Nat} (hk : k < Word.divCeil len s) {w : Worker} (hw : w.eng.heap = h)
    (hc : w.eng.config.sliceStride = s) :
    (scanTaskEntry (sliceEntry a s k)).run w = (scanSliceEntry h a s len k).run w := by
  obtain ⟨-, -, hbound, -⟩ := ht.array_extent ha
  cases k with
  | zero =>
    have hmul : Word.mul 2 s = .ok (2 * s) := by
      have : 2 * s < Word.bound := by unfold arrayHeaderWords Word.bytes at hbound; omega
      simp [Word.mul, this]
    simp only [scanTaskEntry, sliceEntry, scanObject, scanSliceEntry, if_true, bind_assoc]
    rw [run_eng_bind]
    simp only [hw, hc, ha, plainRefs_of_array ha, List.forIn_nil, pure_bind, hmul, check_ok_bind,
      ge_iff_le, if_pos hlong, bind_assoc]
    -- 数え上げと見出しの語はエンジンを変えないので、切片の走査は同じエンジンの上で比べられる
    refine run_bind_congr (fun _ _ => modifyTask_eng) fun _ w₁ h₁ => ?_
    refine run_bind_congr (fun _ _ => addWords_eng) fun _ w₂ h₂ => ?_
    have h₃ := scanArraySlice_run ht ha hs 0 (w := w₂) (by rw [h₂, h₁, hw]) (by rw [h₂, h₁, hc])
    rw [Nat.zero_mul] at h₃
    rw [StateT.run_bind, StateT.run_bind, h₃]
  | succ k =>
    have hres := ht.resolve_elementAddr ha ((lt_divCeil_iff hs).1 hk)
    simp only [scanTaskEntry, sliceEntry, scanSliceEntry, Nat.add_one_ne_zero, if_false]
    -- 積まれたアドレスは配列と切片の始まりに読み戻せる
    rw [run_eng_bind, hw, hres, check_ok_bind, StateT.run_bind, StateT.run_bind,
      scanArraySlice_run ht ha hs (k + 1) hw hc]

/-- 長い配列は切片に分けて、どれも 1 回ずつ走査される。並んだヒープの、刻み `s ≥ 1` の 2 倍以上の
長さ `len` の配列 `a` で、`n = ⌈len / s⌉` とすると、

* 切片 `k < n` の項目の走査は、どの状態から、どのタスクが、いつ取っても、切片 `k` の要素
  `[k s, min (k s + s) len)` の欄を扱い、その語数を足す。最後の切片のほかは、その前に次の切片の項目を
  積む。切片 0 はオブジェクトとして走査され、オブジェクトを数えて見出しの語を足す。
* 切片は `[0, len)` を番号の順に重ならずに覆い、その数は `n` で、どれも空でなく長さは刻み以下。
* 積まれる項目は切片 1 から最後の切片までの項目で、ちょうど `n - 1` 個。
* 足される語は合わせてオブジェクトの大きさ。 -/
theorem sliced_scan_partitions_array (ht : h.Tiled) (ha : h.arrayLength? a = some len) (hs : 0 < s)
    (hlong : 2 * s ≤ len) :
    (∀ k < Word.divCeil len s, ∀ w : Worker, w.eng.heap = h → w.eng.config.sliceStride = s →
      (scanTaskEntry (sliceEntry a s k)).run w = (scanSliceEntry h a s len k).run w) ∧
    (slices s len).flatMap (fun p => List.range' p.1 (p.2 - p.1)) = List.range len ∧
    (slices s len).length = Word.divCeil len s ∧
    (∀ p ∈ slices s len, p.1 < p.2 ∧ p.2 - p.1 ≤ s) ∧
    (List.range (Word.divCeil len s)).filterMap (nextSlice a s len) =
      (List.range (Word.divCeil len s - 1)).map (fun k => sliceEntry a s (k + 1)) ∧
    h.objectSize a - len + ((slices s len).map fun p => p.2 - p.1).sum = h.objectSize a := by
  obtain ⟨hsize, -, -, -⟩ := ht.array_extent ha
  refine ⟨fun k hk w hw hc => scanTaskEntry_sliceEntry_run ht ha hs hlong hk hw hc, flatMap_slices hs,
    by simp [slices], fun p hp => slice_mem_slices hs hp, filterMap_nextSlice a, ?_⟩
  rw [sum_slices hs, hsize]
  omega

/-- 1024 バイトのリージョン 1 つに置いた 5 要素の配列を刻み 2 で走査すると、切片は `[0, 2)`、`[2, 4)`、
`[4, 5)` で、積まれるのは要素 2 と 4 のアドレス。 -/
theorem five_elements_scanned_in_three_slices :
    let h : Heap :=
      { regionBytes := 1024, regionCount := 1,
        objects := #[⟨1024, 7, .array #[none, none, none, none, none]⟩],
        byRegion := #[#[0]], tops := #[1080], tams := #[1024], softReferents := #[],
        finalizable := #[], pending := #[] }
    h.Tiled ∧ h.arrayLength? 1024 = some 5 ∧ slices 2 5 = [(0, 2), (2, 4), (4, 5)] ∧
      (∀ k < 3, ∀ w : Worker, w.eng.heap = h → w.eng.config.sliceStride = 2 →
        (scanTaskEntry (sliceEntry 1024 2 k)).run w = (scanSliceEntry h 1024 2 5 k).run w) ∧
      (List.range 3).filterMap (nextSlice 1024 2 5) = [.slice 1056, .slice 1072] := by
  intro h
  -- 空のヒープに配列を 1 つ割り当てて作る
  have hb : h.Built := .allocArray (.new (by with_unfolding_all rfl : Heap.new 1 1024 = _))
    (by with_unfolding_all rfl : Heap.allocArray _ 0 [none, none, none, none, none] = .ok (1024, _))
  have ha : h.arrayLength? 1024 = some 5 := by decide +kernel
  obtain ⟨hrun, -, -, -, hnext, -⟩ := sliced_scan_partitions_array hb.tiled ha
    (by decide : 0 < 2) (by decide)
  exact ⟨hb.tiled, ha, rfl, hrun, hnext⟩

end Marking

end RegionMark
