import RegionMark.Proofs.MarkStack.Ownership

/-!
# 中身のスタック

1 つのスレッドから使うマークスタックは、チャンクの中身を積むスタックとして振る舞う。使い回した
チャンクに残る前の中身は読まれない。
-/

namespace RegionMark

/-! ## 項目の並び -/

theorem entriesBeforeNull_append_null {kept rest : List TaskEntry} (h : ∀ e ∈ kept, e.isNull = false) :
    entriesBeforeNull (kept ++ .null :: rest) = kept := by
  rw [entriesBeforeNull, List.takeWhile_append_of_pos (by simpa using h),
    List.takeWhile_cons_of_neg (by decide), List.append_nil]

theorem entriesBeforeNull_of_forall {kept : List TaskEntry} (h : ∀ e ∈ kept, e.isNull = false) :
    entriesBeforeNull kept = kept :=
  List.takeWhile_eq_self_iff.mpr (by simpa using h)

theorem isNull_of_mem_entriesBeforeNull {es : List TaskEntry} {e : TaskEntry}
    (h : e ∈ entriesBeforeNull es) : e.isNull = false := by
  simpa using List.mem_takeWhile_imp h

theorem length_entriesBeforeNull_le (es : List TaskEntry) : (entriesBeforeNull es).length ≤ es.length :=
  (List.takeWhile_prefix _).length_le

theorem length_readChunk_le (raw : List TaskEntry) (epc : Nat) : (readChunk raw epc).length ≤ epc :=
  Nat.le_trans (length_entriesBeforeNull_le _) (List.length_take_le _ _)

theorem readChunk_writeChunk {raw kept : List TaskEntry} {epc : Nat} (h : ∀ e ∈ kept, e.isNull = false)
    (hl : kept.length ≤ epc) : readChunk (writeChunk raw kept epc) epc = kept := by
  unfold readChunk writeChunk
  split
  · rename_i hlt
    obtain ⟨k, hk⟩ : ∃ k, epc - kept.length = k + 1 := ⟨epc - kept.length - 1, by omega⟩
    rw [List.take_append, List.take_of_length_le hl, hk, List.take_succ_cons,
      entriesBeforeNull_append_null h]
  · rename_i hge
    rw [List.take_append_of_le_length (Nat.le_of_not_lt hge), List.take_of_length_le hl,
      entriesBeforeNull_of_forall h]

theorem length_fillBuffer {buf es : List TaskEntry} (hl : es.length ≤ buf.length) :
    (fillBuffer buf es).length = buf.length := by
  unfold fillBuffer
  split
  · simp only [List.length_append, List.length_cons, List.length_nil, List.length_drop]
    omega
  · omega

/-- 取り出した項目 `es` はバッファの先頭に入り、余地があればその次に null が入り、バッファのほかの所は
元のまま残る。 -/
theorem getElem?_fillBuffer {buf es : List TaskEntry} (hl : es.length ≤ buf.length) (i : Nat) :
    (fillBuffer buf es)[i]? = if i < es.length then es[i]?
      else if i = es.length ∧ i < buf.length then some .null else buf[i]? := by
  unfold fillBuffer
  split
  · rename_i hlt
    rcases Nat.lt_trichotomy i es.length with hi | rfl | hi
    · simp [hi, List.getElem?_append_left]
    · simp [hlt]
    · have hne : i ≠ es.length := Nat.ne_of_gt hi
      simp only [List.append_assoc, List.cons_append, List.nil_append, Nat.not_lt.mpr (Nat.le_of_lt hi),
        ↓reduceIte, hne, false_and]
      rw [List.getElem?_append_right (Nat.le_of_lt hi)]
      obtain ⟨k, hk⟩ : ∃ k, i - es.length = k + 1 := ⟨i - es.length - 1, by omega⟩
      rw [hk, List.getElem?_cons_succ, List.getElem?_drop]
      congr 1
      omega
  · rename_i hge
    have heq : es.length = buf.length := by omega
    by_cases hi : i < es.length
    · simp [hi]
    · rw [if_neg hi, if_neg (by omega), List.getElem?_eq_none (by omega), List.getElem?_eq_none (by omega)]

namespace MarkStack

/-! ## 中身 -/

/-- チャンク `ids` の中身を、この順に読んだもの。 -/
def contents (s : MarkStack) (ids : List Nat) : List (List TaskEntry) :=
  ids.map fun id => readChunk (s.slot id).entries s.entriesPerChunk

/-- スタック `s` のデータのリストが、先頭から順に中身 `A` を持つ。 -/
def Stores (s : MarkStack) (A : List (List TaskEntry)) : Prop :=
  ∃ data, Chain s s.dataHead data ∧ s.contents data = A

variable {s t s₁ : MarkStack} {I data free ids : List Nat} {es : List TaskEntry} {a : Chunk.Allocator}
  {A : List (List TaskEntry)} {id : Nat}

theorem contents_congr (h : ∀ id ∈ ids, (t.slot id).entries = (s.slot id).entries)
    (he : t.entriesPerChunk = s.entriesPerChunk) : t.contents ids = s.contents ids := by
  unfold contents
  rw [he]
  exact List.map_congr_left fun id hid => by rw [h id hid]

theorem contents_setNext {link : Nat} : (s.setNext id link).contents ids = s.contents ids :=
  contents_congr (fun j _ => by by_cases hj : j = id <;> simp [hj]) (by simp [entriesPerChunk])

theorem contents_setSlot {c : ChunkSlot} (hid : id ∉ ids) :
    (s.setSlot id c).contents (id :: ids) = readChunk c.entries s.entriesPerChunk :: s.contents ids := by
  have he : (s.setSlot id c).entriesPerChunk = s.entriesPerChunk := by simp [entriesPerChunk]
  simp only [contents, List.map_cons, slot_setSlot, ↓reduceIte, he, List.cons.injEq, true_and]
  exact List.map_congr_left fun j hj => by rw [if_neg fun e : j = id => hid (e ▸ hj)]

/-- 積み込みは、積んだ項目の最初の null より前をデータのリストの先頭の中身にし、ほかの中身を変えない。 -/
theorem contents_push {n : Nat} (hid : id ∉ ids) (hl : es.length ≤ s₁.entriesPerChunk) :
    ({ s₁.setSlot id ⟨s₁.dataHead, writeChunk (s₁.slot id).entries
        ((entriesBeforeNull es).take s₁.entriesPerChunk) s₁.entriesPerChunk⟩
      with dataHead := id + 1, count := n } : MarkStack).contents (id :: ids) =
      entriesBeforeNull es :: s₁.contents ids := by
  have hk : (entriesBeforeNull es).take s₁.entriesPerChunk = entriesBeforeNull es :=
    List.take_of_length_le (Nat.le_trans (length_entriesBeforeNull_le es) hl)
  show (s₁.setSlot id _).contents (id :: ids) = _
  rw [contents_setSlot hid, hk,
    readChunk_writeChunk (fun _ => isNull_of_mem_entriesBeforeNull)
      (Nat.le_trans (length_entriesBeforeNull_le es) hl)]

theorem Stores.of_alloc (h : s.Stores A) (he : a.entriesPerChunk = s.alloc.entriesPerChunk) :
    Stores { s with alloc := a } A := by
  obtain ⟨data, hc, rfl⟩ := h
  exact ⟨data, hc.of_slots_eq rfl, contents_congr (fun _ _ => rfl) he⟩

/-! ## 操作ごとの振る舞い -/

namespace Owns

theorem stores (ho : Owns s I data free) : s.Stores (s.contents data) :=
  ⟨data, ho.data_chain, rfl⟩

/-- 1 チャンクに収まる項目の積み込みは、空きのリストにチャンクがあるか、割り当て器が新しい番号を渡せる
ときに限って成功し、最初の null より前の項目を積む。失敗すれば、割り当て器の最高水位が最大より小さい
ときにそれを 1 つ進め、番号を覆うまでの予約を断られたときは断られる前に加えたバケットを残すほかは、何も
変えない。 -/
theorem push_spec (ho : Owns s I data free) (hfit : s.alloc.Fits) (hl : es.length ≤ s.entriesPerChunk) :
    ∃ ok t, s.push es = .ok (ok, t) ∧
      (ok = true ↔ free ≠ [] ∨ s.alloc.highWater < s.alloc.maxCapacity ∧
        (s.alloc.highWater < s.alloc.capacity ∨
          s.alloc.shouldGrow = true ∧ s.alloc.Reserves s.alloc.highWater)) ∧
      (ok = true → t.Stores (entriesBeforeNull es :: s.contents data)) ∧
      (ok = false → ∃ c, t = { s with alloc := { s.alloc with capacity := c, highWater :=
        if s.alloc.highWater < s.alloc.maxCapacity then s.alloc.highWater + 1 else s.alloc.highWater } } ∧ s.alloc.capacity ≤ c ∧
        (c = s.alloc.capacity ∨ s.alloc.shouldGrow = true ∧ ¬s.alloc.Reserves s.alloc.highWater)) := by
  by_cases hf0 : s.freeHead = 0
  case neg =>
    obtain ⟨id, hf⟩ := Nat.exists_eq_add_one_of_ne_zero hf0
    have hfree : free ≠ [] := (ho.free_chain.ne_nil_iff).mpr (by omega)
    have hp := push_of_some hl (takeChunk_of_succ hf)
    refine ⟨true, _, hp, by simp [hfree], fun _ => ?_, fun h => absurd h (by decide)⟩
    obtain ⟨rest, ho'⟩ := ho.push_reused hl hf hp
    exact ⟨_, ho'.data_chain, contents_push (ho'.head_not_mem) hl⟩
  case pos =>
    have hf := hf0
    have hfree : free = [] := (hf ▸ ho.free_chain : Chain s 0 free).eq_nil
    rcases Chunk.Allocator.allocate_cases ho.shaped hfit with ⟨hm, hcg, a', ha⟩ | ⟨hn, ha⟩
    · have ht : s.takeChunk = .ok (some s.alloc.highWater, { s with alloc := a' }.setNext s.alloc.highWater 0) := by
        rw [takeChunk_of_zero hf, ha]
        rfl
      have hp := push_of_some hl ht
      refine ⟨true, _, hp, by simp [hm, hcg], fun _ => ?_, fun h => absurd h (by decide)⟩
      have ho' := ho.push_fresh hl hf ha hp
      have he := takeChunk_entriesPerChunk ht ho.shaped
      refine ⟨_, ho'.data_chain, ?_⟩
      rw [contents_push ho'.head_not_mem (he ▸ hl), contents_setNext]
      exact congrArg _ (contents_congr (fun _ _ => rfl) (by simpa only [entriesPerChunk, alloc_setNext] using he))
    · obtain ⟨c, ha, hle, hc⟩ := ha
      have hp := push_of_none hl (by rw [takeChunk_of_zero hf, ha]; rfl)
      exact ⟨false, _, hp, by simp [hfree, hn], fun h => absurd h (by decide), fun _ => ⟨c, rfl, hle, hc⟩⟩

/-- 1 チャンク分の余地のあるバッファへの取り出しは、中身のスタックが空なら `false` を返してバッファも
スタックも変えない。空でなければ、最後に積んだ中身をバッファの先頭に写し、余地があればその次に null を
書き、その中身をスタックから除く。 -/
theorem pop_spec {out : List TaskEntry} (ho : Owns s I data free) (hr : s.entriesPerChunk ≤ out.length) :
    ∃ ok out' t, s.popInto out = .ok (ok, out', t) ∧ (ok = false ↔ data = []) ∧
      (ok = false → out' = out ∧ t = s) ∧
      ∀ top A', s.contents data = top :: A' → t.Stores A' ∧ out'.length = out.length ∧
        ∀ i, out'[i]? = if i < top.length then top[i]?
          else if i = top.length ∧ i < out.length then some .null else out[i]? := by
  by_cases hd0 : s.dataHead = 0
  case pos =>
    have hd := hd0
    have hdata : data = [] := (hd ▸ ho.data_chain : Chain s 0 data).eq_nil
    refine ⟨false, out, s, ?_, by simp [hdata], fun _ => ⟨rfl, rfl⟩, fun c A' h => ?_⟩
    · rw [popInto_eq, pop_of_zero hr hd]
      rfl
    · simp [hdata, contents] at h
  case neg =>
    obtain ⟨id, hd⟩ := Nat.exists_eq_add_one_of_ne_zero hd0
    obtain ⟨rest, rfl, hrest⟩ := (hd ▸ ho.data_chain : Chain s (id + 1) data).succ_inv
    have hnr : id ∉ rest := (List.nodup_cons.mp ho.data_chain.nodup).1
    have hnf : id ∉ free := ho.not_mem_free_of_data List.mem_cons_self
    have hc : (readChunk (s.slot id).entries s.entriesPerChunk).length ≤ out.length :=
      Nat.le_trans (length_readChunk_le _ _) hr
    refine ⟨true, _, _, by rw [popInto_eq, pop_of_succ hr hd]; rfl, by simp, fun h => absurd h (by decide),
      fun c A' h => ?_⟩
    simp only [contents, List.map_cons, List.cons.injEq] at h
    obtain ⟨rfl, rfl⟩ := h
    refine ⟨⟨rest, ?_, ?_⟩, length_fillBuffer hc, getElem?_fillBuffer hc⟩
    · simpa only [dataHead_setNext] using (Chain.unlink (n := Word.wrapSub s.count 1) hrest ho.free_chain hnr hnf).1
    · show (MarkStack.setNext _ id _).contents rest = _
      rw [contents_setNext]
      rfl

theorem tryExpand_spec (ho : Owns s I data free) (hfit : s.alloc.Fits) :
    ∃ r, s.tryExpand = .ok r ∧ ∀ t, r = .ok t → t.Stores (s.contents data) := by
  by_cases hle : s.alloc.maxCapacity ≤ s.alloc.capacity
  · refine ⟨.error (.stackExhausted s.alloc.maxCapacity), ?_, fun t h => by cases h⟩
    simp only [MarkStack.tryExpand, Chunk.Allocator.tryExpand_of_le hle]
    rfl
  have hexp := Chunk.Allocator.tryExpand_of_fits ho.shaped hfit (Nat.lt_of_not_le hle)
  cases hr : s.alloc.memory.reserves (s.alloc.capacity * s.alloc.chunkBytes) with
  | false =>
    -- 断られた予約は何も変えない
    simp only [hr, Bool.false_eq_true, ↓reduceIte] at hexp
    refine ⟨.error (.reservation (s.alloc.capacity * s.alloc.chunkBytes)), ?_, fun t h => by cases h⟩
    simp only [MarkStack.tryExpand, hexp]
    rfl
  | true =>
    simp only [hr, ↓reduceIte] at hexp
    refine ⟨.ok { s with alloc := { s.alloc with capacity := 2 * s.alloc.capacity } }, ?_, fun t h => ?_⟩
    · simp only [MarkStack.tryExpand, hexp]
      rfl
    · cases h
      exact ho.stores.of_alloc rfl

theorem expand_of_nonempty (ho : Owns s I data free) (hne : data ≠ []) :
    ∃ p, s.expand = .error p := by
  have hh : s.dataHead ≠ 0 := (ho.data_chain.ne_nil_iff).mp hne
  refine ⟨.violated "only an empty mark stack may expand", ?_⟩
  simp [MarkStack.expand, isEmpty, hh]
  rfl

theorem expand_of_empty (ho : Owns s I [] free) : s.expand = s.tryExpand := by
  have hh : s.dataHead = 0 := Decidable.of_not_not fun h => (ho.data_chain.ne_nil_iff).mpr h rfl
  simp only [MarkStack.expand, isEmpty, hh, beq_self_eq_true, Bool.not_true, Bool.false_eq_true, ↓reduceIte]

end Owns

/-! ## 中身のスタックとしての振る舞い -/

/-- スタック `s` が、中身のスタック `A`（先頭が最後に積んだ中身）と空きのリスト `free` を持ち、どの操作も
中身のスタックの上の操作として振る舞うこと。 -/
structure Refines (s : MarkStack) (A : List (List TaskEntry)) (free : List Nat) : Prop where
  stores : s.Stores A
  free_chain : Chain s s.freeHead free
  count_eq : s.count = A.length
  length_lt : A.length < 2 ^ 32
  push : ∀ es : List TaskEntry, es.length ≤ s.entriesPerChunk → ∃ ok t, s.push es = .ok (ok, t) ∧
    (ok = true ↔ free ≠ [] ∨ s.alloc.highWater < s.alloc.maxCapacity ∧
      (s.alloc.highWater < s.alloc.capacity ∨
        s.alloc.shouldGrow = true ∧ s.alloc.Reserves s.alloc.highWater)) ∧
    (ok = true → t.Stores (entriesBeforeNull es :: A)) ∧
    (ok = false → ∃ c, t = { s with alloc := { s.alloc with capacity := c, highWater :=
      if s.alloc.highWater < s.alloc.maxCapacity then s.alloc.highWater + 1 else s.alloc.highWater } } ∧ s.alloc.capacity ≤ c ∧
      (c = s.alloc.capacity ∨ s.alloc.shouldGrow = true ∧ ¬s.alloc.Reserves s.alloc.highWater))
  pop : ∀ out : List TaskEntry, s.entriesPerChunk ≤ out.length →
    ∃ ok out' t, s.popInto out = .ok (ok, out', t) ∧ (ok = false ↔ A = []) ∧
      (ok = false → out' = out ∧ t = s) ∧
      ∀ top A', A = top :: A' → t.Stores A' ∧ out'.length = out.length ∧
        ∀ i, out'[i]? = if i < top.length then top[i]?
          else if i = top.length ∧ i < out.length then some .null else out[i]?
  setEmpty : s.setEmpty.Stores []
  setShouldGrow : ∀ g, (s.setShouldGrow g).Stores A
  tryExpand : ∃ r, s.tryExpand = .ok r ∧ ∀ t, r = .ok t → t.Stores A
  expand_nonempty : A ≠ [] → ∃ p, s.expand = .error p
  expand_empty : A = [] → s.expand = s.tryExpand

theorem Owns.refines (ho : Owns s I data free) (hfit : s.alloc.Fits) : s.Refines (s.contents data) free where
  stores := ho.stores
  free_chain := ho.free_chain
  count_eq := by rw [ho.count_eq, contents, List.length_map]
  length_lt := by
    rw [contents, List.length_map]
    exact ho.length_lt
  push _ hl := ho.push_spec hfit hl
  pop _ hr := by
    obtain ⟨ok, out', t, h, hok, hfalse, htrue⟩ := ho.pop_spec hr
    exact ⟨ok, out', t, h, by simpa [contents] using hok, hfalse, htrue⟩
  setEmpty := ⟨[], .nil, rfl⟩
  setShouldGrow _ := ho.stores.of_alloc rfl
  tryExpand := ho.tryExpand_spec hfit
  expand_nonempty hne := ho.expand_of_nonempty fun h => hne (by simp [h, contents])
  expand_empty he := by
    rw [contents, List.map_eq_nil_iff] at he
    subst he
    exact ho.expand_of_empty

end MarkStack

end RegionMark
