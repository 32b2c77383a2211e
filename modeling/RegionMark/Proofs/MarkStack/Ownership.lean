import RegionMark.Proofs.MarkStack.Lists

/-!
# チャンクの持ち主

1 つのスレッドから操作するマークスタックでは、割り当て器が渡したチャンクは、データのリストか空きの
リストのどちらかにちょうど 1 度ずつ載る。割り当て器だけを戻す操作はこれを崩すので、ここでは扱わない。
-/

namespace RegionMark.MarkStack

/-! ## 操作と走り -/

/-- 1 つのスレッドからマークスタックに対して行う操作。 -/
inductive Op where
  | push (es : List TaskEntry)
  | pop (out : List TaskEntry)
  | setEmpty
  | setShouldGrow (b : Bool)
  | expand
  | tryExpand

namespace Op

/-- 操作のあとのスタック。伸長を断られたとき、スタックは変わらない。 -/
def apply : Op → MarkStack → Except Panic MarkStack
  | .push es, s => Prod.snd <$> s.push es
  | .pop out, s => (fun r => r.2.2) <$> s.popInto out
  | .setEmpty, s => pure s.setEmpty
  | .setShouldGrow b, s => pure (s.setShouldGrow b)
  | .expand, s => (fun r => match r with | .ok t => t | .error _ => s) <$> s.expand
  | .tryExpand, s => (fun r => match r with | .ok t => t | .error _ => s) <$> s.tryExpand

/-- 操作のあいだに割り当て器が新しく渡すチャンクの番号。空きのリストが空のときの積み込みだけが、
割り当て器にチャンクを求める。 -/
def issue : Op → MarkStack → Option Nat
  | .push _, s =>
    if s.freeHead = 0 then (match s.alloc.allocate with | .ok (r, _) => r | .error _ => none) else none
  | _, _ => none

/-- 作ってから、または最後に空にしてから割り当て器が渡したチャンクの番号を、操作のあとに改める。 -/
def issued : Op → MarkStack → List Nat → List Nat
  | .setEmpty, _, _ => []
  | op, s, I => I ++ (op.issue s).toList

end Op

/-- `MarkStack.new` から操作を重ねて届くスタックと、作ってから、または最後に空にしてから割り当て器が
渡したチャンクの番号。 -/
inductive Reach : MarkStack → List Nat → Prop where
  | new {m : Memory} {lo hi epc : Nat} {s : MarkStack} : MarkStack.new m lo hi epc = .ok (.ok s) → Reach s []
  | step {s t : MarkStack} {I : List Nat} (op : Op) : Reach s I → op.apply s = .ok t →
      Reach t (op.issued s I)

/-! ## 不変条件 -/

/-- チャンクの持ち主の不変条件：渡したチャンク `issued` が、データのリスト `data` と空きのリスト
`free` に分かれて 1 度ずつ載る。 -/
structure Owns (s : MarkStack) (issued data free : List Nat) : Prop where
  data_chain : Chain s s.dataHead data
  free_chain : Chain s s.freeHead free
  nodup : (data ++ free).Nodup
  mem_iff : ∀ id, id ∈ data ++ free ↔ id ∈ issued
  below : ∀ id ∈ issued, id < s.alloc.highWater ∧ id < s.alloc.capacity
  count_eq : s.count = data.length
  shaped : s.alloc.Shaped

theorem length_le_of_forall_lt {l : List Nat} {n : Nat} (hd : l.Nodup) (hb : ∀ x ∈ l, x < n) :
    l.length ≤ n := by
  have := (List.subperm_of_subset hd fun x hx => List.mem_range.mpr (hb x hx)).length_le
  rwa [List.length_range] at this

theorem exists_of_map_eq_ok {α β : Type} {f : α → β} {x : Except Panic α} {y : β}
    (h : f <$> x = .ok y) : ∃ a, x = .ok a ∧ f a = y := by
  cases x with
  | error e => cases h
  | ok a => exact ⟨a, rfl, by cases h; rfl⟩

variable {s t : MarkStack} {I data free : List Nat} {es : List TaskEntry} {a : Chunk.Allocator}
  {b : Bool} {id : Nat}

namespace Owns

theorem mem_data (ho : Owns s I data free) {x : Nat} (h : x ∈ data) : x ∈ I :=
  (ho.mem_iff x).mp (List.mem_append_left _ h)

theorem not_mem_free_of_data (ho : Owns s I data free) {x : Nat} (h : x ∈ data) : x ∉ free :=
  List.disjoint_of_nodup_append ho.nodup h

theorem head_not_mem {rest : List Nat} (ho : Owns s I (id :: rest) free) : id ∉ rest :=
  (List.nodup_cons.mp ho.nodup.of_append_left).1

theorem length_lt (ho : Owns s I data free) : data.length < 2 ^ 32 := by
  have hlen : data.length ≤ s.alloc.capacity :=
    length_le_of_forall_lt ho.nodup.of_append_left fun x hx => (ho.below x (ho.mem_data hx)).2
  exact Nat.lt_of_le_of_lt (Nat.le_trans hlen ho.shaped.capacity_le) ho.shaped.maxCapacity_lt

theorem wrapAdd_count (ho : Owns s I data free) : Word.wrapAdd s.count 1 = data.length + 1 := by
  have := ho.length_lt
  have : 2 ^ 32 < Word.bound := by decide
  rw [Word.wrapAdd, ho.count_eq]
  exact Nat.mod_eq_of_lt (by omega)

theorem wrapSub_count {rest : List Nat} (ho : Owns s I (id :: rest) free) :
    Word.wrapSub s.count 1 = rest.length := by
  have := ho.length_lt
  have : 2 ^ 32 < Word.bound := by decide
  simp only [List.length_cons] at *
  rw [Word.wrapSub, ho.count_eq, List.length_cons,
    show Word.bound + (rest.length + 1) - 1 = Word.bound + rest.length by omega, Nat.add_mod_left]
  exact Nat.mod_eq_of_lt (by omega)

theorem of_alloc (ho : Owns s I data free) (hs : a.Shaped) (hhw : s.alloc.highWater ≤ a.highWater)
    (hcap : s.alloc.capacity ≤ a.capacity) : Owns { s with alloc := a } I data free where
  data_chain := ho.data_chain.of_slots_eq rfl
  free_chain := ho.free_chain.of_slots_eq rfl
  nodup := ho.nodup
  mem_iff := ho.mem_iff
  below x hx := by
    obtain ⟨h₁, h₂⟩ := ho.below x hx
    exact ⟨Nat.lt_of_lt_of_le h₁ hhw, Nat.lt_of_lt_of_le h₂ hcap⟩
  count_eq := ho.count_eq
  shaped := hs

theorem of_new {m : Memory} {lo hi epc : Nat} (h : MarkStack.new m lo hi epc = .ok (.ok s)) :
    Owns s [] [] [] := by
  simp only [MarkStack.new, bind, Except.bind] at h
  split at h
  · cases h
  · rename_i r hr
    cases r with
    | error e => cases h
    | ok a =>
      cases h
      exact ⟨.nil, .nil, List.nodup_nil, by simp, by simp, rfl, (Chunk.Allocator.new_ok hr).1⟩

theorem of_setEmpty (hs : s.alloc.Shaped) : Owns s.setEmpty [] [] [] :=
  ⟨.nil, .nil, List.nodup_nil, by simp, by simp, rfl, hs.reset⟩

/-! ## 積み込み -/

theorem push_reused (ho : Owns s I data free) (hl : es.length ≤ s.entriesPerChunk)
    (hf : s.freeHead = id + 1) (h : s.push es = .ok (b, t)) : ∃ rest, Owns t I (id :: data) rest := by
  obtain ⟨rest, rfl, hrest⟩ := (hf ▸ ho.free_chain : Chain s (id + 1) free).succ_inv
  have hnd : id ∉ data := fun hm => ho.not_mem_free_of_data hm List.mem_cons_self
  have hnr : id ∉ rest := (List.nodup_cons.mp ho.nodup.of_append_right).1
  have hu : ({ s with freeHead := (s.slot id).next } : MarkStack).slots = s.slots := rfl
  rw [push_of_some hl (takeChunk_of_succ hf)] at h
  cases h
  refine ⟨rest, Chain.link (ho.data_chain.of_slots_eq rfl) hnd, ?_, List.nodup_middle.mp ho.nodup,
    fun x => ?_, fun x hx => ?_, ho.wrapAdd_count, ?_⟩
  · simp only [freeHead_setSlot]
    exact ((hrest.of_slots_eq hu).setSlot hnr).of_slots_eq rfl
  · rw [← ho.mem_iff x]
    simp only [List.mem_append, List.mem_cons]
    tauto
  · simpa only [alloc_setSlot] using ho.below x hx
  · simpa only [alloc_setSlot] using ho.shaped

/-- 空きのリストが空のとき、割り当て器が最高水位から渡したチャンク `id` がデータのリストの先頭に載る。 -/
theorem push_fresh (ho : Owns s I data free) (hl : es.length ≤ s.entriesPerChunk)
    (hh : s.freeHead = 0) (ha : s.alloc.allocate = .ok (some id, a)) (h : s.push es = .ok (b, t)) :
    Owns t (I ++ [id]) (id :: data) [] := by
  obtain rfl : free = [] := (hh ▸ ho.free_chain : Chain s 0 free).eq_nil
  obtain ⟨hs, hhw, hcap, -, hid⟩ := Chunk.Allocator.allocate_ok ho.shaped ha
  obtain ⟨hid, hhw', hcap'⟩ := hid id rfl
  have hnd : id ∉ data := fun hm => by
    have := (ho.below id (ho.mem_data hm)).1
    omega
  have ht : s.takeChunk = .ok (some id, { s with alloc := a }.setNext id 0) := by
    rw [takeChunk_of_zero hh, ha]
    rfl
  rw [push_of_some hl ht] at h
  cases h
  have hd : Chain ({ s with alloc := a }.setNext id 0) ({ s with alloc := a }.setNext id 0).dataHead data := by
    have hu : ({ s with alloc := a } : MarkStack).slots = s.slots := rfl
    rw [dataHead_setNext]
    exact (ho.data_chain.of_slots_eq hu).setNext hnd
  refine ⟨hd.link hnd, ?_, by simpa [hnd] using ho.nodup, fun x => ?_, fun x hx => ?_, ?_, ?_⟩
  · simp only [freeHead_setSlot, freeHead_setNext]
    rw [hh]
    exact .nil
  · have := ho.mem_iff x
    simp only [List.append_nil, List.mem_cons, List.mem_append] at this ⊢
    tauto
  · simp only [alloc_setSlot, alloc_setNext]
    rcases List.mem_append.mp hx with hx | hx
    · obtain ⟨h₁, h₂⟩ := ho.below x hx
      omega
    · rw [List.mem_singleton] at hx
      omega
  · show Word.wrapAdd ({ s with alloc := a }.setNext id 0).count 1 = _
    rw [count_setNext]
    exact ho.wrapAdd_count
  · simpa only [alloc_setSlot, alloc_setNext] using hs

/-- 割り当て器がチャンクを渡さなければ、積み込みは割り当て器の最高水位を動かすだけである。 -/
theorem push_refused (ho : Owns s I data free) (hl : es.length ≤ s.entriesPerChunk)
    (hh : s.freeHead = 0) (ha : s.alloc.allocate = .ok (none, a)) (h : s.push es = .ok (b, t)) :
    Owns t I data free := by
  have ht : s.takeChunk = .ok (none, { s with alloc := a }) := by
    rw [takeChunk_of_zero hh, ha]
    rfl
  rw [push_of_none hl ht] at h
  cases h
  obtain ⟨hs, hhw, hcap, -, -⟩ := Chunk.Allocator.allocate_ok ho.shaped ha
  exact ho.of_alloc hs hhw hcap

theorem push (ho : Owns s I data free) (h : s.push es = .ok (b, t)) :
    ∃ data' free', Owns t ((Op.push es).issued s I) data' free' := by
  by_cases hl : s.entriesPerChunk < es.length
  · rw [push_of_long hl] at h
    cases h
  replace hl := Nat.le_of_not_lt hl
  cases hf : s.freeHead with
  | succ id =>
    obtain ⟨rest, ho'⟩ := ho.push_reused hl hf h
    exact ⟨_, _, by simpa [Op.issued, Op.issue, hf] using ho'⟩
  | zero =>
    cases ha : s.alloc.allocate with
    | error p =>
      rw [push_of_error hl (by rw [takeChunk_of_zero hf, ha]; rfl)] at h
      cases h
    | ok r =>
      obtain ⟨r, a⟩ := r
      cases r with
      | none => exact ⟨_, _, by simpa [Op.issued, Op.issue, hf, ha] using ho.push_refused hl hf ha h⟩
      | some id => exact ⟨_, _, by simpa [Op.issued, Op.issue, hf, ha] using ho.push_fresh hl hf ha h⟩

/-! ## 取り出しとほかの操作 -/

theorem popInto {out out' : List TaskEntry} (ho : Owns s I data free)
    (h : s.popInto out = .ok (b, out', t)) : ∃ data' free', Owns t I data' free' := by
  rw [popInto_eq] at h
  by_cases hr : out.length < s.entriesPerChunk
  · rw [pop_of_short hr] at h
    cases h
  replace hr := Nat.le_of_not_lt hr
  cases hd : s.dataHead with
  | zero =>
    rw [pop_of_zero hr hd] at h
    cases h
    exact ⟨data, free, ho⟩
  | succ id =>
    rw [pop_of_succ hr hd] at h
    cases h
    obtain ⟨rest, rfl, hrest⟩ := (hd ▸ ho.data_chain : Chain s (id + 1) data).succ_inv
    have hnr : id ∉ rest := (List.nodup_cons.mp ho.data_chain.nodup).1
    have hnf : id ∉ free := ho.not_mem_free_of_data List.mem_cons_self
    obtain ⟨hdata, hfree⟩ := Chain.unlink (n := Word.wrapSub s.count 1) hrest ho.free_chain hnr hnf
    refine ⟨rest, id :: free, ?_, hfree, List.nodup_middle.mpr ho.nodup, fun x => ?_, ?_, ?_, ?_⟩
    · simpa only [dataHead_setNext] using hdata
    · rw [← ho.mem_iff x]
      simp only [List.mem_append, List.mem_cons]
      tauto
    · simpa only [alloc_setNext] using ho.below
    · simpa only [count_setNext] using ho.wrapSub_count
    · simpa only [alloc_setNext] using ho.shaped

theorem tryExpand (ho : Owns s I data free) (h : s.tryExpand = .ok (.ok t)) : Owns t I data free := by
  simp only [MarkStack.tryExpand, bind, Except.bind] at h
  split at h
  · cases h
  · rename_i r ha
    cases r with
    | error e => cases h
    | ok a' =>
    cases h
    obtain ⟨hlt, rfl⟩ := Chunk.Allocator.tryExpand_ok ho.shaped ha
    exact ho.of_alloc (ho.shaped.double hlt) (Nat.le_refl _) (by simp only; omega)

theorem expand_eq (h : s.expand = .ok r) : s.tryExpand = .ok r := by
  simp only [MarkStack.expand] at h
  split at h
  · cases h
  · exact h

theorem step {op : Op} (ho : Owns s I data free) (h : op.apply s = .ok t) :
    ∃ data' free', Owns t (op.issued s I) data' free' := by
  cases op with
  | push es =>
    obtain ⟨⟨b, t'⟩, hp, rfl⟩ := exists_of_map_eq_ok h
    exact ho.push hp
  | pop out =>
    obtain ⟨⟨b, out', t'⟩, hp, rfl⟩ := exists_of_map_eq_ok h
    simpa [Op.issued, Op.issue] using ho.popInto hp
  | setEmpty =>
    cases h
    exact ⟨[], [], of_setEmpty ho.shaped⟩
  | setShouldGrow g =>
    cases h
    have hs : Chunk.Allocator.Shaped { s.alloc with shouldGrow := g } :=
      ⟨ho.shaped.capacity_pow, ho.shaped.max_pow, ho.shaped.capacity_le, ho.shaped.highWater_le⟩
    have ho' : Owns (s.setShouldGrow g) I data free := ho.of_alloc hs (Nat.le_refl _) (Nat.le_refl _)
    exact ⟨data, free, by simpa [Op.issued, Op.issue] using ho'⟩
  | expand =>
    obtain ⟨r, hp, rfl⟩ := exists_of_map_eq_ok h
    cases r with
    | error => exact ⟨data, free, by simpa [Op.issued, Op.issue] using ho⟩
    | ok t' => exact ⟨data, free, by simpa [Op.issued, Op.issue] using ho.tryExpand (expand_eq hp)⟩
  | tryExpand =>
    obtain ⟨r, hp, rfl⟩ := exists_of_map_eq_ok h
    cases r with
    | error => exact ⟨data, free, by simpa [Op.issued, Op.issue] using ho⟩
    | ok t' => exact ⟨data, free, by simpa [Op.issued, Op.issue] using ho.tryExpand hp⟩

end Owns

theorem Reach.owns (h : Reach s I) : ∃ data free, Owns s I data free := by
  induction h with
  | new hn => exact ⟨[], [], Owns.of_new hn⟩
  | step op _ hs ih =>
    obtain ⟨data, free, ho⟩ := ih
    exact ho.step hs

/-! ## 届くスタックでのチャンクの持ち主 -/

/-- 届くスタックでは、データのリストと空きのリストはどちらも 0 に着く有限のリストで、同じチャンクを
2 度通らない。渡したチャンクはどれも 2 つのリストを合わせてちょうど 1 度現れ、ほかのチャンクは現れない。
載ったチャンクは最高水位と容量より小さく、数えたチャンクの数はデータのリストの長さに等しい。 -/
theorem Reach.chunk_lists_partition_issued (h : Reach s I) :
    ∃ data free, Chain s s.dataHead data ∧ Chain s s.freeHead free ∧ data.Nodup ∧ free.Nodup ∧
      (∀ id ∈ I, data.count id + free.count id = 1) ∧ (∀ id ∈ data ++ free, id ∈ I) ∧
      (∀ id ∈ data ++ free, id < s.alloc.highWater ∧ id < s.alloc.capacity) ∧
      s.count = data.length := by
  obtain ⟨data, free, ho⟩ := h.owns
  refine ⟨data, free, ho.data_chain, ho.free_chain, ho.nodup.of_append_left, ho.nodup.of_append_right,
    fun id hid => ?_, fun id hid => (ho.mem_iff id).mp hid,
    fun id hid => ho.below id ((ho.mem_iff id).mp hid), ho.count_eq⟩
  rw [← List.count_append]
  exact List.count_eq_one_of_mem ho.nodup ((ho.mem_iff id).mpr hid)

/-- 作ってから 2 度積んで 1 度取り出したスタック：チャンク 0 と 1 を渡し、1 を空きのリストに戻している。 -/
theorem reach_two_pushes_and_a_pop :
    Reach ⟨⟨4, 80, 1, 8, 2, 2, false, Memory.standard⟩, #[⟨0, [.obj 1, .obj 2, .null]⟩, ⟨0, [.obj 3, .null]⟩], 1, 2, 1⟩
      [0, 1] := by
  -- 最小の容量を 2 の冪に切り上げる計算は整礎な再帰なので、展開を許して評価する
  have h₀ : Reach ⟨⟨4, 80, 1, 8, 2, 0, false, Memory.standard⟩, #[], 0, 0, 0⟩ [] :=
    @Reach.new Memory.standard 2 8 4 _ (by with_unfolding_all rfl)
  have h₁ := h₀.step (.push [.obj 1, .obj 2]) rfl
  have h₂ := h₁.step (.push [.obj 3]) rfl
  exact h₂.step (.pop [.null, .null, .null, .null]) rfl

theorem chunk_lists_after_two_pushes_and_a_pop :
    Reach ⟨⟨4, 80, 1, 8, 2, 2, false, Memory.standard⟩, #[⟨0, [.obj 1, .obj 2, .null]⟩, ⟨0, [.obj 3, .null]⟩], 1, 2, 1⟩
        [0, 1] ∧
      ∃ data free,
        Chain ⟨⟨4, 80, 1, 8, 2, 2, false, Memory.standard⟩, #[⟨0, [.obj 1, .obj 2, .null]⟩, ⟨0, [.obj 3, .null]⟩], 1, 2, 1⟩ 1 data ∧
        Chain ⟨⟨4, 80, 1, 8, 2, 2, false, Memory.standard⟩, #[⟨0, [.obj 1, .obj 2, .null]⟩, ⟨0, [.obj 3, .null]⟩], 1, 2, 1⟩ 2 free ∧
        data.Nodup ∧ free.Nodup ∧ (∀ id ∈ [0, 1], data.count id + free.count id = 1) ∧
        (∀ id ∈ data ++ free, id ∈ [0, 1]) ∧ (∀ id ∈ data ++ free, id < 2 ∧ id < 2) ∧ 1 = data.length :=
  ⟨reach_two_pushes_and_a_pop, Reach.chunk_lists_partition_issued reach_two_pushes_and_a_pop⟩

end RegionMark.MarkStack
