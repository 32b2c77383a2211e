import RegionMark.MarkStack
import RegionMark.Proofs.Chunk.Growth

/-!
# チャンクのリスト

`Chain s head ids` は、リンク `head` から見出しのリンクをたどるとチャンク `ids` を通って 0 に着くことを
言う。着くリストは 1 つで、同じチャンクを 2 度通らず、たどったチャンクの見出しだけで決まる。
-/

namespace RegionMark.MarkStack

/-! ## スロット -/

@[simp] theorem slot_setSlot (s : MarkStack) (id j : Nat) (c : ChunkSlot) :
    (s.setSlot id c).slot j = if j = id then c else s.slot j := by
  simp only [setSlot, slot, Array.getD_eq_getD_getElem?]
  split
  · rename_i hid
    by_cases hj : j = id
    · subst hj
      simp [Array.getElem?_setIfInBounds_self_of_lt hid]
    · simp [Array.getElem?_setIfInBounds_ne (Ne.symm hj), hj]
  · rename_i hid
    simp only [Array.getElem?_push, Array.size_append, Array.size_replicate]
    rw [show s.slots.size + (id - s.slots.size) = id by omega]
    by_cases hj : j = id
    · simp [hj]
    · simp only [hj, ↓reduceIte, Array.getElem?_append, Array.getElem?_replicate]
      split
      · rfl
      · rw [Array.getElem?_eq_none (by omega : s.slots.size ≤ j)]
        split <;> rfl

@[simp] theorem slot_setNext (s : MarkStack) (id j link : Nat) :
    (s.setNext id link).slot j = if j = id then { s.slot id with next := link } else s.slot j := by
  simp [setNext]

@[simp] theorem alloc_setSlot (s : MarkStack) (id : Nat) (c : ChunkSlot) :
    (s.setSlot id c).alloc = s.alloc := by
  unfold setSlot; split <;> rfl

@[simp] theorem dataHead_setSlot (s : MarkStack) (id : Nat) (c : ChunkSlot) :
    (s.setSlot id c).dataHead = s.dataHead := by
  unfold setSlot; split <;> rfl

@[simp] theorem freeHead_setSlot (s : MarkStack) (id : Nat) (c : ChunkSlot) :
    (s.setSlot id c).freeHead = s.freeHead := by
  unfold setSlot; split <;> rfl

@[simp] theorem count_setSlot (s : MarkStack) (id : Nat) (c : ChunkSlot) :
    (s.setSlot id c).count = s.count := by
  unfold setSlot; split <;> rfl

@[simp] theorem alloc_setNext (s : MarkStack) (id link : Nat) : (s.setNext id link).alloc = s.alloc :=
  alloc_setSlot ..

@[simp] theorem dataHead_setNext (s : MarkStack) (id link : Nat) :
    (s.setNext id link).dataHead = s.dataHead :=
  dataHead_setSlot ..

@[simp] theorem freeHead_setNext (s : MarkStack) (id link : Nat) :
    (s.setNext id link).freeHead = s.freeHead :=
  freeHead_setSlot ..

@[simp] theorem count_setNext (s : MarkStack) (id link : Nat) : (s.setNext id link).count = s.count :=
  count_setSlot ..

@[simp] theorem popLink_zero (s : MarkStack) : s.popLink 0 = none := rfl

@[simp] theorem popLink_succ (s : MarkStack) (id : Nat) :
    s.popLink (id + 1) = some (id, (s.slot id).next) := rfl

/-! ## リンクをたどる -/

/-- リンク `head` から見出しのリンクをたどると、チャンク `ids` をこの順に通ってリンク 0 に着く。 -/
inductive Chain (s : MarkStack) : Nat → List Nat → Prop where
  | nil : Chain s 0 []
  | cons {id : Nat} {ids : List Nat} : Chain s (s.slot id).next ids → Chain s (id + 1) (id :: ids)

namespace Chain

variable {s t : MarkStack} {head id : Nat} {ids : List Nat}

theorem eq_nil (h : Chain s 0 ids) : ids = [] := by
  cases h
  rfl

theorem succ_inv (h : Chain s (id + 1) ids) :
    ∃ rest, ids = id :: rest ∧ Chain s (s.slot id).next rest := by
  cases h with
  | cons h => exact ⟨_, rfl, h⟩

theorem ne_nil_iff (h : Chain s head ids) : ids ≠ [] ↔ head ≠ 0 := by
  cases h with
  | nil => simp
  | cons => simp

theorem unique {l₁ l₂ : List Nat} (h₁ : Chain s head l₁) (h₂ : Chain s head l₂) : l₁ = l₂ := by
  induction h₁ generalizing l₂ with
  | nil => exact (eq_nil h₂).symm
  | cons _ ih =>
    obtain ⟨rest, rfl, h⟩ := succ_inv h₂
    rw [ih h]

theorem suffix {pre rest : List Nat} (h : Chain s head (pre ++ id :: rest)) :
    Chain s (id + 1) (id :: rest) := by
  induction pre generalizing head with
  | nil => cases h; exact .cons ‹_›
  | cons x pre ih =>
    cases h with
    | cons h => exact ih h

theorem nodup (h : Chain s head ids) : ids.Nodup := by
  induction h with
  | nil => exact List.nodup_nil
  | @cons id ids h ih =>
    refine List.nodup_cons.mpr ⟨fun hmem => ?_, ih⟩
    obtain ⟨pre, rest, rfl⟩ := List.append_of_mem hmem
    have hloop : id :: (pre ++ id :: rest) = id :: rest := unique (.cons h) (suffix h)
    have := congrArg List.length hloop
    simp only [List.length_cons, List.length_append] at this
    omega

theorem congr (h : Chain s head ids) (hs : ∀ id ∈ ids, (t.slot id).next = (s.slot id).next) :
    Chain t head ids := by
  induction h with
  | nil => exact .nil
  | @cons id ids _ ih =>
    refine .cons ?_
    rw [hs id List.mem_cons_self]
    exact ih fun j hj => hs j (List.mem_cons_of_mem _ hj)

theorem of_slots_eq (h : Chain s head ids) (hs : t.slots = s.slots) : Chain t head ids :=
  h.congr fun id _ => by simp only [slot, hs]

theorem setSlot {c : ChunkSlot} (h : Chain s head ids) (hid : id ∉ ids) :
    Chain (s.setSlot id c) head ids :=
  h.congr fun j hj => by
    have : j ≠ id := fun e => hid (e ▸ hj)
    simp [this]

theorem setNext {link : Nat} (h : Chain s head ids) (hid : id ∉ ids) :
    Chain (s.setNext id link) head ids :=
  h.congr fun j hj => by
    have : j ≠ id := fun e => hid (e ▸ hj)
    simp [this]

end Chain

/-! ## 操作の式 -/

variable {s s₁ : MarkStack} {es : List TaskEntry} {a : Chunk.Allocator} {id : Nat}

theorem takeChunk_of_succ (hf : s.freeHead = id + 1) :
    s.takeChunk = .ok (some id, { s with freeHead := (s.slot id).next }) := by
  simp only [takeChunk, hf, popLink_succ]
  rfl

theorem takeChunk_of_zero (hh : s.freeHead = 0) :
    s.takeChunk = s.alloc.allocate.map fun (r, a) => match r with
      | none => (none, { s with alloc := a })
      | some id => (some id, { s with alloc := a }.setNext id 0) := by
  simp only [takeChunk, hh, popLink_zero, bind, Except.bind, Except.map]
  split
  · rfl
  · rename_i p _
    obtain ⟨r, a⟩ := p
    cases r <;> rfl

theorem takeChunk_entriesPerChunk {r : Option Nat} (h : s.takeChunk = .ok (r, s₁))
    (hs : s.alloc.Shaped) : s₁.entriesPerChunk = s.entriesPerChunk := by
  by_cases hh : s.freeHead = 0
  · rw [takeChunk_of_zero hh] at h
    simp only [Except.map] at h
    split at h
    · cases h
    · rename_i p hp
      obtain ⟨r', a'⟩ := p
      obtain ⟨-, -, -, heq, -⟩ := Chunk.Allocator.allocate_ok hs hp
      simp only [Except.ok.injEq] at h
      cases r' <;>
        (simp only [Prod.mk.injEq] at h; obtain ⟨-, rfl⟩ := h; simp only [entriesPerChunk, alloc_setNext]; rw [heq])
  · obtain ⟨id, hf⟩ := Nat.exists_eq_succ_of_ne_zero hh
    rw [takeChunk_of_succ hf] at h
    cases h
    rfl

theorem push_of_none (hl : es.length ≤ s.entriesPerChunk) (ht : s.takeChunk = .ok (none, s₁)) :
    s.push es = .ok (false, s₁) := by
  simp only [push, gt_iff_lt, Nat.not_lt.mpr hl, ↓reduceIte, ht]
  rfl

/-- チャンク `id` が得られれば、その先頭に最初の null の手前までの項目を書き、データのリストの先頭に
積む。 -/
theorem push_of_some (hl : es.length ≤ s.entriesPerChunk) (ht : s.takeChunk = .ok (some id, s₁)) :
    s.push es = .ok (true, { s₁.setSlot id ⟨s₁.dataHead,
        writeChunk (s₁.slot id).entries ((entriesBeforeNull es).take s₁.entriesPerChunk)
          s₁.entriesPerChunk⟩ with dataHead := id + 1, count := Word.wrapAdd s₁.count 1 }) := by
  simp only [push, gt_iff_lt, Nat.not_lt.mpr hl, ↓reduceIte, ht, bind, Except.bind, count_setSlot]
  rfl

theorem push_of_error {p : Panic} (hl : es.length ≤ s.entriesPerChunk) (ht : s.takeChunk = .error p) :
    s.push es = .error p := by
  simp only [push, gt_iff_lt, Nat.not_lt.mpr hl, ↓reduceIte, ht]
  rfl

theorem push_of_long (hl : s.entriesPerChunk < es.length) :
    s.push es = .error (.violated "too many entries for one chunk") := by
  simp only [push, gt_iff_lt, hl, ↓reduceIte]
  rfl

theorem pop_of_zero {room : Nat} (hr : s.entriesPerChunk ≤ room) (hd : s.dataHead = 0) :
    s.pop room = .ok (none, s) := by
  simp only [pop, Nat.not_lt.mpr hr, ↓reduceIte, hd, popLink_zero]
  rfl

/-- 取り出しは先頭のチャンクを最初の null かチャンクの終わりまで読み、チャンクを空きのリストに移す。 -/
theorem pop_of_succ {room : Nat} (hr : s.entriesPerChunk ≤ room) (hd : s.dataHead = id + 1) :
    s.pop room = .ok (some (readChunk (s.slot id).entries s.entriesPerChunk),
      { ({ s with dataHead := (s.slot id).next, count := Word.wrapSub s.count 1 }).setNext id s.freeHead
        with freeHead := id + 1 }) := by
  simp only [pop, Nat.not_lt.mpr hr, ↓reduceIte, hd, popLink_succ]
  rfl

theorem pop_of_short {room : Nat} (hr : room < s.entriesPerChunk) :
    s.pop room = .error (.violated "output buffer smaller than a chunk") := by
  simp only [pop, hr, ↓reduceIte]
  rfl

theorem popInto_eq (out : List TaskEntry) :
    s.popInto out = (s.pop out.length).map fun (r, t) => match r with
      | none => (false, out, t)
      | some es => (true, fillBuffer out es, t) := by
  simp only [popInto, bind, Except.bind, Except.map]
  split
  · rfl
  · rename_i p _
    obtain ⟨r, t⟩ := p
    cases r <;> rfl

/-! ## 積み込みと取り出しでのリスト -/

/-- 積み込みはチャンク `id` の見出しを古い先頭に向け、データのリストの先頭に置く。 -/
theorem Chain.link {ids : List Nat} {raw : List TaskEntry} {n : Nat} (h : Chain s s.dataHead ids)
    (hid : id ∉ ids) :
    Chain { s.setSlot id ⟨s.dataHead, raw⟩ with dataHead := id + 1, count := n } (id + 1) (id :: ids) := by
  have hs : Chain (s.setSlot id ⟨s.dataHead, raw⟩) (id + 1) (id :: ids) :=
    .cons (by simpa using h.setSlot hid)
  exact hs.of_slots_eq rfl

/-- 取り出しはデータのリストの先頭のチャンク `id` を外し、見出しを空きのリストの先頭に向けて、
空きのリストの先頭に置く。 -/
theorem Chain.unlink {rest free : List Nat} {n : Nat} (hd : Chain s (s.slot id).next rest)
    (hf : Chain s s.freeHead free) (hr : id ∉ rest) (hfr : id ∉ free) :
    Chain { ({ s with dataHead := (s.slot id).next, count := n }).setNext id s.freeHead
        with freeHead := id + 1 } (s.slot id).next rest ∧
      Chain { ({ s with dataHead := (s.slot id).next, count := n }).setNext id s.freeHead
        with freeHead := id + 1 } (id + 1) (id :: free) := by
  have hu : ({ s with dataHead := (s.slot id).next, count := n } : MarkStack).slots = s.slots := rfl
  constructor
  · exact ((hd.of_slots_eq hu).setNext hr).of_slots_eq rfl
  · refine .cons ?_
    have hn : (({ ({ s with dataHead := (s.slot id).next, count := n }).setNext id s.freeHead
        with freeHead := id + 1 } : MarkStack).slot id).next = s.freeHead := by
      show ((MarkStack.setNext _ id _).slot id).next = _
      simp
    rw [hn]
    exact ((hf.of_slots_eq hu).setNext hfr).of_slots_eq rfl

end RegionMark.MarkStack
