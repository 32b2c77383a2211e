import Mathlib
import RegionMark.Script.Snapshot
import RegionMark.Proofs.Satb.Queue

/-!
# SATB のバッファは記録を失わない

1 つのスレッドからの呼び出しの並びを、呼び出しの履歴から読んだ仕様と比べる。完了したバッファのキューは
FIFO の法則 `BufferQueue.Fifo` を満たすどのキューでもよい。
-/

namespace RegionMark

/-! ## 集合の計数 -/

namespace SatbSet

variable {Q : Type} [BufferQueue Q] {view : Q → List (List Nat)}

/-- 計数は待っているバッファの数に等しく、待っているバッファはどれも空でない。 -/
structure Counted (view : Q → List (List Nat)) (s : SatbSet Q) : Prop where
  count_eq : s.count = (view s.completed).length
  ne_nil : ∀ b ∈ view s.completed, b ≠ []

theorem Counted.new (hq : BufferQueue.Fifo Q view) (t : Nat) : (new t : SatbSet Q).Counted view :=
  ⟨by rw [view_new hq]; rfl, by simp [view_new hq]⟩

theorem Counted.enqueue (hq : BufferQueue.Fifo Q view) {s : SatbSet Q} (hs : s.Counted view) (b : List Nat) :
    (s.enqueue b).Counted view := by
  by_cases hb : b = []
  · simpa [SatbSet.enqueue, hb] using hs
  · refine ⟨?_, ?_⟩
    · simp [SatbSet.enqueue, hb, count, hq.push, ← hs.count_eq]
    · simp only [view_enqueue hq, hb, ↓reduceIte, List.mem_append, List.mem_singleton]
      rintro c (hc | rfl)
      · exact hs.ne_nil c hc
      · exact hb

theorem Counted.take (hq : BufferQueue.Fifo Q view) {s : SatbSet Q} (hs : s.Counted view) :
    s.take.2.Counted view := by
  obtain ⟨-, htail, hnum, -⟩ := take_spec hq s
  have hc : s.numCompleted = (view s.completed).length := hs.count_eq
  refine ⟨?_, fun b hb => hs.ne_nil b (List.mem_of_mem_tail (htail ▸ hb))⟩
  show s.take.2.numCompleted = _
  rw [hnum, htail, List.length_tail]
  split
  · rename_i hnil
    rw [hc, hnil]
    rfl
  · omega

theorem Counted.abandon (hq : BufferQueue.Fifo Q view) {s : SatbSet Q} (hs : s.Counted view) :
    s.abandon.Counted view := by
  obtain ⟨hnil, hnum, -⟩ := abandon_spec hq s
  refine ⟨?_, by simp [hnil]⟩
  rw [count, hnum, hnil, ← hs.count_eq, count, Nat.sub_self, List.length_nil]

omit [BufferQueue Q] in
theorem Counted.setActive {s : SatbSet Q} (hs : s.Counted view) (on : Bool) :
    ({ s with active := on } : SatbSet Q).Counted view :=
  ⟨hs.count_eq, hs.ne_nil⟩

theorem Counted.take_eq_none_iff (hq : BufferQueue.Fifo Q view) {s : SatbSet Q} (hs : s.Counted view) :
    s.take.1 = none ↔ s.count = 0 := by
  rw [(take_spec hq s).1, List.head?_eq_none_iff, hs.count_eq, List.length_eq_zero_iff]

end SatbSet

/-! ## バッファの操作 -/

namespace SatbBuffer

variable {Q : Type} [BufferQueue Q] {view : Q → List (List Nat)}

/-- バッファの記録は容量に届いていない。渡さずにもう 1 つ記録できる。 -/
def Fits (b : SatbBuffer) : Prop := b.entries.size < b.capacity

theorem fits_new (c : Nat) : (new c).Fits := by
  simp [Fits, new]

theorem flush_eq (b : SatbBuffer) (s : SatbSet Q) :
    b.flush s = ({ b with entries := #[] }, s.enqueue b.entries.toList) := by
  unfold flush
  split
  · rename_i he
    have he' : b.entries = #[] := by simpa using he
    have hb : b = { b with entries := #[] } := by cases b; simp_all
    simp [SatbSet.enqueue, he', ← hb]
  · rfl

/-- 容量に届いていないバッファへの記録：集合が働いていなければ何もしない。働いていれば、記録が
容量にちょうど届くときに、それまでの記録に続けて新しい記録を集合に渡してバッファを空にし、そうで
なければ記録を後ろに加える。 -/
theorem record_eq {b : SatbBuffer} (hb : b.Fits) (s : SatbSet Q) (a : Nat) :
    b.record s a =
      if s.active then
        if b.entries.size + 1 = b.capacity then
          ({ b with entries := #[] }, s.enqueue (b.entries.toList ++ [a]))
        else ({ b with entries := b.entries.push a }, s)
      else (b, s) := by
  unfold Fits at hb
  cases hs : s.active
  · simp [record, hs]
  · by_cases hfull : b.entries.size + 1 = b.capacity
    · simp [record, hs, hfull, flush_eq]
    · have : ¬ b.capacity ≤ b.entries.size + 1 := by omega
      simp [record, hs, hfull, this]

theorem Fits.record {b : SatbBuffer} (hb : b.Fits) (s : SatbSet Q) (a : Nat) : (b.record s a).1.Fits := by
  rw [record_eq hb]
  unfold Fits at hb ⊢
  split_ifs with hfull
  · simpa using Nat.lt_of_le_of_lt (Nat.zero_le _) hb
  · simp only [Array.size_push]
    omega
  · exact hb

theorem Fits.flush {b : SatbBuffer} (hb : b.Fits) (s : SatbSet Q) : (b.flush s).1.Fits := by
  rw [flush_eq]
  unfold Fits at hb ⊢
  simpa using Nat.lt_of_le_of_lt (Nat.zero_le _) hb

/-- 記録は集合の切り替えも容量も変えず、集合の計数を保つ。 -/
theorem record_frame (hq : BufferQueue.Fifo Q view) {b : SatbBuffer} (hb : b.Fits) (s : SatbSet Q) (a : Nat)
    (hs : s.Counted view) :
    (b.record s a).1.capacity = b.capacity ∧ (b.record s a).2.active = s.active ∧
      (b.record s a).2.Counted view := by
  rw [record_eq hb]
  split_ifs <;> simp [hs, hs.enqueue hq]

theorem flush_frame (hq : BufferQueue.Fifo Q view) (b : SatbBuffer) (s : SatbSet Q) (hs : s.Counted view) :
    (b.flush s).1.capacity = b.capacity ∧ (b.flush s).2.active = s.active ∧ (b.flush s).2.Counted view := by
  simp [flush_eq, hs.enqueue hq]

/-- 記録の前の記録に、集合が働いていれば新しい記録を続けたものは、集合の列の後ろに加わったバッファを
平らにしたものに、記録の後のバッファの記録を続けたものに等しい。 -/
theorem record_split (hq : BufferQueue.Fifo Q view) {b : SatbBuffer} (hb : b.Fits) {s : SatbSet Q} {a : Nat}
    {hd : List (List Nat)} (hc : view (b.record s a).2.completed = view s.completed ++ hd) :
    b.entries.toList ++ (if s.active then [a] else []) =
      hd.flatten ++ (b.record s a).1.entries.toList := by
  rw [record_eq hb] at hc ⊢
  split_ifs at hc ⊢ with hact hfull
  all_goals try rw [SatbSet.view_enqueue hq] at hc
  · -- ちょうど容量に届いた：それまでの記録と新しい記録が 1 つのバッファとして渡る
    have : hd = [b.entries.toList ++ [a]] := by simpa using hc.symm
    simp [this]
  · have : hd = [] := by simpa using hc.symm
    simp [this]
  · have : hd = [] := by simpa using hc.symm
    simp [this]

/-- 渡す前の記録は、集合の列の後ろに加わったバッファを平らにしたものに、渡した後のバッファの記録
（空）を続けたものに等しい。 -/
theorem flush_split (hq : BufferQueue.Fifo Q view) (b : SatbBuffer) {s : SatbSet Q} {hd : List (List Nat)}
    (hc : view (b.flush s).2.completed = view s.completed ++ hd) :
    b.entries.toList = hd.flatten ++ (b.flush s).1.entries.toList := by
  rw [flush_eq, SatbSet.view_enqueue hq] at hc
  rw [flush_eq]
  by_cases he : b.entries.toList = []
  · have : hd = [] := by simpa [he] using hc.symm
    simp [this, he]
  · have : hd = [b.entries.toList] := by simpa [he] using hc.symm
    simp [this]

end SatbBuffer

/-! ## バッファの並び -/

namespace Script.SatbScene

variable {Q : Type}

/-- バッファに残る記録：すべてのバッファの記録を、バッファの番号の順に並べたもの。 -/
def held (s : SatbScene Q) : List Nat := (s.buffers.toList.map fun b => b.entries.toList).flatten

/-- バッファ `i` の記録。そのバッファがなければ空。 -/
def entriesOf (s : SatbScene Q) (i : Nat) : List Nat := (s.buffers[i]?.map fun b => b.entries.toList).getD []

end Script.SatbScene

/-- 並びの 1 つの要素を置き換えると、平らにした多重集合からは古い要素が抜け、新しい要素が入る。 -/
theorem List.flatten_map_set {α β : Type} (f : α → List β) :
    ∀ (l : List α) (i : Nat) {x : α} (y : α), l[i]? = some x →
      ((((l.set i y).map f).flatten : List β) : Multiset β) + (f x : Multiset β) =
        (((l.map f).flatten : List β) : Multiset β) + (f y : Multiset β)
  | [], _, _, _, h => by simp at h
  | z :: l, 0, x, y, h => by
    simp only [List.getElem?_cons_zero, Option.some.injEq] at h
    subst h
    simp only [List.set_cons_zero, List.map_cons, List.flatten_cons, ← Multiset.coe_add]
    abel
  | z :: l, i + 1, x, y, h => by
    simp only [List.getElem?_cons_succ] at h
    simp only [List.set_cons_succ, List.map_cons, List.flatten_cons, ← Multiset.coe_add]
    rw [add_assoc, List.flatten_map_set f l i y h, add_assoc]

/-! ## 呼び出しの履歴 -/

/-- SATB のバッファと集合への呼び出し。`record` と `flush` は集合に渡したバッファ（高々 1 つ）を、
`apply` と `abandon` は集合から取ったバッファを書き添える。参照先を 1 つ並べる呼び出しは、それ
だけのバッファを並べることである。 -/
inductive SatbCall where
  | newBuffer (capacity : Nat)
  | record (buffer a : Nat) (handed : List (List Nat))
  | flush (buffer : Nat) (handed : List (List Nat))
  | enqueue (b : List Nat)
  | apply (taken : Option (List Nat))
  | abandon (dropped : List (List Nat))
  | setActive (on : Bool)
  deriving DecidableEq, Repr

namespace SatbCall

/-- 履歴の後で記録が働いているか：最後の切り替えの値で、はじめは働いていない。 -/
def activeAfter : List SatbCall → Bool
  | [] => false
  | setActive on :: _ => on
  | _ :: h => activeAfter h

/-- 作ったバッファに指定した容量。古いものから。 -/
def made : List SatbCall → List Nat
  | [] => []
  | newBuffer c :: h => made h ++ [c]
  | _ :: h => made h

/-- バッファ `i` に、記録が働いているあいだにした記録。古いものから。 -/
def recordsTo (i : Nat) : List SatbCall → List Nat
  | [] => []
  | record j a _ :: h => recordsTo i h ++ if j = i ∧ activeAfter h = true then [a] else []
  | _ :: h => recordsTo i h

/-- バッファ `i` が集合に渡したバッファ。古いものから。 -/
def handedFrom (i : Nat) : List SatbCall → List (List Nat)
  | [] => []
  | record j _ hd :: h => handedFrom i h ++ if j = i then hd else []
  | flush j hd :: h => handedFrom i h ++ if j = i then hd else []
  | _ :: h => handedFrom i h

/-- 集合に並んだバッファ：バッファが渡したものと、直に並べた空でないもの。古いものから。 -/
def handedOff : List SatbCall → List (List Nat)
  | [] => []
  | record _ _ hd :: h => handedOff h ++ hd
  | flush _ hd :: h => handedOff h ++ hd
  | enqueue b :: h => handedOff h ++ if b = [] then [] else [b]
  | _ :: h => handedOff h

/-- 集合から取ったか捨てたバッファ。古いものから。 -/
def consumed : List SatbCall → List (List Nat)
  | [] => []
  | apply r :: h => consumed h ++ r.toList
  | abandon bs :: h => consumed h ++ bs
  | _ :: h => consumed h

/-- 取って印付けに回したバッファ。古いものから。 -/
def applied : List SatbCall → List (List Nat)
  | [] => []
  | apply r :: h => applied h ++ r.toList
  | _ :: h => applied h

/-- 捨てたバッファ。古いものから。 -/
def abandoned : List SatbCall → List (List Nat)
  | [] => []
  | abandon bs :: h => abandoned h ++ bs
  | _ :: h => abandoned h

/-- 入ったもの：記録が働いているあいだの記録と、直に並べたもの。古いものから。 -/
def entered : List SatbCall → List Nat
  | [] => []
  | record _ a _ :: h => entered h ++ if activeAfter h = true then [a] else []
  | enqueue b :: h => entered h ++ b
  | _ :: h => entered h

variable {Q : Type} [BufferQueue Q]

/-- 閾値 `t` の働いていない集合とバッファのない状態から、呼び出しの履歴 `h`（新しいものから）で届く
状態。記録と渡すことは、集合のキューの後ろに加わったバッファを書き添え、すべて捨てることは捨てた
バッファを書き添える。キューの中身は `view` で読む。 -/
inductive Reach (view : Q → List (List Nat)) (t : Nat) : List SatbCall → Script.SatbScene Q → Prop
  | start : Reach view t [] ⟨SatbSet.new t, #[]⟩
  | newBuffer {h : List SatbCall} {s : Script.SatbScene Q} (c : Nat) :
      Reach view t h s → Reach view t (SatbCall.newBuffer c :: h) ⟨s.set, s.buffers.push (SatbBuffer.new c)⟩
  | record {h : List SatbCall} {s : Script.SatbScene Q} {i a : Nat} {b b' : SatbBuffer}
      {set' : SatbSet Q} {hd : List (List Nat)} :
      Reach view t h s → s.buffers[i]? = some b → b.record s.set a = (b', set') →
      view set'.completed = view s.set.completed ++ hd →
      Reach view t (SatbCall.record i a hd :: h) ⟨set', s.buffers.setIfInBounds i b'⟩
  | flush {h : List SatbCall} {s : Script.SatbScene Q} {i : Nat} {b b' : SatbBuffer} {set' : SatbSet Q}
      {hd : List (List Nat)} :
      Reach view t h s → s.buffers[i]? = some b → b.flush s.set = (b', set') →
      view set'.completed = view s.set.completed ++ hd →
      Reach view t (SatbCall.flush i hd :: h) ⟨set', s.buffers.setIfInBounds i b'⟩
  | enqueue {h : List SatbCall} {s : Script.SatbScene Q} (b : List Nat) :
      Reach view t h s → Reach view t (SatbCall.enqueue b :: h) ⟨s.set.enqueue b, s.buffers⟩
  | apply {h : List SatbCall} {s : Script.SatbScene Q} :
      Reach view t h s → Reach view t (SatbCall.apply s.set.take.1 :: h) ⟨s.set.take.2, s.buffers⟩
  | abandon {h : List SatbCall} {s : Script.SatbScene Q} :
      Reach view t h s → Reach view t (SatbCall.abandon (view s.set.completed) :: h) ⟨s.set.abandon, s.buffers⟩
  | setActive {h : List SatbCall} {s : Script.SatbScene Q} (on : Bool) :
      Reach view t h s → Reach view t (SatbCall.setActive on :: h) ⟨{ s.set with active := on }, s.buffers⟩

/-! ## 履歴のとおりの状態 -/

/-- 呼び出しの履歴 `h` のとおりの状態。

* 集合の計数はキューの長さに等しく、記録のスイッチは最後の切り替えのとおり。
* どのバッファも容量に届く前の記録しか持たず、容量は作ったときの指定と 1 の大きい方。
* 集合に並んだバッファは、取ったか捨てたバッファに、待っているバッファを続けたものである。
* バッファ `i` への記録は、それが渡したバッファに、いま持つ記録を続けたものである。
* 入ったものは、バッファに残るものと、待っているものと、取ったものと、捨てたものに分かれる。 -/
structure Tracks (view : Q → List (List Nat)) (h : List SatbCall) (s : Script.SatbScene Q) : Prop where
  counted : s.set.Counted view
  active : s.set.active = activeAfter h
  fits : ∀ b ∈ s.buffers, b.Fits
  capacities : s.buffers.toList.map (·.capacity) = (made h).map (Nat.max · 1)
  fifo : handedOff h = consumed h ++ view s.set.completed
  order : ∀ i, recordsTo i h = (handedFrom i h).flatten ++ s.entriesOf i
  ledger : (entered h : Multiset Nat) =
    (s.held : Multiset Nat) + ((view s.set.completed).flatten : Multiset Nat) +
      ((applied h).flatten : Multiset Nat) + ((abandoned h).flatten : Multiset Nat)

namespace Tracks

variable {view : Q → List (List Nat)} {h h' : List SatbCall} {s : Script.SatbScene Q}

theorem start (hq : BufferQueue.Fifo Q view) (t : Nat) : Tracks view [] ⟨SatbSet.new t, #[]⟩ := by
  refine ⟨SatbSet.Counted.new hq t, rfl, by simp, by simp [made],
    by simp [handedOff, consumed, SatbSet.view_new hq], fun i => ?_,
    by simp [entered, Script.SatbScene.held, SatbSet.view_new hq, applied, abandoned]⟩
  simp [recordsTo, handedFrom, Script.SatbScene.entriesOf]

omit [BufferQueue Q] in
/-- バッファ `i` の記録を `b` から `b'` に変え、集合のキューの後ろに `hd` を加える呼び出し：入る記録
`R` と `b` の記録は、`hd` と `b'` の記録に分かれる。記録と渡すことはこの形をしている。 -/
theorem update (hs : Tracks view h s) {i : Nat} {b b' : SatbBuffer} {set' : SatbSet Q}
    {hd : List (List Nat)} {R : List Nat} (hb : s.buffers[i]? = some b)
    (hcap : b'.capacity = b.capacity) (hfits : b'.Fits) (hcounted : set'.Counted view)
    (hact : set'.active = s.set.active) (hcomp : view set'.completed = view s.set.completed ++ hd)
    (hsplit : b.entries.toList ++ R = hd.flatten ++ b'.entries.toList)
    (h_active : activeAfter h' = activeAfter h) (h_made : made h' = made h)
    (h_records : ∀ j, recordsTo j h' = recordsTo j h ++ if i = j then R else [])
    (h_from : ∀ j, handedFrom j h' = handedFrom j h ++ if i = j then hd else [])
    (h_off : handedOff h' = handedOff h ++ hd) (h_cons : consumed h' = consumed h)
    (h_app : applied h' = applied h) (h_ab : abandoned h' = abandoned h)
    (h_in : entered h' = entered h ++ R) :
    Tracks view h' ⟨set', s.buffers.setIfInBounds i b'⟩ := by
  obtain ⟨hi, hget⟩ := Array.getElem?_eq_some_iff.1 hb
  -- 置き換えたバッファの記録だけが変わる
  have hentries : ∀ j, (⟨set', s.buffers.setIfInBounds i b'⟩ : Script.SatbScene Q).entriesOf j =
      if j = i then b'.entries.toList else s.entriesOf j := by
    intro j
    simp only [Script.SatbScene.entriesOf, Array.getElem?_setIfInBounds, hi, ↓reduceIte]
    by_cases hj : j = i
    · simp [hj]
    · simp [Ne.symm hj, hj]
  have hheld : ((⟨set', s.buffers.setIfInBounds i b'⟩ : Script.SatbScene Q).held : Multiset Nat) +
      (b.entries.toList : Multiset Nat) = (s.held : Multiset Nat) + (b'.entries.toList : Multiset Nat) := by
    simp only [Script.SatbScene.held, Array.toList_setIfInBounds]
    exact List.flatten_map_set _ _ _ _ (by simpa using hb)
  refine ⟨hcounted, by rw [hact, hs.active, h_active], fun x hx => ?_, ?_, ?_, fun j => ?_, ?_⟩
  · rcases Array.mem_or_eq_of_mem_setIfInBounds hx with hx | rfl
    · exact hs.fits x hx
    · exact hfits
  · -- 置き換えたバッファの容量は元のものと同じ
    rw [Array.toList_setIfInBounds, List.map_set, hcap, h_made, ← hs.capacities]
    apply List.ext_getElem?
    intro j
    rw [List.getElem?_set]
    split_ifs with hij hlt
    · subst hij
      simp [hb]
    · simp_all
    · rfl
  · rw [h_off, h_cons, hcomp, hs.fifo, List.append_assoc]
  · rw [h_records, h_from, hentries, hs.order]
    by_cases hj : i = j
    · subst hj
      have he : s.entriesOf i = b.entries.toList := by simp [Script.SatbScene.entriesOf, hb]
      simp only [↓reduceIte, he, List.flatten_append, List.append_assoc, hsplit]
    · simp [hj, Ne.symm hj]
  · -- バッファから抜けた `b` の記録と入った `R` は、並んだ `hd` と残った `b'` の記録に等しい
    have hsum := congrArg (fun l : List Nat => (l : Multiset Nat)) hsplit
    simp only [← Multiset.coe_add] at hsum
    rw [h_in, h_app, h_ab, ← Multiset.coe_add, hs.ledger]
    simp only [hcomp, List.flatten_append, ← Multiset.coe_add]
    generalize ((⟨set', s.buffers.setIfInBounds i b'⟩ : Script.SatbScene Q).held : Multiset Nat) = H'
      at hheld ⊢
    generalize (s.held : Multiset Nat) = H at hheld ⊢
    generalize (b.entries.toList : Multiset Nat) = E at hheld hsum
    generalize (b'.entries.toList : Multiset Nat) = E' at hheld hsum
    generalize (hd.flatten : Multiset Nat) = D at hsum ⊢
    generalize (R : Multiset Nat) = R' at hsum ⊢
    have hkey : H' + D + E' = H + R' + E' := by
      calc H' + D + E' = H' + (E + R') := by rw [hsum]; abel
        _ = H + E' + R' := by rw [← add_assoc, hheld]
        _ = H + R' + E' := by abel
    rw [show H' + ((view s.set.completed).flatten + D) = H' + D + (view s.set.completed).flatten by abel,
      add_right_cancel hkey]
    abel

omit [BufferQueue Q] in
theorem newBuffer (hs : Tracks view h s) (c : Nat) :
    Tracks view (SatbCall.newBuffer c :: h) ⟨s.set, s.buffers.push (SatbBuffer.new c)⟩ := by
  -- 新しいバッファは記録を持たないので、番号ごとの記録も残る記録も変わらない
  have hentries : ∀ j, (⟨s.set, s.buffers.push (SatbBuffer.new c)⟩ : Script.SatbScene Q).entriesOf j =
      s.entriesOf j := by
    intro j
    simp only [Script.SatbScene.entriesOf, Array.getElem?_push]
    split_ifs with hj
    · simp [hj, SatbBuffer.new]
    · rfl
  refine ⟨hs.counted, by simp [activeAfter, hs.active], fun x hx => ?_, ?_, by simp [handedOff, consumed, hs.fifo],
    fun j => by simp [recordsTo, handedFrom, hentries, hs.order], ?_⟩
  · rcases Array.mem_push.1 hx with hx | rfl
    · exact hs.fits x hx
    · exact SatbBuffer.fits_new c
  · simp [made, hs.capacities, SatbBuffer.new]
  · simp [entered, applied, abandoned, Script.SatbScene.held, SatbBuffer.new, hs.ledger]

theorem record (hq : BufferQueue.Fifo Q view) (hs : Tracks view h s) {i a : Nat} {b b' : SatbBuffer}
    {set' : SatbSet Q} {hd : List (List Nat)}
    (hb : s.buffers[i]? = some b) (hr : b.record s.set a = (b', set'))
    (hc : view set'.completed = view s.set.completed ++ hd) :
    Tracks view (SatbCall.record i a hd :: h) ⟨set', s.buffers.setIfInBounds i b'⟩ := by
  have hfits : b.Fits := hs.fits b (Array.mem_of_getElem? hb)
  have hframe := SatbBuffer.record_frame hq hfits s.set a hs.counted
  have hsplit : b.entries.toList ++ (if s.set.active then [a] else []) =
      hd.flatten ++ (b.record s.set a).1.entries.toList :=
    SatbBuffer.record_split hq hfits (by rw [hr]; exact hc)
  have hfits' := hfits.record s.set a
  rw [hr] at hframe hsplit hfits'
  -- 記録が入るのは、記録が働いているときのバッファ `i` だけ
  refine hs.update hb hframe.1 hfits' hframe.2.2 hframe.2.1 hc hsplit (by simp [activeAfter])
    (by simp [made]) (fun j => by by_cases hj : i = j <;> simp [recordsTo, hj, hs.active])
    (fun j => rfl) (by simp [handedOff]) (by simp [consumed]) (by simp [applied]) (by simp [abandoned])
    (by simp [entered, hs.active])

theorem flush (hq : BufferQueue.Fifo Q view) (hs : Tracks view h s) {i : Nat} {b b' : SatbBuffer}
    {set' : SatbSet Q} {hd : List (List Nat)}
    (hb : s.buffers[i]? = some b) (hf : b.flush s.set = (b', set'))
    (hc : view set'.completed = view s.set.completed ++ hd) :
    Tracks view (SatbCall.flush i hd :: h) ⟨set', s.buffers.setIfInBounds i b'⟩ := by
  have hfits : b.Fits := hs.fits b (Array.mem_of_getElem? hb)
  have hframe := SatbBuffer.flush_frame hq b s.set hs.counted
  have hsplit : b.entries.toList = hd.flatten ++ (b.flush s.set).1.entries.toList :=
    SatbBuffer.flush_split hq b (by rw [hf]; exact hc)
  have hfits' := hfits.flush s.set
  rw [hf] at hframe hsplit hfits'
  refine hs.update hb hframe.1 hfits' hframe.2.2 hframe.2.1 hc
    (by simpa using hsplit : b.entries.toList ++ [] = hd.flatten ++ b'.entries.toList)
    (by simp [activeAfter]) (by simp [made]) (fun j => by simp [recordsTo]) (fun j => rfl)
    (by simp [handedOff]) (by simp [consumed]) (by simp [applied]) (by simp [abandoned])
    (by simp [entered])

theorem enqueue (hq : BufferQueue.Fifo Q view) (hs : Tracks view h s) (b : List Nat) :
    Tracks view (SatbCall.enqueue b :: h) ⟨s.set.enqueue b, s.buffers⟩ := by
  refine ⟨hs.counted.enqueue hq b, by simp [activeAfter, hs.active], hs.fits, by simp [made, hs.capacities],
    ?_, fun j => by simp [recordsTo, handedFrom, Script.SatbScene.entriesOf, hs.order], ?_⟩
  · by_cases hb : b = [] <;> simp [handedOff, consumed, hb, hs.fifo, SatbSet.view_enqueue hq]
  · -- 空でないバッファはキューの後ろに並び、その中身が入ったものに加わる
    have hq' : ((view (s.set.enqueue b).completed).flatten : Multiset Nat) =
        ((view s.set.completed).flatten : Multiset Nat) + (b : Multiset Nat) := by
      by_cases hb : b = [] <;> simp [hb, SatbSet.view_enqueue hq]
    simp only [entered, applied, abandoned, hq', ← Multiset.coe_add, hs.ledger, Script.SatbScene.held]
    abel

theorem apply (hq : BufferQueue.Fifo Q view) (hs : Tracks view h s) :
    Tracks view (SatbCall.apply s.set.take.1 :: h) ⟨s.set.take.2, s.buffers⟩ := by
  obtain ⟨hhead, htail, -, hact⟩ := SatbSet.take_spec hq s.set
  -- 取ったバッファはキューの頭で、残りはその後ろ
  have hsplit : s.set.take.1.toList ++ view s.set.take.2.completed = view s.set.completed := by
    rw [hhead, htail]
    cases view s.set.completed <;> rfl
  refine ⟨hs.counted.take hq, by simp [activeAfter, hact, hs.active], hs.fits, by simp [made, hs.capacities],
    by simp only [handedOff, consumed]; rw [hs.fifo, List.append_assoc, hsplit],
    fun j => by simp [recordsTo, handedFrom, Script.SatbScene.entriesOf, hs.order], ?_⟩
  have hq' : ((view s.set.completed).flatten : Multiset Nat) =
      (s.set.take.1.toList.flatten : Multiset Nat) + ((view s.set.take.2.completed).flatten : Multiset Nat) := by
    rw [Multiset.coe_add, ← List.flatten_append, hsplit]
  simp only [entered, applied, abandoned, List.flatten_append, ← Multiset.coe_add, hs.ledger, hq',
    Script.SatbScene.held]
  abel

theorem abandon (hq : BufferQueue.Fifo Q view) (hs : Tracks view h s) :
    Tracks view (SatbCall.abandon (view s.set.completed) :: h) ⟨s.set.abandon, s.buffers⟩ := by
  obtain ⟨hnil, -, hact⟩ := SatbSet.abandon_spec hq s.set
  refine ⟨hs.counted.abandon hq, by simp [activeAfter, hact, hs.active], hs.fits, by simp [made, hs.capacities],
    by simp [handedOff, consumed, hs.fifo, hnil],
    fun j => by simp [recordsTo, handedFrom, Script.SatbScene.entriesOf, hs.order], ?_⟩
  simp only [entered, applied, abandoned, hnil, List.flatten_append, List.flatten_nil,
    ← Multiset.coe_add, hs.ledger, Script.SatbScene.held, Multiset.coe_nil]
  abel

omit [BufferQueue Q] in
theorem setActive (hs : Tracks view h s) (on : Bool) :
    Tracks view (SatbCall.setActive on :: h) ⟨{ s.set with active := on }, s.buffers⟩ :=
  ⟨hs.counted.setActive on, by simp [activeAfter], hs.fits, by simp [made, hs.capacities],
    by simp [handedOff, consumed, hs.fifo],
    fun j => by simp [recordsTo, handedFrom, Script.SatbScene.entriesOf, hs.order],
    by simp [entered, applied, abandoned, hs.ledger, Script.SatbScene.held]⟩

end Tracks

theorem Reach.tracks {view : Q → List (List Nat)} (hq : BufferQueue.Fifo Q view) {t : Nat} {h : List SatbCall}
    {s : Script.SatbScene Q} (hr : Reach view t h s) : Tracks view h s := by
  induction hr with
  | start => exact Tracks.start hq t
  | newBuffer c _ ih => exact ih.newBuffer c
  | record _ hb hrec hc ih => exact ih.record hq hb hrec hc
  | flush _ hb hf hc ih => exact ih.flush hq hb hf hc
  | enqueue b _ ih => exact ih.enqueue hq b
  | apply _ ih => exact ih.apply hq
  | abandon _ ih => exact ih.abandon hq
  | setActive on _ ih => exact ih.setActive on

/-- SATB のバッファは記録を失わない FIFO である。完了したバッファのキューが FIFO の法則を満たせば、
呼び出しの履歴 `h` で届く状態では、

* 集合の計数は待っているバッファの数に等しく、待っているバッファはどれも空でない。
* 集合に並んだバッファは並んだ順に取られるか捨てられ、残りが待っている。取るのは最も古い待っている
  バッファで、何も取らないのは 1 つも待っていないときに限る。
* バッファ `i` への記録は、記録した順に、それが渡したバッファに分かれ、残りをバッファが持つ。
* 記録するのは最後の切り替えが記録を働かせたときだけである。容量 `max c 1` のバッファは容量より
  少ない記録しか持たず、ちょうど容量に届いた記録で、それまでの記録にその記録を続けて渡す。
* 入ったものはどれも、バッファに残るか、待っているか、取られたか、捨てられたかのちょうど 1 つに
  ある。 -/
theorem Reach.fifo_loses_nothing {view : Q → List (List Nat)} (hq : BufferQueue.Fifo Q view) {t : Nat}
    {h : List SatbCall} {s : Script.SatbScene Q} (hr : Reach view t h s) :
    s.set.count = (view s.set.completed).length ∧ (∀ b ∈ view s.set.completed, b ≠ []) ∧
      handedOff h = consumed h ++ view s.set.completed ∧
      s.set.take.1 = (view s.set.completed).head? ∧ (s.set.take.1 = none ↔ s.set.count = 0) ∧
      (∀ i, recordsTo i h = (handedFrom i h).flatten ++ s.entriesOf i) ∧
      s.set.active = activeAfter h ∧
      s.buffers.toList.map (·.capacity) = (made h).map (Nat.max · 1) ∧
      (∀ b ∈ s.buffers, b.entries.size < b.capacity ∧ ∀ a, b.record s.set a =
        if s.set.active then
          if b.entries.size + 1 = b.capacity then
            ({ b with entries := #[] }, s.set.enqueue (b.entries.toList ++ [a]))
          else ({ b with entries := b.entries.push a }, s.set)
        else (b, s.set)) ∧
      (entered h).Perm
        (s.held ++ (view s.set.completed).flatten ++ (applied h).flatten ++ (abandoned h).flatten) := by
  have ht := hr.tracks hq
  refine ⟨ht.counted.count_eq, ht.counted.ne_nil, ht.fifo, (SatbSet.take_spec hq s.set).1,
    ht.counted.take_eq_none_iff hq, ht.order, ht.active, ht.capacities,
    fun b hb => ⟨ht.fits b hb, SatbBuffer.record_eq (ht.fits b hb) s.set⟩, ?_⟩
  rw [← Multiset.coe_eq_coe]
  simpa only [← Multiset.coe_add] using ht.ledger

/-- 古い順のリストをキューにして、記録を働かせ、容量 2 のバッファに 2 つ記録すると、2 つ目の記録で
バッファは 2 つの記録を記録した順に渡して空になり、取るとその並びが返る。 -/
theorem full_buffer_handed_off_and_applied :
    let h : List SatbCall := [.apply (some [4096, 4104]), .record 0 4104 [[4096, 4104]],
      .record 0 4096 [], .newBuffer 2, .setActive true]
    let s : Script.SatbScene (List (List Nat)) := ⟨⟨[], 0, true, 0⟩, #[⟨#[], 2⟩]⟩
    Reach id 0 h s ∧
      (s.set.count = s.set.completed.length ∧ (∀ b ∈ s.set.completed, b ≠ []) ∧
      handedOff h = consumed h ++ s.set.completed ∧
      s.set.take.1 = s.set.completed.head? ∧ (s.set.take.1 = none ↔ s.set.count = 0) ∧
      (∀ i, recordsTo i h = (handedFrom i h).flatten ++ s.entriesOf i) ∧
      s.set.active = activeAfter h ∧
      s.buffers.toList.map (·.capacity) = (made h).map (Nat.max · 1) ∧
      (∀ b ∈ s.buffers, b.entries.size < b.capacity ∧ ∀ a, b.record s.set a =
        if s.set.active then
          if b.entries.size + 1 = b.capacity then
            ({ b with entries := #[] }, s.set.enqueue (b.entries.toList ++ [a]))
          else ({ b with entries := b.entries.push a }, s.set)
        else (b, s.set)) ∧
      (entered h).Perm
        (s.held ++ s.set.completed.flatten ++ (applied h).flatten ++ (abandoned h).flatten)) := by
  intro h s
  -- 呼び出しを古いものから順に、途中の状態を書いて評価する
  have h₁ : Reach id 0 [.setActive true] (⟨⟨[], 0, true, 0⟩, #[]⟩ : Script.SatbScene (List (List Nat))) :=
    .setActive true .start
  have h₂ : Reach id 0 [.newBuffer 2, .setActive true]
      (⟨⟨[], 0, true, 0⟩, #[⟨#[], 2⟩]⟩ : Script.SatbScene (List (List Nat))) := .newBuffer 2 h₁
  have h₃ : Reach id 0 [.record 0 4096 [], .newBuffer 2, .setActive true]
      (⟨⟨[], 0, true, 0⟩, #[⟨#[4096], 2⟩]⟩ : Script.SatbScene (List (List Nat))) := .record h₂ rfl rfl rfl
  -- 2 つ目の記録で容量に届き、バッファは集合に渡る
  have h₄ : Reach id 0 [.record 0 4104 [[4096, 4104]], .record 0 4096 [], .newBuffer 2, .setActive true]
      (⟨⟨[[4096, 4104]], 1, true, 0⟩, #[⟨#[], 2⟩]⟩ : Script.SatbScene (List (List Nat))) :=
    .record h₃ rfl rfl rfl
  have hr : Reach id 0 h s := .apply h₄
  exact ⟨hr, Reach.fifo_loses_nothing BufferQueue.fifo_list hr⟩

end SatbCall

end RegionMark
