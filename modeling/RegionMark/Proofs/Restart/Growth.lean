import RegionMark.Proofs.Restart.Phases

/-!
# 周期の中で立つ印

周期の中の操作は印を消さず、新しく立てる印はどれも、リージョンの TAMS より下のアドレスのビットである
（`Engine.Grown`、`Op.runAll_grown`）。
-/

namespace RegionMark

namespace Engine

/-- 周期の始めのビットマップ `m₀` とヒープ `H` から見て、印は増えるだけで、新しく立った印はどれも、
その始まりの TAMS より下のアドレスのビット。ヒープのリージョンと TAMS、ビットマップの覆う範囲は
変わらない。 -/
structure Grown (m₀ : Bitmap) (H : Heap) (e : Engine) : Prop where
  region : e.heap.regionOf? = H.regionOf?
  tams : e.heap.tamsOf = H.tamsOf
  base : e.bitmap.base = m₀.base
  size : e.bitmap.size = m₀.size
  covers : e.bitmap.size ≤ e.bitmap.words.size * Bitmap.wordBits * Word.bytes
  kept : ∀ k, m₀.testBit k = true → e.bitmap.testBit k = true
  fresh : ∀ k, e.bitmap.testBit k = true → m₀.testBit k = false →
    ∃ a r, H.regionOf? a = some r ∧ a < H.tamsOf r ∧ m₀.bitIndex a = .ok k

variable {m₀ : Bitmap} {H : Heap} {e e' : Engine}

theorem Grown.frame (hg : e.Grown m₀ H) (hh : e'.heap = e.heap) (hb : e'.bitmap = e.bitmap) :
    e'.Grown m₀ H :=
  ⟨hh ▸ hg.region, hh ▸ hg.tams, hb ▸ hg.base, hb ▸ hg.size, hb ▸ hg.covers, hb ▸ hg.kept, hb ▸ hg.fresh⟩

theorem Grown.bitIndex (hg : e.Grown m₀ H) : e.bitmap.bitIndex = m₀.bitIndex := by
  funext a
  unfold Bitmap.bitIndex Bitmap.limit
  rw [hg.base, hg.size]

theorem grown_self (hcov : e.bitmap.size ≤ e.bitmap.words.size * Bitmap.wordBits * Word.bytes) :
    e.Grown e.bitmap e.heap :=
  ⟨rfl, rfl, rfl, rfl, hcov, fun _ h => h, fun _ h h' => by rw [h] at h'; cases h'⟩

theorem Grown.tryMark (hg : e.Grown m₀ H) {a : Nat} {hit : Option (Nat × Nat)}
    (h : e.tryMark a = .ok (hit, e')) : e'.Grown m₀ H := by
  rcases tryMark_spec h with ⟨-, rfl⟩ | ⟨r, k, -, hr, hlt, hk, -, rfl⟩
  · exact hg
  have hkl := Bitmap.bitIndex_lt hg.covers hk
  refine ⟨hg.region, hg.tams, hg.base, hg.size, by simpa using hg.covers, fun j hj => ?_, fun j hj h0 => ?_⟩
  · show (e.bitmap.setBit k).testBit j = true
    rw [Bitmap.testBit_setBit _ hkl, hg.kept j hj, Bool.true_or]
  · change (e.bitmap.setBit k).testBit j = true at hj
    rw [Bitmap.testBit_setBit _ hkl] at hj
    by_cases hjk : j = k
    · -- 新しく立てたビット：そのアドレスが証拠
      subst hjk
      refine ⟨a, r, ?_, ?_, ?_⟩
      · rw [← hg.region]
        exact hr
      · rw [← hg.tams]
        exact hlt
      · rw [← hg.bitIndex]
        exact hk
    · simp only [Bool.or_eq_true, beq_iff_eq, hjk, or_false] at hj
      exact hg.fresh j hj h0

theorem Grown.pending (hg : e.Grown m₀ H) (p : Array Nat) :
    ({ e with heap := { e.heap with pending := p } } : Engine).Grown m₀ H :=
  ⟨hg.region, hg.tams, hg.base, hg.size, hg.covers, hg.kept, hg.fresh⟩

end Engine

namespace Marking

theorem grown_closed (m₀ : Bitmap) (H : Heap) : Closed (fun _ => True) fun s => s.eng.Grown m₀ H where
  edit _ _ hs h := by cases h <;> exact hs.frame rfl rfl
  task _ _ hs _ _ := hs
  mark _ _ _ _ _ _ _ hs _ h _ := (hs.tryMark h).frame rfl rfl
  unmarked _ _ _ hs _ h := hs.tryMark h
  incoming _ _ _ _ hs _ := hs.frame rfl rfl
  flush _ _ _ _ hs _ := hs.frame rfl rfl
  restart _ _ hs h := by
    obtain ⟨hb, hh, -⟩ := Engine.restartAfterOverflow_frame h
    exact hs.frame hh hb
  refs _ _ _ _ _ := trivial
  satb _ _ _ _ _ _ := trivial

end Marking

namespace Cycle

variable {m₀ : Bitmap} {H : Heap}

theorem abort_grown {e e' : Engine} {b : Bool} (he : e.Grown m₀ H) (h : abort.run e = .ok (b, e')) :
    e'.Grown m₀ H := by
  rw [abort_run] at h
  split at h <;> cases h <;> exact he.frame rfl rfl

/-- フェーズの操作の一歩ずつも、印を増やすだけ。 -/
theorem grown_closed (m₀ : Bitmap) (H : Heap) :
    Closed (fun _ => True) (fun _ _ s => s.eng.Grown m₀ H) (Engine.Grown m₀ H) where
  edit _ _ he h := by cases h <;> exact he.frame rfl rfl
  restart e e' he h := (Marking.grown_closed m₀ H).restart ⟨e, default⟩ e' he h
  abort _ _ _ he h := abort_grown he h
  marking _ _ := Marking.grown_closed m₀ H
  checkout _ _ he _ := he.frame rfl rfl
  checkin _ _ _ hs := hs.1.frame rfl rfl
  pending _ _ s p hs := hs.pending p
  soft _ _ _ _ := trivial
  finalizable _ _ _ _ := trivial

theorem markRoot_grown {a : Nat} {b : Bool} {e e' : Engine} (he : e.Grown m₀ H)
    (h : (markRoot a).run e = .ok (b, e')) : e'.Grown m₀ H := by
  unfold markRoot at h
  simp only [StateT.run, bind, Except.bind] at h
  split at h
  · cases h
  · rename_i p hp
    obtain ⟨hit, e₁⟩ := p
    have he₁ := he.tryMark hp
    simp only at h
    split at h
    · cases h
      exact he₁
    · split at h
      · cases h
      · cases h
        exact he₁.frame rfl rfl

end Cycle

namespace Op

variable {m₀ : Bitmap} {H : Heap} {e e' : Engine}

theorem run_grown {op : Op} (hop : op.withinCycle = true) (he : e.Grown m₀ H) (h : op.run e = .ok e') :
    e'.Grown m₀ H := by
  have hJ := Cycle.grown_closed m₀ H
  cases op with
  | start | clearBitmap | mutate _ => cases hop
  | addRootRegion g => exact exec_keeps (Cycle.addRootRegion_closed hJ g) he h
  | markRoot a =>
    obtain ⟨_, hr⟩ := Except.snd_ok h
    exact Cycle.markRoot_grown he hr
  | scanRootRegions => exact exec_keeps (Cycle.scanRootRegions_closed hJ) he h
  | markFromRoots => exact exec_keeps (Cycle.markFromRoots_closed hJ) he h
  | preclean => exact exec_keeps (Cycle.preclean_closed hJ) he h
  | remark => exact exec_keeps (Cycle.remark_closed hJ) he h
  | cleanup => exact exec_keeps (Cycle.cleanup_closed hJ) he h
  | finish => exact exec_keeps (Cycle.finish_closed hJ) he h
  | abort =>
    obtain ⟨_, hr⟩ := Except.snd_ok h
    exact Cycle.abort_grown he hr
  | abortThreads => cases h; exact he.frame rfl rfl
  | runCycle => exact exec_keeps (Cycle.runCycle_closed hJ) he h
  | satb b => cases h; exact he.frame rfl rfl

theorem runAll_grown {ops : List Op} (hops : ∀ op ∈ ops, op.withinCycle = true) (he : e.Grown m₀ H)
    (h : runAll ops e = .ok e') : e'.Grown m₀ H := by
  induction ops generalizing e with
  | nil => cases h; exact he
  | cons op ops ih =>
    simp only [runAll, bind, Except.bind] at h
    split at h
    · cases h
    · exact ih (fun op' h' => hops op' (List.mem_cons_of_mem op h'))
        (run_grown (hops op List.mem_cons_self) he ‹_›) h

end Op

end RegionMark
