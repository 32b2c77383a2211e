import RegionMark.Proofs.Engine.Operations

/-!
# マーキングが変えないフラグ

ビットマップが汚れているかと構成は、周期の始めと消去のほかでは変わらず、再開に上限がなければ枯渇の
フラグは立たない（`Engine.Steady`）。
-/

namespace RegionMark

namespace Engine

/-- ビットマップが汚れているかのフラグが `d`、構成が `c` で、再開の回数に上限がなければスタックは
枯渇していない。 -/
def Steady (d : Bool) (c : MarkConfig) (e : Engine) : Prop :=
  e.bitmapDirty = d ∧ e.config = c ∧ (c.restartLimit = none → e.exhausted = false)

end Engine

namespace Marking

variable {d : Bool} {c : MarkConfig}

theorem steady_closed : Closed (fun _ => True) fun s => s.eng.Steady d c where
  edit s e hs h := by cases h <;> exact hs
  task _ _ hs _ _ := hs
  mark s a r w e c' g hs _ h _ := by
    rcases Engine.tryMark_spec h with ⟨h1, _⟩ | ⟨_, k, _, _, _, _, _, rfl⟩
    · cases h1
    · exact hs
  unmarked s a e hs _ h := by
    rcases Engine.tryMark_spec h with ⟨_, rfl⟩ | ⟨_, _, h1, _⟩
    · exact hs
    · cases h1
  incoming _ _ _ _ hs _ := hs
  flush _ _ _ _ hs _ := hs
  restart s e hs h := by
    obtain ⟨-, -, -, hc, hd, -, -, hx⟩ := Engine.restartAfterOverflow_frame h
    obtain ⟨hd0, hc0, hx0⟩ := hs
    exact ⟨hd.trans hd0, hc.trans hc0, fun hn => (hx (hc0 ▸ hn)).trans (hx0 hn)⟩
  refs _ _ _ _ _ := trivial
  satb _ _ _ _ _ _ := trivial

end Marking

namespace Cycle

variable {d : Bool} {c : MarkConfig}

theorem abort_steady {e e' : Engine} {b : Bool} (he : e.Steady d c) (h : abort.run e = .ok (b, e')) :
    e'.Steady d c := by
  rw [abort_run] at h
  split at h <;> cases h <;> exact he

theorem markRoot_steady {e e' : Engine} {a : Nat} {b : Bool} (he : e.Steady d c)
    (h : (markRoot a).run e = .ok (b, e')) : e'.Steady d c := by
  unfold markRoot at h
  simp only [StateT.run, bind, Except.bind] at h
  split at h
  · cases h
  · rename_i p hp
    obtain ⟨hit, e₁⟩ := p
    have he₁ : e₁.Steady d c := by
      rcases Engine.tryMark_spec hp with ⟨_, rfl⟩ | ⟨_, _, _, _, _, _, _, rfl⟩ <;> exact he
    simp only at h
    split at h
    · cases h; exact he₁
    · split at h
      · cases h
      · cases h; exact he₁

/-- フェーズの操作の一歩ずつが `Steady` を保つ。タスクの上では、取り出したエンジンの `Steady` を保つ。 -/
theorem steady_closed :
    Closed (fun _ => True) (fun _ _ s => s.eng.Steady d c) (Engine.Steady d c) where
  edit e e' he h := by cases h <;> exact he
  restart e e' he h := Marking.steady_closed.restart ⟨e, default⟩ e' he h
  abort _ _ _ he h := abort_steady he h
  marking _ _ := Marking.steady_closed
  checkout _ _ he _ := he
  checkin _ _ _ hs := hs.1
  pending _ _ _ _ hs := hs
  soft _ _ _ _ := trivial
  finalizable _ _ _ _ := trivial

end Cycle

end RegionMark
