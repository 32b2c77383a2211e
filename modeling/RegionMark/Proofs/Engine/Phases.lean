import RegionMark.Proofs.Engine.Keeps

/-!
# フェーズの操作の三つ組

`Cycle.Triple P m Q` は、`P` を満たすエンジンから走らせた `m` が終われば、成功か `MarkError` かの結果と
終わりのエンジンが `Q` を満たすことを言う。検査の失敗（`Panic`）で止まった走りについては何も言わない。
-/

namespace RegionMark

namespace Cycle

variable {α β γ : Type}

/-- `P` を満たすエンジンから走らせた `m` が終われば、結果と終わりのエンジンが `Q` を満たす。 -/
def Triple (P : Engine → Prop) (m : CycleM α) (Q : Except MarkError α → Engine → Prop) : Prop :=
  ∀ e r e', P e → m.run.run e = .ok (r, e') → Q r e'

/-- `m` が終わるとき、成功しても失敗しても `J` を保つ。 -/
abbrev Keeps (J : Engine → Prop) (m : CycleM α) : Prop := Triple J m fun _ => J

variable {P R : Engine → Prop} {Q : Except MarkError α → Engine → Prop} {J : Engine → Prop}

theorem Triple.mono {P' : Engine → Prop} {Q' : Except MarkError α → Engine → Prop} {m : CycleM α}
    (h : Triple P m Q) (hP : ∀ e, P' e → P e) (hQ : ∀ r e, Q r e → Q' r e) : Triple P' m Q' :=
  fun e r e' he hr => hQ r e' (h e r e' (hP e he) hr)

theorem Triple.pure (a : α) (h : ∀ e, P e → Q (.ok a) e) : Triple P (Pure.pure a : CycleM α) Q := by
  intro e r e' he hr
  cases hr
  exact h e he

theorem Triple.bind {R : Except MarkError α → Engine → Prop} {Q : Except MarkError β → Engine → Prop}
    {x : CycleM α} {f : α → CycleM β} (hx : Triple P x R) (hf : ∀ a, Triple (R (.ok a)) (f a) Q)
    (herr : ∀ err e, R (.error err) e → Q (.error err) e) : Triple P (x >>= f) Q := by
  intro e r e' he h
  simp only [ExceptT.run_bind, StateT.run_bind] at h
  cases hr : x.run.run e with
  | error => rw [hr] at h; cases h
  | ok p =>
    rw [hr] at h
    obtain ⟨r₁, e₁⟩ := p
    cases r₁ with
    | ok a => exact hf a e₁ r e' (hx e (.ok a) e₁ he hr) h
    | error err => cases h; exact herr err e₁ (hx e (.error err) e₁ he hr)

theorem Triple.throw (err : MarkError) (h : ∀ e, P e → Q (.error err) e) :
    Triple P (throw err : CycleM α) Q := by
  intro e r e' he hr
  cases hr
  exact h e he

theorem Triple.get : Triple P (MonadState.get : CycleM Engine) fun r e => P e ∧ r = .ok e := by
  intro e r e' he hr
  cases hr
  exact ⟨he, rfl⟩

theorem Triple.set (e₁ : Engine) (h : ∀ e, P e → R e₁) :
    Triple P (MonadStateOf.set e₁ : CycleM PUnit) fun r e => R e ∧ r = .ok () := by
  intro e r e' he hr
  cases hr
  exact ⟨h e he, rfl⟩

theorem Triple.modify {f : Engine → Engine} (h : ∀ e, P e → R (f e)) :
    Triple P (modify f : CycleM PUnit) fun r e => R e ∧ r = .ok () := by
  intro e r e' he hr
  cases hr
  exact ⟨h e he, rfl⟩

theorem Triple.lift {x : Except Panic α} (h : ∀ e a, P e → x = .ok a → Q (.ok a) e) :
    Triple P (lift x) Q := by
  intro e r e' he hr
  cases x with
  | error => cases hr
  | ok b => cases hr; exact h e _ he rfl

theorem Triple.update {f : Engine → Except Panic (α × Engine)}
    (h : ∀ e a e', P e → f e = .ok (a, e') → Q (.ok a) e') : Triple P (update f) Q := by
  intro e r e' he hr
  unfold Cycle.update at hr
  rw [ExceptT.run_lift, StateT.run_map, show StateT.run f e = f e from rfl] at hr
  cases hf : f e with
  | error => rw [hf] at hr; cases hr
  | ok p => rw [hf] at hr; cases hr; exact h e p.1 p.2 he hf

theorem Triple.ite {c : Prop} [Decidable c] {x y : CycleM α} (hx : c → Triple P x Q)
    (hy : ¬c → Triple P y Q) : Triple P (if c then x else y) Q := by
  by_cases h : c
  · rw [if_pos h]; exact hx h
  · rw [if_neg h]; exact hy h

theorem Keeps.pure (a : α) : Keeps J (Pure.pure a : CycleM α) := Triple.pure a fun _ h => h

theorem Keeps.bind {x : CycleM α} {f : α → CycleM β} (hx : Keeps J x) (hf : ∀ a, Keeps J (f a)) :
    Keeps J (x >>= f) :=
  Triple.bind hx hf fun _ _ h => h

theorem Keeps.throw (err : MarkError) : Keeps J (throw err : CycleM α) := Triple.throw err fun _ h => h

theorem Keeps.getEngine : Keeps J (MonadState.get : CycleM Engine) :=
  Triple.mono Triple.get (fun _ h => h) fun _ _ h => h.1

theorem Keeps.bind_get {f : Engine → CycleM β} (hf : ∀ e, J e → Keeps J (f e)) :
    Keeps J ((MonadState.get : CycleM Engine) >>= f) :=
  Triple.bind Triple.get (fun a e r e' h hr => by
    obtain ⟨he, ha⟩ := h
    cases ha
    exact hf _ he _ r e' he hr) fun _ _ h => h.1

theorem Keeps.modify {f : Engine → Engine} (h : ∀ e, J e → J (f e)) : Keeps J (modify f : CycleM PUnit) :=
  Triple.mono (Triple.modify h) (fun _ h => h) fun _ _ h => h.1

theorem Keeps.set {e₁ : Engine} (h : J e₁) : Keeps J (MonadStateOf.set e₁ : CycleM PUnit) :=
  Triple.mono (Triple.set e₁ fun _ _ => h) (fun _ h => h) fun _ _ h => h.1

theorem Keeps.lift {x : Except Panic α} : Keeps J (lift x) := Triple.lift fun _ _ h _ => h

theorem Keeps.update {f : Engine → Except Panic (α × Engine)}
    (h : ∀ e a e', J e → f e = .ok (a, e') → J e') : Keeps J (update f) :=
  Triple.update h

theorem Keeps.ite {c : Prop} [Decidable c] {x y : CycleM α} (hx : Keeps J x) (hy : Keeps J y) :
    Keeps J (if c then x else y) :=
  Triple.ite (fun _ => hx) fun _ => hy

theorem Keeps.forIn {xs : List β} {f : β → γ → CycleM (ForInStep γ)} (b : γ)
    (hf : ∀ x ∈ xs, ∀ b, Keeps J (f x b)) : Keeps J (forIn xs b f) := by
  induction xs generalizing b with
  | nil => exact Keeps.pure b
  | cons x xs ih =>
    rw [List.forIn_cons]
    refine Keeps.bind (hf x List.mem_cons_self b) fun r => ?_
    cases r with
    | done b => exact Keeps.pure b
    | yield b => exact ih b fun y hy => hf y (List.mem_cons_of_mem x hy)

theorem Keeps.tryCatch {x : CycleM α} {h : MarkError → CycleM α} (hx : Keeps J x)
    (hh : ∀ err, Keeps J (h err)) : Keeps J (tryCatch x h) := by
  intro e r e' he hr
  rw [ExceptT.run_tryCatch, StateT.run_bind] at hr
  cases hxr : x.run.run e with
  | error => rw [hxr] at hr; cases hr
  | ok p =>
    rw [hxr] at hr
    obtain ⟨r₁, e₁⟩ := p
    cases r₁ with
    | ok a => cases hr; exact hx e _ _ he hxr
    | error err => exact hh err e₁ r e' (hx e _ _ he hxr) hr

/-! ## 決まった形の操作 -/

theorem checkPhase_spec (p : Phase) :
    Triple P (checkPhase p) fun r e => P e ∧ (r = .ok () → e.phase = p) := by
  unfold checkPhase
  refine Triple.bind Triple.get (fun e => ?_) fun _ _ h => ⟨h.1, fun h' => by cases h'⟩
  refine Triple.ite (fun hne => Triple.throw _ fun e' h => ⟨h.1, fun h' => by cases h'⟩) fun heq => ?_
  refine Triple.pure _ fun e' ⟨he, hr⟩ => ⟨he, fun _ => ?_⟩
  cases hr
  exact Classical.not_not.mp heq

theorem Keeps.checkPhase (p : Phase) : Keeps J (checkPhase p) :=
  Triple.mono (checkPhase_spec p) (fun _ h => h) fun _ _ h => h.1

theorem Keeps.checkInterruption : Keeps J checkInterruption := by
  unfold Cycle.checkInterruption
  refine Keeps.bind_get fun e _ => ?_
  split
  · exact Keeps.throw _
  · exact Keeps.pure _

theorem Keeps.transition {src dst : Phase} (h : ∀ e, J e → J { e with phase := dst }) :
    Keeps J (transition src dst) :=
  Keeps.bind (Keeps.checkPhase src) fun _ => Keeps.modify h

theorem Keeps.setConcurrency {n : Nat} {b : Bool}
    (h : ∀ e e', J e → e.setConcurrency n b = .ok e' → J e') : Keeps J (setConcurrency n b) := by
  unfold Cycle.setConcurrency
  refine Keeps.bind_get fun e he => Triple.bind (R := fun r e₁ => J e₁ ∧ ∀ a, r = .ok a → J a)
    (Triple.lift fun e₁ a he₁ hx => ⟨he₁, fun a' ha' => by cases ha'; exact h e a he hx⟩)
    (fun a => ?_) fun _ _ h => h.1
  exact Triple.mono (Triple.set a fun _ h₂ => h₂.2 a rfl) (fun _ h => h) fun _ _ h => h.1

theorem Keeps.onTask {w : Nat} {m : TaskM α} (h : ∀ e a e', J e → e.withTask w m = .ok (a, e') → J e') :
    Keeps J (onTask w m) :=
  Keeps.update h

end Cycle

end RegionMark
