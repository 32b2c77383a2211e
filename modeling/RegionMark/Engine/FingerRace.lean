import RegionMark.Engine.State

/-!
# 大域のフィンガーの取り合い

並んで `Engine.claimRegion` を呼ぶタスクたちの、フィンガーの読みと比較交換の 1 つずつを 1 歩とする。
比較交換は弱く、値が等しくても失敗しうる。失敗したタスクはそのときの値から取り直す。
-/

namespace RegionMark

namespace Engine

/-- claim_region の呼び出しの中で、タスクが次にする原子的な読み書き。 -/
inductive FingerPc where
  /-- 呼び出しの外にいる。次の一歩で呼び出しを始め、フィンガーを読む。 -/
  | idle
  /-- ヒープの終わりより前の値 `seen` を読んだ。次の一歩で、フィンガーを `seen` からそのリージョンの
  終わりへ比較交換する。 -/
  | cas (seen : Nat)
  deriving DecidableEq, Repr

/-- 比較交換で `seen` のリージョンを取った後：フィンガーはそのリージョンの終わりにあり、TAMS より下に
何かあればそのリージョンを答える。 -/
def claimFrom (e : Engine) (seen : Nat) : Option Nat × Engine :=
  let r := (seen - e.heap.base) / e.heap.regionBytes
  (if e.heap.tamsOf r > e.heap.bottom r then some r else none, { e with finger := e.heap.regionEnd r })

/-- タスクの原子的な一歩：次の位置、その後のエンジン、呼び出しが終わればその答え。`spurious` なら
比較交換は値が等しくても失敗する。 -/
def fingerStep (e : Engine) (spurious : Bool) : FingerPc → FingerPc × Engine × Option (Option Nat)
  | .idle => if e.outOfRegions then (.idle, e, some none) else (.cas e.finger, e, none)
  | .cas seen =>
    if e.finger = seen ∧ spurious = false then
      ((.idle : FingerPc), (e.claimFrom seen).2, some (e.claimFrom seen).1)
    else if e.outOfRegions then (.idle, e, some none)
    else (.cas e.finger, e, none)

end Engine

/-- エンジンと、番号で呼ぶタスクたちの claim_region の中の位置。 -/
structure FingerRace where
  eng : Engine
  pcs : Nat → Engine.FingerPc

namespace FingerRace

/-- どのタスクも呼び出しの外にいる。 -/
def start (e : Engine) : FingerRace := ⟨e, fun _ => .idle⟩

/-- タスク `w` の一歩。呼び出しが終われば、その答えをタスクの番号とともに返す。 -/
def step (σ : FingerRace) (w : Nat) (spurious : Bool) : Option (Nat × Option Nat) × FingerRace :=
  let p := σ.eng.fingerStep spurious (σ.pcs w)
  (p.2.2.map (w, ·), ⟨p.2.1, fun w' => if w' = w then p.1 else σ.pcs w'⟩)

/-- 歩み（タスクと、比較交換の見かけの失敗か）を順に進め、終わった呼び出しの答えを並べる。 -/
def run (σ : FingerRace) : List (Nat × Bool) → List (Nat × Option Nat) × FingerRace
  | [] => ([], σ)
  | (w, b) :: xs =>
    let p := σ.step w b
    let q := p.2.run xs
    (p.1.toList ++ q.1, q.2)

/-- 答えの並びのうち、返ったリージョン。古いものから。 -/
def returned (rs : List (Nat × Option Nat)) : List Nat := rs.filterMap Prod.snd

/-- 答えの並びのうち、タスク `w` の呼び出しが返したリージョン。 -/
def returnedBy (w : Nat) (rs : List (Nat × Option Nat)) : List Nat := returned (rs.filter (·.1 == w))

end FingerRace

end RegionMark
