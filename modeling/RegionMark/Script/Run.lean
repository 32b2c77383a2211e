import RegionMark.Script.Refusal

/-!
# スクリプトを走らせる

スクリプトは 1 つの状態に対するステップの並びである。各ステップは結果か失敗を生み、次のステップに
渡す状態を返す。失敗はそのステップの結果の代わりになり、スクリプトは続く。ただしパニックの後は
続かず、そこで終わる。読むこともできなかったステップは、その失敗として届く。
-/

namespace RegionMark.Script

/-- `s` から `step` で `steps` を走らせる。最初のパニックまで（それを含む）の結果、最後の状態、
パニックで走りが終わったかを返す。 -/
def runSteps {σ ι ω : Type} (step : σ → ι → Except Failure ω × σ) :
    σ → List (Except Failure ι) → List (Except Failure ω) × σ × Bool
  | s, [] => ([], s, false)
  | s, i :: rest =>
    let (r, s') := match i with
      | .ok i => step s i
      | .error f => (.error f, s)
    match r with
    | .error f =>
      if f.isFatal then ([.error f], s', true)
      else
        let (ws, t, stopped) := runSteps step s' rest
        (.error f :: ws, t, stopped)
    | .ok w =>
      let (ws, t, stopped) := runSteps step s' rest
      (.ok w :: ws, t, stopped)

/-- 失敗したときは状態を変えないステップ。 -/
def atomically {σ ι ω : Type} (step : σ → ι → Except Failure (ω × σ)) (s : σ) (i : ι) :
    Except Failure ω × σ :=
  match step s i with
  | .ok (w, s') => (.ok w, s')
  | .error f => (.error f, s)

end RegionMark.Script
