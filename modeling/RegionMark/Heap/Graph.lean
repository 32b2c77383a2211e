import RegionMark.Heap.Basic

/-!
# リージョンのヒープでの到達可能性

ルートの集合から参照先をたどって届くオブジェクト（ルートを含む）。オブジェクトでないアドレスは
参照先を持たないので、ルートか参照先そのものとしてだけ届く。
-/

namespace RegionMark.Heap

/-- すべてのオブジェクトが持つ参照先の合計数。 -/
def referentCount (h : Heap) : Nat :=
  h.objects.foldl (fun n o => n + match o.shape with
    | .plain refs => refs.size
    | .array es => es.size) 0

/-- `stack` のアドレスとそこから届くものすべてを訪れ、訪れたオブジェクトを `seen` に（番号で）記し、
それ以外のアドレスを `others` に集める。1 回の訪問に `fuel` を 1 使う。 -/
def visitAll (h : Heap) : Nat → List Nat → Array Bool → List Nat → Array Bool × List Nat
  | 0, _, seen, others => (seen, others)
  | _, [], seen, others => (seen, others)
  | fuel + 1, a :: stack, seen, others =>
    match h.find? a with
    | some i =>
      if seen.getD i false then visitAll h fuel stack seen others
      else visitAll h fuel (h.references a ++ stack) (seen.setIfInBounds i true) others
    | none => visitAll h fuel stack seen (if others.contains a then others else a :: others)

/-- `roots` から届くアドレス（ルートを含む）。昇順。 -/
def reachable (h : Heap) (roots : List Nat) : List Nat :=
  let fuel := roots.length + h.referentCount + 1
  let (seen, others) := h.visitAll fuel roots (Array.replicate h.objects.size false) []
  let objs := (List.range h.objects.size).filter (seen.getD · false) |>.map h.addrOf
  (objs ++ others).mergeSort (· ≤ ·)

end RegionMark.Heap
