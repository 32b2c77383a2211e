import RegionMark.Script.Run
import RegionMark.Bitmap

/-!
# 印のビットマップのスクリプト

ビットマップのスクリプトは範囲の上にビットマップを作り、それに対して印付け、探索、歩み、消去を
走らせる。各ステップの後に、覆う範囲全体で印の付いた語の数を報告する。まとめての印付けは 1 つずつ
進み、読めないアドレスに来ると、それまでの印を残して止まる。
-/

namespace RegionMark.Script

/-- ビットマップのスクリプトが覆える最大のバイト数。 -/
def maxBitmapBytes : Nat := Nat.pow 2 24

/-- ビットマップのスクリプトのステップ。 -/
inductive BitmapOp where
  | mark (a : Nat)
  /-- 読んだアドレス（または読めなかった理由）に順に印を付ける。 -/
  | markMany (as : List (Except Failure Nat))
  | isMarked (a : Nat)
  | nextMarked (start lim : Nat)
  /-- `[start, lim)` の印を歩く。`some k` なら `k` 個より多く見つけたところで止まる（1 個は
  必ず取る）。 -/
  | iterate (start lim : Nat) (stopAfter : Option Nat)
  | clearRange (start lim : Nat)
  | clearAll
  | countMarked (start lim : Nat)
  deriving Repr

/-- ビットマップのステップが答えるもの。 -/
inductive BitmapValue where
  | flag (b : Bool)
  | count (n : Nat)
  | found (a : Option Nat)
  | walked (visited : List Nat) (completed : Bool)
  | nothing

/-- 各アドレスに順に印を付け、これで立ったビットを `n` に数え足す。読めなかったアドレスに来るか
パニックすると、そこまでの印を残して止まる。 -/
def markAll (m : Bitmap) (n : Nat) : List (Except Failure Nat) → Except Failure Nat × Bitmap
  | [] => (.ok n, m)
  | .error f :: _ => (.error f, m)
  | .ok a :: rest =>
    match m.mark a with
    | .error p => (.error (.panic p), m)
    | .ok (fresh, m) => markAll m (if fresh then n + 1 else n) rest

/-- ビットマップのスクリプトのステップを 1 つ走らせる。まとめての印付けのほかは、失敗すると何も
変えない。 -/
def bitmapStep (m : Bitmap) : BitmapOp → Except Failure BitmapValue × Bitmap
  | .markMany as =>
    let (r, m) := markAll m 0 as
    (r.map .count, m)
  | op => atomically (fun m op => ofPanic (simpleStep m op)) m op
where
  /-- まとめての印付けのほかのステップ。 -/
  simpleStep (m : Bitmap) : BitmapOp → Except Panic (BitmapValue × Bitmap)
  | .mark a => do
    let (fresh, m) ← m.mark a
    return (.flag fresh, m)
  | .markMany _ => pure (.nothing, m)
  | .isMarked a => do return (.flag (← m.isMarked a), m)
  | .nextMarked s e => do return (.found (← m.nextMarked s e), m)
  | .iterate s e k => do
    let keepOn (found : List Nat) : Bool := match k with
      | none => true
      | some k => found.length < k
    let (visited, completed) ← m.visit s e keepOn
    return (.walked visited completed, m)
  | .clearRange s e => do return (.nothing, ← m.clearRange s e)
  | .clearAll => pure (.nothing, m.clearAll)
  | .countMarked s e => do return (.count (← m.countMarked s e), m)

/-- ビットマップが覆う範囲と、各ステップの後の値と範囲の中の印の数。 -/
structure BitmapRun where
  covered : Nat × Nat
  steps : List (Except Failure (BitmapValue × Nat))

/-- `[base, base + size)` の上にビットマップを作り、それに対して `ops` を走らせる。ステップの並びは
ビットマップができてから、覆う範囲の終わりを求める前に読む。 -/
def runBitmap (base size : Nat) (ops : Except Failure (List (Except Failure BitmapOp))) :
    Except Failure BitmapRun := do
  if size > maxBitmapBytes then throw (.refused (.limit "bitmap size above 16 MiB of heap"))
  let m ← ofPanic (Bitmap.new base size)
  let ops ← ops
  let lim ← ofPanic m.limit
  let step (m : Bitmap) (op : BitmapOp) : Except Failure (BitmapValue × Nat) × Bitmap :=
    match bitmapStep m op with
    | (.ok v, m) =>
      match m.countMarked base lim with
      | .ok n => (.ok (v, n), m)
      | .error p => (.error (.panic p), m)
    | (.error f, m) => (.error f, m)
  let (rs, _, _) := runSteps step m ops
  return ⟨(base, lim), rs⟩

end RegionMark.Script
