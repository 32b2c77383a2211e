import RegionMark.RootRegions

/-!
# ルートリージョンの取り合い

並んで `RootRegions.claim` を呼ぶ claimer たちの、原子的な読み書きの 1 つずつを 1 歩とし、その間に集合への
呼び出しが入り込む。歩みは 1 つのメモリの上で順に並ぶ（逐次一貫性）。位置は自然数で回り込まない。
-/

namespace RegionMark

namespace RootRegions

/-- claim の呼び出しの中で、claimer が次にする原子的な読み書き。 -/
inductive ClaimPc where
  /-- 呼び出しの外にいる。次の一歩で呼び出しを始め、中断のフラグを読む。 -/
  | idle
  /-- 中断されていなかった。範囲の数を読む。 -/
  | loadCount
  /-- 範囲の数 `num` を読んだ。取り出しの位置を読んで比べる。 -/
  | loadCursor (num : Nat)
  /-- 位置は `num` より前だった。位置を fetch_add で 1 進める。 -/
  | bump (num : Nat)
  /-- 位置 `idx` を取った。枠 `idx` の始まりを読む。 -/
  | loadStart (idx : Nat)
  /-- 枠 `idx` の始まり `start` を読んだ。終わりを読んで範囲を返す。 -/
  | loadStop (idx start : Nat)
  deriving DecidableEq, Repr

/-- claimer の原子的な一歩：次の位置、その後の集合、呼び出しが終わればその答え。枠は読む位置に
いつもある（`Claiming.Inv`）ので、`getD` の既定値は読まれない。 -/
def claimStep (s : RootRegions) : ClaimPc → ClaimPc × RootRegions × Option (Option MemRange)
  | .idle => if s.aborted then (.idle, s, some none) else (.loadCount, s, none)
  | .loadCount => (.loadCursor s.count, s, none)
  | .loadCursor num => if num ≤ s.claimed then (.idle, s, some none) else (.bump num, s, none)
  | .bump num =>
    let s' := { s with claimed := s.claimed + 1 }
    if s.claimed < num then (.loadStart s.claimed, s', none) else (.idle, s', some none)
  | .loadStart idx => (.loadStop idx (s.slots.getD idx default).start, s, none)
  | .loadStop idx start => (.idle, s, some (some ⟨start, (s.slots.getD idx default).stop⟩))

end RootRegions

open RootRegions

/-- ルートリージョンと、番号で呼ぶ claimer たちの呼び出しの中の位置。 -/
structure Claiming where
  roots : RootRegions
  pcs : Nat → ClaimPc

/-- 集合への 1 つの呼び出しか、claimer `c` の原子的な一歩。 -/
inductive RootCall where
  | add (r : MemRange)
  | reset
  | prepare
  | abort
  | finish
  | cancel
  | claim (c : Nat)
  deriving DecidableEq, Repr

/-- 一歩の答え。 -/
inductive RootReply where
  /-- 範囲を加えたか。 -/
  | added (ok : Bool)
  /-- 値のない呼び出しか、まだ終わらない claimer の呼び出しの一歩。 -/
  | done
  /-- claimer `c` の呼び出しが `r` を返した。 -/
  | claimed (c : Nat) (r : Option MemRange)
  deriving DecidableEq, Repr

namespace RootCall

/-- 範囲の集合を変えない呼び出し：claimer の一歩、走査の終わり、取り消し。 -/
def keepsSet : RootCall → Bool
  | .claim _ | .finish | .cancel => true
  | _ => false

/-- 一歩を進める claimer。 -/
def claimer : RootCall → Option Nat
  | .claim c => some c
  | _ => none

end RootCall

namespace RootReply

/-- claimer `c` の呼び出しが返したもの。 -/
def claimOf? (c : Nat) : RootReply → Option (Option MemRange)
  | .claimed c' r => if c' = c then some r else none
  | _ => none

/-- 呼び出しが返した範囲。 -/
def region? : RootReply → Option MemRange
  | .claimed _ r => r
  | _ => none

/-- 答えの並びのうち、claimer `c` の呼び出しが返したもの。古いものから。 -/
def claimsOf (c : Nat) (rs : List RootReply) : List (Option MemRange) := rs.filterMap (claimOf? c)

/-- 答えの並びのうち、呼び出しが返した範囲。古いものから。 -/
def regions (rs : List RootReply) : List MemRange := rs.filterMap region?

end RootReply

namespace Claiming

/-- 容量 `m` の空の集合と、呼び出しの外にいる claimer たち。 -/
def new (m : Nat) : Claiming := ⟨RootRegions.new m, fun _ => .idle⟩

/-- 一歩を進める。集合への呼び出しは `RootRegions` のもので、事前条件を破れば止まる。 -/
def step (σ : Claiming) : RootCall → Except Panic (RootReply × Claiming)
  | .add r => do
    let p ← σ.roots.add r
    return (.added p.1, { σ with roots := p.2 })
  | .reset => .ok (.done, { σ with roots := σ.roots.reset })
  | .prepare => do return (.done, { σ with roots := ← σ.roots.prepare })
  | .abort => .ok (.done, { σ with roots := σ.roots.abort })
  | .finish => do return (.done, { σ with roots := ← σ.roots.finish })
  | .cancel => .ok (.done, { σ with roots := σ.roots.cancel })
  | .claim c =>
    let p := σ.roots.claimStep (σ.pcs c)
    .ok ((p.2.2.map (.claimed c)).getD .done, ⟨p.2.1, fun c' => if c' = c then p.1 else σ.pcs c'⟩)

/-- 歩みを順に進め、答えを並べる。事前条件を破った歩みで止まる。 -/
def run (σ : Claiming) : List RootCall → Except Panic (List RootReply × Claiming)
  | [] => .ok ([], σ)
  | x :: xs => do
    let p ← σ.step x
    let q ← p.2.run xs
    return (p.1 :: q.1, q.2)

end Claiming

end RegionMark
