import Mathlib
import RegionMark.Stats

/-!
# 統計の表とキャッシュの勘定

リージョンの生きた語は表とキャッシュの枠に分かれて置かれる。キャッシュの操作はこの和を、語の大きさを法
として、加えた語数だけ動かし、`reset` だけが中身を捨てる。
-/

namespace RegionMark

namespace RegionStats

theorem bump_getD {xs ys : Array Nat} {r d : Nat} (h : bump xs r d = .ok ys) (r' : Nat) :
    ys.getD r' 0 ≡ xs.getD r' 0 + (if r' = r then d else 0) [MOD Word.bound] := by
  unfold bump at h
  split at h
  · cases h
    split <;> simp_all [Nat.ModEq.refl]
  · split at h
    · rename_i hr
      cases h
      rw [Array.getD_eq_getD_getElem?, Array.getD_eq_getD_getElem?, Array.getElem?_modify]
      rcases eq_or_ne r' r with rfl | hr'
      · simpa [Array.getElem?_eq_getElem hr, Word.wrapAdd] using Nat.mod_modEq _ _
      · simp [Ne.symm hr', hr', Nat.ModEq.refl]
    · cases h

theorem add_liveWords {g g' : RegionStats} {r l i : Nat} (h : g.add r l i = .ok g') (r' : Nat) :
    g'.liveWords r' ≡ g.liveWords r' + (if r' = r then l else 0) [MOD Word.bound] := by
  unfold add at h
  simp only [bind, Except.bind, pure, Except.pure] at h
  split at h
  · cases h
  · rename_i ls hl
    split at h
    · cases h
    · cases h
      exact bump_getD hl r'

/-- 生きた語の項目がどれも語に収まる。和は語の大きさを法としてとるので、表はいつもこれを満たす。 -/
def LiveBounded (g : RegionStats) : Prop := ∀ r, g.liveWords r < Word.bound

end RegionStats

/-- 枠がリージョン `r` について持っている生きた語。 -/
def CacheSlot.liveOf (r : Nat) (s : CacheSlot) : Nat := if s.region = some r then s.live else 0

namespace CacheSlot

@[simp] theorem liveOf_default (r : Nat) : (default : CacheSlot).liveOf r = 0 := rfl

end CacheSlot

namespace StatsCache

/-- キャッシュがリージョン `r` についてまだ書き戻していない生きた語。 -/
def cachedLive (c : StatsCache) (r : Nat) : Nat := (c.slots.toList.map (CacheSlot.liveOf r)).sum

end StatsCache

end RegionMark
