/-
  Bisect — the place of a number in an ascending array, found by halving.

  * `Bisect.search`  the halving loop on an interval
  * `countBelow`     how many entries of an ascending array are below a number
-/

namespace XmlGraft

/-- The halving loop: the least `i` in `[lo, hi]` such that entry `i` is not below `n`. -/
def Bisect.search (entries : Array Nat) (n lo hi : Nat) (fits : hi ≤ entries.size) : Nat :=
  if open_range : lo < hi then
    have inside : (lo + hi) / 2 < entries.size := by omega
    if entries[(lo + hi) / 2] < n then
      Bisect.search entries n ((lo + hi) / 2 + 1) hi fits
    else Bisect.search entries n lo ((lo + hi) / 2) (by omega)
  else lo
termination_by hi - lo
decreasing_by all_goals omega

/-- **How many entries of an ascending array are below `n`.** -/
def countBelow (entries : Array Nat) (n : Nat) : Nat :=
  Bisect.search entries n 0 entries.size (Nat.le_refl _)

example : countBelow #[1, 3, 4, 4, 8] 4 = 2 := by cbv
example : countBelow #[1, 3, 4, 4, 8] 9 = 5 := by cbv
example : countBelow #[] 4 = 0 := by cbv

end XmlGraft
