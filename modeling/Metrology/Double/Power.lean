import Metrology.Double

/-!
# General powers

Raising one double to the power of another. This is the one operation that is left to the machine's
own arithmetic: a double goes over by its bit pattern, and the result comes back the same way.
Whatever the machine answers, a power that is not finite counts as no result.
-/

namespace Metrology

namespace Double

/-- The bit pattern: the sign in the top bit, then the rank. The infinities follow the last rank. -/
def toBits : Double → UInt64
  | nan => .ofNat (rankCount + twoTo 51)
  | infinite negative => .ofNat ((if negative then twoTo 63 else 0) + rankCount)
  | finite negative rank => .ofNat ((if negative then twoTo 63 else 0) + rank.val)

/-- The double with a given bit pattern; the patterns beyond the infinities are not-a-number. -/
def ofBits (bits : UInt64) : Double :=
  let negative := twoTo 63 ≤ bits.toNat
  let rank := bits.toNat % twoTo 63
  if rank ≤ rankCount then ofRank negative rank else nan

/-- `x ^ y` as the machine computes it. -/
def pow (x y : Double) : Double :=
  ofBits ((Float.ofBits x.toBits).pow (Float.ofBits y.toBits)).toBits

/-- `x ^ y` if that is finite: a negative number has no fractional power, zero no negative one, and
a power beyond the largest double is refused. -/
def pow? (x y : Double) : Option Double :=
  let power := pow x y
  if power.isFinite then some power else none

end Double

end Metrology
