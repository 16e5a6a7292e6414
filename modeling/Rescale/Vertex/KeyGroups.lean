/-!
# Key Groups

Parallelisms that divide a vertex's keys evenly.

The keys of a vertex with inputs come in a fixed number of groups. A parallelism
that divides this number gives every instance the same share, so the target is
raised to the next such parallelism. The search ends at half the groups, since
above that only the number itself divides it, and at the upper bound of the
vertex; if it finds nothing, the target stays.

## Main definitions

* `firstDivisor?`: The first divisor in a range.
* `alignToKeyGroups`: A target raised to a divisor of the key groups.
-/

namespace Rescale

/-- The first positive divisor of `n` among `count` numbers from `p` on. -/
def firstDivisor? (n : Nat) : Nat → Nat → Option Nat
  | _, 0 => none
  | p, count + 1 => if 0 < p && n % p == 0 then some p else firstDivisor? n (p + 1) count

/-- The least divisor of `keyGroups` from `target` up to `upper` and to half the
    key groups, or `target` itself if there is none. -/
def alignToKeyGroups (target keyGroups upper : Nat) : Nat :=
  (firstDivisor? keyGroups target (min upper (keyGroups / 2) + 1 - target)).getD target

end Rescale
