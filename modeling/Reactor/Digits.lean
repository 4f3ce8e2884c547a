import Mathlib.Algebra.Group.Nat.Defs
import Mathlib.Data.List.Basic
import Mathlib.Tactic.Common

/-! Numbers as texts: digits in a radix up to 16, and a number cut into groups that are written
one after the other. Nothing here depends on the programs that are modelled. -/
namespace Reactor.Digits

section
variable {radix base n k : Nat}

end

end Reactor.Digits
