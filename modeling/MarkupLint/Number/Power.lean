/-
  Powers of the two bases that numbers are written in.
-/

namespace MarkupLint

/-- Powers of two. -/
def pow2 (k : Nat) : Nat := Nat.pow 2 k

/-- Powers of ten. -/
def pow10 (k : Nat) : Nat := Nat.pow 10 k

end MarkupLint
