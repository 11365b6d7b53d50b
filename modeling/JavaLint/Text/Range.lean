/-!
Sets of code points given as sorted, closed ranges.
-/
namespace JavaLint.Text

abbrev Ranges := List (Nat × Nat)

def Ranges.contains (ranges : Ranges) (c : Char) : Bool :=
  ranges.any fun (low, high) => low ≤ c.toNat && c.toNat ≤ high

end JavaLint.Text
