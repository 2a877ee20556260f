/-!
# Classes of characters as ranges

A class of characters is kept as the closed ranges of its code points, ascending and apart.
-/

namespace Resumption.Text

abbrev Ranges := List (Nat × Nat)

/-- Some range holds the code point. -/
def Ranges.contains (rs : Ranges) (n : Nat) : Bool := rs.any (fun r => r.1 ≤ n && n ≤ r.2)

/-- Every range is non-empty and ends before the next one starts. -/
def Ranges.ascending : Ranges → Bool
  | [] => true
  | [r] => r.1 ≤ r.2
  | r :: s :: rest => r.1 ≤ r.2 && r.2 < s.1 && ascending (s :: rest)

end Resumption.Text
