/-!
# Classes of characters given by ranges of code points

A property of characters is stored as its maximal runs of code points, in
ascending order.  Because the runs ascend, the search may stop at the first run
that begins after the character.
-/

namespace MailVault
namespace Text

/-- The first and the last code point of each run, in ascending order. -/
abbrev Ranges := List (Nat × Nat)

namespace Ranges

/-- Whether one of the ascending runs holds the code point. -/
def holds : Ranges → Nat → Bool
  | [], _ => false
  | (first, last) :: rest, code =>
    if code < first then false else decide (code ≤ last) || holds rest code

end Ranges
end Text
end MailVault
