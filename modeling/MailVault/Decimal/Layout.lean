import MailVault.Decimal.Shortest

/-!
# Floating-point numbers as text

A number has the digits of its shortest decimal.  It is positional while its
decimal point is near those digits, and scientific otherwise.
-/

namespace MailVault
namespace Decimal

/-- For which numbers the decimal point stands among the digits. -/
structure Layout where
  /-- The smallest decimal exponent of the first digit that is written positionally. -/
  least : Int
  /-- The largest one. -/
  greatest : Int

/-- Numbers from a hundred-thousandth up to sixteen whole digits are positional. -/
def plain : Layout := ⟨-5, 15⟩

namespace Layout

/-- Digits with a point and at least one digit on each side of it. -/
def positional (digits : List Char) (leading : Int) : List Char :=
  if leading < 0 then
    '0' :: '.' :: (List.replicate (-leading - 1).toNat '0' ++ digits)
  else
    let whole := (leading + 1).toNat
    let padded := digits ++ List.replicate (whole - digits.length) '0'
    let fraction := padded.drop whole
    padded.take whole ++ '.' :: (if fraction.isEmpty then ['0'] else fraction)

/-- One digit, the others after a point, and the exponent with its sign. -/
def scientific (digits : List Char) (leading : Int) : List Char :=
  let fraction := digits.drop 1
  digits.take 1 ++ (if fraction.isEmpty then [] else '.' :: fraction) ++
    'e' :: (if leading < 0 then '-' else '+') :: (toString leading.natAbs).toList

/-- The text of a positive decimal. -/
def write (choice : Layout) (number : Digits) : List Char :=
  let digits := (toString number.digits).toList
  let leading := number.exponent + digits.length - 1
  if choice.least ≤ leading ∧ leading ≤ choice.greatest then positional digits leading
  else scientific digits leading

end Layout

/-- The text of a finite double. -/
def floatText (number : Float) : String :=
  let bits := number.toBits.toNat
  let sign := if bits / twoTo 63 = 1 then ['-'] else []
  let biased := bits / twoTo 52 % twoTo 11
  let fraction := bits % twoTo 52
  if biased = 0 ∧ fraction = 0 then String.ofList (sign ++ ['0', '.', '0'])
  else String.ofList (sign ++ plain.write (shortest fraction biased))

end Decimal
end MailVault
