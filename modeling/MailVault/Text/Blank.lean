import MailVault.Text.Ranges

/-!
# White space

The twenty-five characters with the property White_Space, and the text that is
left when they are taken off both ends.
-/

namespace MailVault
namespace Text

/-- The runs of the property White_Space. -/
def blankRanges : Ranges :=
  [(9, 13), (32, 32), (133, 133), (160, 160), (5760, 5760), (8192, 8202), (8232, 8233),
   (8239, 8239), (8287, 8287), (12288, 12288)]

def isBlank (character : Char) : Bool :=
  blankRanges.holds character.toNat

/-- The text from its first to its last character that is not white space. -/
def trim (text : List Char) : List Char :=
  ((text.dropWhile isBlank).reverse.dropWhile isBlank).reverse

end Text
end MailVault
