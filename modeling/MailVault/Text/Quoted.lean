import MailVault.Bytes
import MailVault.Text.Unseen

/-!
# Quoted text

A quoted text shows a string between double quotes so that it stays on one line
and every character in it can be seen.  The characters that are not seen as
themselves are written by their code point.
-/

namespace MailVault
namespace Text

namespace Quoted

/-- The written form of one character.  A single quote cannot end the text and stays as it is. -/
def escape (character : Char) : List Char :=
  match character with
  | '"' => ['\\', '"']
  | '\\' => ['\\', '\\']
  | '\t' => ['\\', 't']
  | '\r' => ['\\', 'r']
  | '\n' => ['\\', 'n']
  | '\x00' => ['\\', '0']
  | _ =>
    if isUnseen character then
      ['\\', 'u', '\x7b'] ++ Hex.number character.toNat ++ ['\x7d']
    else [character]

end Quoted

/-- A text between double quotes. -/
def quote (text : String) : String :=
  String.ofList ('"' :: text.toList.flatMap Quoted.escape ++ ['"'])

end Text
end MailVault
