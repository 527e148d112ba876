import MailVault.Text.Alphanumeric
import MailVault.Text.Blank
import MailVault.Text.Pieces

/-!
# The grammar of mail addresses

An address is a local part and a domain around an at sign.  The local part is a
quoted string, or atoms between points; the domain is a literal in brackets, or
labels between points.  Lengths count bytes of UTF-8.

The checks are made in a fixed order, so that each wrong address has one cause.
-/

namespace MailVault
namespace Address

/-- Why a text is not an address. -/
inductive Cause where
  | invalidCharacter
  | missingSeparator
  | localPartEmpty
  | localPartTooLong
  | domainEmpty
  | domainTooLong
  | subDomainEmpty
  | subDomainTooLong
  | missingDisplayName
  | missingEndBracket
deriving DecidableEq, Repr

namespace Cause

def message : Cause → String
  | invalidCharacter => "Invalid character."
  | missingSeparator => "Missing separator character '@'."
  | localPartEmpty => "Local part is empty."
  | localPartTooLong => "Local part is too long. Length limit: 64"
  | domainEmpty => "Domain is empty."
  | domainTooLong => "Domain is too long. Length limit: 254"
  | subDomainEmpty => "A sub-domain is empty."
  | subDomainTooLong => "A sub-domain is too long. Length limit: 63"
  | missingDisplayName => "Display name was not supplied, but email starts with '<'."
  | missingEndBracket => "Terminating '>' is missing."

end Cause

def byteLength : List Char → Nat
  | [] => 0
  | character :: rest => character.utf8Size + byteLength rest

def localLimit : Nat := 64

def domainLimit : Nat := 254

def labelLimit : Nat := 63

/-- The code points from C280 to DFBF whose low byte lies between 80 and BF: the code points that
look like the two bytes of a character in UTF-8. -/
def isPaired (character : Char) : Bool :=
  let high := character.toNat / 256
  let low := character.toNat % 256
  decide (0xC2 ≤ high ∧ high ≤ 0xDF ∧ 0x80 ≤ low ∧ low ≤ 0xBF)

def atomMarks : List Char :=
  "!#$%&'*+-/=?^_`\x7b|\x7d~".toList

def isAtomText (character : Char) : Bool :=
  Text.isAlphanumeric character || atomMarks.contains character || isPaired character

/-- The visible characters of ASCII. -/
def isVisible (character : Char) : Bool :=
  decide ('!' ≤ character ∧ character ≤ '~')

/-- The characters that stand for themselves in a quoted string. -/
def isQuotedText (character : Char) : Bool :=
  (isVisible character && character != '"' && character != '\\') || isPaired character

/-- The characters of a domain literal. -/
def isLiteralText (character : Char) : Bool :=
  (isVisible character && character != '[' && character != '\\' && character != ']') ||
    isPaired character

/-- Whether a text is a non-empty run of atom characters. -/
def isAtom (text : List Char) : Bool :=
  !text.isEmpty && text.all isAtomText

/-- Whether a text may stand between the quotes of a quoted string: spaces, tabs, characters that
stand for themselves, and visible characters behind a backslash. -/
def isQuotedContent : List Char → Bool
  | [] => true
  | '\\' :: escaped :: rest => isVisible escaped && isQuotedContent rest
  | character :: rest =>
    (character == ' ' || character == '\t' || isQuotedText character) && isQuotedContent rest

/-- What stands between the first and the last character, if these are the given ones. -/
def between? (first last : Char) (text : List Char) : Option (List Char) :=
  if text.head? = some first ∧ text.getLast? = some last then some (text.drop 1).dropLast else none

def checkLocal (text : List Char) : Except Cause Unit :=
  if text.isEmpty then .error .localPartEmpty
  else if localLimit < byteLength text then .error .localPartTooLong
  else
    match between? '"' '"' text with
    | some inner =>
      if inner.isEmpty then .error .localPartEmpty
      else if isQuotedContent inner then .ok ()
      else .error .invalidCharacter
    | none => if (Text.split '.' text).all isAtom then .ok () else .error .invalidCharacter

def startsAlphanumeric (text : List Char) : Bool :=
  text.head?.any Text.isAlphanumeric

def endsAlphanumeric (text : List Char) : Bool :=
  text.getLast?.any Text.isAlphanumeric

def checkLabel (text : List Char) : Except Cause Unit :=
  if text.isEmpty then .error .subDomainEmpty
  else if !startsAlphanumeric text || !endsAlphanumeric text then .error .invalidCharacter
  else if labelLimit < byteLength text then .error .subDomainTooLong
  else if text.all isAtomText then .ok ()
  else .error .invalidCharacter

/-- Check labels in their order; the first wrong one counts. -/
def checkLabels : List (List Char) → Except Cause Unit
  | [] => .ok ()
  | label :: rest => do
    checkLabel label
    checkLabels rest

def checkDomain (text : List Char) : Except Cause Unit :=
  if text.isEmpty then .error .domainEmpty
  else if domainLimit < byteLength text then .error .domainTooLong
  else
    match between? '[' ']' text with
    | some inner => if inner.all isLiteralText then .ok () else .error .invalidCharacter
    | none => checkLabels (Text.split '.' text)

/-- What stands before and after the last space that is followed by an angle bracket. -/
def cutBracket : List Char → Option (List Char × List Char)
  | [] => none
  | first :: rest =>
    match cutBracket rest with
    | some (before, after) => some (first :: before, after)
    | none =>
      if first = ' ' ∧ rest.head? = some '<' then some ([], rest.drop 1) else none

/-- The display name and the bare address of a text. -/
def cutDisplay (text : List Char) : Except Cause (List Char × List Char) :=
  match cutBracket text with
  | none => .ok ([], text)
  | some (display, bracketed) =>
    let bracketed := Text.trim bracketed
    if bracketed.getLast? = some '>' then .ok (Text.trim display, bracketed.dropLast)
    else .error .missingEndBracket

structure Mailbox where
  localPart : List Char
  domain : List Char
deriving DecidableEq

namespace Mailbox

def text (mailbox : Mailbox) : List Char :=
  mailbox.localPart ++ '@' :: mailbox.domain

end Mailbox

/-- The mailbox of a text that may hold a display name. -/
def parse (text : List Char) : Except Cause Mailbox := do
  let (display, address) ← cutDisplay text
  match Text.cutLast '@' address with
  | none => .error .missingSeparator
  | some (localPart, domain) =>
    if display.isEmpty ∧ localPart.head? = some '<' then .error .missingDisplayName
    else
      checkLocal localPart
      checkDomain domain
      return ⟨localPart, domain⟩

end Address
end MailVault
