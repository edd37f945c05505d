import DataSchema.Format.Address
import DataSchema.Format.Calendar
import DataSchema.Text.CharClass

/-!
The formats that a schema can demand of a string.
-/

namespace DataSchema

inductive Format where
  | dateTime | date | time | email | uri | uuid | ipv4 | ipv6 | hostname
  deriving DecidableEq

namespace Format

def name : Format → String
  | .dateTime => "date-time"
  | .date => "date"
  | .time => "time"
  | .email => "email"
  | .uri => "uri"
  | .uuid => "uuid"
  | .ipv4 => "ipv4"
  | .ipv6 => "ipv6"
  | .hostname => "hostname"

def all : List Format := [.dateTime, .date, .time, .email, .uri, .uuid, .ipv4, .ipv6, .hostname]

def ofName? (text : String) : Option Format := all.find? fun f => f.name = text

/-! ### Formats by character -/

/-- A character of a mail address: neither white space nor the sign between its parts. -/
def isMailChar (c : Char) : Bool := !Text.isBlank c && c != '@'

/-- Something before the sign, and after it something, a point, and something. -/
def isEmail (text : List Char) : Bool :=
  let user := text.takeWhile isMailChar
  match text.dropWhile isMailChar with
  | '@' :: domain =>
    !user.isEmpty && domain.all isMailChar && ((domain.drop 1).dropLast.contains '.')
  | _ => false

def isSchemeChar (c : Char) : Bool := c.isAlphanum || c == '+' || c == '.' || c == '-'

/-- A scheme, a colon, and no white space after it. -/
def isUri : List Char → Bool
  | [] => false
  | c :: rest =>
    c.isAlpha &&
      match rest.dropWhile isSchemeChar with
      | ':' :: rest => rest.all (!Text.isBlank ·)
      | _ => false

/-- The lengths of the runs between dashes, each of hexadecimal digits only. -/
def isDashed (lengths : List Nat) (text : List Char) : Bool :=
  match lengths with
  | [] => text.isEmpty
  | [n] => text.length == n && text.all isHexDigit
  | n :: lengths =>
    (text.take n).length == n && (text.take n).all isHexDigit &&
      match text.drop n with
      | '-' :: rest => isDashed lengths rest
      | _ => false

def isUuid (text : List Char) : Bool :=
  let body := match text with
    | 'u' :: 'r' :: 'n' :: ':' :: 'u' :: 'u' :: 'i' :: 'd' :: ':' :: rest => rest
    | text => text
  isDashed [8, 4, 4, 4, 12] body

/-- Letters, digits and inner dashes, one to sixty-three of them. -/
def isLabel (text : List Char) : Bool :=
  !text.isEmpty && text.length ≤ 63 && text.all (fun c => c.isAlphanum || c == '-') &&
    text.head? != some '-' && text.getLast? != some '-'

/-- Labels between points, at most 253 characters in all. -/
def isHostname (text : String) : Bool :=
  text.utf8ByteSize ≤ 253 && (text.toList.splitOn '.').all isLabel

def accepts (format : Format) (text : String) : Bool :=
  match format with
  | .dateTime => isInstant text.toList
  | .date => isDate text.toList
  | .time => isTime text.toList
  | .email => isEmail text.toList
  | .uri => isUri text.toList
  | .uuid => isUuid text.toList
  | .ipv4 => isIpv4 text.toList
  | .ipv6 => isIpv6 text.toList
  | .hostname => isHostname text

/-- Does the check of the format break off at the text? Then it gives no answer, and the one that `accepts`
gives counts for nothing. -/
def breaksOff (format : Format) (text : String) : Bool :=
  match format with
  | .time => timeBreaksOff text.toList
  | _ => false

end Format

end DataSchema
