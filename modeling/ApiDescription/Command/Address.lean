import ApiDescription.Fault
import ApiDescription.Text.Normal

/-!
# Addresses

The parts of an address that a request needs: the scheme, the host with its port, and the path
without parameters, query and fragment.
-/

namespace ApiDescription.Command

structure Address where
  scheme : String
  host : String
  path : String

def isSchemeChar (character : Char) : Bool :=
  character.isAlphanum || character == '+' || character == '-' || character == '.'

def splitScheme (characters : List Char) : List Char × List Char :=
  let front := characters.takeWhile (· != ':')
  match front, characters.dropWhile (· != ':') with
  | first :: _, _ :: rest =>
    if first.isAlpha && front.all isSchemeChar then (front.map Char.toLower, rest)
    else ([], characters)
  | _, _ => ([], characters)

def endsHost (character : Char) : Bool :=
  character == '/' || character == '?' || character == '#'

def splitHost : List Char → List Char × List Char
  | '/' :: '/' :: rest =>
    (rest.takeWhile fun character => !endsHost character,
      rest.dropWhile fun character => !endsHost character)
  | characters => ([], characters)

def isHexGroup (group : List Char) : Bool :=
  let isHex (character : Char) : Bool :=
    character.isDigit || ('a' ≤ character && character ≤ 'f') ||
      ('A' ≤ character && character ≤ 'F')
  !group.isEmpty && group.length ≤ 4 && group.all isHex

/-- Whether a piece is a number from 0 to 255 without needless zeros. -/
def isByteGroup (group : List Char) : Bool :=
  let value := group.foldl (fun value digit => 10 * value + (digit.toNat - 0x30)) 0
  !group.isEmpty && group.length ≤ 3 && group.all Char.isDigit && value ≤ 255 &&
    (group.length == 1 || group.head? != some '0')

/-- Whether the text is four numbers with dots between them. -/
def isDotted (characters : List Char) : Bool :=
  let groups := Text.splitAtEvery '.' characters
  groups.length == 4 && groups.all isByteGroup

/-- Whether the text is an address of eight groups, where two colons stand for groups left out and
the last two groups may be dotted. -/
def isGrouped (characters : List Char) : Bool :=
  let plain := characters.takeWhile (· != '%')
  let zone := characters.dropWhile (· != '%')
  let groups := Text.splitAtEvery ':' plain
  let (groups, dotted) :=
    match groups.getLast? with
    | some last =>
      if last.contains '.' then (groups.dropLast ++ [['0'], ['0']], isDotted last)
      else (groups, true)
    | none => (groups, true)
  let inner := (groups.drop 1).dropLast
  let gaps := (inner.filter List.isEmpty).length
  let opensEmpty := groups.head?.any List.isEmpty
  let closesEmpty := groups.getLast?.any List.isEmpty
  let gapAt (index : Nat) : Bool := (groups.drop index).head?.any List.isEmpty
  let zoneFine := zone.isEmpty || (zone.length > 1 && !(zone.drop 1).contains '%')
  let named := groups.filter fun group => !group.isEmpty
  let shape :=
    if gaps == 1 then
      (!opensEmpty || gapAt 1) && (!closesEmpty || gapAt (groups.length - 2)) &&
        named.length < 8 && groups.length ≤ 9
    else gaps == 0 && !opensEmpty && !closesEmpty && groups.length == 8
  3 ≤ groups.length && dotted && zoneFine && shape && named.all isHexGroup

/-- Whether the text is an address of a version still to come. -/
def isFuture : List Char → Bool
  | 'v' :: rest =>
    let version := rest.takeWhile (· != '.')
    let isHex (character : Char) : Bool := isHexGroup [character]
    match rest.dropWhile (· != '.') with
    | _ :: after => !version.isEmpty && version.all isHex && !after.isEmpty && !after.contains '\n'
    | [] => false
  | _ => false

def bracketsFine (host : List Char) : Bool :=
  if host.contains '[' || host.contains ']' then
    let inside := ((host.dropWhile (· != '[')).drop 1).takeWhile (· != ']')
    host.contains '[' && host.contains ']' &&
      (if inside.head? == some 'v' then isFuture inside else isGrouped inside)
  else true

/-- Whether the host stays a host when its characters are brought into their normal form. -/
def hostFine (host : List Char) : Bool :=
  if host.all fun character => character.toNat < 0x80 then true
  else
    let kept := String.ofList (host.filter fun character =>
      !(character == '@' || character == ':' || character == '#' || character == '?'))
    let normal := Text.normalize kept
    normal == kept || !(normal.toList.any fun character =>
      character == '/' || character == '?' || character == '#' || character == '@' || character ==
        ':')

def dropParameters (path : List Char) : List Char :=
  let last := path.reverse.takeWhile (· != '/')
  let before := path.take (path.length - last.length)
  before ++ last.reverse.takeWhile (· != ';')

/-- The schemes under which the last segment of a path may have parameters. -/
def parameterSchemes : List String :=
  ["", "ftp", "hdl", "prospero", "http", "imap", "https", "shttp", "rtsp", "rtsps", "rtspu", "sip",
    "sips", "mms", "sftp", "tel"]

def Address.ofText (text : String) : Except Fault Address := do
  let trimmed := text.toList.dropWhile fun character => character.toNat ≤ 0x20
  let characters := trimmed.filter fun character =>
    !(character == '\t' || character == '\r' || character == '\n')
  let (scheme, rest) := splitScheme characters
  let (host, rest) := splitHost rest
  if !bracketsFine host || !hostFine host then throw .badValue
  let path := rest.takeWhile fun character => character != '#' && character != '?'
  let scheme := String.ofList scheme
  let path := if parameterSchemes.contains scheme then dropParameters path else path
  return { scheme, host := String.ofList host, path := String.ofList path }

end ApiDescription.Command
