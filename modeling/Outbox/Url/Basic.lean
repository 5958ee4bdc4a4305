import Outbox.Url.Host

/-! # URLs

A URL is a scheme, an authority behind two slashes with user, password, host and port, a path, and
behind a question mark a query. The schemes of the web take any number of slashes, backslashes as
well, and need a host; those of files have no more than a host. Paths are not looked at here.
-/

namespace Outbox

/-- What is in a URL besides the scheme and the path, as it is written there. What is missing is
empty. -/
structure Url where
  user : List Char
  password : List Char
  host : List Char
  port : Option Nat
  query : List Char

namespace Url

/-- How the rest of a URL is read behind its scheme. -/
inductive Manner
  | plain
  | file
  /-- A scheme of the web, with the port that goes without saying. -/
  | web (port : Nat)
  deriving DecidableEq, Repr

/-- The manner of a scheme. -/
def manner (scheme : String) : Manner :=
  match scheme with
  | "file" => .file
  | "http" | "ws" => .web 80
  | "https" | "wss" => .web 443
  | "ftp" => .web 21
  | _ => .plain

/-- The scheme and what follows it. -/
def splitScheme? (cs : List Char) : Option (String × List Char) :=
  let isSchemeChar (c : Char) : Bool := c.isAlphanum || c == '+' || c == '-' || c == '.'
  if (cs.head?.map Char.isAlpha).getD false then
    match cs.dropWhile isSchemeChar with
    | ':' :: rest => some (String.ofList ((cs.takeWhile isSchemeChar).map Char.toLower), rest)
    | _ => none
  else none

/-- Characters behind which neither user, host nor port can go on. -/
def endsAuthority (manner : Manner) (c : Char) : Bool :=
  c == '/' || c == '?' || c == '#' || (c == '\\' && manner != .plain)

/-- The host at the front, which ends with a colon outside of brackets. -/
def takeHost : Bool → List Char → List Char × List Char
  | _, [] => ([], [])
  | bracketed, c :: rest =>
      if c = ':' && !bracketed then ([], c :: rest)
      else
        let (host, rest) := takeHost (c = '[' || (bracketed && c != ']')) rest
        (c :: host, rest)

/-- A port of no digits, or of some up to the end or a backslash. -/
def readPort : Option Nat → List Char → Except UrlError (Option Nat)
  | port, [] => .ok port
  | port, c :: rest =>
      if c = '\\' then .ok port
      else if !c.isDigit then .error .badPort
      else
        let n := 10 * port.getD 0 + Decimal.digitValue c
        if 0xFFFF < n then .error .badPort else readPort (some n) rest

/-- Reads an authority, behind which there may be more of the URL. -/
def readAuthority (manner : Manner) (cs : List Char) (isAll : Bool) : Except UrlError Url := do
  let credentials := (cs.reverse.dropWhile (· != '@')).reverse
  if credentials == ['@'] && cs.length == 1 && !isAll then throw .emptyHost
  let user := credentials.dropLast.takeWhile (· != ':')
  let password := credentials.dropLast.drop (user.length + 1)
  let (host, rest) := takeHost false (cs.drop credentials.length)
  if manner == .plain then checkHost host else checkDomain host
  let isNamed := !user.isEmpty || !password.isEmpty
  if host.isEmpty && (isNamed || !rest.isEmpty) then throw .emptyHost
  let port ← readPort none (rest.drop 1)
  return ⟨user, password, host, if .web (port.getD 0) = manner then none else port, []⟩

/-- A letter and a colon or a bar name a drive. -/
def isDrive (cs : List Char) : Bool :=
  cs.length == 2 && (cs.take 1).all Char.isAlpha && (cs.drop 1).all fun c => c == ':' || c == '|'

/-- Reads the host of a file, which may be missing. A drive is no host. -/
def readFileHost (cs : List Char) : Except UrlError Url := do
  let host := if isDrive cs then [] else cs
  if !host.isEmpty then checkDomain host
  return ⟨[], [], host, none, []⟩

/-- Reads what follows a scheme. -/
def readBehind (manner : Manner) (rest : List Char) : Except UrlError Url :=
  let isSlash (c : Char) : Bool := c == '/' || c == '\\'
  match manner, rest with
  | .plain, '/' :: '/' :: rest => authority rest
  | .plain, _ => .ok ⟨[], [], [], none, []⟩
  | .web _, rest => authority (rest.dropWhile isSlash)
  | .file, rest =>
      if (rest.takeWhile isSlash).length < 2 then .ok ⟨[], [], [], none, []⟩
      else readFileHost ((rest.drop 2).takeWhile fun c => !endsAuthority manner c)
where
  authority (cs : List Char) : Except UrlError Url :=
    let here := cs.takeWhile fun c => !endsAuthority manner c
    readAuthority manner here (here.length == cs.length)

/-- Reads a URL. Control characters and blanks around it do not count, nor do line ends in it. -/
def ofText (text : String) : Except UrlError Url := do
  let isOuter (c : Char) : Bool := c.toNat ≤ 0x20
  let cs := ((text.toList.dropWhile isOuter).reverse.dropWhile isOuter).reverse
  let cs := cs.filter fun c => !(c == '\t' || c == '\n' || c == '\r')
  match splitScheme? cs with
  | none => throw .noScheme
  | some (scheme, rest) =>
      let url ← readBehind (manner scheme) rest
      return { url with
        query := ((rest.takeWhile (· != '#')).dropWhile (· != '?')).drop 1 }

/-- The query as pairs of a name and a value. -/
def pairs (url : Url) : List (String × String) :=
  let plain (cs : List Char) : String :=
    Text.Utf8.decodeMarking (percentBytes (cs.map fun c => if c = '+' then ' ' else c))
  ((splitAt '&' url.query).filter (!·.isEmpty)).map fun entry =>
    let name := entry.takeWhile (· != '=')
    (plain name, plain (entry.drop (name.length + 1)))

end Url

end Outbox
