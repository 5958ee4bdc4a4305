import Outbox.Postgres.Error
import Outbox.Text.Debug
import Outbox.Url.Basic

/-! # Addresses of databases

The address of a database is a URL whose query holds settings. Only what decides where to connect
to, or that cannot be understood, is looked at here.
-/

namespace Outbox.Postgres

/-- Where a server is looked for. -/
inductive Place
  /-- A socket in a directory. -/
  | socket (directory : String)
  | host (name : String)
  deriving DecidableEq, Repr

structure Address where
  place : Place
  port : Nat
  deriving DecidableEq, Repr

/-- What is wrong with a number. -/
inductive NumberDefect
  | missing
  | notDigit
  | tooLarge
  deriving DecidableEq, Repr

/-- What is wrong with an address. -/
inductive AddressError
  | badUrl (error : UrlError)
  | badBytes (fault : Text.Utf8.Fault)
  | badMode (value : String)
  | badNumber (defect : NumberDefect)
  | badHostAddress
  deriving DecidableEq, Repr

namespace AddressError

/-- The complaints, from the outermost to the innermost. -/
def reasons : AddressError → List String
  | badUrl error => [error.message]
  | badBytes fault => [fault.message]
  | badMode value =>
      let reason := "unknown value " ++ Text.debugQuoted value ++ " for `ssl_mode`"
      ["error with configuration: " ++ reason, reason]
  | badNumber .missing => ["cannot parse integer from empty string"]
  | badNumber .notDigit => ["invalid digit found in string"]
  | badNumber .tooLarge => ["number too large to fit in target type"]
  | badHostAddress => ["invalid IP address syntax"]

end AddressError

namespace Address

/-- The port that is used where none is given. -/
def defaultPort : Nat := 5432

/-- Digits added to a number as long as it does not exceed `most`. -/
def extendNumber (most : Nat) : Nat → List Char → Except NumberDefect Nat
  | n, [] => .ok n
  | n, c :: rest =>
      if !c.isDigit then .error .notDigit
      else if most < 10 * n + Decimal.digitValue c then .error .tooLarge
      else extendNumber most (10 * n + Decimal.digitValue c) rest

/-- A natural number of at most `most`, with an optional plus sign. -/
def numberWithin (most : Nat) : List Char → Except NumberDefect Nat
  | [] => .error .missing
  | '+' :: c :: rest => extendNumber most 0 (c :: rest)
  | cs => extendNumber most 0 cs

/-- The words for how the connection is secured. -/
def modes : List String := ["disable", "allow", "prefer", "require", "verify-ca", "verify-full"]

/-- What is known of the place while settings are read. A socket goes before any host. -/
structure Draft where
  socket : Option String
  host : Option String
  port : Nat

namespace Draft

def toAddress (d : Draft) : Address where
  place := match d.socket with
    | some directory => .socket directory
    | none => .host (d.host.getD "localhost")
  port := d.port

/-- Takes a setting into account. Those of other names are passed over. -/
def withSetting (d : Draft) (name value : String) : Except AddressError Draft :=
  match name with
  | "sslmode" | "ssl-mode" =>
      if modes.contains (String.ofList (value.toList.map Char.toLower)) then .ok d
      else .error (.badMode value)
  | "statement-cache-capacity" =>
      match numberWithin 0xFFFFFFFFFFFFFFFF value.toList with
      | .ok _ => .ok d
      | .error defect => .error (.badNumber defect)
  | "port" =>
      match numberWithin 0xFFFF value.toList with
      | .ok port => .ok { d with port := port }
      | .error defect => .error (.badNumber defect)
  | "host" =>
      if value.toList.head? = some '/' then .ok { d with socket := some value }
      else .ok { d with host := some value }
  | "hostaddr" =>
      if Url.isIpv4 value.toList || Url.isIpv6 value.toList then .ok { d with host := some value }
      else .error .badHostAddress
  | _ => .ok d

end Draft

/-- The text of a part in which percent signs stand for bytes. -/
def decoded (cs : List Char) : Except AddressError String :=
  (Text.Utf8.decode (Url.percentBytes cs)).mapError .badBytes

/-- The place that a URL names before its settings. A host that begins with a slash is the directory
of a socket. User and password have to be text. -/
def draftOf (url : Url) : Except AddressError Draft := do
  let draft : Draft := ⟨none, none, url.port.getD defaultPort⟩
  let draft ←
    if (Url.percentBytes url.host).head? = some 0x2F then do
      pure { draft with socket := some (← decoded url.host) }
    else if url.host.isEmpty then pure draft
    else pure { draft with host := some (String.ofList url.host) }
  let _ ← decoded url.user
  let _ ← decoded url.password
  return draft

/-- Reads an address. -/
def ofText (text : String) : Except AddressError Address := do
  let url ← (Url.ofText text).mapError .badUrl
  let draft ← url.pairs.foldlM (fun d (name, value) => d.withSetting name value) (← draftOf url)
  return draft.toAddress

/-- The file of a socket. -/
def socketFile (directory : String) (port : Nat) : String :=
  directory ++ "/.s.PGSQL." ++ toString port

/-- How many bytes the name of a socket's file may take. -/
def socketFileRoom : Nat := 107

/-- What is heard at an address where no server is. -/
def silence (a : Address) : ClientError :=
  match a.place with
  | .host _ => .unreachable "Connection refused (os error 111)"
  | .socket directory =>
      let file := socketFile directory a.port
      if file.toList.contains '\x00' then
        .unreachable "paths must not contain interior null bytes"
      else if socketFileRoom < file.utf8ByteSize then
        .unreachable "path must be shorter than SUN_LEN"
      else .unreachable "No such file or directory (os error 2)"

/-- Why a text does not lead to a server, where no server is. -/
def silenceAt (text : String) : ClientError :=
  match ofText text with
  | .error error => .configuration error.reasons
  | .ok address => address.silence

end Address

end Outbox.Postgres
