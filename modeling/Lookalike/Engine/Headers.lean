import Lookalike.Backend
import Lookalike.Text.Word

/-! # Headers of requests

Every request carries the key for the search engine, if there is one, and the configured headers.
Names are tokens and are compared in small letters; of several headers with one name the last, by
code points of the names as configured, is sent, also in place of the key.  The first bad header is
reported, the key before the others. -/

namespace Lookalike

/-- Why a client of the search engine fails. -/
inductive ClientError where
  | transport (e : TransportError)
  | notJson (reason : String)
  | headerName
  | headerValue
  | invalidConfig (reason : String)
  | invalidResponse (reason : String)
deriving DecidableEq

namespace ClientError

def message : ClientError → String
  | transport e => e.message
  | notJson reason => reason
  | headerName => BackendCause.headerName.display
  | headerValue => BackendCause.headerValue.display
  | invalidConfig reason => reason
  | invalidResponse reason => reason

def toBackend (e : ClientError) : BackendError where
  kind := match e with
    | transport e => if e.timedOut then .timeout else .unavailable
    | notJson _ => .invalidResponse
    | invalidResponse _ => .invalidResponse
    | _ => .unavailable
  message := e.message
  cause := match e with
    | transport e => some (.transport e)
    | notJson reason => some (.notJson reason)
    | headerName => some .headerName
    | headerValue => some .headerValue
    | _ => none

end ClientError

namespace Header

/-- The characters of a token other than letters and digits. -/
def tokenMarks : List Char :=
  ['!', '#', '$', '%', '&', '\'', '*', '+', '-', '.', '^', '_', '\x60', '|', '~']

def isTokenChar (c : Char) : Bool := c.isAlphanum || tokenMarks.contains c

/-- The name of a header in small letters. -/
def name? (raw : String) : Option String :=
  if !raw.isEmpty && raw.toList.all isTokenChar then some (Text.lowerAscii raw) else none

/-- Whether a character may stand in the value of a header: all but the controls, of which the tab
is one. -/
def isValueChar (c : Char) : Bool :=
  c == '\t' || (decide (0x20 ≤ c.toNat) && c.toNat != 0x7F)

/-- Whether a text may be the value of a header. -/
def isValue (raw : String) : Bool := raw.toList.all isValueChar

/-- The headers of a key for the search engine. -/
def ofKey : Option String → Except ClientError (KeyMap String)
  | none => .ok ∅
  | some key =>
      let value := "ApiKey " ++ key
      if isValue value then .ok ((∅ : KeyMap String).insert "authorization" value)
      else .error .headerValue

def set (headers : KeyMap String) (name : String) (value : Json) :
    Except ClientError (KeyMap String) :=
  match value.string? with
  | none => .error (.invalidConfig "Default header values must be strings.")
  | some value =>
      match name? name with
      | none => .error .headerName
      | some name => if isValue value then .ok (headers.insert name value) else .error .headerValue

def setAll (headers : KeyMap String) :
    List (String × Json) → Except ClientError (KeyMap String)
  | [] => .ok headers
  | (name, value) :: rest => do
      let headers ← set headers name value
      setAll headers rest

/-- The headers of every request, given the configured ones by increasing name. -/
def all (apiKey : Option String) (configured : List (String × Json)) :
    Except ClientError (KeyMap String) := do
  let headers ← ofKey apiKey
  setAll headers configured

end Header

end Lookalike
