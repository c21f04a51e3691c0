import VisaEligibility.Json.Reader
import VisaEligibility.Web.MediaType
/-!
Requests and the values in their bodies. Only a JSON body is read; any other counts as an empty
record. A JSON body is an object or a list in UTF-8 of limited size.
-/
set_option autoImplicit false

namespace VisaEligibility.Web

structure Request where
  method : String
  target : String
  headers : List (String × String) := []
  body : Option String := none
deriving DecidableEq, Repr

namespace Request

def path (r : Request) : String := String.ofList (r.target.toList.takeWhile (· ≠ '?'))

/-- The value of a header; names do not depend on case. -/
def header? (r : Request) (name : String) : Option String :=
  (r.headers.find? fun h => h.1.toLower == name).map Prod.snd

def id? (r : Request) : Option String :=
  (r.header? "x-request-id").filter fun s => !s.isEmpty

def mediaType? (r : Request) : Option MediaType :=
  (r.header? "content-type").bind MediaType.ofText?

def maxBodyBytes : Nat := 102400

def isJsonBlank (c : Char) : Bool := c = ' ' || c = '\t' || c = '\n' || c = '\r'

def isContainerText (s : String) : Bool :=
  match s.toList.dropWhile isJsonBlank with
  | c :: _ => c = '\x7b' || c = '['
  | [] => false

def dropMark (s : String) : String :=
  match s.toList with
  | '\ufeff' :: cs => String.ofList cs
  | _ => s

def isUtf8 (m : MediaType) : Bool :=
  match m.parameter "charset" with
  | some c => c.toLower == "utf-8"
  | none => true

def jsonValue? (m : MediaType) (text : String) : Option Value :=
  if !isUtf8 m || maxBodyBytes < text.utf8ByteSize then none
  else
    let text := dropMark text
    if text.isEmpty then some (.record [])
    else if isContainerText text then Json.ofText? text
    else none

/-- The value of the body, `none` when it is malformed. -/
def value? (r : Request) : Option Value :=
  match r.body, r.mediaType? with
  | some text, some m => if m.isJson then jsonValue? m text else some (.record [])
  | _, _ => some (.record [])

end Request
end VisaEligibility.Web
