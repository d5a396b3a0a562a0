import RequestLocale.Http.Header
import RequestLocale.Json.Writer
import RequestLocale.Text.Utf8

/-! Requests as they come in and responses as they go out. -/
namespace RequestLocale

structure Request where
  method : String
  /-- The path with its percent coding taken off. -/
  path : String
  query : String
  headers : Http.Headers

structure Response where
  status : Int
  headers : Http.Headers
  body : String
  deriving DecidableEq, Repr

namespace Response

/-- The length of a body, which responses of some statuses do not name. -/
def lengthHeader (status : Int) (body : List Char) : Http.Headers :=
  if status < 200 || status == 204 || status == 304 then []
  else [("content-length", toString (Text.Utf8.encode body).length)]

/-- The style of answers: all characters stand as they are, and only what JSON knows is written. -/
def style : JsonStyle := ⟨false, .refused⟩

/-- A response with a JSON body, after some headers of its own. -/
def json (status : Int) (headers : Http.Headers) (content : Value) : Except JsonFault Response :=
  (content.json style).map fun body =>
    ⟨status, headers ++ lengthHeader status body ++ [("content-type", "application/json")],
      String.ofList body⟩

/-- The response to a request that has failed beyond repair. -/
def broken : Response :=
  ⟨500, [("content-length", "21"), ("content-type", "text/plain; charset=utf-8")],
    "Internal Server Error"⟩

/-- The response that sends a client to another address. -/
def moved (address : String) : Response :=
  ⟨307, [("content-length", "0"), ("location", address)], ""⟩

end Response

end RequestLocale
