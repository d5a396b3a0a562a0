import RequestLocale.Middleware
import RequestLocale.Service.Basic
import RequestLocale.Service.Page
import RequestLocale.Service.Response

/-! How the service answers a request. A page is answered through the context of the request; an
error that is reported to clients becomes a page in the language of the client; any other failure
is answered without a word about it and passed on. -/
namespace RequestLocale

namespace Request

def host (r : Request) (server : String) : String := (r.headers.first? "host").getD server

/-- The bytes of the query. -/
def queryBytes (r : Request) : List UInt8 := r.query.toList.map fun c => c.toNat.toUInt8

/-- The query as text, as it stands in an address. -/
def queryText (r : Request) : Except Failure (List Char) :=
  (Text.Utf8.decode r.queryBytes).mapError (.address ∘ .query)

/-- The address of the request from its host up to its query. -/
def addressChars (r : Request) (server : String) : List Char :=
  Http.Address.chars (r.host server ++ r.path).toList

/-- The path as it is read back from the address of the request. -/
def addressPath (r : Request) (server : String) : Except Failure String := do
  let _ ← r.queryText
  ((Http.Address.path? (r.addressChars server)).map String.ofList).mapError .address

/-- The marks that stay as they are in an address. -/
def addressMarks : List Char := ":/%#?=@[]!$&\x27()*+,;".toList

/-- The address of the request with another path. -/
def addressAt (r : Request) (server path : String) : Except Failure String :=
  r.queryText.map fun query =>
    let query := if query.isEmpty then [] else '?' :: query
    let address := "http://".toList ++ (r.host server).toList ++ path.toList ++ query
    String.ofList (Http.Percent.encodeKeeping addressMarks address)

end Request

/-- The answer to a request: what goes out, what is passed on to the server, and what is
reported. -/
structure Reply where
  response : Response
  raised : Option Failure
  events : List Log.Event

namespace Service

abbrev PageStep := Step Context Failure Response

def respond (ctx : Context) (status : Int) (headers : Http.Headers)
    (fields : List (String × Value)) : PageStep :=
  .still ctx ((Response.json status headers
    (.record (fields.map fun (name, v) => (.text name, v)))).mapError .json)

def getLocale (svc : Service) (ctx : Context) : Step Context Failure String :=
  (svc.locales.getLocale ctx).mapError .call

/-- The locale of the request for a handler, which looks for the context in the state of the
request. -/
def handlerLocale (svc : Service) (ctx : Context) : Step Context Failure String :=
  match (Middleware.stateEntries svc.locales {}).get? Middleware.contextKey with
  | some .context => svc.getLocale ctx
  | _ => .still ctx (.error (.call (.missing "locale_state")))

def translate (svc : Service) (ctx : Context) (key : String) (args : List Value) :
    Step Context Failure String :=
  (svc.locales.translate ctx (some key) args).mapError .call

def textEntries (messages : Messages) : List (String × Value) :=
  messages.entries.map fun (key, text) => (key, .text text)

/-- The messages of a locale that has a bundle of its own. -/
def bundlePage (svc : Service) (ctx : Context) (locale : String) : PageStep :=
  if svc.locales.loader.hasLocale locale then
    respond ctx 200 [] (textEntries (svc.locales.loader.get locale))
  else .still ctx (.error (.reported (.localeNotFound locale)))

/-- A message with the parameters `arg` of the query as its arguments. -/
def messagePage (svc : Service) (r : Request) (ctx : Context) (key : String) : PageStep :=
  (svc.handlerLocale ctx).bind fun ctx locale =>
    (svc.translate ctx key ((Http.Query.all r.query "arg").map .text)).bind fun ctx text =>
      respond ctx 200 []
        [("key", .text key), ("locale", .text locale), ("text", .text text)]

def page (svc : Service) (r : Request) (ctx : Context) : Page → PageStep
  | .health =>
    (svc.translate ctx "health_ok" []).bind fun ctx text =>
      respond ctx 200 [] [("status", .text "ok"), ("message", .text text)]
  | .locale =>
    (svc.handlerLocale ctx).bind fun ctx locale =>
      respond ctx 200 []
        [("locale", .text locale), ("available", Log.texts svc.locales.loader.locales)]
  | .bundle locale => svc.bundlePage ctx locale
  | .message key => svc.messagePage r ctx key
  | .failing f => .still ctx (.error f)

/-- The message of an error in the language of the client; a key without a text of its own leaves
the message as it is. -/
def errorMessage (svc : Service) (ctx : Context) (e : ReportedError) :
    Step Context Failure String :=
  match e.messageKey.filter (!·.isEmpty) with
  | none => .still ctx (.ok e.message)
  | some key =>
    (svc.translate ctx key [.record e.params]).map fun text =>
      if text = key then e.message else text

/-- The report of an error that goes to a client. -/
def reportedEvent (e : ReportedError) (message locale path : String) : Log.Event :=
  ⟨.warning, "locales_exception",
    [("error_code", .text e.code), ("message", .text e.message),
     ("translated_message", .text message), ("locale", .text locale),
     ("status_code", .int e.status), ("details", .record e.details), ("path", .text path)]⟩

def languageHeader (locale : String) : Http.Headers :=
  if LanguageTag.isTag locale then [("content-language", locale)] else []

/-- The page that reports an error. There is none if the address of the request, whose path is
reported, cannot be read back. -/
def errorPage (svc : Service) (r : Request) (ctx : Context) (server : String)
    (e : ReportedError) : PageStep :=
  (svc.getLocale ctx).bind fun ctx locale =>
    (svc.errorMessage ctx e).bind fun ctx message =>
      match r.addressPath server with
      | .error f => .still ctx (.error f)
      | .ok path =>
        ⟨ctx, [reportedEvent e message locale path],
          (Response.json e.status (languageHeader locale)
            (.record (e.reportWith message))).mapError .json⟩

/-- Answers with a page; errors that are reported to clients become pages. -/
def pageOrReport (svc : Service) (r : Request) (ctx : Context) (server : String) (p : Page) :
    PageStep :=
  let step := svc.page r ctx p
  match step.result with
  | .error (.reported e) =>
    let report := svc.errorPage r step.state server e
    ⟨report.state, step.events ++ report.events, report.result⟩
  | _ => step

def refusal (ctx : Context) (status : Int) (headers : Http.Headers) (detail : String) : PageStep :=
  respond ctx status headers [("detail", .text detail)]

/-- A path without the slashes at its end. -/
def withoutSlashes (path : String) : String :=
  String.ofList (path.toList.reverse.dropWhile (· == '/')).reverse

/-- Answers a request for which there is no page: with the address of the page that it leads to
without the slashes at its end, if there is one. -/
def unknownPage (svc : Service) (r : Request) (ctx : Context) (server : String) : PageStep :=
  let path := withoutSlashes r.path
  if path ≠ r.path && (Page.ofPath? svc.failing path).isSome then
    .still ctx ((r.addressAt server path).map Response.moved)
  else refusal ctx 404 [] "Not Found"

def route (svc : Service) (r : Request) (ctx : Context) (server : String) : PageStep :=
  match Page.ofPath? svc.failing r.path with
  | some p =>
    if r.method = "GET" then svc.pageOrReport r ctx server p
    else refusal ctx 405 [("allow", "GET")] "Method Not Allowed"
  | none => svc.unknownPage r ctx server

/-- The identifier of a request: its own, or a new one. -/
def identifier (r : Request) (fresh : String) : String :=
  (r.headers.first? "x-request-id").getD fresh

/-- The response as it leaves through the middleware. -/
def sendOut (ctx : Context) (path : String) (response : Response) : List Log.Event × Response :=
  let (_, events, frame) :=
    Middleware.deliver ctx path ⟨"http.response.start", some response.headers, []⟩
  (events, { response with headers := frame.headers.getD [] })

/-- Answers a request. `server` is the name of the server where a request names no host, and
`fresh` the identifier of a request that has none. -/
def answer (svc : Service) (r : Request) (server fresh : String) : Reply :=
  let step := svc.route r (.ofChannel (.http (.ofRequest r.query r.headers))) server
  match step.result with
  | .error f => ⟨.broken, some f, step.events⟩
  | .ok response =>
    let response := { response with
      headers := response.headers ++ [("x-request-id", identifier r fresh)] }
    let (events, response) := sendOut step.state r.path response
    ⟨response, none, step.events ++ events⟩

end Service

end RequestLocale
