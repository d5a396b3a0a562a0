import RequestLocale.AcceptLanguage
import RequestLocale.Http.Cookie
import RequestLocale.Http.Query
import RequestLocale.Table

/-! One exchange with a client: the request as it came, the cookies that wait for the response, and
whether the response has started. There is one header for each name (`length_cookieHeaders`), and
none waits after a start (`cookieHeaders_start`). -/
namespace RequestLocale

structure Exchange where
  query : String
  headers : Http.Headers
  /-- The header texts of waiting cookies by name. -/
  pending : Table String
  started : Bool

namespace Exchange

open Http

def ofRequest (query : String) (headers : Headers) : Exchange := ⟨query, headers, {}, false⟩

def parameter? (e : Exchange) (name : String) : Option String := Query.last? e.query name

def cookie? (e : Exchange) (name : String) : Option String := Cookie.value? e.headers name

/-- The languages that the client asks for, the first header counting. -/
def languages (e : Exchange) : List String :=
  ((e.headers.first? "accept-language").map AcceptLanguage.ranked).getD []

/-- Lets a cookie wait for the response. -/
def setCookie (e : Exchange) (w : Cookie.Write) : Except Cookie.WriteError Exchange :=
  w.text?.map fun text => { e with pending := e.pending.insert w.name text }

def cookieHeaders (e : Exchange) : Headers := e.pending.values.map ("set-cookie", ·)

/-- The state after the waiting cookies have left. -/
def start (e : Exchange) : Exchange := { e with pending := {}, started := true }

theorem length_cookieHeaders (e : Exchange) :
    e.cookieHeaders.length = e.pending.keys.length := by
  simp [cookieHeaders, Table.values, Table.keys]

@[simp] theorem cookieHeaders_start (e : Exchange) : e.start.cookieHeaders = [] := rfl

theorem pending_setCookie {e after : Exchange} {w : Cookie.Write}
    (h : e.setCookie w = .ok after) : after.pending = e.pending.insert w.name w.text := by
  unfold setCookie Cookie.Write.text? at h
  cases hc : w.check with
  | error refusal => rw [hc] at h; cases h
  | ok _ => rw [hc] at h; cases h; rfl

end Exchange

end RequestLocale
