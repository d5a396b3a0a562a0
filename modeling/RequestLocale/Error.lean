import RequestLocale.Value.Text

/-! The errors that an application reports to its clients: each has a message, a code, a status, a
record of details, and for some the key under which a message in the language of the client may be
found. -/
namespace RequestLocale

inductive ReportedError where
  /-- An error of the application's own. -/
  | general (message code : String) (status : Int) (details : Entries)
      (messageKey : Option String) (params : Entries)
  | configuration (message : String) (details : Entries)
  | invalidDuration (value : Value)
  | resourceLoad (path reason : String)
  | localeNotFound (locale : String)
  deriving BEq

namespace ReportedError

def message : ReportedError → String
  | .general message .. => message
  | .configuration message _ => message
  | .invalidDuration value => "Invalid duration: " ++ value.toQuoted
  | .resourceLoad path reason => "Failed to load locale resource " ++ path ++ ": " ++ reason
  | .localeNotFound locale => "Locale not found: " ++ locale

def code : ReportedError → String
  | .general _ code .. => code
  | .configuration .. | .invalidDuration _ => "CONFIGURATION_ERROR"
  | .resourceLoad .. => "RESOURCE_LOAD_FAILED"
  | .localeNotFound _ => "LOCALE_NOT_FOUND"

def status : ReportedError → Int
  | .general _ _ status .. => status
  | .localeNotFound _ => 404
  | _ => 500

def details : ReportedError → Entries
  | .general _ _ _ details .. => details
  | .configuration _ details => details
  | .invalidDuration value => [(.text "value", .text value.toQuoted)]
  | .resourceLoad path reason => [(.text "path", .text path), (.text "reason", .text reason)]
  | .localeNotFound locale => [(.text "locale", .text locale)]

def messageKey : ReportedError → Option String
  | .general _ _ _ _ messageKey _ => messageKey
  | .configuration .. | .invalidDuration _ => some "error_configuration"
  | .resourceLoad .. => none
  | .localeNotFound _ => some "error_locale_not_found"

/-- What fills the placeholders of the message in the language of the client. -/
def params : ReportedError → Entries
  | .general _ _ _ _ _ params => params
  | .localeNotFound locale => [(.text "locale", .text locale)]
  | _ => []

/-- Whether a message in the language of the client may exist. -/
def hasMessageKey (e : ReportedError) : Bool := e.messageKey.any (!·.isEmpty)

/-- The report under a given message. -/
def reportWith (e : ReportedError) (message : String) : Entries :=
  [(.text "error_code", .text e.code), (.text "message", .text message),
   (.text "details", .record e.details)] ++
  if e.hasMessageKey then [(.text "message_key", .text (e.messageKey.getD ""))] else []

def report (e : ReportedError) : Entries := e.reportWith e.message

end ReportedError

end RequestLocale
