import RequestLocale.Table
import RequestLocale.Template.Directive
import RequestLocale.Template.Indexed
import RequestLocale.Template.Named

/-! Rendering a message: its text is looked up by key, the key standing in for a missing text, and
the arguments are put in by the rule that fits their form. A single sequence fills indexed
placeholders, a single record named ones, and everything else directives. -/
namespace RequestLocale

/-- The form of the arguments of a message. -/
inductive CallForm where
  | empty
  | scalar (value : Value)
  | sequence (kind : SequenceKind) (values : List Value)
  | record (entries : Entries)
  | several (values : List Value)

namespace CallForm

def ofArgs : List Value → CallForm
  | [] => .empty
  | [.record entries] => .record entries
  | [.sequence kind values] => .sequence kind values
  | [value] => .scalar value
  | values => .several values

/-- Puts the arguments into a text. -/
def substitute (text : List Char) : CallForm → Except FormatError (List Char)
  | .empty => .ok text
  | .scalar value => Template.Directive.format text [value]
  | .sequence _ values => Template.Indexed.format text values
  | .record entries => Template.Named.format text entries
  | .several values => Template.Directive.format text values

end CallForm

namespace Message

/-- The text under a key, the key itself without one. -/
def template (messages : Option Messages) (key : String) : String :=
  (messages.bind (·.get? key)).getD key

/-- The message under a key with its arguments; an empty text stays empty whatever the
arguments. -/
def render (messages : Option Messages) (key : String) (args : List Value) :
    Except FormatError String :=
  let text := template messages key
  if text.isEmpty then .ok ""
  else ((CallForm.ofArgs args).substitute text.toList).map String.ofList

end Message

end RequestLocale
