import RequestLocale.Message
import RequestLocale.Resolver
import RequestLocale.Resource.Loader

/-! Messages in the locale of a context. An application has one `Locales`: its settings and its
bundles. -/
namespace RequestLocale

structure Locales where
  settings : Settings
  loader : Resource.Loader

namespace Locales

/-- The attachment that stands for the messages of a locale. -/
def attachment (ls : Locales) (locale : String) : Attached :=
  match ls.loader.serving? locale with
  | some name => .bundle name
  | none => .given {}

/-- The attached messages as they are now. -/
def messages (ls : Locales) : Attached → Messages
  | .bundle name => (ls.loader.bundles.get? name).getD {}
  | .given messages => messages

def getLocale (ls : Locales) (ctx : Context) : Step Context CallError String :=
  ctx.resolve ls.settings

/-- Attaches the messages of the context's locale. -/
def attachBundle (ls : Locales) (ctx : Context) : Step Context CallError Unit :=
  (ls.getLocale ctx).bind fun ctx locale =>
    match ctx.attach (some (ls.attachment locale)) with
    | .error e => .still ctx (.error e)
    | .ok after => .still after (.ok ())

/-- The context with messages attached, those of a locale where none are yet. -/
def ensureAttached (ls : Locales) (ctx : Context) (locale : String) : Except CallError Context :=
  match ctx.state.attached with
  | some _ => .ok ctx
  | none => ctx.attach (some (ls.attachment locale))

/-- The event of rendering a message. -/
def rendered (locale : Option String) (messages : Option Messages) (key : String) : Log.Event :=
  ⟨.debug, "message_rendered",
    [("locale", Log.optional locale), ("key", .text key),
     ("text", .text (Message.template messages key))]⟩

/-- The text under a key in the locale of a context; without a key it is empty, and nothing else
happens. -/
def translate (ls : Locales) (ctx : Context) (key : Option String) (args : List Value) :
    Step Context CallError String :=
  match key with
  | none => .still ctx (.ok "")
  | some key =>
    (ls.getLocale ctx).bind fun ctx locale =>
      match ls.ensureAttached ctx locale with
      | .error e => .still ctx (.error e)
      | .ok ctx =>
        let messages := ctx.state.attached.map ls.messages
        ⟨ctx, [rendered (some locale) messages key],
          (Message.render messages key args).mapError .format⟩

end Locales

end RequestLocale
