import RequestLocale.AcceptLanguage
import RequestLocale.Ambient
import RequestLocale.Code
import RequestLocale.Context.Basic
import RequestLocale.Context.Exchange
import RequestLocale.Context.State
import RequestLocale.Duration
import RequestLocale.Error
import RequestLocale.Flatten
import RequestLocale.Http.Address
import RequestLocale.Http.Cookie
import RequestLocale.Http.Header
import RequestLocale.Http.Percent
import RequestLocale.Http.Query
import RequestLocale.Json.Letter
import RequestLocale.Json.Reader
import RequestLocale.Json.Writer
import RequestLocale.LanguageTag
import RequestLocale.Locales
import RequestLocale.Log
import RequestLocale.Logging
import RequestLocale.Message
import RequestLocale.Middleware
import RequestLocale.Number.Binary64
import RequestLocale.Number.Decimal
import RequestLocale.Number.FloatText
import RequestLocale.Number.Numeral
import RequestLocale.Number.Shortest
import RequestLocale.Number.Units
import RequestLocale.Proofs.Accepted
import RequestLocale.Proofs.AskedLanguage
import RequestLocale.Proofs.BoundTranslator
import RequestLocale.Proofs.BundleNames
import RequestLocale.Proofs.BundlePage
import RequestLocale.Proofs.CookieName
import RequestLocale.Proofs.CookieReturn
import RequestLocale.Proofs.CurrentLocale
import RequestLocale.Proofs.DealtArguments
import RequestLocale.Proofs.Deed
import RequestLocale.Proofs.Delivery
import RequestLocale.Proofs.Digits
import RequestLocale.Proofs.DirectoryText
import RequestLocale.Proofs.Division
import RequestLocale.Proofs.DurationReport
import RequestLocale.Proofs.DurationText
import RequestLocale.Proofs.EmptyPair
import RequestLocale.Proofs.FailedLoad
import RequestLocale.Proofs.FieldValues
import RequestLocale.Proofs.Filling
import RequestLocale.Proofs.FlatMessages
import RequestLocale.Proofs.FloatRange
import RequestLocale.Proofs.HeaderSafety
import RequestLocale.Proofs.HexNumber
import RequestLocale.Proofs.IndexedPlaceholders
import RequestLocale.Proofs.JsonReading
import RequestLocale.Proofs.JsonValues
import RequestLocale.Proofs.LastWrite
import RequestLocale.Proofs.LocaleCookie
import RequestLocale.Proofs.LowerCase
import RequestLocale.Proofs.NamedPlaceholders
import RequestLocale.Proofs.Nesting
import RequestLocale.Proofs.NextRequest
import RequestLocale.Proofs.OneBundle
import RequestLocale.Proofs.OneLocale
import RequestLocale.Proofs.PageReply
import RequestLocale.Proofs.Parts
import RequestLocale.Proofs.PercentCoding
import RequestLocale.Proofs.Precedence
import RequestLocale.Proofs.RankedLanguages
import RequestLocale.Proofs.Rebuilding
import RequestLocale.Proofs.RefusedCookie
import RequestLocale.Proofs.Rendering
import RequestLocale.Proofs.Representable
import RequestLocale.Proofs.Resolution
import RequestLocale.Proofs.Resolving
import RequestLocale.Proofs.ResourceListing
import RequestLocale.Proofs.Results
import RequestLocale.Proofs.StateEntries
import RequestLocale.Proofs.TableHistory
import RequestLocale.Proofs.TagParts
import RequestLocale.Proofs.Wildcards
import RequestLocale.Resolver
import RequestLocale.Resource.FileSystem
import RequestLocale.Resource.Loader
import RequestLocale.Resource.Path
import RequestLocale.Resource.Reader
import RequestLocale.Service.Answer
import RequestLocale.Service.Basic
import RequestLocale.Service.Page
import RequestLocale.Service.Response
import RequestLocale.Service.Shipped
import RequestLocale.Session
import RequestLocale.Settings.Basic
import RequestLocale.Settings.Check
import RequestLocale.Settings.Source
import RequestLocale.Table
import RequestLocale.Template.Directive
import RequestLocale.Template.Error
import RequestLocale.Template.Indexed
import RequestLocale.Template.Named
import RequestLocale.Template.Piece
import RequestLocale.Text.Blank
import RequestLocale.Text.DecimalDigit
import RequestLocale.Text.Hex
import RequestLocale.Text.LetterCase
import RequestLocale.Text.LowerCase
import RequestLocale.Text.Order
import RequestLocale.Text.Printable
import RequestLocale.Text.Quoted
import RequestLocale.Text.Split
import RequestLocale.Text.Utf8
import RequestLocale.Value.Basic
import RequestLocale.Value.Calendar
import RequestLocale.Value.Text
import RequestLocale.Yaml.Base64
import RequestLocale.Yaml.Content
import RequestLocale.Yaml.Cursor
import RequestLocale.Yaml.Document
import RequestLocale.Yaml.Error
import RequestLocale.Yaml.Lexer
import RequestLocale.Yaml.Mark
import RequestLocale.Yaml.Node
import RequestLocale.Yaml.Scalar
import RequestLocale.Yaml.Token
