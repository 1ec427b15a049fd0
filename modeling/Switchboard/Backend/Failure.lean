import Switchboard.Http.Message
import Switchboard.Json.Parser
import Switchboard.Json.Printer

/-!
# Failure replies

A backend that fails says why in a JSON body, in the form of its family. The error keeps
what it says, and otherwise what is known from the status. An exhausted quota group
counts as too many requests, whatever the status says. Errors of providers may be marked
as theirs; the mark changes nothing but the message.
-/

namespace Switchboard

/-- How a family of backends writes its errors. -/
inductive ErrorForm where
  | chat
  | messages
  | gemini
  deriving DecidableEq, Repr

/-- What a failure reply says. -/
structure ErrorReport where
  message : String
  kind : Option String
  code : Option String
  deriving DecidableEq, Repr

/-- A text or a number, as text. -/
def scalarText? : Json → Option String
  | .string s => some s
  | .number n => some (Json.number n).render
  | _ => none

namespace ErrorForm

/-- The kind of an error, which Gemini calls its status. -/
def kind? (f : ErrorForm) (error : Json) : Option String :=
  match f with
  | chat | messages => (error.get? "type").bind Json.string?
  | gemini => (error.get? "status").bind Json.string?

/-- The code of an error. In the Messages protocol the kind is the code. -/
def code? (f : ErrorForm) (error : Json) : Option String :=
  match f with
  | chat | gemini => (error.get? "code").bind scalarText?
  | messages => messages.kind? error

/-- Read the body of a failure reply. -/
def report? (f : ErrorForm) (body : Json) : Option ErrorReport := do
  let error ← body.get? "error"
  let message ← (← error.get? "message").string?
  return ⟨message, f.kind? error, f.code? error⟩

/-- Read the bytes of a failure reply. -/
def read? (f : ErrorForm) (bytes : List UInt8) : Option ErrorReport :=
  ((Text.Utf8.text? bytes).bind Json.parseSorted?).bind f.report?

end ErrorForm

/-- What messages about an exhausted quota group start with. -/
def quotaGroupMark : String := "当前分组"

/-- What marks the errors of providers. -/
def providerMark : String := "Provider API error: "

namespace ProviderError

/-- The message with the mark, if there is to be one. -/
def mark (marked : Bool) (e : ProviderError) : ProviderError :=
  if marked then { e with message := providerMark ++ e.message } else e

/-- The error that a report stands for. -/
def ofReport (status : Nat) (r : ErrorReport) : ProviderError where
  status := if (Text.dropStart? quotaGroupMark r.message).isSome then 429 else status
  message := r.message
  kind := r.kind.getD "upstream_error"
  code := r.code
  param := none

/-- The error that a reply without a report stands for. -/
def ofBareReply (r : Http.Reply) : ProviderError :=
  let message := Text.Utf8.tolerant r.body.bytesIfComplete
  if r.isJson && !message.isEmpty then { ofStatus r.status with message := message }
  else ofStatus r.status

/-- The error that a failure reply stands for, if `read?` reads the bytes of such replies. -/
def ofReplyWith (read? : List UInt8 → Option ErrorReport) (marked : Bool) (r : Http.Reply) :
    ProviderError :=
  let report := (read? r.body.bytesIfComplete).filter fun p => !p.message.isEmpty
  (match report with
    | some p => ofReport r.status p
    | none => ofBareReply r).mark marked

/-- The error that a failure reply stands for. -/
def ofReply (form : ErrorForm) (marked : Bool) (r : Http.Reply) : ProviderError :=
  ofReplyWith form.read? marked r

end ProviderError

end Switchboard
