import GridLang.Playground.Page
import GridLang.Playground.Request
import GridLang.Playground.Style

/-!
# GridLang.Playground.Response

**Answers** of the playground.

After an action the answer is a redirect to the page of the session, whose name is written as it
is. A name with a control character cannot stand in a header, so there is no such answer for it.
The name of a fresh session is not chosen here: the answer says `Location.fresh`, and the outer
layer puts a random name there.
-/

namespace GridLang.Playground

/-- Where an answer sends its reader. -/
inductive Location
  /-- To the page of a session. -/
  | session (name : String)
  /-- To the page of a session that nobody has seen yet. -/
  | fresh
  deriving Repr, DecidableEq

/-- The text of a location, where `freshName` is the name of a fresh session. -/
def Location.text (freshName : String) : Location → String
  | session name => Session.path name
  | fresh => Session.path freshName

/-- An answer: its status, some of its headers, and its body. -/
structure Response where
  /-- The status. -/
  status : Nat
  /-- Where to go instead. -/
  location? : Option Location := none
  /-- The type of the body. -/
  contentType? : Option String := none
  /-- The methods that would be allowed. -/
  allow? : Option String := none
  /-- The body. -/
  body : String := ""
  deriving Repr, DecidableEq

/-- Whether a text can stand in a header: it has no control character but the tab. -/
def fitsHeader (s : String) : Bool :=
  s.toList.all fun c => c = '\t' || 0x20 ≤ c.toNat && c.toNat ≠ 0x7F

namespace Response

/-- The type of a page. -/
def pageType : String := "text/html; charset=utf-8"

/-- The type of a plain message. -/
def plainType : String := "text/plain; charset=utf-8"

/-- There is nothing at this path. -/
def notFound : Response := { status := 404 }

/-- The resource does not allow this method. -/
def methodNotAllowed (r : Resource) : Response :=
  { status := 405, allow? := some (",".intercalate r.methods) }

/-- The name of a session is not UTF-8. -/
def invalidName : Response where
  status := 400
  contentType? := some plainType
  body := "Invalid URL: Invalid UTF-8 in `session`"

/-- The body is not declared as a form. -/
def notAForm : Response where
  status := 415
  contentType? := some plainType
  body := "Form requests must have `Content-Type: " ++ formType ++ "`"

/-- The way to a fresh session. -/
def toFreshSession : Response := { status := 307, location? := some .fresh }

/-- The style sheet. -/
def style : Response := { status := 200, contentType? := some "text/css", body := styleSheet }

/-- The page of a session. -/
def page (s : Session) : Response :=
  { status := 200, contentType? := some pageType, body := s.pageText }

/-- The same answer without its body. -/
def withoutBody (r : Response) : Response := { r with body := "" }

/-- The way back to a session after an action; none if no header can hold its name. -/
def backTo? (name : String) : Option Response :=
  if fitsHeader name then some { status := 303, location? := some (.session name) } else none

end Response

end GridLang.Playground
