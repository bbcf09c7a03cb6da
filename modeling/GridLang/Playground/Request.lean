import GridLang.Playground.Session
import GridLang.Text.Cut
import GridLang.Text.Percent
import GridLang.Text.Utf8

/-!
# GridLang.Playground.Request

**Requests** to the playground, and what they are for.

The target of a request is a path, or a whole address with a scheme and a host in front of the
path; these do not count, nor does a query or a fragment behind the path. The path is compared
segment by segment. It leads to a `Resource`: something to read, or an action on a session. The
segment that names a session is percent-encoded UTF-8, so different segments can name the same
session.

A body may be of any length. A bound that a front end sets on the forms it takes in, and answers by
the status 413, is left out here.
-/

namespace GridLang.Playground

/-- A request. -/
structure Request where
  /-- The method. -/
  method : String
  /-- What is asked for: a path or a whole address, which may have a query behind it. -/
  target : String
  /-- The declared type of the body, if it is declared. -/
  contentType? : Option String
  /-- The octets of the body. -/
  body : List UInt8
  deriving Repr, DecidableEq

/-- What can be read. A session is given by its segment of the path, still encoded. -/
inductive View
  /-- The way to a fresh session. -/
  | entrance
  /-- The style sheet. -/
  | style
  /-- The page of a session. -/
  | page (segment : List Char)
  deriving Repr, DecidableEq

/-- What a path leads to. -/
inductive Resource
  /-- Something to read. -/
  | view (v : View)
  /-- An action on the session of a segment. -/
  | action (segment : List Char) (a : Action)
  deriving Repr, DecidableEq

namespace Resource

/-- Whether a character ends a path, and opens a query or a fragment. -/
def endsPath (c : Char) : Bool := c = '?' || c = '#'

/-- What stands behind the host, if some text is a whole address: one with a scheme, which ends
with `://`, in front of the host. The host reaches up to the path. -/
def behindHost? (target : List Char) : Option (List Char) :=
  match Text.cut ':' target with
  | some (_, '/' :: '/' :: rest) => some (rest.dropWhile fun c => c ≠ '/' && !endsPath c)
  | _ => none

/-- The path of a request target. A target that starts with a slash is one, with what stands
behind it; the path of a whole address is a slash at least. -/
def pathOf (target : String) : List Char :=
  match target.toList with
  | '/' :: rest => '/' :: rest.takeWhile (!endsPath ·)
  | other =>
    match behindHost? other with
    | none => other.takeWhile (!endsPath ·)
    | some rest =>
      match rest.takeWhile (!endsPath ·) with
      | [] => ['/']
      | path => path

/-- What a path leads to, by its segments. The page of a session needs a name; for an action the
name may be empty. -/
def ofPath? (path : List Char) : Option Resource :=
  match (path.splitOn '/').map String.ofList with
  | ["", ""] => some (view .entrance)
  | ["", "style.css"] => some (view .style)
  | ["", "sessions", segment] =>
    if segment.isEmpty then none else some (view (.page segment.toList))
  | ["", "sessions", segment, "run"] => some (action segment.toList .run)
  | ["", "sessions", segment, "reset"] => some (action segment.toList .reset)
  | _ => none

/-- The methods that a resource allows. -/
def methods : Resource → List String
  | view _ => ["GET", "HEAD"]
  | action _ _ => ["POST"]

end Resource

/-- The name of a session, from its segment of a path; none if it is not UTF-8. -/
def sessionName? (segment : List Char) : Option String :=
  Utf8.decode? (Percent.decode (Utf8.encode segment))

/-- The type that a form has to be declared as. -/
def formType : String := "application/x-www-form-urlencoded"

/-- Whether a body is declared as a form. Parameters may follow the type. -/
def isForm (contentType? : Option String) : Bool :=
  match contentType? with
  | none => false
  | some type =>
    type.toList.all (fun c => c = '\t' || 0x20 ≤ c.toNat && c.toNat < 0x7F) &&
      formType.toList.isPrefixOf type.toList

end GridLang.Playground
