import Std.Data.ExtTreeMap
import GridLang.Playground.Form
import GridLang.Playground.Response

/-!
# GridLang.Playground.Server

**The server of the playground**: the sessions, and how requests are answered.

A resource is either something to read (`GET`, or `HEAD` for the same answer without its body) or
an action (`POST`). Of several things that are wrong with a request, the first of this list is
reported: the path, the method, a session name that is not UTF-8, a form that is not declared as
one.

Design points:

* The server keeps a session for each name whose page was read or that was acted on, whichever came
  first; every other name stands for a new session.
* `Server.handle` has no answer (`none`) for an action on a session whose name cannot stand in a
  header, though the action has taken place.
* No form is too long for `Server.handle`. A front end that bounds the length of a body (to 2 MiB,
  where nothing else is set) answers a longer form by the status 413, if nothing of the above is
  wrong with the request, and the action does not take place. That answer is left out here.
-/

namespace GridLang.Playground

/-- The server: the bounds of every run, and the sessions that were opened. -/
structure Server where
  /-- The bounds of every run. -/
  limits : Limits
  /-- The sessions, by name. -/
  sessions : Std.ExtTreeMap String Session

namespace Server

/-- A server without sessions. -/
def new (limits : Limits) : Server := ⟨limits, ∅⟩

/-- The session of a name: a new one if it was never opened. -/
def session (server : Server) (name : String) : Session :=
  server.sessions[name]?.getD (.new name)

/-- Opens the session of a name, if it is not open yet. -/
def visit (server : Server) (name : String) : Server :=
  { server with sessions := server.sessions.insertIfNew name (.new name) }

/-- Does an action to the session of a name. -/
def act (server : Server) (name : String) (action : Action) (fields : Fields) : Server :=
  { server with
    sessions :=
      server.sessions.insert name ((server.session name).act server.limits action fields) }

/-- Reads a view. -/
def read (server : Server) : View → Response × Server
  | .entrance => (.toFreshSession, server)
  | .style => (.style, server)
  | .page segment =>
    match sessionName? segment with
    | none => (.invalidName, server)
    | some name => (.page (server.session name), server.visit name)

/-- Takes a submitted body, and acts on the session of a segment. -/
def submit (server : Server) (segment : List Char) (action : Action)
    (contentType? : Option String) (body : List UInt8) : Option Response × Server :=
  match sessionName? segment with
  | none => (some .invalidName, server)
  | some name =>
    if isForm contentType? then
      -- The action takes place even if its answer cannot be written.
      (Response.backTo? name, server.act name action (Form.decode body))
    else (some .notAForm, server)

/-- Answers a request, and gives the server after it. -/
def handle (server : Server) (request : Request) : Option Response × Server :=
  match Resource.ofPath? (Resource.pathOf request.target) with
  | none => (some .notFound, server)
  | some resource =>
    if request.method ∈ resource.methods then
      match resource with
      | .action segment action =>
        server.submit segment action request.contentType? request.body
      | .view v =>
        let (response, server) := server.read v
        (some (if request.method = "HEAD" then response.withoutBody else response), server)
    else (some (.methodNotAllowed resource), server)

/-- Answers requests in turn. -/
def handleAll (server : Server) : List Request → List (Option Response) × Server
  | [] => ([], server)
  | request :: requests =>
    let (response?, server) := server.handle request
    let (responses, server) := server.handleAll requests
    (response? :: responses, server)

/-! ## What requests do to the sessions -/

@[simp] theorem session_new (limits : Limits) (name : String) :
    (new limits).session name = .new name := by simp [new, session]

@[simp] theorem limits_visit (server : Server) (name : String) :
    (server.visit name).limits = server.limits := rfl

/-- To open a session changes none. -/
@[simp] theorem session_visit (server : Server) (name other : String) :
    (server.visit name).session other = server.session other := by
  simp only [session, visit, Std.ExtTreeMap.getElem?_insertIfNew, Std.compare_eq_iff_eq]
  split
  next h =>
    obtain ⟨rfl, absent⟩ := h
    rw [Std.ExtTreeMap.getElem?_eq_none absent]
    rfl
  · rfl

@[simp] theorem limits_act (server : Server) (name : String) (action : Action) (fields : Fields) :
    (server.act name action fields).limits = server.limits := rfl

/-- An action changes the session of its name and no other. -/
theorem session_act (server : Server) (name other : String) (action : Action) (fields : Fields) :
    (server.act name action fields).session other =
      if name = other then (server.session name).act server.limits action fields
      else server.session other := by
  simp only [session, act, Std.ExtTreeMap.getElem?_insert, Std.compare_eq_iff_eq]
  split <;> rfl

@[simp] theorem handleAll_nil (server : Server) : server.handleAll [] = ([], server) := rfl

@[simp] theorem handleAll_cons (server : Server) (request : Request) (requests : List Request) :
    server.handleAll (request :: requests) =
      ((server.handle request).1 :: ((server.handle request).2.handleAll requests).1,
        ((server.handle request).2.handleAll requests).2) := rfl

end Server

end GridLang.Playground
