import GridLang.Playground.Session

/-!
# GridLang.Playground.Page

**The page of a session**: a form with the editor, the start program and the grid, and what is
said about the last action. The page is a tree; whatever comes from a person stands in it as a
text or as the value of an attribute.
-/

namespace GridLang.Playground.Session

/-- The path of the page of a session. -/
def path (name : String) : String := "/sessions/" ++ name

/-- The head of the page. -/
def head (s : Session) : Html :=
  .element "head" []
    [.element "title" [] [.text ("micro-lang: " ++ s.name)],
      .void "link" [("rel", "stylesheet"), ("href", "/style.css")]]

/-- The start program and the buttons. -/
def controls (s : Session) : Html :=
  .element "div" [("class", "controls")]
    [.element "label" [("for", "start")] [.text "Start program"],
      .void "input" [("type", "text"), ("id", "start"), ("name", "start"), ("value", s.start)],
      .element "button" [("type", "submit")] [.text "Run"],
      .element "button" [("type", "submit"), ("formaction", path s.name ++ "/reset")]
        [.text "Reset memory"]]

/-- The form. -/
def form (s : Session) : Html :=
  .element "form" [("method", "post"), ("action", path s.name ++ "/run")]
    [.element "textarea"
        [("id", "code"), ("name", "code"), ("rows", "24"), ("spellcheck", "false")]
        [.text s.code],
      s.controls,
      .element "div" [("id", "memory-grid")] [s.grid.editor]]

/-- What is said about the last action. -/
def output (s : Session) : List Html :=
  match s.notice? with
  | none => []
  | some (.success message) =>
    [.element "div" [("id", "output"), ("class", "success")] [.text message]]
  | some (.failure message) =>
    [.element "div" [("id", "output"), ("class", "error")] [.text message]]

/-- The page as a tree. -/
def page (s : Session) : Html :=
  .element "html" []
    [s.head,
      .element "body" []
        [.element "main" []
          (.element "h1" [] [.text "micro-lang playground"] :: s.form :: s.output)]]

/-- The page as it is sent. -/
def pageText (s : Session) : String := "<!DOCTYPE html>" ++ s.page.render

end GridLang.Playground.Session
