import GridLang.Text.Lines

/-!
# GridLang.Playground.Style

**The style sheet** of the playground.
-/

namespace GridLang.Playground

/-- The style sheet that every page links to. -/
def styleSheet : String :=
  Text.unlines
    ["body \x7b",
      "    font-family: sans-serif;",
      "    margin: 2em;",
      "\x7d",
      "",
      "main \x7b",
      "    display: flex;",
      "    flex-direction: column;",
      "    gap: 1em;",
      "    max-width: 60em;",
      "\x7d",
      "",
      "#code \x7b",
      "    font-family: monospace;",
      "    width: 100%;",
      "\x7d",
      "",
      ".controls \x7b",
      "    display: flex;",
      "    gap: 0.5em;",
      "    align-items: center;",
      "\x7d",
      "",
      ".memory-table \x7b",
      "    border-collapse: collapse;",
      "\x7d",
      "",
      ".memory-table th,",
      ".memory-table td \x7b",
      "    border: 1px solid #ccc;",
      "    padding: 0.2em;",
      "\x7d",
      "",
      ".memory-cell \x7b",
      "    width: 6em;",
      "    font-family: monospace;",
      "\x7d",
      "",
      ".memory-empty \x7b",
      "    color: #888;",
      "    font-style: italic;",
      "\x7d",
      "",
      "#output.success \x7b",
      "    color: green;",
      "\x7d",
      "",
      "#output.error \x7b",
      "    color: red;",
      "    white-space: pre-wrap;",
      "\x7d"]

end GridLang.Playground
