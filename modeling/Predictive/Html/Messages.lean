import Predictive.Html.Tree
import Predictive.Parsing.Result
import Predictive.Table.Basic
import Predictive.Text.Span

/-! Errors, conflicts and verdicts as HTML. -/

set_option autoImplicit false

namespace Predictive

def messageStyles : String :=
  "\n".intercalate
    ["",
     "<style>",
     ".error-message \x7b",
     "    color: #cc0000;",
     "    background-color: #ffeeee;",
     "    border: 1px solid #cc0000;",
     "    border-radius: 4px;",
     "    padding: 10px;",
     "    margin: 10px 0;",
     "    font-family: Arial, sans-serif;",
     "\x7d",
     "",
     ".error-text \x7b",
     "    font-weight: bold;",
     "    margin: 5px 0;",
     "\x7d",
     "",
     ".conflict-report \x7b",
     "    background-color: #fff8e1;",
     "    border: 1px solid #ff9800;",
     "    border-radius: 4px;",
     "    padding: 10px;",
     "    margin: 10px 0;",
     "\x7d",
     "",
     ".conflict-item \x7b",
     "    margin: 10px 0;",
     "    padding: 8px;",
     "    background-color: #ffffff;",
     "    border-left: 3px solid #ff9800;",
     "\x7d",
     "",
     ".error-position \x7b",
     "    background-color: #ffcccc;",
     "    font-weight: bold;",
     "\x7d",
     "</style>",
     ""]

def styled (options : DisplayOptions) (message : Html) : List Html :=
  if options.inlineStyles then [.raw messageStyles, message] else [message]

/-- The tokens around a position of the input, with dots where more are left out. Behind the last
token stands the end of input. -/
def contextHtml (tokens : List String) (position context : Int) : Html :=
  let count : Int := tokens.length
  let first : Int := max 0 (position - context)
  let last : Int := min count (position + context + 1)
  let joined (start stop : Int) : Html := .text (" ".intercalate (Text.span tokens start stop))
  let dots (wanted : Bool) : List Html := if wanted then [.text "..."] else []
  let token := tokens[position.toNat]?.getD Symbol.endOfInput.name
  .block "div" [("class", "error-context")]
    [.element "p" [] [.line "strong" [] "Context:"],
      .block "pre" [("class", "context-display")] <|
        dots (0 < first) ++
        [joined first position,
          .line "span" [("class", "error-position")] token,
          joined (position + 1) last] ++
        dots (last < count),
      .line "p" [("class", "position-info")] ("Error at token " ++ toString position)]

/-- How many tokens on either side of an error are shown, unless another number is wanted. -/
def contextLength : Int := 5

/-- An error message, with its context if the position and the tokens are known. -/
def errorHtml (options : DisplayOptions) (message : String) (position : Int)
    (tokens : List String) (context : Int) : List Html :=
  styled options <|
    .block "div" [("class", options.errorClasses)] <|
      [.line "h4" [] "Parse Error", .line "p" [("class", "error-text")] message] ++
      if 0 ≤ position && !tokens.isEmpty then [contextHtml tokens position context] else []

def labelled (label text : String) : Html :=
  .element "p" [] [.line "strong" [] label, .text (" " ++ text)]

def Conflict.html (conflict : Conflict) (number : Nat) : Html :=
  .block "div" [("class", "conflict-item")] <|
    [.line "h5" [] ("Conflict " ++ toString number ++ ": M[" ++ conflict.nonterminal.name ++ ", " ++
        conflict.lookahead.name ++ "]"),
      labelled "Kept:" ("production " ++ toString conflict.keptId),
      labelled "Rejected:" ("production " ++ toString conflict.rejectedId)] ++
    if conflict.description.isEmpty then [] else [labelled "Description:" conflict.description]

def conflictsHtml (options : DisplayOptions) (conflicts : List Conflict) : List Html :=
  if conflicts.isEmpty then
    [.line "div" [("class", "no-conflicts")] "No conflicts detected: the grammar is LL(1)."]
  else
    styled options <|
      .block "div" [("class", "conflict-report")] <|
        .line "h4" [] ("Grammar Conflicts (" ++ toString conflicts.length ++ " found)") ::
          (conflicts.zipIdx 1).map fun (conflict, number) => conflict.html number

def Verdict.cssClass : Verdict → String
  | .accept => "verdict verdict-accept"
  | .reject => "verdict verdict-reject"
  | .rejectWithRecovery => "verdict verdict-reject-with-recovery"

def ParseIssue.html (issue : ParseIssue) : Html :=
  .line "li" [] ("Step " ++ toString issue.stepNumber ++ ": " ++ issue.message)

/-- The verdict with the errors that were skipped listed below it. -/
def ParseResult.verdictHtml (result : ParseResult) : Html :=
  .block "div" [("class", result.verdict.cssClass)] <|
    .element "p" [] [.line "strong" [] result.text] ::
      if result.issues.isEmpty then []
      else [.block "ul" [("class", "parse-issues")] (result.issues.map ParseIssue.html)]

end Predictive
