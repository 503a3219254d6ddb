import Predictive.Html.Tree
import Predictive.Parsing.Result
import Predictive.Text.Span

/-! The steps of a parse as HTML, one row for each step. -/

set_option autoImplicit false

namespace Predictive

/-- A text cut to a width, where dots take the place of its last three characters. A width below
three counts from the end of the text. -/
def truncate (width : Int) (text : String) : String :=
  if width < text.length then String.ofList (Text.span text.toList 0 (width - 3)) ++ "..."
  else text

theorem truncate_of_length_le {width : Int} {text : String} (fits : text.length ≤ width) :
    truncate width text = text := by
  simp [truncate, Int.not_lt.mpr fits]

def ActionKind.cssClass : ActionKind → String
  | .matched => "matched-step"
  | .epsilon => "epsilon-step"
  | .expand => "expand-step"
  | .errorSkip => "error-skip-step"
  | .accept => "accept-step"
  | .stall => "stall-step"

def ParseStep.rowHtml (options : DisplayOptions) (step : ParseStep) : Html :=
  let cut (classes text : String) : Html :=
    .cell ("grammar-table-cell " ++ classes) (truncate options.maxCellWidth text)
  .block "tr" [("class", step.action.kind.cssClass)]
    [.cell "grammar-table-cell grammar-table-cell-primary step-number" (toString step.number),
      cut "consumed" step.consumedText,
      cut "stack" step.stackText,
      cut "input" step.remainingText,
      .cell "grammar-table-cell action" step.action.text]

/-- The steps under a title, or a note if there are none. -/
def traceHtml (options : DisplayOptions) (title : String) (steps : List ParseStep) : Html :=
  if steps.isEmpty then .note options "No parsing steps recorded"
  else
    .block "div" [("class", options.traceClasses)]
      [.line "h3" [] title,
        .table "trace-table" "Step-by-step parsing trace"
          ["Step", "Consumed", "Stack", "Input", "Action"]
          (steps.map (ParseStep.rowHtml options))]

def traceTitle : String := "Parsing Trace"

end Predictive
