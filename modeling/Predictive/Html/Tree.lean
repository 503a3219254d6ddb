/-! HTML as a tree. Text is escaped where the tree becomes a string; names and attribute values
are written as they are. -/

set_option autoImplicit false

namespace Predictive

/-- How a character is written in text, with its own spelling of the apostrophe. -/
def escapeHtmlChar (apostrophe : String) (c : Char) : List Char :=
  if c = '&' then "&amp;".toList
  else if c = '<' then "&lt;".toList
  else if c = '>' then "&gt;".toList
  else if c = '"' then "&quot;".toList
  else if c = '\'' then apostrophe.toList
  else [c]

def escapeHtmlWith (apostrophe text : String) : String :=
  String.ofList (text.toList.flatMap (escapeHtmlChar apostrophe))

def escapeHtml (text : String) : String :=
  escapeHtmlWith "&#x27;" text

@[simp] theorem escapeHtml_empty : escapeHtml "" = "" := rfl

inductive Html where
  /-- Text, which is escaped. -/
  | text (content : String)
  /-- An element with its children on one line. -/
  | element (tag : String) (attributes : List (String × String)) (children : List Html)
  /-- An element with its tags and each of its children on lines of their own. -/
  | block (tag : String) (attributes : List (String × String)) (children : List Html)
  /-- Ready HTML. -/
  | raw (content : String)
  deriving Repr, Inhabited

namespace Html

def attributeText (entry : String × String) : String :=
  " " ++ entry.1 ++ "=\"" ++ entry.2 ++ "\""

def openTag (tag : String) (attributes : List (String × String)) : String :=
  "<" ++ tag ++ String.join (attributes.map attributeText) ++ ">"

def closeTag (tag : String) : String :=
  "</" ++ tag ++ ">"

mutual
def render : Html → String
  | .text content => escapeHtml content
  | .element tag attributes children =>
    openTag tag attributes ++ String.join (renderAll children) ++ closeTag tag
  | .block tag attributes children =>
    "\n".intercalate (openTag tag attributes :: renderAll children ++ [closeTag tag])
  | .raw content => content

def renderAll : List Html → List String
  | [] => []
  | first :: rest => first.render :: renderAll rest
end

def renderLines (trees : List Html) : String :=
  "\n".intercalate (renderAll trees)

def line (tag : String) (attributes : List (String × String)) (content : String) : Html :=
  .element tag attributes [.text content]

/-- A table with one row of column headings above its rows. -/
def table (classes label : String) (headings : List String) (rows : List Html) : Html :=
  let heading (classes content : String) : Html :=
    line "th" [("class", classes), ("scope", "col")] content
  let cells := match headings with
    | [] => []
    | first :: rest =>
      heading "grammar-table-header grammar-table-header-primary" first ::
        rest.map (heading "grammar-table-header")
  .block "table" [("class", "grammar-table " ++ classes), ("role", "table"), ("aria-label", label)]
    [.block "thead" [] [.block "tr" [] cells], .block "tbody" [] rows]

def rowHeading (content : String) : Html :=
  line "th" [("class", "grammar-table-cell grammar-table-cell-primary"), ("scope", "row")] content

def cell (classes content : String) : Html :=
  line "td" [("class", classes)] content

end Html

structure DisplayOptions where
  tableClasses : String := "parse-table"
  traceClasses : String := "parsing-trace"
  errorClasses : String := "error-message"
  inlineStyles : Bool := true
  /-- Whether cells of the parse table show identities in place of productions. -/
  showIds : Bool := false
  maxCellWidth : Int := 60
  deriving DecidableEq, Repr

/-- A note in place of something that is not there. -/
def Html.note (options : DisplayOptions) (message : String) : Html :=
  .block "div" [("class", options.errorClasses)] [.line "p" [] message]

end Predictive
