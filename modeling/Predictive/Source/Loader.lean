import Predictive.Source.Alternative
import Predictive.Text.Uppercase

/-! Grammars from texts. A loader keeps the rules of the last text it read, also when they turned
out to make no grammar. -/

set_option autoImplicit false

namespace Predictive

namespace Source

/-- The rules of a grammar text in declaration order. -/
def rules (options : GrammarOptions) (text : String) : Except GrammarError (List Rule) :=
  match statements (clean text.toList) with
  | .ok statements => .ok (statements.flatMap (statementRules options))
  | .error cause => .error cause

/-- What the options demand of names without rules. -/
def namePolicy (options : GrammarOptions) : NamePolicy :=
  { mustHaveRules := fun name => options.strictNonterminals && Text.startsUppercase name }

end Source

/-- The grammar of a text; it starts with the first left-hand side if no start is given. -/
def Grammar.ofText (options : GrammarOptions) (text : String) (start : Option String) :
    Except GrammarError Grammar :=
  match Source.rules options text with
  | .error cause => .error cause
  | .ok [] => .error .noRules
  | .ok rules => ofRules rules start (Source.namePolicy options)

structure Loader where
  options : GrammarOptions
  rules : List Rule := []
  deriving DecidableEq, Repr

namespace Loader

/-- Reads a grammar. The rules are forgotten first, and kept from the moment they are known. -/
def load (loader : Loader) (text : String) (start : Option String) :
    Except GrammarError Grammar × Loader :=
  (Grammar.ofText loader.options text start,
    { loader with rules := (Source.rules loader.options text).toOption.getD [] })

@[simp] theorem options_load (loader : Loader) (text : String) (start : Option String) :
    (loader.load text start).2.options = loader.options := rfl

end Loader

end Predictive
