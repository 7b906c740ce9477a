import Reckoner.Expr.Reading

/-!
# Calculators

A calculator holds one expression, read from a text, and calculates it for any number of
valuations.  An accepted text is noted with its expression.  A text that is refused as a replacement
leaves the old expression in place.
-/

namespace Reckoner

structure Calculator where
  tree : Expr
deriving DecidableEq

namespace Calculator

def readText (text : Option String) : Logged Calculator := do
  let tree ← Expr.readText text
  Logged.note (.accepted (text.getD ""))
  Logged.note (.tree tree)
  return ⟨tree⟩

def ofText (text : Option String) : Except Failure Calculator :=
  (readText text).outcome

def replace (calculator : Calculator) (text : Option String) :
    Except Failure Unit × Calculator :=
  match ofText text with
  | .ok other => (.ok (), other)
  | .error failure => (.error failure, calculator)

def valueUnder (calculator : Calculator) (values : Valuation) : Except Failure Int32 :=
  calculator.tree.evaluate values

def normalise (calculator : Calculator) : Except Failure Unit × Calculator :=
  calculator.replace (some calculator.tree.toText)

def inspect (calculator : Calculator) : String :=
  "Interpreter \x7b expression_tree: " ++ calculator.tree.toBracketedText ++ " \x7d"

/-- Apart from the records, a calculator is its expression. -/
theorem ofText_eq (text : Option String) : ofText text = Calculator.mk <$> Expr.ofText text := by
  simp only [ofText, readText, Logged.outcome_bind, Logged.outcome_note, Logged.outcome_pure,
    Expr.ofText]
  cases (Expr.readText text).outcome <;> rfl

theorem ofText_of_ofText {text : Option String} {e : Expr} (h : Expr.ofText text = .ok e) :
    ofText text = .ok ⟨e⟩ := by
  rw [ofText_eq, h]
  rfl

theorem replace_of_ofText {text : Option String} {e : Expr} (h : Expr.ofText text = .ok e)
    (calculator : Calculator) : calculator.replace text = (.ok (), ⟨e⟩) := by
  rw [replace, ofText_of_ofText h]

end Calculator

def evaluateText (text : String) (values : Valuation) : Except Failure Int32 := do
  let e ← Expr.ofText (some text)
  e.evaluate values

theorem evaluateText_of_ofText {text : String} {e : Expr} (h : Expr.ofText (some text) = .ok e)
    (values : Valuation) : evaluateText text values = e.evaluate values := by
  rw [evaluateText, h]
  rfl

end Reckoner
