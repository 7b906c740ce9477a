import Reckoner.CommandLine.Program
import Reckoner.Proofs.Missing
import Reckoner.Proofs.Modular
import Reckoner.Proofs.Normalising
import Reckoner.Proofs.Settings
import Reckoner.Proofs.Words

/-!
# A run of the program

What a run ends with is said in terms of the words alone: the expression that its text is read as,
the letters of it that are assigned, and its value in exact arithmetic.  Carrying out assignments
one after another leaves each letter with the last number that it is assigned.

The text that is shown for an expression can take the place of the expression among the words.  It
never begins with a minus sign, so it is not mistaken for an option; and it is read as the same
expression, so the run ends in the same way and shows the same.

**Results.**
* `valuation_eq_last?`: the valuation of the assignments.
* `head?_toText`: the text of an expression does not begin with a minus sign.
* `endsAs_run`: how a run ends.
* `run_toText`: the text of an expression in place of the expression.
* `run_end_to_end`: the two together, for the words of a command line.
-/

namespace Reckoner

section Heads

/-- A number without a sign begins with a digit, and an operator stands after a space. -/
theorem Token.head?_spaced
    {token : Token}
    (h : token.Unsigned) :
    token.spaced.head? ≠ some '-' := by
  cases token with
  | constant n =>
      intro hhead
      have hspaced : (constant n).spaced = Decimal.ofNat n.toInt.natAbs :=
        Decimal.ofInt32_of_nonneg h
      rw [hspaced] at hhead
      have hdigit := Decimal.isDigit_of_mem_ofNat (List.mem_of_head? hhead)
      exact absurd hdigit (by decide)
  | letter v =>
      intro hhead
      have hchar : v.char = '-' := Option.some.inj hhead
      have hlower := v.isLower
      rw [hchar] at hlower
      exact absurd hlower (by decide)
  | operator op =>
      simp [spaced]
  | opening | closing =>
      simp [spaced, chars]

theorem Token.head?_spell
    {tokens : List Token}
    (h : ∀ token ∈ tokens, token.Unsigned) :
    (spell tokens).toList.head? ≠ some '-' := by
  rw [toList_spell]
  cases tokens with
  | nil =>
      simp
  | cons first rest =>
      rw [List.flatMap_cons, List.head?_append_of_ne_nil _ first.spaced_ne_nil]
      exact head?_spaced (List.forall_mem_cons.1 h).1

theorem Expr.head?_toText
    {text : String} {e : Expr}
    (h : ofText (some text) = .ok e) :
    e.toText.toList.head? ≠ some '-' := by
  rw [ofText_eq] at h
  obtain ⟨tokens, htokens, hread⟩ := bind_eq_ok_iff.1 h
  have hunsigned : ∀ token ∈ tokens, token.Unsigned := Token.unsigned_of_ofText htokens
  have hderives := ((ofTokens_eq_ok_iff tokens e).1 hread).1
  exact Token.head?_spell (Grammar.unsigned_toTokens hderives hunsigned)

end Heads

namespace CommandLine

namespace Assignment

/-- The last number that a letter is assigned. -/
def last? (assignments : List Assignment) (v : Letter) : Option Int32 :=
  (assignments.reverse.find? fun a => a.letter = v).map value

/-- Carrying out assignments leaves each letter with the last number that it is assigned. -/
theorem valuation_eq_last? (assignments : List Assignment) :
    valuation assignments = last? assignments := by
  funext v
  rw [valuation, Valuation.ofPairs_eq_last?, Valuation.last?, last?, ← List.map_reverse,
    List.find?_map, Option.map_map]
  rfl

theorem exists_last?_iff
    {assignments : List Assignment} {v : Letter} :
    (∃ n, last? assignments v = some n) ↔ ∃ a ∈ assignments, a.letter = v := by
  simp [last?, ← Option.isSome_iff_exists]

end Assignment

section Definitions

/-- Every letter of the expression is assigned a number. -/
def Arguments.Assigns (arguments : Arguments) (e : Expr) : Prop :=
  ∀ v ∈ e.letters, ∃ a ∈ arguments.assignments, a.letter = v

/-- How a run with these arguments has to end.  If the expression is not read, nothing is shown.
If it is read, what was asked for is shown first, and after it the number that stands for the exact
value, unless some letter is not assigned. -/
structure Arguments.EndsAs (arguments : Arguments) (outcome : Outcome) : Prop where
  unread : ∀ failure,
    Expr.ofText (some arguments.expression) = .error failure →
    outcome.code = 1 ∧ outcome.stdout = ""
  calculated : ∀ e,
    Expr.ofText (some arguments.expression) = .ok e →
    arguments.Assigns e →
    ∃ z n,
      e.exact (Assignment.last? arguments.assignments) = some z ∧
      Represents n z ∧
      outcome.code = 0 ∧
      outcome.stdout =
        (if arguments.showDiagram then e.diagram ++ "\n" else "") ++
          (if arguments.showText then e.toText ++ "\n" else "") ++
          String.ofList (Decimal.ofInt32 n) ++ "\n"
  uncalculated : ∀ e,
    Expr.ofText (some arguments.expression) = .ok e →
    ¬ arguments.Assigns e →
    outcome.code = 1 ∧
    outcome.stdout =
      (if arguments.showDiagram then e.diagram ++ "\n" else "") ++
        (if arguments.showText then e.toText ++ "\n" else "")

end Definitions

section Runs

variable {arguments : Arguments} {e : Expr}

theorem Arguments.assigns_iff_covered :
    arguments.Assigns e ↔ e.Covered (Assignment.last? arguments.assignments) := by
  simp only [Assigns, Expr.Covered, Assignment.exists_last?_iff]

theorem Arguments.run_of_ofText_error
    {failure : Failure}
    (h : Expr.ofText (some arguments.expression) = .error failure) :
    arguments.run =
      ⟨1, "", report "register" arguments.expression failure, arguments.run.log⟩ := by
  have hrefused : (Calculator.readText (some arguments.expression)).outcome = .error failure := by
    rw [← Calculator.ofText, Calculator.ofText_eq, h]
    rfl
  simp only [run, hrefused]

theorem Arguments.outcome_calculate :
    (arguments.calculate ⟨e⟩).outcome =
      e.evaluate (Assignment.last? arguments.assignments) := by
  simp only [calculate, Calculator.valueUnder, Assignment.valuation_eq_last?,
    Logged.outcome_bind, Logged.outcome_note, Logged.outcome_lift, Logged.outcome_pure, ok_bind]
  exact bind_pure _

theorem Arguments.run_of_evaluate_error
    {failure : Failure}
    (h : Expr.ofText (some arguments.expression) = .ok e)
    (hvalue : e.evaluate (Assignment.last? arguments.assignments) = .error failure) :
    arguments.run =
      ⟨1, arguments.shown e, report "calculate" arguments.expression failure,
        arguments.run.log⟩ := by
  have haccepted : (Calculator.readText (some arguments.expression)).outcome = .ok ⟨e⟩ :=
    Calculator.ofText_of_ofText h
  simp only [run, haccepted, outcome_calculate, hvalue]

theorem Arguments.run_of_evaluate
    {n : Int32}
    (h : Expr.ofText (some arguments.expression) = .ok e)
    (hvalue : e.evaluate (Assignment.last? arguments.assignments) = .ok n) :
    arguments.run =
      ⟨0, arguments.shown e ++ String.ofList (Decimal.ofInt32 n) ++ "\n", "",
        arguments.run.log⟩ := by
  have haccepted : (Calculator.readText (some arguments.expression)).outcome = .ok ⟨e⟩ :=
    Calculator.ofText_of_ofText h
  simp only [run, haccepted, outcome_calculate, hvalue]

theorem Arguments.endsAs_run (arguments : Arguments) : arguments.EndsAs arguments.run where
  unread failure h := by
    rw [run_of_ofText_error h]
    exact ⟨rfl, rfl⟩
  calculated e h hassigns := by
    obtain ⟨z, n, hz, hvalue, hrepresents, _⟩ :=
      Expr.exactModulo_evaluate (assigns_iff_covered.1 hassigns)
    rw [run_of_evaluate h hvalue]
    exact ⟨z, n, hz, hrepresents, rfl, rfl⟩
  uncalculated e h hassigns := by
    rw [assigns_iff_covered] at hassigns
    rcases Expr.evaluate_or_missing (Assignment.last? arguments.assignments) e with
      ⟨_, _, hcovered⟩ | ⟨v, hvalue, _⟩
    · exact absurd hcovered hassigns
    · rw [run_of_evaluate_error h hvalue]
      exact ⟨rfl, rfl⟩

/-- With the text of the expression in its place, a run ends in the same way and shows the same;
only its log and what it reports of a failure have other words for the expression. -/
theorem Arguments.run_toText
    (h : Expr.ofText (some arguments.expression) = .ok e) :
    (Arguments.run { arguments with expression := e.toText }).code = arguments.run.code ∧
      (Arguments.run { arguments with expression := e.toText }).stdout = arguments.run.stdout := by
  have htext : Expr.ofText (some e.toText) = .ok e := Expr.ofText_toText h
  cases hvalue : e.evaluate (Assignment.last? arguments.assignments) with
  | error failure =>
      have hother :=
        @run_of_evaluate_error { arguments with expression := e.toText } e failure htext hvalue
      rw [run_of_evaluate_error h hvalue, hother]
      exact ⟨rfl, rfl⟩
  | ok n =>
      have hother := @run_of_evaluate { arguments with expression := e.toText } e n htext hvalue
      rw [run_of_evaluate h hvalue, hother]
      exact ⟨rfl, rfl⟩

theorem run_of_ofWords
    {words : List String}
    (h : Arguments.ofWords words = .ok arguments) :
    run words = arguments.run := by
  rw [run, h]

end Runs

/-- How a run ends, whatever its arguments are.  If the expression is read, its text can stand in its
place: the run then ends with the same code and shows the same.  Among the words of a command line
that is accepted, the expression is one word, and its text is taken for an expression there. -/
theorem run_end_to_end :
    (∀ arguments : Arguments,
      arguments.EndsAs arguments.run
        ∧
      ∀ e,
        Expr.ofText (some arguments.expression) = .ok e →
        (Arguments.run { arguments with expression := e.toText }).code = arguments.run.code ∧
        (Arguments.run { arguments with expression := e.toText }).stdout = arguments.run.stdout)
      ∧
    ∀ words arguments,
      Arguments.ofWords words = .ok arguments →
      arguments.EndsAs (run words)
        ∧
      ∀ e,
        Expr.ofText (some arguments.expression) = .ok e →
        (∀ others,
          Arguments.ofWords others = .ok { arguments with expression := e.toText } →
          (run others).code = (run words).code ∧
          (run others).stdout = (run words).stdout)
          ∧
        ∃ before after,
          words = before ++ arguments.expression :: after ∧
          Arguments.ofWords (before ++ e.toText :: after) =
            .ok { arguments with expression := e.toText } := by
  refine ⟨?_, ?_⟩
  · intro arguments
    exact ⟨arguments.endsAs_run, fun e he => Arguments.run_toText he⟩
  · intro words arguments h
    rw [run_of_ofWords h]
    refine ⟨arguments.endsAs_run, ?_⟩
    intro e he
    constructor
    · intro others hothers
      rw [run_of_ofWords hothers]
      exact Arguments.run_toText he
    · obtain ⟨before, after, hwords, hreplaced⟩ := ofWords_replace_expression h
      exact ⟨before, after, hwords, hreplaced e.toText (Expr.head?_toText he)⟩

/-- The later assignment of the letter counts.  In the other run `b` is not assigned; what was asked
for is shown nevertheless. -/
theorem run_end_to_end_assigned_twice :
    ((run ["--tree", "-s", "a=2", "((a))*3", "--infix", "-s", "a=4"]).code = 0 ∧
      (run ["--tree", "-s", "a=2", "((a))*3", "--infix", "-s", "a=4"]).stdout =
        "expression\n└─ *\n   ├─ a\n   └─ 3\n\na * 3\n12\n" ∧
      (run ["--tree", "-s", "a=2", "a * 3", "--infix", "-s", "a=4"]).code = 0 ∧
      (run ["--tree", "-s", "a=2", "a * 3", "--infix", "-s", "a=4"]).stdout =
        "expression\n└─ *\n   ├─ a\n   └─ 3\n\na * 3\n12\n")
      ∧
    (Arguments.run ⟨"(a)-b", [⟨⟨'a', rfl⟩, 1⟩], false, true, 0⟩).code = 1 ∧
      (Arguments.run ⟨"(a)-b", [⟨⟨'a', rfl⟩, 1⟩], false, true, 0⟩).stdout = "a - b\n" := by
  obtain ⟨hany, hwords⟩ := run_end_to_end
  constructor
  · obtain ⟨arguments, e, haccepted, he, hassigns, hexact, hshown, hothers⟩ :
        ∃ arguments e,
          Arguments.ofWords ["--tree", "-s", "a=2", "((a))*3", "--infix", "-s", "a=4"] =
            .ok arguments ∧
          Expr.ofText (some arguments.expression) = .ok e ∧
          arguments.Assigns e ∧
          e.exact (Assignment.last? arguments.assignments) = some 12 ∧
          arguments.shown e = "expression\n└─ *\n   ├─ a\n   └─ 3\n\na * 3\n" ∧
          Arguments.ofWords ["--tree", "-s", "a=2", "a * 3", "--infix", "-s", "a=4"] =
            .ok { arguments with expression := e.toText } := by
      refine ⟨_, _, rfl, rfl, ?_, rfl, by decide +kernel, rfl⟩
      intro v hv
      obtain rfl := List.mem_singleton.1 hv
      exact ⟨_, List.mem_cons_self, rfl⟩
    obtain ⟨hends, hrepeats⟩ := hwords _ _ haccepted
    obtain ⟨z, n, hz, hrepresents, hcode, hstdout⟩ := hends.calculated e he hassigns
    obtain ⟨hsamecode, hsamestdout⟩ := (hrepeats e he).1 _ hothers
    obtain rfl : z = 12 := Option.some.inj (hz.symm.trans hexact)
    obtain rfl : n = 12 := Int32.toInt_inj.1 (hrepresents.eq_of_fits (by decide) (by decide))
    have hprinted :
        (run ["--tree", "-s", "a=2", "((a))*3", "--infix", "-s", "a=4"]).stdout =
          "expression\n└─ *\n   ├─ a\n   └─ 3\n\na * 3\n12\n" := by
      rw [hstdout]
      exact congrArg (· ++ String.ofList (Decimal.ofInt32 12) ++ "\n") hshown
    exact ⟨hcode, hprinted, hsamecode.trans hcode, hsamestdout.trans hprinted⟩
  · obtain ⟨arguments, e, harguments, he, hassigns, hshown⟩ :
        ∃ arguments e,
          arguments = (⟨"(a)-b", [⟨⟨'a', rfl⟩, 1⟩], false, true, 0⟩ : Arguments) ∧
          Expr.ofText (some arguments.expression) = .ok e ∧
          ¬ arguments.Assigns e ∧
          arguments.shown e = "a - b\n" := by
      refine ⟨_, _, rfl, rfl, ?_, rfl⟩
      intro hassigns
      obtain ⟨a, ha, hletter⟩ := hassigns ⟨'b', rfl⟩ (by decide)
      obtain rfl := List.mem_singleton.1 ha
      exact absurd hletter (by decide)
    rw [← harguments, ← hshown]
    exact (hany arguments).1.uncalculated e he hassigns

end CommandLine
end Reckoner
