import Reckoner.CommandLine.Arguments
import Reckoner.Proofs.Outcome

/-!
# The word that is the expression

One word of an accepted command line is the expression.  What it says plays no part in the reading
of the words: options and assignments are read without a look at it, and all that matters later on
is that there is one.  So the word can be replaced by any other that is taken for an expression in
its place, and the arguments are the same but for the expression.  A word that does not begin with
a minus sign is always taken so.

**Results.**
* `blind_settle`, `blind_call`, `blind_long`, `blind_short`: options are read without a look at
  the expression.
* `uniform_word` and `uniform_words`: once there is an expression, it does not matter what it says.
* `finish_eq_ok_iff`: what has to hold at the end of the words.
* `word_cases`: a word that is read while there is no expression.
* `ofWords_replace_expression`: another expression among the same words.
-/

namespace Reckoner
namespace CommandLine
namespace Scan

section Definitions

/-- The same scan with another expression, or with none. -/
def withExpression (scan : Scan) (expression : Option String) : Scan :=
  { scan with expression }

/-- A stage of the scan that neither looks at the expression nor changes it. -/
def Blind (f : Scan → Except Ending Scan) : Prop :=
  ∀ (scan : Scan) expression,
    f (scan.withExpression expression) = (·.withExpression expression) <$> f scan

/-- A stage of the scan to which it only matters that there is an expression. -/
def Uniform (f : Scan → Except Ending Scan) : Prop :=
  ∀ (scan : Scan) old new,
    scan.expression = some old →
    f (scan.withExpression (some new)) = (·.withExpression (some new)) <$> f scan

/-- The word has become the expression, and any other word that is no option would have become
it in its place. -/
def BecomesExpression (scan : Scan) (word : String) (next : Scan) : Prop :=
  ∃ settled : Scan,
    next = settled.withExpression (some word) ∧
    ∀ other : String,
      other.toList.head? ≠ some '-' →
      scan.word other = .ok (settled.withExpression (some other))

end Definitions

section Blindness

variable {f g : Scan → Except Ending Scan}

theorem Blind.bind
    (hf : Blind f)
    (hg : Blind g) :
    Blind fun scan => f scan >>= g := by
  intro scan expression
  simp only [hf scan expression]
  cases f scan with
  | error ending =>
      rfl
  | ok next =>
      exact hg next expression

/-- What is not looked at is kept. -/
theorem Blind.expression_eq
    (hf : Blind f)
    {scan next : Scan}
    (h : f scan = .ok next) :
    next.expression = scan.expression := by
  have hself : f (scan.withExpression scan.expression) = .ok next := h
  rw [hf scan scan.expression, map_eq_ok_iff] at hself
  obtain ⟨_, _, rfl⟩ := hself
  rfl

theorem blind_assign
    (text : String) :
    Blind (·.assign text) := by
  intro scan expression
  simp only [assign]
  cases Assignment.ofText text <;> rfl

theorem blind_settle : Blind settle := by
  intro scan expression
  obtain ⟨_, _, _, pending, _⟩ := scan
  cases pending with
  | settled | awaiting =>
      rfl
  | given text =>
      exact blind_assign text _ expression

theorem blind_call
    (c : Call) :
    Blind (·.call c) := by
  refine blind_settle.bind fun scan expression => ?_
  cases c <;> rfl

/-- A value that is attached to its option. -/
theorem blind_attached
    (text : String) :
    Blind fun scan => scan.settle >>= (·.assign text) :=
  blind_settle.bind (blind_assign text)

theorem blind_long
    (body : List Char) :
    Blind (·.long body) := by
  unfold long
  intro scan expression
  dsimp only
  split
  · rfl
  · exact blind_call _ scan expression
  · exact blind_attached _ scan expression
  · rfl

theorem blind_short
    (flags : List Char) :
    Blind (·.short flags) := by
  induction flags with
  | nil =>
      intro scan expression
      rfl
  | cons c rest ih =>
      intro scan expression
      unfold short
      dsimp only
      split
      · rfl
      · exact blind_call _ scan expression
      · exact blind_attached _ scan expression
      · exact blind_attached _ scan expression
      · exact (blind_call _).bind ih scan expression

end Blindness

section Uniformity

variable {f : Scan → Except Ending Scan}

theorem Uniform.replaced
    (hf : Uniform f)
    {scan next : Scan} {old : String}
    (hold : scan.expression = some old)
    (h : f scan = .ok next)
    (new : String) :
    f (scan.withExpression (some new)) = .ok (next.withExpression (some new)) := by
  rw [hf scan old new hold, h, Except.map_ok]

/-- The expression is kept. -/
theorem Uniform.expression_eq
    (hf : Uniform f)
    {scan next : Scan} {old : String}
    (hold : scan.expression = some old)
    (h : f scan = .ok next) :
    next.expression = some old := by
  have hself : f (scan.withExpression (some old)) = .ok next := by
    rw [← hold]
    exact h
  have hnext := Except.ok.inj (hself.symm.trans (hf.replaced hold h old))
  rw [hnext]
  rfl

theorem uniform_plain
    (word : String) :
    Uniform (·.plain word) := by
  intro scan old new hold
  unfold plain
  dsimp only [withExpression]
  rw [hold]
  split <;> rfl

theorem uniform_word
    (word : String) :
    Uniform (·.word word) := by
  intro scan old new hold
  have hended : (scan.withExpression (some new)).optionsEnded = scan.optionsEnded := rfl
  unfold Scan.word
  dsimp only
  rw [hended]
  cases scan.optionsEnded with
  | true =>
      exact uniform_plain word scan old new hold
  | false =>
      rw [if_neg (by simp), if_neg (by simp)]
      split
      · rfl
      · exact blind_long _ scan (some new)
      · exact blind_short _ scan (some new)
      · exact uniform_plain word scan old new hold

theorem uniform_words
    (words : List String) :
    Uniform fun scan => words.foldlM Scan.word scan := by
  induction words with
  | nil =>
      intro scan old new hold
      rfl
  | cons word rest ih =>
      intro scan old new hold
      simp only [List.foldlM_cons, uniform_word word scan old new hold]
      cases hword : scan.word word with
      | error ending =>
          rfl
      | ok next =>
          exact ih next old new ((uniform_word word).expression_eq hold hword)

/-- What has to hold at the end of the words for them to be accepted. -/
theorem finish_eq_ok_iff
    {scan : Scan} {arguments : Arguments} :
    scan.finish = .ok arguments
      ↔
    ∃ (last : Scan) (expression : String),
      scan.settle = .ok last ∧
      ¬ (scan.pending = .awaiting ∧ last.assignments.isEmpty) ∧
      last.conflict? = none ∧
      last.expression = some expression ∧
      last.mentions.findSome? last.objection? = none ∧
      arguments =
        ⟨expression, last.assignments, decide (.switch .diagram ∈ last.mentions),
          decide (.switch .text ∈ last.mentions), last.verbosity⟩ := by
  unfold finish
  cases hsettle : scan.settle with
  | error ending =>
      simp
  | ok last =>
      simp only [ok_bind, Except.ok.injEq, exists_and_left, exists_eq_left']
      by_cases hwaiting : scan.pending = .awaiting ∧ last.assignments.isEmpty
      · simp [hwaiting, throw, throwThe, MonadExceptOf.throw]
      · rw [if_neg hwaiting]
        cases hconflict : last.conflict? with
        | some fault =>
            simp [throw, throwThe, MonadExceptOf.throw]
        | none =>
            cases hexpression : last.expression with
            | none =>
                simp [throw, throwThe, MonadExceptOf.throw]
            | some expression =>
                cases hobjection : last.mentions.findSome? last.objection? with
                | some fault =>
                    simp [throw, throwThe, MonadExceptOf.throw]
                | none =>
                    simp only [hwaiting, not_false_eq_true, true_and, Option.some.injEq,
                      exists_eq_left', pure, Except.pure, Except.ok.injEq]
                    exact eq_comm

/-- The end of the words passes the expression on and does nothing else with it. -/
theorem finish_withExpression
    {scan : Scan} {arguments : Arguments}
    (new : String)
    (h : scan.finish = .ok arguments) :
    (scan.withExpression (some new)).finish = .ok { arguments with expression := new } := by
  obtain ⟨last, expression, hsettle, hwaiting, hconflict, hexpression, hobjection, rfl⟩ :=
    finish_eq_ok_iff.1 h
  refine finish_eq_ok_iff.2
    ⟨last.withExpression (some new), new, ?_, hwaiting, hconflict, rfl, hobjection, rfl⟩
  rw [blind_settle scan (some new), hsettle, Except.map_ok]

end Uniformity

section Expression

/-- A word that does not begin with a minus sign is no option. -/
theorem word_of_head
    (scan : Scan)
    {word : String}
    (h : word.toList.head? ≠ some '-') :
    scan.word word = scan.plain word := by
  unfold Scan.word
  split
  · rfl
  · split
    next hlist =>
      simp [hlist] at h
    next hlist =>
      simp [hlist] at h
    next hlist =>
      simp [hlist] at h
    next =>
      rfl

/-- A plain word that is read while there is no expression is the value of an assignment, or
else it becomes the expression. -/
theorem plain_cases
    {scan next : Scan} {word : String}
    (hnone : scan.expression = none)
    (h : scan.plain word = .ok next) :
    next.expression = none ∨ scan.BecomesExpression word next := by
  unfold plain at h
  by_cases hvalue : scan.pending = .awaiting ∧ scan.optionsEnded = false
  · rw [if_pos hvalue] at h
    cases h
    exact .inl hnone
  · simp only [if_neg hvalue, hnone] at h
    obtain ⟨settled, hsettled, h⟩ := bind_eq_ok_iff.1 h
    cases h
    refine .inr ⟨settled, rfl, ?_⟩
    intro other hother
    simp only [word_of_head scan hother, plain, if_neg hvalue, hnone, hsettled]
    rfl

theorem word_cases
    {scan next : Scan} {word : String}
    (hnone : scan.expression = none)
    (h : scan.word word = .ok next) :
    next.expression = none ∨ scan.BecomesExpression word next := by
  unfold Scan.word at h
  split at h
  · exact plain_cases hnone h
  · split at h
    · cases h
      exact .inl hnone
    · exact .inl ((blind_long _).expression_eq h ▸ hnone)
    · exact .inl ((blind_short _).expression_eq h ▸ hnone)
    · exact plain_cases hnone h

/-- Among the words of an accepted command line one is the expression, and any other word that
is no option would have been it in its place. -/
theorem words_replace_expression
    {words : List String} {scan last : Scan} {expression : String}
    (hnone : scan.expression = none)
    (hlast : last.expression = some expression)
    (h : words.foldlM Scan.word scan = .ok last) :
    ∃ before after,
      words = before ++ expression :: after ∧
      ∀ other,
        other.toList.head? ≠ some '-' →
        (before ++ other :: after).foldlM Scan.word scan =
          .ok (last.withExpression (some other)) := by
  induction words generalizing scan with
  | nil =>
      cases h
      rw [hnone] at hlast
      cases hlast
  | cons word rest ih =>
      rw [List.foldlM_cons, bind_eq_ok_iff] at h
      obtain ⟨next, hword, hrest⟩ := h
      rcases word_cases hnone hword with hnext | ⟨settled, rfl, hothers⟩
      · obtain ⟨before, after, rfl, hreplaced⟩ := ih hnext hrest
        refine ⟨word :: before, after, rfl, ?_⟩
        intro other hother
        rw [List.cons_append, List.foldlM_cons, hword]
        exact hreplaced other hother
      · have hexpression : some expression = some word :=
          hlast.symm.trans ((uniform_words rest).expression_eq rfl hrest)
        obtain rfl := Option.some.inj hexpression
        refine ⟨[], rest, rfl, ?_⟩
        intro other hother
        rw [List.nil_append, List.foldlM_cons, hothers other hother, ok_bind]
        exact (uniform_words rest).replaced rfl hrest other

end Expression

end Scan

/-- The expression of an accepted command line is one of its words, and any other word that is no
option can stand there instead. -/
theorem ofWords_replace_expression
    {words : List String} {arguments : Arguments}
    (h : Arguments.ofWords words = .ok arguments) :
    ∃ before after,
      words = before ++ arguments.expression :: after ∧
      ∀ other,
        other.toList.head? ≠ some '-' →
        Arguments.ofWords (before ++ other :: after) =
          .ok { arguments with expression := other } := by
  obtain ⟨last, hwords, hfinish⟩ := bind_eq_ok_iff.1 h
  have hlast : last.expression = some arguments.expression := by
    obtain ⟨settled, expression, hsettled, _, _, hexpression, _, rfl⟩ :=
      Scan.finish_eq_ok_iff.1 hfinish
    rw [← Scan.blind_settle.expression_eq hsettled]
    exact hexpression
  obtain ⟨before, after, hwords, hothers⟩ := Scan.words_replace_expression rfl hlast hwords
  refine ⟨before, after, hwords, ?_⟩
  intro other hother
  unfold Arguments.ofWords
  rw [hothers other hother]
  exact Scan.finish_withExpression other hfinish

end CommandLine
end Reckoner
