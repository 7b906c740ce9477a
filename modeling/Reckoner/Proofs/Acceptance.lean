import Reckoner.Proofs.Spelled

/-!
# Which token lists are expressions

The reader accepts the expressions of the grammar whose brackets are not nested too deeply, and
builds the expression that the grammar gives them.  One direction is the invariant of the
reader.  The other is an induction on the derivation of a phrase.  It begins at any gap that
the phrase may stand in, below any number of open brackets, and follows the reader to the end of
the phrase.

**Results.**
* `ofTokens_eq_ok_iff`: the reader accepts exactly the shallow expressions.
* `ofTokens_of_deep`: an expression that is not shallow is refused at the first bracket that
  opens beyond the limit.
* `ofTokens_accepts_grammar`: acceptance, refusal and the order of the tokens in one statement.
-/

namespace Reckoner

open Grammar

section Gaps

/-- Whether a phrase of a kind can be read at the gap.  A term would take the product before
it for itself, and an expression the sum. -/
def Gap.Admits : Gap → Phrase → Prop
  | .first, _ => True
  | .term _ _, phrase => phrase ≠ .expression
  | .factor _ _, phrase => phrase = .factor

/-- What a phrase has made of the gap that it was read at. -/
def Gap.Filled (gap : Gap) : Phrase → Expr → Run → Prop
  | .expression, e, run => run.total = e
  | .term, e, run | .factor, e, run => run = gap.fill e

theorem Gap.eq_first_of_admits
    {gap : Gap}
    (h : gap.Admits .expression) :
    gap = .first := by
  cases gap with
  | first =>
      rfl
  | term _ _ =>
      exact absurd rfl h
  | factor _ _ =>
      cases h

theorem Gap.admits_factor (gap : Gap) : gap.Admits .factor := by
  cases gap <;> simp [Admits]

theorem Gap.admits_term_of_additive
    {op : Operator}
    (hop : op.IsAdditive)
    (run : Run) :
    (run.extend op).Admits .term := by
  rcases hop with rfl | rfl <;> simp [Run.extend, Admits]

/-- A term after a sum sign ends the sum with itself. -/
theorem Gap.total_fill_of_additive
    {op : Operator}
    (hop : op.IsAdditive)
    (run : Run)
    (e : Expr) :
    ((run.extend op).fill e).total = .operation op run.total e := by
  rcases hop with rfl | rfl <;> rfl

theorem Gap.fill_extend_multiply
    {gap : Gap}
    (h : gap.Admits .term)
    (a b : Expr) :
    ((gap.fill a).extend .multiply).fill b =
      gap.fill (.operation .multiply a b) := by
  cases gap with
  | first | term _ _ =>
      rfl
  | factor _ _ =>
      cases h

end Gaps

namespace Progress

/-- The reader comes to an opening bracket with no level left for it. -/
def Overruns (p : Progress) (w : List Token) : Prop :=
  ∃ before after last full gap,
    w = before ++ .opening :: after ∧
    p.advanceAll before = .ok ⟨last, full, .waiting gap⟩ ∧
    full.length = depthLimit

theorem Overruns.append
    {p : Progress} {u : List Token}
    (h : p.Overruns u)
    (v : List Token) :
    p.Overruns (u ++ v) := by
  obtain ⟨before, after, last, full, gap, rfl, hrun, hfull⟩ := h
  exact ⟨before, after ++ v, last, full, gap, by simp, hrun, hfull⟩

theorem Overruns.after
    {p q : Progress} {u v : List Token}
    (h : q.Overruns v)
    (hu : p.advanceAll u = .ok q) :
    p.Overruns (u ++ v) := by
  obtain ⟨before, after, last, full, gap, rfl, hrun, hfull⟩ := h
  refine ⟨u ++ before, after, last, full, gap, by simp, ?_, hfull⟩
  rw [advanceAll_append_of_ok hu, hrun]

theorem Overruns.cons
    {p q : Progress} {token : Token} {v : List Token}
    (h : q.Overruns v)
    (hstep : Advance p token q) :
    p.Overruns (token :: v) := by
  have hrun : p.advanceAll [token] = .ok q := advanceAll_cons_of_rule hstep []
  exact h.after hrun

end Progress

section Completeness

open Progress

variable {phrase : Phrase} {w : List Token} {e : Expr}

/-- A phrase that is not nested too deeply is read to its end. -/
theorem advanceAll_of_derives
    (h : Derives phrase w e)
    (position : Nat)
    (outer : List Gap)
    (hdepth : outer.length + Token.nesting w ≤ depthLimit)
    (gap : Gap)
    (hgap : gap.Admits phrase) :
    ∃ last run,
      gap.Filled phrase e run ∧
      advanceAll ⟨position, outer, .waiting gap⟩ w = .ok ⟨last, outer, .complete run⟩ := by
  -- The gap is general because a right operand stands behind a sum or a product.
  induction h generalizing position outer gap with
  | @ofTerm w e _ ih =>
      obtain rfl := Gap.eq_first_of_admits hgap
      obtain ⟨last, run, rfl, hrun⟩ := ih position outer hdepth .first trivial
      exact ⟨last, Gap.first.fill e, rfl, hrun⟩
  | @additive op u v a b hop hu _ ihL ihR =>
      obtain rfl := Gap.eq_first_of_admits hgap
      rw [Token.nesting_operation (level_of_derives hu)] at hdepth
      obtain ⟨middle, sum, rfl, hsum⟩ := ihL position outer (by omega) .first trivial
      obtain ⟨last, run, rfl, hrun⟩ :=
        ihR (middle + 1) outer (by omega) _ (Gap.admits_term_of_additive hop sum)
      refine ⟨last, _, Gap.total_fill_of_additive hop sum b, ?_⟩
      rw [advanceAll_append_of_ok hsum, advanceAll_cons_of_rule (.operator op), hrun]
  | ofFactor _ ih =>
      exact ih position outer hdepth gap gap.admits_factor
  | @multiply u v a b hu _ ihL ihR =>
      rw [Token.nesting_operation (level_of_derives hu)] at hdepth
      obtain ⟨middle, product, rfl, hproduct⟩ := ihL position outer (by omega) gap hgap
      obtain ⟨last, run, rfl, hrun⟩ :=
        ihR (middle + 1) outer (by omega) _ (Gap.admits_factor _)
      refine ⟨last, _, Gap.fill_extend_multiply hgap a b, ?_⟩
      rw [advanceAll_append_of_ok hproduct, advanceAll_cons_of_rule (.operator .multiply), hrun]
  | constant n =>
      exact ⟨position + 1, _, rfl, advanceAll_cons_of_rule (.constant n) []⟩
  | letter v =>
      exact ⟨position + 1, _, rfl, advanceAll_cons_of_rule (.letter v) []⟩
  | @bracket w e hw ih =>
      have hnesting : Token.nesting (.opening :: w ++ [.closing]) = Token.nesting w + 1 :=
        Token.nesting_enclose (level_of_derives hw)
      rw [hnesting] at hdepth
      have hinner : (gap :: outer).length + Token.nesting w ≤ depthLimit := by
        simp only [List.length_cons]
        omega
      obtain ⟨last, run, rfl, hrun⟩ := ih (position + 1) _ hinner .first trivial
      refine ⟨last + 1, _, rfl, ?_⟩
      rw [List.cons_append, advanceAll_cons_of_rule (.opening (by omega)),
        advanceAll_append_of_ok hrun, advanceAll_cons_of_rule .closing, advanceAll_nil]

/-- A phrase that is nested too deeply overruns the limit. -/
theorem overruns_of_derives
    (h : Derives phrase w e)
    (position : Nat)
    (outer : List Gap)
    (hroom : outer.length ≤ depthLimit)
    (hdeep : depthLimit < outer.length + Token.nesting w)
    (gap : Gap)
    (hgap : gap.Admits phrase) :
    Overruns ⟨position, outer, .waiting gap⟩ w := by
  induction h generalizing position outer gap with
  | ofTerm _ ih =>
      obtain rfl := Gap.eq_first_of_admits hgap
      exact ih position outer hroom hdeep .first trivial
  | @additive op u v a b hop hu _ ihL ihR =>
      obtain rfl := Gap.eq_first_of_admits hgap
      by_cases hleft : depthLimit < outer.length + Token.nesting u
      · have hover := ihL position outer hroom hleft .first trivial
        exact hover.append _
      · rw [Token.nesting_operation (level_of_derives hu)] at hdeep
        obtain ⟨middle, sum, rfl, hsum⟩ :=
          advanceAll_of_derives hu position outer (by omega) .first trivial
        have hover :=
          ihR (middle + 1) outer hroom (by omega) _ (Gap.admits_term_of_additive hop sum)
        exact (hover.cons (.operator op)).after hsum
  | ofFactor _ ih =>
      exact ih position outer hroom hdeep gap gap.admits_factor
  | @multiply u v a b hu _ ihL ihR =>
      by_cases hleft : depthLimit < outer.length + Token.nesting u
      · have hover := ihL position outer hroom hleft gap hgap
        exact hover.append _
      · rw [Token.nesting_operation (level_of_derives hu)] at hdeep
        obtain ⟨middle, product, rfl, hproduct⟩ :=
          advanceAll_of_derives hu position outer (by omega) gap hgap
        have hover :=
          ihR (middle + 1) outer hroom (by omega) ((gap.fill a).extend .multiply)
            (Gap.admits_factor _)
        exact (hover.cons (.operator .multiply)).after hproduct
  | constant _ | letter _ =>
      simp only [Token.nesting_cons, Token.nesting_nil, Token.deepen] at hdeep
      omega
  | @bracket w e hw ih =>
      by_cases hfull : outer.length = depthLimit
      · exact ⟨[], w ++ [.closing], position, outer, gap, rfl, rfl, hfull⟩
      · have hnesting : Token.nesting (.opening :: w ++ [.closing]) = Token.nesting w + 1 :=
          Token.nesting_enclose (level_of_derives hw)
        have hinner : (gap :: outer).length ≤ depthLimit := by
          simp only [List.length_cons]
          omega
        have hdeeper : depthLimit < (gap :: outer).length + Token.nesting w := by
          simp only [List.length_cons]
          omega
        have hover := ih (position + 1) _ hinner hdeeper .first trivial
        exact (hover.cons (.opening hfull)).append _

end Completeness

section Depth

open Progress

theorem depth_add_le_nestingBefore
    {p q : Progress} {w : List Token}
    (h : p.advanceAll w = .ok q)
    (k : Nat) :
    q.depth + k ≤ p.depth + Token.nestingBefore k w := by
  induction w generalizing p with
  | nil =>
      cases h
      exact Nat.le_refl _
  | cons token rest ih =>
      obtain ⟨p', hstep, hrest⟩ := advanceAll_cons_eq_ok h
      have hbound := ih hrest
      rw [Token.nestingBefore_cons]
      cases hstep with
      | constant _ | letter _ | operator _ =>
          exact hbound
      | opening _ | closing =>
          simp only [depth, List.length_cons, Token.deepen] at hbound ⊢
          omega

end Depth

namespace Expr

open Progress

/-- The reader accepts exactly the expressions of the grammar that are not nested too
deeply. -/
theorem ofTokens_eq_ok_iff
    (w : List Token)
    (e : Expr) :
    ofTokens w = .ok e
      ↔
    Derives .expression w e ∧ Token.Shallow w := by
  rw [ofTokens_eq_advanceAll, bind_eq_ok_iff]
  constructor
  · rintro ⟨p, hrun, hfinish⟩
    exact
      ⟨derives_of_finish (spelled_of_advanceAll spelled_start hrun) hfinish,
        (Token.shallow_iff w).2 (nesting_le_of_start hrun)⟩
  · rintro ⟨hderives, hshallow⟩
    have hnesting := (Token.shallow_iff w).1 hshallow
    obtain ⟨last, run, rfl, hrun⟩ :=
      advanceAll_of_derives hderives 0 [] (by simpa) .first trivial
    exact ⟨_, hrun, rfl⟩

/-- An expression that is nested too deeply is refused at the first bracket that opens a level
beyond the limit. -/
theorem ofTokens_of_deep
    {w : List Token} {e : Expr}
    (h : Derives .expression w e)
    (hdeep : ¬ Token.Shallow w) :
    ∃ n, Token.TooDeepAt w n ∧ ofTokens w = .error (.grammar .tooDeep n) := by
  rw [Token.shallow_iff, Nat.not_le] at hdeep
  obtain ⟨before, after, last, full, inner, rfl, hrun, hfull⟩ :=
    overruns_of_derives h 0 [] (Nat.zero_le _) (by simpa) .first trivial
  have hlast : last = before.length :=
    (spelled_of_advanceAll spelled_start hrun).position_eq
  have hbefore : Token.nesting before ≤ depthLimit := nesting_le_of_start hrun
  have hbracket : depthLimit < Token.nesting (before ++ [.opening]) := by
    have hbound := depth_add_le_nestingBefore hrun 1
    have hsum : Token.nesting (before ++ [.opening]) = Token.nestingBefore 1 before :=
      Token.nesting_append before [.opening]
    simp only [depth, List.length_nil] at hbound
    omega
  have hstep := advance_opening_of_full last inner hfull
  refine ⟨before.length, ⟨by simp, ?_, ?_⟩, ?_⟩
  · simpa [Token.shallow_iff] using hbefore
  · rw [Token.shallow_iff, List.take_append, List.take_of_length_le (Nat.le_succ _)]
    simpa using hbracket
  · rw [ofTokens_append_of_ok hrun, advanceAll_cons, hstep, hlast, error_bind, error_bind]

/-- Reading is decided by the grammar: the tokens of an accepted list are a shallow expression
and no other list is accepted.  The brackets apart, all tokens are kept in their order. -/
theorem ofTokens_accepts_grammar (w : List Token) :
    (∀ e, ofTokens w = .ok e ↔ Derives .expression w e ∧ Token.Shallow w)
      ∧
    ((∃ failure, ofTokens w = .error failure)
      ↔
      ¬ ∃ e, Derives .expression w e ∧ Token.Shallow w)
      ∧
    (∀ e, ofTokens w = .ok e → Token.bare w = e.inorder) := by
  refine ⟨ofTokens_eq_ok_iff w, ?_, ?_⟩
  · simp only [← ofTokens_eq_ok_iff]
    cases ofTokens w with
    | error failure =>
        simp
    | ok e =>
        simp
  · intro e h
    exact bare_eq_inorder ((ofTokens_eq_ok_iff w e).1 h).1

end Expr
end Reckoner
