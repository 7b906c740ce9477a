import Reckoner.Proofs.Appearance
import Reckoner.Proofs.Program
import Reckoner.Proofs.Records

/-!
# What a run does not depend on

A run calculates its expression under the valuation that its assignments make.  Only the last
assignment of each letter is left in it, and only the letters of the expression are asked for.  So
assignments of different letters may be reordered; one that is overridden may be left out, and so
may a repeated one and one of a letter that does not occur.

The log is an exception.  It counts the letters that are assigned a number, whether they occur in
the expression or not; but in its other lines it tells no more than the rest of the outcome.

**Results.**
* `evaluate_ofPairs_congr`: settings with the same last one for each letter of an expression.
* `evaluate_ofPairs_of_superfluous`: a setting that may be left out.
* `run_congr`: two runs whose assignments come to the same.
* `log_run_congr`: the logs of two such runs.
* `only_last_settings_count`: the laws together, for expressions and for the words of a command
  line.
-/

namespace Reckoner

/-- The record with another number of letters, if it counts them. -/
def Record.recount (count : Nat) : Record → Record
  | calculating _ => calculating count
  | record => record

namespace Expr

variable {e : Expr} {first second before after : List (Letter × Int32)} {v : Letter} {n : Int32}

theorem evaluate_ofPairs_congr
    (h : ∀ v ∈ e.letters, Valuation.last? first v = Valuation.last? second v) :
    e.evaluate (Valuation.ofPairs first) = e.evaluate (Valuation.ofPairs second) := by
  rw [Valuation.ofPairs_eq_last?, Valuation.ofPairs_eq_last?]
  exact evaluate_congr h

/-- Settings of different letters may change places, as long as those of each letter keep their
order. -/
theorem evaluate_ofPairs_of_reordered
    (h : ∀ v ∈ e.letters,
      first.filter (fun pair => pair.1 = v) = second.filter (fun pair => pair.1 = v)) :
    e.evaluate (Valuation.ofPairs first) = e.evaluate (Valuation.ofPairs second) := by
  apply evaluate_ofPairs_congr
  intro v hv
  rw [← Valuation.last?_filter first, h v hv, Valuation.last?_filter]

/-- A setting may be left out if the letter is set again behind it, if it repeats the one before,
or if the letter does not occur. -/
theorem evaluate_ofPairs_of_superfluous
    (h : (∃ m, (v, m) ∈ after) ∨ Valuation.last? before v = some n ∨ v ∉ e.letters) :
    e.evaluate (Valuation.ofPairs (before ++ (v, n) :: after)) =
      e.evaluate (Valuation.ofPairs (before ++ after)) := by
  apply evaluate_ofPairs_congr
  intro w hw
  rcases h with ⟨m, hm⟩ | hrepeated | hforeign
  · rw [Valuation.last?_of_overridden hm]
  · rw [Valuation.last?_of_repeated hrepeated]
  · have hne : w ≠ v := by
      rintro rfl
      exact hforeign hw
    rw [Valuation.last?_of_ne hne]

end Expr

section Logs

variable {count : Nat}

theorem Record.level_recount (count : Nat) (record : Record) :
    (record.recount count).level = record.level := by
  cases record <;> rfl

theorem Record.upTo_map_recount (verbosity : Int) (records : List Record) :
    upTo verbosity (records.map (recount count)) = (upTo verbosity records).map (recount count) := by
  simp only [upTo, List.filter_map, Function.comp_def, level_recount]

theorem Record.recount_of_mem_ofTokens
    {i : Nat} {tokens : List Token} {record : Record}
    (h : record ∈ ofTokens i tokens) :
    record.recount count = record := by
  obtain ⟨⟨token, j⟩, _, htoken⟩ := List.mem_filterMap.1 h
  cases token <;> cases htoken <;> rfl

/-- What holds of the records of two parts holds of those of the sequence. -/
theorem Logged.forall_records_bind
    {α β : Type} {P : Record → Prop} {x : Logged α} {f : α → Logged β}
    (hx : ∀ record ∈ x.records, P record)
    (hf : ∀ a, ∀ record ∈ (f a).records, P record) :
    ∀ record ∈ (x >>= f).records, P record := by
  cases houtcome : x.outcome with
  | error failure =>
      rw [records_bind_of_error f houtcome]
      exact hx
  | ok a =>
      rw [records_bind_of_ok f houtcome]
      exact List.forall_mem_append.2 ⟨hx, hf a⟩

/-- While a text is read, no letters are counted. -/
theorem Calculator.recount_of_mem_readText
    (text : String) :
    ∀ record ∈ (readText (some text)).records, record.recount count = record := by
  rw [readText_eq]
  refine Logged.forall_records_bind ?_ fun tokens =>
    Logged.forall_records_bind ?_ fun e => ?_
  · cases hcheck : Text.check text with
    | error failure =>
        simp [Token.records_readText_of_check_eq_error hcheck]
    | ok =>
        simp [Token.records_readText_of_check_eq_ok hcheck, Record.recount]
  · rcases Progress.records_runFrom .start tokens with
      ⟨_, _, hrecords⟩ | ⟨_, _, _, _, hrecords⟩
    · intro record hrecord
      exact Record.recount_of_mem_ofTokens (hrecords ▸ hrecord)
    · intro record hrecord
      exact Record.recount_of_mem_ofTokens (hrecords ▸ hrecord)
  · show ∀ record ∈ [Record.accepted text, .tree e], record.recount count = record
    simp [Record.recount]

end Logs

theorem Letter.nodup_eraseDups (list : List Letter) : list.eraseDups.Nodup := by
  have hcollected : list.foldl collect [] = list.eraseDups := by
    simp [foldl_collect, List.removeAll]
  rw [← hcollected]
  exact nodup_foldl_collect List.nodup_nil list

namespace CommandLine

/-- As many letters are assigned a number if they are the same ones. -/
theorem Assignment.size_congr
    {first second : List Assignment}
    (h : ∀ v, (∃ a ∈ first, a.letter = v) ↔ ∃ a ∈ second, a.letter = v) :
    size first = size second := by
  have hperm : (first.map letter).eraseDups.Perm (second.map letter).eraseDups := by
    rw [List.perm_ext_iff_of_nodup (Letter.nodup_eraseDups _) (Letter.nodup_eraseDups _)]
    intro v
    simp only [List.mem_eraseDups, List.mem_map, h]
  exact hperm.length_eq

section Logs

variable {arguments : Arguments}

/-- The number of letters that are assigned a number is noted before the calculation, and the value
after it. -/
theorem Arguments.records_calculate
    {e : Expr} :
    (arguments.calculate ⟨e⟩).records =
      .calculating (Assignment.size arguments.assignments) ::
        match e.evaluate (Assignment.last? arguments.assignments) with
        | .error _ => []
        | .ok n => [.calculated arguments.expression n] := by
  simp only [calculate, Calculator.valueUnder, Assignment.valuation_eq_last?]
  cases e.evaluate (Assignment.last? arguments.assignments) <;> rfl

/-- The log of a run is that of its reading followed by its calculation. -/
theorem Arguments.log_run (arguments : Arguments) :
    arguments.run.log =
      Record.upTo arguments.verbosity
        (Calculator.readText (some arguments.expression) >>= arguments.calculate).records := by
  cases hread : (Calculator.readText (some arguments.expression)).outcome with
  | error failure =>
      simp only [run, hread, Logged.records_bind_of_error _ hread]
  | ok calculator =>
      simp only [run, hread, Logged.records_bind_of_ok _ hread]
      cases (arguments.calculate calculator).outcome <;> rfl

end Logs

section Runs

-- Both runs have the same expression, and each of its letters is last assigned the same number, or
-- none in both of them.
variable
  {first second : Arguments}
  (hexpression : first.expression = second.expression)
  (h : ∀ e,
    Expr.ofText (some first.expression) = .ok e →
    ∀ v ∈ e.letters,
      Assignment.last? first.assignments v = Assignment.last? second.assignments v)

include hexpression h

/-- Two such runs end in the same way if they show the same. -/
theorem Arguments.run_congr
    (hdiagram : first.showDiagram = second.showDiagram)
    (htext : first.showText = second.showText) :
    first.run.code = second.run.code ∧
      first.run.stdout = second.run.stdout ∧
      first.run.report = second.run.report := by
  cases hread : Expr.ofText (some first.expression) with
  | error failure =>
      have hother : Expr.ofText (some second.expression) = .error failure := hexpression ▸ hread
      rw [run_of_ofText_error hread, run_of_ofText_error hother, hexpression]
      exact ⟨rfl, rfl, rfl⟩
  | ok e =>
      have hother : Expr.ofText (some second.expression) = .ok e := hexpression ▸ hread
      have hshown : first.shown e = second.shown e := by
        rw [shown, shown, hdiagram, htext]
      have hvalues :
          e.evaluate (Assignment.last? first.assignments) =
            e.evaluate (Assignment.last? second.assignments) :=
        Expr.evaluate_congr (h e hread)
      cases hvalue : e.evaluate (Assignment.last? second.assignments) with
      | error failure =>
          rw [run_of_evaluate_error hread (hvalues.trans hvalue),
            run_of_evaluate_error hother hvalue, hshown, hexpression]
          exact ⟨rfl, rfl, rfl⟩
      | ok n =>
          rw [run_of_evaluate hread (hvalues.trans hvalue), run_of_evaluate hother hvalue, hshown]
          exact ⟨rfl, rfl, rfl⟩

/-- The logs of two such runs differ in the number of letters that they count, and in nothing
else. -/
theorem Arguments.log_run_congr
    (hverbosity : first.verbosity = second.verbosity) :
    second.run.log = first.run.log.map (Record.recount (Assignment.size second.assignments)) := by
  have hreading :
      (Calculator.readText (some first.expression)).records.map
          (Record.recount (Assignment.size second.assignments)) =
        (Calculator.readText (some first.expression)).records :=
    (List.map_congr_left (Calculator.recount_of_mem_readText _)).trans (List.map_id' _)
  rw [log_run, log_run, ← Record.upTo_map_recount, ← hverbosity, ← hexpression]
  cases hread : (Calculator.readText (some first.expression)).outcome with
  | error failure =>
      rw [Logged.records_bind_of_error _ hread, Logged.records_bind_of_error _ hread, hreading]
  | ok calculator =>
      have htree : Expr.ofText (some first.expression) = .ok calculator.tree := by
        have hmap : Calculator.mk <$> Expr.ofText (some first.expression) = .ok calculator := by
          rw [← Calculator.ofText_eq]
          exact hread
        obtain ⟨e, he, rfl⟩ := map_eq_ok_iff.1 hmap
        exact he
      rw [Logged.records_bind_of_ok _ hread, Logged.records_bind_of_ok _ hread, List.map_append,
        hreading]
      congr 2
      rw [records_calculate, records_calculate, Expr.evaluate_congr (h _ htree), ← hexpression]
      cases calculator.tree.evaluate (Assignment.last? second.assignments) <;> rfl

end Runs

end CommandLine

open CommandLine

/-- The value of an expression, or its failure to have one, depends only on the last setting of
each of its letters.  So settings of different letters may be reordered, and a setting may be left
out that is overridden, repeated, or of a letter that does not occur.  In the same way the code of a
run, what it shows and what it reports depend only on the last assignment of each letter of its
expression, whatever the verbosity.  With the same verbosity, the logs differ at most in the number
of letters that are assigned a number. -/
theorem only_last_settings_count :
    (∀ (e : Expr) (first second : List (Letter × Int32)),
      (∀ v ∈ e.letters, Valuation.last? first v = Valuation.last? second v) →
      e.evaluate (Valuation.ofPairs first) = e.evaluate (Valuation.ofPairs second))
      ∧
    (∀ (e : Expr) (first second : List (Letter × Int32)),
      (∀ v ∈ e.letters,
        first.filter (fun pair => pair.1 = v) = second.filter (fun pair => pair.1 = v)) →
      e.evaluate (Valuation.ofPairs first) = e.evaluate (Valuation.ofPairs second))
      ∧
    (∀ (e : Expr) (before after : List (Letter × Int32)) (v : Letter) (n : Int32),
      (∃ m, (v, m) ∈ after) ∨ Valuation.last? before v = some n ∨ v ∉ e.letters →
      e.evaluate (Valuation.ofPairs (before ++ (v, n) :: after)) =
        e.evaluate (Valuation.ofPairs (before ++ after)))
      ∧
    (∀ words others first second,
      Arguments.ofWords words = .ok first →
      Arguments.ofWords others = .ok second →
      first.expression = second.expression →
      first.showDiagram = second.showDiagram →
      first.showText = second.showText →
      (∀ e,
        Expr.ofText (some first.expression) = .ok e →
        ∀ v ∈ e.letters,
          Assignment.last? first.assignments v = Assignment.last? second.assignments v) →
      ((run words).code = (run others).code ∧
        (run words).stdout = (run others).stdout ∧
        (run words).report = (run others).report)
        ∧
      (first.verbosity = second.verbosity →
        (run others).log =
            (run words).log.map (Record.recount (Assignment.size second.assignments))
          ∧
        ((∀ v,
            (∃ a ∈ first.assignments, a.letter = v) ↔ ∃ a ∈ second.assignments, a.letter = v) →
          (run words).log = (run others).log))) := by
  refine ⟨?_, ?_, ?_, ?_⟩
  · intro e first second h
    exact Expr.evaluate_ofPairs_congr h
  · intro e first second h
    exact Expr.evaluate_ofPairs_of_reordered h
  · intro e before after v n h
    exact Expr.evaluate_ofPairs_of_superfluous h
  · intro words others first second hwords hothers hexpression hdiagram htext h
    rw [run_of_ofWords hwords, run_of_ofWords hothers]
    refine ⟨Arguments.run_congr hexpression h hdiagram htext, ?_⟩
    intro hverbosity
    have hlog := Arguments.log_run_congr hexpression h hverbosity
    refine ⟨hlog, ?_⟩
    intro hletters
    rw [hlog, ← Assignment.size_congr hletters]
    exact Arguments.log_run_congr rfl (fun _ _ _ _ => rfl) rfl

/-- The expression `a - b`. -/
def difference : Expr :=
  .operation .subtract (.letter ⟨'a', rfl⟩) (.letter ⟨'b', rfl⟩)

/-- For `a - b` the first number of `a` does not count, nor the number of `c`, nor the order; but a
detailed log counts two letters with a number in the one run and three in the other. -/
theorem only_last_settings_count_difference :
    difference.evaluate
          (Valuation.ofPairs [(⟨'a', rfl⟩, 1), (⟨'b', rfl⟩, 2), (⟨'a', rfl⟩, 7)]) =
        difference.evaluate
          (Valuation.ofPairs [(⟨'a', rfl⟩, 7), (⟨'c', rfl⟩, 9), (⟨'b', rfl⟩, 2)])
      ∧
    difference.evaluate
          (Valuation.ofPairs [(⟨'a', rfl⟩, 7), (⟨'b', rfl⟩, 2)]) =
        difference.evaluate
          (Valuation.ofPairs [(⟨'c', rfl⟩, 9), (⟨'b', rfl⟩, 2), (⟨'a', rfl⟩, 7)])
      ∧
    difference.evaluate
          (Valuation.ofPairs [(⟨'a', rfl⟩, 1), (⟨'b', rfl⟩, 2), (⟨'a', rfl⟩, 7)]) =
        difference.evaluate
          (Valuation.ofPairs [(⟨'b', rfl⟩, 2), (⟨'a', rfl⟩, 7)])
      ∧
    (run ["-s", "a=1", "a - b", "-s", "b=2", "-s", "a=7", "-vvv"]).code =
        (run ["-s", "b=2", "-sc=9", "-s", "a=7", "a - b", "-vvv"]).code
      ∧
    (run ["-s", "a=1", "a - b", "-s", "b=2", "-s", "a=7", "-vvv"]).stdout =
        (run ["-s", "b=2", "-sc=9", "-s", "a=7", "a - b", "-vvv"]).stdout
      ∧
    (run ["-s", "a=1", "a - b", "-s", "b=2", "-s", "a=7", "-vvv"]).report =
        (run ["-s", "b=2", "-sc=9", "-s", "a=7", "a - b", "-vvv"]).report
      ∧
    (run ["-s", "a=1", "a - b", "-s", "b=2", "-s", "a=7", "-vvv"]).log =
        [.accepted "a - b", .tree difference, .calculating 2, .calculated "a - b" 5]
      ∧
    (run ["-s", "b=2", "-sc=9", "-s", "a=7", "a - b", "-vvv"]).log =
        [.accepted "a - b", .tree difference, .calculating 3, .calculated "a - b" 5]
      ∧
    (run ["-s", "a=1", "a - b", "-s", "b=2", "-s", "a=7", "-vvv"]).log =
        (run ["-vvv", "-sb=2", "-sa=7", "a - b"]).log := by
  obtain ⟨hlast, hreordered, hsuperfluous, hruns⟩ := only_last_settings_count
  have hwords :
      Arguments.ofWords ["-s", "a=1", "a - b", "-s", "b=2", "-s", "a=7", "-vvv"] =
        .ok
          ⟨"a - b", [⟨⟨'a', rfl⟩, 1⟩, ⟨⟨'b', rfl⟩, 2⟩, ⟨⟨'a', rfl⟩, 7⟩], false, false, 3⟩ := by
    decide +kernel
  have hothers :
      Arguments.ofWords ["-s", "b=2", "-sc=9", "-s", "a=7", "a - b", "-vvv"] =
        .ok
          ⟨"a - b", [⟨⟨'b', rfl⟩, 2⟩, ⟨⟨'c', rfl⟩, 9⟩, ⟨⟨'a', rfl⟩, 7⟩], false, false, 3⟩ := by
    decide +kernel
  have hsame :
      Arguments.ofWords ["-vvv", "-sb=2", "-sa=7", "a - b"] =
        .ok ⟨"a - b", [⟨⟨'b', rfl⟩, 2⟩, ⟨⟨'a', rfl⟩, 7⟩], false, false, 3⟩ := by
    decide +kernel
  have hread : ∀ e, Expr.ofText (some "a - b") = .ok e → e = difference := by
    intro e he
    have haccepted : Expr.ofText (some "a - b") = .ok difference := by
      rfl
    rw [haccepted] at he
    cases he
    rfl
  have hlog :
      (run ["-s", "a=1", "a - b", "-s", "b=2", "-s", "a=7", "-vvv"]).log =
        [.accepted "a - b", .tree difference, .calculating 2, .calculated "a - b" 5] := by
    decide +kernel
  obtain ⟨⟨hcode, hstdout, hreport⟩, hlogs⟩ :=
    hruns _ _ _ _ hwords hothers rfl rfl rfl (by
      intro e he
      rw [hread e he]
      decide)
  have hrepeats :=
    (hruns _ _ _ _ hwords hsame rfl rfl rfl (by
      intro e he
      rw [hread e he]
      decide)).2 rfl
  refine ⟨?_, ?_, ?_, hcode, hstdout, hreport, hlog, ?_, ?_⟩
  · exact hlast difference _ _ (by decide)
  · exact hreordered difference _ _ (by decide)
  · exact hsuperfluous difference [] _ _ _ (.inl ⟨7, by decide⟩)
  · rw [(hlogs rfl).1, hlog]
    rfl
  · refine hrepeats.2 fun v => ?_
    rw [← List.mem_map, ← List.mem_map]
    simp only [List.map_cons, List.map_nil, List.mem_cons, List.not_mem_nil, or_false]
    exact ⟨fun h => h.elim .inr id, .inr⟩

end Reckoner
