import Reckoner.Expr.Nested
import Reckoner.Proofs.Steps

/-!
# The two readers agree

The reading group by group makes the same records as the reader of the library and has the same
outcome, on every list of tokens.  So the internal failures that its drafts leave room for are
never reached.

Behind this stands an invariant that the drafts do not express.  A draft stands for what the
other reader knows of the group in hand: an operand is pending exactly after an operand or a
product sign, a sign exactly after a product sign, and the parked operands can always be joined.
A group is left for one of two reasons.  Either its closing bracket was read, and then the number
of open brackets is that of the groups around it; or the tokens ran out, and then no draft of the
groups around it is asked for more.

**Results.**
* `ends_of_readGroup`: the two ways in which a group ends.
* `runFrom_eq_readGroup`: reading on from a group is reading the group and then resuming the
  groups around it.
* `readTokens_eq`: the two readers are equal.
-/

namespace Reckoner
namespace Nested

open Logged Progress

section Endings

theorem pass_eq_ok
    {place next : Place} {kind left : Last}
    (h : place.pass kind left = .ok next) :
    next = ⟨place.position + 1, place.depth, left⟩ := by
  unfold Place.pass at h
  split at h
  · cases h
    rfl
  · cases h

/-- A group inside `outside` others has ended with its own bracket, or together with the tokens
while all brackets are still open. -/
inductive Ends (outside : Nat) {n : Nat} : Ended n → Prop
  | closed
      {tree : Expr} {position : Nat} {rest : List Token} {shorter : rest.length ≤ n} :
      Ends outside ⟨tree, ⟨position, outside, .operand⟩, rest, shorter⟩
  | exhausted
      {tree : Expr} {place : Place} {shorter : 0 ≤ n}
      (hdepth : outside < place.depth) :
      Ends outside ⟨tree, place, [], shorter⟩

theorem Ends.weaken
    {outside m n : Nat} {ended : Ended m}
    (h : Ends outside ended)
    (hmn : m ≤ n) :
    Ends outside (ended.weaken hmn) := by
  cases h with
  | closed =>
      exact .closed
  | exhausted hdepth =>
      exact .exhausted hdepth

/-- A group that is in hand ends in one of the two ways.  So does one around it, if the tokens
have run out. -/
theorem ends_of_readGroup
    {outside : Nat} {draft : Draft} {place : Place} {tokens : List Token}
    {ended : Ended tokens.length}
    (hopen : outside < place.depth)
    (hinHand : tokens ≠ [] → place.depth = outside + 1)
    (h : (readGroup draft place tokens).outcome = .ok ended) :
    Ends outside ended := by
  induction draft, place, tokens using readGroup.induct generalizing outside with
  | case1 draft place =>
      rw [readGroup, outcome_bind] at h
      obtain ⟨tree, _, h⟩ := bind_eq_ok_iff.1 h
      cases h
      exact .exhausted hopen
  | case2 draft place rest n ih | case3 draft place rest v ih =>
      have hdepth : place.depth = outside + 1 := hinHand (by simp)
      simp only [readGroup, outcome_bind, outcome_lift] at h
      obtain ⟨next, hnext, h⟩ := bind_eq_ok_iff.1 h
      obtain ⟨e, _, h⟩ := bind_eq_ok_iff.1 h
      obtain ⟨after, _, h⟩ := bind_eq_ok_iff.1 h
      obtain ⟨inner, hinner, h⟩ := bind_eq_ok_iff.1 h
      cases h
      cases pass_eq_ok hnext
      exact (ih ⟨place.position + 1, place.depth, _⟩ after hopen (fun _ => hdepth) hinner).weaken _
  | case4 draft place rest op hfresh =>
      rw [readGroup, if_pos hfresh] at h
      cases h
  | case5 draft place rest op hfresh ih =>
      have hdepth : place.depth = outside + 1 := hinHand (by simp)
      simp only [readGroup, if_neg hfresh, outcome_bind, outcome_lift] at h
      obtain ⟨next, hnext, h⟩ := bind_eq_ok_iff.1 h
      obtain ⟨after, _, h⟩ := bind_eq_ok_iff.1 h
      obtain ⟨inner, hinner, h⟩ := bind_eq_ok_iff.1 h
      cases h
      cases pass_eq_ok hnext
      exact (ih ⟨place.position + 1, place.depth, _⟩ after hopen (fun _ => hdepth) hinner).weaken _
  | case6 draft place rest ihInner ihOuter =>
      have hdepth : place.depth = outside + 1 := hinHand (by simp)
      simp only [readGroup, outcome_bind, outcome_lift] at h
      obtain ⟨next, hnext, h⟩ := bind_eq_ok_iff.1 h
      split at h
      · cases h
      simp only [outcome_bind, outcome_lift, outcome_note, ok_bind] at h
      obtain ⟨group, hgroup, h⟩ := bind_eq_ok_iff.1 h
      obtain ⟨after, _, h⟩ := bind_eq_ok_iff.1 h
      obtain ⟨last, hlast, h⟩ := bind_eq_ok_iff.1 h
      cases h
      have hends : Ends place.depth group :=
        ihInner next (Nat.lt_succ_self _) (fun _ => rfl) hgroup
      cases hends with
      | closed =>
          exact (ihOuter _ after hopen (fun _ => hdepth) hlast).weaken _
      | exhausted hmore =>
          exact (ihOuter _ after (Nat.lt_trans hopen hmore) (absurd rfl) hlast).weaken _
  | case7 draft place rest =>
      have hdepth : place.depth = outside + 1 := hinHand (by simp)
      simp only [readGroup, outcome_bind, outcome_lift] at h
      obtain ⟨next, hnext, h⟩ := bind_eq_ok_iff.1 h
      split at h
      · cases h
      simp only [outcome_bind, outcome_lift, outcome_note, ok_bind] at h
      obtain ⟨tree, _, h⟩ := bind_eq_ok_iff.1 h
      cases h
      cases pass_eq_ok hnext
      obtain rfl : outside = place.depth - 1 := by omega
      exact .closed

end Endings

section Drafts

/-- The parked operands join to the sum, and its sign is left over. -/
def Parks (parked : List (Expr × Operator)) (sum : Option (Expr × Operator)) : Prop :=
  ∀ position, gather parked position = .ok (sum.map Prod.fst, sum.map Prod.snd)

/-- What a draft keeps of a group. -/
inductive Stands : Draft → Group → Prop
  | first :
      Stands .start (.waiting .first)
  | term
      {parked : List (Expr × Operator)} {sum : Expr} {op : Operator}
      (h : Parks parked (some (sum, op))) :
      Stands ⟨none, none, parked, false⟩ (.waiting (.term sum op))
  | factor
      {parked : List (Expr × Operator)} {sum : Option (Expr × Operator)} {product : Expr}
      (h : Parks parked sum) :
      Stands ⟨some product, some .multiply, parked, false⟩ (.waiting (.factor sum product))
  | complete
      {parked : List (Expr × Operator)} {sum : Option (Expr × Operator)} {product : Expr}
      (h : Parks parked sum) :
      Stands ⟨some product, none, parked, false⟩ (.complete ⟨sum, product⟩)

theorem parks_nil : Parks [] none := by
  intro position
  rfl

theorem Parks.total
    {parked : List (Expr × Operator)} {sum : Option (Expr × Operator)}
    (h : Parks parked sum)
    (product : Expr)
    (position : Nat) :
    (gather parked position >>= fun before => join before.1 before.2 product position) =
      .ok (Run.total ⟨sum, product⟩) := by
  rw [h position, ok_bind]
  cases sum with
  | none =>
      rfl
  | some _ =>
      rfl

theorem Parks.concat
    {parked : List (Expr × Operator)} {sum : Option (Expr × Operator)}
    (h : Parks parked sum)
    (product : Expr)
    (op : Operator) :
    Parks (parked ++ [(product, op)]) (some (Run.total ⟨sum, product⟩, op)) := by
  intro position
  have htotal : join (sum.map Prod.fst) (sum.map Prod.snd) product position =
      .ok (Run.total ⟨sum, product⟩) := by
    have := h.total product position
    rwa [h position, ok_bind] at this
  have hbefore := h position
  rw [gather] at hbefore ⊢
  rw [List.foldlM_append, hbefore, ok_bind, List.foldlM_cons, htotal]
  rfl

theorem Stands.add
    {draft : Draft} {gap : Gap}
    (h : Stands draft (.waiting gap))
    (e : Expr)
    (position : Nat) :
    ∃ next, draft.add e position = .ok next ∧ Stands next (.complete (gap.fill e)) := by
  cases h with
  | first =>
      exact ⟨_, rfl, .complete parks_nil⟩
  | term h =>
      exact ⟨_, rfl, .complete h⟩
  | factor h =>
      exact ⟨_, rfl, .complete h⟩

theorem Stands.operate
    {draft : Draft} {run : Run}
    (h : Stands draft (.complete run))
    (op : Operator)
    (position : Nat) :
    ∃ next, draft.operate op position = .ok next ∧ Stands next (.waiting (run.extend op)) := by
  cases h with
  | complete h =>
      cases op with
      | add | subtract =>
          exact ⟨_, rfl, .term (h.concat _ _)⟩
      | multiply =>
          exact ⟨_, rfl, .factor h⟩

theorem Stands.finish
    {draft : Draft} {run : Run}
    (h : Stands draft (.complete run))
    (position : Nat) :
    draft.finish position = .ok run.total := by
  cases h with
  | complete h =>
      exact h.total _ position

end Drafts

section Places

/-- What was read last in a group. -/
def last : Group → Last
  | .waiting .first => .nothing
  | .waiting (.term ..) | .waiting (.factor ..) => .operator
  | .complete _ => .operand

/-- Where the reading stands. -/
def place (p : Progress) : Place :=
  ⟨p.position, p.depth, last p.group⟩

variable {position : Nat} {outer : List Gap}

theorem pass_operand_of_waiting
    (gap : Gap)
    (left : Last) :
    (place ⟨position, outer, .waiting gap⟩).pass .operand left =
      .ok ⟨position + 1, outer.length, left⟩ := by
  cases gap <;> rfl

end Places

section Agreement

/-- Reads tokens from a progress to the end. -/
def runFrom (p : Progress) (tokens : List Token) : Logged Expr := do
  let q ← tokens.foldlM step p
  Logged.lift q.finish

/-- Goes on with the groups around a group that has ended. -/
def resume (outer : List Gap) {n : Nat} (ended : Ended n) : Logged Expr :=
  match outer with
  | gap :: outer =>
      if ended.place.depth = outer.length then
        runFrom ⟨ended.place.position, outer, .complete (gap.fill ended.tree)⟩ ended.rest
      else Logged.fail (.grammar .missingClosing ended.place.position)
  | [] =>
      if ended.place.depth = 0 then pure ended.tree
      else Logged.fail (.grammar .missingClosing ended.place.position)

theorem runFrom_cons
    (p : Progress)
    (token : Token)
    (rest : List Token) :
    runFrom p (token :: rest) = p.step token >>= fun q => runFrom q rest := by
  simp only [runFrom, List.foldlM_cons, bind_assoc]

theorem resume_weaken
    (outer : List Gap)
    {m n : Nat}
    (ended : Ended m)
    (h : m ≤ n) :
    resume outer (ended.weaken h) = resume outer ended := by
  cases outer <;> rfl

/-- While the place has more brackets open than there are groups, nothing can be resumed. -/
theorem resume_of_lt
    {outer : List Gap} {n : Nat} {ended : Ended n}
    (h : outer.length < ended.place.depth) :
    resume outer ended = Logged.fail (.grammar .missingClosing ended.place.position) := by
  cases outer with
  | nil =>
      exact if_neg (by simp at h; omega)
  | cons gap outer =>
      exact if_neg (by simp at h; omega)

variable {draft : Draft} {p : Progress} {rest : List Token}

theorem runFrom_nil_eq (h : Stands draft p.group) :
    runFrom p [] = readGroup draft (place p) [] >>= resume p.outer := by
  obtain ⟨position, outer, group⟩ := p
  rw [readGroup]
  cases group with
  | waiting gap =>
      cases h <;> rfl
  | complete run =>
      rw [show (place ⟨position, outer, .complete run⟩).position = position from rfl,
        h.finish position]
      cases outer with
      | nil =>
          rfl
      | cons gap outer =>
          exact (if_neg (Nat.succ_ne_self outer.length)).symm

/-- Both readers take an operand alike. -/
theorem operand_eq
    (h : Stands draft p.group)
    (e : Expr)
    (ih : ∀ after q,
      Stands after q.group →
      runFrom q rest = readGroup after (place q) rest >>= resume q.outer) :
    (p.operand e >>= fun q => runFrom q rest) =
      Logged.lift ((place p).pass .operand .operand) >>= fun next =>
        Logged.lift (draft.add e p.position) >>= fun after =>
          readGroup after next rest >>= resume p.outer := by
  obtain ⟨position, outer, group⟩ := p
  cases group with
  | complete run =>
      rfl
  | waiting gap =>
      obtain ⟨after, hafter, hstands⟩ := h.add e position
      rw [pass_operand_of_waiting, hafter]
      exact ih after ⟨position + 1, outer, .complete (gap.fill e)⟩ hstands

theorem operator_of_fresh
    (h : Stands draft p.group)
    (hfresh : draft.fresh = true)
    (op : Operator) :
    p.operator op = p.refuse .leadingOperator := by
  obtain ⟨position, outer, group⟩ := p
  cases h with
  | first =>
      rfl
  | term _ | factor _ | complete _ =>
      cases hfresh

/-- Both readers take an operator alike. -/
theorem operator_eq
    (h : Stands draft p.group)
    (hfresh : ¬ draft.fresh = true)
    (op : Operator)
    (ih : ∀ after q,
      Stands after q.group →
      runFrom q rest = readGroup after (place q) rest >>= resume q.outer) :
    (p.operator op >>= fun q => runFrom q rest) =
      Logged.lift ((place p).pass .operator .operator) >>= fun next =>
        Logged.lift (draft.operate op p.position) >>= fun after =>
          readGroup after next rest >>= resume p.outer := by
  obtain ⟨position, outer, group⟩ := p
  cases group with
  | waiting gap =>
      cases h with
      | first =>
          exact absurd rfl hfresh
      | term _ | factor _ =>
          rfl
  | complete run =>
      obtain ⟨after, hafter, hstands⟩ := h.operate op position
      have hplace : place ⟨position + 1, outer, .waiting (run.extend op)⟩ =
          ⟨position + 1, outer.length, .operator⟩ := by
        cases op <;> rfl
      have hrest := ih after ⟨position + 1, outer, .waiting (run.extend op)⟩ hstands
      rw [hplace] at hrest
      rw [hafter]
      exact hrest

/-- A group is read alike, and so is what follows it in the group around it. -/
theorem group_eq
    {position : Nat} {outer : List Gap} {gap : Gap}
    (h : Stands draft (.waiting gap))
    (ihInner :
      runFrom ⟨position + 1, gap :: outer, .waiting .first⟩ rest =
        readGroup .start ⟨position + 1, outer.length + 1, .nothing⟩ rest >>=
          resume (gap :: outer))
    (ihOuter : ∀ (group : Ended rest.length) after q,
      Stands after q.group →
      place q = group.place →
      runFrom q group.rest = readGroup after group.place group.rest >>= resume q.outer) :
    runFrom ⟨position + 1, gap :: outer, .waiting .first⟩ rest =
      readGroup .start ⟨position + 1, outer.length + 1, .nothing⟩ rest >>= fun group =>
        Logged.lift (draft.add group.tree position) >>= fun after =>
          readGroup after group.place group.rest >>= resume outer := by
  rw [ihInner]
  apply bind_congr_of_ok
  intro group hgroup
  have hends : Ends outer.length group :=
    ends_of_readGroup (Nat.lt_succ_self _) (fun _ => rfl) hgroup
  obtain ⟨after, hafter, hstands⟩ := h.add group.tree position
  rw [hafter, lift_ok_bind]
  cases hends with
  | @closed tree last rest shorter =>
      have hrest :=
        ihOuter ⟨tree, ⟨last, outer.length, .operand⟩, rest, shorter⟩ after
          ⟨last, outer, .complete (gap.fill tree)⟩ hstands rfl
      exact (if_pos rfl).trans hrest
  | @exhausted tree here _ hdepth =>
      -- The brackets of the group and of those around it are all still open.
      have hinner :
          resume (gap :: outer) (⟨tree, here, [], Nat.zero_le _⟩ : Ended rest.length) =
            Logged.fail (.grammar .missingClosing here.position) :=
        if_neg (Nat.ne_of_gt hdepth)
      have houter :
          resume outer (⟨(gap.fill tree).total, here, [], Nat.zero_le _⟩ : Ended 0) =
            Logged.fail (.grammar .missingClosing here.position) :=
        resume_of_lt hdepth
      rw [readGroup, hstands.finish, hinner]
      exact houter.symm

theorem opening_of_full
    {position : Nat} {outer : List Gap} {gap : Gap}
    (hfull : outer.length = Grammar.depthLimit) :
    opening ⟨position, outer, .waiting gap⟩ = Logged.fail (.grammar .tooDeep position) :=
  if_pos hfull

theorem opening_of_room
    {position : Nat} {outer : List Gap} {gap : Gap}
    (hroom : outer.length ≠ Grammar.depthLimit) :
    opening ⟨position, outer, .waiting gap⟩ =
      Logged.note (.entering position) >>= fun _ =>
        pure ⟨position + 1, gap :: outer, .waiting .first⟩ :=
  if_neg hroom

/-- Both readers enter a group alike, or refuse to. -/
theorem opening_eq
    (h : Stands draft p.group)
    (ihInner : ∀ next q,
      Stands .start q.group →
      place q = ⟨next, p.depth + 1, .nothing⟩ →
      runFrom q rest =
        readGroup .start ⟨next, p.depth + 1, .nothing⟩ rest >>= resume q.outer)
    (ihOuter : ∀ (group : Ended rest.length) after q,
      Stands after q.group →
      place q = group.place →
      runFrom q group.rest = readGroup after group.place group.rest >>= resume q.outer) :
    runFrom p (.opening :: rest) =
      readGroup draft (place p) (.opening :: rest) >>= resume p.outer := by
  obtain ⟨position, outer, group⟩ := p
  rw [runFrom_cons, readGroup]
  cases group with
  | complete run =>
      rfl
  | waiting gap =>
      have hdepth : (place ⟨position, outer, .waiting gap⟩).depth = outer.length := by
        rfl
      rw [pass_operand_of_waiting, lift_ok_bind, step]
      by_cases hfull : outer.length = Grammar.depthLimit
      · rw [opening_of_full hfull, if_pos (hdepth.trans hfull)]
        rfl
      · rw [opening_of_room hfull, if_neg (hdepth ▸ hfull)]
        simp only [bind_assoc, pure_bind, resume_weaken]
        have hinner :=
          ihInner (position + 1) ⟨position + 1, gap :: outer, .waiting .first⟩ .first rfl
        have hgroup := group_eq h hinner ihOuter
        exact congrArg (fun x => Logged.note (.entering position) >>= fun _ => x) hgroup

/-- Both readers leave a group alike, or refuse to. -/
theorem closing_eq (h : Stands draft p.group) :
    runFrom p (.closing :: rest) =
      readGroup draft (place p) (.closing :: rest) >>= resume p.outer := by
  obtain ⟨position, outer, group⟩ := p
  rw [runFrom_cons, readGroup]
  cases group with
  | waiting gap =>
      cases h with
      | first =>
          cases outer <;> rfl
      | term _ | factor _ =>
          rfl
  | complete run =>
      cases outer with
      | nil =>
          rfl
      | cons gap outer =>
          have hpass :
              (place ⟨position, gap :: outer, .complete run⟩).pass .operator .operand =
                .ok ⟨position + 1, outer.length + 1, .operand⟩ := by
            rfl
          have hdepth : (place ⟨position, gap :: outer, .complete run⟩).depth ≠ 0 :=
            Nat.succ_ne_zero outer.length
          rw [hpass, lift_ok_bind, if_neg hdepth]
          simp only [bind_assoc, h.finish, lift_ok_bind, pure_bind]
          exact congrArg (fun x => Logged.note (.leaving position) >>= fun _ => x)
            (if_pos rfl).symm

/-- To read on from a group is to read the group and then to go on with those around it. -/
theorem runFrom_eq_readGroup
    (h : Stands draft p.group)
    (tokens : List Token) :
    runFrom p tokens = readGroup draft (place p) tokens >>= resume p.outer := by
  -- The induction follows the calls of `readGroup`, which start from places of all kinds.
  generalize hplace : place p = here
  induction draft, here, tokens using readGroup.induct generalizing p with
  | case1 draft here =>
      subst hplace
      exact runFrom_nil_eq h
  | case2 draft here rest n ih | case3 draft here rest n ih =>
      subst hplace
      rw [runFrom_cons, readGroup]
      simp only [leaf, lift_ok_bind, bind_assoc, pure_bind, resume_weaken]
      exact operand_eq h _ fun after q hq => ih _ after hq rfl
  | case4 draft here rest op hfresh =>
      subst hplace
      rw [runFrom_cons, readGroup, if_pos hfresh, step, operator_of_fresh h hfresh]
      rfl
  | case5 draft here rest op hfresh ih =>
      subst hplace
      rw [runFrom_cons, readGroup, if_neg hfresh]
      simp only [bind_assoc, pure_bind, resume_weaken]
      exact operator_eq h hfresh op fun after q hq => ih _ after hq rfl
  | case6 draft here rest ihInner ihOuter =>
      subst hplace
      exact
        opening_eq h (fun next _ => ihInner ⟨next, p.depth, .nothing⟩)
          fun group after _ => ihOuter group after
  | case7 draft here rest =>
      subst hplace
      exact closing_eq h

/-- The two readers make the same records and have the same outcome. -/
theorem readTokens_eq (tokens : List Token) :
    readTokens tokens = Expr.readTokens tokens := by
  have hrun : Expr.readTokens tokens = readGroup .start .start tokens >>= resume [] :=
    runFrom_eq_readGroup (p := .start) .first tokens
  rw [hrun, readTokens]
  rfl

end Agreement

end Nested
end Reckoner
