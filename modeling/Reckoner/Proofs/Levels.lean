import Mathlib.Logic.Relation
import Reckoner.Proofs.Nested

/-!
# Levels of the nested reading

The reading group by group is a loop that calls itself at every opening bracket.  All its loops
move one cursor and count the open brackets in one place, so a loop finds both changed when a
call of it returns.  Here the loops are taken apart: a frame is a loop that is about to look at
the next token, together with the number of loops that wait for it, and a look is everything
that happens before the loop goes on, calls itself or ends.

As long as tokens are left, the open brackets are as many as the waiting loops.  A group that
ends with the tokens leaves its bracket open, and the equality is lost; but then no loop around
it has anything left to look at.  This is what makes the invariant hold across the return of a
call, whatever the reason for it.

**Results.**
* `read_eq`: a reading is a look and what follows from it.
* `seen_of_look`: what a look can come to.
* `wellFounded_move`: no reading goes on for ever.
* `Sound.move`: a turn and a call both keep the invariant.
* `levels_of_reading`: the number of open brackets is the level and is never beyond the limit,
  the cursor advances, a loop ends in one of two ways, and the reading comes to an end.
-/

namespace Reckoner
namespace Nested

open Logged

section Frames

/-- What a group comes to: its expression, the place behind it, and the tokens that are left. -/
structure Ending where
  tree : Expr
  place : Place
  rest : List Token

/-- The same without the bound on the tokens that are left. -/
def Ended.ending {n : Nat} (ended : Ended n) : Ending :=
  ⟨ended.tree, ended.place, ended.rest⟩

/-- A loop that is about to look at the next token. -/
structure Frame where
  /-- The number of loops that wait for this one to end. -/
  level : Nat
  draft : Draft
  place : Place
  /-- The tokens that are left. -/
  tokens : List Token

/-- What a look comes to. -/
inductive Look where
  /-- The loop goes on. -/
  | further (next : Frame)
  /-- The loop calls itself. -/
  | inward (inner : Frame)
  /-- The loop ends. -/
  | outward (ending : Ending)

namespace Frame

/-- The outermost loop before the first token. -/
def start (tokens : List Token) : Frame :=
  ⟨0, .start, .start, tokens⟩

/-- Looks at the next token. -/
def look (f : Frame) : Except Failure Look :=
  match f.tokens with
  | [] => do
      let tree ← f.draft.finish f.place.position
      return .outward ⟨tree, f.place, []⟩
  | token :: rest =>
      match token with
      | .constant _ | .letter _ => do
          let next ← f.place.pass .operand .operand
          let e ← leaf token f.place.position
          let after ← f.draft.add e f.place.position
          return .further ⟨f.level, after, next, rest⟩
      | .operator op =>
          if f.draft.fresh then .error (.grammar .leadingOperator f.place.position)
          else do
            let next ← f.place.pass .operator .operator
            let after ← f.draft.operate op f.place.position
            return .further ⟨f.level, after, next, rest⟩
      | .opening => do
          let next ← f.place.pass .operand .nothing
          if f.place.depth = Grammar.depthLimit then
            .error (.grammar .tooDeep f.place.position)
          else return .inward ⟨f.level + 1, .start, { next with depth := f.place.depth + 1 }, rest⟩
      | .closing => do
          let next ← f.place.pass .operator .operand
          if f.place.depth = 0 then .error (.grammar .unmatchedClosing f.place.position)
          else do
            let tree ← f.draft.finish next.position
            return .outward ⟨tree, { next with depth := f.place.depth - 1 }, rest⟩

/-- Reads on to the end of the group. -/
def read (f : Frame) : Except Failure Ending := do
  let ended ← (readGroup f.draft f.place f.tokens).outcome
  return ended.ending

/-- What follows from a look. -/
def follow (f : Frame) : Look → Except Failure Ending
  | .further next => next.read
  | .inward inner => do
      let group ← inner.read
      let after ← f.draft.add group.tree f.place.position
      read ⟨f.level, after, group.place, group.rest⟩
  | .outward ending => .ok ending

end Frame

/-- One turn of a loop, from one look of it to the next.  A call that is made on the way has
returned. -/
inductive Turn (f : Frame) : Frame → Prop
  | further
      {next : Frame}
      (hlook : f.look = .ok (.further next)) :
      Turn f next
  | group
      {inner : Frame} {ending : Ending} {after : Draft}
      (hlook : f.look = .ok (.inward inner))
      (hread : inner.read = .ok ending)
      (hadd : f.draft.add ending.tree f.place.position = .ok after) :
      Turn f ⟨f.level, after, ending.place, ending.rest⟩

/-- From one look to the next one, of the same loop or of the one that it calls. -/
inductive Move (f : Frame) : Frame → Prop
  | turn {g : Frame} (h : Turn f g) : Move f g
  | call {inner : Frame} (hlook : f.look = .ok (.inward inner)) : Move f inner

/-- The looks that a loop itself takes. -/
abbrev Turns : Frame → Frame → Prop :=
  Relation.ReflTransGen Turn

/-- All the looks that the reading from a frame takes. -/
abbrev Reaches : Frame → Frame → Prop :=
  Relation.ReflTransGen Move

end Frames

section Looks

/-- To read is to look and to do what follows. -/
theorem read_eq (f : Frame) : f.read = f.look >>= f.follow := by
  obtain ⟨level, draft, place, tokens⟩ := f
  cases tokens with
  | nil =>
      simp only [Frame.read, Frame.look, readGroup, outcome_bind, outcome_lift, bind_assoc]
      rfl
  | cons token rest =>
      cases token with
      | constant n | letter v =>
          simp only [Frame.read, Frame.look, readGroup, outcome_bind, outcome_lift, bind_assoc]
          rfl
      | operator op =>
          by_cases hfresh : draft.fresh = true
          · simp only [Frame.read, Frame.look, readGroup, if_pos hfresh, outcome_fail, error_bind]
          · simp only [Frame.read, Frame.look, readGroup, if_neg hfresh, outcome_bind,
              outcome_lift, bind_assoc]
            rfl
      | opening =>
          by_cases hfull : place.depth = Grammar.depthLimit
          · simp only [Frame.read, Frame.look, readGroup, if_pos hfull, outcome_bind, outcome_lift,
              outcome_fail, bind_assoc, error_bind]
          · simp only [Frame.read, Frame.look, Frame.follow, readGroup, if_neg hfull, outcome_bind,
              outcome_lift, outcome_note, ok_bind, bind_assoc, pure_bind]
            rfl
      | closing =>
          by_cases hzero : place.depth = 0
          · simp only [Frame.read, Frame.look, readGroup, if_pos hzero, outcome_bind, outcome_lift,
              outcome_fail, bind_assoc, error_bind]
          · simp only [Frame.read, Frame.look, readGroup, if_neg hzero, outcome_bind,
              outcome_lift, outcome_note, ok_bind, bind_assoc]
            rfl

/-- What a look can come to.  The cursor passes the token that is looked at, and only brackets
change the number of open brackets. -/
inductive Seen : Frame → Look → Prop
  | further
      {level : Nat} {draft after : Draft} {place : Place} {last : Last}
      {token : Token} {rest : List Token} :
      Seen ⟨level, draft, place, token :: rest⟩
        (.further ⟨level, after, ⟨place.position + 1, place.depth, last⟩, rest⟩)
  | inward
      {level : Nat} {draft : Draft} {place : Place} {rest : List Token}
      (hroom : place.depth ≠ Grammar.depthLimit) :
      Seen ⟨level, draft, place, .opening :: rest⟩
        (.inward ⟨level + 1, .start, ⟨place.position + 1, place.depth + 1, .nothing⟩, rest⟩)
  | exhausted
      {level : Nat} {draft : Draft} {place : Place} {tree : Expr} :
      Seen ⟨level, draft, place, []⟩ (.outward ⟨tree, place, []⟩)
  | closed
      {level : Nat} {draft : Draft} {place : Place} {tree : Expr} {rest : List Token}
      (hopen : place.depth ≠ 0) :
      Seen ⟨level, draft, place, .closing :: rest⟩
        (.outward ⟨tree, ⟨place.position + 1, place.depth - 1, .operand⟩, rest⟩)

theorem seen_of_look
    {f : Frame} {look : Look}
    (h : f.look = .ok look) :
    Seen f look := by
  obtain ⟨level, draft, place, tokens⟩ := f
  cases tokens with
  | nil =>
      obtain ⟨tree, _, h⟩ := bind_eq_ok_iff.1 h
      cases h
      exact .exhausted
  | cons token rest =>
      cases token with
      | constant n | letter v =>
          obtain ⟨next, hnext, h⟩ := bind_eq_ok_iff.1 h
          obtain ⟨e, _, h⟩ := bind_eq_ok_iff.1 h
          obtain ⟨after, _, h⟩ := bind_eq_ok_iff.1 h
          cases h
          cases pass_eq_ok hnext
          exact .further
      | operator op =>
          simp only [Frame.look] at h
          split at h
          · cases h
          obtain ⟨next, hnext, h⟩ := bind_eq_ok_iff.1 h
          obtain ⟨after, _, h⟩ := bind_eq_ok_iff.1 h
          cases h
          cases pass_eq_ok hnext
          exact .further
      | opening =>
          obtain ⟨next, hnext, h⟩ := bind_eq_ok_iff.1 h
          split at h
          · cases h
          · next hroom =>
              cases h
              cases pass_eq_ok hnext
              exact .inward hroom
      | closing =>
          obtain ⟨next, hnext, h⟩ := bind_eq_ok_iff.1 h
          split at h
          · cases h
          · next hopen =>
              obtain ⟨tree, _, h⟩ := bind_eq_ok_iff.1 h
              cases h
              cases pass_eq_ok hnext
              exact .closed hopen

end Looks

section Cursor

/-- The cursor goes over the tokens `read`, and `rest` is left. -/
structure Passes
    (read : List Token)
    (here : Place) (tokens : List Token)
    (there : Place) (rest : List Token) : Prop where
  tokens_eq : tokens = read ++ rest
  position_eq : there.position = here.position + read.length

theorem Passes.refl
    (here : Place)
    (tokens : List Token) :
    Passes [] here tokens here tokens :=
  ⟨rfl, rfl⟩

theorem Passes.trans
    {first second tokens middle rest : List Token} {here between there : Place}
    (hfirst : Passes first here tokens between middle)
    (hsecond : Passes second between middle there rest) :
    Passes (first ++ second) here tokens there rest := by
  obtain ⟨rfl, hbetween⟩ := hfirst
  obtain ⟨rfl, hthere⟩ := hsecond
  refine ⟨(List.append_assoc first second rest).symm, ?_⟩
  rw [hthere, hbetween, List.length_append, Nat.add_assoc]

theorem passes_of_look_further
    {f g : Frame}
    (h : f.look = .ok (.further g)) :
    ∃ token, Passes [token] f.place f.tokens g.place g.tokens := by
  cases seen_of_look h with
  | @further _ _ _ _ _ token =>
      exact ⟨token, rfl, rfl⟩

theorem passes_of_look_inward
    {f inner : Frame}
    (h : f.look = .ok (.inward inner)) :
    Passes [.opening] f.place f.tokens inner.place inner.tokens := by
  cases seen_of_look h with
  | inward _ =>
      exact ⟨rfl, rfl⟩

theorem passes_of_look_outward
    {f : Frame} {ending : Ending}
    (h : f.look = .ok (.outward ending)) :
    ∃ read, Passes read f.place f.tokens ending.place ending.rest := by
  cases seen_of_look h with
  | exhausted =>
      exact ⟨[], rfl, rfl⟩
  | closed _ =>
      exact ⟨[.closing], rfl, rfl⟩

/-- A group is read up to where the cursor stands behind it. -/
theorem passes_of_read
    {f : Frame} {ending : Ending}
    (h : f.read = .ok ending) :
    ∃ read, Passes read f.place f.tokens ending.place ending.rest := by
  -- The induction is on the number of tokens: a call leaves fewer of them to the loop behind it.
  induction hlength : f.tokens.length using Nat.strongRecOn generalizing f ending with
  | _ n ih =>
      rw [read_eq] at h
      obtain ⟨look, hlook, h⟩ := bind_eq_ok_iff.1 h
      have hshorter :
          ∀ {token read rest} {place : Place},
            Passes (token :: read) f.place f.tokens place rest → rest.length < n := by
        rintro token read rest place ⟨htokens, _⟩
        simp only [← hlength, htokens, List.length_append, List.length_cons]
        omega
      cases look with
      | further next =>
          obtain ⟨token, hnext⟩ := passes_of_look_further hlook
          obtain ⟨read, hrest⟩ := ih _ (hshorter hnext) h rfl
          exact ⟨_, hnext.trans hrest⟩
      | inward inner =>
          obtain ⟨group, hgroup, h⟩ := bind_eq_ok_iff.1 h
          obtain ⟨after, _, h⟩ := bind_eq_ok_iff.1 h
          have hinner := passes_of_look_inward hlook
          obtain ⟨inside, hinside⟩ := ih _ (hshorter hinner) hgroup rfl
          have hbehind := hinner.trans hinside
          obtain ⟨read, hrest⟩ := ih _ (hshorter hbehind) h rfl
          exact ⟨_, hbehind.trans hrest⟩
      | outward ending =>
          cases h
          exact passes_of_look_outward hlook

/-- Every move of the reading is over some token. -/
theorem Move.passes
    {f g : Frame}
    (h : Move f g) :
    ∃ token read, Passes (token :: read) f.place f.tokens g.place g.tokens := by
  cases h with
  | call hlook =>
      exact ⟨.opening, [], passes_of_look_inward hlook⟩
  | turn h =>
      cases h with
      | further hlook =>
          obtain ⟨token, hnext⟩ := passes_of_look_further hlook
          exact ⟨token, [], hnext⟩
      | group hlook hread _ =>
          obtain ⟨inside, hinside⟩ := passes_of_read hread
          exact ⟨.opening, inside, (passes_of_look_inward hlook).trans hinside⟩

theorem Move.position_lt
    {f g : Frame}
    (h : Move f g) :
    f.place.position < g.place.position := by
  obtain ⟨token, read, _, hposition⟩ := h.passes
  rw [hposition, List.length_cons]
  omega

theorem Move.length_lt
    {f g : Frame}
    (h : Move f g) :
    g.tokens.length < f.tokens.length := by
  obtain ⟨token, read, htokens, _⟩ := h.passes
  rw [htokens, List.length_append, List.length_cons]
  omega

/-- No reading goes on for ever. -/
theorem wellFounded_move : WellFounded fun g f : Frame => Move f g :=
  Subrelation.wf Move.length_lt (measure fun f : Frame => f.tokens.length).wf

end Cursor

section Turns

theorem Turn.level_eq
    {f g : Frame}
    (h : Turn f g) :
    g.level = f.level := by
  cases h with
  | further hlook =>
      cases seen_of_look hlook with
      | further =>
          rfl
  | group _ _ _ =>
      rfl

theorem level_eq_of_look_inward
    {f inner : Frame}
    (h : f.look = .ok (.inward inner)) :
    inner.level = f.level + 1 := by
  cases seen_of_look h with
  | inward _ =>
      rfl

theorem reaches_of_turns
    {f g : Frame}
    (h : Turns f g) :
    Reaches f g :=
  h.lift id fun _ _ => .turn

theorem level_eq_of_turns
    {f g : Frame}
    (h : Turns f g) :
    g.level = f.level := by
  induction h with
  | refl =>
      rfl
  | tail _ hturn ih =>
      exact hturn.level_eq.trans ih

/-- A turn of its loop does not change what a group comes to. -/
theorem Turn.read_eq
    {f g : Frame}
    (h : Turn f g) :
    f.read = g.read := by
  rw [Nested.read_eq f]
  cases h with
  | further hlook =>
      rw [hlook]
      rfl
  | group hlook hread hadd =>
      rw [hlook, ok_bind, Frame.follow, hread, ok_bind, hadd]
      rfl

/-- The loop of a group that can be read ends with this look, or there is another turn of it. -/
theorem ends_or_turns
    {f : Frame} {ending : Ending}
    (h : f.read = .ok ending) :
    f.look = .ok (.outward ending) ∨ ∃ g, Turn f g := by
  rw [read_eq] at h
  obtain ⟨look, hlook, h⟩ := bind_eq_ok_iff.1 h
  cases look with
  | further next =>
      exact .inr ⟨next, .further hlook⟩
  | inward inner =>
      obtain ⟨group, hread, h⟩ := bind_eq_ok_iff.1 h
      obtain ⟨after, hadd, _⟩ := bind_eq_ok_iff.1 h
      exact .inr ⟨_, .group hlook hread hadd⟩
  | outward other =>
      cases h
      exact .inl hlook

/-- A group is read in turns of its loop and by the look that ends it. -/
theorem read_eq_ok_iff
    {f : Frame} {ending : Ending} :
    f.read = .ok ending
      ↔
    ∃ last, Turns f last ∧ last.look = .ok (.outward ending) := by
  constructor
  · intro h
    induction f using wellFounded_move.induction with
    | _ f ih =>
        rcases ends_or_turns h with hlook | ⟨g, hturn⟩
        · exact ⟨f, .refl, hlook⟩
        · obtain ⟨last, hturns, hlast⟩ := ih g (.turn hturn) (hturn.read_eq ▸ h)
          exact ⟨last, .head hturn hturns, hlast⟩
  · rintro ⟨last, hturns, hlast⟩
    induction hturns using Relation.ReflTransGen.head_induction_on with
    | refl =>
        rw [read_eq, hlast]
        rfl
    | head hturn _ ih =>
        exact hturn.read_eq.trans ih

end Turns

section Invariant

/-- What holds of every loop that is about to look at the next one of the tokens. -/
structure Sound (tokens : List Token) (f : Frame) : Prop where
  bounded : f.level ≤ Grammar.depthLimit
  /-- The bracket of every waiting loop is open. -/
  enclosed : f.level ≤ f.place.depth
  /-- Other brackets can be open only if their groups have ended with the tokens. -/
  current : f.tokens ≠ [] → f.place.depth = f.level
  cursor : ∃ read, Passes read .start tokens f.place f.tokens

variable {tokens : List Token} {f g : Frame}

theorem sound_start (tokens : List Token) : Sound tokens (.start tokens) where
  bounded := Nat.zero_le _
  enclosed := Nat.le_refl _
  current _ := rfl
  cursor := ⟨[], .refl .start tokens⟩

/-- A call is made while tokens are left, so its level is the number of open brackets. -/
theorem Sound.call
    (h : Sound tokens f)
    (hlook : f.look = .ok (.inward g)) :
    Sound tokens g := by
  obtain ⟨read, hread⟩ := h.cursor
  have hcursor := hread.trans (passes_of_look_inward hlook)
  cases seen_of_look hlook with
  | @inward level _ place rest hroom =>
      have hcurrent : place.depth = level := h.current (List.cons_ne_nil _ _)
      have hbounded : level ≤ Grammar.depthLimit := h.bounded
      refine ⟨?_, ?_, ?_, _, hcursor⟩
      · show level + 1 ≤ Grammar.depthLimit
        omega
      · show level + 1 ≤ place.depth + 1
        omega
      · intro _
        exact congrArg (· + 1) hcurrent

/-- A group inside others ends at its own bracket, or with the tokens and still open. -/
theorem ends_of_read
    {ending : Ending}
    (h : Sound tokens f)
    (hlevel : 0 < f.level)
    (hread : f.read = .ok ending) :
    ending.place.depth = f.level - 1 ∨ (f.level ≤ ending.place.depth ∧ ending.rest = []) := by
  obtain ⟨ended, hended, hread⟩ := bind_eq_ok_iff.1 hread
  cases hread
  have hopen : f.level - 1 < f.place.depth := by
    have := h.enclosed
    omega
  have hinHand : f.tokens ≠ [] → f.place.depth = f.level - 1 + 1 := by
    intro htokens
    have := h.current htokens
    omega
  cases ends_of_readGroup hopen hinHand hended with
  | closed =>
      exact .inl rfl
  | @exhausted _ place _ hdepth =>
      have hstill : f.level ≤ place.depth := by
        omega
      exact .inr ⟨hstill, rfl⟩

theorem Sound.turn
    (h : Sound tokens f)
    (hturn : Turn f g) :
    Sound tokens g := by
  obtain ⟨read, hread⟩ := h.cursor
  obtain ⟨token, passed, hpassed⟩ := (Move.turn hturn).passes
  have hcursor := hread.trans hpassed
  cases hturn with
  | further hlook =>
      cases seen_of_look hlook with
      | further =>
          have hcurrent := h.current (List.cons_ne_nil _ _)
          exact ⟨h.bounded, h.enclosed, fun _ => hcurrent, _, hcursor⟩
  | @group inner ending after hlook hgroup _ =>
      have hinner : Sound tokens inner := h.call hlook
      have hlevel : inner.level = f.level + 1 := level_eq_of_look_inward hlook
      have hends := ends_of_read hinner (hlevel ▸ Nat.succ_pos _) hgroup
      rw [hlevel, Nat.add_sub_cancel] at hends
      rcases hends with hdepth | ⟨hdepth, hrest⟩
      · exact ⟨h.bounded, Nat.le_of_eq hdepth.symm, fun _ => hdepth, _, hcursor⟩
      · exact ⟨h.bounded, Nat.le_of_succ_le hdepth, fun hmore => absurd hrest hmore, _, hcursor⟩

theorem Sound.move
    (h : Sound tokens f)
    (hmove : Move f g) :
    Sound tokens g := by
  cases hmove with
  | turn hturn =>
      exact h.turn hturn
  | call hlook =>
      exact h.call hlook

theorem sound_of_reaches
    (h : Reaches (.start tokens) f) :
    Sound tokens f := by
  induction h with
  | refl =>
      exact sound_start tokens
  | tail _ hmove ih =>
      exact ih.move hmove

/-- A loop ends with the tokens, or at a bracket that one of the calls has opened. -/
theorem Sound.outward
    {ending : Ending}
    (h : Sound tokens f)
    (hlook : f.look = .ok (.outward ending)) :
    (f.tokens = [] ∧ ending.rest = [] ∧ ending.place = f.place) ∨
      (0 < f.level ∧
        f.tokens = .closing :: ending.rest ∧
        ending.place = ⟨f.place.position + 1, f.level - 1, .operand⟩) := by
  cases seen_of_look hlook with
  | exhausted =>
      exact .inl ⟨rfl, rfl, rfl⟩
  | @closed level _ place _ _ hopen =>
      have hcurrent : place.depth = level := h.current (List.cons_ne_nil _ _)
      refine .inr ⟨Nat.pos_of_ne_zero (hcurrent ▸ hopen), rfl, ?_⟩
      rw [hcurrent]

end Invariant

section Levels

/-- A list is read by the outermost loop, and then all brackets have to be closed. -/
theorem ofTokens_eq_read (tokens : List Token) :
    Expr.ofTokens tokens =
      (Frame.start tokens).read >>= fun ending =>
        if ending.place.depth = 0 then .ok ending.tree
        else .error (.grammar .missingClosing ending.place.position) := by
  rw [Expr.ofTokens, ← readTokens_eq, readTokens, outcome_bind, Frame.read, bind_assoc]
  apply bind_congr
  intro ended
  show Logged.outcome (if ended.place.depth = 0 then _ else _) =
    if ended.place.depth = 0 then _ else _
  split
  · rfl
  · rfl

/-- A loop that ends has turned until it came to the tokens' end or to its own bracket. -/
theorem ends_of_reaches
    {tokens : List Token} {f : Frame} {ending : Ending}
    (h : Reaches (.start tokens) f)
    (hread : f.read = .ok ending) :
    ∃ last,
      Turns f last ∧
      last.look = .ok (.outward ending) ∧
      ((last.tokens = [] ∧ ending.rest = [] ∧ ending.place = last.place) ∨
        (0 < f.level ∧
          last.tokens = .closing :: ending.rest ∧
          ending.place = ⟨last.place.position + 1, f.level - 1, .operand⟩)) := by
  obtain ⟨last, hturns, hlast⟩ := read_eq_ok_iff.1 hread
  have hsound : Sound tokens last := sound_of_reaches (h.trans (reaches_of_turns hturns))
  refine ⟨last, hturns, hlast, ?_⟩
  rw [← level_eq_of_turns hturns]
  exact hsound.outward hlast

/-- Whatever the outermost loop ends with, all tokens have been read. -/
theorem outermost_ends
    {tokens : List Token} {ending : Ending}
    (h : (Frame.start tokens).read = .ok ending) :
    ending.rest = [] ∧ ending.place.position = tokens.length := by
  have hrest : ending.rest = [] := by
    obtain ⟨last, _, _, hends⟩ := ends_of_reaches .refl h
    rcases hends with ⟨_, hrest, _⟩ | ⟨hlevel, _⟩
    · exact hrest
    · exact absurd hlevel (Nat.lt_irrefl 0)
  obtain ⟨read, htokens, hposition⟩ := passes_of_read h
  rw [hrest, List.append_nil] at htokens
  refine ⟨hrest, ?_⟩
  calc
    ending.place.position = 0 + read.length := hposition
    _ = tokens.length := by rw [Nat.zero_add, ← htokens]; rfl

/-- Let a loop be `k` calls away from the outermost one.  Whenever it looks at a token, `k`
brackets are open, and `k` is at most 256.  Everything that it does but fail moves the cursor.  If
`k` is not zero, it ends at its own closing bracket, which it takes off the open ones, or with the
tokens; and the outermost loop ends with the tokens only.

So the reading of any list comes to an end, and if it is a success, then behind the last token
and with no bracket open. -/
theorem levels_of_reading (tokens : List Token) :
    (∀ f,
      Reaches (.start tokens) f →
      f.read = f.look >>= f.follow ∧
      f.level ≤ 256 ∧
      (f.tokens ≠ [] → f.place.depth = f.level) ∧
      (∃ read, tokens = read ++ f.tokens ∧ f.place.position = read.length) ∧
      (∀ g, Turn f g → g.level = f.level ∧ f.place.position < g.place.position) ∧
      (∀ inner,
        f.look = .ok (.inward inner) →
        inner.level = f.level + 1 ∧ f.place.position < inner.place.position) ∧
      (∀ ending,
        f.read = .ok ending →
        ∃ last,
          Turns f last ∧
          last.look = .ok (.outward ending) ∧
          ((last.tokens = [] ∧ ending.rest = [] ∧ ending.place = last.place) ∨
            (0 < f.level ∧
              last.tokens = .closing :: ending.rest ∧
              ending.place = ⟨last.place.position + 1, f.level - 1, .operand⟩))))
      ∧
    (WellFounded fun g f : Frame => Move f g)
      ∧
    (∀ e,
      Expr.ofTokens tokens = .ok e
        ↔
      ∃ last, (Frame.start tokens).read = .ok ⟨e, ⟨tokens.length, 0, last⟩, []⟩) := by
  refine ⟨?_, wellFounded_move, ?_⟩
  · intro f h
    have hsound : Sound tokens f := sound_of_reaches h
    refine ⟨read_eq f, hsound.bounded, hsound.current, ?_, ?_, ?_, ?_⟩
    · obtain ⟨read, htokens, hposition⟩ := hsound.cursor
      exact ⟨read, htokens, hposition.trans (Nat.zero_add _)⟩
    · intro g hturn
      exact ⟨hturn.level_eq, (Move.turn hturn).position_lt⟩
    · intro inner hlook
      exact ⟨level_eq_of_look_inward hlook, (Move.call hlook).position_lt⟩
    · intro ending hread
      exact ends_of_reaches h hread
  · intro e
    rw [ofTokens_eq_read, bind_eq_ok_iff]
    constructor
    · rintro ⟨ending, hread, h⟩
      obtain ⟨hrest, hposition⟩ := outermost_ends hread
      split at h
      · next hdepth =>
          obtain ⟨tree, ⟨position, depth, last⟩, rest⟩ := ending
          cases h
          cases hrest
          cases hposition
          cases hdepth
          exact ⟨last, hread⟩
      · cases h
    · rintro ⟨last, hread⟩
      exact ⟨_, hread, rfl⟩

/-- A group that ends with the tokens leaves its bracket open to the loop around it. -/
theorem levels_of_reading_unclosed :
    ∃ inner outer,
      Reaches (.start [.opening, .constant 1]) inner ∧
      inner.tokens = [.constant 1] ∧
      inner.place.depth = inner.level ∧
      Reaches (.start [.opening, .constant 1]) outer ∧
      outer.tokens = [] ∧
      outer.level = 0 ∧
      outer.place.depth = 1 := by
  have hread : Frame.read ⟨1, .start, ⟨1, 1, .nothing⟩, [.constant 1]⟩ =
      .ok ⟨.literal 1, ⟨2, 1, .operand⟩, []⟩ := by
    refine read_eq_ok_iff.2
      ⟨⟨1, ⟨some (.literal 1), none, [], false⟩, ⟨2, 1, .operand⟩, []⟩, .single (.further ?_), ?_⟩
    · rfl
    · rfl
  have hinner : Reaches (.start [.opening, .constant 1])
      ⟨1, .start, ⟨1, 1, .nothing⟩, [.constant 1]⟩ :=
    .single (.call rfl)
  have houter : Reaches (.start [.opening, .constant 1])
      ⟨0, ⟨some (.literal 1), none, [], false⟩, ⟨2, 1, .operand⟩, []⟩ :=
    .single (.turn (.group rfl hread rfl))
  obtain ⟨hreached, _, _⟩ := levels_of_reading [.opening, .constant 1]
  obtain ⟨_, _, hdepth, _⟩ := hreached _ hinner
  exact ⟨_, _, hinner, rfl, hdepth (List.cons_ne_nil _ _), houter, rfl, rfl, rfl⟩

end Levels

end Nested
end Reckoner
