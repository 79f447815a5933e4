import SourceLens.Proofs.Tree.Faults

/-!
# Choosing a tree

What comes of trying a grammar is a tree or a failure (`Outcome`). Candidates are tried only up to the
first tree without errors, but the tree that is kept is the first of those with the fewest errors that
any of them would give, and there is none only where all fail (`parseBest_chosen`). By the cons equation
of the search, the best tree so far counts like an outcome in front of those to come.
-/

namespace SourceLens

/-- What comes of trying a candidate: a tree, or the failure to log. -/
abbrev Outcome := Except ParseFailure Parsed

namespace Outcome

/-- An outcome whose failure has been logged. -/
def logged : Outcome → Logged (Option Parsed)
  | .ok parsed => { value := some parsed }
  | .error failure => { value := none, failures := [failure] }

/-- Whether an outcome is a tree without errors. -/
def clean : Outcome → Bool
  | .ok parsed => !parsed.hasErrors
  | .error _ => false

def failure? : Outcome → Option ParseFailure
  | .ok _ => none
  | .error failure => some failure

@[simp] theorem clean_ok (parsed : Parsed) : clean (.ok parsed) = !parsed.hasErrors := rfl

@[simp] theorem clean_error (failure : ParseFailure) : clean (.error failure) = false := rfl

@[simp] theorem failure?_ok (parsed : Parsed) : failure? (.ok parsed) = none := rfl

@[simp] theorem failure?_error (failure : ParseFailure) :
    failure? (.error failure) = some failure := rfl

/-- A tree has the fewest errors of all outcomes, and fewer than any earlier tree. -/
def FirstLeast (outcomes : List Outcome) (parsed : Parsed) : Prop :=
  ∃ front back, outcomes = front ++ .ok parsed :: back
    ∧ (∀ earlier, .ok earlier ∈ front → parsed.errorCount < earlier.errorCount)
    ∧ ∀ later, .ok later ∈ back → parsed.errorCount ≤ later.errorCount

/-- What is chosen of all outcomes: the first tree with the fewest errors, and none only where all
fail. The failures up to the first tree without errors are logged. -/
structure Chosen (outcomes : List Outcome) (result : Logged (Option Parsed)) : Prop where
  value : ∀ parsed, result.value = some parsed ↔ FirstLeast outcomes parsed
  nothing : result.value = none ↔ ∀ outcome ∈ outcomes, ∃ failure, outcome = .error failure
  failures : result.failures = (outcomes.takeWhile (! ·.clean)).filterMap failure?

theorem not_firstLeast_nil (parsed : Parsed) : ¬FirstLeast [] parsed := by
  rintro ⟨front, back, h, -⟩
  simp at h

theorem firstLeast_cons {outcome : Outcome} {outcomes : List Outcome} {parsed : Parsed} :
    FirstLeast (outcome :: outcomes) parsed
      ↔ (outcome = .ok parsed
          ∧ ∀ later, .ok later ∈ outcomes → parsed.errorCount ≤ later.errorCount)
        ∨ FirstLeast outcomes parsed
          ∧ ∀ first, outcome = .ok first → parsed.errorCount < first.errorCount := by
  constructor
  · rintro ⟨front, back, h, hfront, hback⟩
    cases front with
    | nil =>
      obtain ⟨rfl, rfl⟩ := List.cons.inj h
      exact .inl ⟨rfl, hback⟩
    | cons first front =>
      obtain ⟨rfl, rfl⟩ := List.cons.inj h
      refine .inr ⟨⟨front, back, rfl, fun earlier hmem => ?_, hback⟩, fun earlier hfirst => ?_⟩
      · exact hfront earlier (List.mem_cons_of_mem _ hmem)
      · exact hfront earlier (hfirst ▸ List.mem_cons_self)
  · rintro (⟨rfl, hlater⟩ | ⟨⟨front, back, rfl, hfront, hback⟩, hfirst⟩)
    · exact ⟨[], outcomes, rfl, by simp, hlater⟩
    · refine ⟨outcome :: front, back, rfl, fun earlier hmem => ?_, hback⟩
      rcases List.mem_cons.1 hmem with hhere | hmem
      · exact hfirst earlier hhere.symm
      · exact hfront earlier hmem

theorem firstLeast_error {failure : ParseFailure} {outcomes : List Outcome} {parsed : Parsed} :
    FirstLeast (.error failure :: outcomes) parsed ↔ FirstLeast outcomes parsed := by
  simp [firstLeast_cons]

theorem firstLeast_of_clean {first parsed : Parsed} (h : first.errorCount = 0)
    (outcomes : List Outcome) : FirstLeast (.ok first :: outcomes) parsed ↔ parsed = first := by
  rw [firstLeast_cons]
  constructor
  · rintro (⟨hsame, -⟩ | ⟨-, hless⟩)
    · exact (Except.ok.inj hsame).symm
    · have := hless first rfl
      omega
  · rintro rfl
    exact .inl ⟨rfl, fun later _ => by omega⟩

theorem firstLeast_of_two {old new parsed : Parsed} {outcomes : List Outcome} :
    FirstLeast (.ok old :: .ok new :: outcomes) parsed
      ↔ FirstLeast (.ok (if new.errorCount < old.errorCount then new else old) :: outcomes)
          parsed := by
  have hok {a b : Parsed} : (Except.ok a : Outcome) = .ok b ↔ a = b := by simp
  simp only [firstLeast_cons, hok, List.mem_cons, forall_eq', or_imp, forall_and, forall_eq]
  split_ifs with hless
  · constructor
    · rintro (⟨rfl, hle, -⟩ | ⟨hnew, -⟩)
      · omega
      · exact hnew
    · rintro (⟨rfl, hlater⟩ | ⟨hrest, hnew⟩)
      · exact .inr ⟨.inl ⟨rfl, hlater⟩, hless⟩
      · exact .inr ⟨.inr ⟨hrest, hnew⟩, by omega⟩
  · constructor
    · rintro (⟨rfl, -, hlater⟩ | ⟨⟨rfl, -⟩ | ⟨hrest, -⟩, hold⟩)
      · exact .inl ⟨rfl, hlater⟩
      · exact absurd hold hless
      · exact .inr ⟨hrest, hold⟩
    · rintro (⟨rfl, hlater⟩ | ⟨hrest, hold⟩)
      · exact .inl ⟨rfl, by omega, hlater⟩
      · exact .inr ⟨.inr ⟨hrest, by omega⟩, hold⟩

end Outcome

namespace Parser

open Outcome

section

variable {α : Type} (outcome : α → Outcome)

theorem firstBest_cons (best : Option Parsed) (candidate : α) (rest : List α) :
    firstBest (fun c => (outcome c).logged) best (candidate :: rest)
      = match outcome candidate with
        | .error failure =>
          let later := firstBest (fun c => (outcome c).logged) best rest
          { value := later.value, failures := failure :: later.failures }
        | .ok parsed =>
          if parsed.hasErrors then
            firstBest (fun c => (outcome c).logged) (best.elim (some parsed) fun old =>
              some (if parsed.errorCount < old.errorCount then parsed else old)) rest
          else { value := some parsed } := by
  rw [firstBest]
  simp only [bind]
  cases outcome candidate with
  | error failure => rfl
  | ok parsed =>
    simp only [logged]
    split_ifs
    · cases best <;> rfl
    · rfl

theorem value_firstBest {best : Option Parsed} (hbest : ∀ old ∈ best, old.hasErrors = true)
    (candidates : List α) (parsed : Parsed) :
    (firstBest (fun c => (outcome c).logged) best candidates).value = some parsed
      ↔ FirstLeast (best.toList.map .ok ++ candidates.map outcome) parsed := by
  induction candidates generalizing best with
  | nil =>
    rw [firstBest]
    cases best with
    | none => simpa [pure] using not_firstLeast_nil parsed
    | some old => simp [pure, firstLeast_cons, not_firstLeast_nil]
  | cons candidate rest ih =>
    rw [firstBest_cons, List.map_cons]
    cases hout : outcome candidate with
    | error failure =>
      refine (ih hbest).trans ?_
      cases best with
      | none => exact firstLeast_error.symm
      | some old => simp [firstLeast_cons]
    | ok found =>
      by_cases herrors : found.hasErrors = true
      · simp only [herrors, if_true]
        cases best with
        | none => exact ih (by simpa using herrors)
        | some old =>
          refine (ih ?_).trans firstLeast_of_two.symm
          intro kept hkept
          obtain rfl := Option.some.inj hkept
          split_ifs
          · exact herrors
          · exact hbest old rfl
      · have hzero : found.errorCount = 0 := by simpa [Parsed.hasErrors] using herrors
        simp only [herrors, Bool.false_eq_true, if_false, Option.some.injEq]
        cases best with
        | none => exact eq_comm.trans (firstLeast_of_clean hzero _).symm
        | some old =>
          have hold : 0 < old.errorCount := by simpa [Parsed.hasErrors] using hbest old rfl
          refine eq_comm.trans (Iff.trans ?_ firstLeast_of_two.symm)
          rw [if_pos (by omega)]
          exact (firstLeast_of_clean hzero _).symm

theorem firstBest_eq_none {best : Option Parsed} {candidates : List α} :
    (firstBest (fun c => (outcome c).logged) best candidates).value = none
      ↔ best = none ∧ ∀ c ∈ candidates, ∃ failure, outcome c = .error failure := by
  induction candidates generalizing best with
  | nil => simp [firstBest, pure]
  | cons candidate rest ih =>
    rw [firstBest_cons, List.forall_mem_cons]
    cases outcome candidate with
    | error failure => simpa using ih
    | ok found =>
      simp only [reduceCtorEq, exists_false, false_and, and_false, iff_false]
      split_ifs
      · rw [ih]
        cases best <;> simp
      · simp

theorem failures_firstBest (best : Option Parsed) (candidates : List α) :
    (firstBest (fun c => (outcome c).logged) best candidates).failures
      = ((candidates.map outcome).takeWhile (! ·.clean)).filterMap failure? := by
  induction candidates generalizing best with
  | nil => rfl
  | cons candidate rest ih =>
    rw [firstBest_cons, List.map_cons]
    cases outcome candidate with
    | error failure => simp [ih]
    | ok found =>
      by_cases herrors : found.hasErrors = true
      · simp [herrors, ih, List.filterMap_cons]
      · simp [herrors]

theorem chosen_firstBest (candidates : List α) :
    Chosen (candidates.map outcome)
      (firstBest (fun c => (outcome c).logged) none candidates) where
  value parsed := value_firstBest outcome (by simp) candidates parsed
  nothing := by simp [firstBest_eq_none]
  failures := failures_firstBest outcome none candidates

end

/-- What comes of parsing a source with a grammar; a failure names the grammar. -/
def outcome (parser : Parser) (text : Text) (grammar : Grammar) : Outcome :=
  (parser.parse grammar text).mapError fun cause => { grammar := grammar.name, cause }

theorem parse?_eq_logged (parser : Parser) (text : Text) (grammar : Grammar) :
    parser.parse? grammar text = (parser.outcome text grammar).logged := by
  rw [parse?, parseLogged, parseNamed, ofName?_grammarName, outcome]
  cases hparsed : parser.parse grammar text <;> simp [hparsed, logged, Except.mapError]

/-- Whatever comes of trying each of a list of candidates, the tree that is chosen is the first of those
with the fewest errors, though nothing is tried after the first tree without errors, and there is none
exactly if all candidates fail. The failures of the candidates before the first tree without errors are
logged in order. In particular this is how a source is parsed with several grammars. -/
theorem parseBest_chosen :
    (∀ {α : Type} (outcome : α → Outcome) (candidates : List α),
        Chosen (candidates.map outcome)
          (firstBest (fun candidate => (outcome candidate).logged) none candidates))
      ∧ ∀ (parser : Parser) (text : Text) (grammars : List Grammar),
        Chosen (grammars.map (parser.outcome text)) (parser.parseBest text none grammars) := by
  refine ⟨chosen_firstBest, fun parser text grammars => ?_⟩
  have hattempt : (parser.parse? · text) = fun grammar => (parser.outcome text grammar).logged :=
    funext (parse?_eq_logged parser text)
  rw [parseBest, hattempt]
  exact chosen_firstBest (parser.outcome text) grammars

end Parser

end SourceLens
