import InfixArithmetic.Interpretation
import InfixArithmetic.Proofs.EssentialItems
import InfixArithmetic.Proofs.RunReport
import InfixArithmetic.Proofs.StrategyGrammar
import InfixArithmetic.Proofs.TreeChanges
import Mathlib.Control.Monad.Basic

namespace InfixArithmetic

open Grammar

/-- Two attempts at a tree have come to the same, apart from what is wrong with a text that cannot
be read. -/
inductive Alike (reading : Activity) : Except Failure Tree → Except Failure Tree → Prop where
  | same {tree tree' : Tree} : tree.root = tree'.root → Alike reading (.ok tree) (.ok tree')
  | failed (failure : Failure) : Alike reading (.error failure) (.error failure)
  | unread (error error' : ParseError) :
      Alike reading (.error ⟨reading, .parse error⟩) (.error ⟨reading, .parse error'⟩)

namespace Alike

variable {reading : Activity} {attempt attempt' : Except Failure Tree}

theorem refl (reading : Activity) (attempt : Except Failure Tree) :
    Alike reading attempt attempt := by
  cases attempt with
  | ok tree => exact .same rfl
  | error failure => exact .failed failure

theorem bind {next next' : Tree → Except Failure Tree} (h : Alike reading attempt attempt')
    (hnext : ∀ tree tree', tree.root = tree'.root → Alike reading (next tree) (next' tree')) :
    Alike reading (attempt.bind next) (attempt'.bind next') := by
  cases h with
  | same hroot => exact hnext _ _ hroot
  | failed failure => exact .failed failure
  | unread error error' => exact .unread error error'

end Alike

theorem alike_parse (reading : Activity) (strategy strategy' : Strategy) (text : String) :
    Alike reading
      ((Tree.parse { strategy } text).result.outcome.mapError fun error =>
        ⟨reading, .parse error⟩)
      ((Tree.parse { strategy := strategy' } text).result.outcome.mapError fun error =>
        ⟨reading, .parse error⟩) := by
  rw [Tree.outcome_result_parse, Tree.outcome_result_parse]
  cases (tokenize text).outcome with
  | error error => exact .unread error error
  | ok tokens =>
      have hagree : ∀ e, (strategy.parse tokens).outcome = .ok e ↔
          (strategy'.parse tokens).outcome = .ok e := by
        intro e
        rw [Strategy.outcome_parse_eq_ok_iff, Strategy.outcome_parse_eq_ok_iff]
      simp only [Except.bind]
      cases hread : (strategy.parse tokens).outcome with
      | ok e =>
          rw [(hagree e).mp hread]
          exact .same rfl
      | error error =>
          cases hread' : (strategy'.parse tokens).outcome with
          | ok e =>
              rw [(hagree e).mpr hread'] at hread
              cases hread
          | error error' => exact .unread error error'

theorem simplify_congr {tree tree' : Tree} (h : tree.root = tree'.root) (height : Value) :
    (∃ after after', (tree.simplify height).result.outcome = .ok after ∧
        (tree'.simplify height).result.outcome = .ok after' ∧ after.root = after'.root) ∨
      ∃ error, (tree.simplify height).result.outcome = .error error ∧
        (tree'.simplify height).result.outcome = .error error := by
  rw [Tree.simplify, Tree.simplify, ← h]
  split
  next => exact .inr ⟨_, rfl, rfl⟩
  next =>
    cases tree.root with
    | none => exact .inl ⟨_, _, rfl, rfl, h⟩
    | some root =>
        simp only
        cases (root.collapse height.toInt.toNat).failure with
        | some error => exact .inr ⟨error, rfl, rfl⟩
        | none => exact .inl ⟨_, _, rfl, rfl, rfl⟩

theorem alike_simplify {tree tree' : Tree} (h : tree.root = tree'.root)
    (reading simplifying : Activity) (height : Value) :
    Alike reading
      ((tree.simplify height).result.outcome.mapError fun error =>
        ⟨simplifying, .evaluation error⟩)
      ((tree'.simplify height).result.outcome.mapError fun error =>
        ⟨simplifying, .evaluation error⟩) := by
  obtain ⟨after, after', hafter, hafter', hroot⟩ | ⟨error, herror, herror'⟩ :=
    simplify_congr h height
  · rw [hafter, hafter']
    exact .same hroot
  · rw [herror, herror']
    exact .failed _

/-- Both results are the same, unless the text cannot be parsed; then both report a failure under
the same heading. -/
def SameUnlessUnparsed {α : Type} (strategy : Strategy) (text : String)
    (result result' : Except Failure α) : Prop :=
  result = result' ∨
    (∀ tree, convert strategy text ≠ .ok tree) ∧
      ∃ failure failure', result = .error failure ∧ result' = .error failure' ∧
        failure.activity.message = failure'.activity.message

theorem sameUnlessUnparsed_bind_convert {α : Type} {next : Tree → Except Failure α}
    (hnext : ∀ tree tree', tree.root = tree'.root → next tree = next tree')
    (strategy strategy' : Strategy) (text : String) :
    SameUnlessUnparsed strategy text ((convert strategy text).bind next)
      ((convert strategy' text).bind next) := by
  have halike : Alike (.parseText text) (convert strategy text) (convert strategy' text) :=
    alike_parse (.parseText text) strategy strategy' text
  rw [SameUnlessUnparsed]
  generalize convert strategy text = attempt at halike ⊢
  generalize convert strategy' text = attempt' at halike ⊢
  cases halike with
  | same hroot => exact .inl (hnext _ _ hroot)
  | failed failure => exact .inl rfl
  | unread error error' => exact .inr ⟨nofun, _, _, rfl, rfl, rfl⟩

theorem sameUnlessUnparsed_evaluateText (strategy strategy' : Strategy) (text : String) :
    SameUnlessUnparsed strategy text (evaluateText strategy text)
      (evaluateText strategy' text) := by
  apply sameUnlessUnparsed_bind_convert
  intro tree tree' hroot
  rw [Tree.evaluate_congr hroot]

theorem sameUnlessUnparsed_simplifyText (strategy strategy' : Strategy) (height : Value)
    (text : String) :
    SameUnlessUnparsed strategy text (simplifyText strategy height text)
      (simplifyText strategy' height text) := by
  apply sameUnlessUnparsed_bind_convert
  intro tree tree' hroot
  obtain ⟨after, after', hafter, hafter', hroot'⟩ | ⟨error, herror, herror'⟩ :=
    simplify_congr hroot height
  · rw [hafter, hafter']
    simp only [bind, Except.bind, Except.mapError, pure, Except.pure, Tree.postfixText, hroot']
  · rw [herror, herror']

namespace Cli

variable {options options' : Options}

theorem alike_readTree (hexpression : options.expression = options'.expression)
    (horder : options.order.Kindred options'.order) :
    ∃ reading, Alike reading options.readTree.outcome options'.readTree.outcome := by
  rw [Options.readTree, Options.readTree, hexpression]
  obtain hsame | ⟨strategy, strategy', horder, horder'⟩ := horder
  · rw [hsame]
    exact ⟨.parseText options'.expression, .refl _ _⟩
  · rw [horder, horder']
    exact ⟨.parseText options'.expression, alike_parse _ strategy strategy' _⟩

theorem alike_prepareTree (hexpression : options.expression = options'.expression)
    (horder : options.order.Kindred options'.order)
    (hheight : options.simplifyTo = options'.simplifyTo) :
    ∃ reading, Alike reading options.prepareTree.outcome options'.prepareTree.outcome := by
  obtain ⟨reading, hread⟩ := alike_readTree hexpression horder
  refine ⟨reading, ?_⟩
  rw [Options.outcome_prepareTree, Options.outcome_prepareTree, hheight]
  apply hread.bind
  intro tree tree' hroot
  cases options'.simplifyTo with
  | none => exact .same hroot
  | some height => exact alike_simplify hroot reading _ height

theorem run_of_alike {reading : Activity}
    (h : Alike reading options.prepareTree.outcome options'.prepareTree.outcome)
    (hshow : options.showTree = options'.showTree) :
    options.run.stdout = options'.run.stdout ∧ options.run.exitCode = options'.run.exitCode ∧
      (options.run.failure = options'.run.failure ∨
        ∃ error, options.run.failure = some ⟨reading, .parse error⟩) := by
  generalize hattempt : options.prepareTree.outcome = attempt at h
  generalize hattempt' : options'.prepareTree.outcome = attempt' at h
  cases h with
  | same hroot =>
      obtain ⟨hstdout, hfailure⟩ := Options.run_congr hattempt hattempt' hshow hroot
      exact ⟨hstdout, Report.exitCode_congr hfailure, .inl hfailure⟩
  | failed failure =>
      have hfailure : options.run.failure = options'.run.failure := by
        rw [Options.failure_run_of_error hattempt, Options.failure_run_of_error hattempt']
      refine ⟨?_, Report.exitCode_congr hfailure, .inl hfailure⟩
      rw [Options.stdout_run_of_error hattempt, Options.stdout_run_of_error hattempt']
  | unread error error' =>
      refine ⟨?_, ?_, .inr ⟨error, Options.failure_run_of_error hattempt⟩⟩
      · rw [Options.stdout_run_of_error hattempt, Options.stdout_run_of_error hattempt']
      · rw [Report.exitCode, Report.exitCode, Options.failure_run_of_error hattempt,
          Options.failure_run_of_error hattempt']
        rfl

end Cli

open Cli

/-- The choice of a parser and of a verbosity does not show in what a run prints and in its exit
code, and in its report on a failure only if the text cannot be parsed. Nor does the choice of a
strategy show in the value and the simplified form of a text, under the same condition. -/
theorem choice_of_strategy_invisible :
    (∀ arguments arguments' options, Request.ofArguments arguments = .ok (.run options) →
      essentials (readItems none arguments) = essentials (readItems none arguments') →
      AdmissibleChoices (readItems none arguments') →
      ∃ options', Request.ofArguments arguments' = .ok (.run options') ∧
        (answer arguments).stdout = (answer arguments').stdout ∧
        (answer arguments).exitCode = (answer arguments').exitCode ∧
        ((∀ failure ∈ options.run.failure, ∀ error, failure.cause ≠ .parse error) →
          options.run.failureLines = options'.run.failureLines)) ∧
    (∀ strategy strategy' text,
      SameUnlessUnparsed strategy text (evaluateText strategy text) (evaluateText strategy' text)) ∧
    ∀ strategy strategy' height text,
      SameUnlessUnparsed strategy text (simplifyText strategy height text)
        (simplifyText strategy' height text) := by
  refine ⟨?_, sameUnlessUnparsed_evaluateText, sameUnlessUnparsed_simplifyText⟩
  intro arguments arguments' options hoptions hsame hchoices
  obtain ⟨options', hoptions', hexpression, hheight, hshow, horder⟩ :=
    exists_options_of_essentials_eq hoptions hsame hchoices
  obtain ⟨reading, halike⟩ := alike_prepareTree hexpression horder hheight
  obtain ⟨hstdout, hexit, hfailure⟩ := run_of_alike halike hshow
  have hanswer : answer arguments = .report options.run := by rw [answer, hoptions]
  have hanswer' : answer arguments' = .report options'.run := by rw [answer, hoptions']
  refine ⟨options', hoptions', ?_, ?_, ?_⟩
  · rw [hanswer, hanswer']
    exact hstdout
  · rw [hanswer, hanswer']
    exact hexit
  · intro hcause
    obtain hfailure | ⟨error, hfailure⟩ := hfailure
    · exact Report.failureLines_congr hfailure
    · exact absurd rfl (hcause _ hfailure error)

theorem choice_of_strategy_invisible_of_overflow :
    let arguments := ["-vp", "shunting-yard", "-s", "1", "2147483647 + 1 * ( 4 - 1 )"]
    let arguments' := ["--parser=descent", "-vvs1", "-v", "2147483647 + 1 * ( 4 - 1 )"]
    let options : Options :=
      { expression := "2147483647 + 1 * ( 4 - 1 )", order := .infixOrder .shuntingYard
        simplifyTo := some { toInt := 1 }, logLevel := some .warn }
    Request.ofArguments arguments = .ok (.run options) ∧
      essentials (readItems none arguments) = essentials (readItems none arguments') ∧
      AdmissibleChoices (readItems none arguments') ∧
      (∀ failure ∈ options.run.failure, ∀ error, failure.cause ≠ .parse error) ∧
      ∃ options', Request.ofArguments arguments' = .ok (.run options') ∧
        (answer arguments).stdout = (answer arguments').stdout ∧
        (answer arguments).exitCode = (answer arguments').exitCode ∧
        (answer arguments).exitCode = 1 ∧
        options.run.failureLines = options'.run.failureLines := by
  intro arguments arguments' options
  have hoptions : Request.ofArguments arguments = .ok (.run options) := by decide +kernel
  have hsame : essentials (readItems none arguments) = essentials (readItems none arguments') := by
    decide +kernel
  have hchoices : AdmissibleChoices (readItems none arguments') :=
    ⟨.inr ⟨"descent", .recursiveDescent, by decide +kernel, rfl, by decide +kernel⟩,
      .inr (by decide +kernel)⟩
  have hfailure : options.run.failure = some ⟨.evaluateTree, .evaluation
      (.overflow .add { toInt := 2147483647 } { toInt := 3 })⟩ := by decide +kernel
  have hcause : ∀ failure ∈ options.run.failure, ∀ error, failure.cause ≠ .parse error := by
    intro failure hmem error hparse
    rw [hfailure] at hmem
    cases hmem
    cases hparse
  obtain ⟨options', hoptions', hstdout, hexit, hreport⟩ :=
    choice_of_strategy_invisible.1 arguments arguments' options hoptions hsame hchoices
  exact ⟨hoptions, hsame, hchoices, hcause, options', hoptions', hstdout, hexit,
    by decide +kernel, hreport hcause⟩

end InfixArithmetic
