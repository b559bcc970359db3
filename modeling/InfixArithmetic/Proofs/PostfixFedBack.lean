import InfixArithmetic.Proofs.PostfixText
import InfixArithmetic.Proofs.PrintedLines
import InfixArithmetic.Proofs.TreeChanges
import Mathlib.Control.Monad.Basic

namespace InfixArithmetic.Cli

namespace Options

variable {options : Options} {tree : Tree}

theorem exists_root_of_readTree (h : options.readTree.outcome = .ok tree) :
    ∃ e, tree.root = some e := by
  rw [readTree] at h
  cases horder : options.order with
  | infixOrder strategy =>
      rw [horder, Traced.outcome_mapError, Traced.mapError_eq_ok_iff] at h
      cases Tree.step_of_outcome_parse h with
      | parse _ => exact ⟨_, rfl⟩
  | postfixOrder =>
      rw [horder, Traced.outcome_mapError, Traced.mapError_eq_ok_iff] at h
      obtain ⟨e, -, rfl⟩ := Tree.outcome_ofPostfix_eq_ok_iff.mp h
      exact ⟨e, rfl⟩

theorem exists_root_of_prepareTree (h : options.prepareTree.outcome = .ok tree) :
    ∃ e, tree.root = some e := by
  rw [outcome_prepareTree, Traced.bind_eq_ok_iff] at h
  obtain ⟨before, hread, h⟩ := h
  obtain ⟨e, hroot⟩ := exists_root_of_readTree hread
  cases hheight : options.simplifyTo with
  | none =>
      rw [hheight] at h
      cases h
      exact ⟨e, hroot⟩
  | some height =>
      rw [hheight] at h
      cases Tree.step_of_outcome_simplify (Traced.mapError_eq_ok_iff.mp h) with
      | simplifyEmpty hempty =>
          rw [hroot] at hempty
          cases hempty
      | simplify _ _ _ => exact ⟨_, rfl⟩

end Options

/-- The arguments that ask for a postfix notation to be read, and for the drawing or not. -/
def postfixArguments (showTree : Bool) (text : String) : List String :=
  "--postfix-input" :: (if showTree then ["--tree"] else []) ++ ["--", text]

def postfixOptions (showTree : Bool) (text : String) : Options :=
  { expression := text, order := .postfixOrder, showTree }

theorem readItems_cons_of_flag {argument : String} {flag : Flag} (hdashes : argument ≠ "--")
    (hflag : Items.ofArgument argument = ⟨[.flag flag], none⟩) (rest : List String) :
    readItems none (argument :: rest) = .flag flag :: readItems none rest := by
  simp [readItems, hdashes, hflag]

theorem readItems_after_dashes (text : String) : readItems none ["--", text] = [.free text] := by
  simp [readItems]

theorem chosenLogLevel_of_not_mem {items : List Item} (hverbose : .flag .verbose ∉ items)
    (hquiet : .flag .quiet ∉ items) : chosenLogLevel items = .ok (some .error) := by
  have hlevel : levelOfVerbosity (verbosity 0 0) = some .error := by decide
  rw [← hlevel, chosenLogLevel, occurrences, occurrences, List.count_eq_zero.mpr hverbose,
    List.count_eq_zero.mpr hquiet]
  rfl

theorem ofArguments_postfixArguments (showTree : Bool) (text : String) :
    Request.ofArguments (postfixArguments showTree text) =
      .ok (.run (postfixOptions showTree text)) := by
  have hpostfix : Items.ofArgument "--postfix-input" = ⟨[.flag .postfixInput], none⟩ := by rfl
  have htree : Items.ofArgument "--tree" = ⟨[.flag .tree], none⟩ := by rfl
  rw [Request.ofArguments, postfixArguments, List.cons_append,
    readItems_cons_of_flag (by decide) hpostfix]
  cases showTree with
  | false =>
      rw [if_neg Bool.false_ne_true, List.nil_append, readItems_after_dashes]
      simp only [Options.ofItems]
      rw [chosenLogLevel_of_not_mem (by simp) (by simp)]
      rfl
  | true =>
      rw [if_pos rfl, List.singleton_append, readItems_cons_of_flag (by decide) htree,
        readItems_after_dashes]
      simp only [Options.ofItems]
      rw [chosenLogLevel_of_not_mem (by simp) (by simp)]
      rfl

theorem Options.logged_run_of_error_level {options : Options}
    (h : options.logLevel = some .error) : options.run.logged = [] := by
  rw [logged_run, List.filter_eq_nil_iff]
  intro event _
  rw [shows, h]
  cases event <;> simp [Event.level, LogLevel.rank]

theorem outcome_prepareTree_postfixOptions {tree : Tree} {e : Expr} (h : tree.root = some e)
    (showTree : Bool) :
    (postfixOptions showTree tree.postfixText).prepareTree.outcome = .ok { root := some e } := by
  have hread : (Tree.ofPostfix tree.postfixText).outcome = .ok { root := some e } := by
    rw [Tree.outcome_ofPostfix_eq_ok_iff]
    refine ⟨e, ?_, rfl⟩
    obtain ⟨_, strategy⟩ := tree
    cases h
    exact Tree.outcome_tokenize_postfixText e strategy
  rw [Options.outcome_prepareTree, Traced.bind_eq_ok_iff]
  exact ⟨_, Traced.mapError_eq_ok_iff.mpr hread, rfl⟩

/-- A postfix notation that a run has printed can be given to another run, which then prints the
same and has the same exit code. Its error output is the report on the failure, with which that of
the first run ends too. -/
theorem postfix_line_fed_back {arguments : List String} {options : Options} {P : String}
    (hoptions : Request.ofArguments arguments = .ok (.run options))
    (hline : ("postfix: " ++ P).toList ∈ Text.lines (answer arguments).stdout.toList) :
    let again := answer (postfixArguments options.showTree P)
    again.stdout = (answer arguments).stdout ∧
    again.exitCode = (answer arguments).exitCode ∧
    again.stderr = options.run.failureLines ∧
    (answer arguments).stderr = options.run.logLines ++ again.stderr := by
  intro again
  have hfirst : answer arguments = .report options.run := by rw [answer, hoptions]
  have hsecond : again = .report (postfixOptions options.showTree P).run := by
    simp only [again, answer, ofArguments_postfixArguments]
  rw [hfirst] at hline
  cases hprepared : options.prepareTree.outcome with
  | error failure =>
      -- A run that fails before it has a tree prints nothing.
      have hstdout : (Answer.report options.run).stdout = "" :=
        Options.stdout_run_of_error hprepared
      rw [hstdout] at hline
      cases hline
  | ok tree =>
      obtain ⟨e, hroot⟩ := Options.exists_root_of_prepareTree hprepared
      have hstdout :
          (Answer.report options.run).stdout = options.notations tree ++ tree.valueLine :=
        Options.stdout_run_of_ok hprepared
      rw [hstdout] at hline
      cases Options.eq_postfixText_of_mem_lines hroot hline
      have hprepared' := outcome_prepareTree_postfixOptions hroot options.showTree
      obtain ⟨hsame, hfailure⟩ := Options.run_congr hprepared' hprepared rfl hroot.symm
      have hstderr : again.stderr = options.run.failureLines := by
        rw [hsecond, Answer.stderr, Report.stderr_of_logged_eq_nil
          (Options.logged_run_of_error_level rfl), Report.failureLines_congr hfailure]
      refine ⟨?_, ?_, hstderr, ?_⟩
      · rw [hsecond, hfirst]
        exact hsame
      · rw [hsecond, hfirst]
        exact Report.exitCode_congr hfailure
      · rw [hstderr, hfirst]
        rfl

theorem postfix_line_fed_back_of_overflow :
    let arguments := ["-tvp", "shunting-yard", "--simplify=1", "--", "-2147483648 / ( 1 - 2 )"]
    let options : Options :=
      { expression := "-2147483648 / ( 1 - 2 )", order := .infixOrder .shuntingYard
        simplifyTo := some { toInt := 1 }, showTree := true, logLevel := some .warn }
    let again := answer (postfixArguments true "-2147483648 -1 /")
    Request.ofArguments arguments = .ok (.run options) ∧
      ("postfix: " ++ "-2147483648 -1 /").toList ∈ Text.lines (answer arguments).stdout.toList ∧
      again.stdout = (answer arguments).stdout ∧ again.exitCode = (answer arguments).exitCode ∧
      again.stderr = options.run.failureLines ∧
      (answer arguments).stderr = options.run.logLines ++ again.stderr ∧
      (answer arguments).exitCode = 1 := by
  intro arguments options again
  have hoptions : Request.ofArguments arguments = .ok (.run options) := by decide +kernel
  have hline : ("postfix: " ++ "-2147483648 -1 /").toList ∈
      Text.lines (answer arguments).stdout.toList := by decide +kernel
  obtain ⟨hstdout, hexit, hstderr, hlog⟩ := postfix_line_fed_back hoptions hline
  exact ⟨hoptions, hline, hstdout, hexit, hstderr, hlog, by decide +kernel⟩

end InfixArithmetic.Cli
