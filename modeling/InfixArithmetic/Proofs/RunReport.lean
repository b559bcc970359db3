import InfixArithmetic.Cli.Run

namespace InfixArithmetic

namespace Tree

variable {tree tree' : Tree}

theorem evaluate_congr (h : tree.root = tree'.root) : tree.evaluate = tree'.evaluate := by
  rw [evaluate, evaluate, h]

theorem valueLine_congr (h : tree.root = tree'.root) : tree.valueLine = tree'.valueLine := by
  rw [valueLine, valueLine, evaluate_congr h]

theorem evaluationFailure_congr (h : tree.root = tree'.root) :
    tree.evaluationFailure = tree'.evaluationFailure := by
  rw [evaluationFailure, evaluationFailure, evaluate_congr h]

end Tree

namespace Cli

namespace Report

variable {report report' : Report}

theorem stderr_of_logged_eq_nil (h : report.logged = []) : report.stderr = report.failureLines := by
  rw [stderr, logLines, h, List.map_nil, List.nil_append]

theorem exitCode_congr (h : report.failure = report'.failure) :
    report.exitCode = report'.exitCode := by
  rw [exitCode, exitCode, h]

theorem failureLines_congr (h : report.failure = report'.failure) :
    report.failureLines = report'.failureLines := by
  rw [failureLines, failureLines, h]

end Report

namespace Options

variable {options options' : Options} {tree tree' : Tree}

theorem notations_congr (hshow : options.showTree = options'.showTree)
    (hroot : tree.root = tree'.root) : options.notations tree = options'.notations tree' := by
  simp only [notations, Tree.drawing, Tree.prefixText, Tree.postfixText, hshow, hroot]

theorem stdout_run_of_ok (h : options.prepareTree.outcome = .ok tree) :
    options.run.stdout = options.notations tree ++ tree.valueLine := by
  simp only [run, h]

theorem failure_run_of_ok (h : options.prepareTree.outcome = .ok tree) :
    options.run.failure = tree.evaluationFailure := by
  simp only [run, h]

theorem stdout_run_of_error {failure : Failure}
    (h : options.prepareTree.outcome = .error failure) : options.run.stdout = "" := by
  simp only [run, h]

theorem failure_run_of_error {failure : Failure}
    (h : options.prepareTree.outcome = .error failure) : options.run.failure = some failure := by
  simp only [run, h]

theorem run_congr (h : options.prepareTree.outcome = .ok tree)
    (h' : options'.prepareTree.outcome = .ok tree') (hshow : options.showTree = options'.showTree)
    (hroot : tree.root = tree'.root) :
    options.run.stdout = options'.run.stdout ∧ options.run.failure = options'.run.failure := by
  rw [stdout_run_of_ok h, stdout_run_of_ok h', failure_run_of_ok h, failure_run_of_ok h']
  rw [notations_congr hshow hroot, Tree.valueLine_congr hroot,
    Tree.evaluationFailure_congr hroot]
  exact ⟨rfl, rfl⟩

theorem logged_run (options : Options) :
    options.run.logged = options.prepareTree.events.filter options.shows := by
  rw [run]
  split <;> rfl

theorem outcome_prepareTree (options : Options) :
    options.prepareTree.outcome = options.readTree.outcome.bind fun tree =>
      match options.simplifyTo with
      | none => .ok tree
      | some height => (tree.simplify height).result.outcome.mapError fun error =>
          ⟨.simplifyTree height, .evaluation error⟩ := by
  simp only [prepareTree, Traced.outcome_bind, Traced.outcome_log]
  congr 1
  funext tree
  cases options.simplifyTo with
  | none => rfl
  | some height =>
      simp only [Traced.outcome_bind, Traced.outcome_log, Traced.outcome_mapError,
        Traced.outcome_pure]
      cases (tree.simplify height).result.outcome <;> rfl

end Options

end Cli

end InfixArithmetic
