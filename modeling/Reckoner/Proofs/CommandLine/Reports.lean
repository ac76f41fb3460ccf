import Reckoner.Proofs.Calculator.Soundness
import Reckoner.Proofs.Correspondence.Presence
import Reckoner.Proofs.Reading.Scanner

/-!
# What the command reports

A run of the command deals with the expressions one after the other, so running a
list is running its parts one after the other.  Every expression that holds a token
adds one line, its value to the output or its failure to the errors, unless its value
is an integer that has too many digits to be written: there the run breaks off.
-/

namespace Reckoner

variable {H : Type}

/-! ## Blank texts -/

theorem Token.scanFrom_eq_nil_iff {atom chars : List Char} :
    scanFrom atom chars = [] ↔ atom = [] ∧ ∀ c ∈ chars, Text.isBlank c = true := by
  induction chars generalizing atom with
  | nil => simp [scanFrom, flush]
  | cons c rest ih =>
      unfold scanFrom
      split_ifs with hparenthesis hblank
      · simp [isBlank_of_isParenthesis hparenthesis]
      · simp [ih, hblank, flush]
      · simp [ih, hblank]

theorem Text.trimBlanks_eq_nil_iff {chars : List Char} :
    trimBlanks chars = [] ↔ ∀ c ∈ chars, isBlank c = true := by
  rw [trimBlanks, List.reverse_eq_nil_iff, List.dropWhile_eq_nil_iff]
  constructor
  · intro h c hmem
    rw [← List.takeWhile_append_dropWhile (p := isBlank) (l := chars)] at hmem
    rcases List.mem_append.mp hmem with htaken | hleft
    · exact List.mem_takeWhile_imp htaken
    · exact h c (List.mem_reverse.mpr hleft)
  · intro h c hmem
    exact h c ((List.dropWhile_sublist _).mem (List.mem_reverse.mp hmem))

theorem CommandLine.isBlankText_iff {text : String} :
    isBlankText text = true ↔ tokenize text = [] := by
  rw [isBlankText, List.isEmpty_iff, Text.trimBlanks_eq_nil_iff, tokenize_eq_scan,
    List.map_eq_nil_iff, Token.scan, Token.scanFrom_eq_nil_iff]
  simp

/-! ## Values that cannot be written -/

/-- Of the language's values, only integers of too many digits cannot be written. -/
theorem Datum.Calculated.isWritable_eq_false_iff {d : Datum H} (h : d.Calculated) :
    d.isWritable = false ↔
      ∃ n : Int, d = .number (.int n) ∧ tenTo Number.digitLimit ≤ n.natAbs := by
  cases h with
  | number n =>
      cases n with
      | int n => simp [isWritable, Number.isWritable]
      | float x => simp [isWritable, Number.isWritable]
  | nan birth => simp [isWritable]
  | nil => simp [isWritable]
  | function f => simp [isWritable]
  | closure hparameters _ =>
      simp only [isWritable, reduceCtorEq, false_and, exists_false, iff_false,
        Bool.not_eq_false, allWritable_eq_true_iff]
      intro parameter hmem
      obtain ⟨name, hname⟩ := Option.isSome_iff_exists.mp (hparameters parameter hmem)
      obtain ⟨rfl, -⟩ := identifier?_eq_some_iff.mp hname
      rfl

namespace CommandLine

/-! ## Reports one after the other -/

/-- The ending of two runs one after the other: the larger status if both finish. -/
def Ending.andThen : Ending -> Ending -> Ending
  | .finished first, .finished second => .finished (max first second)
  | .finished _, later => later
  | earlier, _ => earlier

namespace Report

def Finishes (report : Report) : Prop :=
  ∃ status, report.ending = .finished status

/-- One report followed by another, which is left out if the first run breaks off. -/
def andThen (first second : Report) : Report :=
  match first.ending with
  | .finished _ => ⟨first.written ++ second.written, first.ending.andThen second.ending⟩
  | _ => first

variable {first second third : Report}

theorem andThen_of_finishes (h : first.Finishes) :
    first.andThen second =
      ⟨first.written ++ second.written, first.ending.andThen second.ending⟩ := by
  obtain ⟨status, hending⟩ := h
  rw [andThen, hending]

theorem andThen_of_not_finishes (h : ¬ first.Finishes) : first.andThen second = first := by
  unfold andThen
  split
  · rename_i status hending
    exact absurd ⟨status, hending⟩ h
  · rfl

theorem finishes_andThen_iff :
    (first.andThen second).Finishes ↔ first.Finishes ∧ second.Finishes := by
  by_cases hfirst : first.Finishes
  · rw [andThen_of_finishes hfirst]
    obtain ⟨status, hending⟩ := hfirst
    cases hsecond : second.ending <;> simp [Finishes, hending, hsecond, Ending.andThen]
  · rw [andThen_of_not_finishes hfirst]
    simp [hfirst]

theorem andThen_assoc :
    (first.andThen second).andThen third = first.andThen (second.andThen third) := by
  by_cases hfirst : first.Finishes
  · by_cases hsecond : second.Finishes
    · rw [andThen_of_finishes (finishes_andThen_iff.mpr ⟨hfirst, hsecond⟩),
        andThen_of_finishes hfirst, andThen_of_finishes hfirst, andThen_of_finishes hsecond]
      obtain ⟨a, ha⟩ := hfirst
      obtain ⟨b, hb⟩ := hsecond
      cases third.ending <;> simp [ha, hb, Ending.andThen, Nat.max_assoc]
    · have hneither : ¬ (first.andThen second).Finishes :=
        fun h => hsecond (finishes_andThen_iff.mp h).2
      rw [andThen_of_not_finishes hneither, andThen_of_not_finishes hsecond]
  · have hneither : ¬ (first.andThen second).Finishes :=
      fun h => hfirst (finishes_andThen_iff.mp h).1
    rw [andThen_of_not_finishes hneither, andThen_of_not_finishes hfirst,
      andThen_of_not_finishes hfirst]

theorem on_andThen (h : first.Finishes) (channel : Channel) :
    (first.andThen second).on channel = first.on channel ++ second.on channel := by
  rw [andThen_of_finishes h]
  simp [on, String.join_append]

end Report

/-! ## Runs -/

/-- What comes of the expressions that hold tokens, in order. -/
def results (strict : Bool) (sources : List String) : List (Except Failure (Datum Builtin)) :=
  (sources.filter fun source => !(tokenize source).isEmpty).map fun source =>
    (interpretOne strict source).result

def IsUnwritable (result : Except Failure (Datum Builtin)) : Prop :=
  ∃ n : Int, result = .ok (.number (.int n)) ∧ tenTo Number.digitLimit ≤ n.natAbs

def valueLines (results : List (Except Failure (Datum Builtin))) : List String :=
  results.filterMap fun
    | .ok value => some (value.display ++ "\n")
    | .error _ => none

def failureLines (results : List (Except Failure (Datum Builtin))) : List String :=
  results.filterMap fun
    | .ok _ => none
    | .error failure => some ("error: " ++ failure.report ++ "\n")

/--
The report says what each result is, values and failures on a channel of their own, and
the status is 1 if there are failures and 0 if not.  The debug log shares the channel
of the failures.
-/
structure Report.Tells (report : Report) (verbose : Bool)
    (results : List (Except Failure (Datum Builtin))) : Prop where
  values : report.on .output = String.join (valueLines results)
  failures : verbose = false -> report.on .errors = String.join (failureLines results)
  status : report.ending = .finished (if results.all Except.isOk then 0 else 1)

namespace Report.Tells

variable {first second : Report} {verbose : Bool}
  {before after : List (Except Failure (Datum Builtin))}

theorem finishes (h : first.Tells verbose before) : first.Finishes :=
  ⟨_, h.status⟩

theorem andThen (hfirst : first.Tells verbose before) (hsecond : second.Tells verbose after) :
    (first.andThen second).Tells verbose (before ++ after) := by
  constructor
  · rw [on_andThen hfirst.finishes, hfirst.values, hsecond.values]
    simp [valueLines, String.join_append]
  · intro hquiet
    rw [on_andThen hfirst.finishes, hfirst.failures hquiet, hsecond.failures hquiet]
    simp [failureLines, String.join_append]
  · rw [andThen_of_finishes hfirst.finishes, hfirst.status, hsecond.status]
    rw [Ending.andThen, List.all_append]
    cases before.all Except.isOk <;> cases after.all Except.isOk <;> rfl

end Report.Tells

theorem results_cons (strict : Bool) (source : String) (rest : List String) :
    results strict (source :: rest) = results strict [source] ++ results strict rest := by
  rw [results, results, results, ← List.map_append, ← List.filter_append, List.singleton_append]

theorem results_of_blank {source : String} (h : tokenize source = []) (strict : Bool) :
    results strict [source] = [] := by
  simp [results, h]

theorem results_of_not_blank {source : String} (h : tokenize source ≠ []) (strict : Bool) :
    results strict [source] = [(interpretOne strict source).result] := by
  simp [results, h]

theorem interpretOne_sound (strict : Bool) (source : String) :
    (interpretOne strict source).Sound :=
  interpret_sound defaultDepth strict .empty calculated_calculatorTable source

/-- No failure of an expression ends the command. -/
theorem isFatal_interpretOne {strict : Bool} {source : String} {failure : Failure}
    (h : (interpretOne strict source).result = .error failure) : failure.isFatal = false := by
  have hreported := (interpret_result reports_builtin defaultDepth strict .empty calculatorTable
    source False False.elim False.elim False.elim).1
  exact (hreported failure h).1

/-- A run ends with the status 0 or 1 unless it breaks off. -/
theorem status_le_one {verbose strict : Bool} {sources : List String} {status : Nat}
    (h : (run verbose strict sources).ending = .finished status) : status ≤ 1 := by
  induction sources generalizing status with
  | nil =>
      cases h
      exact Nat.zero_le 1
  | cons source rest ih =>
      unfold run at h
      split at h
      · exact ih h
      · dsimp only at h
        split at h
        · split at h
          · exact ih h
          · cases h
        · -- A failure sets the status to 1, whatever the rest comes to.
          unfold Report.prepend Report.failed at h
          dsimp only at h
          split at h
          · cases h
            exact Nat.le_refl 1
          · exact ih h
        · cases h

theorem Report.nil_andThen (report : Report) :
    (⟨[], .finished 0⟩ : Report).andThen report = report := by
  rw [andThen_of_finishes ⟨0, rfl⟩]
  cases hending : report.ending <;> simp [Ending.andThen, ← hending]

/-- A run deals with its first expression, and then with the others. -/
theorem run_cons (verbose strict : Bool) (source : String) (rest : List String) :
    run verbose strict (source :: rest) =
      (run verbose strict [source]).andThen (run verbose strict rest) := by
  rw [run, run]
  split
  · rw [run, Report.nil_andThen]
  · dsimp only
    split
    · split
      · rw [Report.andThen_of_finishes ⟨0, rfl⟩]
        cases hrest : (run verbose strict rest).ending <;>
          simp [Report.prepend, run, Ending.andThen, hrest]
      · rfl
    · rw [Report.andThen_of_finishes ⟨1, rfl⟩]
      cases hrest : (run verbose strict rest).ending with
      | finished status =>
          -- The status after a failure is 1, which is the larger one since no status exceeds it.
          have hmax := Nat.max_eq_left (status_le_one hrest)
          simp [Report.prepend, Report.failed, run, Ending.andThen, hrest, hmax]
      | stopped code => simp [Report.prepend, Report.failed, run, Ending.andThen, hrest]
      | crashed failure => simp [Report.prepend, Report.failed, run, Ending.andThen, hrest]
    · rfl

theorem run_append (verbose strict : Bool) (xs ys : List String) :
    run verbose strict (xs ++ ys) = (run verbose strict xs).andThen (run verbose strict ys) := by
  induction xs with
  | nil => rw [List.nil_append, run, Report.nil_andThen]
  | cons x xs ih =>
      rw [List.cons_append, run_cons, ih, run_cons verbose strict x xs, Report.andThen_assoc]

/-! ## One expression -/

def debugLog (verbose strict : Bool) (source : String) : List (Channel × String) :=
  if verbose then debugLines source (interpretOne strict source) else []

theorem channel_of_mem_debugLines {source : String} {interpretation : Interpretation Builtin}
    {piece : Channel × String} (h : piece ∈ debugLines source interpretation) :
    piece.1 = .errors := by
  have hline : ∀ text, piece ∈ [debugLine text] -> piece.1 = .errors := by
    intro text hmem
    rw [List.mem_singleton.mp hmem, debugLine]
  unfold debugLines at h
  rcases List.mem_append.mp h with hparsed | hended
  · split at hparsed
    · exact hline _ hparsed
    · cases hparsed
  · split at hended
    · split at hended
      · exact hline _ hended
      · cases hended
    · split at hended
      · cases hended
      · exact hline _ hended

theorem channel_of_mem_debugLog {verbose strict : Bool} {source : String}
    {piece : Channel × String} (h : piece ∈ debugLog verbose strict source) :
    piece.1 = .errors := by
  unfold debugLog at h
  split at h
  · exact channel_of_mem_debugLines h
  · cases h

theorem on_output_debugLog (verbose strict : Bool) (source : String)
    (pieces : List (Channel × String)) (ending : Ending) :
    (⟨debugLog verbose strict source ++ pieces, ending⟩ : Report).on .output =
      (⟨pieces, ending⟩ : Report).on .output := by
  have hlog : (debugLog verbose strict source).filter (fun piece => piece.1 == .output) = [] := by
    rw [List.filter_eq_nil_iff]
    intro piece hmem
    simp [channel_of_mem_debugLog hmem]
  simp [Report.on, hlog]

section

variable {verbose strict : Bool} {source : String} (hsource : tokenize source ≠ [])

include hsource

theorem run_of_error {failure : Failure}
    (h : (interpretOne strict source).result = .error failure) :
    run verbose strict [source] =
      ⟨debugLog verbose strict source ++ [(.errors, "error: " ++ failure.report ++ "\n")],
        .finished 1⟩ := by
  have hblank : ¬ isBlankText source = true := fun h => hsource (isBlankText_iff.mp h)
  have houtcome : (interpretOne strict source).outcome = .error failure.report := by
    simp [Interpretation.outcome, h, isFatal_interpretOne h]
  simp [run, hblank, houtcome, Report.prepend, Report.failed, debugLog]

theorem run_of_ok {value : Datum Builtin} (h : (interpretOne strict source).result = .ok value) :
    run verbose strict [source] =
      if value.isWritable then
        ⟨debugLog verbose strict source ++ [(.output, value.display ++ "\n")], .finished 0⟩
      else ⟨debugLog verbose strict source, .crashed .digitLimit⟩ := by
  have hblank : ¬ isBlankText source = true := fun h => hsource (isBlankText_iff.mp h)
  have houtcome : (interpretOne strict source).outcome = .value value := by
    simp [Interpretation.outcome, h]
  rw [run, if_neg hblank]
  dsimp only
  rw [houtcome]
  cases hwritable : value.isWritable <;>
    simp [Datum.display?, hwritable, Report.prepend, run, debugLog]

end

theorem isUnwritable_iff_of_ok {strict : Bool} {source : String} {value : Datum Builtin}
    (h : (interpretOne strict source).result = .ok value) :
    IsUnwritable (interpretOne strict source).result ↔ value.isWritable = false := by
  rw [((interpretOne_sound strict source).value value h).isWritable_eq_false_iff, IsUnwritable, h]
  simp

/-- An expression whose value can be written, or that fails, is told of. -/
theorem tells_of_writable {strict : Bool} {source : String} (verbose : Bool)
    (h : ∀ result ∈ results strict [source], ¬ IsUnwritable result) :
    (run verbose strict [source]).Tells verbose (results strict [source]) := by
  by_cases hsource : tokenize source = []
  · rw [results_of_blank hsource, run, if_pos (isBlankText_iff.mpr hsource)]
    exact ⟨rfl, fun _ => rfl, rfl⟩
  rw [results_of_not_blank hsource] at h ⊢
  have hwritable := h _ List.mem_cons_self
  cases hresult : (interpretOne strict source).result with
  | error failure =>
      rw [run_of_error hsource hresult]
      refine ⟨?_, ?_, rfl⟩
      · rw [on_output_debugLog]
        rfl
      · intro hquiet
        subst hquiet
        rfl
  | ok value =>
      rw [isUnwritable_iff_of_ok hresult, Bool.not_eq_false] at hwritable
      rw [run_of_ok hsource hresult, if_pos hwritable]
      refine ⟨?_, ?_, rfl⟩
      · rw [on_output_debugLog]
        rfl
      · intro hquiet
        subst hquiet
        rfl

/-- At an expression whose value cannot be written the run breaks off. -/
theorem run_of_unwritable {strict : Bool} {source : String} (verbose : Bool)
    {result : Except Failure (Datum Builtin)} (hmem : result ∈ results strict [source])
    (h : IsUnwritable result) :
    run verbose strict [source] = ⟨debugLog verbose strict source, .crashed .digitLimit⟩ := by
  have hsource : tokenize source ≠ [] := by
    intro hblank
    rw [results_of_blank hblank] at hmem
    cases hmem
  rw [results_of_not_blank hsource, List.mem_singleton] at hmem
  subst hmem
  obtain ⟨n, hok, hlarge⟩ := h
  have hunwritable := (isUnwritable_iff_of_ok hok).mp ⟨n, hok, hlarge⟩
  rw [run_of_ok hsource hok, hunwritable, if_neg Bool.false_ne_true]

/-! ## All expressions -/

theorem finishes_singleton_iff (verbose strict : Bool) (source : String) :
    (run verbose strict [source]).Finishes ↔
      ∀ result ∈ results strict [source], ¬ IsUnwritable result := by
  constructor
  · rintro ⟨status, hending⟩ result hmem hunwritable
    rw [run_of_unwritable verbose hmem hunwritable] at hending
    cases hending
  · intro h
    exact (tells_of_writable verbose h).finishes

theorem finishes_iff (verbose strict : Bool) (sources : List String) :
    (run verbose strict sources).Finishes ↔
      ∀ result ∈ results strict sources, ¬ IsUnwritable result := by
  induction sources with
  | nil => simp [run, results, Report.Finishes]
  | cons source rest ih =>
      rw [run_cons, Report.finishes_andThen_iff, finishes_singleton_iff, ih,
        results_cons strict source rest, List.forall_mem_append]

theorem tells_of_finishes {verbose strict : Bool} {sources : List String}
    (h : (run verbose strict sources).Finishes) :
    (run verbose strict sources).Tells verbose (results strict sources) := by
  induction sources with
  | nil => exact ⟨rfl, fun _ => rfl, rfl⟩
  | cons source rest ih =>
      rw [run_cons] at h ⊢
      rw [results_cons strict source rest]
      obtain ⟨hfirst, hrest⟩ := Report.finishes_andThen_iff.mp h
      exact (tells_of_writable verbose ((finishes_singleton_iff ..).mp hfirst)).andThen (ih hrest)

/--
A run finishes unless the value of an expression is an integer of too many digits to
be written.  If it finishes it has told of every expression with a token in it, values
on one channel and failures on the other, and the status is whether any failed.  If not
it broke off at the first such integer, with what it had told of until there.  Lists of
expressions that are run together are run one after the other.
-/
theorem run_reports_expressions (verbose strict : Bool) (sources : List String) :
    let report := run verbose strict sources
    (report.Finishes ↔ ∀ result ∈ results strict sources, ¬ IsUnwritable result) ∧
    (report.Finishes -> report.Tells verbose (results strict sources)) ∧
    (∀ before source after, sources = before ++ source :: after ->
      (run verbose strict before).Finishes ->
      (∃ result ∈ results strict [source], IsUnwritable result) ->
        report.ending = .crashed .digitLimit ∧
        report.on .output = (run verbose strict before).on .output ∧
        (verbose = false -> report.on .errors = (run verbose strict before).on .errors)) ∧
    (∀ more, run verbose strict (sources ++ more) =
      report.andThen (run verbose strict more)) := by
  refine ⟨finishes_iff verbose strict sources, tells_of_finishes, ?_,
    run_append verbose strict sources⟩
  rintro before source after rfl hbefore ⟨result, hmem, hunwritable⟩
  have hcrash := run_of_unwritable verbose hmem hunwritable
  have hbroken : ¬ (run verbose strict [source]).Finishes := by
    rw [finishes_singleton_iff]
    exact fun h => h result hmem hunwritable
  rw [run_append, run_cons, Report.andThen_of_not_finishes hbroken]
  refine ⟨?_, ?_, ?_⟩
  · rw [Report.andThen_of_finishes hbefore, hcrash]
    obtain ⟨status, hending⟩ := hbefore
    rw [hending]
    rfl
  · rw [Report.on_andThen hbefore, hcrash, ← List.append_nil (debugLog _ _ _), on_output_debugLog]
    exact String.append_empty
  · intro hquiet
    subst hquiet
    rw [Report.on_andThen hbefore, hcrash]
    exact String.append_empty

/-- The factorial of 1600 cannot be written, and the expression after it is not dealt with. -/
theorem factorial_breaks_off :
    run false true ["(factorial 1600)", "1"] = ⟨[], .crashed .digitLimit⟩ := by
  decide +kernel

end CommandLine

end Reckoner
