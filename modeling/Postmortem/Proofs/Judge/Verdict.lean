import Postmortem.Judge.Verdict

/-!
# Summaries count verdicts

A summary has, for each verdict, the number of times it was given, and these numbers make up the
number of cases. The counts are words of 64 bits; they are the numbers themselves for every list of
verdicts that is not longer than such a word can tell.
-/

namespace Postmortem

namespace VerdictSummary

/-- The count of a verdict. -/
def countOf (s : VerdictSummary) : Verdict → UInt64
  | .passed => s.passed
  | .failed => s.failed
  | .timeout => s.timeouts
  | .error => s.errors

/-- One verdict more is counted as such, and as nothing else. -/
theorem countOf_add (s : VerdictSummary) (v w : Verdict) :
    (s.add v).countOf w = s.countOf w + if v = w then 1 else 0 := by
  cases v <;> cases w <;> simp [add, countOf]

/-- The number of cases is not counted on. -/
theorem testCases_add (s : VerdictSummary) (v : Verdict) : (s.add v).testCases = s.testCases := by
  cases v <;> rfl

/-- Verdicts are counted on from what a summary has. -/
theorem countOf_foldl_add (s : VerdictSummary) (vs : List Verdict) (w : Verdict) :
    (vs.foldl add s).countOf w = s.countOf w + UInt64.ofNat (vs.count w) := by
  induction vs generalizing s with
  | nil => simp
  | cons v vs ih =>
    have hcount : UInt64.ofNat ((v :: vs).count w) =
        UInt64.ofNat (vs.count w) + if v = w then 1 else 0 := by
      rw [List.count_cons, UInt64.ofNat_add]
      by_cases hv : v = w
      · rw [if_pos hv, if_pos (beq_iff_eq.mpr hv)]
        rfl
      · rw [if_neg hv, if_neg (by simpa using hv)]
        rfl
    rw [List.foldl_cons, ih, countOf_add, hcount, UInt64.add_assoc, UInt64.add_comm (ite _ _ _)]

/-- All this while the number of cases stays. -/
theorem testCases_foldl_add (s : VerdictSummary) (vs : List Verdict) :
    (vs.foldl add s).testCases = s.testCases := by
  induction vs generalizing s with
  | nil => rfl
  | cons v vs ih => rw [List.foldl_cons, ih, testCases_add]

/-- A summary of verdicts counts each of them. -/
theorem countOf_ofVerdicts (vs : List Verdict) (w : Verdict) :
    (ofVerdicts vs).countOf w = UInt64.ofNat (vs.count w) := by
  rw [ofVerdicts, countOf_foldl_add]
  have hzero : countOf { testCases := UInt64.ofNat vs.length } w = 0 := by
    cases w <;> rfl
  rw [hzero, UInt64.zero_add]

/-- A summary of verdicts tells how many there are. -/
theorem testCases_ofVerdicts (vs : List Verdict) :
    (ofVerdicts vs).testCases = UInt64.ofNat vs.length := by
  rw [ofVerdicts, testCases_foldl_add]

end VerdictSummary

/-- Every verdict is one of the four. -/
theorem Verdict.count_add_count (vs : List Verdict) :
    vs.count .passed + vs.count .failed + vs.count .timeout + vs.count .error = vs.length := by
  induction vs with
  | nil => rfl
  | cons v vs ih =>
    rw [List.length_cons, ← ih]
    cases v <;> simp only [List.count_cons] <;> simp <;> omega

namespace VerdictSummary

/-- **The counts of a summary make up the number of cases.** -/
theorem total_ofVerdicts (vs : List Verdict) :
    (ofVerdicts vs).passed + (ofVerdicts vs).failed + (ofVerdicts vs).timeouts +
      (ofVerdicts vs).errors = (ofVerdicts vs).testCases := by
  have hpassed : (ofVerdicts vs).passed = _ := countOf_ofVerdicts vs .passed
  have hfailed : (ofVerdicts vs).failed = _ := countOf_ofVerdicts vs .failed
  have htimeouts : (ofVerdicts vs).timeouts = _ := countOf_ofVerdicts vs .timeout
  have herrors : (ofVerdicts vs).errors = _ := countOf_ofVerdicts vs .error
  rw [testCases_ofVerdicts, ← Verdict.count_add_count, hpassed, hfailed, htimeouts, herrors,
    UInt64.ofNat_add, UInt64.ofNat_add, UInt64.ofNat_add]

/-- Counts of verdicts that a word can tell are their numbers. -/
theorem toNat_countOf_ofVerdicts {vs : List Verdict} (h : vs.length < UInt64.size) (w : Verdict) :
    ((ofVerdicts vs).countOf w).toNat = vs.count w := by
  have hcount : vs.count w < UInt64.size := Nat.lt_of_le_of_lt List.count_le_length h
  rw [countOf_ofVerdicts, UInt64.toNat_ofNat_of_lt' hcount]

end VerdictSummary

end Postmortem
