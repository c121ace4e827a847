import Mathlib.Data.List.Infix
import ScamOn.Analyzers.Sender.Authentication
import ScamOn.Lib.UrlParse

/-!
# SPF

`evaluate_spf_record` takes the verdict of a `Received-SPF` header to be the first of `pass`,
`softfail` and `fail` that is a part of it, and without such a part, or without a header, the
verdict is a pass.

* `evaluateSpfRecord` is the function; `evaluateSpfRecord_result` says what its verdict is.
* `Agreeing` are the headers that it reads as the interpreter of header claims does, which goes by
  the first word.
* `readings_agree_iff`: the two readings agree exactly on these.
-/

namespace ScamOn.Authentication

open Analyzers.Sender UrlParse

/-- `part in text`. -/
def isIn (part : String) (text : Str) : Bool := part.toList <:+: text

/-- `SPFResultDTO`. -/
structure SpfResultDto where
  result : String
  domain : Str
  clientIp : Option Str
  spfRecord : Option Str
  dnsLookupCount : ℕ
  deriving DecidableEq

/-- `MAX_SPF_DNS_LOOKUPS`. -/
def maxSpfDnsLookups : ℕ := 10

/-- An optional text that is there and not empty. -/
def given (s : Option Str) : Bool := s.any (· ≠ [])

/-- The verdict of a header, if one of its parts is one. -/
def headerVerdict (headerLower : Str) : Option String :=
  if isIn "pass" headerLower then some "PASS"
  else if isIn "softfail" headerLower then some "SOFTFAIL"
  else if isIn "fail" headerLower then some "FAIL"
  else none

/-- The record that stands for the one of the domain. -/
def simulatedRecord (fromDomain : Str) : Str :=
  "v=spf1 include:_spf.".toList ++ fromDomain ++ " ~all".toList

/-- The verdict without a header.  Whether the address is private makes no difference. -/
def simulatedResult (fromDomain clientIp : Str) : SpfResultDto :=
  if 2 > maxSpfDnsLookups then ⟨"PERMERROR", fromDomain, clientIp, simulatedRecord fromDomain, 2⟩
  else ⟨"PASS", fromDomain, clientIp, simulatedRecord fromDomain, 2⟩

/-- `evaluate_spf_record`. -/
def evaluateSpfRecord (x : Unicode) (fromDomain : Str) (clientIp rawSpfHeader : Option Str) :
    SpfResultDto :=
  match clientIp with
  | none => ⟨"NONE", if fromDomain = [] then "unknown".toList else fromDomain, none, none, 0⟩
  | some ip =>
    if fromDomain = [] || ip = [] then
      ⟨"NONE", if fromDomain = [] then "unknown".toList else fromDomain, some ip, none, 0⟩
    else
      match rawSpfHeader with
      | none => simulatedResult fromDomain ip
      | some [] => simulatedResult fromDomain ip
      | some (c :: header) =>
        match headerVerdict (x.lower (c :: header)) with
        | some verdict => ⟨verdict, fromDomain, some ip, some ((c :: header).take 200), 1⟩
        | none => simulatedResult fromDomain ip

/-- The verdict on a header, or on none. -/
def verdictOn (x : Unicode) (rawSpfHeader : Option Str) : String :=
  if given rawSpfHeader then (headerVerdict (x.lower (rawSpfHeader.getD []))).getD "PASS"
  else "PASS"

variable {x : Unicode} {fromDomain : Str} {clientIp rawSpfHeader : Option Str}

@[simp] theorem simulatedResult_result (fromDomain ip : Str) :
    (simulatedResult fromDomain ip).result = "PASS" := rfl

@[simp] theorem simulatedResult_domain (fromDomain ip : Str) :
    (simulatedResult fromDomain ip).domain = fromDomain := rfl

/-- **The verdict of `evaluate_spf_record`**: none without a domain and an address. -/
theorem evaluateSpfRecord_result :
    (evaluateSpfRecord x fromDomain clientIp rawSpfHeader).result =
      if fromDomain ≠ [] ∧ given clientIp = true then verdictOn x rawSpfHeader else "NONE" := by
  unfold evaluateSpfRecord
  rcases clientIp with _ | ip
  · simp [given]
  dsimp only
  by_cases hgiven : fromDomain = [] ∨ ip = []
  · have hnot : ¬(fromDomain ≠ [] ∧ given (some ip) = true) := by
      rcases hgiven with hdomain | hip
      · simp [hdomain]
      · simp [hip, given]
    rw [if_pos (by simpa using hgiven), if_neg hnot]
  · have hboth : fromDomain ≠ [] ∧ given (some ip) = true := by simpa [given, not_or] using hgiven
    rw [if_neg (by simpa using hgiven), if_pos hboth, verdictOn]
    rcases rawSpfHeader with _ | _ | ⟨c, header⟩
    · rfl
    · rfl
    · have hheader : given (some (c :: header)) = true := by simp [given]
      rw [if_pos hheader, Option.getD_some]
      dsimp only
      cases headerVerdict (x.lower (c :: header)) with
      | none => rfl
      | some verdict => rfl

/-- The domain of the verdict is the one that was asked for. -/
theorem evaluateSpfRecord_domain (hdomain : fromDomain ≠ []) :
    (evaluateSpfRecord x fromDomain clientIp rawSpfHeader).domain = fromDomain := by
  unfold evaluateSpfRecord
  rcases clientIp with _ | ip
  · simp [hdomain]
  dsimp only
  by_cases hip : ip = []
  · simp [hip, hdomain]
  rw [if_neg (by simp [hip, hdomain])]
  rcases rawSpfHeader with _ | _ | ⟨c, header⟩
  · rfl
  · rfl
  · dsimp only
    cases headerVerdict (x.lower (c :: header)) with
    | none => rfl
    | some verdict => rfl

/-! ## Two readings of a header -/

/-- **The two readings agree**: the verdict that the interpreter gives, if it is a pass, a
fail or a soft fail, is that of `evaluate_spf_record`. -/
def ReadAlike (x : Unicode) (domain : Str) (clientIp : Option Str) (header : Str) : Prop :=
  ∀ r, interpret (onlyReceivedSpf header) = some r →
    r.spf.status ∈ [AuthenticationStatus.pass, .fail, .softfail] →
      (evaluateSpfRecord x domain clientIp (some header)).result = r.spf.status.value

/-- If the first word of the header is a verdict, then domain and address are given, and it is the
first of `pass`, `softfail` and `fail` that is a part of the header; a pass may also be no part
of a header without the others. -/
structure Agreeing (x : Unicode) (domain : Str) (clientIp : Option Str) (header : Str) : Prop where
  asked : leadingToken header ∈ ["pass", "softfail", "fail"].map String.toList →
    domain ≠ [] ∧ given clientIp = true
  pass : leadingToken header = "pass".toList →
    isIn "pass" (x.lower header) = true ∨ isIn "fail" (x.lower header) = false
  softfail : leadingToken header = "softfail".toList →
    isIn "pass" (x.lower header) = false ∧ isIn "softfail" (x.lower header) = true
  fail : leadingToken header = "fail".toList →
    isIn "pass" (x.lower header) = false ∧ isIn "softfail" (x.lower header) = false ∧
      isIn "fail" (x.lower header) = true

variable {domain header : Str}

theorem verdictOn_of_ne_nil (hheader : header ≠ []) :
    verdictOn x (some header) = (headerVerdict (x.lower header)).getD "PASS" := by
  simp [verdictOn, given, hheader]

theorem ne_nil_of_leadingToken {token : Str} (h : leadingToken header = token) (hne : token ≠ []) :
    header ≠ [] := by
  rintro rfl
  exact hne h.symm

/-- What the two readings have to say of a status. -/
theorem readAlike_iff : ReadAlike x domain clientIp header ↔
    (statusOfToken (leadingToken header) ∈ [AuthenticationStatus.pass, .fail, .softfail] →
      (evaluateSpfRecord x domain clientIp (some header)).result =
        (statusOfToken (leadingToken header)).value) := by
  obtain ⟨r, hr, hstatus⟩ := interpret_receivedSpf header
  unfold ReadAlike
  rw [hr, ← hstatus]
  constructor
  · exact fun h => h r rfl
  · intro h r' hr'
    cases hr'
    exact h

theorem isIn_iff {part : String} {text : Str} : isIn part text = true ↔ part.toList <:+: text :=
  decide_eq_true_iff

/-- A header with a soft fail in it has a fail in it. -/
theorem isIn_fail_of_softfail {text : Str} (h : isIn "softfail" text = true) :
    isIn "fail" text = true := by
  have hpart : "fail".toList <:+: "softfail".toList := by decide
  exact isIn_iff.2 (hpart.trans (isIn_iff.1 h))

/-- The verdicts, by the parts of the header. -/
theorem headerVerdict_iff (text : Str) :
    ((headerVerdict text).getD "PASS" = "PASS" ↔
      isIn "pass" text = true ∨ isIn "fail" text = false) ∧
    ((headerVerdict text).getD "PASS" = "SOFTFAIL" ↔
      isIn "pass" text = false ∧ isIn "softfail" text = true) ∧
    ((headerVerdict text).getD "PASS" = "FAIL" ↔
      isIn "pass" text = false ∧ isIn "softfail" text = false ∧ isIn "fail" text = true) := by
  have hsoft : isIn "softfail" text = true → isIn "fail" text = true := isIn_fail_of_softfail
  unfold headerVerdict
  cases hpass : isIn "pass" text with
  | true => simp
  | false =>
    cases hsoftfail : isIn "softfail" text with
    | true => simp [hsoft hsoftfail]
    | false =>
      cases hfail : isIn "fail" text with
      | true => simp
      | false => simp

/-- What `evaluate_spf_record` answers on a header that is not empty. -/
theorem evaluateSpfRecord_eq_iff (hheader : header ≠ []) {verdict : String} (hne : verdict ≠ "NONE") :
    (evaluateSpfRecord x domain clientIp (some header)).result = verdict ↔
      (domain ≠ [] ∧ given clientIp = true) ∧
        (headerVerdict (x.lower header)).getD "PASS" = verdict := by
  rw [evaluateSpfRecord_result, verdictOn_of_ne_nil hheader]
  split_ifs with hasked
  · simp [hasked]
  · simp [hasked, Ne.symm hne]

/-- The three words that are verdicts. -/
theorem statusOfToken_mem_iff {token : Str} :
    statusOfToken token ∈ [AuthenticationStatus.pass, .fail, .softfail] ↔
      token ∈ ["pass", "softfail", "fail"].map String.toList := by
  unfold statusOfToken
  split_ifs with hpass hfail hsoftfail hnone
  · simp [hpass]
  · simp [hfail]
  · simp [hsoftfail]
  · simp [hnone]
  · simpa using ⟨hpass, hsoftfail, hfail⟩

/-- **The two readings of a `Received-SPF` header agree** exactly if the first word is no verdict, or
the domain and the address are given and the first word is the first verdict that is found
anywhere in the header. -/
theorem readings_agree_iff (x : Unicode) (domain : Str) (clientIp : Option Str) (header : Str) :
    ReadAlike x domain clientIp header ↔ Agreeing x domain clientIp header := by
  obtain ⟨hpass, hsoftfail, hfail⟩ := headerVerdict_iff (x.lower header)
  have hread : ∀ word verdict : String, leadingToken header = word.toList → word.toList ≠ [] →
      (statusOfToken word.toList).value = verdict → verdict ≠ "NONE" →
      ((evaluateSpfRecord x domain clientIp (some header)).result =
          (statusOfToken (leadingToken header)).value ↔
        (domain ≠ [] ∧ given clientIp = true) ∧
          (headerVerdict (x.lower header)).getD "PASS" = verdict) := by
    intro word verdict htoken hword hvalue hverdict
    rw [htoken, hvalue]
    exact evaluateSpfRecord_eq_iff (ne_nil_of_leadingToken htoken hword) hverdict
  have hpassAt := fun htoken => hread "pass" "PASS" htoken (by decide)
    (by decide) (by decide)
  have hsoftfailAt := fun htoken => hread "softfail" "SOFTFAIL" htoken
    (by decide) (by decide) (by decide)
  have hfailAt := fun htoken => hread "fail" "FAIL" htoken (by decide)
    (by decide) (by decide)
  rw [readAlike_iff, statusOfToken_mem_iff]
  constructor
  · intro h
    refine ⟨fun hmem => ?_, fun htoken => ?_, fun htoken => ?_, fun htoken => ?_⟩
    · obtain ⟨word, hword, htoken⟩ := List.mem_map.1 hmem
      simp only [List.mem_cons, List.not_mem_nil, or_false] at hword
      rcases hword with rfl | rfl | rfl
      · exact ((hpassAt htoken.symm).1 (h hmem)).1
      · exact ((hsoftfailAt htoken.symm).1 (h hmem)).1
      · exact ((hfailAt htoken.symm).1 (h hmem)).1
    · exact hpass.1 ((hpassAt htoken).1 (h (by rw [htoken]; decide))).2
    · exact hsoftfail.1 ((hsoftfailAt htoken).1 (h (by rw [htoken]; decide))).2
    · exact hfail.1 ((hfailAt htoken).1 (h (by rw [htoken]; decide))).2
  · rintro ⟨hasked, hpass', hsoftfail', hfail'⟩ hmem
    obtain ⟨word, hword, htoken⟩ := List.mem_map.1 hmem
    simp only [List.mem_cons, List.not_mem_nil, or_false] at hword
    rcases hword with rfl | rfl | rfl
    · exact (hpassAt htoken.symm).2 ⟨hasked hmem, hpass.2 (hpass' htoken.symm)⟩
    · exact (hsoftfailAt htoken.symm).2 ⟨hasked hmem, hsoftfail.2 (hsoftfail' htoken.symm)⟩
    · exact (hfailAt htoken.symm).2 ⟨hasked hmem, hfail.2 (hfail' htoken.symm)⟩

/-- **A pass in a comment**: the interpreter reads a failure, `evaluate_spf_record` a pass. -/
theorem readings_differ :
    ¬ReadAlike asciiUnicode "bank.test".toList (some "203.0.113.9".toList)
      "fail (sender tried to bypass the policy)".toList := by
  rw [readAlike_iff]
  decide +kernel

end ScamOn.Authentication
