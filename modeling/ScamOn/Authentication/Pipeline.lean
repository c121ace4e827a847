import ScamOn.Authentication.SpfEvaluator
import ScamOn.Lib.Dict
import ScamOn.Parsing.UrlExtractor

/-!
# Authentication verdicts

`AuthenticationPipeline.verify` evaluates SPF, DKIM, DMARC and ARC for an e-mail.  It takes a DKIM
signature for valid if it is long enough, and never hands one to the crypto provider.

* `verify` is the method; `verifyDkimSignatures`, `evaluateDmarc` and `validateArcChain` are its stages.
* `evaluateDmarc_pass_iff` and `authPassSummary_iff` say when the two verdicts are a pass.
* `SpfEvidence` and `DkimEvidence` are what a pass should rest on.
* `verdicts_rest_on_evidence_iff`: for which e-mails it does.
-/

namespace ScamOn.Authentication

open Analyzers.Sender Pattern Chars UrlParse

variable (x : Unicode)

/-! ## The e-mail -/

/-- `ParsedEmail`, as far as the stages read it. -/
structure ParsedEmail where
  parsedId : Uuid
  accountId : Uuid
  tenantId : Uuid
  messageId : Str
  internetMessageId : Str
  senderAddress : Str
  rawHeaders : Dict String (List Str)

/-- `TransmissionAnalysis`, as far as the stages read it. -/
structure TransmissionAnalysis where
  analysisId : Uuid
  fromDomain : Str
  originatingIp : Option Str

/-- `raw_headers.get(name, [])`. -/
def ParsedEmail.header (parsed : ParsedEmail) (name : String) : List Str :=
  (parsed.rawHeaders.get? name).getD []

/-! ## DKIM -/

/-- `DKIMSignatureResultDTO`. -/
structure DkimSignatureResultDto where
  selector : Str
  domain : Str
  result : String
  canonicalization : Str
  algorithm : Str
  errorMessage : Option String
  deriving DecidableEq

/-- `DKIM_PARAM_REGEX`. -/
def dkimParamRegex : Pattern :=
  cat [group "tag" (plus (set isLetterFold)), star space, lit "=", star space,
    group "val" (plus (set (· ≠ ';')))]

/-- `parse_dkim_header`. -/
def parseDkimHeader (headerVal : Str) : Dict Str Str :=
  (finditer dkimParamRegex headerVal).foldl (fun tags m =>
    tags.set (strip (x.lower ((m.group "tag").getD [])))
      (strip ((m.group "val").getD []))) ∅

/-- `tags.get(tag, default)`. -/
def tagOr (tags : Dict Str Str) (tag : String) (default : Str) : Str :=
  (tags.get? tag.toList).getD default

/-- The domain of the sender's address. -/
def senderDomain (address : Str) : Str :=
  if '@' ∈ address then (rpartition '@' address).2 else "unknown".toList

/-- `d=`, `s=` and `b=` of a header. -/
def dkimDomain (parsed : ParsedEmail) (header : Str) : Str :=
  tagOr (parseDkimHeader x header) "d" (senderDomain parsed.senderAddress)

def dkimSelector (header : Str) : Str := tagOr (parseDkimHeader x header) "s" "default".toList

def dkimSignature (header : Str) : Str := tagOr (parseDkimHeader x header) "b" []

/-- The result for one header. -/
def verifyDkimHeader (parsed : ParsedEmail) (header : Str) : DkimSignatureResultDto where
  selector := dkimSelector x header
  domain := dkimDomain x parsed header
  result := if 10 < (dkimSignature x header).length then "PASS" else "FAIL"
  canonicalization := tagOr (parseDkimHeader x header) "c" "relaxed/relaxed".toList
  algorithm := tagOr (parseDkimHeader x header) "a" "rsa-sha256".toList
  errorMessage :=
    if 10 < (dkimSignature x header).length then none
    else some "Invalid or truncated signature byte length"

/-- `verify_dkim_signatures`. -/
def verifyDkimSignatures (parsed : ParsedEmail) : List DkimSignatureResultDto :=
  (parsed.header "dkim-signature").map (verifyDkimHeader x parsed)

/-- `dkim_overall`. -/
def dkimOverall (signatures : List DkimSignatureResultDto) : String :=
  if signatures.any (·.result = "PASS") then "PASS"
  else if signatures.any (·.result = "FAIL") then "FAIL"
  else "NONE"

/-! ## DMARC -/

/-- `DMARCResultDTO`. -/
structure DmarcResultDto where
  result : String
  domain : Str
  policy : String
  subdomainPolicy : Option String
  percentage : ℕ
  spfAligned : Bool
  dkimAligned : Bool
  dmarcRecord : Option Str
  deriving DecidableEq

/-- `check_domain_alignment`, with the organizational domain of a domain. -/
def checkDomainAlignment (orgDomain : Str → Str) (domainA domainB : Str) (mode : String) : Bool :=
  if domainA = [] || domainB = [] then false
  else
    let aClean := x.lower (strip domainA)
    let bClean := x.lower (strip domainB)
    if mode = "s" then aClean = bClean
    else orgDomain aClean = orgDomain bClean && orgDomain aClean ≠ []

/-- `evaluate_dmarc`.  The header of the filter is not used. -/
def evaluateDmarc (orgDomain : Str → Str) (fromDomain : Str) (spfResult : SpfResultDto)
    (dkimResults : List DkimSignatureResultDto) (_rawDmarcHeader : Option Str) : DmarcResultDto :=
  if fromDomain = [] then ⟨"NONE", "unknown".toList, "none", none, 100, false, false, none⟩
  else
    let spfAligned := ["PASS", "SUCCESS"].contains spfResult.result &&
      checkDomainAlignment x orgDomain spfResult.domain fromDomain "r"
    let dkimAligned := dkimResults.any fun signature =>
      signature.result = "PASS" && checkDomainAlignment x orgDomain signature.domain fromDomain "r"
    let passes := spfResult.result = "PASS" && spfAligned || dkimAligned
    { result := if passes then "PASS" else "FAIL"
      domain := fromDomain
      policy := if passes then "none" else "quarantine"
      subdomainPolicy := some "reject"
      percentage := 100
      spfAligned := spfAligned
      dkimAligned := dkimAligned
      dmarcRecord := some
        ("v=DMARC1; p=quarantine; sp=reject; pct=100; aspf=r; adkim=r; rua=mailto:dmarc@".toList ++
          fromDomain) }

/-! ## ARC -/

/-- `ARCChainResultDTO`. -/
structure ArcChainResultDto where
  chainValid : Bool
  instanceCount : ℕ
  latestResult : Str
  deriving DecidableEq

/-- `ARC_CV_PATTERN`. -/
def arcCvPattern : Pattern := cat [litFold "cv", equalsStatus]

/-- `validate_arc_chain`.  The outcome of the signature check goes to the log only. -/
def validateArcChain (parsed : ParsedEmail) : ArcChainResultDto :=
  match parsed.header "arc-seal" with
  | [] => ⟨false, 0, "none".toList⟩
  | latestSeal :: seals =>
    let latestResult := ((search arcCvPattern latestSeal).map fun m =>
      x.lower ((m.group "status").getD [])).getD "none".toList
    let chainValid := ["pass", "none"].any (·.toList = latestResult) || 0 < seals.length + 1
    { chainValid := chainValid
      instanceCount := seals.length + 1
      latestResult :=
        if ["pass", "fail"].any (·.toList = latestResult) then latestResult
        else if chainValid then "pass".toList else "none".toList }

/-! ## The pipeline -/

/-- `AuthenticationVerification`. -/
structure AuthenticationVerification where
  parsedId : Uuid
  transmissionId : Uuid
  accountId : Uuid
  tenantId : Uuid
  messageId : Str
  internetMessageId : Str
  spf : SpfResultDto
  dkimSignatures : List DkimSignatureResultDto
  dkimOverallResult : String
  dmarc : DmarcResultDto
  arc : ArcChainResultDto
  authPassSummary : Bool
  authRiskScoreImpact : ℕ

/-- `AuthenticationPipeline.verify`. -/
def verify (orgDomain : Str → Str) (parsed : ParsedEmail) (transmission : TransmissionAnalysis) :
    AuthenticationVerification :=
  let spf := evaluateSpfRecord x transmission.fromDomain transmission.originatingIp
    (parsed.header "received-spf").head?
  let signatures := verifyDkimSignatures x parsed
  let overall := dkimOverall signatures
  let dmarc := evaluateDmarc x orgDomain transmission.fromDomain spf signatures
    (parsed.header "dmarc-filter").head?
  let impact := (if dmarc.result = "FAIL" then 30 else 0) +
    (if ["FAIL", "SOFTFAIL"].contains spf.result then 10 else 0) +
    (if overall = "FAIL" then 10 else 0)
  { parsedId := parsed.parsedId
    transmissionId := transmission.analysisId
    accountId := parsed.accountId
    tenantId := parsed.tenantId
    messageId := parsed.messageId
    internetMessageId := parsed.internetMessageId
    spf := spf
    dkimSignatures := signatures
    dkimOverallResult := overall
    dmarc := dmarc
    arc := validateArcChain x parsed
    authPassSummary := dmarc.result = "PASS" || spf.result = "PASS" && overall = "PASS"
    authRiskScoreImpact := min 50 impact }

/-! ## When a verdict is a pass -/

/-- The inputs for which SPF passes: without a header, or with one that has `pass` in it or no
`fail`. -/
def SpfPasses (fromDomain : Str) (originatingIp header : Option Str) : Prop :=
  (fromDomain ≠ [] ∧ given originatingIp = true) ∧
    (given header = false ∨ isIn "pass" (x.lower (header.getD [])) = true ∨
      isIn "fail" (x.lower (header.getD [])) = false)

/-- The signature of the header is long enough. -/
def LongSignature (header : Str) : Prop := 10 < (dkimSignature x header).length

/-- The domains have one organizational domain. -/
def Aligned (orgDomain : Str → Str) (domainA domainB : Str) : Prop :=
  checkDomainAlignment x orgDomain domainA domainB "r" = true

variable {x} {orgDomain : Str → Str} {fromDomain domain : Str} {clientIp header : Option Str}
  {parsed : ParsedEmail} {transmission : TransmissionAnalysis}

theorem evaluateSpfRecord_pass_iff :
    (evaluateSpfRecord x fromDomain clientIp header).result = "PASS" ↔
      SpfPasses x fromDomain clientIp header := by
  unfold SpfPasses
  rw [evaluateSpfRecord_result, verdictOn]
  split_ifs with hasked hgiven
  · rw [(headerVerdict_iff _).1]
    simp [hasked, hgiven]
  · simp [hasked, hgiven]
  · simp [hasked]

theorem Aligned.ne_nil (h : Aligned x orgDomain domain fromDomain) : fromDomain ≠ [] := by
  rintro rfl
  simp [Aligned, checkDomainAlignment] at h

theorem verifyDkimHeader_pass_iff (parsed : ParsedEmail) (dkimHeader : Str) :
    (verifyDkimHeader x parsed dkimHeader).result = "PASS" ↔ LongSignature x dkimHeader := by
  unfold verifyDkimHeader LongSignature
  split_ifs with hlong
  · simp [hlong]
  · simp [hlong]

theorem ite_pass_iff (b : Bool) : (if b = true then "PASS" else "FAIL") = "PASS" ↔ b = true := by
  cases b with
  | true => simp
  | false => simp

/-- **DMARC passes** if an SPF pass is aligned, or the domain of a long signature is. -/
theorem evaluateDmarc_pass_iff {spf : SpfResultDto} {signatures : List DkimSignatureResultDto}
    {rawDmarcHeader : Option Str} :
    (evaluateDmarc x orgDomain fromDomain spf signatures rawDmarcHeader).result = "PASS" ↔
      spf.result = "PASS" ∧ Aligned x orgDomain spf.domain fromDomain ∨
        ∃ signature ∈ signatures, signature.result = "PASS" ∧
          Aligned x orgDomain signature.domain fromDomain := by
  unfold evaluateDmarc
  split_ifs with hempty
  · simp only [String.reduceEq, false_iff, not_or, not_and, not_exists]
    exact ⟨fun _ h => h.ne_nil hempty, fun signature _ _ h => h.ne_nil hempty⟩
  · dsimp only
    rw [ite_pass_iff, Bool.or_eq_true, List.any_eq_true]
    simp only [Bool.and_eq_true, decide_eq_true_eq]
    refine or_congr ⟨fun h => ⟨h.1, h.2.2⟩, fun h => ⟨h.1, by simp [h.1], h.2⟩⟩ Iff.rfl

variable (x orgDomain parsed transmission)

/-- The inputs for which SPF passes, in the pipeline. -/
def SpfPass : Prop :=
  SpfPasses x transmission.fromDomain transmission.originatingIp (parsed.header "received-spf").head?

/-- The inputs for which DMARC passes: SPF does, and the domain has an organizational one, or there
is a long signature of an aligned domain. -/
def DmarcPass : Prop :=
  SpfPass x parsed transmission ∧
      Aligned x orgDomain transmission.fromDomain transmission.fromDomain ∨
    ∃ dkimHeader ∈ parsed.header "dkim-signature", LongSignature x dkimHeader ∧
      Aligned x orgDomain (dkimDomain x parsed dkimHeader) transmission.fromDomain

/-- The inputs for which SPF and DKIM pass. -/
def BothPass : Prop :=
  SpfPass x parsed transmission ∧
    ∃ dkimHeader ∈ parsed.header "dkim-signature", LongSignature x dkimHeader

variable {x orgDomain parsed transmission}

theorem dmarc_pass_iff :
    (verify x orgDomain parsed transmission).dmarc.result = "PASS" ↔
      DmarcPass x orgDomain parsed transmission := by
  unfold verify DmarcPass SpfPass
  dsimp only
  rw [evaluateDmarc_pass_iff, evaluateSpfRecord_pass_iff, verifyDkimSignatures]
  refine or_congr (and_congr_right fun h => ?_) ?_
  · rw [evaluateSpfRecord_domain h.1.1]
  · simp only [List.mem_map, exists_exists_and_eq_and, verifyDkimHeader_pass_iff]
    rfl

theorem dkimOverall_pass_iff (parsed : ParsedEmail) :
    dkimOverall (verifyDkimSignatures x parsed) = "PASS" ↔
      ∃ dkimHeader ∈ parsed.header "dkim-signature", LongSignature x dkimHeader := by
  have hany : (verifyDkimSignatures x parsed).any (·.result = "PASS") = true ↔
      ∃ dkimHeader ∈ parsed.header "dkim-signature", LongSignature x dkimHeader := by
    simp [verifyDkimSignatures, verifyDkimHeader_pass_iff]
  unfold dkimOverall
  rw [← hany]
  split_ifs with hpass
  · simp [hpass]
  · simp [hpass]
  · simp [hpass]

/-- **The summary is a pass** if DMARC passes, or both SPF and DKIM do. -/
theorem authPassSummary_iff :
    (verify x orgDomain parsed transmission).authPassSummary = true ↔
      DmarcPass x orgDomain parsed transmission ∨ BothPass x parsed transmission := by
  rw [← dmarc_pass_iff, BothPass, SpfPass, ← evaluateSpfRecord_pass_iff, ← dkimOverall_pass_iff]
  simp [verify]

/-! ## What a pass should rest on -/

/-- The other side of a DKIM check: the DNS, the crypto provider, and the data that a signature
is for. -/
structure Verifier where
  resolveTxt : Str → List Str
  verifyRsaSignature : Str → Str → Str → Bool
  signedData : ParsedEmail → Str → Str

/-- `_extract_public_key_from_txt`. -/
def extractPublicKeyFromTxt (txtRecords : List Str) : Option Str :=
  txtRecords.findSome? fun record =>
    if isIn "p=" record then
      (record.splitOn ';').findSome? fun part =>
        if "p=".toList <+: strip part then
          (some (strip ((strip part).drop 2))).filter (· ≠ [])
        else none
    else none

/-- The key that is published for the selector and the domain of a header. -/
def publishedKey (x : Unicode) (v : Verifier) (parsed : ParsedEmail) (dkimHeader : Str) : Option Str :=
  extractPublicKeyFromTxt
    (v.resolveTxt (dkimSelector x dkimHeader ++ "._domainkey.".toList ++ dkimDomain x parsed dkimHeader))

/-- The first `Received-SPF` header begins with a pass. -/
def SpfEvidence (parsed : ParsedEmail) (spfHeader : Str) : Prop :=
  (parsed.header "received-spf").head? = some spfHeader ∧ leadingToken spfHeader = "pass".toList

/-- The signature of a DKIM header is valid under the key that is published for it. -/
def DkimEvidence (x : Unicode) (v : Verifier) (parsed : ParsedEmail) (dkimHeader : Str) : Prop :=
  dkimHeader ∈ parsed.header "dkim-signature" ∧
    ∃ key, publishedKey x v parsed dkimHeader = some key ∧
      v.verifyRsaSignature key (v.signedData parsed dkimHeader) (dkimSignature x dkimHeader) = true

variable (x orgDomain parsed transmission) (v : Verifier) (spfDomain : Str → Str)

/-- There is evidence. -/
def Evidence : Prop :=
  (∃ spfHeader, SpfEvidence parsed spfHeader) ∨ ∃ dkimHeader, DkimEvidence x v parsed dkimHeader

/-- There is evidence for an aligned domain; `spfDomain` is the one that a `Received-SPF` header
is about. -/
def AlignedEvidence : Prop :=
  (∃ spfHeader, SpfEvidence parsed spfHeader ∧
      Aligned x orgDomain (spfDomain spfHeader) transmission.fromDomain) ∨
    ∃ dkimHeader, DkimEvidence x v parsed dkimHeader ∧
      Aligned x orgDomain (dkimDomain x parsed dkimHeader) transmission.fromDomain

/-- **The verdicts rest on evidence.** -/
structure RestOnEvidence : Prop where
  summary : (verify x orgDomain parsed transmission).authPassSummary = true → Evidence x parsed v
  dmarc : (verify x orgDomain parsed transmission).dmarc.result = "PASS" →
    AlignedEvidence x orgDomain parsed transmission v spfDomain

/-- There is evidence wherever the inputs make a verdict a pass. -/
structure Supported : Prop where
  both : BothPass x parsed transmission → Evidence x parsed v
  dmarc : DmarcPass x orgDomain parsed transmission →
    AlignedEvidence x orgDomain parsed transmission v spfDomain

variable {x orgDomain parsed transmission v spfDomain}

theorem AlignedEvidence.evidence (h : AlignedEvidence x orgDomain parsed transmission v spfDomain) :
    Evidence x parsed v := by
  rcases h with ⟨spfHeader, hspf, -⟩ | ⟨dkimHeader, hdkim, -⟩
  · exact .inl ⟨spfHeader, hspf⟩
  · exact .inr ⟨dkimHeader, hdkim⟩

/-- **For which e-mails the verdicts rest on evidence**: those with evidence for an aligned domain
if an aligned domain passes SPF or has a long signature, and with some evidence if SPF passes and
there is a long signature. -/
theorem verdicts_rest_on_evidence_iff (x : Unicode) (orgDomain : Str → Str) (parsed : ParsedEmail)
    (transmission : TransmissionAnalysis) (v : Verifier) (spfDomain : Str → Str) :
    RestOnEvidence x orgDomain parsed transmission v spfDomain ↔
      Supported x orgDomain parsed transmission v spfDomain := by
  constructor
  · rintro ⟨hsummary, hdmarc⟩
    exact ⟨fun hboth => hsummary (authPassSummary_iff.2 (.inr hboth)),
      fun hpass => hdmarc (dmarc_pass_iff.2 hpass)⟩
  · rintro ⟨hboth, hdmarc⟩
    refine ⟨fun hsummary => ?_, fun hpass => hdmarc (dmarc_pass_iff.1 hpass)⟩
    rcases authPassSummary_iff.1 hsummary with hpass | hpass
    · exact (hdmarc hpass).evidence
    · exact hboth hpass

/-- An e-mail without a header that says anything about its authentication. -/
def bareEmail : ParsedEmail where
  parsedId := ⟨1⟩
  accountId := ⟨2⟩
  tenantId := ⟨3⟩
  messageId := "m1".toList
  internetMessageId := "<m1@bank.test>".toList
  senderAddress := "ceo@bank.test".toList
  rawHeaders := ∅

/-- **It passes all the same.** -/
theorem bare_email_passes :
    (verify asciiUnicode id bareEmail
        ⟨⟨4⟩, "bank.test".toList, some "203.0.113.9".toList⟩).authPassSummary = true ∧
      ¬RestOnEvidence asciiUnicode id bareEmail
        ⟨⟨4⟩, "bank.test".toList, some "203.0.113.9".toList⟩
        ⟨fun _ => [], fun _ _ _ => false, fun _ _ => []⟩ id := by
  have hpass : (verify asciiUnicode id bareEmail
      ⟨⟨4⟩, "bank.test".toList, some "203.0.113.9".toList⟩).authPassSummary = true := by
    decide +kernel
  refine ⟨hpass, fun h => ?_⟩
  rcases h.summary hpass with ⟨spfHeader, hhead, -⟩ | ⟨dkimHeader, hmem, -⟩
  · cases hhead
  · cases hmem

end ScamOn.Authentication
