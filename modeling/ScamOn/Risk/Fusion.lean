import ScamOn.Lib.PyValue
import ScamOn.Risk.MultimodalScore
import ScamOn.UrlIntelligence.Pipeline

/-!
# Fusing the signals of an e-mail

`MultimodalSignalFuser.fuse_signals` turns what the other modules found out about an e-mail
into signals, domain by domain: authentication, transmission and threat intelligence, which
are always there, and content, media, URL and correlation, which may not be.

* `normalizeAuthSignals` and the six others follow the source, one for each domain.
* `fuseSignals` puts them one after the other.  A signal with a score or a confidence outside
  `[0, 1]` cannot be built, and an infinite age has no integer; only the results of the threat
  feeds can go wrong so.
* `scalesOf_fused` says what the rules against double counting depend on, and `fusedScore_mono`
  that more results do not lower the score.
-/

namespace ScamOn.Risk

open UrlIntelligence (MediaStatus)

/-! ## Fractions -/

/-- A number from `0` to `1`. -/
abbrev Fraction : Type := {q : ℚ // 0 ≤ q ∧ q ≤ 1}

/-- A number of hundredths. -/
def pct (n : Fin 101) : Fraction := ⟨(n : ℕ) / 100, by
  have hle : ((n : ℕ) : ℚ) ≤ 100 := by exact_mod_cast Nat.le_of_lt_succ n.isLt
  exact ⟨by positivity, by linarith⟩⟩

/-- `max(0.0, min(1.0, q))`. -/
def clamp (q : ℚ) : Fraction :=
  ⟨max 0 (min 1 q), le_max_left _ _, max_le zero_le_one (min_le_left _ _)⟩

/-! ## What is fused -/

/-- `DMARCResultDTO`, as far as it is read. -/
structure DmarcResult where
  result : String
  domain : String
  policy : String

/-- `SPFResultDTO`, as far as it is read. -/
structure SpfResult where
  result : String
  domain : String
  clientIp : Option String

/-- `ARCChainResultDTO`, as far as it is read. -/
structure ArcChainResult where
  chainValid : Bool
  instanceCount : ℤ

/-- `AuthenticationVerification`, as far as it is read. -/
structure AuthenticationVerification where
  dmarc : DmarcResult
  spf : SpfResult
  dkimOverallResult : String
  arc : ArcChainResult

/-- `SenderIdentityAnalysisDTO`, as far as it is read. -/
structure SenderIdentity where
  fromAddress : String
  fromDisplayName : String
  replyToAddress : Option String
  isDisplayNameSpoofed : Bool
  isReplyToMismatched : Bool
  isReplyToFreeWebmail : Bool
  isReturnPathMismatched : Bool

/-- `TransmissionAnalysis`, as far as it is read. -/
structure TransmissionAnalysis where
  senderIdentity : SenderIdentity
  isThreadHijackSuspect : Bool
  headerIntegrityScore : ℚ

/-- `ThreatIntelEnrichmentResult`, as far as it is read.  An observation is the
`domain_age_days` of its metadata, if it has one; a target is the list of its observations. -/
structure ThreatIntelEnrichment where
  maliciousIocCount : ℤ
  overallConfidence : ℚ
  matchedFeeds : List String
  enrichedTargets : List (List (Option PyValue))
  threatCategories : List String

/-- `ContentIntentAnalysisDTO`, as far as it is read, with the bounds that it validates. -/
structure ContentIntent where
  primaryIntent : String
  urgencyScore : Fraction
  financialCoercionScore : Fraction

/-- `DOMContentSignalsDTO`, as far as it is read. -/
structure DomSignals where
  hasHiddenText : Bool
  scriptTagCount : ℤ
  htmlEntityObfuscationCount : ℤ

/-- `ContentMediaEvidenceDTO`, with the bounds that it validates. -/
structure MediaEvidence where
  ocrStatus : MediaStatus
  ocrExtractedText : String
  ocrConfidence : Fraction
  qrStatus : MediaStatus
  qrDetected : Bool
  qrExtractedUrls : List String

/-- `ContentAnalysisResult`, as far as it is read. -/
structure ContentAnalysisResult where
  domSignals : DomSignals
  intentAnalysis : ContentIntent
  mediaEvidence : MediaEvidence

/-- `url_res`, which may have a `sandbox_result`, a `redirect_chain` and a
`ssrf_violation_detected`: what is read of them. -/
structure UrlResult where
  hasCredentialInputs : Option Bool
  totalHops : Option ℤ
  ssrfViolationDetected : Option Bool

/-- `ThreatCorrelationResult`, as far as it is read, with the bounds that it validates. -/
structure ThreatCorrelation where
  campaignDetected : Bool
  campaignId : Option String
  campaignScore : ℚ
  score_mem : 0 ≤ campaignScore ∧ campaignScore ≤ 10

/-- The results that a call may have or not. -/
structure Extras where
  contentRes : Option ContentAnalysisResult
  urlRes : Option UrlResult
  correlationRes : Option ThreatCorrelation

/-! ## Signals -/

/-- `f"{q:.2f}"`. -/
def fixed2 (q : ℚ) : String :=
  let hundredths := (roundHalfEven (|q| * 100)).toNat
  (if q < 0 then "-" else "") ++ toString (hundredths / 100) ++ "." ++
    (if hundredths % 100 < 10 then "0" else "") ++ toString (hundredths % 100)

example : fixed2 (17 / 20) = "0.85" ∧ fixed2 (-3 / 2) = "-1.50" ∧ fixed2 3 = "3.00" := by
  decide +kernel

/-- A signal that was evaluated, with its weight in tenths. -/
def evaluated (domain : SignalDomain) (signalName : String) (score confidence : Fraction)
    (tenths : ℕ) (positive : Bool) (explanation : String) : NormalizedSignal :=
  ⟨domain, signalName, score, confidence, tenths / 10,
    if positive then .evaluatedPositive else .evaluatedNegative, explanation, score.2, confidence.2,
    by positivity⟩

/-- A signal that was not evaluated. -/
def notEvaluated (domain : SignalDomain) (status : EvidenceStatus) (explanation signalName : String) :
    NormalizedSignal :=
  ⟨domain, signalName, pct 0, pct 0, 0, status, explanation, (pct 0).2, (pct 0).2, le_rfl⟩

/-- A signal that is on, with a fixed score, or off. -/
def flag (domain : SignalDomain) (signalName : String) (on : Bool) (score confidence : Fraction)
    (tenths : ℕ) (explanation otherwise : String) : NormalizedSignal :=
  evaluated domain signalName (if on then score else pct 0) confidence tenths on
    (if on then explanation else otherwise)

section Normalizers

variable (lower upper : String → String)

/-- `(result or "NONE").upper()`. -/
def resultOf (result : String) : String := upper (if result = "" then "NONE" else result)

/-- `_normalize_auth_signals`. -/
def normalizeAuthSignals : Option AuthenticationVerification → List NormalizedSignal
  | none => ["dmarc_result", "spf_result", "dkim_result", "arc_chain_valid"].map
      (notEvaluated .authentication .skipped "Authentication verification was not executed")
  | some auth =>
    let dmarcRes := resultOf upper auth.dmarc.result
    let spfRes := resultOf upper auth.spf.result
    let dkimRes := resultOf upper auth.dkimOverallResult
    [ if dmarcRes = "PASS" then
        evaluated .authentication "dmarc_result" (pct 0) (pct 100) 15 false
          ("DMARC validation passed for domain '" ++ auth.dmarc.domain ++ "'")
      else if dmarcRes = "FAIL" then
        evaluated .authentication "dmarc_result" (pct 100) (pct 100) 15 true
          ("DMARC validation failed for domain '" ++ auth.dmarc.domain ++ "' (Policy: " ++
            auth.dmarc.policy ++ ")")
      else
        evaluated .authentication "dmarc_result" (pct 20) (pct 100) 15 false
          ("DMARC record absent or neutral for domain '" ++ auth.dmarc.domain ++ "'"),
      if spfRes = "PASS" then
        evaluated .authentication "spf_result" (pct 0) (pct 95) 10 false
          ("SPF record passed for domain '" ++ auth.spf.domain ++ "'")
      else if spfRes = "FAIL" then
        evaluated .authentication "spf_result" (pct 90) (pct 95) 10 true
          ("SPF validation failed (Hardfail) for client IP " ++ auth.spf.clientIp.getD "None")
      else if spfRes = "SOFTFAIL" then
        evaluated .authentication "spf_result" (pct 60) (pct 95) 10 true
          ("SPF validation softfailed (~all) for client IP " ++ auth.spf.clientIp.getD "None")
      else
        evaluated .authentication "spf_result" (pct 20) (pct 95) 10 false
          ("SPF validation result: " ++ spfRes),
      if dkimRes = "PASS" then
        evaluated .authentication "dkim_result" (pct 0) (pct 95) 10 false
          "DKIM cryptographic signature verified successfully"
      else if dkimRes = "FAIL" then
        evaluated .authentication "dkim_result" (pct 80) (pct 95) 10 true
          "DKIM cryptographic signature verification failed"
      else
        evaluated .authentication "dkim_result" (pct 20) (pct 95) 10 false
          "No valid DKIM signature present",
      if auth.arc.chainValid then
        evaluated .authentication "arc_chain_valid" (pct 0) (pct 85) 8 false
          ("Authenticated Received Chain (ARC) valid across " ++ toString auth.arc.instanceCount ++
            " hop(s)")
      else
        flag .authentication "arc_chain_valid" (0 < auth.arc.instanceCount) (pct 70) (pct 85) 8
          "ARC chain invalid or broken across intermediary relays"
          "ARC chain invalid or broken across intermediary relays" ]

/-- `_normalize_transmission_signals`. -/
def normalizeTransmissionSignals : Option TransmissionAnalysis → List NormalizedSignal
  | none => ["is_display_name_spoofed", "is_reply_to_mismatched", "is_thread_hijack_suspect",
      "header_integrity_score"].map
      (notEvaluated .transmission .skipped "Transmission analysis was not executed")
  | some transmission =>
    let sender := transmission.senderIdentity
    let integrity := transmission.headerIntegrityScore
    [ flag .transmission "is_display_name_spoofed" sender.isDisplayNameSpoofed (pct 100) (pct 100) 18
        ("Executive / VIP display name spoofing detected for '" ++ sender.fromDisplayName ++ "'")
        "Sender display name aligns with From address domain",
      flag .transmission "is_reply_to_mismatched" sender.isReplyToMismatched (pct 90) (pct 95) 12
        ("Reply-To address '" ++ sender.replyToAddress.getD "None" ++
          "' differs from From address '" ++ sender.fromAddress ++ "'")
        "Reply-To address matches sender",
      flag .transmission "is_thread_hijack_suspect" transmission.isThreadHijackSuspect
        (pct 85) (pct 90) 12
        "Thread hijacking indicator detected: fake 'Re:' subject prefix without valid in-reply-to headers"
        "Thread references consistent",
      evaluated .transmission "header_integrity_score" (clamp (1 - integrity)) (pct 85) 9
        (4 / 10 < (clamp (1 - integrity)).1)
        ("Header anomaly score: " ++ fixed2 (clamp (1 - integrity)) ++ " (integrity: " ++
          fixed2 integrity ++ ")") ]

/-- The age that a target has: the first one that `int` takes.  A `ValueError` or a `TypeError` of
`int` is caught, an `OverflowError` is not. -/
def targetAge : List (Option PyValue) → Except PyException (Option ℤ)
  | [] => .ok none
  | none :: observations => targetAge observations
  | some age :: observations =>
    match age.intOf with
    | .ok n => .ok (some n)
    | .error e =>
      if e.className = "ValueError" ∨ e.className = "TypeError" then targetAge observations
      else .error e

/-- The age of the domain: that of the last target with one. -/
def whoisAge : List (List (Option PyValue)) → Except PyException (Option ℤ) :=
  List.foldlM (fun age observations => (targetAge observations).map (·.or age)) none

/-- `_normalize_threat_intel_signals`, the age of the domain. -/
def whoisSignal : Option ℤ → NormalizedSignal
  | some age =>
    if age < 7 then
      evaluated .threatIntel "whois_age_days" (pct 90) (pct 85) 9 true
        ("Newly registered domain (Age: " ++ toString age ++ " days < 7 days)")
    else if age < 30 then
      evaluated .threatIntel "whois_age_days" (pct 60) (pct 85) 9 true
        ("Recently registered domain (Age: " ++ toString age ++ " days < 30 days)")
    else
      evaluated .threatIntel "whois_age_days" (pct 0) (pct 85) 9 false
        ("Established domain (Age: " ++ toString age ++ " days)")
  | none => notEvaluated .threatIntel .unavailable
      "WHOIS domain registration age data unavailable" "whois_age_days"

/-- `_normalize_threat_intel_signals`; `none` is an error: of a signal out of bounds, or of an age
without an integer. -/
def normalizeThreatIntelSignals : Option ThreatIntelEnrichment → Option (List NormalizedSignal)
  | none => some (["malicious_ioc_count", "whois_age_days"].map
      (notEvaluated .threatIntel .skipped "Threat intelligence enrichment was not executed"))
  | some intel =>
    let malCount := intel.maliciousIocCount
    let iocScore : ℚ := min 1 (malCount * (1 / 2))
    if h : (0 ≤ iocScore ∧ iocScore ≤ 1) ∧ 0 ≤ intel.overallConfidence ∧ intel.overallConfidence ≤ 1 then
      (whoisAge intel.enrichedTargets).toOption.map fun age => [
        evaluated .threatIntel "malicious_ioc_count" ⟨iocScore, h.1⟩ ⟨intel.overallConfidence, h.2⟩
          16 (0 < malCount)
          (if 0 < malCount then
            toString malCount ++ " indicator(s) matched threat intelligence feeds: " ++
              ", ".intercalate intel.matchedFeeds
          else "No matched indicators across active threat feeds"),
        whoisSignal age ]
    else none

/-- `_normalize_content_signals`. -/
def normalizeContentSignals : Option ContentAnalysisResult → List NormalizedSignal
  | none => ["urgency_score", "financial_coercion_score", "has_hidden_dom_text",
      "tracking_beacons"].map
      (notEvaluated .content .skipped "Content intelligence was not executed")
  | some contentRes =>
    let intent := contentRes.intentAnalysis
    let dom := contentRes.domSignals
    let urgScore := clamp intent.urgencyScore
    let finScore := clamp intent.financialCoercionScore
    [ evaluated .content "urgency_score" urgScore (pct 90) 10 (4 / 10 < urgScore.1)
        ("Linguistic urgency manipulation score: " ++ fixed2 urgScore),
      evaluated .content "financial_coercion_score" finScore (pct 90) 12 (4 / 10 < finScore.1)
        ("Financial coercion / payment pressure score: " ++ fixed2 finScore ++ " (Intent: " ++
          intent.primaryIntent ++ ")"),
      flag .content "has_hidden_dom_text" dom.hasHiddenText (pct 80) (pct 95) 10
        "CSS zero-font or hidden text detected in HTML DOM" "No hidden DOM text detected",
      flag .content "tracking_beacons"
        (0 < dom.scriptTagCount || 2 < dom.htmlEntityObfuscationCount) (pct 30) (pct 80) 5
        "HTML script tags or entity obfuscation present"
        "No malicious tracking or script elements detected" ]

/-- The keywords that are looked for in the text of an image. -/
def ocrKeywords : List String := ["urgent", "invoice", "bank", "password", "wire", "security alert"]

/-- `_normalize_media_signals`, the text of an image. -/
def ocrSignal (media : MediaEvidence) : NormalizedSignal :=
  match media.ocrStatus with
  | .success =>
    evaluated .media "ocr_phishing_detected"
      (if ocrKeywords.any (Text.contains (lower media.ocrExtractedText)) then
        clamp (media.ocrConfidence * (90 / 100)) else pct 0)
      media.ocrConfidence 11 (ocrKeywords.any (Text.contains (lower media.ocrExtractedText)))
      (if ocrKeywords.any (Text.contains (lower media.ocrExtractedText)) then
        "Phishing/coercion text extracted from attachment image via OCR (Confidence: " ++
          fixed2 media.ocrConfidence ++ ")"
      else "OCR scanned attachment image without malicious keywords")
  | .unavailable => notEvaluated .media .unavailable "OCR engine unavailable" "ocr_phishing_detected"
  | .failed => notEvaluated .media .error "OCR extraction failed" "ocr_phishing_detected"
  | .skipped => notEvaluated .media .skipped
      "No image or PDF attachments present for OCR scanning" "ocr_phishing_detected"

/-- `_normalize_media_signals`, the QR codes. -/
def qrSignal (media : MediaEvidence) : NormalizedSignal :=
  match media.qrStatus with
  | .success =>
    let isMalQr := media.qrExtractedUrls.any fun u =>
      ["phish", "malicious", "login"].any (Text.contains (lower u))
    evaluated .media "qr_malicious_destination"
      (if isMalQr then pct 100 else if media.qrDetected then pct 20 else pct 0) (pct 95)
      13 media.qrDetected
      (if media.qrDetected then
        "QR code matrix detected in attachment pointing to '" ++
          media.qrExtractedUrls.head?.getD "destination" ++ "'"
      else "No QR code matrix found in attachments")
  | .unavailable => notEvaluated .media .unavailable "QR decoder engine unavailable"
      "qr_malicious_destination"
  | .failed => notEvaluated .media .error "QR code extraction failed" "qr_malicious_destination"
  | .skipped => notEvaluated .media .skipped "No image attachments present for QR scanning"
      "qr_malicious_destination"

/-- `_normalize_media_signals`. -/
def normalizeMediaSignals : Option ContentAnalysisResult → List NormalizedSignal
  | none => ["ocr_phishing_detected", "qr_malicious_destination"].map
      (notEvaluated .media .skipped "Media extraction was not executed")
  | some contentRes => [ocrSignal lower contentRes.mediaEvidence, qrSignal lower contentRes.mediaEvidence]

/-- `_normalize_url_signals`. -/
def normalizeUrlSignals : Option UrlResult → List NormalizedSignal
  | none => ["has_credential_form", "redirect_depth", "ssrf_violation"].map
      (notEvaluated .url .skipped "URL intelligence was not executed")
  | some urlRes =>
    let totalHops := urlRes.totalHops.getD 0
    [ flag .url "has_credential_form" (urlRes.hasCredentialInputs.getD false) (pct 100)
        (pct 95) 15
        "Credential harvesting login form detected in URL sandbox"
        "No password or credential input fields detected on landing page",
      evaluated .url "redirect_depth"
        (if 2 < totalHops then clamp (totalHops * (25 / 100)) else pct 0) (pct 90) 8 (2 < totalHops)
        (if 2 < totalHops then
          "Excessive HTTP redirect hops detected (" ++ toString totalHops ++ " hops)"
        else "Standard direct or single-hop link (" ++ toString totalHops ++ " hop(s))"),
      flag .url "ssrf_violation" (urlRes.ssrfViolationDetected.getD false) (pct 100) (pct 100) 20
        "SSRF attempt detected: link targets internal RFC 1918 or metadata IP"
        "No SSRF private network targets detected" ]

/-- `_normalize_correlation_signals`. -/
def normalizeCorrelationSignals : Option ThreatCorrelation → List NormalizedSignal
  | none => ["campaign_detected", "historical_similarity_score"].map
      (notEvaluated .correlation .skipped "Threat correlation was not executed")
  | some correlationRes =>
    let similarity := clamp (correlationRes.campaignScore / 10)
    [ flag .correlation "campaign_detected" correlationRes.campaignDetected (pct 85) (pct 90) 14
        ("Correlated incident cluster detected (Campaign ID: " ++
          ((correlationRes.campaignId.filter (· ≠ "")).getD "CLUSTER") ++ ")")
        "No coordinated campaign clusters matched",
      evaluated .correlation "historical_similarity_score" similarity (pct 85) 10
        (4 / 10 < similarity.1)
        ("Historical threat correlation score: " ++ fixed2 correlationRes.campaignScore ++ "/10.0") ]

/-! ## Fusing -/

/-- The signals that are always there. -/
def baseSignals (transmission : TransmissionAnalysis) (auth : AuthenticationVerification)
    (intel : ThreatIntelEnrichment) : Option (List NormalizedSignal) :=
  (normalizeThreatIntelSignals (some intel)).map fun intelSignals =>
    normalizeAuthSignals upper (some auth) ++ normalizeTransmissionSignals (some transmission) ++
      intelSignals

/-- The signals of what may be there or not. -/
def extraSignals (extras : Extras) : List NormalizedSignal :=
  normalizeContentSignals extras.contentRes ++ normalizeMediaSignals lower extras.contentRes ++
    normalizeUrlSignals extras.urlRes ++ normalizeCorrelationSignals extras.correlationRes

/-- The signals of `fuse_signals`; `none` is an error. -/
def fuseSignals (transmission : TransmissionAnalysis) (auth : AuthenticationVerification)
    (intel : ThreatIntelEnrichment) (extras : Extras) : Option (List NormalizedSignal) :=
  (baseSignals upper transmission auth intel).map (· ++ extraSignals lower extras)

end Normalizers

/-! ## The names of the signals -/

/-- The names of the signals that are always there. -/
def baseNames : List String :=
  ["dmarc_result", "spf_result", "dkim_result", "arc_chain_valid", "is_display_name_spoofed",
    "is_reply_to_mismatched", "is_thread_hijack_suspect", "header_integrity_score",
    "malicious_ioc_count", "whois_age_days"]

section Names

variable {lower upper : String → String}

theorem names_content (r : Option ContentAnalysisResult) :
    (normalizeContentSignals r).map NormalizedSignal.signalName =
      ["urgency_score", "financial_coercion_score", "has_hidden_dom_text", "tracking_beacons"] := by
  cases r <;> rfl

theorem names_media (r : Option ContentAnalysisResult) :
    (normalizeMediaSignals lower r).map NormalizedSignal.signalName =
      ["ocr_phishing_detected", "qr_malicious_destination"] := by
  cases r with
  | none => rfl
  | some r =>
    have hocr : (ocrSignal lower r.mediaEvidence).signalName = "ocr_phishing_detected" := by
      unfold ocrSignal
      split <;> rfl
    have hqr : (qrSignal lower r.mediaEvidence).signalName = "qr_malicious_destination" := by
      unfold qrSignal
      split <;> rfl
    simp [normalizeMediaSignals, hocr, hqr]

theorem names_url (r : Option UrlResult) :
    (normalizeUrlSignals r).map NormalizedSignal.signalName =
      ["has_credential_form", "redirect_depth", "ssrf_violation"] := by
  cases r <;> rfl

theorem names_correlation (r : Option ThreatCorrelation) :
    (normalizeCorrelationSignals r).map NormalizedSignal.signalName =
      ["campaign_detected", "historical_similarity_score"] := by
  cases r <;> rfl

theorem names_auth (auth : AuthenticationVerification) :
    (normalizeAuthSignals upper (some auth)).map NormalizedSignal.signalName =
      ["dmarc_result", "spf_result", "dkim_result", "arc_chain_valid"] := by
  simp only [normalizeAuthSignals, List.map_cons, List.map_nil, apply_ite NormalizedSignal.signalName,
    evaluated, flag, ite_self]

theorem name_whoisSignal (age : Option ℤ) : (whoisSignal age).signalName = "whois_age_days" := by
  cases age with
  | none => rfl
  | some age => simp only [whoisSignal, apply_ite NormalizedSignal.signalName, evaluated, ite_self]

theorem names_intel {intel : ThreatIntelEnrichment} {l : List NormalizedSignal}
    (h : normalizeThreatIntelSignals (some intel) = some l) :
    l.map NormalizedSignal.signalName = ["malicious_ioc_count", "whois_age_days"] := by
  unfold normalizeThreatIntelSignals at h
  dsimp only at h
  split at h
  · obtain ⟨age, -, rfl⟩ := Option.map_eq_some_iff.1 h
    simp [evaluated, name_whoisSignal]
  · cases h

theorem names_base {transmission : TransmissionAnalysis} {auth : AuthenticationVerification}
    {intel : ThreatIntelEnrichment} {l : List NormalizedSignal}
    (h : baseSignals upper transmission auth intel = some l) :
    l.map NormalizedSignal.signalName = baseNames := by
  obtain ⟨intelSignals, hintel, rfl⟩ := Option.map_eq_some_iff.1 h
  rw [List.map_append, List.map_append, names_auth, names_intel hintel]
  rfl

theorem names_extra (extras : Extras) :
    (extraSignals lower extras).map NormalizedSignal.signalName =
      ["urgency_score", "financial_coercion_score", "has_hidden_dom_text", "tracking_beacons",
        "ocr_phishing_detected", "qr_malicious_destination", "has_credential_form", "redirect_depth",
        "ssrf_violation", "campaign_detected", "historical_similarity_score"] := by
  unfold extraSignals
  rw [List.map_append, List.map_append, List.map_append, names_content, names_media, names_url,
    names_correlation]
  rfl

end Names

/-! ## What the rules depend on -/

section Rules

variable {l m : List NormalizedSignal} {name : String}

theorem signalNamed_eq_none (h : name ∉ l.map NormalizedSignal.signalName) :
    signalNamed l name = none := by
  unfold signalNamed
  rw [List.find?_eq_none]
  intro s hs hname
  exact h (List.mem_map.2 ⟨s, List.mem_reverse.1 hs, of_decide_eq_true hname⟩)

theorem elevated_append_left (h : name ∉ m.map NormalizedSignal.signalName) :
    elevated (l ++ m) name = elevated l name := by
  have hnone := signalNamed_eq_none h
  unfold signalNamed at hnone
  unfold elevated signalNamed
  rw [List.reverse_append, List.find?_append, hnone, Option.none_or]

theorem elevated_append_right (h : name ∉ l.map NormalizedSignal.signalName) :
    elevated (l ++ m) name = elevated m name := by
  have hnone := signalNamed_eq_none h
  unfold signalNamed at hnone
  unfold elevated signalNamed
  rw [List.reverse_append, List.find?_append, hnone, Option.or_none]

/-- **The rules against double counting** read the signals that are always there, and whether
the sandbox saw a form. -/
theorem scalesOf_fused {lower : String → String} {base : List NormalizedSignal}
    (hbase : base.map NormalizedSignal.signalName = baseNames) (extras : Extras) :
    scalesOf (base ++ extraSignals lower extras) =
      ⟨(scalesOf base).spf,
        if elevated base "malicious_ioc_count" &&
          elevated (normalizeUrlSignals extras.urlRes) "has_credential_form" then 1 / 2 else 1,
        (scalesOf base).becLinguistics⟩ := by
  have hleft : ∀ name ∈ ["dmarc_result", "spf_result", "malicious_ioc_count",
      "is_display_name_spoofed"],
      elevated (base ++ extraSignals lower extras) name = elevated base name := by
    intro name hname
    apply elevated_append_left
    rw [names_extra]
    revert name
    decide
  have hform : elevated (base ++ extraSignals lower extras) "has_credential_form" =
      elevated (normalizeUrlSignals extras.urlRes) "has_credential_form" := by
    unfold extraSignals
    rw [elevated_append_right (by rw [hbase]; decide),
      elevated_append_left (by rw [names_correlation]; decide),
      elevated_append_right (by rw [List.map_append, names_content, names_media]; decide)]
  unfold scalesOf
  rw [hform, hleft "dmarc_result" (by decide), hleft "spf_result" (by decide),
    hleft "malicious_ioc_count" (by decide), hleft "is_display_name_spoofed" (by decide)]

/-- Every factor but that of the form depends on the signals that are always there. -/
theorem scaleFactor_fused {lower : String → String} {base : List NormalizedSignal}
    (hbase : base.map NormalizedSignal.signalName = baseNames) (extras : Extras)
    (hname : name ≠ "has_credential_form") :
    scaleFactor (scalesOf (base ++ extraSignals lower extras)) name =
      scaleFactor (scalesOf base) name := by
  rw [scalesOf_fused hbase]
  unfold scaleFactor
  simp only [if_neg hname]

end Rules

/-! ## More results -/

/-- The second has every result that the first has. -/
structure Extras.ExtendedBy (e e' : Extras) : Prop where
  content : e.contentRes = none ∨ e'.contentRes = e.contentRes
  url : e.urlRes = none ∨ e'.urlRes = e.urlRes
  correlation : e.correlationRes = none ∨ e'.correlationRes = e.correlationRes

section Mono

variable {lower : String → String} {base : List NormalizedSignal}

theorem domainRawPts_nonneg (signals l : List NormalizedSignal) (d : SignalDomain) :
    0 ≤ domainRawPts (scalesOf signals) l d := by
  refine List.sum_nonneg fun q hq => ?_
  obtain ⟨s, -, rfl⟩ := List.mem_map.1 hq
  exact signalPts_nonneg signals s

/-- Signals that were not evaluated bring no points. -/
theorem domainRawPts_notEvaluated (sc : Scales) (domain : SignalDomain) (explanation : String)
    (names : List String) (d : SignalDomain) :
    domainRawPts sc (names.map (notEvaluated domain .skipped explanation)) d = 0 := by
  induction names with
  | nil => rfl
  | cons name names ih =>
    rw [List.map_cons, domainRawPts_cons, ih, add_zero]
    exact if_neg fun h => by cases h.2

theorem domainRawPts_congr {sc sc' : Scales} {l : List NormalizedSignal}
    (h : ∀ t ∈ l, scaleFactor sc t.signalName = scaleFactor sc' t.signalName) (d : SignalDomain) :
    domainRawPts sc l d = domainRawPts sc' l d :=
  le_antisymm (domainRawPts_mono_scales (fun t ht _ => (h t ht).le) d)
    (domainRawPts_mono_scales (fun t ht _ => (h t ht).ge) d)

/-- **One result more**: what was skipped brings points, what was there brings the same. -/
theorem block_le {ρ : Type*} (f : Option ρ → List NormalizedSignal) (sc : Scales)
    (signals : List NormalizedSignal) (d : SignalDomain) {r r' : Option ρ}
    (hskipped : domainRawPts sc (f none) d = 0) (hr : r = none ∨ r' = r)
    (hfactor : r' = r → ∀ t ∈ f r,
      scaleFactor sc t.signalName = scaleFactor (scalesOf signals) t.signalName) :
    domainRawPts sc (f r) d ≤ domainRawPts (scalesOf signals) (f r') d := by
  rcases hr with rfl | hr
  · rw [hskipped]
    exact domainRawPts_nonneg signals _ d
  · rw [hr]
    exact (domainRawPts_congr (hfactor hr) d).le

theorem extraSignals_le (lower : String → String) {e e' : Extras} (h : e.ExtendedBy e')
    (d : SignalDomain) {sc : Scales} {signals : List NormalizedSignal}
    (hfactor : ∀ name, name ≠ "has_credential_form" →
      scaleFactor sc name = scaleFactor (scalesOf signals) name)
    (hurl : e'.urlRes = e.urlRes → sc = scalesOf signals) :
    domainRawPts sc (extraSignals lower e) d ≤
      domainRawPts (scalesOf signals) (extraSignals lower e') d := by
  have hnames : ∀ {l : List NormalizedSignal} {names : List String},
      l.map NormalizedSignal.signalName = names → "has_credential_form" ∉ names →
      ∀ t ∈ l, scaleFactor sc t.signalName = scaleFactor (scalesOf signals) t.signalName := by
    intro l names hl hnot t ht
    refine hfactor _ fun heq => hnot ?_
    rw [← hl]
    exact List.mem_map.2 ⟨t, ht, heq⟩
  have hcontent := block_le normalizeContentSignals sc signals d (domainRawPts_notEvaluated ..)
    h.content fun _ => hnames (names_content _) (by decide)
  have hmedia := block_le (normalizeMediaSignals lower) sc signals d (domainRawPts_notEvaluated ..)
    h.content fun _ => hnames (names_media _) (by decide)
  have hurls := block_le normalizeUrlSignals sc signals d (domainRawPts_notEvaluated ..) h.url
    fun heq t _ => by rw [hurl heq]
  have hcorrelation := block_le normalizeCorrelationSignals sc signals d
    (domainRawPts_notEvaluated ..) h.correlation fun _ => hnames (names_correlation _) (by decide)
  unfold extraSignals
  simp only [domainRawPts_append]
  linarith

/-- **More results do not lower the score.** -/
theorem fusedScore_mono (hbase : base.map NormalizedSignal.signalName = baseNames) {e e' : Extras}
    (h : e.ExtendedBy e') :
    (calculateMultimodalScore (base ++ extraSignals lower e)).1 ≤
      (calculateMultimodalScore (base ++ extraSignals lower e')).1 := by
  show scoreWith _ _ ≤ scoreWith _ _
  refine scoreWith_le_of_raw fun d => ?_
  have hfactor : ∀ name, name ≠ "has_credential_form" →
      scaleFactor (scalesOf (base ++ extraSignals lower e)) name =
        scaleFactor (scalesOf (base ++ extraSignals lower e')) name := by
    intro name hname
    rw [scaleFactor_fused hbase e hname, scaleFactor_fused hbase e' hname]
  have hown : domainRawPts (scalesOf (base ++ extraSignals lower e)) base d =
      domainRawPts (scalesOf (base ++ extraSignals lower e')) base d := by
    refine domainRawPts_congr (fun t ht => hfactor _ fun heq => ?_) d
    have hmem : "has_credential_form" ∈ baseNames := hbase ▸ List.mem_map.2 ⟨t, ht, heq⟩
    exact absurd hmem (by decide)
  have hextra := extraSignals_le lower h d hfactor fun hurl => by
    rw [scalesOf_fused hbase, scalesOf_fused hbase, hurl]
  rw [domainRawPts_append, domainRawPts_append, hown]
  linarith

end Mono

end ScamOn.Risk
