import ScamOn.Analyzers.Sender.Authentication
import ScamOn.Lib.Loop

/-!
# What the statuses say about the claims

Every header that names a status for a mechanism makes a claim, and `_result` reports a status if
the claims agree.

* `Claims` says which statuses the headers claim for a mechanism.
* `mem_observedStatuses_iff`: the observed statuses are the claimed ones.
* `status_eq_iff`: a status other than `unknown` is reported exactly if it is claimed and no other is.
* `claims_not_upgraded`: so more headers never turn another status into `pass`, and their order is
  irrelevant.
-/

namespace ScamOn.Analyzers
namespace Sender

open Pattern

/-- The result for a mechanism. -/
def AuthenticationAnalysisResult.resultOf (r : AuthenticationAnalysisResult) :
    AuthenticationMechanism → AuthenticationMechanismResult
  | .spf => r.spf
  | .dkim => r.dkim
  | .dmarc => r.dmarc
  | .arc => r.arc

/-- A match in an `Authentication-Results` header names this mechanism. -/
def Names (m : Match) (mechanism : AuthenticationMechanism) : Prop :=
  AuthenticationMechanism.ofValue? (casefold ((m.group "mechanism").getD [])) = some mechanism

/-- **Some header claims a status** for a mechanism. -/
inductive Claims (getAll : String → List Str) : AuthenticationMechanism → AuthenticationStatus → Prop
  | results {value : Str} {m : Match} {mechanism : AuthenticationMechanism}
      (hvalue : value ∈ getAll "Authentication-Results") (hm : m ∈ finditer statusPattern value)
      (hnames : Names m mechanism) : Claims getAll mechanism (statusOf ((m.group "status").getD []))
  | receivedSpf {value : Str} {m : Match} (hvalue : value ∈ getAll "Received-SPF")
      (hm : search leadingStatusPattern value = some m) :
      Claims getAll .spf (statusOf ((m.group "status").getD []))
  | arcSeal {value : Str} {m : Match} (hvalue : value ∈ getAll "ARC-Seal")
      (hm : search arcChainValidationPattern value = some m) :
      Claims getAll .arc (statusOf ((m.group "status").getD []))

variable {getAll getAll' : String → List Str} {mechanism : AuthenticationMechanism}
  {status : AuthenticationStatus} {r r' : AuthenticationAnalysisResult}

/-- More headers claim more. -/
theorem Claims.mono (h : Claims getAll mechanism status) (hsub : ∀ name, getAll name ⊆ getAll' name) :
    Claims getAll' mechanism status := by
  cases h with
  | results hvalue hm hnames => exact .results (hsub _ hvalue) hm hnames
  | receivedSpf hvalue hm => exact .receivedSpf (hsub _ hvalue) hm
  | arcSeal hvalue hm => exact .arcSeal (hsub _ hvalue) hm

/-! ## Aggregation -/

section Result

variable {observations : List AuthenticationObservation} {values : List Str}
  {source : Option AuthenticationHeaderSource}

theorem mem_result_observedStatuses :
    status ∈ (result mechanism observations values source).observedStatuses ↔
      ∃ o ∈ observations, o.status = status := by
  show status ∈ (observations.map (·.status)).eraseDups ↔ _
  rw [List.mem_eraseDups, List.mem_map]

/-- A list with one element and no other. -/
theorem eraseDups_eq_singleton {α : Type} [DecidableEq α] {l : List α} {a : α} (hmem : a ∈ l)
    (hall : ∀ b ∈ l, b = a) : l.eraseDups = [a] := by
  cases l with
  | nil => cases hmem
  | cons b l =>
    obtain rfl := hall b (List.mem_cons_self ..)
    rw [List.eraseDups_cons]
    have hnone : l.filter (fun c => !c == b) = [] := by
      rw [List.filter_eq_nil_iff]
      intro c hc
      simp [hall c (List.mem_cons_of_mem _ hc)]
    rw [hnone, List.eraseDups_nil]

/-- A status is reported if it is the only one that was observed. -/
theorem result_status_eq_iff (hknown : status ≠ .unknown) :
    (result mechanism observations values source).status = status ↔
      (∃ o ∈ observations, o.status = status) ∧ ∀ o ∈ observations, o.status = status := by
  show (if (observations.map (·.status)).eraseDups.length = 1 then
    (observations.map (·.status)).eraseDups.headD .unknown else .unknown) = status ↔ _
  constructor
  · intro h
    split_ifs at h with hone
    · obtain ⟨only, honly⟩ := List.length_eq_one_iff.1 hone
      have hmem : ∀ s, s ∈ observations.map (·.status) ↔ s = only := by
        intro s
        rw [← List.mem_eraseDups, honly, List.mem_singleton]
      rw [honly] at h
      subst h
      exact ⟨List.mem_map.1 ((hmem _).2 rfl), fun o ho => (hmem _).1 (List.mem_map_of_mem ho)⟩
    · exact absurd h.symm hknown
  · rintro ⟨⟨o, ho, hstatus⟩, hall⟩
    have hmem : status ∈ observations.map (·.status) := List.mem_map.2 ⟨o, ho, hstatus⟩
    have honly : ∀ s ∈ observations.map (·.status), s = status := by
      intro s hs
      obtain ⟨o', ho', rfl⟩ := List.mem_map.1 hs
      exact hall o' ho'
    rw [eraseDups_eq_singleton hmem honly]
    rfl

end Result

/-! ## The observations -/

/-- The matches of the `Authentication-Results` headers, with the header that each is in. -/
theorem mem_matches {headerValues : List Str} {found : Str × Match} :
    (found ∈ headerValues.flatMap fun headerValue =>
      (finditer statusPattern headerValue).map fun m => (headerValue, m)) ↔
      found.1 ∈ headerValues ∧ found.2 ∈ finditer statusPattern found.1 := by
  rw [List.mem_flatMap]
  constructor
  · rintro ⟨value, hvalue, hfound⟩
    obtain ⟨m, hm, rfl⟩ := List.mem_map.1 hfound
    exact ⟨hvalue, hm⟩
  · rintro ⟨hvalue, hm⟩
    exact ⟨found.1, hvalue, List.mem_map.2 ⟨found.2, hm, rfl⟩⟩

theorem exists_authenticationResultsObservations_iff {headerValues : List Str} :
    (∃ observations, authenticationResultsObservations headerValues = some observations) ↔
      ∀ value ∈ headerValues, ∀ m ∈ finditer statusPattern value, ∃ mechanism, Names m mechanism := by
  unfold authenticationResultsObservations
  constructor
  · rintro ⟨observations, h⟩ value hvalue m hm
    have hmap := Loop.mapM_eq_some_iff.1 h
    have hmem := List.mem_map_of_mem (f := fun found : Str × Match =>
      (AuthenticationMechanism.ofValue? (casefold ((found.2.group "mechanism").getD []))).map
        fun mechanism => (mechanism, observation .authenticationResults found.1 found.2))
      (mem_matches.2 ⟨hvalue, hm⟩ : (value, m) ∈ _)
    rw [hmap] at hmem
    obtain ⟨found, -, hfound⟩ := List.mem_map.1 hmem
    obtain ⟨mechanism, hnames, -⟩ := Option.map_eq_some_iff.1 hfound.symm
    exact ⟨mechanism, hnames⟩
  · intro h
    refine Loop.exists_mapM_eq_some fun found hfound => ?_
    obtain ⟨hvalue, hm⟩ := mem_matches.1 hfound
    obtain ⟨mechanism, hnames⟩ := h found.1 hvalue found.2 hm
    exact ⟨_, Option.map_eq_some_iff.2 ⟨mechanism, hnames, rfl⟩⟩

theorem mem_authenticationResultsObservations {headerValues : List Str}
    {observations : List (AuthenticationMechanism × AuthenticationObservation)}
    (h : authenticationResultsObservations headerValues = some observations) :
    (∃ found ∈ observations, found.1 = mechanism ∧ found.2.status = status) ↔
      ∃ value ∈ headerValues, ∃ m ∈ finditer statusPattern value,
        Names m mechanism ∧ statusOf ((m.group "status").getD []) = status := by
  have hmap := Loop.mapM_eq_some_iff.1 h
  constructor
  · rintro ⟨found, hfound, rfl, rfl⟩
    have hmem := List.mem_map_of_mem (f := some) hfound
    rw [← hmap] at hmem
    obtain ⟨source, hsource, heq⟩ := List.mem_map.1 hmem
    obtain ⟨hvalue, hm⟩ := mem_matches.1 hsource
    obtain ⟨mechanism, hnames, hfound⟩ := Option.map_eq_some_iff.1 heq
    rw [← hfound]
    exact ⟨source.1, hvalue, source.2, hm, hnames, rfl⟩
  · rintro ⟨value, hvalue, m, hm, hnames, rfl⟩
    have hmem : some (mechanism, observation .authenticationResults value m) ∈ observations.map some := by
      rw [← hmap]
      exact List.mem_map.2 ⟨(value, m), mem_matches.2 ⟨hvalue, hm⟩,
        Option.map_eq_some_iff.2 ⟨mechanism, hnames, rfl⟩⟩
    obtain ⟨found, hfound, heq⟩ := List.mem_map.1 hmem
    obtain rfl := Option.some.inj heq
    exact ⟨_, hfound, rfl, rfl⟩

theorem mem_searchedObservations {pattern : Pattern} {source : AuthenticationHeaderSource}
    {headerValues : List Str} :
    (∃ o ∈ searchedObservations pattern source headerValues, o.status = status) ↔
      ∃ value ∈ headerValues, ∃ m, search pattern value = some m ∧
        statusOf ((m.group "status").getD []) = status := by
  unfold searchedObservations
  constructor
  · rintro ⟨o, ho, rfl⟩
    obtain ⟨value, hvalue, hfound⟩ := List.mem_filterMap.1 ho
    obtain ⟨m, hm, rfl⟩ := Option.map_eq_some_iff.1 hfound
    exact ⟨value, hvalue, m, hm, rfl⟩
  · rintro ⟨value, hvalue, m, hm, rfl⟩
    exact ⟨observation source value m,
      List.mem_filterMap.2 ⟨value, hvalue, Option.map_eq_some_iff.2 ⟨m, hm, rfl⟩⟩, rfl⟩

/-! ## The answer -/

/-- The headers are answered exactly if every mechanism that they name is known. -/
theorem exists_interpret_iff :
    (∃ r, interpret getAll = some r) ↔ ∀ value ∈ getAll "Authentication-Results",
      ∀ m ∈ finditer statusPattern value, ∃ mechanism, Names m mechanism := by
  rw [← exists_authenticationResultsObservations_iff]
  unfold interpret
  constructor
  · rintro ⟨r, h⟩
    obtain ⟨observations, hobservations, -⟩ := Option.map_eq_some_iff.1 h
    exact ⟨observations, hobservations⟩
  · rintro ⟨observations, hobservations⟩
    exact ⟨_, Option.map_eq_some_iff.2 ⟨observations, hobservations, rfl⟩⟩

theorem claims_iff :
    Claims getAll mechanism status ↔
      (∃ value ∈ getAll "Authentication-Results", ∃ m ∈ finditer statusPattern value,
        Names m mechanism ∧ statusOf ((m.group "status").getD []) = status) ∨
      (mechanism = .spf ∧ ∃ value ∈ getAll "Received-SPF", ∃ m,
        search leadingStatusPattern value = some m ∧
          statusOf ((m.group "status").getD []) = status) ∨
      (mechanism = .arc ∧ ∃ value ∈ getAll "ARC-Seal", ∃ m,
        search arcChainValidationPattern value = some m ∧
          statusOf ((m.group "status").getD []) = status) := by
  constructor
  · intro h
    cases h with
    | results hvalue hm hnames => exact .inl ⟨_, hvalue, _, hm, hnames, rfl⟩
    | receivedSpf hvalue hm => exact .inr (.inl ⟨rfl, _, hvalue, _, hm, rfl⟩)
    | arcSeal hvalue hm => exact .inr (.inr ⟨rfl, _, hvalue, _, hm, rfl⟩)
  · rintro (⟨value, hvalue, m, hm, hnames, rfl⟩ | ⟨rfl, value, hvalue, m, hm, rfl⟩ |
      ⟨rfl, value, hvalue, m, hm, rfl⟩)
    · exact .results hvalue hm hnames
    · exact .receivedSpf hvalue hm
    · exact .arcSeal hvalue hm

/-- The result of a mechanism aggregates what the headers claim for it. -/
theorem resultOf_eq (h : interpret getAll = some r) (mechanism : AuthenticationMechanism) :
    ∃ observations values source, r.resultOf mechanism = result mechanism observations values source ∧
      ∀ status, (∃ o ∈ observations, o.status = status) ↔ Claims getAll mechanism status := by
  obtain ⟨found, hfound, rfl⟩ := Option.map_eq_some_iff.1 h
  have hresults : ∀ mechanism status,
      (∃ o ∈ (found.filter (·.1 = mechanism)).map (·.2), o.status = status) ↔
        ∃ value ∈ getAll "Authentication-Results", ∃ m ∈ finditer statusPattern value,
          Names m mechanism ∧ statusOf ((m.group "status").getD []) = status := by
    intro mechanism status
    rw [← mem_authenticationResultsObservations hfound]
    simp [and_assoc]
  cases mechanism with
  | spf =>
    refine ⟨_, _, _, rfl, fun status => ?_⟩
    simp only [claims_iff, List.mem_append, or_and_right, exists_or, hresults,
      receivedSpfObservations, mem_searchedObservations]
    simp
  | arc =>
    refine ⟨_, _, _, rfl, fun status => ?_⟩
    simp only [claims_iff, List.mem_append, or_and_right, exists_or, hresults,
      arcSealObservations, mem_searchedObservations]
    simp
  | dkim => exact ⟨_, _, _, rfl, fun status => by simp only [claims_iff, hresults]; simp⟩
  | dmarc => exact ⟨_, _, _, rfl, fun status => by simp only [claims_iff, hresults]; simp⟩

/-- The observed statuses are those that the headers claim. -/
theorem mem_observedStatuses_iff (h : interpret getAll = some r) :
    status ∈ (r.resultOf mechanism).observedStatuses ↔ Claims getAll mechanism status := by
  obtain ⟨observations, values, source, heq, hclaims⟩ := resultOf_eq h mechanism
  rw [heq, mem_result_observedStatuses, hclaims]

/-- **A known status is reported** exactly if it is claimed and no other is. -/
theorem status_eq_iff (h : interpret getAll = some r) (hknown : status ≠ .unknown) :
    (r.resultOf mechanism).status = status ↔ Claims getAll mechanism status ∧
      ∀ other, Claims getAll mechanism other → other = status := by
  obtain ⟨observations, values, source, heq, hclaims⟩ := resultOf_eq h mechanism
  rw [heq, result_status_eq_iff hknown, hclaims]
  refine and_congr_right fun _ => ?_
  constructor
  · intro hall other hother
    obtain ⟨o, ho, rfl⟩ := (hclaims other).2 hother
    exact hall o ho
  · intro hall o ho
    exact hall o.status ((hclaims _).1 ⟨o, ho, rfl⟩)

/-- The status depends on what is claimed only. -/
theorem status_congr (h : interpret getAll = some r) (h' : interpret getAll' = some r')
    (hclaims : ∀ status, Claims getAll mechanism status ↔ Claims getAll' mechanism status) :
    (r.resultOf mechanism).status = (r'.resultOf mechanism).status := by
  have hsame : ∀ status ≠ .unknown, (r.resultOf mechanism).status = status ↔
      (r'.resultOf mechanism).status = status := by
    intro status hknown
    rw [status_eq_iff h hknown, status_eq_iff h' hknown]
    simp only [hclaims]
  by_cases hknown : (r.resultOf mechanism).status = .unknown
  · by_cases hknown' : (r'.resultOf mechanism).status = .unknown
    · rw [hknown, hknown']
    · exact (hsame _ hknown').2 rfl
  · exact ((hsame _ hknown).1 rfl).symm

/-- **More headers never turn another status into `pass`**, the order of the headers is irrelevant,
and a status other than `unknown` is one that all claims agree on. -/
theorem claims_not_upgraded :
    (∀ getAll getAll' : String → List Str, ∀ r r' : AuthenticationAnalysisResult,
      (∀ name, (getAll name).Sublist (getAll' name)) →
      interpret getAll = some r → interpret getAll' = some r' →
      ∀ mechanism, (r.resultOf mechanism).observedStatuses ≠ [] →
        (r.resultOf mechanism).status ≠ .pass → (r'.resultOf mechanism).status ≠ .pass) ∧
    (∀ getAll getAll' : String → List Str, (∀ name, (getAll name).Perm (getAll' name)) →
      ∀ mechanism, (interpret getAll).map (fun r => (r.resultOf mechanism).status) =
        (interpret getAll').map fun r => (r.resultOf mechanism).status) ∧
    ∀ getAll r, interpret getAll = some r → ∀ mechanism,
      (r.resultOf mechanism).status ≠ .unknown →
        Claims getAll mechanism (r.resultOf mechanism).status ∧
        (∀ status, Claims getAll mechanism status → status = (r.resultOf mechanism).status) ∧
        ∀ status ∈ (r.resultOf mechanism).observedStatuses,
          status = (r.resultOf mechanism).status := by
  refine ⟨?_, ?_, ?_⟩
  · intro getAll getAll' r r' hsub h h' mechanism hobserved hstatus hpass
    obtain ⟨hclaimed, honly⟩ := (status_eq_iff h' (by decide)).1 hpass
    obtain ⟨other, hother⟩ := List.exists_mem_of_ne_nil _ hobserved
    have hmono : ∀ s, Claims getAll mechanism s → s = .pass := fun s hs =>
      honly s (hs.mono fun name => (hsub name).subset)
    obtain rfl := hmono other ((mem_observedStatuses_iff h).1 hother)
    exact hstatus ((status_eq_iff h (by decide)).2 ⟨(mem_observedStatuses_iff h).1 hother, hmono⟩)
  · intro getAll getAll' hperm mechanism
    have hclaims : ∀ status, Claims getAll mechanism status ↔ Claims getAll' mechanism status :=
      fun status => ⟨fun hs => hs.mono fun name => (hperm name).subset,
        fun hs => hs.mono fun name => (hperm name).symm.subset⟩
    have hexists : (∃ r, interpret getAll = some r) ↔ ∃ r, interpret getAll' = some r := by
      simp only [exists_interpret_iff, (hperm _).mem_iff]
    cases h : interpret getAll with
    | some r =>
      obtain ⟨r', h'⟩ := hexists.1 ⟨r, h⟩
      rw [h', Option.map_some, Option.map_some, status_congr h h' hclaims]
    | none =>
      cases h' : interpret getAll' with
      | none => rfl
      | some r' =>
        obtain ⟨r, hr⟩ := hexists.2 ⟨r', h'⟩
        rw [h] at hr
        cases hr
  · intro getAll r h mechanism hknown
    obtain ⟨hclaimed, honly⟩ := (status_eq_iff h hknown).1 rfl
    exact ⟨hclaimed, honly, fun status hmem => honly status ((mem_observedStatuses_iff h).1 hmem)⟩

/-- `Authentication-Results` headers and no other. -/
def onlyResults (values : List String) (name : String) : List Str :=
  if name = "Authentication-Results" then values.map String.toList else []

/-- A header that claims `pass`, after one that claims `fail` or before it. -/
theorem claims_not_upgraded_sample :
    (∃ r, interpret (onlyResults ["mx; spf=fail", "mx; spf=pass"]) = some r ∧
      r.spf.status ≠ .pass ∧ r.spf.status = .unknown) ∧
    (interpret (onlyResults ["mx; spf=fail", "mx; spf=pass"])).map (·.spf.status) =
      (interpret (onlyResults ["mx; spf=pass", "mx; spf=fail"])).map (·.spf.status) ∧
    ∀ status, Claims (onlyResults ["mx; spf=fail"]) .spf status → status = .fail := by
  have hone : (interpret (onlyResults ["mx; spf=fail"])).map
      (fun r => (r.spf.status, r.spf.observedStatuses)) = some (.fail, [.fail]) := by decide +kernel
  have htwo : (interpret (onlyResults ["mx; spf=fail", "mx; spf=pass"])).map
      (fun r => r.spf.status) = some .unknown := by decide +kernel
  obtain ⟨r, hr, hfail⟩ := Option.map_eq_some_iff.1 hone
  obtain ⟨r', hr', hunknown⟩ := Option.map_eq_some_iff.1 htwo
  obtain ⟨hstatus, hobserved⟩ := Prod.mk.inj hfail
  refine ⟨⟨r', hr', ?_, hunknown⟩, ?_, ?_⟩
  · refine claims_not_upgraded.1 (onlyResults ["mx; spf=fail"])
      (onlyResults ["mx; spf=fail", "mx; spf=pass"]) r r' (fun name => ?_) hr hr' .spf ?_ ?_
    · unfold onlyResults
      split_ifs
      · exact (List.sublist_append_left ["mx; spf=fail"] ["mx; spf=pass"]).map _
      · exact .refl _
    · rw [show (r.resultOf .spf).observedStatuses = [.fail] from hobserved]
      exact List.cons_ne_nil _ _
    · rw [show (r.resultOf .spf).status = .fail from hstatus]
      decide
  · refine claims_not_upgraded.2.1 (onlyResults ["mx; spf=fail", "mx; spf=pass"])
      (onlyResults ["mx; spf=pass", "mx; spf=fail"]) (fun name => ?_) .spf
    unfold onlyResults
    split_ifs
    · exact (List.Perm.swap ..).map _
    · exact .refl _
  · have hagree := (claims_not_upgraded.2.2 _ r hr .spf (by
      rw [show (r.resultOf .spf).status = .fail from hstatus]
      decide)).2.1
    rwa [show (r.resultOf .spf).status = .fail from hstatus] at hagree

end Sender
end ScamOn.Analyzers
