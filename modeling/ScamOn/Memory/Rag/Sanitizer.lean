import ScamOn.Lib.Markup
import ScamOn.Lib.Pattern

/-!
# Sanitizing retrieved text

`ContentSanitizer.sanitize` makes a retrieved text fit for a prompt: control characters go,
credentials are redacted, blanks are merged, markup is escaped, and what is too long is cut.
`PromptGuard.inspect_text` looks for the marks of a prompt injection.

* `secretPatterns` and `injectionPatterns` are the expressions of the two classes, as `re` reads
  them; `\w` is a parameter.
* `noAngles_sanitize`: no sanitized text has an angle bracket.
-/

namespace ScamOn.Memory
namespace Rag

open Pattern

section Patterns

variable (isWord : Char → Bool)

/-- `[a-zA-Z0-9…]` under `re.IGNORECASE`. -/
def wordFold (others : List Char) : Pattern :=
  set fun c => isLetterFold c || c.isDigit || others.contains c

/-- `[a-zA-Z0-9…]`. -/
def wordAscii (others : List Char) : Pattern := set fun c => c.isAlphanum || others.contains c

/-- `(?:a|b|…)` under `re.IGNORECASE`. -/
def anyFold (words : List String) : Pattern := anyOf (words.map litFold)

/-- `(?:word\s+)?` under `re.IGNORECASE`. -/
def optWord (word : String) : Pattern := opt (cat [litFold word, plus space])

/-- `word\s+word\s+…` under `re.IGNORECASE`. -/
def phrase : List String → Pattern
  | [] => empty
  | [word] => litFold word
  | word :: words => cat [litFold word, plus space, phrase words]

/-! ## Credentials -/

/-- `SECRET_PATTERNS`, with the replacements. -/
def secretPatterns : List (Pattern × String) :=
  [(cat [litFold "bearer", plus space, atLeast 16 (wordFold ['_', '-', '.'])],
      "Bearer [REDACTED_TOKEN]"),
    (cat [boundary isWord, litFold "authorization:", star space, opt (anyFold ["basic", "bearer"]),
        star space, atLeast 8 (wordFold ['_', '-', '.', '=', ':'])],
      "Authorization: [REDACTED_HEADER]"),
    (cat [boundary isWord, anyFold ["sk", "pk", "api", "key"], litFold "_",
        atLeast 16 (wordFold ['_', '-']), boundary isWord], "[REDACTED_API_KEY]"),
    (cat [boundary isWord, lit "AIza", times 35 (wordAscii ['-', '_']), boundary isWord],
      "[REDACTED_GOOGLE_API_KEY]"),
    (cat [boundary isWord, lit "eyJ", atLeast 10 (wordAscii ['_', '-']), lit ".",
        atLeast 10 (wordAscii ['_', '-']), lit ".", atLeast 10 (wordAscii ['_', '-']),
        boundary isWord], "[REDACTED_JWT]"),
    (cat [anyFold ["password", "passwd", "secret"], star space, set fun c => [':', '='].contains c,
        star space, set fun c => ['\'', '"'].contains c,
        plus (set fun c => !(['\'', '"'].contains c)), set fun c => ['\'', '"'].contains c],
      "password=[REDACTED_SECRET]")]

/-- `[\x00-\x08\x0B\x0C\x0E-\x1F\x7F-\x9F]`. -/
def isControl (c : Char) : Bool :=
  c.toNat ≤ 0x08 || c.toNat = 0x0b || c.toNat = 0x0c || (0x0e ≤ c.toNat && c.toNat ≤ 0x1f) ||
    (0x7f ≤ c.toNat && c.toNat ≤ 0x9f)

/-- The redaction of the credentials. -/
def redact (text : Str) : Str :=
  (secretPatterns isWord).foldl (fun cleaned p => p.1.sub p.2.toList cleaned) text

/-- What is appended to a text that was cut. -/
def truncationMark : Str := " [TRUNCATED]".toList

/-- `sanitize`. -/
def sanitize (text : Str) (maxLength : ℕ) : Str :=
  if text = [] then []
  else
    let cleaned := text.filter fun c => !isControl c
    let cleaned := redact isWord cleaned
    let cleaned := Chars.strip ((plus space).sub [' '] cleaned)
    let cleaned := htmlEscape cleaned
    if maxLength < cleaned.length then cleaned.take maxLength ++ truncationMark else cleaned

/-! ## Injections -/

/-- `INJECTION_PATTERNS`, with the names of the rules. -/
def injectionPatterns : List (String × Pattern) :=
  [("OVERRIDE_PREVIOUS_INSTRUCTIONS",
      cat [boundary isWord, anyFold ["ignore", "disregard", "forget", "bypass"], plus space,
        optWord "all", anyFold ["previous", "system", "above", "prior"], plus space,
        anyFold ["instructions", "prompts", "directives", "rules"], boundary isWord]),
    ("SYSTEM_PROMPT_OVERRIDE",
      cat [boundary isWord, anyFold ["override", "overwrite", "replace"], plus space,
        optWord "the", anyFold ["system", "developer", "agent"], plus space,
        anyFold ["prompt", "instructions", "persona"], boundary isWord]),
    ("SYSTEM_PROMPT_EXTRACTION",
      cat [boundary isWord,
        anyFold ["reveal", "print", "disclose", "show", "output", "leak", "repeat"], plus space,
        optWord "the",
        anyOf [phrase ["system", "prompt"], phrase ["developer", "instructions"],
          phrase ["hidden", "prompt"], phrase ["system", "instructions"],
          cat [phrase ["api", "key"], opt (litFold "s")],
          cat [litFold "password", opt (litFold "s")], cat [litFold "secret", opt (litFold "s")]],
        boundary isWord]),
    ("CONTROL_ROLE_INJECTION",
      cat [boundary isWord, anyFold ["system", "developer", "assistant", "human", "user"],
        star space, litFold ":", star space,
        anyOf [phrase ["you", "are", "now"], phrase ["new", "instructions"], litFold "ignore",
          litFold "execute"],
        boundary isWord]),
    ("TOOL_EXECUTION_HIJACK",
      cat [boundary isWord,
        anyOf [cat [litFold "execute", plus space, optWord "this", litFold "command"],
          cat [litFold "call", plus space, optWord "the", litFold "tool"],
          phrase ["run", "terminal", "command"], phrase ["remediate", "immediately"]],
        boundary isWord]),
    ("JAILBREAK_ATTEMPT",
      cat [boundary isWord,
        anyOf [litFold "jailbreak", phrase ["dan", "mode"], phrase ["developer", "mode", "enabled"],
          phrase ["always", "say", "yes"], phrase ["sudo", "mode"],
          phrase ["unrestricted", "mode"]],
        boundary isWord]),
    ("DELIMITER_ESCAPING",
      cat [lit "<", opt (lit "/"),
        anyFold ["system", "instruction", "developer", "historical_retrieved_incidents",
          "retrieved_incident"],
        star (set fun c => c ≠ '>'), lit ">"])]

/-- `inspect_text`. -/
def inspectText (text : Str) : Bool × List String :=
  let matchedRules := ((injectionPatterns isWord).filter fun rule =>
    (rule.2.search text).isSome).map Prod.fst
  if text = [] then (false, []) else (!matchedRules.isEmpty, matchedRules)

end Patterns

/-! ## Sanitized texts -/

variable {isWord : Char → Bool}

/-- **A sanitized text** has no angle brackets: they are escaped, and the cut adds none. -/
theorem noAngles_sanitize (text : Str) (maxLength : ℕ) :
    NoAngles (sanitize isWord text maxLength) := by
  have hmark : NoAngles truncationMark := by decide
  unfold sanitize
  split_ifs
  · exact fun _ hc => by cases hc
  · dsimp only
    split_ifs
    · exact noAngles_append.2 ⟨(noAngles_htmlEscape _).take _, hmark⟩
    · exact noAngles_htmlEscape _

end Rag
end ScamOn.Memory
