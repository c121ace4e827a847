import ScamOn.Lib.Dict
import ScamOn.Lib.Pattern

/-!
# Redaction of notification metadata

`sanitize_metadata` goes through the dicts and lists of a nested value, puts a mark in the place
of what is held under a sensitive key, and passes the texts it meets through `sanitize_text`.
A tuple is none of these, and is returned as it is.

* `MetaValue` is a nested value of dicts, lists, tuples, texts and scalars.
* `Sanitised` says of a value and a result that at every depth the sensitive keys hold the mark,
  the other keys are kept and the texts have passed through `sanitize_text`.
* `sanitised_iff`: the result is that exactly if the tuples that are reached hold nothing to
  redact, and no two keys of a dict have one text.
* `sameButTexts_sanitizeMetadata`: a second pass changes texts only.
-/

namespace ScamOn.Notifications

open Pattern

/-! ## Texts -/

/-- A piece of a replacement: a text, or what a group matched. -/
inductive Piece
  | text (s : String)
  | group (name : String)

/-- A replacement with references to groups. -/
def fill (template : List Piece) (m : Match) : Str :=
  template.flatMap fun
    | .text s => s.toList
    | .group name => (m.group name).getD []

/-- `[a-zA-Z0-9…]` under `re.IGNORECASE`. -/
def tokenChar (others : List Char) : Pattern :=
  set fun c => isLetterFold c || c.isDigit || others.contains c

/-- `['\"]?`. -/
def optQuote : Pattern := opt (set fun c => ['\'', '"'].contains c)

/-- `(…)(\s*[:=]\s*['\"]?)[^\s,'\"]+(['\"]?)`, behind the words of a credential. -/
def assignment (words : Pattern) : Pattern :=
  cat [group "1" words,
    group "2" (cat [star space, set fun c => [':', '='].contains c, star space, optQuote]),
    plus (set fun c => !(Text.isSpace c || [',', '\'', '"'].contains c)), group "3" optQuote]

/-- `SENSITIVE_KEYWORD_PATTERNS`. -/
def sensitiveKeywordPatterns : List (Pattern × List Piece) :=
  [(cat [group "1" (cat [litFold "bearer", plus space]), atLeast 10 (tokenChar ['_', '-', '.'])],
      [.group "1", .text "[REDACTED]"]),
    (assignment (anyOf [litFold "password", litFold "passwd", litFold "pwd"]),
      [.group "1", .group "2", .text "[REDACTED]", .group "3"]),
    (assignment (anyOf [cat [litFold "api", opt (set fun c => ['_', '-'].contains c), litFold "key"],
        litFold "secret", litFold "token"]),
      [.group "1", .group "2", .text "[REDACTED]", .group "3"]),
    (cat [group "1" (cat [litFold "authorization:", star space, litFold "bearer", plus space]),
        plus (set fun c => !Text.isSpace c)],
      [.group "1", .text "[REDACTED]"]),
    (cat [litFold "sk-", atLeast 20 (tokenChar [])], [.text "[REDACTED]"]),
    (cat [litFold "gsk_", atLeast 20 (tokenChar [])], [.text "[REDACTED]"])]

/-- `sanitize_text`. -/
def sanitizeText (text : Str) : Str :=
  if text = [] then text
  else sensitiveKeywordPatterns.foldl (fun sanitized p => p.1.expand (fill p.2) sanitized) text

example : sanitizeText "Password: 'abc', pwd=x".toList =
    "Password: '[REDACTED]', pwd=[REDACTED]".toList := by decide +kernel

/-! ## Nested values -/

/-- A key of a dict. -/
inductive Key (σ : Type*)
  | str (s : Str)
  | scalar (x : σ)

/-- A nested value, over a type of scalars. -/
inductive MetaValue (σ : Type*)
  | scalar (x : σ)
  | str (s : Str)
  | list (items : List (MetaValue σ))
  | tuple (items : List (MetaValue σ))
  | dict (fields : List (Key σ × MetaValue σ))

/-- What the sanitizer asks of Python: `str(x)` of a scalar, and `s.lower()`. -/
structure PyText (σ : Type*) where
  str : σ → Str
  lower : Str → Str

/-- `SENSITIVE_KEYS`. -/
def sensitiveKeys : List Str :=
  ["password", "password_hash", "secret", "secret_key", "api_key", "token", "access_token",
    "refresh_token", "auth_header", "authorization", "raw_body", "raw_eml", "raw_content",
    "body_html", "body_text", "client_secret", "private_key"].map String.toList

variable {σ : Type*} (py : PyText σ)

/-- `str(k)`. -/
def Key.text : Key σ → Str
  | .str s => s
  | .scalar x => py.str x

@[simp] theorem Key.text_str (s : Str) : (Key.str s : Key σ).text py = s := rfl

/-- `str(k).lower() in SENSITIVE_KEYS`, by the text of the key. -/
def isSensitive (text : Str) : Bool := sensitiveKeys.contains (py.lower text)

/-- `"[REDACTED]"`. -/
def redacted : MetaValue σ := .str "[REDACTED]".toList

mutual

/-- `sanitize_metadata`. -/
def sanitizeMetadata : MetaValue σ → MetaValue σ
  | .dict fields => .dict ((sanitizeFields fields []).map fun e => (.str e.1, e.2))
  | .list items => .list (sanitizeItems items)
  | .str s => .str (sanitizeText s)
  | .tuple items => .tuple items
  | .scalar x => .scalar x

/-- The items of a list. -/
def sanitizeItems : List (MetaValue σ) → List (MetaValue σ)
  | [] => []
  | item :: items => sanitizeMetadata item :: sanitizeItems items

/-- The loop over the items of a dict, with what it has put into `cleaned`. -/
def sanitizeFields : List (Key σ × MetaValue σ) → List (Str × MetaValue σ) →
    List (Str × MetaValue σ)
  | [], cleaned => cleaned
  | (k, v) :: fields, cleaned =>
    sanitizeFields fields (Dict.setEntry (k.text py)
      (if isSensitive py (k.text py) then redacted
      else
        match v with
        | .dict _ => sanitizeMetadata v
        | .list _ => sanitizeMetadata v
        | .str s => .str (sanitizeText s)
        | other => other) cleaned)

end

/-! ## What a sanitised value is -/

/-- Somewhere in a value, a dict holds a value under a key. -/
inductive Holds : MetaValue σ → Key σ → MetaValue σ → Prop
  | field {fs k v} : (k, v) ∈ fs → Holds (.dict fs) k v
  | dict {fs k v j w} : (k, v) ∈ fs → Holds v j w → Holds (.dict fs) j w
  | list {xs x j w} : x ∈ xs → Holds x j w → Holds (.list xs) j w
  | tuple {xs x j w} : x ∈ xs → Holds x j w → Holds (.tuple xs) j w

mutual

/-- **A sanitised form of a value**: at every depth the sensitive keys hold the mark, the other
keys are kept, and the texts have passed through `sanitize_text`. -/
def Sanitised : MetaValue σ → MetaValue σ → Prop
  | .scalar x, r => r = .scalar x
  | .str s, r => r = .str (sanitizeText s)
  | .list xs, .list ys => SanitisedItems xs ys
  | .tuple xs, .tuple ys => SanitisedItems xs ys
  | .dict fs, .dict gs => SanitisedFields fs gs
  | _, _ => False

/-- `Sanitised`, item by item. -/
def SanitisedItems : List (MetaValue σ) → List (MetaValue σ) → Prop
  | [], ys => ys = []
  | x :: xs, y :: ys => Sanitised x y ∧ SanitisedItems xs ys
  | _ :: _, [] => False

/-- `Sanitised`, field by field. -/
def SanitisedFields : List (Key σ × MetaValue σ) → List (Key σ × MetaValue σ) → Prop
  | [], gs => gs = []
  | (k, v) :: fs, (k', w) :: gs =>
    k'.text py = k.text py ∧ (if isSensitive py (k.text py) then w = redacted else Sanitised v w) ∧
      SanitisedFields fs gs
  | _ :: _, [] => False

end

mutual

/-- There is nothing to redact in a value: its sensitive keys hold the mark already, and
`sanitize_text` leaves its texts alone. -/
def NothingToRedact : MetaValue σ → Prop
  | .scalar _ => True
  | .str s => sanitizeText s = s
  | .list xs => NothingInItems xs
  | .tuple xs => NothingInItems xs
  | .dict fs => NothingInFields fs

def NothingInItems : List (MetaValue σ) → Prop
  | [] => True
  | x :: xs => NothingToRedact x ∧ NothingInItems xs

def NothingInFields : List (Key σ × MetaValue σ) → Prop
  | [] => True
  | (k, v) :: fs =>
    (if isSensitive py (k.text py) then v = redacted else NothingToRedact v) ∧ NothingInFields fs

end

mutual

/-- What the walk through dicts and lists meets: tuples with nothing to redact only, and dicts
without two keys of one text. -/
def Tractable : MetaValue σ → Prop
  | .scalar _ => True
  | .str _ => True
  | .list xs => TractableItems xs
  | .tuple xs => NothingInItems py xs
  | .dict fs => (fs.map fun e => e.1.text py).Nodup ∧ TractableFields fs

def TractableItems : List (MetaValue σ) → Prop
  | [] => True
  | x :: xs => Tractable x ∧ TractableItems xs

def TractableFields : List (Key σ × MetaValue σ) → Prop
  | [] => True
  | (k, v) :: fs => (isSensitive py (k.text py) = false → Tractable v) ∧ TractableFields fs

end

mutual

/-- Two values differ in their texts only. -/
def SameButTexts : MetaValue σ → MetaValue σ → Prop
  | .scalar x, r => r = .scalar x
  | .str _, .str _ => True
  | .list xs, .list ys => SameItemsButTexts xs ys
  | .tuple xs, .tuple ys => SameItemsButTexts xs ys
  | .dict fs, .dict gs => SameFieldsButTexts fs gs
  | _, _ => False

def SameItemsButTexts : List (MetaValue σ) → List (MetaValue σ) → Prop
  | [], ys => ys = []
  | x :: xs, y :: ys => SameButTexts x y ∧ SameItemsButTexts xs ys
  | _ :: _, [] => False

def SameFieldsButTexts : List (Key σ × MetaValue σ) → List (Key σ × MetaValue σ) → Prop
  | [], gs => gs = []
  | (k, v) :: fs, (k', w) :: gs => k' = k ∧ SameButTexts v w ∧ SameFieldsButTexts fs gs
  | _ :: _, [] => False

end

/-! ## The loop over the items of a dict -/

variable {py}

/-- What is put under a key. -/
def fieldValue (py : PyText σ) (k : Key σ) (v : MetaValue σ) : MetaValue σ :=
  if isSensitive py (k.text py) then redacted else sanitizeMetadata py v

theorem sanitizeFields_cons (k : Key σ) (v : MetaValue σ) (fs : List (Key σ × MetaValue σ))
    (cleaned : List (Str × MetaValue σ)) :
    sanitizeFields py ((k, v) :: fs) cleaned =
      sanitizeFields py fs (Dict.setEntry (k.text py) (fieldValue py k v) cleaned) := by
  cases v <;> simp only [sanitizeFields, fieldValue, sanitizeMetadata]

theorem sanitizeItems_eq_map (xs : List (MetaValue σ)) :
    sanitizeItems py xs = xs.map (sanitizeMetadata py) := by
  induction xs with
  | nil => rfl
  | cons x xs ih => rw [sanitizeItems, ih, List.map_cons]

theorem nodup_sanitizeFields {fs : List (Key σ × MetaValue σ)} :
    ∀ {cleaned : List (Str × MetaValue σ)}, (cleaned.map Prod.fst).Nodup →
      ((sanitizeFields py fs cleaned).map Prod.fst).Nodup := by
  induction fs with
  | nil => exact fun h => by rwa [sanitizeFields]
  | cons e fs ih =>
    intro cleaned h
    rw [sanitizeFields_cons]
    exact ih (Dict.nodup_setEntry _ _ h)

theorem mem_sanitizeFields {fs : List (Key σ × MetaValue σ)} {e : Str × MetaValue σ} :
    ∀ {cleaned : List (Str × MetaValue σ)}, e ∈ sanitizeFields py fs cleaned →
      e ∈ cleaned ∨ ∃ f ∈ fs, e = (f.1.text py, fieldValue py f.1 f.2) := by
  induction fs with
  | nil => exact fun h => .inl (by rwa [sanitizeFields] at h)
  | cons f fs ih =>
    intro cleaned h
    rw [sanitizeFields_cons] at h
    rcases ih h with h | ⟨g, hg, rfl⟩
    · rcases Dict.mem_setEntry h with rfl | h
      · exact .inr ⟨f, List.mem_cons_self .., rfl⟩
      · exact .inl h
    · exact .inr ⟨g, List.mem_cons_of_mem _ hg, rfl⟩

/-- Keys with different texts are all kept, in their order. -/
theorem sanitizeFields_of_nodup {fs : List (Key σ × MetaValue σ)} :
    ∀ {cleaned : List (Str × MetaValue σ)},
      (cleaned.map Prod.fst ++ fs.map fun e => e.1.text py).Nodup →
        sanitizeFields py fs cleaned =
          cleaned ++ fs.map fun e => (e.1.text py, fieldValue py e.1 e.2) := by
  induction fs with
  | nil => intro cleaned _; rw [sanitizeFields, List.map_nil, List.append_nil]
  | cons f fs ih =>
    intro cleaned h
    have hnew : f.1.text py ∉ cleaned.map Prod.fst := by
      rw [List.map_cons, List.nodup_append'] at h
      exact fun hmem => h.2.2 hmem (List.mem_cons_self ..)
    rw [sanitizeFields_cons, Dict.setEntry_of_not_mem hnew, ih, List.append_assoc, List.map_cons,
      List.singleton_append]
    simpa using h

/-- The dict that is built. -/
def cleanedFields (py : PyText σ) (fs : List (Key σ × MetaValue σ)) :
    List (Key σ × MetaValue σ) :=
  (sanitizeFields py fs []).map fun e => (.str e.1, e.2)

theorem cleanedFields_of_nodup {fs : List (Key σ × MetaValue σ)}
    (h : (fs.map fun e => e.1.text py).Nodup) :
    cleanedFields py fs = fs.map fun e => (.str (e.1.text py), fieldValue py e.1 e.2) := by
  rw [cleanedFields, sanitizeFields_of_nodup (by simpa using h), List.nil_append, List.map_map]
  rfl

theorem nodup_cleanedFields (fs : List (Key σ × MetaValue σ)) :
    ((cleanedFields py fs).map fun e => e.1.text py).Nodup := by
  have h : ((sanitizeFields py fs []).map Prod.fst).Nodup := nodup_sanitizeFields List.nodup_nil
  rw [cleanedFields, List.map_map]
  exact h

theorem mem_cleanedFields {fs : List (Key σ × MetaValue σ)} {e : Key σ × MetaValue σ}
    (h : e ∈ cleanedFields py fs) :
    ∃ f ∈ fs, e = (.str (f.1.text py), fieldValue py f.1 f.2) := by
  obtain ⟨g, hg, rfl⟩ := List.mem_map.1 h
  rcases mem_sanitizeFields hg with hg | ⟨f, hf, rfl⟩
  · cases hg
  · exact ⟨f, hf, rfl⟩

/-! ## Sanitised forms -/

theorem map_text_of_sanitisedFields {fs : List (Key σ × MetaValue σ)} :
    ∀ {gs : List (Key σ × MetaValue σ)}, SanitisedFields py fs gs →
      (gs.map fun e => e.1.text py) = fs.map fun e => e.1.text py := by
  induction fs with
  | nil =>
    intro gs h
    rw [SanitisedFields] at h
    rw [h]
  | cons f fs ih =>
    intro gs h
    cases gs with
    | nil => rw [SanitisedFields] at h; exact h.elim
    | cons g gs =>
      rw [SanitisedFields] at h
      rw [List.map_cons, List.map_cons, h.1, ih h.2.2]

theorem exists_field_of_sanitisedFields {fs : List (Key σ × MetaValue σ)} :
    ∀ {gs : List (Key σ × MetaValue σ)} {k : Key σ} {w : MetaValue σ},
      SanitisedFields py fs gs → (k, w) ∈ gs →
        (isSensitive py (k.text py) = true → w = redacted) ∧
          (w = redacted ∨ ∃ f ∈ fs, Sanitised py f.2 w) := by
  induction fs with
  | nil =>
    intro gs k w h hmem
    rw [SanitisedFields] at h
    rw [h] at hmem
    cases hmem
  | cons f fs ih =>
    intro gs k w h hmem
    cases gs with
    | nil => cases hmem
    | cons g gs =>
      rw [SanitisedFields] at h
      obtain ⟨htext, hvalue, hrest⟩ := h
      rcases List.mem_cons.1 hmem with rfl | hmem
      · rw [htext]
        split at hvalue
        · exact ⟨fun _ => hvalue, .inl hvalue⟩
        · next hk => exact ⟨fun h => absurd h hk, .inr ⟨f, List.mem_cons_self .., hvalue⟩⟩
      · obtain ⟨hsens, hfield⟩ := ih hrest hmem
        exact ⟨hsens, hfield.imp id fun ⟨e, he, hs⟩ => ⟨e, List.mem_cons_of_mem _ he, hs⟩⟩

theorem exists_item_of_sanitisedItems {xs : List (MetaValue σ)} :
    ∀ {ys : List (MetaValue σ)} {y : MetaValue σ}, SanitisedItems py xs ys → y ∈ ys →
      ∃ x ∈ xs, Sanitised py x y := by
  induction xs with
  | nil =>
    intro ys y h hmem
    rw [SanitisedItems] at h
    rw [h] at hmem
    cases hmem
  | cons x xs ih =>
    intro ys y h hmem
    cases ys with
    | nil => cases hmem
    | cons z ys =>
      rw [SanitisedItems] at h
      rcases List.mem_cons.1 hmem with rfl | hmem
      · exact ⟨x, List.mem_cons_self .., h.1⟩
      · obtain ⟨x', hx', hs⟩ := ih h.2 hmem
        exact ⟨x', List.mem_cons_of_mem _ hx', hs⟩

/-- **No value under a sensitive key is left**, at any depth of a sanitised form. -/
theorem eq_redacted_of_holds {r w : MetaValue σ} {k : Key σ} (h : Holds r k w)
    (hk : isSensitive py (k.text py) = true) :
    ∀ {v : MetaValue σ}, Sanitised py v r → w = redacted := by
  induction h with
  | field hmem =>
    intro v hv
    cases v <;> simp only [Sanitised, reduceCtorEq] at hv
    exact (exists_field_of_sanitisedFields hv hmem).1 hk
  | dict hmem hinner ih =>
    intro v hv
    cases v <;> simp only [Sanitised, reduceCtorEq] at hv
    rcases (exists_field_of_sanitisedFields hv hmem).2 with rfl | ⟨f, _, hs⟩
    · cases hinner
    · exact ih hk hs
  | list hmem _ ih =>
    intro v hv
    cases v <;> simp only [Sanitised, reduceCtorEq] at hv
    obtain ⟨x, _, hs⟩ := exists_item_of_sanitisedItems hv hmem
    exact ih hk hs
  | tuple hmem _ ih =>
    intro v hv
    cases v <;> simp only [Sanitised, reduceCtorEq] at hv
    obtain ⟨x, _, hs⟩ := exists_item_of_sanitisedItems hv hmem
    exact ih hk hs

mutual

/-- A value is its own sanitised form if there is nothing to redact. -/
theorem sanitised_self_iff : (v : MetaValue σ) → (Sanitised py v v ↔ NothingToRedact py v)
  | .scalar _ => by simp [Sanitised, NothingToRedact]
  | .str s => by simp [Sanitised, NothingToRedact, eq_comm]
  | .list xs => by rw [Sanitised, NothingToRedact, sanitisedItems_self_iff xs]
  | .tuple xs => by rw [Sanitised, NothingToRedact, sanitisedItems_self_iff xs]
  | .dict fs => by rw [Sanitised, NothingToRedact, sanitisedFields_self_iff fs]

theorem sanitisedItems_self_iff :
    (xs : List (MetaValue σ)) → (SanitisedItems py xs xs ↔ NothingInItems py xs)
  | [] => by simp [SanitisedItems, NothingInItems]
  | x :: xs => by
    rw [SanitisedItems, NothingInItems, sanitised_self_iff x, sanitisedItems_self_iff xs]

theorem sanitisedFields_self_iff :
    (fs : List (Key σ × MetaValue σ)) → (SanitisedFields py fs fs ↔ NothingInFields py fs)
  | [] => by simp [SanitisedFields, NothingInFields]
  | (k, v) :: fs => by
    rw [SanitisedFields, NothingInFields, sanitised_self_iff v, sanitisedFields_self_iff fs]
    simp

end

mutual

/-- **Exactly the tractable values are sanitised.** -/
theorem sanitised_sanitizeMetadata_iff :
    (v : MetaValue σ) → (Sanitised py v (sanitizeMetadata py v) ↔ Tractable py v)
  | .scalar _ => by simp [Sanitised, sanitizeMetadata, Tractable]
  | .str s => by simp [Sanitised, sanitizeMetadata, Tractable]
  | .list xs => by
    rw [sanitizeMetadata, Sanitised, Tractable, sanitizeItems_eq_map,
      sanitisedItems_map_iff xs]
  | .tuple xs => by rw [sanitizeMetadata, Sanitised, Tractable, sanitisedItems_self_iff]
  | .dict fs => by
    rw [sanitizeMetadata, Sanitised, Tractable]
    change SanitisedFields py fs (cleanedFields py fs) ↔ _
    constructor
    · intro h
      have hnodup : (fs.map fun e => e.1.text py).Nodup := by
        rw [← map_text_of_sanitisedFields h]
        exact nodup_cleanedFields fs
      rw [cleanedFields_of_nodup hnodup] at h
      exact ⟨hnodup, (sanitisedFields_map_iff fs).1 h⟩
    · rintro ⟨hnodup, h⟩
      rw [cleanedFields_of_nodup hnodup]
      exact (sanitisedFields_map_iff fs).2 h

theorem sanitisedItems_map_iff : (xs : List (MetaValue σ)) →
    (SanitisedItems py xs (xs.map (sanitizeMetadata py)) ↔ TractableItems py xs)
  | [] => by simp [SanitisedItems, TractableItems]
  | x :: xs => by
    rw [List.map_cons, SanitisedItems, TractableItems, sanitised_sanitizeMetadata_iff x,
      sanitisedItems_map_iff xs]

theorem sanitisedFields_map_iff : (fs : List (Key σ × MetaValue σ)) →
    (SanitisedFields py fs (fs.map fun e => (.str (e.1.text py), fieldValue py e.1 e.2)) ↔
      TractableFields py fs)
  | [] => by simp [SanitisedFields, TractableFields]
  | (k, v) :: fs => by
    rw [List.map_cons, SanitisedFields, TractableFields, sanitisedFields_map_iff fs]
    have hv := sanitised_sanitizeMetadata_iff v
    cases hk : isSensitive py (k.text py) <;> simp [fieldValue, hk, hv]

end

/-! ## A second pass -/

mutual

theorem sameButTexts_refl : (v : MetaValue σ) → SameButTexts v v
  | .scalar _ => by rw [SameButTexts]
  | .str _ => by rw [SameButTexts]; trivial
  | .list xs => by rw [SameButTexts]; exact sameItemsButTexts_refl xs
  | .tuple xs => by rw [SameButTexts]; exact sameItemsButTexts_refl xs
  | .dict fs => by rw [SameButTexts]; exact sameFieldsButTexts_refl fs

theorem sameItemsButTexts_refl : (xs : List (MetaValue σ)) → SameItemsButTexts xs xs
  | [] => by rw [SameItemsButTexts]
  | x :: xs => by
    rw [SameItemsButTexts]
    exact ⟨sameButTexts_refl x, sameItemsButTexts_refl xs⟩

theorem sameFieldsButTexts_refl : (fs : List (Key σ × MetaValue σ)) → SameFieldsButTexts fs fs
  | [] => by rw [SameFieldsButTexts]
  | (k, v) :: fs => by
    rw [SameFieldsButTexts]
    exact ⟨rfl, sameButTexts_refl v, sameFieldsButTexts_refl fs⟩

end

/-- Fields that a pass changes in their texts only. -/
theorem sameFieldsButTexts_map {gs : List (Key σ × MetaValue σ)}
    (h : ∀ g ∈ gs, g.1 = .str (g.1.text py) ∧ SameButTexts g.2 (fieldValue py g.1 g.2)) :
    SameFieldsButTexts gs (gs.map fun e => (.str (e.1.text py), fieldValue py e.1 e.2)) := by
  induction gs with
  | nil => rw [List.map_nil, SameFieldsButTexts]
  | cons g gs ih =>
    obtain ⟨hkey, hsame⟩ := h g (List.mem_cons_self ..)
    rw [List.map_cons, SameFieldsButTexts]
    exact ⟨hkey.symm, hsame, ih fun e he => h e (List.mem_cons_of_mem _ he)⟩

mutual

/-- **A second pass changes texts only.** -/
theorem sameButTexts_sanitizeMetadata :
    (v : MetaValue σ) → SameButTexts (sanitizeMetadata py v) (sanitizeMetadata py (sanitizeMetadata py v))
  | .scalar _ => by simp only [sanitizeMetadata, SameButTexts]
  | .str _ => by simp only [sanitizeMetadata, SameButTexts]
  | .list xs => by
    simp only [sanitizeMetadata, SameButTexts, sanitizeItems_eq_map]
    exact sameItemsButTexts_map xs
  | .tuple xs => by
    simp only [sanitizeMetadata, SameButTexts]
    exact sameItemsButTexts_refl xs
  | .dict fs => by
    simp only [sanitizeMetadata, SameButTexts]
    change SameFieldsButTexts (cleanedFields py fs) (cleanedFields py (cleanedFields py fs))
    rw [cleanedFields_of_nodup (nodup_cleanedFields fs)]
    refine sameFieldsButTexts_map fun g hg => ?_
    obtain ⟨f, hf, rfl⟩ := mem_cleanedFields hg
    exact ⟨rfl, sameButTexts_fieldValue fs f hf⟩

theorem sameItemsButTexts_map : (xs : List (MetaValue σ)) →
    SameItemsButTexts (xs.map (sanitizeMetadata py))
      ((xs.map (sanitizeMetadata py)).map (sanitizeMetadata py))
  | [] => by simp only [List.map_nil, SameItemsButTexts]
  | x :: xs => by
    simp only [List.map_cons, SameItemsButTexts]
    exact ⟨sameButTexts_sanitizeMetadata x, sameItemsButTexts_map xs⟩

theorem sameButTexts_fieldValue : (fs : List (Key σ × MetaValue σ)) → ∀ f ∈ fs,
    SameButTexts (fieldValue py f.1 f.2)
      (fieldValue py (.str (f.1.text py)) (fieldValue py f.1 f.2))
  | [] => fun _ hf => absurd hf List.not_mem_nil
  | (k, v) :: fs => by
    intro f hf
    rcases List.mem_cons.1 hf with rfl | hf
    · have hv := sameButTexts_sanitizeMetadata v
      cases hk : isSensitive py (k.text py)
      · simpa [fieldValue, hk] using hv
      · simpa [fieldValue, hk] using sameButTexts_refl redacted
    · exact sameButTexts_fieldValue fs f hf

end

end ScamOn.Notifications
