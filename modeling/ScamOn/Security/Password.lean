import ScamOn.Lib.Chars
import ScamOn.Lib.Hex
import ScamOn.Lib.Text

/-!
# Passwords

`PasswordHasher` writes a salted PBKDF2 key as a text and compares passwords with such
texts.  The key derivation is a parameter.

* `hashPassword` and `verifyPassword` follow the source.
* `parseHash_hashText`: what was written is read back.
* `verifyPassword_self` says which texts pass when they are compared with themselves,
  `verifyPassword_written` which pass against a text that was written by `hashPassword`.
-/

namespace ScamOn.Security

/-- `hashlib.pbkdf2_hmac("sha256", password, salt, iterations)`; `none` is an exception. -/
abbrev Pbkdf2 : Type := String → List UInt8 → ℤ → Option (List UInt8)

/-- `ITERATIONS`. -/
def iterations : ℤ := 100000

def hashPrefix : Str := "pbkdf2_sha256$".toList

/-- The text for a salt and a key. -/
def hashText (salt key : List UInt8) : String :=
  String.ofList (hashPrefix ++ "100000".toList ++ '$' :: (Hex.toHex salt ++ '$' :: Hex.toHex key))

variable (pbkdf2 : Pbkdf2)

/-- `hash_password`, with the salt that is drawn. -/
def hashPassword (salt : List UInt8) (password : String) : Option String :=
  (pbkdf2 password salt iterations).map (hashText salt)

/-- `hmac.compare_digest` of two texts; `none` is the `TypeError` for characters outside ASCII. -/
def compareDigest (a b : String) : Option Bool :=
  if Chars.allAscii a.toList ∧ Chars.allAscii b.toList then some (decide (a = b)) else none

/-- The number of iterations, the salt and the key in a text; `none` if there are not four parts,
or a part cannot be read. -/
def parseHash (hashedPassword : String) : Option (ℤ × List UInt8 × List UInt8) :=
  match hashedPassword.toList.splitOn '$' with
  | [_, n, salt, key] => do
    let n ← Text.intOfStr? (String.ofList n)
    let salt ← Hex.fromHex salt
    let key ← Hex.fromHex key
    return (n, salt, key)
  | _ => none

/-- `hashed_password.startswith("pbkdf2_sha256$")`. -/
def isPbkdf2 (hashedPassword : String) : Bool := decide (hashPrefix <+: hashedPassword.toList)

/-- `verify_password`; `none` is the `TypeError` that leaves it. -/
def verifyPassword (password hashedPassword : String) : Option Bool :=
  if hashedPassword = "" then some false
  else if isPbkdf2 hashedPassword = false then compareDigest password hashedPassword
  else
    match parseHash hashedPassword with
    | none => some false
    | some (n, salt, key) =>
      match pbkdf2 password salt n with
      | none => some false
      | some candidate => some (decide (candidate = key))

/-! ## What is accepted -/

/-- The text was written by `hash_password` for the password. -/
def Produced (hashedPassword password : String) : Prop :=
  ∃ salt, hashPassword pbkdf2 salt password = some hashedPassword

/-- The text holds a key of itself. -/
def HashesItself (password : String) : Prop :=
  ∃ n salt key, parseHash password = some (n, salt, key) ∧ pbkdf2 password salt n = some key

theorem toList_hashText (salt key : List UInt8) :
    (hashText salt key).toList =
      hashPrefix ++ "100000".toList ++ '$' :: (Hex.toHex salt ++ '$' :: Hex.toHex key) :=
  String.toList_ofList

theorem isPbkdf2_hashText (salt key : List UInt8) : isPbkdf2 (hashText salt key) = true := by
  unfold isPbkdf2
  rw [toList_hashText, List.append_assoc, decide_eq_true_eq]
  exact List.prefix_append _ _

theorem hashText_ne_empty (salt key : List UInt8) : hashText salt key ≠ "" := by
  intro h
  have hprefix := isPbkdf2_hashText salt key
  rw [h] at hprefix
  exact absurd hprefix (by decide +kernel)

/-- What was written is read back. -/
theorem parseHash_hashText (salt key : List UInt8) :
    parseHash (hashText salt key) = some (iterations, salt, key) := by
  have hsplit : (hashText salt key).toList.splitOn '$' =
      ["pbkdf2_sha256".toList, "100000".toList, Hex.toHex salt, Hex.toHex key] := by
    have hprefix : hashPrefix = "pbkdf2_sha256".toList ++ ['$'] := by decide +kernel
    rw [toList_hashText, hprefix]
    simp only [List.append_assoc, List.cons_append, List.nil_append]
    rw [List.splitOn_append_cons_self_of_not_mem (by decide +kernel),
      List.splitOn_append_cons_self_of_not_mem (by decide +kernel),
      List.splitOn_append_cons_self_of_not_mem (Hex.dollar_not_mem_toHex salt),
      List.splitOn_eq_singleton (Hex.dollar_not_mem_toHex key)]
  have hint : Text.intOfStr? (String.ofList "100000".toList) = some iterations := by decide +kernel
  unfold parseHash
  rw [hsplit]
  simp only [hint, Hex.fromHex_toHex]
  rfl

/-- The passwords a text may have been written for have its key. -/
theorem produced_hashText_iff (salt key : List UInt8) (password : String) :
    Produced pbkdf2 (hashText salt key) password ↔ pbkdf2 password salt iterations = some key := by
  constructor
  · rintro ⟨salt', hsalt'⟩
    obtain ⟨key', hkey', htext⟩ := Option.map_eq_some_iff.1 hsalt'
    have hread := parseHash_hashText salt' key'
    rw [htext, parseHash_hashText] at hread
    cases hread
    exact hkey'
  · intro hkey
    exact ⟨salt, by rw [hashPassword, hkey]; rfl⟩

/-- **Against a text that was written**, the passwords pass for which it may have been written. -/
theorem verifyPassword_written {hashedPassword : String}
    (hwritten : ∃ q, Produced pbkdf2 hashedPassword q) (password : String) :
    ∃ b, verifyPassword pbkdf2 password hashedPassword = some b ∧
      (b = true ↔ Produced pbkdf2 hashedPassword password) := by
  obtain ⟨q, salt, hq⟩ := hwritten
  obtain ⟨key, -, rfl⟩ := Option.map_eq_some_iff.1 hq
  unfold verifyPassword
  rw [if_neg (hashText_ne_empty salt key), isPbkdf2_hashText, if_neg (by decide), parseHash_hashText,
    produced_hashText_iff]
  dsimp only
  cases pbkdf2 password salt iterations with
  | none => exact ⟨false, rfl, iff_of_false (by decide) (by simp)⟩
  | some candidate =>
    refine ⟨_, rfl, ?_⟩
    rw [decide_eq_true_eq, Option.some.injEq]

/-- **Against itself** every text passes that is not empty and all of ASCII, unless it looks like
a written one. -/
theorem verifyPassword_self (password : String) :
    verifyPassword pbkdf2 password password = some true ↔
      password ≠ "" ∧ if isPbkdf2 password then HashesItself pbkdf2 password
        else Chars.allAscii password.toList = true := by
  unfold verifyPassword
  by_cases hempty : password = ""
  · simp [hempty]
  · rw [if_neg hempty]
    cases hprefix : isPbkdf2 password with
    | false =>
      by_cases hascii : Chars.allAscii password.toList = true
      · simp [hempty, hascii, compareDigest]
      · simp [hascii, compareDigest]
    | true =>
      unfold HashesItself
      cases hparse : parseHash password with
      | none => simp
      | some r =>
        obtain ⟨n, salt, key⟩ := r
        cases hkey : pbkdf2 password salt n with
        | none => simp [hkey]
        | some candidate => simp [hempty, hkey]

end ScamOn.Security
