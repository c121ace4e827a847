import ScamOn.Parsing.Attachments
import ScamOn.Parsing.HeaderParser

/-!
# Names of attachments as path components

`sanitize_attachment_filename` decodes the name, takes the last component of the path, and drops
characters from it.

* `Printability` is what is known of `str.isprintable`.
* `SafeName` is what a safe path component is.
* `safeName_iff`: the name that comes out is one, unless what is kept of the component is one dot or
  two.
* `names_of_dots`: a name of two dots is kept, and dropping characters makes one of dots.
-/

namespace ScamOn.Parsing

open EncodedWords UrlParse

/-- The character is one of the category `Cc`. -/
def isControl (c : Char) : Bool := c.toNat < 0x20 || (0x7F ≤ c.toNat && c.toNat < 0xA0)

/-- `str.isprintable` of a character: control characters are not printable, those of ASCII that
are none are. -/
structure Printability where
  test : Char → Bool
  control : ∀ c, isControl c = true → test c = false
  ascii : ∀ c, 0x20 ≤ c.toNat → c.toNat < 0x7F → test c = true

/-- The functions that file names need, with `decode_rfc2047_header`. -/
def nameLibrary (x : Unicode) (codec : Codec) (printable : Printability) : NameLibrary where
  decodeHeader := decodeRfc2047Header x codec
  isPrintable := printable.test

/-- **A safe path component** that is left alone when it is sanitised again. -/
structure SafeName (names : NameLibrary) (name : Str) : Prop where
  nonempty : name ≠ []
  notDots : name ≠ ".".toList ∧ name ≠ "..".toList
  plain : ∀ c ∈ name, c ≠ '/' ∧ c ≠ '\\' ∧ c ≠ ':' ∧ isControl c = false
  fixed : sanitizeAttachmentFilename names (some name) = name

/-- What is kept of the name is more than one dot or two: another character, or more dots. -/
def KeepsMore (names : NameLibrary) (component : Str) : Prop :=
  (∃ c ∈ component, keepsInName names c = true ∧ c ≠ '.') ∨
    component.countP (keepsInName names) ∉ [1, 2]

variable {x : Unicode} {codec : Codec} {printable : Printability} {c : Char} {s : Str}

/-! ## Kept characters -/

theorem keepsInName_iff {names : NameLibrary} :
    keepsInName names c = true ↔ names.isPrintable c = true ∧
      c ∉ ['/', '\\', ':', '*', '?', '"', '<', '>', '|'] := by
  unfold keepsInName
  rw [Bool.and_eq_true, Bool.not_eq_true', List.contains_eq_mem, decide_eq_false_iff_not]

/-- A name without encoded words is decoded to itself. -/
theorem decodeRfc2047Header_of_free (h : ¬['=', '?'] <:+: s) : decodeRfc2047Header x codec s = s := by
  have hsearch : ecreSearch s = false := by
    unfold ecreSearch
    rw [ecreSplit_of_free h]
    rfl
  unfold decodeRfc2047Header
  split_ifs with hempty
  · exact hempty.symm
  · have hdecode : decodeHeader x.lower s = some [(.str s, none)] := if_pos hsearch
    rw [hdecode]
    exact List.append_nil s

/-- A name without separators is its own last component, if it is not a dot. -/
theorem pathName_of_not_mem (h : '/' ∉ s) (hdot : s ≠ ['.']) : pathName s = s := by
  have hsplit : s.splitOn '/' = [s] := by
    have happend := Chars.splitOn_append_of_not_mem h []
    rwa [List.append_nil, List.splitOn_nil, List.modifyHead_cons, List.append_nil] at happend
  unfold pathName
  rw [hsplit]
  by_cases hempty : s = []
  · simp [hempty]
  · simp [hempty, hdot]

/-- Kept characters are left alone, unless they are a single dot. -/
theorem sanitize_kept (hkept : ∀ c ∈ s, keepsInName (nameLibrary x codec printable) c = true)
    (hne : s ≠ []) (hdot : s ≠ ['.']) :
    sanitizeAttachmentFilename (nameLibrary x codec printable) (some s) = s := by
  have hfree : ¬['=', '?'] <:+: s := by
    intro hin
    have hmem := hkept '?' (hin.subset (by simp))
    simp [keepsInName_iff] at hmem
  have hslash : '/' ∉ s := by
    intro hmem
    have hkeeps := hkept '/' hmem
    simp [keepsInName_iff] at hkeeps
  have hdecode : (nameLibrary x codec printable).decodeHeader s = s := decodeRfc2047Header_of_free hfree
  unfold sanitizeAttachmentFilename
  rw [Option.getD_some, hdecode, pathName_of_not_mem hslash hdot, List.filter_eq_self.2 hkept]
  simp [hne]

/-- A text is not one dot or two exactly if it has another character, or another length. -/
theorem ne_dots_iff : s ≠ ".".toList ∧ s ≠ "..".toList ↔ (∃ c ∈ s, c ≠ '.') ∨ s.length ∉ [1, 2] := by
  have hdots : (∀ c ∈ s, c = '.') ↔ s = List.replicate s.length '.' := by
    rw [List.eq_replicate_iff]
    simp
  constructor
  · intro h
    by_contra hnot
    push Not at hnot
    have hs := hdots.1 hnot.1
    rcases List.mem_pair.1 hnot.2 with hone | htwo
    · rw [hone] at hs
      exact h.1 hs
    · rw [htwo] at hs
      exact h.2 hs
  · rintro (⟨c, hc, hne⟩ | hlength)
    · constructor
      · rintro rfl
        exact hne (List.mem_singleton.1 hc)
      · rintro rfl
        exact hne (by simpa using hc)
    · constructor
      · rintro rfl
        exact hlength (by decide)
      · rintro rfl
        exact hlength (by decide)

theorem keepsMore_iff {names : NameLibrary} :
    KeepsMore names s ↔ s.filter (keepsInName names) ≠ ".".toList ∧
      s.filter (keepsInName names) ≠ "..".toList := by
  rw [ne_dots_iff]
  unfold KeepsMore
  rw [List.countP_eq_length_filter]
  simp only [List.mem_filter, and_assoc]

theorem safeName_default :
    SafeName (nameLibrary x codec printable) "attachment.bin".toList := by
  have hascii : ∀ c ∈ "attachment.bin".toList, 0x20 ≤ c.toNat ∧ c.toNat < 0x7F ∧
      c ∉ ['/', '\\', ':', '*', '?', '"', '<', '>', '|'] := by decide +kernel
  have hkept : ∀ c ∈ "attachment.bin".toList,
      keepsInName (nameLibrary x codec printable) c = true := fun c hc =>
    keepsInName_iff.2 ⟨printable.ascii c (hascii c hc).1 (hascii c hc).2.1, (hascii c hc).2.2⟩
  exact {
    nonempty := by decide +kernel
    notDots := by decide +kernel
    plain := by decide +kernel
    fixed := sanitize_kept hkept (by decide +kernel) (by decide +kernel) }

/-- **The sanitised name is a safe path component** exactly if more than one dot or two is kept of
the last component of the decoded name. -/
theorem safeName_iff (x : Unicode) (codec : Codec) (printable : Printability)
    (filename : Option Str) :
    SafeName (nameLibrary x codec printable)
        (sanitizeAttachmentFilename (nameLibrary x codec printable) filename) ↔
      KeepsMore (nameLibrary x codec printable)
        (pathName (decodeRfc2047Header x codec (filename.getD []))) := by
  rw [keepsMore_iff]
  by_cases hempty : (pathName (decodeRfc2047Header x codec (filename.getD []))).filter
      (keepsInName (nameLibrary x codec printable)) = []
  · have hresult : sanitizeAttachmentFilename (nameLibrary x codec printable) filename =
        "attachment.bin".toList := if_pos (.inr hempty)
    rw [hresult, hempty]
    exact iff_of_true safeName_default (by decide +kernel)
  · have hfilename : filename.getD [] ≠ [] := by
      intro hnone
      rw [hnone] at hempty
      exact hempty rfl
    have hresult : sanitizeAttachmentFilename (nameLibrary x codec printable) filename =
        (pathName (decodeRfc2047Header x codec (filename.getD []))).filter
          (keepsInName (nameLibrary x codec printable)) := if_neg (not_or.2 ⟨hfilename, hempty⟩)
    rw [hresult]
    constructor
    · intro hsafe
      exact hsafe.notDots
    · intro hdots
      have hkept : ∀ c ∈ (pathName (decodeRfc2047Header x codec (filename.getD []))).filter
          (keepsInName (nameLibrary x codec printable)),
          keepsInName (nameLibrary x codec printable) c = true := fun c hc => (List.mem_filter.1 hc).2
      refine ⟨hempty, hdots, fun c hc => ?_, sanitize_kept hkept hempty hdots.1⟩
      obtain ⟨hprintable, hseparator⟩ := keepsInName_iff.1 (hkept c hc)
      simp only [List.mem_cons, not_or] at hseparator
      refine ⟨hseparator.1, hseparator.2.1, hseparator.2.2.1, ?_⟩
      by_contra hcontrol
      rw [Bool.not_eq_false] at hcontrol
      rw [show (nameLibrary x codec printable).isPrintable c = false from
        printable.control c hcontrol] at hprintable
      cases hprintable

/-! ### Names of dots -/

/-- The printable characters of ASCII. -/
def asciiPrintable : Printability where
  test c := 0x20 ≤ c.toNat && c.toNat < 0x7F
  control c h := by
    unfold isControl at h
    simp only [Bool.or_eq_true, Bool.and_eq_true, decide_eq_true_eq] at h
    simp only [Bool.and_eq_false_iff, decide_eq_false_iff_not]
    omega
  ascii c hlow hhigh := by simp [hlow, hhigh]

/-- Only UTF-8 is known. -/
def utf8Only : Codec := fun _ _ => .unknown

/-- **Two dots are kept**, also if they are encoded or come about by dropping a character, and a
single dot is not left alone. -/
theorem names_of_dots :
    (∀ filename ∈ ["..", "../..", "a/.:.", "=?utf-8?q?=2E=2E?="],
      sanitizeAttachmentFilename (nameLibrary asciiUnicode utf8Only asciiPrintable)
        (some filename.toList) = "..".toList ∧
      ¬SafeName (nameLibrary asciiUnicode utf8Only asciiPrintable)
        (sanitizeAttachmentFilename (nameLibrary asciiUnicode utf8Only asciiPrintable)
          (some filename.toList))) ∧
    sanitizeAttachmentFilename (nameLibrary asciiUnicode utf8Only asciiPrintable)
        (some ".:".toList) = ".".toList ∧
      sanitizeAttachmentFilename (nameLibrary asciiUnicode utf8Only asciiPrintable)
        (some ".".toList) = "attachment.bin".toList := by
  have hdots : ∀ filename ∈ ["..", "../..", "a/.:.", "=?utf-8?q?=2E=2E?="],
      sanitizeAttachmentFilename (nameLibrary asciiUnicode utf8Only asciiPrintable)
        (some filename.toList) = "..".toList := by decide +kernel
  refine ⟨fun filename hmem => ⟨hdots filename hmem, fun hsafe => ?_⟩, by decide +kernel,
    by decide +kernel⟩
  rw [hdots filename hmem] at hsafe
  exact hsafe.notDots.2 rfl

end ScamOn.Parsing
