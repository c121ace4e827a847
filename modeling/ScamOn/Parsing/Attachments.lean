import ScamOn.Lib.Text
import ScamOn.Parsing.MimeTree

/-!
# Attachments

Stage 7 of the parsing pipeline turns the parts that the walk collected into attachments, and
separates the inline images.

* `detectMimeFromMagic` looks at the first bytes; the name plays no part in it.
* `extractAttachments` and `separateAttachments` are the two steps.
-/

namespace ScamOn.Parsing

/-- `ExtractedAttachmentDTO`, without the digests of its bytes. -/
structure ExtractedAttachment where
  filename : Str
  declaredContentType : Str
  detectedMimeType : Str
  sizeBytes : ℕ
  contentId : Option Str
  isInline : Bool
  rawData : List UInt8
  deriving DecidableEq

/-- `MAGIC_SIGNATURES`. -/
def magicSignatures : List (List UInt8 × Str) :=
  [([0x89, 0x50, 0x4E, 0x47, 0x0D, 0x0A, 0x1A, 0x0A], "image/png".toList),
    ([0xFF, 0xD8, 0xFF], "image/jpeg".toList),
    ([0x47, 0x49, 0x46, 0x38, 0x37, 0x61], "image/gif".toList),
    ([0x47, 0x49, 0x46, 0x38, 0x39, 0x61], "image/gif".toList),
    ([0x25, 0x50, 0x44, 0x46], "application/pdf".toList),
    ([0x50, 0x4B, 0x03, 0x04], "application/zip".toList),
    ([0x4D, 0x5A], "application/x-dsexec".toList),
    ([0xD0, 0xCF, 0x11, 0xE0], "application/msword".toList)]

/-- `DANGEROUS_EXTENSIONS`. -/
def dangerousExtensions : List Str :=
  [".exe", ".dll", ".bat", ".cmd", ".ps1", ".vbs", ".js", ".jar", ".scr", ".pif", ".iso"].map
    String.toList

/-- `detect_mime_from_magic`. -/
def detectMimeFromMagic (data : List UInt8) (fallbackType : Str) : Str :=
  if data = [] then fallbackType
  else ((magicSignatures.find? fun signature => signature.1.isPrefixOf data).map Prod.snd).getD
    fallbackType

/-- What file names need: `decode_rfc2047_header`, and `str.isprintable` of a character. -/
structure NameLibrary where
  decodeHeader : Str → Str
  isPrintable : Char → Bool

section Extract

variable (codecs : Codecs) (names : NameLibrary)

/-- `Path(s).name`. -/
def pathName (s : Str) : Str :=
  ((s.splitOn '/').filter fun part => part ≠ [] ∧ part ≠ ['.']).getLast?.getD []

/-- The characters that a name may keep. -/
def keepsInName (c : Char) : Bool :=
  names.isPrintable c && !(['/', '\\', ':', '*', '?', '"', '<', '>', '|'].contains c)

/-- `sanitize_attachment_filename`. -/
def sanitizeAttachmentFilename (filename : Option Str) : Str :=
  let cleanName := (pathName (names.decodeHeader (filename.getD []))).filter (keepsInName names)
  if filename.getD [] = [] ∨ cleanName = [] then "attachment.bin".toList else cleanName

/-- `s.strip("<> ")`. -/
def stripAngles (s : Str) : Str := Text.trim (['<', '>', ' '].contains ·) s

/-- `extract_attachment_dto`. -/
def extractAttachment (part : MimePart) : Option ExtractedAttachment :=
  part.payload.map fun payload =>
    let detected := detectMimeFromMagic payload (contentType codecs part)
    let contentId :=
      if stripAngles (part.contentId.getD []) = [] then none
      else some (stripAngles (part.contentId.getD []))
    {
      filename := sanitizeAttachmentFilename names part.filename
      declaredContentType := contentType codecs part
      detectedMimeType := detected
      sizeBytes := payload.length
      contentId := contentId
      isInline := decide ("inline".toList <:+: codecs.lower (part.disposition.getD [])) ||
        (contentId.isSome && decide ("image/".toList <:+: detected))
      rawData := payload
    }

/-- The attachments of the parts that were collected. -/
def extractAttachments (parts : List MimePart) : List ExtractedAttachment :=
  parts.filterMap (extractAttachment codecs names)

/-- The attachment belongs to the inline images. -/
def isInlineImage (att : ExtractedAttachment) : Bool :=
  att.isInline || (att.contentId.isSome && decide ("image/".toList <:+: att.detectedMimeType))

/-- One turn of the loop of `separate_attachments_and_inline_images`. -/
def separateStep (lists : List ExtractedAttachment × List ExtractedAttachment)
    (att : ExtractedAttachment) : List ExtractedAttachment × List ExtractedAttachment :=
  if isInlineImage att then (lists.1, lists.2 ++ [att]) else (lists.1 ++ [att], lists.2)

/-- `separate_attachments_and_inline_images`. -/
def separateAttachments (atts : List ExtractedAttachment) :
    List ExtractedAttachment × List ExtractedAttachment := atts.foldl separateStep ([], [])

/-- The extension of a name, as stage 7 reads it. -/
def extensionOf (filename : Str) : Str :=
  if '.' ∈ filename then codecs.lower ('.' :: (filename.splitOn '.').getLast?.getD []) else []

/-- The check for executables. -/
def isExecutable (att : ExtractedAttachment) : Bool :=
  dangerousExtensions.contains (extensionOf codecs att.filename) ||
    att.detectedMimeType = "application/x-dsexec".toList

variable {codecs names}

end Extract

end ScamOn.Parsing
