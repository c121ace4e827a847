import ScamOn.Lib.EmailAddresses
import ScamOn.Lib.EncodedWords
import ScamOn.Lib.UrlParse

/-!
# Decoding headers and parsing addresses

A header is decoded first, and addresses are parsed from what comes out.  In all of these functions
the empty text stands for `None`, too.
-/

namespace ScamOn.Parsing

open EmailAddresses EncodedWords

/-- What `bytes.decode` gives for a charset: a text, an exception that is caught on the spot
(`LookupError`, `UnicodeDecodeError`), or another one. -/
inductive Decoded
  | text (s : Str)
  | unknown
  | failed

/-- The codecs of Python but for UTF-8, with `errors="replace"`. -/
abbrev Codec := Str → List UInt8 → Decoded

/-- `content.decode("latin1")`. -/
def latin1 (content : List UInt8) : Str := content.map fun b => Char.ofNat b.toNat

/-- The body of the loop of `decode_rfc2047_header`; `none` is an exception. -/
def decodePart (codec : Codec) : Content × Option Str → Option Str
  | (.str text, _) => some text
  | (.bytes content, encoding) =>
    let enc := if encoding = none ∨ encoding = some [] then "utf-8".toList else encoding.getD []
    if enc = "utf-8".toList then some (Percent.decodeUtf8 content)
    else
      match codec enc content with
      | .text text => some text
      | .unknown => some (latin1 content)
      | .failed => none

/-- `decode_rfc2047_header`. -/
def decodeRfc2047Header (x : Unicode) (codec : Codec) (headerVal : Str) : Str :=
  if headerVal = [] then []
  else
    match (decodeHeader x.lower headerVal).bind fun parts => parts.mapM (decodePart codec) with
    | some texts => texts.flatten
    | none => headerVal

/-- `HeaderAddressDTO`. -/
structure HeaderAddress where
  name : Str
  address : Str

/-- A name and an address as they are reported. -/
def headerAddress (x : Unicode) (pair : Str × Str) : HeaderAddress :=
  ⟨Chars.strip pair.1, x.lower (Chars.strip pair.2)⟩

/-- `parse_address_header`. -/
def parseAddressHeader (x : Unicode) (codec : Codec) (rawVal : Str) : HeaderAddress :=
  if rawVal = [] then ⟨[], []⟩
  else
    let decoded := decodeRfc2047Header x codec rawVal
    match getaddresses decoded with
    | pair :: _ => headerAddress x pair
    | [] => ⟨[], x.lower (Chars.strip decoded)⟩

/-- `parse_addresses_list`. -/
def parseAddressesList (x : Unicode) (codec : Codec) (rawVal : Str) : List HeaderAddress :=
  if rawVal = [] then []
  else
    ((getaddresses (decodeRfc2047Header x codec rawVal)).filter fun pair => pair.2 ≠ []).map
      (headerAddress x)

end ScamOn.Parsing
