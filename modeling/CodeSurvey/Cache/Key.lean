import CodeSurvey.Cache.Digest
import CodeSurvey.Language
import CodeSurvey.Text.Quoted

/-!
# Cache keys

A request is told from others by the tool, the spelling of the language, and the source. The key is
the start of the digest of the three.
-/

namespace CodeSurvey.CacheKey

/-- What a key is made from: tool, language without blanks around it and in lower case, and source,
with a null character between them. -/
def request (tool language source : Text) : Text :=
  Text.join [Char.ofNat 0] [tool, Language.normalized language, source]

/-- The digest of a text in hexadecimal digits. -/
def hexDigest (t : Text) : Text :=
  (Digest.hash (String.ofList t).toUTF8.toList).flatMap fun w => Text.hexDigits 8 w.toNat

/-- The key of a text: the first sixteen digits of its digest. -/
def ofText (t : Text) : Text :=
  (hexDigest t).take 16

/-- The key of a request. -/
def ofRequest (tool language source : Text) : Text :=
  ofText (request tool language source)

end CodeSurvey.CacheKey
