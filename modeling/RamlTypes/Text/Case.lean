/-!
# Letter case of ASCII text

Case maps that move the letters of ASCII and leave every other character alone.
-/

namespace RamlTypes.Text

/-- Text with the letters `A` to `Z` in lower case. -/
def lowerAscii (s : String) : String :=
  String.ofList (s.toList.map Char.toLower)

end RamlTypes.Text
