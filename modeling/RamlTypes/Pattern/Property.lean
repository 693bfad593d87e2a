import RamlTypes.Text.Case

/-!
# Names of character properties

The Unicode properties that a pattern can name in `\p{…}`: two-valued properties, general
categories, scripts, and the values of the properties of text segmentation and of age. Names are
compared without case, blanks, hyphens and underscores, and without `is` in front. Beside a name
stands the property's weight: the bytes that an automaton takes to recognise one character with it.
-/

namespace RamlTypes.Pattern.Property

/-- Properties that a character has or has not. -/
def binary : List (String × Nat) :=
  [("ahex", 88), ("asciihexdigit", 88), ("alpha", 47480), ("alphabetic", 47480), ("bidic", 336),
    ("bidicontrol", 336), ("bidim", 5560), ("bidimirrored", 5560), ("ci", 25024),
    ("caseignorable", 25024), ("cased", 10436), ("cwcf", 25240), ("changeswhencasefolded", 25240),
    ("cwcm", 8496), ("changeswhencasemapped", 8496), ("cwl", 24680),
    ("changeswhenlowercased", 24680), ("cwt", 25556), ("changeswhentitlecased", 25556),
    ("cwu", 25624), ("changeswhenuppercased", 25624), ("dash", 1632), ("di", 1476),
    ("defaultignorablecodepoint", 1476), ("dep", 736), ("deprecated", 736), ("dia", 13688),
    ("diacritic", 13688), ("emoji", 7660), ("ecomp", 908), ("emojicomponent", 908), ("emod", 196),
    ("emojimodifier", 196), ("ebase", 2144), ("emojimodifierbase", 2144), ("epres", 4856),
    ("emojipresentation", 4856), ("extpict", 8172), ("extendedpictographic", 8172), ("ext", 3084),
    ("extender", 3084), ("grbase", 55856), ("graphemebase", 55856), ("grext", 20548),
    ("graphemeextend", 20548), ("hex", 376), ("hexdigit", 376), ("hyphen", 4000), ("idsb", 300),
    ("idsbinaryoperator", 300), ("idst", 164), ("idstrinaryoperator", 164), ("idc", 49908),
    ("idcontinue", 49908), ("ids", 43352), ("idstart", 43352), ("ideo", 3952),
    ("ideographic", 3952), ("joinc", 164), ("joincontrol", 164), ("loe", 540),
    ("logicalorderexception", 540), ("lower", 28368), ("lowercase", 28368), ("math", 7368),
    ("nchar", 1992), ("noncharactercodepoint", 1992), ("patsyn", 1792), ("patternsyntax", 1792),
    ("patws", 340), ("patternwhitespace", 340), ("pcm", 4000),
    ("prependedconcatenationmark", 4000), ("qmark", 852), ("quotationmark", 852),
    ("radical", 404), ("ri", 196), ("regionalindicator", 196), ("sterm", 5796),
    ("sentenceterminal", 5796), ("sd", 2248), ("softdotted", 2248), ("term", 7316),
    ("terminalpunctuation", 7316), ("uideo", 2740), ("unifiedideograph", 2740), ("upper", 27152),
    ("uppercase", 27152), ("vs", 500), ("variationselector", 500), ("wspace", 680),
    ("whitespace", 680), ("space", 680), ("xidc", 50296), ("xidcontinue", 50296), ("xids", 43740),
    ("xidstart", 43740), ("grlink", 4000), ("graphemelink", 4000), ("idcompatmathstart", 4000),
    ("idcompatmathcontinue", 4000), ("idsu", 4000), ("idsunaryoperator", 4000), ("mcm", 4000),
    ("modifiercombiningmark", 4000), ("oalpha", 4000), ("otheralphabetic", 4000), ("odi", 4000),
    ("otherdefaultignorablecodepoint", 4000), ("ogrext", 4000), ("othergraphemeextend", 4000),
    ("oidc", 4000), ("otheridcontinue", 4000), ("oids", 4000), ("otheridstart", 4000),
    ("olower", 4000), ("otherlowercase", 4000), ("omath", 4000), ("othermath", 4000),
    ("oupper", 4000), ("otheruppercase", 4000)]

/-- General categories, and the three sets named like one. -/
def categories : List (String × Nat) :=
  [("c", 43204), ("other", 43204), ("cc", 204), ("control", 204), ("cntrl", 204), ("cf", 1784),
    ("format", 1784), ("cn", 42516), ("unassigned", 42516), ("co", 864), ("privateuse", 864),
    ("l", 43216), ("letter", 43216), ("lc", 9640), ("casedletter", 9640), ("ll", 27740),
    ("lowercaseletter", 27740), ("lm", 5256), ("modifierletter", 5256), ("lo", 34532),
    ("otherletter", 34532), ("lt", 552), ("titlecaseletter", 552), ("lu", 26672),
    ("uppercaseletter", 26672), ("m", 19012), ("mark", 19012), ("combiningmark", 19012),
    ("mc", 10448), ("spacingmark", 10448), ("me", 468), ("enclosingmark", 468), ("mn", 19700),
    ("nonspacingmark", 19700), ("n", 9884), ("number", 9884), ("nd", 5184),
    ("decimalnumber", 5184), ("digit", 5184), ("nl", 1212), ("letternumber", 1212), ("no", 5100),
    ("othernumber", 5100), ("p", 11952), ("punctuation", 11952), ("punct", 11952), ("pc", 540),
    ("connectorpunctuation", 540), ("pd", 1392), ("dashpunctuation", 1392), ("pe", 3504),
    ("closepunctuation", 3504), ("pf", 552), ("finalpunctuation", 552), ("pi", 588),
    ("initialpunctuation", 588), ("po", 11280), ("otherpunctuation", 11280), ("ps", 3644),
    ("openpunctuation", 3644), ("s", 15936), ("symbol", 15936), ("sc", 1720),
    ("currencysymbol", 1720), ("sk", 2020), ("modifiersymbol", 2020), ("sm", 4160),
    ("mathsymbol", 4160), ("so", 13264), ("othersymbol", 13264), ("z", 608), ("separator", 608),
    ("zl", 164), ("lineseparator", 164), ("zp", 164), ("paragraphseparator", 164), ("zs", 572),
    ("spaceseparator", 572), ("any", 964), ("assigned", 51044), ("ascii", 72)]

/-- Scripts, first half of the alphabet. -/
def scriptsAToL : List (String × Nat) :=
  [("adlm", 336), ("adlam", 336), ("ahom", 336), ("hluw", 264), ("anatolianhieroglyphs", 264),
    ("arab", 3268), ("arabic", 3268), ("armn", 440), ("armenian", 440), ("avst", 232),
    ("avestan", 232), ("bali", 268), ("balinese", 268), ("bamu", 432), ("bamum", 432),
    ("bass", 232), ("bassavah", 232), ("batk", 200), ("batak", 200), ("beng", 700),
    ("bengali", 700), ("bhks", 372), ("bhaiksuki", 372), ("bopo", 300), ("bopomofo", 300),
    ("brah", 336), ("brahmi", 336), ("brai", 164), ("braille", 164), ("bugi", 200),
    ("buginese", 200), ("buhd", 164), ("buhid", 164), ("cans", 432), ("canadianaboriginal", 432),
    ("cari", 264), ("carian", 264), ("aghb", 300), ("caucasianalbanian", 300), ("cakm", 300),
    ("chakma", 300), ("cham", 304), ("cher", 436), ("cherokee", 436), ("chrs", 264),
    ("chorasmian", 264), ("zyyy", 12544), ("common", 12544), ("copt", 336), ("coptic", 336),
    ("qaac", 336), ("xsux", 572), ("cuneiform", 572), ("cprt", 376), ("cypriot", 376),
    ("cpmn", 264), ("cyprominoan", 264), ("cyrl", 1244), ("cyrillic", 1244), ("dsrt", 264),
    ("deseret", 264), ("deva", 536), ("devanagari", 536), ("diak", 516), ("divesakuru", 516),
    ("dogr", 196), ("dogra", 196), ("dupl", 440), ("duployan", 440), ("egyp", 536),
    ("egyptianhieroglyphs", 536), ("elba", 196), ("elbasan", 196), ("elym", 196),
    ("elymaic", 196), ("ethi", 2016), ("ethiopic", 2016), ("gara", 336), ("garay", 336),
    ("geor", 652), ("georgian", 652), ("glag", 508), ("glagolitic", 508), ("goth", 264),
    ("gothic", 264), ("gran", 768), ("grantha", 768), ("grek", 2244), ("greek", 2244),
    ("gujr", 700), ("gujarati", 700), ("gong", 444), ("gunjalagondi", 444), ("guru", 772),
    ("gurmukhi", 772), ("gukh", 196), ("gurungkhema", 196), ("hani", 3584), ("han", 3584),
    ("hang", 1456), ("hangul", 1456), ("rohg", 232), ("hanifirohingya", 232), ("hano", 164),
    ("hanunoo", 164), ("hatr", 268), ("hatran", 268), ("hebr", 584), ("hebrew", 584),
    ("hira", 740), ("hiragana", 740), ("armi", 232), ("imperialaramaic", 232), ("zinh", 2444),
    ("inherited", 2444), ("qaai", 2444), ("phli", 232), ("inscriptionalpahlavi", 232),
    ("prti", 232), ("inscriptionalparthian", 232), ("java", 304), ("javanese", 304),
    ("kthi", 300), ("kaithi", 300), ("knda", 664), ("kannada", 664), ("kana", 1220),
    ("katakana", 1220), ("kawi", 336), ("kali", 200), ("kayahli", 200), ("khar", 516),
    ("kharoshthi", 516), ("kits", 400), ("khitansmallscript", 400), ("khmr", 372), ("khmer", 372),
    ("khoj", 300), ("khojki", 300), ("sind", 300), ("khudawadi", 300), ("krai", 196),
    ("kiratrai", 196), ("laoo", 556), ("lao", 556), ("latn", 2740), ("latin", 2740),
    ("lepc", 304), ("lepcha", 304), ("limb", 340), ("limbu", 340), ("lina", 368),
    ("lineara", 368), ("linb", 580), ("linearb", 580), ("lisu", 296), ("lyci", 196),
    ("lycian", 196), ("lydi", 232), ("lydian", 232), ("mahj", 196), ("mahajani", 196),
    ("maka", 196), ("makasar", 196), ("mlym", 448), ("malayalam", 448), ("mand", 200),
    ("mandaic", 200)]

/-- Scripts, second half of the alphabet. -/
def scriptsLToZ : List (String × Nat) :=
  [("mani", 232), ("manichaean", 232), ("marc", 336), ("marchen", 336), ("gonm", 480),
    ("masaramgondi", 480), ("medf", 264), ("medefaidrin", 264), ("mtei", 268),
    ("meeteimayek", 268), ("mend", 300), ("mendekikakui", 300), ("merc", 336),
    ("meroiticcursive", 336), ("mero", 196), ("meroitichieroglyphs", 196), ("plrd", 404),
    ("miao", 404), ("modi", 300), ("mong", 540), ("mongolian", 540), ("mroo", 268), ("mro", 268),
    ("mult", 340), ("multani", 340), ("mymr", 532), ("myanmar", 532), ("nbat", 232),
    ("nabataean", 232), ("nagm", 196), ("nagmundari", 196), ("nand", 336), ("nandinagari", 336),
    ("talu", 340), ("newtailue", 340), ("newa", 300), ("nkoo", 168), ("nko", 168), ("nshu", 432),
    ("nushu", 432), ("hmnp", 336), ("nyiakengpuachuehmong", 336), ("ogam", 164), ("ogham", 164),
    ("olck", 164), ("olchiki", 164), ("onao", 232), ("olonal", 232), ("hung", 300),
    ("oldhungarian", 300), ("ital", 232), ("olditalic", 232), ("narb", 196),
    ("oldnortharabian", 196), ("perm", 196), ("oldpermic", 196), ("xpeo", 300),
    ("oldpersian", 300), ("sogo", 196), ("oldsogdian", 196), ("sarb", 196),
    ("oldsoutharabian", 196), ("orkh", 264), ("oldturkic", 264), ("ougr", 264),
    ("olduyghur", 264), ("orya", 700), ("oriya", 700), ("osge", 300), ("osage", 300),
    ("osma", 232), ("osmanya", 232), ("hmng", 476), ("pahawhhmong", 476), ("palm", 196),
    ("palmyrene", 196), ("pauc", 196), ("paucinhau", 196), ("phag", 164), ("phagspa", 164),
    ("phnx", 232), ("phoenician", 232), ("phlp", 268), ("psalterpahlavi", 268), ("rjng", 268),
    ("rejang", 268), ("runr", 268), ("runic", 268), ("samr", 200), ("samaritan", 200),
    ("saur", 268), ("saurashtra", 268), ("shrd", 332), ("sharada", 332), ("shaw", 196),
    ("shavian", 196), ("sidd", 300), ("siddham", 300), ("sgnw", 336), ("signwriting", 336),
    ("sinh", 724), ("sinhala", 724), ("sogd", 264), ("sogdian", 264), ("sora", 232),
    ("sorasompeng", 232), ("soyo", 264), ("soyombo", 264), ("sund", 232), ("sundanese", 232),
    ("sunu", 232), ("sunuwar", 232), ("sylo", 164), ("sylotinagri", 164), ("syrc", 372),
    ("syriac", 372), ("tglg", 200), ("tagalog", 200), ("tagb", 236), ("tagbanwa", 236),
    ("tale", 200), ("taile", 200), ("lana", 444), ("taitham", 444), ("tavt", 268),
    ("taiviet", 268), ("takr", 264), ("takri", 264), ("taml", 940), ("tamil", 940), ("tnsa", 332),
    ("tangsa", 332), ("tang", 600), ("tangut", 600), ("telu", 664), ("telugu", 664),
    ("thaa", 132), ("thaana", 132), ("thai", 232), ("tibt", 584), ("tibetan", 584), ("tfng", 304),
    ("tifinagh", 304), ("tirh", 300), ("tirhuta", 300), ("todr", 196), ("todhri", 196),
    ("toto", 196), ("tutg", 624), ("tulutigalari", 624), ("ugar", 232), ("ugaritic", 232),
    ("vaii", 232), ("vai", 232), ("vith", 516), ("vithkuqi", 516), ("wcho", 232), ("wancho", 232),
    ("wara", 300), ("warangciti", 300), ("yezi", 268), ("yezidi", 268), ("yiii", 336),
    ("yi", 336), ("zanb", 264), ("zanabazarsquare", 264)]

/-- Values of the grapheme cluster break property. -/
def graphemeBreaks : List String :=
  ["cn", "control", "cr", "ex", "extend", "l", "lf", "lv", "lvt", "pp", "prepend", "ri",
    "regionalindicator", "sm", "spacingmark", "t", "v", "zwj"]

/-- Values of the word break property. -/
def wordBreaks : List String :=
  ["cr", "dq", "doublequote", "ex", "extendnumlet", "extend", "fo", "format", "hl",
    "hebrewletter", "ka", "katakana", "le", "aletter", "lf", "mb", "midnumlet", "ml", "midletter",
    "mn", "midnum", "nl", "newline", "nu", "numeric", "ri", "regionalindicator", "sq",
    "singlequote", "wsegspace", "zwj"]

/-- Values of the sentence break property. -/
def sentenceBreaks : List String :=
  ["at", "aterm", "cl", "close", "cr", "ex", "extend", "fo", "format", "le", "oletter", "lf",
    "lo", "lower", "nu", "numeric", "sc", "scontinue", "se", "sep", "sp", "st", "sterm", "up",
    "upper"]

/-- Versions of the standard, as values of the age property. -/
def ages : List String :=
  ["1.1", "v11", "2.0", "v20", "2.1", "v21", "3.0", "v30", "3.1", "v31", "3.2", "v32", "4.0",
    "v40", "4.1", "v41", "5.0", "v50", "5.1", "v51", "5.2", "v52", "6.0", "v60", "6.1", "v61",
    "6.2", "v62", "6.3", "v63", "7.0", "v70", "8.0", "v80", "9.0", "v90", "10.0", "v100", "11.0",
    "v110", "12.0", "v120", "12.1", "v121", "13.0", "v130", "14.0", "v140", "15.0", "v150",
    "15.1", "v151", "16.0", "v160"]

/-- The spelling under which names are compared: ASCII letters in lower case, without blanks,
underscores and hyphens, and without `is` in front. `isc` alone keeps its front, since `c` is the
name of another property. -/
def normalize (name : String) : String :=
  let cs := name.toList
  let (marked, cs) := match cs with
    | a :: b :: rest => if a.toLower = 'i' ∧ b.toLower = 's' then (true, rest) else (false, cs)
    | _ => (false, cs)
  let kept := cs.filter fun c => c.toNat < 128 && c != ' ' && c != '_' && c != '-'
  let plain := Text.lowerAscii (String.ofList kept)
  if marked && plain == "c" then "isc" else plain

/-- The weight of a script. -/
def script? (name : String) : Option Nat :=
  (scriptsAToL.lookup name).or (scriptsLToZ.lookup name)

/-- The weight of a value whose table holds names only. -/
def value? (names : List String) (name : String) : Option Nat :=
  if names.contains name then some 4000 else none

/-- The weight of a property that is named alone. `sc` and `lc` are general categories here. -/
def named? (name : String) : Option Nat :=
  let n := normalize name
  ((binary.lookup n).or (categories.lookup n)).or (script? n)

/-- The weight of a property that is given as a name and a value. -/
def valued? (name value : String) : Option Nat :=
  let v := normalize value
  match normalize name with
  | "gc" | "generalcategory" => categories.lookup v
  | "sc" | "script" | "scx" | "scriptextensions" => script? v
  | "age" => value? ages v
  | "gcb" | "graphemeclusterbreak" => value? graphemeBreaks v
  | "wb" | "wordbreak" => value? wordBreaks v
  | "sb" | "sentencebreak" => value? sentenceBreaks v
  | _ => none

/-- The weight of the property that stands between the braces: a name alone, or a name and a value
with `!=`, `:` or `=` between them, of which the first in this order that occurs separates. -/
def lookup? (text : List Char) : Option Nat :=
  let rec unequal : List Char → Option (List Char × List Char)
    | [] => none
    | '!' :: '=' :: rest => some ([], rest)
    | c :: rest => (unequal rest).map fun p => (c :: p.1, p.2)
  let around (sep : Char) : Option (List Char × List Char) :=
    if text.contains sep then
      some (text.takeWhile (· ≠ sep), (text.dropWhile (· ≠ sep)).drop 1)
    else none
  match ((unequal text).or (around ':')).or (around '=') with
  | some (name, value) => valued? (String.ofList name) (String.ofList value)
  | none => named? (String.ofList text)

end RamlTypes.Pattern.Property
