/-!
Names of character properties that patterns can refer to. Case, blanks, underscores and hyphens in
a name do not matter, nor does `is` at its start.
-/

namespace InstallScript.Pattern.Property

/-- Properties that a character has or has not. -/
def binaryNames : List String := [
  "asciihexdigit", "ahex", "alphabetic", "alpha", "bidicontrol", "bidic", "bidimirrored",
  "bidim", "caseignorable", "ci", "cased", "changeswhencasefolded", "cwcf",
  "changeswhencasemapped", "cwcm", "changeswhenlowercased", "cwl", "changeswhentitlecased",
  "cwt", "changeswhenuppercased", "cwu", "dash", "defaultignorablecodepoint", "di",
  "deprecated", "dep", "diacritic", "dia", "emoji", "emojicomponent", "ecomp", "emojimodifier",
  "emod", "emojimodifierbase", "ebase", "emojipresentation", "epres", "extendedpictographic",
  "extpict", "extender", "ext", "graphemebase", "grbase", "graphemeextend", "grext",
  "graphemelink", "grlink", "hexdigit", "hex", "hyphen", "idsbinaryoperator", "idsb",
  "idstrinaryoperator", "idst", "idsunaryoperator", "idsu", "idcompatmathcontinue",
  "idcompatmathstart", "idcontinue", "idc", "idstart", "ids", "ideographic", "ideo",
  "joincontrol", "joinc", "logicalorderexception", "loe", "lowercase", "lower", "math",
  "modifiercombiningmark", "mcm", "noncharactercodepoint", "nchar", "otheralphabetic", "oalpha",
  "otherdefaultignorablecodepoint", "odi", "othergraphemeextend", "ogrext", "otheridcontinue",
  "oidc", "otheridstart", "oids", "otherlowercase", "olower", "othermath", "omath",
  "otheruppercase", "oupper", "patternsyntax", "patsyn", "patternwhitespace", "patws",
  "prependedconcatenationmark", "pcm", "quotationmark", "qmark", "radical", "regionalindicator",
  "ri", "sentenceterminal", "sterm", "softdotted", "sd", "terminalpunctuation", "term",
  "unifiedideograph", "uideo", "uppercase", "upper", "variationselector", "vs", "whitespace",
  "wspace", "space", "xidcontinue", "xidc", "xidstart", "xids"]

/-- General categories. Surrogates are no characters, so their category has no name here. -/
def categoryNames : List String := [
  "any", "ascii", "assigned", "c", "casedletter", "cc", "cf", "closepunctuation", "cn", "cntrl",
  "co", "combiningmark", "connectorpunctuation", "control", "currencysymbol", "dashpunctuation",
  "decimalnumber", "digit", "enclosingmark", "finalpunctuation", "format", "initialpunctuation",
  "l", "lc", "letter", "letternumber", "lineseparator", "ll", "lm", "lo", "lowercaseletter",
  "lt", "lu", "m", "mark", "mathsymbol", "mc", "me", "mn", "modifierletter", "modifiersymbol",
  "n", "nd", "nl", "no", "nonspacingmark", "number", "openpunctuation", "other", "otherletter",
  "othernumber", "otherpunctuation", "othersymbol", "p", "paragraphseparator", "pc", "pd", "pe",
  "pf", "pi", "po", "privateuse", "ps", "punct", "punctuation", "s", "sc", "separator", "sk",
  "sm", "so", "spaceseparator", "spacingmark", "symbol", "titlecaseletter", "unassigned",
  "uppercaseletter", "z", "zl", "zp", "zs"]

/-- Scripts. -/
def scriptNames : List String := [
  "adlam", "adlm", "aghb", "ahom", "anatolianhieroglyphs", "arab", "arabic", "armenian", "armi",
  "armn", "avestan", "avst", "bali", "balinese", "bamu", "bamum", "bass", "bassavah", "batak",
  "batk", "beng", "bengali", "bhaiksuki", "bhks", "bopo", "bopomofo", "brah", "brahmi", "brai",
  "braille", "bugi", "buginese", "buhd", "buhid", "cakm", "canadianaboriginal", "cans", "cari",
  "carian", "caucasianalbanian", "chakma", "cham", "cher", "cherokee", "chorasmian", "chrs",
  "common", "copt", "coptic", "cpmn", "cprt", "cuneiform", "cypriot", "cyprominoan", "cyrillic",
  "cyrl", "deseret", "deva", "devanagari", "diak", "divesakuru", "dogr", "dogra", "dsrt",
  "dupl", "duployan", "egyp", "egyptianhieroglyphs", "elba", "elbasan", "elym", "elymaic",
  "ethi", "ethiopic", "gara", "garay", "geor", "georgian", "glag", "glagolitic", "gong", "gonm",
  "goth", "gothic", "gran", "grantha", "greek", "grek", "gujarati", "gujr", "gukh",
  "gunjalagondi", "gurmukhi", "guru", "gurungkhema", "han", "hang", "hangul", "hani",
  "hanifirohingya", "hano", "hanunoo", "hatr", "hatran", "hebr", "hebrew", "hira", "hiragana",
  "hluw", "hmng", "hmnp", "hung", "imperialaramaic", "inherited", "inscriptionalpahlavi",
  "inscriptionalparthian", "ital", "java", "javanese", "kaithi", "kali", "kana", "kannada",
  "katakana", "kawi", "kayahli", "khar", "kharoshthi", "khitansmallscript", "khmer", "khmr",
  "khoj", "khojki", "khudawadi", "kiratrai", "kits", "knda", "krai", "kthi", "lana", "lao",
  "laoo", "latin", "latn", "lepc", "lepcha", "limb", "limbu", "lina", "linb", "lineara",
  "linearb", "lisu", "lyci", "lycian", "lydi", "lydian", "mahajani", "mahj", "maka", "makasar",
  "malayalam", "mand", "mandaic", "mani", "manichaean", "marc", "marchen", "masaramgondi",
  "medefaidrin", "medf", "meeteimayek", "mend", "mendekikakui", "merc", "mero",
  "meroiticcursive", "meroitichieroglyphs", "miao", "mlym", "modi", "mong", "mongolian", "mro",
  "mroo", "mtei", "mult", "multani", "myanmar", "mymr", "nabataean", "nagm", "nagmundari",
  "nand", "nandinagari", "narb", "nbat", "newa", "newtailue", "nko", "nkoo", "nshu", "nushu",
  "nyiakengpuachuehmong", "ogam", "ogham", "olchiki", "olck", "oldhungarian", "olditalic",
  "oldnortharabian", "oldpermic", "oldpersian", "oldsogdian", "oldsoutharabian", "oldturkic",
  "olduyghur", "olonal", "onao", "oriya", "orkh", "orya", "osage", "osge", "osma", "osmanya",
  "ougr", "pahawhhmong", "palm", "palmyrene", "pauc", "paucinhau", "perm", "phag", "phagspa",
  "phli", "phlp", "phnx", "phoenician", "plrd", "prti", "psalterpahlavi", "qaac", "qaai",
  "rejang", "rjng", "rohg", "runic", "runr", "samaritan", "samr", "sarb", "saur", "saurashtra",
  "sgnw", "sharada", "shavian", "shaw", "shrd", "sidd", "siddham", "signwriting", "sind",
  "sinh", "sinhala", "sogd", "sogdian", "sogo", "sora", "sorasompeng", "soyo", "soyombo",
  "sund", "sundanese", "sunu", "sunuwar", "sylo", "sylotinagri", "syrc", "syriac", "tagalog",
  "tagb", "tagbanwa", "taile", "taitham", "taiviet", "takr", "takri", "tale", "talu", "tamil",
  "taml", "tang", "tangsa", "tangut", "tavt", "telu", "telugu", "tfng", "tglg", "thaa",
  "thaana", "thai", "tibetan", "tibt", "tifinagh", "tirh", "tirhuta", "tnsa", "todhri", "todr",
  "toto", "tulutigalari", "tutg", "ugar", "ugaritic", "vai", "vaii", "vith", "vithkuqi",
  "wancho", "wara", "warangciti", "wcho", "xpeo", "xsux", "yezi", "yezidi", "yi", "yiii",
  "zanabazarsquare", "zanb", "zinh", "zyyy"]

/-- Versions of Unicode, for the one in which a character was introduced. -/
def ageNames : List String := [
  "1.1", "2.0", "2.1", "3.0", "3.1", "3.2", "4.0", "4.1", "5.0", "5.1", "5.2", "6.0", "6.1",
  "6.2", "6.3", "7.0", "8.0", "9.0", "10.0", "11.0", "12.0", "12.1", "13.0", "14.0", "15.0",
  "15.1", "16.0", "v11", "v20", "v21", "v30", "v31", "v32", "v40", "v41", "v50", "v51", "v52",
  "v60", "v61", "v62", "v63", "v70", "v80", "v90", "v100", "v110", "v120", "v121", "v130",
  "v140", "v150", "v151", "v160"]

/-- Roles of a character at the boundaries of grapheme clusters. -/
def graphemeBreakNames : List String := [
  "cr", "control", "cn", "extend", "ex", "l", "lf", "lv", "lvt", "prepend", "pp",
  "regionalindicator", "ri", "spacingmark", "sm", "t", "v", "zwj"]

/-- Roles of a character at word boundaries. -/
def wordBreakNames : List String := [
  "aletter", "le", "cr", "doublequote", "dq", "extend", "extendnumlet", "ex", "format", "fo",
  "hebrewletter", "hl", "katakana", "ka", "lf", "midletter", "ml", "midnum", "mn", "midnumlet",
  "mb", "newline", "nl", "numeric", "nu", "regionalindicator", "ri", "singlequote", "sq",
  "wsegspace", "zwj"]

/-- Roles of a character at sentence boundaries. -/
def sentenceBreakNames : List String := [
  "aterm", "at", "cr", "close", "cl", "extend", "ex", "format", "fo", "lf", "lower", "lo",
  "numeric", "nu", "oletter", "le", "scontinue", "sc", "sterm", "st", "sep", "se", "sp",
  "upper", "up"]

/-- Drops `is`, in any case, from the start of a name. -/
def dropIs : List Char → List Char
  | a :: b :: rest => if a.toLower = 'i' ∧ b.toLower = 's' then rest else a :: b :: rest
  | name => name

/-- The form in which names are looked up. With `is` before it, `c` is no name of a category. -/
def normalize (name : List Char) : String :=
  let kept := (dropIs name).filter fun c =>
    c.toNat < 0x80 && c != ' ' && c != '_' && c != '-'
  let lowered := String.ofList (kept.map Char.toLower)
  if lowered = "c" ∧ (dropIs name).length < name.length then "isc" else lowered

/-- Whether a name alone selects characters: it names a binary property, a category or a script. -/
def isKnown (name : List Char) : Bool :=
  let name := normalize name
  binaryNames.contains name || categoryNames.contains name || scriptNames.contains name

/-- Whether a property has a value of some name. -/
def hasValue (property value : List Char) : Bool :=
  let value := normalize value
  match normalize property with
  | "gc" | "generalcategory" => categoryNames.contains value
  | "sc" | "script" | "scx" | "scriptextensions" => scriptNames.contains value
  | "age" => ageNames.contains value
  | "gcb" | "graphemeclusterbreak" => graphemeBreakNames.contains value
  | "wb" | "wordbreak" => wordBreakNames.contains value
  | "sb" | "sentencebreak" => sentenceBreakNames.contains value
  | _ => false

end InstallScript.Pattern.Property
