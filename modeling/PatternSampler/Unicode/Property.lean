/-!
# Names of character properties

The names under which the character database files its properties: general categories, scripts,
yes-or-no properties, ages and the classes of text segmentation.  A name is read loosely, without
regard to case, blanks, dashes, underscores and a leading "is".
-/
set_option autoImplicit false

namespace PatternSampler.Unicode

/-! ## The names -/

/-- The general categories that some character has, and the three sets that stand beside them. -/
def categoryNames : List String := [
  "c", "other", "cc", "control", "cntrl", "cf", "format", "cn", "unassigned", "co",
  "privateuse", "l", "letter", "lc", "casedletter", "ll", "lowercaseletter", "lm",
  "modifierletter", "lo", "otherletter", "lt", "titlecaseletter", "lu", "uppercaseletter", "m",
  "mark", "combiningmark", "mc", "spacingmark", "me", "enclosingmark", "mn", "nonspacingmark",
  "n", "number", "nd", "decimalnumber", "digit", "nl", "letternumber", "no", "othernumber", "p",
  "punctuation", "punct", "pc", "connectorpunctuation", "pd", "dashpunctuation", "pe",
  "closepunctuation", "pf", "finalpunctuation", "pi", "initialpunctuation", "po",
  "otherpunctuation", "ps", "openpunctuation", "s", "symbol", "sc", "currencysymbol", "sk",
  "modifiersymbol", "sm", "mathsymbol", "so", "othersymbol", "z", "separator", "zl",
  "lineseparator", "zp", "paragraphseparator", "zs", "spaceseparator", "any", "assigned",
  "ascii"]

/-- The scripts, each by its name and its four-letter code. -/
def scriptNames : List String := [
  "adlam", "adlm", "ahom", "anatolianhieroglyphs", "hluw", "arabic", "arab", "armenian", "armn",
  "avestan", "avst", "balinese", "bali", "bamum", "bamu", "bassavah", "bass", "batak", "batk",
  "bengali", "beng", "bhaiksuki", "bhks", "bopomofo", "bopo", "brahmi", "brah", "braille",
  "brai", "buginese", "bugi", "buhid", "buhd", "canadianaboriginal", "cans", "carian", "cari",
  "caucasianalbanian", "aghb", "chakma", "cakm", "cham", "cherokee", "cher", "chorasmian",
  "chrs", "common", "zyyy", "coptic", "qaac", "copt", "cuneiform", "xsux", "cypriot", "cprt",
  "cyprominoan", "cpmn", "cyrillic", "cyrl", "deseret", "dsrt", "devanagari", "deva",
  "divesakuru", "diak", "dogra", "dogr", "duployan", "dupl", "egyptianhieroglyphs", "egyp",
  "elbasan", "elba", "elymaic", "elym", "ethiopic", "ethi", "garay", "gara", "georgian", "geor",
  "glagolitic", "glag", "gothic", "goth", "grantha", "gran", "greek", "grek", "gujarati",
  "gujr", "gunjalagondi", "gong", "gurmukhi", "guru", "gurungkhema", "gukh", "han", "hani",
  "hangul", "hang", "hanifirohingya", "rohg", "hanunoo", "hano", "hatran", "hatr", "hebrew",
  "hebr", "hiragana", "hira", "imperialaramaic", "armi", "inherited", "qaai", "zinh",
  "inscriptionalpahlavi", "phli", "inscriptionalparthian", "prti", "javanese", "java", "kaithi",
  "kthi", "kannada", "knda", "katakana", "kana", "kawi", "kayahli", "kali", "kharoshthi",
  "khar", "khitansmallscript", "kits", "khmer", "khmr", "khojki", "khoj", "khudawadi", "sind",
  "kiratrai", "krai", "lao", "laoo", "latin", "latn", "lepcha", "lepc", "limbu", "limb",
  "lineara", "lina", "linearb", "linb", "lisu", "lycian", "lyci", "lydian", "lydi", "mahajani",
  "mahj", "makasar", "maka", "malayalam", "mlym", "mandaic", "mand", "manichaean", "mani",
  "marchen", "marc", "masaramgondi", "gonm", "medefaidrin", "medf", "meeteimayek", "mtei",
  "mendekikakui", "mend", "meroiticcursive", "merc", "meroitichieroglyphs", "mero", "miao",
  "plrd", "modi", "mongolian", "mong", "mro", "mroo", "multani", "mult", "myanmar", "mymr",
  "nabataean", "nbat", "nagmundari", "nagm", "nandinagari", "nand", "newa", "newtailue", "talu",
  "nko", "nkoo", "nushu", "nshu", "nyiakengpuachuehmong", "hmnp", "ogham", "ogam", "olchiki",
  "olck", "oldhungarian", "hung", "olditalic", "ital", "oldnortharabian", "narb", "oldpermic",
  "perm", "oldpersian", "xpeo", "oldsogdian", "sogo", "oldsoutharabian", "sarb", "oldturkic",
  "orkh", "olduyghur", "ougr", "olonal", "onao", "oriya", "orya", "osage", "osge", "osmanya",
  "osma", "pahawhhmong", "hmng", "palmyrene", "palm", "paucinhau", "pauc", "phagspa", "phag",
  "phoenician", "phnx", "psalterpahlavi", "phlp", "rejang", "rjng", "runic", "runr",
  "samaritan", "samr", "saurashtra", "saur", "sharada", "shrd", "shavian", "shaw", "siddham",
  "sidd", "signwriting", "sgnw", "sinhala", "sinh", "sogdian", "sogd", "sorasompeng", "sora",
  "soyombo", "soyo", "sundanese", "sund", "sunuwar", "sunu", "sylotinagri", "sylo", "syriac",
  "syrc", "tagalog", "tglg", "tagbanwa", "tagb", "taile", "tale", "taitham", "lana", "taiviet",
  "tavt", "takri", "takr", "tamil", "taml", "tangsa", "tnsa", "tangut", "tang", "telugu",
  "telu", "thaana", "thaa", "thai", "tibetan", "tibt", "tifinagh", "tfng", "tirhuta", "tirh",
  "todhri", "todr", "toto", "tulutigalari", "tutg", "ugaritic", "ugar", "vai", "vaii",
  "vithkuqi", "vith", "wancho", "wcho", "warangciti", "wara", "yezidi", "yezi", "yi", "yiii",
  "zanabazarsquare", "zanb"]

/-- The properties that a character has or lacks. -/
def flagNames : List String := [
  "asciihexdigit", "ahex", "alphabetic", "alpha", "bidicontrol", "bidic", "bidimirrored",
  "bidim", "caseignorable", "ci", "cased", "changeswhencasefolded", "cwcf",
  "changeswhencasemapped", "cwcm", "changeswhenlowercased", "cwl", "changeswhentitlecased",
  "cwt", "changeswhenuppercased", "cwu", "dash", "defaultignorablecodepoint", "di",
  "deprecated", "dep", "diacritic", "dia", "emoji", "emojicomponent", "ecomp", "emojimodifier",
  "emod", "emojimodifierbase", "ebase", "emojipresentation", "epres", "extendedpictographic",
  "extpict", "extender", "ext", "graphemebase", "grbase", "graphemeextend", "grext",
  "graphemelink", "grlink", "hexdigit", "hex", "hyphen", "idsbinaryoperator", "idsb",
  "idstrinaryoperator", "idst", "idsunaryoperator", "idsu", "idcompatmathcontinue",
  "idcompatmathstart", "idcontinue", "idc", "idstart", "ids", "ideographic", "ideo",
  "joincontrol", "joinc", "logicalorderexception", "loe", "lowercase", "lower", "math",
  "modifiercombiningmark", "mcm", "noncharactercodepoint", "nchar", "otheralphabetic", "oalpha",
  "otherdefaultignorablecodepoint", "odi", "othergraphemeextend", "ogrext", "otheridcontinue",
  "oidc", "otheridstart", "oids", "otherlowercase", "olower", "othermath", "omath",
  "otheruppercase", "oupper", "patternsyntax", "patsyn", "patternwhitespace", "patws",
  "prependedconcatenationmark", "pcm", "quotationmark", "qmark", "radical", "regionalindicator",
  "ri", "sentenceterminal", "sterm", "softdotted", "sd", "terminalpunctuation", "term",
  "unifiedideograph", "uideo", "uppercase", "upper", "variationselector", "vs", "whitespace",
  "wspace", "space", "xidcontinue", "xidc", "xidstart", "xids"]

/-- The versions in which characters were added. -/
def ageNames : List String := [
  "1.1", "v11", "2.0", "v20", "2.1", "v21", "3.0", "v30", "3.1", "v31", "3.2", "v32", "4.0",
  "v40", "4.1", "v41", "5.0", "v50", "5.1", "v51", "5.2", "v52", "6.0", "v60", "6.1", "v61",
  "6.2", "v62", "6.3", "v63", "7.0", "v70", "8.0", "v80", "9.0", "v90", "10.0", "v100", "11.0",
  "v110", "12.0", "v120", "12.1", "v121", "13.0", "v130", "14.0", "v140", "15.0", "v150",
  "15.1", "v151", "16.0", "v160"]

/-- The classes by which text falls into user-perceived characters. -/
def clusterNames : List String := [
  "cn", "control", "cr", "ex", "extend", "l", "lf", "lv", "lvt", "pp", "prepend", "ri",
  "regionalindicator", "sm", "spacingmark", "t", "v", "zwj"]

/-- The classes by which text falls into sentences. -/
def sentenceNames : List String := [
  "at", "aterm", "cl", "close", "cr", "ex", "extend", "fo", "format", "le", "oletter", "lf",
  "lo", "lower", "nu", "numeric", "sc", "scontinue", "se", "sep", "sp", "st", "sterm", "up",
  "upper"]

/-- The classes by which text falls into words. -/
def wordNames : List String := [
  "cr", "dq", "doublequote", "ex", "extendnumlet", "extend", "fo", "format", "hl",
  "hebrewletter", "ka", "katakana", "le", "aletter", "lf", "mb", "midnumlet", "ml", "midletter",
  "mn", "midnum", "nl", "newline", "nu", "numeric", "ri", "regionalindicator", "sq",
  "singlequote", "wsegspace", "zwj"]

/-! ## Reading a name -/

/-- What is left of a name when case, blanks, dashes, underscores and all that is not ASCII are
disregarded. -/
def plainName (cs : List Char) : String :=
  let kept := cs.filter fun c => decide (c.toNat < 0x80) && c != ' ' && c != '-' && c != '_'
  String.ofList (kept.map Char.toLower)

/-- The form under which a name is looked up.  A leading "is" says nothing, but for "isc", which is
a name of its own. -/
def looseName : List Char → String
  | i :: s :: cs =>
    if i.toLower = 'i' ∧ s.toLower = 's' ∧ plainName cs ≠ "c" then plainName cs
    else plainName (i :: s :: cs)
  | cs => plainName cs

/-- Whether a name alone stands for a set of characters. -/
def isSetName (name : List Char) : Bool :=
  let name := looseName name
  flagNames.contains name || categoryNames.contains name || scriptNames.contains name

/-- The properties that take a value, each with the values it takes. -/
def valueNames : List (List String × List String) := [
  (["gc", "generalcategory"], categoryNames), (["sc", "script"], scriptNames),
  (["scx", "scriptextensions"], scriptNames), (["age"], ageNames),
  (["gcb", "graphemeclusterbreak"], clusterNames), (["sb", "sentencebreak"], sentenceNames),
  (["wb", "wordbreak"], wordNames)]

/-- Whether a property's name and a value stand for a set of characters. -/
def isSetValue (name value : List Char) : Bool :=
  valueNames.any fun p => p.1.contains (looseName name) && p.2.contains (looseName value)

end PatternSampler.Unicode
