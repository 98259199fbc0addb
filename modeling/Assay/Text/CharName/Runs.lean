import Assay.Text.Split

/-!
# Runs of character names

Neighbouring characters mostly have names that begin alike, so a table of names is a list
of runs: the first character, what all names of the run begin with, and the ends of
the names in order. The table has the characters of ASCII and Latin, Greek and Russian
letters, Japanese syllables, general punctuation, signs of money and decimal digits. A small
letter that is named like its capital is left out.

## Main definitions

* `Text.NameRun` — neighbouring characters whose names begin alike
* `Text.NameRun.find?` — the character of a run that has a name
* `Text.nameRuns` — the table
-/

namespace Assay.Text

/-- What follows the beginning of a name. -/
def nameAfter? (common : String) (name : List Char) : Option (List Char) :=
  if common.toList.isPrefixOf name then some (name.drop common.length) else none

/-- Neighbouring characters whose names begin alike. -/
structure NameRun where
  /-- Code point of the first character. -/
  first : Nat
  /-- What all names of the run begin with. -/
  common : String
  /-- The ends of the names in order, with a comma between two; an empty end leaves a
  character out. -/
  ends : List String

namespace NameRun

/-- The ends of the names, one by one. -/
def endings (r : NameRun) : List (List Char) := r.ends.flatMap fun row => splitOn [','] row.toList

/-- The code point of the character in a run that has a name. -/
def find? (r : NameRun) (name : List Char) : Option Nat :=
  (nameAfter? r.common name).bind fun ending =>
    if ending.isEmpty then none else (r.endings.idxOf? ending).map (r.first + ·)

end NameRun

/-- The ends of the names of ten digits. -/
def digits : List String := ["ZERO,ONE,TWO,THREE,FOUR,FIVE,SIX,SEVEN,EIGHT,NINE"]

/-- The ends of the names of the letters of the Latin alphabet. -/
def latin : List String := ["A,B,C,D,E,F,G,H,I,J,K,L,M,N,O,P,Q,R,S,T,U,V,W,X,Y,Z"]

/-- The runs of names. -/
def nameRuns : List NameRun :=
  [⟨0x0020, "",
    ["SPACE,EXCLAMATION MARK,QUOTATION MARK,NUMBER SIGN,DOLLAR SIGN,PERCENT SIGN,AMPERSAND",
     "APOSTROPHE,LEFT PARENTHESIS,RIGHT PARENTHESIS,ASTERISK,PLUS SIGN,COMMA,HYPHEN-MINUS",
     "FULL STOP,SOLIDUS"]⟩,
   ⟨0x0030, "DIGIT ", digits⟩,
   ⟨0x003A, "",
    ["COLON,SEMICOLON,LESS-THAN SIGN,EQUALS SIGN,GREATER-THAN SIGN,QUESTION MARK",
     "COMMERCIAL AT"]⟩,
   ⟨0x0041, "LATIN CAPITAL LETTER ", latin⟩,
   ⟨0x005B, "",
    ["LEFT SQUARE BRACKET,REVERSE SOLIDUS,RIGHT SQUARE BRACKET,CIRCUMFLEX ACCENT,LOW LINE",
     "GRAVE ACCENT"]⟩,
   ⟨0x007B, "", ["LEFT CURLY BRACKET,VERTICAL LINE,RIGHT CURLY BRACKET,TILDE"]⟩,
   ⟨0x00A0, "",
    ["NO-BREAK SPACE,INVERTED EXCLAMATION MARK,CENT SIGN,POUND SIGN,CURRENCY SIGN,YEN SIGN",
     "BROKEN BAR,SECTION SIGN,DIAERESIS,COPYRIGHT SIGN,FEMININE ORDINAL INDICATOR",
     "LEFT-POINTING DOUBLE ANGLE QUOTATION MARK,NOT SIGN,SOFT HYPHEN,REGISTERED SIGN",
     "MACRON,DEGREE SIGN,PLUS-MINUS SIGN,SUPERSCRIPT TWO,SUPERSCRIPT THREE,ACUTE ACCENT",
     "MICRO SIGN,PILCROW SIGN,MIDDLE DOT,CEDILLA,SUPERSCRIPT ONE",
     "MASCULINE ORDINAL INDICATOR,RIGHT-POINTING DOUBLE ANGLE QUOTATION MARK",
     "VULGAR FRACTION ONE QUARTER,VULGAR FRACTION ONE HALF,VULGAR FRACTION THREE QUARTERS",
     "INVERTED QUESTION MARK"]⟩,
   ⟨0x00C0, "LATIN CAPITAL LETTER ",
    ["A WITH GRAVE,A WITH ACUTE,A WITH CIRCUMFLEX,A WITH TILDE,A WITH DIAERESIS",
     "A WITH RING ABOVE,AE,C WITH CEDILLA,E WITH GRAVE,E WITH ACUTE,E WITH CIRCUMFLEX",
     "E WITH DIAERESIS,I WITH GRAVE,I WITH ACUTE,I WITH CIRCUMFLEX,I WITH DIAERESIS,ETH",
     "N WITH TILDE,O WITH GRAVE,O WITH ACUTE,O WITH CIRCUMFLEX,O WITH TILDE",
     "O WITH DIAERESIS"]⟩,
   ⟨0x00D7, "MULTIPLICATION ", ["SIGN"]⟩,
   ⟨0x00D8, "LATIN CAPITAL LETTER ",
    ["O WITH STROKE,U WITH GRAVE,U WITH ACUTE,U WITH CIRCUMFLEX,U WITH DIAERESIS",
     "Y WITH ACUTE,THORN"]⟩,
   ⟨0x00DF, "LATIN SMALL LETTER SHARP ", ["S"]⟩, ⟨0x00F7, "DIVISION ", ["SIGN"]⟩,
   ⟨0x0100, "LATIN CAPITAL LETTER ",
    ["A WITH MACRON,,A WITH BREVE,,A WITH OGONEK,,C WITH ACUTE,,C WITH CIRCUMFLEX,",
     "C WITH DOT ABOVE,,C WITH CARON,,D WITH CARON,,D WITH STROKE,,E WITH MACRON,",
     "E WITH BREVE,,E WITH DOT ABOVE,,E WITH OGONEK,,E WITH CARON,,G WITH CIRCUMFLEX,",
     "G WITH BREVE,,G WITH DOT ABOVE,,G WITH CEDILLA,,H WITH CIRCUMFLEX,,H WITH STROKE,",
     "I WITH TILDE,,I WITH MACRON,,I WITH BREVE,,I WITH OGONEK,,I WITH DOT ABOVE"]⟩,
   ⟨0x0131, "LATIN ",
    ["SMALL LETTER DOTLESS I,CAPITAL LIGATURE IJ,,CAPITAL LETTER J WITH CIRCUMFLEX,",
     "CAPITAL LETTER K WITH CEDILLA,,SMALL LETTER KRA"]⟩,
   ⟨0x0139, "LATIN CAPITAL LETTER L WITH ", ["ACUTE,,CEDILLA,,CARON,,MIDDLE DOT,,STROKE"]⟩,
   ⟨0x0143, "LATIN CAPITAL LETTER N WITH ", ["ACUTE,,CEDILLA,,CARON"]⟩,
   ⟨0x0149, "LATIN SMALL LETTER N PRECEDED BY ", ["APOSTROPHE"]⟩,
   ⟨0x014A, "LATIN CAPITAL ",
    ["LETTER ENG,,LETTER O WITH MACRON,,LETTER O WITH BREVE,,LETTER O WITH DOUBLE ACUTE,",
     "LIGATURE OE"]⟩,
   ⟨0x0154, "LATIN CAPITAL LETTER ",
    ["R WITH ACUTE,,R WITH CEDILLA,,R WITH CARON,,S WITH ACUTE,,S WITH CIRCUMFLEX,",
     "S WITH CEDILLA,,S WITH CARON,,T WITH CEDILLA,,T WITH CARON,,T WITH STROKE,",
     "U WITH TILDE,,U WITH MACRON,,U WITH BREVE,,U WITH RING ABOVE,,U WITH DOUBLE ACUTE,",
     "U WITH OGONEK,,W WITH CIRCUMFLEX,,Y WITH CIRCUMFLEX,,Y WITH DIAERESIS,Z WITH ACUTE,",
     "Z WITH DOT ABOVE,,Z WITH CARON"]⟩,
   ⟨0x017F, "LATIN SMALL LETTER LONG ", ["S"]⟩,
   ⟨0x0181, "LATIN CAPITAL LETTER ",
    ["B WITH HOOK,B WITH TOPBAR,,TONE SIX,,OPEN O,C WITH HOOK,,AFRICAN D,D WITH HOOK",
     "D WITH TOPBAR"]⟩,
   ⟨0x018D, "LATIN SMALL LETTER TURNED ", ["DELTA"]⟩,
   ⟨0x018E, "LATIN CAPITAL LETTER ", ["REVERSED E,SCHWA,OPEN E,F WITH HOOK,,G WITH HOOK,GAMMA"]⟩,
   ⟨0x0195, "LATIN ",
    ["SMALL LETTER HV,CAPITAL LETTER IOTA,CAPITAL LETTER I WITH STROKE",
     "CAPITAL LETTER K WITH HOOK,,,SMALL LETTER LAMBDA WITH STROKE"]⟩,
   ⟨0x019C, "LATIN CAPITAL LETTER ",
    ["TURNED M,N WITH LEFT HOOK,,O WITH MIDDLE TILDE,O WITH HORN,,OI,,P WITH HOOK"]⟩,
   ⟨0x01A6, "LATIN ",
    ["LETTER YR,CAPITAL LETTER TONE TWO,,CAPITAL LETTER ESH,LETTER REVERSED ESH LOOP",
     "SMALL LETTER T WITH PALATAL HOOK"]⟩,
   ⟨0x01AC, "LATIN CAPITAL LETTER ",
    ["T WITH HOOK,,T WITH RETROFLEX HOOK,U WITH HORN,,UPSILON,V WITH HOOK,Y WITH HOOK,",
     "Z WITH STROKE,,EZH,EZH REVERSED"]⟩,
   ⟨0x01BA, "LATIN ",
    ["SMALL LETTER EZH WITH TAIL,LETTER TWO WITH STROKE,CAPITAL LETTER TONE FIVE"]⟩,
   ⟨0x01BE, "LATIN LETTER ",
    ["INVERTED GLOTTAL STOP WITH STROKE,WYNN,DENTAL CLICK,LATERAL CLICK,ALVEOLAR CLICK",
     "RETROFLEX CLICK"]⟩,
   ⟨0x01C4, "LATIN CAPITAL LETTER ",
    ["DZ WITH CARON,D WITH SMALL LETTER Z WITH CARON,,LJ,L WITH SMALL LETTER J,,NJ",
     "N WITH SMALL LETTER J,,A WITH CARON,,I WITH CARON,,O WITH CARON,,U WITH CARON"]⟩,
   ⟨0x01D5, "LATIN CAPITAL LETTER U WITH DIAERESIS AND ", ["MACRON,,ACUTE,,CARON,,GRAVE"]⟩,
   ⟨0x01DD, "LATIN SMALL LETTER TURNED ", ["E"]⟩,
   ⟨0x01DE, "LATIN CAPITAL LETTER ",
    ["A WITH DIAERESIS AND MACRON,,A WITH DOT ABOVE AND MACRON,,AE WITH MACRON,",
     "G WITH STROKE,,G WITH CARON,,K WITH CARON,,O WITH OGONEK,,O WITH OGONEK AND MACRON,",
     "EZH WITH CARON"]⟩,
   ⟨0x01F0, "LATIN SMALL LETTER J WITH ", ["CARON"]⟩,
   ⟨0x01F1, "LATIN CAPITAL LETTER ",
    ["DZ,D WITH SMALL LETTER Z,,G WITH ACUTE,,HWAIR,WYNN,N WITH GRAVE,",
     "A WITH RING ABOVE AND ACUTE,,AE WITH ACUTE,,O WITH STROKE AND ACUTE,",
     "A WITH DOUBLE GRAVE,,A WITH INVERTED BREVE,,E WITH DOUBLE GRAVE,",
     "E WITH INVERTED BREVE,,I WITH DOUBLE GRAVE,,I WITH INVERTED BREVE,",
     "O WITH DOUBLE GRAVE,,O WITH INVERTED BREVE,,R WITH DOUBLE GRAVE,",
     "R WITH INVERTED BREVE,,U WITH DOUBLE GRAVE,,U WITH INVERTED BREVE,",
     "S WITH COMMA BELOW,,T WITH COMMA BELOW,,YOGH,,H WITH CARON,,N WITH LONG RIGHT LEG"]⟩,
   ⟨0x0221, "LATIN SMALL LETTER D WITH ", ["CURL"]⟩,
   ⟨0x0222, "LATIN CAPITAL LETTER ",
    ["OU,,Z WITH HOOK,,A WITH DOT ABOVE,,E WITH CEDILLA,,O WITH DIAERESIS AND MACRON,",
     "O WITH TILDE AND MACRON,,O WITH DOT ABOVE,,O WITH DOT ABOVE AND MACRON,",
     "Y WITH MACRON"]⟩,
   ⟨0x0234, "LATIN SMALL LETTER ",
    ["L WITH CURL,N WITH CURL,T WITH CURL,DOTLESS J,DB DIGRAPH,QP DIGRAPH"]⟩,
   ⟨0x023A, "LATIN CAPITAL LETTER ",
    ["A WITH STROKE,C WITH STROKE,,L WITH BAR,T WITH DIAGONAL STROKE"]⟩,
   ⟨0x023F, "LATIN SMALL LETTER ", ["S WITH SWASH TAIL,Z WITH SWASH TAIL"]⟩,
   ⟨0x0241, "LATIN CAPITAL LETTER ",
    ["GLOTTAL STOP,,B WITH STROKE,U BAR,TURNED V,E WITH STROKE,,J WITH STROKE,",
     "SMALL Q WITH HOOK TAIL"]⟩,
   ⟨0x024B, "LATIN ",
    ["SMALL LETTER Q WITH HOOK TAIL,CAPITAL LETTER R WITH STROKE,",
     "CAPITAL LETTER Y WITH STROKE"]⟩,
   ⟨0x0370, "GREEK ",
    ["CAPITAL LETTER HETA,,CAPITAL LETTER ARCHAIC SAMPI,,NUMERAL SIGN,LOWER NUMERAL SIGN",
     "CAPITAL LETTER PAMPHYLIAN DIGAMMA,,,,YPOGEGRAMMENI,,,,QUESTION MARK",
     "CAPITAL LETTER YOT,,,,,TONOS,DIALYTIKA TONOS,CAPITAL LETTER ALPHA WITH TONOS",
     "ANO TELEIA"]⟩,
   ⟨0x0388, "GREEK CAPITAL LETTER ",
    ["EPSILON WITH TONOS,ETA WITH TONOS,IOTA WITH TONOS,,OMICRON WITH TONOS,",
     "UPSILON WITH TONOS,OMEGA WITH TONOS"]⟩,
   ⟨0x0390, "GREEK SMALL LETTER IOTA WITH DIALYTIKA AND ", ["TONOS"]⟩,
   ⟨0x0391, "GREEK CAPITAL LETTER ",
    ["ALPHA,BETA,GAMMA,DELTA,EPSILON,ZETA,ETA,THETA,IOTA,KAPPA,LAMDA,MU,NU,XI,OMICRON,PI",
     "RHO,,SIGMA,TAU,UPSILON,PHI,CHI,PSI,OMEGA,IOTA WITH DIALYTIKA,UPSILON WITH DIALYTIKA"]⟩,
   ⟨0x03B0, "GREEK SMALL LETTER ",
    ["UPSILON WITH DIALYTIKA AND TONOS,,,,,,,,,,,,,,,,,,FINAL SIGMA"]⟩,
   ⟨0x03CF, "GREEK ",
    ["CAPITAL KAI SYMBOL,BETA SYMBOL,THETA SYMBOL,UPSILON WITH HOOK SYMBOL",
     "UPSILON WITH ACUTE AND HOOK SYMBOL,UPSILON WITH DIAERESIS AND HOOK SYMBOL,PHI SYMBOL",
     "PI SYMBOL,KAI SYMBOL,LETTER ARCHAIC KOPPA,SMALL LETTER ARCHAIC KOPPA,LETTER STIGMA",
     "SMALL LETTER STIGMA,LETTER DIGAMMA,SMALL LETTER DIGAMMA,LETTER KOPPA",
     "SMALL LETTER KOPPA,LETTER SAMPI,SMALL LETTER SAMPI"]⟩,
   ⟨0x03E2, "COPTIC CAPITAL LETTER ", ["SHEI,,FEI,,KHEI,,HORI,,GANGIA,,SHIMA,,DEI"]⟩,
   ⟨0x03F0, "GREEK ",
    ["KAPPA SYMBOL,RHO SYMBOL,LUNATE SIGMA SYMBOL,LETTER YOT,CAPITAL THETA SYMBOL",
     "LUNATE EPSILON SYMBOL,REVERSED LUNATE EPSILON SYMBOL,CAPITAL LETTER SHO,",
     "CAPITAL LUNATE SIGMA SYMBOL,CAPITAL LETTER SAN,,RHO WITH STROKE SYMBOL",
     "CAPITAL REVERSED LUNATE SIGMA SYMBOL,CAPITAL DOTTED LUNATE SIGMA SYMBOL",
     "CAPITAL REVERSED DOTTED LUNATE SIGMA SYMBOL"]⟩,
   ⟨0x0400, "CYRILLIC CAPITAL LETTER ",
    ["IE WITH GRAVE,IO,DJE,GJE,UKRAINIAN IE,DZE,BYELORUSSIAN-UKRAINIAN I,YI,JE,LJE,NJE",
     "TSHE,KJE,I WITH GRAVE,SHORT U,DZHE,A,BE,VE,GHE,DE,IE,ZHE,ZE,I,SHORT I,KA,EL,EM,EN,O",
     "PE,ER,ES,TE,U,EF,HA,TSE,CHE,SHA,SHCHA,HARD SIGN,YERU,SOFT SIGN,E,YU,YA"]⟩,
   ⟨0x2000, "",
    ["EN QUAD,EM QUAD,EN SPACE,EM SPACE,THREE-PER-EM SPACE,FOUR-PER-EM SPACE",
     "SIX-PER-EM SPACE,FIGURE SPACE,PUNCTUATION SPACE,THIN SPACE,HAIR SPACE",
     "ZERO WIDTH SPACE,ZERO WIDTH NON-JOINER,ZERO WIDTH JOINER,LEFT-TO-RIGHT MARK",
     "RIGHT-TO-LEFT MARK,HYPHEN,NON-BREAKING HYPHEN,FIGURE DASH,EN DASH,EM DASH",
     "HORIZONTAL BAR,DOUBLE VERTICAL LINE,DOUBLE LOW LINE,LEFT SINGLE QUOTATION MARK",
     "RIGHT SINGLE QUOTATION MARK,SINGLE LOW-9 QUOTATION MARK",
     "SINGLE HIGH-REVERSED-9 QUOTATION MARK,LEFT DOUBLE QUOTATION MARK",
     "RIGHT DOUBLE QUOTATION MARK,DOUBLE LOW-9 QUOTATION MARK",
     "DOUBLE HIGH-REVERSED-9 QUOTATION MARK,DAGGER,DOUBLE DAGGER,BULLET,TRIANGULAR BULLET",
     "ONE DOT LEADER,TWO DOT LEADER,HORIZONTAL ELLIPSIS,HYPHENATION POINT,LINE SEPARATOR",
     "PARAGRAPH SEPARATOR,LEFT-TO-RIGHT EMBEDDING,RIGHT-TO-LEFT EMBEDDING",
     "POP DIRECTIONAL FORMATTING,LEFT-TO-RIGHT OVERRIDE,RIGHT-TO-LEFT OVERRIDE",
     "NARROW NO-BREAK SPACE,PER MILLE SIGN,PER TEN THOUSAND SIGN,PRIME,DOUBLE PRIME",
     "TRIPLE PRIME,REVERSED PRIME,REVERSED DOUBLE PRIME,REVERSED TRIPLE PRIME,CARET",
     "SINGLE LEFT-POINTING ANGLE QUOTATION MARK,SINGLE RIGHT-POINTING ANGLE QUOTATION MARK",
     "REFERENCE MARK,DOUBLE EXCLAMATION MARK,INTERROBANG,OVERLINE,UNDERTIE,CHARACTER TIE",
     "CARET INSERTION POINT,ASTERISM,HYPHEN BULLET,FRACTION SLASH",
     "LEFT SQUARE BRACKET WITH QUILL,RIGHT SQUARE BRACKET WITH QUILL,DOUBLE QUESTION MARK",
     "QUESTION EXCLAMATION MARK,EXCLAMATION QUESTION MARK,TIRONIAN SIGN ET",
     "REVERSED PILCROW SIGN,BLACK LEFTWARDS BULLET,BLACK RIGHTWARDS BULLET,LOW ASTERISK",
     "REVERSED SEMICOLON,CLOSE UP,TWO ASTERISKS ALIGNED VERTICALLY,COMMERCIAL MINUS SIGN",
     "SWUNG DASH,INVERTED UNDERTIE,FLOWER PUNCTUATION MARK,THREE DOT PUNCTUATION",
     "QUADRUPLE PRIME,FOUR DOT PUNCTUATION,FIVE DOT PUNCTUATION,TWO DOT PUNCTUATION",
     "FOUR DOT MARK,DOTTED CROSS,TRICOLON,VERTICAL FOUR DOTS,MEDIUM MATHEMATICAL SPACE",
     "WORD JOINER,FUNCTION APPLICATION,INVISIBLE TIMES,INVISIBLE SEPARATOR,INVISIBLE PLUS,",
     "LEFT-TO-RIGHT ISOLATE,RIGHT-TO-LEFT ISOLATE,FIRST STRONG ISOLATE",
     "POP DIRECTIONAL ISOLATE,INHIBIT SYMMETRIC SWAPPING,ACTIVATE SYMMETRIC SWAPPING",
     "INHIBIT ARABIC FORM SHAPING,ACTIVATE ARABIC FORM SHAPING,NATIONAL DIGIT SHAPES",
     "NOMINAL DIGIT SHAPES"]⟩,
   ⟨0x20A0, "",
    ["EURO-CURRENCY SIGN,COLON SIGN,CRUZEIRO SIGN,FRENCH FRANC SIGN,LIRA SIGN,MILL SIGN",
     "NAIRA SIGN,PESETA SIGN,RUPEE SIGN,WON SIGN,NEW SHEQEL SIGN,DONG SIGN,EURO SIGN",
     "KIP SIGN,TUGRIK SIGN,DRACHMA SIGN,GERMAN PENNY SIGN,PESO SIGN,GUARANI SIGN",
     "AUSTRAL SIGN,HRYVNIA SIGN,CEDI SIGN,LIVRE TOURNOIS SIGN,SPESMILO SIGN,TENGE SIGN",
     "INDIAN RUPEE SIGN,TURKISH LIRA SIGN,NORDIC MARK SIGN,MANAT SIGN,RUBLE SIGN,LARI SIGN",
     "BITCOIN SIGN,SOM SIGN"]⟩,
   ⟨0x3041, "HIRAGANA LETTER ",
    ["SMALL A,A,SMALL I,I,SMALL U,U,SMALL E,E,SMALL O,O,KA,GA,KI,GI,KU,GU,KE,GE,KO,GO,SA",
     "ZA,SI,ZI,SU,ZU,SE,ZE,SO,ZO,TA,DA,TI,DI,SMALL TU,TU,DU,TE,DE,TO,DO,NA,NI,NU,NE,NO,HA",
     "BA,PA,HI,BI,PI,HU,BU,PU,HE,BE,PE,HO,BO,PO,MA,MI,MU,ME,MO,SMALL YA,YA,SMALL YU,YU",
     "SMALL YO,YO,RA,RI,RU,RE,RO,SMALL WA,WA,WI,WE,WO,N,VU,SMALL KA,SMALL KE"]⟩,
   ⟨0x3099, "COMBINING KATAKANA-HIRAGANA ", ["VOICED SOUND MARK,SEMI-VOICED SOUND MARK"]⟩,
   ⟨0x309B, "",
    ["KATAKANA-HIRAGANA VOICED SOUND MARK,KATAKANA-HIRAGANA SEMI-VOICED SOUND MARK",
     "HIRAGANA ITERATION MARK,HIRAGANA VOICED ITERATION MARK,HIRAGANA DIGRAPH YORI",
     "KATAKANA-HIRAGANA DOUBLE HYPHEN"]⟩,
   ⟨0x30A1, "KATAKANA LETTER ",
    ["SMALL A,A,SMALL I,I,SMALL U,U,SMALL E,E,SMALL O,O,KA,GA,KI,GI,KU,GU,KE,GE,KO,GO,SA",
     "ZA,SI,ZI,SU,ZU,SE,ZE,SO,ZO,TA,DA,TI,DI,SMALL TU,TU,DU,TE,DE,TO,DO,NA,NI,NU,NE,NO,HA",
     "BA,PA,HI,BI,PI,HU,BU,PU,HE,BE,PE,HO,BO,PO,MA,MI,MU,ME,MO,SMALL YA,YA,SMALL YU,YU",
     "SMALL YO,YO,RA,RI,RU,RE,RO,SMALL WA,WA,WI,WE,WO,N,VU,SMALL KA,SMALL KE,VA,VI,VE,VO"]⟩,
   ⟨0x30FB, "",
    ["KATAKANA MIDDLE DOT,KATAKANA-HIRAGANA PROLONGED SOUND MARK,KATAKANA ITERATION MARK",
     "KATAKANA VOICED ITERATION MARK,KATAKANA DIGRAPH KOTO"]⟩,
   ⟨0x0660, "ARABIC-INDIC DIGIT ", digits⟩, ⟨0x06F0, "EXTENDED ARABIC-INDIC DIGIT ", digits⟩,
   ⟨0x07C0, "NKO DIGIT ", digits⟩, ⟨0x0966, "DEVANAGARI DIGIT ", digits⟩,
   ⟨0x09E6, "BENGALI DIGIT ", digits⟩, ⟨0x0A66, "GURMUKHI DIGIT ", digits⟩,
   ⟨0x0AE6, "GUJARATI DIGIT ", digits⟩, ⟨0x0B66, "ORIYA DIGIT ", digits⟩,
   ⟨0x0BE6, "TAMIL DIGIT ", digits⟩, ⟨0x0C66, "TELUGU DIGIT ", digits⟩,
   ⟨0x0CE6, "KANNADA DIGIT ", digits⟩, ⟨0x0D66, "MALAYALAM DIGIT ", digits⟩,
   ⟨0x0DE6, "SINHALA LITH DIGIT ", digits⟩, ⟨0x0E50, "THAI DIGIT ", digits⟩,
   ⟨0x0ED0, "LAO DIGIT ", digits⟩, ⟨0x0F20, "TIBETAN DIGIT ", digits⟩,
   ⟨0x1040, "MYANMAR DIGIT ", digits⟩, ⟨0x1090, "MYANMAR SHAN DIGIT ", digits⟩,
   ⟨0x17E0, "KHMER DIGIT ", digits⟩, ⟨0x1810, "MONGOLIAN DIGIT ", digits⟩,
   ⟨0x1946, "LIMBU DIGIT ", digits⟩, ⟨0x19D0, "NEW TAI LUE DIGIT ", digits⟩,
   ⟨0x1A80, "TAI THAM HORA DIGIT ", digits⟩, ⟨0x1A90, "TAI THAM THAM DIGIT ", digits⟩,
   ⟨0x1B50, "BALINESE DIGIT ", digits⟩, ⟨0x1BB0, "SUNDANESE DIGIT ", digits⟩,
   ⟨0x1C40, "LEPCHA DIGIT ", digits⟩, ⟨0x1C50, "OL CHIKI DIGIT ", digits⟩,
   ⟨0xA620, "VAI DIGIT ", digits⟩, ⟨0xA8D0, "SAURASHTRA DIGIT ", digits⟩,
   ⟨0xA8E0, "COMBINING DEVANAGARI DIGIT ", digits⟩, ⟨0xA900, "KAYAH LI DIGIT ", digits⟩,
   ⟨0xA9D0, "JAVANESE DIGIT ", digits⟩, ⟨0xA9F0, "MYANMAR TAI LAING DIGIT ", digits⟩,
   ⟨0xAA50, "CHAM DIGIT ", digits⟩, ⟨0xABF0, "MEETEI MAYEK DIGIT ", digits⟩,
   ⟨0xFF10, "FULLWIDTH DIGIT ", digits⟩]

end Assay.Text
