import Assay.Text.Joining

/-!
# Letter case

The lower-case form of a single character and the capital of a lower-case letter, in all
scripts. A form that takes several characters is given by the first of them there; the
forms of texts keep all.

## Main definitions

* `Text.toLower`, `Text.capital` — the lower-case form, and the capital of that
* `Text.caseVariants` — the characters that differ from one only in case
* `Text.lowered`, `Text.raised` — the lower-case form of a text, and a text in capitals
-/

namespace Assay.Text

/-- Runs of cased characters above `U+007F`: first and last code point, distance
between members, and offset of the lower-case form. -/
def lowerRuns : List (Nat × Nat × Nat × Int) :=
  [(192, 214, 1, 32), (216, 222, 1, 32), (256, 302, 2, 1), (304, 304, 1, -199),
   (306, 310, 2, 1), (313, 327, 2, 1), (330, 374, 2, 1), (376, 376, 1, -121), (377, 381, 2, 1),
   (385, 385, 1, 210), (386, 388, 2, 1), (390, 390, 1, 206), (391, 391, 1, 1),
   (393, 394, 1, 205), (395, 395, 1, 1), (398, 398, 1, 79), (399, 399, 1, 202),
   (400, 400, 1, 203), (401, 401, 1, 1), (403, 403, 1, 205), (404, 404, 1, 207),
   (406, 406, 1, 211), (407, 407, 1, 209), (408, 408, 1, 1), (412, 412, 1, 211),
   (413, 413, 1, 213), (415, 415, 1, 214), (416, 420, 2, 1), (422, 422, 1, 218),
   (423, 423, 1, 1), (425, 425, 1, 218), (428, 428, 1, 1), (430, 430, 1, 218),
   (431, 431, 1, 1), (433, 434, 1, 217), (435, 437, 2, 1), (439, 439, 1, 219),
   (440, 440, 1, 1), (444, 444, 1, 1), (452, 452, 1, 2), (453, 453, 1, 1), (455, 455, 1, 2),
   (456, 456, 1, 1), (458, 458, 1, 2), (459, 475, 2, 1), (478, 494, 2, 1), (497, 497, 1, 2),
   (498, 500, 2, 1), (502, 502, 1, -97), (503, 503, 1, -56), (504, 542, 2, 1),
   (544, 544, 1, -130), (546, 562, 2, 1), (570, 570, 1, 10795), (571, 571, 1, 1),
   (573, 573, 1, -163), (574, 574, 1, 10792), (577, 577, 1, 1), (579, 579, 1, -195),
   (580, 580, 1, 69), (581, 581, 1, 71), (582, 590, 2, 1), (880, 882, 2, 1), (886, 886, 1, 1),
   (895, 895, 1, 116), (902, 902, 1, 38), (904, 906, 1, 37), (908, 908, 1, 64),
   (910, 911, 1, 63), (913, 929, 1, 32), (931, 939, 1, 32), (975, 975, 1, 8),
   (984, 1006, 2, 1), (1012, 1012, 1, -60), (1015, 1015, 1, 1), (1017, 1017, 1, -7),
   (1018, 1018, 1, 1), (1021, 1023, 1, -130), (1024, 1039, 1, 80), (1040, 1071, 1, 32),
   (1120, 1152, 2, 1), (1162, 1214, 2, 1), (1216, 1216, 1, 15), (1217, 1229, 2, 1),
   (1232, 1326, 2, 1), (1329, 1366, 1, 48), (4256, 4293, 1, 7264), (4295, 4295, 1, 7264),
   (4301, 4301, 1, 7264), (5024, 5103, 1, 38864), (5104, 5109, 1, 8), (7312, 7354, 1, -3008),
   (7357, 7359, 1, -3008), (7680, 7828, 2, 1), (7838, 7838, 1, -7615), (7840, 7934, 2, 1),
   (7944, 7951, 1, -8), (7960, 7965, 1, -8), (7976, 7983, 1, -8), (7992, 7999, 1, -8),
   (8008, 8013, 1, -8), (8025, 8031, 2, -8), (8040, 8047, 1, -8), (8072, 8079, 1, -8),
   (8088, 8095, 1, -8), (8104, 8111, 1, -8), (8120, 8121, 1, -8), (8122, 8123, 1, -74),
   (8124, 8124, 1, -9), (8136, 8139, 1, -86), (8140, 8140, 1, -9), (8152, 8153, 1, -8),
   (8154, 8155, 1, -100), (8168, 8169, 1, -8), (8170, 8171, 1, -112), (8172, 8172, 1, -7),
   (8184, 8185, 1, -128), (8186, 8187, 1, -126), (8188, 8188, 1, -9), (8486, 8486, 1, -7517),
   (8490, 8490, 1, -8383), (8491, 8491, 1, -8262), (8498, 8498, 1, 28), (8544, 8559, 1, 16),
   (8579, 8579, 1, 1), (9398, 9423, 1, 26), (11264, 11311, 1, 48), (11360, 11360, 1, 1),
   (11362, 11362, 1, -10743), (11363, 11363, 1, -3814), (11364, 11364, 1, -10727),
   (11367, 11371, 2, 1), (11373, 11373, 1, -10780), (11374, 11374, 1, -10749),
   (11375, 11375, 1, -10783), (11376, 11376, 1, -10782), (11378, 11378, 1, 1),
   (11381, 11381, 1, 1), (11390, 11391, 1, -10815), (11392, 11490, 2, 1), (11499, 11501, 2, 1),
   (11506, 11506, 1, 1), (42560, 42604, 2, 1), (42624, 42650, 2, 1), (42786, 42798, 2, 1),
   (42802, 42862, 2, 1), (42873, 42875, 2, 1), (42877, 42877, 1, -35332), (42878, 42886, 2, 1),
   (42891, 42891, 1, 1), (42893, 42893, 1, -42280), (42896, 42898, 2, 1), (42902, 42920, 2, 1),
   (42922, 42922, 1, -42308), (42923, 42923, 1, -42319), (42924, 42924, 1, -42315),
   (42925, 42925, 1, -42305), (42926, 42926, 1, -42308), (42928, 42928, 1, -42258),
   (42929, 42929, 1, -42282), (42930, 42930, 1, -42261), (42931, 42931, 1, 928),
   (42932, 42946, 2, 1), (42948, 42948, 1, -48), (42949, 42949, 1, -42307),
   (42950, 42950, 1, -35384), (42951, 42953, 2, 1), (42960, 42960, 1, 1), (42966, 42968, 2, 1),
   (42997, 42997, 1, 1), (65313, 65338, 1, 32), (66560, 66599, 1, 40), (66736, 66771, 1, 40),
   (66928, 66938, 1, 39), (66940, 66954, 1, 39), (66956, 66962, 1, 39), (66964, 66965, 1, 39),
   (68736, 68786, 1, 64), (71840, 71871, 1, 32), (93760, 93791, 1, 32),
   (125184, 125217, 1, 34)]

/-- The lower-case form of a character, or the character itself. -/
def toLower (c : Char) : Char :=
  if c.toNat < 128 then c.toLower
  else
    match lowerRuns.find? fun (a, b, step, _) =>
        a ≤ c.toNat && c.toNat ≤ b && (c.toNat - a) % step == 0 with
    | some (_, _, _, offset) => Char.ofNat (c.toNat + offset).toNat
    | none => c

/-- Lower-case letters above `U+007F` with a common upper-case form, and the ASCII letters
that share theirs with such a letter. -/
def sharedUpper : List (List Nat) :=
  [[105, 305], [115, 383], [181, 956], [837, 953, 8126], [912, 8147], [944, 8163], [946, 976],
   [949, 1013], [952, 977], [954, 1008], [960, 982], [961, 1009], [962, 963], [966, 981],
   [1074, 7296], [1076, 7297], [1086, 7298], [1089, 7299], [1090, 7300, 7301], [1098, 7302],
   [1123, 7303], [7304, 42571], [7777, 7835], [64261, 64262]]

/-- The lower-case letters that have the same upper-case form as a lower-case letter. -/
def lowerVariants (n : Nat) : List Nat := (sharedUpper.find? (·.contains n)).getD [n]

/-- The capital letters of a run whose lower-case form is a given letter. -/
def capitalIn (n : Nat) : Nat × Nat × Nat × Int → List Nat
  | (a, b, step, offset) =>
    let m := ((n : Int) - offset).toNat
    if a ≤ m ∧ m ≤ b ∧ (m - a) % step = 0 ∧ (m : Int) + offset = n then [m] else []

/-- Letters above `U+007F` of which the capital is the capital of another one: first and last
code point, and offset of the capital. -/
def raisedRuns : List (Nat × Nat × Int) :=
  [(181, 181, 743), (223, 223, -140), (305, 305, -232), (329, 329, 371), (383, 383, -300),
   (453, 453, -1), (456, 456, -1), (459, 459, -1), (496, 496, -422), (498, 498, -1),
   (837, 837, 84), (912, 912, 9), (944, 944, -11), (962, 962, -31), (976, 976, -62),
   (977, 977, -57), (981, 981, -47), (982, 982, -54), (1008, 1008, -86), (1009, 1009, -80),
   (1013, 1013, -96), (1415, 1415, -82), (7296, 7296, -6254), (7297, 7297, -6253),
   (7298, 7298, -6244), (7299, 7300, -6242), (7301, 7301, -6243), (7302, 7302, -6236),
   (7303, 7303, -6181), (7304, 7304, 35266), (7830, 7830, -7758), (7831, 7831, -7747),
   (7832, 7832, -7745), (7833, 7833, -7744), (7834, 7834, -7769), (7835, 7835, -59),
   (8016, 8016, -7083), (8018, 8018, -7085), (8020, 8020, -7087), (8022, 8022, -7089),
   (8064, 8071, -120), (8072, 8079, -128), (8080, 8087, -104), (8088, 8095, -112),
   (8096, 8103, -56), (8104, 8111, -64), (8114, 8114, 8), (8115, 8115, -7202), (8116, 8116, -7214),
   (8118, 8118, -7205), (8119, 8119, -7206), (8124, 8124, -7211), (8126, 8126, -7205),
   (8130, 8130, 8), (8131, 8131, -7212), (8132, 8132, -7227), (8134, 8134, -7215),
   (8135, 8135, -7216), (8140, 8140, -7221), (8146, 8146, -7225), (8147, 8147, -7226),
   (8150, 8150, -7229), (8151, 8151, -7230), (8162, 8162, -7229), (8163, 8163, -7230),
   (8164, 8164, -7235), (8166, 8166, -7233), (8167, 8167, -7234), (8178, 8178, 8),
   (8179, 8179, -7242), (8180, 8180, -7269), (8182, 8182, -7245), (8183, 8183, -7246),
   (8188, 8188, -7251), (64256, 64256, -64186), (64257, 64257, -64187), (64258, 64258, -64188),
   (64259, 64259, -64189), (64260, 64260, -64190), (64261, 64261, -64178), (64262, 64262, -64179),
   (64275, 64275, -62927), (64276, 64276, -62928), (64277, 64277, -62929), (64278, 64278, -62920),
   (64279, 64279, -62931)]

/-- The capital of a letter, or the character itself. -/
def capital (c : Char) : Char :=
  let n := c.toNat
  if n < 128 then c.toUpper
  else
    match raisedRuns.find? fun (a, b, _) => a ≤ n && n ≤ b with
    | some (_, _, offset) => Char.ofNat (n + offset).toNat
    | none => ((lowerRuns.findSome? fun run => (capitalIn n run).head?).map Char.ofNat).getD c

/-- The letters beyond ASCII that differ from a lower-case ASCII letter only in case. -/
def asciiRelatives (c : Char) : List Nat :=
  if c = 'i' then [304, 305] else if c = 's' then [383] else if c = 'k' then [8490] else []

/-- The code points of the characters that differ from a character only in case, with its
own. -/
def caseVariants (c : Char) : List Nat :=
  if c.toNat < 128 then
    if c.isAlpha then c.toLower.toNat :: c.toUpper.toNat :: asciiRelatives c.toLower
    else [c.toNat]
  else
    (lowerVariants (toLower c).toNat).flatMap fun n =>
      n :: capitalIn n (65, 90, 1, 32) ++ lowerRuns.flatMap (capitalIn n)

/-! ## Texts -/

/-- A letter with a small and a capital form, or without a partner in a cased script. -/
def isCased (c : Char) : Bool := toLower c != c || capital c != c || isCaseless c

/-- A text begins with a cased letter behind signs that part no word. -/
def beginsCased (cs : List Char) : Bool := (cs.find? fun c => !isJoining c).any isCased

/-- The lower-case form of a text behind other characters, which are given from the last to
the first. A capital sigma at the end of a word becomes the final one, and a capital `I` with
a dot the small letter followed by a combining dot. -/
def loweredBehind (before : List Char) : List Char → List Char
  | [] => []
  | c :: cs =>
    (if c = 'Σ' then [if beginsCased before && !beginsCased cs then 'ς' else 'σ']
      else if c = '\u0130' then ['i', '\u0307']
      else [toLower c]) ++ loweredBehind (c :: before) cs

/-- The lower-case form of a text. -/
def lowered (cs : List Char) : List Char := loweredBehind [] cs

/-- What stands behind the first of several capitals that a character has: first and last code
point, and the code points behind. -/
def furtherCapitals : List (Nat × Nat × List Nat) :=
  [(223, 223, [83]), (329, 329, [78]), (496, 496, [780]), (912, 912, [776, 769]),
   (944, 944, [776, 769]), (1415, 1415, [1362]), (7830, 7830, [817]), (7831, 7831, [776]),
   (7832, 7833, [778]), (7834, 7834, [702]), (8016, 8016, [787]), (8018, 8018, [787, 768]),
   (8020, 8020, [787, 769]), (8022, 8022, [787, 834]), (8064, 8111, [921]), (8114, 8116, [921]),
   (8118, 8118, [834]), (8119, 8119, [834, 921]), (8124, 8124, [921]), (8130, 8132, [921]),
   (8134, 8134, [834]), (8135, 8135, [834, 921]), (8140, 8140, [921]), (8146, 8146, [776, 768]),
   (8147, 8147, [776, 769]), (8150, 8150, [834]), (8151, 8151, [776, 834]),
   (8162, 8162, [776, 768]), (8163, 8163, [776, 769]), (8164, 8164, [787]), (8166, 8166, [834]),
   (8167, 8167, [776, 834]), (8178, 8180, [921]), (8182, 8182, [834]), (8183, 8183, [834, 921]),
   (8188, 8188, [921]), (64256, 64256, [70]), (64257, 64257, [73]), (64258, 64258, [76]),
   (64259, 64259, [70, 73]), (64260, 64260, [70, 76]), (64261, 64262, [84]),
   (64275, 64275, [1350]), (64276, 64276, [1333]), (64277, 64277, [1339]), (64278, 64278, [1350]),
   (64279, 64279, [1341])]

/-- The capitals of a character. -/
def capitals (c : Char) : List Char :=
  let n := c.toNat
  let further := (furtherCapitals.find? fun (a, b, _) => a ≤ n && n ≤ b).map (·.2.2)
  capital c :: (further.getD []).map Char.ofNat

/-- A text in capitals. -/
def raised (cs : List Char) : List Char := cs.flatMap capitals

end Assay.Text
