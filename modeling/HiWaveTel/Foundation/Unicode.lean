import HiWaveTel.Foundation.Text

/- Character classes of Python text beyond ASCII, and lower case. The tables list the code
   points from 128 on as ranges; unassigned code points between two letters are in
   `isAlnum`, and between two of a class in the class, since later versions of Unicode
   assign them.

   `lower` looks at one character at a time, but for the capital sigma, whose lower case
   depends on what is around it. `lower_append` and `lower_prefix_of_noSigma` say when
   that does not matter. -/
namespace Foundation

namespace Text

/-- The code point is in one of the ranges. -/
def inRanges (ranges : List (Nat × Nat)) (n : Nat) : Bool :=
  ranges.any (fun r => decide (r.1 ≤ n) && decide (n ≤ r.2))

def digitRanges : List (Nat × Nat) :=
  [(178, 179), (185, 185), (1632, 1641), (1776, 1785), (1984, 1993), (2406, 2415), (2534, 2543),
    (2662, 2671), (2790, 2799), (2918, 2927), (3046, 3055), (3174, 3183), (3302, 3311),
    (3430, 3439), (3558, 3567), (3664, 3673), (3792, 3801), (3872, 3881), (4160, 4169),
    (4240, 4249), (4969, 4977), (6112, 6121), (6160, 6169), (6470, 6479), (6608, 6618),
    (6784, 6793), (6800, 6809), (6992, 7001), (7088, 7097), (7232, 7241), (7248, 7257),
    (8304, 8304), (8308, 8313), (8320, 8329), (9312, 9320), (9332, 9340), (9352, 9360),
    (9450, 9450), (9461, 9469), (9471, 9471), (10102, 10110), (10112, 10120), (10122, 10130),
    (42528, 42537), (43216, 43225), (43264, 43273), (43472, 43481), (43504, 43513), (43600, 43609),
    (44016, 44025), (65296, 65305), (66720, 66729), (68160, 68163), (68912, 68921), (69216, 69224),
    (69714, 69722), (69734, 69743), (69872, 69881), (69942, 69951), (70096, 70105), (70384, 70393),
    (70736, 70745), (70864, 70873), (71248, 71257), (71360, 71369), (71472, 71481), (71904, 71913),
    (72016, 72025), (72784, 72793), (73040, 73049), (73120, 73129), (92768, 92777), (92864, 92873),
    (93008, 93017), (120782, 120831), (123200, 123209), (123632, 123641), (125264, 125273),
    (127232, 127242), (130032, 130041)]

def alnumRanges : List (Nat × Nat) :=
  [(170, 170), (178, 179), (181, 181), (185, 186), (188, 190), (192, 214), (216, 246), (248, 705),
    (710, 721), (736, 740), (748, 748), (750, 750), (880, 884), (886, 893), (895, 895), (902, 902),
    (904, 1013), (1015, 1153), (1162, 1369), (1376, 1416), (1488, 1522), (1568, 1610), (1632, 1641),
    (1646, 1647), (1649, 1747), (1749, 1749), (1765, 1766), (1774, 1788), (1791, 1791),
    (1808, 1808), (1810, 1839), (1869, 1957), (1969, 2026), (2036, 2037), (2042, 2042),
    (2048, 2069), (2074, 2074), (2084, 2084), (2088, 2088), (2112, 2136), (2144, 2183),
    (2185, 2190), (2208, 2249), (2308, 2361), (2365, 2365), (2384, 2384), (2392, 2401),
    (2406, 2415), (2417, 2432), (2437, 2489), (2493, 2493), (2510, 2510), (2524, 2529),
    (2534, 2545), (2548, 2553), (2556, 2556), (2565, 2617), (2649, 2671), (2674, 2676),
    (2693, 2745), (2749, 2749), (2768, 2785), (2790, 2799), (2809, 2809), (2821, 2873),
    (2877, 2877), (2908, 2913), (2918, 2927), (2929, 2935), (2947, 3001), (3024, 3024),
    (3046, 3058), (3077, 3129), (3133, 3133), (3160, 3169), (3174, 3183), (3192, 3198),
    (3200, 3200), (3205, 3257), (3261, 3261), (3293, 3297), (3302, 3314), (3332, 3386),
    (3389, 3389), (3406, 3406), (3412, 3414), (3416, 3425), (3430, 3448), (3450, 3455),
    (3461, 3526), (3558, 3567), (3585, 3632), (3634, 3635), (3648, 3654), (3664, 3673),
    (3713, 3760), (3762, 3763), (3773, 3782), (3792, 3840), (3872, 3891), (3904, 3948),
    (3976, 3980), (4096, 4138), (4159, 4169), (4176, 4181), (4186, 4189), (4193, 4193),
    (4197, 4198), (4206, 4208), (4213, 4225), (4238, 4238), (4240, 4249), (4256, 4346),
    (4348, 4954), (4969, 5007), (5024, 5117), (5121, 5740), (5743, 5759), (5761, 5786),
    (5792, 5866), (5870, 5905), (5919, 5937), (5952, 5969), (5984, 6000), (6016, 6067),
    (6103, 6103), (6108, 6108), (6112, 6137), (6160, 6276), (6279, 6312), (6314, 6430),
    (6470, 6618), (6656, 6678), (6688, 6740), (6784, 6809), (6823, 6823), (6917, 6963),
    (6981, 7001), (7043, 7072), (7086, 7141), (7168, 7203), (7232, 7293), (7296, 7359),
    (7401, 7404), (7406, 7411), (7413, 7414), (7418, 7615), (7680, 8124), (8126, 8126),
    (8130, 8140), (8144, 8155), (8160, 8172), (8178, 8188), (8304, 8313), (8319, 8329),
    (8336, 8348), (8450, 8450), (8455, 8455), (8458, 8467), (8469, 8469), (8473, 8477),
    (8484, 8484), (8486, 8486), (8488, 8488), (8490, 8493), (8495, 8505), (8508, 8511),
    (8517, 8521), (8526, 8526), (8528, 8585), (9312, 9371), (9450, 9471), (10102, 10131),
    (11264, 11492), (11499, 11502), (11506, 11507), (11517, 11517), (11520, 11631), (11648, 11742),
    (11823, 11823), (12293, 12295), (12321, 12329), (12337, 12341), (12344, 12348), (12353, 12438),
    (12445, 12447), (12449, 12538), (12540, 12686), (12690, 12693), (12704, 12735), (12784, 12799),
    (12832, 12841), (12872, 12879), (12881, 12895), (12928, 12937), (12977, 12991), (13312, 19903),
    (19968, 42124), (42192, 42237), (42240, 42508), (42512, 42606), (42623, 42653), (42656, 42735),
    (42775, 42783), (42786, 42888), (42891, 43009), (43011, 43013), (43015, 43018), (43020, 43042),
    (43056, 43061), (43072, 43123), (43138, 43187), (43216, 43225), (43250, 43255), (43259, 43259),
    (43261, 43262), (43264, 43301), (43312, 43334), (43360, 43388), (43396, 43442), (43471, 43481),
    (43488, 43492), (43494, 43560), (43584, 43586), (43588, 43595), (43600, 43609), (43616, 43638),
    (43642, 43642), (43646, 43695), (43697, 43697), (43701, 43702), (43705, 43709), (43712, 43712),
    (43714, 43741), (43744, 43754), (43762, 43764), (43777, 43866), (43868, 43881), (43888, 44002),
    (44016, 55291), (63744, 64285), (64287, 64296), (64298, 64433), (64467, 64829), (64848, 64967),
    (65008, 65019), (65136, 65276), (65296, 65305), (65313, 65338), (65345, 65370), (65382, 65500),
    (65536, 65786), (65799, 65843), (65856, 65912), (65930, 65931), (66176, 66256), (66273, 66421),
    (66432, 66461), (66464, 66511), (66513, 66915), (66928, 67669), (67672, 67702), (67705, 67867),
    (67872, 67897), (67968, 68096), (68112, 68149), (68160, 68168), (68192, 68222), (68224, 68295),
    (68297, 68324), (68331, 68335), (68352, 68405), (68416, 68497), (68521, 68899), (68912, 69289),
    (69296, 69445), (69457, 69460), (69488, 69505), (69552, 69622), (69635, 69687), (69714, 69743),
    (69745, 69746), (69749, 69749), (69763, 69807), (69840, 69881), (69891, 69926), (69942, 69951),
    (69956, 69956), (69959, 70002), (70006, 70006), (70019, 70066), (70081, 70084), (70096, 70106),
    (70108, 70108), (70113, 70187), (70272, 70312), (70320, 70366), (70384, 70393), (70405, 70457),
    (70461, 70461), (70480, 70480), (70493, 70497), (70656, 70708), (70727, 70730), (70736, 70745),
    (70751, 70831), (70852, 70853), (70855, 71086), (71128, 71131), (71168, 71215), (71236, 71257),
    (71296, 71338), (71352, 71352), (71360, 71450), (71472, 71483), (71488, 71723), (71840, 71983),
    (71999, 71999), (72001, 72001), (72016, 72144), (72161, 72161), (72163, 72163), (72192, 72192),
    (72203, 72242), (72250, 72250), (72272, 72272), (72284, 72329), (72349, 72349), (72368, 72750),
    (72768, 72768), (72784, 72812), (72818, 72847), (72960, 73008), (73030, 73030), (73040, 73097),
    (73112, 73458), (73648, 73684), (73728, 74862), (74880, 77808), (77824, 78894), (82944, 92777),
    (92784, 92909), (92928, 92975), (92992, 92995), (93008, 93846), (93952, 94026), (94032, 94032),
    (94099, 94177), (94179, 94179), (94208, 113817), (119520, 119539), (119648, 120512),
    (120514, 120538), (120540, 120570), (120572, 120596), (120598, 120628), (120630, 120654),
    (120656, 120686), (120688, 120712), (120714, 120744), (120746, 120770), (120772, 120831),
    (122624, 122654), (123136, 123180), (123191, 123214), (123536, 123565), (123584, 123627),
    (123632, 123641), (124896, 125135), (125184, 125251), (125259, 125273), (126065, 126123),
    (126125, 126127), (126129, 126253), (126255, 126651), (127232, 127244), (130032, 201546)]

/-- `str.isdigit` for one character. -/
def isDigit (c : Char) : Bool :=
  if c.toNat < 128 then c.isDigit else inRanges digitRanges c.toNat

def decimalRanges : List (Nat × Nat) :=
  [(1632, 1641), (1776, 1785), (1984, 1993), (2406, 2415), (2534, 2543), (2662, 2671),
    (2790, 2799), (2918, 2927), (3046, 3055), (3174, 3183), (3302, 3311), (3430, 3439),
    (3558, 3567), (3664, 3673), (3792, 3801), (3872, 3881), (4160, 4169), (4240, 4249),
    (6112, 6121), (6160, 6169), (6470, 6479), (6608, 6617), (6784, 6793), (6800, 6809),
    (6992, 7001), (7088, 7097), (7232, 7241), (7248, 7257), (42528, 42537), (43216, 43225),
    (43264, 43273), (43472, 43481), (43504, 43513), (43600, 43609), (44016, 44025), (65296, 65305),
    (66720, 66729), (68912, 68921), (69734, 69743), (69872, 69881), (69942, 69951), (70096, 70105),
    (70384, 70393), (70736, 70745), (70864, 70873), (71248, 71257), (71360, 71369), (71472, 71481),
    (71904, 71913), (72016, 72025), (72784, 72793), (73040, 73049), (73120, 73129), (92768, 92777),
    (92864, 92873), (93008, 93017), (120782, 120831), (123200, 123209), (123632, 123641),
    (125264, 125273), (130032, 130041)]

/-- `str.isdecimal` for one character, which is the class `\d` of a pattern. -/
def isDecimal (c : Char) : Bool :=
  if c.toNat < 128 then c.isDigit else inRanges decimalRanges c.toNat

/-- `str.isalnum` for one character. -/
def isAlnum (c : Char) : Bool :=
  if c.toNat < 128 then c.isAlphanum else inRanges alnumRanges c.toNat

/-- The class `\w` of a pattern. -/
def isWord (c : Char) : Bool := isAlnum c || c == '_'

/-- `\b` after a word character. -/
def endsWord (s : Str) : Bool := s.head?.all (fun c => !isWord c)

/-- `re.search` of a pattern that starts with `\b` and a word character; `inWord` says that such
    a character is before the text. -/
def searchWord (matchFront : Str → Bool) (inWord : Bool) : Str → Bool
  | [] => !inWord && matchFront []
  | c :: s => (!inWord && matchFront (c :: s)) || searchWord matchFront (isWord c) s

/-! ## Lower case -/

/-- The capitals from 128 on that have one letter as their lower case: the first and the last of
    a range, the step in it, and the lower case of the first. -/
def capitalRanges : List (Nat × Nat × Nat × Nat) :=
  [(192, 214, 1, 224), (216, 222, 1, 248), (256, 302, 2, 257), (306, 310, 2, 307),
    (313, 327, 2, 314), (330, 374, 2, 331), (376, 376, 1, 255), (377, 381, 2, 378),
    (385, 385, 1, 595), (386, 388, 2, 387), (390, 390, 1, 596), (391, 391, 1, 392),
    (393, 394, 1, 598), (395, 395, 1, 396), (398, 398, 1, 477), (399, 399, 1, 601),
    (400, 400, 1, 603), (401, 401, 1, 402), (403, 403, 1, 608), (404, 404, 1, 611),
    (406, 406, 1, 617), (407, 407, 1, 616), (408, 408, 1, 409), (412, 412, 1, 623),
    (413, 413, 1, 626), (415, 415, 1, 629), (416, 420, 2, 417), (422, 422, 1, 640),
    (423, 423, 1, 424), (425, 425, 1, 643), (428, 428, 1, 429), (430, 430, 1, 648),
    (431, 431, 1, 432), (433, 434, 1, 650), (435, 437, 2, 436), (439, 439, 1, 658),
    (440, 440, 1, 441), (444, 444, 1, 445), (452, 452, 1, 454), (453, 453, 1, 454),
    (455, 455, 1, 457), (456, 456, 1, 457), (458, 458, 1, 460), (459, 475, 2, 460),
    (478, 494, 2, 479), (497, 497, 1, 499), (498, 500, 2, 499), (502, 502, 1, 405),
    (503, 503, 1, 447), (504, 542, 2, 505), (544, 544, 1, 414), (546, 562, 2, 547),
    (570, 570, 1, 11365), (571, 571, 1, 572), (573, 573, 1, 410), (574, 574, 1, 11366),
    (577, 577, 1, 578), (579, 579, 1, 384), (580, 580, 1, 649), (581, 581, 1, 652),
    (582, 590, 2, 583), (880, 882, 2, 881), (886, 886, 1, 887), (895, 895, 1, 1011),
    (902, 902, 1, 940), (904, 906, 1, 941), (908, 908, 1, 972), (910, 911, 1, 973),
    (913, 929, 1, 945), (932, 939, 1, 964), (975, 975, 1, 983), (984, 1006, 2, 985),
    (1012, 1012, 1, 952), (1015, 1015, 1, 1016), (1017, 1017, 1, 1010), (1018, 1018, 1, 1019),
    (1021, 1023, 1, 891), (1024, 1039, 1, 1104), (1040, 1071, 1, 1072), (1120, 1152, 2, 1121),
    (1162, 1214, 2, 1163), (1216, 1216, 1, 1231), (1217, 1229, 2, 1218), (1232, 1326, 2, 1233),
    (1329, 1366, 1, 1377), (4256, 4293, 1, 11520), (4295, 4295, 1, 11559), (4301, 4301, 1, 11565),
    (5024, 5103, 1, 43888), (5104, 5109, 1, 5112), (7312, 7354, 1, 4304), (7357, 7359, 1, 4349),
    (7680, 7828, 2, 7681), (7838, 7838, 1, 223), (7840, 7934, 2, 7841), (7944, 7951, 1, 7936),
    (7960, 7965, 1, 7952), (7976, 7983, 1, 7968), (7992, 7999, 1, 7984), (8008, 8013, 1, 8000),
    (8025, 8031, 2, 8017), (8040, 8047, 1, 8032), (8072, 8079, 1, 8064), (8088, 8095, 1, 8080),
    (8104, 8111, 1, 8096), (8120, 8121, 1, 8112), (8122, 8123, 1, 8048), (8124, 8124, 1, 8115),
    (8136, 8139, 1, 8050), (8140, 8140, 1, 8131), (8152, 8153, 1, 8144), (8154, 8155, 1, 8054),
    (8168, 8169, 1, 8160), (8170, 8171, 1, 8058), (8172, 8172, 1, 8165), (8184, 8185, 1, 8056),
    (8186, 8187, 1, 8060), (8188, 8188, 1, 8179), (8486, 8486, 1, 969), (8490, 8490, 1, 107),
    (8491, 8491, 1, 229), (8498, 8498, 1, 8526), (8544, 8559, 1, 8560), (8579, 8579, 1, 8580),
    (9398, 9423, 1, 9424), (11264, 11311, 1, 11312), (11360, 11360, 1, 11361),
    (11362, 11362, 1, 619), (11363, 11363, 1, 7549), (11364, 11364, 1, 637),
    (11367, 11371, 2, 11368), (11373, 11373, 1, 593), (11374, 11374, 1, 625),
    (11375, 11375, 1, 592), (11376, 11376, 1, 594), (11378, 11378, 1, 11379),
    (11381, 11381, 1, 11382), (11390, 11391, 1, 575), (11392, 11490, 2, 11393),
    (11499, 11501, 2, 11500), (11506, 11506, 1, 11507), (42560, 42604, 2, 42561),
    (42624, 42650, 2, 42625), (42786, 42798, 2, 42787), (42802, 42862, 2, 42803),
    (42873, 42875, 2, 42874), (42877, 42877, 1, 7545), (42878, 42886, 2, 42879),
    (42891, 42891, 1, 42892), (42893, 42893, 1, 613), (42896, 42898, 2, 42897),
    (42902, 42920, 2, 42903), (42922, 42922, 1, 614), (42923, 42923, 1, 604),
    (42924, 42924, 1, 609), (42925, 42925, 1, 620), (42926, 42926, 1, 618), (42928, 42928, 1, 670),
    (42929, 42929, 1, 647), (42930, 42930, 1, 669), (42931, 42931, 1, 43859),
    (42932, 42946, 2, 42933), (42948, 42948, 1, 42900), (42949, 42949, 1, 642),
    (42950, 42950, 1, 7566), (42951, 42953, 2, 42952), (42960, 42960, 1, 42961),
    (42966, 42968, 2, 42967), (42997, 42997, 1, 42998), (65313, 65338, 1, 65345),
    (66560, 66599, 1, 66600), (66736, 66771, 1, 66776), (66928, 66938, 1, 66967),
    (66940, 66954, 1, 66979), (66956, 66962, 1, 66995), (66964, 66965, 1, 67003),
    (68736, 68786, 1, 68800), (71840, 71871, 1, 71872), (93760, 93791, 1, 93792),
    (125184, 125217, 1, 125218)]

/-- Lower case of one character, but for the final sigma. -/
def lowerChar (c : Char) : Str :=
  let n := c.toNat
  if n < 128 then [if 0x41 ≤ n ∧ n ≤ 0x5A then Char.ofNat (n + 32) else c]
  else if n = 0x130 then ['i', Char.ofNat 0x307]
  else if n = 0x3A3 then [Char.ofNat 0x3C3]
  else
    match capitalRanges.find? (fun r =>
      decide (r.1 ≤ n ∧ n ≤ r.2.1 ∧ (n - r.1) % r.2.2.1 = 0)) with
    | some r => [Char.ofNat (r.2.2.2 + (n - r.1))]
    | none => [c]

def caseIgnorableRanges : List (Nat × Nat) :=
  [(168, 168), (173, 173), (175, 175), (180, 180), (183, 184), (688, 879), (884, 885), (890, 890),
    (900, 901), (903, 903), (1155, 1161), (1369, 1369), (1375, 1375), (1425, 1469), (1471, 1471),
    (1473, 1474), (1476, 1477), (1479, 1479), (1524, 1541), (1552, 1562), (1564, 1564),
    (1600, 1600), (1611, 1631), (1648, 1648), (1750, 1757), (1759, 1768), (1770, 1773),
    (1807, 1807), (1809, 1809), (1840, 1866), (1958, 1968), (2027, 2037), (2042, 2045),
    (2070, 2093), (2137, 2139), (2184, 2184), (2192, 2207), (2249, 2306), (2362, 2362),
    (2364, 2364), (2369, 2376), (2381, 2381), (2385, 2391), (2402, 2403), (2417, 2417),
    (2433, 2433), (2492, 2492), (2497, 2500), (2509, 2509), (2530, 2531), (2558, 2562),
    (2620, 2620), (2625, 2641), (2672, 2673), (2677, 2677), (2689, 2690), (2748, 2748),
    (2753, 2760), (2765, 2765), (2786, 2787), (2810, 2817), (2876, 2876), (2879, 2879),
    (2881, 2884), (2893, 2902), (2914, 2915), (2946, 2946), (3008, 3008), (3021, 3021),
    (3072, 3072), (3076, 3076), (3132, 3132), (3134, 3136), (3142, 3158), (3170, 3171),
    (3201, 3201), (3260, 3260), (3263, 3263), (3270, 3270), (3276, 3277), (3298, 3299),
    (3328, 3329), (3387, 3388), (3393, 3396), (3405, 3405), (3426, 3427), (3457, 3457),
    (3530, 3530), (3538, 3542), (3633, 3633), (3636, 3642), (3654, 3662), (3761, 3761),
    (3764, 3772), (3782, 3789), (3864, 3865), (3893, 3893), (3895, 3895), (3897, 3897),
    (3953, 3966), (3968, 3972), (3974, 3975), (3981, 4028), (4038, 4038), (4141, 4144),
    (4146, 4151), (4153, 4154), (4157, 4158), (4184, 4185), (4190, 4192), (4209, 4212),
    (4226, 4226), (4229, 4230), (4237, 4237), (4253, 4253), (4348, 4348), (4957, 4959),
    (5906, 5908), (5938, 5939), (5970, 5971), (6002, 6003), (6068, 6069), (6071, 6077),
    (6086, 6086), (6089, 6099), (6103, 6103), (6109, 6109), (6155, 6159), (6211, 6211),
    (6277, 6278), (6313, 6313), (6432, 6434), (6439, 6440), (6450, 6450), (6457, 6459),
    (6679, 6680), (6683, 6683), (6742, 6742), (6744, 6752), (6754, 6754), (6757, 6764),
    (6771, 6783), (6823, 6823), (6832, 6915), (6964, 6964), (6966, 6970), (6972, 6972),
    (6978, 6978), (7019, 7027), (7040, 7041), (7074, 7077), (7080, 7081), (7083, 7085),
    (7142, 7142), (7144, 7145), (7149, 7149), (7151, 7153), (7212, 7219), (7222, 7223),
    (7288, 7293), (7376, 7378), (7380, 7392), (7394, 7400), (7405, 7405), (7412, 7412),
    (7416, 7417), (7468, 7530), (7544, 7544), (7579, 7679), (8125, 8125), (8127, 8129),
    (8141, 8143), (8157, 8159), (8173, 8175), (8189, 8190), (8203, 8207), (8216, 8217),
    (8228, 8228), (8231, 8231), (8234, 8238), (8288, 8303), (8305, 8305), (8319, 8319),
    (8336, 8348), (8400, 8432), (11388, 11389), (11503, 11505), (11631, 11631), (11647, 11647),
    (11744, 11775), (11823, 11823), (12293, 12293), (12330, 12333), (12337, 12341), (12347, 12347),
    (12441, 12446), (12540, 12542), (40981, 40981), (42232, 42237), (42508, 42508), (42607, 42610),
    (42612, 42621), (42623, 42623), (42652, 42655), (42736, 42737), (42752, 42785), (42864, 42864),
    (42888, 42890), (42994, 42996), (43000, 43001), (43010, 43010), (43014, 43014), (43019, 43019),
    (43045, 43046), (43052, 43052), (43204, 43205), (43232, 43249), (43263, 43263), (43302, 43309),
    (43335, 43345), (43392, 43394), (43443, 43443), (43446, 43449), (43452, 43453), (43471, 43471),
    (43493, 43494), (43561, 43566), (43569, 43570), (43573, 43574), (43587, 43587), (43596, 43596),
    (43632, 43632), (43644, 43644), (43696, 43696), (43698, 43700), (43703, 43704), (43710, 43711),
    (43713, 43713), (43741, 43741), (43756, 43757), (43763, 43764), (43766, 43766), (43867, 43871),
    (43881, 43883), (44005, 44005), (44008, 44008), (44013, 44013), (64286, 64286), (64434, 64450),
    (65024, 65039), (65043, 65043), (65056, 65071), (65106, 65106), (65109, 65109), (65279, 65279),
    (65287, 65287), (65294, 65294), (65306, 65306), (65342, 65342), (65344, 65344), (65392, 65392),
    (65438, 65439), (65507, 65507), (65529, 65531), (66045, 66045), (66272, 66272), (66422, 66426),
    (67456, 67514), (68097, 68111), (68152, 68159), (68325, 68326), (68900, 68903), (69291, 69292),
    (69446, 69456), (69506, 69509), (69633, 69633), (69688, 69702), (69744, 69744), (69747, 69748),
    (69759, 69761), (69811, 69814), (69817, 69818), (69821, 69821), (69826, 69837), (69888, 69890),
    (69927, 69931), (69933, 69940), (70003, 70003), (70016, 70017), (70070, 70078), (70089, 70092),
    (70095, 70095), (70191, 70193), (70196, 70196), (70198, 70199), (70206, 70206), (70367, 70367),
    (70371, 70378), (70400, 70401), (70459, 70460), (70464, 70464), (70502, 70516), (70712, 70719),
    (70722, 70724), (70726, 70726), (70750, 70750), (70835, 70840), (70842, 70842), (70847, 70848),
    (70850, 70851), (71090, 71093), (71100, 71101), (71103, 71104), (71132, 71133), (71219, 71226),
    (71229, 71229), (71231, 71232), (71339, 71339), (71341, 71341), (71344, 71349), (71351, 71351),
    (71453, 71455), (71458, 71461), (71463, 71467), (71727, 71735), (71737, 71738), (71995, 71996),
    (71998, 71998), (72003, 72003), (72148, 72155), (72160, 72160), (72193, 72202), (72243, 72248),
    (72251, 72254), (72263, 72263), (72273, 72278), (72281, 72283), (72330, 72342), (72344, 72345),
    (72752, 72765), (72767, 72767), (72850, 72871), (72874, 72880), (72882, 72883), (72885, 72886),
    (73009, 73029), (73031, 73031), (73104, 73105), (73109, 73109), (73111, 73111), (73459, 73460),
    (78896, 78904), (92912, 92916), (92976, 92982), (92992, 92995), (94031, 94031), (94095, 94177),
    (94179, 94180), (110576, 110590), (113821, 113822), (113824, 118598), (119143, 119145),
    (119155, 119170), (119173, 119179), (119210, 119213), (119362, 119364), (121344, 121398),
    (121403, 121452), (121461, 121461), (121476, 121476), (121499, 121519), (122880, 122922),
    (123184, 123197), (123566, 123566), (123628, 123631), (125136, 125142), (125252, 125259),
    (127995, 127999), (917505, 917999)]

def casedRanges : List (Nat × Nat) :=
  [(170, 170), (181, 181), (186, 186), (192, 214), (216, 246), (248, 442), (444, 447), (452, 659),
    (661, 687), (880, 883), (886, 887), (891, 893), (895, 895), (902, 902), (904, 1013),
    (1015, 1153), (1162, 1366), (1376, 1416), (4256, 4346), (4349, 4351), (5024, 5117),
    (7296, 7359), (7424, 7467), (7531, 7543), (7545, 7578), (7680, 8124), (8126, 8126),
    (8130, 8140), (8144, 8155), (8160, 8172), (8178, 8188), (8450, 8450), (8455, 8455),
    (8458, 8467), (8469, 8469), (8473, 8477), (8484, 8484), (8486, 8486), (8488, 8488),
    (8490, 8493), (8495, 8500), (8505, 8505), (8508, 8511), (8517, 8521), (8526, 8526),
    (8544, 8575), (8579, 8580), (9398, 9449), (11264, 11387), (11390, 11492), (11499, 11502),
    (11506, 11507), (11520, 11565), (42560, 42605), (42624, 42651), (42786, 42863), (42865, 42887),
    (42891, 42894), (42896, 42969), (42997, 42998), (43002, 43002), (43824, 43866), (43872, 43880),
    (43888, 43967), (64256, 64279), (65313, 65338), (65345, 65370), (66560, 66639), (66736, 66811),
    (66928, 67004), (68736, 68850), (71840, 71903), (93760, 93823), (119808, 120512),
    (120514, 120538), (120540, 120570), (120572, 120596), (120598, 120628), (120630, 120654),
    (120656, 120686), (120688, 120712), (120714, 120744), (120746, 120770), (120772, 120779),
    (122624, 122633), (122635, 122654), (125184, 125251), (127280, 127305), (127312, 127337),
    (127344, 127369)]

/-- `Case_Ignorable`; in ASCII the apostrophe, the full stop, the colon, the circumflex and the
    backquote. -/
def isCaseIgnorable (c : Char) : Bool :=
  let n := c.toNat
  if n < 128 then [39, 46, 58, 94, 96].contains n else inRanges caseIgnorableRanges n

/-- `Cased`, and not case-ignorable. -/
def isCased (c : Char) : Bool :=
  if c.toNat < 128 then c.isAlpha else inRanges casedRanges c.toNat

def isCapitalSigma (c : Char) : Bool := c.toNat == 0x3A3

/-- No cased character follows, case-ignorable ones apart. -/
def endsCased (s : Str) : Bool :=
  (s.dropWhile isCaseIgnorable).head?.all (fun c => !isCased c)

/-- `afterCased`: a cased character is before the text, case-ignorable ones apart. -/
def lowerFrom (afterCased : Bool) : Str → Str
  | [] => []
  | c :: s =>
    (if isCapitalSigma c && afterCased && endsCased s then [Char.ofNat 0x3C2] else lowerChar c) ++
      lowerFrom (if isCaseIgnorable c then afterCased else isCased c) s

/-- `str.lower()`. -/
def lower (s : Str) : Str := lowerFrom false s

theorem lowerChar_ne_nil (c : Char) : lowerChar c ≠ [] := by
  unfold lowerChar
  dsimp only
  split_ifs
  · exact List.cons_ne_nil _ _
  · exact List.cons_ne_nil _ _
  · exact List.cons_ne_nil _ _
  · exact List.cons_ne_nil _ _
  · split <;> exact List.cons_ne_nil _ _

@[simp] theorem lower_eq_nil {s : Str} : lower s = [] ↔ s = [] := by
  cases s with
  | nil => exact iff_of_true rfl rfl
  | cons c s =>
    refine iff_of_false ?_ (List.cons_ne_nil c s)
    intro h
    have hfirst := (List.append_eq_nil_iff.mp h).1
    split at hfirst
    · cases hfirst
    · exact lowerChar_ne_nil c hfirst

theorem lowerFrom_cons {c : Char} (h : isCapitalSigma c = false) (afterCased : Bool) (s : Str) :
    lowerFrom afterCased (c :: s) =
      lowerChar c ++ lowerFrom (if isCaseIgnorable c then afterCased else isCased c) s := by
  rw [lowerFrom, h]
  rfl

/-- Without a capital sigma each character is looked at alone. -/
theorem lowerFrom_of_noSigma {s : Str} (h : ∀ c ∈ s, isCapitalSigma c = false) (afterCased : Bool)
    (t : Str) : ∃ afterCased', lowerFrom afterCased (s ++ t) =
      s.flatMap lowerChar ++ lowerFrom afterCased' t := by
  induction s generalizing afterCased with
  | nil => exact ⟨afterCased, rfl⟩
  | cons c s ih =>
    obtain ⟨hc, hs⟩ := List.forall_mem_cons.mp h
    obtain ⟨afterCased', hrest⟩ := ih hs (if isCaseIgnorable c then afterCased else isCased c)
    refine ⟨afterCased', ?_⟩
    rw [List.cons_append, lowerFrom_cons hc, hrest, List.flatMap_cons, List.append_assoc]

theorem lower_of_noSigma {s : Str} (h : ∀ c ∈ s, isCapitalSigma c = false) :
    lower s = s.flatMap lowerChar := by
  obtain ⟨_, hlower⟩ := lowerFrom_of_noSigma h false []
  rw [List.append_nil] at hlower
  rw [lower, hlower]
  exact List.append_nil _

theorem lower_prefix_of_noSigma {s : Str} (h : ∀ c ∈ s, isCapitalSigma c = false) (t : Str) :
    lower s <+: lower (s ++ t) := by
  obtain ⟨_, hlower⟩ := lowerFrom_of_noSigma h false t
  rw [lower_of_noSigma h, lower, hlower]
  exact List.prefix_append _ _

/-- The character is neither in a word nor skipped when its end is looked for. -/
def separates (c : Char) : Bool := !isCaseIgnorable c && !isCased c

theorem lowerFrom_separates {c : Char} (h : separates c = true) (afterCased : Bool) (s : Str) :
    lowerFrom afterCased (c :: s) = lowerChar c ++ lower s := by
  obtain ⟨hignorable, hcased⟩ := Bool.and_eq_true_iff.mp h
  rw [Bool.not_eq_true'] at hignorable hcased
  have hsigma : isCapitalSigma c = false := by
    rw [Bool.eq_false_iff]
    intro hsigma
    have hc : c = Char.ofNat 0x3A3 := by
      rw [← eq_of_beq hsigma, Char.ofNat_toNat]
    rw [hc] at hcased
    exact absurd hcased (by decide +kernel)
  rw [lowerFrom_cons hsigma, hignorable, hcased, if_neg Bool.false_ne_true]
  rfl

theorem endsCased_append {t : Str} (h : ∀ c ∈ t.head?, separates c = true) (s : Str) :
    endsCased (s ++ t) = endsCased s := by
  unfold endsCased
  rw [List.dropWhile_append]
  split
  · next hall =>
    rw [List.isEmpty_iff.mp hall]
    cases t with
    | nil => rfl
    | cons c t =>
      obtain ⟨hignorable, hcased⟩ := Bool.and_eq_true_iff.mp (h c rfl)
      rw [Bool.not_eq_true'] at hignorable
      rw [List.dropWhile_cons_of_neg (by rw [hignorable]; exact Bool.false_ne_true)]
      exact hcased
  · next hrest =>
    rw [List.head?_append_of_ne_nil _ (fun hnil => hrest (List.isEmpty_iff.mpr hnil))]

/-- A text that begins with such a character does not change the lower case of what is before. -/
theorem lower_append (s : Str) {t : Str} (h : ∀ c ∈ t.head?, separates c = true) :
    lower (s ++ t) = lower s ++ lower t := by
  have hfrom : ∀ afterCased, lowerFrom afterCased t = lower t := by
    intro afterCased
    cases t with
    | nil => rfl
    | cons c t =>
      rw [lower, lowerFrom_separates (h c rfl), lowerFrom_separates (h c rfl)]
  have hall : ∀ afterCased, lowerFrom afterCased (s ++ t) = lowerFrom afterCased s ++ lower t := by
    induction s with
    | nil => exact hfrom
    | cons c s ih =>
      intro afterCased
      rw [List.cons_append, lowerFrom, lowerFrom, endsCased_append h, ih, List.append_assoc]
  exact hall false

/-- A sigma at the end of a word and one within it. -/
example : lower "ΟΔΟΣ ΣΟΦΟΣ.".toList = "οδος σοφος.".toList := by decide +kernel

end Text

end Foundation
