import ResumableForth.Text.Blank
import ResumableForth.Text.Combining

/-! How a character joins its neighbours. Each character has one part to play, which is the value of
the Unicode property `Grapheme_Cluster_Break`, with the pictographs and the consonants that form
conjuncts told apart from the rest. -/
namespace ResumableForth
namespace Text

/-- Control and format characters, and the separators of lines and paragraphs: nothing joins them. -/
def separatorRanges : List (Nat × Nat) :=
  [(0x0000,0x0009), (0x000B,0x000C), (0x000E,0x001F), (0x007F,0x009F), (0x00AD,0x00AD),
    (0x061C,0x061C), (0x180E,0x180E), (0x200B,0x200B), (0x200E,0x200F), (0x2028,0x202E),
    (0x2060,0x206F), (0xFEFF,0xFEFF), (0xFFF0,0xFFFB), (0x13430,0x1343F), (0x1BCA0,0x1BCA3),
    (0x1D173,0x1D17A), (0xE0000,0xE001F), (0xE0080,0xE00FF), (0xE01F0,0xE0FFF)]

/-- Marks that stand in front of the character that they belong to. -/
def prependedRanges : List (Nat × Nat) :=
  [(0x0600,0x0605), (0x06DD,0x06DD), (0x070F,0x070F), (0x0890,0x0891), (0x08E2,0x08E2),
    (0x0D4E,0x0D4E), (0x110BD,0x110BD), (0x110CD,0x110CD), (0x111C2,0x111C3), (0x113D1,0x113D1),
    (0x1193F,0x1193F), (0x11941,0x11941), (0x11A84,0x11A89), (0x11D46,0x11D46), (0x11F02,0x11F02)]

set_option maxRecDepth 20000 in
def spacingRanges : List (Nat × Nat) :=
  [(0x0903,0x0903), (0x093B,0x093B), (0x093E,0x0940), (0x0949,0x094C), (0x094E,0x094F),
    (0x0982,0x0983), (0x09BF,0x09C0), (0x09C7,0x09C8), (0x09CB,0x09CC), (0x0A03,0x0A03),
    (0x0A3E,0x0A40), (0x0A83,0x0A83), (0x0ABE,0x0AC0), (0x0AC9,0x0AC9), (0x0ACB,0x0ACC),
    (0x0B02,0x0B03), (0x0B40,0x0B40), (0x0B47,0x0B48), (0x0B4B,0x0B4C), (0x0BBF,0x0BBF),
    (0x0BC1,0x0BC2), (0x0BC6,0x0BC8), (0x0BCA,0x0BCC), (0x0C01,0x0C03), (0x0C41,0x0C44),
    (0x0C82,0x0C83), (0x0CBE,0x0CBE), (0x0CC1,0x0CC1), (0x0CC3,0x0CC4), (0x0CF3,0x0CF3),
    (0x0D02,0x0D03), (0x0D3F,0x0D40), (0x0D46,0x0D48), (0x0D4A,0x0D4C), (0x0D82,0x0D83),
    (0x0DD0,0x0DD1), (0x0DD8,0x0DDE), (0x0DF2,0x0DF3), (0x0E33,0x0E33), (0x0EB3,0x0EB3),
    (0x0F3E,0x0F3F), (0x0F7F,0x0F7F), (0x1031,0x1031), (0x103B,0x103C), (0x1056,0x1057),
    (0x1084,0x1084), (0x17B6,0x17B6), (0x17BE,0x17C5), (0x17C7,0x17C8), (0x1923,0x1926),
    (0x1929,0x192B), (0x1930,0x1931), (0x1933,0x1938), (0x1A19,0x1A1A), (0x1A55,0x1A55),
    (0x1A57,0x1A57), (0x1A6D,0x1A72), (0x1B04,0x1B04), (0x1B3E,0x1B41), (0x1B82,0x1B82),
    (0x1BA1,0x1BA1), (0x1BA6,0x1BA7), (0x1BE7,0x1BE7), (0x1BEA,0x1BEC), (0x1BEE,0x1BEE),
    (0x1C24,0x1C2B), (0x1C34,0x1C35), (0x1CE1,0x1CE1), (0x1CF7,0x1CF7), (0xA823,0xA824),
    (0xA827,0xA827), (0xA880,0xA881), (0xA8B4,0xA8C3), (0xA952,0xA952), (0xA983,0xA983),
    (0xA9B4,0xA9B5), (0xA9BA,0xA9BB), (0xA9BE,0xA9BF), (0xAA2F,0xAA30), (0xAA33,0xAA34),
    (0xAA4D,0xAA4D), (0xAAEB,0xAAEB), (0xAAEE,0xAAEF), (0xAAF5,0xAAF5), (0xABE3,0xABE4),
    (0xABE6,0xABE7), (0xABE9,0xABEA), (0xABEC,0xABEC), (0x11000,0x11000), (0x11002,0x11002),
    (0x11082,0x11082), (0x110B0,0x110B2), (0x110B7,0x110B8), (0x1112C,0x1112C), (0x11145,0x11146),
    (0x11182,0x11182), (0x111B3,0x111B5), (0x111BF,0x111BF), (0x111CE,0x111CE), (0x1122C,0x1122E),
    (0x11232,0x11233), (0x112E0,0x112E2), (0x11302,0x11303), (0x1133F,0x1133F), (0x11341,0x11344),
    (0x11347,0x11348), (0x1134B,0x1134C), (0x11362,0x11363), (0x113B9,0x113BA), (0x113CA,0x113CA),
    (0x113CC,0x113CD), (0x11435,0x11437), (0x11440,0x11441), (0x11445,0x11445), (0x114B1,0x114B2),
    (0x114B9,0x114B9), (0x114BB,0x114BC), (0x114BE,0x114BE), (0x114C1,0x114C1), (0x115B0,0x115B1),
    (0x115B8,0x115BB), (0x115BE,0x115BE), (0x11630,0x11632), (0x1163B,0x1163C), (0x1163E,0x1163E),
    (0x116AC,0x116AC), (0x116AE,0x116AF), (0x1171E,0x1171E), (0x11726,0x11726), (0x1182C,0x1182E),
    (0x11838,0x11838), (0x11931,0x11935), (0x11937,0x11938), (0x11940,0x11940), (0x11942,0x11942),
    (0x119D1,0x119D3), (0x119DC,0x119DF), (0x119E4,0x119E4), (0x11A39,0x11A39), (0x11A57,0x11A58),
    (0x11A97,0x11A97), (0x11B61,0x11B61), (0x11B65,0x11B65), (0x11B67,0x11B67), (0x11C2F,0x11C2F),
    (0x11C3E,0x11C3E), (0x11CA9,0x11CA9), (0x11CB1,0x11CB1), (0x11CB4,0x11CB4), (0x11D8A,0x11D8E),
    (0x11D93,0x11D94), (0x11D96,0x11D96), (0x11EF5,0x11EF6), (0x11F03,0x11F03), (0x11F34,0x11F35),
    (0x11F3E,0x11F3F), (0x1612A,0x1612C), (0x16F51,0x16F87)]

set_option maxRecDepth 20000 in
/-- The code points with the property `Extended_Pictographic`. -/
def pictographRanges : List (Nat × Nat) :=
  [(0x00A9,0x00A9), (0x00AE,0x00AE), (0x203C,0x203C), (0x2049,0x2049), (0x2122,0x2122),
    (0x2139,0x2139), (0x2194,0x2199), (0x21A9,0x21AA), (0x231A,0x231B), (0x2328,0x2328),
    (0x23CF,0x23CF), (0x23E9,0x23F3), (0x23F8,0x23FA), (0x24C2,0x24C2), (0x25AA,0x25AB),
    (0x25B6,0x25B6), (0x25C0,0x25C0), (0x25FB,0x25FE), (0x2600,0x2604), (0x260E,0x260E),
    (0x2611,0x2611), (0x2614,0x2615), (0x2618,0x2618), (0x261D,0x261D), (0x2620,0x2620),
    (0x2622,0x2623), (0x2626,0x2626), (0x262A,0x262A), (0x262E,0x262F), (0x2638,0x263A),
    (0x2640,0x2640), (0x2642,0x2642), (0x2648,0x2653), (0x265F,0x2660), (0x2663,0x2663),
    (0x2665,0x2666), (0x2668,0x2668), (0x267B,0x267B), (0x267E,0x267F), (0x2692,0x2697),
    (0x2699,0x2699), (0x269B,0x269C), (0x26A0,0x26A1), (0x26A7,0x26A7), (0x26AA,0x26AB),
    (0x26B0,0x26B1), (0x26BD,0x26BE), (0x26C4,0x26C5), (0x26C8,0x26C8), (0x26CE,0x26CF),
    (0x26D1,0x26D1), (0x26D3,0x26D4), (0x26E9,0x26EA), (0x26F0,0x26F5), (0x26F7,0x26FA),
    (0x26FD,0x26FD), (0x2702,0x2702), (0x2705,0x2705), (0x2708,0x270D), (0x270F,0x270F),
    (0x2712,0x2712), (0x2714,0x2714), (0x2716,0x2716), (0x271D,0x271D), (0x2721,0x2721),
    (0x2728,0x2728), (0x2733,0x2734), (0x2744,0x2744), (0x2747,0x2747), (0x274C,0x274C),
    (0x274E,0x274E), (0x2753,0x2755), (0x2757,0x2757), (0x2763,0x2764), (0x2795,0x2797),
    (0x27A1,0x27A1), (0x27B0,0x27B0), (0x27BF,0x27BF), (0x2934,0x2935), (0x2B05,0x2B07),
    (0x2B1B,0x2B1C), (0x2B50,0x2B50), (0x2B55,0x2B55), (0x3030,0x3030), (0x303D,0x303D),
    (0x3297,0x3297), (0x3299,0x3299), (0x1F004,0x1F004), (0x1F02C,0x1F02F), (0x1F094,0x1F09F),
    (0x1F0AF,0x1F0B0), (0x1F0C0,0x1F0C0), (0x1F0CF,0x1F0D0), (0x1F0F6,0x1F0FF), (0x1F170,0x1F171),
    (0x1F17E,0x1F17F), (0x1F18E,0x1F18E), (0x1F191,0x1F19A), (0x1F1AE,0x1F1E5), (0x1F201,0x1F20F),
    (0x1F21A,0x1F21A), (0x1F22F,0x1F22F), (0x1F232,0x1F23A), (0x1F23C,0x1F23F), (0x1F249,0x1F25F),
    (0x1F266,0x1F321), (0x1F324,0x1F393), (0x1F396,0x1F397), (0x1F399,0x1F39B), (0x1F39E,0x1F3F0),
    (0x1F3F3,0x1F3F5), (0x1F3F7,0x1F3FA), (0x1F400,0x1F4FD), (0x1F4FF,0x1F53D), (0x1F549,0x1F54E),
    (0x1F550,0x1F567), (0x1F56F,0x1F570), (0x1F573,0x1F57A), (0x1F587,0x1F587), (0x1F58A,0x1F58D),
    (0x1F590,0x1F590), (0x1F595,0x1F596), (0x1F5A4,0x1F5A5), (0x1F5A8,0x1F5A8), (0x1F5B1,0x1F5B2),
    (0x1F5BC,0x1F5BC), (0x1F5C2,0x1F5C4), (0x1F5D1,0x1F5D3), (0x1F5DC,0x1F5DE), (0x1F5E1,0x1F5E1),
    (0x1F5E3,0x1F5E3), (0x1F5E8,0x1F5E8), (0x1F5EF,0x1F5EF), (0x1F5F3,0x1F5F3), (0x1F5FA,0x1F64F),
    (0x1F680,0x1F6C5), (0x1F6CB,0x1F6D2), (0x1F6D5,0x1F6E5), (0x1F6E9,0x1F6E9), (0x1F6EB,0x1F6F0),
    (0x1F6F3,0x1F6FF), (0x1F7DA,0x1F7FF), (0x1F80C,0x1F80F), (0x1F848,0x1F84F), (0x1F85A,0x1F85F),
    (0x1F888,0x1F88F), (0x1F8AE,0x1F8AF), (0x1F8BC,0x1F8BF), (0x1F8C2,0x1F8CF), (0x1F8D9,0x1F8FF),
    (0x1F90C,0x1F93A), (0x1F93C,0x1F945), (0x1F947,0x1F9FF), (0x1FA58,0x1FA5F), (0x1FA6E,0x1FAFF),
    (0x1FC00,0x1FFFD)]

def modifierRanges : List (Nat × Nat) :=
  [(0x1F3FB,0x1F3FF)]

/-- The letters of which two make a flag. -/
def regionalRanges : List (Nat × Nat) :=
  [(0x1F1E6,0x1F1FF)]

def leadingRanges : List (Nat × Nat) :=
  [(0x1100,0x115F), (0xA960,0xA97C)]

def vowelRanges : List (Nat × Nat) :=
  [(0x1160,0x11A7), (0xD7B0,0xD7C6), (0x16D63,0x16D63), (0x16D67,0x16D6A)]

def trailingRanges : List (Nat × Nat) :=
  [(0x11A8,0x11FF), (0xD7CB,0xD7FB)]

set_option maxRecDepth 20000 in
def consonantRanges : List (Nat × Nat) :=
  [(0x0915,0x0939), (0x0958,0x095F), (0x0978,0x097F), (0x0995,0x09A8), (0x09AA,0x09B0),
    (0x09B2,0x09B2), (0x09B6,0x09B9), (0x09DC,0x09DD), (0x09DF,0x09DF), (0x09F0,0x09F1),
    (0x0A95,0x0AA8), (0x0AAA,0x0AB0), (0x0AB2,0x0AB3), (0x0AB5,0x0AB9), (0x0AF9,0x0AF9),
    (0x0B15,0x0B28), (0x0B2A,0x0B30), (0x0B32,0x0B33), (0x0B35,0x0B39), (0x0B5C,0x0B5D),
    (0x0B5F,0x0B5F), (0x0B71,0x0B71), (0x0C15,0x0C28), (0x0C2A,0x0C39), (0x0C58,0x0C5A),
    (0x0D15,0x0D3A), (0x1000,0x102A), (0x103F,0x103F), (0x1050,0x1055), (0x105A,0x105D),
    (0x1061,0x1061), (0x1065,0x1066), (0x106E,0x1070), (0x1075,0x1081), (0x108E,0x108E),
    (0x1780,0x17B3), (0x1A20,0x1A54), (0x1B0B,0x1B0C), (0x1B13,0x1B33), (0x1B45,0x1B4C),
    (0x1B83,0x1BA0), (0x1BAE,0x1BAF), (0x1BBB,0x1BBD), (0xA989,0xA98B), (0xA98F,0xA9B2),
    (0xA9E0,0xA9E4), (0xA9E7,0xA9EF), (0xA9FA,0xA9FE), (0xAA60,0xAA6F), (0xAA71,0xAA73),
    (0xAA7A,0xAA7A), (0xAA7E,0xAA7F), (0xAAE0,0xAAEA), (0xABC0,0xABDA), (0x10A00,0x10A00),
    (0x10A10,0x10A13), (0x10A15,0x10A17), (0x10A19,0x10A35), (0x11103,0x11126), (0x11144,0x11144),
    (0x11147,0x11147), (0x11380,0x11389), (0x1138B,0x1138B), (0x1138E,0x1138E), (0x11390,0x113B5),
    (0x11900,0x11906), (0x11909,0x11909), (0x1190C,0x11913), (0x11915,0x11916), (0x11918,0x1192F),
    (0x11A00,0x11A00), (0x11A0B,0x11A32), (0x11A50,0x11A50), (0x11A5C,0x11A83), (0x11F04,0x11F10),
    (0x11F12,0x11F33)]

/-- Marks that bind the consonants around them. -/
def linkerRanges : List (Nat × Nat) :=
  [(0x094D,0x094D), (0x09CD,0x09CD), (0x0ACD,0x0ACD), (0x0B4D,0x0B4D), (0x0C4D,0x0C4D),
    (0x0D4D,0x0D4D), (0x1039,0x1039), (0x17D2,0x17D2), (0x1A60,0x1A60), (0x1B44,0x1B44),
    (0x1BAB,0x1BAB), (0xA9C0,0xA9C0), (0xAAF6,0xAAF6), (0x10A3F,0x10A3F), (0x11133,0x11133),
    (0x113D0,0x113D0), (0x1193E,0x1193E), (0x11A47,0x11A47), (0x11A99,0x11A99), (0x11F42,0x11F42)]

def firstSyllable : Nat := 0xAC00

def lastSyllable : Nat := 0xD7A3

/-- The part that a character plays beside its neighbours. -/
inductive Joining
  | carriageReturn | lineFeed | separator
  | combining | joiner | spacing | prepended
  | leading | vowel | trailing | openSyllable | closedSyllable
  | regional | pictograph | consonant | plain
  deriving DecidableEq

/-- A syllable block is open when it ends in its vowel; there are 27 closed ones after each. -/
def syllable (code : Nat) : Joining :=
  if (code - firstSyllable) % 28 = 0 then .openSyllable else .closedSyllable

def joining (c : Char) : Joining :=
  let code := c.toNat
  if c = '\r' then .carriageReturn
  else if c = '\n' then .lineFeed
  else if inRanges separatorRanges code then .separator
  else if code = 0x200D then .joiner
  else if inRanges combiningRanges code || inRanges modifierRanges code then .combining
  else if inRanges spacingRanges code then .spacing
  else if inRanges prependedRanges code then .prepended
  else if inRanges leadingRanges code then .leading
  else if inRanges vowelRanges code then .vowel
  else if inRanges trailingRanges code then .trailing
  else if inRanges [(firstSyllable, lastSyllable)] code then syllable code
  else if inRanges regionalRanges code then .regional
  else if inRanges pictographRanges code then .pictograph
  else if inRanges consonantRanges code then .consonant
  else .plain

def isLinker (c : Char) : Bool := inRanges linkerRanges c.toNat

namespace Joining

def isSeparator : Joining → Bool
  | .carriageReturn | .lineFeed | .separator => true
  | _ => false

def isAttached : Joining → Bool
  | .combining | .joiner | .spacing => true
  | _ => false

def formBlock : Joining → Joining → Bool
  | .leading, .leading | .leading, .vowel | .leading, .openSyllable | .leading, .closedSyllable => true
  | .openSyllable, .vowel | .openSyllable, .trailing | .vowel, .vowel | .vowel, .trailing => true
  | .closedSyllable, .trailing | .trailing, .trailing => true
  | _, _ => false

end Joining
end Text
end ResumableForth
