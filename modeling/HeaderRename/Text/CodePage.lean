/-!
# Single-byte code pages

The lower half of a page is ASCII; the upper half is a list of 128 characters. A character outside
the page is written as a decimal character reference.
-/
set_option autoImplicit false

namespace HeaderRename

structure CodePage where
  upper : List Char
  length_upper : upper.length = 128
  nodup_upper : upper.Nodup
  le_of_mem_upper : ∀ c ∈ upper, 128 ≤ c.toNat

namespace CodePage

theorem le_of_all {upper : List Char} (h : upper.all (fun c => 128 ≤ c.toNat) = true) :
    ∀ c ∈ upper, 128 ≤ c.toNat := by
  simpa using h

def decodeByte (page : CodePage) (b : UInt8) : Char :=
  if b.toNat < 128 then Char.ofNat b.toNat else page.upper.getD (b.toNat - 128) '\uFFFD'

def byte? (page : CodePage) (c : Char) : Option UInt8 :=
  if c.toNat < 128 then some (UInt8.ofNat c.toNat)
  else (page.upper.idxOf? c).map fun i => UInt8.ofNat (128 + i)

/-- The reference to a character by its number, as in `&#8364;`. -/
def reference (c : Char) : List UInt8 :=
  ("&#" ++ toString c.toNat ++ ";").toUTF8.toList

def encodeChar (page : CodePage) (c : Char) : List UInt8 :=
  match page.byte? c with
  | some b => [b]
  | none => reference c

def decode (page : CodePage) (bytes : List UInt8) : List Char :=
  bytes.map page.decodeByte

def encode (page : CodePage) (text : List Char) : List UInt8 :=
  text.flatMap page.encodeChar

/-- The upper half of windows-1252; its five unassigned bytes stand for the C1 controls. -/
def western : CodePage where
  upper := [
   0x20AC, 0x0081, 0x201A, 0x0192, 0x201E, 0x2026, 0x2020, 0x2021,
   0x02C6, 0x2030, 0x0160, 0x2039, 0x0152, 0x008D, 0x017D, 0x008F,
   0x0090, 0x2018, 0x2019, 0x201C, 0x201D, 0x2022, 0x2013, 0x2014,
   0x02DC, 0x2122, 0x0161, 0x203A, 0x0153, 0x009D, 0x017E, 0x0178,
   0x00A0, 0x00A1, 0x00A2, 0x00A3, 0x00A4, 0x00A5, 0x00A6, 0x00A7,
   0x00A8, 0x00A9, 0x00AA, 0x00AB, 0x00AC, 0x00AD, 0x00AE, 0x00AF,
   0x00B0, 0x00B1, 0x00B2, 0x00B3, 0x00B4, 0x00B5, 0x00B6, 0x00B7,
   0x00B8, 0x00B9, 0x00BA, 0x00BB, 0x00BC, 0x00BD, 0x00BE, 0x00BF,
   0x00C0, 0x00C1, 0x00C2, 0x00C3, 0x00C4, 0x00C5, 0x00C6, 0x00C7,
   0x00C8, 0x00C9, 0x00CA, 0x00CB, 0x00CC, 0x00CD, 0x00CE, 0x00CF,
   0x00D0, 0x00D1, 0x00D2, 0x00D3, 0x00D4, 0x00D5, 0x00D6, 0x00D7,
   0x00D8, 0x00D9, 0x00DA, 0x00DB, 0x00DC, 0x00DD, 0x00DE, 0x00DF,
   0x00E0, 0x00E1, 0x00E2, 0x00E3, 0x00E4, 0x00E5, 0x00E6, 0x00E7,
   0x00E8, 0x00E9, 0x00EA, 0x00EB, 0x00EC, 0x00ED, 0x00EE, 0x00EF,
   0x00F0, 0x00F1, 0x00F2, 0x00F3, 0x00F4, 0x00F5, 0x00F6, 0x00F7,
   0x00F8, 0x00F9, 0x00FA, 0x00FB, 0x00FC, 0x00FD, 0x00FE, 0x00FF].map Char.ofNat
  length_upper := by decide +kernel
  nodup_upper := by decide +kernel
  le_of_mem_upper := le_of_all (by decide +kernel)

/-- The upper half of code page 866. -/
def cyrillic : CodePage where
  upper := [
   0x0410, 0x0411, 0x0412, 0x0413, 0x0414, 0x0415, 0x0416, 0x0417,
   0x0418, 0x0419, 0x041A, 0x041B, 0x041C, 0x041D, 0x041E, 0x041F,
   0x0420, 0x0421, 0x0422, 0x0423, 0x0424, 0x0425, 0x0426, 0x0427,
   0x0428, 0x0429, 0x042A, 0x042B, 0x042C, 0x042D, 0x042E, 0x042F,
   0x0430, 0x0431, 0x0432, 0x0433, 0x0434, 0x0435, 0x0436, 0x0437,
   0x0438, 0x0439, 0x043A, 0x043B, 0x043C, 0x043D, 0x043E, 0x043F,
   0x2591, 0x2592, 0x2593, 0x2502, 0x2524, 0x2561, 0x2562, 0x2556,
   0x2555, 0x2563, 0x2551, 0x2557, 0x255D, 0x255C, 0x255B, 0x2510,
   0x2514, 0x2534, 0x252C, 0x251C, 0x2500, 0x253C, 0x255E, 0x255F,
   0x255A, 0x2554, 0x2569, 0x2566, 0x2560, 0x2550, 0x256C, 0x2567,
   0x2568, 0x2564, 0x2565, 0x2559, 0x2558, 0x2552, 0x2553, 0x256B,
   0x256A, 0x2518, 0x250C, 0x2588, 0x2584, 0x258C, 0x2590, 0x2580,
   0x0440, 0x0441, 0x0442, 0x0443, 0x0444, 0x0445, 0x0446, 0x0447,
   0x0448, 0x0449, 0x044A, 0x044B, 0x044C, 0x044D, 0x044E, 0x044F,
   0x0401, 0x0451, 0x0404, 0x0454, 0x0407, 0x0457, 0x040E, 0x045E,
   0x00B0, 0x2219, 0x00B7, 0x221A, 0x2116, 0x00A4, 0x25A0, 0x00A0].map Char.ofNat
  length_upper := by decide +kernel
  nodup_upper := by decide +kernel
  le_of_mem_upper := le_of_all (by decide +kernel)

end CodePage

end HeaderRename
